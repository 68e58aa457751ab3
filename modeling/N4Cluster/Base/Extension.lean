import N4Cluster.Base.Discipline

/-! A machine with another one beside it: calls of either act on their own part of the
store. A program of the first runs unchanged on both, and a discipline of the first goes
on to govern what it governed. -/
namespace Interleave

variable {Req ω κ : Type} {res : ω → Type} {out : κ → Type} {ε α β σ τ ι : Type}

/-- Two machines, each with its part of the store. -/
def Machine.beside (M : Machine ω res σ ι) (N : Machine κ out τ ι) :
    Machine (ω ⊕ κ) (Sum.elim res out) (σ × τ) ι where
  exec
    | io, .inl op, (s, t) => ((M.exec io op s).1, ((M.exec io op s).2, t))
    | io, .inr op, (s, t) => ((N.exec io op t).1, (s, (N.exec io op t).2))
  valid
    | io, .inl op, (s, _) => M.valid io op s
    | io, .inr op, (_, t) => N.valid io op t

namespace Program

/-- A program of the first machine. -/
def within : Program ω res ε α → Program (ω ⊕ κ) (Sum.elim res out) ε α
  | ret value => ret value
  | raise error => raise error
  | call op next => call (.inl op) fun answer => (next answer).within

theorem AllCalls.and {Q R : ω → Prop} {p : Program ω res ε α} (first : p.AllCalls Q) (second : p.AllCalls R) :
    p.AllCalls fun op => Q op ∧ R op := by
  induction p with
  | ret value => trivial
  | raise error => trivial
  | call op next ih => exact ⟨⟨first.1, second.1⟩, fun answer => ih answer (first.2 answer) (second.2 answer)⟩

/-- It makes the calls it made before, and none of the other machine. -/
theorem AllCalls.within {R : ω → Prop} {p : Program ω res ε α} (all : p.AllCalls R) :
    (p.within : Program (ω ⊕ κ) (Sum.elim res out) ε α).AllCalls (Sum.elim R fun _ => False) := by
  induction p with
  | ret value => trivial
  | raise error => trivial
  | call op next ih => exact ⟨all.1, fun answer => ih answer (all.2 answer)⟩

end Program

/-! ## Disciplines -/

namespace Discipline
variable {M : Machine ω res σ ι} {N : Machine κ out τ ι}

/-- The first part is kept as before; calls of the other machine are always due. -/
def beside (D : Discipline M) (N : Machine κ out τ ι) : Discipline (M.beside N) where
  inv s := D.inv s.1
  moves s t := D.moves s.1 t.1
  due s := Sum.elim (D.due s.1) fun _ => True
  refl s := D.refl s.1
  trans := D.trans
  kept := by
    rintro io (op | op) ⟨s, t⟩ inv valid due
    · exact D.kept inv valid due
    · exact ⟨inv, D.refl s⟩

namespace Keeps
variable {D : Discipline M} {Q : α → σ → Prop} {p : Program ω res ε α} {s : σ}

theorem within (keeps : D.Keeps Q p s) (t : τ) :
    (D.beside N).Keeps (fun value u => Q value u.1) p.within (s, t) := by
  suffices general : ∀ {post : Except ε α → σ → Prop} {s : σ} (t : τ), p.Obeys M D.contract post s →
      (p.within : Program (ω ⊕ κ) (Sum.elim res out) ε α).Obeys (M.beside N) (D.beside N).contract
        (fun ended u => post ended u.1) (s, t) from general t keeps
  clear keeps
  intro post s t obeys
  induction p generalizing s t with
  | ret value => exact obeys
  | raise error => exact obeys
  | call op next ih =>
    rintro ⟨s', t'⟩ moved inv io valid -
    obtain ⟨due, rest⟩ := obeys s' moved inv io valid trivial
    exact ⟨due, ih _ _ rest⟩

/-- Where every call is due on any store that the discipline keeps. -/
theorem of_calls {R : ω → Prop} (all : p.AllCalls R) (due : ∀ s op, D.inv s → R op → D.due s op) (s : σ) :
    D.Keeps (fun _ _ => True) p s := by
  induction p generalizing s with
  | ret value => exact .ret trivial
  | raise error => exact .raise _
  | call op next ih => exact .call fun s' io _ inv _ => ⟨due s' op inv all.1, fun _ => ih _ (all.2 _) _⟩

theorem of_returns {R : ω → Prop} {Q : α → Prop} (all : p.AllCalls R) (returns : p.Returns Q)
    (due : ∀ s op, D.inv s → R op → D.due s op) (s : σ) : D.Keeps (fun value _ => Q value) p s := by
  induction p generalizing s with
  | ret value => exact .ret returns
  | raise error => exact .raise _
  | call op next ih =>
    exact .call fun s' io _ inv _ => ⟨due s' op inv all.1, fun _ => ih _ (all.2 _) (returns _) _⟩

end Keeps
end Discipline

/-! ## The calls of a pool -/

namespace System
variable {S : System Req ω res ε α σ ι} {ok : Pool Req ω res ε α σ → Label Req ι → Prop}
  {p q : Pool Req ω res ε α σ} {l : Label Req ι} {R : Req → ω → Prop}

/-- Every thread makes only the calls of its request. -/
def CallsOf (R : Req → ω → Prop) (p : Pool Req ω res ε α σ) : Prop :=
  ∀ th ∈ p.threads, th.program.AllCalls (R th.request)

theorem CallsOf.step (made : ∀ request, (S.handler request).AllCalls (R request)) (calls : CallsOf R p)
    (stepped : S.take p l = some q) : CallsOf R q := by
  cases l with
  | spawn request =>
    cases Option.some.inj stepped
    intro th member
    rcases List.mem_append.mp member with old | new
    · exact calls th old
    · rw [List.mem_singleton.mp new]
      exact made request
  | restart =>
    cases Option.some.inj stepped
    intro th member
    cases member
  | sched i io =>
    obtain ⟨request, op, next, found, rfl⟩ := sched_cases stepped
    intro th member
    rcases List.mem_or_eq_of_mem_set member with old | rfl
    · exact calls th old
    · exact (calls _ (List.mem_of_getElem? found)).2 _

theorem Reaches.calls (made : ∀ request, (S.handler request).AllCalls (R request))
    (run : Reaches S ok p q) (calls : CallsOf R p) : CallsOf R q :=
  run.invariant (fun calls _ stepped => calls.step made stepped) calls

end System
end Interleave
