import N4Cluster.Base.Pool

/-! Programs over a store that only moves one way. What a program has seen of it stays so
while others act, so whether a call is due can be judged by what was seen before. What due
calls keep is kept by every pool whose programs make no others. -/
namespace Interleave

variable {Req ω : Type} {res : ω → Type} {ε α β σ ι : Type}

/-- Which calls are due on a store, what they keep, and how they move it. -/
structure Discipline (M : Machine ω res σ ι) where
  inv : σ → Prop
  moves : σ → σ → Prop
  due : σ → ω → Prop
  refl : ∀ s, moves s s
  trans : ∀ {a b c}, moves a b → moves b c → moves a c
  kept : ∀ {io op s}, inv s → M.valid io op s → due s op →
    inv (M.exec io op s).2 ∧ moves s (M.exec io op s).2

namespace Discipline
variable {M : Machine ω res σ ι} (D : Discipline M)

def contract : Contract ω res ε α σ where
  inv := D.inv
  rely _ := D.moves
  admits _ _ _ := True
  gives s op _ _ := D.due s op

/-- Started on `s`, the program makes due calls only, and what it returns satisfies `Q`. -/
def Keeps (Q : α → σ → Prop) (p : Program ω res ε α) (s : σ) : Prop :=
  p.Obeys M D.contract (fun out t => D.moves s t ∧ ∀ value, out = .ok value → Q value t) s

namespace Keeps
variable {D : Discipline M} {Q R : α → σ → Prop} {p : Program ω res ε α} {s t : σ}

/-- Started later, the program ends on a store that comes after the earlier one too. -/
theorem back (keeps : D.Keeps Q p t) (moved : D.moves s t) :
    p.Obeys M D.contract (fun out u => D.moves s u ∧ ∀ value, out = .ok value → Q value u) t :=
  Program.Obeys.mono keeps (fun _ _ _ relied => relied) (fun _ inv => inv) (fun _ _ _ admits => admits)
    (fun _ _ _ _ gives => gives) fun _ _ post => ⟨D.trans moved post.1, post.2⟩

theorem ret {value : α} (holds : Q value s) : D.Keeps Q (.ret value : Program ω res ε α) s :=
  ⟨D.refl s, fun _ same => Except.ok.inj same ▸ holds⟩

theorem raise (error : ε) : D.Keeps Q (.raise error : Program ω res ε α) s :=
  ⟨D.refl s, fun _ same => by cases same⟩

theorem call {op : ω} {next : res op → Program ω res ε α}
    (step : ∀ s' io, D.moves s s' → D.inv s' → M.valid io op s' → D.due s' op ∧
      (D.moves s' (M.exec io op s').2 → D.Keeps Q (next (M.exec io op s').1) (M.exec io op s').2)) :
    D.Keeps Q (.call op next) s := by
  intro s' moved inv io valid _
  obtain ⟨due, rest⟩ := step s' io moved inv valid
  have moves := (D.kept inv valid due).2
  exact ⟨due, (rest moves).back (D.trans moved moves)⟩

theorem mono (keeps : D.Keeps Q p s) (weaker : ∀ value t, D.moves s t → Q value t → R value t) : D.Keeps R p s :=
  Program.Obeys.mono keeps (fun _ _ _ relied => relied) (fun _ inv => inv) (fun _ _ _ admits => admits)
    (fun _ _ _ _ gives => gives) fun _ t post => ⟨post.1, fun value same => weaker value t post.1 (post.2 value same)⟩

theorem bind {R : β → σ → Prop} {k : α → Program ω res ε β} (first : D.Keeps Q p s)
    (second : ∀ value t, D.moves s t → Q value t → D.Keeps R (k value) t) : D.Keeps R (p >>= k) s := by
  refine Program.Obeys.bind (C := D.contract) first (fun value t post => ?_) fun error t post => ⟨post.1, fun _ same => by cases same⟩
  exact (second value t post.1 (post.2 value rfl)).back post.1

theorem handle {k : ε → Program ω res ε α} (first : D.Keeps Q p s)
    (second : ∀ error t, D.moves s t → D.Keeps Q (k error) t) : D.Keeps Q (p.handle k) s := by
  refine Program.Obeys.handle (C := D.contract) first (fun value t post => post) fun error t post => ?_
  exact (second error t post.1).back post.1

theorem forEach {κ : Type} {items : List κ} {body : κ → Program ω res ε Unit}
    (each : ∀ item ∈ items, ∀ t, D.moves s t → D.Keeps (fun _ _ => True) (body item) t) :
    D.Keeps (fun _ _ => True) (Program.forEach items body) s := by
  induction items generalizing s with
  | nil => exact .ret trivial
  | cons item rest ih =>
    refine (each item List.mem_cons_self s (D.refl s)).bind fun _ t moved _ => ih fun other member u later => ?_
    exact each other (List.mem_cons_of_mem _ member) u (D.trans moved later)

end Keeps

/-! ## Pools -/

variable {S : System Req ω res ε α σ ι} (D : Discipline S.toMachine)

/-- Where turns are as `ok` says, every handler keeps to the discipline, and so does a restart; what
handlers answer stays true. -/
structure Governs (Q : Req → α → σ → Prop := fun _ _ _ => True)
    (ok : Pool Req ω res ε α σ → Label Req ι → Prop := S.Lawful) : Prop where
  lawful : ∀ {p l}, ok p l → S.Lawful p l := by intros; assumption
  serves : ∀ p request, ok p (.spawn request) → D.inv p.store → D.Keeps (Q request) (S.handler request) p.store
  recovers : ∀ s, D.inv s → D.inv (S.recover s) ∧ D.moves s (S.recover s)
  stays : ∀ {request value s t}, D.moves s t → Q request value s → Q request value t := by intros; trivial

/-- The invariant holds, every thread still keeps to the discipline, and what was answered is true. -/
def Governed (p : Pool Req ω res ε α σ) (Q : Req → α → σ → Prop := fun _ _ _ => True) : Prop :=
  D.inv p.store ∧
    System.AllObey S (fun _ => D.contract) (fun request out s => ∀ value, out = .ok value → Q request value s) p

variable {D} {p q : Pool Req ω res ε α σ} {l : Label Req ι} {Q : Req → α → σ → Prop}
  {ok : Pool Req ω res ε α σ → Label Req ι → Prop}

theorem Governs.rules (governs : D.Governs Q ok) :
    System.Cooperates S ok (fun _ => D.contract)
      (fun request out s => ∀ value, out = .ok value → Q request value s) D.inv where
  shared _ _ inv := inv
  trans _ _ _ _ _ first second := D.trans first second
  same _ _ s _ := D.refl s
  spawned p request allowed inv :=
    Program.Obeys.mono (governs.serves p request allowed inv) (fun _ _ _ relied => relied) (fun _ inv => inv)
      (fun _ _ _ admits => admits) (fun _ _ _ _ gives => gives) fun _ _ post => post.2
  allowed p i io request op next found allowed _ :=
    ⟨governs.lawful allowed op (by simp only [Pool.waiting, found]), trivial⟩
  keeps p i io request op next found allowed inv due :=
    (D.kept inv (governs.lawful allowed op (by simp only [Pool.waiting, found])) due).1
  relied p i io request op next found allowed inv due _ _ _ _ := by
    have moves := (D.kept inv (governs.lawful allowed op (by simp only [Pool.waiting, found])) due).2
    exact ⟨fun _ _ _ => moves, fun _ answered value same => governs.stays moves (answered value same)⟩
  recovers p _ inv := (governs.recovers p.store inv).1

theorem Governs.step (governs : D.Governs Q ok) (governed : D.Governed p Q) (allowed : ok p l)
    (stepped : S.take p l = some q) : D.Governed q Q ∧ D.moves p.store q.store := by
  have next : D.Governed q Q := governs.rules.step governed.1 governed.2 allowed stepped
  refine ⟨next, ?_⟩
  cases l with
  | spawn request =>
    cases Option.some.inj stepped
    exact D.refl _
  | restart =>
    cases Option.some.inj stepped
    exact (governs.recovers p.store governed.1).2
  | sched i io =>
    obtain ⟨request, op, next, found, rfl⟩ := System.sched_cases stepped
    obtain ⟨due, _⟩ := governs.rules.given governed.1 governed.2 found allowed
    exact (D.kept governed.1 (governs.lawful allowed op (by simp only [Pool.waiting, found])) due).2

theorem Governs.reaches (governs : D.Governs Q ok) (governed : D.Governed p Q)
    (run : System.Reaches S ok p q) : D.Governed q Q ∧ D.moves p.store q.store :=
  ⟨run.invariant (fun governed allowed stepped => (governs.step governed allowed stepped).1) governed,
    run.related (I := fun p => D.Governed p Q) D.refl D.trans governs.step governed⟩

/-- What a thread has answered is true. -/
theorem Governed.answered (governed : D.Governed p Q) {i : Nat} {request : Req} {value : α}
    (found : p.threads[i]? = some ⟨request, .ret value⟩) : Q request value p.store :=
  governed.2 _ (List.mem_of_getElem? found) value rfl

end Discipline
end Interleave
