import N4Cluster.Base.Pool

/-! A client that only looks, beside a running system. Each of its questions is answered from
the store as the system has left it by then, so what it has heard is a sequence of facts
about later and later states of one run. -/
namespace Interleave

variable {Req ω κ : Type} {res : ω → Type} {out : κ → Type} {ε α φ β γ σ ι : Type}

/-- The answers a client is given where nothing happens meanwhile. -/
def Program.ask (look : (q : κ) → out q) : Program κ out φ β → Except φ β
  | .ret value => .ok value
  | .raise error => .error error
  | .call question next => (next (look question)).ask look

namespace System

/-- A client between two states of a run, and how it ended. -/
inductive Observes (S : System Req ω res ε α σ ι) (ok : Pool Req ω res ε α σ → Label Req ι → Prop)
    (look : ι → (q : κ) → σ → out q) {β : Type} :
    Pool Req ω res ε α σ → Program κ out φ β → Pool Req ω res ε α σ → Except φ β → Prop where
  | ret (value : β) : Observes S ok look p (.ret value) p (.ok value)
  | raise (error : φ) : Observes S ok look p (.raise error) p (.error error)
  | call {question : κ} {next : out question → Program κ out φ β} (later : Reaches S ok p q) (io : ι)
      (rest : Observes S ok look q (next (look io question q.store)) r ended) :
      Observes S ok look p (.call question next) r ended

namespace Observes
variable {S : System Req ω res ε α σ ι} {ok : Pool Req ω res ε α σ → Label Req ι → Prop}
  {look : ι → (q : κ) → σ → out q} {p q r : Pool Req ω res ε α σ} {c : Program κ out φ β} {k : β → Program κ out φ γ}

theorem reaches {ended : Except φ β} (observes : Observes S ok look p c q ended) : Reaches S ok p q := by
  induction observes with
  | ret | raise => exact .refl _
  | call later io rest ih => exact later.trans ih

theorem ask (p : Pool Req ω res ε α σ) (io : ι) (c : Program κ out φ β) :
    Observes S ok look p c p (c.ask fun question => look io question p.store) := by
  induction c with
  | ret value => exact .ret value
  | raise error => exact .raise error
  | call question next ih => exact .call (.refl p) io (ih _)

theorem ask_some {p : Pool Req ω res ε α σ} {io : ι} {value : β}
    (answered : (c.ask fun question => look io question p.store).toOption = some value) :
    Observes S ok look p c p (.ok value) := by
  have asked : Observes S ok look p c p (c.ask fun question => look io question p.store) := ask p io c
  cases ended : c.ask fun question => look io question p.store with
  | error error =>
    rw [ended] at answered
    cases answered
  | ok value' =>
    rw [ended] at answered asked
    cases answered
    exact asked

theorem call_cases {question : κ} {next : out question → Program κ out φ β} {ended : Except φ β}
    (observes : Observes S ok look p (.call question next) r ended) :
    ∃ q io, Reaches S ok p q ∧ Observes S ok look q (next (look io question q.store)) r ended := by
  cases observes with
  | call later io rest => exact ⟨_, io, later, rest⟩

/-- What is sequenced has ended in its first part, or its second part began where the first ended. -/
theorem bind_cases {ended : Except φ γ} (observes : Observes S ok look p (c >>= k) r ended) :
    (∃ value q, Observes S ok look p c q (.ok value) ∧ Observes S ok look q (k value) r ended) ∨
    ∃ error, Observes S ok look p c r (.error error) ∧ ended = .error error := by
  induction c generalizing p with
  | ret value => exact .inl ⟨value, p, .ret value, observes⟩
  | raise error =>
    cases observes
    exact .inr ⟨error, .raise error, rfl⟩
  | call question next ih =>
    obtain ⟨q, io, later, rest⟩ := call_cases observes
    obtain ⟨value, u, first, second⟩ | ⟨error, first, same⟩ := ih _ rest
    · exact .inl ⟨value, u, .call later io first, second⟩
    · exact .inr ⟨error, .call later io first, same⟩

end Observes
end System
end Interleave
