import Mathlib.Tactic.Common

/-! Computations over a state that may fail, and leave what they had done by then: how they
relate the states before and after, however they end, and what is known where they return. -/
namespace Acting

def Act (σ ε α : Type) : Type := σ → Except ε α × σ

namespace Act
variable {σ ε α β : Type}

instance monad : Monad (Act σ ε) where
  pure value := fun s => (.ok value, s)
  bind m k := fun s =>
    match m s with
    | (.ok value, t) => k value t
    | (.error error, t) => (.error error, t)

def raise (error : ε) : Act σ ε α := fun s => (.error error, s)

def ofExcept (result : Except ε α) : Act σ ε α := fun s => (result, s)

/-- A question about the state. -/
def ask (question : σ → Except ε α) : Act σ ε α := fun s => (question s, s)

theorem bind_run (m : Act σ ε α) (k : α → Act σ ε β) (s : σ) :
    (m >>= k) s = match m s with
      | (.ok value, t) => k value t
      | (.error error, t) => (.error error, t) := rfl

theorem ofExcept_bind (result : Except ε α) (k : α → Act σ ε β) (s : σ) :
    (ofExcept result >>= k) s = match result with
      | .ok value => k value s
      | .error error => (.error error, s) := by
  cases result <;> rfl

theorem bind_returns {m : Act σ ε α} {k : α → Act σ ε β} {s u : σ} {result : β}
    (ran : (m >>= k) s = (.ok result, u)) : ∃ value t, m s = (.ok value, t) ∧ k value t = (.ok result, u) := by
  rw [bind_run] at ran
  cases first : m s with
  | mk ended t =>
    rw [first] at ran
    cases ended with
    | error error => cases ran
    | ok value => exact ⟨value, t, rfl, ran⟩

theorem pure_returns {value result : α} {s t : σ} (ran : (pure value : Act σ ε α) s = (.ok result, t)) :
    value = result ∧ s = t := by
  cases ran
  exact ⟨rfl, rfl⟩

theorem ask_returns {question : σ → Except ε α} {value : α} {s t : σ} (ran : ask question s = (.ok value, t)) :
    question s = .ok value ∧ s = t := Prod.mk.inj ran

theorem ofExcept_returns {result : Except ε α} {value : α} {s t : σ} (ran : ofExcept result s = (.ok value, t)) :
    result = .ok value ∧ s = t := Prod.mk.inj ran

/-! ## Frames -/

/-- However it ends, the state after it is so related to the one before. -/
def Leaves (R : σ → σ → Prop) (m : Act σ ε α) : Prop := ∀ s, R s (m s).2

variable {R : σ → σ → Prop} {m : Act σ ε α} {k : α → Act σ ε β} (refl : ∀ s, R s s)

theorem Leaves.ran (leaves : m.Leaves R) {ended : Except ε α} {s t : σ} (ran : m s = (ended, t)) : R s t := by
  have here := leaves s
  rwa [ran] at here

theorem Leaves.mono {R' : σ → σ → Prop} (leaves : m.Leaves R) (weaker : ∀ s t, R s t → R' s t) : m.Leaves R' :=
  fun s => weaker _ _ (leaves s)

theorem Leaves.bind (trans : ∀ {a b c}, R a b → R b c → R a c) (first : m.Leaves R)
    (second : ∀ value, (k value).Leaves R) : (m >>= k).Leaves R := by
  intro s
  have here := first s
  rw [bind_run]
  cases ran : m s with
  | mk ended t =>
    rw [ran] at here
    cases ended with
    | error error => exact here
    | ok value => exact trans here (second value t)

include refl

theorem Leaves.pure (value : α) : (Pure.pure value : Act σ ε α).Leaves R := refl

theorem Leaves.raise (error : ε) : (Act.raise error : Act σ ε α).Leaves R := refl

theorem Leaves.ask (question : σ → Except ε α) : (Act.ask question).Leaves R := refl

theorem Leaves.ofExcept (result : Except ε α) : (Act.ofExcept result : Act σ ε α).Leaves R := refl

end Act
end Acting
