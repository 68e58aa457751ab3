import Mathlib.Data.List.Forall2
import Mathlib.Tactic.Common

/-! Computations in `Except`: what a returned value says of the steps before it. -/
namespace Fallible

variable {ε α β σ : Type}

theorem bind_ok_iff {x : Except ε α} {k : α → Except ε β} {b : β} :
    x >>= k = .ok b ↔ ∃ a, x = .ok a ∧ k a = .ok b := by
  cases x with
  | error exn => simp [bind, Except.bind]
  | ok a => simp [bind, Except.bind]

/-- A check whose failure raises has passed where a later step returns. -/
theorem check_ok_iff {condition : Prop} [Decidable condition] {exn : ε} {k : Except ε β} {b : β} :
    (if condition then .error exn else k) = .ok b ↔ ¬condition ∧ k = .ok b := by
  by_cases fails : condition
  · simp [fails]
  · simp [fails]

/-- The loop rule: what every turn preserves holds of the turns together. -/
theorem foldlM_ok {step : σ → α → Except ε σ} (Inv : List α → σ → Prop)
    (turn : ∀ seen s item s', Inv seen s → step s item = .ok s' → Inv (seen ++ [item]) s')
    {items : List α} {s s' : σ} (start : Inv [] s) (ran : items.foldlM step s = .ok s') :
    Inv items s' := by
  suffices general : ∀ seen s, Inv seen s → items.foldlM step s = .ok s' → Inv (seen ++ items) s' by
    exact general [] s start ran
  clear start ran s
  induction items with
  | nil =>
    intro seen s held ran
    cases ran
    rwa [List.append_nil]
  | cons item items ih =>
    intro seen s held ran
    rw [List.foldlM_cons] at ran
    obtain ⟨next, stepped, rest⟩ := bind_ok_iff.mp ran
    have whole := ih (seen ++ [item]) next (turn seen s item next held stepped) rest
    rwa [List.append_assoc] at whole

theorem mapM_ok {f : α → Except ε β} {items : List α} {values : List β}
    (ran : items.mapM f = .ok values) : List.Forall₂ (fun item value => f item = .ok value) items values := by
  induction items generalizing values with
  | nil =>
    cases ran
    exact .nil
  | cons item items ih =>
    rw [List.mapM_cons] at ran
    obtain ⟨value, here, ran⟩ := bind_ok_iff.mp ran
    obtain ⟨rest, later, ran⟩ := bind_ok_iff.mp ran
    cases ran
    exact .cons here (ih later)

theorem forM_ok_iff {f : α → Except ε Unit} {items : List α} :
    items.forM f = .ok () ↔ ∀ item ∈ items, f item = .ok () := by
  induction items with
  | nil => simp [pure, Except.pure]
  | cons item rest ih =>
    rw [List.forall_mem_cons, ← ih]
    change (f item >>= fun _ => rest.forM f) = .ok () ↔ _
    cases first : f item with
    | error error => simp [bind, Except.bind]
    | ok value => simp [bind, Except.bind]

end Fallible
