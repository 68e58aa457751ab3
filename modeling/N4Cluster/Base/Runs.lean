import Mathlib.Tactic.Common

/-! Runs of a partial step function under labels. -/
namespace Interleave

variable {σ Λ : Type}

/-- The runs from a state every label of which is allowed where it is taken. -/
inductive Runs (step : σ → Λ → Option σ) (ok : σ → Λ → Prop) (s : σ) : σ → Prop where
  | refl : Runs step ok s s
  | next : Runs step ok s t → ok t l → step t l = some u → Runs step ok s u

variable {step : σ → Λ → Option σ} {ok : σ → Λ → Prop} {s t u : σ}

namespace Runs

theorem invariant {I : σ → Prop} (preserves : ∀ {s l t}, I s → ok s l → step s l = some t → I t)
    (run : Runs step ok s t) (initial : I s) : I t := by
  induction run with
  | refl => exact initial
  | next _ allowed stepped ih => exact preserves ih allowed stepped

theorem mono {ok' : σ → Λ → Prop} (weaker : ∀ s l, ok s l → ok' s l) (run : Runs step ok s t) :
    Runs step ok' s t := by
  induction run with
  | refl => exact .refl
  | next _ allowed stepped ih => exact .next ih (weaker _ _ allowed) stepped

theorem trans (first : Runs step ok s t) (second : Runs step ok t u) : Runs step ok s u := by
  induction second with
  | refl => exact first
  | next _ allowed stepped ih => exact .next ih allowed stepped

end Runs

/-- Takes a list of labels, checking each where it is taken. -/
def takes (step : σ → Λ → Option σ) (ok : σ → Λ → Prop) [∀ s l, Decidable (ok s l)] :
    List Λ → σ → Option σ
  | [], s => some s
  | l :: rest, s =>
    if ok s l then
      match step s l with
      | some t => takes step ok rest t
      | none => none
    else none

theorem takes_runs [∀ s l, Decidable (ok s l)] {labels : List Λ} (before : Runs step ok s t)
    (taken : takes step ok labels t = some u) : Runs step ok s u := by
  induction labels generalizing t with
  | nil => exact Option.some.inj taken ▸ before
  | cons l rest ih =>
    simp only [takes] at taken
    split at taken
    · rename_i allowed
      split at taken
      · rename_i stepped
        exact ih (.next before allowed stepped) taken
      · contradiction
    · contradiction

theorem takes_any [∀ s l, Decidable (ok s l)] {labels : List Λ} {f : σ → Bool}
    (taken : (takes step ok labels s).any f = true) : ∃ t, Runs step ok s t ∧ f t = true := by
  obtain ⟨t, reached, holds⟩ := (Option.any_eq_true _ _).mp taken
  exact ⟨t, takes_runs .refl reached, holds⟩

end Interleave
