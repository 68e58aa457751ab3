import Mathlib.Data.List.Forall2

/-! Lists related item by item. -/
namespace Related

variable {γ δ : Type}

theorem forall₂_right {R : γ → δ → Prop} {first : List γ} {second : List δ}
    (related : List.Forall₂ R first second) {b : δ} (member : b ∈ second) : ∃ a ∈ first, R a b := by
  induction related with
  | nil => cases member
  | cons head _ ih =>
    rcases List.mem_cons.mp member with rfl | later
    · exact ⟨_, List.mem_cons_self, head⟩
    · obtain ⟨a, inside, holds⟩ := ih later
      exact ⟨a, List.mem_cons_of_mem _ inside, holds⟩

theorem forall₂_left {R : γ → δ → Prop} {first : List γ} {second : List δ}
    (related : List.Forall₂ R first second) {a : γ} (member : a ∈ first) : ∃ b ∈ second, R a b :=
  forall₂_right (List.Forall₂.flip related) member

theorem forall₂_both {R S : γ → δ → Prop} {first : List γ} {second : List δ}
    (one : List.Forall₂ R first second) (two : List.Forall₂ S first second) :
    List.Forall₂ (fun a b => R a b ∧ S a b) first second := by
  induction one with
  | nil => exact .nil
  | cons head _ ih =>
    cases two with
    | cons head' later => exact .cons ⟨head, head'⟩ (ih later)

theorem forall₂_split {R : γ → δ → Prop} {first : List γ} {front behind : List δ} {b : δ}
    (related : List.Forall₂ R first (front ++ b :: behind)) :
    ∃ front' a behind', first = front' ++ a :: behind' ∧ List.Forall₂ R front' front ∧ R a b ∧
      List.Forall₂ R behind' behind := by
  induction front generalizing first with
  | nil =>
    obtain _ | ⟨here, later⟩ := related
    exact ⟨[], _, _, rfl, .nil, here, later⟩
  | cons item front ih =>
    obtain _ | ⟨here, later⟩ := related
    obtain ⟨front', a, behind', rfl, earlier, holds, rest⟩ := ih later
    exact ⟨_ :: front', a, behind', rfl, .cons here earlier, holds, rest⟩

theorem forall₂_exists {R : γ → δ → Prop} {first : List γ} (each : ∀ a ∈ first, ∃ b, R a b) :
    ∃ second, List.Forall₂ R first second := by
  induction first with
  | nil => exact ⟨[], .nil⟩
  | cons a rest ih =>
    obtain ⟨b, holds⟩ := each a List.mem_cons_self
    obtain ⟨second, related⟩ := ih fun a member => each a (List.mem_cons_of_mem _ member)
    exact ⟨b :: second, .cons holds related⟩

theorem forall₂_set {R : γ → δ → Prop} {first : List γ} {second : List δ} {i : Nat}
    (related : List.Forall₂ R first second) {a : γ} {b : δ} (holds : R a b) :
    List.Forall₂ R (first.set i a) (second.set i b) := by
  induction related generalizing i with
  | nil => exact .nil
  | cons head later ih =>
    cases i with
    | zero => exact .cons holds later
    | succ i => exact .cons head ih

theorem forall₂_place {R : γ → δ → Prop} {first : List γ} {second : List δ} {i : Nat} {a : γ}
    (related : List.Forall₂ R first second) (place : first[i]? = some a) :
    ∃ b, second[i]? = some b ∧ R a b := by
  induction related generalizing i with
  | nil => cases place
  | cons head later ih =>
    cases i with
    | zero =>
      cases place
      exact ⟨_, rfl, head⟩
    | succ i => exact ih place

end Related
