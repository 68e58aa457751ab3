import Mathlib.Data.List.Basic
import Mathlib.Data.List.TakeWhile
import Mathlib.Tactic.Common

/-! Searching a text for `lead(body+)close`: the group of the leftmost place that matches.
The closing item is no body item, so a run of body items is read to its end or not at all. -/
namespace Scanning

variable {α : Type} [DecidableEq α] (lead : List α) (body : α → Bool) (close : α)

/-- The text starts with a match, whose group is `group`. -/
structure Captures (text group : List α) : Prop where
  inside : ∀ item ∈ group, body item = true
  nonempty : group ≠ []
  split : ∃ rest, text = lead ++ (group ++ close :: rest)

/-- A match at the start of the text. -/
def capture (text : List α) : Option (List α) :=
  if lead.isPrefixOf text then
    let rest := text.drop lead.length
    let run := rest.takeWhile body
    if run ≠ [] ∧ (rest.dropWhile body).head? = some close then some run else none
  else none

def search : List α → Option (List α)
  | [] => capture lead body close []
  | item :: text => (capture lead body close (item :: text)).or (search text)

variable {lead body close} {text group : List α}

theorem capture_complete (ends : body close = false) (captures : Captures lead body close text group) :
    capture lead body close text = some group := by
  obtain ⟨inside, nonempty, rest, rfl⟩ := captures
  have run : (group ++ close :: rest).takeWhile body = group := by
    rw [List.takeWhile_append_of_pos inside]
    simp [ends]
  have after : (group ++ close :: rest).dropWhile body = close :: rest := by
    rw [List.dropWhile_append_of_pos inside]
    simp [ends]
  have leads : lead.isPrefixOf (lead ++ (group ++ close :: rest)) = true := by simp
  simp only [capture, leads, if_true, List.drop_left, run, after]
  exact if_pos ⟨nonempty, rfl⟩

theorem capture_sound (found : capture lead body close text = some group) :
    Captures lead body close text group := by
  rw [capture] at found
  split at found
  · rename_i leads
    obtain ⟨tail, rfl⟩ := List.isPrefixOf_iff_prefix.mp leads
    simp only [List.drop_left] at found
    split at found
    · rename_i matched
      cases found
      obtain ⟨nonempty, ended⟩ := matched
      obtain ⟨rest, tailEq⟩ := List.head?_eq_some_iff.mp ended
      refine ⟨fun item member => List.mem_takeWhile_imp member, nonempty, rest, ?_⟩
      rw [← tailEq, List.takeWhile_append_dropWhile]
    · cases found
  · cases found

theorem capture_iff (ends : body close = false) :
    capture lead body close text = some group ↔ Captures lead body close text group :=
  ⟨capture_sound, capture_complete ends⟩

/-- The search finds the leftmost match: there is none at an item it skips. -/
theorem search_iff (ends : body close = false) : search lead body close text = some group ↔
    ∃ skipped rest, text = skipped ++ rest ∧ Captures lead body close rest group ∧
      ∀ back, back <:+ skipped → back ≠ [] → ∀ other, ¬Captures lead body close (back ++ rest) other := by
  induction text with
  | nil =>
    rw [search, capture_iff ends]
    constructor
    · intro captures
      exact ⟨[], [], rfl, captures, fun back suffix longer => absurd (List.suffix_nil.mp suffix) longer⟩
    · rintro ⟨skipped, rest, same, captures, _⟩
      obtain ⟨rfl, rfl⟩ := List.append_eq_nil_iff.mp same.symm
      exact captures
  | cons item text ih =>
    rw [search, Option.or_eq_some_iff, capture_iff ends]
    constructor
    · rintro (captures | ⟨fails, found⟩)
      · exact ⟨[], item :: text, rfl, captures,
          fun back suffix longer => absurd (List.suffix_nil.mp suffix) longer⟩
      · obtain ⟨skipped, rest, rfl, captures, leftmost⟩ := ih.mp found
        refine ⟨item :: skipped, rest, rfl, captures, ?_⟩
        intro back suffix longer other captured
        rcases List.suffix_cons_iff.mp suffix with rfl | suffix
        · have here := capture_complete ends captured
          rw [List.cons_append, fails] at here
          cases here
        · exact leftmost back suffix longer other captured
    · rintro ⟨skipped, rest, same, captures, leftmost⟩
      cases skipped with
      | nil =>
        obtain rfl : item :: text = rest := same
        exact .inl captures
      | cons first skipped =>
        obtain ⟨rfl, rfl⟩ := List.cons.inj same
        have fails : capture lead body close (item :: (skipped ++ rest)) = none := by
          apply Option.eq_none_iff_forall_ne_some.mpr
          intro other found
          exact leftmost (item :: skipped) (List.suffix_refl _) (List.cons_ne_nil _ _) other
            (capture_sound found)
        refine .inr ⟨fails, ih.mpr ⟨skipped, rest, rfl, captures, ?_⟩⟩
        intro back suffix
        exact leftmost back (suffix.trans (List.suffix_cons item skipped))

end Scanning
