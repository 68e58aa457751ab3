import Mathlib.Data.List.Basic
import Mathlib.Tactic.Common

/-! Patterns that are tried from left to right, with the choices of a repetition in order. A
matcher takes the text that is left, and a repetition the matcher of what follows it. -/
namespace Backtracking

variable {α β : Type}

def literal [DecidableEq α] (word : List α) (next : List α → Option β) (text : List α) : Option β :=
  if word.isPrefixOf text then next (text.drop word.length) else none

/-- One item. -/
def one (p : α → Bool) (next : α → List α → Option β) : List α → Option β
  | [] => none
  | a :: text => if p a then next a text else none

/-- Any number of items after `run`, more of them first. -/
def greedy (p : α → Bool) (next : List α → List α → Option β) (run : List α) : List α → Option β
  | [] => next run []
  | a :: text =>
    if p a then (greedy p next (run ++ [a]) text).or (next run (a :: text)) else next run (a :: text)

/-- Any number of items after `run`, fewer of them first. -/
def reluctant (p : α → Bool) (next : List α → List α → Option β) (run : List α) : List α → Option β
  | [] => next run []
  | a :: text => (next run (a :: text)).or (if p a then reluctant p next (run ++ [a]) text else none)

/-- The first place where the matcher succeeds. -/
def search (matcher : List α → Option β) : List α → Option β
  | [] => matcher []
  | a :: text => (matcher (a :: text)).or (search matcher text)

section
variable {p : α → Bool} {next : List α → List α → Option β} {run body rest text : List α} {v : β}

theorem literal_iff [DecidableEq α] {word : List α} {k : List α → Option β} :
    literal word k text = some v ↔ ∃ rest, text = word ++ rest ∧ k rest = some v := by
  rw [literal]
  constructor
  · intro found
    split at found
    · rename_i leads
      obtain ⟨rest, rfl⟩ := List.isPrefixOf_iff_prefix.mp leads
      rw [List.drop_left] at found
      exact ⟨rest, rfl, found⟩
    · cases found
  · rintro ⟨rest, rfl, found⟩
    have leads : word.isPrefixOf (word ++ rest) = true := by simp
    rwa [if_pos leads, List.drop_left]

theorem one_iff {k : α → List α → Option β} :
    one p k text = some v ↔ ∃ a rest, text = a :: rest ∧ p a = true ∧ k a rest = some v := by
  cases text with
  | nil => simp [one]
  | cons a text => simp [one]

theorem greedy_sound (found : greedy p next run text = some v) :
    ∃ body rest, text = body ++ rest ∧ (∀ a ∈ body, p a = true) ∧ next (run ++ body) rest = some v := by
  induction text generalizing run with
  | nil => exact ⟨[], [], rfl, List.forall_mem_nil _, by rwa [List.append_nil]⟩
  | cons a text ih =>
    have here (stops : next run (a :: text) = some v) :
        ∃ body rest, a :: text = body ++ rest ∧ (∀ b ∈ body, p b = true) ∧ next (run ++ body) rest = some v :=
      ⟨[], a :: text, rfl, List.forall_mem_nil _, by rwa [List.append_nil]⟩
    rw [greedy] at found
    split at found
    · rename_i inside
      rcases Option.or_eq_some_iff.mp found with further | ⟨_, stops⟩
      · obtain ⟨body, rest, rfl, all, holds⟩ := ih further
        refine ⟨a :: body, rest, rfl, ?_, by rwa [List.append_assoc] at holds⟩
        intro b member
        cases member with
        | head => exact inside
        | tail _ later => exact all b later
      · exact here stops
    · exact here found

/-- The longest run is taken if what follows it matches. -/
theorem greedy_longest (all : ∀ a ∈ body, p a = true) (stops : ∀ a, rest.head? = some a → p a = false)
    (holds : next (run ++ body) rest = some v) : greedy p next run (body ++ rest) = some v := by
  induction body generalizing run with
  | nil =>
    rw [List.append_nil] at holds
    cases rest with
    | nil => exact holds
    | cons a rest =>
      rw [List.nil_append, greedy, stops a rfl]
      exact holds
  | cons a body ih =>
    have moved : next (run ++ [a] ++ body) rest = some v := by rwa [List.append_assoc]
    have further := ih (fun b member => all b (List.mem_cons_of_mem _ member)) moved
    rw [List.cons_append, greedy, if_pos (all a List.mem_cons_self), further]
    rfl

/-- Wherever a run can stop, some run is found. -/
theorem greedy_reaches (all : ∀ a ∈ body, p a = true) (holds : next (run ++ body) rest = some v) :
    ∃ w, greedy p next run (body ++ rest) = some w := by
  induction body generalizing run with
  | nil =>
    rw [List.append_nil] at holds
    cases rest with
    | nil => exact ⟨v, holds⟩
    | cons a rest =>
      rw [List.nil_append, greedy, holds]
      split
      · cases greedy p next (run ++ [a]) rest with
        | none => exact ⟨v, rfl⟩
        | some w => exact ⟨w, rfl⟩
      · exact ⟨v, rfl⟩
  | cons a body ih =>
    have moved : next (run ++ [a] ++ body) rest = some v := by rwa [List.append_assoc]
    obtain ⟨w, further⟩ := ih (fun b member => all b (List.mem_cons_of_mem _ member)) moved
    rw [List.cons_append, greedy, if_pos (all a List.mem_cons_self), further]
    exact ⟨w, rfl⟩

theorem reluctant_sound (found : reluctant p next run text = some v) :
    ∃ body rest, text = body ++ rest ∧ (∀ a ∈ body, p a = true) ∧ next (run ++ body) rest = some v := by
  induction text generalizing run with
  | nil => exact ⟨[], [], rfl, List.forall_mem_nil _, by rwa [List.append_nil]⟩
  | cons a text ih =>
    rw [reluctant] at found
    rcases Option.or_eq_some_iff.mp found with stops | ⟨_, further⟩
    · exact ⟨[], a :: text, rfl, List.forall_mem_nil _, by rwa [List.append_nil]⟩
    · split at further
      · rename_i inside
        obtain ⟨body, rest, rfl, all, holds⟩ := ih further
        refine ⟨a :: body, rest, rfl, ?_, by rwa [List.append_assoc] at holds⟩
        intro b member
        cases member with
        | head => exact inside
        | tail _ later => exact all b later
      · cases further

/-- The run goes on as long as what follows does not match. -/
theorem reluctant_first (all : ∀ a ∈ body, p a = true)
    (early : ∀ front back, body = front ++ back → back ≠ [] → next (run ++ front) (back ++ rest) = none)
    (holds : next (run ++ body) rest = some v) : reluctant p next run (body ++ rest) = some v := by
  induction body generalizing run with
  | nil =>
    rw [List.append_nil] at holds
    cases rest with
    | nil => exact holds
    | cons a rest =>
      rw [List.nil_append, reluctant, holds]
      rfl
  | cons a body ih =>
    have fails := early [] (a :: body) rfl (List.cons_ne_nil a body)
    rw [List.append_nil, List.cons_append] at fails
    have later (front back : List α) (same : body = front ++ back) (longer : back ≠ []) :
        next (run ++ [a] ++ front) (back ++ rest) = none := by
      rw [List.append_assoc]
      exact early (a :: front) back (by rw [same]; rfl) longer
    have moved : next (run ++ [a] ++ body) rest = some v := by rwa [List.append_assoc]
    have further := ih (fun b member => all b (List.mem_cons_of_mem _ member)) later moved
    rw [List.cons_append, reluctant, fails, if_pos (all a List.mem_cons_self), further]
    rfl

theorem reluctant_reaches (all : ∀ a ∈ body, p a = true) (holds : next (run ++ body) rest = some v) :
    ∃ w, reluctant p next run (body ++ rest) = some w := by
  induction body generalizing run with
  | nil =>
    rw [List.append_nil] at holds
    cases rest with
    | nil => exact ⟨v, holds⟩
    | cons a rest =>
      rw [List.nil_append, reluctant, holds]
      exact ⟨v, rfl⟩
  | cons a body ih =>
    have moved : next (run ++ [a] ++ body) rest = some v := by rwa [List.append_assoc]
    obtain ⟨w, further⟩ := ih (fun b member => all b (List.mem_cons_of_mem _ member)) moved
    rw [List.cons_append, reluctant, if_pos (all a List.mem_cons_self), further]
    cases next run (a :: (body ++ rest)) with
    | none => exact ⟨w, rfl⟩
    | some u => exact ⟨u, rfl⟩

end

section
variable {matcher : List α → Option β} {v : β}

theorem search_here {text : List α} (found : matcher text = some v) : search matcher text = some v := by
  cases text with
  | nil => exact found
  | cons a text =>
    rw [search, found]
    rfl

/-- The search passes over the places where the matcher fails. -/
theorem search_skips {skipped rest : List α}
    (fails : ∀ back, back <:+ skipped → back ≠ [] → matcher (back ++ rest) = none)
    (found : matcher rest = some v) : search matcher (skipped ++ rest) = some v := by
  induction skipped with
  | nil => exact search_here found
  | cons a skipped ih =>
    have here := fails (a :: skipped) (List.suffix_refl _) (List.cons_ne_nil a skipped)
    rw [List.cons_append] at here
    rw [List.cons_append, search, here]
    apply ih
    intro back suffix
    exact fails back (suffix.trans (List.suffix_cons a skipped))

theorem search_sound {text : List α} (found : search matcher text = some v) :
    ∃ skipped rest, text = skipped ++ rest ∧ matcher rest = some v := by
  induction text with
  | nil => exact ⟨[], [], rfl, found⟩
  | cons a text ih =>
    rw [search] at found
    rcases Option.or_eq_some_iff.mp found with here | ⟨_, later⟩
    · exact ⟨[], a :: text, rfl, here⟩
    · obtain ⟨skipped, rest, rfl, holds⟩ := ih later
      exact ⟨a :: skipped, rest, rfl, holds⟩

/-- Where the matcher succeeds the search succeeds, there or earlier. -/
theorem search_reaches {skipped rest : List α} (found : matcher rest = some v) :
    ∃ back w, back <:+ skipped ++ rest ∧ rest <:+ back ∧ matcher back = some w ∧
      search matcher (skipped ++ rest) = some w := by
  induction skipped with
  | nil => exact ⟨rest, v, List.suffix_refl _, List.suffix_refl _, found, search_here found⟩
  | cons a skipped ih =>
    rw [List.cons_append, search]
    cases here : matcher (a :: (skipped ++ rest)) with
    | some w =>
      exact ⟨a :: (skipped ++ rest), w, List.suffix_refl _,
        (List.suffix_append skipped rest).trans (List.suffix_cons a _), here, rfl⟩
    | none =>
      obtain ⟨back, w, inside, after, holds, later⟩ := ih
      exact ⟨back, w, inside.trans (List.suffix_cons a _), after, holds, later⟩

/-- A word that occurs nowhere before is found where it stands. -/
theorem search_literal [DecidableEq α] {word skipped rest : List α} {k : List α → Option β}
    (alone : ¬word <:+: skipped ++ word.dropLast) (found : k rest = some v) :
    search (literal word k) (skipped ++ (word ++ rest)) = some v := by
  apply search_skips
  · intro back suffix longer
    cases here : literal word k (back ++ (word ++ rest)) with
    | none => rfl
    | some w =>
      obtain ⟨after, whole, -⟩ := literal_iff.mp here
      have leads : word <+: back ++ (word ++ rest) := ⟨after, whole.symm⟩
      have most : back ++ word.dropLast <+: back ++ (word ++ rest) :=
        (List.prefix_append_right_inj back).mpr ((List.dropLast_prefix word).trans (List.prefix_append word rest))
      have short : word.length ≤ (back ++ word.dropLast).length := by
        have one := List.length_pos_iff.mpr longer
        rw [List.length_append, List.length_dropLast]
        omega
      have inside := (List.prefix_of_prefix_length_le leads most short).isInfix
      obtain ⟨front, rfl⟩ := suffix
      rw [List.append_assoc] at alone
      exact absurd (inside.trans (List.suffix_append front _).isInfix) alone
  · exact literal_iff.mpr ⟨rest, rfl, found⟩

end

/-- A word without the separator lies on one side of it. -/
theorem infix_around {word left right : List α} {separator : α} (free : separator ∉ word)
    (inside : word <:+: left ++ separator :: right) : word <:+: left ∨ word <:+: right := by
  obtain ⟨before, after, whole⟩ := inside
  rw [List.append_assoc] at whole
  obtain ⟨middle, rfl, rest⟩ | ⟨middle, rfl, rest⟩ := List.append_eq_append_iff.mp whole
  · obtain ⟨tail, rfl, _⟩ | ⟨tail, same, _⟩ := List.append_eq_append_iff.mp rest
    · exact .inl ⟨before, tail, by simp⟩
    · cases tail with
      | nil =>
        rw [List.append_nil] at same
        exact .inl ⟨before, [], by simp [same]⟩
      | cons a tail =>
        rename_i split
        have first : a = separator := (List.cons.inj split).1.symm
        exact absurd (by rw [same, first]; simp) free
  · cases middle with
    | nil =>
      rw [List.nil_append] at rest
      cases word with
      | nil => exact .inl (List.nil_infix)
      | cons a word => exact absurd (by rw [(List.cons.inj rest).1]; exact List.mem_cons_self) free
    | cons a middle =>
      have tail : right = middle ++ (word ++ after) := (List.cons.inj rest).2
      exact .inr ⟨middle, after, by rw [tail, List.append_assoc]⟩

end Backtracking
