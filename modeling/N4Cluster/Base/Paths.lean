import Mathlib.Data.List.Basic
import Mathlib.Tactic.Common

/-! Paths as lists of components: how a text is parsed, where a walk over its components
ends in a tree without links, and when two texts name one place. -/
namespace Paths

abbrev Name := List Char

/-- Where a walk stands: the components from the root on, none of them special. -/
abbrev Place := List Name

def parent : Name := ['.', '.']

/-- The components kept of a text: empty ones and single dots are dropped. -/
def kept (names : List Name) : List Name := names.filter fun name => name ≠ [] ∧ name ≠ ['.']

def components (text : List Char) : List Name := kept (text.splitOn '/')

def absolute (text : List Char) : Bool := text.head? = some '/'

/-- The components before the last separator, and the text after it. -/
def folder (text : List Char) : List Name := kept (text.splitOn '/').dropLast

def tail (text : List Char) : Name := (text.splitOn '/').getLast?.getD []

/-- The final component, empty if there is none. -/
def name (text : List Char) : Name := (components text).getLast?.getD []

/-- One component further; the parent of the root is the root. -/
def descend (place : Place) (name : Name) : Place :=
  if name = parent then place.dropLast else place ++ [name]

def walk (place : Place) (names : List Name) : Place := names.foldl descend place

/-- Where a walk over a text starts. -/
def start (place : Place) (text : List Char) : Place := if absolute text then [] else place

/-- `place / text`, resolved. -/
def join (place : Place) (text : List Char) : Place := walk (start place text) (components text)

def Inside (place inner : Place) : Prop := ∃ rest, rest ≠ [] ∧ inner = place ++ rest

theorem Inside.front {place inner : Place} (inside : Inside place inner) : place <+: inner := by
  obtain ⟨rest, _, rfl⟩ := inside
  exact List.prefix_append place rest

@[simp] theorem walk_nil (place : Place) : walk place [] = place := rfl

@[simp] theorem walk_append (place : Place) (front back : List Name) :
    walk place (front ++ back) = walk (walk place front) back := List.foldl_append

theorem walk_snoc (place : Place) (names : List Name) {last : Name} (ordinary : last ≠ parent) :
    walk place (names ++ [last]) = walk place names ++ [last] := by
  rw [walk_append]
  exact if_neg ordinary

theorem inside_snoc {place folder : Place} {last : Name} :
    Inside place (folder ++ [last]) ↔ place <+: folder := by
  constructor
  · intro ⟨rest, held, same⟩
    obtain ⟨front, back, rfl⟩ := (List.eq_nil_or_concat rest).resolve_left held
    rw [List.concat_eq_append, ← List.append_assoc] at same
    exact ⟨front, (List.append_inj' same rfl).1.symm⟩
  · intro ⟨rest, same⟩
    exact ⟨rest ++ [last], by simp, by rw [← same, List.append_assoc]⟩

/-! ## Text that ends in a name -/

theorem splitOn_cons (c : Char) (text : List Char) :
    (c :: text).splitOn '/' =
      if c == '/' then [] :: text.splitOn '/' else (text.splitOn '/').modifyHead (List.cons c) :=
  List.splitOnP_cons_eq_if_modifyHead c text

theorem splitOn_plain {last : Name} (plain : '/' ∉ last) : last.splitOn '/' = [last] := by
  apply List.splitOnP_eq_singleton
  intro c member
  apply beq_false_of_ne
  rintro rfl
  exact plain member

theorem splitOn_append (text : List Char) {last : Name} (plain : '/' ∉ last) :
    (text ++ last).splitOn '/' = (text.splitOn '/').dropLast ++ [tail text ++ last] := by
  induction text with
  | nil => exact splitOn_plain plain
  | cons c rest ih =>
    obtain ⟨first, others, split⟩ := List.exists_cons_of_ne_nil (List.splitOnP_ne_nil (· == '/') rest)
    change rest.splitOn '/' = first :: others at split
    rw [tail, split] at ih
    rw [List.cons_append, splitOn_cons, ih, tail, splitOn_cons, split]
    by_cases slash : (c == '/') = true
    · simp [slash]
    · cases others with
      | nil => simp [slash]
      | cons second more => simp [slash]

theorem mem_splitOn {text : List Char} {name : Name} (member : name ∈ text.splitOn '/') :
    '/' ∉ name := by
  induction text generalizing name with
  | nil =>
    obtain rfl := List.mem_singleton.mp member
    exact List.not_mem_nil
  | cons c rest ih =>
    obtain ⟨first, others, split⟩ := List.exists_cons_of_ne_nil (List.splitOnP_ne_nil (· == '/') rest)
    change rest.splitOn '/' = first :: others at split
    rw [splitOn_cons, split] at member
    rw [split] at ih
    by_cases slash : (c == '/') = true
    · rw [if_pos slash] at member
      rcases List.mem_cons.mp member with rfl | later
      · exact List.not_mem_nil
      · exact ih later
    · rw [if_neg slash, List.modifyHead_cons] at member
      rcases List.mem_cons.mp member with rfl | later
      · intro inside
        rcases List.mem_cons.mp inside with same | inside
        · exact slash (beq_iff_eq.mpr same.symm)
        · exact ih List.mem_cons_self inside
      · exact ih (List.mem_cons_of_mem _ later)

theorem name_plain (text : List Char) : '/' ∉ name text := by
  unfold name
  cases last : (components text).getLast? with
  | none => exact List.not_mem_nil
  | some final =>
    have member : final ∈ components text := List.mem_of_getLast? last
    exact mem_splitOn (List.mem_filter.mp member).1

/-- A text that ends in an ordinary name walks to its folder, then to the name. -/
theorem join_append (place : Place) (text : List Char) {last : Name} (plain : '/' ∉ last)
    (held : last ≠ []) (here : tail text ++ last ≠ ['.']) (up : tail text ++ last ≠ parent) :
    join place (text ++ last) =
      walk (start place text) (folder text) ++ [tail text ++ last] := by
  have names : components (text ++ last) = folder text ++ [tail text ++ last] := by
    rw [components, splitOn_append text plain, kept, List.filter_append]
    congr 1
    simp [held, here]
  have same : start place (text ++ last) = start place text := by
    cases text with
    | nil =>
      have relative : absolute last = false := by
        cases last with
        | nil => rfl
        | cons c rest =>
          have other : c ≠ '/' := fun same => plain (same ▸ List.mem_cons_self)
          simp [absolute, other]
      rw [start, start, List.nil_append, relative]
      rfl
    | cons c rest => rfl
  rw [join, same, names, walk_snoc _ _ up]

/-! ## Walks that climb -/

/-- How far names climb above where they start, and where they go from there. -/
def climb (climbed : Nat × Place) (name : Name) : Nat × Place :=
  if name = parent then
    if climbed.2 = [] then (climbed.1 + 1, []) else (climbed.1, climbed.2.dropLast)
  else (climbed.1, climbed.2 ++ [name])

def reduced (names : List Name) : Nat × Place := names.foldl climb (0, [])

/-- What is left of a place after climbing. -/
def above (place : Place) (climbs : Nat) : Place := place.take (place.length - climbs)

theorem descend_climb (place : Place) (climbed : Nat × Place) (name : Name) :
    descend (above place climbed.1 ++ climbed.2) name =
      above place (climb climbed name).1 ++ (climb climbed name).2 := by
  unfold descend climb
  by_cases up : name = parent
  · by_cases empty : climbed.2 = []
    · simp only [up, empty, if_true, List.append_nil, above]
      rw [List.dropLast_eq_take, List.take_take, List.length_take]
      congr 1
      omega
    · simp only [up, empty, if_true, if_false]
      exact List.dropLast_append_of_ne_nil empty
  · simp only [up, if_false, List.append_assoc]

/-- A walk climbs, then descends. -/
theorem walk_reduced (place : Place) (names : List Name) :
    walk place names = above place (reduced names).1 ++ (reduced names).2 := by
  suffices general : ∀ climbed : Nat × Place,
      walk (above place climbed.1 ++ climbed.2) names =
        above place (names.foldl climb climbed).1 ++ (names.foldl climb climbed).2 by
    have whole := general (0, [])
    rwa [above, Nat.sub_zero, List.take_length, List.append_nil] at whole
  intro climbed
  induction names generalizing climbed with
  | nil => rfl
  | cons name rest ih =>
    rw [walk, List.foldl_cons, descend_climb]
    exact ih _

theorem prefix_walk_iff {place : Place} {names : List Name} :
    place <+: walk place names ↔
      place.drop (place.length - (reduced names).1) <+: (reduced names).2 := by
  conv_lhs => lhs; rw [← List.take_append_drop (place.length - (reduced names).1) place]
  rw [walk_reduced]
  exact List.prefix_append_right_inj _

/-- How far the folder of a text climbs above a place; an absolute one, up to the root. -/
def climbs (place : Place) (text : List Char) : Nat :=
  if absolute text then place.length else (reduced (folder text)).1

/-- The folder of a text goes back down into what it climbed out of. -/
def Returns (place : Place) (text : List Char) : Prop :=
  place.drop (place.length - climbs place text) <+: (reduced (folder text)).2

instance (place : Place) (text : List Char) : Decidable (Returns place text) :=
  inferInstanceAs (Decidable (_ <+: _))

theorem prefix_folder_iff {place : Place} {text : List Char} :
    place <+: walk (start place text) (folder text) ↔ Returns place text := by
  unfold Returns climbs start
  by_cases rooted : absolute text = true
  · rw [if_pos rooted, if_pos rooted, Nat.sub_self, List.drop_zero, walk_reduced]
    simp [above]
  · rw [if_neg rooted, if_neg rooted]
    exact prefix_walk_iff

end Paths
