import Mathlib.Order.Lattice
import Mathlib.Data.List.Basic
import Mathlib.Tactic.Common

/-! Paging through a list with a cursor: each page takes the first rows left, and the
rows whose key is below that of its last row are left for the next. -/
namespace Paging

variable {α β : Type} (key : α → β)

/-- No page ends between two rows with one key. -/
def Seamless (size : Nat) (rows : List α) : Prop :=
  ∀ k a b, rows[(k + 1) * size - 1]? = some a → rows[(k + 1) * size]? = some b → key a ≠ key b

/-- The pages of a list, until one is empty. -/
inductive Paged [LinearOrder β] (size : Nat) : List α → List (List α) → Prop where
  | last (none_left : rows.take size = []) : Paged size rows []
  | next (at_end : (rows.take size).getLast? = some row)
      (later : Paged size (rows.filter fun a => key a < key row) pages) :
      Paged size rows (rows.take size :: pages)

variable {key} {size : Nat} {rows : List α}

theorem seamless_short (short : rows.length ≤ size) : Seamless key size rows := by
  intro k a b _ there
  have within := (List.getElem?_eq_some_iff.mp there).1
  have first : size ≤ (k + 1) * size := Nat.le_mul_of_pos_left size (Nat.succ_pos k)
  omega

/-- The first boundary, and those of the rows after it. -/
theorem seamless_iff (positive : 0 < size) :
    Seamless key size rows ↔
      (∀ a b, rows[size - 1]? = some a → rows[size]? = some b → key a ≠ key b) ∧
        Seamless key size (rows.drop size) := by
  have before : ∀ k, size + ((k + 1) * size - 1) = (k + 1 + 1) * size - 1 := by
    intro k
    have first : size ≤ (k + 1) * size := Nat.le_mul_of_pos_left size (Nat.succ_pos k)
    have next : (k + 1 + 1) * size = (k + 1) * size + size := Nat.succ_mul (k + 1) size
    omega
  have after : ∀ k, size + (k + 1) * size = (k + 1 + 1) * size := by
    intro k
    rw [Nat.succ_mul (k + 1), Nat.add_comm]
  constructor
  · intro seamless
    constructor
    · have first := seamless 0
      simpa only [Nat.zero_add, Nat.one_mul] using first
    · intro k a b here there
      rw [List.getElem?_drop] at here there
      apply seamless (k + 1) a b
      · rw [← before, here]
      · rw [← after, there]
  · intro ⟨first, rest⟩ k a b here there
    cases k with
    | zero =>
      simp only [Nat.zero_add, Nat.one_mul] at here there
      exact first a b here there
    | succ k =>
      apply rest k a b
      · rw [List.getElem?_drop, before, here]
      · rw [List.getElem?_drop, after, there]

/-! ## Pages -/

variable [LinearOrder β]

variable (key) in
theorem filter_shorter {a : α} (member : a ∈ rows) :
    (rows.filter fun b => key b < key a).length < rows.length := by
  apply List.length_filter_lt_length_iff_exists.mpr
  exact ⟨a, member, by simp⟩

variable (key) in
theorem paged_exists (size : Nat) (rows : List α) : ∃ pages, Paged key size rows pages := by
  induction h : rows.length using Nat.strongRecOn generalizing rows with
  | _ n ih =>
    subst h
    cases ends : (rows.take size).getLast? with
    | none => exact ⟨[], .last (List.getLast?_eq_none_iff.mp ends)⟩
    | some row =>
      have member : row ∈ rows := List.mem_of_mem_take (List.mem_of_getLast? ends)
      obtain ⟨pages, later⟩ := ih _ (filter_shorter key member) _ rfl
      exact ⟨_, .next ends later⟩

/-! ## Rows in order of their keys -/

section
variable (ordered : rows.Pairwise fun a b => key b ≤ key a)
include ordered

/-- The rows below the last of a page are among those that follow it. -/
theorem filter_after {row : α} (at_end : (rows.take size).getLast? = some row) :
    (rows.filter fun a => key a < key row) = (rows.drop size).filter fun a => key a < key row := by
  conv_lhs => rw [← List.take_append_drop size rows, List.filter_append]
  obtain ⟨front, split⟩ := List.getLast?_eq_some_iff.mp at_end
  have sorted := ordered.sublist (List.take_sublist size rows)
  rw [split] at sorted ⊢
  have above := (List.pairwise_append.mp sorted).2.2
  have none_below : ((front ++ [row]).filter fun a => key a < key row) = [] := by
    apply List.filter_eq_nil_iff.mpr
    intro a member
    rcases List.mem_append.mp member with before | last
    · simpa using above a before row List.mem_cons_self
    · obtain rfl := List.mem_singleton.mp last
      simp
  rw [none_below, List.nil_append]

theorem filter_ordered (p : α → Bool) : (rows.filter p).Pairwise fun a b => key b ≤ key a :=
  ordered.sublist List.filter_sublist

end

/-- Nothing is fetched twice, and the order is kept. -/
theorem Paged.sublist {pages : List (List α)} (paged : Paged key size rows pages)
    (ordered : rows.Pairwise fun a b => key b ≤ key a) : pages.flatten.Sublist rows := by
  induction paged with
  | last => exact List.nil_sublist _
  | @next row pages rows at_end _ ih =>
    have rest := ih (filter_ordered ordered _)
    rw [filter_after ordered at_end] at rest
    have after := (rest.trans List.filter_sublist).append_left (rows.take size)
    rwa [List.take_append_drop] at after

section
variable (ordered : rows.Pairwise fun a b => key b ≤ key a)
include ordered

/-- All that follows a page is below its last row when the next row is. -/
theorem filter_all_iff (positive : 0 < size) {row : α}
    (at_end : (rows.take size).getLast? = some row) :
    (rows.drop size).filter (fun a => key a < key row) = rows.drop size ↔
      ∀ a b, rows[size - 1]? = some a → rows[size]? = some b → key a ≠ key b := by
  rw [List.filter_eq_self]
  constructor
  · intro below a b here there
    have long := (List.getElem?_eq_some_iff.mp there).1
    have last : (rows.take size).getLast? = rows[size - 1]? := by
      rw [List.getLast?_take, if_neg (by omega), here, Option.some_or]
    rw [last, here] at at_end
    cases at_end
    have member : b ∈ rows.drop size := by
      rw [List.mem_iff_getElem?]
      exact ⟨0, by rw [List.getElem?_drop, Nat.add_zero, there]⟩
    have less := below b member
    exact (of_decide_eq_true less).ne'
  · intro apart a member
    obtain ⟨i, at_i⟩ := List.mem_iff_getElem?.mp member
    rw [List.getElem?_drop] at at_i
    have within := (List.getElem?_eq_some_iff.mp at_i).1
    have at_last : rows[size - 1]? = some row := by
      have inside : size - 1 < rows.length := by omega
      rw [List.getLast?_take, if_neg (by omega), List.getElem?_eq_getElem inside, Option.some_or]
        at at_end
      rw [List.getElem?_eq_getElem inside, at_end]
    have at_next : rows[size]? = some rows[size] := List.getElem?_eq_getElem (by omega)
    have boundary := apart _ _ at_last at_next
    have order := List.pairwise_iff_getElem.mp ordered
    have next_le : key rows[size] ≤ key row := by
      have le := order (size - 1) size (by omega) (by omega) (by omega)
      rwa [(List.getElem?_eq_some_iff.mp at_last).2] at le
    have le_next : key a ≤ key rows[size] := by
      rcases Nat.eq_zero_or_pos i with rfl | later
      · rw [Nat.add_zero, at_next] at at_i
        cases at_i
        exact le_refl _
      · have le := order size (size + i) (by omega) within (by omega)
        rwa [(List.getElem?_eq_some_iff.mp at_i).2] at le
    exact decide_eq_true (le_next.trans_lt (lt_of_le_of_ne next_le boundary.symm))

end

/-- The pages hold every row once, in order, exactly when no boundary parts equal keys. -/
theorem Paged.flatten_iff {pages : List (List α)} (positive : 0 < size)
    (paged : Paged key size rows pages) (ordered : rows.Pairwise fun a b => key b ≤ key a) :
    pages.flatten = rows ↔ Seamless key size rows := by
  induction paged with
  | @last rows none_left =>
    have empty : rows = [] := by
      rcases List.take_eq_nil_iff.mp none_left with zero | empty
      · omega
      · exact empty
    subst empty
    exact ⟨fun _ => seamless_short (Nat.zero_le _), fun _ => rfl⟩
  | @next row pages rows at_end later ih =>
    have rest := later.sublist (filter_ordered ordered _)
    have ends := ih (filter_ordered ordered _)
    rw [filter_after ordered at_end] at rest ends
    rw [List.flatten_cons, seamless_iff positive, ← filter_all_iff ordered positive at_end]
    have split : rows.take size ++ pages.flatten = rows ↔ pages.flatten = rows.drop size := by
      conv_lhs => rhs; rw [← List.take_append_drop size rows]
      exact List.append_right_inj _
    rw [split]
    constructor
    · intro all
      have full : (rows.drop size).filter (fun a => key a < key row) = rows.drop size := by
        apply List.filter_sublist.eq_of_length_le
        rw [all] at rest
        exact rest.length_le
      rw [full] at ends
      exact ⟨full, ends.mp all⟩
    · intro ⟨full, seamless⟩
      rw [full] at ends
      exact ends.mpr seamless

end Paging
