import Mathlib.Data.List.Sort
import Mathlib.Order.BoundedOrder.Lattice
import Mathlib.Tactic.Common

/-! A list sorted by a key: stable, with the same head as a scan that keeps the first
element strictly below those before it. -/
namespace Sorting

variable {α β : Type} [LinearOrder β] (key : α → β)

/-- `sorted(items, key=key)`. -/
def sorted (items : List α) : List α := items.insertionSort fun a b => key a ≤ key b

instance key_total : Std.Total fun a b : α => key a ≤ key b := ⟨fun a b => le_total (key a) (key b)⟩

instance key_trans : IsTrans α fun a b : α => key a ≤ key b := ⟨fun _ _ _ first second => le_trans first second⟩

theorem sorted_perm (items : List α) : (sorted key items).Perm items := List.perm_insertionSort _ items

theorem sorted_pairwise (items : List α) : (sorted key items).Pairwise fun a b => key a ≤ key b :=
  List.pairwise_insertionSort _ items

/-- Elements with one key keep their order. -/
theorem sorted_stable (items : List α) (k : β) :
    (sorted key items).filter (fun a => key a = k) = items.filter fun a => key a = k := by
  have equal : (items.filter fun a => key a = k).Pairwise fun a b => key a ≤ key b := by
    refine List.pairwise_of_forall_mem_list fun a here b there => ?_
    simp only [List.mem_filter, decide_eq_true_eq] at here there
    rw [here.2, there.2]
  have kept := (List.sublist_insertionSort equal List.filter_sublist).filter fun a => key a = k
  rw [List.filter_filter] at kept
  simp only [Bool.and_self] at kept
  exact (kept.eq_of_length ((sorted_perm key items).filter _).length_eq.symm).symm

/-! ## Sorted lists and scans -/

variable [OrderTop β]

/-- The key of what may be missing. -/
def level (best : Option α) : β := best.elim ⊤ key

/-- One turn of a scan: the element goes in place of the best so far if it is strictly below. -/
def keep (best : Option α) (a : α) : Option α := if key a < level key best then some a else best

/-- The better of two, the first on a tie. -/
def least (best other : Option α) : Option α := if level key other < level key best then other else best

theorem sorted_head_cons (a : α) (items : List α) :
    (sorted key (a :: items)).head? =
      if level key (sorted key items).head? < key a then (sorted key items).head? else some a := by
  rw [sorted, List.insertionSort_cons]
  change (List.orderedInsert _ a (sorted key items)).head? = _
  cases sorted key items with
  | nil => simp [level]
  | cons b rest =>
    by_cases below : key a ≤ key b
    · rw [List.orderedInsert_cons, if_pos below]
      exact (if_neg (not_lt.mpr below)).symm
    · rw [List.orderedInsert_cons, if_neg below]
      exact (if_pos (not_le.mp below)).symm

/-- A scan ends with the better of where it began and the head of the sorted list. -/
theorem scan_eq (items : List α) (best : Option α) :
    items.foldl (keep key) best = least key best (sorted key items).head? := by
  induction items generalizing best with
  | nil =>
    rw [List.foldl_nil, least]
    exact (if_neg (not_lt.mpr le_top)).symm
  | cons a rest ih =>
    rw [List.foldl_cons, ih, sorted_head_cons]
    generalize (sorted key rest).head? = head
    unfold least keep
    by_cases taken : key a < level key best
    · rw [if_pos taken]
      by_cases below : level key head < key a
      · rw [if_pos (show level key head < level key (some a) from below), if_pos below,
          if_pos (below.trans taken)]
      · rw [if_neg (show ¬level key head < level key (some a) from below), if_neg below]
        exact (if_pos taken).symm
    · rw [if_neg taken]
      by_cases below : level key head < key a
      · rw [if_pos below]
      · rw [if_neg below]
        have past : ¬level key head < level key best := fun less =>
          below (less.trans_le (not_lt.mp taken))
        rw [if_neg past]
        exact (if_neg taken).symm

end Sorting
