import Mathlib.Data.List.DropRight
import Mathlib.Tactic.Common

/-! A bounded queue that drops its oldest item to make room, between what was put into it and
what was taken out of it. -/
namespace Mailbox

variable {α : Type} {capacity : Nat} {mail got queue : List α} {item : α}

def push (capacity : Nat) (queue : List α) (item : α) : List α :=
  let queue := if capacity ≤ queue.length then queue.tail else queue
  if capacity ≤ queue.length then queue else queue ++ [item]

/-- The first position after the last one taken. -/
def next (taken : List Nat) : Nat := taken.getLast?.elim 0 (· + 1)

/-- Of the mail, each item at most once and in order was got, and the queue holds the latest of
what came after the last one got, as many as fit. -/
def Served (capacity : Nat) (mail got queue : List α) : Prop :=
  ∃ taken : List Nat, taken.Pairwise (· < ·) ∧ taken.map (mail[·]?) = got.map some ∧
    queue = (mail.drop (next taken)).rtake capacity

theorem push_rtake (room : 0 < capacity) (items : List α) (item : α) :
    push capacity (items.rtake capacity) item = (items ++ [item]).rtake capacity := by
  obtain ⟨n, rfl⟩ := Nat.exists_eq_succ_of_ne_zero (Nat.ne_of_gt room)
  rw [Nat.succ_eq_add_one, List.rtake_concat_succ, push]
  by_cases full : n + 1 ≤ items.length
  · have length : (items.rtake (n + 1)).length = n + 1 := by
      rw [List.rtake, List.length_drop]
      omega
    have tail : (items.rtake (n + 1)).tail = items.rtake n := by
      rw [List.rtake, List.rtake, List.tail_drop]
      congr 1
      omega
    have shorter : (items.rtake n).length = n := by
      rw [List.rtake, List.length_drop]
      omega
    simp only [length, Nat.le_refl, if_true, tail, shorter]
    exact if_neg (Nat.not_succ_le_self n)
  · have whole (m : Nat) (fits : items.length ≤ m) : items.rtake m = items := by
      rw [List.rtake, Nat.sub_eq_zero_of_le fits, List.drop_zero]
    rw [whole (n + 1) (by omega), whole n (by omega)]
    simp only [full, if_false]

theorem next_append (taken : List Nat) (i : Nat) : next (taken ++ [i]) = i + 1 := by
  simp [next]

theorem lt_next {taken : List Nat} (ordered : taken.Pairwise (· < ·)) : ∀ i ∈ taken, i < next taken := by
  intro i member
  obtain rfl | ⟨front, last, rfl⟩ := List.eq_nil_or_concat' taken
  · cases member
  · rw [next_append]
    rcases List.mem_append.mp member with early | late
    · have below := (List.pairwise_append.mp ordered).2.2 i early last List.mem_cons_self
      omega
    · rw [List.mem_singleton.mp late]
      exact Nat.lt_succ_self last

theorem next_le {taken : List Nat} (inside : ∀ i ∈ taken, i < mail.length) : next taken ≤ mail.length := by
  obtain rfl | ⟨front, last, rfl⟩ := List.eq_nil_or_concat' taken
  · exact Nat.zero_le _
  · rw [next_append]
    exact inside last (by simp)

theorem taken_inside {taken : List Nat} (same : taken.map (mail[·]?) = got.map some) :
    ∀ i ∈ taken, i < mail.length := by
  intro i member
  have image : mail[i]? ∈ got.map some := by
    rw [← same]
    exact List.mem_map_of_mem member
  obtain ⟨item, -, found⟩ := List.mem_map.mp image
  exact (List.getElem?_eq_some_iff.mp found.symm).1

theorem Served.start (capacity : Nat) : Served capacity ([] : List α) [] [] := by
  refine ⟨[], List.Pairwise.nil, rfl, ?_⟩
  rw [List.drop_nil, List.rtake_nil]

theorem Served.push (room : 0 < capacity) (served : Served capacity mail got queue) (item : α) :
    Served capacity (mail ++ [item]) got (Mailbox.push capacity queue item) := by
  obtain ⟨taken, ordered, same, rfl⟩ := served
  have inside := taken_inside same
  refine ⟨taken, ordered, ?_, ?_⟩
  · rw [← same]
    apply List.map_congr_left
    intro i member
    exact List.getElem?_append_left (inside i member)
  · rw [push_rtake room, List.drop_append_of_le_length (next_le inside)]

theorem Served.get (served : Served capacity mail got (item :: queue)) :
    Served capacity mail (got ++ [item]) queue := by
  obtain ⟨taken, ordered, same, left⟩ := served
  rw [List.rtake, List.drop_drop, List.length_drop] at left
  generalize place : next taken + (mail.length - next taken - capacity) = m at left
  have found : mail[m]? = some item := by
    rw [← List.head?_drop, ← left]
    rfl
  have rest : queue = mail.drop (m + 1) := by
    rw [← List.tail_drop, ← left]
    rfl
  have bound := (List.getElem?_eq_some_iff.mp found).1
  refine ⟨taken ++ [m], ?_, by simp [same, found], ?_⟩
  · refine List.pairwise_append.mpr ⟨ordered, List.pairwise_singleton _ m, ?_⟩
    intro i member j last
    have below := lt_next ordered i member
    rw [List.mem_singleton.mp last]
    omega
  · rw [next_append, rest, List.rtake, List.length_drop]
    have fits : mail.length - (m + 1) - capacity = 0 := by omega
    rw [fits, List.drop_zero]

theorem Served.subset (served : Served capacity mail got queue) : got ⊆ mail := by
  obtain ⟨taken, -, same, -⟩ := served
  intro item member
  have image : some item ∈ taken.map (mail[·]?) := by
    rw [same]
    exact List.mem_map_of_mem member
  obtain ⟨i, -, found⟩ := List.mem_map.mp image
  exact List.mem_of_getElem? found

end Mailbox
