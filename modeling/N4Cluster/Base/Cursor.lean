import Mathlib.Data.List.Basic
import Mathlib.Tactic.Common

/-! Following a log that only grows: a reader asks for the rows after the last one it was
given, at most so many at a time. What it has been given is the log up to its cursor. -/
namespace Cursor

variable {α : Type} (key : α → Nat)

/-- The rows after a position, at most so many. -/
def page (rows : List α) (after limit : Nat) : List α := (rows.filter fun a => after < key a).take limit

/-- The position after a page. -/
def next (after : Nat) (rows : List α) : Nat := (rows.getLast?.map key).getD after

/-- The rows up to a position. -/
def upTo (rows : List α) (after : Nat) : List α := rows.filter fun a => key a ≤ after

abbrev Increasing (rows : List α) : Prop := rows.Pairwise fun a b => key a < key b

variable {key} {rows more seen : List α} {after limit : Nat}

theorem upTo_rest (increasing : Increasing key rows) (after : Nat) :
    upTo key rows after ++ rows.filter (fun a => after < key a) = rows := by
  induction rows with
  | nil => rfl
  | cons a rest ih =>
    obtain ⟨first, ordered⟩ := List.pairwise_cons.mp increasing
    by_cases here : key a ≤ after
    · have past : ¬after < key a := Nat.not_lt.mpr here
      simp only [upTo, List.filter_cons, here, past, decide_true, decide_false, if_true, Bool.false_eq_true, if_false,
        List.cons_append]
      exact congrArg (List.cons a) (ih ordered)
    · have before : after < key a := Nat.lt_of_not_le here
      have none_upTo : upTo key (a :: rest) after = [] := by
        refine List.filter_eq_nil_iff.mpr fun b member => ?_
        obtain rfl | inside := List.mem_cons.mp member
        · simpa using before
        · simpa using Nat.lt_trans before (first b inside)
      rw [none_upTo, List.nil_append]
      refine List.filter_eq_self.mpr fun b member => ?_
      obtain rfl | inside := List.mem_cons.mp member
      · exact decide_eq_true before
      · exact decide_eq_true (Nat.lt_trans before (first b inside))

/-- The rows up to the last of the first few are these few. -/
theorem upTo_last (increasing : Increasing key rows) {last : α} (ends : (rows.take limit).getLast? = some last) :
    upTo key rows (key last) = rows.take limit := by
  have both := increasing
  rw [← List.take_append_drop limit rows, Increasing, List.pairwise_append] at both
  obtain ⟨few, _, across⟩ := both
  obtain ⟨init, split⟩ := List.getLast?_eq_some_iff.mp ends
  conv_lhs => rw [← List.take_append_drop limit rows]
  rw [upTo, List.filter_append]
  have all : (rows.take limit).filter (fun a => key a ≤ key last) = rows.take limit := by
    refine List.filter_eq_self.mpr fun a member => decide_eq_true ?_
    rw [split] at member few
    obtain inside | here := List.mem_append.mp member
    · exact Nat.le_of_lt ((List.pairwise_append.mp few).2.2 a inside last (List.mem_singleton.mpr rfl))
    · exact Nat.le_of_eq (congrArg key (List.mem_singleton.mp here))
  have none_later : (rows.drop limit).filter (fun a => key a ≤ key last) = [] := by
    refine List.filter_eq_nil_iff.mpr fun a member => ?_
    have inside : last ∈ rows.take limit := List.mem_of_getLast? ends
    simpa using across last inside a member
  rw [all, none_later, List.append_nil]

/-- A page ends where the next one begins. -/
theorem upTo_next (increasing : Increasing key rows) :
    upTo key rows (next key after (page key rows after limit)) = upTo key rows after ++ page key rows after limit := by
  cases ends : (page key rows after limit).getLast? with
  | none =>
    have empty := List.getLast?_eq_none_iff.mp ends
    rw [next, ends, empty, List.append_nil]
    rfl
  | some last =>
    have rest := increasing.filter fun a => after < key a
    have inside : last ∈ rows.filter fun a => after < key a := List.mem_of_mem_take (List.mem_of_getLast? ends)
    have beyond : after < key last := of_decide_eq_true (List.mem_filter.mp inside).2
    rw [next, ends, Option.map_some, Option.getD_some]
    conv_lhs => rw [← upTo_rest increasing after]
    rw [upTo, List.filter_append]
    refine congrArg₂ (· ++ ·) (List.filter_eq_self.mpr fun a member => ?_) (upTo_last rest ends)
    exact decide_eq_true (Nat.le_trans (of_decide_eq_true (List.mem_filter.mp member).2) (Nat.le_of_lt beyond))

/-! ## A reader -/

/-- What was seen is the log up to the cursor, which is where a row is or before all of them. -/
structure Caught (key : α → Nat) (rows seen : List α) (after : Nat) : Prop where
  seen : upTo key rows after = seen
  known : after = 0 ∨ ∃ a ∈ rows, key a = after

theorem Caught.start (positive : ∀ a ∈ rows, 0 < key a) : Caught key rows [] 0 := by
  refine ⟨List.filter_eq_nil_iff.mpr fun a member => ?_, .inl rfl⟩
  simpa using Nat.ne_of_gt (positive a member)

theorem Caught.page (caught : Caught key rows seen after) (increasing : Increasing key rows) (limit : Nat) :
    Caught key rows (seen ++ page key rows after limit) (next key after (page key rows after limit)) := by
  refine ⟨?_, ?_⟩
  · rw [upTo_next increasing, caught.seen]
  · cases ends : (Cursor.page key rows after limit).getLast? with
    | none =>
      rw [next, ends]
      exact caught.known
    | some last =>
      rw [next, ends]
      exact .inr ⟨last, (List.mem_filter.mp (List.mem_of_mem_take (List.mem_of_getLast? ends))).1, rfl⟩

/-- Rows that are added meanwhile are all still ahead. -/
theorem Caught.grows (caught : Caught key rows seen after) (increasing : Increasing key (rows ++ more))
    (positive : ∀ a ∈ more, 0 < key a) : Caught key (rows ++ more) seen after := by
  have ahead : ∀ a ∈ more, after < key a := by
    intro a member
    obtain rfl | ⟨b, inside, rfl⟩ := caught.known
    · exact positive a member
    · exact (List.pairwise_append.mp increasing).2.2 b inside a member
  refine ⟨?_, caught.known.imp_right fun ⟨a, inside, here⟩ => ⟨a, List.mem_append_left _ inside, here⟩⟩
  have none_more : more.filter (fun a => key a ≤ after) = [] :=
    List.filter_eq_nil_iff.mpr fun a member => by simpa using ahead a member
  rw [upTo, List.filter_append, none_more, List.append_nil]
  exact caught.seen

/-- What was seen is a prefix of the log. -/
theorem Caught.isPrefix (caught : Caught key rows seen after) (increasing : Increasing key rows) : seen <+: rows :=
  ⟨_, caught.seen ▸ upTo_rest increasing _⟩

end Cursor
