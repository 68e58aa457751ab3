import N4Cluster.Base.Paging
import N4Cluster.Base.Sorting
import N4Cluster.Server.Settlement
import Mathlib.Data.Prod.Lex
import Mathlib.Data.String.Basic

/-! Job listings: one page of `list_jobs`, and the pages that follow its cursor. -/
namespace N4Cluster
open Relational Transactional Paging

/-- `text LIKE pattern`: a percent sign is any text, an underscore any character, and
ASCII letters match in either case. -/
def likes : List Char → List Char → Bool
  | [], text => text.isEmpty
  | '%' :: pattern, text => text.tails.any (likes pattern)
  | '_' :: pattern, _ :: text => likes pattern text
  | c :: pattern, d :: text => c.toLower == d.toLower && likes pattern text
  | _ :: _, [] => false

/-- The clauses on `status` and `name`; an empty filter is none, and `NULL` is like nothing. -/
def JobRow.passes (status name : Option String) (row : JobRow) : Bool :=
  (!truthy status || status == some row.status.value) &&
    (!truthy name ||
      row.name.any fun text => likes ("%" ++ name.getD "" ++ "%").toList text.toList)

/-- The clause on `created_at`. -/
def JobRow.before (cursor : Option Time) (row : JobRow) : Bool :=
  cursor.all fun time => row.createdAt < time

/-- `ORDER BY created_at DESC, id DESC`. -/
def JobRow.rank (row : JobRow) : (Time ×ₗ JobId)ᵒᵈ := .toDual (toLex (row.createdAt, row.id))

/-- `LIMIT ?`; a negative limit is none. -/
def limited {α : Type} (limit : Int) (rows : List α) : List α :=
  if limit < 0 then rows else rows.take limit.toNat

def listJobs (limit : Int) (status name : Option String) (createdBefore : Option Time) :
    Sql (List JobRow) := do
  if fitsInteger limit then
    let matching := (← Txn.live).jobs.rows.filter fun row =>
      row.passes status name && row.before createdBefore
    return limited limit (Sorting.sorted JobRow.rank matching)
  else Txn.raise .overflowError

/-- The pages a client fetches, the cursor after each the `created_at` of its last row, until
a page comes back empty. -/
inductive Fetches (s : Session Db) (limit : Int) (status name : Option String) :
    Option Time → List (List JobRow) → Prop where
  | last (fetched : listJobs limit status name cursor s = (.ok [], s)) :
      Fetches s limit status name cursor []
  | next (fetched : listJobs limit status name cursor s = (.ok page, s))
      (at_end : page.getLast? = some row)
      (later : Fetches s limit status name (some row.createdAt) pages) :
      Fetches s limit status name cursor (page :: pages)

/-- The jobs that pass the filter, newest first. -/
def Db.listed (db : Db) (status name : Option String) : List JobRow :=
  Sorting.sorted JobRow.rank (db.jobs.rows.filter (JobRow.passes status name))

/-- The pages hold each job that passes the filter once, newest first. -/
def ListsAll (s : Session Db) (limit : Int) (status name : Option String) : Prop :=
  ∃ pages, Fetches s limit status name none pages ∧
    pages.flatten.Perm (s.live.jobs.rows.filter (JobRow.passes status name)) ∧
    pages.flatten.Pairwise fun a b => b.createdAt ≤ a.createdAt

variable {s : Session Db} {limit : Int} {status name : Option String}

theorem rank_inj {a b : JobRow} (same : a.rank = b.rank) : a.id = b.id :=
  congrArg Prod.snd (toLex.injective (OrderDual.toDual.injective same))

theorem rank_time {a b : JobRow} (le : a.rank ≤ b.rank) : b.createdAt ≤ a.createdAt := by
  rcases Prod.Lex.le_iff.mp (OrderDual.toDual_le_toDual.mp le) with less | ⟨same, _⟩
  · exact less.le
  · exact same.le

theorem listed_perm (db : Db) (status name : Option String) :
    (db.listed status name).Perm (db.jobs.rows.filter (JobRow.passes status name)) :=
  Sorting.sorted_perm _ _

theorem listed_rank (db : Db) (status name : Option String) :
    (db.listed status name).Pairwise fun a b => a.rank ≤ b.rank :=
  Sorting.sorted_pairwise _ _

theorem listed_ordered (db : Db) (status name : Option String) :
    (db.listed status name).Pairwise fun a b => b.createdAt ≤ a.createdAt :=
  (listed_rank db status name).imp rank_time

/-- Ids are unique, so rows have one order by rank. -/
theorem ranked_eq (db : Db) {rows rows' : List JobRow} (inside : ∀ r ∈ rows, r ∈ db.jobs.rows)
    (perm : rows.Perm rows') (one : rows.Pairwise fun a b => a.rank ≤ b.rank)
    (two : rows'.Pairwise fun a b => a.rank ≤ b.rank) : rows = rows' := by
  apply perm.eq_of_pairwise _ one two
  intro a b here there ab ba
  have first : db.jobs.get a.id = some a := Table.get_of_mem (inside a here)
  have second : db.jobs.get b.id = some b := Table.get_of_mem (inside b (perm.mem_iff.mpr there))
  rw [rank_inj (le_antisymm ab ba), second] at first
  exact (Option.some.inj first).symm

/-- The rows before a cursor come in the order of the whole listing. -/
theorem sorted_before (db : Db) (cursor : Option Time) :
    Sorting.sorted JobRow.rank (db.jobs.rows.filter fun row =>
      row.passes status name && row.before cursor) =
      (db.listed status name).filter (JobRow.before cursor) := by
  apply ranked_eq db
  · intro r member
    exact (List.mem_filter.mp ((Sorting.sorted_perm _ _).mem_iff.mp member)).1
  · calc Sorting.sorted JobRow.rank (db.jobs.rows.filter fun row =>
          row.passes status name && row.before cursor)
      List.Perm _ (db.jobs.rows.filter fun row => row.passes status name && row.before cursor) :=
        Sorting.sorted_perm _ _
      List.Perm _ ((db.jobs.rows.filter (JobRow.passes status name)).filter (JobRow.before cursor)) := by
        rw [List.filter_filter]
        simp only [Bool.and_comm, List.Perm.refl]
      List.Perm _ ((db.listed status name).filter (JobRow.before cursor)) :=
        ((listed_perm db status name).filter _).symm
  · exact Sorting.sorted_pairwise _ _
  · exact (listed_rank db status name).sublist List.filter_sublist

theorem listJobs_run (cursor : Option Time) (fits : fitsInteger limit = true) (s : Session Db) :
    listJobs limit status name cursor s =
      (.ok (limited limit ((s.live.listed status name).filter (JobRow.before cursor))), s) := by
  rw [← sorted_before]
  simp only [listJobs, fits, if_true, Txn.bind_run, Txn.live_run, Txn.pure_run]

theorem listJobs_overflow (cursor : Option Time) (wide : fitsInteger limit = false) :
    listJobs limit status name cursor s = (.error .overflowError, s) := by
  simp only [listJobs, wide, Bool.false_eq_true, if_false, Txn.raise_run]

theorem before_none (rows : List JobRow) : rows.filter (JobRow.before none) = rows :=
  List.filter_eq_self.mpr fun _ _ => rfl

/-- What follows a page is what lies below the time of its last row. -/
theorem before_after {rows : List JobRow} {cursor : Option Time} {row : JobRow}
    (member : row ∈ rows.filter (JobRow.before cursor)) :
    (rows.filter (JobRow.before cursor)).filter (fun a => a.createdAt < row.createdAt) =
      rows.filter (JobRow.before (some row.createdAt)) := by
  have inside := (List.mem_filter.mp member).2
  rw [List.filter_filter]
  apply List.filter_congr
  intro a _
  cases cursor with
  | none => simp [JobRow.before]
  | some time =>
    simp only [JobRow.before, Option.all_some, decide_eq_true_eq] at inside ⊢
    by_cases below : a.createdAt < row.createdAt
    · simp [below, below.trans inside]
    · simp [below]

/-- A client fetches the pages of the listing. -/
theorem fetches_iff (positive : 0 < limit) (fits : fitsInteger limit = true)
    {cursor : Option Time} {pages : List (List JobRow)} :
    Fetches s limit status name cursor pages ↔
      Paged JobRow.createdAt limit.toNat ((s.live.listed status name).filter (JobRow.before cursor))
        pages := by
  have page : ∀ rows : List JobRow, limited limit rows = rows.take limit.toNat :=
    fun _ => if_neg (by omega)
  constructor
  · intro fetches
    induction fetches with
    | last fetched =>
      rw [listJobs_run _ fits, page] at fetched
      exact .last (Except.ok.inj (congrArg Prod.fst fetched))
    | next fetched at_end _ ih =>
      rw [listJobs_run _ fits, page] at fetched
      obtain rfl := Except.ok.inj (congrArg Prod.fst fetched)
      rw [← before_after (List.mem_of_mem_take (List.mem_of_getLast? at_end))] at ih
      exact .next at_end ih
  · intro paged
    generalize left : (s.live.listed status name).filter (JobRow.before cursor) = rows at paged
    induction paged generalizing cursor with
    | last none_left =>
      apply Fetches.last
      rw [listJobs_run _ fits, page, left, none_left]
    | next at_end _ ih =>
      apply Fetches.next _ at_end
      · apply ih
        rw [← left] at at_end ⊢
        exact (before_after (List.mem_of_mem_take (List.mem_of_getLast? at_end))).symm
      · rw [listJobs_run _ fits, page, left]

theorem listsAll_seamless (positive : 0 < limit) (lists : ListsAll s limit status name) :
    fitsInteger limit = true ∧
      Seamless JobRow.createdAt limit.toNat (s.live.listed status name) := by
  obtain ⟨pages, fetches, perm, _⟩ := lists
  cases fits : fitsInteger limit with
  | false =>
    have raised : listJobs limit status name none s = (.error .overflowError, s) :=
      listJobs_overflow none fits
    cases fetches with
    | last fetched =>
      rw [raised] at fetched
      cases fetched
    | next fetched =>
      rw [raised] at fetched
      cases fetched
  | true =>
    have paged := (fetches_iff positive fits).mp fetches
    rw [before_none] at paged
    have ordered := listed_ordered s.live status name
    refine ⟨rfl, (paged.flatten_iff (by omega) ordered).mp ?_⟩
    apply (paged.sublist ordered).eq_of_length
    exact (perm.trans (listed_perm s.live status name).symm).length_eq

theorem seamless_listsAll (positive : 0 < limit) (fits : fitsInteger limit = true)
    (seamless : Seamless JobRow.createdAt limit.toNat (s.live.listed status name)) :
    ListsAll s limit status name := by
  have ordered := listed_ordered s.live status name
  obtain ⟨pages, paged⟩ := paged_exists JobRow.createdAt limit.toNat
    (s.live.listed status name)
  have full := (paged.flatten_iff (by omega) ordered).mpr seamless
  rw [← before_none (s.live.listed status name)] at paged
  refine ⟨pages, (fetches_iff positive fits).mpr paged, ?_, ?_⟩
  · rw [full]
    exact listed_perm s.live status name
  · rw [full]
    exact ordered

/-- Fetching page after page lists every job that passes the filter once, newest first,
exactly when the driver takes the page size and no page ends between two jobs created at
one time. -/
theorem pages_listed (s : Session Db) (limit : Int) (status name : Option String)
    (positive : 0 < limit) :
    ListsAll s limit status name ↔
      fitsInteger limit = true ∧
        Seamless JobRow.createdAt limit.toNat (s.live.listed status name) :=
  ⟨listsAll_seamless positive, fun both => seamless_listsAll positive both.1 both.2⟩

/-- Two jobs submitted at the given times. -/
def twoJobs (first second : Time) : Session Db :=
  let submitted := (createJobWithTasks .plain { now := first } singleTask none (.settled {})).2
  (createJobWithTasks .plain { now := second, uuid := fun n => toString (n + 2) } singleTask none
    submitted).2

theorem pair_seamless {rows : List JobRow} {x y : Time}
    (stamps : rows.map JobRow.createdAt = [x, y]) :
    Seamless JobRow.createdAt 1 rows ↔ x ≠ y := by
  have length : rows.length = 2 := by
    rw [← List.length_map JobRow.createdAt, stamps]
    rfl
  obtain ⟨a, b, rfl⟩ := List.length_eq_two.mp length
  simp only [List.map_cons, List.map_nil, List.cons.injEq, and_true] at stamps
  obtain ⟨rfl, rfl⟩ := stamps
  rw [seamless_iff Nat.one_pos]
  constructor
  · intro ⟨apart, _⟩
    exact apart a b rfl rfl
  · intro apart
    refine ⟨?_, seamless_short (Nat.le_refl 1)⟩
    intro a' b' here there
    cases here
    cases there
    exact apart

theorem pages_listed_apart : ListsAll (twoJobs 1 2) 1 none none := by
  have stamps : ((twoJobs 1 2).live.listed none none).map JobRow.createdAt = [2, 1] := by
    decide +kernel
  have seamless : Seamless JobRow.createdAt (1 : Int).toNat ((twoJobs 1 2).live.listed none none) :=
    (pair_seamless stamps).mpr (by decide)
  exact (pages_listed (twoJobs 1 2) 1 none none (by decide)).mpr ⟨by decide, seamless⟩

/-- Two jobs created at one time and pages of one: the second page is empty. -/
theorem twin_job_skipped : ¬ListsAll (twoJobs 1 1) 1 none none := by
  intro lists
  have stamps : ((twoJobs 1 1).live.listed none none).map JobRow.createdAt = [1, 1] := by
    decide +kernel
  exact (pair_seamless stamps).mp (listsAll_seamless (by decide) lists).2 rfl

end N4Cluster
