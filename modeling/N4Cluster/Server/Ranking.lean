import N4Cluster.Base.Sorting
import N4Cluster.Server.Finalization
import Mathlib.Algebra.Order.Ring.Rat
import Mathlib.Order.WithBot
import N4Cluster.Base.Fallible

/-! The ranking of a job's results. The loop keeps the first best value, the sort is
stable, and under a metric of the results the two agree; under another name the ranking
may be refused, or an entry may lose a column to the metric. -/
namespace N4Cluster
open Relational Transactional Interleave

variable {P : Platform} {req : JobRequest} {tasks : List TaskRow} {tally tally' : Tally}
  {row : TaskRow} {agg : JobAggregate}

/-- No value, or a finite number. -/
def MetricValue.plain : MetricValue → Bool
  | .none | .number (.fin _) => true
  | _ => false

/-- The place of a value in a ranking, the best least; absent and non-finite ones come last. -/
def MetricValue.key (mode : RankMode) : MetricValue → WithTop ℚ
  | .number (.fin q) =>
    match mode with
    | .min => q
    | .max => (-q : ℚ)
  | _ => ⊤

def RankingEntry.key (mode : RankMode) (entry : RankingEntry) : WithTop ℚ := entry.value.key mode

/-- The attribute that a metric's name stands for, if it names no field. -/
def Platform.attrOf (P : Platform) (name : String) : Option MetricAttr :=
  if name ∈ metricFields then none else P.metricAttr name

/-- What a metric's name can find. -/
def Platform.Finds (P : Platform) (name : String) (value : MetricValue) : Prop :=
  match P.attrOf name with
  | none => value.plain = true
  | some _ => ∃ metrics, value = .attribute name metrics

theorem attrOf_some {name : String} {attr : MetricAttr} (kind : P.attrOf name = some attr) :
    P.metricAttr name = some attr := by
  unfold Platform.attrOf at kind
  split at kind
  · contradiction
  · exact kind

theorem metricOf_plain (value : Option PyFloat) : (metricOf value).sanitize.plain = true := by
  rcases value with _ | _ | _ | _ | q <;> rfl

theorem getattr_finds (P : Platform) (metrics : RunMetrics) (name : String) :
    P.Finds name (P.getattr metrics name).sanitize := by
  unfold Platform.getattr
  split
  · exact metricOf_plain _
  · exact metricOf_plain _
  · exact metricOf_plain _
  · exact metricOf_plain _
  · exact metricOf_plain _
  · rename_i score rmse r2 mae accuracy
    have unnamed : name ∉ metricFields := by
      simp only [metricFields, List.mem_cons, List.not_mem_nil, or_false]
      rintro (same | same | same | same | same)
      · exact score same
      · exact rmse same
      · exact r2 same
      · exact mae same
      · exact accuracy same
    rw [Platform.Finds, Platform.attrOf, if_neg unnamed]
    cases P.metricAttr name with
    | none => rfl
    | some attr => exact ⟨metrics, rfl⟩

/-- A plain value is absent or a number. -/
theorem MetricValue.plain_cases {value : MetricValue} (plain : value.plain = true) :
    value = .none ∨ ∃ q, value = .number (.fin q) := by
  rcases value with _ | (_ | _ | _ | q) | _ <;> first | exact .inl rfl | exact .inr ⟨_, rfl⟩ | contradiction

theorem key_none (mode : RankMode) : MetricValue.none.key mode = ⊤ := rfl

theorem key_lt_top (mode : RankMode) (x : ℚ) : (MetricValue.number (.fin x)).key mode < ⊤ := by
  cases mode <;> exact WithTop.coe_lt_top _

theorem key_lt (mode : RankMode) (x y : ℚ) :
    (MetricValue.number (.fin x)).key mode < (MetricValue.number (.fin y)).key mode ↔
      match mode with
      | .min => x < y
      | .max => y < x := by
  cases mode with
  | min => exact WithTop.coe_lt_coe
  | max => exact WithTop.coe_lt_coe.trans neg_lt_neg_iff

theorem metricBetter_plain {candidate current : MetricValue} (first : candidate.plain = true)
    (second : current.plain = true) (mode : RankMode) :
    P.aggregateMetricBetter candidate current mode =
      .ok (decide (candidate.key mode < current.key mode)) := by
  obtain rfl | ⟨x, rfl⟩ := MetricValue.plain_cases first
  · simp [Platform.aggregateMetricBetter, key_none]
  · obtain rfl | ⟨y, rfl⟩ := MetricValue.plain_cases second
    · simp [Platform.aggregateMetricBetter, key_none, key_lt_top]
    · cases mode <;> simp [Platform.aggregateMetricBetter, Platform.metricLt, PyFloat.lt, key_lt]

theorem rankLt_plain {a b : MetricValue} (first : a.plain = true) (second : b.plain = true)
    (mode : RankMode) :
    P.rankLt mode (.metric a) (.metric b) = .ok (decide (a.key mode < b.key mode)) := by
  obtain rfl | ⟨x, rfl⟩ := MetricValue.plain_cases first
  · simp [Platform.rankLt, key_none]
  · obtain rfl | ⟨y, rfl⟩ := MetricValue.plain_cases second
    · simp [Platform.rankLt, key_none, key_lt_top]
    · cases mode <;> simp [Platform.rankLt, Platform.metricLt, PyFloat.lt, key_lt]

/-! ## The loop over the tasks -/

/-- The tasks that are ranked. -/
def TaskRow.ranked (row : TaskRow) : Bool := decide (row.status = .succeeded) && row.result.isSome

/-- The entry of a task, if its result reads back. -/
def Platform.entry (P : Platform) (req : JobRequest) (row : TaskRow) : Option RankingEntry :=
  match row.status, row.result with
  | .succeeded, some stored =>
    match P.reloadResult stored with
    | .ok result => some (rankingEntry req row (P.getattr result.metrics req.rankMetric).sanitize result.metrics)
    | .error _ => none
  | _, _ => none

/-- The stored result of the task reads back. -/
def Platform.Reads (P : Platform) (row : TaskRow) : Prop :=
  ∀ stored, row.status = .succeeded → row.result = some stored →
    ∃ result, P.reloadResult stored = .ok result

/-- How many values the best so far stands for. -/
def Tally.seen (tally : Tally) : Nat :=
  match tally.bestValue with
  | .none => 0
  | _ => 1

theorem tallyTask_unranked (skipped : row.ranked = false) :
    P.tallyTask req tally row = .ok { tally with agg := tally.agg.countTask row } := by
  unfold Platform.tallyTask
  dsimp only
  split
  · rename_i stored succeeded result
    simp [TaskRow.ranked, succeeded, result] at skipped
  · rfl

theorem ranked_iff : row.ranked = true ↔ row.status = .succeeded ∧ ∃ stored, row.result = some stored := by
  simp [TaskRow.ranked, Option.isSome_iff_exists]

/-- A turn over a ranked task. -/
theorem tallyTask_ranked {stored : TaskResult} (succeeded : row.status = .succeeded)
    (held : row.result = some stored) :
    P.tallyTask req tally row = (do
      let result ← P.reloadResult stored
      let value := (P.getattr result.metrics req.rankMetric).sanitize
      let ranking := tally.ranking ++ [rankingEntry req row value result.metrics]
      if ← P.aggregateMetricBetter value tally.bestValue req.rankMode then
        return ⟨tally.agg.countTask row, value, some row.id, ranking⟩
      else return ⟨tally.agg.countTask row, tally.bestValue, tally.bestTaskId, ranking⟩) := by
  unfold Platform.tallyTask
  simp only [succeeded, held]

/-- A turn that is taken appends the task's entry, if it has one. -/
theorem tallyTask_ranking (ran : P.tallyTask req tally row = .ok tally') :
    tally'.ranking = tally.ranking ++ (P.entry req row).toList ∧
      tally'.agg = tally.agg.countTask row ∧ P.Reads row := by
  cases ranked : row.ranked with
  | false =>
    rw [tallyTask_unranked ranked] at ran
    cases ran
    have none : P.entry req row = none := by
      unfold Platform.entry
      split
      · rename_i stored succeeded result
        simp [TaskRow.ranked, succeeded, result] at ranked
      · rfl
    refine ⟨by simp [none], rfl, fun stored succeeded result => ?_⟩
    simp [TaskRow.ranked, succeeded, result] at ranked
  | true =>
    obtain ⟨succeeded, stored, held⟩ := ranked_iff.mp ranked
    rw [tallyTask_ranked succeeded held] at ran
    cases loaded : P.reloadResult stored with
    | error error =>
      rw [loaded] at ran
      contradiction
    | ok result =>
      have entry : P.entry req row =
          some (rankingEntry req row (P.getattr result.metrics req.rankMetric).sanitize result.metrics) := by
        simp only [Platform.entry, succeeded, held, loaded]
      rw [loaded] at ran
      simp only [bind, Except.bind] at ran
      split at ran
      · contradiction
      · split at ran <;> cases ran <;>
        · refine ⟨by rw [entry]; rfl, rfl, fun other _ held' => ?_⟩
          cases held.symm.trans held'
          exact ⟨result, loaded⟩

theorem tallyTasks_ranking (ran : tasks.foldlM (P.tallyTask req) tally = .ok tally') :
    tally'.ranking = tally.ranking ++ tasks.filterMap (P.entry req) ∧
      tally'.agg = tasks.foldl JobAggregate.countTask tally.agg ∧ ∀ row ∈ tasks, P.Reads row := by
  induction tasks generalizing tally with
  | nil =>
    cases ran
    simp
  | cons row rest ih =>
    simp only [List.foldlM_cons, bind, Except.bind] at ran
    split at ran
    · contradiction
    · rename_i next stepped
      obtain ⟨ranking, counts, reads⟩ := tallyTask_ranking stepped
      obtain ⟨ranking', counts', reads'⟩ := ih ran
      refine ⟨?_, ?_, fun other member => ?_⟩
      · rw [ranking', ranking, List.append_assoc]
        cases here : P.entry req row <;> simp [here]
      · rw [counts', counts, List.foldl_cons]
      · rcases List.mem_cons.mp member with rfl | later
        · exact reads
        · exact reads' other later

/-- The first value is better than none; of two, it depends on what they can do. -/
theorem metricBetter_finds {name : String} {candidate current : MetricValue}
    (found : P.Finds name candidate) (before : current = .none ∨ P.Finds name current) (mode : RankMode) :
    (∃ better, P.aggregateMetricBetter candidate current mode = .ok better) ↔
      ∀ attr, P.attrOf name = some attr → current = .none ∨ attr.less.isSome = true := by
  unfold Platform.Finds at found before
  cases kind : P.attrOf name with
  | none =>
    rw [kind] at found before
    have plain : current.plain = true := by
      rcases before with rfl | plain
      · rfl
      · exact plain
    rw [metricBetter_plain found plain]
    exact ⟨fun _ => nofun, fun _ => ⟨_, rfl⟩⟩
  | some attr =>
    rw [kind] at found before
    obtain ⟨metrics, rfl⟩ := found
    have named := attrOf_some kind
    rcases before with rfl | ⟨metrics', rfl⟩
    · exact ⟨fun _ _ _ => .inl rfl, fun _ => ⟨true, rfl⟩⟩
    · cases less : attr.less with
      | none =>
        constructor
        · rintro ⟨better, ran⟩
          cases mode <;>
            simp [Platform.aggregateMetricBetter, Platform.metricLt, named, less] at ran
        · intro able
          rcases able attr rfl with none | some
          · cases none
          · rw [less] at some
            cases some
      | some lt =>
        refine ⟨fun _ other same => .inr ?_, fun _ => ?_⟩
        · cases same
          rw [less]
          rfl
        · cases mode with
          | min => exact ⟨lt metrics metrics', by
              simp only [Platform.aggregateMetricBetter, Platform.metricLt, named, less, Option.bind_some]⟩
          | max => exact ⟨lt metrics' metrics, by
              simp only [Platform.aggregateMetricBetter, Platform.metricLt, named, less, Option.bind_some]⟩

/-- The loop goes through if every result reads back and no two values fail to compare. -/
theorem tallyTasks_ok_iff (known : tally.bestValue = .none ∨ P.Finds req.rankMetric tally.bestValue) :
    (∃ tally', tasks.foldlM (P.tallyTask req) tally = .ok tally') ↔
      (∀ row ∈ tasks, P.Reads row) ∧ ∀ attr, P.attrOf req.rankMetric = some attr →
        attr.less.isSome = true ∨ tally.seen + tasks.countP TaskRow.ranked ≤ 1 := by
  induction tasks generalizing tally with
  | nil =>
    refine ⟨fun _ => ⟨fun _ member => False.elim (List.not_mem_nil member), fun attr _ => .inr ?_⟩,
      fun _ => ⟨tally, rfl⟩⟩
    rw [List.countP_nil]
    unfold Tally.seen
    split <;> decide
  | cons row rest ih =>
    rw [List.foldlM_cons]
    cases ranked : row.ranked with
    | false =>
      have reads : P.Reads row := fun stored succeeded result => by
        simp [TaskRow.ranked, succeeded, result] at ranked
      have next := @ih { tally with agg := tally.agg.countTask row } known
      rw [tallyTask_unranked ranked, List.countP_cons_of_neg (by simp [ranked])]
      refine next.trans ⟨fun both => ⟨fun other member => ?_, both.2⟩, fun both =>
        ⟨fun other member => both.1 other (List.mem_cons_of_mem _ member), both.2⟩⟩
      rcases List.mem_cons.mp member with rfl | later
      · exact reads
      · exact both.1 other later
    | true =>
      obtain ⟨succeeded, stored, held⟩ := ranked_iff.mp ranked
      rw [tallyTask_ranked succeeded held, List.countP_cons_of_pos ranked]
      cases loaded : P.reloadResult stored with
      | error error =>
        refine ⟨fun ok => ?_, fun both => ?_⟩
        · obtain ⟨_, ran⟩ := ok
          cases ran
        · obtain ⟨result, same⟩ := both.1 row List.mem_cons_self stored succeeded held
          cases loaded.symm.trans same
      | ok result =>
        have reads : P.Reads row := fun other _ held' => by
          cases held.symm.trans held'
          exact ⟨result, loaded⟩
        have found := getattr_finds P result.metrics req.rankMetric
        have better := metricBetter_finds found known req.rankMode
        simp only [bind, Except.bind]
        generalize (P.getattr result.metrics req.rankMetric).sanitize = value at found better ⊢
        have split_ : (∀ other ∈ row :: rest, P.Reads other) ↔ ∀ other ∈ rest, P.Reads other := by
          simp [reads]
        rw [split_]
        cases judged : P.aggregateMetricBetter value tally.bestValue req.rankMode with
        | error error =>
          refine ⟨fun ok => ?_, fun both => ?_⟩
          · obtain ⟨_, ran⟩ := ok
            cases ran
          · have unable : ¬∃ b, P.aggregateMetricBetter value tally.bestValue req.rankMode = .ok b := by
              rintro ⟨b, ran⟩
              cases judged.symm.trans ran
            refine False.elim (unable (better.mpr fun attr kind => ?_))
            rcases both.2 attr kind with some | few
            · exact .inr some
            · refine .inl ?_
              unfold Tally.seen at few
              split at few
              · assumption
              · omega
        | ok taken =>
          have able := better.mp ⟨taken, judged⟩
          have onward {next : Tally} (known : next.bestValue = .none ∨ P.Finds req.rankMetric next.bestValue)
              (counts : ∀ attr, P.attrOf req.rankMetric = some attr →
                attr.less.isSome = true ∨ next.seen = tally.seen + 1) :
              (∃ tally', rest.foldlM (P.tallyTask req) next = .ok tally') ↔
                (∀ row ∈ rest, P.Reads row) ∧ ∀ attr, P.attrOf req.rankMetric = some attr →
                  attr.less.isSome = true ∨ tally.seen + (rest.countP TaskRow.ranked + 1) ≤ 1 := by
            refine (ih known).trans (and_congr_right fun _ => forall_congr' fun attr => ?_)
            refine imp_congr_right fun kind => ?_
            rcases counts attr kind with some | same
            · exact ⟨fun _ => .inl some, fun _ => .inl some⟩
            · rw [same, Nat.add_right_comm, Nat.add_assoc]
          cases taken with
          | true =>
            refine onward (.inr found) fun attr kind => (able attr kind).symm.imp_right fun none => ?_
            obtain ⟨metrics, rfl⟩ : ∃ metrics, value = .attribute req.rankMetric metrics := by
              rwa [Platform.Finds, kind] at found
            simp only [Tally.seen, none]
          | false =>
            refine onward known fun attr kind => .inl ((able attr kind).resolve_left fun none => ?_)
            obtain ⟨metrics, rfl⟩ : ∃ metrics, value = .attribute req.rankMetric metrics := by
              rwa [Platform.Finds, kind] at found
            rw [none] at judged
            cases judged

/-- The loop from its start. -/
theorem tallyStart_ok_iff (P : Platform) (req : JobRequest) (tasks : List TaskRow) :
    (∃ tally, tasks.foldlM (P.tallyTask req) { agg := { numTasks := tasks.length } } = .ok tally) ↔
      (∀ row ∈ tasks, P.Reads row) ∧ ∀ attr, P.attrOf req.rankMetric = some attr →
        attr.less.isSome = true ∨ tasks.countP TaskRow.ranked ≤ 1 := by
  refine (@tallyTasks_ok_iff P req tasks { agg := { numTasks := tasks.length } } (.inl rfl)).trans ?_
  rw [show ({ agg := { numTasks := tasks.length } } : Tally).seen = 0 from rfl, Nat.zero_add]

/-! ## The sort -/

/-- Two entries compare, or are one. -/
def Platform.Comparable (P : Platform) (req : JobRequest) (a b : RankingEntry) : Prop :=
  a.taskId = b.taskId ∨ (P.rankLt req.rankMode (a.rankValue req) (b.rankValue req)).isOk = true

/-- Entries that can be sorted. -/
structure Platform.Sortable (P : Platform) (req : JobRequest) (entries : List RankingEntry) : Prop where
  keys : ∀ entry ∈ entries, P.rankKey req.rankMode (entry.rankValue req) = .ok ()
  compares : ∀ a ∈ entries, ∀ b ∈ entries, P.Comparable req a b

theorem sortRanking_ok_iff {entries ranking : List RankingEntry} :
    P.sortRanking req entries = .ok ranking ↔ P.Sortable req entries ∧
      ranking = entries.insertionSort fun a b =>
        (P.rankLt req.rankMode (b.rankValue req) (a.rankValue req)).toOption ≠ some true := by
  unfold Platform.sortRanking
  simp only [bind, Except.bind]
  cases keys : entries.forM fun entry => P.rankKey req.rankMode (entry.rankValue req) with
  | error error =>
    refine ⟨nofun, fun both => ?_⟩
    cases keys.symm.trans (Fallible.forM_ok_iff.mpr both.1.keys)
  | ok value =>
    dsimp only
    split
    · rename_i compares
      refine ⟨fun ran => ⟨⟨Fallible.forM_ok_iff.mp keys, fun a here b there => ?_⟩, (Except.ok.inj ran).symm⟩,
        fun both => congrArg Except.ok both.2.symm⟩
      have pair := List.all_eq_true.mp (List.all_eq_true.mp compares a here) b there
      simpa [Platform.Comparable] using pair
    · rename_i fails
      refine ⟨nofun, fun both => False.elim (fails ?_)⟩
      refine List.all_eq_true.mpr fun a here => List.all_eq_true.mpr fun b there => ?_
      have pair := both.1.compares a here b there
      simpa [Platform.Comparable] using pair

theorem sortRanking_perm {entries ranking : List RankingEntry}
    (sorted : P.sortRanking req entries = .ok ranking) : ranking.Perm entries := by
  rw [(sortRanking_ok_iff.mp sorted).2]
  exact List.perm_insertionSort _ _

theorem tally_ok_iff {tasks : List TaskRow} : P.tally req tasks = .ok agg ↔
    ∃ tally, tasks.foldlM (P.tallyTask req) { agg := { numTasks := tasks.length } } = .ok tally ∧
      ∃ ranking, P.sortRanking req tally.ranking = .ok ranking ∧
        agg = { tally.agg with
          ranking := ranking, bestMetric := tally.bestValue, bestTaskId := tally.bestTaskId } := by
  unfold Platform.tally
  simp only [bind, Except.bind]
  cases folded : tasks.foldlM (P.tallyTask req) { agg := { numTasks := tasks.length } } with
  | error error => simp
  | ok tally =>
    cases sorted : P.sortRanking req tally.ranking with
    | error error => simp [sorted]
    | ok ranking =>
      simp only [sorted, Except.ok.injEq, exists_eq_left']
      exact ⟨fun same => (Except.ok.inj same).symm, fun same => congrArg Except.ok same.symm⟩

theorem attrOf_field {name : String} (field : name ∈ metricFields) : P.attrOf name = none := if_pos field

theorem finds_field {name : String} {value : MetricValue} (field : name ∈ metricFields)
    (found : P.Finds name value) : value.plain = true := by
  rwa [Platform.Finds, attrOf_field field] at found

theorem field_columns {name : String} (field : name ∈ metricFields) :
    name ≠ "task_id" ∧ name ≠ "dataset" ∧ name ≠ "pipeline" ∧ name ≠ "metrics" := by
  simp only [metricFields, List.mem_cons, List.not_mem_nil, or_false] at field
  rcases field with rfl | rfl | rfl | rfl | rfl <;> decide

/-- What the entry of a ranked task says. -/
theorem entry_some {entry : RankingEntry} (found : P.entry req row = some entry) :
    row.status = .succeeded ∧ ∃ stored result, row.result = some stored ∧
      P.reloadResult stored = .ok result ∧ entry = rankingEntry req row
        (P.getattr result.metrics req.rankMetric).sanitize result.metrics := by
  unfold Platform.entry at found
  split at found
  · rename_i stored succeeded held
    split at found
    · rename_i result loaded
      exact ⟨succeeded, stored, result, held, loaded, (Option.some.inj found).symm⟩
    · contradiction
  · contradiction

theorem entry_plain {entry : RankingEntry} (field : req.rankMetric ∈ metricFields)
    (found : P.entry req row = some entry) : entry.value.plain = true := by
  obtain ⟨_, _, result, _, _, rfl⟩ := entry_some found
  exact finds_field field (getattr_finds P result.metrics req.rankMetric)

theorem entries_plain {entry : RankingEntry} (field : req.rankMetric ∈ metricFields)
    (member : entry ∈ tasks.filterMap (P.entry req)) :
    entry.value.plain = true ∧ entry.rankValue req = .metric entry.value := by
  obtain ⟨row, _, found⟩ := List.mem_filterMap.mp member
  exact ⟨entry_plain field found, if_neg (field_columns field).2.2.2⟩

theorem entries_sortable (field : req.rankMetric ∈ metricFields) :
    P.Sortable req (tasks.filterMap (P.entry req)) := by
  constructor
  · intro entry member
    obtain ⟨plain, value⟩ := entries_plain field member
    rw [value]
    obtain none | ⟨q, number⟩ := MetricValue.plain_cases plain
    · rw [none]
      cases req.rankMode <;> rfl
    · rw [number]
      cases req.rankMode <;> rfl
  · intro a here b there
    obtain ⟨plain, value⟩ := entries_plain field here
    obtain ⟨plain', value'⟩ := entries_plain field there
    refine .inr ?_
    rw [value, value', rankLt_plain plain plain']
    rfl

/-- The ranking is the list of entries sorted by their keys. -/
theorem ranking_sorted (field : req.rankMetric ∈ metricFields) {ranking : List RankingEntry}
    (sorted : P.sortRanking req (tasks.filterMap (P.entry req)) = .ok ranking) :
    ranking = Sorting.sorted (RankingEntry.key req.rankMode) (tasks.filterMap (P.entry req)) := by
  rw [(sortRanking_ok_iff.mp sorted).2]
  have same := List.map_insertionSort
    (fun a b => (P.rankLt req.rankMode (b.rankValue req) (a.rankValue req)).toOption ≠ some true)
    (fun a b => RankingEntry.key req.rankMode a ≤ RankingEntry.key req.rankMode b) id
    (tasks.filterMap (P.entry req)) fun a here b there => by
      obtain ⟨plain, value⟩ := entries_plain field here
      obtain ⟨plain', value'⟩ := entries_plain field there
      rw [value, value', rankLt_plain plain' plain]
      simp [Except.toOption, RankingEntry.key]
  rwa [List.map_id, List.map_id] at same

/-- The loop's best so far is an entry's. -/
structure Tally.Holds (tally : Tally) (best : Option RankingEntry) : Prop where
  value : tally.bestValue = best.elim .none RankingEntry.value
  task : tally.bestTaskId = best.bind RankingEntry.taskId
  plain : tally.bestValue.plain = true

theorem Tally.Holds.level {best : Option RankingEntry} (holds : tally.Holds best) (mode : RankMode) :
    Sorting.level (RankingEntry.key mode) best = tally.bestValue.key mode := by
  rw [holds.value]
  cases best <;> rfl

theorem tallyTask_holds {best : Option RankingEntry} (field : req.rankMetric ∈ metricFields)
    (ran : P.tallyTask req tally row = .ok tally') (holds : tally.Holds best) :
    tally'.Holds ((P.entry req row).toList.foldl (Sorting.keep (RankingEntry.key req.rankMode)) best) := by
  cases ranked : row.ranked with
  | false =>
    obtain ⟨ranking, _⟩ := tallyTask_ranking ran
    rw [tallyTask_unranked ranked] at ran
    cases ran
    have none : (P.entry req row).toList = [] := by simpa using ranking
    rw [none]
    exact ⟨holds.value, holds.task, holds.plain⟩
  | true =>
    obtain ⟨succeeded, stored, held⟩ := ranked_iff.mp ranked
    rw [tallyTask_ranked succeeded held] at ran
    cases loaded : P.reloadResult stored with
    | error error =>
      rw [loaded] at ran
      contradiction
    | ok result =>
      have entry : P.entry req row =
          some (rankingEntry req row (P.getattr result.metrics req.rankMetric).sanitize result.metrics) := by
        simp only [Platform.entry, succeeded, held, loaded]
      have plain : (P.getattr result.metrics req.rankMetric).sanitize.plain = true :=
        entry_plain field entry
      have key : RankingEntry.key req.rankMode (rankingEntry req row
          (P.getattr result.metrics req.rankMetric).sanitize result.metrics) =
          (P.getattr result.metrics req.rankMetric).sanitize.key req.rankMode := rfl
      rw [entry, Option.toList_some, List.foldl_cons, List.foldl_nil, Sorting.keep, holds.level, key]
      rw [loaded] at ran
      simp only [bind, Except.bind, metricBetter_plain plain holds.plain, decide_eq_true_eq] at ran
      split at ran
      · rename_i better
        cases ran
        rw [if_pos better]
        exact ⟨rfl, (if_neg (field_columns field).1).symm, plain⟩
      · rename_i worse
        cases ran
        rw [if_neg worse]
        exact ⟨holds.value, holds.task, holds.plain⟩

theorem tallyTasks_holds (best : Option RankingEntry) (field : req.rankMetric ∈ metricFields)
    (ran : tasks.foldlM (P.tallyTask req) tally = .ok tally') (holds : tally.Holds best) :
    tally'.Holds ((tasks.filterMap (P.entry req)).foldl (Sorting.keep (RankingEntry.key req.rankMode)) best) := by
  induction tasks generalizing tally best with
  | nil =>
    cases ran
    exact holds
  | cons row rest ih =>
    simp only [List.foldlM_cons, bind, Except.bind] at ran
    split at ran
    · contradiction
    · rename_i next stepped
      have later := ih _ ran (tallyTask_holds field stepped holds)
      rw [← List.foldl_append] at later
      cases here : P.entry req row <;> simpa [here] using later

/-- The tasks an aggregate counts. -/
def JobAggregate.counted (agg : JobAggregate) : Nat :=
  agg.numSucceeded + agg.numFailed + agg.numRunning + agg.numQueued

theorem countTask_counted (agg : JobAggregate) (row : TaskRow) (status : row.status ≠ .lost) :
    (agg.countTask row).numTasks = agg.numTasks ∧ (agg.countTask row).counted +
      (if row.status = .cancelled then 1 else 0) = agg.counted + 1 := by
  unfold JobAggregate.countTask JobAggregate.counted
  cases here : row.status with
  | lost => exact absurd here status
  | cancelled => simp
  | queued | leased | running | succeeded | failed =>
    simp only [reduceCtorEq, ↓reduceIte, true_and]
    omega

theorem countTasks_counted (agg : JobAggregate) (known : ∀ row ∈ tasks, row.status ≠ .lost) :
    (tasks.foldl JobAggregate.countTask agg).numTasks = agg.numTasks ∧
      (tasks.foldl JobAggregate.countTask agg).counted +
        tasks.countP (fun row => row.status = .cancelled) = agg.counted + tasks.length := by
  induction tasks generalizing agg with
  | nil => exact ⟨rfl, rfl⟩
  | cons row rest ih =>
    obtain ⟨total, count⟩ := countTask_counted agg row (known row List.mem_cons_self)
    obtain ⟨totals, counts⟩ := ih (agg.countTask row) fun other member =>
      known other (List.mem_cons_of_mem _ member)
    refine ⟨totals.trans total, ?_⟩
    rw [List.foldl_cons, List.countP_cons, List.length_cons]
    simp only [decide_eq_true_eq]
    omega

/-- The aggregate of a list of tasks, ranked by a metric of their results. -/
structure RankedRight (P : Platform) (req : JobRequest) (tasks : List TaskRow) (agg : JobAggregate) :
    Prop where
  entries : agg.ranking.Perm (tasks.filterMap (P.entry req))
  listed : (agg.ranking.map RankingEntry.taskId).Perm
    ((tasks.filter TaskRow.ranked).map fun row => some row.id)
  ordered : agg.ranking.Pairwise fun a b => a.key req.rankMode ≤ b.key req.rankMode
  ties : ∀ key, (agg.ranking.filter fun entry => entry.key req.rankMode = key) =
    (tasks.filterMap (P.entry req)).filter fun entry => entry.key req.rankMode = key
  best : (∃ entry ∈ agg.ranking, entry.key req.rankMode ≠ ⊤) → ∃ first rest,
    agg.ranking = first :: rest ∧ agg.bestTaskId = first.taskId ∧ agg.bestMetric = first.value ∧
      first.key req.rankMode ≠ ⊤ ∧
      ∀ row ∈ tasks, ∀ entry, P.entry req row = some entry →
        ¬entry.key req.rankMode < first.key req.rankMode
  valueless : (∀ entry ∈ agg.ranking, entry.key req.rankMode = ⊤) →
    agg.bestTaskId = none ∧ agg.bestMetric = .none
  counts : (∀ row ∈ tasks, row.status ≠ .lost) → agg.counted +
    tasks.countP (fun row => row.status = .cancelled) = agg.numTasks ∧ agg.numTasks = tasks.length

theorem entries_tasks (named : req.rankMetric ≠ "task_id") (reads : ∀ row ∈ tasks, P.Reads row) :
    (tasks.filterMap (P.entry req)).map RankingEntry.taskId =
      (tasks.filter TaskRow.ranked).map fun row => some row.id := by
  induction tasks with
  | nil => rfl
  | cons row rest ih =>
    have later := ih fun other member => reads other (List.mem_cons_of_mem _ member)
    cases ranked : row.ranked with
    | false =>
      have none : P.entry req row = none := by
        cases found : P.entry req row with
        | none => rfl
        | some entry =>
          obtain ⟨succeeded, stored, _, held, _⟩ := entry_some found
          exact nomatch ranked.symm.trans (ranked_iff.mpr ⟨succeeded, stored, held⟩)
      rw [List.filterMap_cons_none none, List.filter_cons_of_neg (by simp [ranked])]
      exact later
    | true =>
      obtain ⟨succeeded, stored, held⟩ := ranked_iff.mp ranked
      obtain ⟨result, loaded⟩ := reads row List.mem_cons_self stored succeeded held
      have some : P.entry req row = some (rankingEntry req row
          (P.getattr result.metrics req.rankMetric).sanitize result.metrics) := by
        simp only [Platform.entry, succeeded, held, loaded]
      rw [List.filterMap_cons_some some, List.filter_cons_of_pos ranked, List.map_cons, List.map_cons, later]
      exact congrArg (· :: _) (if_neg named)

/-- The loop and the sort choose the same best result. -/
theorem tally_ranked (field : req.rankMetric ∈ metricFields) (ran : P.tally req tasks = .ok agg) :
    RankedRight P req tasks agg := by
  obtain ⟨tally, folded, ranking, sorted, rfl⟩ := tally_ok_iff.mp ran
  obtain ⟨entries, counts, reads⟩ := tallyTasks_ranking folded
  rw [List.nil_append] at entries
  rw [entries] at sorted
  have inOrder := ranking_sorted field sorted
  have holds := tallyTasks_holds none field folded ⟨rfl, rfl, rfl⟩
  rw [Sorting.scan_eq, ← inOrder, Sorting.least] at holds
  have perm : ranking.Perm (tasks.filterMap (P.entry req)) := inOrder ▸ Sorting.sorted_perm _ _
  have ordered : ranking.Pairwise fun a b => a.key req.rankMode ≤ b.key req.rankMode :=
    inOrder ▸ Sorting.sorted_pairwise _ _
  constructor
  · exact perm
  · exact (perm.map _).trans (entries_tasks (field_columns field).1 reads ▸ .refl _)
  · exact ordered
  · intro key
    rw [inOrder]
    exact Sorting.sorted_stable _ _ key
  · rintro ⟨entry, member, finite⟩
    dsimp only at member ⊢
    cases listed : ranking with
    | nil =>
      rw [listed] at member
      cases member
    | cons first rest =>
      rw [listed] at holds ordered member perm
      have leastKey : ∀ other ∈ first :: rest, first.key req.rankMode ≤ other.key req.rankMode := by
        intro other here
        rcases List.mem_cons.mp here with rfl | later
        · exact le_rfl
        · exact (List.pairwise_cons.mp ordered).1 other later
      have below : first.key req.rankMode < ⊤ :=
        lt_of_le_of_lt (leastKey entry member) (lt_top_iff_ne_top.mpr finite)
      have chosen := holds
      rw [if_pos (show Sorting.level (RankingEntry.key req.rankMode) (first :: rest).head? <
        Sorting.level (RankingEntry.key req.rankMode) none from below)] at chosen
      refine ⟨first, rest, rfl, chosen.task, chosen.value, below.ne, fun row inside other found => ?_⟩
      exact not_lt.mpr (leastKey other (perm.mem_iff.mpr (List.mem_filterMap.mpr ⟨row, inside, found⟩)))
  · intro valueless
    dsimp only at valueless ⊢
    have idle : ¬Sorting.level (RankingEntry.key req.rankMode) ranking.head? <
        Sorting.level (RankingEntry.key req.rankMode) none := by
      cases listed : ranking with
      | nil => exact lt_irrefl _
      | cons first rest =>
        have top := valueless first (by rw [listed]; exact List.mem_cons_self)
        exact not_lt.mpr (le_of_eq top.symm)
    rw [if_neg idle] at holds
    exact ⟨holds.task, holds.value⟩
  · intro known
    obtain ⟨total, counted⟩ := countTasks_counted { numTasks := tasks.length } known
    rw [← counts] at total counted
    refine ⟨?_, total⟩
    change tally.agg.counted + _ = tally.agg.numTasks
    rw [counted, total]
    exact Nat.zero_add _

/-- Under a metric of the results every list of tasks is tallied. -/
theorem tally_field (field : req.rankMetric ∈ metricFields) (reads : ∀ row ∈ tasks, P.Reads row) :
    ∃ agg, P.tally req tasks = .ok agg := by
  obtain ⟨tally, folded⟩ := (tallyStart_ok_iff P req tasks).mpr
    ⟨reads, fun attr kind => nomatch (attrOf_field field).symm.trans kind⟩
  have entries := (tallyTasks_ranking folded).1
  rw [List.nil_append] at entries
  have sorted := sortRanking_ok_iff.mpr ⟨entries ▸ entries_sortable field, rfl⟩
  exact ⟨_, tally_ok_iff.mpr ⟨tally, folded, _, sorted, rfl⟩⟩

/-! ## The aggregate of a stored job -/

/-- An aggregate with the artifact of its best task is ranked like it. -/
theorem RankedRight.linked (right : RankedRight P req tasks agg) (artifact : Option ArtifactId) :
    RankedRight P req tasks { agg with bestModelArtifactId := artifact } :=
  ⟨right.entries, right.listed, right.ordered, right.ties, right.best, right.valueless, right.counts⟩

/-- What `_build_aggregate` comes to on a store that nobody changes: the tally of the job's
tasks under its request, or an exception. -/
theorem buildAggregate_runs {site : Site} {jobId : JobId} {s t : Session Db} {job : JobRow}
    {out : Except Fault (JobAggregate × Option TaskId × Option ArtifactId)}
    (found : s.live.jobs.get jobId = some job)
    (run : (buildAggregate P site jobId).Runs (machine P) s out t) :
    match P.reloadRequest job.request >>= fun req => P.tally req (s.live.tasksOf jobId) with
    | .ok agg => ∃ linked artifact, out =
        .ok ({ agg with bestModelArtifactId := linked }, agg.bestTaskId, artifact)
    | .error error => out = .error ⟨site, error⟩ := by
  unfold buildAggregate at run
  obtain ⟨io, _, answer, u, ran, run⟩ := perform_runs run
  cases ran
  simp only [found] at run
  cases loaded : P.reloadRequest job.request with
  | error error =>
    rw [loaded] at run
    cases run
    rfl
  | ok req =>
    simp only [loaded, liftAt, Program.ret_bind] at run
    obtain ⟨io, _, answer, u, ran, run⟩ := perform_runs run
    cases ran
    dsimp only at run
    simp only [bind, Except.bind]
    cases tallied : P.tally req (s.live.tasksOf jobId) with
    | error error =>
      rw [tallied] at run
      cases run
      rfl
    | ok agg =>
      rw [tallied] at run
      simp only [Program.ret_bind] at run
      split at run
      · rename_i none
        cases run
        exact ⟨_, _, congrArg (fun best => Except.ok (agg, best, Option.none)) none.symm⟩
      · rename_i taskId some
        obtain ⟨io, _, answer, u, ran, run⟩ := perform_runs run
        cases ran
        cases run
        exact ⟨_, _, by rw [some]⟩

/-- `_build_aggregate` comes to an end. -/
theorem buildAggregate_ends (P : Platform) (site : Site) (jobId : JobId) (s : Session Db) :
    ∃ out t, (buildAggregate P site jobId).Runs (machine P) s out t := by
  apply (buildAggregate_calls site jobId).ends
  intro call s reads
  refine ⟨{ now := 0 }, ?_⟩
  obtain ⟨_, op⟩ := call
  cases op <;> trivial

/-- Under a metric of the results every list of tasks is aggregated, and rightly. -/
theorem results_ranked (P : Platform) (site : Site) (jobId : JobId) (s : Session Db) (job : JobRow)
    (req : JobRequest) (found : s.live.jobs.get jobId = some job)
    (loaded : P.reloadRequest job.request = .ok req) (field : req.rankMetric ∈ metricFields)
    (out : Except Fault (JobAggregate × Option TaskId × Option ArtifactId)) (t : Session Db)
    (run : (buildAggregate P site jobId).Runs (machine P) s out t) :
    ((∀ row ∈ s.live.tasksOf jobId, P.Reads row) → ∃ value, out = .ok value) ∧
      ∀ agg taskId artifact, out = .ok (agg, taskId, artifact) →
        RankedRight P req (s.live.tasksOf jobId) agg ∧ taskId = agg.bestTaskId := by
  have comes := buildAggregate_runs found run
  simp only [loaded, bind, Except.bind] at comes
  refine ⟨fun reads => ?_, ?_⟩
  · obtain ⟨agg, tallied⟩ := tally_field field reads
    rw [tallied] at comes
    obtain ⟨linked, artifact, rfl⟩ := comes
    exact ⟨_, rfl⟩
  · rintro agg taskId artifact rfl
    cases tallied : P.tally req (s.live.tasksOf jobId) with
    | error error =>
      rw [tallied] at comes
      cases comes
    | ok whole =>
      rw [tallied] at comes
      obtain ⟨linked, artifact, same⟩ := comes
      cases same
      exact ⟨(tally_ranked field tallied).linked linked, rfl⟩

theorem reads_plain (row : TaskRow) : Platform.plain.Reads row := fun stored _ _ => ⟨stored, rfl⟩

def sharedDataset (path : String) : DatasetRef := { kind := .sharedPath, path := some path }

def tiedJob : JobRequest :=
  { pipeline := some { kind := .path, path := some "p.yaml" },
    datasets := some [sharedDataset "d", sharedDataset "e"] }

/-- A task that has reported a metric of 1. -/
def finishedTask (req : JobRequest) (suffix path : String) : TaskRow :=
  { taskRowOf { now := 0 } req "job_0" (genId "task" suffix)
      ({ kind := .path, path := some "p.yaml" }, sharedDataset path) with
    status := .succeeded, result := some { metrics := { bestRmse := some (.fin 1) } } }

/-- A job whose two tasks have reported the same metric. -/
def finishedStore (req : JobRequest) : Session Db :=
  .settled { jobs := ⟨[jobRowOf { now := 0 } req "job_0" none], List.nodup_singleton _⟩,
             tasks := ⟨[finishedTask req "0" "d", finishedTask req "1" "e"], by
               change ["task_0", "task_1"].Nodup
               decide⟩ }

theorem results_ranked_tie : ∃ agg taskId artifact t,
    (buildAggregate .plain .view "job_0").Runs (machine .plain) (finishedStore tiedJob)
      (.ok (agg, taskId, artifact)) t ∧
    RankedRight .plain tiedJob ((finishedStore tiedJob).live.tasksOf "job_0") agg := by
  obtain ⟨out, t, run⟩ := buildAggregate_ends .plain .view "job_0" (finishedStore tiedJob)
  obtain ⟨returns, right⟩ := results_ranked .plain .view "job_0" (finishedStore tiedJob) _ tiedJob rfl rfl
    (by decide) out t run
  obtain ⟨⟨agg, taskId, artifact⟩, rfl⟩ := returns fun row _ => reads_plain row
  exact ⟨agg, taskId, artifact, t, run, (right agg taskId artifact rfl).1⟩

end N4Cluster
