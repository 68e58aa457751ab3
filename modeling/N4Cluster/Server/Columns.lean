import N4Cluster.Server.Ranking
import Mathlib.Data.List.Perm.Basic
import N4Cluster.Base.Related

/-! The columns of a ranking. A metric's name is looked up on the metrics object and is
also a key of every entry: it can name an attribute that is no metric, or a column that
the entry already has. -/
namespace N4Cluster
open Relational Transactional Interleave

variable {P : Platform} {req : JobRequest} {tasks : List TaskRow} {row : TaskRow}

/-- The metrics a ranked task is listed with, if its result reads back. -/
def Platform.metricsOf (P : Platform) (row : TaskRow) : Option RunMetrics :=
  match row.status, row.result with
  | .succeeded, some stored =>
    (P.reloadResult stored).toOption.map fun result => result.metrics.sanitize
  | _, _ => none

/-- The entry carries the task's own columns and metrics. -/
structure Describes (P : Platform) (entry : RankingEntry) (row : TaskRow) : Prop where
  taskId : entry.taskId = some row.id
  dataset : entry.dataset = row.datasetLabel
  pipeline : entry.pipeline = row.pipelineLabel
  metrics : P.metricsOf row = some entry.metrics

/-- One entry for each ranked task. -/
def Aligned (P : Platform) (ranking : List RankingEntry) (tasks : List TaskRow) : Prop :=
  ∃ order, order.Perm (tasks.filter TaskRow.ranked) ∧ List.Forall₂ (Describes P) ranking order

/-- The metric's name takes no column that says something of the task. -/
def TaskRow.Keeps (row : TaskRow) (name : String) : Prop :=
  name ≠ "task_id" ∧ (name = "dataset" → row.datasetLabel = none) ∧
    (name = "pipeline" → row.pipelineLabel = none)

/-- When tasks can be ranked, and the entries keep their columns: every result reads back,
the metric names nothing that cannot be compared or negated where it has to be, and no
column that says something. -/
structure Rankable (P : Platform) (req : JobRequest) (tasks : List TaskRow) : Prop where
  reads : ∀ row ∈ tasks, P.Reads row
  compares : ∀ attr, P.attrOf req.rankMetric = some attr →
    attr.less.isSome = true ∨ tasks.countP TaskRow.ranked ≤ 1
  negates : req.rankMode = .max → (∃ row ∈ tasks, row.ranked = true) → req.rankMetric ≠ "metrics" ∧
    ∀ attr, P.attrOf req.rankMetric = some attr → attr.negates = true
  tables : req.rankMetric = "metrics" → ∀ a ∈ tasks, ∀ b ∈ tasks, ∀ m n,
    P.metricsOf a = some m → P.metricsOf b = some n → m = n
  columns : ∀ row ∈ tasks, row.ranked = true → row.Keeps req.rankMetric

/-! ## Entries -/

/-- A ranked task whose result reads back has an entry. -/
theorem entry_ranked (req : JobRequest) (ranked : row.ranked = true) (reads : P.Reads row) :
    ∃ result : TaskResult, P.metricsOf row = some result.metrics.sanitize ∧ P.entry req row = some (rankingEntry req row
      (P.getattr result.metrics req.rankMetric).sanitize result.metrics) := by
  obtain ⟨succeeded, stored, held⟩ := ranked_iff.mp ranked
  obtain ⟨result, loaded⟩ := reads stored succeeded held
  refine ⟨result, ?_, ?_⟩
  · simp only [Platform.metricsOf, succeeded, held, loaded]
    rfl
  · simp only [Platform.entry, succeeded, held, loaded]

/-- What the entry of a task says of it. -/
theorem entry_carries {entry : RankingEntry} (found : P.entry req row = some entry) :
    row.ranked = true ∧ P.metricsOf row = some entry.metrics ∧
      P.Finds req.rankMetric entry.value ∧
      entry.taskId = (if req.rankMetric = "task_id" then none else some row.id) ∧
      entry.dataset = (if req.rankMetric = "dataset" then none else row.datasetLabel) ∧
      entry.pipeline = if req.rankMetric = "pipeline" then none else row.pipelineLabel := by
  obtain ⟨succeeded, stored, result, held, loaded, rfl⟩ := entry_some found
  refine ⟨ranked_iff.mpr ⟨succeeded, stored, held⟩, ?_, getattr_finds P _ _, rfl, rfl, rfl⟩
  simp only [Platform.metricsOf, succeeded, held, loaded]
  rfl

/-- The entry of a task that is listed with metrics. -/
theorem entry_listed (req : JobRequest) {metrics : RunMetrics} (reads : P.Reads row) (listed : P.metricsOf row = some metrics) :
    row.ranked = true ∧ ∃ entry, P.entry req row = some entry ∧ entry.metrics = metrics := by
  have ranked : row.ranked = true := by
    unfold Platform.metricsOf at listed
    split at listed
    · rename_i stored succeeded held
      exact ranked_iff.mpr ⟨succeeded, stored, held⟩
    · contradiction
  obtain ⟨result, same, found⟩ := entry_ranked req ranked reads
  exact ⟨ranked, _, found, Option.some.inj (same.symm.trans listed)⟩

theorem entry_unranked (unranked : row.ranked = false) : P.entry req row = none := by
  cases found : P.entry req row with
  | none => rfl
  | some entry => exact nomatch unranked.symm.trans (entry_carries found).1

theorem describes_iff {entry : RankingEntry} (found : P.entry req row = some entry) :
    Describes P entry row ↔ row.Keeps req.rankMetric := by
  obtain ⟨_, metrics, _, taskId, dataset, pipeline⟩ := entry_carries found
  constructor
  · rintro ⟨own, label, name, _⟩
    refine ⟨fun same => ?_, fun same => ?_, fun same => ?_⟩
    · rw [if_pos same] at taskId
      cases taskId.symm.trans own
    · rw [if_pos same] at dataset
      exact label.symm.trans dataset
    · rw [if_pos same] at pipeline
      exact name.symm.trans pipeline
  · rintro ⟨named, label, name⟩
    refine ⟨by rw [taskId, if_neg named], ?_, ?_, metrics⟩
    · rw [dataset]
      split
      · rename_i same
        exact (label same).symm
      · rfl
    · rw [pipeline]
      split
      · rename_i same
        exact (name same).symm
      · rfl

/-- Where every ranked task keeps its columns, the entries describe the ranked tasks in order. -/
theorem entries_describe (reads : ∀ row ∈ tasks, P.Reads row)
    (columns : ∀ row ∈ tasks, row.ranked = true → row.Keeps req.rankMetric) :
    List.Forall₂ (Describes P) (tasks.filterMap (P.entry req)) (tasks.filter TaskRow.ranked) := by
  induction tasks with
  | nil => exact .nil
  | cons row rest ih =>
    have later := ih (fun other member => reads other (List.mem_cons_of_mem _ member))
      fun other member => columns other (List.mem_cons_of_mem _ member)
    cases ranked : row.ranked with
    | false =>
      rw [List.filterMap_cons_none (entry_unranked ranked), List.filter_cons_of_neg (by simp [ranked])]
      exact later
    | true =>
      obtain ⟨result, _, found⟩ := entry_ranked req ranked (reads row List.mem_cons_self)
      rw [List.filterMap_cons_some found, List.filter_cons_of_pos ranked]
      exact .cons ((describes_iff found).mpr (columns row List.mem_cons_self ranked)) later

/-- A ranking of the entries is aligned only if no ranked task loses a column. -/
theorem aligned_columns {ranking : List RankingEntry}
    (perm : ranking.Perm (tasks.filterMap (P.entry req))) (aligned : Aligned P ranking tasks) :
    ∀ row ∈ tasks, row.ranked = true → row.Keeps req.rankMetric := by
  obtain ⟨order, same, described⟩ := aligned
  intro row member ranked
  have listed : row ∈ order := same.mem_iff.mpr (List.mem_filter.mpr ⟨member, ranked⟩)
  obtain ⟨entry, inside, carries⟩ := Related.forall₂_right described listed
  obtain ⟨other, _, found⟩ := List.mem_filterMap.mp (perm.mem_iff.mp inside)
  obtain ⟨_, _, _, taskId, dataset, pipeline⟩ := entry_carries found
  refine ⟨fun named => ?_, fun named => ?_, fun named => ?_⟩
  · rw [if_pos named] at taskId
    cases taskId.symm.trans carries.taskId
  · rw [if_pos named] at dataset
    exact carries.dataset.symm.trans dataset
  · rw [if_pos named] at pipeline
    exact carries.pipeline.symm.trans pipeline

/-! ## Refusals of the sort -/

/-- Under `max` every value is negated. -/
theorem rankKey_ok_iff {entry : RankingEntry} (found : P.Finds req.rankMetric entry.value) :
    P.rankKey req.rankMode (entry.rankValue req) = .ok () ↔ (req.rankMode = .max →
      req.rankMetric ≠ "metrics" ∧ ∀ attr, P.attrOf req.rankMetric = some attr → attr.negates = true) := by
  unfold RankingEntry.rankValue
  cases mode : req.rankMode with
  | min => exact ⟨fun _ => by rintro ⟨⟩, fun _ => rfl⟩
  | max =>
    split
    · rename_i named
      exact ⟨by rintro ⟨⟩, fun able => absurd named (able rfl).1⟩
    · rename_i named
      rw [Platform.Finds] at found
      cases kind : P.attrOf req.rankMetric with
      | none =>
        rw [kind] at found
        obtain none | ⟨q, number⟩ := MetricValue.plain_cases found
        · rw [none]
          exact ⟨fun _ _ => ⟨named, by rintro _ ⟨⟩⟩, fun _ => rfl⟩
        · rw [number]
          exact ⟨fun _ _ => ⟨named, by rintro _ ⟨⟩⟩, fun _ => rfl⟩
      | some attr =>
        rw [kind] at found
        obtain ⟨metrics, value⟩ := found
        rw [value, Platform.rankKey, attrOf_some kind]
        cases able : attr.negates with
        | true => simp [able, named]
        | false => simp [able]

/-- Entries of different tasks compare if their tables are the same, under `metrics`, and
otherwise if their values can. -/
theorem comparable_iff {a b : RankingEntry} (found : P.Finds req.rankMetric a.value)
    (found' : P.Finds req.rankMetric b.value) (apart : a.taskId ≠ b.taskId) :
    P.Comparable req a b ↔ (req.rankMetric = "metrics" → a.metrics = b.metrics) ∧
      (req.rankMetric ≠ "metrics" → ∀ attr, P.attrOf req.rankMetric = some attr →
        attr.less.isSome = true) := by
  unfold Platform.Comparable RankingEntry.rankValue
  by_cases named : req.rankMetric = "metrics"
  · rw [if_pos named, if_pos named, Platform.rankLt]
    by_cases same : a.metrics = b.metrics
    · simp [named, same, Except.isOk, Except.toBool]
    · simp [named, same, apart, Except.isOk, Except.toBool]
  · rw [if_neg named, if_neg named]
    rw [Platform.Finds] at found found'
    cases kind : P.attrOf req.rankMetric with
    | none =>
      rw [kind] at found found'
      rw [rankLt_plain found found']
      exact ⟨fun _ => ⟨fun same => absurd same named, fun _ => by rintro _ ⟨⟩⟩, fun _ => .inr rfl⟩
    | some attr =>
      rw [kind] at found found'
      obtain ⟨metrics, value⟩ := found
      obtain ⟨metrics', value'⟩ := found'
      rw [value, value']
      cases less : attr.less <;> cases req.rankMode <;>
        simp [Platform.rankLt, Platform.metricLt, attrOf_some kind, less, named, apart, Except.isOk,
          Except.toBool]

/-- Sorting the entries succeeds exactly if the tasks can be ranked. -/
theorem sortable_iff (reads : ∀ row ∈ tasks, P.Reads row) (distinct : (tasks.map TaskRow.id).Nodup)
    (named : ∀ row ∈ tasks, row.ranked = true → req.rankMetric ≠ "task_id")
    (compares : ∀ attr, P.attrOf req.rankMetric = some attr →
      attr.less.isSome = true ∨ tasks.countP TaskRow.ranked ≤ 1) :
    P.Sortable req (tasks.filterMap (P.entry req)) ↔
      (req.rankMode = .max → (∃ row ∈ tasks, row.ranked = true) → req.rankMetric ≠ "metrics" ∧
        ∀ attr, P.attrOf req.rankMetric = some attr → attr.negates = true) ∧
      (req.rankMetric = "metrics" → ∀ a ∈ tasks, ∀ b ∈ tasks, ∀ m n,
        P.metricsOf a = some m → P.metricsOf b = some n → m = n) := by
  constructor
  · intro sortable
    constructor
    · rintro mode ⟨row, member, ranked⟩
      obtain ⟨result, _, found⟩ := entry_ranked req ranked (reads row member)
      have listed := List.mem_filterMap.mpr ⟨row, member, found⟩
      exact (rankKey_ok_iff (entry_carries found).2.2.1).mp (sortable.keys _ listed) mode
    · intro metrics a here b there m n first second
      obtain ⟨ranked, found⟩ := entry_listed req (reads a here) first
      obtain ⟨ranked', found'⟩ := entry_listed req (reads b there) second
      by_cases same : a.id = b.id
      · cases List.inj_on_of_nodup_map distinct here there same
        exact Option.some.inj (first.symm.trans second)
      · obtain ⟨entry, found, carried⟩ := found
        obtain ⟨entry', found', carried'⟩ := found'
        obtain ⟨_, _, finds, taskId, _⟩ := entry_carries found
        obtain ⟨_, _, finds', taskId', _⟩ := entry_carries found'
        have apart : entry.taskId ≠ entry'.taskId := by
          rw [taskId, taskId', if_neg (named a here ranked), if_neg (named a here ranked)]
          exact fun equal => same (Option.some.inj equal)
        have compared := (comparable_iff finds finds' apart).mp (sortable.compares _
          (List.mem_filterMap.mpr ⟨a, here, found⟩) _ (List.mem_filterMap.mpr ⟨b, there, found'⟩))
        rw [← carried, ← carried']
        exact compared.1 metrics
  · rintro ⟨negates, tables⟩
    constructor
    · intro entry listed
      obtain ⟨row, member, found⟩ := List.mem_filterMap.mp listed
      obtain ⟨ranked, _, finds, _⟩ := entry_carries found
      exact (rankKey_ok_iff finds).mpr fun mode => negates mode ⟨row, member, ranked⟩
    · intro a here b there
      obtain ⟨row, member, found⟩ := List.mem_filterMap.mp here
      obtain ⟨row', member', found'⟩ := List.mem_filterMap.mp there
      by_cases same : a.taskId = b.taskId
      · exact .inl same
      obtain ⟨ranked, metrics, finds, _⟩ := entry_carries found
      obtain ⟨ranked', metrics', finds', _⟩ := entry_carries found'
      refine (comparable_iff finds finds' same).mpr ⟨fun table => tables table row member row' member' _ _
        metrics metrics', fun _ attr kind => ?_⟩
      apply (compares attr kind).resolve_right
      intro few
      rw [List.countP_eq_length_filter] at few
      have one := List.mem_filter.mpr ⟨member, ranked⟩
      have two := List.mem_filter.mpr ⟨member', ranked'⟩
      obtain ⟨only, alone⟩ := List.length_eq_one_iff.mp (le_antisymm few (List.length_pos_of_mem one))
      rw [alone, List.mem_singleton] at one two
      subst one two
      cases found.symm.trans found'
      exact same rfl

/-! ## The listing of a job -/

/-- The tally goes through and its ranking is aligned exactly if the tasks can be ranked. -/
theorem tally_aligned_iff (distinct : (tasks.map TaskRow.id).Nodup) :
    (∃ agg, P.tally req tasks = .ok agg ∧ Aligned P agg.ranking tasks) ↔ Rankable P req tasks := by
  have folds := tallyStart_ok_iff P req tasks
  constructor
  · rintro ⟨agg, ran, aligned⟩
    obtain ⟨tally, folded, ranking, sorted, rfl⟩ := tally_ok_iff.mp ran
    obtain ⟨reads, compares⟩ := folds.mp ⟨tally, folded⟩
    have entries := (tallyTasks_ranking folded).1
    rw [List.nil_append] at entries
    rw [entries] at sorted
    have sortable := (sortRanking_ok_iff.mp sorted).1
    have columns := aligned_columns (sortRanking_perm sorted) aligned
    obtain ⟨negates, tables⟩ := (sortable_iff reads distinct
      (fun row member ranked => (columns row member ranked).1) compares).mp sortable
    exact ⟨reads, compares, negates, tables, columns⟩
  · rintro ⟨reads, compares, negates, tables, columns⟩
    obtain ⟨tally, folded⟩ := folds.mpr ⟨reads, compares⟩
    have entries := (tallyTasks_ranking folded).1
    rw [List.nil_append] at entries
    have sortable := (sortable_iff reads distinct
      (fun row member ranked => (columns row member ranked).1) compares).mpr ⟨negates, tables⟩
    obtain ⟨ranking, sorted⟩ : ∃ ranking, P.sortRanking req tally.ranking = .ok ranking :=
      ⟨_, sortRanking_ok_iff.mpr ⟨entries ▸ sortable, rfl⟩⟩
    obtain ⟨order, described, perm⟩ := List.perm_comp_forall₂
      (entries ▸ sortRanking_perm sorted) (entries_describe reads columns)
    exact ⟨_, tally_ok_iff.mpr ⟨tally, folded, ranking, sorted, rfl⟩, order, perm, described⟩

/-- `_build_aggregate` returns, with one entry for each succeeded task that has a result,
under the task's own columns. -/
def Listed (P : Platform) (site : Site) (jobId : JobId) (s : Session Db) : Prop :=
  (∃ out t, (buildAggregate P site jobId).Runs (machine P) s out t) ∧
    ∀ out t, (buildAggregate P site jobId).Runs (machine P) s out t → ∃ agg taskId artifact,
      out = .ok (agg, taskId, artifact) ∧ Aligned P agg.ranking (s.live.tasksOf jobId)

theorem tasksOf_distinct (db : Db) (jobId : JobId) : ((db.tasksOf jobId).map TaskRow.id).Nodup := by
  have perm := (List.perm_insertionSort (fun a b : TaskRow => a.createdAt ≤ b.createdAt)
    (db.tasks.rows.filter fun r => r.jobId = jobId)).map TaskRow.id
  exact perm.nodup_iff.mpr (db.tasks.unique.sublist (List.filter_sublist.map _))

theorem Listed.rankable {site : Site} {jobId : JobId} {s : Session Db} {job : JobRow}
    (found : s.live.jobs.get jobId = some job) (listed : Listed P site jobId s) :
    ∃ req, P.reloadRequest job.request = .ok req ∧ Rankable P req (s.live.tasksOf jobId) := by
  obtain ⟨⟨out, t, run⟩, all⟩ := listed
  obtain ⟨agg, taskId, artifact, same, aligned⟩ := all out t run
  subst same
  have comes := buildAggregate_runs found run
  cases loaded : P.reloadRequest job.request with
  | error error =>
    rw [loaded] at comes
    cases comes
  | ok req =>
    simp only [loaded, bind, Except.bind] at comes
    refine ⟨req, rfl, (tally_aligned_iff (tasksOf_distinct _ _)).mp ?_⟩
    cases tallied : P.tally req (s.live.tasksOf jobId) with
    | error error =>
      rw [tallied] at comes
      cases comes
    | ok whole =>
      rw [tallied] at comes
      obtain ⟨linked, artifact, same⟩ := comes
      cases same
      exact ⟨whole, rfl, aligned⟩

/-- The listing of a job is right exactly if its request reads back and its tasks can be ranked. -/
theorem listed_iff (P : Platform) (site : Site) (jobId : JobId) (s : Session Db) (job : JobRow)
    (found : s.live.jobs.get jobId = some job) : Listed P site jobId s ↔
      ∃ req, P.reloadRequest job.request = .ok req ∧ Rankable P req (s.live.tasksOf jobId) := by
  refine ⟨fun listed => listed.rankable found, ?_⟩
  rintro ⟨req, loaded, rankable⟩
  refine ⟨buildAggregate_ends P site jobId s, fun out t run => ?_⟩
  obtain ⟨agg, tallied, aligned⟩ := (tally_aligned_iff (tasksOf_distinct _ _)).mpr rankable
  have comes := buildAggregate_runs found run
  simp only [loaded, bind, Except.bind, tallied] at comes
  obtain ⟨linked, artifact, rfl⟩ := comes
  exact ⟨_, _, _, rfl, aligned⟩

theorem listed_iff_tie : Listed .plain .view "job_0" (finishedStore tiedJob) := by
  refine (listed_iff .plain .view "job_0" _ _ rfl).mpr ⟨tiedJob, rfl, ?_⟩
  constructor
  · exact fun row _ => reads_plain row
  · exact fun attr kind => nomatch kind
  · exact fun mode => nomatch mode
  · exact fun named => absurd named (by decide)
  · exact fun row _ _ => ⟨by decide, fun named => absurd named (by decide), fun named => absurd named (by decide)⟩

/-- A metric called like a column takes it; one called like a method stops the listing. -/
theorem columns_taken :
    ¬Listed .plain .view "job_0" (finishedStore { tiedJob with rankMetric := "task_id" }) ∧
      ¬Listed .plain .view "job_0" (finishedStore { tiedJob with rankMetric := "model_dump" }) := by
  constructor
  · intro listed
    obtain ⟨req, loaded, rankable⟩ := listed.rankable rfl
    cases loaded
    exact (rankable.columns (finishedTask _ "0" "d") List.mem_cons_self rfl).1 rfl
  · intro listed
    obtain ⟨req, loaded, rankable⟩ := listed.rankable rfl
    cases loaded
    have able := rankable.compares _ rfl
    revert able
    decide

end N4Cluster
