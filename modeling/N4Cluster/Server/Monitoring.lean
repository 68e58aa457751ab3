import N4Cluster.Base.Cursor
import N4Cluster.Base.Observation
import N4Cluster.Server.Service
import N4Cluster.Server.Settlement
import N4Cluster.Server.Sides
import N4Cluster.Server.Slots
import N4Cluster.Server.Streams
import Mathlib.Algebra.BigOperators.Group.List.Lemmas
import Mathlib.Algebra.Order.BigOperators.Group.List
import Mathlib.Algebra.Order.Group.Nat
import Mathlib.Algebra.Ring.Nat

/-! What is watched of a running cluster. The counters of `/v1/stats` add up to the rows they
count and the tasks in flight to the slots in use; and a client that asks for the events of a
job after the last one it was given is given its log, each event once. -/
namespace N4Cluster
open Relational Transactional Relation Interleave

variable {P : Platform} {config : ServerConfig} {p q r : ServerPool} {jobId : JobId}

/-! ## Queries -/

/-- `GROUP BY` of a column, with the size of each group. -/
def groupCounts (values : List String) : List (String × Nat) :=
  (values.dedup.insertionSort (· ≤ ·)).map fun value => (value, values.count value)

def WorkerStatus.value : WorkerStatus → String
  | .alive => "alive"
  | .dead => "dead"

def Db.countJobsByStatus (db : Db) : List (String × Nat) := groupCounts (db.jobs.rows.map fun r => r.status.value)

def Db.countWorkersByStatus (db : Db) : List (String × Nat) := groupCounts (db.workers.rows.map fun r => r.status.value)

def Db.countTasksInFlight (db : Db) : Nat := db.tasks.count fun r => r.status = .leased || r.status = .running

/-- What the routes below ask the database for. -/
inductive Query where
  | countWorkersByStatus
  | countJobsByStatus
  | countTasksInFlight
  | listEvents (jobId : JobId) (afterId limit : Nat)

def Query.Answer : Query → Type
  | .countWorkersByStatus | .countJobsByStatus => List (String × Nat)
  | .countTasksInFlight => Nat
  | .listEvents _ _ _ => List EventRow

def Query.answer (_ : Io) : (query : Query) → Session Db → query.Answer
  | .countWorkersByStatus, s => s.live.countWorkersByStatus
  | .countJobsByStatus, s => s.live.countJobsByStatus
  | .countTasksInFlight, s => s.live.countTasksInFlight
  | .listEvents jobId afterId limit, s => s.live.eventsOf jobId afterId limit

abbrev Asking := Program Query Query.Answer Fault

def ask (query : Query) : Asking query.Answer := .call query .ret

/-- A client that asks beside a run of the server. -/
abbrev Asks (P : Platform) (config : ServerConfig) {α : Type} :
    ServerPool → Asking α → ServerPool → Except Fault α → Prop :=
  System.Observes (server P config) (server P config).Lawful Query.answer

theorem asked {α : Type} {query : Query} {k : query.Answer → Asking α} {ended : Except Fault α}
    (asks : Asks P config p (ask query >>= k) r ended) :
    ∃ q, System.Reaches (server P config) (server P config).Lawful p q ∧
      Asks P config q (k (query.answer { now := 0 } q.store)) r ended := by
  obtain ⟨q, io, later, rest⟩ := System.Observes.call_cases asks
  exact ⟨q, later, rest⟩

/-! ## Statistics -/

structure ClusterStats where
  serverVersion : String
  apiVersion : Int
  jobsByStatus : List (String × Nat) := []
  workersAlive : Nat := 0
  workersDead : Nat := 0
  tasksInFlight : Nat := 0

/-- `stats`. -/
def Route.stats : Asking ClusterStats := do
  let workers ← ask .countWorkersByStatus
  let jobs ← ask .countJobsByStatus
  let tasks ← ask .countTasksInFlight
  return {
    serverVersion := clusterVersion, apiVersion := N4Cluster.apiVersion, jobsByStatus := jobs,
    workersAlive := (workers.lookup "alive").getD 0, workersDead := (workers.lookup "dead").getD 0,
    tasksInFlight := tasks }

/-- The groups share the rows out. -/
theorem groupCounts_sum (values : List String) : ((groupCounts values).map Prod.snd).sum = values.length := by
  rw [groupCounts, List.map_map, ← List.sum_map_count_dedup_eq_length values]
  exact ((List.perm_insertionSort _ _).map _).sum_eq

theorem groupCounts_lookup (values : List String) (value : String) :
    ((groupCounts values).lookup value).getD 0 = values.count value := by
  by_cases member : value ∈ values
  · have grouped : value ∈ values.dedup.insertionSort (· ≤ ·) :=
      (List.mem_insertionSort _).mpr (List.mem_dedup.mpr member)
    rw [groupCounts, List.lookup_graph _ grouped]
    rfl
  · have absent : (groupCounts values).lookup value = none := by
      refine List.lookup_eq_none_iff.mpr fun group inside => ?_
      obtain ⟨other, there, rfl⟩ := List.mem_map.mp inside
      have held := List.mem_dedup.mp ((List.mem_insertionSort _).mp there)
      simpa using fun same : value = other => member (same ▸ held)
    rw [absent, List.count_eq_zero.mpr member]
    rfl

/-- Every registered worker is either alive or dead. -/
theorem alive_or_dead (rows : List WorkerRow) :
    (rows.map fun r => r.status.value).count "alive" + (rows.map fun r => r.status.value).count "dead" = rows.length := by
  induction rows with
  | nil => rfl
  | cons r rest ih =>
    have one : (if (r.status.value == "alive") = true then 1 else 0) +
        (if (r.status.value == "dead") = true then 1 else 0) = 1 := by cases r.status <;> rfl
    rw [List.map_cons, List.count_cons, List.count_cons, List.length_cons]
    omega

theorem sum_indicator {κ : Type} (owners : List κ) (here : κ → Bool) :
    (owners.map fun k => if here k = true then 1 else 0).sum = owners.countP here := by
  induction owners with
  | nil => rfl
  | cons k rest ih =>
    rw [List.map_cons, List.sum_cons, List.countP_cons, ih, Nat.add_comm]

/-- What counts for one of several owners counts for exactly one of them. -/
theorem sum_owned {α κ : Type} [DecidableEq κ] {owners : List κ} (distinct : owners.Nodup) (owner : α → Option κ)
    (counts : α → Bool) (rows : List α)
    (owned : ∀ r ∈ rows, counts r = true → ∃ k ∈ owners, owner r = some k) :
    (owners.map fun k => rows.countP fun r => owner r == some k && counts r).sum = rows.countP counts := by
  induction rows with
  | nil => simp
  | cons r rest ih =>
    have later := ih fun other member => owned other (List.mem_cons_of_mem _ member)
    have one : owners.countP (fun k => owner r == some k && counts r) = if counts r = true then 1 else 0 := by
      cases counted : counts r with
      | false => simp
      | true =>
        obtain ⟨k, inside, mine⟩ := owned r List.mem_cons_self counted
        rw [if_pos rfl, ← List.count_eq_one_of_mem distinct inside, List.count]
        refine List.countP_congr fun other _ => ?_
        rw [mine, Bool.and_true, beq_iff_eq, beq_iff_eq, Option.some.injEq]
        exact eq_comm
    simp only [List.countP_cons, List.sum_map_add, later, sum_indicator, one]

theorem run_slots (run : System.Reaches (server P config) (server P config).Lawful started p) :
    Keeping P config .none p ∧ p.store.live.SlotsKept := by
  refine run.invariant (I := fun p => Keeping P config .none p ∧ p.store.live.SlotsKept)
    (fun both lawful stepped => ⟨both.1.step (lawful_allowed lawful) stepped, ?_⟩) ⟨started_keeping, empty_slots⟩
  rcases both.1.cases (lawful_allowed lawful) stepped with ⟨same, _⟩ | ⟨i, io, _, c, _, _, _, _, fair, rfl, _⟩
  · rw [same]
    exact both.2
  · have owned : c.op.owned = true := by
      have routed := fair.routed
      generalize c.op = op at routed
      cases op with
      | failTask t o e b =>
        cases o with
        | none => contradiction
        | some w => rfl
      | _ => rfl
    refine ((exec_moves P io c.op _).rec (motive := fun db _ => db.Sound ∧ db.SlotsKept) ⟨both.1.1.good.sound, both.2⟩
      fun _ move kept => ⟨move.sound kept.1, move.slots owned kept.1 kept.2⟩).2

/-- The slots in use are the tasks in flight, and no more than the slots there are. -/
theorem slots_in_use (run : System.Reaches (server P config) (server P config).Lawful started p) :
    p.store.live.countTasksInFlight = (p.store.live.workers.rows.map WorkerRow.slotsUsed).sum ∧
      (p.store.live.workers.rows.map WorkerRow.slotsUsed).sum ≤ (p.store.live.workers.rows.map WorkerRow.slotsTotal).sum := by
  obtain ⟨keeping, kept⟩ := run_slots run
  have cached : p.store.live.workers.rows.map WorkerRow.slotsUsed =
      (p.store.live.workers.rows.map WorkerRow.id).map p.store.live.inFlightCount := by
    rw [List.map_map]
    exact List.map_congr_left fun row member => kept.cached row.id row (Table.get_of_mem member)
  constructor
  · rw [cached]
    refine Eq.trans ?_ (sum_owned p.store.live.workers.unique TaskRow.workerId (fun r => r.status.inFlight) _
      fun r member inFlight => ?_).symm
    · exact Table.count_congr fun r _ => by cases r.status <;> rfl
    · obtain ⟨w, row, owner, found⟩ := (keeping.1.good.sound r.id r (Table.get_of_mem member)).owner inFlight
      refine ⟨w, ?_, owner⟩
      rw [← show row.id = w from Table.get_key found]
      exact List.mem_map_of_mem (Table.get_eq_some.mp found).1
  · refine List.sum_le_sum fun row member => ?_
    have found := Table.get_of_mem member
    exact (kept.cached row.id row found).le.trans (kept.within row.id row found)

/-- However the server goes on between the three counts of `/v1/stats`: the workers add up to those
registered at the first, the jobs to those stored at the second, and the tasks in flight are the
slots in use at the third, which fit the slots of all workers. -/
theorem stats_add_up (before : System.Reaches (server P config) (server P config).Lawful started p)
    {stats : ClusterStats} (asks : Asks P config p Route.stats q (.ok stats)) :
    ∃ u v, System.Reaches (server P config) (server P config).Lawful p u ∧
      System.Reaches (server P config) (server P config).Lawful u v ∧
      System.Reaches (server P config) (server P config).Lawful v q ∧
      stats.workersAlive + stats.workersDead = u.store.live.workers.rows.length ∧
      (stats.jobsByStatus.map Prod.snd).sum = v.store.live.jobs.rows.length ∧
      stats.tasksInFlight = (q.store.live.workers.rows.map WorkerRow.slotsUsed).sum ∧
      stats.tasksInFlight ≤ (q.store.live.workers.rows.map WorkerRow.slotsTotal).sum := by
  obtain ⟨u, first, asks⟩ := asked asks
  obtain ⟨v, second, asks⟩ := asked asks
  obtain ⟨w, third, asks⟩ := asked asks
  cases asks
  obtain ⟨used, fits⟩ := slots_in_use (((before.trans first).trans second).trans third)
  refine ⟨u, v, first, second, third, ?_, ?_, used, used.trans_le fits⟩
  · have groups (value : String) := groupCounts_lookup (u.store.live.workers.rows.map fun r => r.status.value) value
    exact (congrArg₂ (· + ·) (groups "alive") (groups "dead")).trans (alive_or_dead _)
  · exact (groupCounts_sum _).trans (List.length_map _)

/-- One worker with one task running, as any client may ask. -/
theorem stats_add_up_running : ∃ (p : ServerPool) (stats : ClusterStats),
    System.Reaches (server .plain {}) (server .plain {}).Lawful started p ∧
    Asks .plain {} p Route.stats p (.ok stats) ∧ stats.tasksInFlight = 1 ∧
    1 ≤ (p.store.live.workers.rows.map WorkerRow.slotsTotal).sum := by
  have played : ((server .plain {}).play (server .plain {}).Lawful runningTurns started).any (fun p =>
      decide (p.store.live.countTasksInFlight = 1)) = true := by decide +kernel
  obtain ⟨p, run, busy⟩ := System.play_any played
  have asks : Asks .plain {} p _ p _ := System.Observes.ask p { now := 5 } Route.stats
  obtain ⟨_, _, _, _, _, _, _, _, fits⟩ := stats_add_up run asks
  have one := of_decide_eq_true busy
  exact ⟨p, _, run, asks, one, one ▸ fits⟩

/-! ## The log of a job -/

theorem exec_events (io : Io) (op : DbOp) (s : Session Db) :
    (op.after P io s).live.events = s.live.events ∨
      ∃ row : EventRow, row.id = s.live.events.length + 1 ∧ (op.after P io s).live.events = s.live.events ++ [row] := by
  cases sides : op.sides with
  | false =>
    have same : (op.after P io s).live.side = s.live.side := exec_side sides
    exact .inl (congrArg (fun side => side.2.2) same)
  | true =>
    cases op with
    | addEvent event =>
      rcases addEvent_cases P io s event with ⟨_, ran⟩ | ⟨_, _, ran⟩
      all_goals rw [DbOp.after, DbOp.exec, ran]
      · exact .inr ⟨_, rfl, rfl⟩
      · exact .inl rfl
    | linkJobArtifact | clearJobArtifactRole => exact .inl rfl
    | addArtifact artifact =>
      refine .inl ?_
      simp only [DbOp.after, DbOp.exec, addArtifact, Txn.bind_run, Txn.live_run]
      generalize s.live.artifacts.insert _ = inserted
      cases inserted <;> rfl
    | _ => contradiction

theorem run_numbered (run : System.Reaches (server P config) (server P config).Lawful started p) :
    Numbered p.store.live.events := by
  refine (run.invariant (I := fun p => Keeping P config .none p ∧ Numbered p.store.live.events)
    (fun both lawful stepped => ⟨both.1.step (lawful_allowed lawful) stepped, ?_⟩) ⟨started_keeping, .empty⟩).2
  rcases both.1.cases (lawful_allowed lawful) stepped with ⟨same, _⟩ | ⟨i, io, _, c, _, _, _, _, _, rfl, _⟩
  · rw [same]
    exact both.2
  · rcases exec_events (P := P) io c.op _ with same | ⟨row, id, added⟩
    · exact (congrArg Numbered same).mpr both.2
    · exact (congrArg Numbered added).mpr (both.2.snoc id)

theorem run_logged (before : System.Reaches (server P config) (server P config).Lawful started p)
    (run : System.Reaches (server P config) (server P config).Lawful p q) :
    ∃ more, q.store.live.events = p.store.live.events ++ more := by
  have keeping := (run_slots before).1
  refine run.related (I := Keeping P config .none) (R := fun s t => ∃ more, t.live.events = s.live.events ++ more)
    (fun s => ⟨[], (List.append_nil _).symm⟩) ?_ (fun {p l q} keeping lawful stepped => ?_) keeping
  · rintro a b c ⟨first, grown⟩ ⟨second, later⟩
    exact ⟨first ++ second, by rw [later, grown, List.append_assoc]⟩
  · refine ⟨keeping.step (lawful_allowed lawful) stepped, ?_⟩
    rcases keeping.cases (lawful_allowed lawful) stepped with ⟨same, _⟩ | ⟨i, io, _, c, _, _, _, _, _, rfl, _⟩
    · exact ⟨[], by rw [same, List.append_nil]⟩
    · rcases exec_events (P := P) io c.op p.store with same | ⟨row, _, added⟩
      · exact ⟨[], same.trans (List.append_nil _).symm⟩
      · exact ⟨[row], added⟩

/-- The events of a job. -/
def Db.log (db : Db) (jobId : JobId) : List EventRow := db.events.filter fun r => r.jobId = some jobId

theorem log_increasing {db : Db} (numbered : Numbered db.events) (jobId : JobId) : Cursor.Increasing EventRow.id (db.log jobId) :=
  numbered.increasing.filter _

/-- The page of the database is the page of the log. -/
theorem eventsOf_page {db : Db} (numbered : Numbered db.events) (jobId : JobId) (afterId limit : Nat) :
    db.eventsOf jobId afterId limit = Cursor.page EventRow.id (db.log jobId) afterId limit := by
  have rows : (db.events.filter fun r => r.jobId = some jobId && afterId < r.id) =
      (db.log jobId).filter fun r => afterId < r.id := by
    rw [Db.log, List.filter_filter]
    exact List.filter_congr fun r _ => Bool.and_comm _ _
  have sorted := (log_increasing numbered jobId).filter fun r => decide (afterId < r.id)
  rw [Db.eventsOf, rows, Cursor.page, List.Pairwise.insertionSort_eq (sorted.imp Nat.le_of_lt)]

namespace ClusterClient

/-- `get_events`. -/
def getEvents (jobId : JobId) (afterId limit : Nat) : Asking (List EventView) := do
  return (← ask (.listEvents jobId afterId limit)).map eventView

/-- Asks again and again after the last event given, each time for at most so many. -/
def follow (jobId : JobId) : List Nat → Nat → Asking (List EventView × Nat)
  | [], afterId => return ([], afterId)
  | limit :: limits, afterId => do
    let page ← getEvents jobId afterId limit
    let (later, last) ← follow jobId limits (Cursor.next EventView.id afterId page)
    return (page ++ later, last)

end ClusterClient

theorem next_view (afterId : Nat) (rows : List EventRow) :
    Cursor.next EventView.id afterId (rows.map eventView) = Cursor.next EventRow.id afterId rows := by
  rw [Cursor.next, List.getLast?_map, Option.map_map]
  rfl

/-- The log stays caught while the server goes on. -/
theorem caught_later {seen : List EventRow} {afterId : Nat}
    (before : System.Reaches (server P config) (server P config).Lawful started p)
    (run : System.Reaches (server P config) (server P config).Lawful p q)
    (caught : Cursor.Caught EventRow.id (p.store.live.log jobId) seen afterId) :
    Cursor.Caught EventRow.id (q.store.live.log jobId) seen afterId := by
  have numbered := run_numbered (before.trans run)
  obtain ⟨more, grown⟩ := run_logged before run
  have log : q.store.live.log jobId = p.store.live.log jobId ++ more.filter fun r => r.jobId = some jobId := by
    rw [Db.log, grown, List.filter_append]
    rfl
  have increasing := log_increasing numbered jobId
  rw [log] at increasing ⊢
  refine caught.grows increasing fun r member => (numbered.bounded r ?_).1
  rw [grown]
  exact List.mem_append_right _ (List.mem_filter.mp member).1

theorem follow_caught {limits : List Nat} {afterId last : Nat} {seen : List EventRow} {later : List EventView}
    (before : System.Reaches (server P config) (server P config).Lawful started p)
    (caught : Cursor.Caught EventRow.id (p.store.live.log jobId) seen afterId)
    (asks : Asks P config p (ClusterClient.follow jobId limits afterId) q (.ok (later, last))) :
    ∃ rows, later = rows.map eventView ∧ Cursor.Caught EventRow.id (q.store.live.log jobId) (seen ++ rows) last := by
  induction limits generalizing p afterId seen later with
  | nil =>
    cases asks
    exact ⟨[], rfl, (List.append_nil seen).symm ▸ caught⟩
  | cons limit limits ih =>
    obtain ⟨page, u, paged, rest⟩ | ⟨_, _, failed⟩ := System.Observes.bind_cases asks
    · obtain ⟨v, step, answered⟩ := asked paged
      cases answered
      obtain ⟨⟨others, last'⟩, w, followed, ended⟩ | ⟨_, _, failed⟩ := System.Observes.bind_cases rest
      · cases ended
        have numbered := run_numbered (before.trans step)
        rw [Query.answer, eventsOf_page numbered, next_view] at followed
        have now := (caught_later before step caught).page (log_increasing numbered _) limit
        obtain ⟨rows, rfl, done⟩ := ih (before.trans step) now followed
        refine ⟨_ ++ rows, List.map_append.symm, ?_⟩
        rw [Query.answer, eventsOf_page numbered, ← List.append_assoc]
        exact done
      · cases failed
    · cases failed

/-- However many events are added meanwhile, and however the pages are cut: what a client has been
given is, in every later state, the log of the job up to the last event given, each event once
and in order. -/
theorem log_followed (before : System.Reaches (server P config) (server P config).Lawful started p) {limits : List Nat}
    {seen : List EventView} {last : Nat}
    (asks : Asks P config p (ClusterClient.follow jobId limits 0) q (.ok (seen, last)))
    (later : System.Reaches (server P config) (server P config).Lawful q r) :
    seen = ((r.store.live.log jobId).filter fun row => row.id ≤ last).map eventView ∧
      seen <+: (r.store.live.log jobId).map eventView ∧ seen.Pairwise fun a b => a.id < b.id := by
  have reached := before.trans (System.Observes.reaches asks)
  have numbered := run_numbered before
  have start : Cursor.Caught EventRow.id (p.store.live.log jobId) [] 0 :=
    .start fun row member => (numbered.bounded row (List.mem_filter.mp member).1).1
  obtain ⟨rows, rfl, caught⟩ := follow_caught before start asks
  have now := caught_later reached later caught
  rw [List.nil_append] at now
  have increasing := log_increasing (run_numbered (reached.trans later)) jobId
  refine ⟨congrArg _ now.seen.symm, (now.isPrefix increasing).map _, ?_⟩
  rw [List.pairwise_map, ← now.seen]
  exact increasing.filter _

/-- Two pages of two events of a job that goes on to end. -/
theorem log_followed_running : ∃ (p q : ServerPool) (seen : List EventView) (last : Nat),
    System.Reaches (server .plain {}) (server .plain {}).Lawful started p ∧
    System.Reaches (server .plain {}) (server .plain {}).Lawful p q ∧
    Asks .plain {} p (ClusterClient.follow "job_0" [2, 2] 0) p (.ok (seen, last)) ∧ seen.length = 3 ∧
    (q.store.live.log "job_0").length = 5 ∧ seen <+: (q.store.live.log "job_0").map eventView := by
  have played : ((server .plain {}).play (server .plain {}).Lawful runningTurns started).any (fun p =>
      decide ((((ClusterClient.follow "job_0" [2, 2] 0).ask fun query => query.answer { now := 9 } p.store).toOption.map
        fun out => out.1.length) = some 3) &&
      ((server .plain {}).play (server .plain {}).Lawful
        ([.spawn (.completeTask 1 "task_1" {} "worker_0" {})] ++ turns 4 14 5) p).any fun q =>
          decide ((q.store.live.log "job_0").length = 5)) = true := by decide +kernel
  obtain ⟨p, run, facts⟩ := System.play_any played
  obtain ⟨shows, facts⟩ := Bool.and_eq_true_iff.mp facts
  obtain ⟨q, later, long⟩ := System.play_any facts
  obtain ⟨⟨seen, last⟩, answered, short⟩ := Option.map_eq_some_iff.mp (of_decide_eq_true shows)
  have asks : Asks .plain {} p (ClusterClient.follow "job_0" [2, 2] 0) p (.ok (seen, last)) :=
    System.Observes.ask_some answered
  exact ⟨p, q, seen, last, run, later, asks, short, of_decide_eq_true long, (log_followed run asks later).2.1⟩

end N4Cluster
