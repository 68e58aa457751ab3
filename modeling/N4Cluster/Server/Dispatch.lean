import N4Cluster.Base.Sorting
import N4Cluster.Server.Effects
import Mathlib.Data.Prod.Lex
import Mathlib.Data.String.Basic

/-! What a lease picks: the least queued task, in the order of the queue, whose
requirements the worker meets. -/
namespace N4Cluster
open Relational Transactional

variable {P : Platform} {db : Db} {worker : WorkerRow} {task : TaskRow} {tasks : List TaskRow}

/-- What `requirements_match` says of a task and the worker. -/
def Platform.judge (P : Platform) (worker : WorkerRow) (task : TaskRow) : Except PyErr Bool :=
  P.requirementsMatch task.requirements worker.labels worker.capabilities (workerVersions worker.version)

/-! ## The order of the queue -/

/-- The place of a task in the queue: higher priority, fewer tasks of its job in flight,
earlier creation, smaller id. -/
def Db.rank (db : Db) (task : TaskRow) : ℤᵒᵈ ×ₗ ℕ ×ₗ Time ×ₗ TaskId :=
  toLex (OrderDual.toDual task.priority,
    toLex (db.jobInFlight task.jobId, toLex (task.createdAt, task.id)))

theorem leasesBefore_iff (a b : TaskRow) : db.leasesBefore a b = true ↔ db.rank a ≤ db.rank b := by
  simp only [Db.leasesBefore, Db.rank, Prod.Lex.toLex_le_toLex, OrderDual.toDual_lt_toDual,
    OrderDual.toDual_inj, Bool.or_eq_true, Bool.and_eq_true, decide_eq_true_eq]

theorem rank_injective {a b : TaskRow} (same : db.rank a = db.rank b) : a.id = b.id := by
  simp only [Db.rank, toLex_inj, Prod.mk.injEq] at same
  exact same.2.2.2

theorem candidates_sorted (db : Db) :
    db.candidates = Sorting.sorted db.rank (db.tasks.rows.filter fun r => r.status = .queued) := by
  unfold Db.candidates Sorting.sorted
  congr 1
  funext a b
  exact propext (leasesBefore_iff a b)

theorem candidates_pairwise (db : Db) : db.candidates.Pairwise fun a b => db.rank a ≤ db.rank b :=
  candidates_sorted db ▸ Sorting.sorted_pairwise _ _

/-! ## The first match -/

/-- The loop passes the tasks that do not match and stops at the first that does, or that
cannot be judged. -/
theorem firstMatch_cases (P : Platform) (worker : WorkerRow) (tasks : List TaskRow) :
    (firstMatch P worker tasks = .ok none ∧ ∀ task ∈ tasks, P.judge worker task = .ok false) ∨
    ∃ before task after, tasks = before ++ task :: after ∧
      (∀ other ∈ before, P.judge worker other = .ok false) ∧
      (firstMatch P worker tasks = .ok (some task) ∧ P.judge worker task = .ok true ∨
        ∃ error, firstMatch P worker tasks = .error error ∧ P.judge worker task = .error error) := by
  induction tasks with
  | nil => exact .inl ⟨rfl, fun _ member => False.elim (List.not_mem_nil member)⟩
  | cons task rest ih =>
    have turn : firstMatch P worker (task :: rest) = (P.judge worker task >>= fun matched =>
      if matched then .ok (some task) else firstMatch P worker rest) := by
      simp only [firstMatch]
      rfl
    cases judged : P.judge worker task with
    | error error =>
      rw [judged] at turn
      exact .inr ⟨[], task, rest, rfl, fun _ member => False.elim (List.not_mem_nil member),
        .inr ⟨error, turn, judged⟩⟩
    | ok matched =>
      rw [judged] at turn
      cases matched with
      | true =>
        exact .inr ⟨[], task, rest, rfl, fun _ member => False.elim (List.not_mem_nil member),
          .inl ⟨turn, judged⟩⟩
      | false =>
        have passes : firstMatch P worker (task :: rest) = firstMatch P worker rest := turn
        rw [passes]
        obtain ⟨none, unmatched⟩ | ⟨before, found, after, rfl, unmatched, ends⟩ := ih
        · exact .inl ⟨none, List.forall_mem_cons.mpr ⟨judged, unmatched⟩⟩
        · exact .inr ⟨task :: before, found, after, rfl, List.forall_mem_cons.mpr ⟨judged, unmatched⟩, ends⟩

/-- A queued task. -/
structure Db.Queued (db : Db) (task : TaskRow) : Prop where
  present : db.tasks.get task.id = some task
  status : task.status = .queued

/-- The first queued task that the worker's turn does not pass. -/
structure Db.First (P : Platform) (db : Db) (worker : WorkerRow) (task : TaskRow) : Prop where
  queued : db.Queued task
  stops : P.judge worker task ≠ .ok false
  least : ∀ other, db.Queued other → P.judge worker other ≠ .ok false →
    other = task ∨ db.rank task < db.rank other

theorem queued_iff : task ∈ db.candidates ↔ db.Queued task :=
  mem_candidates.trans ⟨fun both => ⟨both.1, both.2⟩, fun queued => ⟨queued.present, queued.status⟩⟩

/-- What the loop passes comes earlier, so what it stops at is the first. -/
theorem first_of_split {before after : List TaskRow} (split : db.candidates = before ++ task :: after)
    (passed : ∀ other ∈ before, P.judge worker other = .ok false)
    (stops : P.judge worker task ≠ .ok false) : db.First P worker task := by
  have sorted := candidates_pairwise db
  rw [split] at sorted
  have queued : db.Queued task := queued_iff.mp (split ▸ List.mem_append_right _ List.mem_cons_self)
  refine ⟨queued, stops, fun other queued' stops' => ?_⟩
  have member := queued_iff.mpr queued'
  rw [split, List.mem_append, List.mem_cons] at member
  obtain earlier | same | later := member
  · exact absurd (passed other earlier) stops'
  · exact .inl same
  · have below := (List.pairwise_cons.mp (List.pairwise_append.mp sorted).2.1).1 other later
    obtain less | equal := lt_or_eq_of_le below
    · exact .inr less
    · have present := queued'.present
      rw [← rank_injective equal] at present
      exact .inl (Option.some.inj (present.symm.trans queued.present))

/-- The loop ends with nothing if every queued task is passed, and otherwise with what the
first one that is not comes to. -/
theorem firstMatch_first (P : Platform) (db : Db) (worker : WorkerRow) :
    (firstMatch P worker db.candidates = .ok none ∧
      ∀ task, db.Queued task → P.judge worker task = .ok false) ∨
    ∃ task, db.First P worker task ∧
      (firstMatch P worker db.candidates = .ok (some task) ∧ P.judge worker task = .ok true ∨
        ∃ error, firstMatch P worker db.candidates = .error error ∧
          P.judge worker task = .error error) := by
  obtain ⟨none, passed⟩ | ⟨before, task, after, split, passed, ends⟩ :=
    firstMatch_cases P worker db.candidates
  · exact .inl ⟨none, fun task queued => passed task (queued_iff.mpr queued)⟩
  · refine .inr ⟨task, first_of_split split passed fun unmatched => ?_, ends⟩
    obtain ⟨_, matched⟩ | ⟨error, _, failed⟩ := ends
    · cases unmatched.symm.trans matched
    · cases unmatched.symm.trans failed

/-! ## The turn of a worker -/

/-- An alive worker with a free slot. -/
structure Db.Able (db : Db) (w : WorkerId) (worker : WorkerRow) : Prop where
  registered : db.workers.get w = some worker
  alive : worker.status = .alive
  free : db.inFlightCount w < worker.slotsTotal

/-- What a lease changes: the task, the worker's used slots, and the job if it was queued. -/
structure Db.Leases (db db' : Db) (w : WorkerId) (task : TaskRow) (expires now : Time) : Prop where
  tasks : ∀ taskId, db'.tasks.get taskId = if taskId = task.id then
      some { task with
        status := .leased, workerId := some w, leaseExpiresAt := some expires,
        attempt := task.attempt + 1, updatedAt := now }
    else db.tasks.get taskId
  workers : ∀ id, db'.workers.get id = (db.workers.get id).map fun r =>
    if id = w then { r with slotsUsed := db'.inFlightCount w } else r
  jobs : ∀ jobId, db'.jobs.get jobId = (db.jobs.get jobId).map fun r =>
    if jobId = task.jobId ∧ r.status = .queued then { r with status := .running, updatedAt := now } else r
  artifacts : db'.artifacts = db.artifacts
  jobArtifacts : db'.jobArtifacts = db.jobArtifacts
  events : db'.events = db.events

theorem lease_leases (w : WorkerId) (ttl now : Time) (queued : db.Queued task) :
    db.Leases (db.lease task w ttl now) w task (now + ttl) now := by
  constructor
  · intro taskId
    have touched := (setTask_wrote queued.present
      { workerId := some (some w), leaseExpiresAt := some (some (now + ttl)),
        attempt := some (task.attempt + 1) } .leased now).touched
    split
    · rename_i same
      rw [same]
      exact touched.now
    · rename_i other
      exact touched.others taskId other
  · intro id
    have synced := Table.get_update db.workers w id
      (fun r => { r with slotsUsed := (db.lease task w ttl now).inFlightCount w }) fun _ => rfl
    refine synced.trans ?_
    split
    · rfl
    · exact Option.map_id'.symm
  · intro jobId
    have moved := Table.get_updateWhere db.jobs (fun r => r.id = task.jobId && r.status = .queued)
      (fun r => { r with status := .running, updatedAt := now }) (fun _ => rfl) jobId
    refine moved.trans ?_
    cases found : db.jobs.get jobId with
    | none => rfl
    | some job =>
      have named : job.id = jobId := Table.get_key found
      simp only [Option.map_some, Bool.and_eq_true, decide_eq_true_eq, named]
  · rfl
  · rfl
  · rfl

/-- The turn of a worker, by the first queued task it does not pass: it changes nothing
unless that task is one it matches. -/
theorem turn_cases (P : Platform) (io : Io) (s : Session Db) (w : WorkerId) (ttl : Time) :
    (leaseNextTask P io w ttl s = (.ok none, s) ∧ ∀ worker, s.live.Able w worker →
      ∀ task, s.live.Queued task → P.judge worker task = .ok false) ∨
    ∃ worker task, s.live.Able w worker ∧ s.live.First P worker task ∧
      ((∃ db, leaseNextTask P io w ttl s =
          (.ok (some ((task.lease w ttl io.now).payloadAt (io.now + ttl))), .settled db) ∧
          s.live.Leases db w task (io.now + ttl) io.now ∧ P.judge worker task = .ok true) ∨
        ∃ error, leaseNextTask P io w ttl s = (.error error, s) ∧ P.judge worker task = .error error) := by
  rw [leaseNextTask_eq]
  cases registered : s.live.workers.get w with
  | none =>
    exact .inl ⟨rfl, fun worker able => nomatch registered.symm.trans able.registered⟩
  | some worker =>
    dsimp only
    split
    · rename_i able
      obtain ⟨none, passed⟩ | ⟨task, first, ends⟩ := firstMatch_first P s.live worker
      · rw [none]
        refine .inl ⟨rfl, fun other able' => ?_⟩
        cases registered.symm.trans able'.registered
        exact passed
      · refine .inr ⟨worker, task, ⟨registered, able.1, able.2⟩, first, ?_⟩
        obtain ⟨found, matched⟩ | ⟨error, failed, unjudged⟩ := ends
        · rw [found]
          exact .inl ⟨_, rfl, lease_leases w ttl io.now first.queued, matched⟩
        · rw [failed]
          exact .inr ⟨error, rfl, unjudged⟩
    · rename_i unable
      refine .inl ⟨rfl, fun other able => ?_⟩
      cases registered.symm.trans able.registered
      exact absurd ⟨able.alive, able.free⟩ unable

/-- Where every queued task can be judged, a worker is refused only if it is unknown, not
alive, full or matches nothing, and is otherwise leased the least task it matches. -/
theorem lease_least (P : Platform) (io : Io) (s : Session Db) (w : WorkerId) (ttl : Time)
    (judged : ∀ worker, s.live.workers.get w = some worker → ∀ task, s.live.Queued task →
      ∃ matched, P.judge worker task = .ok matched) :
    ∃ answer t, leaseNextTask P io w ttl s = (.ok answer, t) ∧
      (answer = none ↔ s.live.workers.get w = none ∨ ∃ worker, s.live.workers.get w = some worker ∧
        (worker.status ≠ .alive ∨ worker.slotsTotal ≤ s.live.inFlightCount w ∨
          ∀ task, s.live.Queued task → P.judge worker task = .ok false)) ∧
      (answer = none → t = s) ∧
      ∀ payload, answer = some payload → ∃ worker task, s.live.workers.get w = some worker ∧
        payload.taskId = task.id ∧ s.live.Queued task ∧ P.judge worker task = .ok true ∧
        (∀ other, s.live.Queued other → P.judge worker other = .ok true →
          other = task ∨ s.live.rank task < s.live.rank other) ∧
        s.live.Leases t.live w task (io.now + ttl) io.now ∧ t.disk = t.live := by
  obtain ⟨ran, passed⟩ | ⟨worker, task, able, first, ends⟩ := turn_cases P io s w ttl
  · refine ⟨none, s, ran, ⟨fun _ => ?_, fun _ => rfl⟩, fun _ => rfl, fun _ same => nomatch same⟩
    cases registered : s.live.workers.get w with
    | none => exact .inl rfl
    | some worker =>
      refine .inr ⟨worker, rfl, ?_⟩
      by_cases alive : worker.status = .alive
      · by_cases full : worker.slotsTotal ≤ s.live.inFlightCount w
        · exact .inr (.inl full)
        · exact .inr (.inr (passed worker ⟨registered, alive, Nat.not_le.mp full⟩))
      · exact .inl alive
  · obtain ⟨db, ran, leases, matched⟩ | ⟨error, _, unjudged⟩ := ends
    · refine ⟨_, _, ran, ⟨fun none => (nomatch none), fun refused => False.elim ?_⟩,
        fun none => (nomatch none), ?_⟩
      · obtain unknown | ⟨other, registered, reason⟩ := refused
        · cases unknown.symm.trans able.registered
        · cases registered.symm.trans able.registered
          obtain dead | full | passed := reason
          · exact dead able.alive
          · exact absurd able.free (Nat.not_lt.mpr full)
          · exact first.stops (passed task first.queued)
      · rintro payload same
        cases same
        exact ⟨worker, task, able.registered, rfl, first.queued, matched,
          fun other queued meets => first.least other queued (by rw [meets]; nofun), leases, rfl⟩
    · obtain ⟨matched, same⟩ := judged worker able.registered task first.queued
      cases same.symm.trans unjudged

def waitingTask (suffix : String) (priority : Int) : TaskRow where
  id := genId "task" suffix
  jobId := "job_0"
  status := .queued
  attempt := 0
  maxAttempts := 2
  priority := priority
  createdAt := 0
  updatedAt := 0
  datasetLabel := none
  pipelineLabel := none
  requirements := {}
  payload :=
    { type := jobType, pipeline := { kind := .path, path := some "p.yaml" },
      dataset := { kind := .sharedPath, path := some "d" }, params := [], outputs := {},
      scheduler := none, submission := none, nativePayload := none }

/-- Two queued tasks, the later one more urgent, and a free worker. -/
def waitingStore : Session Db :=
  .settled { tasks := ⟨[waitingTask "0" 0, waitingTask "1" 5], by
               change ["task_0", "task_1"].Nodup
               decide⟩,
             workers := ⟨[workerRowOf { now := 0 } {} none], List.nodup_singleton _⟩ }

theorem lease_least_urgent : ∃ payload t,
    leaseNextTask .plain { now := 1 } "worker_0" 60 waitingStore = (.ok (some payload), t) ∧
      payload.taskId = "task_1" := by
  have plainly : ∀ worker task, waitingStore.live.Queued task → Platform.plain.judge worker task = .ok true := by
    intro worker task queued
    have member : task ∈ [waitingTask "0" 0, waitingTask "1" 5] := Table.mem_of_get queued.present
    rcases List.mem_pair.mp member with rfl | rfl <;> rfl
  have urgent : waitingStore.live.Queued (waitingTask "1" 5) := ⟨rfl, rfl⟩
  obtain ⟨answer, t, ran, refused, _, leased⟩ := lease_least .plain { now := 1 } waitingStore "worker_0" 60
    fun worker _ task queued => ⟨true, plainly worker task queued⟩
  cases answer with
  | none =>
    obtain unknown | ⟨worker, registered, dead | full | passed⟩ := refused.mp rfl
    · cases unknown
    · cases registered
      exact absurd rfl dead
    · cases registered
      exact absurd full (by decide)
    · cases (passed _ urgent).symm.trans (plainly worker _ urgent)
  | some payload =>
    obtain ⟨worker, task, _, same, queued, _, least, _⟩ := leased payload rfl
    refine ⟨payload, t, ran, same.trans ?_⟩
    obtain rfl | below := least _ urgent (plainly worker _ urgent)
    · rfl
    · have member : task ∈ [waitingTask "0" 0, waitingTask "1" 5] := Table.mem_of_get queued.present
      rcases List.mem_pair.mp member with rfl | rfl
      · exact absurd below (by decide +kernel)
      · rfl

end N4Cluster
