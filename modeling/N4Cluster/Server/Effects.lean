import N4Cluster.Server.Operations

/-! What each operation can do, said once: the rows it writes as functions of
the rows it finds, and for every method the ways it can end. A method that
raises has written nothing. -/
namespace N4Cluster
open Relational Transactional

/-! ## Rows written -/

namespace TaskRow

def lease (r : TaskRow) (w : WorkerId) (ttl now : Time) : TaskRow :=
  TaskFields.set
    { workerId := some (some w), leaseExpiresAt := some (some (now + ttl)),
      attempt := some (r.attempt + 1) } .leased now r

def start (r : TaskRow) (now : Time) : TaskRow :=
  TaskFields.set { startedAt := some now } .running now r

def complete (r : TaskRow) (result : TaskResult) (now : Time) : TaskRow :=
  TaskFields.set { result := some result } .succeeded now r

/-- Through `failed`, and on to `queued` when attempts remain. -/
def fail (r : TaskRow) (error : String) (retriable : Bool) (now : Time) : TaskRow :=
  let failed := TaskFields.set { error := some error } .failed now r
  if retriable && r.attempt < r.maxAttempts then
    TaskFields.set
      { workerId := some none, leaseExpiresAt := some none, error := some error } .queued now failed
  else failed

/-- Through `lost` to the state the job's status and the attempts decide. -/
def resolve (r : TaskRow) (error : String) (job : JobStatus) (now : Time) : TaskRow :=
  let lost := TaskFields.set { error := some error } .lost now r
  if job = .cancelling || job = .cancelled then
    TaskFields.set { workerId := some none, leaseExpiresAt := some none } .cancelled now lost
  else if r.attempt < r.maxAttempts then
    TaskFields.set { workerId := some none, leaseExpiresAt := some none } .queued now lost
  else TaskFields.set { error := some (error ++ " (max attempts)") } .failed now lost

def cancel (r : TaskRow) (now : Time) : TaskRow :=
  TaskFields.set { workerId := some none, leaseExpiresAt := some none } .cancelled now r

def stop (r : TaskRow) (now : Time) : TaskRow := TaskFields.set {} .cancelled now r

end TaskRow

/-- The two writes of a worker-reported failure. -/
def Db.fail (db : Db) (row : TaskRow) (error : String) (retriable : Bool) (now : Time) : Db :=
  let failed := db.setTask row.id { error := some error } .failed now
  if retriable && row.attempt < row.maxAttempts then
    failed.setTask row.id
      { workerId := some none, leaseExpiresAt := some none, error := some error } .queued now
  else failed

/-- The two writes of a lost task. -/
def Db.resolve (db : Db) (row : TaskRow) (error : String) (job : JobStatus) (now : Time) : Db :=
  let lost := db.setTask row.id { error := some error } .lost now
  if job = .cancelling || job = .cancelled then
    lost.setTask row.id { workerId := some none, leaseExpiresAt := some none } .cancelled now
  else if row.attempt < row.maxAttempts then
    lost.setTask row.id { workerId := some none, leaseExpiresAt := some none } .queued now
  else lost.setTask row.id { error := some (error ++ " (max attempts)") } .failed now

/-- `if owner` of the sync after a loop turn: an empty identifier is no owner. -/
def refreshed (owner : Option WorkerId) : Option WorkerId := owner.filter fun w => w ≠ ""

def Db.refresh (db : Db) : Option WorkerId → Db
  | some w => db.syncSlots w
  | none => db

/-- The writes of a lease. -/
def Db.lease (db : Db) (task : TaskRow) (w : WorkerId) (ttl now : Time) : Db :=
  ((db.setTask task.id
    { workerId := some (some w), leaseExpiresAt := some (some (now + ttl)),
      attempt := some (task.attempt + 1) } .leased now).syncSlots w).maybeJobRunning task.jobId now

/-- One turn of a reaper's loop. -/
def Db.resolveTurn (error : String) (now : Time) (db : Db) (row : TaskRow × JobStatus) : Db :=
  (db.resolve row.1 error row.2 now).refresh (refreshed row.1.workerId)

/-- One turn of the loop of `cancel_job_tasks`. -/
def Db.cancelTurn (now : Time) (db : Db) (row : TaskRow) : Db :=
  if row.status = .queued ∨ row.status = .leased then
    (db.setTask row.id { workerId := some none, leaseExpiresAt := some none } .cancelled now).refresh
      (refreshed row.workerId)
  else db

/-- What that turn makes of its row. -/
def TaskRow.cancelled (r : TaskRow) (now : Time) : TaskRow :=
  if r.status = .queued ∨ r.status = .leased then r.cancel now else r

/-- The tasks `cancel_job_tasks` leaves to their workers. -/
def Db.stillRunning (db : Db) (jobId : JobId) : List TaskId :=
  (db.tasks.rows.filter fun r => r.jobId = jobId).filterMap fun r =>
    if r.status = .running then some r.id else none

theorem Db.mem_stillRunning {db : Db} :
    taskId ∈ db.stillRunning jobId ↔
      ∃ r, db.tasks.get taskId = some r ∧ r.jobId = jobId ∧ r.status = .running := by
  simp only [stillRunning, List.mem_filterMap, List.mem_filter, decide_eq_true_eq,
    Table.get_eq_some, Option.ite_none_right_eq_some, Option.some.injEq]
  constructor
  · rintro ⟨r, ⟨member, job⟩, running, rfl⟩
    exact ⟨r, ⟨member, rfl⟩, job, running⟩
  · rintro ⟨r, ⟨member, rfl⟩, job, running⟩
    exact ⟨r, ⟨member, job⟩, running, rfl⟩

def JobRow.moved (r : JobRow) (status : JobStatus) (error : Option String) (now : Time) : JobRow :=
  { r with status := status, error := error.or r.error, updatedAt := now }

def Db.moveJob (db : Db) (jobId : JobId) (status : JobStatus) (error : Option String)
    (now : Time) : Db :=
  { db with jobs := db.jobs.update jobId fun r => r.moved status error now }

def Db.putResult (db : Db) (jobId : JobId) (agg : JobAggregate) (now : Time) : Db :=
  { db with jobs := db.jobs.update jobId fun r =>
      { r with result := some agg, updatedAt := now } }

@[simp] theorem TaskFields.set_id (fields : TaskFields) (status : TaskStatus) (now : Time)
    (r : TaskRow) : (fields.set status now r).id = r.id := rfl

@[simp] theorem TaskFields.set_jobId (fields : TaskFields) (status : TaskStatus) (now : Time)
    (r : TaskRow) : (fields.set status now r).jobId = r.jobId := rfl

@[simp] theorem TaskFields.set_status (fields : TaskFields) (status : TaskStatus) (now : Time)
    (r : TaskRow) : (fields.set status now r).status = status := rfl

theorem Db.syncOwner_eq (db : Db) (owner : Option WorkerId) :
    db.syncOwner owner = db.refresh (refreshed owner) := by
  cases owner with
  | none => rfl
  | some w =>
    by_cases empty : w = ""
    · simp [Db.syncOwner, refreshed, Db.refresh, empty, Option.filter]
    · simp [Db.syncOwner, refreshed, Db.refresh, empty, Option.filter]

@[simp] theorem Db.refresh_tasks (db : Db) (o : Option WorkerId) : (db.refresh o).tasks = db.tasks := by
  cases o <;> rfl

@[simp] theorem Db.refresh_jobs (db : Db) (o : Option WorkerId) : (db.refresh o).jobs = db.jobs := by
  cases o <;> rfl

/-! ## How each method ends -/

section Methods
variable {P : Platform} {io : Io} {s : Session Db}

theorem setTaskStatus_ok (io : Io) {row : TaskRow} (new : TaskStatus) (fields : TaskFields)
    (found : s.live.tasks.get taskId = some row) (legal : taskCanTransition row.status new = true) :
    setTaskStatus io taskId new fields s =
      (.ok (fields.set new io.now row), { s with live := s.live.setTask taskId fields new io.now }) := by
  simp only [setTaskStatus, Txn.bind_run, Txn.live_run, found, validateTaskTransition, legal,
    if_true, Txn.ofExcept_run, Txn.modify_run, Txn.pure_run]

theorem setTaskStatus_cases (io : Io) {row : TaskRow} (new : TaskStatus) (fields : TaskFields)
    (found : s.live.tasks.get taskId = some row) :
    (taskCanTransition row.status new = true ∧ setTaskStatus io taskId new fields s =
      (.ok (fields.set new io.now row), { s with live := s.live.setTask taskId fields new io.now })) ∨
    ∃ error, setTaskStatus io taskId new fields s = (.error error, s) := by
  cases legal : taskCanTransition row.status new with
  | true => exact .inl ⟨rfl, setTaskStatus_ok io new fields found legal⟩
  | false =>
    simp only [setTaskStatus, Txn.bind_run, Txn.live_run, found, validateTaskTransition, legal,
      if_false, Txn.ofExcept_run, Bool.false_eq_true]
    exact .inr ⟨_, rfl⟩

/-- One task row was written and nothing else of the three state tables. -/
structure Db.Wrote (db db' : Db) (taskId : TaskId) (row row' : TaskRow) : Prop where
  touched : db.tasks.Touched db'.tasks taskId row row'
  jobs : db'.jobs = db.jobs
  workers : db'.workers = db.workers

theorem Db.Wrote.trans {a b c : Db} {r r' r'' : TaskRow} (first : a.Wrote b taskId r r')
    (second : b.Wrote c taskId r' r'') : a.Wrote c taskId r r'' where
  touched := first.touched.trans second.touched
  jobs := second.jobs.trans first.jobs
  workers := second.workers.trans first.workers

theorem setTask_wrote {db : Db} {row : TaskRow} (found : db.tasks.get taskId = some row)
    (fields : TaskFields) (status : TaskStatus) (now : Time) :
    db.Wrote (db.setTask taskId fields status now) taskId row (fields.set status now row) where
  touched := Table.update_touched found (fields.set status now) fun _ => rfl
  jobs := rfl
  workers := rfl

theorem legal_running {src : TaskStatus} (legal : taskCanTransition src .running = true) :
    src = .leased := by
  cases src <;> simp_all [taskCanTransition, taskTransitions]

theorem legal_succeeded {src : TaskStatus} (legal : taskCanTransition src .succeeded = true) :
    src = .running := by
  cases src <;> simp_all [taskCanTransition, taskTransitions]

theorem startTask_cases (io : Io) (s : Session Db) (taskId : TaskId) (w : WorkerId) :
    (∃ row, s.live.tasks.get taskId = some row ∧ row.workerId = some w ∧ row.status = .leased ∧
      startTask io taskId w s = (.ok (row.start io.now),
        .settled (s.live.setTask taskId { startedAt := some io.now } .running io.now))) ∨
    ∃ error, startTask io taskId w s = (.error error, s) := by
  simp only [startTask, Txn.bind_run, Txn.live_run]
  cases found : s.live.tasks.get taskId with
  | none => exact .inr ⟨_, rfl⟩
  | some row =>
    by_cases owned : row.workerId = some w
    · simp only [owned, if_true]
      rcases setTaskStatus_cases io .running { startedAt := some io.now } found with
        ⟨legal, ran⟩ | ⟨error, ran⟩
      · exact .inl ⟨row, rfl, owned, legal_running legal, by rw [Txn.bind_ok ran]; rfl⟩
      · exact .inr ⟨error, Txn.bind_error ran _⟩
    · simp only [owned, if_false]
      exact .inr ⟨_, rfl⟩

theorem completeTask_ok {row : TaskRow} (found : s.live.tasks.get taskId = some row) (owned : row.workerId = some w)
    (running : row.status = .running) (result : TaskResult) :
    completeTask io taskId w result s = (.ok (row.complete result io.now),
      .settled ((s.live.setTask taskId { result := some result } .succeeded io.now).syncSlots w)) := by
  have legal : taskCanTransition row.status .succeeded = true := by rw [running]; rfl
  simp only [completeTask, Txn.bind_run, Txn.live_run, found, owned, if_true,
    setTaskStatus_ok io .succeeded { result := some result } found legal]
  rfl

theorem completeTask_cases (io : Io) (s : Session Db) (taskId : TaskId) (w : WorkerId) (result : TaskResult) :
    (∃ row, s.live.tasks.get taskId = some row ∧ row.workerId = some w ∧ row.status = .running ∧
      completeTask io taskId w result s = (.ok (row.complete result io.now),
        .settled ((s.live.setTask taskId { result := some result } .succeeded io.now).syncSlots w))) ∨
    ∃ error, completeTask io taskId w result s = (.error error, s) := by
  simp only [completeTask, Txn.bind_run, Txn.live_run]
  cases found : s.live.tasks.get taskId with
  | none => exact .inr ⟨_, rfl⟩
  | some row =>
    by_cases owned : row.workerId = some w
    · simp only [owned, if_true]
      rcases setTaskStatus_cases io .succeeded { result := some result } found with
        ⟨legal, ran⟩ | ⟨error, ran⟩
      · exact .inl ⟨row, rfl, owned, legal_succeeded legal, by rw [Txn.bind_ok ran]; rfl⟩
      · exact .inr ⟨error, Txn.bind_error ran _⟩
    · simp only [owned, if_false]
      exact .inr ⟨_, rfl⟩

theorem cancelRunningTask_ok {row : TaskRow} (found : s.live.tasks.get taskId = some row)
    (owned : row.workerId = some w) (legal : taskCanTransition row.status .cancelled = true) :
    cancelRunningTask io taskId w s = (.ok (some (row.stop io.now)),
      .settled ((s.live.setTask taskId {} .cancelled io.now).syncSlots w)) := by
  simp only [cancelRunningTask, Txn.bind_run, Txn.live_run, found, owned, if_true,
    setTaskStatus_ok io .cancelled {} found legal]
  rfl

theorem cancelRunningTask_cases (io : Io) (s : Session Db) (taskId : TaskId) (w : WorkerId) :
    (∃ row, s.live.tasks.get taskId = some row ∧ row.workerId = some w ∧
      taskCanTransition row.status .cancelled = true ∧
      cancelRunningTask io taskId w s = (.ok (some (row.stop io.now)),
        .settled ((s.live.setTask taskId {} .cancelled io.now).syncSlots w))) ∨
    (∃ error, cancelRunningTask io taskId w s = (.error error, s)) ∨
    cancelRunningTask io taskId w s = (.ok none, s) := by
  simp only [cancelRunningTask, Txn.bind_run, Txn.live_run]
  cases found : s.live.tasks.get taskId with
  | none => exact .inr (.inr rfl)
  | some row =>
    by_cases owned : row.workerId = some w
    · simp only [owned, if_true]
      rcases setTaskStatus_cases io .cancelled {} found with ⟨legal, ran⟩ | ⟨error, ran⟩
      · exact .inl ⟨row, rfl, owned, legal, by rw [Txn.bind_ok ran]; rfl⟩
      · exact .inr (.inl ⟨error, Txn.bind_error ran _⟩)
    · simp only [owned, if_false]
      exact .inr (.inr rfl)

theorem fail_wrote {db : Db} {row : TaskRow} (found : db.tasks.get row.id = some row)
    (error : String) (retriable : Bool) (now : Time) :
    db.Wrote (db.fail row error retriable now) row.id row (row.fail error retriable now) := by
  have first := setTask_wrote found { error := some error } .failed now
  unfold Db.fail TaskRow.fail
  split
  · exact first.trans (setTask_wrote first.touched.now _ _ _)
  · exact first

theorem resolve_wrote {db : Db} {row : TaskRow} (found : db.tasks.get row.id = some row)
    (error : String) (job : JobStatus) (now : Time) :
    db.Wrote (db.resolve row error job now) row.id row (row.resolve error job now) := by
  have first := setTask_wrote found { error := some error } .lost now
  unfold Db.resolve TaskRow.resolve
  split
  · exact first.trans (setTask_wrote first.touched.now _ _ _)
  · split
    · exact first.trans (setTask_wrote first.touched.now _ _ _)
    · exact first.trans (setTask_wrote first.touched.now _ _ _)

/-- `failed` is legal where the report is accepted, and `queued` is legal from it. -/
theorem failTask_ok {row : TaskRow} {o : Option WorkerId} (found : s.live.tasks.get row.id = some row)
    (owned : o.isSome → row.workerId = o) (legal : taskCanTransition row.status .failed = true)
    {error : String} (storable : P.textError error = none) (retriable : Bool) :
    failTask P io row.id o error retriable s = (.ok (row.fail error retriable io.now),
      .settled ((s.live.fail row error retriable io.now).refresh o)) := by
  have current : (o.isSome && row.workerId != o) = false := by
    cases o with
    | none => rfl
    | some w => simp [owned rfl]
  have first := setTask_wrote found { error := some error } .failed io.now
  simp only [failTask, setTaskFailed, storable, Txn.bind_run, Txn.live_run, found, current, if_false,
    Bool.false_eq_true, setTaskStatus_ok io .failed { error := some error } found legal]
  by_cases retry : (retriable && decide (row.attempt < row.maxAttempts)) = true
  · have again := setTaskStatus_ok io .queued
      { workerId := some none, leaseExpiresAt := some none, error := some error }
      (s := { s with live := s.live.setTask row.id { error := some error } .failed io.now })
      first.touched.now rfl
    simp only [retry, if_true, TaskRow.fail, Db.fail]
    rw [Txn.bind_ok again]
    cases o <;> rfl
  · simp only [retry, TaskRow.fail, Db.fail]
    cases o <;> rfl

theorem setTaskFailed_cases (P : Platform) (io : Io) {row : TaskRow} (found : s.live.tasks.get row.id = some row)
    (error : String) :
    (P.textError error = none ∧ taskCanTransition row.status .failed = true) ∨
      ∃ raised, setTaskFailed P io row.id row.status error s = (.error raised, s) := by
  unfold setTaskFailed
  cases refused : P.textError error with
  | none =>
    rcases setTaskStatus_cases io .failed { error := some error } found with ⟨legal, _⟩ | raised
    · exact .inl ⟨rfl, legal⟩
    · exact .inr raised
  | some message =>
    unfold validateTaskTransition
    split
    · exact .inr ⟨_, rfl⟩
    · exact .inr ⟨_, rfl⟩

theorem failTask_cases (P : Platform) (io : Io) (s : Session Db) (taskId : TaskId) (o : Option WorkerId) (error : String) (retriable : Bool) :
    (∃ row : TaskRow, s.live.tasks.get taskId = some row ∧
      (o.isSome → row.workerId = o) ∧ taskCanTransition row.status .failed = true ∧
      P.textError error = none ∧ failTask P io taskId o error retriable s =
        (.ok (row.fail error retriable io.now),
          .settled ((s.live.fail row error retriable io.now).refresh o))) ∨
    ∃ raised, failTask P io taskId o error retriable s = (.error raised, s) := by
  cases found : s.live.tasks.get taskId with
  | none => exact .inr ⟨_, by simp only [failTask, Txn.bind_run, Txn.live_run, found]; rfl⟩
  | some row =>
    obtain rfl : row.id = taskId := Table.get_key found
    by_cases stale : (o.isSome && row.workerId != o) = true
    · exact .inr ⟨_, by simp only [failTask, Txn.bind_run, Txn.live_run, found, stale, if_true]; rfl⟩
    · have owned : o.isSome → row.workerId = o := by
        intro some
        simpa [some] using stale
      rcases setTaskFailed_cases P io found error with ⟨storable, legal⟩ | ⟨raised, ran⟩
      · exact .inl ⟨row, rfl, owned, legal, storable, failTask_ok found owned legal storable retriable⟩
      · refine .inr ⟨raised, ?_⟩
        simp only [failTask, Txn.bind_run, Txn.live_run, found, stale, if_false, Bool.false_eq_true, ran]

theorem addEvent_ok {e : NewEvent} (storable : e.unstorable P = none) :
    addEvent P io e s = insertEvent io e s := by
  rw [addEvent, storable]

theorem addEvent_cases (P : Platform) (io : Io) (s : Session Db) (e : NewEvent) :
    (e.unstorable P = none ∧ addEvent P io e s = insertEvent io e s) ∨
      ∃ message, e.unstorable P = some message ∧
        addEvent P io e s = (.error (.valueError message), s) := by
  unfold addEvent
  cases e.unstorable P with
  | none => exact .inl ⟨rfl, rfl⟩
  | some message => exact .inr ⟨message, rfl, rfl⟩

theorem resolveLostTask_ok {row : TaskRow} (found : s.live.tasks.get row.id = some row)
    (inFlight : row.status.inFlight = true) (error : String) (job : JobStatus) :
    resolveLostTask io error (row, job) s = (.ok (row.id, row.jobId),
      { s with live := (s.live.resolve row error job io.now).refresh (refreshed row.workerId) }) := by
  have lost : taskCanTransition row.status .lost = true := by
    cases status : row.status <;> simp_all [TaskStatus.inFlight, taskCanTransition, taskTransitions]
  have first := setTask_wrote found { error := some error } .lost io.now
  have next (new : TaskStatus) (fields : TaskFields) (legal : taskCanTransition .lost new = true) :=
    setTaskStatus_ok io new fields
      (s := { s with live := s.live.setTask row.id { error := some error } .lost io.now })
      first.touched.now legal
  simp only [resolveLostTask]
  rw [Txn.bind_ok (setTaskStatus_ok _ _ _ found lost)]
  simp only [Db.resolve]
  split
  · rw [Txn.bind_ok (next .cancelled _ rfl)]
    simp only [Txn.bind_run, Txn.modify_run, Txn.pure_run, Db.syncOwner_eq]
  · split
    · rw [Txn.bind_ok (next .queued _ rfl)]
      simp only [Txn.bind_run, Txn.modify_run, Txn.pure_run, Db.syncOwner_eq]
    · rw [Txn.bind_ok (next .failed _ rfl)]
      simp only [Txn.bind_run, Txn.modify_run, Txn.pure_run, Db.syncOwner_eq]

theorem resolveTurn_touched {db : Db} {row : TaskRow × JobStatus}
    (found : db.tasks.get row.1.id = some row.1) (error : String) (now : Time) :
    db.tasks.Touched (db.resolveTurn error now row).tasks row.1.id row.1
      (row.1.resolve error row.2 now) := by
  simpa only [Db.resolveTurn, Db.refresh_tasks] using (resolve_wrote found error row.2 now).touched

theorem resolveTurn_jobs (db : Db) (error : String) (now : Time) (row : TaskRow × JobStatus) :
    (db.resolveTurn error now row).jobs = db.jobs := by
  simp only [Db.resolveTurn, Db.refresh_jobs, Db.resolve]
  split
  · rfl
  · split <;> rfl

theorem resolveTurns_jobs (rows : List (TaskRow × JobStatus)) (error : String) (now : Time) (db : Db) :
    (rows.foldl (Db.resolveTurn error now) db).jobs = db.jobs := by
  induction rows generalizing db with
  | nil => rfl
  | cons row rest ih => rw [List.foldl_cons, ih, resolveTurn_jobs]

theorem cancelTurn_touched {db : Db} {row : TaskRow} (found : db.tasks.get row.id = some row)
    (now : Time) :
    db.tasks.Touched (db.cancelTurn now row).tasks row.id row (row.cancelled now) := by
  unfold Db.cancelTurn TaskRow.cancelled
  split
  · rw [Db.refresh_tasks]
    exact (setTask_wrote found _ _ now).touched
  · exact .refl found

theorem cancelTurn_jobs (db : Db) (now : Time) (row : TaskRow) :
    (db.cancelTurn now row).jobs = db.jobs := by
  unfold Db.cancelTurn
  split
  · simp only [Db.refresh_jobs]
    rfl
  · rfl

/-- The rows of a reaper: in flight, present, distinct, each with its job's status. -/
structure Db.Lost (db : Db) (rows : List (TaskRow × JobStatus)) : Prop where
  found : ∀ row ∈ rows, db.tasks.get row.1.id = some row.1
  inFlight : ∀ row ∈ rows, row.1.status.inFlight = true
  job : ∀ row ∈ rows, ∃ j, db.jobs.get row.1.jobId = some j ∧ j.status = row.2
  apart : rows.Pairwise fun a b => a.1.id ≠ b.1.id

theorem joinJobs_lost (db : Db) (p : TaskRow → Bool)
    (inFlight : ∀ r, p r = true → r.status.inFlight = true) :
    db.Lost (db.joinJobs (db.tasks.rows.filter p)) := by
  have joined : ∀ row ∈ db.joinJobs (db.tasks.rows.filter p),
      row.1 ∈ db.tasks.rows ∧ p row.1 = true ∧
        ∃ j, db.jobs.get row.1.jobId = some j ∧ j.status = row.2 := by
    intro row member
    obtain ⟨r, chosen, paired⟩ := List.mem_filterMap.mp member
    obtain ⟨j, job, rfl⟩ := Option.map_eq_some_iff.mp paired
    exact ⟨(List.mem_filter.mp chosen).1, (List.mem_filter.mp chosen).2, j, job, rfl⟩
  refine ⟨fun row member => Table.get_of_mem (joined row member).1,
    fun row member => inFlight _ (joined row member).2.1, fun row member => (joined row member).2.2, ?_⟩
  refine List.Pairwise.filterMap _ ?_ (db.tasks.distinct.sublist List.filter_sublist)
  rintro a a' other ⟨b, bs⟩ hb ⟨c, cs⟩ hc
  obtain ⟨_, _, same⟩ := Option.map_eq_some_iff.mp hb
  obtain ⟨_, _, same'⟩ := Option.map_eq_some_iff.mp hc
  cases same
  cases same'
  exact other

theorem lost_apart {rows : List (TaskRow × JobStatus)} (distinct : rows.Pairwise fun a b => a.1.id ≠ b.1.id)
    (error : String) (now : Time) :
    rows.Pairwise fun a b => ∀ db : Db, db.tasks.get a.1.id = some a.1 →
      db.tasks.get b.1.id = some b.1 →
      (db.resolveTurn error now a).tasks.get b.1.id = some b.1 :=
  distinct.imp fun other _ here there =>
    ((resolveTurn_touched here error now).others _ (Ne.symm other)).trans there

theorem reapRows_ok {rows : List (TaskRow × JobStatus)} (lost : s.live.Lost rows) (error : String) :
    reapRows io error rows s = (.ok (rows.map fun row => (row.1.id, row.1.jobId)),
      if rows = [] then s else .settled (rows.foldl (Db.resolveTurn error io.now) s.live)) := by
  have loop := Txn.forRows_fold (resolveLostTask io error)
    (Db.resolveTurn error io.now) (fun row => (row.1.id, row.1.jobId))
    (fun row db => db.tasks.get row.1.id = some row.1)
    (fun row member s ready => resolveLostTask_ok ready (lost.inFlight row member) error row.2)
    (lost_apart lost.apart error io.now) s lost.found
  rw [reapRows, Txn.bind_ok loop]
  cases rows with
  | nil => rfl
  | cons row rest => rfl

/-- Both reapers run the same loop over rows that are lost. -/
theorem reapExpiredLeases_rows (io : Io) (s : Session Db) :
    ∃ rows, s.live.Lost rows ∧ reapExpiredLeases io s = reapRows io "lease expired" rows s :=
  ⟨_, joinJobs_lost s.live _ fun _ expired => (Bool.and_eq_true_iff.mp expired).1, rfl⟩

theorem reapTasksForWorkers_rows (io : Io) (s : Session Db) (workerIds : List WorkerId) (error : String) :
    ∃ rows, s.live.Lost rows ∧ reapTasksForWorkers io workerIds error s = reapRows io error rows s := by
  unfold reapTasksForWorkers
  split
  · have empty : s.live.Lost [] := ⟨by simp, by simp, by simp, .nil⟩
    exact ⟨[], empty, (reapRows_ok empty error).symm⟩
  · exact ⟨_, joinJobs_lost s.live (fun r => r.workerId.any (fun w => workerIds.contains w) &&
      r.status.inFlight) fun _ chosen => (Bool.and_eq_true_iff.mp chosen).2, rfl⟩

theorem cancelJobTask_ok {row : TaskRow} (found : s.live.tasks.get row.id = some row) :
    cancelJobTask io row s = (.ok (if row.status = .running then some row.id else none),
      { s with live := s.live.cancelTurn io.now row }) := by
  simp only [cancelJobTask, Db.cancelTurn]
  have ran (legal : taskCanTransition row.status .cancelled = true) :=
    setTaskStatus_ok io .cancelled { workerId := some none, leaseExpiresAt := some none }
      found legal
  cases status : row.status with
  | queued | leased =>
    dsimp only
    rw [Txn.bind_ok (ran (by rw [status]; rfl))]
    simp [Txn.bind_run, Db.syncOwner_eq]
  | running | succeeded | failed | lost | cancelled => simp

theorem cancelled_apart (db : Db) (jobId : JobId) (now : Time) :
    (db.tasks.rows.filter fun r => r.jobId = jobId).Pairwise fun a b => ∀ db : Db,
      db.tasks.get a.id = some a → db.tasks.get b.id = some b →
      (db.cancelTurn now a).tasks.get b.id = some b :=
  (db.tasks.distinct.sublist List.filter_sublist).imp fun other _ here there =>
    ((cancelTurn_touched here now).others _ (Ne.symm other)).trans there

theorem cancelJobTasks_ok (jobId : JobId) :
    cancelJobTasks io jobId s = (.ok (s.live.stillRunning jobId),
      .settled ((s.live.tasks.rows.filter fun r => r.jobId = jobId).foldl
        (Db.cancelTurn io.now) s.live)) := by
  have found : ∀ r ∈ s.live.tasks.rows.filter fun r => r.jobId = jobId,
      s.live.tasks.get r.id = some r :=
    fun r member => Table.get_of_mem (List.mem_filter.mp member).1
  have loop := Txn.forRows_fold (cancelJobTask io) (Db.cancelTurn io.now)
    (fun r => if r.status = .running then some r.id else none)
    (fun r db => db.tasks.get r.id = some r)
    (fun r _ s ready => cancelJobTask_ok ready) (cancelled_apart s.live jobId io.now) s found
  simp only [cancelJobTasks, Txn.bind_run, Txn.live_run, loop, Txn.commit_run, Txn.pure_run,
    Db.stillRunning, List.filterMap_map, Function.id_comp]

/-- After the loop every task of the job is as its turn left it, every other as before. -/
theorem cancelJobTasks_get (db : Db) (jobId : JobId) (now : Time) (taskId : TaskId) :
    ((db.tasks.rows.filter fun r => r.jobId = jobId).foldl (Db.cancelTurn now) db).tasks.get taskId =
      (db.tasks.get taskId).map fun r => if r.jobId = jobId then r.cancelled now else r := by
  obtain ⟨inside, outside⟩ := Table.foldl_touched Db.tasks (Db.cancelTurn now) id (fun r => r.cancelled now)
    (db.tasks.rows.filter fun r => r.jobId = jobId) db
    (fun r _ _ found => cancelTurn_touched found now)
    (db.tasks.distinct.sublist List.filter_sublist)
    (fun r member => Table.get_of_mem (List.mem_filter.mp member).1)
  cases found : db.tasks.get taskId with
  | none =>
    rw [outside taskId fun r member => Table.get_eq_none.mp found r (List.mem_filter.mp member).1]
    exact found
  | some r =>
    obtain ⟨member, rfl⟩ := Table.get_eq_some.mp found
    by_cases same : r.jobId = jobId
    · rw [Option.map_some, if_pos same]
      exact inside r (List.mem_filter.mpr ⟨member, by simpa using same⟩)
    · rw [Option.map_some, if_neg same, outside _ fun q chosen equal => ?_]
      · exact found
      · have := List.inj_on_of_nodup_map db.tasks.unique (List.mem_filter.mp chosen).1 member equal
        subst this
        exact same (by simpa using (List.mem_filter.mp chosen).2)

/-- After a reaper's loop its rows are resolved and every other row is as before. -/
theorem reapRows_get {db : Db} {rows : List (TaskRow × JobStatus)} (lost : db.Lost rows)
    (error : String) (now : Time) :
    (∀ row ∈ rows, (rows.foldl (Db.resolveTurn error now) db).tasks.get row.1.id =
      some (row.1.resolve error row.2 now)) ∧
    ∀ taskId, (∀ row ∈ rows, row.1.id ≠ taskId) →
      (rows.foldl (Db.resolveTurn error now) db).tasks.get taskId = db.tasks.get taskId :=
  Table.foldl_touched Db.tasks _ Prod.fst
    (fun row : TaskRow × JobStatus => row.1.resolve error row.2 now) rows db
    (fun _ _ _ found => resolveTurn_touched found error now) lost.apart lost.found

theorem firstMatch_mem {worker : WorkerRow} {tasks : List TaskRow} {task : TaskRow}
    (matched : firstMatch P worker tasks = .ok (some task)) : task ∈ tasks := by
  induction tasks with
  | nil => simp [firstMatch] at matched
  | cons first rest ih =>
    simp only [firstMatch, bind, Except.bind] at matched
    split at matched
    · contradiction
    · split at matched
      · cases matched
        exact List.mem_cons_self
      · exact List.mem_cons_of_mem _ (ih matched)

theorem mem_candidates {db : Db} {task : TaskRow} :
    task ∈ db.candidates ↔ db.tasks.get task.id = some task ∧ task.status = .queued := by
  simp only [Db.candidates, List.mem_insertionSort, List.mem_filter, decide_eq_true_eq,
    Table.get_eq_some]
  exact and_congr_left fun _ => ⟨fun member => ⟨member, rfl⟩, fun both => both.1⟩

namespace PayloadJson
variable (payload : PayloadJson)

theorem scheduler_item : itemOr payload.json "scheduler" =
    (JsonCodec.nullable schedulerContract).dump payload.scheduler := by
  obtain ⟨_, _, _, _, _, _ | _, _ | _, _ | _⟩ := payload <;>
    simp [itemOr, json, List.lookup_cons, JsonCodec.nullable]

theorem submission_item : itemOr payload.json "submission" =
    (JsonCodec.nullable submissionMetadata).dump payload.submission := by
  obtain ⟨_, _, _, _, _, _ | _, _ | _, _ | _⟩ := payload <;>
    simp [itemOr, json, List.lookup_cons, JsonCodec.nullable]

/-- A dumped payload has its `manifest`, so it is no falsy dictionary. -/
theorem native_item : nativeItem payload.json =
    (JsonCodec.nullable launchPayload).dump payload.nativePayload := by
  have named : itemOr payload.json "native_payload" =
      (JsonCodec.nullable launchPayload).dump payload.nativePayload := by
    obtain ⟨_, _, _, _, _, _ | _, _ | _, _ | _⟩ := payload <;>
      simp [itemOr, json, List.lookup_cons, JsonCodec.nullable]
  have aliased : itemOr payload.json "nativePayload" = .null := by
    obtain ⟨_, _, _, _, _, _ | _, _ | _, _ | _⟩ := payload <;>
      simp [itemOr, json, List.lookup_cons]
  rw [nativeItem, named, aliased]
  cases payload.nativePayload with
  | none => rfl
  | some native => exact if_pos rfl

end PayloadJson

/-- The payload a leased row stands for. -/
def TaskRow.payloadAt (row : TaskRow) (expires : Time) : TaskPayload where
  taskId := row.id
  jobId := row.jobId
  type := row.payload.type
  attempt := row.attempt
  pipeline := row.payload.pipeline
  dataset := row.payload.dataset
  params := row.payload.params
  outputs := row.payload.outputs
  scheduler := row.payload.scheduler
  submission := row.payload.submission
  assignment := none
  nativePayload := row.payload.nativePayload
  leaseExpiresAt := expires

/-- A row under lease is decoded to what was encoded in it. -/
theorem payloadFromRow_eq (row : TaskRow) : payloadFromRow row =
    match row.leaseExpiresAt with
    | none => invalid "float_type"
    | some expires => .ok (row.payloadAt expires) := by
  have type : item row.payload.json "type" = .ok (JsonCodec.string.dump row.payload.type) := rfl
  have pipeline : item row.payload.json "pipeline" = .ok (pipelineRef.dump row.payload.pipeline) := rfl
  have dataset : item row.payload.json "dataset" = .ok (datasetRef.dump row.payload.dataset) := rfl
  have outputs : itemOr row.payload.json "outputs" (.obj []) = outputsModel.dump row.payload.outputs := rfl
  have params : itemOr row.payload.json "params" (.obj []) = JsonCodec.dict.dump row.payload.params := rfl
  unfold payloadFromRow
  simp only [type, pipeline, dataset, outputs, params, row.payload.scheduler_item,
    row.payload.submission_item, row.payload.native_item, Wire.Codec.exact, bind, Except.bind]
  rfl

/-- No lease is committed whose payload cannot be read. -/
theorem lease_payload (task : TaskRow) (w : WorkerId) (ttl now : Time) :
    payloadFromRow (task.lease w ttl now) = .ok ((task.lease w ttl now).payloadAt (now + ttl)) :=
  payloadFromRow_eq _

theorem payload_fields {row : TaskRow} {payload : TaskPayload}
    (read : payloadFromRow row = .ok payload) :
    payload.taskId = row.id ∧ payload.jobId = row.jobId ∧ payload.attempt = row.attempt := by
  rw [payloadFromRow_eq] at read
  cases expires : row.leaseExpiresAt with
  | none =>
    rw [expires] at read
    contradiction
  | some time =>
    rw [expires] at read
    cases read
    exact ⟨rfl, rfl, rfl⟩

/-- Rows from which a lease is given: an alive worker with a free slot, a queued task. -/
structure Db.Leasable (db : Db) (w : WorkerId) (worker : WorkerRow) (task : TaskRow) : Prop where
  registered : db.workers.get w = some worker
  alive : worker.status = .alive
  free : db.inFlightCount w < worker.slotsTotal
  present : db.tasks.get task.id = some task
  queued : task.status = .queued

theorem lease_touched {db : Db} {w : WorkerId} {worker : WorkerRow} {task : TaskRow}
    (leasable : db.Leasable w worker task) (ttl now : Time) :
    db.tasks.Touched (db.lease task w ttl now).tasks task.id task (task.lease w ttl now) :=
  (setTask_wrote leasable.present _ _ now).touched

/-- `lease_next_task` by what it finds: the worker, a free slot and a candidate that matches. -/
theorem leaseNextTask_eq (io : Io) (s : Session Db) (w : WorkerId) (ttl : Time) :
    leaseNextTask P io w ttl s =
      match s.live.workers.get w with
      | none => (.ok none, s)
      | some worker =>
        if worker.status = .alive ∧ s.live.inFlightCount w < worker.slotsTotal then
          match firstMatch P worker s.live.candidates with
          | .error error => (.error error, s)
          | .ok none => (.ok none, s)
          | .ok (some task) => (.ok (some ((task.lease w ttl io.now).payloadAt (io.now + ttl))),
              .settled (s.live.lease task w ttl io.now))
        else (.ok none, s) := by
  simp only [leaseNextTask, Txn.bind_run, Txn.live_run]
  cases worker : s.live.workers.get w with
  | none => rfl
  | some row =>
    by_cases alive : row.status = .alive
    · by_cases full : row.slotsTotal ≤ s.live.inFlightCount w
      · simp only [alive, full, Nat.not_lt.mpr full, and_false, if_true, if_false]
        rfl
      · simp only [alive, full, Nat.not_le.mp full, and_self, if_true, if_false]
        cases matched : firstMatch P row s.live.candidates with
        | error error => rfl
        | ok found =>
          cases found with
          | none => rfl
          | some task =>
            obtain ⟨present, queued⟩ := mem_candidates.mp (firstMatch_mem matched)
            have ran := setTaskStatus_ok io .leased
              { workerId := some (some w), leaseExpiresAt := some (some (io.now + ttl)),
                attempt := some (task.attempt + 1) }
              present (by rw [queued]; rfl)
            simp only [Txn.bind_run, Txn.ofExcept_run, ran, Txn.modify_run, Txn.commit_run]
            exact Txn.bind_ok (congrArg (·, _) (lease_payload task w ttl io.now)) _
    · simp only [alive, false_and, if_false]
      rfl

theorem leaseNextTask_cases (io : Io) (s : Session Db) (w : WorkerId) (ttl : Time) :
    (∃ worker task payload, s.live.Leasable w worker task ∧
      payloadFromRow (task.lease w ttl io.now) = .ok payload ∧
      leaseNextTask P io w ttl s = (.ok (some payload),
        .settled (s.live.lease task w ttl io.now))) ∨
    leaseNextTask P io w ttl s = (.ok none, s) ∨
    ∃ error, leaseNextTask P io w ttl s = (.error error, s) := by
  rw [leaseNextTask_eq]
  cases registered : s.live.workers.get w with
  | none => exact .inr (.inl rfl)
  | some worker =>
    dsimp only
    split
    · rename_i able
      cases matched : firstMatch P worker s.live.candidates with
      | error error => exact .inr (.inr ⟨error, rfl⟩)
      | ok found =>
        cases found with
        | none => exact .inr (.inl rfl)
        | some task =>
          obtain ⟨present, queued⟩ := mem_candidates.mp (firstMatch_mem matched)
          exact .inl ⟨worker, task, _, ⟨registered, able.1, able.2, present, queued⟩,
            lease_payload task w ttl io.now, rfl⟩
    · exact .inr (.inl rfl)

/-- A lease hands out the first candidate that the worker matches. -/
theorem leaseNextTask_selected {io : Io} {s : Session Db} {w : WorkerId} {ttl : Time}
    {payload : TaskPayload} (ran : (leaseNextTask P io w ttl s).1 = .ok (some payload)) :
    ∃ worker task, s.live.workers.get w = some worker ∧
      firstMatch P worker s.live.candidates = .ok (some task) ∧ payload.taskId = task.id := by
  rw [leaseNextTask_eq] at ran
  cases registered : s.live.workers.get w with
  | none =>
    rw [registered] at ran
    cases ran
  | some worker =>
    simp only [registered] at ran
    split at ran
    · cases matched : firstMatch P worker s.live.candidates with
      | error error =>
        rw [matched] at ran
        cases ran
      | ok found =>
        cases found with
        | none =>
          rw [matched] at ran
          cases ran
        | some task =>
          rw [matched] at ran
          cases ran
          exact ⟨worker, task, rfl, matched, rfl⟩
    · cases ran

theorem setJobStatus_cases (io : Io) (s : Session Db) (jobId : JobId) (status : JobStatus) (error : Option String) :
    (∃ row, s.live.jobs.get jobId = some row ∧ jobCanTransition row.status status = true ∧
      setJobStatus io jobId status error s =
        (.ok (), .settled (s.live.moveJob jobId status error io.now))) ∨
    ∃ raised, setJobStatus io jobId status error s = (.error raised, s) ∧
      ∀ row, s.live.jobs.get jobId = some row → jobCanTransition row.status status = false := by
  simp only [setJobStatus, Txn.bind_run, Txn.live_run]
  cases found : s.live.jobs.get jobId with
  | none => exact .inr ⟨_, rfl, fun row absent => by cases absent⟩
  | some row =>
    cases legal : jobCanTransition row.status status with
    | true => exact .inl ⟨row, rfl, legal, by simp [validateJobTransition, legal, Txn.bind_run]; rfl⟩
    | false =>
      exact .inr ⟨_, by simp [validateJobTransition, legal, Txn.bind_run]; rfl,
        fun other same => by cases same; exact legal⟩

theorem trySetJobStatus_cases (io : Io) (s : Session Db) (jobId : JobId) (new : JobStatus) :
    (∃ row, s.live.jobs.get jobId = some row ∧ jobCanTransition row.status new = true ∧
      trySetJobStatus io jobId new s =
        (.ok true, .settled (s.live.moveJob jobId new none io.now))) ∨
    trySetJobStatus io jobId new s = (.ok false, s) ∧
      ∀ row, s.live.jobs.get jobId = some row → jobCanTransition row.status new = false := by
  simp only [trySetJobStatus, Txn.bind_run, Txn.live_run]
  cases found : s.live.jobs.get jobId with
  | none => exact .inr ⟨rfl, fun row absent => by cases absent⟩
  | some row =>
    cases legal : jobCanTransition row.status new with
    | true => exact .inl ⟨row, rfl, legal, by simp [legal, Txn.bind_run]; rfl⟩
    | false => exact .inr ⟨by simp [legal], fun other same => by cases same; exact legal⟩

theorem setJobResult_cases (io : Io) (s : Session Db) (jobId : JobId) (agg : JobAggregate) :
    (P.dumpsAggregate agg = true ∧ setJobResult P io jobId agg s =
      (.ok (), .settled (s.live.putResult jobId agg io.now))) ∨
    P.dumpsAggregate agg = false ∧
      ∃ raised, setJobResult P io jobId agg s = (.error raised, s) := by
  cases dumps : P.dumpsAggregate agg with
  | true => exact .inl ⟨rfl, by simp [setJobResult, dumps, Txn.bind_run]; rfl⟩
  | false => exact .inr ⟨rfl, _, by simp [setJobResult, dumps]; rfl⟩

theorem insertJob_cases (io : Io) (s : Session Db) (req : JobRequest) (jobId : JobId) (owner : Option String) :
    (∃ jobs, P.dumpError req = none ∧ fitsInteger req.priority = true ∧
      s.live.keyTaken req.idempotencyKey = false ∧
      s.live.jobs.insert (jobRowOf io req jobId owner) = some jobs ∧
      insertJob P io req jobId owner s = (.ok (), { s with live := { s.live with jobs := jobs } })) ∨
    (s.live.keyTaken req.idempotencyKey = true ∧
      insertJob P io req jobId owner s = (.error .integrityError, s)) ∨
    (∃ row, s.live.jobs.get jobId = some row ∧
      insertJob P io req jobId owner s = (.error .integrityError, s)) ∨
    (P.dumpError req ≠ none ∨ fitsInteger req.priority = false) ∧
      ∃ raised, insertJob P io req jobId owner s = (.error raised, s) := by
  cases dump : P.dumpError req with
  | some error =>
    exact .inr (.inr (.inr ⟨.inl (by simp), error, by simp [insertJob, dump]⟩))
  | none =>
    cases fits : fitsInteger req.priority with
    | false =>
      exact .inr (.inr (.inr ⟨.inr rfl, .overflowError, by simp [insertJob, dump, fits]⟩))
    | true =>
      cases taken : s.live.keyTaken req.idempotencyKey with
      | true =>
        exact .inr (.inl ⟨rfl, by simp [insertJob, dump, fits, Txn.bind_run, taken]⟩)
      | false =>
        cases inserted : s.live.jobs.insert (jobRowOf io req jobId owner) with
        | some jobs =>
          exact .inl ⟨jobs, rfl, rfl, rfl, rfl,
            by simp [insertJob, dump, fits, Txn.bind_run, taken, inserted]⟩
        | none =>
          cases held : s.live.jobs.get jobId with
          | some row =>
            exact .inr (.inr (.inl ⟨row, rfl,
              by simp [insertJob, dump, fits, Txn.bind_run, taken, inserted]⟩))
          | none =>
            obtain ⟨jobs, fresh⟩ := Table.insert_of_fresh (r := jobRowOf io req jobId owner) held
            exact False.elim (by simp [inserted] at fresh)

theorem insertTask_cases (row : TaskRow) :
    (∃ tasks, (s.live.jobs.get row.jobId).isSome = true ∧ s.live.tasks.insert row = some tasks ∧
      insertTask row s = (.ok (), { s with live := { s.live with tasks := tasks } })) ∨
    ∃ raised, insertTask row s = (.error raised, s) := by
  simp only [insertTask]
  split
  · simp only [Txn.bind_run, Txn.live_run]
    cases s.live.jobs.get row.jobId with
    | none => exact .inr ⟨_, rfl⟩
    | some job =>
      cases s.live.tasks.insert row with
      | none => exact .inr ⟨_, rfl⟩
      | some tasks => exact .inl ⟨tasks, rfl, rfl, rfl⟩
  · exact .inr ⟨_, rfl⟩

/-- The rows `_insert_tasks` inserts. -/
def newTasks (io : Io) (req : JobRequest) (jobId : JobId) :
    List (PipelineRef × DatasetRef) → Nat → List TaskRow
  | [], _ => []
  | pair :: rest, n =>
    taskRowOf io req jobId (genId "task" (io.uuid n)) pair :: newTasks io req jobId rest (n + 1)

/-- The identifiers a call draws for its tasks are distinct and not in use. -/
def Db.FreshTasks (db : Db) (io : Io) (n count : Nat) : Prop :=
  (∀ i < count, db.tasks.get (genId "task" (io.uuid (n + i))) = none) ∧
  ∀ i < count, ∀ j < i, genId "task" (io.uuid (n + j)) ≠ genId "task" (io.uuid (n + i))

theorem insertTasks_ok (req : JobRequest) {jobId : JobId} (fits : fitsInteger req.priority = true)
    (pairs : List (PipelineRef × DatasetRef)) (n : Nat) (s : Session Db)
    (job : (s.live.jobs.get jobId).isSome = true) (fresh : s.live.FreshTasks io n pairs.length) :
    ∃ tasks, tasks.rows = s.live.tasks.rows ++ newTasks io req jobId pairs n ∧
      insertTasks io jobId req pairs n s = (.ok ((newTasks io req jobId pairs n).map TaskRow.id),
        { s with live := { s.live with tasks := tasks } }) := by
  induction pairs generalizing n s with
  | nil => exact ⟨s.live.tasks, by simp [newTasks], rfl⟩
  | cons pair rest ih =>
    have absent := fresh.1 0 (by simp)
    obtain ⟨tasks, inserted⟩ := Table.insert_of_fresh (t := s.live.tasks)
      (r := taskRowOf io req jobId (genId "task" (io.uuid n)) pair) absent
    have first : insertTask (taskRowOf io req jobId (genId "task" (io.uuid n)) pair) s =
        (.ok (), { s with live := { s.live with tasks := tasks } }) := by
      obtain ⟨j, found⟩ := Option.isSome_iff_exists.mp job
      have here : s.live.jobs.get (taskRowOf io req jobId (genId "task" (io.uuid n)) pair).jobId =
        some j := found
      have fits' : fitsInteger (taskRowOf io req jobId (genId "task" (io.uuid n)) pair).priority =
        true := fits
      simp only [insertTask, fits', if_true, Txn.bind_run, Txn.live_run, here, inserted, Txn.write_run]
    obtain ⟨final, rows, ran⟩ := ih (n + 1) { s with live := { s.live with tasks := tasks } } job
      ⟨fun i bound => by
        rw [Table.get_insert inserted, if_neg]
        · have := fresh.1 (i + 1) (by simpa using bound)
          rwa [show n + 1 + i = n + (i + 1) by omega]
        · have := fresh.2 (i + 1) (by simpa using bound) 0 (by omega)
          rw [show n + 1 + i = n + (i + 1) by omega]
          exact Ne.symm this,
      fun i bound j less => by
        have := fresh.2 (i + 1) (by simpa using bound) (j + 1) (by omega)
        rwa [show n + 1 + i = n + (i + 1) by omega, show n + 1 + j = n + (j + 1) by omega]⟩
    refine ⟨final, ?_, ?_⟩
    · rw [rows, Table.rows_insert inserted]
      simp [newTasks]
    · simp only [insertTasks, Txn.bind_ok first, Txn.bind_ok ran, Txn.pure_run]
      rfl

end Methods
end N4Cluster
