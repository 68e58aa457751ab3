import N4Cluster.Base.Table
import N4Cluster.Base.Session
import N4Cluster.Server.Scheduler
import N4Cluster.Wire.Models
import Mathlib.Data.List.Sort

/-! The store and the methods of `Database`. Each method holds the lock from its
first statement to its last, so it is one transaction script on the connection;
`Io` is what a call draws from outside: the clock, fresh identifiers, and the
order of a listing that names none. -/
namespace N4Cluster
open Relational Transactional

structure JobRow where
  id : JobId
  type : String
  name : Option String
  status : JobStatus
  priority : Int
  createdAt : Time
  updatedAt : Time
  owner : Option String
  request : JobRequest
  result : Option JobAggregate := none
  error : Option String := none
  idempotencyKey : Option String

/-- The dictionary stored as `payload_json`. -/
structure PayloadJson where
  type : String
  pipeline : PipelineRef
  dataset : DatasetRef
  params : Dict
  outputs : Outputs
  scheduler : Option DagSchedulerContract
  submission : Option JobSubmissionMetadata
  nativePayload : Option NativeExperimentLaunchPayload

/-- The dictionary `_insert_tasks` builds; `json.dumps` and `json.loads` keep it, floats
included. -/
def PayloadJson.json (payload : PayloadJson) : Dict :=
  [("type", .str payload.type), ("pipeline", pipelineRef.dump payload.pipeline),
    ("dataset", datasetRef.dump payload.dataset), ("params", .obj payload.params),
    ("outputs", outputsModel.dump payload.outputs)] ++
  (payload.scheduler.map fun scheduler => ("scheduler", schedulerContract.dump scheduler)).toList ++
  (payload.submission.map fun submission => ("submission", submissionMetadata.dump submission)).toList ++
  (payload.nativePayload.map fun native => ("native_payload", launchPayload.dump native)).toList

structure TaskRow where
  id : TaskId
  jobId : JobId
  status : TaskStatus
  attempt : Nat
  maxAttempts : Nat
  workerId : Option WorkerId := none
  leaseExpiresAt : Option Time := none
  priority : Int
  createdAt : Time
  updatedAt : Time
  startedAt : Option Time := none
  datasetLabel : Option String
  pipelineLabel : Option String
  requirements : Requirements
  payload : PayloadJson
  result : Option TaskResult := none
  error : Option String := none

structure WorkerRow where
  id : WorkerId
  name : Option String
  principal : Option String
  status : WorkerStatus
  createdAt : Time
  lastSeenAt : Time
  labels : List (String × String)
  capabilities : Dict
  slotsTotal : Nat
  slotsUsed : Nat
  version : Dict

structure ArtifactRow where
  id : ArtifactId
  sha256 : String
  kind : String
  path : String
  sizeBytes : Nat
  filename : Option String
  createdAt : Time

structure JobArtifactRow where
  jobId : JobId
  taskId : TaskId
  role : String
  artifactId : ArtifactId

structure EventRow where
  id : Nat
  jobId : Option JobId
  taskId : Option TaskId
  workerId : Option WorkerId
  ts : Time
  level : EventLevel
  type : String
  message : String

instance : Keyed JobRow JobId := ⟨JobRow.id⟩
instance : Keyed TaskRow TaskId := ⟨TaskRow.id⟩
instance : Keyed WorkerRow WorkerId := ⟨WorkerRow.id⟩
instance : Keyed ArtifactRow ArtifactId := ⟨ArtifactRow.id⟩
instance : Keyed JobArtifactRow (JobId × TaskId × String) := ⟨fun r => (r.jobId, r.taskId, r.role)⟩

structure Db where
  jobs : Table JobRow := .empty
  tasks : Table TaskRow := .empty
  workers : Table WorkerRow := .empty
  artifacts : Table ArtifactRow := .empty
  jobArtifacts : Table JobArtifactRow := .empty
  events : List EventRow := []

abbrev Sql := Txn Db PyErr

/-- One row of `list_job_artifacts`. -/
structure LinkedArtifact where
  role : String
  taskId : TaskId
  artifact : ArtifactRow

theorem listed_alike (rows : List LinkedArtifact) : (id rows).Perm rows := .refl _

structure Io where
  now : Time
  uuid : Nat → String := fun n => toString n
  listing : List LinkedArtifact → List LinkedArtifact := id
  lists : ∀ rows, (listing rows).Perm rows := by exact listed_alike

def genId (pfx suffix : String) : String := pfx ++ "_" ++ suffix

/-- What the SQLite driver can bind as an INTEGER. -/
def fitsInteger (n : Int) : Bool := -9223372036854775808 ≤ n && n ≤ 9223372036854775807

/-! ## Jobs -/

def findJobByIdempotency (key : String) : Sql (Option JobRow) := do
  return (← Txn.live).jobs.rows.find? fun r => r.idempotencyKey == some key

/-- The partial unique index `idx_jobs_idem`. -/
def Db.keyTaken (db : Db) (key : Option String) : Bool :=
  match key with
  | none => false
  | some text => db.jobs.rows.any fun r => r.idempotencyKey == some text

def jobRowOf (io : Io) (req : JobRequest) (jobId : JobId) (owner : Option String) : JobRow where
  id := jobId
  type := jobType
  name := req.name
  status := .queued
  priority := req.priority
  createdAt := io.now
  updatedAt := io.now
  owner := owner
  request := req
  idempotencyKey := req.idempotencyKey

def insertJob (P : Platform) (io : Io) (req : JobRequest) (jobId : JobId)
    (owner : Option String) : Sql Unit := do
  match P.dumpError req with
  | some error => Txn.raise error
  | none =>
    if fitsInteger req.priority then
      let db ← Txn.live
      if db.keyTaken req.idempotencyKey then Txn.raise .integrityError
      else
        match db.jobs.insert (jobRowOf io req jobId owner) with
        | none => Txn.raise .integrityError
        | some jobs => Txn.write { db with jobs := jobs }
    else Txn.raise .overflowError

/-- The last path component without its suffix, as `Path(path).stem` gives it. -/
def pathStem (path : String) : String :=
  let parts := (path.splitOn "/").filter fun p => p != "" && p != "."
  match parts.getLast? with
  | none => ""
  | some name =>
    match name.splitOn "." with
    | [] | [_] => name
    | first :: rest =>
      -- a leading or a trailing dot starts no suffix
      if rest.getLast? = some "" then name
      else if first = "" && rest.length = 1 then name
      else ".".intercalate ((first :: rest).dropLast)

def pipelineLabel (pipeline : PipelineRef) : String :=
  if pipeline.kind = .path && truthy pipeline.path then pathStem (pipeline.path.getD "")
  else if pipeline.kind = .pythonEntrypoint && truthy pipeline.entrypoint then
    pipeline.entrypoint.getD ""
  else pipeline.kind.value

/-- `model_dump_json` writes a non-finite float as `null`, read back as `None`. -/
def Requirements.stored (reqs : Requirements) : Requirements :=
  { reqs with minMemoryGb := reqs.minMemoryGb.filter PyFloat.isFinite }

def taskRowOf (io : Io) (req : JobRequest) (jobId : JobId) (taskId : TaskId)
    (pair : PipelineRef × DatasetRef) : TaskRow where
  id := taskId
  jobId := jobId
  status := .queued
  attempt := 0
  maxAttempts := req.retry.maxAttempts
  priority := req.priority
  createdAt := io.now
  updatedAt := io.now
  datasetLabel := some pair.2.label
  pipelineLabel := some (pipelineLabel pair.1)
  requirements := req.requirements.stored
  payload :=
    { type := jobType, pipeline := pair.1, dataset := pair.2, params := req.params,
      outputs := req.outputs, scheduler := req.scheduler, submission := req.submission,
      nativePayload := req.nativePayload }

/-- The nested loop's pairs, pipelines outermost. -/
def JobRequest.pairs (req : JobRequest) : List (PipelineRef × DatasetRef) :=
  req.pipelineList.flatMap fun pipeline => req.datasetList.map fun dataset => (pipeline, dataset)

def insertTask (row : TaskRow) : Sql Unit := do
  if fitsInteger row.priority then
    let db ← Txn.live
    match db.jobs.get row.jobId, db.tasks.insert row with
    | some _, some tasks => Txn.write { db with tasks := tasks }
    | _, _ => Txn.raise .integrityError
  else Txn.raise .overflowError

/-- `_insert_tasks` from the `n`-th identifier on. -/
def insertTasks (io : Io) (jobId : JobId) (req : JobRequest) :
    List (PipelineRef × DatasetRef) → Nat → Sql (List TaskId)
  | [], _ => return []
  | pair :: rest, n => do
    let taskId := genId "task" (io.uuid n)
    insertTask (taskRowOf io req jobId taskId pair)
    let ids ← insertTasks io jobId req rest (n + 1)
    return taskId :: ids

def createJob (P : Platform) (io : Io) (req : JobRequest) (owner : Option String) :
    Sql JobId := do
  let jobId := genId "job" (io.uuid 0)
  insertJob P io req jobId owner
  Txn.commit
  return jobId

def createTasksForJob (io : Io) (jobId : JobId) (req : JobRequest) : Sql (List TaskId) := do
  let ids ← insertTasks io jobId req req.pairs 0
  Txn.commit
  return ids

def createJobWithTasks (P : Platform) (io : Io) (req : JobRequest) (owner : Option String) :
    Sql (JobId × List TaskId) := do
  let jobId := genId "job" (io.uuid 0)
  insertJob P io req jobId owner
  let ids ← insertTasks io jobId req req.pairs 1
  Txn.commit
  return (jobId, ids)

def getJob (jobId : JobId) : Sql (Option JobRow) := do
  return (← Txn.live).jobs.get jobId

def setJobStatus (io : Io) (jobId : JobId) (status : JobStatus) (error : Option String := none) :
    Sql Unit := do
  let db ← Txn.live
  match db.jobs.get jobId with
  | none => Txn.raise (.keyError jobId)
  | some row =>
    Txn.ofExcept (validateJobTransition row.status status)
    Txn.write { db with jobs := db.jobs.update jobId fun r =>
      { r with status := status, error := error.or r.error, updatedAt := io.now } }
    Txn.commit

def trySetJobStatus (io : Io) (jobId : JobId) (new : JobStatus) : Sql Bool := do
  let db ← Txn.live
  match db.jobs.get jobId with
  | none => return false
  | some row =>
    if jobCanTransition row.status new then
      Txn.write { db with jobs := db.jobs.update jobId fun r =>
        { r with status := new, updatedAt := io.now } }
      Txn.commit
      return true
    else return false

/-- Whether `json.dumps` accepts a metric value. -/
def Platform.dumpsMetric (P : Platform) : MetricValue → Bool
  | .none | .number _ => true
  | .attribute name _ => ((P.metricAttr name).map MetricAttr.dumps).getD true

def Platform.dumpsAggregate (P : Platform) (agg : JobAggregate) : Bool :=
  P.dumpsMetric agg.bestMetric && agg.ranking.all fun entry => P.dumpsMetric entry.value

def setJobResult (P : Platform) (io : Io) (jobId : JobId) (result : JobAggregate) :
    Sql Unit := do
  if P.dumpsAggregate result then
    Txn.modify fun db => { db with jobs := db.jobs.update jobId fun r =>
      { r with result := some result, updatedAt := io.now } }
    Txn.commit
  else Txn.raise (.typeError "Object is not JSON serializable")

/-! ## Tasks -/

def getTask (taskId : TaskId) : Sql (Option TaskRow) := do
  return (← Txn.live).tasks.get taskId

def Db.tasksOf (db : Db) (jobId : JobId) : List TaskRow :=
  (db.tasks.rows.filter fun r => r.jobId = jobId).insertionSort fun a b => a.createdAt ≤ b.createdAt

def listTasksForJob (jobId : JobId) : Sql (List TaskRow) := do
  return (← Txn.live).tasksOf jobId

/-- The keyword columns of `_set_task_status`; an absent column is not written. -/
structure TaskFields where
  workerId : Option (Option WorkerId) := none
  leaseExpiresAt : Option (Option Time) := none
  attempt : Option Nat := none
  startedAt : Option Time := none
  result : Option TaskResult := none
  error : Option String := none

def TaskFields.set (fields : TaskFields) (status : TaskStatus) (now : Time) (r : TaskRow) : TaskRow :=
  { r with
    status := status
    updatedAt := now
    workerId := fields.workerId.getD r.workerId
    leaseExpiresAt := fields.leaseExpiresAt.getD r.leaseExpiresAt
    attempt := fields.attempt.getD r.attempt
    startedAt := fields.startedAt.or r.startedAt
    result := fields.result.or r.result
    error := fields.error.or r.error }

/-- `UPDATE tasks SET ... WHERE id = ?` with the columns `_set_task_status` names. -/
def Db.setTask (db : Db) (taskId : TaskId) (fields : TaskFields) (status : TaskStatus)
    (now : Time) : Db :=
  { db with tasks := db.tasks.update taskId (fields.set status now) }

/-- `_set_task_status`; the row read back is the row just written. -/
def setTaskStatus (io : Io) (taskId : TaskId) (new : TaskStatus) (fields : TaskFields := {}) :
    Sql TaskRow := do
  match (← Txn.live).tasks.get taskId with
  | none => Txn.raise (.keyError taskId)
  | some row =>
    Txn.ofExcept (validateTaskTransition row.status new)
    Txn.modify fun db => db.setTask taskId fields new io.now
    return fields.set new io.now row

/-- `_in_flight_count`. -/
def Db.inFlightCount (db : Db) (workerId : WorkerId) : Nat :=
  db.tasks.count fun r => r.workerId == some workerId && r.status.inFlight

/-- `_sync_slots`. -/
def Db.syncSlots (db : Db) (workerId : WorkerId) : Db :=
  { db with workers := db.workers.update workerId fun w =>
      { w with slotsUsed := db.inFlightCount workerId } }

/-- `if worker: self._sync_slots(worker)`. -/
def Db.syncOwner (db : Db) (owner : Option WorkerId) : Db :=
  match owner with
  | some workerId => if workerId = "" then db else db.syncSlots workerId
  | none => db

/-- `_maybe_job_running`. -/
def Db.maybeJobRunning (db : Db) (jobId : JobId) (now : Time) : Db :=
  { db with jobs := db.jobs.updateWhere (fun r => r.id = jobId && r.status = .queued) fun r =>
      { r with status := .running, updatedAt := now } }

def Db.jobInFlight (db : Db) (jobId : JobId) : Nat :=
  db.tasks.count fun r => r.jobId = jobId && r.status.inFlight

/-- `ORDER BY t.priority DESC, job_in_flight ASC, t.created_at ASC, t.id ASC`. -/
def Db.leasesBefore (db : Db) (a b : TaskRow) : Bool :=
  b.priority < a.priority || (a.priority = b.priority &&
    (db.jobInFlight a.jobId < db.jobInFlight b.jobId ||
      (db.jobInFlight a.jobId = db.jobInFlight b.jobId &&
        (a.createdAt < b.createdAt || (a.createdAt = b.createdAt && a.id ≤ b.id)))))

def Db.candidates (db : Db) : List TaskRow :=
  (db.tasks.rows.filter fun r => r.status = .queued).insertionSort fun a b => db.leasesBefore a b

/-- `_worker_versions`. -/
def workerVersions (version : Dict) : List (String × String) :=
  let versions := match version.lookup "packages" with
    | some (.obj packages) => packages.filterMap fun
      | (name, .str text) => some (name, text)
      | _ => none
    | _ => []
  match version.lookup "python" with
  | some (.str text) =>
    if (versions.lookup "python").isSome then versions else versions ++ [("python", text)]
  | _ => versions

/-- The first candidate whose requirements the worker meets. -/
def firstMatch (P : Platform) (worker : WorkerRow) : List TaskRow → Except PyErr (Option TaskRow)
  | [] => .ok none
  | task :: rest => do
    if ← P.requirementsMatch task.requirements worker.labels worker.capabilities
        (workerVersions worker.version) then
      return some task
    else firstMatch P worker rest

/-- `payload[key]`. -/
def item (payload : Dict) (key : String) : Except PyErr Json :=
  match payload.lookup key with
  | some doc => .ok doc
  | none => .error (.keyError key)

/-- `payload.get(key, default)`. -/
def itemOr (payload : Dict) (key : String) (default : Json := .null) : Json :=
  (payload.lookup key).getD default

/-- `payload.get("native_payload") or payload.get("nativePayload")`. -/
def nativeItem (payload : Dict) : Json :=
  let native := itemOr payload "native_payload"
  if native.truthy then native else itemOr payload "nativePayload"

/-- `_payload_from_row`. -/
def payloadFromRow (row : TaskRow) : Except PyErr TaskPayload := do
  let payload := row.payload.json
  let type ← item payload "type"
  let pipeline ← pipelineRef.validate (← item payload "pipeline")
  let dataset ← datasetRef.validate (← item payload "dataset")
  let outputs ← outputsModel.validate (itemOr payload "outputs" (.obj []))
  let type ← JsonCodec.string.validate type
  let params ← JsonCodec.dict.validate (itemOr payload "params" (.obj []))
  let scheduler ← (JsonCodec.nullable schedulerContract schedulerContract_solid).validate
    (itemOr payload "scheduler")
  let submission ← (JsonCodec.nullable submissionMetadata submissionMetadata_solid).validate
    (itemOr payload "submission")
  let nativePayload ← (JsonCodec.nullable launchPayload launchPayload_solid).validate (nativeItem payload)
  match row.leaseExpiresAt with
  | none => invalid "float_type"
  | some expires =>
    return { taskId := row.id, jobId := row.jobId, type := type, attempt := row.attempt,
             pipeline := pipeline, dataset := dataset, params := params, outputs := outputs,
             scheduler := scheduler, submission := submission, assignment := none,
             nativePayload := nativePayload, leaseExpiresAt := expires }

def leaseNextTask (P : Platform) (io : Io) (workerId : WorkerId) (leaseTtlS : Time) :
    Sql (Option TaskPayload) := do
  let db ← Txn.live
  match db.workers.get workerId with
  | none => return none
  | some worker =>
    if worker.status = .alive then
      if worker.slotsTotal ≤ db.inFlightCount workerId then return none
      else
        match ← Txn.ofExcept (firstMatch P worker db.candidates) with
        | none => return none
        | some task =>
          let updated ← setTaskStatus io task.id .leased
            { workerId := some (some workerId), leaseExpiresAt := some (some (io.now + leaseTtlS)),
              attempt := some (task.attempt + 1) }
          Txn.modify fun db => (db.syncSlots workerId).maybeJobRunning updated.jobId io.now
          Txn.commit
          return some (← Txn.ofExcept (payloadFromRow updated))
    else return none

def startTask (io : Io) (taskId : TaskId) (workerId : WorkerId) : Sql TaskRow := do
  match (← Txn.live).tasks.get taskId with
  | none => Txn.raise (.keyError taskId)
  | some row =>
    if row.workerId = some workerId then
      let updated ← setTaskStatus io taskId .running { startedAt := some io.now }
      Txn.commit
      return updated
    else Txn.raise (.permissionError "task leased by another worker")

def completeTask (io : Io) (taskId : TaskId) (workerId : WorkerId) (result : TaskResult) :
    Sql TaskRow := do
  match (← Txn.live).tasks.get taskId with
  | none => Txn.raise (.keyError taskId)
  | some row =>
    if row.workerId = some workerId then
      let updated ← setTaskStatus io taskId .succeeded { result := some result }
      Txn.modify fun db => db.syncSlots workerId
      Txn.commit
      return updated
    else Txn.raise (.permissionError "task leased by another worker")

/-- `_set_task_status` with the error of a report, a text that the driver can refuse once
the transition is validated. -/
def setTaskFailed (P : Platform) (io : Io) (taskId : TaskId) (current : TaskStatus) (error : String) :
    Sql TaskRow :=
  match P.textError error with
  | none => setTaskStatus io taskId .failed { error := some error }
  | some message => do
    Txn.ofExcept (validateTaskTransition current .failed)
    Txn.raise (.valueError message)

def failTask (P : Platform) (io : Io) (taskId : TaskId) (workerId : Option WorkerId) (error : String)
    (retriable : Bool := true) : Sql TaskRow := do
  match (← Txn.live).tasks.get taskId with
  | none => Txn.raise (.keyError taskId)
  | some row =>
    if workerId.isSome && row.workerId != workerId then
      Txn.raise (.permissionError "stale failure report: task not owned by this worker")
    else
      let failed ← setTaskFailed P io taskId row.status error
      let updated ←
        if retriable && row.attempt < row.maxAttempts then
          setTaskStatus io taskId .queued
            { workerId := some none, leaseExpiresAt := some none, error := some error }
        else pure failed
      match workerId with
      | some worker => Txn.modify fun db => db.syncSlots worker
      | none => pure ()
      Txn.commit
      return updated

/-- `_resolve_lost_task`: through `lost` to the deterministic next state. -/
def resolveLostTask (io : Io) (error : String) (row : TaskRow × JobStatus) :
    Sql (TaskId × JobId) := do
  let _ ← setTaskStatus io row.1.id .lost { error := some error }
  let _ ←
    if row.2 = .cancelling || row.2 = .cancelled then
      setTaskStatus io row.1.id .cancelled { workerId := some none, leaseExpiresAt := some none }
    else if row.1.attempt < row.1.maxAttempts then
      setTaskStatus io row.1.id .queued { workerId := some none, leaseExpiresAt := some none }
    else setTaskStatus io row.1.id .failed { error := some (error ++ " (max attempts)") }
  Txn.modify fun db => db.syncOwner row.1.workerId
  return (row.1.id, row.1.jobId)

/-- Task rows joined with the status of their job. -/
def Db.joinJobs (db : Db) (rows : List TaskRow) : List (TaskRow × JobStatus) :=
  rows.filterMap fun r => (db.jobs.get r.jobId).map fun j => (r, j.status)

def TaskRow.expired (now : Time) (r : TaskRow) : Bool :=
  r.status.inFlight && r.leaseExpiresAt.any fun expires => expires < now

/-- Both reapers: resolve the selected rows and commit if there were any. -/
def reapRows (io : Io) (error : String) (rows : List (TaskRow × JobStatus)) :
    Sql (List (TaskId × JobId)) := do
  let affected ← Txn.forRows rows (resolveLostTask io error)
  if affected.isEmpty then pure () else Txn.commit
  return affected

def reapExpiredLeases (io : Io) : Sql (List (TaskId × JobId)) := do
  let db ← Txn.live
  reapRows io "lease expired" (db.joinJobs (db.tasks.rows.filter (TaskRow.expired io.now)))

def reapTasksForWorkers (io : Io) (workerIds : List WorkerId) (error : String := "worker lost") :
    Sql (List (TaskId × JobId)) := do
  if workerIds.isEmpty then return []
  else
    let db ← Txn.live
    reapRows io error (db.joinJobs (db.tasks.rows.filter fun r =>
      r.workerId.any (fun w => workerIds.contains w) && r.status.inFlight))

/-- One turn of the loop of `cancel_job_tasks`: the task, if it keeps running. -/
def cancelJobTask (io : Io) (row : TaskRow) : Sql (Option TaskId) := do
  match row.status with
  | .queued | .leased =>
    let _ ← setTaskStatus io row.id .cancelled { workerId := some none, leaseExpiresAt := some none }
    Txn.modify fun db => db.syncOwner row.workerId
    return none
  | .running => return some row.id
  | _ => return none

def cancelJobTasks (io : Io) (jobId : JobId) : Sql (List TaskId) := do
  let rows := (← Txn.live).tasks.rows.filter fun r => r.jobId = jobId
  let running ← Txn.forRows rows (cancelJobTask io)
  Txn.commit
  return running.filterMap id

def cancelRunningTask (io : Io) (taskId : TaskId) (workerId : WorkerId) :
    Sql (Option TaskRow) := do
  match (← Txn.live).tasks.get taskId with
  | none => return none
  | some row =>
    if row.workerId = some workerId then
      let updated ← setTaskStatus io taskId .cancelled
      Txn.modify fun db => db.syncSlots workerId
      Txn.commit
      return some updated
    else return none

def tasksForWorker (workerId : WorkerId) : Sql (List TaskId) := do
  return ((← Txn.live).tasks.rows.filter fun r =>
    r.workerId == some workerId && r.status.inFlight).map TaskRow.id

/-! ## Workers -/

def workerRowOf (io : Io) (reg : WorkerRegister) (principal : Option String) : WorkerRow where
  id := genId "worker" (io.uuid 0)
  name := reg.name
  principal := principal
  status := .alive
  createdAt := io.now
  lastSeenAt := io.now
  labels := reg.labels
  capabilities := reg.capabilities
  slotsTotal := reg.slotsTotal
  slotsUsed := 0
  version := reg.version

def registerWorker (io : Io) (reg : WorkerRegister) (principal : Option String) :
    Sql WorkerId := do
  let db ← Txn.live
  if fitsInteger reg.slotsTotal then
    match db.workers.insert (workerRowOf io reg principal) with
    | none => Txn.raise .integrityError
    | some workers =>
      Txn.write { db with workers := workers }
      Txn.commit
      return (workerRowOf io reg principal).id
  else Txn.raise .overflowError

/-- `UPDATE tasks SET lease_expires_at ... WHERE worker_id AND status IN (leased, running)`. -/
def Db.renewLeases (db : Db) (workerId : WorkerId) (expires : Time) : Db :=
  { db with
    tasks := db.tasks.updateWhere (fun r => r.workerId == some workerId && r.status.inFlight)
      fun r => { r with leaseExpiresAt := some expires } }

def heartbeatWorker (io : Io) (workerId : WorkerId) (leaseTtlS : Option Time) : Sql Bool := do
  let db ← Txn.live
  let found := (db.workers.get workerId).isSome
  Txn.write { db with workers := db.workers.update workerId fun w =>
    { w with lastSeenAt := io.now, status := .alive } }
  match found, leaseTtlS with
  | true, some ttl => Txn.modify fun db => db.renewLeases workerId (io.now + ttl)
  | _, _ => pure ()
  Txn.commit
  return found

def getWorker (workerId : WorkerId) : Sql (Option WorkerRow) := do
  return (← Txn.live).workers.get workerId

def markDeadWorkers (io : Io) (ttlS : Time) : Sql (List WorkerId) := do
  let db ← Txn.live
  let ids := (db.workers.rows.filter fun w =>
    w.status = .alive && w.lastSeenAt < io.now - ttlS).map WorkerRow.id
  if ids.isEmpty then return []
  else
    Txn.write { db with workers := db.workers.updateWhere (fun w => ids.contains w.id) fun w =>
      { w with status := .dead } }
    Txn.commit
    return ids

/-! ## Artifacts and events -/

structure NewArtifact where
  sha256 : String
  kind : String
  path : String
  sizeBytes : Nat
  filename : Option String := none

def addArtifact (io : Io) (a : NewArtifact) : Sql ArtifactId := do
  let db ← Txn.live
  let artifactId := genId "art" (io.uuid 0)
  match db.artifacts.insert
      ⟨artifactId, a.sha256, a.kind, a.path, a.sizeBytes, a.filename, io.now⟩ with
  | none => Txn.raise .integrityError
  | some artifacts =>
    Txn.write { db with artifacts := artifacts }
    Txn.commit
    return artifactId

def linkJobArtifact (jobId : JobId) (taskId : Option TaskId) (role : String)
    (artifactId : ArtifactId) : Sql Unit := do
  Txn.modify fun db => { db with
    jobArtifacts := db.jobArtifacts.replace ⟨jobId, taskId.getD "", role, artifactId⟩ }
  Txn.commit

def clearJobArtifactRole (jobId : JobId) (role : String) : Sql Unit := do
  Txn.modify fun db => { db with
    jobArtifacts := db.jobArtifacts.deleteWhere fun r => r.jobId = jobId && r.role = role }
  Txn.commit

def listJobArtifacts (io : Io) (jobId : JobId) : Sql (List LinkedArtifact) := do
  let db ← Txn.live
  return io.listing (db.jobArtifacts.rows.filterMap fun r =>
    if r.jobId = jobId then
      (db.artifacts.get r.artifactId).map fun a => ⟨r.role, r.taskId, a⟩
    else none)

/-- An event to store. Of its texts, those that a request brought can be ones that the
driver refuses; the server's own are not. -/
structure NewEvent where
  level : EventLevel
  type : String
  message : String := ""
  jobId : Option JobId := none
  taskId : Option TaskId := none
  workerId : Option WorkerId := none
  brought : List String := []

/-- The `INSERT` of `add_event`; no event row is ever deleted, so `AUTOINCREMENT` counts them. -/
def insertEvent (io : Io) (e : NewEvent) : Sql Nat := do
  let db ← Txn.live
  let id := db.events.length + 1
  Txn.write { db with events := db.events ++
    [⟨id, e.jobId, e.taskId, e.workerId, io.now, e.level, e.type, e.message⟩] }
  Txn.commit
  return id

def NewEvent.unstorable (P : Platform) (e : NewEvent) : Option String := e.brought.findSome? P.textError

/-- `add_event`. -/
def addEvent (P : Platform) (io : Io) (e : NewEvent) : Sql Nat :=
  match e.unstorable P with
  | some message => Txn.raise (.valueError message)
  | none => insertEvent io e

end N4Cluster
