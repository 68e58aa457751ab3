import N4Cluster.Base.Pool
import N4Cluster.Server.Aggregate
import N4Cluster.Server.Operations

/-! Route handlers and the reaper tick as programs over the database. Each call
of a `Database` method is one atomic step; an exception is a failure of the
program. Calls and failures carry the place in the code they come from. -/
namespace N4Cluster
open Interleave

/-- Where a call is made: in a route, in a view, in a finalization, at the
finalization's second reading of the tasks, or in the reaper's `except`. -/
inductive Site where
  | route
  | view
  | finalize
  | terminality (numSucceeded : Nat)
  | reaperError
deriving DecidableEq

/-- The places inside `_finalize_job`. -/
def Site.finalizes : Site → Bool
  | .finalize | .terminality _ => true
  | _ => false

structure Call where
  site : Site
  op : DbOp

abbrev Call.Ret (c : Call) : Type := Except PyErr c.op.Ret

structure Fault where
  site : Site
  error : PyErr

abbrev Prog := Program Call Call.Ret Fault

def perform (site : Site) (op : DbOp) : Prog op.Ret :=
  .call ⟨site, op⟩ fun
    | .ok value => .ret value
    | .error error => .raise ⟨site, error⟩

def raiseAt {α : Type} (site : Site) (error : PyErr) : Prog α := .raise ⟨site, error⟩

def liftAt {α : Type} (site : Site) : Except PyErr α → Prog α
  | .ok value => .ret value
  | .error error => raiseAt site error

def httpError {α : Type} (status : Nat) (detail : String) : Prog α :=
  raiseAt .route (.http status detail)

/-- `broker.emit`; the fan-out to live subscribers reaches no store. -/
def emit (site : Site) (event : NewEvent) : Prog Unit := do
  let _ ← perform site (.addEvent event)
  return ()

inductive Right where
  | submit | read | cancel | execute | admin
deriving DecidableEq

def Right.value : Right → String
  | .submit => "submit"
  | .read => "read"
  | .cancel => "cancel"
  | .execute => "execute"
  | .admin => "admin"

structure Principal where
  name : String := "dev"
  rights : List Right := [.submit, .read, .cancel, .execute, .admin]

/-- `_right_values`. -/
def Principal.rightValues (p : Principal) : List String :=
  (p.rights.dedup.map Right.value).insertionSort fun a b => a ≤ b

structure ServerConfig where
  allowPythonJobs : Bool := false
  leaseTtlS : Time := 60
  workerDeadAfterS : Time := 45

structure JobView where
  id : JobId
  type : String
  name : Option String
  status : JobStatus
  priority : Int
  createdAt : Time
  updatedAt : Time
  aggregate : JobAggregate
  scheduler : DagSchedulerContract
  submission : Option JobSubmissionMetadata
  error : Option String

inductive Reply where
  | job (view : JobView)
  | registered (workerId : WorkerId) (rights : List String)
  | ack (cancelTaskIds : List TaskId)
  | leased (task : Option TaskPayload)
  | artifact (artifactId : ArtifactId)
  | ok
  | failed (ignored requeued : Bool)

section
variable (P : Platform) (config : ServerConfig)

/-- `_build_aggregate`. -/
def buildAggregate (site : Site) (jobId : JobId) :
    Prog (JobAggregate × Option TaskId × Option ArtifactId) := do
  match ← perform site (.getJob jobId) with
  | none => raiseAt site (.keyError jobId)
  | some row =>
    let req ← liftAt site (P.reloadRequest row.request)
    let tasks ← perform site (.listTasksForJob jobId)
    let agg ← liftAt site (P.tally req tasks)
    match agg.bestTaskId with
    | none => return (agg, none, none)
    | some taskId =>
      let artifacts ← perform site (.listJobArtifacts jobId)
      let best := bestModel taskId artifacts
      return ({ agg with bestModelArtifactId := best }, some taskId, best)

/-- The status `_finalize_job` chooses. -/
def finalStatus (current : JobStatus) (numSucceeded : Nat) : JobStatus :=
  if current = .cancelling then .cancelled
  else if 0 < numSucceeded then .succeeded
  else .failed

def finalizedEvent (jobId : JobId) (final : JobStatus) : NewEvent where
  level := if final = .succeeded then .info else .warning
  type := "job_" ++ final.value
  message := "job " ++ jobId ++ " " ++ final.value
  jobId := some jobId

/-- `_finalize_job` from the choice of the final status on. -/
def settleJob (jobId : JobId) (final : JobStatus) : Prog Unit := do
  if ← perform .finalize (.trySetJobStatus jobId final) then
    emit .finalize (finalizedEvent jobId final)
  else return ()

/-- `_finalize_job` from the second reading of the tasks on. -/
def settleIfTerminal (jobId : JobId) (before : JobStatus) (numSucceeded : Nat) : Prog Unit := do
  let tasks ← perform (.terminality numSucceeded) (.listTasksForJob jobId)
  if tasks.all fun r => r.status.terminal then
    let fresh ← perform .finalize (.getJob jobId)
    let current := match fresh with
      | some row => row.status
      | none => before
    settleJob jobId (finalStatus current numSucceeded)
  else return ()

/-- Keeps one job-level `best_model` link; an empty identifier is no artifact. -/
def linkBestModel (jobId : JobId) (taskId : Option TaskId) (artifactId : Option ArtifactId) :
    Prog Unit :=
  if truthy artifactId then
    perform .finalize (.linkJobArtifact jobId taskId "best_model" (artifactId.getD ""))
  else return ()

/-- `_finalize_job`. -/
def finalizeJob (jobId : JobId) : Prog Unit := do
  match ← perform .finalize (.getJob jobId) with
  | none => return ()
  | some row =>
    let (agg, bestTaskId, bestModelArtifactId) ← buildAggregate P .finalize jobId
    perform .finalize (.setJobResult jobId agg)
    perform .finalize (.clearJobArtifactRole jobId "best_model")
    linkBestModel jobId bestTaskId bestModelArtifactId
    settleIfTerminal jobId row.status agg.numSucceeded

/-- `_job_view`. -/
def jobView (jobId : JobId) : Prog JobView := do
  match ← perform .view (.getJob jobId) with
  | none => raiseAt .view (.keyError jobId)
  | some row =>
    let (agg, _, _) ← buildAggregate P .view jobId
    let req ← liftAt .view (P.reloadRequest row.request)
    let submission :=
      if req.submission.isNone && truthy row.owner then
        some { principal := row.owner : JobSubmissionMetadata }
      else req.submission
    return { id := row.id, type := row.type, name := row.name, status := row.status,
             priority := row.priority, createdAt := row.createdAt, updatedAt := row.updatedAt,
             aggregate := agg, scheduler := req.scheduler.getD req.inferredSchedulerContract,
             submission := submission, error := row.error }

/-- Whether the job read says that it is being cancelled. -/
def cancelAccepted (job : Option JobRow) : Bool :=
  job.any fun j => j.status = .cancelling || j.status = .cancelled

namespace Route

/-! ## Client API -/

/-- `_server_attested_job_request`. -/
def serverAttestedJobRequest (req : JobRequest) (principal : Principal) : JobRequest :=
  { req with
    scheduler := some { shape := req.inferredSchedulerContract.shape }
    submission := some
      { principal := some principal.name, grantedRights := principal.rightValues } }

/-- `req.requirements.packages["nirs4all"] = ""` unless the client constrained it. -/
def requireNirs4all (req : JobRequest) : JobRequest :=
  if (req.requirements.packages.lookup "nirs4all").isSome then req
  else
    { req with requirements := { req.requirements with
      packages := req.requirements.packages ++ [("nirs4all", "")] } }

/-- The request as the server stores it. -/
def acceptedRequest (req : JobRequest) (principal : Principal) : JobRequest :=
  requireNirs4all (serverAttestedJobRequest req principal)

def submittedEvent (jobId : JobId) (numTasks : Nat) : NewEvent where
  level := .info
  type := "job_submitted"
  message := "job " ++ jobId ++ " queued with " ++ toString numTasks ++ " task(s)"
  jobId := some jobId

/-- `return _job_view(db, job_id)`. -/
def replyJob (jobId : JobId) : Prog Reply := do
  return .job (← jobView P jobId)

/-- `submit_job` after a successful insert. -/
def submitted (jobId : JobId) (numTasks : Nat) : Prog Reply := do
  emit .route (submittedEvent jobId numTasks)
  replyJob P jobId

/-- `submit_job` after the insert violated a constraint. -/
def submitLost (req : JobRequest) : Prog Reply := do
  if truthy req.idempotencyKey then
    match ← perform .route (.findJobByIdempotency (req.idempotencyKey.getD "")) with
    | some existing => replyJob P existing.id
    | none => raiseAt .route .integrityError
  else raiseAt .route .integrityError

/-- `submit_job` from the insert on. -/
def submitInsert (req : JobRequest) (owner : String) : Prog Reply :=
  .call ⟨.route, .createJobWithTasks req (some owner)⟩ fun
    | .ok (jobId, taskIds) => submitted P jobId taskIds.length
    | .error .integrityError => submitLost P req
    | .error error => .raise ⟨.route, error⟩

def submitJob (req : JobRequest) (principal : Principal) : Prog Reply := do
  if req.pipelineListHasPython && !config.allowPythonJobs then
    httpError 400 "python_entrypoint pipelines require the server flag --allow-python-jobs"
  else
    let req := acceptedRequest req principal
    if truthy req.idempotencyKey then
      match ← perform .route (.findJobByIdempotency (req.idempotencyKey.getD "")) with
      | some existing => replyJob P existing.id
      | none => submitInsert P req principal.name
    else submitInsert P req principal.name

def cancelRequestedEvent (jobId : JobId) : NewEvent where
  level := .warning
  type := "job_cancel_requested"
  message := "cancellation requested for job " ++ jobId
  jobId := some jobId

/-- `cancel_job` after the status was written. -/
def cancelRequested (jobId : JobId) : Prog Reply := do
  emit .route (cancelRequestedEvent jobId)
  finalizeJob P jobId
  replyJob P jobId

/-- `cancel_job` after the tasks were cancelled. -/
def markCancelled (jobId : JobId) (stillRunning : List TaskId) : Prog Reply := do
  let status := if stillRunning.isEmpty then .cancelled else .cancelling
  perform .route (.setJobStatus jobId status none)
  cancelRequested P jobId

def cancelJob (jobId : JobId) : Prog Reply := do
  match ← perform .route (.getJob jobId) with
  | none => httpError 404 "job not found"
  | some row =>
    if row.status.terminal then replyJob P jobId
    else
      let stillRunning ← perform .route (.cancelJobTasks jobId)
      markCancelled P jobId stillRunning

def uploadInput (upload : Option NewArtifact) : Prog Reply := do
  match upload with
  | none => httpError 413 "artifact too large"
  | some artifact => return .artifact (← perform .route (.addArtifact artifact))

/-! ## Worker API -/

/-- `_require_worker_principal`. -/
def requireWorkerPrincipal (workerId : WorkerId) (principal : Principal) : Prog WorkerRow := do
  match ← perform .route (.getWorker workerId) with
  | none => httpError 404 "unknown worker"
  | some worker =>
    match worker.principal with
    | none => return worker
    | some owner =>
      if owner ≠ principal.name then
        httpError 403 ("principal '" ++ principal.name ++ "' is not registered for worker " ++ workerId)
      else return worker

/-- `_require_task_worker_principal`. -/
def requireTaskWorkerPrincipal (taskId : TaskId) (principal : Principal) : Prog TaskRow := do
  match ← perform .route (.getTask taskId) with
  | none => httpError 404 "task not found"
  | some row =>
    match row.workerId with
    | none => httpError 409 "task is not leased by a worker"
    | some workerId =>
      let _ ← requireWorkerPrincipal workerId principal
      return row

/-- `_require_task_reporter`. -/
def requireTaskReporter (taskId : TaskId) (workerId : WorkerId) (principal : Principal) :
    Prog TaskRow := do
  let row ← requireTaskWorkerPrincipal taskId principal
  if row.workerId ≠ some workerId then httpError 409 "task leased by another worker"
  else return row

def registerWorker (reg : WorkerRegister) (principal : Principal) : Prog Reply := do
  let workerId ← perform .route (.registerWorker reg (some principal.name))
  emit .route
    { level := .info, type := "worker_registered", message := "worker " ++ workerId ++ " registered",
      workerId := some workerId }
  return .registered workerId principal.rightValues

/-- The loop of `heartbeat` over the worker's tasks. -/
def cancelIds : List TaskId → Prog (List TaskId)
  | [] => return []
  | taskId :: rest => do
    match ← perform .route (.getTask taskId) with
    | none => cancelIds rest
    | some task =>
      let job ← perform .route (.getJob task.jobId)
      let others ← cancelIds rest
      return if cancelAccepted job then taskId :: others else others

def heartbeat (workerId : WorkerId) (principal : Principal) : Prog Reply := do
  let _ ← requireWorkerPrincipal workerId principal
  if ← perform .route (.heartbeatWorker workerId (some config.leaseTtlS)) then
    let taskIds ← perform .route (.tasksForWorker workerId)
    return .ack (← cancelIds taskIds)
  else httpError 404 "unknown worker"

def leasedEvent (payload : TaskPayload) (workerId : WorkerId) : NewEvent where
  level := .info
  type := "task_leased"
  message := "task " ++ payload.taskId ++ " leased to " ++ workerId
  jobId := some payload.jobId
  taskId := some payload.taskId
  workerId := some workerId

def assigned (payload : TaskPayload) (workerId : WorkerId) (principal : Principal) : TaskPayload :=
  { payload with
    assignment := some
      { executorPrincipal := some principal.name, workerId := some workerId,
        grantedRights := principal.rightValues } }

def lease (workerId : WorkerId) (principal : Principal) : Prog Reply := do
  let _ ← requireWorkerPrincipal workerId principal
  match ← perform .route (.leaseNextTask workerId config.leaseTtlS) with
  | none => return .leased none
  | some payload =>
    let payload := assigned payload workerId principal
    emit .route (leasedEvent payload workerId)
    return .leased (some payload)

/-- The `except` clauses of `start_task`. -/
def startFailed (fault : Fault) : Prog TaskRow :=
  match fault.error with
  | .permissionError detail | .illegalTransition detail => httpError 409 detail
  | .keyError _ => httpError 404 "task not found"
  | _ => .raise fault

def startTask (taskId : TaskId) (workerId : WorkerId) (principal : Principal) : Prog Reply := do
  let _ ← requireWorkerPrincipal workerId principal
  let row ← (perform .route (.startTask taskId workerId)).handle startFailed
  emit .route
    { level := .info, type := "task_started", message := "task " ++ taskId ++ " started",
      jobId := some row.jobId, taskId := some taskId, workerId := some workerId }
  return .ok

def taskEvent (taskId : TaskId) (ev : TaskEvent) (principal : Principal) : Prog Reply := do
  let row ← requireTaskWorkerPrincipal taskId principal
  emit .route
    { level := ev.level, type := ev.type, message := ev.message,
      jobId := some row.jobId, taskId := some taskId, workerId := row.workerId,
      brought := [ev.type, ev.message] }
  return .ok

/-- A coroutine of the event loop: the file is stored in another thread between the check and
`add_artifact`. Between that and the link only handlers in threads can act; here any turn can. -/
def uploadArtifact (taskId : TaskId) (role : String) (upload : Option NewArtifact)
    (principal : Principal) : Prog Reply := do
  let row ← requireTaskWorkerPrincipal taskId principal
  match upload with
  | none => httpError 413 "artifact too large"
  | some artifact =>
    let artifactId ← perform .route (.addArtifact artifact)
    perform .route (.linkJobArtifact row.jobId (some taskId) role artifactId)
    return .artifact artifactId

/-- The result as stored, with what the server attests about its origin. -/
def attestedResult (result : TaskResult) (row : TaskRow) (workerId : WorkerId)
    (principal : Principal) : TaskResult :=
  { result with
    provenance :=
      { reportedByPrincipal := some principal.name, workerId := some workerId,
        jobId := some row.jobId, taskId := some row.id, attempt := some row.attempt,
        grantedRights := principal.rightValues } }

def taskCancelledEvent (row : TaskRow) (workerId : WorkerId) (message : String)
    (brought : List String) : NewEvent where
  level := .warning
  type := "task_cancelled"
  message := message
  jobId := some row.jobId
  taskId := some row.id
  workerId := some workerId
  brought := brought

/-- Both report routes while the job is being cancelled: the task is stopped. The event is
emitted outside any `try`: if its text is refused, the job is not finalized. -/
def stopTask (row : TaskRow) (workerId : WorkerId) (message : String) (brought : List String) :
    Prog Unit := do
  let _ ← perform .route (.cancelRunningTask row.id workerId)
  emit .route (taskCancelledEvent row workerId message brought)
  finalizeJob P row.jobId

/-- A pinned fingerprint that the result contradicts. -/
def fingerprintMismatch (row : TaskRow) (result : TaskResult) : Bool :=
  truthy row.payload.pipeline.expectedFingerprint && truthy result.pipelineFingerprint &&
    row.payload.pipeline.expectedFingerprint != result.pipelineFingerprint

def mismatchEvent (row : TaskRow) (workerId : WorkerId) : NewEvent where
  level := .warning
  type := "pipeline_fingerprint_mismatch"
  message := "task " ++ row.id ++ ": pipeline content differs from what was submitted"
  jobId := some row.jobId
  taskId := some row.id
  workerId := some workerId

def noteMismatch (row : TaskRow) (result : TaskResult) (workerId : WorkerId) : Prog Unit :=
  if fingerprintMismatch row result then emit .route (mismatchEvent row workerId) else return ()

def taskCompletedEvent (row : TaskRow) (workerId : WorkerId) : NewEvent where
  level := .info
  type := "task_completed"
  message := "task " ++ row.id ++ " completed"
  jobId := some row.jobId
  taskId := some row.id
  workerId := some workerId

/-- `complete_task` after the result was stored. -/
def taskCompleted (row : TaskRow) (result : TaskResult) (workerId : WorkerId) : Prog Unit := do
  noteMismatch row result workerId
  emit .route (taskCompletedEvent row workerId)
  finalizeJob P row.jobId

/-- `except PermissionError` of `complete_task`. -/
def completeFailed (fault : Fault) : Prog TaskRow :=
  match fault.error with
  | .permissionError detail => httpError 409 detail
  | _ => .raise fault

/-- `complete_task` once the reporter is known. -/
def reportCompleted (row : TaskRow) (result : TaskResult) (workerId : WorkerId)
    (principal : Principal) : Prog Unit := do
  let result := attestedResult result row workerId principal
  let job ← perform .route (.getJob row.jobId)
  if cancelAccepted job then stopTask P row workerId ("task " ++ row.id ++ " cancelled") []
  else
    let _ ← (perform .route (.completeTask row.id workerId result)).handle completeFailed
    taskCompleted P row result workerId

def completeTask (taskId : TaskId) (result : TaskResult) (workerId : WorkerId)
    (principal : Principal) : Prog Reply := do
  let row ← requireTaskReporter taskId workerId principal
  reportCompleted P row result workerId principal
  return .ok

def taskFailedEvent (row : TaskRow) (workerId : WorkerId) (error : String) : NewEvent where
  level := .error
  type := "task_failed"
  message := "task " ++ row.id ++ " failed: " ++ error
  jobId := some row.jobId
  taskId := some row.id
  workerId := some workerId
  brought := [error]

/-- `fail_task` after the failure was recorded. -/
def taskFailed (row : TaskRow) (workerId : WorkerId) (error : String) (requeued : Bool) :
    Prog Reply := do
  emit .route (taskFailedEvent row workerId error)
  finalizeJob P row.jobId
  return .failed false requeued

/-- `fail_task` once the reporter is known. -/
def reportFailed (row : TaskRow) (failure : TaskFailure) (workerId : WorkerId) : Prog Reply := do
  let job ← perform .route (.getJob row.jobId)
  if cancelAccepted job then
    stopTask P row workerId ("task " ++ row.id ++ " cancelled: " ++ failure.error) [failure.error]
    return .failed false false
  else
    .call ⟨.route, .failTask row.id (some workerId) failure.error failure.retriable⟩ fun
      | .ok updated => taskFailed P row workerId failure.error (updated.status = .queued)
      | .error (.permissionError _) => .ret (.failed true false)
      | .error error => .raise ⟨.route, error⟩

def failTask (taskId : TaskId) (failure : TaskFailure) (workerId : WorkerId)
    (principal : Principal) : Prog Reply := do
  let row ← requireTaskReporter taskId workerId principal
  reportFailed P row failure workerId

end Route

/-! ## Background reaper -/

/-- The order in which a Python set lists its members. -/
structure SetOrder where
  order : List JobId → List JobId
  lists : ∀ jobs, (order jobs).Perm jobs.dedup

def SetOrder.insertion : SetOrder := ⟨List.dedup, fun _ => .refl _⟩

def workerDeadEvent (workerId : WorkerId) : NewEvent where
  level := .warning
  type := "worker_dead"
  message := "worker " ++ workerId ++ " marked dead (no heartbeat)"
  workerId := some workerId

def taskLostEvent (cause : String) (lost : TaskId × JobId) : NewEvent where
  level := .warning
  type := "task_lost"
  message := "task " ++ lost.1 ++ cause
  jobId := some lost.2
  taskId := some lost.1

def PyErr.str : PyErr → String
  | .keyError key => "'" ++ key ++ "'"
  | .permissionError message | .illegalTransition message | .valueError message
  | .typeError message | .validationError message | .serializationError message => message
  | .integrityError => "constraint failed"
  | .overflowError => "Python int too large to convert to SQLite INTEGER"
  | .http _ detail => detail

/-- The reaper once both reapings are done. -/
def finalizeReaped (order : SetOrder) (lost affected : List (TaskId × JobId)) : Prog Unit := do
  Program.forEach affected fun task => emit .route (taskLostEvent " lease expired" task)
  Program.forEach (order.order ((lost ++ affected).map Prod.snd)) (finalizeJob P)

/-- The reaper once the tasks of dead workers are resolved. -/
def reapLeases (order : SetOrder) (lost : List (TaskId × JobId)) : Prog Unit := do
  Program.forEach lost fun task => emit .route (taskLostEvent " lost with dead worker" task)
  let affected ← perform .route .reapExpiredLeases
  finalizeReaped P order lost affected

/-- The body of the reaper's `try`. -/
def reap (order : SetOrder) : Prog Unit := do
  let dead ← perform .route (.markDeadWorkers config.workerDeadAfterS)
  Program.forEach dead fun workerId => emit .route (workerDeadEvent workerId)
  let lost ← perform .route (.reapTasksForWorkers dead "worker lost")
  reapLeases P order lost

def reaperErrorEvent (error : PyErr) : NewEvent where
  level := .error
  type := "reaper_error"
  message := error.str

/-- One iteration of `_reaper_loop`. -/
def reaperTick (order : SetOrder) : Prog Reply := do
  (reap P config order).handle fun fault => emit .reaperError (reaperErrorEvent fault.error)
  return .ok

/-- Requests to the server. The `attempt` of a report is the attempt of the lease it
is about; no field of the report carries it and no handler reads it. -/
inductive Request where
  | submitJob (req : JobRequest) (principal : Principal)
  | cancelJob (jobId : JobId)
  | registerWorker (reg : WorkerRegister) (principal : Principal)
  | heartbeat (workerId : WorkerId) (principal : Principal)
  | lease (workerId : WorkerId) (principal : Principal)
  | startTask (taskId : TaskId) (workerId : WorkerId) (principal : Principal)
  | taskEvent (taskId : TaskId) (event : TaskEvent) (principal : Principal)
  | uploadInput (upload : Option NewArtifact)
  | uploadArtifact (taskId : TaskId) (role : String) (upload : Option NewArtifact)
      (principal : Principal)
  | completeTask (attempt : Nat) (taskId : TaskId) (result : TaskResult) (workerId : WorkerId)
      (principal : Principal)
  | failTask (attempt : Nat) (taskId : TaskId) (failure : TaskFailure) (workerId : WorkerId)
      (principal : Principal)
  | reaperTick (order : SetOrder)

def handler : Request → Prog Reply
  | .submitJob req principal => Route.submitJob P config req principal
  | .cancelJob jobId => Route.cancelJob P jobId
  | .registerWorker reg principal => Route.registerWorker reg principal
  | .heartbeat workerId principal => Route.heartbeat config workerId principal
  | .lease workerId principal => Route.lease config workerId principal
  | .startTask taskId workerId principal => Route.startTask taskId workerId principal
  | .taskEvent taskId event principal => Route.taskEvent taskId event principal
  | .uploadInput upload => Route.uploadInput upload
  | .uploadArtifact taskId role upload principal =>
    Route.uploadArtifact taskId role upload principal
  | .completeTask _ taskId result workerId principal =>
    Route.completeTask P taskId result workerId principal
  | .failTask _ taskId failure workerId principal =>
    Route.failTask P taskId failure workerId principal
  | .reaperTick order => reaperTick P config order

end
end N4Cluster
