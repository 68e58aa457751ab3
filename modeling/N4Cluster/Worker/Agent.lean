import N4Cluster.Server.Handlers

/-! The polling worker agent. Each of its threads is a program whose calls are what
it asks of the network, of the agent's shared fields, and of the machine it runs on:
files and subprocesses answer as they please. A request is sent and its response
awaited in two calls; either may be lost. -/
namespace N4Cluster
open Interleave

/-- What a failed call raises in the agent: `httpx.HTTPError`, the input errors that
no retry can cure, or something else. -/
inductive AgentErr where
  | http (type text : String)
  | input (type text : String)
  | other (type text : String)

def AgentErr.describe : AgentErr → String
  | .http type text | .input type text | .other type text => type ++ ": " ++ text

/-- The request a response belongs to: the thread that answers it, in one life of the server. -/
structure Ticket where
  epoch : Nat
  thread : Nat
deriving DecidableEq

structure Response where
  status : Nat
  reply : Option Reply

/-- The task of a lease response. -/
def Response.task (response : Response) : Option TaskPayload :=
  match response.reply with
  | some (.leased task) => task
  | _ => none

/-- What the runner left behind; a file that exists is given by what the server
makes of its upload. -/
structure ExecutionResult where
  ticks : List String := []
  cancelled : Bool := false
  status : String
  error : String := "unknown runner failure"
  summary : TaskResult := {}
  model : Option (Option NewArtifact) := none
  log : Option (Option NewArtifact) := none
  workspace : Option (Option NewArtifact) := none
  evidenceWorkspace : Bool := false

inductive AgentCall where
  | send (request : Request)
  | await (ticket : Ticket)
  | setWorker (workerId : WorkerId)
  | activeCount
  | incActive
  | decActive
  | startThread (task : TaskPayload)
  | requestCancel (taskIds : List TaskId)
  | discardCancel (taskId : TaskId)
  | buildRunnerSpec (task : TaskPayload) (workdir : String)
  | executeTask (task : TaskPayload) (workdir : String)
  | removeTree (workdir : String)

abbrev AgentCall.Ret : AgentCall → Type
  | .send _ => Option Ticket
  | .await _ => Option Response
  | .activeCount => Nat
  | .buildRunnerSpec _ _ => Except AgentErr String
  | .executeTask _ _ => Except AgentErr ExecutionResult
  | .removeTree _ => Except AgentErr Unit
  | _ => Unit

abbrev AgentProg := Program AgentCall AgentCall.Ret AgentErr

structure AgentConfig where
  principal : Principal := {}
  registration : WorkerRegister := {}
  stateDir : String := "./worker-state"

namespace Agent

def ask (call : AgentCall) : AgentProg call.Ret := .call call .ret

def liftErr {α : Type} : Except AgentErr α → AgentProg α
  | .ok value => .ret value
  | .error error => .raise error

/-- `except httpx.HTTPError: return value`. -/
def orElse {α : Type} (value : α) (body : AgentProg α) : AgentProg α :=
  body.handle fun
    | .http _ _ => .ret value
    | error => .raise error

/-- `self._http.post`. -/
def post (request : Request) : AgentProg Response := do
  match ← ask (.send request) with
  | none => .raise (.http "ConnectError" "request lost")
  | some ticket =>
    match ← ask (.await ticket) with
    | none => .raise (.http "ReadError" "response lost")
    | some response => return response

/-- `resp.raise_for_status()`. -/
def raiseForStatus (response : Response) : AgentProg Unit :=
  if 400 ≤ response.status then .raise (.http "HTTPStatusError" (toString response.status))
  else return ()

section
variable (agent : AgentConfig)

def register : AgentProg Unit := do
  let response ← post (.registerWorker agent.registration agent.principal)
  raiseForStatus response
  match response.reply with
  | some (.registered workerId _) => ask (.setWorker workerId)
  | _ => .raise (.other "KeyError" "'worker_id'")

/-- One turn of `_heartbeat_loop`. -/
def heartbeatOnce (workerId : WorkerId) : AgentProg Unit :=
  orElse () do
    let response ← post (.heartbeat workerId agent.principal)
    match response.reply with
    | some (.ack ids) => if response.status = 200 then ask (.requestCancel ids) else return ()
    | _ => return ()

/-- `_lease`. -/
def lease (workerId : WorkerId) : AgentProg (Option TaskPayload) :=
  orElse none do
    let response ← post (.lease workerId agent.principal)
    raiseForStatus response
    return response.task

/-- `_lease_loop` once a lease call is over. -/
def leased (task : Option TaskPayload) : AgentProg Unit := do
  match task with
  | none => return ()
  | some task =>
    ask .incActive
    ask (.startThread task)

/-- One turn of `_lease_loop`. -/
def leaseOnce (workerId : WorkerId) : AgentProg Unit := do
  if agent.registration.slotsTotal ≤ (← ask .activeCount) then return ()
  else leased (← lease agent workerId)

/-- The work directory of a task. -/
def workdir (taskId : TaskId) : String := agent.stateDir ++ "/tasks/" ++ taskId

def reportFail (workerId : WorkerId) (task : TaskPayload) (error : String) (retriable : Bool) :
    AgentProg Unit :=
  orElse () do
    let _ ← post (.failTask task.attempt task.taskId
      { error := (error.take 4000).toString, retriable := retriable } workerId agent.principal)
    return ()

def emitProgress (task : TaskPayload) (message : String) : AgentProg Unit :=
  orElse () do
    let _ ← post (.taskEvent task.taskId { type := "progress", message := message, level := .info }
      agent.principal)
    return ()

/-- `_upload`. -/
def upload (taskId : TaskId) (role : String) (file : Option NewArtifact) :
    AgentProg (Option ArtifactId) :=
  orElse none do
    let response ← post (.uploadArtifact taskId role file agent.principal)
    raiseForStatus response
    match response.reply with
    | some (.artifact artifactId) => return some artifactId
    | _ => .raise (.other "KeyError" "'artifact_id'")

/-- An upload of a file that may not exist. -/
def uploadIf (taskId : TaskId) (role : String) (file : Option (Option NewArtifact)) :
    AgentProg (Option ArtifactId) :=
  match file with
  | none => return none
  | some file => upload agent taskId role file

/-- The workspace is kept for the client or for robustness evidence. -/
def uploadWorkspace (task : TaskPayload) (run : ExecutionResult) : AgentProg (Option ArtifactId) :=
  if task.outputs.keepTaskWorkspace || run.evidenceWorkspace then
    uploadIf agent task.taskId "workspace" run.workspace
  else return none

def reportSuccess (workerId : WorkerId) (task : TaskPayload) (run : ExecutionResult)
    (fingerprint : String) : AgentProg Unit := do
  let model ← uploadIf agent task.taskId "model" run.model
  let logs ← uploadIf agent task.taskId "logs" run.log
  let workspace ← uploadWorkspace agent task run
  if run.evidenceWorkspace && !truthy workspace then
    .raise (.other "RuntimeError" "Robustness evidence workspace upload failed; evidence is not delivered")
  else
    let result := { run.summary with
      pipelineFingerprint := some fingerprint
      artifacts := [("model", model), ("logs", logs), ("workspace", workspace)] }
    let _ ← post (.completeTask task.attempt task.taskId result workerId agent.principal)
    return ()

/-- `_handle_task` once the runner has exited. -/
def executed (workerId : WorkerId) (task : TaskPayload) (run : ExecutionResult)
    (fingerprint : String) : AgentProg Unit := do
  Program.forEach run.ticks (emitProgress agent task)
  if run.cancelled || run.status = "cancelled" then
    reportFail agent workerId task "task cancelled" false
  else if run.status = "succeeded" then reportSuccess agent workerId task run fingerprint
  else
    let _ ← uploadIf agent task.taskId "logs" run.log
    reportFail agent workerId task run.error true

/-- `_handle_task` once the task is running. -/
def started (workerId : WorkerId) (task : TaskPayload) : AgentProg Unit := do
  match ← ask (.buildRunnerSpec task (workdir agent task.taskId)) with
  | .error (.input type text) =>
    reportFail agent workerId task ("materialize error: " ++ type ++ ": " ++ text) false
  | .error error => .raise error
  | .ok fingerprint =>
    let run ← liftErr (← ask (.executeTask task (workdir agent task.taskId)))
    executed agent workerId task run fingerprint

/-- The body of the `try` of `_handle_task`. -/
def work (workerId : WorkerId) (task : TaskPayload) : AgentProg Unit := do
  let start ← post (.startTask task.taskId workerId agent.principal)
  if start.status ≠ 200 then return () else started agent workerId task

/-- `_cleanup`. Looking for the directory may fail, and `ignore_errors` keeps only the errors of
the system from leaving `rmtree`. -/
def cleanup (task : TaskPayload) : AgentProg Unit := do
  if task.outputs.keepTaskWorkspace then return ()
  else liftErr (← ask (.removeTree (workdir agent task.taskId)))

/-- The `finally` of `_handle_task`. -/
def finish (task : TaskPayload) : AgentProg Unit := do
  ask (.discardCancel task.taskId)
  cleanup agent task
  ask .decActive

def handleTask (workerId : WorkerId) (task : TaskPayload) : AgentProg Unit :=
  ((work agent workerId task).handle fun error =>
    reportFail agent workerId task ("agent error: " ++ error.describe) true).ensure
    (finish agent task)

end
end Agent
end N4Cluster
