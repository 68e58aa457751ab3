import N4Cluster.Server.Calls

/-! Every handler is put together from single calls and finalizations, but for the events
of workers, uploads and reports of success. What holds of these pieces, and of what is
sequenced or handled when it holds of the parts, holds of every handler. -/
namespace N4Cluster
open Interleave

/-- The types of the events that say how a job has ended. -/
def endings : List String := ["job_succeeded", "job_failed", "job_cancelled"]

/-- The calls outside finalizations that concern neither the success of a task, nor the
links, nor the end of a job. -/
def DbOp.plain : DbOp → Bool
  | .linkJobArtifact _ _ _ _ | .clearJobArtifactRole _ _ | .completeTask _ _ _
  | .trySetJobStatus _ _ => false
  | .addEvent event => !endings.contains event.type
  | op => op.routed

/-- A property of programs that goes from single calls and finalizations to what is put
together from them. -/
structure Pieces (P : Platform) (J : (α : Type) → Prog α → Prop) : Prop where
  ret : ∀ {α : Type} (value : α), J α (.ret value)
  raise : ∀ {α : Type} (fault : Fault), J α (.raise fault)
  bind : ∀ {α β : Type} {p : Prog α} {k : α → Prog β}, J α p → (∀ value, J β (k value)) →
    J β (p >>= k)
  handle : ∀ {α : Type} {p : Prog α} {k : Fault → Prog α}, J α p → (∀ fault, J α (k fault)) →
    J α (p.handle k)
  call : ∀ {α : Type} {c : Call} {next : Call.Ret c → Prog α}, c.site.finalizes = false →
    c.op.plain = true → (∀ answer, J α (next answer)) → J α (.call c next)
  finalizeJob : ∀ jobId, J Unit (finalizeJob P jobId)

namespace Pieces
variable {P : Platform} {config : ServerConfig} {J : (α : Type) → Prog α → Prop} {α : Type}

theorem perform (pieces : Pieces P J) {site : Site} {op : DbOp} (outside : site.finalizes = false)
    (plain : op.plain = true) : J op.Ret (perform site op) := by
  refine pieces.call outside plain fun answer => ?_
  cases answer with
  | ok value => exact pieces.ret value
  | error error => exact pieces.raise _

theorem liftAt (pieces : Pieces P J) (site : Site) (value : Except PyErr α) : J α (liftAt site value) := by
  cases value with
  | ok value => exact pieces.ret value
  | error error => exact pieces.raise _

theorem emit (pieces : Pieces P J) {site : Site} {event : NewEvent} (outside : site.finalizes = false)
    (quiet : endings.contains event.type = false) : J Unit (emit site event) :=
  pieces.bind (pieces.perform outside (by rw [DbOp.plain, quiet]; rfl)) fun _ => pieces.ret ()

theorem forEach (pieces : Pieces P J) {ι : Type} (items : List ι) {body : ι → Prog Unit}
    (each : ∀ item, J Unit (body item)) : J Unit (Program.forEach items body) := by
  induction items with
  | nil => exact pieces.ret ()
  | cons item rest ih => exact pieces.bind (each item) fun _ => ih

theorem replyJob (pieces : Pieces P J) (jobId : JobId) : J Reply (Route.replyJob P jobId) := by
  refine pieces.bind (pieces.bind (pieces.perform rfl rfl) fun found => ?_) fun _ => pieces.ret _
  cases found with
  | none => exact pieces.raise _
  | some row =>
    refine pieces.bind (pieces.bind (pieces.perform rfl rfl) fun found => ?_) fun built =>
      pieces.bind (pieces.liftAt _ _) fun _ => pieces.ret _
    cases found with
    | none => exact pieces.raise _
    | some row =>
      refine pieces.bind (pieces.liftAt _ _) fun req => pieces.bind (pieces.perform rfl rfl) fun tasks =>
        pieces.bind (pieces.liftAt _ _) fun agg => ?_
      dsimp only
      split
      · exact pieces.ret _
      · exact pieces.bind (pieces.perform rfl rfl) fun _ => pieces.ret _

theorem requireWorkerPrincipal (pieces : Pieces P J) (workerId : WorkerId) (principal : Principal) :
    J WorkerRow (Route.requireWorkerPrincipal workerId principal) := by
  refine pieces.bind (pieces.perform rfl rfl) fun found => ?_
  cases found with
  | none => exact pieces.raise _
  | some worker =>
    dsimp only
    split
    · exact pieces.ret _
    · split
      · exact pieces.raise _
      · exact pieces.ret _

theorem requireTaskWorkerPrincipal (pieces : Pieces P J) (taskId : TaskId) (principal : Principal) :
    J TaskRow (Route.requireTaskWorkerPrincipal taskId principal) := by
  refine pieces.bind (pieces.perform rfl rfl) fun found => ?_
  cases found with
  | none => exact pieces.raise _
  | some row =>
    dsimp only
    split
    · exact pieces.raise _
    · exact pieces.bind (pieces.requireWorkerPrincipal _ _) fun _ => pieces.ret _

theorem requireTaskReporter (pieces : Pieces P J) (taskId : TaskId) (workerId : WorkerId)
    (principal : Principal) : J TaskRow (Route.requireTaskReporter taskId workerId principal) := by
  refine pieces.bind (pieces.requireTaskWorkerPrincipal taskId principal) fun row => ?_
  split
  · exact pieces.raise _
  · exact pieces.ret _

theorem stopTask (pieces : Pieces P J) (row : TaskRow) (workerId : WorkerId) (message : String)
    (brought : List String) : J Unit (Route.stopTask P row workerId message brought) :=
  pieces.bind (pieces.perform rfl rfl) fun _ => pieces.bind (pieces.emit rfl rfl) fun _ =>
    pieces.finalizeJob _

theorem taskCompleted (pieces : Pieces P J) (row : TaskRow) (result : TaskResult) (workerId : WorkerId) :
    J Unit (Route.taskCompleted P row result workerId) := by
  refine pieces.bind ?_ fun _ => pieces.bind (pieces.emit rfl rfl) fun _ => pieces.finalizeJob _
  unfold Route.noteMismatch
  split
  · exact pieces.emit rfl rfl
  · exact pieces.ret ()

/-! ## Client API -/

theorem submitJob (pieces : Pieces P J) (req : JobRequest) (principal : Principal) :
    J Reply (Route.submitJob P config req principal) := by
  have lost (req : JobRequest) : J Reply (Route.submitLost P req) := by
    unfold Route.submitLost
    split
    · refine pieces.bind (pieces.perform rfl rfl) fun found => ?_
      cases found with
      | none => exact pieces.raise _
      | some existing => exact pieces.replyJob _
    · exact pieces.raise _
  have inserts (req : JobRequest) (owner : String) : J Reply (Route.submitInsert P req owner) := by
    refine pieces.call rfl rfl fun answer => ?_
    split
    · exact pieces.bind (pieces.emit rfl rfl) fun _ => pieces.replyJob _
    · exact lost req
    · exact pieces.raise _
  unfold Route.submitJob
  split
  · exact pieces.raise _
  · dsimp only
    split
    · refine pieces.bind (pieces.perform rfl rfl) fun found => ?_
      cases found with
      | none => exact inserts _ _
      | some existing => exact pieces.replyJob _
    · exact inserts _ _

theorem markCancelled (pieces : Pieces P J) (jobId : JobId) (running : List TaskId) :
    J Reply (Route.markCancelled P jobId running) := by
  have plain : (DbOp.setJobStatus jobId (if running.isEmpty then .cancelled else .cancelling)
      none).plain = true := by
    cases running <;> rfl
  exact pieces.bind (pieces.perform rfl plain) fun _ => pieces.bind (pieces.emit rfl rfl) fun _ =>
    pieces.bind (pieces.finalizeJob jobId) fun _ => pieces.replyJob jobId

theorem cancelJob (pieces : Pieces P J) (jobId : JobId) : J Reply (Route.cancelJob P jobId) := by
  refine pieces.bind (pieces.perform rfl rfl) fun found => ?_
  cases found with
  | none => exact pieces.raise _
  | some row =>
    dsimp only
    split
    · exact pieces.replyJob jobId
    · exact pieces.bind (pieces.perform rfl rfl) fun running => pieces.markCancelled jobId running

/-! ## Worker API -/

theorem cancelIds (pieces : Pieces P J) (taskIds : List TaskId) :
    J (List TaskId) (Route.cancelIds taskIds) := by
  induction taskIds with
  | nil => exact pieces.ret _
  | cons taskId rest ih =>
    refine pieces.bind (pieces.perform rfl rfl) fun found => ?_
    cases found with
    | none => exact ih
    | some task => exact pieces.bind (pieces.perform rfl rfl) fun _ => pieces.bind ih fun _ => pieces.ret _

theorem heartbeat (pieces : Pieces P J) (workerId : WorkerId) (principal : Principal) :
    J Reply (Route.heartbeat config workerId principal) := by
  refine pieces.bind (pieces.requireWorkerPrincipal _ _) fun _ =>
    pieces.bind (pieces.perform rfl rfl) fun found => ?_
  split
  · exact pieces.bind (pieces.perform rfl rfl) fun taskIds => pieces.bind (pieces.cancelIds taskIds) fun _ =>
      pieces.ret _
  · exact pieces.raise _

theorem lease (pieces : Pieces P J) (workerId : WorkerId) (principal : Principal) :
    J Reply (Route.lease config workerId principal) := by
  refine pieces.bind (pieces.requireWorkerPrincipal _ _) fun _ =>
    pieces.bind (pieces.perform rfl rfl) fun leased => ?_
  cases leased with
  | none => exact pieces.ret _
  | some payload => exact pieces.bind (pieces.emit rfl rfl) fun _ => pieces.ret _

theorem startTask (pieces : Pieces P J) (taskId : TaskId) (workerId : WorkerId) (principal : Principal) :
    J Reply (Route.startTask taskId workerId principal) := by
  refine pieces.bind (pieces.requireWorkerPrincipal _ _) fun _ =>
    pieces.bind (pieces.handle (pieces.perform rfl rfl) fun fault => ?_) fun _ =>
      pieces.bind (pieces.emit rfl rfl) fun _ => pieces.ret _
  unfold Route.startFailed
  split <;> exact pieces.raise _

theorem failTask (pieces : Pieces P J) (taskId : TaskId) (failure : TaskFailure) (workerId : WorkerId)
    (principal : Principal) : J Reply (Route.failTask P taskId failure workerId principal) := by
  refine pieces.bind (pieces.requireTaskReporter _ _ _) fun row => pieces.bind (pieces.perform rfl rfl) fun job => ?_
  split
  · exact pieces.bind (pieces.stopTask _ _ _ _) fun _ => pieces.ret _
  · refine pieces.call rfl rfl fun answer => ?_
    dsimp only
    split
    · exact pieces.bind (pieces.emit rfl rfl) fun _ => pieces.bind (pieces.finalizeJob _) fun _ => pieces.ret _
    · exact pieces.ret _
    · exact pieces.raise _

/-! ## The reaper -/

theorem reaperTick (pieces : Pieces P J) (order : SetOrder) : J Reply (reaperTick P config order) := by
  refine pieces.bind (pieces.handle ?_ fun fault => pieces.emit rfl rfl) fun _ => pieces.ret _
  refine pieces.bind (pieces.perform rfl rfl) fun dead => pieces.bind (pieces.forEach _ fun _ => pieces.emit rfl rfl)
    fun _ => pieces.bind (pieces.perform rfl rfl) fun lost => ?_
  refine pieces.bind (pieces.forEach _ fun _ => pieces.emit rfl rfl) fun _ =>
    pieces.bind (pieces.perform rfl rfl) fun affected => ?_
  exact pieces.bind (pieces.forEach _ fun _ => pieces.emit rfl rfl) fun _ =>
    pieces.forEach _ fun jobId => pieces.finalizeJob jobId

/-- What is left to show of a request: its own part, where that is no piece. -/
def Owns (P : Platform) (J : (α : Type) → Prog α → Prop) : Request → Prop
  | .taskEvent taskId event principal => J Reply (Route.taskEvent taskId event principal)
  | .uploadArtifact taskId role upload principal =>
    J Reply (Route.uploadArtifact taskId role upload principal)
  | .completeTask _ taskId result workerId principal =>
    J Reply (Route.completeTask P taskId result workerId principal)
  | _ => True

theorem handler (pieces : Pieces P J) (request : Request) (owns : Owns P J request) :
    J Reply (handler P config request) := by
  cases request with
  | submitJob req principal => exact pieces.submitJob req principal
  | cancelJob jobId => exact pieces.cancelJob jobId
  | registerWorker reg principal =>
    exact pieces.bind (pieces.perform rfl rfl) fun _ => pieces.bind (pieces.emit rfl rfl) fun _ => pieces.ret _
  | heartbeat workerId principal => exact pieces.heartbeat workerId principal
  | lease workerId principal => exact pieces.lease workerId principal
  | startTask taskId workerId principal => exact pieces.startTask taskId workerId principal
  | uploadInput upload =>
    cases upload with
    | none => exact pieces.raise _
    | some artifact => exact pieces.bind (pieces.perform rfl rfl) fun _ => pieces.ret _
  | failTask attempt taskId failure workerId principal =>
    exact pieces.failTask taskId failure workerId principal
  | reaperTick order => exact pieces.reaperTick order
  | taskEvent | uploadArtifact | completeTask => exact owns

end Pieces
end N4Cluster
