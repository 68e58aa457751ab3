import N4Cluster.Server.System

/-! The calls each program can make, whatever the database answers. -/
namespace N4Cluster
open Interleave

variable {P : Platform} {config : ServerConfig} {α β : Type}

/-- The reads of an aggregate. -/
def DbOp.reads : DbOp → Bool
  | .getJob _ | .listTasksForJob _ | .listJobArtifacts _ => true
  | _ => false

/-- The calls of a finalization. -/
def DbOp.finalizes (jobId : JobId) : DbOp → Bool
  | .getJob _ | .listTasksForJob _ | .listJobArtifacts _ | .clearJobArtifactRole _ _
  | .linkJobArtifact _ _ _ _ | .addEvent _ => true
  | .setJobResult j _ => j = jobId
  | .trySetJobStatus j new => j = jobId && new.terminal
  | _ => false

/-- The calls of a finalization before and after it decides. -/
def DbOp.undecided (jobId : JobId) : DbOp → Bool
  | .trySetJobStatus _ _ => false
  | op => op.finalizes jobId

/-- The calls that neither decide a job's status nor end a task. -/
def DbOp.harmless : DbOp → Bool
  | .createJob _ _ | .createTasksForJob _ _ | .setJobStatus _ _ _ | .trySetJobStatus _ _
  | .completeTask _ _ _ | .failTask _ _ _ _ | .reapExpiredLeases | .reapTasksForWorkers _ _
  | .cancelJobTasks _ | .cancelRunningTask _ _ => false
  | _ => true

theorem DbOp.harmless_routed {op : DbOp} (harmless : op.harmless = true) : op.routed = true := by
  cases op <;> first | rfl | contradiction

/-- Every call of the program satisfies a condition on its operation. -/
abbrev Calls (Q : DbOp → Bool) (p : Prog α) : Prop := p.AllCalls fun c => Q c.op = true

theorem perform_calls {Q : DbOp → Bool} {site : Site} {op : DbOp} (holds : Q op = true) :
    Calls Q (perform site op) :=
  ⟨holds, fun answer => by cases answer <;> trivial⟩

theorem liftAt_calls {Q : DbOp → Bool} (site : Site) (value : Except PyErr α) :
    Calls Q (liftAt site value) := by
  cases value <;> trivial

theorem emit_calls {Q : DbOp → Bool} {site : Site} {event : NewEvent}
    (holds : Q (.addEvent event) = true) : Calls Q (emit site event) :=
  (perform_calls holds).bind fun _ => trivial

theorem buildAggregate_calls (site : Site) (jobId : JobId) :
    Calls DbOp.reads (buildAggregate P site jobId) := by
  refine (perform_calls rfl).bind fun found => ?_
  cases found with
  | none => trivial
  | some row =>
    refine (liftAt_calls _ _).bind fun req => (perform_calls rfl).bind fun tasks =>
      (liftAt_calls _ _).bind fun agg => ?_
    dsimp only
    split
    · trivial
    · exact (perform_calls rfl).bind fun _ => trivial

theorem Calls.mono {Q R : DbOp → Bool} {p : Prog α} (weaker : ∀ op, Q op = true → R op = true)
    (calls : Calls Q p) : Calls R p :=
  Program.AllCalls.mono (fun c => weaker c.op) calls

theorem jobView_calls (jobId : JobId) : Calls DbOp.reads (jobView P jobId) := by
  refine (perform_calls rfl).bind fun found => ?_
  cases found with
  | none => trivial
  | some row => exact (buildAggregate_calls _ _).bind fun _ => (liftAt_calls _ _).bind fun _ => trivial

theorem reads_finalizes {jobId : JobId} (op : DbOp) (reads : op.reads = true) :
    op.finalizes jobId = true := by
  cases op <;> first | rfl | contradiction

theorem reads_harmless (op : DbOp) (reads : op.reads = true) : op.harmless = true := by
  cases op <;> first | rfl | contradiction

theorem finalizes_routed (jobId : JobId) (op : DbOp) (finalizes : op.finalizes jobId = true) :
    op.routed = true := by
  cases op with
  | trySetJobStatus j new => exact (Bool.and_eq_true_iff.mp finalizes).2
  | _ => first | rfl | contradiction

theorem finalStatus_terminal (current : JobStatus) (n : Nat) :
    (finalStatus current n).terminal = true := by
  unfold finalStatus
  split
  · rfl
  · split <;> rfl

theorem settleIfTerminal_calls (jobId : JobId) (before : JobStatus) (n : Nat) :
    Calls (DbOp.finalizes jobId) (settleIfTerminal jobId before n) := by
  refine (perform_calls rfl).bind fun tasks => ?_
  split
  · refine (perform_calls rfl).bind fun fresh => ?_
    refine (perform_calls (by simp [DbOp.finalizes, finalStatus_terminal])).bind fun moved => ?_
    split
    · exact emit_calls rfl
    · trivial
  · trivial

theorem linkBestModel_calls (jobId : JobId) (taskId : Option TaskId) (artifactId : Option ArtifactId) :
    Calls (DbOp.finalizes jobId) (linkBestModel jobId taskId artifactId) := by
  unfold linkBestModel
  split
  · exact perform_calls rfl
  · trivial

theorem finalizeJob_calls (jobId : JobId) : Calls (DbOp.finalizes jobId) (finalizeJob P jobId) := by
  refine (perform_calls rfl).bind fun found => ?_
  cases found with
  | none => trivial
  | some row =>
    exact ((buildAggregate_calls _ _).mono reads_finalizes).bind fun (agg, taskId, artifactId) =>
      (perform_calls (by simp [DbOp.finalizes])).bind fun _ => (perform_calls rfl).bind fun _ =>
        (linkBestModel_calls _ _ _).bind fun _ => settleIfTerminal_calls _ _ _

theorem replyJob_calls (jobId : JobId) : Calls DbOp.reads (Route.replyJob P jobId) :=
  (jobView_calls jobId).bind fun _ => trivial

/-- The calls every handler may make at its ends: finalize a job, emit, answer. -/
theorem finalize_routed (jobId : JobId) : Calls DbOp.routed (finalizeJob P jobId) :=
  (finalizeJob_calls jobId).mono (finalizes_routed jobId)

theorem reply_routed (jobId : JobId) : Calls DbOp.routed (Route.replyJob P jobId) :=
  (replyJob_calls jobId).mono fun op reads =>
    finalizes_routed jobId op (reads_finalizes op reads)

theorem cancelRequested_routed (jobId : JobId) : Calls DbOp.routed (Route.cancelRequested P jobId) :=
  (emit_calls rfl).bind fun _ => (finalize_routed jobId).bind fun _ => reply_routed jobId

theorem markCancelled_routed (jobId : JobId) (running : List TaskId) :
    Calls DbOp.routed (Route.markCancelled P jobId running) := by
  refine (perform_calls ?_).bind fun _ => cancelRequested_routed jobId
  cases running <;> rfl

theorem requireWorkerPrincipal_calls {Q : DbOp → Bool} (reads : ∀ w, Q (.getWorker w) = true)
    (workerId : WorkerId) (principal : Principal) :
    Calls Q (Route.requireWorkerPrincipal workerId principal) := by
  refine (perform_calls (reads workerId)).bind fun found => ?_
  cases found with
  | none => trivial
  | some worker =>
    dsimp only
    split
    · trivial
    · split <;> trivial

theorem requireTaskWorkerPrincipal_calls {Q : DbOp → Bool} (reads : ∀ w, Q (.getWorker w) = true)
    (tasks : ∀ t, Q (.getTask t) = true) (taskId : TaskId) (principal : Principal) :
    Calls Q (Route.requireTaskWorkerPrincipal taskId principal) := by
  refine (perform_calls (tasks taskId)).bind fun found => ?_
  cases found with
  | none => trivial
  | some row =>
    dsimp only
    split
    · trivial
    · exact (requireWorkerPrincipal_calls reads _ _).bind fun _ => trivial

theorem requireTaskReporter_calls {Q : DbOp → Bool} (reads : ∀ w, Q (.getWorker w) = true)
    (tasks : ∀ t, Q (.getTask t) = true) (taskId : TaskId) (workerId : WorkerId)
    (principal : Principal) : Calls Q (Route.requireTaskReporter taskId workerId principal) := by
  refine (requireTaskWorkerPrincipal_calls reads tasks taskId principal).bind fun row => ?_
  split <;> trivial

theorem stopTask_routed (row : TaskRow) (workerId : WorkerId) (message : String) (brought : List String) :
    Calls DbOp.routed (Route.stopTask P row workerId message brought) :=
  (perform_calls rfl).bind fun _ => (emit_calls rfl).bind fun _ => finalize_routed _

theorem noteMismatch_calls {Q : DbOp → Bool} (emits : ∀ e, Q (.addEvent e) = true) (row : TaskRow)
    (result : TaskResult) (workerId : WorkerId) : Calls Q (Route.noteMismatch row result workerId) := by
  unfold Route.noteMismatch
  split
  · exact emit_calls (emits _)
  · trivial

theorem taskCompleted_routed (row : TaskRow) (result : TaskResult) (workerId : WorkerId) :
    Calls DbOp.routed (Route.taskCompleted P row result workerId) :=
  (noteMismatch_calls (fun _ => rfl) _ _ _).bind fun _ => (emit_calls rfl).bind fun _ =>
    finalize_routed _

theorem taskFailed_routed (row : TaskRow) (workerId : WorkerId) (error : String) (requeued : Bool) :
    Calls DbOp.routed (Route.taskFailed P row workerId error requeued) :=
  (emit_calls rfl).bind fun _ => (finalize_routed _).bind fun _ => trivial

theorem forEach_calls {Q : DbOp → Bool} {ι : Type} (items : List ι) {body : ι → Prog Unit}
    (each : ∀ item, Calls Q (body item)) : Calls Q (Program.forEach items body) :=
  Program.AllCalls.forEach items fun item _ => each item

theorem cancelIds_calls (taskIds : List TaskId) : Calls DbOp.harmless (Route.cancelIds taskIds) := by
  induction taskIds with
  | nil => trivial
  | cons taskId rest ih =>
    refine (perform_calls rfl).bind fun found => ?_
    cases found with
    | none => exact ih
    | some task => exact (perform_calls rfl).bind fun _ => ih.bind fun _ => trivial

/-- The handlers that make harmless calls only. -/
def Request.harmless : Request → Bool
  | .submitJob _ _ | .registerWorker _ _ | .heartbeat _ _ | .lease _ _ | .startTask _ _ _
  | .taskEvent _ _ _ | .uploadInput _ | .uploadArtifact _ _ _ _ => true
  | _ => false

theorem submitted_calls (jobId : JobId) (n : Nat) :
    Calls DbOp.harmless (Route.submitted P jobId n) :=
  (emit_calls rfl).bind fun _ => (replyJob_calls jobId).mono reads_harmless

theorem submitLost_calls (req : JobRequest) : Calls DbOp.harmless (Route.submitLost P req) := by
  unfold Route.submitLost
  split
  · refine (perform_calls rfl).bind fun found => ?_
    cases found with
    | none => trivial
    | some existing => exact (replyJob_calls _).mono reads_harmless
  · trivial

theorem submitInsert_calls (req : JobRequest) (owner : String) :
    Calls DbOp.harmless (Route.submitInsert P req owner) := by
  refine ⟨rfl, fun answer => ?_⟩
  dsimp only
  split
  · exact submitted_calls _ _
  · exact submitLost_calls req
  · trivial

theorem submitJob_calls (req : JobRequest) (principal : Principal) :
    Calls DbOp.harmless (Route.submitJob P config req principal) := by
  unfold Route.submitJob
  split
  · trivial
  · dsimp only
    split
    · refine (perform_calls rfl).bind fun found => ?_
      cases found with
      | none => exact submitInsert_calls _ _
      | some existing => exact (replyJob_calls _).mono reads_harmless
    · exact submitInsert_calls _ _

theorem handler_harmless {request : Request} (harmless : request.harmless = true) :
    Calls DbOp.harmless (handler P config request) := by
  cases request with
  | submitJob req principal => exact submitJob_calls req principal
  | registerWorker reg principal =>
    exact (perform_calls rfl).bind fun _ => (emit_calls rfl).bind fun _ => trivial
  | heartbeat workerId principal =>
    refine (requireWorkerPrincipal_calls (fun _ => rfl) _ _).bind fun _ =>
      (perform_calls rfl).bind fun found => ?_
    split
    · exact (perform_calls rfl).bind fun taskIds => (cancelIds_calls taskIds).bind fun _ => trivial
    · trivial
  | lease workerId principal =>
    refine (requireWorkerPrincipal_calls (fun _ => rfl) _ _).bind fun _ =>
      (perform_calls rfl).bind fun leased => ?_
    cases leased with
    | none => trivial
    | some payload => exact (emit_calls rfl).bind fun _ => trivial
  | startTask taskId workerId principal =>
    refine (requireWorkerPrincipal_calls (fun _ => rfl) _ _).bind fun _ =>
      ((perform_calls rfl).handle fun fault => ?_).bind fun _ => (emit_calls rfl).bind fun _ => trivial
    unfold Route.startFailed
    split <;> trivial
  | taskEvent taskId event principal =>
    exact (requireTaskWorkerPrincipal_calls (fun _ => rfl) (fun _ => rfl) _ _).bind fun _ =>
      (emit_calls rfl).bind fun _ => trivial
  | uploadInput upload =>
    cases upload with
    | none => trivial
    | some artifact => exact (perform_calls rfl).bind fun _ => trivial
  | uploadArtifact taskId role upload principal =>
    refine (requireTaskWorkerPrincipal_calls (fun _ => rfl) (fun _ => rfl) _ _).bind fun _ => ?_
    cases upload with
    | none => trivial
    | some artifact =>
      exact (perform_calls rfl).bind fun _ => (perform_calls rfl).bind fun _ => trivial
  | cancelJob | completeTask | failTask | reaperTick => contradiction

theorem completeFailed_calls {Q : DbOp → Bool} (fault : Fault) : Calls Q (Route.completeFailed fault) := by
  unfold Route.completeFailed
  split <;> trivial

theorem reportCompleted_routed (row : TaskRow) (result : TaskResult) (workerId : WorkerId)
    (principal : Principal) :
    Calls DbOp.routed (Route.reportCompleted P row result workerId principal) := by
  refine (perform_calls rfl).bind fun job => ?_
  split
  · exact stopTask_routed _ _ _ _
  · exact ((perform_calls rfl).handle fun fault => completeFailed_calls fault).bind fun _ =>
      taskCompleted_routed _ _ _

theorem reportFailed_routed (row : TaskRow) (failure : TaskFailure) (workerId : WorkerId) :
    Calls DbOp.routed (Route.reportFailed P row failure workerId) := by
  refine (perform_calls rfl).bind fun job => ?_
  split
  · exact (stopTask_routed _ _ _ _).bind fun _ => trivial
  · refine ⟨rfl, fun answer => ?_⟩
    dsimp only
    split
    · exact taskFailed_routed _ _ _ _
    · trivial
    · trivial

theorem finalizeAll_routed (jobIds : List JobId) :
    Calls DbOp.routed (Program.forEach jobIds (finalizeJob P)) :=
  forEach_calls jobIds finalize_routed

theorem finalizeReaped_routed (order : SetOrder) (lost affected : List (TaskId × JobId)) :
    Calls DbOp.routed (finalizeReaped P order lost affected) :=
  (forEach_calls _ fun _ => emit_calls rfl).bind fun _ => finalizeAll_routed _

theorem reapLeases_routed (order : SetOrder) (lost : List (TaskId × JobId)) :
    Calls DbOp.routed (reapLeases P order lost) :=
  (forEach_calls _ fun _ => emit_calls rfl).bind fun _ => (perform_calls rfl).bind fun _ =>
    finalizeReaped_routed _ _ _

theorem reap_routed (order : SetOrder) : Calls DbOp.routed (reap P config order) :=
  (perform_calls rfl).bind fun _ => (forEach_calls _ fun _ => emit_calls rfl).bind fun _ =>
    (perform_calls rfl).bind fun _ => reapLeases_routed _ _

theorem handler_routed (request : Request) : Calls DbOp.routed (handler P config request) := by
  cases harmless : request.harmless with
  | true => exact (handler_harmless harmless).mono fun _ => DbOp.harmless_routed
  | false =>
    cases request with
    | cancelJob jobId =>
      refine (perform_calls rfl).bind fun found => ?_
      cases found with
      | none => trivial
      | some row =>
        dsimp only
        split
        · exact reply_routed jobId
        · exact (perform_calls rfl).bind fun running => markCancelled_routed jobId running
    | completeTask _ taskId result workerId principal =>
      exact (requireTaskReporter_calls (fun _ => rfl) (fun _ => rfl) _ _ _).bind fun row =>
        (reportCompleted_routed row result workerId principal).bind fun _ => trivial
    | failTask _ taskId failure workerId principal =>
      exact (requireTaskReporter_calls (fun _ => rfl) (fun _ => rfl) _ _ _).bind fun row =>
        reportFailed_routed row failure workerId
    | reaperTick order =>
      exact ((reap_routed order).handle fun _ => emit_calls rfl).bind fun _ => trivial
    | _ => contradiction

end N4Cluster
