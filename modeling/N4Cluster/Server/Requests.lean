import N4Cluster.Server.Interleaving

/-! Which calls a request makes, with the arguments it passes: what a run may
do to the store is read off the requests in its pool. -/
namespace N4Cluster
open Interleave

/-- The calls every request may make: reads and events. -/
def DbOp.common : DbOp → Bool
  | .findJobByIdempotency _ | .getTask _ | .tasksForWorker _ | .getWorker _ | .getJob _
  | .listTasksForJob _ | .listJobArtifacts _ | .addEvent _ => true
  | _ => false

/-- The writes of the finalization of a job. -/
def DbOp.writesFinal (jobId : JobId) (op : DbOp) : Prop :=
  match op with
  | .setJobResult j _ => j = jobId
  | .clearJobArtifactRole j role => j = jobId ∧ role = "best_model"
  | .linkJobArtifact j _ role _ => j = jobId ∧ role = "best_model"
  | .trySetJobStatus j new => j = jobId ∧ new.terminal = true
  | _ => False

/-- The writes of a request outside finalizations. -/
def Request.writes (config : ServerConfig) (request : Request) (op : DbOp) : Prop :=
  match request, op with
  | .submitJob req principal, .createJobWithTasks req' owner =>
    req' = Route.acceptedRequest req principal ∧ owner = some principal.name
  | .cancelJob jobId, .cancelJobTasks k => k = jobId
  | .cancelJob jobId, .setJobStatus k status error =>
    k = jobId ∧ (status = .cancelling ∨ status = .cancelled) ∧ error = none
  | .registerWorker reg principal, .registerWorker reg' owner =>
    reg' = reg ∧ owner = some principal.name
  | .heartbeat workerId _, .heartbeatWorker w ttl => w = workerId ∧ ttl = some config.leaseTtlS
  | .lease workerId _, .leaseNextTask w ttl => w = workerId ∧ ttl = config.leaseTtlS
  | .startTask taskId workerId _, .startTask t w => t = taskId ∧ w = workerId
  | .uploadInput upload, .addArtifact artifact => upload = some artifact
  | .uploadArtifact _ _ upload _, .addArtifact artifact => upload = some artifact
  | .uploadArtifact taskId role _ _, .linkJobArtifact _ t role' _ => t = some taskId ∧ role' = role
  | .completeTask _ _ result workerId principal, .completeTask t w stored =>
    w = workerId ∧ ∃ row : TaskRow, t = row.id ∧
      stored = Route.attestedResult result row workerId principal
  | .completeTask _ _ _ workerId _, .cancelRunningTask _ w => w = workerId
  | .failTask _ _ failure workerId _, .failTask _ w error retriable =>
    w = some workerId ∧ error = failure.error ∧ retriable = failure.retriable
  | .failTask _ _ _ workerId _, .cancelRunningTask _ w => w = workerId
  | .reaperTick _, .markDeadWorkers ttl => ttl = config.workerDeadAfterS
  | .reaperTick _, .reapTasksForWorkers _ error => error = "worker lost"
  | .reaperTick _, .reapExpiredLeases => True
  | _, _ => False

/-- The requests that finalize jobs. -/
def Request.finalizes : Request → Bool
  | .cancelJob _ | .completeTask _ _ _ _ _ | .failTask _ _ _ _ _ | .reaperTick _ => true
  | _ => false

/-- The calls a request may make. -/
def Request.makes (config : ServerConfig) (request : Request) (op : DbOp) : Prop :=
  op.common = true ∨ request.writes config op ∨
    request.finalizes = true ∧ ∃ jobId, op.writesFinal jobId

variable {P : Platform} {config : ServerConfig} {α : Type} {request : Request}

/-- Every call of the program is one the request may make. -/
abbrev Makes (config : ServerConfig) (request : Request) (p : Prog α) : Prop :=
  p.AllCalls fun c => request.makes config c.op

theorem perform_all {Q : DbOp → Prop} {site : Site} {op : DbOp} (holds : Q op) :
    (perform site op).AllCalls fun c => Q c.op :=
  ⟨holds, fun answer => by cases answer <;> trivial⟩

theorem perform_common {site : Site} {op : DbOp} (common : op.common = true) :
    Makes config request (perform site op) := perform_all (.inl common)

theorem common_makes {p : Prog α} (calls : Calls DbOp.common p) : Makes config request p :=
  Program.AllCalls.mono (fun _ common => .inl common) calls

theorem emit_makes (site : Site) (event : NewEvent) : Makes config request (emit site event) :=
  common_makes (emit_calls rfl)

theorem reads_common (op : DbOp) (reads : op.reads = true) : op.common = true := by
  cases op <;> first | rfl | contradiction

theorem reply_makes (jobId : JobId) : Makes config request (Route.replyJob P jobId) :=
  common_makes ((replyJob_calls jobId).mono reads_common)

theorem buildAggregate_makes (site : Site) (jobId : JobId) :
    Makes config request (buildAggregate P site jobId) :=
  common_makes ((buildAggregate_calls site jobId).mono reads_common)

theorem final_makes {site : Site} {op : DbOp} (finalizes : request.finalizes = true)
    (jobId : JobId) (writes : op.writesFinal jobId) : Makes config request (perform site op) :=
  perform_all (.inr (.inr ⟨finalizes, jobId, writes⟩))

theorem settleIfTerminal_makes (finalizes : request.finalizes = true) (jobId : JobId)
    (before : JobStatus) (n : Nat) : Makes config request (settleIfTerminal jobId before n) := by
  refine (perform_common rfl).bind fun tasks => ?_
  split
  · refine (perform_common rfl).bind fun fresh => ?_
    refine (final_makes finalizes jobId (by exact ⟨rfl, finalStatus_terminal _ _⟩)).bind fun moved => ?_
    split
    · exact emit_makes _ _
    · trivial
  · trivial

theorem finalizeJob_makes (finalizes : request.finalizes = true) (jobId : JobId) :
    Makes config request (finalizeJob P jobId) := by
  refine (perform_common rfl).bind fun found => ?_
  cases found with
  | none => trivial
  | some row =>
    refine (buildAggregate_makes _ _).bind fun (agg, taskId, artifactId) =>
      (final_makes finalizes jobId (by exact rfl)).bind fun _ =>
        (final_makes finalizes jobId (by exact ⟨rfl, rfl⟩)).bind fun _ =>
          Program.AllCalls.bind ?_ fun _ => settleIfTerminal_makes finalizes jobId _ _
    unfold linkBestModel
    split
    · exact final_makes finalizes jobId (by exact ⟨rfl, rfl⟩)
    · trivial

theorem write_makes {site : Site} {op : DbOp} (writes : request.writes config op) :
    Makes config request (perform site op) := perform_all (.inr (.inl writes))

theorem requireWorkerPrincipal_makes (workerId : WorkerId) (principal : Principal) :
    Makes config request (Route.requireWorkerPrincipal workerId principal) :=
  common_makes (requireWorkerPrincipal_calls (fun _ => rfl) _ _)

theorem requireTaskReporter_makes (taskId : TaskId) (workerId : WorkerId) (principal : Principal) :
    Makes config request (Route.requireTaskReporter taskId workerId principal) :=
  common_makes (requireTaskReporter_calls (fun _ => rfl) (fun _ => rfl) _ _ _)

theorem stopTask_makes (finalizes : request.finalizes = true) {row : TaskRow} {workerId : WorkerId}
    (stops : request.writes config (.cancelRunningTask row.id workerId)) (message : String)
    (brought : List String) : Makes config request (Route.stopTask P row workerId message brought) :=
  (write_makes stops).bind fun _ => (emit_makes _ _).bind fun _ => finalizeJob_makes finalizes _

theorem submitInsert_makes (req : JobRequest) (principal : Principal) :
    Makes config (.submitJob req principal)
      (Route.submitInsert P (Route.acceptedRequest req principal) principal.name) := by
  refine ⟨.inr (.inl ⟨rfl, rfl⟩), fun answer => ?_⟩
  dsimp only
  split
  · exact (emit_makes _ _).bind fun _ => reply_makes _
  · unfold Route.submitLost
    split
    · refine (perform_common rfl).bind fun found => ?_
      cases found with
      | none => trivial
      | some existing => exact reply_makes _
    · trivial
  · trivial

theorem submitJob_makes (req : JobRequest) (principal : Principal) :
    Makes config (.submitJob req principal) (Route.submitJob P config req principal) := by
  unfold Route.submitJob
  split
  · trivial
  · dsimp only
    split
    · refine (perform_common rfl).bind fun found => ?_
      cases found with
      | none => exact submitInsert_makes req principal
      | some existing => exact reply_makes _
    · exact submitInsert_makes req principal

theorem reaperTick_makes (order : SetOrder) :
    Makes config (.reaperTick order) (reaperTick P config order) := by
  refine Program.AllCalls.bind (Program.AllCalls.handle ?_ fun _ => emit_makes _ _) fun _ => by trivial
  refine (write_makes (by exact rfl)).bind fun dead => (Program.AllCalls.forEach _ fun _ _ => emit_makes _ _).bind
    fun _ => (write_makes (by exact rfl)).bind fun lost => ?_
  refine (Program.AllCalls.forEach _ fun _ _ => emit_makes _ _).bind fun _ =>
    (write_makes (by exact trivial)).bind fun affected => ?_
  exact (Program.AllCalls.forEach _ fun _ _ => emit_makes _ _).bind fun _ =>
    Program.AllCalls.forEach _ fun jobId _ => finalizeJob_makes rfl jobId

theorem handler_makes (request : Request) : Makes config request (handler P config request) := by
  cases request with
  | submitJob req principal => exact submitJob_makes req principal
  | cancelJob jobId =>
    refine (perform_common rfl).bind fun found => ?_
    cases found with
    | none => trivial
    | some row =>
      dsimp only
      split
      · exact reply_makes jobId
      · refine (write_makes (by exact rfl)).bind fun running => Program.AllCalls.bind ?_ fun _ =>
          (emit_makes _ _).bind fun _ => (finalizeJob_makes rfl jobId).bind fun _ => reply_makes jobId
        cases running with
        | nil => exact write_makes ⟨rfl, .inr rfl, rfl⟩
        | cons => exact write_makes ⟨rfl, .inl rfl, rfl⟩
  | registerWorker reg principal =>
    exact (write_makes (by exact ⟨rfl, rfl⟩)).bind fun _ => (emit_makes _ _).bind fun _ => trivial
  | heartbeat workerId principal =>
    refine (requireWorkerPrincipal_makes _ _).bind fun _ => (write_makes (by exact ⟨rfl, rfl⟩)).bind fun found => ?_
    split
    · refine (perform_common rfl).bind fun taskIds => Program.AllCalls.bind ?_ fun _ => trivial
      induction taskIds with
      | nil => trivial
      | cons taskId rest ih =>
        refine (perform_common rfl).bind fun found => ?_
        cases found with
        | none => exact ih
        | some task => exact (perform_common rfl).bind fun _ => ih.bind fun _ => trivial
    · trivial
  | lease workerId principal =>
    refine (requireWorkerPrincipal_makes _ _).bind fun _ => (write_makes (by exact ⟨rfl, rfl⟩)).bind fun leased => ?_
    cases leased with
    | none => trivial
    | some payload => exact (emit_makes _ _).bind fun _ => trivial
  | startTask taskId workerId principal =>
    refine (requireWorkerPrincipal_makes _ _).bind fun _ =>
      ((write_makes (by exact ⟨rfl, rfl⟩)).handle fun fault => ?_).bind fun _ => (emit_makes _ _).bind fun _ => trivial
    unfold Route.startFailed
    split <;> trivial
  | taskEvent taskId event principal =>
    exact (common_makes (requireTaskWorkerPrincipal_calls (fun _ => rfl) (fun _ => rfl) _ _)).bind
      fun _ => (emit_makes _ _).bind fun _ => trivial
  | uploadInput upload =>
    cases upload with
    | none => trivial
    | some artifact => exact (write_makes (by exact rfl)).bind fun _ => trivial
  | uploadArtifact taskId role upload principal =>
    refine (common_makes (requireTaskWorkerPrincipal_calls (fun _ => rfl) (fun _ => rfl) _ _)).bind
      fun _ => ?_
    cases upload with
    | none => trivial
    | some artifact =>
      exact (write_makes (by exact rfl)).bind fun _ => (write_makes (by exact ⟨rfl, rfl⟩)).bind fun _ => trivial
  | completeTask attempt taskId result workerId principal =>
    refine (requireTaskReporter_makes _ _ _).bind fun row => Program.AllCalls.bind ?_ fun _ => trivial
    refine (perform_common rfl).bind fun job => ?_
    split
    · exact stopTask_makes rfl (by exact rfl) _ _
    · exact ((write_makes (by exact ⟨rfl, row, rfl, rfl⟩)).handle fun fault =>
        common_makes (completeFailed_calls fault)).bind
        fun _ => (common_makes (noteMismatch_calls (fun _ => rfl) _ _ _)).bind fun _ =>
          (emit_makes _ _).bind fun _ => finalizeJob_makes rfl _
  | failTask attempt taskId failure workerId principal =>
    refine (requireTaskReporter_makes _ _ _).bind fun row => (perform_common rfl).bind fun job => ?_
    split
    · exact (stopTask_makes rfl (by exact rfl) _ _).bind fun _ => trivial
    · refine ⟨.inr (.inl ⟨rfl, rfl, rfl⟩), fun answer => ?_⟩
      dsimp only
      split
      · exact (emit_makes _ _).bind fun _ => (finalizeJob_makes rfl _).bind fun _ => trivial
      · trivial
      · trivial
  | reaperTick order => exact reaperTick_makes order

/-- Every thread of a pool makes only the calls of its request. -/
def Requesting (config : ServerConfig) (p : ServerPool) : Prop :=
  ∀ th ∈ p.threads, Makes config th.request th.program

theorem started_requesting : Requesting config started := fun _ member => nomatch member

theorem Requesting.step {p q : ServerPool} {l : Turn} (requesting : Requesting config p)
    (stepped : (server P config).take p l = some q) : Requesting config q := by
  cases l with
  | spawn request =>
    cases Option.some.inj stepped
    intro th member
    rcases List.mem_append.mp member with old | new
    · exact requesting th old
    · rw [List.mem_singleton.mp new]
      exact handler_makes request
  | restart =>
    cases Option.some.inj stepped
    exact fun _ member => nomatch member
  | sched i io =>
    obtain ⟨request, c, next, found, rfl⟩ := System.sched_cases stepped
    intro th member
    rcases List.mem_or_eq_of_mem_set member with old | rfl
    · exact requesting th old
    · exact (requesting _ (List.mem_of_getElem? found)).2 _

/-! The arguments from the configuration. -/

theorem makes_marks {ttl : Time} (makes : request.makes config (.markDeadWorkers ttl)) :
    ttl = config.workerDeadAfterS := by
  rcases makes with common | writes | ⟨_, _, final⟩
  · contradiction
  · cases request <;> first | exact writes | contradiction
  · contradiction

theorem makes_lease {ttl : Time} (makes : request.makes config (.leaseNextTask w ttl)) :
    ttl = config.leaseTtlS := by
  rcases makes with common | writes | ⟨_, _, final⟩
  · contradiction
  · cases request <;> first | exact writes.2 | contradiction
  · contradiction

theorem makes_heartbeat {ttl : Option Time} (makes : request.makes config (.heartbeatWorker w ttl)) :
    ttl = some config.leaseTtlS := by
  rcases makes with common | writes | ⟨_, _, final⟩
  · contradiction
  · cases request <;> first | exact writes.2 | contradiction
  · contradiction

theorem Requesting.made {p : ServerPool} {i : Nat} {c : Call} {next : Call.Ret c → Prog Reply}
    (requesting : Requesting config p) (found : p.threads[i]? = some ⟨request, .call c next⟩) :
    request.makes config c.op :=
  (requesting _ (List.mem_of_getElem? found)).1

end N4Cluster
