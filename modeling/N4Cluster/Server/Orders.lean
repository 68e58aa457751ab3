import N4Cluster.Base.Extension
import N4Cluster.Server.References

/-! What the server tells workers to stop. Only the answers to heartbeats do so, and only of
tasks whose job is being cancelled or is over without success, which it then stays. -/
namespace N4Cluster
open Relational Transactional Relation Interleave

variable {P : Platform} {config : ServerConfig} {io : Io} {op : DbOp} {db db' : Db} {s : Session Db}
  {taskId : TaskId} {jobId : JobId} {α : Type}

/-! ## Jobs that halt -/

/-- Being cancelled, or what becomes of that. -/
def JobStatus.halted : JobStatus → Bool
  | .cancelling | .cancelled | .failed => true
  | _ => false

def Db.Halts (db : Db) (jobId : JobId) : Prop := ∃ row, db.jobs.get jobId = some row ∧ row.status.halted = true

/-- The task of a job that halts. -/
def Db.Stops (db : Db) (taskId : TaskId) : Prop := ∃ r, db.tasks.get taskId = some r ∧ db.Halts r.jobId

/-- Jobs that halt go on to. -/
structure Heeds (db db' : Db) : Prop where
  evolves : Evolves db db'
  halts : ∀ jobId, db.Halts jobId → db'.Halts jobId

theorem Heeds.refl (db : Db) : Heeds db db := ⟨.refl db, fun _ halts => halts⟩

theorem Heeds.trans {a b c : Db} (first : Heeds a b) (second : Heeds b c) : Heeds a c :=
  ⟨first.evolves.trans second.evolves, fun jobId halts => second.halts jobId (first.halts jobId halts)⟩

theorem Db.Stops.later (stops : db.Stops taskId) (heeds : Heeds db db') : db'.Stops taskId := by
  obtain ⟨r, found, halts⟩ := stops
  obtain ⟨r', found', job, _⟩ := heeds.evolves.task taskId r found
  exact ⟨r', found', job ▸ heeds.halts r.jobId halts⟩

theorem cancelAccepted_halts {row : Option JobRow} (accepted : cancelAccepted row = true)
    (found : db.jobs.get jobId = row) : db.Halts jobId := by
  obtain ⟨job, rfl, status⟩ := (Option.any_eq_true _ _).mp accepted
  refine ⟨job, found, ?_⟩
  rw [Bool.or_eq_true, decide_eq_true_eq, decide_eq_true_eq] at status
  rcases status with cancelling | cancelled
  · rw [cancelling]
    rfl
  · rw [cancelled]
    rfl

/-- From there the table leads to cancelled and to failed, where routes leave a job. -/
theorem exec_heeds (routed : op.routed = true) (fresh : Fresh io s.live op) (sound : Sound s) :
    Heeds s.live (op.after P io s).live := by
  have evolves := (exec_sound (P := P) routed fresh sound).2
  refine ⟨evolves, fun jobId halts => ?_⟩
  obtain ⟨row, found, halted⟩ := halts
  obtain ⟨row', found', stepped⟩ := exec_job_step (P := P) io op found
  refine ⟨row', found', ?_⟩
  cases terminal : row.status.terminal with
  | true =>
    obtain ⟨row'', found'', _, ended⟩ := evolves.job jobId row found
    cases found'.symm.trans found''
    rw [ended terminal]
    exact halted
  | false =>
    have cancelling : row.status = .cancelling := by
      generalize row.status = status at halted terminal
      cases status <;> first | rfl | contradiction
    rw [cancelling] at stepped
    rcases stepped with same | moved
    · rw [same]
      rfl
    · generalize row'.status = status at moved
      cases status <;> first | rfl | contradiction

/-! ## What heartbeats are answered -/

def heeding (P : Platform) : Discipline (machine P) where
  inv := Sound
  moves s t := Heeds s.live t.live
  due _ c := c.op.routed = true
  refl s := .refl s.live
  trans := Heeds.trans
  kept sound fresh routed := ⟨(exec_sound (P := P) routed fresh sound).1, exec_heeds (P := P) routed fresh sound⟩

/-- The tasks that an answer tells its worker to stop. -/
def Reply.stopped : Reply → List TaskId
  | .ack ids => ids
  | _ => []

/-- What an answer tells its worker to stop is to be stopped. -/
def Orders (_ : Request) (reply : Reply) (s : Session Db) : Prop := ∀ taskId ∈ reply.stopped, s.live.Stops taskId

section
variable {site : Site}

theorem heeds_calls {p : Prog α} (routed : Calls DbOp.routed p) (s : Session Db) :
    (heeding P).Keeps (fun _ _ => True) p s :=
  .of_calls (D := heeding P) routed (fun _ _ _ due => due) s

theorem heeds_answer {Q : op.Ret → Session Db → Prop} (routed : op.routed = true)
    (answered : ∀ s' io value t, op.exec P io s' = (.ok value, t) → Q value t) :
    (heeding P).Keeps Q (perform site op) s :=
  perform_keeps (D := heeding P) (fun _ _ _ _ _ => routed) fun s' io value t _ _ _ ran _ => answered s' io value t ran

theorem cancelIds_orders (taskIds : List TaskId) (s : Session Db) :
    (heeding P).Keeps (fun ids t => ∀ taskId ∈ ids, t.live.Stops taskId) (Route.cancelIds taskIds) s := by
  induction taskIds generalizing s with
  | nil => exact .ret fun _ member => False.elim (List.not_mem_nil member)
  | cons taskId rest ih =>
    refine (heeds_answer (Q := fun found t => ∀ task, found = some task → t.live.tasks.get taskId = some task) rfl
      ?_).bind fun found t _ held => ?_
    · intro s' io found t ran task here
      cases ran
      exact here
    · cases found with
      | none => exact ih t
      | some task =>
        refine (heeds_answer (Q := fun job u => cancelAccepted job = true → u.live.Halts task.jobId) rfl ?_).bind
          fun job u moved halts => (ih u).bind fun others v later ordered => .ret fun id member => ?_
        · intro s' io job u ran accepted
          cases ran
          exact cancelAccepted_halts accepted rfl
        · split at member
          · rename_i accepted
            rcases List.mem_cons.mp member with rfl | other
            · obtain ⟨r, found, job, _⟩ := moved.evolves.task id task (held task rfl)
              exact Db.Stops.later ⟨r, found, job ▸ halts accepted⟩ later
            · exact ordered id other
          · exact ordered id member

theorem heartbeat_orders (workerId : WorkerId) (principal : Principal) (s : Session Db) :
    (heeding P).Keeps (Orders (.heartbeat workerId principal)) (Route.heartbeat config workerId principal) s := by
  unfold Route.heartbeat
  refine (heeds_calls (requireWorkerPrincipal_calls (fun _ => rfl) _ _) s).bind fun _ t _ _ => ?_
  refine (heeds_calls (perform_calls rfl) t).bind fun known u _ _ => ?_
  split
  · refine (heeds_calls (perform_calls rfl) u).bind fun taskIds v _ _ => ?_
    exact (cancelIds_orders taskIds v).bind fun _ _ _ ordered => .ret ordered
  · exact .raise _

end

/-- No other request is answered with tasks to stop. -/
def Unordering (p : Prog Reply) : Prop := p.Returns fun reply => reply.stopped = []

theorem replyJob_unordering (jobId : JobId) : Unordering (Route.replyJob P jobId) := .bind fun _ => rfl

theorem submitLost_unordering (req : JobRequest) : Unordering (Route.submitLost P req) := by
  unfold Route.submitLost
  split
  · refine .bind fun found => ?_
    cases found with
    | none => trivial
    | some existing => exact replyJob_unordering _
  · trivial

theorem submitInsert_unordering (req : JobRequest) (owner : String) : Unordering (Route.submitInsert P req owner) := by
  intro answer
  dsimp only
  split
  · exact .bind fun _ => replyJob_unordering _
  · exact submitLost_unordering req
  · trivial

theorem submitJob_unordering (req : JobRequest) (principal : Principal) :
    Unordering (Route.submitJob P config req principal) := by
  unfold Route.submitJob
  split
  · trivial
  · dsimp only
    split
    · refine .bind fun found => ?_
      cases found with
      | none => exact submitInsert_unordering _ _
      | some existing => exact replyJob_unordering _
    · exact submitInsert_unordering _ _

theorem cancelJob_unordering (jobId : JobId) : Unordering (Route.cancelJob P jobId) := by
  refine .bind fun found => ?_
  cases found with
  | none => trivial
  | some row =>
    dsimp only
    split
    · exact replyJob_unordering _
    · exact .bind fun _ => .bind fun _ => .bind fun _ => .bind fun _ => replyJob_unordering _

theorem failTask_unordering (taskId : TaskId) (failure : TaskFailure) (workerId : WorkerId) (principal : Principal) :
    Unordering (Route.failTask P taskId failure workerId principal) := by
  refine .bind fun row => .bind fun job => ?_
  split
  · exact .bind fun _ => rfl
  · intro answer
    dsimp only
    split
    · exact .bind fun _ => .bind fun _ => rfl
    · rfl
    · trivial

theorem handler_orders (request : Request) (s : Session Db) :
    (heeding P).Keeps (Orders request) (handler P config request) s := by
  have unordering (returns : Unordering (handler P config request)) :
      (heeding P).Keeps (Orders request) (handler P config request) s := by
    refine (Discipline.Keeps.of_returns (D := heeding P) (handler_routed request) returns (fun _ _ _ due => due) s).mono
      fun reply t _ none => ?_
    rw [Orders, none]
    exact fun _ member => False.elim (List.not_mem_nil member)
  cases request with
  | heartbeat workerId principal => exact heartbeat_orders workerId principal s
  | submitJob req principal => exact unordering (submitJob_unordering req principal)
  | cancelJob jobId => exact unordering (cancelJob_unordering jobId)
  | registerWorker reg principal => exact unordering (.bind fun _ => .bind fun _ => rfl)
  | lease workerId principal =>
    refine unordering (.bind fun _ => .bind fun leased => ?_)
    cases leased with
    | none => rfl
    | some payload => exact .bind fun _ => rfl
  | startTask taskId workerId principal => exact unordering (.bind fun _ => .bind fun _ => .bind fun _ => rfl)
  | taskEvent taskId event principal => exact unordering (.bind fun _ => .bind fun _ => rfl)
  | uploadInput upload =>
    cases upload with
    | none => exact unordering trivial
    | some artifact => exact unordering (.bind fun _ => rfl)
  | uploadArtifact taskId role upload principal =>
    refine unordering (.bind fun row => ?_)
    cases upload with
    | none => trivial
    | some artifact => exact .bind fun _ => .bind fun _ => rfl
  | completeTask attempt taskId result workerId principal => exact unordering (.bind fun _ => .bind fun _ => rfl)
  | failTask attempt taskId failure workerId principal => exact unordering (failTask_unordering _ _ _ _)
  | reaperTick order => exact unordering (.bind fun _ => rfl)

theorem heeding_governs (P : Platform) (config : ServerConfig) :
    Discipline.Governs (S := server P config) (heeding P) Orders where
  serves p request _ _ := handler_orders request p.store
  recovers s sound := by
    have same : (server P config).recover s = s := by
      rw [sound.settled]
      rfl
    exact same.symm ▸ ⟨sound, (heeding P).refl s⟩
  stays moved ordered taskId member := (ordered taskId member).later moved

end N4Cluster
