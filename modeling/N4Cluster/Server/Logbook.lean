import N4Cluster.Server.Announcements
import N4Cluster.Server.Orders
import N4Cluster.Server.Views

/-! What the log says. Events are added in calls of their own, after the change they speak of and
between the calls of other handlers, but what they say is true when they are added and stays so:
a job is said to have ended as it has, a task to have completed that succeeded. The route that
workers post their events on does not look at the type, so this holds where they post none of
the server's own. -/
namespace N4Cluster
open Relational Transactional Relation Interleave

variable {P : Platform} {config : ServerConfig} {io : Io} {op : DbOp} {db db' : Db} {s : Session Db}
  {taskId : TaskId} {jobId : JobId} {α : Type}

/-! ## What events say -/

/-- The events that say something of a job or a task that can be looked up ever after. -/
inductive Claim where
  | ended (status : JobStatus)
  | submitted
  | cancelRequested
  | completed
  | mismatched
deriving DecidableEq

/-- All of them. -/
def Claim.all : List Claim :=
  [.ended .queued, .ended .running, .ended .succeeded, .ended .failed, .ended .cancelling, .ended .cancelled,
    .submitted, .cancelRequested, .completed, .mismatched]

def Claim.type : Claim → String
  | .ended status => "job_" ++ status.value
  | .submitted => "job_submitted"
  | .cancelRequested => "job_cancel_requested"
  | .completed => "task_completed"
  | .mismatched => "pipeline_fingerprint_mismatch"

/-- Whether events of the type claim anything. -/
def claims (type : String) : Bool := Claim.all.any fun claim => claim.type == type

theorem Claim.claims (claim : Claim) : N4Cluster.claims claim.type = true := by
  rcases claim with ⟨⟨⟩⟩ | _ | _ | _ | _ <;> decide

theorem Claim.type_injective {a b : Claim} (same : a.type = b.type) : a = b := by
  revert same
  rcases a with ⟨⟨⟩⟩ | _ | _ | _ | _ <;> rcases b with ⟨⟨⟩⟩ | _ | _ | _ | _ <;> decide

/-- The task that an event is about has succeeded. -/
def Db.Succeeds (db : Db) (e : NewEvent) (holds : TaskRow → Prop) : Prop :=
  ∃ taskId r, e.taskId = some taskId ∧ db.tasks.get taskId = some r ∧ r.status = .succeeded ∧
    e.jobId = some r.jobId ∧ holds r

def Db.Bears (db : Db) (e : NewEvent) : Claim → Prop
  | .ended status => ∃ jobId, e.jobId = some jobId ∧ db.jobStatus jobId = some status ∧ status.terminal = true
  | .submitted => ∃ jobId, e.jobId = some jobId ∧ (db.jobs.get jobId).isSome = true ∧
    e.message = (Route.submittedEvent jobId (db.jobTasks jobId).length).message
  | .cancelRequested => ∃ jobId, e.jobId = some jobId ∧ db.Halts jobId
  | .completed => db.Succeeds e fun _ => True
  | .mismatched => db.Succeeds e fun r =>
    ∃ result, r.result = some result ∧ Route.fingerprintMismatch r result = true

/-- What the event says is true. -/
def Db.Tells (db : Db) (e : NewEvent) : Prop := ∀ claim : Claim, e.type = claim.type → db.Bears e claim

theorem Db.Tells.of_claim {e : NewEvent} (claim : Claim) (type : e.type = claim.type) (bears : db.Bears e claim) :
    db.Tells e := by
  intro other same
  rw [← Claim.type_injective (type.symm.trans same)]
  exact bears

structure Recalls (db db' : Db) : Prop where
  follows : Follows db db'
  heeds : Heeds db db'

theorem Recalls.refl (db : Db) : Recalls db db := ⟨.refl db, .refl db⟩

theorem Recalls.trans {a b c : Db} (first : Recalls a b) (second : Recalls b c) : Recalls a c :=
  ⟨first.follows.trans second.follows, first.heeds.trans second.heeds⟩

theorem Db.Succeeds.later {e : NewEvent} {holds : TaskRow → Prop} (succeeds : db.Succeeds e holds)
    (recalls : Recalls db db') : db'.Succeeds e holds := by
  obtain ⟨taskId, r, about, found, succeeded, job, rest⟩ := succeeds
  obtain ⟨r', found', _, kept⟩ := recalls.heeds.evolves.task taskId r found
  obtain rfl : r' = r := kept (by rw [succeeded]; rfl)
  exact ⟨taskId, r', about, found', succeeded, job, rest⟩

theorem Db.Tells.later {e : NewEvent} (tells : db.Tells e) (recalls : Recalls db db') : db'.Tells e := by
  intro claim type
  have bears := tells claim type
  cases claim with
  | ended status =>
    obtain ⟨jobId, about, now, terminal⟩ := bears
    exact ⟨jobId, about, recalls.heeds.evolves.ended terminal now, terminal⟩
  | submitted =>
    obtain ⟨jobId, about, held, message⟩ := bears
    refine ⟨jobId, about, recalls.heeds.evolves.exists_job held, ?_⟩
    have same := congrArg List.length (recalls.follows.origins jobId held)
    rw [originsOf_eq, originsOf_eq, List.length_map, List.length_map] at same
    rw [same]
    exact message
  | cancelRequested =>
    obtain ⟨jobId, about, halts⟩ := bears
    exact ⟨jobId, about, recalls.heeds.halts jobId halts⟩
  | completed => exact Db.Succeeds.later bears recalls
  | mismatched => exact Db.Succeeds.later bears recalls

theorem exec_recalls (routed : op.routed = true) (fresh : Fresh io s.live op) (sound : Sound s) :
    Recalls s.live (op.after P io s).live :=
  ⟨exec_follows routed fresh sound, exec_heeds (P := P) routed fresh sound⟩

/-! ## What handlers say -/

/-- Calls say what is true. -/
def telling (P : Platform) : Discipline (machine P) where
  inv s := Sound s ∧ ∀ e ∈ s.live.events, s.live.Tells e.posted
  moves s t := Recalls s.live t.live
  due s c := c.op.routed = true ∧ ∀ e, c.op = .addEvent e → s.live.Tells e
  refl s := .refl s.live
  trans := Recalls.trans
  kept inv fresh due := by
    have recalls := exec_recalls (P := P) due.1 fresh inv.1
    refine ⟨⟨(exec_sound (P := P) due.1 fresh inv.1).1, fun e member => ?_⟩, recalls⟩
    rcases exec_posted (P := P) member with old | ⟨brought, posts⟩
    · exact (inv.2 e old).later recalls
    · exact (due.2 _ posts).later recalls

/-- The calls of routes that add no event. -/
def DbOp.silent : DbOp → Bool
  | .addEvent _ => false
  | op => op.routed

theorem silent_due (silent : op.silent = true) (s : Session Db) (site : Site) : (telling P).due s ⟨site, op⟩ := by
  refine ⟨?_, fun e posts => ?_⟩
  · cases op <;> first | exact silent | rfl
  · change op = .addEvent e at posts
    rw [posts] at silent
    contradiction

section
variable {site : Site} {event : NewEvent}

theorem tells_calls {p : Prog α} (silent : Calls DbOp.silent p) (s : Session Db) :
    (telling P).Keeps (fun _ _ => True) p s :=
  .of_calls (D := telling P) silent (fun t c _ silent => silent_due silent t c.site) s

theorem tells_reads {p : Prog α} (reads : Calls DbOp.reads p) (s : Session Db) :
    (telling P).Keeps (fun _ _ => True) p s :=
  tells_calls (reads.mono fun op reads => by cases op <;> first | rfl | contradiction) s

theorem tells_quiet (silent : op.silent = true) (s : Session Db) :
    (telling P).Keeps (fun _ _ => True) (perform site op) s :=
  tells_calls (perform_calls silent) s

theorem tells_answer {Q : op.Ret → Session Db → Prop} (silent : op.silent = true)
    (answered : ∀ s' io value t, Recalls s.live s'.live → Sound s' → Fresh io s'.live op →
      op.exec P io s' = (.ok value, t) → Q value t) :
    (telling P).Keeps Q (perform site op) s :=
  perform_keeps (D := telling P) (fun s' _ _ _ _ => silent_due silent s' site)
    fun s' io value t moved inv fresh ran _ => answered s' io value t moved inv.1 fresh ran

theorem tells_emit (tells : s.live.Tells event) : (telling P).Keeps (fun _ _ => True) (emit site event) s := by
  refine (perform_keeps (D := telling P) (Q := fun _ _ => True) (fun s' _ moved _ _ => ⟨rfl, fun e posts => ?_⟩)
    fun _ _ _ _ _ _ _ _ _ => trivial).bind fun _ _ _ _ => .ret trivial
  cases posts
  exact tells.later moved

theorem tells_other (other : claims event.type = false) (s : Session Db) :
    (telling P).Keeps (fun _ _ => True) (emit site event) s :=
  tells_emit fun claim same => absurd other (by rw [same, claim.claims]; exact Bool.noConfusion)

end

/-- Only who has settled the job says how it has ended. -/
theorem tells_settleJob {final : JobStatus} (terminal : final.terminal = true) (jobId : JobId) (s : Session Db) :
    (telling P).Keeps (fun _ _ => True) (settleJob jobId final) s := by
  refine (tells_answer (Q := fun settled t => settled = true → t.live.jobStatus jobId = some final)
    (by exact terminal) ?_).bind fun settled t _ now => ?_
  · intro s' io settled t _ _ _ ran moved
    rcases trySetJobStatus_cases io s' jobId final with ⟨row, found, _, ran'⟩ | ⟨ran', _⟩
    · cases ran.symm.trans ran'
      rw [Db.jobStatus, Session.settled, moveJob_get, if_pos rfl, found]
      rfl
    · cases ran.symm.trans ran'
      cases moved
  · split
    · rename_i moved
      exact tells_emit (.of_claim (.ended final) rfl ⟨jobId, rfl, now moved, terminal⟩)
    · exact .ret trivial

theorem tells_settleIfTerminal (jobId : JobId) (before : JobStatus) (n : Nat) (s : Session Db) :
    (telling P).Keeps (fun _ _ => True) (settleIfTerminal jobId before n) s := by
  refine (tells_quiet rfl s).bind fun tasks t _ _ => ?_
  split
  · exact (tells_quiet rfl t).bind fun fresh t _ _ => tells_settleJob (finalStatus_terminal _ _) jobId t
  · exact .ret trivial

theorem tells_finalizeJob (jobId : JobId) (s : Session Db) :
    (telling P).Keeps (fun _ _ => True) (finalizeJob P jobId) s := by
  refine (tells_quiet rfl s).bind fun found t _ _ => ?_
  cases found with
  | none => exact .ret trivial
  | some row =>
    refine (tells_reads (buildAggregate_calls .finalize jobId) t).bind fun ⟨agg, best, artifact⟩ t _ _ => ?_
    refine (tells_quiet rfl t).bind fun _ t _ _ => (tells_quiet rfl t).bind fun _ t _ _ => ?_
    refine Discipline.Keeps.bind (Q := fun _ _ => True) ?_ fun _ t _ _ => tells_settleIfTerminal jobId _ _ t
    unfold linkBestModel
    split
    · exact tells_quiet rfl t
    · exact .ret trivial

theorem tells_requireWorkerPrincipal (workerId : WorkerId) (principal : Principal) (s : Session Db) :
    (telling P).Keeps (fun _ _ => True) (Route.requireWorkerPrincipal workerId principal) s :=
  tells_calls (requireWorkerPrincipal_calls (fun _ => rfl) workerId principal) s

/-- A row as it was read: what is never updated of it is stored still. -/
structure Db.Origin (db : Db) (row : TaskRow) : Prop where
  job : (db.jobs.get row.jobId).isSome = true
  task : ∃ r, db.tasks.get row.id = some r ∧ r.origin = row.origin

theorem Db.Origin.later {row : TaskRow} (origin : db.Origin row) (recalls : Recalls db db') : db'.Origin row := by
  obtain ⟨job, r, found, same⟩ := origin
  have before : r.origin ∈ db.originsOf row.jobId := by
    refine List.mem_filter.mpr ⟨List.mem_map_of_mem (Table.get_eq_some.mp found).1, ?_⟩
    rw [same]
    exact decide_eq_true rfl
  rw [← recalls.follows.origins row.jobId job] at before
  obtain ⟨r', member, same'⟩ := List.mem_map.mp (List.mem_filter.mp before).1
  have name : r'.id = row.id := congrArg Prod.fst (same'.trans same)
  exact ⟨recalls.heeds.evolves.exists_job job, r', name ▸ Table.get_of_mem member, same'.trans same⟩

theorem tells_requireTaskWorkerPrincipal (taskId : TaskId) (principal : Principal) (s : Session Db) :
    (telling P).Keeps (fun row t => t.live.Origin row) (Route.requireTaskWorkerPrincipal taskId principal) s := by
  unfold Route.requireTaskWorkerPrincipal
  refine (tells_answer (Q := fun found t => ∀ row, found = some row → t.live.Origin row) rfl ?_).bind
    fun found t _ held => ?_
  · intro s' io found t _ sound _ ran row here
    cases ran
    obtain ⟨job, stored⟩ := sound.good.linked taskId row here
    obtain rfl : row.id = taskId := Table.get_key here
    exact ⟨by rw [stored]; rfl, row, here, rfl⟩
  · cases found with
    | none => exact .raise _
    | some row =>
      dsimp only
      split
      · exact .raise _
      · exact (tells_requireWorkerPrincipal _ principal t).bind fun _ u moved _ =>
          .ret ((held row rfl).later moved)

theorem tells_requireTaskReporter (taskId : TaskId) (workerId : WorkerId) (principal : Principal) (s : Session Db) :
    (telling P).Keeps (fun row t => t.live.Origin row) (Route.requireTaskReporter taskId workerId principal) s := by
  refine (tells_requireTaskWorkerPrincipal taskId principal s).bind fun row t _ origin => ?_
  split
  · exact .raise _
  · exact .ret origin

theorem tells_stopTask (row : TaskRow) (workerId : WorkerId) (message : String) (brought : List String)
    (s : Session Db) : (telling P).Keeps (fun _ _ => True) (Route.stopTask P row workerId message brought) s :=
  (tells_quiet rfl s).bind fun _ t _ _ => (tells_other rfl t).bind fun _ t _ _ =>
    tells_finalizeJob row.jobId t

theorem tells_replyJob (jobId : JobId) (s : Session Db) :
    (telling P).Keeps (fun _ _ => True) (Route.replyJob P jobId) s :=
  tells_reads (replyJob_calls jobId) s

theorem tells_submitLost (req : JobRequest) (s : Session Db) :
    (telling P).Keeps (fun _ _ => True) (Route.submitLost P req) s := by
  unfold Route.submitLost
  split
  · refine (tells_quiet rfl s).bind fun found t _ _ => ?_
    cases found with
    | none => exact .raise _
    | some existing => exact tells_replyJob _ t
  · exact .raise _

/-- The job that was created has as many tasks as the answer names. -/
theorem Db.Created.submits {req : JobRequest} {owner : Option String} (created : db.Created db' io req owner)
    (good : db.Good) :
    db'.Tells (Route.submittedEvent (genId "job" (io.uuid 0))
      ((newTasks io req (genId "job" (io.uuid 0)) req.pairs 1).map TaskRow.id).length) := by
  have decomposed := created.decomposed good
  refine .of_claim .submitted rfl ⟨_, rfl, by rw [created.get_job, if_pos rfl]; rfl, ?_⟩
  have same := congrArg List.length decomposed.tasks
  rw [originsOf_eq, List.length_map, List.length_map] at same
  rw [same]

theorem tells_submitInsert (req : JobRequest) (owner : String) (s : Session Db) :
    (telling P).Keeps (fun _ _ => True) (Route.submitInsert P req owner) s := by
  refine .call fun s' io _ inv fresh => ⟨silent_due rfl s' .route, fun _ => ?_⟩
  have fresh : Fresh io s'.live (.createJobWithTasks req (some owner)) := fresh
  have run : (machine P).exec io ⟨.route, .createJobWithTasks req (some owner)⟩ s' =
    createJobWithTasks P io req (some owner) s' := rfl
  rw [run]
  rcases createJobWithTasks_cases (P := P) fresh with ⟨db, created, _, _, _, ran⟩ | ⟨_, ran⟩ | ⟨_, raised, ran⟩
  · rw [ran]
    exact (tells_emit (created.submits inv.1.good)).bind fun _ t _ _ => tells_replyJob _ t
  · rw [ran]
    exact tells_submitLost req _
  · rw [ran]
    dsimp only
    split
    · contradiction
    · exact tells_submitLost req _
    · exact .raise _

theorem tells_submitJob (req : JobRequest) (principal : Principal) (s : Session Db) :
    (telling P).Keeps (fun _ _ => True) (Route.submitJob P config req principal) s := by
  unfold Route.submitJob
  split
  · exact .raise _
  · dsimp only
    split
    · refine (tells_quiet rfl s).bind fun found t _ _ => ?_
      cases found with
      | none => exact tells_submitInsert _ _ t
      | some existing => exact tells_replyJob _ t
    · exact tells_submitInsert _ _ s

theorem tells_markCancelled (jobId : JobId) (running : List TaskId) (s : Session Db) :
    (telling P).Keeps (fun _ _ => True) (Route.markCancelled P jobId running) s := by
  unfold Route.markCancelled Route.cancelRequested
  refine (tells_answer (Q := fun _ t => t.live.Halts jobId) (by cases running <;> rfl) ?_).bind fun _ t _ halts => ?_
  · intro s' io done t _ _ _ ran
    obtain ⟨⟩ := done
    generalize chosen : (if running.isEmpty then JobStatus.cancelled else .cancelling) = status at ran
    have ran : setJobStatus io jobId status none s' = (.ok (), t) := ran
    rcases setJobStatus_cases io s' jobId status none with ⟨row, found, _, ran'⟩ | ⟨error, ran', _⟩
    · cases ran.symm.trans ran'
      refine ⟨row.moved status none io.now, ?_, ?_⟩
      · rw [Session.settled, moveJob_get, if_pos rfl, found]
        rfl
      · rw [← chosen]
        cases running <;> rfl
    · cases ran.symm.trans ran'
  · refine (tells_emit (.of_claim .cancelRequested rfl ⟨jobId, rfl, halts⟩)).bind fun _ t _ _ => ?_
    exact (tells_finalizeJob jobId t).bind fun _ t _ _ => tells_replyJob jobId t

theorem tells_cancelJob (jobId : JobId) (s : Session Db) :
    (telling P).Keeps (fun _ _ => True) (Route.cancelJob P jobId) s := by
  refine (tells_quiet rfl s).bind fun found t _ _ => ?_
  cases found with
  | none => exact .raise _
  | some row =>
    dsimp only
    split
    · exact tells_replyJob jobId t
    · exact (tells_quiet rfl t).bind fun running t _ _ => tells_markCancelled jobId running t

/-- What is stored of a task whose success was reported. -/
def Db.Completes (db : Db) (row : TaskRow) (result : TaskResult) : Prop :=
  ∃ r, db.tasks.get row.id = some r ∧ r.status = .succeeded ∧ r.origin = row.origin ∧ r.result = some result

theorem Db.Completes.tells {row : TaskRow} {result : TaskResult} (completes : db.Completes row result)
    (workerId : WorkerId) : db.Tells (Route.taskCompletedEvent row workerId) := by
  obtain ⟨r, found, succeeded, origin, _⟩ := completes
  refine .of_claim .completed rfl ⟨row.id, r, rfl, found, succeeded, ?_, trivial⟩
  exact congrArg (fun o => some o.2.1) origin.symm

theorem Db.Completes.mismatch {row : TaskRow} {result : TaskResult} {workerId : WorkerId} {principal : Principal}
    (completes : db.Completes row (Route.attestedResult result row workerId principal))
    (mismatch : Route.fingerprintMismatch row result = true) : db.Tells (Route.mismatchEvent row workerId) := by
  obtain ⟨r, found, succeeded, origin, stored⟩ := completes
  refine .of_claim .mismatched rfl ⟨row.id, r, rfl, found, succeeded, ?_, _, stored, ?_⟩
  · exact congrArg (fun o => some o.2.1) origin.symm
  · have payload : r.payload = row.payload := congrArg (fun o => o.2.2) origin
    rw [Route.fingerprintMismatch, payload]
    exact mismatch

theorem tells_completeTask (taskId : TaskId) (result : TaskResult) (workerId : WorkerId) (principal : Principal)
    (s : Session Db) :
    (telling P).Keeps (fun _ _ => True) (Route.completeTask P taskId result workerId principal) s := by
  refine (tells_requireTaskReporter taskId workerId principal s).bind fun row t _ origin => ?_
  refine Discipline.Keeps.bind (Q := fun _ _ => True) ?_ fun _ _ _ _ => .ret trivial
  refine (tells_quiet rfl t).bind fun job u moved _ => ?_
  replace origin : u.live.Origin row := origin.later moved
  split
  · exact tells_stopTask row workerId _ _ u
  · refine Discipline.Keeps.bind
      (Q := fun _ t => t.live.Completes row (Route.attestedResult result row workerId principal)) ?_
      fun _ v _ completes => ?_
    · refine .handle (tells_answer rfl ?_) fun fault v _ => ?_
      · intro s' io value t later _ _ ran
        obtain ⟨r, found, same⟩ := (origin.later later).task
        have ran : completeTask io row.id workerId _ s' = (.ok value, t) := ran
        rcases completeTask_cases io s' row.id workerId (Route.attestedResult result row workerId principal) with
          ⟨r', found', _, _, ran'⟩ | ⟨error, ran'⟩
        · cases ran.symm.trans ran'
          cases found.symm.trans found'
          have wrote := setTask_wrote found { result := some (Route.attestedResult result row workerId principal) }
            .succeeded io.now
          exact ⟨_, wrote.touched.now, rfl, same, rfl⟩
        · cases ran.symm.trans ran'
      · unfold Route.completeFailed
        split <;> exact .raise _
    · unfold Route.taskCompleted Route.noteMismatch
      refine Discipline.Keeps.bind (Q := fun _ _ => True) ?_ fun _ t moved _ => ?_
      · split
        · rename_i mismatch
          exact tells_emit (completes.mismatch mismatch)
        · exact .ret trivial
      · refine (tells_emit ((completes.tells workerId).later moved)).bind fun _ t _ _ => tells_finalizeJob row.jobId t

theorem tells_failTask (taskId : TaskId) (failure : TaskFailure) (workerId : WorkerId) (principal : Principal)
    (s : Session Db) :
    (telling P).Keeps (fun _ _ => True) (Route.failTask P taskId failure workerId principal) s := by
  refine (tells_requireTaskReporter taskId workerId principal s).bind fun row t _ _ => ?_
  refine (tells_quiet rfl t).bind fun job u _ _ => ?_
  split
  · exact (tells_stopTask row workerId _ _ u).bind fun _ _ _ _ => .ret trivial
  · refine .call fun s' io _ _ _ => ⟨silent_due rfl s' .route, fun _ => ?_⟩
    split
    · refine (tells_other rfl _).bind fun _ t _ _ => ?_
      exact (tells_finalizeJob row.jobId t).bind fun _ _ _ _ => .ret trivial
    · exact .ret trivial
    · exact .raise _

theorem tells_registerWorker (reg : WorkerRegister) (principal : Principal) (s : Session Db) :
    (telling P).Keeps (fun _ _ => True) (Route.registerWorker reg principal) s :=
  (tells_quiet rfl s).bind fun _ t _ _ => (tells_other rfl t).bind fun _ _ _ _ => .ret trivial

theorem tells_cancelIds (taskIds : List TaskId) (s : Session Db) :
    (telling P).Keeps (fun _ _ => True) (Route.cancelIds taskIds) s := by
  induction taskIds generalizing s with
  | nil => exact .ret trivial
  | cons taskId rest ih =>
    refine (tells_quiet rfl s).bind fun found t _ _ => ?_
    cases found with
    | none => exact ih t
    | some task => exact (tells_quiet rfl t).bind fun _ u _ _ => (ih u).bind fun _ _ _ _ => .ret trivial

theorem tells_heartbeat (workerId : WorkerId) (principal : Principal) (s : Session Db) :
    (telling P).Keeps (fun _ _ => True) (Route.heartbeat config workerId principal) s := by
  refine (tells_requireWorkerPrincipal workerId principal s).bind fun _ t _ _ =>
    (tells_quiet rfl t).bind fun known u _ _ => ?_
  split
  · refine (tells_quiet rfl u).bind fun taskIds v _ _ => ?_
    exact (tells_cancelIds taskIds v).bind fun _ _ _ _ => .ret trivial
  · exact .raise _

theorem tells_lease (workerId : WorkerId) (principal : Principal) (s : Session Db) :
    (telling P).Keeps (fun _ _ => True) (Route.lease config workerId principal) s := by
  refine (tells_requireWorkerPrincipal workerId principal s).bind fun _ t _ _ =>
    (tells_quiet rfl t).bind fun leased u _ _ => ?_
  cases leased with
  | none => exact .ret trivial
  | some payload => exact (tells_other rfl u).bind fun _ _ _ _ => .ret trivial

theorem tells_startTask (taskId : TaskId) (workerId : WorkerId) (principal : Principal) (s : Session Db) :
    (telling P).Keeps (fun _ _ => True) (Route.startTask taskId workerId principal) s := by
  refine (tells_requireWorkerPrincipal workerId principal s).bind fun _ t _ _ => ?_
  refine Discipline.Keeps.bind (Q := fun _ _ => True) (.handle (tells_quiet rfl t) fun fault _ _ => ?_)
    fun row u _ _ => (tells_other rfl u).bind fun _ _ _ _ => .ret trivial
  unfold Route.startFailed
  split <;> exact .raise _

theorem tells_taskEvent (taskId : TaskId) {event : TaskEvent} (other : claims event.type = false)
    (principal : Principal) (s : Session Db) :
    (telling P).Keeps (fun _ _ => True) (Route.taskEvent taskId event principal) s :=
  (tells_requireTaskWorkerPrincipal taskId principal s).bind fun _ t _ _ =>
    (tells_other other t).bind fun _ _ _ _ => .ret trivial

theorem tells_uploadInput (upload : Option NewArtifact) (s : Session Db) :
    (telling P).Keeps (fun _ _ => True) (Route.uploadInput upload) s := by
  cases upload with
  | none => exact .raise _
  | some artifact => exact (tells_quiet rfl s).bind fun _ _ _ _ => .ret trivial

theorem tells_uploadArtifact (taskId : TaskId) (role : String) (upload : Option NewArtifact) (principal : Principal)
    (s : Session Db) :
    (telling P).Keeps (fun _ _ => True) (Route.uploadArtifact taskId role upload principal) s := by
  refine (tells_requireTaskWorkerPrincipal taskId principal s).bind fun row t _ _ => ?_
  cases upload with
  | none => exact .raise _
  | some artifact =>
    exact (tells_quiet rfl t).bind fun _ u _ _ => (tells_quiet rfl u).bind fun _ _ _ _ => .ret trivial

theorem tells_reap (order : SetOrder) (s : Session Db) :
    (telling P).Keeps (fun _ _ => True) (reap P config order) s := by
  unfold reap reapLeases finalizeReaped
  refine (tells_quiet rfl s).bind fun dead t _ _ => ?_
  refine Discipline.Keeps.bind (.forEach fun _ _ _ _ => tells_other rfl _) fun _ u _ _ => ?_
  refine (tells_quiet rfl u).bind fun lost v _ _ => ?_
  refine Discipline.Keeps.bind (.forEach fun _ _ _ _ => tells_other rfl _) fun _ w _ _ => ?_
  refine (tells_quiet rfl w).bind fun affected x _ _ => ?_
  refine Discipline.Keeps.bind (.forEach fun _ _ _ _ => tells_other rfl _) fun _ y _ _ => ?_
  exact .forEach fun jobId _ z _ => tells_finalizeJob jobId z

theorem tells_reaperTick (order : SetOrder) (s : Session Db) :
    (telling P).Keeps (fun _ _ => True) (reaperTick P config order) s :=
  Discipline.Keeps.bind (.handle (tells_reap order s) fun _ t _ => tells_other rfl t) fun _ _ _ _ => .ret trivial

/-! ## Runs -/

/-- The request posts no event of a type that is the server's own. -/
def Request.honest : Request → Bool
  | .taskEvent _ event _ => !claims event.type
  | _ => true

theorem handler_tells (request : Request) (honest : request.honest = true) (s : Session Db) :
    (telling P).Keeps (fun _ _ => True) (handler P config request) s := by
  cases request with
  | submitJob req principal => exact tells_submitJob req principal s
  | cancelJob jobId => exact tells_cancelJob jobId s
  | registerWorker reg principal => exact tells_registerWorker reg principal s
  | heartbeat workerId principal => exact tells_heartbeat workerId principal s
  | lease workerId principal => exact tells_lease workerId principal s
  | startTask taskId workerId principal => exact tells_startTask taskId workerId principal s
  | taskEvent taskId event principal =>
    exact tells_taskEvent taskId (by rwa [Request.honest, Bool.not_eq_true'] at honest) principal s
  | uploadInput upload => exact tells_uploadInput upload s
  | uploadArtifact taskId role upload principal => exact tells_uploadArtifact taskId role upload principal s
  | completeTask _ taskId result workerId principal => exact tells_completeTask taskId result workerId principal s
  | failTask _ taskId failure workerId principal => exact tells_failTask taskId failure workerId principal s
  | reaperTick order => exact tells_reaperTick order s

/-- Turns that start no request but honest ones. -/
def Honest (l : Turn) : Bool :=
  match l with
  | .spawn request => request.honest
  | _ => true

theorem telling_governs (P : Platform) (config : ServerConfig) :
    Discipline.Governs (S := server P config) (telling P) (fun _ _ _ => True)
      (fun p l => (server P config).Lawful p l ∧ Honest l = true) where
  lawful allowed := allowed.1
  serves p request allowed _ := handler_tells request allowed.2 p.store
  recovers s inv := by
    have same : (server P config).recover s = s := by
      rw [inv.1.settled]
      rfl
    exact same.symm ▸ ⟨inv, (telling P).refl s⟩

variable {p : ServerPool}

/-- In every run of requests whose workers post no event of the server's own types, whatever the
interleaving, what an event says of its job or task holds when it is read. -/
theorem log_truthful
    (run : System.Reaches (server P config) (fun p l => (server P config).Lawful p l ∧ Honest l = true) started p) :
    ∀ e ∈ p.store.live.events, p.store.live.Tells e.posted := by
  have start : Discipline.Governed (S := server P config) (telling P) started :=
    ⟨⟨started_sound, fun _ member => False.elim (List.not_mem_nil member)⟩,
      fun _ member => False.elim (List.not_mem_nil member)⟩
  exact ((telling_governs P config).reaches start run).1.1.2

/-- In a run that completes a task and with it a job, three of the six events claim something. -/
theorem log_truthful_reported : ∃ p : ServerPool,
    System.Reaches (server .plain {}) (fun p l => (server .plain {}).Lawful p l ∧ Honest l = true) started p ∧
      p.store.live.events.length = 6 ∧ (p.store.live.events.filter fun e => claims e.type).length = 3 ∧
      ∀ e ∈ p.store.live.events, p.store.live.Tells e.posted := by
  have played : ((server .plain {}).play (fun p l => (server .plain {}).Lawful p l ∧ Honest l = true)
      reportedTurns started).any (fun p => decide (p.store.live.events.length = 6 ∧
        (p.store.live.events.filter fun e => claims e.type).length = 3)) = true := by decide +kernel
  obtain ⟨p, run, facts⟩ := System.play_any played
  obtain ⟨length, claiming⟩ := of_decide_eq_true facts
  exact ⟨p, run, length, claiming, log_truthful run⟩

end N4Cluster
