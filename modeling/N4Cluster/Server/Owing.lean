import N4Cluster.Server.Finalization
import N4Cluster.Server.Stuck
import Mathlib.Data.List.Dedup

/-! What is still owed to a job whose tasks are all terminal while the job is not:
a program owes it when, whatever the others do meanwhile, it settles the job
before it ends. -/
namespace N4Cluster
open Relational Transactional Relation Interleave

/-- What a run may be assumed to meet. -/
structure Assumptions where
  /-- A cancellation finds no finalization about to write `failed`. -/
  guarded : Prop
  /-- A finalization that counted no succeeded task finds none at its second reading. -/
  counted : Prop
  /-- Every finalization runs to its end. -/
  completes : Prop
  /-- Every store met is readable. -/
  readable : Prop
  /-- A handler that has stopped the last open task of a job gets its event stored. -/
  heard : Prop

/-- Handlers come to their finalizations, and these end or have nothing to fail on. -/
def Assumptions.Ends (A : Assumptions) : Prop := A.heard ∧ (A.completes ∨ A.readable)

/-- The job of a stopped task whose event the driver refuses. -/
def Call.refused (P : Platform) (c : Call) : Option JobId :=
  match c.op with
  | .addEvent e => if e.type = "task_cancelled" ∧ (e.unstorable P).isSome = true then e.jobId else none
  | _ => none

/-- The call raises, and leaves a job that waits for nothing but its finalization. -/
def Refuses (P : Platform) (s : Session Db) (c : Call) : Prop :=
  ∃ jobId, c.refused P = some jobId ∧ s.live.Stuck jobId

/-- A finalization has failed: its exception is about to leave, or the reaper has caught it. -/
def Failing {α : Type} : Prog α → Prop
  | .raise fault => fault.site.finalizes = true
  | .call c _ => c.site = .reaperError
  | .ret _ => False

/-- Contracts that let a program settle the job. -/
structure Settling {α : Type} (P : Platform) (C : Contract Call Call.Ret Fault α (Session Db))
    (post : Except Fault α → Session Db → Prop) (jobId : JobId) : Prop extends Evolving C where
  terminal : ∀ {s}, C.inv s → s.live.AllTerminal jobId ∧ (s.live.jobs.get jobId).isSome = true
  kept : ∀ {c s t}, C.rely c s t →
    t.live.jobStatus jobId = s.live.jobStatus jobId ∨ t.live.Settled jobId
  free : ∀ s c r t, C.gives s c r t
  fails : ∀ c s r, Failing r → C.admits c s r → Unreadable P C → False
  hears : ∀ {c s r}, C.admits c s r → ¬Refuses P s c
  done : ∀ out s, s.live.Settled jobId → post out s

variable {P : Platform} {α β : Type}

theorem moveJob_settled {db : Db} {jobId : JobId} {row : JobRow} {status : JobStatus}
    {error : Option String} {now : Time} (found : db.jobs.get jobId = some row)
    (terminal : status.terminal = true) : (db.moveJob jobId status error now).Settled jobId :=
  ⟨row.moved status error now, by rw [moveJob_get, if_pos rfl, found]; rfl, terminal⟩

/-- The status chosen for a job that is not terminal can be written. -/
theorem finalStatus_legal {s : Session Db} (sound : Sound s) {jobId : JobId} {row : JobRow} {n : Nat}
    (found : s.live.jobs.get jobId = some row) (counted : 0 < n → s.live.SomeSucceeded jobId)
    (still : row.status.terminal = false) :
    jobCanTransition row.status (finalStatus row.status n) = true := by
  unfold finalStatus
  cases status : row.status with
  | queued =>
    rw [if_neg nofun, if_neg fun some => ?_]
    · rfl
    · obtain ⟨taskId, r, held, job, succeeded⟩ := counted some
      subst job
      rcases (sound.good.unstarted taskId r row held found status).1 with queued | cancelled
      · exact nomatch succeeded.symm.trans queued
      · exact nomatch succeeded.symm.trans cancelled
  | running =>
    rw [if_neg nofun]
    split <;> rfl
  | cancelling => rfl
  | succeeded | failed | cancelled =>
    rw [status] at still
    contradiction

theorem taskFailedEvent_storable {row : TaskRow} {workerId : WorkerId} {error : String}
    (storable : P.textError error = none) : (Route.taskFailedEvent row workerId error).unstorable P = none := by
  simp [NewEvent.unstorable, Route.taskFailedEvent, storable]

namespace Settling
variable {C : Contract Call Call.Ret Fault α (Session Db)} {post : Except Fault α → Session Db → Prop}
  {jobId : JobId} {s : Session Db}

theorem under (S : Settling P C post jobId) (around : Prog β → Prog α)
    {Q : Except Fault β → Session Db → Prop}
    (failing : ∀ r, Failing r → Failing (around r))
    (done : ∀ out s, s.live.Settled jobId → Q out s) :
    Settling P (C.under around) Q jobId where
  rely := S.rely
  inv := S.inv
  terminal := S.terminal
  kept := S.kept
  free s c r t := S.free s c (around r) t
  fails c s r failed admitted := by
    rintro ⟨c', s', r', admitted', unread⟩
    exact S.fails c s _ (failing r failed) admitted ⟨c', s', around r', admitted', unread⟩
  hears := S.hears
  done := done

/-- Once the job is settled, nothing more is owed. -/
theorem settled (S : Settling P C post jobId) {p : Prog α} (routed : Calls DbOp.routed p)
    (done : s.live.Settled jobId) : p.Obeys (machine P) C post s := by
  induction p generalizing s with
  | ret value => exact S.done _ _ done
  | raise error => exact S.done _ _ done
  | call c next ih =>
    intro s' rely inv io valid _
    have moved := (exec_sound (P := P) routed.1 valid (S.inv inv)).2
    exact ⟨S.free _ _ _ _, ih _ (routed.2 _) (moved.settled ((S.rely rely).settled done))⟩

/-- A call that cannot fail leaves the debt to what follows it. -/
theorem step (S : Settling P C post jobId) {site : Site} {op : DbOp} {k : op.Ret → Prog α}
    (returns : ∀ io s, ∃ value t, op.exec P io s = (.ok value, t))
    (next : ∀ value t, (k value).Obeys (machine P) C post t) :
    (perform site op >>= k).Obeys (machine P) C post s := by
  refine obeys_perform fun s' io _ _ _ => ⟨fun value t ran _ => ⟨S.free _ _ _ _, next value t⟩,
    fun error t ran _ => ?_⟩
  obtain ⟨value, t', ran'⟩ := returns io s'
  exact nomatch ran.symm.trans ran'

theorem emit (S : Settling P C post jobId) {site : Site} {event : NewEvent} {k : Unit → Prog α}
    (next : ∀ t, (k ()).Obeys (machine P) C post t) (storable : event.unstorable P = none) :
    (N4Cluster.emit site event >>= k).Obeys (machine P) C post s := by
  unfold N4Cluster.emit
  rw [Program.bind_assoc]
  exact S.step (fun _ _ => ⟨_, _, addEvent_ok storable⟩) fun _ t => next t

theorem finalizing (S : Settling P C post jobId) (other : JobId) : Finalizing P C post other where
  rely := S.rely
  inv := S.inv
  gives _ _ _ _ _ _ _ _ _ := S.free _ _ _ _
  failed c s _ admitted bad _ := False.elim (S.fails c s (.raise ⟨.finalize, _⟩) rfl admitted bad)

/-- The finalization of any job leaves the debt to what follows it. -/
theorem passes (S : Settling P C post jobId) (other : JobId) {k : Unit → Prog α}
    (next : ∀ t, (k ()).Obeys (machine P) C post t) (s : Session Db) :
    (finalizeJob P other >>= k).Obeys (machine P) C post s := by
  refine (S.finalizing other).finalizeJob (fun t _ _ => next t) (fun agg row s₁ s₂ r _ => ?_) s
  unfold settleJob
  rw [Program.bind_assoc]
  refine S.step (fun io s => ?_) fun moved t => ?_
  · rcases trySetJobStatus_cases io s other _ with ⟨_, _, _, ran⟩ | ⟨ran, _⟩
    · exact ⟨_, _, ran⟩
    · exact ⟨_, _, ran⟩
  · split
    · exact S.emit next rfl
    · exact next t

/-- The job's own finalization settles it. -/
theorem pays (S : Settling P C post jobId) {k : Unit → Prog α} (routed : Calls DbOp.routed (k ()))
    (s : Session Db) : (finalizeJob P jobId >>= k).Obeys (machine P) C post s := by
  refine (S.finalizing jobId).finalizeJob (fun t inv absent => ?_)
    (fun agg row s₁ s₂ r known => ?_) s
  · obtain ⟨all, held⟩ := S.terminal inv
    rcases absent with gone | still
    · rw [gone] at held
      contradiction
    · exact False.elim (still all)
  · unfold settleJob
    rw [Program.bind_assoc]
    refine obeys_perform fun s₃ io rely inv _ => ⟨fun moved t ran _ => ⟨S.free _ _ _ _, ?_⟩, fun error t ran _ => ?_⟩
    · refine S.settled ?_ ?_
      · split
        · exact (emit_calls rfl).bind fun _ => routed
        · exact routed
      · have sound := S.inv inv
        have moved₃ := S.rely rely
        rcases trySetJobStatus_cases io s₃ jobId (finalStatus row.status agg.numSucceeded) with
          ⟨row', found', legal, ran'⟩ | ⟨ran', refused⟩
        · cases ran.symm.trans ran'
          exact moveJob_settled found' (finalStatus_terminal _ _)
        · cases ran.symm.trans ran'
          rcases S.kept rely with same | done
          · obtain ⟨row', found', _⟩ := moved₃.job _ row known.found
            have status : row'.status = row.status := by
              simpa only [Db.jobStatus, found', known.found, Option.map_some, Option.some.injEq] using same
            cases terminal : row'.status.terminal with
            | true => exact ⟨row', found', terminal⟩
            | false =>
              have counted (some : 0 < agg.numSucceeded) : s₃.live.SomeSucceeded jobId :=
                (known.moved.trans moved₃).someSucceeded (known.counted.succeeded some)
              have legal := finalStatus_legal sound found' counted terminal
              rw [status] at legal
              cases (status ▸ refused row' found').symm.trans legal
          · exact done
    · rcases trySetJobStatus_cases io s₃ jobId (finalStatus row.status agg.numSucceeded) with
        ⟨_, _, _, ran'⟩ | ⟨ran', _⟩
      · cases ran.symm.trans ran'
      · cases ran.symm.trans ran'

/-- Inside a `try`, settling the job is enough. -/
theorem attempt (S : Settling P C post jobId) {p : Prog β} {h : Fault → Prog β} {g : β → Prog α}
    (handlers : ∀ fault, Calls DbOp.routed (h fault)) (rest : ∀ value, Calls DbOp.routed (g value))
    (failing : ∀ r : Prog β, Failing r → Failing (r >>= g))
    (body : p.Obeys (machine P) (C.under fun r => r.handle h >>= g) (fun _ t => t.live.Settled jobId) s) :
    (p.handle h >>= g).Obeys (machine P) C post s := by
  have inner := S.under (Q := fun _ t => t.live.Settled jobId) (· >>= g) failing fun _ _ done => done
  refine Program.Obeys.bind (Q := fun _ t => t.live.Settled jobId) ?_
    (fun value t done => S.settled (rest value) done) fun error t done => S.done _ _ done
  exact Program.Obeys.handle body (fun _ _ done => done) fun fault t done =>
    inner.settled (handlers fault) done

/-! ## The ends of the handlers -/

theorem taskCompleted (S : Settling P C post jobId) {row : TaskRow} {result : TaskResult}
    {workerId : WorkerId} {k : Unit → Prog α} (job : row.jobId = jobId)
    (routed : Calls DbOp.routed (k ())) (s : Session Db) :
    (Route.taskCompleted P row result workerId >>= k).Obeys (machine P) C post s := by
  subst job
  have rest (s : Session Db) : (N4Cluster.emit .route (Route.taskCompletedEvent row workerId) >>= fun _ =>
      finalizeJob P row.jobId >>= k).Obeys (machine P) C post s := S.emit (S.pays routed) rfl
  unfold Route.taskCompleted Route.noteMismatch
  simp only [Program.bind_assoc]
  split
  · exact S.emit rest rfl
  · exact rest s

/-- The event of the stopped task is stored, or the job has its status already. -/
theorem stopped (S : Settling P C post jobId) {row : TaskRow} {workerId : WorkerId} {message : String}
    {brought : List String} {k : Unit → Prog α} (job : row.jobId = jobId)
    (routed : Calls DbOp.routed (k ())) (s : Session Db) :
    (N4Cluster.emit .route (Route.taskCancelledEvent row workerId message brought) >>= fun _ =>
      finalizeJob P row.jobId >>= k).Obeys (machine P) C post s := by
  subst job
  unfold N4Cluster.emit
  rw [Program.bind_assoc]
  refine obeys_perform fun s' io _ inv _ =>
    ⟨fun value t ran _ => ⟨S.free _ _ _ _, S.pays routed t⟩, fun error t ran admitted => ?_⟩
  rcases addEvent_cases P io s' (Route.taskCancelledEvent row workerId message brought) with
    ⟨_, ran'⟩ | ⟨text, refused, ran'⟩
  · exact nomatch ran.symm.trans ran'
  · cases ran.symm.trans ran'
    obtain ⟨all, held⟩ := S.terminal inv
    refine ⟨S.free _ _ _ _, S.done _ _ (Db.not_stuck held all fun stuck => ?_)⟩
    exact S.hears admitted ⟨row.jobId, if_pos ⟨rfl, Option.isSome_iff_exists.mpr ⟨text, refused⟩⟩, stuck⟩

theorem cancelRequested {post : Except Fault Reply → Session Db → Prop}
    {C : Contract Call Call.Ret Fault Reply (Session Db)} (S : Settling P C post jobId) (s : Session Db) :
    (Route.cancelRequested P jobId).Obeys (machine P) C post s := by
  unfold Route.cancelRequested
  exact S.emit (S.pays (reply_routed jobId)) rfl

/-- A job without open tasks is cancelled at once. -/
theorem markCancelled {post : Except Fault Reply → Session Db → Prop}
    {C : Contract Call Call.Ret Fault Reply (Session Db)} (S : Settling P C post jobId) (s : Session Db) :
    (Route.markCancelled P jobId []).Obeys (machine P) C post s := by
  refine obeys_perform fun s' io _ inv _ => ?_
  obtain ⟨_, held⟩ := S.terminal inv
  obtain ⟨row, found⟩ := Option.isSome_iff_exists.mp held
  rcases setJobStatus_cases io s' jobId .cancelled none with
    ⟨row', found', legal, ran⟩ | ⟨raised, ran, refused⟩
  · refine ⟨fun value t ran' _ => ?_, fun error t ran' _ => nomatch ran.symm.trans ran'⟩
    cases ran.symm.trans ran'
    exact ⟨S.free _ _ _ _, S.settled (cancelRequested_routed jobId) (moveJob_settled found' rfl)⟩
  · refine ⟨fun value t ran' _ => (nomatch ran.symm.trans ran'), fun error t ran' _ => ?_⟩
    cases ran.symm.trans ran'
    refine ⟨S.free _ _ _ _, S.done _ _ ⟨row, found, ?_⟩⟩
    have illegal := refused row found
    cases status : row.status <;> rw [status] at illegal <;> first | rfl | contradiction

/-- The loop of finalizations comes to the job. -/
theorem finalizeAll (S : Settling P C post jobId) {jobIds : List JobId} (member : jobId ∈ jobIds)
    {k : Unit → Prog α} (routed : Calls DbOp.routed (k ())) (s : Session Db) :
    (Program.forEach jobIds (finalizeJob P) >>= k).Obeys (machine P) C post s := by
  induction jobIds generalizing s with
  | nil => contradiction
  | cons first rest ih =>
    simp only [Program.forEach, Program.bind_assoc]
    rcases List.mem_cons.mp member with rfl | later
    · exact S.pays ((finalizeAll_routed rest).bind fun _ => routed) s
    · exact S.passes first (ih later) s

theorem taskFailed {post : Except Fault Reply → Session Db → Prop}
    {C : Contract Call Call.Ret Fault Reply (Session Db)} (S : Settling P C post jobId) {row : TaskRow}
    {workerId : WorkerId} {error : String} {requeued : Bool} (job : row.jobId = jobId)
    (storable : P.textError error = none) (s : Session Db) :
    (Route.taskFailed P row workerId error requeued).Obeys (machine P) C post s := by
  subst job
  exact S.emit (S.pays (k := fun _ => .ret _) trivial) (taskFailedEvent_storable storable)

theorem emits (S : Settling P C post jobId) {ι : Type} {items : List ι} {event : ι → NewEvent}
    {k : Unit → Prog α} (next : ∀ t, (k ()).Obeys (machine P) C post t) (s : Session Db)
    (storable : ∀ item, (event item).unstorable P = none) :
    (Program.forEach items (fun item => N4Cluster.emit .route (event item)) >>= k).Obeys (machine P) C
      post s := by
  induction items generalizing s with
  | nil => exact next s
  | cons item rest ih =>
    simp only [Program.forEach, Program.bind_assoc]
    exact S.emit ih (storable item)

theorem finalizeReaped {C : Contract Call Call.Ret Fault Unit (Session Db)}
    {post : Except Fault Unit → Session Db → Prop} (S : Settling P C post jobId) (order : SetOrder)
    {lost affected : List (TaskId × JobId)} (member : jobId ∈ (lost ++ affected).map Prod.snd)
    (s : Session Db) : (finalizeReaped P order lost affected).Obeys (machine P) C post s := by
  have listed : jobId ∈ order.order ((lost ++ affected).map Prod.snd) :=
    (order.lists _).mem_iff.mpr (List.mem_dedup.mpr member)
  refine S.emits (fun t => ?_) s fun _ => rfl
  rw [← Program.bind_ret (Program.forEach _ _)]
  exact S.finalizeAll (k := .ret) listed trivial t

theorem reapLeases {C : Contract Call Call.Ret Fault Unit (Session Db)}
    {post : Except Fault Unit → Session Db → Prop} (S : Settling P C post jobId) (order : SetOrder)
    {lost : List (TaskId × JobId)} (member : jobId ∈ lost.map Prod.snd) (s : Session Db) :
    (reapLeases P order lost).Obeys (machine P) C post s := by
  refine S.emits (fun t => S.step (fun io s => ?_) fun affected t => ?_) s fun _ => rfl
  · obtain ⟨rows, expired, ran⟩ := reapExpiredLeases_rows io s
    exact ⟨_, _, ran.trans (reapRows_ok expired _)⟩
  exact S.finalizeReaped order (by rw [List.map_append]; exact List.mem_append_left _ member) t

end Settling

/-- What the others may do while a program owes the job: the job's status stays,
or becomes terminal. -/
def owing (P : Platform) (A : Assumptions) (jobId : JobId) :
    Contract Call Call.Ret Fault Reply (Session Db) where
  inv s := Sound s ∧ s.live.AllTerminal jobId ∧ (s.live.jobs.get jobId).isSome = true
  rely _ s t := Evolves s.live t.live ∧
    (t.live.jobStatus jobId = s.live.jobStatus jobId ∨ t.live.Settled jobId)
  admits c s r := (A.completes → ¬Failing r) ∧ (A.readable → s.live.readable P = true) ∧
    (A.heard → ¬Refuses P s c)
  gives _ _ _ _ := True

/-- The program settles the job before it ends. -/
def Owes (P : Platform) (A : Assumptions) (jobId : JobId) (p : Prog Reply) (s : Session Db) : Prop :=
  p.Obeys (machine P) (owing P A jobId) (fun _ t => t.live.Settled jobId) s

theorem owing_settling {A : Assumptions} (ends : A.Ends) (jobId : JobId) :
    Settling P (owing P A jobId) (fun _ t => t.live.Settled jobId) jobId where
  rely moved := moved.1
  inv inv := inv.1
  terminal inv := inv.2
  kept moved := moved.2
  free _ _ _ _ := trivial
  fails c s r failing admitted unread := by
    rcases ends.2 with completes | readable
    · exact admitted.1 completes failing
    · obtain ⟨c', s', r', admitted', bad⟩ := unread
      exact nomatch bad.symm.trans (admitted'.2.1 readable)
  hears admitted := admitted.2.2 ends.1
  done _ _ done := done

end N4Cluster
