import N4Cluster.Server.Serial
import N4Cluster.Server.Settlement

/-! Cancelling twice. The second request finds the job cancelled, unless a running task
has kept it `cancelling`: then the status it asks for is the one the job has, which the
transition table refuses. -/
namespace N4Cluster
open Relational Transactional Relation Interleave

variable {P : Platform} {config : ServerConfig} {s t : Session Db} {jobId : JobId}
  {out : Except Fault Reply}

/-- The route failed on a status it asked for. -/
def Refused (out : Except Fault Reply) : Prop :=
  ∃ message, out = .error ⟨.route, .illegalTransition message⟩

/-- A job that is not terminal has a running task. -/
def Db.Busy (db : Db) (jobId : JobId) : Prop :=
  ∃ row taskId r, db.jobs.get jobId = some row ∧ row.status.terminal = false ∧
    db.tasks.get taskId = some r ∧ r.jobId = jobId ∧ r.status = .running

/-- The tasks after `cancel_job_tasks`. -/
def Db.cancelTasks (db : Db) (jobId : JobId) (now : Time) : Db :=
  (db.tasks.rows.filter fun r => r.jobId = jobId).foldl (Db.cancelTurn now) db

theorem cancelTasks_jobs (db : Db) (jobId : JobId) (now : Time) :
    (db.cancelTasks jobId now).jobs = db.jobs := by
  unfold Db.cancelTasks
  generalize (db.tasks.rows.filter fun r => r.jobId = jobId) = rows
  induction rows generalizing db with
  | nil => rfl
  | cons row rest ih => exact (ih _).trans (cancelTurn_jobs db now row)

theorem setJobStatus_illegal (io : Io) {row : JobRow} {status : JobStatus} (error : Option String)
    (found : s.live.jobs.get jobId = some row) (illegal : jobCanTransition row.status status = false) :
    ∃ message, setJobStatus io jobId status error s = (.error (.illegalTransition message), s) := by
  simp only [setJobStatus, Txn.bind_run, Txn.live_run, found, validateJobTransition, illegal,
    Bool.false_eq_true, if_false, Txn.ofExcept_run]
  exact ⟨_, rfl⟩

/-- The status a cancellation asks for. -/
def cancelStatus (running : List TaskId) : JobStatus := if running.isEmpty then .cancelled else .cancelling

/-- A cancellation answers a terminal job with its view, and otherwise goes on from the
status it asked for, if the table lets it. -/
theorem cancelJob_runs (run : (Route.cancelJob P jobId).Runs (machine P) s out t) :
    match s.live.jobs.get jobId with
    | none => t = s ∧ out = .error ⟨.route, .http 404 "job not found"⟩
    | some row =>
      if row.status.terminal then (Route.replyJob P jobId).Runs (machine P) s out t
      else ∃ now now', if jobCanTransition row.status (cancelStatus (s.live.stillRunning jobId)) then
          (Route.cancelRequested P jobId).Runs (machine P) (.settled ((s.live.cancelTasks jobId now).moveJob
            jobId (cancelStatus (s.live.stillRunning jobId)) none now')) out t
        else Refused out ∧ t = .settled (s.live.cancelTasks jobId now) := by
  unfold Route.cancelJob at run
  obtain ⟨io, _, answer, u, ran, run⟩ := perform_runs run
  cases ran
  cases found : s.live.jobs.get jobId with
  | none =>
    simp only [found] at run
    cases run
    exact ⟨rfl, rfl⟩
  | some row =>
    simp only [found] at run
    dsimp only
    split
    · rename_i terminal
      rw [if_pos terminal] at run
      exact run
    · rename_i open_
      rw [if_neg open_] at run
      obtain ⟨io, _, answer, u, ran, run⟩ := perform_runs run
      rw [DbOp.exec, cancelJobTasks_ok] at ran
      cases ran
      unfold Route.markCancelled at run
      obtain ⟨io', _, answer, u, ran, run⟩ := perform_runs run
      rw [DbOp.exec] at ran
      refine ⟨io.now, io'.now, ?_⟩
      have found' : (Session.settled (s.live.cancelTasks jobId io.now)).live.jobs.get jobId = some row :=
        (congrArg (fun jobs : Table JobRow => jobs.get jobId) (cancelTasks_jobs s.live jobId io.now)).trans found
      split
      · rename_i legal
        obtain ⟨_, _, _, moved⟩ | ⟨_, _, illegal⟩ := setJobStatus_cases io'
          (.settled (s.live.cancelTasks jobId io.now)) jobId (cancelStatus (s.live.stillRunning jobId)) none
        · cases ran.symm.trans moved
          exact run
        · cases (illegal row found').symm.trans legal
      · rename_i illegal
        obtain ⟨message, refused⟩ := setJobStatus_illegal io' none found' (Bool.not_eq_true _ ▸ illegal)
        cases ran.symm.trans refused
        exact ⟨⟨message, run.1⟩, run.2⟩

/-- From the status on: where the job cannot be settled, the tasks and all statuses stay, and
the answer is the job's view unless the finalization fails. -/
theorem cancelRequested_runs (run : (Route.cancelRequested P jobId).Runs (machine P) s out t)
    (held : (s.live.jobs.get jobId).isSome = true) (unsettled : ∀ final, ¬s.live.Settles jobId final) :
    t.live.tasks = s.live.tasks ∧ (∀ j, t.live.jobStatus j = s.live.jobStatus j) ∧
      ((Route.replyJob P jobId).Runs (machine P) t out t ∨ ∃ error, out = .error ⟨.finalize, error⟩) := by
  unfold Route.cancelRequested at run
  obtain ⟨io, run⟩ := emit_runs run rfl
  obtain ⟨first, u, finalized, run⟩ := run.of_bind
  have replied {u : Session Db} (run : (Route.replyJob P jobId).Runs (machine P) u out t) :
      t = u ∧ (Route.replyJob P jobId).Runs (machine P) t out t := by
    obtain rfl := (replyJob_runs run).1
    exact ⟨rfl, run⟩
  have comes := finalizeJob_runs finalized
  obtain ⟨row, found⟩ := Option.isSome_iff_exists.mp held
  have found' : (insertEvent io (Route.cancelRequestedEvent jobId) s).2.live.jobs.get jobId =
      some row := found
  simp only [found'] at comes
  split at comes
  · obtain ⟨rfl, rfl⟩ := comes
    obtain ⟨rfl, rfl⟩ := run
    exact ⟨rfl, fun _ => rfl, .inr ⟨_, rfl⟩⟩
  · obtain ⟨_, rfl, done⟩ | ⟨_, rfl, error, rfl⟩ := comes
    · obtain ⟨rfl, again⟩ := replied run
      refine ⟨done.tasks, fun j => ?_, .inl again⟩
      by_cases here : j = jobId
      · rw [here]
        exact done.unsettled (unsettled _)
      · exact done.others j here
    · obtain ⟨rfl, rfl⟩ := run
      exact ⟨rfl, fun _ => rfl, .inr ⟨_, rfl⟩⟩

/-! ## The two requests -/

theorem reply_accepted (run : (Route.replyJob P jobId).Runs (machine P) s out t) : ¬Refused out := by
  have comes := (replyJob_runs run).2
  rintro ⟨message, rfl⟩
  split at comes
  · cases comes
  · split at comes
    · cases comes
    · obtain ⟨_, same, _⟩ := comes
      cases same

/-- A cancellation of a job that is unknown or terminal changes nothing. -/
theorem cancel_settled (run : (Route.cancelJob P jobId).Runs (machine P) s out t)
    (settled : ∀ row, s.live.jobs.get jobId = some row → row.status.terminal = true) :
    t = s ∧ ¬Refused out ∧ ∀ row, s.live.jobs.get jobId = some row →
      (Route.replyJob P jobId).Runs (machine P) s out t := by
  have comes := cancelJob_runs run
  cases found : s.live.jobs.get jobId with
  | none =>
    simp only [found] at comes
    obtain ⟨same, rfl⟩ := comes
    constructor
    · exact same
    · constructor
      · rintro ⟨message, same⟩
        cases same
      · intro row absent
        cases absent
  | some row =>
    simp only [found, settled row found, if_true] at comes
    exact ⟨(replyJob_runs comes).1, reply_accepted comes, fun _ _ => comes⟩

/-- A cancellation that finds no task running leaves the job cancelled. -/
theorem cancel_free {row : JobRow} (run : (Route.cancelJob P jobId).Runs (machine P) s out t)
    (found : s.live.jobs.get jobId = some row) (open_ : row.status.terminal = false)
    (free : s.live.stillRunning jobId = []) :
    ¬Refused out ∧ t.live.jobStatus jobId = some .cancelled ∧
      ∀ view, out = .ok (.job view) → (Route.replyJob P jobId).Runs (machine P) t out t := by
  have comes := cancelJob_runs run
  simp only [found, open_, free, Bool.false_eq_true, if_false] at comes
  obtain ⟨now, now', comes⟩ := comes
  have legal : jobCanTransition row.status (cancelStatus []) = true := by
    cases status : row.status with
    | queued | running | cancelling => rfl
    | succeeded | failed | cancelled => rw [status] at open_; contradiction
  rw [if_pos legal] at comes
  have held : ((s.live.cancelTasks jobId now).jobs.get jobId).isSome = true := by
    rw [cancelTasks_jobs, found]
    rfl
  have status : (Session.settled ((s.live.cancelTasks jobId now).moveJob jobId (cancelStatus []) none
      now')).live.jobStatus jobId = some .cancelled :=
    (moveJob_status _ jobId _ none now' jobId held).trans (if_pos rfl)
  obtain ⟨_, kept, answered⟩ := cancelRequested_runs comes (Option.isSome_map.symm.trans (congrArg _ status))
    (fun final settles => by
      obtain ⟨_, status', same, legal⟩ := settles
      cases status.symm.trans same
      contradiction)
  obtain reply | ⟨error, rfl⟩ := answered
  · exact ⟨reply_accepted reply, (kept jobId).trans status, fun _ _ => reply⟩
  · constructor
    · rintro ⟨message, same⟩
      cases same
    · refine ⟨(kept jobId).trans status, ?_⟩
      intro view same
      cases same

/-- A cancellation of a job with a running task is refused if the job is being cancelled
already, and otherwise leaves it so. -/
theorem cancel_busy (run : (Route.cancelJob P jobId).Runs (machine P) s out t) (busy : s.live.Busy jobId) :
    Refused out ∨ s.live.jobStatus jobId ≠ some .cancelling ∧
      t.live.jobStatus jobId = some .cancelling ∧ t.live.Busy jobId := by
  obtain ⟨row, taskId, r, found, open_, task, job, running⟩ := busy
  have comes := cancelJob_runs run
  have status : cancelStatus (s.live.stillRunning jobId) = .cancelling := by
    have member := Db.mem_stillRunning.mpr ⟨r, task, job, running⟩
    cases listed : s.live.stillRunning jobId with
    | nil =>
      rw [listed] at member
      contradiction
    | cons => rfl
  simp only [found, open_, status, Bool.false_eq_true, if_false] at comes
  obtain ⟨now, now', comes⟩ := comes
  split at comes
  · rename_i legal
    have held : ((s.live.cancelTasks jobId now).jobs.get jobId).isSome = true := by
      rw [cancelTasks_jobs, found]
      rfl
    have kept : ((s.live.cancelTasks jobId now).moveJob jobId .cancelling none now').tasks.get taskId = some r := by
      have left := cancelJobTasks_get s.live jobId now taskId
      rw [task, Option.map_some, if_pos job, TaskRow.cancelled, if_neg (by simp [running])] at left
      exact left
    have moved : ((s.live.cancelTasks jobId now).moveJob jobId .cancelling none now').jobStatus jobId =
        some .cancelling := (moveJob_status _ jobId _ none now' jobId held).trans (if_pos rfl)
    obtain ⟨tasks, same, _⟩ := cancelRequested_runs comes (Option.isSome_map.symm.trans (congrArg _ moved))
      (fun final settles => by
        have terminal := settles.1 taskId r kept job
        rw [running] at terminal
        contradiction)
    have cancelling := (same jobId).trans moved
    obtain ⟨row', found', status'⟩ := Option.map_eq_some_iff.mp cancelling
    refine .inr ⟨fun before => ?_, cancelling, row', taskId, r, found', by rw [status']; rfl, ?_, job, running⟩
    · rw [Option.some.inj ((jobStatus_some found).symm.trans before)] at legal
      contradiction
    · rw [tasks]
      exact kept
  · exact .inl comes.1

/-- The statuses of all jobs and tasks are the same. -/
def Db.SameStatuses (db db' : Db) : Prop :=
  (∀ jobId, db'.jobStatus jobId = db.jobStatus jobId) ∧
    ∀ taskId, (db'.tasks.get taskId).map TaskRow.status = (db.tasks.get taskId).map TaskRow.status

/-- No cancellation is refused, and a second one changes no status and answers with the same
status of the job. -/
def CancelRepeats (P : Platform) (jobId : JobId) (s : Session Db) : Prop :=
  ∀ out t, (Route.cancelJob P jobId).Runs (machine P) s out t → ¬Refused out ∧
    ∀ out' t', (Route.cancelJob P jobId).Runs (machine P) t out' t' → ¬Refused out' ∧
      t.live.SameStatuses t'.live ∧
      ∀ view, out = .ok (.job view) → ∃ view', out' = .ok (.job view') ∧ view'.status = view.status

theorem cancelJob_ends (P : Platform) (jobId : JobId) (s : Session Db) :
    ∃ out t, (Route.cancelJob P jobId).Runs (machine P) s out t := by
  have makes : Makes {} (.cancelJob jobId) (Route.cancelJob P jobId) := handler_makes (.cancelJob jobId)
  apply Program.AllCalls.ends makes
  rintro ⟨site, op⟩ s makes
  refine ⟨{ now := 0 }, ?_⟩
  cases op with
  | createJob | createTasksForJob | createJobWithTasks | registerWorker | addArtifact =>
    obtain common | writes | ⟨_, _, final⟩ := makes <;> contradiction
  | _ => trivial

/-- Two views of one store show one status. -/
theorem reply_again {out' : Except Fault Reply} {view : JobView}
    (first : (Route.replyJob P jobId).Runs (machine P) s (.ok (.job view)) t)
    (second : (Route.replyJob P jobId).Runs (machine P) s out' t) :
    ∃ view', out' = .ok (.job view') ∧ view'.status = view.status := by
  have comes := (replyJob_runs first).2
  have comes' := (replyJob_runs second).2
  split at comes
  · contradiction
  · simp only [*] at comes'
    split at comes
    · contradiction
    · simp only [*] at comes'
      obtain ⟨view₁, same, status⟩ := comes
      obtain ⟨view₂, rfl, status'⟩ := comes'
      cases same
      exact ⟨view₂, rfl, status'.trans status.symm⟩

/-- Whatever requests were served before, cancelling a job twice goes well exactly if the
job is unknown, terminal, or without a running task. -/
theorem cancel_repeats_iff (P : Platform) (config : ServerConfig) (s : Session Db)
    (served : (server P config).Serial (.settled {}) s) (jobId : JobId) :
    CancelRepeats P jobId s ↔ ¬s.live.Busy jobId := by
  constructor
  · intro repeats busy
    obtain ⟨out, t, first⟩ := cancelJob_ends P jobId s
    obtain ⟨accepted, again⟩ := repeats out t first
    obtain refused | ⟨_, cancelling, still⟩ := cancel_busy first busy
    · exact accepted refused
    · obtain ⟨out', t', second⟩ := cancelJob_ends P jobId t
      obtain refused | ⟨other, _⟩ := cancel_busy second still
      · exact (again out' t' second).1 refused
      · exact other cancelling
  · intro idle out t first
    have second_settled {u : Session Db} (terminal : ∀ row, u.live.jobs.get jobId = some row →
        row.status.terminal = true) {out' : Except Fault Reply} {t' : Session Db}
        (second : (Route.cancelJob P jobId).Runs (machine P) u out' t') (out : Except Fault Reply)
        (reply : ∀ view, out = .ok (.job view) → (Route.replyJob P jobId).Runs (machine P) u out u) :
        ¬Refused out' ∧ u.live.SameStatuses t'.live ∧
          ∀ view, out = .ok (.job view) → ∃ view', out' = .ok (.job view') ∧ view'.status = view.status := by
      obtain ⟨rfl, accepted, answers⟩ := cancel_settled second terminal
      refine ⟨accepted, ⟨fun _ => rfl, fun _ => rfl⟩, ?_⟩
      rintro view rfl
      have shown := reply view rfl
      cases found : t'.live.jobs.get jobId with
      | none =>
        have comes := (replyJob_runs shown).2
        simp only [found] at comes
        contradiction
      | some row => exact reply_again shown (answers row found)
    by_cases terminal : ∀ row, s.live.jobs.get jobId = some row → row.status.terminal = true
    · obtain ⟨rfl, accepted, answers⟩ := cancel_settled first terminal
      refine ⟨accepted, fun out' t' second => second_settled terminal second out fun view same => ?_⟩
      cases found : t.live.jobs.get jobId with
      | none =>
        have comes := cancelJob_runs first
        simp only [found] at comes
        rw [same] at comes
        cases comes.2
      | some row => exact answers row found
    · push Not at terminal
      obtain ⟨row, found, open_⟩ := terminal
      have open_ : row.status.terminal = false := Bool.not_eq_true _ ▸ open_
      have free : s.live.stillRunning jobId = [] := by
        rw [List.eq_nil_iff_forall_not_mem]
        intro taskId member
        obtain ⟨r, task, job, running⟩ := Db.mem_stillRunning.mp member
        exact idle ⟨row, taskId, r, found, open_, task, job, running⟩
      obtain ⟨accepted, cancelled, reply⟩ := cancel_free first found open_ free
      refine ⟨accepted, fun out' t' second => second_settled (fun row' found' => ?_) second out reply⟩
      rw [Option.some.inj ((jobStatus_some found').symm.trans cancelled)]
      rfl

/-- A job of one task, running on a worker. -/
def runningRequests : List (Request × Io) :=
  [(.submitJob singleTask {}, { now := 1 }), (.registerWorker equipped {}, { now := 2 }),
    (.lease "worker_0" {}, { now := 3 }), (.startTask "task_1" "worker_0" {}, { now := 4 })]

theorem cancel_repeats_idle : ∃ s, (server .plain {}).Serial (.settled {}) s ∧
    s.live.jobStatus "job_0" = some .queued ∧ CancelRepeats .plain "job_0" s := by
  have served : ((server .plain {}).serveAll (runningRequests.take 1) (.settled {})).any (fun s =>
      decide (s.live.jobStatus "job_0" = some .queued) &&
      s.live.tasks.rows.all fun r => decide (r.status ≠ .running)) = true := by decide +kernel
  obtain ⟨s, serial, facts⟩ := System.serveAll_any served
  simp only [Bool.and_eq_true, decide_eq_true_eq, List.all_eq_true] at facts
  refine ⟨s, serial, facts.1, (cancel_repeats_iff .plain {} s serial "job_0").mpr ?_⟩
  rintro ⟨_, _, r, _, _, task, _, running⟩
  exact facts.2 r (Table.mem_of_get task) running

/-- Cancelled twice while its task runs, a job answers the second time with the refusal of
its own status. -/
theorem cancel_refused : ¬∀ s, (server .plain {}).Serial (.settled {}) s → ∀ jobId, CancelRepeats .plain jobId s := by
  intro repeats
  have served : ((server .plain {}).serveAll runningRequests (.settled {})).any (fun s =>
      (s.live.jobs.get "job_0").any (fun row => !row.status.terminal) &&
      (s.live.tasks.get "task_1").any fun r => decide (r.jobId = "job_0") && decide (r.status = .running)) = true := by
    decide +kernel
  obtain ⟨s, serial, facts⟩ := System.serveAll_any served
  simp only [Bool.and_eq_true, decide_eq_true_eq, Option.any_eq_true, Bool.not_eq_true'] at facts
  obtain ⟨⟨row, found, open_⟩, r, task, job, running⟩ := facts
  obtain ⟨out, t, first⟩ := cancelJob_ends .plain "job_0" s
  obtain ⟨accepted, again⟩ := repeats s serial "job_0" out t first
  obtain refused | ⟨_, cancelling, still⟩ :=
    cancel_busy first ⟨row, "task_1", r, found, open_, task, job, running⟩
  · exact accepted refused
  · obtain ⟨out', t', second⟩ := cancelJob_ends .plain "job_0" t
    obtain refused | ⟨other, _⟩ := cancel_busy second still
    · exact (again out' t' second).1 refused
    · exact other cancelling

end N4Cluster
