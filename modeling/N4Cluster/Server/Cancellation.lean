import N4Cluster.Server.Outcomes

/-! A cancelled job stays cancelled: nothing of it is leased again and no other
outcome is written. The handlers read the job's status in one call and act on it in
a later one; the law holds of the runs that do not act on a status that has passed. -/
namespace N4Cluster
open Relational Transactional Relation Interleave

variable {P : Platform} {config : ServerConfig} {A : Assumptions} {p q : ServerPool} {l : Turn}

def JobStatus.cancels (status : JobStatus) : Prop := status = .cancelling ∨ status = .cancelled

instance (status : JobStatus) : Decidable status.cancels := inferInstanceAs (Decidable (_ ∨ _))

/-- Once a job is being cancelled, no step leases a task of it, and it can only become `cancelled`. -/
def CancellationHolds (P : Platform) (config : ServerConfig) (ok : ServerPool → Turn → Prop) : Prop :=
  ∀ p q, System.Reaches (server P config) ok started p → System.Reaches (server P config) ok p q →
    ∀ jobId status, p.store.live.jobStatus jobId = some status → status.cancels →
      (q.store.live.jobStatus jobId = some status ∨ q.store.live.jobStatus jobId = some .cancelled) ∧
      ∀ l r, ok q l → (server P config).take q l = some r →
        ∀ taskId row', r.store.live.tasks.get taskId = some row' → row'.jobId = jobId →
          row'.status = .leased → ∃ row, q.store.live.tasks.get taskId = some row ∧
            row.status = .leased ∧ row.attempt = row'.attempt

def Db.NoneQueued (db : Db) (jobId : JobId) : Prop :=
  ∀ taskId r, db.tasks.get taskId = some r → r.jobId = jobId → r.status ≠ .queued

/-- The task, the reporter and the retriability of a failure report. -/
def DbOp.failure (op : DbOp) : Option (TaskId × Option WorkerId × Bool) :=
  match op with
  | .failTask taskId w _ retriable => some (taskId, w, retriable)
  | _ => none

/-- The report requeues a task of a job that is being cancelled. -/
def Relaunches (db : Db) (op : DbOp) : Prop :=
  ∃ report, op.failure = some report ∧ ∃ r, db.tasks.get report.1 = some r ∧
    (report.2.1.isSome = true → r.workerId = report.2.1) ∧
    taskCanTransition r.status .failed = true ∧ report.2.2 = true ∧ r.attempt < r.maxAttempts ∧
    ∃ status, db.jobStatus r.jobId = some status ∧ status.cancels

instance (db : Db) (op : DbOp) : Decidable (Relaunches db op) :=
  inferInstanceAs (Decidable (∃ report, op.failure = some report ∧ ∃ r, _ = some r ∧
    _ ∧ _ ∧ _ ∧ _ ∧ ∃ status, _ = some status ∧ _))

theorem TaskMove.requeues {db : Db} {now : Time} {r r' : TaskRow} {op : DbOp} {o : Option WorkerId}
    (how : TaskMove db now r op r' o) (queued : r'.status = .queued) :
    (∃ w error, op = .failTask r.id w error true ∧ (w.isSome = true → r.workerId = w) ∧
      taskCanTransition r.status .failed = true ∧ r.attempt < r.maxAttempts) ∨
    op.reaps = true ∧ ∃ status, db.jobStatus r.jobId = some status ∧ ¬status.cancels := by
  cases how with
  | lease | start | complete | stop | cancel => contradiction
  | fail owned legal =>
    rw [fail_status] at queued
    split at queued
    · rename_i retried
      obtain ⟨rfl, left⟩ := retried
      exact .inl ⟨_, _, rfl, owned, legal, left⟩
    · contradiction
  | resolve reaps inFlight job =>
    rw [resolve_status] at queued
    split at queued
    · contradiction
    · rename_i open_
      exact .inr ⟨reaps, _, by rw [Db.jobStatus, job]; rfl, open_⟩

/-- What makes a task of a job queued again. -/
theorem Move.none_queued {io : Io} {op : DbOp} {db db' : Db} (move : Move io op db db')
    (inserts : op.creates = false) {jobId : JobId} {status : JobStatus}
    (cancels : db.jobStatus jobId = some status ∧ status.cancels) (quiet : ¬Relaunches db op)
    (none : db.NoneQueued jobId) : db'.NoneQueued jobId := by
  intro taskId r' found' job
  cases move with
  | task touched how jobs workers =>
    rcases touched.back found' with ⟨rfl, rfl⟩ | ⟨_, before⟩
    · intro queued
      have job := how.same_job.2.symm.trans job
      rcases how.requeues queued with ⟨w, error, rfl, owned, legal, left⟩ | ⟨_, other, now, open_⟩
      · exact quiet ⟨_, rfl, _, touched.found, owned, legal, rfl, left, status, job ▸ cancels.1, cancels.2⟩
      · rw [job, cancels.1] at now
        cases now
        exact open_ cancels.2
    · exact none taskId r' before job
  | renew how tasks jobs workers =>
    rw [tasks, Db.renewLeases, Table.get_updateWhere] at found'
    obtain ⟨r, found, rfl⟩ := Option.map_eq_some_iff.mp found'
    have before := none taskId r found (by split at job <;> exact job)
    split <;> exact before
  | newTask creates | newJob creates => cases inserts.symm.trans creates
  | job how present legal moved =>
    subst moved
    exact none taskId r' found' job
  | result how put =>
    subst put
    exact none taskId r' found' job
  | newWorker _ _ tasks | workers _ _ _ tasks | other tasks =>
    exact none taskId r' (tasks ▸ found') job

section
variable {io : Io} {op : DbOp} {s : Session Db} {jobId : JobId} {status : JobStatus}

theorem exec_none_queued (routed : op.routed = true) (fresh : Fresh io s.live op)
    (cancels : s.live.jobStatus jobId = some status ∧ status.cancels) (quiet : ¬Relaunches s.live op)
    (none : s.live.NoneQueued jobId) : (op.after P io s).live.NoneQueued jobId := by
  cases creates : op.creates with
  | false =>
    cases single : op.single with
    | true =>
      rcases exec_stutters P io single s with same | move
      · exact same ▸ none
      · exact move.none_queued creates cancels quiet none
    | false =>
      have still : op.movesJobs = false := by cases op <;> first | rfl | contradiction
      have kept : ∀ db, ¬Relaunches db op := by
        rintro db ⟨report, failed, _⟩
        cases op <;> contradiction
      refine ((exec_moves P io op s).rec (motive := fun db _ =>
        db.jobStatus jobId = some status ∧ db.NoneQueued jobId) ⟨cancels.1, none⟩ fun _ move held => ?_).2
      exact ⟨(move.job_status still creates jobId).trans held.1,
        move.none_queued creates ⟨held.1, cancels.2⟩ (kept _) held.2⟩
  | true =>
    cases op with
    | createJobWithTasks req owner =>
      rcases createJobWithTasks_cases (P := P) fresh with ⟨db, created, _, _, _, ran⟩ | ⟨_, ran⟩ | ⟨_, _, ran⟩
      all_goals simp only [DbOp.after, DbOp.exec, ran]
      · intro taskId r found job
        rcases created.task found with old | ⟨new, _⟩
        · exact none taskId r old job
        · obtain ⟨row, held, _⟩ := Option.map_eq_some_iff.mp cancels.1
          rw [← job, new] at held
          cases created.fresh.symm.trans held
      all_goals exact none
    | _ => contradiction

/-- A leased task was leased before, or queued. -/
theorem Move.leased_origin {db db' : Db} (move : Move io op db db') {taskId : TaskId} {r' : TaskRow}
    (found' : db'.tasks.get taskId = some r') (leased : r'.status = .leased) :
    ∃ r, db.tasks.get taskId = some r ∧ r.jobId = r'.jobId ∧
      (r.status = .leased ∧ r.attempt = r'.attempt ∨ r.status = .queued ∧ op.movesJobs = true) := by
  have same (found : db.tasks.get taskId = some r') : ∃ r, db.tasks.get taskId = some r ∧
      r.jobId = r'.jobId ∧ (r.status = .leased ∧ r.attempt = r'.attempt ∨
        r.status = .queued ∧ op.movesJobs = true) := ⟨r', found, rfl, .inl ⟨leased, rfl⟩⟩
  cases move with
  | task touched how jobs workers =>
    rcases touched.back found' with ⟨rfl, rfl⟩ | ⟨_, before⟩
    · refine ⟨_, touched.found, how.same_job.2.symm, .inr ?_⟩
      obtain ⟨w, ttl, rfl⟩ := how.leased leased
      cases how with
      | lease leasable => exact ⟨leasable.queued, rfl⟩
      | resolve reaps => contradiction
    · exact same before
  | renew how tasks jobs workers =>
    rw [tasks, Db.renewLeases, Table.get_updateWhere] at found'
    obtain ⟨r, found, rfl⟩ := Option.map_eq_some_iff.mp found'
    refine ⟨r, found, ?_⟩
    split at leased <;> exact ⟨by split <;> rfl, .inl ⟨leased, by split <;> rfl⟩⟩
  | newTask creates job inserted jobs workers =>
    rw [Table.get_insert inserted] at found'
    split at found'
    · cases found'
      contradiction
    · exact same found'
  | job how present legal moved =>
    subst moved
    exact same found'
  | result how put =>
    subst put
    exact same found'
  | newJob _ _ _ tasks | newWorker _ _ tasks | workers _ _ _ tasks | other tasks =>
    exact same (tasks ▸ found')

/-- Where no task of a job is queued, no call leases one. -/
theorem exec_unleased {taskId : TaskId} {r' : TaskRow} (none : s.live.NoneQueued jobId)
    (found' : (op.after P io s).live.tasks.get taskId = some r') (job : r'.jobId = jobId)
    (leased : r'.status = .leased) :
    ∃ r, s.live.tasks.get taskId = some r ∧ r.status = .leased ∧ r.attempt = r'.attempt := by
  cases moves : op.movesJobs with
  | true =>
    have single : op.single = true := by cases op <;> first | rfl | contradiction
    rcases exec_stutters P io single s with same | move
    · exact ⟨r', same ▸ found', leased, rfl⟩
    · obtain ⟨r, found, job', ⟨status, attempt⟩ | ⟨queued, _⟩⟩ := move.leased_origin found' leased
      · exact ⟨r, found, status, attempt⟩
      · exact False.elim (none taskId r found (job'.trans job) queued)
  | false =>
    have chain := exec_moves P io op s
    generalize (op.after P io s).live = db at chain found'
    induction chain generalizing r' with
    | refl => exact ⟨r', found', leased, rfl⟩
    | tail _ move ih =>
      obtain ⟨r, found, job', ⟨status, attempt⟩ | ⟨_, other⟩⟩ := move.leased_origin found' leased
      · obtain ⟨first, found₀, status₀, attempt₀⟩ := ih (job'.trans job) status found
        exact ⟨first, found₀, status₀, attempt₀.trans attempt⟩
      · exact nomatch moves.symm.trans other

end

/-! ## Runs -/

/-- A turn that acts on no status that has passed: a job becomes `cancelling` only
while none of its tasks is queued and no finalization is about to write `failed`,
and no report requeues a task of a job that is being cancelled. -/
def Undisturbed (p : ServerPool) : Turn → Prop
  | .sched i _ => ∀ c, p.waiting i = some c → ¬Relaunches p.store.live c.op ∧ ¬Unguarded p i c ∧
      ∀ jobId, c.cancelling = some jobId → p.store.live.NoneQueued jobId
  | _ => True

/-- Cancellations meet no finalization about to write `failed`. -/
def Assumptions.guarding : Assumptions := ⟨True, False, False, False, False⟩

theorem undisturbed_allowed (lawful : (server P config).Lawful p l) (undisturbed : Undisturbed p l) :
    Allowed P config .guarding p l := by
  refine ⟨lawful, fun _ i io c here waits => ?_, nofun, nofun, nofun, nofun, fun ends => ends.1.elim⟩
  subst here
  exact (undisturbed c waits).2.1

/-- What holds along undisturbed runs: duties are kept, terminal jobs have terminal
tasks, and a job that is being cancelled has no queued task. -/
structure Quelled (P : Platform) (config : ServerConfig) (p : ServerPool) : Prop where
  keeping : Keeping P config .guarding p
  closed : p.store.live.Closed
  none : ∀ jobId, p.store.live.jobStatus jobId = some .cancelling → p.store.live.NoneQueued jobId

theorem Quelled.none_queued (quelled : Quelled P config p) {jobId : JobId} {status : JobStatus}
    (now : p.store.live.jobStatus jobId = some status) (cancels : status.cancels) :
    p.store.live.NoneQueued jobId := by
  rcases cancels with rfl | rfl
  · exact quelled.none jobId now
  · intro taskId r found job queued
    have terminal := quelled.closed jobId (settled_status.mpr ⟨_, now, rfl⟩) taskId r found job
    rw [queued] at terminal
    contradiction

theorem started_quelled : Quelled P config started where
  keeping := started_keeping
  closed jobId settled := by
    obtain ⟨row, found, _⟩ := settled
    simp [started, Session.settled] at found
  none jobId now := by simp [started, Session.settled, Db.jobStatus] at now

/-- A job that is being cancelled stays so, or becomes `cancelled`. -/
def Cancelling (s t : Session Db) : Prop :=
  ∀ jobId status, s.live.jobStatus jobId = some status → status.cancels →
    t.live.jobStatus jobId = some status ∨ t.live.jobStatus jobId = some .cancelled

theorem exec_cancelling {io : Io} {op : DbOp} {s : Session Db} (fair : Fair .guarding s.live op) :
    Cancelling s (op.after P io s) := by
  intro jobId status now cancels
  obtain ⟨row, found, rfl⟩ := Option.map_eq_some_iff.mp now
  obtain ⟨row', found', edge⟩ := exec_job_step (P := P) io op found
  have after : (op.after P io s).live.jobStatus jobId = some row'.status := by
    rw [Db.jobStatus, found']
    rfl
  rw [after]
  rcases edge with same | legal
  · exact .inl (by rw [same])
  · rcases cancels with status | status <;> rw [status] at legal now
    · cases next : row'.status with
      | cancelled => exact .inr rfl
      | failed =>
        rw [next] at after
        obtain ⟨called, _⟩ := exec_outcomes fair (by rw [now]; rintro ⟨⟩) after rfl (by rintro ⟨⟩)
        exact absurd now (((fair.settles jobId .failed called).2.2 rfl).2 trivial)
      | _ => simp [next, jobCanTransition, jobTransitions] at legal
    · simp [jobCanTransition, jobTransitions] at legal

theorem Quelled.step (quelled : Quelled P config p) (lawful : (server P config).Lawful p l)
    (undisturbed : Undisturbed p l) (stepped : (server P config).take p l = some q) :
    Quelled P config q ∧ Cancelling p.store q.store := by
  have allowed := undisturbed_allowed lawful undisturbed
  have keeping := quelled.keeping.step allowed stepped
  rcases quelled.keeping.cases allowed stepped with
    ⟨same, _⟩ | ⟨i, io, _, c, _, rfl, found, fresh, fair, rfl, _⟩
  · exact ⟨⟨keeping, same ▸ quelled.closed, same ▸ quelled.none⟩, fun _ _ now _ => .inl (same ▸ now)⟩
  · obtain ⟨quiet, _, sets⟩ := undisturbed c (waiting_of found)
    refine ⟨⟨keeping, exec_closed fair fresh quelled.keeping.1 quelled.closed, fun jobId now => ?_⟩,
      exec_cancelling fair⟩
    rcases exec_status_origin now with before | set
    · exact exec_none_queued fair.routed fresh ⟨before, .inl rfl⟩ quiet (quelled.none jobId before)
    · have tasks := exec_sets_tasks (P := P) (s := p.store) io set ⟨nofun, nofun⟩
      have routed := fair.routed
      have none : p.store.live.NoneQueued jobId := by
        unfold Call.cancelling at sets
        revert set routed sets
        cases c.op with
        | setJobStatus k new error =>
          rintro sets ⟨rfl, rfl⟩ _
          exact sets _ rfl
        | trySetJobStatus k new =>
          rintro _ ⟨rfl, rfl⟩ routed
          contradiction
        | _ => exact fun _ set => by contradiction
      intro taskId r found job
      exact none taskId r (tasks ▸ found) job

theorem cancellation_holds (P : Platform) (config : ServerConfig) :
    CancellationHolds P config fun p l => (server P config).Lawful p l ∧ Undisturbed p l := by
  intro p q first second jobId status now cancels
  have step {p l q} (quelled : Quelled P config p)
      (allowed : (server P config).Lawful p l ∧ Undisturbed p l)
      (stepped : (server P config).take p l = some q) := quelled.step allowed.1 allowed.2 stepped
  have quelled := first.invariant (fun holds allowed stepped => (step holds allowed stepped).1)
    started_quelled
  have kept := second.related (I := Quelled P config) (R := Cancelling)
    (fun _ _ _ now _ => .inl now) (fun first second jobId status now cancels => ?_) step quelled
  · have quelled' := second.invariant (fun holds allowed stepped => (step holds allowed stepped).1) quelled
    refine ⟨kept jobId status now cancels, fun l r allowed stepped _ row' found' job leased => ?_⟩
    have none : q.store.live.NoneQueued jobId := by
      rcases kept jobId status now cancels with same | done
      · exact quelled'.none_queued same cancels
      · exact quelled'.none_queued done (.inr rfl)
    rcases quelled'.keeping.cases (undisturbed_allowed allowed.1 allowed.2) stepped with
      ⟨same, _⟩ | ⟨_, _, _, _, _, _, _, _, _, rfl, _⟩
    · exact ⟨row', same ▸ found', leased, rfl⟩
    · exact exec_unleased none found' job leased
  · rcases first jobId status now cancels with same | done
    · exact second jobId status same cancels
    · exact .inr ((second jobId .cancelled done (.inr rfl)).elim id id)

instance (db : Db) (jobId : JobId) : Decidable (db.NoneQueued jobId) :=
  decidable_of_iff (∀ r ∈ db.tasks.rows, r.jobId = jobId → r.status ≠ .queued)
    ⟨fun none _ r found => none r (Table.get_eq_some.mp found).1,
      fun none r member => none r.id r (Table.get_of_mem member)⟩

instance (p : ServerPool) (i : Nat) (c : Call) : Decidable (Unguarded p i c) :=
  inferInstanceAs (Decidable (∃ jobId, c.cancelling = some jobId ∧ ∃ k < p.threads.length, _ ∧ _))

instance (p : ServerPool) : (l : Turn) → Decidable (Undisturbed p l)
  | .sched i _ => inferInstanceAs (Decidable (∀ c, p.waiting i = some c → _ ∧ _ ∧
    ∀ jobId, c.cancelling = some jobId → p.store.live.NoneQueued jobId))
  | .spawn _ | .restart => isTrue trivial

/-- A running task's job is cancelled; its worker then reports success. -/
def stoppedTurns : List Turn :=
  [.spawn (.completeTask 1 "task_1" {} "worker_0" {})] ++ turns 5 14 6

theorem cancellation_holds_stopped :
    ∃ p q : ServerPool, p.store.live.jobStatus "job_0" = some .cancelling ∧
      System.Reaches (server .plain {}) (server .plain {}).Lawful p q ∧ q.Quiet ∧
      (q.store.live.jobStatus "job_0" = some .cancelling ∨
        q.store.live.jobStatus "job_0" = some .cancelled) := by
  have played : ((server .plain {}).play (fun p l => (server .plain {}).Lawful p l ∧ Undisturbed p l)
      (runningTurns ++ [.spawn (.cancelJob "job_0")] ++ turns 4 13 5) started).any (fun p =>
        decide (p.store.live.jobStatus "job_0" = some .cancelling) &&
        ((server .plain {}).play (fun p l => (server .plain {}).Lawful p l ∧ Undisturbed p l)
          stoppedTurns p).any fun q => decide q.Quiet) = true := by decide +kernel
  obtain ⟨p, before, facts⟩ := System.play_any played
  simp only [Bool.and_eq_true, decide_eq_true_eq] at facts
  obtain ⟨now, facts⟩ := facts
  obtain ⟨q, after, facts⟩ := System.play_any facts
  exact ⟨p, q, now, after.mono fun _ _ both => both.1, of_decide_eq_true facts,
    (cancellation_holds .plain {} p q before after "job_0" .cancelling now (.inl rfl)).1⟩

/-- The report of a failure has read the job's status before the cancellation
writes it; its task is queued again, and leased. -/
def relaunchedTurns : List Turn :=
  runningTurns ++ [.spawn (.failTask 1 "task_1" { error := "lost" } "worker_0" {})] ++ turns 4 3 5 ++
  [.spawn (.cancelJob "job_0")] ++ turns 5 3 6

theorem CancellationHolds.refuted {ok : ServerPool → Turn → Prop} {l : Turn} {r : ServerPool}
    {row : TaskRow} (before : (server P config).Reaches ok started p)
    (after : (server P config).Reaches ok p q) (now : p.store.live.jobStatus jobId = some .cancelling)
    (queued : (q.store.live.tasks.get taskId).all fun row => row.status = .queued) (allowed : ok q l)
    (stepped : (server P config).take q l = some r) (found : r.store.live.tasks.get taskId = some row)
    (job : row.jobId = jobId) (leased : row.status = .leased) : ¬CancellationHolds P config ok := by
  intro holds
  obtain ⟨row', found', leased', _⟩ :=
    (holds p q before after jobId .cancelling now (.inl rfl)).2 l r allowed stepped taskId row found
      job leased
  simp [found', leased'] at queued

/-- The last step of the next lease on thread 6. -/
def leaseTurn : Turn := .sched 6 { now := 8 }

theorem cancelled_job_relaunched : ¬CancellationHolds .plain {} (server .plain {}).Lawful := by
  have played : ((server .plain {}).play (server .plain {}).Lawful relaunchedTurns started).any (fun p =>
      decide (p.store.live.jobStatus "job_0" = some .cancelling) &&
        ((server .plain {}).play (server .plain {}).Lawful
          (turns 4 1 7 ++ [.spawn (.lease "worker_0" {})] ++ turns 6 1 8) p).any fun q =>
          (q.store.live.tasks.get "task_1").all (fun row => row.status = .queued) &&
            (decide ((server .plain {}).Lawful q leaseTurn) &&
            ((server .plain {}).take q leaseTurn).any fun r =>
              (r.store.live.tasks.get "task_1").any fun row =>
                row.status = .leased && row.jobId = "job_0")) = true := by decide +kernel
  obtain ⟨p, before, facts⟩ := System.play_any played
  clear played
  obtain ⟨now, facts⟩ := Bool.and_eq_true_iff.mp facts
  obtain ⟨q, after, facts⟩ := System.play_any facts
  obtain ⟨queued, facts⟩ := Bool.and_eq_true_iff.mp facts
  obtain ⟨lawful, facts⟩ := Bool.and_eq_true_iff.mp facts
  obtain ⟨r, stepped, facts⟩ := (Option.any_eq_true _ _).mp facts
  obtain ⟨row, found, facts⟩ := (Option.any_eq_true _ _).mp facts
  obtain ⟨leased, job⟩ := Bool.and_eq_true_iff.mp facts
  exact CancellationHolds.refuted before after (of_decide_eq_true now) queued (of_decide_eq_true lawful) stepped found
    (of_decide_eq_true job) (of_decide_eq_true leased)

end N4Cluster
