import N4Cluster.Server.Rows

/-! Statuses over runs of operations: every change follows the transition
tables, and rows in a status without a way out are never written again. -/
namespace N4Cluster
open Relational Transactional Relation

theorem legal_path {src dst : TaskStatus} (legal : taskCanTransition src dst = true) : TaskPath src dst :=
  .single legal

theorem inFlight_lost {r : TaskRow} (inFlight : r.status.inFlight = true) :
    taskCanTransition r.status .lost = true := by
  cases status : r.status <;>
    simp_all [TaskStatus.inFlight, taskCanTransition, taskTransitions]

/-- A task moves along its table, through `failed` or `lost` where two writes are made. -/
theorem TaskMove.path {db : Db} {now : Time} {r r' : TaskRow} {op : DbOp} {o : Option WorkerId}
    (how : TaskMove db now r op r' o) : TaskPath r.status r'.status := by
  cases how with
  | lease leasable => exact legal_path (by rw [leasable.queued]; rfl)
  | start owned leased => exact legal_path (by rw [leased]; rfl)
  | complete owned running => exact legal_path (by rw [running]; rfl)
  | stop owned legal => exact legal_path legal
  | cancel waiting => exact legal_path (by rcases waiting with queued | leased <;> simp only [*] <;> rfl)
  | fail owned legal =>
    rw [fail_status]
    split
    · exact (legal_path legal).tail rfl
    · exact legal_path legal
  | resolve reaps inFlight job =>
    have lost := legal_path (inFlight_lost inFlight)
    rw [resolve_status]
    split
    · exact lost.tail rfl
    · split
      · exact lost.tail rfl
      · exact lost.tail rfl

/-- No move starts from a terminal task. -/
theorem TaskMove.active {db : Db} {now : Time} {r r' : TaskRow} {op : DbOp} {o : Option WorkerId}
    (how : TaskMove db now r op r' o) : r.status.terminal = false := by
  cases how with
  | lease leasable => rw [leasable.queued]; rfl
  | start owned status | complete owned status => rw [status]; rfl
  | cancel waiting => rcases waiting with status | status <;> rw [status] <;> rfl
  | resolve reaps inFlight job =>
    cases status : r.status <;> simp_all [TaskStatus.inFlight, TaskStatus.terminal]
  | fail owned legal | stop owned legal =>
    cases status : r.status <;>
      simp_all [taskCanTransition, taskTransitions, TaskStatus.terminal]

/-- A task row over one move: a step along its table that keeps its job. -/
theorem Move.task_path {io : Io} {op : DbOp} {db db' : Db} (move : Move io op db db')
    {taskId : TaskId} {r : TaskRow} (found : db.tasks.get taskId = some r) :
    ∃ r', db'.tasks.get taskId = some r' ∧ TaskPath r.status r'.status := by
  cases move with
  | task touched how jobs workers =>
    rcases touched.get found with ⟨rfl, rfl, now⟩ | ⟨_, now⟩
    · exact ⟨_, now, how.path⟩
    · exact ⟨r, now, .refl⟩
  | renew how tasks jobs workers =>
    rw [tasks, Db.renewLeases, Table.get_updateWhere, found]
    refine ⟨_, rfl, ?_⟩
    dsimp only
    split <;> exact .refl
  | newTask creates job inserted jobs workers =>
    refine ⟨r, ?_, .refl⟩
    rw [Table.get_insert inserted, if_neg fun same => ?_]
    · exact found
    · cases (same ▸ found).symm.trans (Table.insert_fresh inserted)
  | job how present legal moved =>
    subst moved
    exact ⟨r, found, .refl⟩
  | result how put =>
    subst put
    exact ⟨r, found, .refl⟩
  | newJob _ _ _ tasks | newWorker _ _ tasks | workers _ _ _ tasks | other tasks =>
    exact ⟨r, tasks ▸ found, .refl⟩

/-- A terminal task row is never written. -/
theorem Move.task_terminal {io : Io} {op : DbOp} {db db' : Db} (move : Move io op db db')
    {taskId : TaskId} {r : TaskRow} (found : db.tasks.get taskId = some r)
    (terminal : r.status.terminal = true) : db'.tasks.get taskId = some r := by
  cases move with
  | task touched how jobs workers =>
    rcases touched.get found with ⟨rfl, rfl, _⟩ | ⟨_, now⟩
    · cases terminal.symm.trans how.active
    · exact now
  | renew how tasks jobs workers =>
    rw [tasks, Db.renewLeases, Table.get_updateWhere, found, Option.map_some, if_neg]
    simp [TaskStatus.still terminal]
  | newTask creates job inserted jobs workers =>
    rw [Table.get_insert inserted, if_neg fun same => ?_]
    · exact found
    · cases (same ▸ found).symm.trans (Table.insert_fresh inserted)
  | job how present legal moved =>
    subst moved
    exact found
  | result how put =>
    subst put
    exact found
  | newJob _ _ _ tasks | newWorker _ _ tasks | workers _ _ _ tasks | other tasks =>
    exact tasks ▸ found

/-- The job's status over one move: the same, or along one edge of its table. -/
def JobStep (src dst : JobStatus) : Prop := dst = src ∨ jobCanTransition src dst = true

/-- The operations that can change the status of a job. -/
def DbOp.movesJobs : DbOp → Bool
  | .setJobStatus _ _ _ | .trySetJobStatus _ _ | .leaseNextTask _ _ => true
  | _ => false

theorem maybeJobRunning_get (db : Db) (jobId : JobId) (now : Time) (k : JobId) :
    (db.maybeJobRunning jobId now).jobs.get k = (db.jobs.get k).map fun r =>
      if r.id = jobId && r.status = .queued then { r with status := .running, updatedAt := now } else r :=
  Table.get_updateWhere _ _ _ (by intro; rfl) k

theorem moveJob_get (db : Db) (jobId : JobId) (status : JobStatus) (error : Option String)
    (now : Time) (k : JobId) :
    (db.moveJob jobId status error now).jobs.get k =
      if k = jobId then (db.jobs.get k).map fun r => r.moved status error now else db.jobs.get k :=
  Table.get_update _ _ _ _ (by intro; rfl)

theorem putResult_get (db : Db) (jobId : JobId) (agg : JobAggregate) (now : Time) (k : JobId) :
    (db.putResult jobId agg now).jobs.get k =
      if k = jobId then (db.jobs.get k).map fun r =>
        { r with result := some agg, updatedAt := now } else db.jobs.get k :=
  Table.get_update _ _ _ _ (by intro; rfl)

theorem Move.job_step {io : Io} {op : DbOp} {db db' : Db} (move : Move io op db db')
    {jobId : JobId} {row : JobRow} (found : db.jobs.get jobId = some row) :
    ∃ row', db'.jobs.get jobId = some row' ∧ row'.request = row.request ∧
      row'.idempotencyKey = row.idempotencyKey ∧ JobStep row.status row'.status ∧
      (op.movesJobs = false → row'.status = row.status) := by
  have same (jobs : db'.jobs = db.jobs) : ∃ row', db'.jobs.get jobId = some row' ∧
      row'.request = row.request ∧ row'.idempotencyKey = row.idempotencyKey ∧
      JobStep row.status row'.status ∧ (op.movesJobs = false → row'.status = row.status) :=
    ⟨row, jobs ▸ found, rfl, rfl, .inl rfl, fun _ => rfl⟩
  cases move with
  | task touched how jobs workers =>
    split at jobs
    · rename_i leased
      obtain ⟨w, ttl, rfl⟩ := how.leased leased
      rw [jobs, maybeJobRunning_get, found]
      refine ⟨_, rfl, ?_⟩
      dsimp only
      split
      · rename_i queued
        have queued : row.status = .queued := by simpa using (Bool.and_eq_true_iff.mp queued).2
        exact ⟨rfl, rfl, .inr (by rw [queued]; rfl), nofun⟩
      · exact ⟨rfl, rfl, .inl rfl, nofun⟩
    · exact same jobs
  | job how present legal moved =>
    subst moved
    rw [moveJob_get, found]
    split
    · rename_i here
      subst here
      cases present.symm.trans found
      refine ⟨_, rfl, rfl, rfl, .inr legal, fun stays => ?_⟩
      rcases how with rfl | ⟨rfl, _⟩ <;> contradiction
    · exact ⟨row, rfl, rfl, rfl, .inl rfl, fun _ => rfl⟩
  | result how put =>
    subst put
    rw [putResult_get, found]
    split
    · exact ⟨_, rfl, rfl, rfl, .inl rfl, fun _ => rfl⟩
    · exact ⟨row, rfl, rfl, rfl, .inl rfl, fun _ => rfl⟩
  | newJob creates free inserted tasks workers =>
    rw [Table.get_insert inserted, if_neg fun here => ?_]
    · exact ⟨row, found, rfl, rfl, .inl rfl, fun _ => rfl⟩
    · exact nomatch (here ▸ found).symm.trans (Table.insert_fresh inserted)
  | renew _ _ jobs | newTask _ _ _ jobs | newWorker _ _ _ jobs | workers _ _ _ _ jobs
  | other _ jobs => exact same jobs

theorem Stutters.job_step {io : Io} {op : DbOp} {db db' : Db} (step : Stutters io op db db')
    {jobId : JobId} {row : JobRow} (found : db.jobs.get jobId = some row) :
    ∃ row', db'.jobs.get jobId = some row' ∧ JobStep row.status row'.status := by
  rcases step with rfl | move
  · exact ⟨row, found, .inl rfl⟩
  · obtain ⟨row', found', _, _, edge, _⟩ := move.job_step found
    exact ⟨row', found', edge⟩

theorem Moves.job_same {io : Io} {op : DbOp} {db db' : Db} (moves : Moves io op db db')
    (still : op.movesJobs = false) {jobId : JobId} {row : JobRow}
    (found : db.jobs.get jobId = some row) :
    ∃ row', db'.jobs.get jobId = some row' ∧ row'.status = row.status := by
  induction moves with
  | refl => exact ⟨row, found, rfl⟩
  | tail _ move ih =>
    obtain ⟨mid, held, same⟩ := ih
    obtain ⟨row', found', _, _, _, stays⟩ := move.job_step held
    exact ⟨row', found', (stays still).trans same⟩

theorem Moves.task_path {io : Io} {op : DbOp} {db db' : Db} (moves : Moves io op db db')
    {taskId : TaskId} {r : TaskRow} (found : db.tasks.get taskId = some r) :
    ∃ r', db'.tasks.get taskId = some r' ∧ TaskPath r.status r'.status := by
  induction moves with
  | refl => exact ⟨r, found, .refl⟩
  | tail _ move ih =>
    obtain ⟨mid, held, path⟩ := ih
    obtain ⟨r', found', next⟩ := move.task_path held
    exact ⟨r', found', path.trans next⟩

theorem Moves.task_terminal {io : Io} {op : DbOp} {db db' : Db} (moves : Moves io op db db')
    {taskId : TaskId} {r : TaskRow} (found : db.tasks.get taskId = some r)
    (terminal : r.status.terminal = true) : db'.tasks.get taskId = some r := by
  induction moves with
  | refl => exact found
  | tail _ move ih => exact move.task_terminal ih terminal

section
variable {P : Platform} {io : Io} {s : Session Db}

/-- One operation moves a job's status along at most one edge. -/
theorem exec_job_step (io : Io) (op : DbOp) {jobId : JobId} {row : JobRow}
    (found : s.live.jobs.get jobId = some row) :
    ∃ row', (op.after P io s).live.jobs.get jobId = some row' ∧ JobStep row.status row'.status := by
  cases still : op.movesJobs with
  | false =>
    obtain ⟨row', found', same⟩ := Moves.job_same (exec_moves P io op s) still found
    exact ⟨row', found', .inl same⟩
  | true =>
    have single : op.single = true := by cases op <;> first | rfl | contradiction
    exact (exec_stutters P io single s).job_step found

end

namespace OpRun
variable {P : Platform} {ok : DbOp → Prop} {s t : Session Db}

theorem task_terminal (run : OpRun P ok s payloads t) {taskId : TaskId} {r : TaskRow}
    (found : s.live.tasks.get taskId = some r) (terminal : r.status.terminal = true) :
    t.live.tasks.get taskId = some r := by
  induction run with
  | refl => exact found
  | step io op _ _ ih => exact Moves.task_terminal (exec_moves P io op _) ih terminal

theorem job_final (run : OpRun P ok s payloads t) {jobId : JobId} {row : JobRow}
    (found : s.live.jobs.get jobId = some row) (final : jobTransitions row.status = []) :
    ∃ row', t.live.jobs.get jobId = some row' ∧ row'.status = row.status := by
  induction run with
  | refl => exact ⟨row, found, rfl⟩
  | step io op _ _ ih =>
    obtain ⟨mid, held, same⟩ := ih
    obtain ⟨row', found', edge⟩ := exec_job_step (P := P) io op held
    refine ⟨row', found', ?_⟩
    rcases edge with stays | legal
    · exact stays.trans same
    · simp [jobCanTransition, same, final] at legal

end OpRun

/-- Whole operations, raising ones included, move tasks along paths and jobs along
edges of the transition tables, and never write a settled status or result again. -/
theorem statuses_follow_tables (P : Platform) {s t : Session Db} {payloads : List TaskPayload}
    (run : OpRun P (fun _ => True) s payloads t) :
    (∀ io (op : DbOp),
      (∀ taskId r, t.live.tasks.get taskId = some r → ∃ r',
        (op.after P io t).live.tasks.get taskId = some r' ∧ TaskPath r.status r'.status) ∧
      ∀ jobId row, t.live.jobs.get jobId = some row → ∃ row',
        (op.after P io t).live.jobs.get jobId = some row' ∧
          (row'.status = row.status ∨ jobCanTransition row.status row'.status = true)) ∧
    (∀ taskId r, s.live.tasks.get taskId = some r → r.status = .succeeded →
      ∃ r', t.live.tasks.get taskId = some r' ∧ r'.status = .succeeded ∧
        r'.attempt = r.attempt ∧ r'.workerId = r.workerId ∧ r'.result = r.result) ∧
    (∀ taskId r, s.live.tasks.get taskId = some r → r.status = .cancelled →
      ∃ r', t.live.tasks.get taskId = some r' ∧ r'.status = .cancelled) ∧
    ∀ jobId row, s.live.jobs.get jobId = some row →
      row.status = .succeeded ∨ row.status = .cancelled →
      ∃ row', t.live.jobs.get jobId = some row' ∧ row'.status = row.status := by
  refine ⟨fun io op => ⟨fun taskId r found => Moves.task_path (exec_moves P io op t) found,
    fun jobId row found => exec_job_step _ op found⟩, fun taskId r found succeeded => ?_,
    fun taskId r found cancelled => ?_, fun jobId row found final => ?_⟩
  · exact ⟨r, run.task_terminal found (by rw [succeeded]; rfl), succeeded, rfl, rfl, rfl⟩
  · exact ⟨r, run.task_terminal found (by rw [cancelled]; rfl), cancelled⟩
  · refine run.job_final found ?_
    rcases final with status | status <;> rw [status] <;> rfl

/-- The leased task of `leaseCalls` succeeds. -/
def completeCalls : List (Io × DbOp) :=
  leaseCalls ++ [({ now := 4 }, .startTask "task_1" "worker_0"),
    ({ now := 5 }, .completeTask "task_1" "worker_0" {})]

/-- Later reports and a cancellation, all refused or without effect on the task. -/
def lateCalls : List (Io × DbOp) :=
  [({ now := 6 }, .completeTask "task_1" "worker_0" { durationSeconds := .fin 1 }),
   ({ now := 7 }, .failTask "task_1" (some "worker_0") "late" true),
   ({ now := 8 }, .cancelJobTasks "job_0")]

theorem succeeded_task_stays :
    ∃ r, (DbOp.perform .plain completeCalls (.settled {})).2.live.tasks.get "task_1" = some r ∧
      ∃ r', (DbOp.perform .plain lateCalls
        (DbOp.perform .plain completeCalls (.settled {})).2).2.live.tasks.get "task_1" = some r' ∧
        r'.status = .succeeded ∧ r'.attempt = r.attempt ∧ r'.workerId = r.workerId ∧
        r'.result = r.result := by
  have succeeded : ((DbOp.perform .plain completeCalls (.settled {})).2.live.tasks.get
      "task_1").map TaskRow.status = some .succeeded := by decide +kernel
  obtain ⟨r, found, status⟩ := Option.map_eq_some_iff.mp succeeded
  exact ⟨r, found, (statuses_follow_tables .plain
    (OpRun.refl.perform lateCalls fun _ _ => trivial)).2.1 "task_1" r found status⟩

end N4Cluster
