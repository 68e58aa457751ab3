import N4Cluster.Server.Calls

/-! Jobs left behind: no task is open and the job is not terminal. Which calls can
leave a job so, and whose tasks each call writes. -/
namespace N4Cluster
open Relational Transactional Relation Interleave

def Db.jobStatus (db : Db) (jobId : JobId) : Option JobStatus :=
  (db.jobs.get jobId).map JobRow.status

/-- The job has no open task and no terminal status. -/
def Db.Stuck (db : Db) (jobId : JobId) : Prop :=
  (∃ row, db.jobs.get jobId = some row ∧ row.status.terminal = false) ∧ db.AllTerminal jobId

theorem Db.not_stuck {db : Db} {jobId : JobId} (held : (db.jobs.get jobId).isSome = true)
    (all : db.AllTerminal jobId) (free : ¬db.Stuck jobId) : db.Settled jobId := by
  obtain ⟨row, found⟩ := Option.isSome_iff_exists.mp held
  cases terminal : row.status.terminal with
  | true => exact ⟨row, found, terminal⟩
  | false => exact False.elim (free ⟨⟨row, found, terminal⟩, all⟩)

theorem Db.Stuck.unsettled {db : Db} {jobId : JobId} (stuck : db.Stuck jobId) : ¬db.Settled jobId := by
  obtain ⟨⟨row, found, still⟩, _⟩ := stuck
  rintro ⟨row', found', terminal⟩
  cases found.symm.trans found'
  exact nomatch still.symm.trans terminal

theorem Db.Stuck.held {db : Db} {jobId : JobId} (stuck : db.Stuck jobId) :
    (db.jobs.get jobId).isSome = true := by
  obtain ⟨⟨row, found, _⟩, _⟩ := stuck
  rw [found]
  rfl

/-- Where the statuses of jobs and the ends of tasks agree, so do the stuck jobs. -/
theorem Db.Stuck.back {db db' : Db} {jobId : JobId} (stuck : db'.Stuck jobId)
    (status : db'.jobStatus jobId = db.jobStatus jobId) (all : db.AllTerminal jobId) :
    db.Stuck jobId := by
  obtain ⟨⟨row', found', still⟩, _⟩ := stuck
  rw [Db.jobStatus, found', Db.jobStatus, Option.map_some] at status
  obtain ⟨row, found, same⟩ := Option.map_eq_some_iff.mp status.symm
  exact ⟨⟨row, found, same ▸ still⟩, all⟩

/-- No job is stuck afterwards but those that were, in the same status. -/
def Idle (db db' : Db) : Prop :=
  ∀ jobId, db'.Stuck jobId → db.Stuck jobId ∧ db'.jobStatus jobId = db.jobStatus jobId

theorem Idle.refl (db : Db) : Idle db db := fun _ stuck => ⟨stuck, rfl⟩

theorem Idle.trans {a b c : Db} (first : Idle a b) (second : Idle b c) : Idle a c := by
  intro jobId stuck
  obtain ⟨mid, later⟩ := second jobId stuck
  obtain ⟨start, sooner⟩ := first jobId mid
  exact ⟨start, later.trans sooner⟩

theorem renewLeases_get {db : Db} (w : WorkerId) (expires : Time) {taskId : TaskId} {r : TaskRow}
    (found : db.tasks.get taskId = some r) :
    ∃ r', (db.renewLeases w expires).tasks.get taskId = some r' ∧ r'.jobId = r.jobId ∧
      r'.status = r.status := by
  rw [Db.renewLeases, Table.get_updateWhere, found]
  refine ⟨_, rfl, ?_⟩
  dsimp only
  split <;> exact ⟨rfl, rfl⟩

theorem TaskMove.harmless_opens {db : Db} {now : Time} {r r' : TaskRow} {op : DbOp}
    {o : Option WorkerId} (how : TaskMove db now r op r' o) (harmless : op.harmless = true) :
    r'.status.terminal = false ∧ r'.jobId = r.jobId := by
  cases how with
  | lease | start => exact ⟨rfl, rfl⟩
  | resolve reaps => cases op <;> contradiction
  | complete | fail | cancel | stop => contradiction

/-- A harmless call other than an insertion leaves no job stuck. -/
theorem Move.idle {io : Io} {op : DbOp} {db db' : Db} (move : Move io op db db')
    (harmless : op.harmless = true) (inserts : op.creates = false) : Idle db db' := by
  intro jobId stuck
  have all := stuck.2
  have same (tasks : db'.tasks = db.tasks) (jobs : ∀ k, db'.jobStatus k = db.jobStatus k) :
      db.Stuck jobId ∧ db'.jobStatus jobId = db.jobStatus jobId := by
    refine ⟨stuck.back (jobs jobId) fun taskId r found => all taskId r ?_, jobs jobId⟩
    rw [tasks]
    exact found
  cases move with
  | task touched how jobs workers =>
    rename_i r r' owner
    have opens : r'.status.terminal = false ∧ r'.jobId = r.jobId := how.harmless_opens harmless
    have other : r.jobId ≠ jobId := fun here =>
      nomatch opens.1.symm.trans (all r.id r' touched.now (opens.2.trans here))
    have status : db'.jobStatus jobId = db.jobStatus jobId := by
      unfold Db.jobStatus
      rw [jobs]
      split
      · rw [maybeJobRunning_get]
        cases found : db.jobs.get jobId with
        | none => rfl
        | some row =>
          have key : row.id = jobId := Table.get_key found
          simp [key, Ne.symm other]
      · rfl
    refine ⟨stuck.back status fun taskId q found job => ?_, status⟩
    refine all taskId q ?_ job
    rw [touched.others taskId fun here => ?_]
    · exact found
    · subst here
      cases touched.found.symm.trans found
      exact other job
  | renew how tasks jobs workers =>
    have status : db'.jobStatus jobId = db.jobStatus jobId := by rw [Db.jobStatus, jobs]; rfl
    refine ⟨stuck.back status fun taskId q found job => ?_, status⟩
    obtain ⟨q', now, job', same⟩ := renewLeases_get _ _ found
    exact same ▸ all taskId q' (tasks ▸ now) (job'.trans job)
  | job how present legal moved =>
    rcases how with rfl | ⟨rfl, _⟩ <;> contradiction
  | result how put =>
    subst put
    refine same rfl fun k => ?_
    rw [Db.jobStatus, putResult_get, Db.jobStatus]
    split
    · rw [Option.map_map]
      rfl
    · rfl
  | newJob creates | newTask creates => exact nomatch inserts.symm.trans creates
  | newWorker _ _ tasks jobs | workers _ _ _ tasks jobs | other tasks jobs =>
    exact same tasks fun k => by rw [Db.jobStatus, jobs]; rfl

/-- The rows a call may write, as far as its arguments say. -/
def DbOp.writes (op : DbOp) (r : TaskRow) : Prop :=
  match op with
  | .startTask taskId _ | .completeTask taskId _ _ | .failTask taskId _ _ _
  | .cancelRunningTask taskId _ => r.id = taskId
  | .cancelJobTasks jobId => r.jobId = jobId
  | .leaseNextTask _ _ | .heartbeatWorker _ _ | .reapExpiredLeases | .reapTasksForWorkers _ _ => True
  | _ => False

theorem Move.frame {io : Io} {op : DbOp} {db db' : Db} (move : Move io op db db') {taskId : TaskId}
    {r : TaskRow} (found : db.tasks.get taskId = some r) (apart : ¬op.writes r) :
    db'.tasks.get taskId = some r := by
  cases move with
  | task touched how jobs workers =>
    rcases touched.get found with ⟨rfl, rfl, _⟩ | ⟨_, now⟩
    · refine False.elim (apart ?_)
      cases how with
      | resolve reaps =>
        cases op <;> trivial
      | _ => first | rfl | trivial
    · exact now
  | renew how tasks jobs workers =>
    subst how
    exact False.elim (apart trivial)
  | newTask creates job inserted jobs workers =>
    rw [Table.get_insert inserted, if_neg fun same => ?_]
    · exact found
    · exact nomatch (same ▸ found).symm.trans (Table.insert_fresh inserted)
  | job how present legal moved =>
    subst moved
    exact found
  | result how put =>
    subst put
    exact found
  | newJob _ _ _ tasks | newWorker _ _ tasks | workers _ _ _ tasks | other tasks =>
    exact tasks ▸ found

/-- The calls that keep the status of every job. -/
theorem Move.job_status {io : Io} {op : DbOp} {db db' : Db} (move : Move io op db db')
    (still : op.movesJobs = false) (inserts : op.creates = false) (jobId : JobId) :
    db'.jobStatus jobId = db.jobStatus jobId := by
  have same (jobs : db'.jobs = db.jobs) : db'.jobStatus jobId = db.jobStatus jobId := by
    rw [Db.jobStatus, jobs]
    rfl
  cases move with
  | task touched how jobs workers =>
    split at jobs
    · rename_i leased
      obtain ⟨w, ttl, rfl⟩ := how.leased leased
      contradiction
    · exact same jobs
  | job how present legal moved =>
    rcases how with rfl | ⟨rfl, _⟩ <;> contradiction
  | result how put =>
    subst put
    rw [Db.jobStatus, putResult_get, Db.jobStatus]
    split
    · rw [Option.map_map]
      rfl
    · rfl
  | newJob creates => cases inserts.symm.trans creates
  | renew _ _ jobs | newTask _ _ _ jobs | newWorker _ _ _ jobs | workers _ _ _ _ jobs
  | other _ jobs => exact same jobs

/-- The statuses a call gives to a job. -/
def DbOp.sets (op : DbOp) (jobId : JobId) (status : JobStatus) : Prop :=
  match op with
  | .setJobStatus k new _ | .trySetJobStatus k new => k = jobId ∧ new = status
  | .leaseNextTask _ _ => status = .running
  | .createJob _ _ | .createTasksForJob _ _ | .createJobWithTasks _ _ => status = .queued
  | _ => False

/-- A job has the status it had, or one the call gives. -/
theorem Move.status_origin {io : Io} {op : DbOp} {db db' : Db} (move : Move io op db db')
    {jobId : JobId} {status : JobStatus} (now : db'.jobStatus jobId = some status) :
    db.jobStatus jobId = some status ∨ op.sets jobId status := by
  have same (jobs : db'.jobs = db.jobs) : db.jobStatus jobId = some status ∨ op.sets jobId status := by
    rw [Db.jobStatus, jobs] at now
    exact .inl now
  cases move with
  | task touched how jobs workers =>
    split at jobs
    · rename_i leased
      obtain ⟨w, ttl, rfl⟩ := how.leased leased
      rw [Db.jobStatus, jobs, maybeJobRunning_get, Option.map_map] at now
      obtain ⟨row, found, rfl⟩ := Option.map_eq_some_iff.mp now
      dsimp only [Function.comp]
      split
      · exact .inr rfl
      · exact .inl (by rw [Db.jobStatus, found]; rfl)
    · exact same jobs
  | job how present legal moved =>
    subst moved
    rw [Db.jobStatus, moveJob_get] at now
    split at now
    · rename_i here
      subst here
      rw [present] at now
      cases now
      rcases how with rfl | ⟨rfl, _⟩ <;> exact .inr ⟨rfl, rfl⟩
    · exact .inl now
  | result how put =>
    subst put
    rw [Db.jobStatus, putResult_get] at now
    split at now
    · rw [Option.map_map] at now
      exact .inl now
    · exact .inl now
  | newJob creates free inserted tasks workers =>
    rw [Db.jobStatus, Table.get_insert inserted] at now
    split at now
    · cases now
      cases op <;> first | exact .inr rfl | contradiction
    · exact .inl now
  | renew _ _ jobs | newTask _ _ _ jobs | newWorker _ _ _ jobs | workers _ _ _ _ jobs
  | other _ jobs => exact same jobs

section
variable {P : Platform} {io : Io} {op : DbOp} {s : Session Db}

theorem exec_status_origin {jobId : JobId} {status : JobStatus}
    (now : (op.after P io s).live.jobStatus jobId = some status) :
    s.live.jobStatus jobId = some status ∨ op.sets jobId status := by
  have moves := exec_moves P io op s
  generalize (op.after P io s).live = db at moves now
  induction moves with
  | refl => exact .inl now
  | tail _ move ih =>
    rcases move.status_origin now with before | sets
    · exact ih before
    · exact .inr sets

theorem exec_frame {taskId : TaskId} {r : TaskRow} (found : s.live.tasks.get taskId = some r)
    (apart : ¬op.writes r) : (op.after P io s).live.tasks.get taskId = some r :=
  (exec_moves P io op s).rec found fun _ move held => move.frame held apart

theorem exec_job_status (io : Io) (still : op.movesJobs = false) (inserts : op.creates = false) (jobId : JobId) :
    (op.after P io s).live.jobStatus jobId = s.live.jobStatus jobId :=
  (exec_moves P io op s).rec rfl fun _ move held => (move.job_status still inserts jobId).trans held

/-- No harmless call leaves a job stuck; a new job has queued tasks. -/
theorem harmless_idle (harmless : op.harmless = true) (fresh : Fresh io s.live op) :
    Idle s.live (op.after P io s).live := by
  cases creates : op.creates with
  | false =>
    exact (exec_moves P io op s).rec (.refl _) fun _ move idle => idle.trans (move.idle harmless creates)
  | true =>
    cases op with
    | createJobWithTasks req owner =>
      rcases createJobWithTasks_cases (P := P) fresh with
        ⟨db, created, _, _, _, ran⟩ | ⟨_, ran⟩ | ⟨_, _, ran⟩
      · simp only [DbOp.after, DbOp.exec, ran]
        intro jobId stuck
        have other : jobId ≠ genId "job" (io.uuid 0) := fun here => created.unfinished (here ▸ stuck.2)
        have status : db.jobStatus jobId = s.live.jobStatus jobId := by
          rw [Db.jobStatus, created.get_job, if_neg other]
          rfl
        exact ⟨stuck.back status fun taskId r found => stuck.2 taskId r (created.kept found), status⟩
      all_goals
        simp only [DbOp.after, DbOp.exec, ran]
        exact .refl _
    | _ => contradiction

/-- A job none of whose tasks a call writes is stuck only if it was. -/
theorem unwritten_idle (still : op.movesJobs = false) (inserts : op.creates = false) {jobId : JobId}
    (apart : ∀ taskId r, s.live.tasks.get taskId = some r → r.jobId = jobId → ¬op.writes r)
    (stuck : (op.after P io s).live.Stuck jobId) :
    s.live.Stuck jobId ∧ (op.after P io s).live.jobStatus jobId = s.live.jobStatus jobId := by
  have status := exec_job_status (P := P) (s := s) io still inserts jobId
  exact ⟨stuck.back status fun taskId r found job =>
    stuck.2 taskId r (exec_frame found (apart taskId r found job)) job, status⟩

/-- Writing a terminal status leaves no job stuck. -/
theorem moveJob_idle {db : Db} {jobId : JobId} {status : JobStatus} {error : Option String} {now : Time}
    (terminal : status.terminal = true) : Idle db (db.moveJob jobId status error now) := by
  intro other stuck
  have here : other ≠ jobId := by
    rintro rfl
    obtain ⟨⟨row, found, still⟩, _⟩ := stuck
    rw [moveJob_get, if_pos rfl] at found
    obtain ⟨_, _, rfl⟩ := Option.map_eq_some_iff.mp found
    exact nomatch still.symm.trans terminal
  have same : (db.moveJob jobId status error now).jobStatus other = db.jobStatus other := by
    rw [Db.jobStatus, moveJob_get, if_neg here]
    rfl
  exact ⟨stuck.back same stuck.2, same⟩

end
end N4Cluster
