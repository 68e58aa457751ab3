import N4Cluster.Server.System

/-! The tables beside jobs, tasks and workers: which operations write artifacts, their links
and events, and what an event leaves. -/
namespace N4Cluster
open Relational Transactional

variable {P : Platform}

/-- What is kept beside jobs, tasks and workers. -/
def Db.side (db : Db) : Table ArtifactRow × Table JobArtifactRow × List EventRow :=
  (db.artifacts, db.jobArtifacts, db.events)

/-- The calls that write artifacts, their links or events. -/
def DbOp.sides : DbOp → Bool
  | .addArtifact _ | .linkJobArtifact _ _ _ _ | .clearJobArtifactRole _ _ | .addEvent _ => true
  | _ => false

theorem refresh_side (db : Db) (owner : Option WorkerId) : (db.refresh owner).side = db.side := by
  cases owner <;> rfl

theorem resolveTurn_side (db : Db) (error : String) (now : Time) (row : TaskRow × JobStatus) :
    (db.resolveTurn error now row).side = db.side := by
  rw [Db.resolveTurn, refresh_side, Db.resolve]
  split
  · rfl
  · split <;> rfl

theorem cancelTurn_side (db : Db) (now : Time) (row : TaskRow) :
    (db.cancelTurn now row).side = db.side := by
  unfold Db.cancelTurn
  split
  · rw [refresh_side]
    rfl
  · rfl

theorem foldl_side {α : Type} {f : Db → α → Db} (each : ∀ db row, (f db row).side = db.side)
    (rows : List α) (db : Db) : (rows.foldl f db).side = db.side := by
  induction rows generalizing db with
  | nil => rfl
  | cons row rest ih => rw [List.foldl_cons, ih, each]

theorem fail_side (db : Db) (row : TaskRow) (error : String) (retriable : Bool) (now : Time) :
    (db.fail row error retriable now).side = db.side := by
  unfold Db.fail
  split <;> rfl

section
variable {io : Io} {s : Session Db}

theorem reapRows_side {rows : List (TaskRow × JobStatus)} (lost : s.live.Lost rows) (error : String) :
    (reapRows io error rows s).2.live.side = s.live.side := by
  rw [reapRows_ok lost]
  split
  · rfl
  · exact foldl_side (fun db row => resolveTurn_side db error io.now row) rows s.live

theorem insertJob_side (req : JobRequest) (jobId : JobId) (owner : Option String) :
    (insertJob P io req jobId owner s).2.live.side = s.live.side := by
  rcases insertJob_cases (P := P) io s req jobId owner with
    ⟨_, _, _, _, _, ran⟩ | ⟨_, ran⟩ | ⟨_, _, ran⟩ | ⟨_, _, ran⟩
  · rw [ran]
    rfl
  all_goals rw [ran]

theorem insertTasks_side (jobId : JobId) (req : JobRequest) (pairs : List (PipelineRef × DatasetRef))
    (n : Nat) (s : Session Db) : (insertTasks io jobId req pairs n s).2.live.side = s.live.side := by
  induction pairs generalizing n s with
  | nil => rfl
  | cons pair rest ih =>
    simp only [insertTasks]
    rcases insertTask_cases (s := s) (taskRowOf io req jobId (genId "task" (io.uuid n)) pair) with
      ⟨tasks, _, _, ran⟩ | ⟨raised, ran⟩
    · rw [Txn.bind_ok ran]
      exact Txn.bind_leaves (R := fun t : Session Db => t.live.side = s.live.side)
        (ih (n + 1) { s with live := { s.live with tasks := tasks } }) fun _ _ _ same => same
    · rw [Txn.bind_error ran]

theorem exec_side {op : DbOp} (aside : op.sides = false) :
    (op.after P io s).live.side = s.live.side := by
  simp only [DbOp.after]
  cases op with
  | addArtifact | linkJobArtifact | clearJobArtifactRole | addEvent => contradiction
  | findJobByIdempotency | getJob | getTask | listTasksForJob | tasksForWorker | getWorker
  | listJobArtifacts => rfl
  | createJob req owner =>
    exact Txn.bind_leaves (R := fun t : Session Db => t.live.side = s.live.side)
      (insertJob_side req _ owner) fun _ _ _ same => same
  | createTasksForJob jobId req =>
    exact Txn.bind_leaves (R := fun t : Session Db => t.live.side = s.live.side)
      (insertTasks_side jobId req _ 0 s) fun _ _ _ same => same
  | createJobWithTasks req owner =>
    refine Txn.bind_leaves (R := fun t : Session Db => t.live.side = s.live.side)
      (insertJob_side req _ owner) fun _ t _ same => ?_
    exact Txn.bind_leaves (R := fun t : Session Db => t.live.side = s.live.side)
      ((insertTasks_side _ req _ 1 t).trans same) fun _ _ _ same => same
  | cancelJobTasks jobId =>
    simp only [DbOp.exec, cancelJobTasks_ok]
    exact foldl_side (fun db row => cancelTurn_side db io.now row) _ s.live
  | setJobStatus jobId status error =>
    rcases setJobStatus_cases io s jobId status error with ⟨_, _, _, ran⟩ | ⟨_, ran, _⟩
    · simp only [DbOp.exec, ran]
      rfl
    all_goals simp only [DbOp.exec, ran]
  | trySetJobStatus jobId new =>
    rcases trySetJobStatus_cases io s jobId new with ⟨_, _, _, ran⟩ | ⟨ran, _⟩
    · simp only [DbOp.exec, ran]
      rfl
    all_goals simp only [DbOp.exec, ran]
  | setJobResult jobId agg =>
    rcases setJobResult_cases (P := P) io s jobId agg with ⟨_, ran⟩ | ⟨_, _, ran⟩
    · simp only [DbOp.exec, ran]
      rfl
    all_goals simp only [DbOp.exec, ran]
  | leaseNextTask w ttl =>
    rcases leaseNextTask_cases (P := P) io s w ttl with ⟨_, _, _, _, _, ran⟩ | ran | ⟨_, ran⟩
    · simp only [DbOp.exec, ran]
      rfl
    all_goals simp only [DbOp.exec, ran]
  | startTask taskId w =>
    rcases startTask_cases io s taskId w with ⟨_, _, _, _, ran⟩ | ⟨_, ran⟩
    · simp only [DbOp.exec, ran]
      rfl
    all_goals simp only [DbOp.exec, ran]
  | completeTask taskId w result =>
    rcases completeTask_cases io s taskId w result with ⟨_, _, _, _, ran⟩ | ⟨_, ran⟩
    · simp only [DbOp.exec, ran]
      rfl
    all_goals simp only [DbOp.exec, ran]
  | failTask taskId o error retriable =>
    rcases failTask_cases P io s taskId o error retriable with ⟨_, _, _, _, _, ran⟩ | ⟨_, ran⟩
    · simp only [DbOp.exec, ran]
      exact (refresh_side _ _).trans (fail_side _ _ _ _ _)
    · simp only [DbOp.exec, ran]
  | cancelRunningTask taskId w =>
    rcases cancelRunningTask_cases io s taskId w with ⟨_, _, _, _, ran⟩ | ⟨_, ran⟩ | ran
    · simp only [DbOp.exec, ran]
      rfl
    all_goals simp only [DbOp.exec, ran]
  | reapExpiredLeases =>
    obtain ⟨rows, lost, ran⟩ := reapExpiredLeases_rows io s
    simp only [DbOp.exec, ran]
    exact reapRows_side lost _
  | reapTasksForWorkers workerIds error =>
    obtain ⟨rows, lost, ran⟩ := reapTasksForWorkers_rows io s workerIds error
    simp only [DbOp.exec, ran]
    exact reapRows_side lost _
  | registerWorker reg principal =>
    simp only [DbOp.exec, registerWorker, Txn.bind_run, Txn.live_run]
    split
    · generalize s.live.workers.insert _ = inserted
      cases inserted <;> rfl
    · rfl
  | heartbeatWorker w ttl =>
    simp only [DbOp.exec, heartbeatWorker, Txn.bind_run, Txn.live_run, Txn.write_run]
    cases ttl <;> cases (s.live.workers.get w).isSome <;> rfl
  | markDeadWorkers ttl =>
    simp only [DbOp.exec, markDeadWorkers, Txn.bind_run, Txn.live_run]
    split <;> rfl

end

end N4Cluster
