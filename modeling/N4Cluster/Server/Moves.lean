import N4Cluster.Server.Effects

/-! Every operation is a chain of moves: one row of one table changes, under
the guard its method checked. Invariants of the store are proved of a move. -/
namespace N4Cluster
open Relational Transactional Relation

/-- The operations that resolve lost tasks. -/
def DbOp.reaps : DbOp → Bool
  | .reapExpiredLeases | .reapTasksForWorkers _ _ => true
  | _ => false

/-- The operations that insert jobs or tasks. -/
def DbOp.creates : DbOp → Bool
  | .createJob _ _ | .createTasksForJob _ _ | .createJobWithTasks _ _ => true
  | _ => false

/-- The operations that judge whether a worker is alive. -/
def DbOp.judges : DbOp → Bool
  | .heartbeatWorker _ _ | .markDeadWorkers _ => true
  | _ => false

/-- How an operation changes a task row it finds, and whose slots it refreshes. -/
inductive TaskMove (db : Db) (now : Time) (r : TaskRow) : DbOp → TaskRow → Option WorkerId → Prop where
  | lease (leasable : db.Leasable w worker r) :
      TaskMove db now r (.leaseNextTask w ttl) (r.lease w ttl now) (some w)
  | start (owned : r.workerId = some w) (leased : r.status = .leased) :
      TaskMove db now r (.startTask r.id w) (r.start now) none
  | complete (owned : r.workerId = some w) (running : r.status = .running) :
      TaskMove db now r (.completeTask r.id w result) (r.complete result now) (some w)
  | fail (owned : o.isSome → r.workerId = o) (legal : taskCanTransition r.status .failed = true) :
      TaskMove db now r (.failTask r.id o error retriable) (r.fail error retriable now) o
  | resolve (reaps : op.reaps = true) (inFlight : r.status.inFlight = true)
      (job : db.jobs.get r.jobId = some j) :
      TaskMove db now r op (r.resolve error j.status now) (refreshed r.workerId)
  | cancel (waiting : r.status = .queued ∨ r.status = .leased) :
      TaskMove db now r (.cancelJobTasks r.jobId) (r.cancel now) (refreshed r.workerId)
  | stop (owned : r.workerId = some w) (legal : taskCanTransition r.status .cancelled = true) :
      TaskMove db now r (.cancelRunningTask r.id w) (r.stop now) (some w)

inductive Move (io : Io) (op : DbOp) (db db' : Db) : Prop where
  | task {r r' : TaskRow} {owner : Option WorkerId}
      (touched : db.tasks.Touched db'.tasks r.id r r') (how : TaskMove db io.now r op r' owner)
      (jobs : db'.jobs =
        if r'.status = .leased then (db.maybeJobRunning r.jobId io.now).jobs else db.jobs)
      (workers : db'.workers = (({ db with tasks := db'.tasks } : Db).refresh owner).workers)
  | renew {w : WorkerId} {ttl : Time} (how : op = .heartbeatWorker w (some ttl))
      (tasks : db'.tasks = (db.renewLeases w (io.now + ttl)).tasks) (jobs : db'.jobs = db.jobs)
      (workers : db'.workers = db.workers)
  | job {jobId : JobId} {status : JobStatus} {error : Option String} {row : JobRow}
      (how : op = .setJobStatus jobId status error ∨ op = .trySetJobStatus jobId status ∧ error = none)
      (found : db.jobs.get jobId = some row) (legal : jobCanTransition row.status status = true)
      (moved : db' = db.moveJob jobId status error io.now)
  | result {jobId : JobId} {agg : JobAggregate} (how : op = .setJobResult jobId agg)
      (put : db' = db.putResult jobId agg io.now)
  | newJob {req : JobRequest} {jobId : JobId} {owner : Option String} (creates : op.creates = true)
      (free : db.keyTaken req.idempotencyKey = false)
      (inserted : db.jobs.insert (jobRowOf io req jobId owner) = some db'.jobs)
      (tasks : db'.tasks = db.tasks) (workers : db'.workers = db.workers)
  | newTask {req : JobRequest} {jobId : JobId} {taskId : TaskId} {pair : PipelineRef × DatasetRef}
      (creates : op.creates = true) (job : (db.jobs.get jobId).isSome = true)
      (inserted : db.tasks.insert (taskRowOf io req jobId taskId pair) = some db'.tasks)
      (jobs : db'.jobs = db.jobs) (workers : db'.workers = db.workers)
  | newWorker {reg : WorkerRegister} {principal : Option String}
      (how : op = .registerWorker reg principal)
      (inserted : db.workers.insert (workerRowOf io reg principal) = some db'.workers)
      (tasks : db'.tasks = db.tasks) (jobs : db'.jobs = db.jobs)
  | workers (f : WorkerRow → WorkerRow)
      (keeps : ∀ w, (f w).slotsTotal = w.slotsTotal ∧ (f w).slotsUsed = w.slotsUsed)
      (get : ∀ k, db'.workers.get k = (db.workers.get k).map f)
      (tasks : db'.tasks = db.tasks) (jobs : db'.jobs = db.jobs) (judges : op.judges = true)
  | other (tasks : db'.tasks = db.tasks) (jobs : db'.jobs = db.jobs)
      (workers : db'.workers = db.workers)

/-- The moves of one operation. -/
abbrev Moves (io : Io) (op : DbOp) : Db → Db → Prop := ReflTransGen (Move io op)

section
variable {P : Platform} {io : Io} {s : Session Db}

/-- A row written and its slots refreshed is one move, unless it is a lease. -/
theorem move_written {op : DbOp} {db mid : Db} {r r' : TaskRow} (owner : Option WorkerId)
    (wrote : db.Wrote mid r.id r r') (how : TaskMove db io.now r op r' owner)
    (unleased : r'.status ≠ .leased) : Move io op db (mid.refresh owner) := by
  refine Move.task ?_ how ?_ ?_
  · rw [Db.refresh_tasks]
    exact wrote.touched
  · rw [Db.refresh_jobs, if_neg unleased, wrote.jobs]
  · cases owner with
    | none => exact wrote.workers
    | some w =>
      simp only [Db.refresh, Db.syncSlots, wrote.workers]
      rfl

theorem resolve_status (r : TaskRow) (error : String) (job : JobStatus) (now : Time) :
    (r.resolve error job now).status =
      if job = .cancelling ∨ job = .cancelled then .cancelled
      else if r.attempt < r.maxAttempts then .queued else .failed := by
  unfold TaskRow.resolve
  simp only [Bool.or_eq_true, decide_eq_true_eq]
  split
  · rfl
  · split <;> rfl

theorem fail_status (r : TaskRow) (error : String) (retriable : Bool) (now : Time) :
    (r.fail error retriable now).status =
      if retriable = true ∧ r.attempt < r.maxAttempts then .queued else .failed := by
  unfold TaskRow.fail
  simp only [Bool.and_eq_true, decide_eq_true_eq]
  split <;> rfl

theorem move_resolveTurn {op : DbOp} {db : Db} {row : TaskRow × JobStatus} {j : JobRow}
    (reaps : op.reaps = true) (found : db.tasks.get row.1.id = some row.1)
    (inFlight : row.1.status.inFlight = true) (job : db.jobs.get row.1.jobId = some j)
    (status : j.status = row.2) (error : String) :
    Move io op db (db.resolveTurn error io.now row) := by
  refine move_written _ (resolve_wrote found error row.2 io.now) ?_ ?_
  · rw [← status]
    exact .resolve reaps inFlight job
  · rw [resolve_status]
    split
    · simp
    · split <;> simp

theorem move_cancelTurn {db : Db} {r : TaskRow} (found : db.tasks.get r.id = some r) :
    Moves io (.cancelJobTasks r.jobId) db (db.cancelTurn io.now r) := by
  unfold Db.cancelTurn
  split
  · rename_i waiting
    exact .single (move_written _ (setTask_wrote found _ _ io.now) (.cancel waiting) nofun)
  · exact .refl

theorem reapRows_moves {op : DbOp} {rows : List (TaskRow × JobStatus)} (reaps : op.reaps = true)
    (lost : s.live.Lost rows) (error : String) :
    Moves io op s.live (reapRows io error rows s).2.live := by
  rw [reapRows_ok lost]
  split
  · exact .refl
  · refine (Txn.foldl_keeps (Db.resolveTurn error io.now)
      (fun row db => db.tasks.get row.1.id = some row.1)
      (fun db => Moves io op s.live db ∧ db.jobs = s.live.jobs) ?_
      (lost_apart lost.apart error io.now) s.live lost.found ⟨.refl, rfl⟩).1
    rintro row member db found ⟨moves, jobs⟩
    obtain ⟨j, job, status⟩ := lost.job row member
    exact ⟨moves.tail (move_resolveTurn reaps found (lost.inFlight row member)
      (by rw [jobs]; exact job) status error), by rw [resolveTurn_jobs, jobs]⟩

theorem insertTasks_moves {op : DbOp} (creates : op.creates = true) (jobId : JobId)
    (req : JobRequest) (pairs : List (PipelineRef × DatasetRef)) (n : Nat) (s : Session Db) :
    Moves io op s.live (insertTasks io jobId req pairs n s).2.live := by
  induction pairs generalizing n s with
  | nil => exact .refl
  | cons pair rest ih =>
    simp only [insertTasks]
    rcases insertTask_cases (s := s) (taskRowOf io req jobId (genId "task" (io.uuid n)) pair) with
      ⟨tasks, job, inserted, ran⟩ | ⟨raised, ran⟩
    · rw [Txn.bind_ok ran]
      have first : Move io op s.live { s.live with tasks := tasks } :=
        .newTask creates job inserted rfl rfl
      exact Txn.bind_leaves (R := fun t => Moves io op s.live t.live)
        (.head first (ih (n + 1) { s with live := { s.live with tasks := tasks } }))
        fun _ _ _ moved => moved
    · exact (Txn.bind_error ran _) ▸ .refl

theorem insertJob_moves {op : DbOp} (creates : op.creates = true) (req : JobRequest)
    (jobId : JobId) (owner : Option String) :
    Moves io op s.live (insertJob P io req jobId owner s).2.live := by
  rcases insertJob_cases (P := P) io s req jobId owner with
    ⟨jobs, _, _, free, inserted, ran⟩ | ⟨_, ran⟩ | ⟨_, _, ran⟩ | ⟨_, _, ran⟩
  · rw [ran]
    exact .single (.newJob creates free inserted rfl rfl)
  all_goals rw [ran]

theorem createJobWithTasks_moves (req : JobRequest) (owner : Option String) :
    Moves io (.createJobWithTasks req owner) s.live
      (createJobWithTasks P io req owner s).2.live := by
  refine Txn.bind_leaves (R := fun t => Moves io _ s.live t.live)
    (insertJob_moves rfl req _ owner) fun _ t _ moved => ?_
  exact Txn.bind_leaves (R := fun t => Moves io _ s.live t.live)
    (moved.trans (insertTasks_moves rfl _ req _ 1 t)) fun _ _ _ moved => moved

theorem registerWorker_moves (reg : WorkerRegister) (principal : Option String) :
    Moves io (.registerWorker reg principal) s.live (registerWorker io reg principal s).2.live := by
  simp only [registerWorker, Txn.bind_run, Txn.live_run]
  split
  · cases inserted : s.live.workers.insert (workerRowOf io reg principal) with
    | none => exact .refl
    | some workers => exact .single (.newWorker rfl inserted rfl rfl)
  · exact .refl

theorem heartbeatWorker_moves (w : WorkerId) (ttl : Option Time) :
    Moves io (.heartbeatWorker w ttl) s.live (heartbeatWorker io w ttl s).2.live := by
  have seen : Move io (.heartbeatWorker w ttl) s.live { s.live with
      workers := s.live.workers.update w fun r => { r with lastSeenAt := io.now, status := .alive } } :=
    .workers (fun r => if r.id = w then { r with lastSeenAt := io.now, status := .alive } else r)
      (fun r => by split <;> exact ⟨rfl, rfl⟩) (fun k => by simp [Table.update, Keyed.key]) rfl rfl rfl
  simp only [heartbeatWorker, Txn.bind_run, Txn.live_run, Txn.write_run]
  cases ttl with
  | none => cases (s.live.workers.get w).isSome <;> exact .single seen
  | some ttl =>
    cases (s.live.workers.get w).isSome with
    | false => exact .single seen
    | true => exact (ReflTransGen.single seen).tail (.renew rfl rfl rfl rfl)

theorem markDeadWorkers_moves (ttl : Time) :
    Moves io (.markDeadWorkers ttl) s.live (markDeadWorkers io ttl s).2.live := by
  simp only [markDeadWorkers, Txn.bind_run, Txn.live_run]
  generalize (s.live.workers.rows.filter _).map WorkerRow.id = ids
  split
  · exact .refl
  · exact .single (.workers (fun r => if ids.contains r.id then { r with status := .dead } else r)
      (fun r => by split <;> exact ⟨rfl, rfl⟩)
      (Table.get_updateWhere s.live.workers (fun r => ids.contains r.id)
        (fun r => { r with status := .dead }) fun _ => rfl) rfl rfl rfl)

/-- No change, or one move. -/
def Stutters (io : Io) (op : DbOp) (db db' : Db) : Prop := db' = db ∨ Move io op db db'

theorem Stutters.moves {op : DbOp} {db db' : Db} (step : Stutters io op db db') :
    Moves io op db db' := by
  rcases step with rfl | move
  · exact .refl
  · exact .single move

/-- The calls that make at most one move. -/
def DbOp.single : DbOp → Bool
  | .createJob _ _ | .createTasksForJob _ _ | .createJobWithTasks _ _ | .registerWorker _ _
  | .heartbeatWorker _ _ | .markDeadWorkers _ | .reapExpiredLeases | .reapTasksForWorkers _ _
  | .cancelJobTasks _ => false
  | _ => true

theorem exec_stutters (P : Platform) (io : Io) {op : DbOp} (single : op.single = true) (s : Session Db) :
    Stutters io op s.live (op.after P io s).live := by
  have other (db : Db) (tasks : db.tasks = s.live.tasks) (jobs : db.jobs = s.live.jobs)
      (workers : db.workers = s.live.workers) : Stutters io op s.live db :=
    .inr (.other tasks jobs workers)
  simp only [DbOp.after]
  cases op with
  | findJobByIdempotency | getJob | getTask | listTasksForJob | tasksForWorker | getWorker
  | listJobArtifacts => exact .inl rfl
  | linkJobArtifact | clearJobArtifactRole => exact other _ rfl rfl rfl
  | addEvent event =>
    rcases addEvent_cases P io s event with ⟨_, ran⟩ | ⟨_, _, ran⟩
    all_goals rw [DbOp.exec, ran]
    · exact other _ rfl rfl rfl
    · exact .inl rfl
  | addArtifact a =>
    simp only [DbOp.exec, addArtifact, Txn.bind_run, Txn.live_run]
    generalize s.live.artifacts.insert _ = inserted
    cases inserted with
    | none => exact .inl rfl
    | some artifacts => exact other _ rfl rfl rfl
  | setJobStatus jobId status error =>
    rcases setJobStatus_cases io s jobId status error with
      ⟨row, found, legal, ran⟩ | ⟨_, ran, _⟩
    all_goals simp only [DbOp.exec, ran]
    · exact .inr (.job (.inl rfl) found legal rfl)
    · exact .inl rfl
  | trySetJobStatus jobId new =>
    rcases trySetJobStatus_cases io s jobId new with ⟨row, found, legal, ran⟩ | ⟨ran, _⟩
    all_goals simp only [DbOp.exec, ran]
    · exact .inr (.job (.inr ⟨rfl, rfl⟩) found legal rfl)
    · exact .inl rfl
  | setJobResult jobId agg =>
    rcases setJobResult_cases (P := P) io s jobId agg with ⟨_, ran⟩ | ⟨_, _, ran⟩
    all_goals simp only [DbOp.exec, ran]
    · exact .inr (.result rfl rfl)
    · exact .inl rfl
  | leaseNextTask w ttl =>
    rcases leaseNextTask_cases (P := P) io s w ttl with
      ⟨worker, task, payload, leasable, _, ran⟩ | ran | ⟨_, ran⟩
    all_goals simp only [DbOp.exec, ran]
    · exact .inr (.task (lease_touched leasable ttl io.now) (.lease leasable) rfl rfl)
    all_goals exact .inl rfl
  | startTask taskId w =>
    rcases startTask_cases io s taskId w with ⟨row, found, owned, leased, ran⟩ | ⟨_, ran⟩
    all_goals simp only [DbOp.exec, ran]
    · obtain rfl : row.id = taskId := Table.get_key found
      exact .inr (move_written none (setTask_wrote found _ _ io.now)
        (.start owned leased) nofun)
    · exact .inl rfl
  | completeTask taskId w result =>
    rcases completeTask_cases io s taskId w result with
      ⟨row, found, owned, running, ran⟩ | ⟨_, ran⟩
    all_goals simp only [DbOp.exec, ran]
    · obtain rfl : row.id = taskId := Table.get_key found
      exact .inr (move_written (some w) (setTask_wrote found _ _ io.now)
        (.complete owned running) nofun)
    · exact .inl rfl
  | failTask taskId o error retriable =>
    rcases failTask_cases P io s taskId o error retriable with
      ⟨row, found, owned, legal, _, ran⟩ | ⟨_, ran⟩
    all_goals simp only [DbOp.exec, ran]
    · obtain rfl : row.id = taskId := Table.get_key found
      refine .inr (move_written _ (fail_wrote found error retriable io.now) (.fail owned legal) ?_)
      rw [fail_status]
      split <;> simp
    · exact .inl rfl
  | cancelRunningTask taskId w =>
    rcases cancelRunningTask_cases io s taskId w with
      ⟨row, found, owned, legal, ran⟩ | ⟨_, ran⟩ | ran
    all_goals simp only [DbOp.exec, ran]
    · obtain rfl : row.id = taskId := Table.get_key found
      exact .inr (move_written (some w) (setTask_wrote found _ _ io.now)
        (.stop owned legal) nofun)
    all_goals exact .inl rfl
  | _ => contradiction

/-- Whatever an operation returns or raises, its effect on the connection's view
is a chain of its moves. -/
theorem exec_moves (P : Platform) (io : Io) (op : DbOp) (s : Session Db) :
    Moves io op s.live (op.after P io s).live := by
  cases single : op.single with
  | true => exact (exec_stutters P io single s).moves
  | false =>
    simp only [DbOp.after]
    cases op with
    | createJob req owner =>
      exact Txn.bind_leaves (R := fun t => Moves io _ s.live t.live)
        (insertJob_moves rfl req _ owner) fun _ _ _ moved => moved
    | createTasksForJob jobId req =>
      exact Txn.bind_leaves (R := fun t => Moves io _ s.live t.live)
        (insertTasks_moves rfl jobId req _ 0 s) fun _ _ _ moved => moved
    | createJobWithTasks req owner => exact createJobWithTasks_moves req owner
    | reapExpiredLeases =>
      obtain ⟨rows, lost, ran⟩ := reapExpiredLeases_rows io s
      simp only [DbOp.exec, ran]
      exact reapRows_moves rfl lost _
    | reapTasksForWorkers workerIds error =>
      obtain ⟨rows, lost, ran⟩ := reapTasksForWorkers_rows io s workerIds error
      simp only [DbOp.exec, ran]
      exact reapRows_moves rfl lost _
    | cancelJobTasks jobId =>
      simp only [DbOp.exec, cancelJobTasks_ok]
      refine Txn.foldl_keeps (Db.cancelTurn io.now)
        (fun r (db : Db) => db.tasks.get r.id = some r)
        (Moves io (.cancelJobTasks jobId) s.live) ?_ (cancelled_apart s.live jobId io.now) s.live
        (fun r member => Table.get_of_mem (List.mem_filter.mp member).1) .refl
      intro r member db found moved
      have job : r.jobId = jobId := by simpa using (List.mem_filter.mp member).2
      exact moved.trans (job ▸ move_cancelTurn found)
    | registerWorker reg principal => exact registerWorker_moves reg principal
    | heartbeatWorker w ttl => exact heartbeatWorker_moves w ttl
    | markDeadWorkers ttl => exact markDeadWorkers_moves ttl
    | _ => contradiction

end
end N4Cluster
