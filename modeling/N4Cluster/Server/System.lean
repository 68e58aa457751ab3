import N4Cluster.Server.Evolution

/-! The server as a pool of handlers over one connection. Generated identifiers
are fresh where they are drawn; the process keeps the committed database when it
is restarted. Every call of a handler keeps the store's invariant. -/
namespace N4Cluster
open Relational Transactional Relation Interleave

/-- The identifiers a call generates are not in use. -/
def Fresh (io : Io) (db : Db) : DbOp → Prop
  | .createJobWithTasks req _ =>
    db.jobs.get (genId "job" (io.uuid 0)) = none ∧ db.FreshTasks io 1 req.pairs.length
  | .createJob _ _ => db.jobs.get (genId "job" (io.uuid 0)) = none
  | .createTasksForJob _ req => db.FreshTasks io 0 req.pairs.length
  | .registerWorker _ _ => db.workers.get (genId "worker" (io.uuid 0)) = none
  | .addArtifact _ => db.artifacts.get (genId "art" (io.uuid 0)) = none
  | _ => True

instance (io : Io) (db : Db) : (op : DbOp) → Decidable (Fresh io db op)
  | .createJobWithTasks req _ =>
    inferInstanceAs (Decidable (_ ∧ (∀ i < req.pairs.length, _) ∧ ∀ i < req.pairs.length, ∀ j < i, _))
  | .createJob _ _ | .registerWorker _ _ | .addArtifact _ => inferInstanceAs (Decidable (_ = none))
  | .createTasksForJob _ req =>
    inferInstanceAs (Decidable ((∀ i < req.pairs.length, _) ∧ ∀ i < req.pairs.length, ∀ j < i, _))
  | .findJobByIdempotency _ | .getJob _ | .setJobStatus _ _ _ | .trySetJobStatus _ _
  | .setJobResult _ _ | .getTask _ | .listTasksForJob _ | .leaseNextTask _ _ | .startTask _ _
  | .completeTask _ _ _ | .failTask _ _ _ _ | .reapExpiredLeases | .reapTasksForWorkers _ _
  | .cancelJobTasks _ | .cancelRunningTask _ _ | .tasksForWorker _ | .heartbeatWorker _ _
  | .getWorker _ | .markDeadWorkers _ | .linkJobArtifact _ _ _ _ | .clearJobArtifactRole _ _
  | .listJobArtifacts _ | .addEvent _ => isTrue trivial

def machine (P : Platform) : Machine Call Call.Ret (Session Db) Io where
  exec io call s := call.op.exec P io s
  valid io call s := Fresh io s.live call.op

def server (P : Platform) (config : ServerConfig) :
    System Request Call Call.Ret Fault Reply (Session Db) Io where
  toMachine := machine P
  handler := handler P config
  recover s := .settled s.disk

instance (P : Platform) (config : ServerConfig) (io : Io) (call : Call) (s : Session Db) :
    Decidable ((server P config).valid io call s) :=
  inferInstanceAs (Decidable (Fresh io s.live call.op))

/-- The store of a server between two calls. -/
structure Sound (s : Session Db) : Prop where
  settled : s = .settled s.live
  good : s.live.Good

/-- What `create_job_with_tasks` leaves: one new job and its tasks. -/
structure Db.Created (db db' : Db) (io : Io) (req : JobRequest) (owner : Option String) : Prop where
  job : db.jobs.insert (jobRowOf io req (genId "job" (io.uuid 0)) owner) = some db'.jobs
  tasks : db'.tasks.rows = db.tasks.rows ++ newTasks io req (genId "job" (io.uuid 0)) req.pairs 1

theorem createJobWithTasks_cases {P : Platform} {io : Io} {s : Session Db} {req : JobRequest}
    {owner : Option String} (fresh : Fresh io s.live (.createJobWithTasks req owner)) :
    (∃ db, s.live.Created db io req owner ∧ s.live.keyTaken req.idempotencyKey = false ∧
      P.dumpError req = none ∧ fitsInteger req.priority = true ∧
      createJobWithTasks P io req owner s = (.ok (genId "job" (io.uuid 0),
        (newTasks io req (genId "job" (io.uuid 0)) req.pairs 1).map TaskRow.id), .settled db)) ∨
    (s.live.keyTaken req.idempotencyKey = true ∧
      createJobWithTasks P io req owner s = (.error .integrityError, s)) ∨
    (P.dumpError req ≠ none ∨ fitsInteger req.priority = false) ∧
      ∃ raised, createJobWithTasks P io req owner s = (.error raised, s) := by
  unfold createJobWithTasks
  rcases insertJob_cases (P := P) io s req (genId "job" (io.uuid 0)) owner with
    ⟨jobs, dumps, fits, free, inserted, ran⟩ | ⟨taken, ran⟩ | ⟨row, held, _⟩ | ⟨bad, raised, ran⟩
  · have job : ({ s.live with jobs := jobs } : Db).jobs.get (genId "job" (io.uuid 0)) =
        some (jobRowOf io req (genId "job" (io.uuid 0)) owner) := by
      rw [Table.get_insert inserted]
      exact if_pos rfl
    obtain ⟨tasks, rows, all⟩ := insertTasks_ok req fits req.pairs 1
      { s with live := { s.live with jobs := jobs } } (by rw [job]; rfl) fresh.2
    refine .inl ⟨{ s.live with jobs := jobs, tasks := tasks }, ⟨inserted, rows⟩, free, dumps, fits, ?_⟩
    dsimp only
    rw [Txn.bind_ok ran, Txn.bind_ok all]
    rfl
  · exact .inr (.inl ⟨taken, Txn.bind_error ran _⟩)
  · exact nomatch fresh.1.symm.trans held
  · exact .inr (.inr ⟨bad, raised, Txn.bind_error ran _⟩)

theorem newTasks_fields {io : Io} {req : JobRequest} {jobId : JobId}
    {pairs : List (PipelineRef × DatasetRef)} {n : Nat} {r : TaskRow}
    (member : r ∈ newTasks io req jobId pairs n) :
    r.jobId = jobId ∧ r.status = .queued ∧ r.attempt = 0 := by
  induction pairs generalizing n with
  | nil => simp [newTasks] at member
  | cons pair rest ih =>
    rcases List.mem_cons.mp member with rfl | later
    · exact ⟨rfl, rfl, rfl⟩
    · exact ih later

namespace Db.Created
variable {db db' : Db} {io : Io} {req : JobRequest} {owner : Option String}

theorem get_job (created : db.Created db' io req owner) (jobId : JobId) :
    db'.jobs.get jobId = if jobId = genId "job" (io.uuid 0) then
      some (jobRowOf io req (genId "job" (io.uuid 0)) owner) else db.jobs.get jobId :=
  Table.get_insert created.job jobId

theorem task (created : db.Created db' io req owner) {taskId : TaskId} {r : TaskRow}
    (found : db'.tasks.get taskId = some r) :
    db.tasks.get taskId = some r ∨
      r.jobId = genId "job" (io.uuid 0) ∧ r.status = .queued ∧ r.attempt = 0 := by
  obtain ⟨member, rfl⟩ := Table.get_eq_some.mp found
  rw [created.tasks] at member
  rcases List.mem_append.mp member with old | new
  · exact .inl (Table.get_of_mem old)
  · exact .inr (newTasks_fields new)

theorem kept (created : db.Created db' io req owner) {taskId : TaskId} {r : TaskRow}
    (found : db.tasks.get taskId = some r) : db'.tasks.get taskId = some r := by
  obtain ⟨member, rfl⟩ := Table.get_eq_some.mp found
  exact Table.get_of_mem (created.tasks ▸ List.mem_append_left _ member)

theorem fresh (created : db.Created db' io req owner) :
    db.jobs.get (genId "job" (io.uuid 0)) = none := Table.insert_fresh created.job

theorem evolves (created : db.Created db' io req owner) : Evolves db db' where
  task taskId r found := ⟨r, created.kept found, rfl, fun _ => rfl⟩
  origin taskId r' found := by
    rcases created.task found with old | ⟨job, _⟩
    · exact .inl ⟨r', old⟩
    · exact .inr (job ▸ created.fresh)
  job jobId row found := by
    refine ⟨row, ?_, rfl, fun _ => rfl⟩
    rw [created.get_job, if_neg fun same => ?_]
    · exact found
    · subst same
      exact nomatch created.fresh.symm.trans found

/-- The new job has at least one task, and that task is queued. -/
theorem unfinished (created : db.Created db' io req owner) :
    ¬db'.AllTerminal (genId "job" (io.uuid 0)) := by
  intro all
  obtain ⟨pair, rest, pairs⟩ : ∃ pair rest, req.pairs = pair :: rest := by
    cases pipelines : req.pipelineList with
    | nil => exact False.elim (req.pipelineList_ne_nil pipelines)
    | cons pipeline others =>
      cases datasets : req.datasetList with
      | nil => exact False.elim (req.datasetList_ne_nil datasets)
      | cons dataset more =>
        exact ⟨_, _, by rw [JobRequest.pairs, pipelines, datasets, List.flatMap_cons, List.map_cons,
          List.cons_append]⟩
  have member : taskRowOf io req (genId "job" (io.uuid 0)) (genId "task" (io.uuid 1)) pair ∈
      db'.tasks.rows := by
    rw [created.tasks, pairs]
    exact List.mem_append_right _ List.mem_cons_self
  exact nomatch all _ _ (Table.get_of_mem member) rfl

end Db.Created

theorem reapRows_ends {io : Io} {s : Session Db} {rows : List (TaskRow × JobStatus)}
    (lost : s.live.Lost rows) (error : String) :
    (reapRows io error rows s).2 = s ∨ ∃ db, (reapRows io error rows s).2 = .settled db := by
  rw [reapRows_ok lost]
  split
  · exact .inl rfl
  · exact .inr ⟨_, rfl⟩

/-- Where identifiers are fresh, an operation has written nothing or committed. -/
theorem exec_ends {P : Platform} {io : Io} {op : DbOp} {s : Session Db} (routed : op.routed = true)
    (fresh : Fresh io s.live op) :
    op.after P io s = s ∨ ∃ db, op.after P io s = .settled db := by
  simp only [DbOp.after]
  cases op with
  | createJob | createTasksForJob => contradiction
  | findJobByIdempotency | getJob | getTask | listTasksForJob | tasksForWorker | getWorker
  | listJobArtifacts => exact .inl rfl
  | linkJobArtifact | clearJobArtifactRole => exact .inr ⟨_, rfl⟩
  | addEvent event =>
    rcases addEvent_cases P io s event with ⟨_, ran⟩ | ⟨_, _, ran⟩
    · exact .inr ⟨_, congrArg Prod.snd ran⟩
    · exact .inl (congrArg Prod.snd ran)
  | cancelJobTasks jobId => exact .inr ⟨_, congrArg Prod.snd (cancelJobTasks_ok jobId)⟩
  | addArtifact a =>
    simp only [DbOp.exec, addArtifact, Txn.bind_run, Txn.live_run]
    generalize s.live.artifacts.insert _ = inserted
    cases inserted with
    | none => exact .inl rfl
    | some artifacts => exact .inr ⟨_, rfl⟩
  | createJobWithTasks req owner =>
    rcases createJobWithTasks_cases (P := P) fresh with ⟨db, _, _, _, _, ran⟩ | ⟨_, ran⟩ | ⟨_, _, ran⟩
    · exact .inr ⟨db, congrArg Prod.snd ran⟩
    all_goals exact .inl (congrArg Prod.snd ran)
  | setJobStatus jobId status error =>
    rcases setJobStatus_cases io s jobId status error with
      ⟨_, _, _, ran⟩ | ⟨_, ran, _⟩
    · exact .inr ⟨_, congrArg Prod.snd ran⟩
    · exact .inl (congrArg Prod.snd ran)
  | trySetJobStatus jobId new =>
    rcases trySetJobStatus_cases io s jobId new with ⟨_, _, _, ran⟩ | ⟨ran, _⟩
    · exact .inr ⟨_, congrArg Prod.snd ran⟩
    · exact .inl (congrArg Prod.snd ran)
  | setJobResult jobId agg =>
    rcases setJobResult_cases (P := P) io s jobId agg with ⟨_, ran⟩ | ⟨_, _, ran⟩
    · exact .inr ⟨_, congrArg Prod.snd ran⟩
    · exact .inl (congrArg Prod.snd ran)
  | leaseNextTask w ttl =>
    rcases leaseNextTask_cases (P := P) io s w ttl with
      ⟨_, _, _, _, _, ran⟩ | ran | ⟨_, ran⟩
    · exact .inr ⟨_, congrArg Prod.snd ran⟩
    all_goals exact .inl (congrArg Prod.snd ran)
  | startTask taskId w =>
    rcases startTask_cases io s taskId w with ⟨_, _, _, _, ran⟩ | ⟨_, ran⟩
    · exact .inr ⟨_, congrArg Prod.snd ran⟩
    · exact .inl (congrArg Prod.snd ran)
  | completeTask taskId w result =>
    rcases completeTask_cases io s taskId w result with ⟨_, _, _, _, ran⟩ | ⟨_, ran⟩
    · exact .inr ⟨_, congrArg Prod.snd ran⟩
    · exact .inl (congrArg Prod.snd ran)
  | failTask taskId o error retriable =>
    rcases failTask_cases P io s taskId o error retriable with
      ⟨_, _, _, _, _, ran⟩ | ⟨_, ran⟩
    · exact .inr ⟨_, congrArg Prod.snd ran⟩
    · exact .inl (congrArg Prod.snd ran)
  | cancelRunningTask taskId w =>
    rcases cancelRunningTask_cases io s taskId w with
      ⟨_, _, _, _, ran⟩ | ⟨_, ran⟩ | ran
    · exact .inr ⟨_, congrArg Prod.snd ran⟩
    all_goals exact .inl (congrArg Prod.snd ran)
  | reapExpiredLeases =>
    obtain ⟨rows, lost, ran⟩ := reapExpiredLeases_rows io s
    simp only [DbOp.exec, ran]
    exact reapRows_ends lost _
  | reapTasksForWorkers workerIds error =>
    obtain ⟨rows, lost, ran⟩ := reapTasksForWorkers_rows io s workerIds error
    simp only [DbOp.exec, ran]
    exact reapRows_ends lost _
  | registerWorker reg principal =>
    simp only [DbOp.exec, registerWorker, Txn.bind_run, Txn.live_run]
    split
    · generalize s.live.workers.insert _ = inserted
      cases inserted with
      | none => exact .inl rfl
      | some workers => exact .inr ⟨_, rfl⟩
    · exact .inl rfl
  | heartbeatWorker w ttl =>
    simp only [DbOp.exec, heartbeatWorker, Txn.bind_run, Txn.live_run, Txn.write_run]
    cases ttl <;> cases (s.live.workers.get w).isSome <;> exact .inr ⟨_, rfl⟩
  | markDeadWorkers ttl =>
    simp only [DbOp.exec, markDeadWorkers, Txn.bind_run, Txn.live_run]
    split
    · exact .inl rfl
    · exact .inr ⟨_, rfl⟩

/-- Every call of a handler keeps the invariant and lets the store evolve. -/
theorem exec_sound {P : Platform} {io : Io} {op : DbOp} {s : Session Db} (routed : op.routed = true)
    (fresh : Fresh io s.live op) (sound : Sound s) :
    Sound (op.after P io s) ∧ Evolves s.live (op.after P io s).live := by
  have good : (op.after P io s).live.Good :=
    (exec_moves P io op s).rec sound.good fun _ move good => move.good routed good
  refine ⟨⟨?_, good⟩, ?_⟩
  · rcases exec_ends (P := P) routed fresh with same | ⟨db, committed⟩
    · rw [same]
      exact sound.settled
    · rw [committed]
      rfl
  · cases creates : op.creates with
    | false =>
      exact (exec_moves P io op s).rec (.refl _) fun _ move moved =>
        moved.trans (move.evolves creates routed)
    | true =>
      cases op with
      | createJobWithTasks req owner =>
        rcases createJobWithTasks_cases (P := P) fresh with
          ⟨db, created, _, _, _, ran⟩ | ⟨_, ran⟩ | ⟨_, _, ran⟩
        · simp only [DbOp.after, DbOp.exec, ran]
          exact created.evolves
        all_goals
          simp only [DbOp.after, DbOp.exec, ran]
          exact .refl _
      | _ => contradiction

/-- A call in an uninterrupted run: its answer is bound, or its exception ends the run. -/
theorem perform_runs {α : Type} {P : Platform} {site : Site} {op : DbOp} {k : op.Ret → Prog α}
    {s t : Session Db} {out : Except Fault α}
    (run : (perform site op >>= k).Runs (machine P) s out t) :
    ∃ io, Fresh io s.live op ∧ ∃ answer u, op.exec P io s = (answer, u) ∧
      match answer with
      | .ok value => (k value).Runs (machine P) u out t
      | .error error => out = .error ⟨site, error⟩ ∧ t = u := by
  unfold perform at run
  cases run with
  | @call io _ _ _ _ _ valid rest =>
    change (Program.bind _ k).Runs (machine P) _ out t at rest
    cases answered : op.exec P io s with
    | mk answer u =>
      refine ⟨io, valid, answer, u, answered, ?_⟩
      simp only [machine, answered] at rest
      cases answer with
      | ok value => exact rest
      | error error =>
        cases rest
        exact ⟨rfl, rfl⟩

end N4Cluster
