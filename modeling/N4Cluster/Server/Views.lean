import N4Cluster.Base.Observation
import N4Cluster.Server.Ranking
import N4Cluster.Server.Service
import N4Cluster.Server.Submissions

/-! What a client sees of a job. `GET /v1/jobs/{id}` reads the store several times while
handlers go on writing, so a view may mix several states of the server; but a view with a
terminal status is final, and it is what every later `GET` answers. -/
namespace N4Cluster
open Relational Transactional Relation Interleave

variable {P : Platform} {config : ServerConfig} {p q r : ServerPool} {jobId : JobId}

/-! ## What stays of a job that has ended -/

/-- The columns of a job that are shown, but for `updated_at`. -/
def JobRow.shown (row : JobRow) : JobRow := { row with updatedAt := 0, result := none }

/-- From one store to a later one: tasks are neither added to a job that is there nor taken from
it, and a job that has ended shows what it showed. -/
structure Follows (db db' : Db) : Prop where
  evolves : Evolves db db'
  origins : ∀ jobId, (db.jobs.get jobId).isSome = true → db'.originsOf jobId = db.originsOf jobId
  shown : ∀ jobId row, db.jobs.get jobId = some row → row.status.terminal = true →
    ∃ row', db'.jobs.get jobId = some row' ∧ row'.shown = row.shown

namespace Follows
variable {a b c : Db}

theorem refl (db : Db) : Follows db db :=
  ⟨.refl db, fun _ _ => rfl, fun _ row found _ => ⟨row, found, rfl⟩⟩

theorem trans (first : Follows a b) (second : Follows b c) : Follows a c := by
  refine ⟨first.evolves.trans second.evolves, fun jobId held => ?_, fun jobId row found terminal => ?_⟩
  · rw [second.origins jobId (first.evolves.exists_job held), first.origins jobId held]
  · obtain ⟨row', found', same⟩ := first.shown jobId row found terminal
    have status : row'.shown.status = row.shown.status := by rw [same]
    replace status : row'.status = row.status := status
    obtain ⟨row'', found'', same'⟩ := second.shown jobId row' found' (status ▸ terminal)
    exact ⟨row'', found'', same'.trans same⟩

/-- The tasks of a job whose tasks have all ended are the same rows in the same order. -/
theorem tasksOf (follows : Follows a b) (held : (a.jobs.get jobId).isSome = true) (ended : a.AllTerminal jobId) :
    b.tasksOf jobId = a.tasksOf jobId := by
  have rows (db : Db) : (db.jobTasks jobId).map (fun r => some r) =
      (db.originsOf jobId).map fun o => db.tasks.get o.1 := by
    rw [originsOf_eq, List.map_map]
    refine List.map_congr_left fun r member => ?_
    exact (Table.get_of_mem (List.mem_filter.mp member).1).symm
  have same : (b.jobTasks jobId).map (fun r => some r) = (a.jobTasks jobId).map fun r => some r := by
    rw [rows, rows, follows.origins jobId held, originsOf_eq, List.map_map, List.map_map]
    refine List.map_congr_left fun r member => ?_
    obtain ⟨inside, job⟩ := List.mem_filter.mp member
    have found := Table.get_of_mem inside
    obtain ⟨r', found', _, kept⟩ := follows.evolves.task r.id r found
    have same := kept (ended r.id r found (of_decide_eq_true job))
    exact found'.trans (same ▸ found.symm)
  have lists := List.map_injective_iff.mpr (Option.some_injective TaskRow) same
  exact congrArg (List.insertionSort _) lists

end Follows

theorem Move.shown {io : Io} {op : DbOp} {db db' : Db} (routed : op.routed = true) (move : Move io op db db')
    {row : JobRow} (found : db.jobs.get jobId = some row) (terminal : row.status.terminal = true) :
    ∃ row', db'.jobs.get jobId = some row' ∧ row'.shown = row.shown := by
  have same (jobs : db'.jobs = db.jobs) : ∃ row', db'.jobs.get jobId = some row' ∧ row'.shown = row.shown :=
    ⟨row, jobs ▸ found, rfl⟩
  cases move with
  | task touched how jobs workers =>
    split at jobs
    · rw [jobs, maybeJobRunning_get, found]
      refine ⟨_, rfl, ?_⟩
      dsimp only
      split
      · rename_i queued
        have queued : row.status = .queued := by simpa using (Bool.and_eq_true_iff.mp queued).2
        rw [queued] at terminal
        contradiction
      · rfl
    · exact same jobs
  | @job jobId' new error row' how present legal moved =>
    subst moved
    rw [moveJob_get, found]
    split
    · rename_i here
      rw [here, present] at found
      cases found
      have never : new ≠ .queued := by
        rintro rfl
        rcases how with rfl | ⟨rfl, _⟩ <;> contradiction
      have still := terminal_edge (.inr legal) terminal never
      rw [still] at legal
      generalize row.status = status at terminal legal
      cases status <;> contradiction
    · exact ⟨row, rfl, rfl⟩
  | result how put =>
    subst put
    rw [putResult_get, found]
    split
    · exact ⟨_, rfl, rfl⟩
    · exact ⟨row, rfl, rfl⟩
  | newJob creates free inserted =>
    rw [Table.get_insert inserted]
    split
    · rename_i here
      have fresh := Table.insert_fresh inserted
      rw [← here, found] at fresh
      cases fresh
    · exact ⟨row, found, rfl⟩
  | renew _ _ jobs | newTask _ _ _ jobs | newWorker _ _ _ jobs | workers _ _ _ _ jobs | other _ jobs => exact same jobs

theorem exec_shown {io : Io} {op : DbOp} {s : Session Db} (routed : op.routed = true) {row : JobRow}
    (found : s.live.jobs.get jobId = some row) (terminal : row.status.terminal = true) :
    ∃ row', (op.after P io s).live.jobs.get jobId = some row' ∧ row'.shown = row.shown := by
  refine (exec_moves P io op s).rec ⟨row, found, rfl⟩ fun _ move ih => ?_
  obtain ⟨mid, held, same⟩ := ih
  have status : mid.shown.status = row.shown.status := by rw [same]
  replace status : mid.status = row.status := status
  obtain ⟨row', found', same'⟩ := move.shown routed held (status ▸ terminal)
  exact ⟨row', found', same'.trans same⟩

theorem exec_follows {io : Io} {op : DbOp} {s : Session Db} (routed : op.routed = true)
    (fresh : Fresh io s.live op) (sound : Sound s) : Follows s.live (op.after P io s).live := by
  refine ⟨(exec_sound routed fresh sound).2, fun jobId held => ?_, fun jobId row => exec_shown routed⟩
  cases creates : op.creates with
  | false => exact congrArg _ (exec_origins io creates)
  | true =>
    cases op with
    | createJobWithTasks req owner =>
      rcases createJobWithTasks_cases (P := P) fresh with ⟨db, created, _, _, _, ran⟩ | ⟨_, ran⟩ | ⟨_, _, ran⟩
      · have after : ((DbOp.createJobWithTasks req owner).after P io s).live = db :=
          congrArg (fun out => out.2.live) ran
        have other : jobId ≠ genId "job" (io.uuid 0) := by
          rintro rfl
          rw [created.fresh] at held
          contradiction
        rw [after, created.originsOf, if_neg other, List.append_nil]
      all_goals exact congrArg (fun out => out.2.live.originsOf jobId) ran
    | _ => contradiction

/-- A reachable state and a later one. -/
theorem run_follows (before : System.Reaches (server P config) (server P config).Lawful started p)
    (run : System.Reaches (server P config) (server P config).Lawful p q) :
    Follows p.store.live q.store.live := by
  have keeping := (run_closed (before.mono fun _ _ => lawful_allowed)).1
  refine run.related (I := Keeping P config .none) (R := fun s t => Follows s.live t.live) (fun _ => .refl _)
    (fun first second => first.trans second) (fun {p l q} keeping lawful stepped => ?_) keeping
  refine ⟨keeping.step (lawful_allowed lawful) stepped, ?_⟩
  rcases keeping.cases (lawful_allowed lawful) stepped with ⟨same, _⟩ | ⟨i, io, _, c, _, _, _, fresh, fair, rfl, _⟩
  · rw [same]
    exact .refl _
  · exact exec_follows fair.routed fresh keeping.1

/-- From the state in which a job has ended on, its row shows the same and its tasks are the same. -/
structure Ended (db db' : Db) (jobId : JobId) (row : JobRow) : Prop where
  shown : ∃ row', db'.jobs.get jobId = some row' ∧ row'.shown = row.shown
  tasks : db'.tasksOf jobId = db.tasksOf jobId
  all : db'.AllTerminal jobId

theorem run_ended (before : System.Reaches (server P config) (server P config).Lawful started p)
    (run : System.Reaches (server P config) (server P config).Lawful p q) {row : JobRow}
    (found : p.store.live.jobs.get jobId = some row) (terminal : row.status.terminal = true) :
    Ended p.store.live q.store.live jobId row := by
  have follows := run_follows before run
  have held : (p.store.live.jobs.get jobId).isSome = true := by rw [found]; rfl
  have all := (run_closed (before.mono fun _ _ => lawful_allowed)).2 jobId ⟨row, found, terminal⟩
  exact ⟨follows.shown jobId row found terminal, follows.tasksOf held all, follows.evolves.allTerminal held all⟩

/-! ## The reads of a view -/

/-- What a client's question is answered. -/
def looking (P : Platform) (io : Io) (c : Call) (s : Session Db) : c.Ret := ((machine P).exec io c s).1

abbrev Looks (P : Platform) (config : ServerConfig) {α : Type} :
    ServerPool → Prog α → ServerPool → Except Fault α → Prop :=
  System.Observes (server P config) (server P config).Lawful (looking P)

section
variable {α β : Type} {site : Site} {op : DbOp} {k : op.Ret → Prog β} {ended : Except Fault β}

/-- A read that always succeeds, at some later state of the run. -/
theorem looked (total : ∀ io s, ∃ value, (op.exec P io s).1 = .ok value)
    (looks : Looks P config p (perform site op >>= k) r ended) :
    ∃ q io value, System.Reaches (server P config) (server P config).Lawful p q ∧
      (op.exec P io q.store).1 = .ok value ∧ Looks P config q (k value) r ended := by
  obtain ⟨q, io, later, rest⟩ := System.Observes.call_cases looks
  obtain ⟨value, answered⟩ := total io q.store
  refine ⟨q, io, value, later, answered, ?_⟩
  change Looks P config q _ r ended at rest
  unfold looking machine at rest
  rw [answered] at rest
  exact rest

theorem looked_job {k : Option JobRow → Prog β} (looks : Looks P config p (perform site (.getJob jobId) >>= k) r ended) :
    ∃ q, System.Reaches (server P config) (server P config).Lawful p q ∧
      Looks P config q (k (q.store.live.jobs.get jobId)) r ended := by
  obtain ⟨q, io, value, later, answered, rest⟩ := looked (fun _ _ => ⟨_, rfl⟩) looks
  cases answered
  exact ⟨q, later, rest⟩

theorem looked_tasks {k : List TaskRow → Prog β}
    (looks : Looks P config p (perform site (.listTasksForJob jobId) >>= k) r ended) :
    ∃ q, System.Reaches (server P config) (server P config).Lawful p q ∧
      Looks P config q (k (q.store.live.tasksOf jobId)) r ended := by
  obtain ⟨q, io, value, later, answered, rest⟩ := looked (fun _ _ => ⟨_, rfl⟩) looks
  cases answered
  exact ⟨q, later, rest⟩

theorem looked_lift {found : Except PyErr α} {k : α → Prog β} {value : β}
    (looks : Looks P config p (liftAt site found >>= k) r (.ok value)) :
    ∃ a, found = .ok a ∧ Looks P config p (k a) r (.ok value) := by
  cases found with
  | ok a => exact ⟨a, rfl, looks⟩
  | error error => cases looks

end

/-- The aggregate of one moment of the run. -/
theorem looked_aggregate {site : Site} {out : JobAggregate × Option TaskId × Option ArtifactId}
    (looks : Looks P config p (buildAggregate P site jobId) q (.ok out)) :
    ∃ u v row req agg best, System.Reaches (server P config) (server P config).Lawful p u ∧
      System.Reaches (server P config) (server P config).Lawful u v ∧
      System.Reaches (server P config) (server P config).Lawful v q ∧
      u.store.live.jobs.get jobId = some row ∧ P.reloadRequest row.request = .ok req ∧
      P.tally req (v.store.live.tasksOf jobId) = .ok agg ∧ out.1 = { agg with bestModelArtifactId := best } := by
  obtain ⟨u, first, looks⟩ := looked_job looks
  cases found : u.store.live.jobs.get jobId with
  | none =>
    rw [found] at looks
    cases looks
  | some row =>
    rw [found] at looks
    obtain ⟨req, reloads, looks⟩ := looked_lift looks
    obtain ⟨v, second, looks⟩ := looked_tasks looks
    obtain ⟨agg, tallied, looks⟩ := looked_lift looks
    cases best : agg.bestTaskId with
    | none =>
      simp only [best] at looks
      cases looks
      exact ⟨u, q, row, req, agg, agg.bestModelArtifactId, first, second, .refl _, found, reloads, tallied, rfl⟩
    | some taskId =>
      simp only [best] at looks
      obtain ⟨w, io, links, third, _, looks⟩ := looked (fun _ _ => ⟨_, rfl⟩) looks
      cases looks
      refine ⟨u, v, row, req, agg, bestModel taskId links, first, second, third, found, reloads, tallied, ?_⟩
      rw [← best]

/-- The view of a job with its request as read back and its aggregate. -/
def JobRow.view (row : JobRow) (req : JobRequest) (agg : JobAggregate) : JobView where
  id := row.id
  type := row.type
  name := row.name
  status := row.status
  priority := row.priority
  createdAt := row.createdAt
  updatedAt := row.updatedAt
  aggregate := agg
  scheduler := req.scheduler.getD req.inferredSchedulerContract
  submission :=
    if req.submission.isNone && truthy row.owner then some { principal := row.owner : JobSubmissionMetadata }
    else req.submission
  error := row.error

/-- The row of one moment `u` of the run with the aggregate of a later one `v`. -/
structure Viewed (P : Platform) (config : ServerConfig) (p : ServerPool) (jobId : JobId) (q : ServerPool)
    (view : JobView) (u v : ServerPool) (row : JobRow) (req : JobRequest) (agg : JobAggregate) : Prop where
  first : System.Reaches (server P config) (server P config).Lawful p u
  second : System.Reaches (server P config) (server P config).Lawful u v
  third : System.Reaches (server P config) (server P config).Lawful v q
  found : u.store.live.jobs.get jobId = some row
  reloads : P.reloadRequest row.request = .ok req
  tallied : P.tally req (v.store.live.tasksOf jobId) = .ok agg
  view : ∃ best, view = row.view req { agg with bestModelArtifactId := best }

/-- What `GET /v1/jobs/{id}` answers beside a run. -/
theorem looked_view (before : System.Reaches (server P config) (server P config).Lawful started p) {reply : Reply}
    (looks : Looks P config p (Route.getJob P jobId) q (.ok reply)) :
    ∃ view u v row req agg, reply = .job view ∧ Viewed P config p jobId q view u v row req agg := by
  obtain ⟨u₀, step₀, looks⟩ := looked_job looks
  cases known : u₀.store.live.jobs.get jobId with
  | none =>
    rw [known] at looks
    cases looks
  | some _ =>
    rw [known] at looks
    change Looks P config u₀ (jobView P jobId >>= fun view => .ret (Reply.job view)) q _ at looks
    obtain ⟨view, q', viewing, ended⟩ | ⟨_, _, failed⟩ := System.Observes.bind_cases looks
    · cases ended
      obtain ⟨u, step, looks⟩ := looked_job viewing
      cases found : u.store.live.jobs.get jobId with
      | none =>
        rw [found] at looks
        cases looks
      | some row =>
        rw [found] at looks
        obtain ⟨out, w, built, rest⟩ | ⟨_, _, failed⟩ := System.Observes.bind_cases looks
        · obtain ⟨u', v, row', req', agg, best, a, b, c, found', reloads', tallied, shape⟩ := looked_aggregate built
          obtain ⟨req, reloads, ended⟩ := looked_lift rest
          cases ended
          obtain ⟨row'', held, request, _⟩ := (run_follows ((before.trans step₀).trans step) a).evolves.job jobId row found
          rw [found'] at held
          cases held
          rw [request, reloads] at reloads'
          cases reloads'
          exact ⟨_, u, v, row, _, agg, rfl, step₀.trans step, a.trans b, c, found, reloads, tallied, best, shape ▸ rfl⟩
        · cases failed
    · cases failed

/-- What two views of a job that has ended may differ in. -/
def JobView.settled (view : JobView) : JobView :=
  { view with updatedAt := 0, aggregate := { view.aggregate with bestModelArtifactId := none } }

/-- The rows and the tasks of two moments agree on everything a view shows of a job that had ended. -/
theorem Viewed.agree {u v u' v' q' : ServerPool} {view view' : JobView} {row row' : JobRow} {req req' : JobRequest}
    {agg agg' : JobAggregate} (before : System.Reaches (server P config) (server P config).Lawful started p)
    (viewed : Viewed P config p jobId q view u v row req agg)
    (viewed' : Viewed P config q jobId q' view' u' v' row' req' agg') (terminal : view.status.terminal = true) :
    view'.settled = view.settled := by
  obtain ⟨first, second, third, found, reloads, tallied, best, rfl⟩ := viewed
  obtain ⟨first', second', third', found', reloads', tallied', best', rfl⟩ := viewed'
  replace terminal : row.status.terminal = true := terminal
  have atRow := before.trans first
  have ended := run_ended atRow second found terminal
  have ended' := run_ended atRow ((second.trans third).trans (first'.trans second')) found terminal
  obtain ⟨row'', held, same⟩ := (run_ended atRow ((second.trans third).trans first') found terminal).shown
  rw [found'] at held
  cases held
  have request : row'.shown.request = row.shown.request := by rw [same]
  replace request : row'.request = row.request := request
  rw [request, reloads] at reloads'
  cases reloads'
  rw [ended'.tasks, ← ended.tasks, tallied] at tallied'
  cases tallied'
  change (row'.shown.view req agg).settled = (row.shown.view req agg).settled
  rw [same]

end N4Cluster
