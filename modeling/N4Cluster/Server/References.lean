import N4Cluster.Base.Discipline
import N4Cluster.Client.Downloads
import N4Cluster.Server.Links
import N4Cluster.Server.Slots
import N4Cluster.Server.Workers

/-! Rows name other rows, which the schema checks for the job of a task only. Whatever
requests are served, and in whatever interleaving, no name dangles: a task names a job and
a worker, a link a task of its job and an artifact, an event a job, a task of that job and a
worker, that are all stored. Nothing stored goes away, so what is listed can be downloaded
for good. -/
namespace N4Cluster
open Relational Transactional Relation Interleave

variable {P : Platform} {config : ServerConfig} {io : Io} {s t : Session Db} {op : DbOp} {db db' : Db}
  {jobId : JobId} {taskId : TaskId}

/-! ## Rows that name rows -/

inductive Citation where
  | job (jobId : JobId)
  | task (jobId : JobId) (taskId : TaskId)
  | worker (workerId : WorkerId)
  | artifact (artifactId : ArtifactId)

def Db.Has (db : Db) : Citation → Prop
  | .job jobId => (db.jobs.get jobId).isSome = true
  | .task jobId taskId => ∃ r, db.tasks.get taskId = some r ∧ r.jobId = jobId
  | .worker workerId => (db.workers.get workerId).isSome = true
  | .artifact artifactId => (db.artifacts.get artifactId).isSome = true

def Db.HasAll (db : Db) (cited : List Citation) : Prop := ∀ c ∈ cited, db.Has c

/-- Nothing that is stored goes away, and no artifact changes. -/
structure Grows (db db' : Db) : Prop where
  has : ∀ c, db.Has c → db'.Has c
  artifact : ∀ x a, db.artifacts.get x = some a → db'.artifacts.get x = some a

def TaskRow.cites (r : TaskRow) : List Citation := .job r.jobId :: r.workerId.toList.map .worker

def JobArtifactRow.cites (r : JobArtifactRow) : List Citation :=
  [.task r.jobId r.taskId, .artifact r.artifactId]

/-- The columns of an event. -/
def columnCites (jobId : Option JobId) (taskId : Option TaskId) (workerId : Option WorkerId) : List Citation :=
  jobId.toList.map .job ++ taskId.toList.map (.task (jobId.getD "")) ++ workerId.toList.map .worker

def EventRow.cites (e : EventRow) : List Citation := columnCites e.jobId e.taskId e.workerId

def NewEvent.cites (e : NewEvent) : List Citation := columnCites e.jobId e.taskId e.workerId

/-- No row of the store names one that is not there. -/
structure Db.Intact (db : Db) : Prop where
  named : ∀ taskId r, db.tasks.get taskId = some r → taskId ≠ ""
  tasks : ∀ taskId r, db.tasks.get taskId = some r → db.HasAll r.cites
  links : ∀ r ∈ db.jobArtifacts.rows, db.HasAll r.cites
  events : ∀ e ∈ db.events, db.HasAll e.cites

/-- What a call writes names. -/
def DbOp.cites : DbOp → List Citation
  | .addEvent event => event.cites
  | .linkJobArtifact jobId taskId _ artifactId => [.task jobId (taskId.getD ""), .artifact artifactId]
  | _ => []

theorem Grows.trans {a b c : Db} (first : Grows a b) (second : Grows b c) : Grows a c :=
  ⟨fun x has => second.has x (first.has x has), fun x r found => second.artifact x r (first.artifact x r found)⟩

theorem Db.HasAll.later {cited : List Citation} (all : db.HasAll cited) (grows : Grows db db') :
    db'.HasAll cited := fun c member => grows.has c (all c member)

theorem columnCites_all {jobId : Option JobId} {taskId : Option TaskId} {workerId : Option WorkerId}
    (job : ∀ j, jobId = some j → db.Has (.job j)) (task : ∀ u, taskId = some u → db.Has (.task (jobId.getD "") u))
    (worker : ∀ w, workerId = some w → db.Has (.worker w)) : db.HasAll (columnCites jobId taskId workerId) := by
  intro c member
  simp only [columnCites, List.mem_append, List.mem_map, Option.mem_toList] at member
  rcases member with (⟨j, here, rfl⟩ | ⟨u, here, rfl⟩) | ⟨w, here, rfl⟩
  · exact job j here
  · exact task u here
  · exact worker w here

theorem cites_all {r : TaskRow} (job : db.Has (.job r.jobId)) (worker : ∀ w, r.workerId = some w → db.Has (.worker w)) :
    db.HasAll r.cites := by
  intro c member
  rcases List.mem_cons.mp member with rfl | later
  · exact job
  · obtain ⟨w, here, rfl⟩ := List.mem_map.mp later
    exact worker w (Option.mem_toList.mp here)

/-- No row of an artifact is ever written again. -/
theorem exec_artifact (io : Io) {x : ArtifactId} {a : ArtifactRow} (found : s.live.artifacts.get x = some a) :
    (op.after P io s).live.artifacts.get x = some a := by
  cases files : op.files with
  | false => rwa [(exec_unfiled files).1]
  | true =>
    cases op with
    | linkJobArtifact | clearJobArtifactRole => exact found
    | addArtifact artifact =>
      simp only [DbOp.after, DbOp.exec, addArtifact, Txn.bind_run, Txn.live_run]
      cases inserted : s.live.artifacts.insert ⟨genId "art" (io.uuid 0), artifact.sha256, artifact.kind,
          artifact.path, artifact.sizeBytes, artifact.filename, io.now⟩ with
      | none => exact found
      | some artifacts =>
        simp only [Txn.bind_run, Txn.write_run]
        change artifacts.get x = some a
        rw [Table.get_insert inserted, if_neg]
        · exact found
        · rintro rfl
          cases (Table.insert_fresh inserted).symm.trans found
    | _ => contradiction

theorem exec_grows (routed : op.routed = true) (fresh : Fresh io s.live op) (sound : Sound s) :
    Grows s.live (op.after P io s).live := by
  have moved := (exec_sound (P := P) routed fresh sound).2
  refine ⟨fun c has => ?_, fun _ _ => exec_artifact io⟩
  cases c with
  | job jobId => exact moved.exists_job has
  | task jobId taskId =>
    obtain ⟨r, found, job⟩ := has
    obtain ⟨r', found', job', _⟩ := moved.task taskId r found
    exact ⟨r', found', job'.trans job⟩
  | worker w =>
    obtain ⟨row, found⟩ := Option.isSome_iff_exists.mp has
    exact Option.isSome_iff_exists.mpr (exec_registered io found)
  | artifact x => exact exec_artifacts_kept x has

/-- A task is given to workers that are registered. -/
theorem TaskMove.owned {now : Time} {r r' : TaskRow} {o : Option WorkerId} (how : TaskMove db now r op r' o)
    {w : WorkerId} (owner : r'.workerId = some w) : r.workerId = some w ∨ db.Has (.worker w) := by
  cases how with
  | lease leasable =>
    cases owner
    exact .inr (Option.isSome_iff_exists.mpr ⟨_, leasable.registered⟩)
  | start | complete | stop => exact .inl owner
  | cancel => cases owner
  | fail =>
    unfold TaskRow.fail at owner
    split at owner
    · cases owner
    · exact .inl owner
  | resolve =>
    unfold TaskRow.resolve at owner
    split at owner
    · cases owner
    · split at owner
      · cases owner
      · exact .inl owner

theorem Move.owned (move : Move io op db db') {r' : TaskRow} (found : db'.tasks.get taskId = some r') {w : WorkerId}
    (owner : r'.workerId = some w) :
    (∃ r, db.tasks.get taskId = some r ∧ r.workerId = some w) ∨ db.Has (.worker w) := by
  cases move with
  | task touched how jobs workers =>
    rcases touched.back found with ⟨rfl, rfl⟩ | ⟨_, before⟩
    · exact (how.owned owner).imp_left fun before => ⟨_, touched.found, before⟩
    · exact .inl ⟨r', before, owner⟩
  | renew how tasks jobs workers =>
    rw [tasks, Db.renewLeases, Table.get_updateWhere] at found
    obtain ⟨r, before, rfl⟩ := Option.map_eq_some_iff.mp found
    refine .inl ⟨r, before, ?_⟩
    split at owner <;> exact owner
  | newTask creates job inserted jobs workers =>
    rw [Table.get_insert inserted] at found
    split at found
    · cases found
      cases owner
    · exact .inl ⟨r', found, owner⟩
  | job how present legal moved =>
    subst moved
    exact .inl ⟨r', found, owner⟩
  | result how put =>
    subst put
    exact .inl ⟨r', found, owner⟩
  | newJob _ _ _ tasks | newWorker _ _ tasks | workers _ _ _ tasks | other tasks =>
    exact .inl ⟨r', tasks ▸ found, owner⟩

theorem Move.keeps_worker (move : Move io op db db') {w : WorkerId} (has : db.Has (.worker w)) : db'.Has (.worker w) := by
  obtain ⟨row, before⟩ := Option.isSome_iff_exists.mp has
  exact Option.isSome_iff_exists.mpr (move.registered before)

theorem exec_owned (io : Io) {r' : TaskRow} (found : (op.after P io s).live.tasks.get taskId = some r')
    {w : WorkerId} (owner : r'.workerId = some w) :
    (∃ r, s.live.tasks.get taskId = some r ∧ r.workerId = some w) ∨ (op.after P io s).live.Has (.worker w) := by
  have moves := exec_moves P io op s
  generalize (op.after P io s).live = db at moves found
  induction moves generalizing r' with
  | refl => exact .inl ⟨r', found, owner⟩
  | tail _ move ih =>
    rcases move.owned found owner with ⟨r, between, owned⟩ | has
    · exact (ih owned between).imp_right move.keeps_worker
    · exact .inr (move.keeps_worker has)

/-- The links of a store come from the calls that write them. -/
theorem exec_linked_by {r : JobArtifactRow} (member : r ∈ (op.after P io s).live.jobArtifacts.rows) :
    r ∈ s.live.jobArtifacts.rows ∨ r.cites = op.cites := by
  cases files : op.files with
  | false => exact .inl ((exec_unfiled files).2 ▸ member)
  | true =>
    cases op with
    | linkJobArtifact jobId taskId role x =>
      rcases Table.mem_replace.mp member with rfl | ⟨old, _⟩
      · exact .inr rfl
      · exact .inl old
    | clearJobArtifactRole jobId role => exact .inl (Table.mem_deleteWhere.mp member).1
    | addArtifact artifact =>
      refine .inl ?_
      simp only [DbOp.after, DbOp.exec, addArtifact, Txn.bind_run, Txn.live_run] at member
      generalize s.live.artifacts.insert _ = inserted at member
      cases inserted <;> exact member
    | _ => contradiction

/-- An event as it was handed in. -/
def EventRow.posted (e : EventRow) : NewEvent :=
  { level := e.level, type := e.type, message := e.message, jobId := e.jobId, taskId := e.taskId,
    workerId := e.workerId }

/-- The events of a store come from the calls that add them. -/
theorem exec_posted {e : EventRow} (member : e ∈ (op.after P io s).live.events) :
    e ∈ s.live.events ∨ ∃ brought, op = .addEvent { e.posted with brought := brought } := by
  cases aside : op.sides with
  | false =>
    have same : (op.after P io s).live.side = s.live.side := exec_side aside
    simp only [Db.side, Prod.mk.injEq] at same
    exact .inl (same.2.2 ▸ member)
  | true =>
    cases op with
    | addEvent event =>
      rcases addEvent_cases P io s event with ⟨_, ran⟩ | ⟨_, _, ran⟩
      all_goals rw [DbOp.after, DbOp.exec, ran] at member
      · rcases List.mem_append.mp member with old | new
        · exact .inl old
        · rw [List.mem_singleton.mp new]
          exact .inr ⟨event.brought, rfl⟩
      · exact .inl member
    | addArtifact artifact =>
      refine .inl ?_
      simp only [DbOp.after, DbOp.exec, addArtifact, Txn.bind_run, Txn.live_run] at member
      generalize s.live.artifacts.insert _ = inserted at member
      cases inserted <;> exact member
    | linkJobArtifact | clearJobArtifactRole => exact .inl member
    | _ => contradiction

theorem exec_logged_by {e : EventRow} (member : e ∈ (op.after P io s).live.events) :
    e ∈ s.live.events ∨ e.cites = op.cites := by
  rcases exec_posted member with old | ⟨brought, posts⟩
  · exact .inl old
  · rw [posts]
    exact .inr rfl

theorem newTasks_named {req : JobRequest} {pairs : List (PipelineRef × DatasetRef)} {n : Nat} {r : TaskRow}
    (member : r ∈ newTasks io req jobId pairs n) : r.id ≠ "" := by
  induction pairs generalizing n with
  | nil => simp [newTasks] at member
  | cons pair rest ih =>
    rcases List.mem_cons.mp member with rfl | later
    · exact genId_ne_empty _ _
    · exact ih later

/-- Tasks come from insertions, which make up a name. -/
theorem exec_named (routed : op.routed = true) (fresh : Fresh io s.live op) {r : TaskRow}
    (found : (op.after P io s).live.tasks.get taskId = some r) :
    (∃ r, s.live.tasks.get taskId = some r) ∨ taskId ≠ "" := by
  cases creates : op.creates with
  | false =>
    have moves := exec_moves P io op s
    generalize (op.after P io s).live = db at moves found
    induction moves generalizing r with
    | refl => exact .inl ⟨r, found⟩
    | tail _ move ih =>
      rcases move.task_origin found with ⟨r', before, _⟩ | ⟨creating, _⟩
      · exact ih before
      · cases creates.symm.trans creating
  | true =>
    cases op with
    | createJobWithTasks req owner =>
      rcases createJobWithTasks_cases (P := P) fresh with ⟨db, created, _, _, _, ran⟩ | ⟨_, ran⟩ | ⟨_, _, ran⟩
      · simp only [DbOp.after, DbOp.exec, ran] at found
        obtain ⟨member, rfl⟩ := Table.get_eq_some.mp found
        rcases List.mem_append.mp (created.tasks ▸ member) with old | new
        · exact .inl ⟨r, Table.get_of_mem old⟩
        · exact .inr (newTasks_named new)
      all_goals
        simp only [DbOp.after, DbOp.exec, ran] at found
        exact .inl ⟨r, found⟩
    | _ => contradiction

/-- A call that names only what is stored leaves no dangling name. -/
theorem exec_intact (routed : op.routed = true) (fresh : Fresh io s.live op) (sound : Sound s)
    (intact : s.live.Intact) (cited : s.live.HasAll op.cites) : (op.after P io s).live.Intact := by
  have grows := exec_grows (P := P) routed fresh sound
  have good := (exec_sound (P := P) routed fresh sound).1.good
  refine ⟨fun taskId r' found => ?_, fun taskId r' found => cites_all ?_ fun w owner => ?_, fun r member => ?_,
    fun e member => ?_⟩
  · rcases exec_named (P := P) routed fresh found with ⟨r, before⟩ | named
    · exact intact.named taskId r before
    · exact named
  · exact Option.isSome_iff_exists.mpr (good.linked taskId r' found)
  · rcases exec_owned io found owner with ⟨r, before, owned⟩ | has
    · refine grows.has _ (intact.tasks taskId r before _ (List.mem_cons_of_mem _ (List.mem_map.mpr ⟨w, ?_, rfl⟩)))
      exact Option.mem_toList.mpr owned
    · exact has
  · rcases exec_linked_by member with old | new
    · exact (intact.links r old).later grows
    · exact new ▸ cited.later grows
  · rcases exec_logged_by member with old | new
    · exact (intact.events e old).later grows
    · exact new ▸ cited.later grows

/-! ## What handlers name -/

/-- Calls name only what is stored. -/
def citing (P : Platform) : Discipline (machine P) where
  inv s := Sound s ∧ s.live.Intact
  moves s t := Grows s.live t.live
  due s c := c.op.routed = true ∧ s.live.HasAll c.op.cites
  refl _ := ⟨fun _ has => has, fun _ _ found => found⟩
  trans := Grows.trans
  kept inv fresh due := ⟨⟨(exec_sound (P := P) due.1 fresh inv.1).1, exec_intact (P := P) due.1 fresh inv.1 inv.2 due.2⟩,
    exec_grows (P := P) due.1 fresh inv.1⟩

section
variable {α : Type} {Q : α → Session Db → Prop} {site : Site}

/-- A call that is due, with what is known of its answer. -/
theorem perform_keeps {D : Discipline (machine P)} {Q : op.Ret → Session Db → Prop}
    (due : ∀ s' io, D.moves s s' → D.inv s' → Fresh io s'.live op → D.due s' ⟨site, op⟩)
    (answered : ∀ s' io value t, D.moves s s' → D.inv s' → Fresh io s'.live op →
      op.exec P io s' = (.ok value, t) → D.moves s' t → Q value t) : D.Keeps Q (perform site op) s := by
  refine .call fun s' io moved inv fresh => ⟨due s' io moved inv fresh, fun moves => ?_⟩
  simp only [machine] at moves ⊢
  rcases ran : op.exec P io s' with ⟨error | value, t⟩
  · exact .raise _
  · rw [ran] at moves
    exact .ret (answered s' io value t moved inv fresh ran moves)

/-- A call whose names were seen before, with what is known of its answer. -/
theorem cites_call {Q : op.Ret → Session Db → Prop} (routed : op.routed = true) (cited : s.live.HasAll op.cites)
    (answered : ∀ s' io value t, Grows s.live s'.live → Sound s' → s'.live.Intact → Fresh io s'.live op →
      op.exec P io s' = (.ok value, t) → Grows s'.live t.live → Q value t) :
    (citing P).Keeps Q (perform site op) s :=
  perform_keeps (fun _ _ moved _ _ => ⟨routed, cited.later moved⟩)
    fun s' io value t moved inv => answered s' io value t moved inv.1 inv.2

/-- A call that names nothing. -/
theorem cites_plain {Q : op.Ret → Session Db → Prop} (routed : op.routed = true) (plain : op.cites = [])
    (answered : ∀ s' io value t, Grows s.live s'.live → Sound s' → s'.live.Intact → Fresh io s'.live op →
      op.exec P io s' = (.ok value, t) → Grows s'.live t.live → Q value t) :
    (citing P).Keeps Q (perform site op) s :=
  cites_call routed (fun _ member => by rw [plain] at member; cases member) answered

/-- A call that names nothing, whatever its answer. -/
theorem cites_quiet (routed : op.routed = true) (plain : op.cites = []) :
    (citing P).Keeps (fun _ _ => True) (perform site op) s :=
  cites_plain routed plain fun _ _ _ _ _ _ _ _ _ _ => trivial

theorem cites_emit {event : NewEvent} (cited : s.live.HasAll event.cites) :
    (citing P).Keeps (fun _ _ => True) (emit site event) s :=
  (cites_call rfl cited fun _ _ _ _ _ _ _ _ _ _ => trivial).bind fun _ _ _ _ => .ret trivial

theorem cites_reads {p : Prog α} (reads : Calls DbOp.reads p) : (citing P).Keeps (fun _ _ => True) p s := by
  induction p generalizing s with
  | ret value => exact .ret trivial
  | raise error => exact .raise _
  | call c next ih =>
    refine .call fun s' io _ _ _ => ⟨⟨finalizes_routed "" _ (reads_finalizes _ reads.1), fun _ member => ?_⟩, fun _ => ih _ (reads.2 _)⟩
    obtain ⟨site, op⟩ := c
    obtain ⟨here, _⟩ := reads
    cases op <;> contradiction

end

/-- A row that was read, with the rows it names. -/
def Db.HasRow (db : Db) (row : TaskRow) : Prop := db.HasAll (.task row.jobId row.id :: row.cites)

theorem Db.Intact.row (intact : db.Intact) {row : TaskRow} (found : db.tasks.get taskId = some row) :
    db.HasRow row := by
  obtain rfl : row.id = taskId := Table.get_key found
  intro c member
  rcases List.mem_cons.mp member with rfl | later
  · exact ⟨row, found, rfl⟩
  · exact intact.tasks row.id row found c later

theorem Db.HasRow.owner {row : TaskRow} (known : db.HasRow row) {w : WorkerId} (owner : row.workerId = some w) :
    db.Has (.worker w) :=
  known _ (List.mem_cons_of_mem _ (List.mem_cons_of_mem _ (List.mem_map.mpr ⟨w, Option.mem_toList.mpr owner, rfl⟩)))

/-- What an event about a task names. -/
theorem Db.HasRow.event {row : TaskRow} (known : db.HasRow row) {workerId : Option WorkerId}
    (worker : ∀ w, workerId = some w → db.Has (.worker w)) :
    db.HasAll (columnCites (some row.jobId) (some row.id) workerId) := by
  refine columnCites_all (fun j same => ?_) (fun u same => ?_) worker
  · cases same
    exact known _ (List.mem_cons_of_mem _ List.mem_cons_self)
  · cases same
    exact known _ List.mem_cons_self

theorem job_event (job : db.Has (.job jobId)) : db.HasAll (columnCites (some jobId) none none) :=
  columnCites_all (fun _ same => Option.some.inj same ▸ job) (by rintro _ ⟨⟩) (by rintro _ ⟨⟩)

theorem worker_event {w : WorkerId} (worker : db.Has (.worker w)) : db.HasAll (columnCites none none (some w)) :=
  columnCites_all (by rintro _ ⟨⟩) (by rintro _ ⟨⟩) (fun _ same => Option.some.inj same ▸ worker)

/-- What is listed for a job joins its tasks with artifacts. -/
theorem links_cited (intact : db.Intact) {a : LinkedArtifact} (member : a ∈ db.links jobId) :
    db.HasAll [.task jobId a.taskId, .artifact a.artifact.id] ∧ db.artifacts.get a.artifact.id = some a.artifact := by
  obtain ⟨link, there, made⟩ := List.mem_filterMap.mp member
  split at made
  · rename_i job
    obtain ⟨artifact, held, rfl⟩ := Option.map_eq_some_iff.mp made
    have key : artifact.id = link.artifactId := Table.get_key held
    have cited := intact.links link there
    unfold JobArtifactRow.cites at cited
    rw [job, ← key] at cited
    exact ⟨cited, key ▸ held⟩
  · contradiction

theorem bestModel_cited (intact : db.Intact) {artifacts : List LinkedArtifact} (lists : artifacts.Perm (db.links jobId))
    {x : ArtifactId} (best : bestModel taskId artifacts = some x) : db.HasAll [.task jobId taskId, .artifact x] := by
  obtain ⟨a, search, rfl⟩ := Option.map_eq_some_iff.mp best
  have passes := List.find?_some search
  simp only [Bool.and_eq_true, decide_eq_true_eq] at passes
  exact passes.1 ▸ (links_cited intact (lists.mem_iff.mp (List.mem_of_find?_eq_some search))).1

theorem buildAggregate_cites (site : Site) (jobId : JobId) (s : Session Db) :
    (citing P).Keeps (fun built t => ∀ x, built.2.2 = some x →
      ∃ u, built.2.1 = some u ∧ t.live.HasAll [.task jobId u, .artifact x]) (buildAggregate P site jobId) s := by
  unfold buildAggregate
  refine (cites_quiet rfl rfl).bind fun found t _ _ => ?_
  cases found with
  | none => exact .raise _
  | some row =>
    dsimp only
    cases P.reloadRequest row.request with
    | error error => exact .raise _
    | ok req =>
      simp only [liftAt_ok]
      refine (cites_quiet rfl rfl).bind fun tasks t _ _ => ?_
      cases P.tally req tasks with
      | error error => exact .raise _
      | ok agg =>
        rw [liftAt_ok]
        cases agg.bestTaskId with
        | none => exact .ret (by rintro _ ⟨⟩)
        | some taskId =>
          dsimp only
          refine (cites_plain (Q := fun artifacts t => ∀ x, bestModel taskId artifacts = some x →
            t.live.HasAll [.task jobId taskId, .artifact x]) rfl rfl ?_).bind fun artifacts t _ listed => ?_
          · intro s' io artifacts t _ _ intact _ ran grows x best
            cases ran
            exact bestModel_cited intact (io.lists _) best
          · exact .ret fun x best => ⟨taskId, rfl, listed x best⟩

theorem settleIfTerminal_cites (before : JobStatus) (n : Nat) (job : s.live.Has (.job jobId)) :
    (citing P).Keeps (fun _ _ => True) (settleIfTerminal jobId before n) s := by
  unfold settleIfTerminal
  refine (cites_quiet rfl rfl).bind fun tasks t moved _ => ?_
  split
  · refine (cites_quiet rfl rfl).bind fun fresh u later _ => ?_
    refine Discipline.Keeps.bind (Q := fun _ _ => True) ?_ fun settled v latest _ => ?_
    · exact cites_quiet (by exact finalStatus_terminal _ _) rfl
    split
    · exact cites_emit (job_event (((moved.trans later).trans latest).has _ job))
    · exact .ret trivial
  · exact .ret trivial

theorem finalizeJob_cites (jobId : JobId) (s : Session Db) :
    (citing P).Keeps (fun _ _ => True) (finalizeJob P jobId) s := by
  unfold finalizeJob
  refine (cites_plain (Q := fun found t => ∀ row, found = some row → t.live.Has (.job jobId)) rfl rfl ?_).bind
    fun found t _ held => ?_
  · intro s' io found t _ _ _ _ ran _ row here
    cases ran
    exact Option.isSome_iff_exists.mpr ⟨row, here⟩
  · cases found with
    | none => exact .ret trivial
    | some row =>
      have job := held row rfl
      refine (buildAggregate_cites .finalize jobId t).bind fun ⟨agg, best, artifact⟩ u moved picked => ?_
      refine (cites_quiet rfl rfl).bind fun _ v stored _ => ?_
      refine (cites_quiet rfl rfl).bind fun _ w cleared _ => ?_
      have since : Grows u.live w.live := Grows.trans stored cleared
      refine Discipline.Keeps.bind (Q := fun _ _ => True) ?_ fun _ x linked _ =>
        settleIfTerminal_cites _ _ (((moved.trans since).trans linked).has _ job)
      unfold linkBestModel
      split
      · rename_i there
        cases artifact with
        | none => cases there
        | some x =>
          obtain ⟨taskId, rfl, cited⟩ := picked x rfl
          exact cites_call rfl (cited.later since) fun _ _ _ _ _ _ _ _ _ _ => trivial
      · exact .ret trivial

section
variable {α : Type} {Q : α → Session Db → Prop}

theorem replyJob_cites (jobId : JobId) : (citing P).Keeps (fun _ _ => True) (Route.replyJob P jobId) s :=
  cites_reads (replyJob_calls jobId)

theorem requireWorkerPrincipal_cites (workerId : WorkerId) (principal : Principal) :
    (citing P).Keeps (fun _ t => t.live.Has (.worker workerId)) (Route.requireWorkerPrincipal workerId principal) s := by
  unfold Route.requireWorkerPrincipal
  refine (cites_plain (Q := fun found t => ∀ row, found = some row → t.live.Has (.worker workerId)) rfl rfl ?_).bind
    fun found t _ held => ?_
  · intro s' io found t _ _ _ _ ran _ row here
    cases ran
    exact Option.isSome_iff_exists.mpr ⟨row, here⟩
  · cases found with
    | none => exact .raise _
    | some row =>
      dsimp only
      split
      · exact .ret (held row rfl)
      · split
        · exact .raise _
        · exact .ret (held row rfl)

theorem requireTaskWorkerPrincipal_cites (taskId : TaskId) (principal : Principal) :
    (citing P).Keeps (fun row t => row.id = taskId ∧ t.live.HasRow row)
      (Route.requireTaskWorkerPrincipal taskId principal) s := by
  unfold Route.requireTaskWorkerPrincipal
  refine (cites_plain (Q := fun found t => ∀ row, found = some row → row.id = taskId ∧ t.live.HasRow row) rfl rfl
    ?_).bind fun found t _ held => ?_
  · intro s' io found t _ _ intact _ ran _ row here
    cases ran
    exact ⟨Table.get_key here, intact.row here⟩
  · cases found with
    | none => exact .raise _
    | some row =>
      dsimp only
      split
      · exact .raise _
      · refine (requireWorkerPrincipal_cites _ _).bind fun _ u moved _ => .ret ?_
        exact ⟨(held row rfl).1, (held row rfl).2.later moved⟩

theorem requireTaskReporter_cites (taskId : TaskId) (workerId : WorkerId) (principal : Principal) :
    (citing P).Keeps (fun row t => row.id = taskId ∧ t.live.HasRow row ∧ row.workerId = some workerId)
      (Route.requireTaskReporter taskId workerId principal) s := by
  unfold Route.requireTaskReporter
  refine (requireTaskWorkerPrincipal_cites _ _).bind fun row t _ known => ?_
  split
  · exact .raise _
  · rename_i owner
    exact .ret ⟨known.1, known.2, Decidable.not_not.mp owner⟩

end

theorem submitLost_cites (req : JobRequest) : (citing P).Keeps (fun _ _ => True) (Route.submitLost P req) s := by
  unfold Route.submitLost
  split
  · refine (cites_quiet rfl rfl).bind fun found t _ _ => ?_
    cases found with
    | none => exact .raise _
    | some existing => exact replyJob_cites _
  · exact .raise _

theorem submitInsert_cites (req : JobRequest) (owner : String) :
    (citing P).Keeps (fun _ _ => True) (Route.submitInsert P req owner) s := by
  refine .call fun s' io _ _ fresh => ⟨⟨rfl, by rintro _ ⟨⟩⟩, fun _ => ?_⟩
  have fresh : Fresh io s'.live (.createJobWithTasks req (some owner)) := fresh
  have run : (machine P).exec io ⟨.route, .createJobWithTasks req (some owner)⟩ s' =
    createJobWithTasks P io req (some owner) s' := rfl
  rw [run]
  rcases createJobWithTasks_cases (P := P) fresh with ⟨db, created, _, _, _, ran⟩ | ⟨_, ran⟩ | ⟨_, raised, ran⟩
  · rw [ran]
    refine (cites_emit (job_event ?_)).bind fun _ t _ _ => replyJob_cites _
    exact Option.isSome_iff_exists.mpr ⟨_, by rw [Session.settled, created.get_job, if_pos rfl]⟩
  · rw [ran]
    exact submitLost_cites req
  · rw [ran]
    dsimp only
    split
    · contradiction
    · exact submitLost_cites req
    · exact .raise _

theorem submitJob_cites (req : JobRequest) (principal : Principal) :
    (citing P).Keeps (fun _ _ => True) (Route.submitJob P config req principal) s := by
  unfold Route.submitJob
  split
  · exact .raise _
  · dsimp only
    split
    · refine (cites_quiet rfl rfl).bind fun found t _ _ => ?_
      cases found with
      | none => exact submitInsert_cites _ _
      | some existing => exact replyJob_cites _
    · exact submitInsert_cites _ _

theorem cancelJob_cites (jobId : JobId) : (citing P).Keeps (fun _ _ => True) (Route.cancelJob P jobId) s := by
  unfold Route.cancelJob
  refine (cites_plain (Q := fun found t => ∀ row, found = some row → t.live.Has (.job jobId)) rfl rfl ?_).bind
    fun found t _ held => ?_
  · intro s' io found t _ _ _ _ ran _ row here
    cases ran
    exact Option.isSome_iff_exists.mpr ⟨row, here⟩
  · cases found with
    | none => exact .raise _
    | some row =>
      dsimp only
      split
      · exact replyJob_cites _
      · refine (cites_quiet rfl rfl).bind fun running u stopped _ => ?_
        unfold Route.markCancelled Route.cancelRequested
        refine Discipline.Keeps.bind (Q := fun _ _ => True) ?_ fun _ v marked _ => ?_
        · refine cites_quiet ?_ rfl
          cases running <;> rfl
        · refine (cites_emit (job_event ((stopped.trans marked).has _ (held row rfl)))).bind fun _ w _ _ => ?_
          exact (finalizeJob_cites _ _).bind fun _ _ _ _ => replyJob_cites _

theorem registerWorker_cites (reg : WorkerRegister) (principal : Principal) :
    (citing P).Keeps (fun _ _ => True) (Route.registerWorker reg principal) s := by
  unfold Route.registerWorker
  refine (cites_plain (Q := fun w t => t.live.Has (.worker w)) rfl rfl ?_).bind fun w t _ held => ?_
  · intro s' io w t _ _ _ _ ran _
    have ran : registerWorker io reg (some principal.name) s' = (.ok w, t) := ran
    rcases registerWorker_cases io s' reg (some principal.name) with ⟨workers, inserted, ran'⟩ | ⟨error, ran'⟩
    · cases ran.symm.trans ran'
      refine Option.isSome_iff_exists.mpr ⟨workerRowOf io reg (some principal.name), ?_⟩
      change workers.get _ = _
      rw [Table.get_insert inserted]
      exact if_pos rfl
    · cases ran.symm.trans ran'
  · exact (cites_emit (worker_event held)).bind fun _ _ _ _ => .ret trivial

theorem cancelIds_cites (taskIds : List TaskId) : (citing P).Keeps (fun _ _ => True) (Route.cancelIds taskIds) s := by
  induction taskIds generalizing s with
  | nil => exact .ret trivial
  | cons taskId rest ih =>
    refine (cites_quiet rfl rfl).bind fun found t _ _ => ?_
    cases found with
    | none => exact ih
    | some task => exact (cites_quiet rfl rfl).bind fun _ _ _ _ => ih.bind fun _ _ _ _ => .ret trivial

theorem heartbeat_cites (workerId : WorkerId) (principal : Principal) :
    (citing P).Keeps (fun _ _ => True) (Route.heartbeat config workerId principal) s := by
  unfold Route.heartbeat
  refine (requireWorkerPrincipal_cites _ _).bind fun _ t _ _ => (cites_quiet rfl rfl).bind fun found u _ _ => ?_
  split
  · exact (cites_quiet rfl rfl).bind fun taskIds v _ _ => (cancelIds_cites taskIds).bind fun _ _ _ _ => .ret trivial
  · exact .raise _

theorem lease_cites (workerId : WorkerId) (principal : Principal) :
    (citing P).Keeps (fun _ _ => True) (Route.lease config workerId principal) s := by
  unfold Route.lease
  refine (requireWorkerPrincipal_cites _ _).bind fun _ t _ worker => ?_
  refine (cites_plain (Q := fun leased t => ∀ payload, leased = some payload →
    t.live.Has (.task payload.jobId payload.taskId) ∧ t.live.Has (.job payload.jobId)) rfl rfl ?_).bind
    fun leased u moved held => ?_
  · intro s' io leased t _ sound intact _ ran grows payload here
    subst here
    have ran : leaseNextTask P io workerId config.leaseTtlS s' = (.ok (some payload), t) := ran
    rcases leaseNextTask_cases (P := P) io s' workerId config.leaseTtlS with
      ⟨worker, task, leased, leasable, read, ran'⟩ | ran' | ⟨error, ran'⟩
    · cases ran.symm.trans ran'
      obtain ⟨taskId, jobId, _⟩ := payload_fields read
      have known := (intact.row leasable.present).later grows
      rw [taskId, jobId]
      exact ⟨known _ List.mem_cons_self, known _ (List.mem_cons_of_mem _ List.mem_cons_self)⟩
    · cases ran.symm.trans ran'
    · cases ran.symm.trans ran'
  · cases leased with
    | none => exact .ret trivial
    | some payload =>
      obtain ⟨task, job⟩ := held payload rfl
      refine (cites_emit (columnCites_all ?_ ?_ ?_)).bind fun _ _ _ _ => .ret trivial
      · rintro _ ⟨⟩
        exact job
      · rintro _ ⟨⟩
        exact task
      · rintro _ ⟨⟩
        exact moved.has _ worker

theorem startTask_cites (taskId : TaskId) (workerId : WorkerId) (principal : Principal) :
    (citing P).Keeps (fun _ _ => True) (Route.startTask taskId workerId principal) s := by
  unfold Route.startTask
  refine (requireWorkerPrincipal_cites _ _).bind fun _ t _ worker => ?_
  refine Discipline.Keeps.bind (Q := fun row t => row.id = taskId ∧ t.live.HasRow row) (.handle ?_ fun fault u _ => ?_)
    fun row u moved known => ?_
  · refine cites_plain rfl rfl fun s' io row t _ _ intact _ ran grows => ?_
    have ran : startTask io taskId workerId s' = (.ok row, t) := ran
    rcases startTask_cases io s' taskId workerId with ⟨r, found, _, _, ran'⟩ | ⟨error, ran'⟩
    · cases ran.symm.trans ran'
      exact ⟨Table.get_key found, (intact.row found).later grows⟩
    · cases ran.symm.trans ran'
  · unfold Route.startFailed
    split <;> exact .raise _
  · have cited : u.live.HasAll (columnCites (some row.jobId) (some row.id) (some workerId)) :=
      known.2.event fun w same => Option.some.inj same ▸ moved.has _ worker
    exact (cites_emit (known.1 ▸ cited)).bind fun _ _ _ _ => .ret trivial

theorem taskEvent_cites (taskId : TaskId) (event : TaskEvent) (principal : Principal) :
    (citing P).Keeps (fun _ _ => True) (Route.taskEvent taskId event principal) s := by
  unfold Route.taskEvent
  refine (requireTaskWorkerPrincipal_cites _ _).bind fun row t _ known => ?_
  obtain ⟨rfl, known⟩ := known
  exact (cites_emit (known.event fun w same => known.owner same)).bind fun _ _ _ _ => .ret trivial

theorem uploadInput_cites (upload : Option NewArtifact) :
    (citing P).Keeps (fun _ _ => True) (Route.uploadInput upload) s := by
  cases upload with
  | none => exact .raise _
  | some artifact => exact (cites_quiet rfl rfl).bind fun _ _ _ _ => .ret trivial

theorem uploadArtifact_cites (taskId : TaskId) (role : String) (upload : Option NewArtifact) (principal : Principal) :
    (citing P).Keeps (fun _ _ => True) (Route.uploadArtifact taskId role upload principal) s := by
  unfold Route.uploadArtifact
  refine (requireTaskWorkerPrincipal_cites _ _).bind fun row t _ known => ?_
  obtain ⟨rfl, known⟩ := known
  cases upload with
  | none => exact .raise _
  | some artifact =>
    refine (cites_plain (Q := fun x t => t.live.Has (.artifact x)) rfl rfl ?_).bind fun x u moved stored => ?_
    · intro s' io x t _ _ _ _ ran _
      exact addArtifact_stored ran
    · refine (cites_call rfl (fun c member => ?_) fun _ _ _ _ _ _ _ _ _ _ => trivial).bind
        (Q := fun _ _ => True) fun _ _ _ _ => .ret trivial
      rcases List.mem_cons.mp member with rfl | later
      · exact moved.has _ (known _ List.mem_cons_self)
      · rw [List.mem_singleton.mp later]
        exact stored

section
variable {row : TaskRow} {workerId : WorkerId}

theorem reporter_event (known : s.live.HasRow row) (owner : row.workerId = some workerId) :
    s.live.HasAll (columnCites (some row.jobId) (some row.id) (some workerId)) :=
  known.event fun _ same => known.owner (owner.trans same)

theorem stopTask_cites (message : String) (brought : List String) (known : s.live.HasRow row) (owner : row.workerId = some workerId) :
    (citing P).Keeps (fun _ _ => True) (Route.stopTask P row workerId message brought) s := by
  refine (cites_quiet rfl rfl).bind fun _ t moved _ => ?_
  exact (cites_emit (reporter_event (known.later moved) owner)).bind fun _ _ _ _ => finalizeJob_cites _ _

theorem completeTask_cites (taskId : TaskId) (result : TaskResult) (workerId : WorkerId) (principal : Principal) :
    (citing P).Keeps (fun _ _ => True) (Route.completeTask P taskId result workerId principal) s := by
  unfold Route.completeTask
  refine (requireTaskReporter_cites _ _ _).bind fun row t _ known => ?_
  obtain ⟨_, known, owner⟩ := known
  refine Discipline.Keeps.bind (Q := fun _ _ => True) ?_ fun _ _ _ _ => .ret trivial
  refine (cites_quiet rfl rfl).bind fun job u moved _ => ?_
  split
  · exact stopTask_cites _ _ (known.later moved) owner
  · refine Discipline.Keeps.bind (Q := fun _ _ => True) (.handle (cites_quiet rfl rfl) fun fault _ _ => ?_)
      fun _ v completed _ => ?_
    · unfold Route.completeFailed
      split <;> exact .raise _
    · have known : v.live.HasRow row := (known.later moved).later completed
      refine Discipline.Keeps.bind (Q := fun _ _ => True) ?_ fun _ w noted _ => ?_
      · unfold Route.noteMismatch
        split
        · exact cites_emit (reporter_event known owner)
        · exact .ret trivial
      · exact (cites_emit (reporter_event (known.later noted) owner)).bind fun _ _ _ _ => finalizeJob_cites _ _

theorem failTask_cites (taskId : TaskId) (failure : TaskFailure) (workerId : WorkerId) (principal : Principal) :
    (citing P).Keeps (fun _ _ => True) (Route.failTask P taskId failure workerId principal) s := by
  unfold Route.failTask
  refine (requireTaskReporter_cites _ _ _).bind fun row t _ known => ?_
  obtain ⟨_, known, owner⟩ := known
  refine (cites_quiet rfl rfl).bind fun job u moved _ => ?_
  split
  · exact (stopTask_cites _ _ (known.later moved) owner).bind fun _ _ _ _ => .ret trivial
  · refine .call fun s' io later _ _ => ⟨⟨rfl, by rintro _ ⟨⟩⟩, fun failed => ?_⟩
    split
    · have known := ((known.later moved).later later).later failed
      refine (cites_emit (reporter_event known owner)).bind fun _ _ _ _ => ?_
      exact (finalizeJob_cites _ _).bind fun _ _ _ _ => .ret trivial
    · exact .ret trivial
    · exact .raise _

end

/-- Both reapers return tasks with their jobs. -/
theorem reaped_cited {error : String} {rows : List (TaskRow × JobStatus)} {lost : List (TaskId × JobId)}
    (intact : s.live.Intact) (listed : s.live.Lost rows) (ran : reapRows io error rows s = (.ok lost, t))
    (grows : Grows s.live t.live) : ∀ item ∈ lost, t.live.HasAll (columnCites (some item.2) (some item.1) none) := by
  rw [reapRows_ok listed error] at ran
  obtain ⟨same, _⟩ := Prod.mk.inj ran
  intro item member
  obtain ⟨row, there, rfl⟩ := List.mem_map.mp (Except.ok.inj same ▸ member)
  have known : t.live.HasRow row.1 := (intact.row (listed.found row there)).later grows
  exact known.event (by rintro _ ⟨⟩)

theorem announce_cites {cause : String} {lost : List (TaskId × JobId)}
    (cited : ∀ item ∈ lost, s.live.HasAll (columnCites (some item.2) (some item.1) none)) :
    (citing P).Keeps (fun _ _ => True) (Program.forEach lost fun task => emit .route (taskLostEvent cause task)) s :=
  .forEach fun item member _ moved => cites_emit ((cited item member).later moved)

theorem reap_cites (order : SetOrder) : (citing P).Keeps (fun _ _ => True) (reap P config order) s := by
  unfold reap
  refine (cites_plain (Q := fun dead t => ∀ w ∈ dead, t.live.Has (.worker w)) rfl rfl ?_).bind fun dead t _ seen => ?_
  · intro s' io dead t _ _ _ _ ran grows w member
    obtain ⟨ids, ran', chosen, _⟩ := markDeadWorkers_cases io s' config.workerDeadAfterS
    have same : ids = dead := Except.ok.inj (ran'.symm.trans (congrArg Prod.fst ran))
    obtain ⟨row, found, _⟩ := (chosen w).mp (same ▸ member)
    exact grows.has (.worker w) (Option.isSome_iff_exists.mpr ⟨row, found⟩)
  refine Discipline.Keeps.bind (Q := fun _ _ => True)
    (.forEach fun w member _ moved => cites_emit (worker_event (moved.has _ (seen w member)))) fun _ u _ _ => ?_
  refine (cites_plain (Q := fun lost t => ∀ item ∈ lost, t.live.HasAll (columnCites (some item.2) (some item.1) none))
    rfl rfl ?_).bind fun lost v _ cited => ?_
  · intro s' io lost t _ _ intact _ ran grows
    obtain ⟨rows, listed, ran'⟩ := reapTasksForWorkers_rows io s' dead "worker lost"
    exact reaped_cited intact listed (ran'.symm.trans ran) grows
  unfold reapLeases
  refine (announce_cites cited).bind fun _ w _ _ => ?_
  refine (cites_plain (Q := fun lost t => ∀ item ∈ lost, t.live.HasAll (columnCites (some item.2) (some item.1) none))
    rfl rfl ?_).bind fun affected x _ cited => ?_
  · intro s' io lost t _ _ intact _ ran grows
    obtain ⟨rows, listed, ran'⟩ := reapExpiredLeases_rows io s'
    exact reaped_cited intact listed (ran'.symm.trans ran) grows
  unfold finalizeReaped
  exact (announce_cites cited).bind fun _ _ _ _ => .forEach fun jobId _ _ _ => finalizeJob_cites jobId _

theorem reaperTick_cites (order : SetOrder) : (citing P).Keeps (fun _ _ => True) (reaperTick P config order) s := by
  refine Discipline.Keeps.bind (Q := fun _ _ => True) (.handle (reap_cites order) fun fault _ _ => ?_) fun _ _ _ _ =>
    .ret trivial
  exact cites_emit (columnCites_all (by rintro _ ⟨⟩) (by rintro _ ⟨⟩) (by rintro _ ⟨⟩))

theorem handler_cites (request : Request) (s : Session Db) :
    (citing P).Keeps (fun _ _ => True) (handler P config request) s := by
  cases request with
  | submitJob req principal => exact submitJob_cites req principal
  | cancelJob jobId => exact cancelJob_cites jobId
  | registerWorker reg principal => exact registerWorker_cites reg principal
  | heartbeat workerId principal => exact heartbeat_cites workerId principal
  | lease workerId principal => exact lease_cites workerId principal
  | startTask taskId workerId principal => exact startTask_cites taskId workerId principal
  | taskEvent taskId event principal => exact taskEvent_cites taskId event principal
  | uploadInput upload => exact uploadInput_cites upload
  | uploadArtifact taskId role upload principal => exact uploadArtifact_cites taskId role upload principal
  | completeTask _ taskId result workerId principal => exact completeTask_cites taskId result workerId principal
  | failTask _ taskId failure workerId principal => exact failTask_cites taskId failure workerId principal
  | reaperTick order => exact reaperTick_cites order

/-! ## Runs -/

theorem citing_governs (P : Platform) (config : ServerConfig) :
    Discipline.Governs (S := server P config) (citing P) where
  serves p request _ _ := handler_cites request p.store
  recovers s inv := by
    have same : (server P config).recover s = s := by
      rw [inv.1.settled]
      rfl
    exact same.symm ▸ ⟨inv, (citing P).refl s⟩

theorem started_governed : Discipline.Governed (S := server P config) (citing P) started := by
  refine ⟨⟨started_sound, ?_⟩, fun _ member => by cases member⟩
  refine ⟨fun taskId r found => ?_, fun taskId r found => ?_, fun r member => ?_, fun e member => ?_⟩
  · simp [started, Session.settled] at found
  · simp [started, Session.settled] at found
  · cases member
  · cases member

variable {p q : ServerPool}

/-- In whatever order calls of requests, of reapers and of restarted servers interleave, no row
ever names a job, task, worker or artifact that is not stored. -/
theorem references_intact (run : System.Reaches (server P config) (server P config).Lawful started p) :
    p.store.live.Intact :=
  ((citing_governs P config).reaches started_governed run).1.1.2

/-- A model uploaded for a running task, the task's success and a restart. -/
def filedTurns : List Turn :=
  runningTurns ++
  [.spawn (.uploadArtifact "task_1" "model" (some ⟨"", "blob", "objects/m", 1, some "m.n4a"⟩) {})] ++ turns 4 4 5 ++
  [.spawn (.completeTask 1 "task_1" { metrics := { bestRmse := some (.fin 1) } } "worker_0" {})] ++ turns 5 16 6

theorem references_intact_filed : ∃ p, System.Reaches (server .plain {}) (server .plain {}).Lawful started p ∧
    p.store.live.jobArtifacts.rows.map JobArtifactRow.cites =
      [[.task "job_0" "task_1", .artifact "art_0"], [.task "job_0" "task_1", .artifact "art_0"]] ∧
    p.store.live.events.length = 6 ∧ p.store.live.Intact := by
  have played : ((server .plain {}).play (server .plain {}).Lawful filedTurns started).any
      (fun p => decide ((p.store.live.jobArtifacts.rows.map fun r => (r.jobId, r.taskId, r.artifactId)) =
        [("job_0", "task_1", "art_0"), ("job_0", "task_1", "art_0")]) &&
        decide (p.store.live.events.length = 6)) = true := by decide +kernel
  obtain ⟨p, run, facts⟩ := System.play_any played
  obtain ⟨links, events⟩ := Bool.and_eq_true_iff.mp facts
  refine ⟨p, run, ?_, of_decide_eq_true events, references_intact run⟩
  have cites := congrArg (List.map fun r : JobId × TaskId × ArtifactId =>
    [Citation.task r.1 r.2.1, Citation.artifact r.2.2]) (of_decide_eq_true links)
  rwa [List.map_map] at cites

structure FileResponse where
  path : String
  filename : String
  mediaType : String := "application/octet-stream"

/-- `download_artifact`. -/
def Db.downloadArtifact (db : Db) (artifactId : ArtifactId) : Except PyErr FileResponse :=
  match db.artifacts.get artifactId with
  | none => .error (.http 404 "artifact not found")
  | some row => .ok
    { path := row.path
      filename := if truthy row.filename then row.filename.getD "" else artifactId ++ ".bin" }

/-- What is listed for a job at any time can be downloaded ever after, the same file under the
same name, and belongs to a task of that job that is stored. -/
theorem listed_downloadable (run : System.Reaches (server P config) (server P config).Lawful started p)
    (later : System.Reaches (server P config) (server P config).Lawful p q) (io : Io) {art : ListedArtifact}
    (member : art ∈ jobListing (io.listing (p.store.live.links jobId))) :
    ∃ a taskId r, p.store.live.artifacts.get art.id = some a ∧ art.filename = a.filename ∧
      q.store.live.downloadArtifact art.id =
        .ok { path := a.path, filename := if truthy a.filename then a.filename.getD "" else art.id ++ ".bin" } ∧
      art.taskId = some taskId ∧ q.store.live.tasks.get taskId = some r ∧ r.jobId = jobId := by
  obtain ⟨governed, _⟩ := (citing_governs P config).reaches started_governed run
  have grows : Grows p.store.live q.store.live := ((citing_governs P config).reaches governed later).2
  have intact := governed.1.2
  obtain ⟨row, listed, rfl⟩ := List.mem_map.mp member
  obtain ⟨cited, stored⟩ := links_cited intact ((io.lists _).mem_iff.mp listed)
  obtain ⟨r, found, job⟩ := grows.has _ (cited _ List.mem_cons_self)
  obtain ⟨r₀, before, _⟩ := cited _ List.mem_cons_self
  refine ⟨row.artifact, row.taskId, r, stored, rfl, ?_, if_neg (intact.named _ r₀ before), found, job⟩
  rw [Db.downloadArtifact, grows.artifact _ _ stored]

theorem listed_downloadable_filed : ∃ (p q : ServerPool) (art : ListedArtifact),
    System.Reaches (server .plain {}) (server .plain {}).Lawful started p ∧
    art ∈ jobListing (p.store.live.links "job_0") ∧ art.id = "art_0" ∧
    q.store.live.downloadArtifact "art_0" = .ok { path := "objects/m", filename := "m.n4a" } := by
  have played : ((server .plain {}).play (server .plain {}).Lawful filedTurns started).any
      (fun p => (jobListing (p.store.live.links "job_0")).any fun art => decide (art.id = "art_0") &&
        (p.store.live.artifacts.get "art_0").any fun a =>
          decide (a.path = "objects/m") && decide (a.filename = some "m.n4a")) = true := by decide +kernel
  obtain ⟨p, run, facts⟩ := System.play_any played
  obtain ⟨art, member, facts⟩ := List.any_eq_true.mp facts
  obtain ⟨here, facts⟩ := Bool.and_eq_true_iff.mp facts
  obtain ⟨a, found, facts⟩ := (Option.any_eq_true _ _).mp facts
  obtain ⟨path, filename⟩ := Bool.and_eq_true_iff.mp facts
  have restart : System.Reaches (server .plain {}) (server .plain {}).Lawful p ⟨Session.settled p.store.disk, []⟩ :=
    .next (l := .restart) trivial rfl (.refl _)
  obtain ⟨a', taskId, r, found', _, answers, _⟩ := listed_downloadable run restart { now := 0 } member
  have here := of_decide_eq_true here
  cases found.symm.trans (here ▸ found')
  refine ⟨p, ⟨.settled p.store.disk, []⟩, art, run, member, here, ?_⟩
  rw [← here, answers, of_decide_eq_true path, of_decide_eq_true filename]
  rfl

end N4Cluster
