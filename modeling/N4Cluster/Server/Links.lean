import N4Cluster.Server.Interleaving
import N4Cluster.Server.Parts
import N4Cluster.Server.Sides
import N4Cluster.Server.Standings

/-! The links of artifacts to tasks. Only an upload and a finalization write them; what a
finalization links as `best_model` is the model of a task that has succeeded. -/
namespace N4Cluster
open Relational Transactional Relation Interleave

variable {P : Platform} {config : ServerConfig}

/-- The calls that write artifacts or their links. -/
def DbOp.files : DbOp → Bool
  | .addArtifact _ | .linkJobArtifact _ _ _ _ | .clearJobArtifactRole _ _ => true
  | _ => false

theorem exec_unfiled {io : Io} {s : Session Db} {op : DbOp} (unfiled : op.files = false) :
    (op.after P io s).live.artifacts = s.live.artifacts ∧
      (op.after P io s).live.jobArtifacts = s.live.jobArtifacts := by
  cases aside : op.sides with
  | false =>
    have same : (op.after P io s).live.side = s.live.side := exec_side aside
    simp only [Db.side, Prod.mk.injEq] at same
    exact ⟨same.1, same.2.1⟩
  | true =>
    cases op with
    | addEvent event =>
      rcases addEvent_cases P io s event with ⟨_, ran⟩ | ⟨_, _, ran⟩ <;>
      · rw [DbOp.after, DbOp.exec, ran]
        exact ⟨rfl, rfl⟩
    | _ => contradiction

/-! ## Links of a store -/

/-- The artifact linked to a task as its model. -/
def Db.model (db : Db) (jobId : JobId) (taskId : TaskId) : Option ArtifactId :=
  (db.jobArtifacts.get (jobId, taskId, "model")).map JobArtifactRow.artifactId

/-- The links of a job, each with its artifact. -/
def Db.links (db : Db) (jobId : JobId) : List LinkedArtifact :=
  db.jobArtifacts.rows.filterMap fun r =>
    if r.jobId = jobId then (db.artifacts.get r.artifactId).map fun a => ⟨r.role, r.taskId, a⟩ else none

/-- A link joins a task with an artifact. -/
structure Db.Joins (db : Db) (jobId : JobId) (taskId : TaskId) (artifactId : ArtifactId) : Prop where
  task : ∃ r, db.tasks.get taskId = some r ∧ r.jobId = jobId
  artifact : (db.artifacts.get artifactId).isSome = true

structure Db.Attached (db : Db) : Prop where
  joins : ∀ r ∈ db.jobArtifacts.rows, db.Joins r.jobId r.taskId r.artifactId
  named : ∀ a ∈ db.artifacts.rows, a.id ≠ ""

/-- The artifact is the model of a task that has succeeded. -/
structure Db.Chosen (db : Db) (jobId : JobId) (taskId : TaskId) (artifactId : ArtifactId) : Prop where
  task : ∃ r, db.tasks.get taskId = some r ∧ r.jobId = jobId ∧ r.status = .succeeded
  model : db.model jobId taskId = some artifactId

/-- What a job links as its best model is the model of a task that has succeeded. -/
def Db.BestLinked (db : Db) : Prop :=
  ∀ r ∈ db.jobArtifacts.rows, r.role = "best_model" → db.Chosen r.jobId r.taskId r.artifactId

/-- How a store moves on: artifacts stay, and so do the models of tasks that have
succeeded. -/
structure Filed (db db' : Db) : Prop where
  evolves : Evolves db db'
  artifacts : ∀ a, (db.artifacts.get a).isSome = true → (db'.artifacts.get a).isSome = true
  models : ∀ jobId taskId r, db.tasks.get taskId = some r → r.status = .succeeded →
    db'.model jobId taskId = db.model jobId taskId

/-- An upload leaves the role of the best model alone, and gives a task that has succeeded
no other model. -/
def Careful (db : Db) (c : Call) : Prop :=
  c.site.finalizes = false → ∀ jobId taskId role artifactId,
    c.op = .linkJobArtifact jobId (some taskId) role artifactId → role ≠ "best_model" ∧
      (role = "model" → ∀ r, db.tasks.get taskId = some r → r.status = .succeeded →
        db.model jobId taskId = some artifactId)

/-- When a handler may write links. -/
structure Placed (db : Db) (c : Call) : Prop where
  routed : c.op.routed = true
  joins : ∀ jobId taskId role artifactId, c.op = .linkJobArtifact jobId taskId role artifactId →
    ∃ t, taskId = some t ∧ db.Joins jobId t artifactId
  chosen : c.site.finalizes = true → ∀ jobId taskId role artifactId,
    c.op = .linkJobArtifact jobId (some taskId) role artifactId → role = "best_model" ∧
      db.Chosen jobId taskId artifactId
  clears : ∀ jobId role, c.op = .clearJobArtifactRole jobId role → role = "best_model"

section
variable {a b c db db' : Db} {jobId : JobId} {taskId : TaskId} {x : ArtifactId}
  {io : Io} {s : Session Db} {site : Site} {op : DbOp}

theorem Filed.refl (db : Db) : Filed db db :=
  ⟨.refl db, fun _ found => found, fun _ _ _ _ _ => rfl⟩

theorem Filed.trans (first : Filed a b) (second : Filed b c) : Filed a c where
  evolves := first.evolves.trans second.evolves
  artifacts x found := second.artifacts x (first.artifacts x found)
  models jobId taskId r found succeeded := by
    obtain ⟨r', found', _, kept⟩ := first.evolves.task taskId r found
    have same : r' = r := kept (by rw [succeeded]; rfl)
    rw [second.models jobId taskId r' found' (same ▸ succeeded), first.models jobId taskId r found succeeded]

theorem Db.Joins.later (joins : db.Joins jobId taskId x) (filed : Filed db db') :
    db'.Joins jobId taskId x := by
  obtain ⟨⟨r, found, job⟩, artifact⟩ := joins
  obtain ⟨r', found', job', _⟩ := filed.evolves.task taskId r found
  exact ⟨⟨r', found', job'.trans job⟩, filed.artifacts x artifact⟩

theorem Db.Chosen.later (chosen : db.Chosen jobId taskId x) (filed : Filed db db') :
    db'.Chosen jobId taskId x := by
  obtain ⟨⟨r, found, job, succeeded⟩, model⟩ := chosen
  obtain ⟨r', found', _, kept⟩ := filed.evolves.task taskId r found
  obtain rfl : r' = r := kept (by rw [succeeded]; rfl)
  exact ⟨⟨r', found', job, succeeded⟩, (filed.models jobId taskId r' found succeeded).trans model⟩

/-- The calls that leave links alone. -/
theorem Placed.of_plain (routed : op.routed = true)
    (links : ∀ jobId taskId role x, op ≠ .linkJobArtifact jobId taskId role x)
    (clears : ∀ jobId role, op ≠ .clearJobArtifactRole jobId role) : Placed db ⟨site, op⟩ :=
  ⟨routed, fun _ _ _ _ here => False.elim (links _ _ _ _ here),
    fun _ _ _ _ _ here => False.elim (links _ _ _ _ here),
    fun _ _ here => False.elim (clears _ _ here)⟩

/-- Only an upload of bytes adds to the artifacts, under a name. -/
theorem exec_artifacts {a : ArtifactRow} (member : a ∈ (op.after P io s).live.artifacts.rows) :
    a ∈ s.live.artifacts.rows ∨ a.id ≠ "" := by
  cases files : op.files with
  | false => exact .inl ((exec_unfiled files).1 ▸ member)
  | true =>
    cases op with
    | linkJobArtifact | clearJobArtifactRole => exact .inl member
    | addArtifact artifact =>
      simp only [DbOp.after, DbOp.exec, addArtifact, Txn.bind_run, Txn.live_run] at member
      cases inserted : s.live.artifacts.insert ⟨genId "art" (io.uuid 0), artifact.sha256, artifact.kind,
          artifact.path, artifact.sizeBytes, artifact.filename, io.now⟩ with
      | none =>
        rw [inserted] at member
        exact .inl member
      | some artifacts =>
        rw [inserted] at member
        rcases List.mem_append.mp (Table.rows_insert inserted ▸ member) with old | new
        · exact .inl old
        · refine .inr fun same => ?_
          rw [List.mem_singleton.mp new] at same
          simp [genId] at same
    | _ => contradiction

/-- No artifact is ever removed. -/
theorem exec_artifacts_kept (x : ArtifactId) (found : (s.live.artifacts.get x).isSome = true) :
    ((op.after P io s).live.artifacts.get x).isSome = true := by
  cases files : op.files with
  | false => rwa [(exec_unfiled files).1]
  | true =>
    cases op with
    | linkJobArtifact | clearJobArtifactRole => exact found
    | addArtifact artifact =>
      simp only [DbOp.after, DbOp.exec, addArtifact, Txn.bind_run, Txn.live_run]
      cases inserted : s.live.artifacts.insert ⟨genId "art" (io.uuid 0), artifact.sha256, artifact.kind,
          artifact.path, artifact.sizeBytes, artifact.filename, io.now⟩ with
      | none => exact found
      | some artifacts =>
        simp only [Txn.bind_run, Txn.write_run]
        change (artifacts.get x).isSome = true
        rw [Table.get_insert inserted]
        split
        · rfl
        · exact found
    | _ => contradiction

/-- What a placed call adds to the links. -/
theorem exec_links (placed : Placed s.live ⟨site, op⟩) {r : JobArtifactRow}
    (member : r ∈ (op.after P io s).live.jobArtifacts.rows) :
    r ∈ s.live.jobArtifacts.rows ∨
      op = .linkJobArtifact r.jobId (some r.taskId) r.role r.artifactId := by
  cases files : op.files with
  | false => exact .inl ((exec_unfiled files).2 ▸ member)
  | true =>
    cases op with
    | linkJobArtifact jobId taskId role x =>
      obtain ⟨t, rfl, _⟩ := placed.joins jobId taskId role x rfl
      rcases Table.mem_replace.mp member with rfl | ⟨old, _⟩
      · exact .inr rfl
      · exact .inl old
    | clearJobArtifactRole jobId role => exact .inl (Table.mem_deleteWhere.mp member).1
    | addArtifact artifact =>
      refine .inl ?_
      simp only [DbOp.after, DbOp.exec, addArtifact, Txn.bind_run, Txn.live_run] at member
      generalize s.live.artifacts.insert _ = inserted at member
      cases inserted <;> exact member
    | _ => contradiction

/-- Only a link under the role of the model changes a model. -/
theorem exec_model (io : Io) (clears : ∀ j role, op = .clearJobArtifactRole j role → role = "best_model")
    (jobId : JobId) (taskId : TaskId) :
    (op.after P io s).live.model jobId taskId = s.live.model jobId taskId ∨
      ∃ t x, op = .linkJobArtifact jobId t "model" x ∧ t.getD "" = taskId ∧
        (op.after P io s).live.model jobId taskId = some x := by
  cases files : op.files with
  | false => exact .inl (by rw [Db.model, (exec_unfiled files).2]; rfl)
  | true =>
    cases op with
    | linkJobArtifact j t role x =>
      by_cases here : (jobId, taskId, "model") = Keyed.key (⟨j, t.getD "", role, x⟩ : JobArtifactRow)
      · have key : (jobId, taskId, "model") = (j, t.getD "", role) := here
        cases key
        refine .inr ⟨t, x, rfl, rfl, ?_⟩
        change ((s.live.jobArtifacts.replace ⟨jobId, t.getD "", "model", x⟩).get _).map _ = _
        rw [Table.get_replace, if_pos here]
        rfl
      · refine .inl ?_
        change ((s.live.jobArtifacts.replace ⟨j, t.getD "", role, x⟩).get _).map _ = _
        rw [Table.get_replace, if_neg here]
        rfl
    | clearJobArtifactRole j role =>
      obtain rfl := clears j role rfl
      refine .inl ?_
      change ((s.live.jobArtifacts.deleteWhere _).get _).map _ = _
      rw [Table.get_deleteWhere, Db.model]
      cases found : s.live.jobArtifacts.get (jobId, taskId, "model") with
      | none => rfl
      | some r =>
        have role : r.role = "model" := congrArg (fun k => k.2.2) (Table.get_key found)
        simp [Option.filter, role]
    | addArtifact artifact =>
      refine .inl ?_
      simp only [DbOp.after, DbOp.exec, addArtifact, Txn.bind_run, Txn.live_run]
      generalize s.live.artifacts.insert _ = inserted
      cases inserted <;> rfl
    | _ => contradiction

/-- The invariant of the links. -/
structure Linked (s : Session Db) : Prop where
  sound : Sound s
  attached : s.live.Attached
  best : s.live.BestLinked

theorem exec_filed (fresh : Fresh io s.live op) (sound : Sound s)
    (placed : Placed s.live ⟨site, op⟩) (care : Careful s.live ⟨site, op⟩) :
    Filed s.live (op.after P io s).live where
  evolves := (exec_sound (P := P) placed.routed fresh sound).2
  artifacts := exec_artifacts_kept
  models jobId taskId r found succeeded := by
    rcases exec_model (P := P) io placed.clears jobId taskId with same | ⟨t, x, called, at_, now⟩
    · exact same
    · obtain ⟨t', rfl, _⟩ := placed.joins jobId t "model" x called
      cases at_
      cases finalizes : site.finalizes with
      | true => exact absurd (placed.chosen finalizes jobId t' "model" x called).1 (by decide)
      | false => exact now.trans ((care finalizes jobId t' "model" x called).2 rfl r found succeeded).symm

theorem exec_linked (fresh : Fresh io s.live op) (linked : Linked s)
    (placed : Placed s.live ⟨site, op⟩) (care : Careful s.live ⟨site, op⟩) :
    Linked (op.after P io s) where
  sound := (exec_sound (P := P) placed.routed fresh linked.sound).1
  attached := by
    have filed := exec_filed (P := P) fresh linked.sound placed care
    constructor
    · intro r member
      rcases exec_links placed member with old | called
      · exact (linked.attached.joins r old).later filed
      · obtain ⟨t, same, joins⟩ := placed.joins _ _ _ _ called
        cases same
        exact joins.later filed
    · intro a member
      rcases exec_artifacts member with old | named
      · exact linked.attached.named a old
      · exact named
  best r member role := by
    have filed := exec_filed (P := P) fresh linked.sound placed care
    rcases exec_links placed member with old | called
    · exact (linked.best r old role).later filed
    · cases finalizes : site.finalizes with
      | true => exact (placed.chosen finalizes _ _ _ _ called).2.later filed
      | false => exact absurd role (care finalizes _ _ _ _ called).1

end

/-! ## What handlers do to links -/

/-- Links are written where they should be. -/
def linking (α : Type) : Contract Call Call.Ret Fault α (Session Db) where
  inv := Linked
  rely _ s t := Filed s.live t.live
  admits c s _ := Careful s.live c
  gives s c _ _ := Placed s.live c

/-- From any store. -/
def Links (P : Platform) (α : Type) (p : Prog α) : Prop :=
  ∀ s, p.Obeys (machine P) (linking α) (fun _ _ => True) s

section
variable {α : Type} {op : DbOp} {site : Site} {s t : Session Db} {jobId : JobId}

/-- The calls that write no link. -/
def DbOp.unlinking : DbOp → Bool
  | .linkJobArtifact _ _ _ _ | .clearJobArtifactRole _ _ => false
  | op => op.routed

theorem Placed.of_unlinking (unlinking : op.unlinking = true) : Placed s.live ⟨site, op⟩ := by
  refine .of_plain ?_ ?_ ?_
  · cases op <;> first | exact unlinking | contradiction
  · rintro _ _ _ _ rfl
    contradiction
  · rintro _ _ rfl
    contradiction

theorem plain_unlinking (plain : op.plain = true) : op.unlinking = true := by
  cases op <;> first | exact plain | rfl | contradiction

theorem reads_unlinking (op : DbOp) (reads : op.reads = true) : op.unlinking = true := by
  cases op <;> first | rfl | contradiction

theorem calls_links {p : Prog α} (calls : Calls DbOp.unlinking p) : Links P α p := fun s =>
  Program.AllCalls.obeys calls (fun _ unlinking _ _ _ _ _ => Placed.of_unlinking unlinking) s

theorem Links.bind {β : Type} {p : Prog α} {k : α → Prog β} (first : Links P α p)
    (second : ∀ value, Links P β (k value)) : Links P β (p >>= k) := fun s =>
  Program.Obeys.bind (first s) (fun value t _ => second value t) fun _ _ _ => trivial

theorem Links.handle {p : Prog α} {k : Fault → Prog α} (first : Links P α p)
    (second : ∀ fault, Links P α (k fault)) : Links P α (p.handle k) := fun s =>
  Program.Obeys.handle (first s) (fun _ _ _ => trivial) fun fault t _ => second fault t

/-- A call that writes no link, with what its handler knows when it goes on. -/
theorem links_step {k : op.Ret → Prog α} (unlinking : op.unlinking = true)
    (next : ∀ s' io value t, Filed s.live s'.live → Linked s' → op.exec P io s' = (.ok value, t) →
      Filed s'.live t.live → (k value).Obeys (machine P) (linking α) (fun _ _ => True) t) :
    (perform site op >>= k).Obeys (machine P) (linking α) (fun _ _ => True) s := by
  refine obeys_perform fun s' io rely linked fresh => ?_
  have placed : Placed s'.live ⟨site, op⟩ := .of_unlinking unlinking
  refine ⟨fun value t ran admits => ⟨placed, next s' io value t rely linked ran ?_⟩, fun _ _ _ _ => ⟨placed, trivial⟩⟩
  have filed := exec_filed (P := P) fresh linked.sound placed admits
  rwa [DbOp.after, ran] at filed

/-- What is chosen is there. -/
theorem Db.Chosen.joins {db : Db} {taskId : TaskId} {x : ArtifactId} (chosen : db.Chosen jobId taskId x)
    (attached : db.Attached) : db.Joins jobId taskId x := by
  obtain ⟨⟨r, found, job, _⟩, model⟩ := chosen
  obtain ⟨link, linked, rfl⟩ := Option.map_eq_some_iff.mp model
  exact ⟨⟨r, found, job⟩, (attached.joins link (Table.get_eq_some.mp linked).1).artifact⟩

/-- Whatever the order of a listing of the links, what it has for the best model of a task
is the task's model. -/
theorem bestModel_eq {taskId : TaskId} {artifacts : List LinkedArtifact} (linked : Linked s)
    (lists : artifacts.Perm (s.live.links jobId)) : bestModel taskId artifacts = s.live.model jobId taskId := by
  have origin {a : LinkedArtifact} (member : a ∈ artifacts) : ∃ link ∈ s.live.jobArtifacts.rows,
      link.jobId = jobId ∧ link.taskId = a.taskId ∧ link.role = a.role ∧ link.artifactId = a.artifact.id := by
    obtain ⟨link, there, made⟩ := List.mem_filterMap.mp (lists.mem_iff.mp member)
    split at made
    · rename_i job
      obtain ⟨artifact, held, rfl⟩ := Option.map_eq_some_iff.mp made
      exact ⟨link, there, job, rfl, rfl, (Table.get_key held).symm⟩
    · contradiction
  unfold bestModel
  cases search : artifacts.find? fun a => a.taskId = taskId && bestModelRoles.contains a.role with
  | some a =>
    have passes := List.find?_some search
    simp only [Bool.and_eq_true, decide_eq_true_eq] at passes
    obtain ⟨link, there, job, task, role, artifact⟩ := origin (List.mem_of_find?_eq_some search)
    rw [Option.map_some, ← artifact]
    by_cases model : a.role = "model"
    · have key : s.live.jobArtifacts.get (jobId, taskId, "model") = some link :=
        Table.get_eq_some.mpr ⟨there, by rw [← job, ← passes.1, ← task, ← model, ← role]; rfl⟩
      rw [Db.model, key, Option.map_some]
    · have other : a.role = "best_model" := by
        have among := passes.2
        simpa [bestModelRoles, model] using among
      have chosen := (linked.best link there (role.trans other)).model
      rw [job, task, passes.1] at chosen
      exact chosen.symm
  | none =>
    cases model : s.live.model jobId taskId with
    | none => rfl
    | some x =>
      obtain ⟨link, held, rfl⟩ := Option.map_eq_some_iff.mp model
      obtain ⟨there, key⟩ := Table.get_eq_some.mp held
      have key : (link.jobId, link.taskId, link.role) = (jobId, taskId, "model") := key
      simp only [Prod.mk.injEq] at key
      obtain ⟨artifact, stored⟩ := Option.isSome_iff_exists.mp (linked.attached.joins _ there).artifact
      have member : ⟨link.role, link.taskId, artifact⟩ ∈ artifacts := by
        refine lists.mem_iff.mpr (List.mem_filterMap.mpr ⟨link, there, ?_⟩)
        rw [if_pos key.1, stored]
        rfl
      have passes := List.find?_eq_none.mp search _ member
      simp [bestModelRoles, key] at passes

theorem linkBestModel_links {taskId : Option TaskId} {artifactId : Option ArtifactId}
    (chosen : ∀ x, artifactId = some x → ∃ t, taskId = some t ∧ s.live.Chosen jobId t x) :
    (linkBestModel jobId taskId artifactId).Obeys (machine P) (linking Unit) (fun _ _ => True) s := by
  unfold linkBestModel
  split
  · rename_i there
    obtain ⟨x, rfl⟩ : ∃ x, artifactId = some x := by
      cases artifactId with
      | none => cases there
      | some x => exact ⟨x, rfl⟩
    obtain ⟨t, rfl, picked⟩ := chosen x rfl
    intro s' rely linked io valid _
    have still : s'.live.Chosen jobId t x := picked.later rely
    refine ⟨⟨rfl, ?_, ?_, ?_⟩, trivial⟩
    · rintro _ _ _ _ ⟨⟩
      exact ⟨t, rfl, still.joins linked.attached⟩
    · rintro _ _ _ _ _ ⟨⟩
      exact ⟨rfl, still⟩
    · rintro _ _ ⟨⟩
  · trivial

theorem settleIfTerminal_unlinking (before : JobStatus) (n : Nat) :
    Calls DbOp.unlinking (settleIfTerminal jobId before n) := by
  refine (perform_calls rfl).bind fun tasks => ?_
  split
  · refine (perform_calls rfl).bind fun fresh => ?_
    refine (perform_calls (finalStatus_terminal _ _)).bind fun moved => ?_
    split
    · exact emit_calls rfl
    · trivial
  · trivial

/-- A finalization that has chosen, from `set_job_result` on. -/
theorem publish_links {agg : JobAggregate} {taskId : Option TaskId} {artifactId : Option ArtifactId}
    {before : JobStatus}
    (chosen : ∀ x, artifactId = some x → ∃ t, taskId = some t ∧ s.live.Chosen jobId t x) :
    (do perform .finalize (.setJobResult jobId agg)
        perform .finalize (.clearJobArtifactRole jobId "best_model")
        linkBestModel jobId taskId artifactId
        settleIfTerminal jobId before agg.numSucceeded : Prog Unit).Obeys
      (machine P) (linking Unit) (fun _ _ => True) s := by
  refine links_step rfl fun s₁ _ _ s₂ rely₁ _ _ rely₂ => ?_
  refine obeys_perform fun s₃ io rely₃ linked fresh => ⟨fun _ t ran careful => ?_, fun _ _ ran _ => by cases ran⟩
  have placed : Placed s₃.live ⟨.finalize, .clearJobArtifactRole jobId "best_model"⟩ := by
    refine ⟨rfl, ?_, ?_, ?_⟩
    · rintro _ _ _ _ ⟨⟩
    · rintro _ _ _ _ _ ⟨⟩
    · rintro _ _ ⟨⟩
      rfl
  refine ⟨placed, Program.Obeys.bind (linkBestModel_links fun x some_ => ?_) (fun _ t _ => ?_) fun _ _ _ => trivial⟩
  · obtain ⟨u, here, picked⟩ := chosen x some_
    have filed := exec_filed (P := P) fresh linked.sound placed careful
    rw [DbOp.after, ran] at filed
    exact ⟨u, here, (((picked.later rely₁).later rely₂).later rely₃).later filed⟩
  · exact calls_links (settleIfTerminal_unlinking _ _) t

theorem finalizeJob_links (jobId : JobId) : Links P Unit (finalizeJob P jobId) := by
  intro s
  unfold finalizeJob
  refine links_step rfl fun s₁ io row t _ _ ran _ => ?_
  cases row with
  | none => trivial
  | some row =>
    unfold buildAggregate
    dsimp only
    rw [Program.bind_assoc]
    refine links_step rfl fun s₂ io found t _ _ ran _ => ?_
    cases found with
    | none => trivial
    | some row' =>
      dsimp only
      cases loaded : P.reloadRequest row'.request with
      | error error => trivial
      | ok req =>
        simp only [liftAt_ok, Program.bind_assoc]
        refine links_step rfl fun s₃ io tasks t₃ _ _ ran filed => ?_
        cases ran
        cases tallied : P.tally req (s₃.live.tasksOf jobId) with
        | error error => trivial
        | ok agg =>
          rw [liftAt_ok]
          cases best : agg.bestTaskId with
          | none => exact publish_links (by rintro _ ⟨⟩)
          | some taskId =>
            dsimp only
            rw [Program.bind_assoc]
            refine links_step rfl fun s₄ io artifacts t₄ rely linked ran _ => ?_
            cases ran
            refine publish_links fun x model => ⟨taskId, rfl, ?_⟩
            obtain ⟨r, found, job, succeeded⟩ := tally_best tallied best
            obtain ⟨r', found', _, kept⟩ := rely.evolves.task taskId r found
            obtain rfl : r' = r := kept (by rw [succeeded]; rfl)
            exact ⟨⟨r', found', job, succeeded⟩, (bestModel_eq linked (io.lists _)).symm.trans model⟩

theorem links_pieces (P : Platform) : Pieces P (Links P) where
  ret _ _ := trivial
  raise _ _ := trivial
  bind := Links.bind
  handle := Links.handle
  call _ plain later _ _ _ _ _ _ _ := ⟨Placed.of_unlinking (plain_unlinking plain), later _ _⟩
  finalizeJob := finalizeJob_links

/-- A checked task is there, under its job. -/
theorem requireTaskWorkerPrincipal_links {taskId : TaskId} {principal : Principal} {k : TaskRow → Prog α}
    (next : ∀ row t, row.id = taskId → (∃ r, t.live.tasks.get taskId = some r ∧ r.jobId = row.jobId) →
      (k row).Obeys (machine P) (linking α) (fun _ _ => True) t) :
    (Route.requireTaskWorkerPrincipal taskId principal >>= k).Obeys (machine P) (linking α) (fun _ _ => True) s := by
  have kept {a b : Session Db} {row : TaskRow} (filed : Filed a.live b.live)
      (there : ∃ r, a.live.tasks.get taskId = some r ∧ r.jobId = row.jobId) :
      ∃ r, b.live.tasks.get taskId = some r ∧ r.jobId = row.jobId := by
    obtain ⟨r, found, job⟩ := there
    obtain ⟨r', found', job', _⟩ := filed.evolves.task taskId r found
    exact ⟨r', found', job'.trans job⟩
  unfold Route.requireTaskWorkerPrincipal Route.requireWorkerPrincipal
  simp only [Program.bind_assoc]
  refine links_step rfl fun s₁ io found t _ _ ran filed => ?_
  cases ran
  cases found : s₁.live.tasks.get taskId with
  | none => trivial
  | some row =>
    have key : row.id = taskId := Table.get_key found
    dsimp only
    cases row.workerId with
    | none => trivial
    | some owner =>
      simp only [Program.bind_assoc]
      refine links_step rfl fun s₂ io worker t rely _ ran after => ?_
      have there := kept after (kept rely ⟨row, found, rfl⟩)
      cases worker with
      | none => trivial
      | some worker =>
        dsimp only
        split
        · exact next row t key there
        · split
          · trivial
          · exact next row t key there

theorem addArtifact_stored {io : Io} {artifact : NewArtifact} {x : ArtifactId}
    (ran : addArtifact io artifact s = (.ok x, t)) : (t.live.artifacts.get x).isSome = true := by
  simp only [addArtifact, Txn.bind_run, Txn.live_run] at ran
  cases inserted : s.live.artifacts.insert ⟨genId "art" (io.uuid 0), artifact.sha256, artifact.kind,
      artifact.path, artifact.sizeBytes, artifact.filename, io.now⟩ with
  | none =>
    rw [inserted] at ran
    cases ran
  | some artifacts =>
    rw [inserted] at ran
    cases ran
    change (artifacts.get _).isSome = true
    rw [Table.get_insert inserted]
    split
    · rfl
    · rename_i other
      exact absurd rfl other

theorem uploadArtifact_links (taskId : TaskId) (role : String) (upload : Option NewArtifact)
    (principal : Principal) : Links P Reply (Route.uploadArtifact taskId role upload principal) := by
  intro s
  refine requireTaskWorkerPrincipal_links fun row t _ there => ?_
  cases upload with
  | none => trivial
  | some artifact =>
    refine links_step rfl fun s₁ io x t₁ rely linked ran filed => ?_
    have stored := addArtifact_stored ran
    refine obeys_perform fun s₂ io rely₂ _ _ => ⟨fun _ _ _ _ => ⟨⟨rfl, ?_, ?_, ?_⟩, trivial⟩, fun _ _ ran _ => by cases ran⟩
    · rintro _ _ _ _ ⟨⟩
      obtain ⟨r, found, job⟩ := there
      obtain ⟨r', found', job', _⟩ := (rely.trans (filed.trans rely₂)).evolves.task taskId r found
      exact ⟨taskId, rfl, ⟨r', found', job'.trans job⟩, rely₂.artifacts x stored⟩
    · rintro ⟨⟩
    · rintro _ _ ⟨⟩

theorem completeTask_links (taskId : TaskId) (result : TaskResult) (w : WorkerId) (principal : Principal) :
    Links P Reply (Route.completeTask P taskId result w principal) := by
  have pieces := links_pieces P
  refine pieces.bind (pieces.requireTaskReporter _ _ _) fun row => pieces.bind ?_ fun _ => pieces.ret _
  refine pieces.bind (pieces.perform rfl rfl) fun job => ?_
  split
  · exact pieces.stopTask _ _ _ _
  · refine pieces.bind (pieces.handle (calls_links (perform_calls rfl)) fun fault => ?_) fun _ =>
      pieces.taskCompleted _ _ _
    unfold Route.completeFailed
    split <;> exact pieces.raise _

theorem taskEvent_links (taskId : TaskId) (event : TaskEvent) (principal : Principal) :
    Links P Reply (Route.taskEvent taskId event principal) := by
  have pieces := links_pieces P
  exact pieces.bind (pieces.requireTaskWorkerPrincipal _ _) fun row =>
    pieces.bind (calls_links (emit_calls rfl)) fun _ => pieces.ret _

theorem handler_links (request : Request) : Links P Reply (handler P config request) := by
  refine (links_pieces P).handler request ?_
  cases request with
  | taskEvent taskId event principal => exact taskEvent_links taskId event principal
  | uploadArtifact taskId role upload principal => exact uploadArtifact_links taskId role upload principal
  | completeTask _ taskId result w principal => exact completeTask_links taskId result w principal
  | _ => trivial

/-- What `_build_aggregate` picks on a store that nobody changes: the best task of the tally,
with its model. -/
theorem buildAggregate_picks {site : Site} {agg : JobAggregate} {best : Option TaskId} {artifact : Option ArtifactId}
    (linked : Linked s) (run : (buildAggregate P site jobId).Runs (machine P) s (.ok (agg, best, artifact)) t) :
    ∃ row seen, s.live.jobs.get jobId = some row ∧ P.aggregate s.live row = .ok seen ∧
      best = seen.bestTaskId ∧ agg.bestTaskId = best ∧ artifact = best.bind (s.live.model jobId) ∧
      (best.isSome = true → agg.bestModelArtifactId = artifact) := by
  unfold buildAggregate at run
  obtain ⟨_, _, answer, u, ran, run⟩ := perform_runs run
  cases ran
  cases found : s.live.jobs.get jobId with
  | none =>
    rw [found] at run
    cases run
  | some row =>
    rw [found] at run
    obtain rfl : row.id = jobId := Table.get_key found
    dsimp only at run
    cases loaded : P.reloadRequest row.request with
    | error error =>
      rw [loaded] at run
      cases run
    | ok req =>
      rw [loaded, liftAt_ok] at run
      obtain ⟨_, _, answer, u, ran, run⟩ := perform_runs run
      cases ran
      dsimp only at run
      cases tallied : P.tally req (s.live.tasksOf row.id) with
      | error error =>
        rw [tallied] at run
        cases run
      | ok seen =>
        have built : P.aggregate s.live row = .ok seen := by
          simp only [Platform.aggregate, loaded, tallied, bind, Except.bind]
        refine ⟨row, seen, rfl, built, ?_⟩
        rw [tallied, liftAt_ok] at run
        cases picked : seen.bestTaskId with
        | none =>
          rw [picked] at run
          cases run
          exact ⟨rfl, picked, rfl, fun there => by cases there⟩
        | some taskId =>
          rw [picked] at run
          obtain ⟨io, _, answer, u, ran, run⟩ := perform_runs run
          cases ran
          cases run
          have model : bestModel taskId (io.listing (s.live.links row.id)) = s.live.model row.id taskId :=
            bestModel_eq linked (io.lists _)
          exact ⟨rfl, rfl, model, fun _ => rfl⟩

end

/-! ## Runs -/

/-- A turn that is allowed, and whose call is careful. -/
def Filing (P : Platform) (config : ServerConfig) (p : ServerPool) (l : Turn) : Prop :=
  (server P config).Lawful p l ∧ ∀ i io c, l = .sched i io → p.waiting i = some c → Careful p.store.live c

theorem linking_rules (P : Platform) (config : ServerConfig) :
    System.Cooperates (server P config) (Filing P config) (fun _ => linking Reply) (fun _ _ _ => True) Linked where
  shared _ _ linked := linked
  trans _ _ _ _ _ first second := first.trans second
  same _ _ s _ := .refl s.live
  spawned _ request _ _ := handler_links request _
  allowed p i io _ c _ found allowed _ := ⟨allowed.1 c (waiting_of found), allowed.2 i io c rfl (waiting_of found)⟩
  keeps p i io _ c _ found allowed linked placed :=
    exec_linked (P := P) (allowed.1 c (waiting_of found)) linked placed (allowed.2 i io c rfl (waiting_of found))
  relied p i io _ c _ found allowed linked placed _ _ _ _ :=
    ⟨fun _ _ _ => exec_filed (P := P) (allowed.1 c (waiting_of found)) linked.sound placed
      (allowed.2 i io c rfl (waiting_of found)), fun _ _ => trivial⟩
  recovers p _ linked := by
    have same : (server P config).recover p.store = p.store := by
      rw [linked.sound.settled]
      rfl
    exact same ▸ linked

theorem started_linked : Linked started.store := by
  refine ⟨started_sound, ⟨fun r member => absurd member List.not_mem_nil, fun r member => absurd member List.not_mem_nil⟩,
    fun r member => absurd member List.not_mem_nil⟩

end N4Cluster
