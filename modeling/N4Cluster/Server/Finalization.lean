import N4Cluster.Server.Calls

/-! What a finalization knows when it decides: its count of succeeded tasks
comes from one reading of the tasks, and the tasks it counted stay succeeded. -/
namespace N4Cluster
open Relational Transactional Interleave

/-- Some task of the job has succeeded. -/
def Db.SomeSucceeded (db : Db) (jobId : JobId) : Prop :=
  ∃ taskId r, db.tasks.get taskId = some r ∧ r.jobId = jobId ∧ r.status = .succeeded

theorem Evolves.someSucceeded {a b : Db} (moved : Evolves a b) {jobId : JobId}
    (held : a.SomeSucceeded jobId) : b.SomeSucceeded jobId := by
  obtain ⟨taskId, r, found, job, succeeded⟩ := held
  obtain ⟨r', found', _, kept⟩ := moved.task taskId r found
  have same := kept (by rw [succeeded]; rfl)
  exact ⟨taskId, r', found', same ▸ job, same ▸ succeeded⟩

/-- Where no task was open, no success came later. -/
theorem Evolves.succeeded_before {a b : Db} (moved : Evolves a b) {jobId : JobId}
    (held : (a.jobs.get jobId).isSome = true) (all : a.AllTerminal jobId) (later : b.SomeSucceeded jobId) :
    a.SomeSucceeded jobId := by
  obtain ⟨taskId, r', found', job, succeeded⟩ := later
  rcases moved.origin taskId r' found' with ⟨r, found⟩ | fresh
  · obtain ⟨same, now, job', kept⟩ := moved.task taskId r found
    cases now.symm.trans found'
    have before := all taskId r found (job'.symm.trans job)
    exact ⟨taskId, r, found, job'.symm.trans job, kept before ▸ succeeded⟩
  · rw [job] at fresh
    rw [fresh] at held
    contradiction

theorem mem_tasksOf {db : Db} {jobId : JobId} {r : TaskRow} :
    r ∈ db.tasksOf jobId ↔ db.tasks.get r.id = some r ∧ r.jobId = jobId := by
  simp only [Db.tasksOf, List.mem_insertionSort, List.mem_filter, decide_eq_true_eq,
    Table.get_eq_some]
  exact and_congr_left fun _ => ⟨fun member => ⟨member, rfl⟩, fun both => both.1⟩

/-- What the second reading of `_finalize_job` checks. -/
theorem tasksOf_terminal {db : Db} {jobId : JobId} :
    ((db.tasksOf jobId).all fun r => r.status.terminal) = true ↔ db.AllTerminal jobId := by
  rw [List.all_eq_true]
  constructor
  · intro all taskId r found job
    obtain rfl : r.id = taskId := Table.get_key found
    exact all r (mem_tasksOf.mpr ⟨found, job⟩)
  · intro all r member
    obtain ⟨found, job⟩ := mem_tasksOf.mp member
    exact all r.id r found job

instance (db : Db) (jobId : JobId) : Decidable (db.AllTerminal jobId) :=
  decidable_of_iff _ tasksOf_terminal

instance (db : Db) (jobId : JobId) : Decidable (db.SomeSucceeded jobId) :=
  decidable_of_iff (∃ r ∈ db.tasksOf jobId, r.status = .succeeded)
    ⟨fun ⟨r, member, succeeded⟩ => ⟨r.id, r, (mem_tasksOf.mp member).1, (mem_tasksOf.mp member).2, succeeded⟩,
      fun ⟨taskId, r, found, job, succeeded⟩ =>
        ⟨r, mem_tasksOf.mpr ⟨by rw [show r.id = taskId from Table.get_key found]; exact found, job⟩, succeeded⟩⟩

theorem countTask_succeeded (agg : JobAggregate) (row : TaskRow) :
    (agg.countTask row).numSucceeded =
      agg.numSucceeded + if row.status = .succeeded then 1 else 0 := by
  unfold JobAggregate.countTask
  cases row.status <;> rfl

variable {P : Platform}

theorem tallyTask_succeeded {req : JobRequest} {tally tally' : Tally} {row : TaskRow}
    (ran : P.tallyTask req tally row = .ok tally') :
    tally'.agg.numSucceeded = tally.agg.numSucceeded + if row.status = .succeeded then 1 else 0 := by
  rw [← countTask_succeeded]
  unfold Platform.tallyTask at ran
  dsimp only at ran
  split at ran
  · simp only [bind, Except.bind] at ran
    split at ran
    · contradiction
    · split at ran
      · contradiction
      · split at ran <;> cases ran <;> rfl
  · cases ran
    rfl

theorem tallyTasks_succeeded {req : JobRequest} {tasks : List TaskRow} {tally tally' : Tally}
    (ran : tasks.foldlM (P.tallyTask req) tally = .ok tally') :
    tally'.agg.numSucceeded =
      tally.agg.numSucceeded + tasks.countP fun r => r.status = .succeeded := by
  induction tasks generalizing tally with
  | nil =>
    cases ran
    rfl
  | cons row rest ih =>
    simp only [List.foldlM_cons, bind, Except.bind] at ran
    split at ran
    · contradiction
    · rename_i first stepped
      rw [ih ran, tallyTask_succeeded stepped, List.countP_cons]
      simp only [decide_eq_true_eq]
      omega

theorem tally_succeeded {req : JobRequest} {tasks : List TaskRow} {agg : JobAggregate}
    (ran : P.tally req tasks = .ok agg) :
    agg.numSucceeded = tasks.countP fun r => r.status = .succeeded := by
  simp only [Platform.tally, bind, Except.bind] at ran
  split at ran
  · contradiction
  · rename_i tally folded
    split at ran
    · contradiction
    · cases ran
      rw [tallyTasks_succeeded folded, Nat.zero_add]

/-- The aggregate of a job as one store has it. -/
def Platform.aggregate (P : Platform) (db : Db) (row : JobRow) : Except PyErr JobAggregate := do
  P.tally (← P.reloadRequest row.request) (db.tasksOf row.id)

/-- Every job's stored request and results read back, rank and dump. -/
def Db.readable (db : Db) (P : Platform) : Bool :=
  db.jobs.rows.all fun row =>
    match P.aggregate db row with
    | .ok agg => P.dumpsAggregate agg
    | .error _ => false

theorem Db.readable_get {db : Db} (readable : db.readable P = true) {jobId : JobId} {row : JobRow}
    (found : db.jobs.get jobId = some row) :
    ∃ agg, P.aggregate db row = .ok agg ∧ P.dumpsAggregate agg = true := by
  have fine := List.all_eq_true.mp readable row (Table.get_eq_some.mp found).1
  cases built : P.aggregate db row with
  | ok agg => exact ⟨agg, rfl, by simpa only [built] using fine⟩
  | error error => simp [built] at fine

/-- The count of an aggregate says whether a task of the job has succeeded. -/
theorem aggregate_succeeded {db : Db} {jobId : JobId} {row : JobRow} {agg : JobAggregate}
    (found : db.jobs.get jobId = some row) (built : P.aggregate db row = .ok agg) :
    0 < agg.numSucceeded ↔ db.SomeSucceeded jobId := by
  obtain rfl : row.id = jobId := Table.get_key found
  simp only [Platform.aggregate, bind, Except.bind] at built
  split at built
  · contradiction
  · rw [tally_succeeded built, List.countP_pos_iff]
    constructor
    · rintro ⟨r, member, succeeded⟩
      obtain ⟨found, job⟩ := mem_tasksOf.mp member
      exact ⟨r.id, r, found, job, by simpa using succeeded⟩
    · rintro ⟨taskId, r, found, job, succeeded⟩
      obtain rfl : r.id = taskId := Table.get_key found
      exact ⟨r, mem_tasksOf.mpr ⟨found, job⟩, by simpa using succeeded⟩

/-- Contracts under which the store stays sound and evolves while a program waits. -/
structure Evolving {α : Type} (C : Contract Call Call.Ret Fault α (Session Db)) : Prop where
  rely : ∀ {c s t}, C.rely c s t → Evolves s.live t.live
  inv : ∀ {s}, C.inv s → Sound s

/-- One call: its answer is what the method returns or raises where it is made. -/
theorem obeys_perform {α : Type} {C : Contract Call Call.Ret Fault α (Session Db)}
    {post : Except Fault α → Session Db → Prop} {site : Site} {op : DbOp} {k : op.Ret → Prog α}
    {s : Session Db}
    (step : ∀ s' io, C.rely ⟨site, op⟩ s s' → C.inv s' → Fresh io s'.live op →
      (∀ value t, op.exec P io s' = (.ok value, t) → C.admits ⟨site, op⟩ s' (k value) →
        C.gives s' ⟨site, op⟩ (k value) t ∧ (k value).Obeys (machine P) C post t) ∧
      ∀ error t, op.exec P io s' = (.error error, t) →
        C.admits ⟨site, op⟩ s' (.raise ⟨site, error⟩) →
        C.gives s' ⟨site, op⟩ (.raise ⟨site, error⟩) t ∧ post (.error ⟨site, error⟩) t) :
    (perform site op >>= k).Obeys (machine P) C post s := by
  intro s' rely inv io valid admitted
  obtain ⟨returns, raises⟩ := step s' io rely inv valid
  simp only [machine] at admitted ⊢
  rcases ran : op.exec P io s' with ⟨error | value, t⟩
  · rw [ran] at admitted
    exact raises error t ran admitted
  · rw [ran] at admitted
    exact returns value t ran admitted

/-- One call with its `except` clauses. -/
theorem obeys_attempt {α : Type} {C : Contract Call Call.Ret Fault α (Session Db)}
    {post : Except Fault α → Session Db → Prop} {site : Site} {op : DbOp} {h : Fault → Prog op.Ret}
    {k : op.Ret → Prog α} {s : Session Db}
    (step : ∀ s' io, C.rely ⟨site, op⟩ s s' → C.inv s' → Fresh io s'.live op →
      (∀ value t, op.exec P io s' = (.ok value, t) → C.admits ⟨site, op⟩ s' (k value) →
        C.gives s' ⟨site, op⟩ (k value) t ∧ (k value).Obeys (machine P) C post t) ∧
      ∀ error t, op.exec P io s' = (.error error, t) →
        C.admits ⟨site, op⟩ s' (h ⟨site, error⟩ >>= k) →
        C.gives s' ⟨site, op⟩ (h ⟨site, error⟩ >>= k) t ∧
          (h ⟨site, error⟩ >>= k).Obeys (machine P) C post t) :
    ((perform site op).handle h >>= k).Obeys (machine P) C post s := by
  intro s' rely inv io valid admitted
  obtain ⟨returns, raises⟩ := step s' io rely inv valid
  simp only [machine] at admitted ⊢
  rcases ran : op.exec P io s' with ⟨error | value, t⟩
  · rw [ran] at admitted
    exact raises error t ran admitted
  · rw [ran] at admitted
    exact returns value t ran admitted

/-- A call that only reads answers from the store it finds and leaves it. -/
theorem obeys_read {α : Type} {C : Contract Call Call.Ret Fault α (Session Db)}
    {post : Except Fault α → Session Db → Prop} {site : Site} {op : DbOp} {k : op.Ret → Prog α}
    {s : Session Db} {read : Session Db → op.Ret}
    (reads : ∀ io s, op.exec P io s = (.ok (read s), s))
    (step : ∀ s', C.rely ⟨site, op⟩ s s' → C.inv s' → C.admits ⟨site, op⟩ s' (k (read s')) →
      C.gives s' ⟨site, op⟩ (k (read s')) s' ∧ (k (read s')).Obeys (machine P) C post s') :
    (perform site op >>= k).Obeys (machine P) C post s := by
  refine obeys_perform fun s' io rely inv _ => ⟨fun value t ran admitted => ?_, fun error t ran _ => ?_⟩
  · cases (reads io s').symm.trans ran
    exact step s' rely inv admitted
  · exact nomatch (reads io s').symm.trans ran

theorem liftAt_ok {α β : Type} {site : Site} {value : α} {k : α → Prog β} :
    liftAt site (.ok value) >>= k = k value := rfl

section
variable {α : Type} {C : Contract Call Call.Ret Fault α (Session Db)}
  {post : Except Fault α → Session Db → Prop} {jobId : JobId} {agg : JobAggregate} {s t : Session Db}

/-- The aggregate is, up to its model, that of a store seen on the way here. -/
def Tallied (P : Platform) (C : Contract Call Call.Ret Fault α (Session Db)) (jobId : JobId)
    (agg : JobAggregate) (t : Session Db) : Prop :=
  ∃ c s r row seen, C.inv s ∧ C.admits c s r ∧ Evolves s.live t.live ∧
    s.live.jobs.get jobId = some row ∧ P.aggregate s.live row = .ok seen ∧
    agg.numSucceeded = seen.numSucceeded ∧ P.dumpsAggregate agg = P.dumpsAggregate seen

theorem Tallied.later (tallied : Tallied P C jobId agg s) (moved : Evolves s.live t.live) :
    Tallied P C jobId agg t := by
  obtain ⟨c, s₀, r, row, seen, inv, admitted, evolved, rest⟩ := tallied
  exact ⟨c, s₀, r, row, seen, inv, admitted, evolved.trans moved, rest⟩

/-- A positive count comes from a task that has succeeded, and still has. -/
theorem Tallied.succeeded (tallied : Tallied P C jobId agg t) (some : 0 < agg.numSucceeded) :
    t.live.SomeSucceeded jobId := by
  obtain ⟨_, _, _, _, _, _, _, evolved, found, built, count, _⟩ := tallied
  exact evolved.someSucceeded ((aggregate_succeeded found built).mp (count ▸ some))

/-- Some call met a store that is not readable. -/
def Unreadable (P : Platform) (C : Contract Call Call.Ret Fault α (Session Db)) : Prop :=
  ∃ c s r, C.admits c s r ∧ s.live.readable P = false

theorem Tallied.dumps (tallied : Tallied P C jobId agg t) (bad : P.dumpsAggregate agg = false) :
    Unreadable P C := by
  obtain ⟨c, s, r, row, seen, _, admitted, _, found, built, _, same⟩ := tallied
  refine ⟨c, s, r, admitted, ?_⟩
  cases readable : s.live.readable P with
  | false => rfl
  | true =>
    obtain ⟨again, built', dumps⟩ := Db.readable_get readable found
    cases built.symm.trans built'
    exact (bad.symm.trans (same.trans dumps)).symm

theorem unreadable_of {c : Call} {r : Prog α} {row : JobRow} (error : PyErr)
    (admitted : C.admits c s r) (found : s.live.jobs.get jobId = some row)
    (failed : P.aggregate s.live row = .error error) : Unreadable P C := by
  refine ⟨c, s, r, admitted, ?_⟩
  cases readable : s.live.readable P with
  | false => rfl
  | true =>
    obtain ⟨agg, built, _⟩ := Db.readable_get readable found
    exact nomatch failed.symm.trans built

/-- `_build_aggregate` reads, and either fails on a store that is not readable or
returns the aggregate of a store it has seen. -/
theorem buildAggregate_obeys {site : Site}
    {k : JobAggregate × Option TaskId × Option ArtifactId → Prog α} (evolving : Evolving C)
    (held : (s.live.jobs.get jobId).isSome = true)
    (gives : ∀ s op r, op.reads = true → C.inv s → C.gives s ⟨site, op⟩ r s)
    (failed : ∀ op s error, C.admits ⟨site, op⟩ s (.raise ⟨site, error⟩) → Unreadable P C →
      post (.error ⟨site, error⟩) s)
    (next : ∀ value t, Evolves s.live t.live → Tallied P C jobId value.1 t →
      (k value).Obeys (machine P) C post t) :
    (buildAggregate P site jobId >>= k).Obeys (machine P) C post s := by
  unfold buildAggregate
  rw [Program.bind_assoc]
  refine obeys_read (fun _ _ => rfl) fun s₁ rely₁ inv admitted => ⟨gives _ _ _ rfl inv, ?_⟩
  obtain ⟨row, found⟩ := Option.isSome_iff_exists.mp ((evolving.rely rely₁).exists_job held)
  obtain rfl : row.id = jobId := Table.get_key found
  rw [found] at admitted ⊢
  simp only [Program.bind_assoc] at admitted ⊢
  cases loaded : P.reloadRequest row.request with
  | error error =>
    rw [loaded] at admitted
    exact failed _ _ _ admitted (unreadable_of error admitted found
      (by simp only [Platform.aggregate, loaded, bind, Except.bind]))
  | ok req =>
    refine obeys_read (fun _ _ => rfl) fun s₂ rely₂ inv admitted => ⟨gives _ _ _ rfl inv, ?_⟩
    obtain ⟨row', found', request, _⟩ := (evolving.rely rely₂).job _ row found
    have key : row'.id = row.id := Table.get_key found'
    have built : P.aggregate s₂.live row' = P.tally req (s₂.live.tasksOf row.id) := by
      simp only [Platform.aggregate, request, key, loaded, bind, Except.bind]
    cases tallied : P.tally req (s₂.live.tasksOf row.id) with
    | error error =>
      rw [tallied] at admitted
      exact failed _ _ _ admitted (unreadable_of _ admitted found' (built.trans tallied))
    | ok agg =>
      have seen : Tallied P C row.id agg s₂ := ⟨_, s₂, _, row', agg, inv, admitted, .refl _, found',
        built.trans tallied, rfl, rfl⟩
      have moved := (evolving.rely rely₁).trans (evolving.rely rely₂)
      rw [liftAt_ok]
      cases agg.bestTaskId with
      | none => exact next _ _ moved seen
      | some taskId =>
        dsimp only
        rw [Program.bind_assoc]
        refine obeys_perform fun s₃ io rely inv _ => ⟨fun value t ran _ => ?_, fun error t ran _ => ?_⟩
        · cases ran
          exact ⟨gives _ _ _ rfl inv, next _ _ (moved.trans (evolving.rely rely))
            (seen.later (evolving.rely rely))⟩
        · exact nomatch ran

end

theorem reads_undecided {jobId : JobId} (op : DbOp) (reads : op.reads = true) :
    op.undecided jobId = true := by
  cases op <;> first | rfl | contradiction

/-- Contracts for which the calls of a finalization that decide nothing are no
matter, and a failure inside it is accepted. -/
structure Finalizing {α : Type} (P : Platform) (C : Contract Call Call.Ret Fault α (Session Db))
    (post : Except Fault α → Session Db → Prop) (jobId : JobId) : Prop extends Evolving C where
  gives : ∀ s site op r io, site.finalizes = true → op.undecided jobId = true → C.inv s →
    Fresh io s.live op → C.gives s ⟨site, op⟩ r (op.after P io s)
  failed : ∀ c s error, C.admits c s (.raise ⟨.finalize, error⟩) → Unreadable P C →
    ∀ t, post (.error ⟨.finalize, error⟩) t

namespace Finalizing
variable {α : Type} {C : Contract Call Call.Ret Fault α (Session Db)}
  {post : Except Fault α → Session Db → Prop} {jobId : JobId}

theorem undecided_routed (op : DbOp) (undecided : op.undecided jobId = true) : op.routed = true := by
  cases op <;> first | rfl | contradiction

/-- A call that decides nothing. -/
theorem step (F : Finalizing P C post jobId) {op : DbOp} {k : op.Ret → Prog α} {s : Session Db}
    (undecided : op.undecided jobId = true)
    (raises : ∀ io s error, (op.exec P io s).1 = .error error → Unreadable P C)
    (next : ∀ value t, Evolves s.live t.live → (k value).Obeys (machine P) C post t) :
    (perform .finalize op >>= k).Obeys (machine P) C post s := by
  refine obeys_perform fun s' io rely inv fresh => ?_
  have moved := (exec_sound (P := P) (undecided_routed op undecided) fresh (F.inv inv)).2
  have given (r : Prog α) := F.gives s' .finalize op r io rfl undecided inv fresh
  refine ⟨fun value t ran admitted => ?_, fun error t ran admitted => ?_⟩
  · rw [DbOp.after, ran] at moved
    simp only [DbOp.after, ran] at given
    exact ⟨given _, next value t ((F.rely rely).trans moved)⟩
  · have bad := raises io s' error (by rw [ran])
    simp only [DbOp.after, ran] at given
    exact ⟨given _, F.failed _ _ _ admitted bad t⟩

theorem reading (F : Finalizing P C post jobId) (s : Session Db) (site : Site) (op : DbOp) (r : Prog α)
    (finalizes : site.finalizes = true) (reads : op.reads = true) (inv : C.inv s) :
    C.gives s ⟨site, op⟩ r s := by
  have given := F.gives s site op r { now := 0 } finalizes (reads_undecided op reads) inv
  cases op <;> first | exact given trivial | contradiction

theorem linkBestModel (F : Finalizing P C post jobId) {taskId : Option TaskId}
    {artifactId : Option ArtifactId} {k : Unit → Prog α} {s : Session Db}
    (next : ∀ t, Evolves s.live t.live → (k ()).Obeys (machine P) C post t) :
    (N4Cluster.linkBestModel jobId taskId artifactId >>= k).Obeys (machine P) C post s := by
  unfold N4Cluster.linkBestModel
  split
  · exact F.step rfl (fun _ _ _ ran => nomatch ran) fun _ t moved => next t moved
  · exact next s (.refl _)

/-- What a finalization knows where it decides. -/
structure Decides (P : Platform) (C : Contract Call Call.Ret Fault α (Session Db)) (jobId : JobId)
    (agg : JobAggregate) (row : JobRow) (s₁ s₂ : Session Db) (r : Prog α) : Prop where
  counted : Tallied P C jobId agg s₁
  invRead : C.inv s₁
  admitted : C.admits ⟨.terminality agg.numSucceeded, .listTasksForJob jobId⟩ s₁ r
  terminal : s₁.live.AllTerminal jobId
  inv : C.inv s₂
  moved : Evolves s₁.live s₂.live
  found : s₂.live.jobs.get jobId = some row

/-- The end of a finalization leaves a job with open tasks, or decides. -/
theorem settleIfTerminal (F : Finalizing P C post jobId) {agg : JobAggregate} {before : JobStatus}
    {k : Unit → Prog α} {s : Session Db} (held : (s.live.jobs.get jobId).isSome = true)
    (counted : Tallied P C jobId agg s)
    (skipped : ∀ t, C.inv t → ¬t.live.AllTerminal jobId → (k ()).Obeys (machine P) C post t)
    (decides : ∀ row s₁ s₂ r, Decides P C jobId agg row s₁ s₂ r →
      (settleJob jobId (finalStatus row.status agg.numSucceeded) >>= k).Obeys (machine P) C post s₂) :
    (N4Cluster.settleIfTerminal jobId before agg.numSucceeded >>= k).Obeys (machine P) C post s := by
  unfold N4Cluster.settleIfTerminal
  rw [Program.bind_assoc]
  refine obeys_read (fun _ _ => rfl) fun s₁ rely inv admitted =>
    ⟨F.reading _ _ _ _ rfl rfl inv, ?_⟩
  have moved := F.rely rely
  by_cases all : ((s₁.live.tasksOf jobId).all fun r => r.status.terminal) = true
  · rw [if_pos all, Program.bind_assoc]
    refine obeys_read (fun _ _ => rfl) fun s₂ rely inv₂ _ => ⟨F.reading _ _ _ _ rfl rfl inv₂, ?_⟩
    have later := F.rely rely
    obtain ⟨row, found⟩ := Option.isSome_iff_exists.mp (later.exists_job (moved.exists_job held))
    rw [found]
    exact decides row s₁ s₂ _
      ⟨counted.later moved, inv, admitted, tasksOf_terminal.mp all, inv₂, later, found⟩
  · rw [if_neg all]
    exact skipped s₁ inv fun terminal => all (tasksOf_terminal.mpr terminal)

/-- `_finalize_job` fails on what is not readable, or leaves the job because it is
gone or has open tasks, or decides. -/
theorem finalizeJob (F : Finalizing P C post jobId) {k : Unit → Prog α}
    (skipped : ∀ t, C.inv t → t.live.jobs.get jobId = none ∨ ¬t.live.AllTerminal jobId →
      (k ()).Obeys (machine P) C post t)
    (decides : ∀ agg row s₁ s₂ r, Decides P C jobId agg row s₁ s₂ r →
      (settleJob jobId (finalStatus row.status agg.numSucceeded) >>= k).Obeys (machine P) C post s₂)
    (s : Session Db) : (N4Cluster.finalizeJob P jobId >>= k).Obeys (machine P) C post s := by
  unfold N4Cluster.finalizeJob
  rw [Program.bind_assoc]
  refine obeys_read (fun _ _ => rfl) fun s₁ _ inv admitted =>
    ⟨F.reading _ _ _ _ rfl rfl inv, ?_⟩
  cases found : s₁.live.jobs.get jobId with
  | none => exact skipped s₁ inv (.inl found)
  | some row =>
    simp only [Program.bind_assoc]
    refine buildAggregate_obeys F.toEvolving (by rw [found]; rfl) (fun s op r => F.reading s _ op r rfl)
      (fun op s error admitted bad => F.failed _ _ _ admitted bad _)
      fun (agg, taskId, artifactId) s₂ moved counted => ?_
    have held : (s₂.live.jobs.get jobId).isSome = true := moved.exists_job (by rw [found]; rfl)
    refine F.step (by simp [DbOp.undecided, DbOp.finalizes])
      (fun io s error raised => counted.dumps ?_) fun _ s₃ to₃ => ?_
    · rcases setJobResult_cases (P := P) io s jobId agg with ⟨_, ran⟩ | ⟨bad, _⟩
      · simp only [DbOp.exec, ran, reduceCtorEq] at raised
      · exact bad
    · refine F.step rfl (fun _ _ _ ran => by cases ran) fun _ s₄ to₄ => F.linkBestModel fun s₅ to₅ => ?_
      have all := (to₃.trans to₄).trans to₅
      exact F.settleIfTerminal (all.exists_job held) (counted.later all)
        (fun t inv still => skipped t inv (.inr still)) (decides agg)

end Finalizing
end N4Cluster
