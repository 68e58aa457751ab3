import N4Cluster.Server.Settlement
import N4Cluster.Server.Workers

/-! Who may change what: an operation made in the name of a worker leaves the other
workers, and what is leased to them, as they are; and a request acts in the name of a
worker only once it knows that the worker is its principal's. -/
namespace N4Cluster
open Relational Transactional Relation Interleave

variable {P : Platform} {config : ServerConfig} {io : Io} {op : DbOp} {db db' : Db} {s t : Session Db}
  {w : WorkerId}

/-! ## Registrations stay -/

/-- What a registration fixes of a worker: its declarations and its principal. -/
def WorkerRow.registration (row : WorkerRow) : List (String × String) × Dict × Dict × Option String :=
  (row.labels, row.capabilities, row.version, row.principal)

/-- Whoever is registered stays so, under the same registration. -/
def Db.Enrols (db db' : Db) : Prop :=
  ∀ w row, db.workers.get w = some row →
    ∃ row', db'.workers.get w = some row' ∧ row'.registration = row.registration

theorem Db.Enrols.refl (db : Db) : db.Enrols db := fun _ row found => ⟨row, found, rfl⟩

theorem Db.Enrols.trans {a b c : Db} (first : a.Enrols b) (second : b.Enrols c) : a.Enrols c := by
  intro w row found
  obtain ⟨row', found', same⟩ := first w row found
  obtain ⟨row'', found'', same'⟩ := second w row' found'
  exact ⟨row'', found'', same'.trans same⟩

theorem Db.Enrols.of_map {f : WorkerId → WorkerRow → WorkerRow}
    (keeps : ∀ w row, (f w row).registration = row.registration)
    (get : ∀ w, db'.workers.get w = (db.workers.get w).map (f w)) : db.Enrols db' := by
  intro w row found
  exact ⟨f w row, by rw [get, found]; rfl, keeps w row⟩

theorem Move.enrols (move : Move io op db db') (still : op.judges = false) : db.Enrols db' := by
  cases move with
  | @task r r' owner touched how jobs workers =>
    refine .of_map (f := fun w row => if owner = some w then
      { row with slotsUsed := ({ db with tasks := db'.tasks } : Db).inFlightCount w } else row)
      (fun w row => ?_) fun w => ?_
    · split <;> rfl
    · rw [workers, refresh_get]
  | job how found legal moved =>
    subst moved
    exact .refl _
  | result how put =>
    subst put
    exact .refl _
  | newWorker how inserted tasks jobs =>
    intro w row found
    refine ⟨row, ?_, rfl⟩
    rw [Table.get_insert inserted, if_neg]
    · exact found
    · rintro rfl
      exact nomatch (Table.insert_fresh inserted).symm.trans found
  | workers f keeps get tasks jobs judges => exact nomatch still.symm.trans judges
  | renew _ _ _ workers | newJob _ _ _ _ workers | newTask _ _ _ _ workers | other _ _ workers =>
    intro w row found
    exact ⟨row, workers ▸ found, rfl⟩

theorem exec_enrols (P : Platform) (io : Io) (op : DbOp) (s : Session Db) :
    s.live.Enrols (op.after P io s).live := by
  cases judges : op.judges with
  | false =>
    have moves := exec_moves P io op s
    generalize (op.after P io s).live = db at moves
    induction moves with
    | refl => exact .refl _
    | tail _ move ih => exact ih.trans (move.enrols judges)
  | true =>
    cases op with
    | heartbeatWorker v ttl =>
      have workers : (DbOp.after P io (.heartbeatWorker v ttl) s).live.workers =
          s.live.workers.update v fun row => { row with lastSeenAt := io.now, status := .alive } := by
        simp only [DbOp.after, DbOp.exec, heartbeatWorker, Txn.bind_run, Txn.live_run, Txn.write_run]
        cases ttl <;> cases (s.live.workers.get v).isSome <;> rfl
      intro w row found
      rw [workers, Table.get_update, found]
      split <;> exact ⟨_, rfl, rfl⟩
    | markDeadWorkers ttl =>
      obtain ⟨ids, _, _, workers, _⟩ := markDeadWorkers_cases io s ttl
      refine .of_map (f := fun w row => if w ∈ ids then { row with status := .dead } else row)
        (fun w row => ?_) workers
      split <;> rfl
    | _ => contradiction

/-! ## Operations in the name of a worker -/

/-- The worker in whose name an operation is made. -/
def DbOp.actor : DbOp → Option WorkerId
  | .heartbeatWorker w (some _) | .leaseNextTask w _ | .startTask _ w | .completeTask _ w _
  | .cancelRunningTask _ w | .failTask _ (some w) _ _ => some w
  | _ => none

/-- The other workers, and what is leased to them, stay as they are. -/
structure Db.Spares (db db' : Db) (w : WorkerId) : Prop where
  workers : ∀ v, v ≠ w → db'.workers.get v = db.workers.get v
  tasks : ∀ taskId r, db.tasks.get taskId = some r → r.status.inFlight = true → r.workerId ≠ some w →
    db'.tasks.get taskId = some r

theorem Db.Spares.refl (db : Db) (w : WorkerId) : db.Spares db w :=
  ⟨fun _ _ => rfl, fun _ _ found _ _ => found⟩

/-- Whose task an operation changes, and whose slots it refreshes. -/
theorem TaskMove.acts {now : Time} {r r' : TaskRow} {owner : Option WorkerId}
    (move : TaskMove db now r op r' owner) (acts : op.actor = some w) :
    (r.status.inFlight = true → r.workerId = some w) ∧ ∀ v, owner = some v → v = w := by
  cases move with
  | lease leasable =>
    cases acts
    refine ⟨fun inFlight => ?_, fun v same => (Option.some.inj same).symm⟩
    rw [leasable.queued] at inFlight
    contradiction
  | start owned leased =>
    cases acts
    exact ⟨fun _ => owned, fun v same => nomatch same⟩
  | complete owned running =>
    cases acts
    exact ⟨fun _ => owned, fun v same => (Option.some.inj same).symm⟩
  | fail owned legal =>
    cases owner with
    | none => contradiction
    | some v =>
      cases acts
      exact ⟨fun _ => owned rfl, fun v same => (Option.some.inj same).symm⟩
  | resolve reaps inFlight job => cases op <;> contradiction
  | cancel waiting => contradiction
  | stop owned legal =>
    cases acts
    exact ⟨fun _ => owned, fun v same => (Option.some.inj same).symm⟩

theorem Move.spares (move : Move io op db db') (acts : op.actor = some w) (still : op.judges = false) :
    db.Spares db' w := by
  cases move with
  | @task r r' owner touched how jobs workers =>
    obtain ⟨owned, refreshes⟩ := how.acts acts
    constructor
    · intro v other
      have apart : owner ≠ some v := fun same => other (refreshes v same)
      rw [workers, refresh_get]
      simp only [apart, if_false]
      exact Option.map_id'
    · intro taskId q found inFlight foreign
      rcases touched.get found with ⟨_, rfl, _⟩ | ⟨_, kept⟩
      · exact absurd (owned inFlight) foreign
      · exact kept
  | job how found legal moved =>
    subst moved
    exact ⟨fun _ _ => rfl, fun _ _ found _ _ => found⟩
  | result how put =>
    subst put
    exact ⟨fun _ _ => rfl, fun _ _ found _ _ => found⟩
  | renew how tasks jobs workers =>
    subst how
    contradiction
  | newJob creates | newTask creates => cases op <;> contradiction
  | newWorker how =>
    subst how
    contradiction
  | workers f keeps get tasks jobs judges => cases still.symm.trans judges
  | other tasks jobs workers =>
    exact ⟨fun _ _ => by rw [workers], fun _ _ found _ _ => by rw [tasks]; exact found⟩

theorem exec_spares (P : Platform) (io : Io) (s : Session Db) (acts : op.actor = some w) :
    s.live.Spares (op.after P io s).live w := by
  have single (single : op.single = true) (still : op.judges = false) :
      s.live.Spares (op.after P io s).live w := by
    obtain same | move := exec_stutters P io single s
    · rw [same]
      exact .refl _ _
    · exact move.spares acts still
  cases op with
  | leaseNextTask | startTask | completeTask | failTask | cancelRunningTask => exact single rfl rfl
  | heartbeatWorker v ttl =>
    cases ttl with
    | none => contradiction
    | some ttl =>
      cases acts
      obtain ⟨_, workers, tasks⟩ := heartbeatWorker_cases io s w ttl
      constructor
      · intro v other
        refine (workers v).trans ?_
        simp only [other, if_false]
        exact Option.map_id'
      · intro taskId r found inFlight foreign
        refine (tasks taskId).trans ?_
        simp [found, foreign]
  | _ => contradiction

/-- The calls that leave the workers and the tasks alone. -/
theorem exec_silent (P : Platform) (io : Io) (s : Session Db)
    (silent : op.common = true ∨ ∃ jobId, op.writesFinal jobId) :
    (op.after P io s).live.workers = s.live.workers ∧ (op.after P io s).live.tasks = s.live.tasks := by
  simp only [DbOp.after]
  cases op with
  | findJobByIdempotency | getJob | getTask | listTasksForJob | tasksForWorker | getWorker
  | listJobArtifacts | linkJobArtifact | clearJobArtifactRole => exact ⟨rfl, rfl⟩
  | addEvent event =>
    rcases addEvent_cases P io s event with ⟨_, ran⟩ | ⟨_, _, ran⟩ <;>
    · rw [DbOp.exec, ran]
      exact ⟨rfl, rfl⟩
  | setJobResult jobId agg =>
    rw [DbOp.exec]
    rcases setJobResult_cases (P := P) io s jobId agg with ⟨_, ran⟩ | ⟨_, _, ran⟩ <;>
    · rw [ran]
      exact ⟨rfl, rfl⟩
  | trySetJobStatus jobId new =>
    rw [DbOp.exec]
    rcases trySetJobStatus_cases io s jobId new with ⟨_, _, _, ran⟩ | ⟨ran, _⟩ <;>
    · rw [ran]
      exact ⟨rfl, rfl⟩
  | _ => obtain common | ⟨_, final⟩ := silent <;> contradiction

/-! ## Requests in the name of a worker -/

/-- The worker a request of the worker API acts for, and who asks. -/
def Request.actor : Request → Option (WorkerId × String)
  | .heartbeat w principal | .lease w principal | .startTask _ w principal
  | .completeTask _ _ _ w principal | .failTask _ _ _ w principal => some (w, principal.name)
  | _ => none

/-- The worker is registered, to this principal or to none. -/
def Db.Grants (db : Db) (w : WorkerId) (name : String) : Prop :=
  ∃ row, db.workers.get w = some row ∧ (row.principal = none ∨ row.principal = some name)

theorem Db.Grants.later {name : String} (grants : db.Grants w name) (enrols : db.Enrols db') :
    db'.Grants w name := by
  obtain ⟨row, found, owner⟩ := grants
  obtain ⟨row', found', same⟩ := enrols w row found
  have principal : row'.principal = row.principal := congrArg (fun r => r.2.2.2) same
  exact ⟨row', found', by rwa [principal]⟩

/-- Before it knows that the worker is its principal's, a request only reads. -/
def acting (actor : Option (WorkerId × String)) (α : Type) : Contract Call Call.Ret Fault α (Session Db) where
  inv _ := True
  rely _ s t := s.live.Enrols t.live
  admits _ _ _ := True
  gives s c _ _ := ∀ w name, actor = some (w, name) → c.op.common = true ∨ s.live.Grants w name

section
variable {name : String} {α : Type} {k : Unit → Prog α}

theorem granted_obeys (p : Prog α) (s : Session Db) (grants : s.live.Grants w name) :
    p.Obeys (machine P) (acting (some (w, name)) α) (fun _ _ => True) s := by
  induction p generalizing s with
  | ret value => trivial
  | raise error => trivial
  | call c next ih =>
    intro s' enrols _ io _ _
    have still := grants.later enrols
    refine ⟨fun v n same => ?_, ih _ _ (still.later (exec_enrols P io c.op s'))⟩
    cases same
    exact .inr still

/-- A read, and what follows it. -/
theorem acting_read {site : Site} {k : op.Ret → Prog α} (common : op.common = true)
    (next : ∀ s' io value, op.exec P io s' = (.ok value, op.after P io s') →
      (k value).Obeys (machine P) (acting (some (w, name)) α) (fun _ _ => True) (op.after P io s')) :
    (perform site op >>= k).Obeys (machine P) (acting (some (w, name)) α) (fun _ _ => True) s := by
  refine obeys_perform fun s' io _ _ _ => ⟨fun value t ran _ => ⟨fun _ _ _ => .inl common, ?_⟩,
    fun _ _ _ _ => ⟨fun _ _ _ => .inl common, trivial⟩⟩
  have after : t = op.after P io s' := (congrArg Prod.snd ran).symm
  subst after
  exact next s' io value ran

/-- `_require_worker_principal` lets on only whom the worker is registered to. -/
theorem acting_worker {v : WorkerId} {principal : Principal} {k : WorkerRow → Prog α}
    (next : ∀ s row, s.live.Grants v principal.name →
      (k row).Obeys (machine P) (acting (some (w, name)) α) (fun _ _ => True) s) :
    (Route.requireWorkerPrincipal v principal >>= k).Obeys (machine P) (acting (some (w, name)) α)
      (fun _ _ => True) s := by
  unfold Route.requireWorkerPrincipal
  rw [Program.bind_assoc]
  refine acting_read rfl fun s' io found ran => ?_
  cases ran
  cases found : s'.live.workers.get v with
  | none => trivial
  | some row =>
    dsimp only
    cases owner : row.principal with
    | none => exact next _ row ⟨row, found, .inl owner⟩
    | some other =>
      dsimp only
      split
      · trivial
      · rename_i same
        exact next _ row ⟨row, found, .inr (owner.trans (congrArg some (not_not.mp same)))⟩

theorem acting_reporter {taskId : TaskId} {principal : Principal} {k : TaskRow → Prog α} :
    (Route.requireTaskReporter taskId w principal >>= k).Obeys (machine P)
      (acting (some (w, principal.name)) α) (fun _ _ => True) s := by
  unfold Route.requireTaskReporter Route.requireTaskWorkerPrincipal
  simp only [Program.bind_assoc]
  refine acting_read rfl fun s' io found ran => ?_
  cases found with
  | none => trivial
  | some row =>
    dsimp only
    cases owner : row.workerId with
    | none => trivial
    | some v =>
      dsimp only
      rw [Program.bind_assoc]
      refine acting_worker fun t worker grants => ?_
      simp only [Program.pure_eq, Program.ret_bind, owner]
      split
      · trivial
      · rename_i same
        cases not_not.mp same
        exact granted_obeys _ _ grants

/-- Every request of the worker API checks before it writes. -/
theorem handler_acts (request : Request) (s : Session Db) :
    (handler P config request).Obeys (machine P) (acting request.actor Reply) (fun _ _ => True) s := by
  have idle (none : request.actor = none) : ∀ (p : Prog Reply) (s : Session Db),
      p.Obeys (machine P) (acting request.actor Reply) (fun _ _ => True) s := by
    intro p
    induction p with
    | ret value => exact fun _ => trivial
    | raise error => exact fun _ => trivial
    | call c next ih =>
      exact fun _ _ _ _ _ _ _ => ⟨fun _ _ same => (nomatch none.symm.trans same), ih _ _⟩
  cases request with
  | heartbeat w principal => exact acting_worker fun t _ grants => granted_obeys _ t grants
  | lease w principal => exact acting_worker fun t _ grants => granted_obeys _ t grants
  | startTask taskId w principal => exact acting_worker fun t _ grants => granted_obeys _ t grants
  | completeTask attempt taskId result w principal => exact acting_reporter
  | failTask attempt taskId failure w principal => exact acting_reporter
  | _ => exact idle rfl _ s

end

/-! ## Runs -/

theorem acting_rules (P : Platform) (config : ServerConfig) :
    System.Cooperates (server P config) (server P config).Lawful (fun request => acting request.actor Reply)
      (fun _ _ _ => True) fun _ => True where
  shared _ _ holds := holds
  trans _ _ _ _ _ first second := first.trans second
  same _ _ s _ := .refl s.live
  spawned p request _ _ := handler_acts request p.store
  allowed _ _ _ _ c _ found allowed _ := ⟨allowed c (waiting_of found), trivial⟩
  keeps _ _ _ _ _ _ _ _ _ _ := trivial
  relied p _ io _ c _ _ _ _ _ _ _ _ _ :=
    ⟨fun _ _ _ => exec_enrols P io c.op p.store, fun _ _ => trivial⟩
  recovers _ _ _ := trivial

/-- What a request may make in the name of its worker. -/
theorem makes_actor {request : Request} {name : String} (acts : request.actor = some (w, name))
    (makes : request.makes config op) :
    (op.common = true ∨ ∃ jobId, op.writesFinal jobId) ∨ op.actor = some w := by
  obtain common | writes | ⟨_, final⟩ := makes
  · exact .inl (.inl common)
  · refine .inr ?_
    cases request with
    | heartbeat v principal =>
      cases acts
      cases op <;> first | contradiction | skip
      obtain ⟨rfl, rfl⟩ := writes
      rfl
    | lease v principal =>
      cases acts
      cases op <;> first | contradiction | skip
      obtain ⟨rfl, _⟩ := writes
      rfl
    | startTask taskId v principal =>
      cases acts
      cases op <;> first | contradiction | skip
      obtain ⟨_, rfl⟩ := writes
      rfl
    | completeTask attempt taskId result v principal =>
      cases acts
      cases op <;> first | contradiction | skip
      · obtain ⟨rfl, _⟩ := writes
        rfl
      · obtain rfl := writes
        rfl
    | failTask attempt taskId failure v principal =>
      cases acts
      cases op <;> first | contradiction | skip
      · obtain ⟨rfl, _⟩ := writes
        rfl
      · obtain rfl := writes
        rfl
    | _ => contradiction
  · exact .inl (.inr final)

/-- A turn of a request of the worker API changes neither a worker of another principal nor
a task in flight under one. -/
theorem others_untouched (P : Platform) (config : ServerConfig) (p q : ServerPool)
    (run : System.Reaches (server P config) (server P config).Lawful started p) (i : Nat) (io : Io)
    (lawful : (server P config).Lawful p (.sched i io))
    (stepped : (server P config).take p (.sched i io) = some q)
    (request : Request) (program : Prog Reply) (found : p.threads[i]? = some ⟨request, program⟩)
    (w : WorkerId) (name : String) (acts : request.actor = some (w, name))
    (v : WorkerId) (row : WorkerRow) (registered : p.store.live.workers.get v = some row)
    (other : String) (owner : row.principal = some other) (apart : other ≠ name) :
    q.store.live.workers.get v = some row ∧
      ∀ taskId task, p.store.live.tasks.get taskId = some task → task.status.inFlight = true →
        task.workerId = some v → q.store.live.tasks.get taskId = some task := by
  obtain ⟨request', c, next, found', rfl⟩ := System.sched_cases stepped
  cases found.symm.trans found'
  have requesting : Requesting config p :=
    run.invariant (fun requesting _ stepped => requesting.step stepped) started_requesting
  have obey := ((acting_rules P config).run run trivial fun _ member => nomatch member).2
  obtain ⟨gives, _⟩ := (acting_rules P config).given trivial obey found lawful
  have silent (silent : c.op.common = true ∨ ∃ jobId, c.op.writesFinal jobId) :
      (c.op.after P io p.store).live.workers.get v = some row ∧
        ∀ taskId task, p.store.live.tasks.get taskId = some task → task.status.inFlight = true →
          task.workerId = some v → (c.op.after P io p.store).live.tasks.get taskId = some task := by
    obtain ⟨workers, tasks⟩ := exec_silent P io p.store silent
    exact ⟨workers ▸ registered, fun _ _ held _ _ => tasks ▸ held⟩
  obtain quiet | mine := makes_actor acts (requesting.made found)
  · exact silent quiet
  · obtain common | ⟨row', found', principal⟩ := gives w name acts
    · exact silent (.inl common)
    · have foreign : v ≠ w := by
        rintro rfl
        cases registered.symm.trans found'
        obtain none | same := principal
        · cases owner.symm.trans none
        · exact apart (Option.some.inj (owner.symm.trans same))
      have spares := exec_spares P io p.store mine
      refine ⟨(spares.workers v foreign).trans registered, fun taskId task held inFlight under => ?_⟩
      exact spares.tasks taskId task held inFlight (by rw [under]; simpa using foreign)

/-- Beside a task that runs on one principal's worker, another principal's worker is about
to be seen. -/
def neighbourTurns : List Turn :=
  runningTurns ++ [.spawn (.registerWorker equipped { name := "other" }),
    .sched 4 { now := 5, uuid := fun _ => "1" }] ++ turns 4 1 5 ++
  [.spawn (.heartbeat "worker_1" { name := "other" })] ++ turns 5 1 6

theorem others_untouched_neighbour :
    ∃ p q task, System.Reaches (server .plain {}) (server .plain {}).Lawful started p ∧
      (server .plain {}).take p (.sched 5 { now := 7 }) = some q ∧
      p.store.live.tasks.get "task_1" = some task ∧ task.status.inFlight = true ∧
      q.store.live.tasks.get "task_1" = some task := by
  have played : (((server .plain {}).play (server .plain {}).Lawful neighbourTurns started).any fun p =>
      (p.threads[5]?.any fun th => th.request.actor == some ("worker_1", "other")) &&
      decide ((server .plain {}).Lawful p (.sched 5 { now := 7 })) &&
      ((server .plain {}).take p (.sched 5 { now := 7 })).isSome &&
      (p.store.live.tasks.get "task_1").any (fun task => task.status.inFlight && task.workerId == some "worker_0") &&
      (p.store.live.workers.get "worker_0").any fun row => row.principal == some "dev") = true := by
    decide +kernel
  obtain ⟨p, run, facts⟩ := System.play_any played
  clear played
  simp only [Bool.and_eq_true, decide_eq_true_eq, Option.any_eq_true, beq_iff_eq] at facts
  obtain ⟨⟨⟨⟨⟨th, place, acts⟩, lawful⟩, turn⟩, task, held, inFlight, under⟩, row, registered, owner⟩ := facts
  obtain ⟨q, stepped⟩ := Option.isSome_iff_exists.mp turn
  have kept := others_untouched .plain {} p q run 5 { now := 7 } lawful stepped th.request th.program place
    "worker_1" "other" acts "worker_0" row registered "dev" owner (by decide)
  exact ⟨p, q, task, run, stepped, held, inFlight, kept.2 "task_1" task held inFlight under⟩

end N4Cluster
