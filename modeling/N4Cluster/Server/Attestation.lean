import N4Cluster.Server.Mediation
import N4Cluster.Server.Ownership
import N4Cluster.Server.References
import N4Cluster.Server.Standings
import N4Cluster.Server.Submissions

/-! What the server vouches for. The owner of a job, the principal of a worker and the
provenance of a result are never what a client says they are: in every run of a service with
principals configured they name somebody who holds the right, every stored request is one
that was admitted, and every task carries what its job's request asks for. -/
namespace N4Cluster
open Relational Transactional Relation Interleave

variable {P : Platform} {printable : Char → Bool} {config : ServiceConfig} {io : Io} {op : DbOp} {db db' : Db}
  {s : Session Db} {taskId : TaskId} {jobId : JobId} {w : WorkerId}

/-! ## Genuine rows -/

/-- A principal of the configuration with the right. -/
def ServiceConfig.Holds (config : ServiceConfig) (right : Right) (principal : Principal) : Prop :=
  ∃ t ∈ config.authorizer, t.toPrincipal = principal ∧ principal.has right = true

/-- A request as the server writes it, of somebody who may submit. -/
def ServiceConfig.Admits (config : ServiceConfig) (req : JobRequest) (owner : Option String) : Prop :=
  ∃ sent principal, config.Holds .submit principal ∧
    (sent.pipelineListHasPython && !config.allowPythonJobs) = false ∧
    req = Route.acceptedRequest sent principal ∧ owner = some principal.name

def ServiceConfig.Enlists (config : ServiceConfig) (name : Option String) : Prop :=
  ∃ principal, config.Holds .execute principal ∧ name = some principal.name

/-- The payload is made of the stored request of the job. -/
def Db.Delivers (db : Db) (jobId : JobId) (payload : PayloadJson) : Prop :=
  ∃ row, db.jobs.get jobId = some row ∧ ∃ pair ∈ row.request.pairs, payload = row.request.payloadOf pair

/-- What the server writes about a report: the principal that the worker is registered for, the
job of the task, and an attempt that was given. -/
def Db.Vouches (db : Db) (config : ServiceConfig) (taskId : TaskId) (w : WorkerId) (provenance : ResultProvenance) : Prop :=
  ∃ principal worker r k, config.Holds .execute principal ∧
    db.workers.get w = some worker ∧ worker.principal = some principal.name ∧
    db.tasks.get taskId = some r ∧ k ≤ r.attempt ∧
    provenance =
      { reportedByPrincipal := some principal.name, workerId := some w, jobId := some r.jobId, taskId := some taskId,
        attempt := some k, grantedRights := principal.rightValues }

structure Db.Genuine (config : ServiceConfig) (db : Db) : Prop where
  jobs : ∀ jobId row, db.jobs.get jobId = some row → config.Admits row.request row.owner
  tasks : ∀ taskId r, db.tasks.get taskId = some r → db.Delivers r.jobId r.payload
  workers : ∀ w row, db.workers.get w = some row → config.Enlists row.principal
  results : ∀ taskId r result, db.tasks.get taskId = some r → r.result = some result →
    r.status = .succeeded ∧ ∃ w, r.workerId = some w ∧ db.Vouches config taskId w result.provenance

/-- A call that writes what is genuine. -/
def DbOp.Genuine (config : ServiceConfig) (db : Db) : DbOp → Prop
  | .createJobWithTasks req owner => config.Admits req owner
  | .registerWorker _ name => config.Enlists name
  | .completeTask taskId w result => db.Vouches config taskId w result.provenance
  | _ => True

/-- What was vouched for stays so. -/
structure Upholds (db db' : Db) : Prop where
  evolves : Evolves db db'
  enrols : db.Enrols db'
  attempts : ∀ taskId, db.attempts taskId ≤ db'.attempts taskId

theorem Upholds.refl (db : Db) : Upholds db db := ⟨.refl db, .refl db, fun _ => Nat.le_refl _⟩

theorem Upholds.trans {a b c : Db} (first : Upholds a b) (second : Upholds b c) : Upholds a c :=
  ⟨first.evolves.trans second.evolves, first.enrols.trans second.enrols,
    fun taskId => (first.attempts taskId).trans (second.attempts taskId)⟩

theorem Upholds.task (upholds : Upholds db db') {r : TaskRow} (found : db.tasks.get taskId = some r) :
    ∃ r', db'.tasks.get taskId = some r' ∧ r'.jobId = r.jobId ∧ r.attempt ≤ r'.attempt := by
  obtain ⟨r', found', job, _⟩ := upholds.evolves.task taskId r found
  have attempts := upholds.attempts taskId
  rw [Db.attempts, Db.attempts, found, found'] at attempts
  exact ⟨r', found', job, attempts⟩

theorem Upholds.worker (upholds : Upholds db db') {row : WorkerRow} (found : db.workers.get w = some row) :
    ∃ row', db'.workers.get w = some row' ∧ row'.principal = row.principal := by
  obtain ⟨row', found', same⟩ := upholds.enrols w row found
  exact ⟨row', found', congrArg (fun registration => registration.2.2.2) same⟩

theorem Db.Delivers.later {payload : PayloadJson} (delivers : db.Delivers jobId payload) (upholds : Upholds db db') :
    db'.Delivers jobId payload := by
  obtain ⟨row, found, pair, member, same⟩ := delivers
  obtain ⟨row', found', request, _⟩ := upholds.evolves.job jobId row found
  exact ⟨row', found', pair, request.symm ▸ member, request.symm ▸ same⟩

theorem Db.Vouches.later {provenance : ResultProvenance} (vouches : db.Vouches config taskId w provenance)
    (upholds : Upholds db db') : db'.Vouches config taskId w provenance := by
  obtain ⟨principal, worker, r, k, holds, registered, named, found, given, same⟩ := vouches
  obtain ⟨worker', registered', principal'⟩ := upholds.worker registered
  obtain ⟨r', found', job, attempts⟩ := upholds.task found
  refine ⟨principal, worker', r', k, holds, registered', principal'.trans named, found', given.trans attempts, ?_⟩
  rw [job]
  exact same

theorem exec_upholds (routed : op.routed = true) (fresh : Fresh io s.live op) (sound : Sound s) :
    Upholds s.live (op.after P io s).live :=
  ⟨(exec_sound (P := P) routed fresh sound).2, exec_enrols P io op s, exec_attempts_le P io op s⟩

theorem Move.submitted (move : Move io op db db') (creates : op.creates = false) {row' : JobRow}
    (found : db'.jobs.get jobId = some row') :
    ∃ row, db.jobs.get jobId = some row ∧ row'.request = row.request ∧ row'.owner = row.owner := by
  cases move with
  | task touched how jobs workers =>
    rw [jobs] at found
    split at found
    · rw [maybeJobRunning_get] at found
      obtain ⟨row, before, rfl⟩ := Option.map_eq_some_iff.mp found
      refine ⟨row, before, ?_⟩
      split <;> exact ⟨rfl, rfl⟩
    · exact ⟨row', found, rfl, rfl⟩
  | job how present legal moved =>
    subst moved
    rw [moveJob_get] at found
    split at found
    · obtain ⟨row, before, rfl⟩ := Option.map_eq_some_iff.mp found
      exact ⟨row, before, rfl, rfl⟩
    · exact ⟨row', found, rfl, rfl⟩
  | result how put =>
    subst put
    rw [putResult_get] at found
    split at found
    · obtain ⟨row, before, rfl⟩ := Option.map_eq_some_iff.mp found
      exact ⟨row, before, rfl, rfl⟩
    · exact ⟨row', found, rfl, rfl⟩
  | newJob creating | newTask creating => cases creates.symm.trans creating
  | renew _ _ jobs | newWorker _ _ _ jobs | workers _ _ _ _ jobs | other _ jobs =>
    exact ⟨row', jobs ▸ found, rfl, rfl⟩

theorem exec_submitted (creates : op.creates = false) {row' : JobRow}
    (found : (op.after P io s).live.jobs.get jobId = some row') :
    ∃ row, s.live.jobs.get jobId = some row ∧ row'.request = row.request ∧ row'.owner = row.owner := by
  have moves := exec_moves P io op s
  generalize (op.after P io s).live = db at moves found
  induction moves generalizing row' with
  | refl => exact ⟨row', found, rfl, rfl⟩
  | tail _ move ih =>
    obtain ⟨row, between, request, owner⟩ := move.submitted creates found
    obtain ⟨first, before, request', owner'⟩ := ih between
    exact ⟨first, before, request.trans request', owner.trans owner'⟩

/-- A worker row was registered before, for the same principal, or is registered now. -/
theorem exec_enlisted {row' : WorkerRow} (found : (op.after P io s).live.workers.get w = some row') :
    (∃ row, s.live.workers.get w = some row ∧ row'.principal = row.principal) ∨
      ∃ reg name, op = .registerWorker reg name ∧ row'.principal = name := by
  cases before : s.live.workers.get w with
  | some row =>
    obtain ⟨row'', found', same⟩ := exec_enrols P io op s w row before
    cases found.symm.trans found'
    exact .inl ⟨row, rfl, congrArg (fun registration => registration.2.2.2) same⟩
  | none =>
    have moves := exec_moves P io op s
    by_cases registers : ∃ reg name, op = .registerWorker reg name
    · obtain ⟨reg, name, rfl⟩ := registers
      rcases registerWorker_cases io s reg name with ⟨workers, inserted, ran⟩ | ⟨error, ran⟩
      all_goals simp only [DbOp.after, DbOp.exec, ran] at found
      · change workers.get w = some row' at found
        rw [Table.get_insert inserted] at found
        split at found
        · exact .inr ⟨reg, name, rfl, by rw [← Option.some.inj found]; rfl⟩
        · cases before.symm.trans found
      · cases before.symm.trans found
    · have absent : (op.after P io s).live.workers.get w = none := by
        refine moves.rec (motive := fun db _ => db.workers.get w = none) before fun _ move none => ?_
        cases move with
        | task touched how jobs workers =>
          rw [workers, refresh_get]
          exact congrArg _ none
        | job how present legal moved => exact moved ▸ none
        | result how put => exact put ▸ none
        | newWorker how => exact absurd ⟨_, _, how⟩ registers
        | workers f keeps get =>
          rw [get, none]
          rfl
        | renew _ _ _ workers | newJob _ _ _ _ workers | newTask _ _ _ _ workers | other _ _ workers =>
          exact workers ▸ none
      cases absent.symm.trans found

/-- Only success leaves a result. -/
def TaskRow.Unrewarded (r : TaskRow) : Prop := r.status ≠ .succeeded → r.result = none

theorem TaskMove.unrewarded {now : Time} {r r' : TaskRow} {o : Option WorkerId} (how : TaskMove db now r op r' o)
    (before : r.Unrewarded) : r'.Unrewarded := by
  intro still
  cases how with
  | lease leasable => exact before (by rw [leasable.queued]; rintro ⟨⟩)
  | start owned leased => exact before (by rw [leased]; rintro ⟨⟩)
  | complete owned running => exact absurd rfl still
  | fail owned legal =>
    have empty := before fun succeeded => by rw [succeeded] at legal; contradiction
    unfold TaskRow.fail
    split <;> exact empty
  | resolve reaps inFlight =>
    have empty := before fun succeeded => by rw [succeeded] at inFlight; contradiction
    unfold TaskRow.resolve
    split
    · exact empty
    · split <;> exact empty
  | cancel waiting => exact before (by rcases waiting with queued | leased <;> simp [*])
  | stop owned legal => exact before fun succeeded => by rw [succeeded] at legal; contradiction

theorem Move.unrewarded (move : Move io op db db')
    (before : ∀ taskId r, db.tasks.get taskId = some r → r.Unrewarded) {r' : TaskRow}
    (found : db'.tasks.get taskId = some r') : r'.Unrewarded := by
  cases move with
  | task touched how jobs workers =>
    rcases touched.back found with ⟨rfl, rfl⟩ | ⟨_, old⟩
    · exact how.unrewarded (before _ _ touched.found)
    · exact before taskId r' old
  | renew how tasks jobs workers =>
    rw [tasks, Db.renewLeases, Table.get_updateWhere] at found
    obtain ⟨r, old, rfl⟩ := Option.map_eq_some_iff.mp found
    have empty := before taskId r old
    split <;> exact empty
  | newTask creates job inserted jobs workers =>
    rw [Table.get_insert inserted] at found
    split at found
    · cases found
      exact fun _ => rfl
    · exact before taskId r' found
  | job how present legal moved =>
    subst moved
    exact before taskId r' found
  | result how put =>
    subst put
    exact before taskId r' found
  | newJob _ _ _ tasks | newWorker _ _ tasks | workers _ _ _ tasks | other tasks => exact before taskId r' (tasks ▸ found)

theorem exec_unrewarded (before : ∀ taskId r, s.live.tasks.get taskId = some r → r.Unrewarded) {r' : TaskRow}
    (found : (op.after P io s).live.tasks.get taskId = some r') : r'.Unrewarded :=
  (exec_moves P io op s).rec (motive := fun db _ => ∀ taskId r, db.tasks.get taskId = some r → r.Unrewarded) before
    (fun _ move all _ _ => move.unrewarded all) taskId r' found

theorem exec_delivers (routed : op.routed = true) (fresh : Fresh io s.live op) (sound : Sound s)
    (before : ∀ taskId r, s.live.tasks.get taskId = some r → s.live.Delivers r.jobId r.payload) {r' : TaskRow}
    (found : (op.after P io s).live.tasks.get taskId = some r') :
    (op.after P io s).live.Delivers r'.jobId r'.payload := by
  have upholds := exec_upholds (P := P) routed fresh sound
  have old {r : TaskRow} (held : s.live.tasks.get taskId = some r) (job : r.jobId = r'.jobId)
      (payload : r.payload = r'.payload) : (op.after P io s).live.Delivers r'.jobId r'.payload :=
    job ▸ payload ▸ (before taskId r held).later upholds
  cases creates : op.creates with
  | false =>
    obtain ⟨member, rfl⟩ := Table.get_eq_some.mp found
    have origin : r'.origin ∈ s.live.origins := exec_origins (P := P) io creates ▸ List.mem_map_of_mem member
    obtain ⟨r, there, same⟩ := List.mem_map.mp origin
    simp only [TaskRow.origin, Prod.mk.injEq] at same
    obtain ⟨name, job, payload⟩ := same
    have held : s.live.tasks.get r'.id = some r := name ▸ Table.get_of_mem there
    exact old held job payload
  | true =>
    cases op with
    | createJobWithTasks req owner =>
      rcases createJobWithTasks_cases (P := P) fresh with ⟨db, created, _, _, _, ran⟩ | ⟨_, ran⟩ | ⟨_, _, ran⟩
      · simp only [DbOp.after, DbOp.exec, ran] at found ⊢
        obtain ⟨member, rfl⟩ := Table.get_eq_some.mp found
        rcases List.mem_append.mp (created.tasks ▸ member) with there | new
        · have later := (before _ r' (Table.get_of_mem there)).later upholds
          simp only [DbOp.after, DbOp.exec, ran] at later
          exact later
        · refine ⟨jobRowOf io req (genId "job" (io.uuid 0)) owner, ?_, ?_⟩
          · rw [Session.settled, created.get_job, if_pos (newTasks_fields new).1]
          · have payload : r'.payload ∈ req.pairs.map req.payloadOf :=
              newTasks_payloads io req _ req.pairs 1 ▸ List.mem_map_of_mem new
            obtain ⟨pair, asked, same⟩ := List.mem_map.mp payload
            exact ⟨pair, asked, same.symm⟩
      all_goals
        simp only [DbOp.after, DbOp.exec, ran] at found ⊢
        exact before taskId r' found
    | _ => contradiction

theorem exec_admits (fresh : Fresh io s.live op) (genuine : s.live.Genuine config) (routed : op.routed = true)
    (due : op.Genuine config s.live) {row' : JobRow}
    (found : (op.after P io s).live.jobs.get jobId = some row') : config.Admits row'.request row'.owner := by
  cases creates : op.creates with
  | false =>
    obtain ⟨row, before, request, owner⟩ := exec_submitted creates found
    rw [request, owner]
    exact genuine.jobs jobId row before
  | true =>
    cases op with
    | createJobWithTasks req owner =>
      rcases createJobWithTasks_cases (P := P) fresh with ⟨db, created, _, _, _, ran⟩ | ⟨_, ran⟩ | ⟨_, _, ran⟩
      all_goals simp only [DbOp.after, DbOp.exec, ran] at found
      · rw [Session.settled, created.get_job] at found
        split at found
        · cases found
          exact due
        · exact genuine.jobs jobId row' found
      all_goals exact genuine.jobs jobId row' found
    | _ => contradiction

/-- A call that writes what is genuine keeps the store genuine. -/
theorem exec_genuine (routed : op.routed = true) (fresh : Fresh io s.live op) (sound : Sound s)
    (genuine : s.live.Genuine config) (due : op.Genuine config s.live) : (op.after P io s).live.Genuine config := by
  have upholds := exec_upholds (P := P) routed fresh sound
  refine ⟨fun jobId row' found => exec_admits fresh genuine routed due found, fun taskId r' found =>
    exec_delivers routed fresh sound genuine.tasks found, fun w row' found => ?_, fun taskId r' result found has => ?_⟩
  · rcases exec_enlisted found with ⟨row, before, same⟩ | ⟨reg, name, rfl, same⟩
    · exact same ▸ genuine.workers w row before
    · exact same ▸ due
  · have unrewarded : r'.Unrewarded := by
      refine exec_unrewarded (fun taskId r before pending => ?_) found
      cases held : r.result with
      | none => rfl
      | some result => exact absurd (genuine.results taskId r result before held).1 pending
    have succeeded : r'.status = .succeeded := by
      by_contra pending
      cases (unrewarded pending).symm.trans has
    refine ⟨succeeded, ?_⟩
    rcases exec_completed found succeeded with before | ⟨w, stored, r, rfl, before, owned, running, rfl⟩
    · obtain ⟨_, w, owned, vouches⟩ := genuine.results taskId r' result before has
      exact ⟨w, owned, vouches.later upholds⟩
    · cases has
      exact ⟨w, owned, Db.Vouches.later due upholds⟩

/-! ## What routes write -/

/-- Calls write only what is genuine. -/
def attesting (P : Platform) (config : ServiceConfig) : Discipline (machine P) where
  inv s := Sound s ∧ s.live.Genuine config
  moves s t := Upholds s.live t.live
  due s c := c.op.routed = true ∧ c.op.Genuine config s.live
  refl s := .refl s.live
  trans := Upholds.trans
  kept inv fresh due := ⟨⟨(exec_sound (P := P) due.1 fresh inv.1).1, exec_genuine (P := P) due.1 fresh inv.1 inv.2 due.2⟩,
    exec_upholds (P := P) due.1 fresh inv.1⟩

section
variable {α : Type} {site : Site} {principal : Principal}

/-- Calls that are genuine on every store. -/
theorem attests_calls {p : Prog α} (routed : Calls DbOp.routed p)
    (genuine : p.AllCalls fun c => ∀ db, c.op.Genuine config db) (s : Session Db) :
    (attesting P config).Keeps (fun _ _ => True) p s :=
  .of_calls (D := attesting P config) (Program.AllCalls.and routed genuine) (fun t _ _ due => ⟨due.1, due.2 t.live⟩) s

theorem genuine_of_makes {request : Request} (makes : request.makes config.toServerConfig op)
    (written : request.writes config.toServerConfig op → ∀ db, op.Genuine config db) (db : Db) :
    op.Genuine config db := by
  obtain common | writes | ⟨_, jobId, writes⟩ := makes
  · cases op <;> trivial
  · exact written writes db
  · cases op <;> trivial

theorem attests_makes {request : Request} {p : Prog α} (routed : Calls DbOp.routed p)
    (makes : Makes config.toServerConfig request p)
    (written : ∀ op, request.writes config.toServerConfig op → ∀ db, op.Genuine config db) (s : Session Db) :
    (attesting P config).Keeps (fun _ _ => True) p s :=
  attests_calls routed (Program.AllCalls.mono (fun c makes => genuine_of_makes makes (written c.op)) makes) s

theorem attests_reads {p : Prog α} (reads : Calls DbOp.reads p) (s : Session Db) :
    (attesting P config).Keeps (fun _ _ => True) p s := by
  refine attests_calls (reads.mono fun op reads => ?_) (Program.AllCalls.mono (fun c reads db => ?_) reads) s
  · cases op <;> first | rfl | contradiction
  · generalize c.op = op at reads
    cases op <;> trivial

/-- The worker is registered for the principal. -/
def Db.Serves (db : Db) (principal : Principal) (w : WorkerId) : Prop :=
  ∃ worker, db.workers.get w = some worker ∧ worker.principal = some principal.name

/-- The row was the worker's when it was read, and the worker is the principal's. -/
structure Db.Reporter (db : Db) (principal : Principal) (row : TaskRow) (w : WorkerId) : Prop where
  task : ∃ r, db.tasks.get row.id = some r ∧ r.jobId = row.jobId ∧ row.attempt ≤ r.attempt
  worker : db.Serves principal w

theorem Db.Serves.later (serves : db.Serves principal w) (upholds : Upholds db db') : db'.Serves principal w := by
  obtain ⟨worker, registered, named⟩ := serves
  obtain ⟨worker', registered', same⟩ := upholds.worker registered
  exact ⟨worker', registered', same.trans named⟩

theorem Db.Reporter.later {row : TaskRow} (reporter : db.Reporter principal row w) (upholds : Upholds db db') :
    db'.Reporter principal row w := by
  obtain ⟨⟨r, found, job, given⟩, worker⟩ := reporter
  obtain ⟨r', found', job', attempts⟩ := upholds.task found
  exact ⟨⟨r', found', job'.trans job, given.trans attempts⟩, worker.later upholds⟩

/-- What the route adds to a result is what the server can vouch for. -/
theorem Db.Reporter.vouches {row : TaskRow} (reporter : db.Reporter principal row w)
    (holds : config.Holds .execute principal) (result : TaskResult) :
    db.Vouches config row.id w (Route.attestedResult result row w principal).provenance := by
  obtain ⟨⟨r, found, job, given⟩, worker, registered, named⟩ := reporter
  refine ⟨principal, worker, r, row.attempt, holds, registered, named, found, given, ?_⟩
  rw [job]
  rfl

/-- Every worker has a principal, so none but its own gets through. -/
theorem requireWorkerPrincipal_attests (w : WorkerId) (principal : Principal) (s : Session Db) :
    (attesting P config).Keeps (fun _ t => t.live.Serves principal w) (Route.requireWorkerPrincipal w principal) s := by
  unfold Route.requireWorkerPrincipal
  refine (perform_keeps (Q := fun found t => ∀ row, found = some row →
      t.live.workers.get w = some row ∧ config.Enlists row.principal) ?_ ?_).bind fun found t _ held => ?_
  · exact fun s' io _ _ _ => ⟨rfl, trivial⟩
  · intro s' io found t _ inv _ ran _ row here
    cases ran
    exact ⟨here, inv.2.workers w row here⟩
  · cases found with
    | none => exact .raise _
    | some row =>
      obtain ⟨registered, other, _, named⟩ := held row rfl
      dsimp only
      split
      · rename_i unnamed
        cases named.symm.trans unnamed
      · rename_i owner same
        split
        · exact .raise _
        · rename_i own
          exact .ret ⟨row, registered, same.trans (congrArg some (Decidable.not_not.mp own))⟩

theorem requireTaskReporter_attests (taskId : TaskId) (w : WorkerId) (principal : Principal) (s : Session Db) :
    (attesting P config).Keeps (fun row t => t.live.Reporter principal row w)
      (Route.requireTaskReporter taskId w principal) s := by
  unfold Route.requireTaskReporter Route.requireTaskWorkerPrincipal
  refine Discipline.Keeps.bind (Q := fun row t => ∃ v, row.workerId = some v ∧ t.live.Reporter principal row v) ?_
    fun row t _ known => ?_
  · refine (perform_keeps (Q := fun found t => ∀ row, found = some row → t.live.tasks.get row.id = some row) ?_ ?_).bind
      fun found t _ held => ?_
    · exact fun s' io _ _ _ => ⟨rfl, trivial⟩
    · intro s' io found t _ _ _ ran _ row here
      cases ran
      obtain rfl : row.id = taskId := Table.get_key here
      exact here
    · cases found with
      | none => exact .raise _
      | some row =>
        dsimp only
        split
        · exact .raise _
        · rename_i v owner
          refine (requireWorkerPrincipal_attests v principal t).bind fun _ u moved serves => .ret ⟨v, owner, ?_, serves⟩
          obtain ⟨r, found, job, attempts⟩ := Upholds.task moved (held row rfl)
          exact ⟨r, found, job, attempts⟩
  · obtain ⟨v, owner, reporter⟩ := known
    split
    · exact .raise _
    · rename_i own
      cases owner.symm.trans (Decidable.not_not.mp own)
      exact .ret reporter

/-- What both reports do besides storing them. -/
theorem attests_report {p : Prog α} (routed : Calls DbOp.routed p)
    (makes : Makes config.toServerConfig (.failTask 0 "" { error := "" } w {}) p) (s : Session Db) :
    (attesting P config).Keeps (fun _ _ => True) p s :=
  attests_makes routed makes (fun op writes db => by cases op <;> trivial) s

theorem completeTask_attests (holds : config.Holds .execute principal) (taskId : TaskId) (result : TaskResult)
    (w : WorkerId) (s : Session Db) :
    (attesting P config).Keeps (fun _ _ => True) (Route.completeTask P taskId result w principal) s := by
  unfold Route.completeTask
  refine (requireTaskReporter_attests taskId w principal s).bind fun row t _ reporter => ?_
  refine Discipline.Keeps.bind (Q := fun _ _ => True) ?_ fun _ _ _ _ => .ret trivial
  refine (perform_keeps (D := attesting P config) (Q := fun _ _ => True) (fun _ _ _ _ _ => ⟨rfl, by exact trivial⟩)
    fun _ _ _ _ _ _ _ _ _ => trivial).bind fun job u moved _ => ?_
  have reporter : u.live.Reporter principal row w := reporter.later moved
  split
  · exact attests_report (stopTask_routed row w _ _) (stopTask_makes rfl (by exact rfl) _ _) u
  · refine Discipline.Keeps.bind (Q := fun _ _ => True) ?_ fun _ v _ _ => ?_
    · refine .handle (perform_keeps (D := attesting P config) (fun s' _ later _ _ => ⟨rfl, ?_⟩) fun _ _ _ _ _ _ _ _ _ => trivial)
        fun fault v _ => attests_reads (completeFailed_calls fault) v
      exact (reporter.later later).vouches holds result
    · refine attests_report (w := w) (taskCompleted_routed row result w) ?_ v
      exact (common_makes (noteMismatch_calls (fun _ => rfl) _ _ _)).bind fun _ =>
        (emit_makes _ _).bind fun _ => finalizeJob_makes rfl _

theorem submitJob_attests (holds : config.Holds .submit principal) (req : JobRequest) (s : Session Db) :
    (attesting P config).Keeps (fun _ _ => True) (Route.submitJob P config.toServerConfig req principal) s := by
  cases admitted : req.pipelineListHasPython && !config.allowPythonJobs with
  | true =>
    unfold Route.submitJob
    rw [if_pos admitted]
    exact .raise _
  | false =>
    refine attests_makes (handler_routed (.submitJob req principal)) (submitJob_makes req principal) (fun op writes db => ?_) s
    cases op with
    | createJobWithTasks req' owner =>
      obtain ⟨rfl, rfl⟩ := writes
      exact ⟨req, principal, holds, admitted, rfl, rfl⟩
    | _ => trivial

theorem run_attests (action : Action) (holds : config.Holds action.right principal) (s : Session Db) :
    (attesting P config).Keeps (fun _ _ => True) (action.run P config principal) s := by
  have plain (request : Request)
      (written : ∀ op, request.writes config.toServerConfig op → ∀ db, op.Genuine config db) :
      (attesting P config).Keeps (fun _ _ => True) (handler P config.toServerConfig request) s :=
    attests_makes (handler_routed request) (handler_makes request) written s
  cases action with
  | getJob jobId => exact attests_reads (getJob_reads jobId) s
  | submitJob req => exact submitJob_attests holds req s
  | completeTask attempt taskId result workerId => exact completeTask_attests holds taskId result workerId s
  | registerWorker reg =>
    refine plain (.registerWorker reg principal) fun op writes db => ?_
    cases op with
    | registerWorker reg' name =>
      obtain ⟨rfl, rfl⟩ := writes
      exact ⟨principal, holds, rfl⟩
    | _ => trivial
  | cancelJob jobId => exact plain (.cancelJob jobId) fun op writes db => by cases op <;> trivial
  | uploadInput upload => exact plain (.uploadInput upload) fun op writes db => by cases op <;> trivial
  | uploadArtifact taskId role upload =>
    exact plain (.uploadArtifact taskId role upload principal) fun op writes db => by cases op <;> trivial
  | failTask attempt taskId failure workerId =>
    exact plain (.failTask attempt taskId failure workerId principal) fun op writes db => by cases op <;> trivial
  | heartbeat workerId => exact plain (.heartbeat workerId principal) fun op writes db => by cases op <;> trivial
  | lease workerId => exact plain (.lease workerId principal) fun op writes db => by cases op <;> trivial
  | startTask taskId workerId =>
    exact plain (.startTask taskId workerId principal) fun op writes db => by cases op <;> trivial
  | taskEvent taskId event => exact plain (.taskEvent taskId event principal) fun op writes db => by cases op <;> trivial

end

/-! ## Runs -/

theorem authorized_attests (configured : config.enforced = true) (headers : Headers) (action : Action)
    (s : Session Db) :
    (attesting P config).Keeps (fun _ _ => True) (authorized P printable config headers action) s := by
  unfold authorized
  obtain ⟨principal, ⟨t, owns, same, holds⟩, passed⟩ | ⟨fault, raised⟩ :=
    requires_cases printable configured headers action.right
  · rw [passed]
    exact run_attests action ⟨t, owns.member, same, holds⟩ s
  · rw [raised]
    exact .raise _

theorem attesting_governs (configured : config.enforced = true) :
    Discipline.Governs (S := service P printable config) ((attesting P config).beside seenVersions) where
  serves p arrival _ _ := by
    cases arrival with
    | tick order =>
      have written (op : DbOp) (writes : Request.writes config.toServerConfig (.reaperTick order) op) (db : Db) :
          op.Genuine config db := by
        cases op <;> trivial
      exact (attests_makes (handler_routed (.reaperTick order)) (reaperTick_makes order) written
        p.store.1).within p.store.2
    | request headers action =>
      refine Discipline.Keeps.bind (Q := fun _ _ => True) (.of_calls (guard_calls headers action) ?_ p.store)
        fun _ t _ _ => (authorized_attests configured headers action t.1).within t.2
      rintro t (c | note) _ calls
      · change c.op = _ at calls
        refine ⟨by rw [calls]; rfl, ?_⟩
        rw [calls]
        trivial
      · trivial
  recovers s inv := by
    have still : Session.settled s.1.disk = s.1 := inv.1.settled ▸ rfl
    change (Sound (Session.settled s.1.disk) ∧ (Session.settled s.1.disk).live.Genuine config) ∧
      Upholds s.1.live (Session.settled s.1.disk).live
    rw [still]
    exact ⟨inv, .refl _⟩

theorem acceptedRequest_pipelines (req : JobRequest) (principal : Principal) :
    (Route.acceptedRequest req principal).pipelineList = req.pipelineList := by
  unfold Route.acceptedRequest Route.requireNirs4all
  split <;> rfl

/-- What a task delivers was asked for in a request that was let in. -/
theorem Db.Genuine.admitted (genuine : db.Genuine config) (forbidden : config.allowPythonJobs = false) {r : TaskRow}
    (found : db.tasks.get taskId = some r) : r.payload.pipeline.kind ≠ .pythonEntrypoint := by
  obtain ⟨row, job, pair, member, payload⟩ := genuine.tasks taskId r found
  obtain ⟨sent, principal, _, admitted, request, _⟩ := genuine.jobs r.jobId row job
  have asked : pair.1 ∈ sent.pipelineList := by
    have listed : pair.1 ∈ row.request.pipelineList := (List.mem_product.mp member).1
    rw [request, acceptedRequest_pipelines] at listed
    exact listed
  rw [forbidden, Bool.not_false, Bool.and_true, JobRequest.pipelineListHasPython, List.any_eq_false] at admitted
  intro python
  refine admitted pair.1 asked (decide_eq_true ?_)
  rw [payload] at python
  exact python

variable {p : ServicePool}

/-- Whatever is sent, and in whatever interleaving: who owns a job, whom a worker is registered
for and who reported a result is a principal that holds the right for it, tasks carry what their
job's request asks for, and unless the server allows it none of them names a Python entry point. -/
theorem attestations_genuine (configured : config.enforced = true)
    (run : System.Reaches (service P printable config) (service P printable config).Lawful opened p) :
    p.store.1.live.Genuine config ∧ (config.allowPythonJobs = false → ∀ taskId r,
      p.store.1.live.tasks.get taskId = some r → r.payload.pipeline.kind ≠ .pythonEntrypoint) := by
  have empty : Db.Genuine config {} := by
    refine ⟨fun jobId row found => ?_, fun taskId r found => ?_, fun w row found => ?_, fun taskId r result found => ?_⟩
    all_goals contradiction
  have start : ((attesting P config).beside seenVersions).Governed (S := service P printable config) opened := by
    refine ⟨⟨⟨rfl, empty_good⟩, empty⟩, fun th member => ?_⟩
    contradiction
  have genuine : p.store.1.live.Genuine config := ((attesting_governs configured).reaches start run).1.1.2
  exact ⟨genuine, fun forbidden _ _ found => genuine.admitted forbidden found⟩

/-- A service that alice submits to and works for. -/
def aliceWorks : ServiceConfig :=
  { principals := [{ name := "alice", rights := [.submit, .read, .execute], token := "s3cret" }] }

def byAlice (action : Action) : Label Arrival Io := .spawn (.request { authorization := some "Bearer s3cret" } action)

/-- Her result comes with a provenance of its own making. -/
def creditedTurns : List (Label Arrival Io) :=
  [byAlice (.submitJob singleTask)] ++ List.replicate 5 (.sched 0 { now := 1 }) ++
  [byAlice (.registerWorker equipped)] ++ List.replicate 2 (.sched 1 { now := 2 }) ++
  [byAlice (.lease "worker_0")] ++ List.replicate 3 (.sched 2 { now := 3 }) ++
  [byAlice (.startTask "task_1" "worker_0")] ++ List.replicate 3 (.sched 3 { now := 4 }) ++
  [byAlice (.completeTask 1 "task_1" { provenance := { reportedByPrincipal := some "bob" } } "worker_0")] ++
  List.replicate 14 (.sched 4 { now := 5 })

theorem attestations_genuine_credited : ∃ (p : ServicePool) (r : TaskRow) (result : TaskResult),
    System.Reaches (service .plain (fun _ => true) aliceWorks) (service .plain (fun _ => true) aliceWorks).Lawful
      opened p ∧
    p.store.1.live.tasks.get "task_1" = some r ∧ r.result = some result ∧
    result.provenance.reportedByPrincipal = some "alice" ∧ p.store.1.live.Genuine aliceWorks := by
  have played : ((service .plain (fun _ => true) aliceWorks).play
      (service .plain (fun _ => true) aliceWorks).Lawful creditedTurns opened).any
      (fun p => (p.store.1.live.tasks.get "task_1").any fun r => r.result.any fun result =>
        decide (result.provenance.reportedByPrincipal = some "alice")) = true := by decide +kernel
  obtain ⟨p, run, facts⟩ := System.play_any played
  obtain ⟨r, found, facts⟩ := (Option.any_eq_true _ _).mp facts
  obtain ⟨result, stored, named⟩ := (Option.any_eq_true _ _).mp facts
  exact ⟨p, r, result, run, found, stored, of_decide_eq_true named, (attestations_genuine rfl run).1⟩

end N4Cluster
