import N4Cluster.Server.Eligibility
import N4Cluster.Server.Ownership
import N4Cluster.Server.Submissions
import Mathlib.Algebra.Order.Ring.Unbundled.Rat

/-! Where tasks go. A task in flight is on a worker that satisfies the request of its job, as
long as what the server compares are the numbers that were asked for and declared: a memory
floor that is no finite number is not stored, and `nan` passes every floor. -/
namespace N4Cluster
open Relational Transactional Relation Interleave

variable {P : Platform} {config : ServerConfig} {io : Io} {op : DbOp} {db db' : Db} {s : Session Db}
  {worker worker' : WorkerRow} {task : TaskRow} {reqs : Requirements} {p q : ServerPool} {l : Turn}

/-! ## What a worker declares -/

/-- The number that a declared memory is. -/
def Platform.memoryOf (P : Platform) : Json → Option PyFloat
  | .int n => some (.fin n)
  | .float x => some x
  | .bool b => some (.fin (if b then 1 else 0))
  | .str text => P.floatOfStr text
  | .null | .arr _ | .obj _ => none

/-- The number of GPUs a worker declares, zero if none. -/
def Platform.gpusOf (P : Platform) (caps : Dict) : Option Rat :=
  match (caps.lookup "gpu_count").filter Json.truthy with
  | none => some 0
  | some (.int n) => some n
  | some (.float (.fin q)) => some q
  | some (.bool b) => some (if b then 1 else 0)
  | some (.str text) => (P.intOfStr text).map fun n : Int => (n : Rat)
  | some _ => none

/-- The registration satisfies the requirements, and declares nirs4all. -/
structure Platform.Suits (P : Platform) (worker : WorkerRow) (reqs : Requirements) : Prop where
  labels : ∀ key value, (key, value) ∈ reqs.labels → worker.labels.lookup key = some value
  memory : ∀ least, reqs.minMemoryGb = some least →
    ∀ declared, worker.capabilities.lookup "memory_gb" = some declared → declared.isNull = false →
      ∃ amount, P.memoryOf declared = some amount ∧ least.le amount = true
  gpus : ∀ least, reqs.minGpuCount = some least →
    ∃ count, P.gpusOf worker.capabilities = some count ∧ (least : Rat) ≤ count
  packages : ∀ package spec, (package, spec) ∈ reqs.packages →
    ∃ version, (workerVersions worker.version).lookup package = some version ∧
      (spec = "" ∨ P.versionIn version spec = .ok true)
  nirs4all : ∃ packages version, worker.version.lookup "packages" = some (.obj packages) ∧
    ("nirs4all", .str version) ∈ packages

theorem Platform.Suits.registered (suits : P.Suits worker reqs)
    (same : worker'.registration = worker.registration) : P.Suits worker' reqs := by
  obtain ⟨labels, memory, gpus, packages, nirs4all⟩ := suits
  simp only [WorkerRow.registration, Prod.mk.injEq] at same
  obtain ⟨labels', caps, version, _⟩ := same
  rw [← labels'] at labels
  rw [← caps] at memory gpus
  rw [← version] at packages nirs4all
  exact ⟨labels, memory, gpus, packages, nirs4all⟩

/-! ## What the match compares -/

/-- The comparison of a declared memory with the stored floor is the one asked for: the floor
is stored, what is declared is a number, and `float()` does not round it up to the floor. -/
def Platform.MemoryMeasured (P : Platform) (least : PyFloat) (declared : Json) : Prop :=
  match least with
  | .fin least => P.memoryOf declared ≠ some .nan ∧
    ∀ n : Int, declared = .int n → least ≤ nearestDouble n → least ≤ n
  | .nan => False
  | .posInf => P.memoryOf declared = some .posInf
  | .negInf => ∃ amount, P.memoryOf declared = some amount ∧ amount ≠ .nan

/-- `int()` does not cut a negative declared count up to the floor. -/
def GpusMeasured (least : Int) (declared : Json) : Prop :=
  ∀ q : Rat, declared = .float (.fin q) → q.num.tdiv q.den = least → (least : Rat) ≤ q

/-- What the match reads of the worker and of the floors is what is declared and asked for. -/
structure Platform.Measured (P : Platform) (worker : WorkerRow) (reqs : Requirements) : Prop where
  memory : ∀ least, reqs.minMemoryGb = some least →
    ∀ declared, worker.capabilities.lookup "memory_gb" = some declared → declared.isNull = false →
      P.MemoryMeasured least declared
  gpus : ∀ least, reqs.minGpuCount = some least →
    ∀ declared, worker.capabilities.lookup "gpu_count" = some declared → GpusMeasured least declared

theorem bind_ok_true {read : Except PyErr Bool} {rest : Except PyErr Bool} :
    (do if ← read then rest else return false) = Except.ok true ↔ read = .ok true ∧ rest = .ok true := by
  cases read with
  | error error => exact ⟨nofun, nofun⟩
  | ok passed =>
    cases passed with
    | true => exact ⟨fun holds => ⟨rfl, holds⟩, And.right⟩
    | false => exact ⟨nofun, nofun⟩

theorem packagesMatch_true_iff {versions required : List (String × String)} :
    P.packagesMatch versions required = .ok true ↔
      ∀ entry ∈ required, P.versionSatisfies (versions.lookup entry.1) entry.2 = .ok true := by
  induction required with
  | nil => exact ⟨fun _ _ member => False.elim (List.not_mem_nil member), fun _ => rfl⟩
  | cons entry rest ih => rw [Platform.packagesMatch, bind_ok_true, ih, List.forall_mem_cons]

/-- A worker matches a task if it passes each of the four checks. -/
theorem judge_true_iff : P.judge worker task = .ok true ↔
    (∀ entry ∈ task.requirements.labels, worker.labels.lookup entry.1 = some entry.2) ∧
    P.memoryMatches task.requirements.minMemoryGb worker.capabilities = .ok true ∧
    P.gpuMatches task.requirements.minGpuCount worker.capabilities = .ok true ∧
    ∀ entry ∈ task.requirements.packages,
      P.versionSatisfies ((workerVersions worker.version).lookup entry.1) entry.2 = .ok true := by
  unfold Platform.judge Platform.requirementsMatch
  split
  · rename_i labelled
    rw [bind_ok_true, bind_ok_true, packagesMatch_true_iff]
    simp only [List.all_eq_true, beq_iff_eq] at labelled
    exact ⟨fun checks => ⟨labelled, checks⟩, And.right⟩
  · rename_i unlabelled
    simp only [List.all_eq_true, beq_iff_eq] at unlabelled
    exact ⟨nofun, fun checks => absurd checks.1 unlabelled⟩

theorem le_of_not_lt {a b : PyFloat} (number : a ≠ .nan) (number' : b ≠ .nan) (above : b.lt a = false) :
    a.le b = true := by
  cases a with
  | nan => contradiction
  | negInf => cases b <;> first | contradiction | decide | rfl
  | posInf => cases b <;> first | contradiction | decide
  | fin a =>
    cases b with
    | nan => contradiction
    | negInf => cases above
    | posInf => rfl
    | fin b =>
      simp only [PyFloat.lt, decide_eq_false_iff_not] at above
      simp only [PyFloat.le, PyFloat.lt, Bool.or_eq_true, decide_eq_true_eq, Bool.and_eq_true, beq_iff_eq,
        PyFloat.fin.injEq]
      rcases lt_or_eq_of_le (not_lt.mp above) with less | same
      · exact .inl less
      · exact .inr ⟨same, rfl⟩

theorem float_int {n : Int} {x : PyFloat} (reads : P.float (.int n) = .ok x) :
    x = .fin (nearestDouble n) := by
  simp only [Platform.float] at reads
  split at reads
  · exact (Except.ok.inj reads).symm
  · cases reads

/-- A floor that is met as stored is met as asked for. -/
theorem memory_meets {least : PyFloat} {declared : Json} {caps : Dict}
    (found : caps.lookup "memory_gb" = some declared) (given : declared.isNull = false)
    (measured : P.MemoryMeasured least declared)
    (matched : P.memoryMatches ((some least).filter PyFloat.isFinite) caps = .ok true) :
    ∃ amount, P.memoryOf declared = some amount ∧ least.le amount = true := by
  cases least with
  | nan => exact False.elim measured
  | posInf => exact ⟨.posInf, measured, rfl⟩
  | negInf =>
    obtain ⟨amount, reads, number⟩ := measured
    exact ⟨amount, reads, le_of_not_lt nofun number (by cases amount <;> rfl)⟩
  | fin least =>
    obtain ⟨number, exact_int⟩ := measured
    simp only [Option.filter, PyFloat.isFinite, if_true, Platform.memoryMatches, found] at matched
    have meets {x : PyFloat} (reads : P.float declared = .ok x) : x.lt (.fin least) = false := by
      cases declared with
      | null => contradiction
      | bool | int | float | str | arr | obj =>
        simp only [reads] at matched
        simpa [bind, Except.bind, pure, Except.pure] using matched
    have fails {error : PyErr} (reads : P.float declared = .error error) : False := by
      cases declared with
      | null => contradiction
      | bool | int | float | str | arr | obj =>
        simp only [reads] at matched
        cases matched
    cases declared with
    | null => contradiction
    | arr | obj => exact False.elim (fails rfl)
    | float x => exact ⟨x, rfl, le_of_not_lt nofun (fun same => number (by rw [same]; rfl)) (meets rfl)⟩
    | bool b => exact ⟨_, rfl, le_of_not_lt nofun nofun (meets rfl)⟩
    | str text =>
      cases reads : P.floatOfStr text with
      | none => exact False.elim (fails (by simp only [Platform.float, reads]; rfl))
      | some x =>
        refine ⟨x, reads, le_of_not_lt nofun (fun same => number ?_) (meets ?_)⟩
        · rw [← same]
          exact reads
        · simp only [Platform.float, reads]
    | int n =>
      refine ⟨.fin n, rfl, le_of_not_lt nofun nofun (decide_eq_false (not_lt.mpr ?_))⟩
      cases reads : P.float (.int n) with
      | error error => exact False.elim (fails reads)
      | ok x =>
        have above := meets reads
        rw [float_int reads] at above
        simp only [PyFloat.lt, decide_eq_false_iff_not] at above
        exact exact_int n rfl (not_lt.mp above)

/-- Cutting towards zero raises a number by less than one. -/
theorem tdiv_le_floor (q : Rat) : q.num.tdiv q.den ≤ q.floor + 1 := by
  have sign : (q.den : Int).sign = 1 := Int.sign_eq_one_of_pos (Int.natCast_pos.mpr q.den_pos)
  rw [Int.tdiv_eq_ediv, Rat.floor_def]
  split <;> omega

/-- A count that matches the floor is met as declared. -/
theorem gpus_meet {least : Int} {caps : Dict}
    (measured : ∀ declared, caps.lookup "gpu_count" = some declared → GpusMeasured least declared)
    (matched : P.gpuMatches (some least) caps = .ok true) :
    ∃ count, P.gpusOf caps = some count ∧ (least : Rat) ≤ count := by
  unfold Platform.gpuMatches at matched
  unfold Platform.gpusOf
  cases found : (caps.lookup "gpu_count").filter Json.truthy with
  | none =>
    simp only [found, Except.ok.injEq, decide_eq_true_eq] at matched
    exact ⟨0, rfl, Rat.intCast_le_intCast.mpr matched⟩
  | some declared =>
    have given := measured declared (Option.filter_eq_some_iff.mp found).1
    simp only [found] at matched
    obtain ⟨count, reads, above⟩ : ∃ count, P.int declared = .ok count ∧ least ≤ count := by
      cases reads : P.int declared with
      | error error =>
        rw [reads] at matched
        cases matched
      | ok count =>
        rw [reads] at matched
        exact ⟨count, rfl, by simpa [bind, Except.bind, pure, Except.pure] using matched⟩
    cases declared with
    | null | arr | obj => cases reads
    | int n =>
      cases reads
      exact ⟨_, rfl, Rat.intCast_le_intCast.mpr above⟩
    | bool b =>
      cases reads
      exact ⟨_, rfl, by cases b <;> exact Rat.intCast_le_intCast.mpr above⟩
    | str text =>
      simp only [Platform.int] at reads
      split at reads
      · rename_i parsed
        cases reads
        exact ⟨_, congrArg (Option.map _) parsed, Rat.intCast_le_intCast.mpr above⟩
      · cases reads
    | float x =>
      cases x with
      | nan | negInf | posInf => cases reads
      | fin q =>
        cases reads
        refine ⟨q, rfl, ?_⟩
        rcases lt_or_eq_of_le above with less | same
        · have under := tdiv_le_floor q
          exact Rat.le_floor_iff.mp (by omega)
        · exact given q rfl same.symm

theorem lookup_entry {α β : Type} [BEq α] [LawfulBEq α] {entries : List (α × β)} {key : α} {value : β}
    (found : entries.lookup key = some value) : (key, value) ∈ entries := by
  obtain ⟨before, after, rfl, _⟩ := List.lookup_eq_some_iff.mp found
  exact List.mem_append_right before List.mem_cons_self

/-- A declared version of a package other than Python is in the declared packages. -/
theorem workerVersions_declares {version : Dict} {name installed : String} (other : name ≠ "python")
    (found : (workerVersions version).lookup name = some installed) :
    ∃ packages, version.lookup "packages" = some (.obj packages) ∧ (name, .str installed) ∈ packages := by
  have member : (name, installed) ∈ workerVersions version := lookup_entry found
  unfold workerVersions at member
  extract_lets versions at member
  have inside : (name, installed) ∈ versions := by
    split at member
    · split at member
      · exact member
      · obtain inside | last := List.mem_append.mp member
        · exact inside
        · cases List.mem_singleton.mp last
          contradiction
    · exact member
  subst versions
  split at inside
  · rename_i packages declared
    obtain ⟨⟨key, doc⟩, present, reads⟩ := List.mem_filterMap.mp inside
    refine ⟨packages, declared, ?_⟩
    cases doc with
    | str text =>
      cases reads
      exact present
    | null | bool | int | float | arr | obj => cases reads
  · exact False.elim (List.not_mem_nil inside)

/-- A worker that matches the stored requirements satisfies those asked for. -/
theorem judged_suits (judged : P.judge worker task = .ok true) (stored : task.requirements = reqs.stored)
    (measured : P.Measured worker reqs) (requires : ∃ spec, ("nirs4all", spec) ∈ reqs.packages) :
    P.Suits worker reqs := by
  obtain ⟨labelled, memory, gpus, installed⟩ := judge_true_iff.mp judged
  rw [stored] at labelled memory gpus installed
  have packages : ∀ package spec, (package, spec) ∈ reqs.packages →
      ∃ version, (workerVersions worker.version).lookup package = some version ∧
        (spec = "" ∨ P.versionIn version spec = .ok true) := by
    intro package spec member
    have satisfied := installed _ member
    unfold Platform.versionSatisfies at satisfied
    split at satisfied
    · contradiction
    · rename_i version declared
      refine ⟨version, declared, ?_⟩
      split at satisfied
      · exact .inl (beq_iff_eq.mp ‹_›)
      · exact .inr satisfied
  refine ⟨fun key value member => labelled _ member, fun least floor declared found given => ?_,
    fun least floor => ?_, packages, ?_⟩
  · have stored : reqs.stored.minMemoryGb = (some least).filter PyFloat.isFinite := by
      rw [← floor]
      rfl
    exact memory_meets found given (measured.memory least floor declared found given) (stored ▸ memory)
  · have stored : reqs.stored.minGpuCount = some least := floor
    exact gpus_meet (measured.gpus least floor) (stored ▸ gpus)
  · obtain ⟨spec, member⟩ := requires
    obtain ⟨version, declared, _⟩ := packages "nirs4all" spec member
    obtain ⟨listed, found, inside⟩ := workerVersions_declares (by decide) declared
    exact ⟨listed, version, found, inside⟩

/-! ## What a task asks for -/

/-- Every task asks for what the accepted request of its job asks for, as it is stored. -/
def Db.Carries (db : Db) : Prop :=
  ∀ taskId r, db.tasks.get taskId = some r → ∃ row, db.jobs.get r.jobId = some row ∧
    (∃ sent principal, row.request = Route.acceptedRequest sent principal) ∧
    r.requirements = row.request.requirements.stored

theorem TaskMove.demands {now : Time} {r r' : TaskRow} {o : Option WorkerId}
    (how : TaskMove db now r op r' o) : r'.requirements = r.requirements := by
  cases how with
  | lease | start | complete | stop | cancel => rfl
  | fail =>
    unfold TaskRow.fail
    split <;> rfl
  | resolve =>
    unfold TaskRow.resolve
    split
    · rfl
    · split <;> rfl

theorem Move.demands (move : Move io op db db') (creates : op.creates = false) {taskId : TaskId}
    {r' : TaskRow} (found : db'.tasks.get taskId = some r') :
    ∃ r, db.tasks.get taskId = some r ∧ r'.requirements = r.requirements := by
  cases move with
  | task touched how =>
    obtain ⟨rfl, rfl⟩ | ⟨_, before⟩ := touched.back found
    · exact ⟨_, touched.found, how.demands⟩
    · exact ⟨r', before, rfl⟩
  | renew how tasks =>
    rw [tasks, Db.renewLeases, Table.get_updateWhere] at found
    obtain ⟨r, before, rfl⟩ := Option.map_eq_some_iff.mp found
    refine ⟨r, before, ?_⟩
    split <;> rfl
  | newTask creating | newJob creating => cases creates.symm.trans creating
  | job how present legal moved =>
    subst moved
    exact ⟨r', found, rfl⟩
  | result how put =>
    subst put
    exact ⟨r', found, rfl⟩
  | newWorker _ _ tasks | workers _ _ _ tasks | other tasks => exact ⟨r', tasks ▸ found, rfl⟩

theorem exec_demands (P : Platform) (creates : op.creates = false) {taskId : TaskId} {r' : TaskRow}
    (found : (op.after P io s).live.tasks.get taskId = some r') :
    ∃ r, s.live.tasks.get taskId = some r ∧ r'.requirements = r.requirements := by
  have moves := exec_moves P io op s
  generalize (op.after P io s).live = db at moves found
  induction moves generalizing r' with
  | refl => exact ⟨r', found, rfl⟩
  | tail _ move ih =>
    obtain ⟨r, between, same⟩ := move.demands creates found
    obtain ⟨first, before, same'⟩ := ih between
    exact ⟨first, before, same.trans same'⟩

theorem newTasks_demand {req : JobRequest} {jobId : JobId} {pairs : List (PipelineRef × DatasetRef)}
    {n : Nat} {r : TaskRow} (member : r ∈ newTasks io req jobId pairs n) :
    r.requirements = req.requirements.stored := by
  induction pairs generalizing n with
  | nil => exact False.elim (List.not_mem_nil member)
  | cons pair rest ih =>
    obtain rfl | later := List.mem_cons.mp member
    · rfl
    · exact ih later

theorem exec_carries {config : ServerConfig} {request : Request} (carries : s.live.Carries)
    (makes : request.makes config op) (fresh : Fresh io s.live op)
    (evolves : Evolves s.live (op.after P io s).live) : (op.after P io s).live.Carries := by
  have kept {taskId : TaskId} {r r' : TaskRow} (before : s.live.tasks.get taskId = some r)
      (found : (op.after P io s).live.tasks.get taskId = some r') (same : r'.requirements = r.requirements) :
      ∃ row, (op.after P io s).live.jobs.get r'.jobId = some row ∧
        (∃ sent principal, row.request = Route.acceptedRequest sent principal) ∧
        r'.requirements = row.request.requirements.stored := by
    obtain ⟨row, job, accepted, stored⟩ := carries taskId r before
    obtain ⟨r'', found', jobId, _⟩ := evolves.task taskId r before
    cases found.symm.trans found'
    obtain ⟨row', job', request, _⟩ := evolves.job _ row job
    rw [jobId, same, stored]
    exact ⟨row', job', request ▸ accepted, congrArg (fun req => req.requirements.stored) request.symm⟩
  intro taskId r' found
  cases creates : op.creates with
  | false =>
    obtain ⟨r, before, same⟩ := exec_demands P creates found
    exact kept before found same
  | true =>
    cases op with
    | createJobWithTasks req owner =>
      obtain ⟨db, created, _, _, _, ran⟩ | ⟨_, ran⟩ | ⟨_, _, ran⟩ := createJobWithTasks_cases (P := P) fresh
      · have after : ((DbOp.createJobWithTasks req owner).after P io s).live = db :=
          congrArg (fun out => out.2.live) ran
        rw [after] at found
        obtain ⟨member, rfl⟩ := Table.get_eq_some.mp found
        rw [created.tasks] at member
        obtain old | new := List.mem_append.mp member
        · exact kept (Table.get_of_mem old) (after ▸ found) rfl
        · rw [after, (newTasks_fields new).1]
          exact ⟨_, (created.get_job _).trans (if_pos rfl), makes_created makes, newTasks_demand new⟩
      all_goals
        have after : ((DbOp.createJobWithTasks req owner).after P io s).live = s.live :=
          congrArg (fun out => out.2.live) ran
        exact kept (after ▸ found) found rfl
    | _ => obtain common | writes | ⟨_, _, final⟩ := makes <;> first | contradiction | (cases request <;> contradiction)

/-! ## Tasks in flight -/

/-- Every task in flight is on a worker that satisfies what the accepted request asks for. -/
def Db.Suited (P : Platform) (db : Db) : Prop :=
  ∀ taskId r, db.tasks.get taskId = some r → r.status.inFlight = true →
    ∃ w worker row, r.workerId = some w ∧ db.workers.get w = some worker ∧
      db.jobs.get r.jobId = some row ∧
      (∃ sent principal, row.request = Route.acceptedRequest sent principal) ∧
      P.Suits worker row.request.requirements

/-- If the worker is leased a task now, the match read what is declared and asked for. -/
def Db.Measures (P : Platform) (db : Db) (w : WorkerId) : Prop :=
  ∀ worker task row, db.Able w worker → db.First P worker task → P.judge worker task = .ok true →
    db.jobs.get task.jobId = some row → P.Measured worker row.request.requirements

theorem accepted_requires {sent : JobRequest} {principal : Principal} :
    ∃ spec, ("nirs4all", spec) ∈ (Route.acceptedRequest sent principal).requirements.packages := by
  unfold Route.acceptedRequest Route.requireNirs4all
  split
  · rename_i given
    obtain ⟨spec, found⟩ := Option.isSome_iff_exists.mp given
    exact ⟨spec, lookup_entry found⟩
  · exact ⟨"", List.mem_append_right _ List.mem_cons_self⟩

theorem exec_suited (carries : s.live.Carries) (suited : s.live.Suited P)
    (measures : ∀ w ttl, op = .leaseNextTask w ttl → s.live.Measures P w)
    (evolves : Evolves s.live (op.after P io s).live) : (op.after P io s).live.Suited P := by
  have enrols := exec_enrols P io op s
  intro taskId r' found inFlight
  have later {r : TaskRow} {w : WorkerId} {worker : WorkerRow} {row : JobRow}
      (before : s.live.tasks.get taskId = some r) (owner : r'.workerId = some w)
      (registered : s.live.workers.get w = some worker) (job : s.live.jobs.get r.jobId = some row)
      (accepted : ∃ sent principal, row.request = Route.acceptedRequest sent principal)
      (suits : P.Suits worker row.request.requirements) :
      ∃ w worker row, r'.workerId = some w ∧ (op.after P io s).live.workers.get w = some worker ∧
        (op.after P io s).live.jobs.get r'.jobId = some row ∧
        (∃ sent principal, row.request = Route.acceptedRequest sent principal) ∧
        P.Suits worker row.request.requirements := by
    obtain ⟨r'', found', jobId, _⟩ := evolves.task taskId r before
    cases found.symm.trans found'
    obtain ⟨row', job', request, _⟩ := evolves.job _ row job
    obtain ⟨worker', registered', same⟩ := enrols w worker registered
    refine ⟨w, worker', row', owner, registered', jobId ▸ job', request ▸ accepted, ?_⟩
    rw [request]
    exact suits.registered same
  cases exec_held found inFlight with
  | @kept r before inFlight' owner =>
    obtain ⟨w, worker, row, owner', registered, job, accepted, suits⟩ := suited taskId r before inFlight'
    exact later before (owner.trans owner') registered job accepted suits
  | @renewed r v ttl row beats registered before inFlight' owner same =>
    obtain ⟨w, worker, row, owner', registered, job, accepted, suits⟩ := suited taskId r before inFlight'
    exact later before (by rw [same]; exact owner') registered job accepted suits
  | @granted v ttl row payload leases registered ran here attempt owner lease =>
    obtain ⟨idle, _⟩ | ⟨worker, task, able, first, ends⟩ := turn_cases P io s v ttl
    · cases (congrArg Prod.fst idle).symm.trans ran
    · obtain ⟨db, leased, leases', matched⟩ | ⟨error, failed, _⟩ := ends
      · cases (congrArg Prod.fst leased).symm.trans ran
        cases here
        obtain ⟨row, job, accepted, stored⟩ := carries task.id task first.queued.present
        refine later first.queued.present owner able.registered job accepted ?_
        refine judged_suits matched stored (measures v ttl leases worker task row able first matched job) ?_
        obtain ⟨sent, principal, same⟩ := accepted
        rw [same]
        exact accepted_requires
      · cases (congrArg Prod.fst failed).symm.trans ran

/-- Whenever a task is leased, the match reads what is declared and asked for. -/
def Measuring (P : Platform) (p : ServerPool) (l : Turn) : Prop :=
  ∀ i io site w ttl, l = .sched i io → p.waiting i = some ⟨site, .leaseNextTask w ttl⟩ →
    p.store.live.Measures P w

theorem flights_suited (P : Platform) (config : ServerConfig) (p : ServerPool)
    (run : System.Reaches (server P config)
      (fun p l => (server P config).Lawful p l ∧ Measuring P p l) started p) :
    p.store.live.Suited P := by
  have both := run.invariant
    (I := fun p => (Keeping P config .none p ∧ Requesting config p) ∧
      p.store.live.Carries ∧ p.store.live.Suited P)
    (fun {p l q} holds allowed stepped => ?_)
    ⟨⟨started_keeping, started_requesting⟩, fun _ _ found => by simp [started, Session.settled] at found,
      fun _ _ found => by simp [started, Session.settled] at found⟩
  · exact both.2.2
  · obtain ⟨⟨keeping, requesting⟩, carries, suited⟩ := holds
    have lawful := lawful_allowed allowed.1
    refine ⟨⟨keeping.step lawful stepped, requesting.step stepped⟩, ?_⟩
    obtain ⟨same, _⟩ | ⟨i, io, request, c, next, turn, found, fresh, fair, rfl, _⟩ := keeping.cases lawful stepped
    · rw [same]
      exact ⟨carries, suited⟩
    · have evolves := (exec_sound (P := P) fair.routed fresh keeping.1).2
      refine ⟨exec_carries carries (requesting.made found) fresh evolves,
        exec_suited carries suited (fun w ttl leases => ?_) evolves⟩
      have waits := waiting_of found
      obtain ⟨site, op⟩ := c
      cases leases
      exact allowed.2 i io site w ttl turn waits

/-- A memory floor is the only demand of every job, and every worker declares 8 of memory. -/
def ServerPool.measured (p : ServerPool) : Bool :=
  (p.store.live.jobs.rows.all fun row => decide (row.request.requirements.minMemoryGb = some (.fin 4)) &&
    row.request.requirements.minGpuCount.isNone) &&
  p.store.live.workers.rows.all fun worker => match worker.capabilities.lookup "memory_gb" with
    | some (.int n) => decide (n = 8)
    | _ => false

theorem ServerPool.measured_measuring (measured : p.measured = true) : Measuring P p l := by
  intro _ _ _ w _ _ _ worker task row able _ _ job
  simp only [ServerPool.measured, Bool.and_eq_true, List.all_eq_true, decide_eq_true_eq,
    Option.isNone_iff_eq_none] at measured
  obtain ⟨jobs, workers⟩ := measured
  obtain ⟨floor, free⟩ := jobs row (Table.mem_of_get job)
  have declares := workers worker (Table.mem_of_get able.registered)
  constructor
  · intro least asks declared found given
    cases floor.symm.trans asks
    rw [found] at declares
    split at declares
    · rename_i n same
      cases same
      cases of_decide_eq_true declares
      refine ⟨nofun, fun n same _ => ?_⟩
      cases same
      decide
    · contradiction
  · intro least asks
    cases free.symm.trans asks

/-- A task that asks for memory, running on a worker that declares some. -/
def memoryTurns (floor : PyFloat) : List Turn :=
  [.spawn (.submitJob (memoryTask floor) {})] ++ turns 0 5 1 ++
  [.spawn (.registerWorker (memoryWorker (.int 8)) {})] ++ turns 1 2 2 ++
  [.spawn (.lease "worker_0" {})] ++ turns 2 3 3

theorem flights_suited_memory : ∃ p r worker row,
    System.Reaches (server .plain {}) (server .plain {}).Lawful started p ∧
      p.store.live.tasks.get "task_1" = some r ∧ r.status.inFlight = true ∧
      p.store.live.jobs.get r.jobId = some row ∧ row.request.requirements.minMemoryGb = some (.fin 4) ∧
      Platform.plain.Suits worker row.request.requirements := by
  have played : (((server .plain {}).play
      (fun p l => (server .plain {}).Lawful p l ∧ ServerPool.measured p = true) (memoryTurns (.fin 4)) started).any
      fun p => (p.store.live.tasks.get "task_1").any (fun r => r.status.inFlight) && ServerPool.measured p) = true := by
    decide +kernel
  obtain ⟨p, run, facts⟩ := System.play_any played
  clear played
  simp only [Bool.and_eq_true, Option.any_eq_true] at facts
  obtain ⟨⟨r, found, inFlight⟩, measured⟩ := facts
  obtain ⟨w, worker, row, _, _, job, _, suits⟩ := flights_suited .plain {} p
    (run.mono fun _ _ both => ⟨both.1, ServerPool.measured_measuring both.2⟩) "task_1" r found inFlight
  refine ⟨p, r, worker, row, run.mono fun _ _ both => both.1, found, inFlight, job, ?_, suits⟩
  simp only [ServerPool.measured, Bool.and_eq_true, List.all_eq_true, decide_eq_true_eq] at measured
  exact (measured.1 row (Table.mem_of_get job)).1

/-- An infinite floor is stored as none, and the task goes to a worker with 8 of memory. -/
theorem infinite_floor_lost : ¬∀ p, System.Reaches (server .plain {}) (server .plain {}).Lawful started p →
    p.store.live.Suited .plain := by
  intro suited
  have played : (((server .plain {}).play (server .plain {}).Lawful (memoryTurns .posInf) started).any
      fun p => (p.store.live.tasks.get "task_1").any fun r => r.status.inFlight &&
        decide (r.workerId = some "worker_0") &&
        (p.store.live.jobs.get r.jobId).any (fun row =>
          decide (row.request.requirements.minMemoryGb = some .posInf)) &&
        (p.store.live.workers.get "worker_0").any fun worker =>
          match worker.capabilities.lookup "memory_gb" with
          | some (.int n) => decide (n = 8)
          | _ => false) = true := by
    decide +kernel
  obtain ⟨p, run, facts⟩ := System.play_any played
  clear played
  simp only [Bool.and_eq_true, decide_eq_true_eq, Option.any_eq_true] at facts
  obtain ⟨r, found, ⟨⟨inFlight, owner⟩, row, job, floor⟩, worker, registered, declares⟩ := facts
  obtain ⟨w, worker', row', owner', registered', job', _, suits⟩ := suited p run "task_1" r found inFlight
  cases owner.symm.trans owner'
  cases registered.symm.trans registered'
  cases job.symm.trans job'
  split at declares
  · rename_i n declared
    obtain ⟨amount, reads, above⟩ := suits.memory .posInf floor _ declared rfl
    cases reads
    contradiction
  · contradiction

end N4Cluster
