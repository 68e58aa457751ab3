import N4Cluster.Server.Dispatch
import N4Cluster.Server.Settlement

/-! A worker's turn fails on a task it cannot be judged on, because a number or a version
that it declares cannot be read, unless it matches an earlier one. -/
namespace N4Cluster
open Relational Transactional Interleave

variable {P : Platform} {worker : WorkerRow} {task : TaskRow}

/-! ## Tasks that cannot be judged -/

/-- The worker declares a memory that is no number, and the task asks for some. -/
def Platform.MemoryUnread (P : Platform) (floor : Option PyFloat) (caps : Dict) : Prop :=
  floor.isSome = true ∧ ∃ declared, caps.lookup "memory_gb" = some declared ∧ declared.isNull = false ∧
    ∃ error, P.float declared = .error error

/-- The worker declares a count of GPUs that is no integer, and the task asks for some. -/
def Platform.GpuUnread (P : Platform) (floor : Option Int) (caps : Dict) : Prop :=
  floor.isSome = true ∧ ∃ declared, caps.lookup "gpu_count" = some declared ∧ declared.truthy = true ∧
    ∃ error, P.int declared = .error error

/-- The worker satisfies the packages asked for up to one, of which it declares a version
that cannot be compared with the specifier. -/
def Platform.VersionUnread (P : Platform) (versions required : List (String × String)) : Prop :=
  ∃ before package spec after version, required = before ++ (package, spec) :: after ∧
    (∀ entry ∈ before, P.versionSatisfies (versions.lookup entry.1) entry.2 = .ok true) ∧
    versions.lookup package = some version ∧ spec ≠ "" ∧ ∃ error, P.versionIn version spec = .error error

/-- The match comes to a declared number or version that cannot be read. -/
def Platform.Unreadable (P : Platform) (worker : WorkerRow) (task : TaskRow) : Prop :=
  (task.requirements.labels.all fun (key, value) => worker.labels.lookup key == some value) = true ∧
    (P.MemoryUnread task.requirements.minMemoryGb worker.capabilities ∨
      P.memoryMatches task.requirements.minMemoryGb worker.capabilities = .ok true ∧
        (P.GpuUnread task.requirements.minGpuCount worker.capabilities ∨
          P.gpuMatches task.requirements.minGpuCount worker.capabilities = .ok true ∧
            P.VersionUnread (workerVersions worker.version) task.requirements.packages))

theorem read_error_iff {ε α β : Type} (read : Except ε α) (f : α → β) :
    (∃ error, (read >>= fun value => pure (f value)) = .error error) ↔ ∃ error, read = .error error := by
  cases read with
  | error error => exact ⟨fun _ => ⟨error, rfl⟩, fun _ => ⟨error, rfl⟩⟩
  | ok value => exact ⟨fun ⟨_, same⟩ => (nomatch same), fun ⟨_, same⟩ => (nomatch same)⟩

theorem memoryMatches_error_iff {floor : Option PyFloat} {caps : Dict} :
    (∃ error, P.memoryMatches floor caps = .error error) ↔ P.MemoryUnread floor caps := by
  unfold Platform.memoryMatches Platform.MemoryUnread
  cases floor with
  | none => simp
  | some least =>
    cases caps.lookup "memory_gb" with
    | none => simp
    | some declared =>
      cases declared with
      | null => simp [Json.isNull]
      | bool | int | float | str | arr | obj =>
        simp only [Option.isSome_some, Option.some.injEq, exists_eq_left', Json.isNull, true_and]
        exact read_error_iff _ _

theorem gpuMatches_error_iff {floor : Option Int} {caps : Dict} :
    (∃ error, P.gpuMatches floor caps = .error error) ↔ P.GpuUnread floor caps := by
  unfold Platform.gpuMatches Platform.GpuUnread
  cases floor with
  | none => simp
  | some least =>
    cases caps.lookup "gpu_count" with
    | none => simp
    | some declared =>
      cases counted : declared.truthy with
      | false => simp [Option.filter, counted]
      | true =>
        simp only [Option.filter, counted, if_true, Option.isSome_some, Option.some.injEq,
          exists_eq_left', true_and]
        exact read_error_iff _ _

theorem versionSatisfies_error_iff {installed : Option String} {spec : String} {error : PyErr} :
    P.versionSatisfies installed spec = .error error ↔
      ∃ version, installed = some version ∧ spec ≠ "" ∧ P.versionIn version spec = .error error := by
  unfold Platform.versionSatisfies
  cases installed with
  | none => simp
  | some version => by_cases any : spec = "" <;> simp [any]

/-- The loop over the packages fails at one that it comes to. -/
theorem packagesMatch_error_iff {versions required : List (String × String)} :
    (∃ error, P.packagesMatch versions required = .error error) ↔ P.VersionUnread versions required := by
  induction required with
  | nil =>
    refine ⟨fun ⟨_, failed⟩ => (nomatch failed), ?_⟩
    rintro ⟨before, package, spec, after, version, split, _⟩
    exact absurd split (List.append_ne_nil_of_right_ne_nil _ (List.cons_ne_nil _ _)).symm
  | cons entry rest ih =>
    obtain ⟨package, spec⟩ := entry
    rw [Platform.packagesMatch]
    constructor
    · rintro ⟨error, failed⟩
      cases compared : P.versionSatisfies (versions.lookup package) spec with
      | error raised =>
        obtain ⟨version, declared, asked, unread⟩ := versionSatisfies_error_iff.mp compared
        exact ⟨[], package, spec, rest, version, rfl, by simp, declared, asked, raised, unread⟩
      | ok satisfied =>
        rw [compared] at failed
        cases satisfied with
        | false => exact nomatch failed
        | true =>
          obtain ⟨before, package', spec', after, version, split, passed, unread⟩ := ih.mp ⟨error, failed⟩
          refine ⟨(package, spec) :: before, package', spec', after, version, by rw [split]; rfl, ?_, unread⟩
          exact List.forall_mem_cons.mpr ⟨compared, passed⟩
    · rintro ⟨before, package', spec', after, version, split, passed, declared, asked, error, unread⟩
      cases before with
      | nil =>
        cases split
        have compared : P.versionSatisfies (versions.lookup package) spec = .error error :=
          versionSatisfies_error_iff.mpr ⟨version, declared, asked, unread⟩
        exact ⟨error, by rw [compared]; rfl⟩
      | cons first before =>
        cases split
        obtain ⟨compared, passed⟩ := List.forall_mem_cons.mp passed
        rw [compared]
        exact ih.mpr ⟨before, package', spec', after, version, rfl, passed, declared, asked, error, unread⟩

theorem judge_error_iff : (∃ error, P.judge worker task = .error error) ↔ P.Unreadable worker task := by
  unfold Platform.judge Platform.requirementsMatch Platform.Unreadable
  rw [← memoryMatches_error_iff, ← gpuMatches_error_iff, ← packagesMatch_error_iff]
  by_cases labelled : (task.requirements.labels.all fun (key, value) =>
      worker.labels.lookup key == some value) = true
  · simp only [labelled, if_true, true_and]
    cases memory : P.memoryMatches task.requirements.minMemoryGb worker.capabilities with
    | error error => simp [bind, Except.bind]
    | ok enough =>
      cases enough with
      | false => simp [bind, Except.bind, pure, Except.pure]
      | true =>
        cases gpus : P.gpuMatches task.requirements.minGpuCount worker.capabilities with
        | error error => simp [bind, Except.bind]
        | ok enough => cases enough <;> simp [bind, Except.bind, pure, Except.pure]
  · simp [labelled]

/-- The turn of a worker leaves the store as it is, if nothing queued is for the worker, or
leases one task and answers with the payload of that task. -/
def Dispatches (P : Platform) (io : Io) (s : Session Db) (w : WorkerId) (ttl : Time) : Prop :=
  (leaseNextTask P io w ttl s = (.ok none, s) ∧ ∀ worker, s.live.Able w worker →
    ∀ task, s.live.Queued task → P.judge worker task ≠ .ok true) ∨
  ∃ task db, s.live.Queued task ∧ s.live.Leases db w task (io.now + ttl) io.now ∧
    leaseNextTask P io w ttl s =
      (.ok (some ((task.lease w ttl io.now).payloadAt (io.now + ttl))), .settled db)

/-- The turn fails exactly if the worker meets a task it cannot be judged on before any
task that it matches. -/
theorem dispatches_iff (P : Platform) (io : Io) (s : Session Db) (w : WorkerId) (ttl : Time) :
    Dispatches P io s w ttl ↔ ∀ worker, s.live.Able w worker → ∀ task, s.live.Queued task →
      P.Unreadable worker task → ∃ other, s.live.Queued other ∧ P.judge worker other = .ok true ∧
        s.live.rank other < s.live.rank task := by
  constructor
  · intro dispatches worker able task queued unread
    obtain ⟨error, failed⟩ := judge_error_iff.mpr unread
    obtain ⟨_, passed⟩ | ⟨worker', first, able', least, ends⟩ := turn_cases P io s w ttl
    · cases failed.symm.trans (passed worker able task queued)
    · cases able.registered.symm.trans able'.registered
      obtain ⟨_, _, _, matched⟩ | ⟨error, ran, _⟩ := ends
      · obtain rfl | below := least.least task queued (by rw [failed]; nofun)
        · cases failed.symm.trans matched
        · exact ⟨first, least.queued, matched, below⟩
      · obtain ⟨idle, _⟩ | ⟨_, _, _, _, leased⟩ := dispatches
        · cases idle.symm.trans ran
        · cases leased.symm.trans ran
  · intro readable
    obtain ⟨ran, passed⟩ | ⟨worker, task, able, first, ends⟩ := turn_cases P io s w ttl
    · refine .inl ⟨ran, fun worker able task queued matched => ?_⟩
      cases (passed worker able task queued).symm.trans matched
    · obtain ⟨db, ran, leases, _⟩ | ⟨error, _, failed⟩ := ends
      · exact .inr ⟨task, db, first.queued, leases, ran⟩
      · obtain ⟨other, queued, matched, below⟩ :=
          readable worker able task first.queued (judge_error_iff.mp ⟨error, failed⟩)
        obtain rfl | above := first.least other queued (by rw [matched]; nofun)
        · exact absurd below (lt_irrefl _)
        · exact absurd above (lt_asymm below)

/-- A task of one pipeline and one dataset that asks for memory. -/
def memoryTask (floor : PyFloat) : JobRequest :=
  { singleTask with requirements := { minMemoryGb := some floor } }

/-- A worker that declares its memory. -/
def memoryWorker (declared : Json) : WorkerRegister :=
  { equipped with capabilities := [("memory_gb", declared)] }

/-- A task that asks for memory, another that does not, and a worker whose memory is a word. -/
def wordTurns : List Turn :=
  [.spawn (.submitJob (memoryTask (.fin 1)) {})] ++ turns 0 5 1 ++
  [.spawn (.submitJob singleTask {})] ++
  List.replicate 5 (.sched 1 { now := 2, uuid := fun n => toString (n + 2) }) ++
  [.spawn (.registerWorker (memoryWorker (.str "lots")) {})] ++ turns 2 2 3

/-- The turn raises, though the worker matches the second task. -/
theorem word_blocks : ∃ p, System.Reaches (server .plain {}) (server .plain {}).Lawful started p ∧
    (∃ worker task, p.store.live.Able "worker_0" worker ∧ p.store.live.Queued task ∧
      Platform.plain.judge worker task = .ok true) ∧
    ¬Dispatches .plain { now := 4 } p.store "worker_0" 60 := by
  have played : (((server .plain {}).play (server .plain {}).Lawful wordTurns started).any fun p =>
      (p.store.live.workers.get "worker_0").any (fun worker =>
        decide (worker.status = .alive) && decide (p.store.live.inFlightCount "worker_0" < worker.slotsTotal) &&
        (p.store.live.tasks.get "task_3").any (fun task => decide (task.status = .queued) &&
          decide ((Platform.plain.judge worker task).toOption = some true))) &&
      !(leaseNextTask .plain { now := 4 } "worker_0" 60 p.store).1.isOk) = true := by
    decide +kernel
  obtain ⟨p, run, facts⟩ := System.play_any played
  clear played
  simp only [Bool.and_eq_true, decide_eq_true_eq, Option.any_eq_true] at facts
  obtain ⟨⟨worker, registered, ⟨alive, free⟩, task, found, queued, matched⟩, raised⟩ := facts
  have named : task.id = "task_3" := Table.get_key found
  refine ⟨p, run, ⟨worker, task, ⟨registered, alive, free⟩, ⟨named ▸ found, queued⟩, ?_⟩, ?_⟩
  · cases judged : Platform.plain.judge worker task with
    | error raised =>
      rw [judged] at matched
      cases matched
    | ok fits =>
      rw [judged] at matched
      cases matched
      rfl
  · rintro (⟨idle, _⟩ | ⟨_, _, _, _, leased⟩)
    · rw [idle] at raised
      contradiction
    · rw [leased] at raised
      contradiction

end N4Cluster
