import N4Cluster.Server.Moves
import Mathlib.Data.List.Range

/-! Runs of whole operations, and what every task row satisfies in them: the
columns that go with each status, and attempts that count the leases. -/
namespace N4Cluster
open Relational Transactional Relation

/-- The payload an operation returned, if it leased a task. -/
def DbOp.leased : (op : DbOp) → Except PyErr op.Ret → List TaskPayload
  | .leaseNextTask _ _, .ok (some payload) => [payload]
  | _, _ => []

/-- `fail_task` without a worker id is the one call that leaves slots unrefreshed. -/
def DbOp.owned : DbOp → Bool
  | .failTask _ none _ _ => false
  | _ => true

/-- Runs of operations, in any order and with any arguments, with the payloads returned. -/
inductive OpRun (P : Platform) (ok : DbOp → Prop) (s : Session Db) :
    List TaskPayload → Session Db → Prop where
  | refl : OpRun P ok s [] s
  | step (io : Io) (op : DbOp) (run : OpRun P ok s payloads t) (allowed : ok op) :
      OpRun P ok s (payloads ++ op.leased (op.exec P io t).1) (op.after P io t)

namespace OpRun
variable {P : Platform} {ok : DbOp → Prop} {s t : Session Db}

/-- What every allowed move keeps holds of the connection's view in every run. -/
theorem invariant {I : Db → Prop}
    (moves : ∀ {io op db db'}, ok op → Move io op db db' → I db → I db')
    (run : OpRun P ok s payloads t) (initial : I s.live) : I t.live := by
  induction run with
  | refl => exact initial
  | step io op _ allowed ih =>
    exact (exec_moves P io op _).rec ih fun _ move holds => moves allowed move holds

end OpRun

/-- Performs operations one after another, collecting the payloads returned. -/
def DbOp.perform (P : Platform) : List (Io × DbOp) → Session Db → List TaskPayload × Session Db
  | [], s => ([], s)
  | (io, op) :: rest, s =>
    let later := DbOp.perform P rest (op.after P io s)
    (op.leased (op.exec P io s).1 ++ later.1, later.2)

theorem OpRun.perform {P : Platform} {ok : DbOp → Prop} (calls : List (Io × DbOp))
    (allowed : ∀ call ∈ calls, ok call.2) {s t : Session Db} {payloads : List TaskPayload}
    (run : OpRun P ok s payloads t) :
    OpRun P ok s (payloads ++ (DbOp.perform P calls t).1) (DbOp.perform P calls t).2 := by
  induction calls generalizing payloads t with
  | nil => exact (List.append_nil payloads).symm ▸ run
  | cons call rest ih =>
    have first := OpRun.step call.1 call.2 run (allowed call List.mem_cons_self)
    have later := ih (fun c member => allowed c (List.mem_cons_of_mem _ member)) first
    rwa [List.append_assoc] at later

/-- The columns that go with each status of a task. -/
structure TaskRow.Sound (db : Db) (r : TaskRow) : Prop where
  owner : r.status.inFlight = true → ∃ w row, r.workerId = some w ∧ db.workers.get w = some row
  lease : r.status.inFlight = true → r.leaseExpiresAt.isSome = true ∧ 1 ≤ r.attempt
  queued : r.status = .queued →
    r.workerId = none ∧ r.leaseExpiresAt = none ∧ r.attempt < r.maxAttempts
  result : r.status = .succeeded → r.result.isSome = true
  settled : r.status ≠ .lost
  bounded : r.attempt ≤ r.maxAttempts

def Db.Sound (db : Db) : Prop := ∀ taskId r, db.tasks.get taskId = some r → r.Sound db

theorem empty_sound : Db.Sound {} := by
  intro taskId r found
  simp at found

theorem TaskRow.Sound.workers {db db' : Db} {r : TaskRow} (sound : r.Sound db)
    (kept : ∀ w row, db.workers.get w = some row → ∃ row', db'.workers.get w = some row') :
    r.Sound db' :=
  { sound with
    owner := fun inFlight => by
      obtain ⟨w, row, owned, found⟩ := sound.owner inFlight
      obtain ⟨row', found'⟩ := kept w row found
      exact ⟨w, row', owned, found'⟩ }

theorem refresh_get (db : Db) (o : Option WorkerId) (w : WorkerId) :
    (db.refresh o).workers.get w = (db.workers.get w).map fun row =>
      if o = some w then { row with slotsUsed := db.inFlightCount w } else row := by
  cases o with
  | none => simp [Db.refresh]
  | some k =>
    simp only [Db.refresh, Db.syncSlots, Table.get_update, Option.some.injEq]
    by_cases same : w = k
    · subst same
      simp
    · simp [same, Ne.symm same]

/-- No move unregisters a worker. -/
theorem Move.registered {io : Io} {op : DbOp} {db db' : Db} (move : Move io op db db')
    {w : WorkerId} {row : WorkerRow} (found : db.workers.get w = some row) :
    ∃ row', db'.workers.get w = some row' := by
  cases move with
  | task touched how jobs workers =>
    rw [workers, refresh_get]
    exact ⟨_, by rw [found]; rfl⟩
  | job how present legal moved =>
    subst moved
    exact ⟨row, found⟩
  | result how put =>
    subst put
    exact ⟨row, found⟩
  | newWorker how inserted tasks jobs =>
    rw [Table.get_insert inserted]
    split
    · exact ⟨_, rfl⟩
    · exact ⟨row, found⟩
  | workers f keeps get tasks jobs => exact ⟨f row, by rw [get, found]; rfl⟩
  | renew how tasks jobs workers | newJob _ _ _ tasks workers | newTask _ _ _ jobs workers
  | other tasks jobs workers => exact ⟨row, workers ▸ found⟩

theorem TaskMove.sound {db : Db} {now : Time} {r r' : TaskRow} {op : DbOp} {o : Option WorkerId}
    (how : TaskMove db now r op r' o) (sound : r.Sound db) : r'.Sound db := by
  cases how with
  | lease leasable =>
    have free := (sound.queued leasable.queued).2.2
    exact ⟨fun _ => ⟨_, _, rfl, leasable.registered⟩, fun _ => ⟨rfl, by simp [TaskRow.lease, TaskFields.set]⟩,
      nofun, nofun, nofun, free⟩
  | start owned leased =>
    have inFlight : r.status.inFlight = true := by rw [leased]; rfl
    exact ⟨fun _ => sound.owner inFlight, fun _ => sound.lease inFlight, nofun, nofun, nofun, sound.bounded⟩
  | complete owned running => exact ⟨nofun, nofun, nofun, fun _ => rfl, nofun, sound.bounded⟩
  | stop owned legal => exact ⟨nofun, nofun, nofun, nofun, nofun, sound.bounded⟩
  | cancel waiting => exact ⟨nofun, nofun, nofun, nofun, nofun, sound.bounded⟩
  | fail owned legal =>
    unfold TaskRow.fail
    split
    · rename_i retry
      have left := (Bool.and_eq_true_iff.mp retry).2
      exact ⟨nofun, nofun, fun _ => ⟨rfl, rfl, of_decide_eq_true left⟩, nofun, nofun, sound.bounded⟩
    · exact ⟨nofun, nofun, nofun, nofun, nofun, sound.bounded⟩
  | resolve reaps inFlight job =>
    unfold TaskRow.resolve
    split
    · exact ⟨nofun, nofun, nofun, nofun, nofun, sound.bounded⟩
    · split
      · rename_i left
        exact ⟨nofun, nofun, fun _ => ⟨rfl, rfl, left⟩, nofun, nofun, sound.bounded⟩
      · exact ⟨nofun, nofun, nofun, nofun, nofun, sound.bounded⟩

theorem taskRowOf_sound (db : Db) (io : Io) (req : JobRequest) (jobId : JobId) (taskId : TaskId)
    (pair : PipelineRef × DatasetRef) : (taskRowOf io req jobId taskId pair).Sound db :=
  ⟨nofun, nofun, fun _ => ⟨rfl, rfl, req.retry.atLeastOne⟩, nofun, nofun, Nat.zero_le _⟩

theorem Move.sound {io : Io} {op : DbOp} {db db' : Db} (move : Move io op db db')
    (sound : db.Sound) : db'.Sound := by
  intro taskId r found
  have kept {r : TaskRow} (h : r.Sound db) : r.Sound db' := h.workers fun _ _ => move.registered
  cases move with
  | task touched how jobs workers =>
    rcases touched.back found with ⟨rfl, rfl⟩ | ⟨_, before⟩
    · exact kept (how.sound (sound _ _ touched.found))
    · exact kept (sound _ _ before)
  | renew how tasks jobs workers =>
    rw [tasks, Db.renewLeases, Table.get_updateWhere] at found
    obtain ⟨q, held, rfl⟩ := Option.map_eq_some_iff.mp found
    have old := kept (sound _ _ held)
    split
    · rename_i chosen
      have inFlight := (Bool.and_eq_true_iff.mp chosen).2
      exact { old with
        lease := fun _ => ⟨rfl, (old.lease inFlight).2⟩
        queued := fun queued => by simp [show q.status = .queued from queued, TaskStatus.inFlight] at inFlight }
    · exact old
  | newTask creates job inserted jobs workers =>
    rw [Table.get_insert inserted] at found
    split at found
    · cases found
      exact taskRowOf_sound ..
    · exact kept (sound _ _ found)
  | job how present legal moved =>
    subst moved
    exact kept (sound _ _ found)
  | result how put =>
    subst put
    exact kept (sound _ _ found)
  | newJob _ _ _ tasks | newWorker _ _ tasks | workers _ _ _ tasks | other tasks =>
    exact kept (sound _ _ (tasks ▸ found))

/-- How often a task has been leased, as its row counts it. -/
def Db.attempts (db : Db) (taskId : TaskId) : Nat := (db.tasks.get taskId).elim 0 TaskRow.attempt

theorem TaskMove.attempt {db : Db} {now : Time} {r r' : TaskRow} {op : DbOp} {o : Option WorkerId}
    (how : TaskMove db now r op r' o) :
    r'.attempt = if r'.status = .leased then r.attempt + 1 else r.attempt := by
  cases how with
  | lease | start | complete | stop | cancel => rfl
  | fail =>
    unfold TaskRow.fail
    split <;> rfl
  | resolve =>
    unfold TaskRow.resolve
    split
    · rfl
    · split <;> rfl

theorem TaskMove.leased {db : Db} {now : Time} {r r' : TaskRow} {op : DbOp} {o : Option WorkerId}
    (how : TaskMove db now r op r' o) (leased : r'.status = .leased) :
    ∃ w ttl, op = .leaseNextTask w ttl := by
  cases how with
  | lease => exact ⟨_, _, rfl⟩
  | start | complete | stop | cancel => contradiction
  | fail =>
    rw [fail_status] at leased
    split at leased <;> contradiction
  | resolve =>
    rw [resolve_status] at leased
    split at leased
    · contradiction
    · split at leased <;> contradiction

/-- Only a lease counts an attempt. -/
theorem Move.attempts {io : Io} {op : DbOp} {db db' : Db} (move : Move io op db db')
    (unleased : ∀ w ttl, op ≠ .leaseNextTask w ttl) (taskId : TaskId) :
    db'.attempts taskId = db.attempts taskId := by
  unfold Db.attempts
  cases move with
  | task touched how jobs workers =>
    rename_i r r' owner
    by_cases same : taskId = r.id
    · subst same
      have other : r'.status ≠ .leased := fun leased => by
        obtain ⟨w, ttl, equal⟩ := how.leased leased
        exact unleased w ttl equal
      rw [touched.now, touched.found, Option.elim_some, Option.elim_some, how.attempt, if_neg other]
    · rw [touched.others _ same]
  | renew how tasks jobs workers =>
    rw [tasks, Db.renewLeases, Table.get_updateWhere]
    cases db.tasks.get taskId with
    | none => rfl
    | some r =>
      simp only [Option.map_some, Option.elim_some]
      split <;> rfl
  | newTask creates job inserted jobs workers =>
    rw [Table.get_insert inserted]
    split
    · rename_i same
      rw [same, Table.insert_fresh inserted]
      rfl
    · rfl
  | job how present legal moved =>
    subst moved
    rfl
  | result how put =>
    subst put
    rfl
  | newJob _ _ _ tasks | newWorker _ _ tasks | workers _ _ _ tasks | other tasks => rw [tasks]

/-- The payloads leased so far for a task carry the attempts from 1 to its row's count. -/
def Counted (payloads : List TaskPayload) (db : Db) : Prop :=
  ∀ taskId, (payloads.filter fun p => p.taskId = taskId).map TaskPayload.attempt =
    List.range' 1 (db.attempts taskId)

theorem Counted.lease {payloads : List TaskPayload} {payload : TaskPayload} {db db' : Db}
    (counted : Counted payloads db) (next : payload.attempt = db.attempts payload.taskId + 1)
    (now : db'.attempts payload.taskId = payload.attempt)
    (others : ∀ taskId, taskId ≠ payload.taskId → db'.attempts taskId = db.attempts taskId) :
    Counted (payloads ++ [payload]) db' := by
  intro taskId
  rw [List.filter_append, List.map_append, counted taskId]
  by_cases same : payload.taskId = taskId
  · subst same
    rw [now, next, List.range'_concat]
    simp [next, Nat.add_comm]
  · rw [others taskId (Ne.symm same)]
    simp [same]

theorem exec_counted (P : Platform) (io : Io) (op : DbOp) {s : Session Db}
    {payloads : List TaskPayload} (counted : Counted payloads s.live) :
    Counted (payloads ++ op.leased (op.exec P io s).1) (op.after P io s).live := by
  by_cases lease : ∃ w ttl, op = .leaseNextTask w ttl
  · obtain ⟨w, ttl, rfl⟩ := lease
    simp only [DbOp.after, DbOp.exec]
    rcases leaseNextTask_cases (P := P) io s w ttl with
      ⟨worker, task, payload, leasable, read, ran⟩ | ran | ⟨error, ran⟩
    · rw [ran]
      obtain ⟨id, _, attempt⟩ := payload_fields read
      have touched := lease_touched leasable ttl io.now
      have id : payload.taskId = task.id := id
      refine counted.lease ?_ ?_ ?_
      · rw [id, Db.attempts, leasable.present]
        exact attempt
      · rw [id, attempt, Db.attempts, Session.settled, touched.now]
        rfl
      · intro taskId other
        rw [id] at other
        rw [Db.attempts, Session.settled, touched.others taskId other]
        rfl
    · rw [ran]
      exact (List.append_nil payloads).symm ▸ counted
    · rw [ran]
      exact (List.append_nil payloads).symm ▸ counted
  · have none : op.leased (op.exec P io s).1 = [] := by
      unfold DbOp.leased
      split
      · exact False.elim (lease ⟨_, _, rfl⟩)
      · rfl
    rw [none, List.append_nil]
    intro taskId
    rw [counted taskId]
    have same : (op.after P io s).live.attempts taskId = s.live.attempts taskId :=
      (exec_moves P io op s).rec rfl fun _ move kept =>
        (move.attempts (fun w ttl equal => lease ⟨w, ttl, equal⟩) taskId).trans kept
    rw [same]

namespace OpRun
variable {P : Platform} {ok : DbOp → Prop} {s t : Session Db}

theorem sound (run : OpRun P ok s payloads t) (initial : s.live.Sound) : t.live.Sound :=
  run.invariant (fun _ => Move.sound) initial

theorem counted (run : OpRun P ok s payloads t) (initial : Counted [] s.live) :
    Counted payloads t.live := by
  induction run with
  | refl => exact initial
  | step io op _ _ ih => exact exec_counted P io op ih

end OpRun

/-- From an empty store every run keeps every task row sound, and leases each
task with attempts 1, 2, ..., in order, up to its maximum. -/
theorem task_rows_sound (P : Platform) {payloads : List TaskPayload} {t : Session Db}
    (run : OpRun P (fun op => op.owned = true) (.settled {}) payloads t) :
    (∀ taskId r, t.live.tasks.get taskId = some r → r.Sound t.live) ∧
    ∀ taskId, ∃ n, (payloads.filter fun p => p.taskId = taskId).map TaskPayload.attempt =
        List.range' 1 n ∧
      (0 < n → ∃ r, t.live.tasks.get taskId = some r ∧ n ≤ r.maxAttempts) := by
  have sound := run.sound empty_sound
  refine ⟨sound, fun taskId => ⟨_, run.counted (fun _ => rfl) taskId, fun leased => ?_⟩⟩
  unfold Db.attempts at leased ⊢
  cases found : t.live.tasks.get taskId with
  | none => simp [found] at leased
  | some r => exact ⟨r, rfl, (sound taskId r found).bounded⟩

/-- A job of one task and a worker that leases it. -/
def leaseCalls : List (Io × DbOp) :=
  [({ now := 1 }, .registerWorker {} none),
   ({ now := 2 }, .createJobWithTasks
      { pipeline := some { kind := .path, path := some "p.yaml" },
        dataset := some { kind := .sharedPath, path := some "d" } } none),
   ({ now := 3 }, .leaseNextTask "worker_0" 60)]

theorem task_rows_sound_leased :
    (DbOp.perform .plain leaseCalls (.settled {})).1.map TaskPayload.attempt = [1] ∧
    (∀ taskId r, (DbOp.perform .plain leaseCalls (.settled {})).2.live.tasks.get taskId = some r →
      r.Sound (DbOp.perform .plain leaseCalls (.settled {})).2.live) ∧
    ∀ taskId, ∃ n, ((DbOp.perform .plain leaseCalls (.settled {})).1.filter fun p =>
        p.taskId = taskId).map TaskPayload.attempt = List.range' 1 n ∧
      (0 < n → ∃ r, (DbOp.perform .plain leaseCalls (.settled {})).2.live.tasks.get taskId = some r ∧
        n ≤ r.maxAttempts) :=
  ⟨by decide +kernel, task_rows_sound .plain (OpRun.refl.perform leaseCalls (by decide))⟩

end N4Cluster
