import N4Cluster.Server.Requests
import N4Cluster.Base.History

/-! What the operations do to a worker's liveness and to the leases it holds:
registration, heartbeat, lease, and the selections of both reapers. -/
namespace N4Cluster
open Relational Transactional Relation Interleave

/-! ## Workers -/

/-- Who is alive and who was seen when changes only where liveness is judged. -/
theorem Move.worker_seen {io : Io} {op : DbOp} {db db' : Db} (move : Move io op db db')
    (still : op.judges = false) (other : ∀ reg principal, op ≠ .registerWorker reg principal)
    {w : WorkerId} {row' : WorkerRow} (found : db'.workers.get w = some row') :
    ∃ row, db.workers.get w = some row ∧ row'.status = row.status ∧ row'.lastSeenAt = row.lastSeenAt := by
  cases move with
  | task touched how jobs workers =>
    rw [workers, refresh_get] at found
    obtain ⟨row, before, rfl⟩ := Option.map_eq_some_iff.mp found
    refine ⟨row, before, ?_⟩
    split <;> exact ⟨rfl, rfl⟩
  | job how present legal moved =>
    subst moved
    exact ⟨row', found, rfl, rfl⟩
  | result how put =>
    subst put
    exact ⟨row', found, rfl, rfl⟩
  | newWorker how => exact False.elim (other _ _ how)
  | workers f keeps get tasks jobs judges => exact nomatch still.symm.trans judges
  | renew _ _ _ workers | newJob _ _ _ _ workers | newTask _ _ _ _ workers | other _ _ workers =>
    exact ⟨row', workers ▸ found, rfl, rfl⟩

theorem exec_worker_seen {P : Platform} {op : DbOp} {s : Session Db} (io : Io)
    (still : op.judges = false) (other : ∀ reg principal, op ≠ .registerWorker reg principal)
    {w : WorkerId} {row' : WorkerRow} (found : (op.after P io s).live.workers.get w = some row') :
    ∃ row, s.live.workers.get w = some row ∧ row'.status = row.status ∧
      row'.lastSeenAt = row.lastSeenAt := by
  have moves := exec_moves P io op s
  generalize (op.after P io s).live = db at moves found
  induction moves generalizing row' with
  | refl => exact ⟨row', found, rfl, rfl⟩
  | tail _ move ih =>
    obtain ⟨row, between, status, seen⟩ := move.worker_seen still other found
    obtain ⟨first, before, status', seen'⟩ := ih between
    exact ⟨first, before, status.trans status', seen.trans seen'⟩

theorem exec_registered {P : Platform} {op : DbOp} {s : Session Db} (io : Io) {w : WorkerId}
    {row : WorkerRow} (found : s.live.workers.get w = some row) :
    ∃ row', (op.after P io s).live.workers.get w = some row' := by
  have moves := exec_moves P io op s
  generalize (op.after P io s).live = db at moves
  induction moves with
  | refl => exact ⟨row, found⟩
  | tail _ move ih =>
    obtain ⟨row', between⟩ := ih
    exact move.registered between

theorem registerWorker_cases (io : Io) (s : Session Db) (reg : WorkerRegister)
    (principal : Option String) :
    (∃ workers, s.live.workers.insert (workerRowOf io reg principal) = some workers ∧
      registerWorker io reg principal s =
        (.ok (workerRowOf io reg principal).id, .settled { s.live with workers := workers })) ∨
    ∃ error, registerWorker io reg principal s = (.error error, s) := by
  simp only [registerWorker, Txn.bind_run, Txn.live_run]
  split
  · cases inserted : s.live.workers.insert (workerRowOf io reg principal) with
    | none => exact .inr ⟨_, rfl⟩
    | some workers => exact .inl ⟨workers, rfl, rfl⟩
  · exact .inr ⟨_, rfl⟩

theorem heartbeatWorker_cases (io : Io) (s : Session Db) (v : WorkerId) (ttl : Time) :
    (heartbeatWorker io v (some ttl) s).1 = .ok (s.live.workers.get v).isSome ∧
    (∀ w, (heartbeatWorker io v (some ttl) s).2.live.workers.get w = (s.live.workers.get w).map
      fun row => if w = v then { row with lastSeenAt := io.now, status := .alive } else row) ∧
    ∀ taskId, (heartbeatWorker io v (some ttl) s).2.live.tasks.get taskId =
      (s.live.tasks.get taskId).map fun r =>
        if (s.live.workers.get v).isSome && (r.workerId == some v && r.status.inFlight) then
          { r with leaseExpiresAt := some (io.now + ttl) }
        else r := by
  simp only [heartbeatWorker, Txn.bind_run, Txn.live_run, Txn.write_run]
  have workers : ∀ w, (s.live.workers.update v fun row =>
      { row with lastSeenAt := io.now, status := .alive }).get w = (s.live.workers.get w).map
        fun row => if w = v then { row with lastSeenAt := io.now, status := .alive } else row := by
    intro w
    rw [Table.get_update]
    by_cases same : w = v <;> simp [same]
  cases found : (s.live.workers.get v).isSome with
  | false => exact ⟨rfl, workers, fun taskId => by simp [Txn.bind_run, Session.settled]⟩
  | true =>
    refine ⟨rfl, workers, fun taskId => ?_⟩
    simp only [Bool.true_and]
    exact Table.get_updateWhere s.live.tasks (fun r => r.workerId == some v && r.status.inFlight)
      (fun r => { r with leaseExpiresAt := some (io.now + ttl) }) (fun _ => rfl) taskId

theorem markDeadWorkers_cases (io : Io) (s : Session Db) (ttl : Time) :
    ∃ ids, (markDeadWorkers io ttl s).1 = .ok ids ∧
      (∀ w, w ∈ ids ↔ ∃ row, s.live.workers.get w = some row ∧ row.status = .alive ∧
        row.lastSeenAt < io.now - ttl) ∧
      (∀ w, (markDeadWorkers io ttl s).2.live.workers.get w = (s.live.workers.get w).map
        fun row => if w ∈ ids then { row with status := .dead } else row) ∧
      (markDeadWorkers io ttl s).2.live.tasks = s.live.tasks := by
  simp only [markDeadWorkers, Txn.bind_run, Txn.live_run]
  have chosen : ∀ w, w ∈ (s.live.workers.rows.filter fun w =>
      w.status = .alive && w.lastSeenAt < io.now - ttl).map WorkerRow.id ↔
      ∃ row, s.live.workers.get w = some row ∧ row.status = .alive ∧ row.lastSeenAt < io.now - ttl := by
    intro w
    constructor
    · intro member
      obtain ⟨row, filtered, rfl⟩ := List.mem_map.mp member
      simp only [List.mem_filter, Bool.and_eq_true, decide_eq_true_eq] at filtered
      exact ⟨row, Table.get_of_mem filtered.1, filtered.2⟩
    · rintro ⟨row, found, late⟩
      obtain ⟨member, rfl⟩ := Table.get_eq_some.mp found
      exact List.mem_map.mpr ⟨row, by simpa using ⟨member, late⟩, rfl⟩
  generalize (s.live.workers.rows.filter fun w =>
    w.status = .alive && w.lastSeenAt < io.now - ttl).map WorkerRow.id = ids at chosen
  refine ⟨ids, ?_, chosen, fun w => ?_, by split <;> rfl⟩
  · split
    · rename_i empty
      rw [List.isEmpty_iff.mp empty]
      rfl
    · rfl
  · split
    · rename_i empty
      rw [List.isEmpty_iff.mp empty]
      simp
    · refine (Table.get_updateWhere s.live.workers (fun r => ids.contains r.id)
        (fun r => { r with status := .dead }) (fun _ => rfl) w).trans ?_
      refine Option.map_congr fun row found => ?_
      obtain rfl : row.id = w := Table.get_key found
      simp

/-! ## Leases -/

/-- The calls that hand out leases. -/
def DbOp.leases : DbOp → Bool
  | .leaseNextTask _ _ => true
  | _ => false

/-- A task in flight was so before, with the same lease, when no call gives or renews one. -/
theorem Move.held {io : Io} {op : DbOp} {db db' : Db} (move : Move io op db db')
    (still : op.judges = false) (unleased : op.leases = false) {taskId : TaskId} {r' : TaskRow}
    (found : db'.tasks.get taskId = some r') (inFlight : r'.status.inFlight = true) :
    ∃ r, db.tasks.get taskId = some r ∧ r.status.inFlight = true ∧ r'.workerId = r.workerId ∧
      r'.attempt = r.attempt ∧ r'.leaseExpiresAt = r.leaseExpiresAt := by
  have same (tasks : db'.tasks = db.tasks) : ∃ r, db.tasks.get taskId = some r ∧
      r.status.inFlight = true ∧ r'.workerId = r.workerId ∧ r'.attempt = r.attempt ∧
      r'.leaseExpiresAt = r.leaseExpiresAt :=
    ⟨r', tasks ▸ found, inFlight, rfl, rfl, rfl⟩
  cases move with
  | task touched how jobs workers =>
    rcases touched.back found with ⟨rfl, rfl⟩ | ⟨_, before⟩
    · cases how with
      | start owned leased => exact ⟨_, touched.found, by rw [leased]; rfl, rfl, rfl, rfl⟩
      | lease | complete | cancel | stop => contradiction
      | fail =>
        rw [fail_status] at inFlight
        split at inFlight <;> contradiction
      | resolve =>
        rw [resolve_status] at inFlight
        split at inFlight
        · contradiction
        · split at inFlight <;> contradiction
    · exact ⟨r', before, inFlight, rfl, rfl, rfl⟩
  | renew how =>
    subst how
    contradiction
  | newTask creates job inserted jobs workers =>
    rw [Table.get_insert inserted] at found
    split at found
    · cases found
      contradiction
    · exact ⟨r', found, inFlight, rfl, rfl, rfl⟩
  | job how present legal moved =>
    subst moved
    exact same rfl
  | result how put =>
    subst put
    exact same rfl
  | newJob _ _ _ tasks | newWorker _ _ tasks | workers _ _ _ tasks | other tasks => exact same tasks

/-- The rows after a lease call that hands out a payload. -/
theorem leaseNextTask_given {P : Platform} {io : Io} {s : Session Db} {w : WorkerId} {ttl : Time}
    {payload : TaskPayload} (ran : (leaseNextTask P io w ttl s).1 = .ok (some payload)) :
    ∃ worker task, s.live.Leasable w worker task ∧ payload.taskId = task.id ∧
      payload.attempt = task.attempt + 1 ∧
      (leaseNextTask P io w ttl s).2.live.tasks.get task.id = some (task.lease w ttl io.now) ∧
      ∀ taskId, taskId ≠ task.id →
        (leaseNextTask P io w ttl s).2.live.tasks.get taskId = s.live.tasks.get taskId := by
  rcases leaseNextTask_cases (P := P) io s w ttl with
    ⟨worker, task, payload', leasable, read, ran'⟩ | ran' | ⟨_, ran'⟩
  · have touched := lease_touched leasable ttl io.now
    obtain ⟨id, _, attempt⟩ := payload_fields read
    rw [ran'] at ran ⊢
    cases ran
    exact ⟨worker, task, leasable, id, attempt, touched.now, touched.others⟩
  · rw [ran'] at ran
    cases ran
  · rw [ran'] at ran
    cases ran

theorem leaseNextTask_idle {P : Platform} {io : Io} {s : Session Db} {w : WorkerId} {ttl : Time}
    (idle : ∀ payload, (leaseNextTask P io w ttl s).1 ≠ .ok (some payload)) :
    (leaseNextTask P io w ttl s).2 = s := by
  rcases leaseNextTask_cases (P := P) io s w ttl with ⟨_, _, payload, _, _, ran⟩ | ran | ⟨_, ran⟩
  · exact False.elim (idle payload (congrArg Prod.fst ran))
  · exact congrArg Prod.snd ran
  · exact congrArg Prod.snd ran

theorem exec_held_still {P : Platform} {op : DbOp} {s : Session Db} (io : Io)
    (still : op.judges = false) (unleased : op.leases = false) {taskId : TaskId} {r' : TaskRow}
    (found : (op.after P io s).live.tasks.get taskId = some r') (inFlight : r'.status.inFlight = true) :
    ∃ r, s.live.tasks.get taskId = some r ∧ r.status.inFlight = true ∧ r'.workerId = r.workerId ∧
      r'.attempt = r.attempt ∧ r'.leaseExpiresAt = r.leaseExpiresAt := by
  have moves := exec_moves P io op s
  generalize (op.after P io s).live = db at moves found
  induction moves generalizing r' with
  | refl => exact ⟨r', found, inFlight, rfl, rfl, rfl⟩
  | tail _ move ih =>
    obtain ⟨r, between, inFlight, owner, attempt, lease⟩ := move.held still unleased found inFlight
    obtain ⟨first, before, inFlight, owner', attempt', lease'⟩ := ih inFlight between
    exact ⟨first, before, inFlight, owner.trans owner', attempt.trans attempt', lease.trans lease'⟩

/-- Where a task in flight was before a call: in flight for the same worker, its lease
perhaps renewed by a heartbeat, or leased by this very call. -/
inductive Held (P : Platform) (io : Io) (s : Session Db) (op : DbOp) (taskId : TaskId) (r' : TaskRow) :
    Prop where
  | kept {r : TaskRow} (found : s.live.tasks.get taskId = some r) (inFlight : r.status.inFlight = true)
      (owner : r'.workerId = r.workerId) (attempt : r'.attempt = r.attempt)
      (lease : r'.leaseExpiresAt = r.leaseExpiresAt)
      (unrenewed : ∀ w, r'.workerId = some w → (s.live.workers.get w).isSome = true →
        ∀ ttl, op ≠ .heartbeatWorker w (some ttl))
  | renewed {r : TaskRow} {w : WorkerId} {ttl : Time} {row : WorkerRow}
      (beats : op = .heartbeatWorker w (some ttl)) (registered : s.live.workers.get w = some row)
      (found : s.live.tasks.get taskId = some r) (inFlight : r.status.inFlight = true)
      (owner : r.workerId = some w) (same : r' = { r with leaseExpiresAt := some (io.now + ttl) })
  | granted {w : WorkerId} {ttl : Time} {row : WorkerRow} {payload : TaskPayload}
      (leases : op = .leaseNextTask w ttl) (registered : s.live.workers.get w = some row)
      (ran : (leaseNextTask P io w ttl s).1 = .ok (some payload)) (here : payload.taskId = taskId)
      (attempt : payload.attempt = r'.attempt) (owner : r'.workerId = some w)
      (lease : r'.leaseExpiresAt = some (io.now + ttl))

theorem exec_held {P : Platform} {op : DbOp} {s : Session Db} {io : Io} {taskId : TaskId}
    {r' : TaskRow} (found : (op.after P io s).live.tasks.get taskId = some r')
    (inFlight : r'.status.inFlight = true) : Held P io s op taskId r' := by
  cases op with
  | heartbeatWorker v ttl =>
    cases ttl with
    | none =>
      have before : s.live.tasks.get taskId = some r' := by
        revert found
        simp only [DbOp.after, DbOp.exec, heartbeatWorker, Txn.bind_run, Txn.live_run, Txn.write_run]
        cases (s.live.workers.get v).isSome <;> exact id
      exact .kept before inFlight rfl rfl rfl (by rintro _ _ _ _ ⟨⟩)
    | some ttl =>
      obtain ⟨_, _, tasks⟩ := heartbeatWorker_cases io s v ttl
      obtain ⟨r, before, rfl⟩ := Option.map_eq_some_iff.mp ((tasks taskId).symm.trans found)
      by_cases renewed : ((s.live.workers.get v).isSome &&
          (r.workerId == some v && r.status.inFlight)) = true
      · obtain ⟨registered, holds⟩ := Bool.and_eq_true_iff.mp renewed
        obtain ⟨row, registered⟩ := Option.isSome_iff_exists.mp registered
        rw [if_pos renewed] at inFlight ⊢
        exact .renewed rfl registered before inFlight
          (by simpa using (Bool.and_eq_true_iff.mp holds).1) rfl
      · rw [if_neg renewed] at inFlight ⊢
        refine .kept before inFlight rfl rfl rfl fun w owner registered ttl' same => ?_
        cases same
        exact renewed (by simp [registered, owner, inFlight])
  | markDeadWorkers ttl =>
    obtain ⟨_, _, _, _, same⟩ := markDeadWorkers_cases io s ttl
    exact .kept (same ▸ found) inFlight rfl rfl rfl (by rintro _ _ _ _ ⟨⟩)
  | leaseNextTask w ttl =>
    by_cases given : ∃ payload, (leaseNextTask P io w ttl s).1 = .ok (some payload)
    · obtain ⟨payload, ran⟩ := given
      obtain ⟨worker, task, leasable, id, attempt, now, others⟩ := leaseNextTask_given ran
      by_cases here : taskId = task.id
      · subst here
        cases now.symm.trans found
        exact .granted rfl leasable.registered ran id attempt rfl rfl
      · exact .kept ((others taskId here).symm.trans found) inFlight rfl rfl rfl (by rintro _ _ _ _ ⟨⟩)
    · have same := leaseNextTask_idle fun payload ran => given ⟨payload, ran⟩
      refine .kept ?_ inFlight rfl rfl rfl (by rintro _ _ _ _ ⟨⟩)
      simpa only [DbOp.after, DbOp.exec, same] using found
  | _ =>
    obtain ⟨r, before, inFlight, owner, attempt, lease⟩ := exec_held_still io rfl rfl found inFlight
    exact .kept before inFlight owner attempt lease (by rintro _ _ _ _ ⟨⟩)

/-- A reaper's loop over the selected rows resolves those and leaves the others. -/
theorem reapRows_selected {io : Io} {s : Session Db} {p : TaskRow → Bool} (error : String)
    (inFlight : ∀ r, p r = true → r.status.inFlight = true) {taskId : TaskId} {r : TaskRow}
    (found : s.live.tasks.get taskId = some r) :
    (p r = false → (reapRows io error (s.live.joinJobs (s.live.tasks.rows.filter p)) s).2.live.tasks.get
      taskId = some r) ∧
    (p r = true → ∀ j, s.live.jobs.get r.jobId = some j →
      (reapRows io error (s.live.joinJobs (s.live.tasks.rows.filter p)) s).2.live.tasks.get taskId =
        some (r.resolve error j.status io.now)) := by
  have lost := joinJobs_lost s.live p inFlight
  obtain ⟨member, rfl⟩ := Table.get_eq_some.mp found
  have chosen : ∀ row ∈ s.live.joinJobs (s.live.tasks.rows.filter p), p row.1 = true := by
    intro row joined
    obtain ⟨q, filtered, paired⟩ := List.mem_filterMap.mp joined
    obtain ⟨j, job, rfl⟩ := Option.map_eq_some_iff.mp paired
    exact (List.mem_filter.mp filtered).2
  rw [reapRows_ok lost]
  constructor
  · intro spared
    split
    · exact found
    · refine ((reapRows_get lost error io.now).2 _ fun row joined same => ?_).trans found
      have held := lost.found row joined
      rw [same] at held
      cases found.symm.trans held
      cases spared.symm.trans (chosen row joined)
  · intro taken j job
    have joined : (r, j.status) ∈ s.live.joinJobs (s.live.tasks.rows.filter p) :=
      List.mem_filterMap.mpr ⟨r, List.mem_filter.mpr ⟨member, taken⟩, by rw [job]; rfl⟩
    rw [if_neg (List.ne_nil_of_mem joined)]
    exact (reapRows_get lost error io.now).1 _ joined

theorem TaskRow.expired_inFlight {now : Time} (r : TaskRow) (expired : r.expired now = true) :
    r.status.inFlight = true := (Bool.and_eq_true_iff.mp expired).1

theorem reapExpiredLeases_selected (io : Io) {s : Session Db} {taskId : TaskId} {r : TaskRow}
    (found : s.live.tasks.get taskId = some r) :
    (r.expired io.now = false → (reapExpiredLeases io s).2.live.tasks.get taskId = some r) ∧
    (r.expired io.now = true → ∀ j, s.live.jobs.get r.jobId = some j →
      (reapExpiredLeases io s).2.live.tasks.get taskId =
        some (r.resolve "lease expired" j.status io.now)) :=
  reapRows_selected (p := TaskRow.expired io.now) "lease expired" TaskRow.expired_inFlight found

/-- The rows `reap_tasks_for_workers` selects. -/
def TaskRow.ownedBy (workerIds : List WorkerId) (r : TaskRow) : Bool :=
  r.workerId.any (fun w => workerIds.contains w) && r.status.inFlight

theorem TaskRow.ownedBy_iff {workerIds : List WorkerId} {r : TaskRow} :
    r.ownedBy workerIds = true ↔
      (∃ w, r.workerId = some w ∧ w ∈ workerIds) ∧ r.status.inFlight = true := by
  simp [TaskRow.ownedBy, Option.any_eq_true]

theorem reapTasksForWorkers_spares (io : Io) {s : Session Db} (workerIds : List WorkerId)
    (error : String) {taskId : TaskId} {r : TaskRow} (found : s.live.tasks.get taskId = some r)
    (apart : r.ownedBy workerIds = false) :
    (reapTasksForWorkers io workerIds error s).2.live.tasks.get taskId = some r := by
  unfold reapTasksForWorkers
  split
  · exact found
  · exact (reapRows_selected (p := TaskRow.ownedBy workerIds) error
      (fun r owned => (TaskRow.ownedBy_iff.mp owned).2) found).1 apart

end N4Cluster
