import N4Cluster.Server.Workers

/-! The reaper tick between its steps: the workers it reaps for are those it
declared dead, and a worker is dead exactly until it is heard from. -/
namespace N4Cluster
open Relational Transactional Relation Interleave

abbrev ServerPast := System.Past Request Call Call.Ret Fault Reply (Session Db) Io

abbrev CallMade := System.Made Call (Session Db) Io

/-- The worker a call hears from: one that registers, or a registered one's heartbeat. -/
def hears (m : CallMade) : Option WorkerId :=
  match m.call.op with
  | .registerWorker reg principal =>
    match (registerWorker m.io reg principal m.store).1 with
    | .ok workerId => some workerId
    | .error _ => none
  | .heartbeatWorker workerId ttl =>
    match (heartbeatWorker m.io workerId ttl m.store).1 with
    | .ok true => some workerId
    | _ => none
  | _ => none

/-- The workers a call declared dead. -/
def declares (m : CallMade) : List WorkerId :=
  match m.call.op with
  | .markDeadWorkers ttl =>
    match (markDeadWorkers m.io ttl m.store).1 with
    | .ok ids => ids
    | .error _ => []
  | _ => []

/-- Whether a call says of a worker that it is alive or dead. -/
def CallMade.judges (w : WorkerId) (m : CallMade) : Bool := hears m == some w || (declares m).contains w

/-- The latest call that heard from the worker or declared it dead. -/
def lastWord (w : WorkerId) (past : ServerPast) : Option CallMade :=
  (System.made past).find? (CallMade.judges w)

/-- The worker has been heard from since it was last declared dead. -/
def HeardSince (w : WorkerId) (past : ServerPast) : Prop :=
  ∃ m, lastWord w past = some m ∧ hears m = some w

/-- The calls of a tick that reaps for the given workers and marks no more. -/
def DbOp.reapsFor (ids : List WorkerId) : DbOp → Bool
  | .reapTasksForWorkers workerIds _ => workerIds = ids
  | .markDeadWorkers _ => false
  | _ => true

variable {P : Platform} {config : ServerConfig} {past : ServerPast} {p q : ServerPool}
  {l : Turn} {w : WorkerId}

/-- The tick after its first call. -/
def tickRest (P : Platform) (order : SetOrder) (answer : Except PyErr (List WorkerId)) : Prog Reply :=
  (Program.handle (match answer with
    | .ok dead => do
      Program.forEach dead fun workerId => emit .route (workerDeadEvent workerId)
      let lost ← perform .route (.reapTasksForWorkers dead "worker lost")
      reapLeases P order lost
    | .error error => .raise ⟨.route, error⟩) fun fault =>
      emit .reaperError (reaperErrorEvent fault.error)) >>= fun _ => .ret .ok

theorem reaperTick_eq (P : Platform) (config : ServerConfig) (order : SetOrder) :
    reaperTick P config order =
      .call ⟨.route, .markDeadWorkers config.workerDeadAfterS⟩ (tickRest P order) := by
  simp only [reaperTick, reap, perform, Program.call_bind, Program.call_handle]
  refine congrArg _ (funext fun answer => ?_)
  cases answer <;> rfl

theorem finalizeJob_reapsFor (ids : List WorkerId) (jobId : JobId) :
    Calls (DbOp.reapsFor ids) (finalizeJob P jobId) :=
  (finalizeJob_calls jobId).mono fun op finalizes => by cases op <;> first | rfl | contradiction

theorem reapLeases_reapsFor (ids : List WorkerId) (order : SetOrder) (lost : List (TaskId × JobId)) :
    Calls (DbOp.reapsFor ids) (reapLeases P order lost) := by
  refine (forEach_calls _ fun _ => emit_calls rfl).bind fun _ => (perform_calls rfl).bind fun affected => ?_
  exact (forEach_calls _ fun _ => emit_calls rfl).bind fun _ =>
    forEach_calls _ fun jobId => finalizeJob_reapsFor ids jobId

theorem tickRest_reapsFor (order : SetOrder) (answer : Except PyErr (List WorkerId)) :
    Calls (DbOp.reapsFor (answer.toOption.getD [])) (tickRest P order answer) := by
  refine Program.AllCalls.bind (Program.AllCalls.handle ?_ fun _ => emit_calls rfl) fun _ => trivial
  cases answer with
  | error error => trivial
  | ok dead =>
    exact (forEach_calls _ fun _ => emit_calls rfl).bind fun _ =>
      (perform_calls (by simp [DbOp.reapsFor, Except.toOption])).bind fun lost => reapLeases_reapsFor _ _ _

/-- The other requests neither mark nor reap for workers. -/
theorem handler_reapsFor {request : Request} (other : ∀ order, request ≠ .reaperTick order)
    (ids : List WorkerId) : Calls (DbOp.reapsFor ids) (handler P config request) := by
  have makes : Makes config request (handler P config request) := handler_makes request
  refine makes.mono fun c makes => ?_
  obtain ⟨site, op⟩ := c
  cases op with
  | markDeadWorkers ttl =>
    rcases makes with common | writes | ⟨_, _, final⟩
    · contradiction
    · cases request <;> first | contradiction | exact False.elim (other _ rfl)
    · contradiction
  | reapTasksForWorkers workerIds error =>
    rcases makes with common | writes | ⟨_, _, final⟩
    · contradiction
    · cases request <;> first | contradiction | exact False.elim (other _ rfl)
    · contradiction
  | _ => rfl

/-- A thread that reaps for workers comes after a call that declared them dead. -/
def Staged (P : Platform) (config : ServerConfig) (past : ServerPast) (p : ServerPool) : Prop :=
  ∀ th ∈ p.threads, (∃ order, th.program = reaperTick P config order) ∨
    ∃ ids, Calls (DbOp.reapsFor ids) th.program ∧
      ∀ w ∈ ids, ∃ m ∈ System.made past, w ∈ declares m

theorem started_staged : Staged P config [] started := fun _ member => nomatch member

theorem made_grows (t : System.Taken Request Call Call.Ret Fault Reply (Session Db) Io) {m : CallMade}
    (member : m ∈ System.made past) : m ∈ System.made (t :: past) := by
  rw [System.made, List.filterMap_cons]
  split
  · exact member
  · exact List.mem_cons_of_mem _ member

theorem Staged.step (staged : Staged P config past p)
    (stepped : (server P config).take p l = some q) : Staged P config (⟨p, l⟩ :: past) q := by
  have old (th) (member : th ∈ p.threads) : (∃ order, th.program = reaperTick P config order) ∨
      ∃ ids, Calls (DbOp.reapsFor ids) th.program ∧
        ∀ w ∈ ids, ∃ m ∈ System.made (⟨p, l⟩ :: past), w ∈ declares m := by
    rcases staged th member with fresh | ⟨ids, calls, declared⟩
    · exact .inl fresh
    · refine .inr ⟨ids, calls, fun w listed => ?_⟩
      obtain ⟨m, before, declares⟩ := declared w listed
      exact ⟨m, made_grows _ before, declares⟩
  intro th member
  cases l with
  | spawn request =>
    cases Option.some.inj stepped
    rcases List.mem_append.mp member with before | new
    · exact old th before
    · rw [List.mem_singleton.mp new]
      by_cases ticks : ∃ order, request = .reaperTick order
      · obtain ⟨order, rfl⟩ := ticks
        exact .inl ⟨order, rfl⟩
      · exact .inr ⟨[], handler_reapsFor (fun order same => ticks ⟨order, same⟩) [], nofun⟩
  | restart =>
    cases Option.some.inj stepped
    contradiction
  | sched i io =>
    obtain ⟨request, c, next, found, rfl⟩ := System.sched_cases stepped
    rcases List.mem_or_eq_of_mem_set member with before | rfl
    · exact old th before
    · rcases staged _ (List.mem_of_getElem? found) with ⟨order, waits⟩ | ⟨ids, calls, declared⟩
      · dsimp only at waits
        rw [reaperTick_eq] at waits
        cases waits
        refine .inr ⟨_, tickRest_reapsFor order _, fun w listed => ?_⟩
        rw [System.made_sched _ _ found]
        refine ⟨_, List.mem_cons_self, ?_⟩
        change w ∈ ((markDeadWorkers io config.workerDeadAfterS p.store).1.toOption.getD []) at listed
        simp only [declares]
        revert listed
        cases (markDeadWorkers io config.workerDeadAfterS p.store).1 <;> exact id
      · refine .inr ⟨ids, calls.2 _, fun w listed => ?_⟩
        obtain ⟨m, before, declares⟩ := declared w listed
        exact ⟨m, made_grows _ before, declares⟩

/-! ## The last word about a worker -/

theorem declares_unheard {m : CallMade} (declared : w ∈ declares m) : hears m ≠ some w := by
  obtain ⟨thread, ⟨site, op⟩, io, s⟩ := m
  cases op with
  | markDeadWorkers ttl => exact fun heard : none = some w => nomatch heard
  | _ => exact False.elim (List.not_mem_nil declared)

theorem heartbeatWorker_seen (io : Io) (s : Session Db) (v : WorkerId) (ttl : Option Time) (w : WorkerId) :
    (heartbeatWorker io v ttl s).1 = .ok (s.live.workers.get v).isSome ∧
    (heartbeatWorker io v ttl s).2.live.workers.get w = (s.live.workers.get w).map
      fun row => if w = v then { row with lastSeenAt := io.now, status := .alive } else row := by
  cases ttl with
  | some ttl => exact ⟨(heartbeatWorker_cases io s v ttl).1, (heartbeatWorker_cases io s v ttl).2.1 w⟩
  | none =>
    have seen : (s.live.workers.update v fun row =>
        { row with lastSeenAt := io.now, status := .alive }).get w = (s.live.workers.get w).map
          fun row => if w = v then { row with lastSeenAt := io.now, status := .alive } else row := by
      rw [Table.get_update]
      by_cases same : w = v <;> simp [same]
    simp only [heartbeatWorker, Txn.bind_run, Txn.live_run, Txn.write_run]
    cases (s.live.workers.get v).isSome <;> exact ⟨rfl, seen⟩

/-- What a call leaves of a worker: it was heard from, declared dead, or not judged. -/
theorem exec_judged {i : Nat} {io : Io} {c : Call} {s : Session Db} {row' : WorkerRow}
    (found : (c.op.after P io s).live.workers.get w = some row') :
    (hears ⟨i, c, io, s⟩ = some w ∧ row'.status = .alive ∧ row'.lastSeenAt = io.now) ∨
    ∃ row, s.live.workers.get w = some row ∧ hears ⟨i, c, io, s⟩ ≠ some w ∧
      row'.lastSeenAt = row.lastSeenAt ∧
      (w ∈ declares ⟨i, c, io, s⟩ ∧ row'.status = .dead ∨
        w ∉ declares ⟨i, c, io, s⟩ ∧ row'.status = row.status) := by
  obtain ⟨site, op⟩ := c
  have unjudged (still : op.judges = false) (other : ∀ reg principal, op ≠ .registerWorker reg principal)
      (silent : hears ⟨i, ⟨site, op⟩, io, s⟩ = none) (spared : declares ⟨i, ⟨site, op⟩, io, s⟩ = []) :
      ∃ row, s.live.workers.get w = some row ∧ hears ⟨i, ⟨site, op⟩, io, s⟩ ≠ some w ∧
        row'.lastSeenAt = row.lastSeenAt ∧ (w ∈ declares ⟨i, ⟨site, op⟩, io, s⟩ ∧ row'.status = .dead ∨
          w ∉ declares ⟨i, ⟨site, op⟩, io, s⟩ ∧ row'.status = row.status) := by
    obtain ⟨row, before, status, seen⟩ := exec_worker_seen io still other found
    refine ⟨row, before, by rw [silent]; rintro ⟨⟩, seen, .inr ⟨?_, status⟩⟩
    rw [spared]
    exact List.not_mem_nil
  cases op with
  | heartbeatWorker v ttl =>
    obtain ⟨answer, after⟩ := heartbeatWorker_seen io s v ttl w
    obtain ⟨row, before, rfl⟩ := Option.map_eq_some_iff.mp (after.symm.trans found)
    by_cases same : w = v
    · subst same
      refine .inl ⟨?_, ?_⟩
      · simp only [hears, answer, before, Option.isSome_some]
      · rw [if_pos rfl]
        exact ⟨rfl, rfl⟩
    · refine .inr ⟨row, before, ?_, by rw [if_neg same], .inr ⟨List.not_mem_nil, by rw [if_neg same]⟩⟩
      simp only [hears, answer]
      split
      · exact fun other => same (Option.some.inj other).symm
      · rintro ⟨⟩
  | markDeadWorkers ttl =>
    obtain ⟨ids, answer, _, after, _⟩ := markDeadWorkers_cases io s ttl
    obtain ⟨row, before, rfl⟩ := Option.map_eq_some_iff.mp ((after w).symm.trans found)
    refine .inr ⟨row, before, by rintro ⟨⟩, ?_, ?_⟩
    · split <;> rfl
    · simp only [declares, answer]
      by_cases listed : w ∈ ids
      · exact .inl ⟨listed, by rw [if_pos listed]⟩
      · exact .inr ⟨listed, by rw [if_neg listed]⟩
  | registerWorker reg principal =>
    rcases registerWorker_cases io s reg principal with ⟨workers, inserted, ran⟩ | ⟨error, ran⟩
    · simp only [DbOp.after, DbOp.exec, ran, Session.settled] at found
      rw [Table.get_insert inserted] at found
      simp only [hears, ran]
      split at found
      · rename_i same
        cases found
        exact .inl ⟨congrArg some same.symm, rfl, rfl⟩
      · rename_i other
        refine .inr ⟨row', found, fun same => other (Option.some.inj same).symm, rfl, .inr ⟨?_, rfl⟩⟩
        exact List.not_mem_nil
    · simp only [DbOp.after, DbOp.exec, ran] at found
      refine .inr ⟨row', found, ?_, rfl, .inr ⟨List.not_mem_nil, rfl⟩⟩
      simp only [hears, ran]
      rintro ⟨⟩
  | _ => exact .inr (unjudged rfl (by rintro _ _ ⟨⟩) rfl rfl)

/-- What the store says of a worker is the last word about it. -/
def Judged (past : ServerPast) (p : ServerPool) : Prop :=
  ∀ w row, p.store.live.workers.get w = some row → ∃ m, lastWord w past = some m ∧
    (row.status = .dead ∧ w ∈ declares m ∨ row.status = .alive ∧ hears m = some w)

theorem started_judged : Judged [] started := by
  intro w row found
  simp [started, Session.settled] at found

theorem Judged.step (judged : Judged past p) (sound : Sound p.store)
    (stepped : (server P config).take p l = some q) : Judged (⟨p, l⟩ :: past) q := by
  cases l with
  | spawn request =>
    cases Option.some.inj stepped
    exact judged
  | restart =>
    cases Option.some.inj stepped
    intro w row found
    change p.store.disk.workers.get w = some row at found
    rw [sound.settled] at found
    exact judged w row found
  | sched i io =>
    obtain ⟨request, c, next, waits, rfl⟩ := System.sched_cases stepped
    intro w row' found
    rw [lastWord, System.made_sched _ _ waits, List.find?_cons]
    rcases exec_judged (i := i) found with ⟨heard, alive, _⟩ | ⟨row, before, silent, _, judgment⟩
    · have speaks : CallMade.judges w ⟨i, c, io, p.store⟩ = true := by simp [CallMade.judges, heard]
      rw [speaks]
      exact ⟨_, rfl, .inr ⟨alive, heard⟩⟩
    · rcases judgment with ⟨declared, dead⟩ | ⟨spared, same⟩
      · have speaks : CallMade.judges w ⟨i, c, io, p.store⟩ = true := by simp [CallMade.judges, declared]
        rw [speaks]
        exact ⟨_, rfl, .inl ⟨dead, declared⟩⟩
      · have speaks : CallMade.judges w ⟨i, c, io, p.store⟩ = false := by
          simp [CallMade.judges, silent, spared]
        rw [speaks, same]
        exact judged w row before

end N4Cluster
