import N4Cluster.Server.Liveness

/-! The history of a lease: each attempt of a task is leased once, a task in flight has
the lease of its attempt or a later heartbeat's, and a whole tick takes back what has run
out. -/
namespace N4Cluster
open Relational Transactional Relation Interleave

/-- The worker, task and attempt a call leased. -/
def CallMade.leased (P : Platform) (m : CallMade) : Option (WorkerId × TaskId × Nat) :=
  match m.call.op with
  | .leaseNextTask w ttl =>
    match (leaseNextTask P m.io w ttl m.store).1 with
    | .ok (some payload) => some (w, payload.taskId, payload.attempt)
    | _ => none
  | _ => none

variable {P : Platform} {config : ServerConfig} {past : ServerPast} {p q : ServerPool}
  {l : Turn} {w : WorkerId} {taskId : TaskId} {a : Nat}

theorem CallMade.leased_iff {m : CallMade} : CallMade.leased P m = some (w, taskId, a) ↔
    ∃ ttl payload, m.call.op = .leaseNextTask w ttl ∧
      (leaseNextTask P m.io w ttl m.store).1 = .ok (some payload) ∧
      payload.taskId = taskId ∧ payload.attempt = a := by
  obtain ⟨thread, ⟨site, op⟩, io, s⟩ := m
  constructor
  · intro leased
    cases op with
    | leaseNextTask v ttl =>
      simp only [CallMade.leased] at leased
      split at leased
      · rename_i payload ran
        cases leased
        exact ⟨ttl, payload, rfl, ran, rfl, rfl⟩
      · contradiction
    | _ => contradiction
  · rintro ⟨ttl, payload, rfl, ran, rfl, rfl⟩
    simp only [CallMade.leased, ran]

/-! ## Attempts -/

/-- A lease counts the attempt it gives. -/
theorem leased_attempts {m : CallMade} (leased : CallMade.leased P m = some (w, taskId, a)) :
    a = m.store.live.attempts taskId + 1 ∧
    (m.call.op.after P m.io m.store).live.attempts taskId = a := by
  obtain ⟨ttl, payload, calls, ran, rfl, rfl⟩ := CallMade.leased_iff.mp leased
  obtain ⟨worker, task, leasable, id, attempt, now, _⟩ := leaseNextTask_given ran
  rw [calls, id, Db.attempts, Db.attempts, leasable.present]
  refine ⟨attempt, ?_⟩
  rw [DbOp.after, DbOp.exec, now]
  exact attempt.symm

theorem exec_attempts_le (P : Platform) (io : Io) (op : DbOp) (s : Session Db) (taskId : TaskId) :
    s.live.attempts taskId ≤ (op.after P io s).live.attempts taskId := by
  cases leases : op.leases with
  | false =>
    refine Nat.le_of_eq (Eq.symm ?_)
    exact (exec_moves P io op s).rec rfl fun _ move kept =>
      (move.attempts (fun w ttl same => by subst same; contradiction) taskId).trans kept
  | true =>
    cases op with
    | leaseNextTask w ttl =>
      by_cases given : ∃ payload, (leaseNextTask P io w ttl s).1 = .ok (some payload)
      · obtain ⟨payload, ran⟩ := given
        obtain ⟨worker, task, leasable, _, _, now, others⟩ := leaseNextTask_given ran
        simp only [DbOp.after, DbOp.exec, Db.attempts]
        by_cases here : taskId = task.id
        · rw [here, now, leasable.present]
          exact Nat.le_succ _
        · rw [others taskId here]
      · have same := leaseNextTask_idle fun payload ran => given ⟨payload, ran⟩
        simp only [DbOp.after, DbOp.exec, same, Nat.le_refl]
    | _ => contradiction

/-- Leases number the attempts: none is given twice, and none is ahead of its row. -/
structure LeasedOnce (P : Platform) (past : ServerPast) (db : Db) : Prop where
  bound : ∀ m ∈ System.made past, ∀ w taskId a, CallMade.leased P m = some (w, taskId, a) →
    1 ≤ a ∧ a ≤ db.attempts taskId
  once : ∀ m ∈ System.made past, ∀ m' ∈ System.made past, ∀ w w' taskId a,
    CallMade.leased P m = some (w, taskId, a) → CallMade.leased P m' = some (w', taskId, a) → m = m'

theorem LeasedOnce.call {m : CallMade} {prior : ServerPast} (numbered : LeasedOnce P prior m.store.live)
    (calls : System.made past = m :: System.made prior) :
    LeasedOnce P past (m.call.op.after P m.io m.store).live := by
  have ahead {m'} (member : m' ∈ System.made prior) {w w' taskId a}
      (leased : CallMade.leased P m = some (w, taskId, a))
      (leased' : CallMade.leased P m' = some (w', taskId, a)) : False := by
    have bound := (numbered.bound m' member w' taskId a leased').2
    have next := (leased_attempts leased).1
    omega
  constructor
  · intro m' member w taskId a leased
    rw [calls] at member
    rcases List.mem_cons.mp member with rfl | before
    · obtain ⟨next, now⟩ := leased_attempts leased
      omega
    · obtain ⟨positive, bound⟩ := numbered.bound m' before w taskId a leased
      exact ⟨positive, bound.trans (exec_attempts_le P m.io m.call.op m.store taskId)⟩
  · intro first member second member' w w' taskId a leased leased'
    rw [calls] at member member'
    rcases List.mem_cons.mp member with rfl | before
    · rcases List.mem_cons.mp member' with rfl | before'
      · rfl
      · exact (ahead before' leased leased').elim
    · rcases List.mem_cons.mp member' with rfl | before'
      · exact (ahead before leased' leased).elim
      · exact numbered.once first before second before' w w' taskId a leased leased'

/-- A task in flight has the lease of its attempt, or that of a heartbeat of its worker. -/
def LeasesKnown (P : Platform) (config : ServerConfig) (past : ServerPast) (db : Db) : Prop :=
  ∀ taskId r, db.tasks.get taskId = some r → r.status.inFlight = true →
    ∃ w, r.workerId = some w ∧ ∃ m ∈ System.made past,
      CallMade.leased P m = some (w, taskId, r.attempt) ∧
      ∃ m' ∈ System.made past, (m' = m ∨ hears m' = some w) ∧
        r.leaseExpiresAt = some (m'.io.now + config.leaseTtlS)

theorem LeasesKnown.call {i : Nat} {io : Io} {request : Request} {c : Call}
    {next : Call.Ret c → Prog Reply} (known : LeasesKnown P config past p.store.live)
    (waits : p.threads[i]? = some ⟨request, .call c next⟩) (makes : request.makes config c.op) :
    LeasesKnown P config (⟨p, .sched i io⟩ :: past) (c.op.after P io p.store).live := by
  have calls := System.made_sched past io waits
  have here : (⟨i, c, io, p.store⟩ : CallMade) ∈ System.made (⟨p, .sched i io⟩ :: past) := by
    rw [calls]
    exact List.mem_cons_self
  have old {m : CallMade} (member : m ∈ System.made past) :
      m ∈ System.made (⟨p, .sched i io⟩ :: past) := made_grows _ member
  intro taskId r' found inFlight
  cases exec_held found inFlight with
  | @kept r before inFlight' owner attempt lease =>
    obtain ⟨w, owner', m, member, leased, m', member', origin, expires⟩ := known taskId r before inFlight'
    exact ⟨w, owner.trans owner', m, old member, attempt ▸ leased, m', old member', origin,
      lease.trans expires⟩
  | @renewed r v ttl row beats registered before inFlight' owner same =>
    subst same
    cases makes_heartbeat (beats ▸ makes)
    obtain ⟨w, owner', m, member, leased, _⟩ := known taskId r before inFlight'
    cases owner.symm.trans owner'
    refine ⟨v, owner, m, old member, leased, _, here, .inr ?_, rfl⟩
    have answer := (heartbeatWorker_seen io p.store v (some config.leaseTtlS) v).1
    simp only [hears, beats, answer, registered, Option.isSome_some]
  | @granted v ttl row payload leases registered ran id attempt owner lease =>
    cases makes_lease (leases ▸ makes)
    refine ⟨v, owner, _, here, ?_, _, here, .inl rfl, lease⟩
    exact CallMade.leased_iff.mpr ⟨_, payload, leases, ran, id, attempt⟩

/-- The leases of every run are numbered and known. -/
structure Accounted (P : Platform) (config : ServerConfig) (past : ServerPast) (db : Db) : Prop where
  numbered : LeasedOnce P past db
  known : LeasesKnown P config past db

/-- Only calls count. -/
theorem Accounted.uncalled {db : Db} {later : ServerPast} (accounted : Accounted P config past db)
    (idle : System.made later = System.made past) : Accounted P config later db := by
  refine ⟨⟨?_, ?_⟩, ?_⟩
  · rw [idle]
    exact accounted.numbered.bound
  · rw [idle]
    exact accounted.numbered.once
  · rw [LeasesKnown, idle]
    exact accounted.known

theorem recorded_accounted (run : Recorded P config past p) :
    Accounted P config past p.store.live := by
  induction run with
  | start =>
    exact ⟨⟨fun _ member => False.elim (List.not_mem_nil member),
      fun _ member => False.elim (List.not_mem_nil member)⟩,
      fun taskId r found => by simp [started, Session.settled] at found⟩
  | @next past p l q before lawful stepped ih =>
    cases l with
    | spawn request =>
      cases Option.some.inj stepped
      exact ih.uncalled rfl
    | restart =>
      cases Option.some.inj stepped
      have settled := (recorded_keeping before).1.settled
      have same : Accounted P config past p.store.disk := settled ▸ ih
      exact same.uncalled rfl
    | sched i io =>
      obtain ⟨request, c, next, waits, rfl⟩ := System.sched_cases stepped
      have calls := System.made_sched past io waits
      exact ⟨ih.numbered.call (m := ⟨i, c, io, p.store⟩) calls,
        ih.known.call waits ((recorded_requesting before).made waits)⟩

/-! ## What is over stays over -/

/-- The attempt of the task is over. -/
def Db.Spent (db : Db) (taskId : TaskId) (a : Nat) : Prop :=
  ∃ r, db.tasks.get taskId = some r ∧ a ≤ r.attempt ∧ (r.attempt = a → r.status.inFlight = false)

theorem Db.Spent.call {io : Io} {op : DbOp} {s : Session Db} (spent : s.live.Spent taskId a)
    (evolves : Evolves s.live (op.after P io s).live) : (op.after P io s).live.Spent taskId a := by
  obtain ⟨r, found, bound, idle⟩ := spent
  obtain ⟨r', found', _⟩ := evolves.task taskId r found
  have grown := exec_attempts_le P io op s taskId
  simp only [Db.attempts, found, found', Option.elim_some] at grown
  refine ⟨r', found', bound.trans grown, fun same => Bool.eq_false_iff.mpr fun inFlight => ?_⟩
  have still : r.status.inFlight = false := idle (by omega)
  cases exec_held found' inFlight with
  | @kept r₀ before inFlight' | @renewed r₀ _ _ _ _ _ before inFlight' =>
    cases found.symm.trans before
    cases still.symm.trans inFlight'
  | @granted v ttl row payload leases registered ran id attempt =>
    obtain ⟨worker, task, leasable, id', attempt', _⟩ := leaseNextTask_given ran
    rw [id'] at id
    subst id
    cases found.symm.trans leasable.present
    omega

theorem Db.Spent.step (keeping : Keeping P config .none p) (lawful : (server P config).Lawful p l)
    (stepped : (server P config).take p l = some q) (spent : p.store.live.Spent taskId a) :
    q.store.live.Spent taskId a := by
  have evolves := keeping.evolves (lawful_allowed lawful) stepped
  rcases keeping.cases (lawful_allowed lawful) stepped with
    ⟨same, _⟩ | ⟨_, io, _, c, _, _, _, _, _, rfl, _⟩
  · exact same ▸ spent
  · exact spent.call evolves

/-- The server last heard from the worker too long ago for a lease to last until `start`. -/
def Silent (config : ServerConfig) (w : WorkerId) (start : Time) (past : ServerPast) : Prop :=
  ∀ m ∈ System.made past, hears m = some w → m.io.now + config.leaseTtlS < start

theorem resolve_attempt (r : TaskRow) (error : String) (job : JobStatus) (now : Time) :
    (r.resolve error job now).attempt = r.attempt := by
  unfold TaskRow.resolve
  split
  · rfl
  · split <;> rfl

/-- The expiry step ends an attempt whose lease has run out. -/
theorem Accounted.reaped {m : CallMade} {io : Io} {s : Session Db} {start : Time}
    (accounted : Accounted P config past s.live) (good : s.live.Good)
    (member : m ∈ System.made past) (leased : CallMade.leased P m = some (w, taskId, a))
    (lapsed : m.io.now + config.leaseTtlS < start) (silent : Silent config w start past)
    (late : start ≤ io.now) : (DbOp.reapExpiredLeases.after P io s).live.Spent taskId a := by
  obtain ⟨positive, bound⟩ := accounted.numbered.bound m member w taskId a leased
  unfold Db.attempts at bound
  cases found : s.live.tasks.get taskId with
  | none =>
    rw [found, Option.elim_none] at bound
    omega
  | some r =>
    rw [found, Option.elim_some] at bound
    have selected := reapExpiredLeases_selected io found
    by_cases held : r.attempt = a ∧ r.status.inFlight = true
    · obtain ⟨rfl, inFlight⟩ := held
      obtain ⟨v, _, m₁, member₁, leased₁, m₂, member₂, origin, expires⟩ :=
        accounted.known taskId r found inFlight
      have same : m₁ = m :=
        accounted.numbered.once m₁ member₁ m member v w taskId r.attempt leased₁ leased
      subst same
      cases leased.symm.trans leased₁
      have before : m₂.io.now + config.leaseTtlS < start := by
        rcases origin with rfl | heard
        · exact lapsed
        · exact silent m₂ member₂ heard
      have expired : r.expired io.now = true := by
        simp only [TaskRow.expired, inFlight, expires, Option.any_some, Bool.true_and]
        exact decide_eq_true (lt_of_lt_of_le before late)
      obtain ⟨j, job⟩ := good.linked taskId r found
      exact ⟨_, selected.2 expired j job, (resolve_attempt ..).ge,
        fun _ => resolve_not_inFlight _ _ _ _⟩
    · cases expired : r.expired io.now with
      | false => exact ⟨r, selected.1 expired, bound, fun same =>
          Bool.eq_false_iff.mpr fun inFlight => held ⟨same, inFlight⟩⟩
      | true =>
        obtain ⟨j, job⟩ := good.linked taskId r found
        exact ⟨_, selected.2 expired j job, (resolve_attempt ..).symm ▸ bound,
          fun _ => resolve_not_inFlight _ _ _ _⟩

/-! ## A tick comes to its expiry step -/

/-- What the server may answer to a call. -/
def Answers (P : Platform) (c : Call) (answer : Call.Ret c) : Prop :=
  ∃ io s, answer = (c.op.exec P io s).1

def DbOp.expires : DbOp → Bool
  | .reapExpiredLeases => true
  | _ => false

abbrev Due (P : Platform) {α : Type} (p : Prog α) : Prop :=
  p.Meets (Answers P) fun c => c.op.expires = true

theorem emit_smooth (site : Site) (event : NewEvent) (storable : event.unstorable P = none) :
    (emit site event).Smooth (Answers P) := by
  rintro _ ⟨io, s, rfl⟩
  simp only [DbOp.exec, addEvent_ok storable]
  trivial

theorem reapLeases_due (order : SetOrder) (lost : List (TaskId × JobId)) :
    Due P (reapLeases P order lost) :=
  (Program.Smooth.forEach _ fun _ => emit_smooth _ _ rfl).meets fun _ => .inl rfl

theorem tickRest_due (order : SetOrder) (ids : List WorkerId) : Due P (tickRest P order (.ok ids)) := by
  refine Program.Meets.bind (Program.Meets.handle ?_)
  refine (Program.Smooth.forEach _ fun _ => emit_smooth _ _ rfl).meets fun _ => .inr ?_
  rintro _ ⟨io, s, rfl⟩
  obtain ⟨rows, lost, ran⟩ := reapTasksForWorkers_rows io s ids "worker lost"
  simp only [DbOp.exec, ran, reapRows_ok lost]
  exact reapLeases_due order _

theorem reaperTick_due (order : SetOrder) : Due P (reaperTick P config order) := by
  rw [reaperTick_eq]
  refine .inr ?_
  rintro _ ⟨io, s, rfl⟩
  obtain ⟨ids, answer, _⟩ := markDeadWorkers_cases io s config.workerDeadAfterS
  simp only [DbOp.exec, answer]
  exact tickRest_due order ids

/-- Before a turn the clock stood no later than the call it makes. -/
theorem Chronological.back {t : System.Taken Request Call Call.Ret Fault Reply (Session Db) Io}
    {now : Time} (chronological : Chronological now (t :: past)) :
    ∃ earlier, Chronological earlier past ∧ ∀ m, t.made = some m → earlier = m.io.now := by
  cases made : t.made with
  | none =>
    have same : System.made (t :: past) = System.made past := by
      rw [System.made, List.filterMap_cons, made]
      rfl
    exact ⟨now, by rwa [Chronological, same] at chronological, fun m made => by cases made⟩
  | some m =>
    have calls : System.made (t :: past) = m :: System.made past := by
      rw [System.made, List.filterMap_cons, made]
      rfl
    obtain ⟨_, before⟩ := chronological.earlier calls
    exact ⟨m.io.now, before, fun m' same => congrArg (fun m => m.io.now) (Option.some.inj same)⟩

/-- The thread still has its expiry step to make, or the attempt is over. -/
def Expiring (P : Platform) (i : Nat) (taskId : TaskId) (a : Nat) (p : ServerPool) : Prop :=
  (∃ th, p.threads[i]? = some th ∧ Due P th.program) ∨ p.store.live.Spent taskId a

theorem Expiring.step {m : CallMade} {i : Nat} {start : Time} (expiring : Expiring P i taskId a p)
    (run : Recorded P config past p) (lawful : (server P config).Lawful p l)
    (stepped : (server P config).take p l = some q) (still : l ≠ .restart)
    (member : m ∈ System.made past) (leased : CallMade.leased P m = some (w, taskId, a))
    (lapsed : m.io.now + config.leaseTtlS < start) (silent : Silent config w start past)
    (late : ∀ io, l = .sched i io → start ≤ io.now) : Expiring P i taskId a q := by
  have keeping := recorded_keeping run
  rcases expiring with ⟨th, found, due⟩ | spent
  · cases l with
    | spawn request =>
      cases Option.some.inj stepped
      exact .inl ⟨th, (List.getElem?_append_left (List.getElem?_eq_some_iff.mp found).1).trans found, due⟩
    | restart => contradiction
    | sched k io =>
      obtain ⟨request, c, next, waits, rfl⟩ := System.sched_cases stepped
      by_cases mine : k = i
      · subst mine
        cases found.symm.trans waits
        rcases due with expires | later
        · obtain ⟨site, op⟩ := c
          cases op with
          | reapExpiredLeases =>
            exact .inr ((recorded_accounted run).reaped keeping.1.good member leased lapsed silent
              (late io rfl))
          | _ => contradiction
        · exact .inl ⟨_, List.getElem?_set_self (List.getElem?_eq_some_iff.mp found).1,
            later _ ⟨io, p.store, rfl⟩⟩
      · exact .inl ⟨th, (List.getElem?_set_ne mine).trans found, due⟩
  · exact .inr (spent.step keeping lawful stepped)

/-- A thread that has finished has made its expiry step. -/
theorem Expiring.over {i : Nat} (expiring : Expiring P i taskId a p)
    (finished : ∀ th, p.threads[i]? = some th → th.program.finished = true) :
    p.store.live.Spent taskId a := by
  rcases expiring with ⟨th, found, due⟩ | spent
  · have done := finished th found
    cases program : th.program with
    | ret value =>
      rw [program] at due
      exact False.elim due
    | raise error =>
      rw [program] at due
      exact False.elim due
    | call c next =>
      rw [program] at done
      contradiction
  · exact spent

end N4Cluster
