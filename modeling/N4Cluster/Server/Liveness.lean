import N4Cluster.Server.Ticks
import N4Cluster.Server.Settlement
import Mathlib.Data.List.Chain

/-! Healthy workers keep their tasks. A worker whose contacts are close enough is
never declared dead and its leases never run out; and a tick reaps from the dead
as long as no worker is heard from between its steps. -/
namespace N4Cluster
open Relational Transactional Relation Interleave

variable {P : Platform} {config : ServerConfig} {past : ServerPast} {p q : ServerPool}
  {l : Turn} {w : WorkerId}

/-- The runs of the server from an empty store, with what was done. -/
abbrev Recorded (P : Platform) (config : ServerConfig) (past : ServerPast) (p : ServerPool) : Prop :=
  System.Records (server P config) (fun _ => (server P config).Lawful) started past p

theorem recorded_keeping (run : Recorded P config past p) : Keeping P config .none p :=
  run_keeping (run.reaches fun _ _ _ => lawful_allowed)

/-! ## Reaping from the dead -/

theorem recorded_judged (run : Recorded P config past p) : Judged past p := by
  induction run with
  | start => exact started_judged
  | next before _ stepped ih => exact ih.step (recorded_keeping before).1 stepped

theorem recorded_staged (run : Recorded P config past p) : Staged P config past p :=
  run.invariant (fun staged _ stepped => staged.step stepped) started_staged

/-- If the call of thread `i` reaps for workers, each task it moves out of flight is
owned by a dead worker. -/
def ReapsTheDead (P : Platform) (p : ServerPool) (i : Nat) (io : Io) : Prop :=
  ∀ site ids error, p.waiting i = some ⟨site, .reapTasksForWorkers ids error⟩ →
    ∀ taskId r r', p.store.live.tasks.get taskId = some r → r.status.inFlight = true →
      ((DbOp.reapTasksForWorkers ids error).after P io p.store).live.tasks.get taskId = some r' →
      r'.status.inFlight = false →
      ∃ w row, r.workerId = some w ∧ p.store.live.workers.get w = some row ∧ row.status = .dead

/-- The workers that thread `i` is about to reap for. -/
def ServerPool.reaping (p : ServerPool) (i : Nat) : List WorkerId :=
  match p.waiting i with
  | some ⟨_, .reapTasksForWorkers ids _⟩ => ids
  | _ => []

/-- No worker that thread `i` is about to reap for, and that owns a task in flight,
has been heard from since it was last declared dead. -/
def Unrevived (past : ServerPast) (p : ServerPool) (i : Nat) : Prop :=
  ∀ taskId r w, p.store.live.tasks.get taskId = some r → r.status.inFlight = true →
    r.workerId = some w → w ∈ p.reaping i → ¬HeardSince w past

theorem resolve_not_inFlight (r : TaskRow) (error : String) (job : JobStatus) (now : Time) :
    (r.resolve error job now).status.inFlight = false := by
  rw [resolve_status]
  split
  · rfl
  · split <;> rfl

theorem reapTasksForWorkers_takes (io : Io) {s : Session Db} {ids : List WorkerId} (error : String)
    {taskId : TaskId} {r : TaskRow} {j : JobRow} (found : s.live.tasks.get taskId = some r)
    (job : s.live.jobs.get r.jobId = some j) (owned : r.ownedBy ids = true) :
    (reapTasksForWorkers io ids error s).2.live.tasks.get taskId =
      some (r.resolve error j.status io.now) := by
  have some_ids : ids.isEmpty = false := by
    obtain ⟨⟨w, _, listed⟩, _⟩ := TaskRow.ownedBy_iff.mp owned
    exact List.isEmpty_eq_false_iff.mpr (List.ne_nil_of_mem listed)
  unfold reapTasksForWorkers
  rw [some_ids]
  exact (reapRows_selected (p := TaskRow.ownedBy ids) error
    (fun r owned => (TaskRow.ownedBy_iff.mp owned).2) found).2 owned j job

theorem reaping_waits {i : Nat} (listed : w ∈ p.reaping i) :
    ∃ site ids error, p.waiting i = some ⟨site, .reapTasksForWorkers ids error⟩ ∧ w ∈ ids := by
  unfold ServerPool.reaping at listed
  split at listed
  · rename_i site ids error waits
    exact ⟨site, ids, error, waits, listed⟩
  · contradiction

theorem reaps_the_dead_iff {i : Nat} {io : Io} (run : Recorded P config past p) :
    ReapsTheDead P p i io ↔ Unrevived past p i := by
  have judged := recorded_judged run
  have good := (recorded_keeping run).1.good
  constructor
  · intro dead taskId r w found inFlight owner listed heard
    obtain ⟨site, ids, error, waits, listed⟩ := reaping_waits listed
    obtain ⟨j, job⟩ := good.linked taskId r found
    have taken := reapTasksForWorkers_takes io error found job
      (TaskRow.ownedBy_iff.mpr ⟨⟨w, owner, listed⟩, inFlight⟩)
    obtain ⟨v, row, owner', registered, status⟩ := dead site ids error waits taskId r _ found inFlight
      taken (resolve_not_inFlight _ _ _ _)
    cases owner.symm.trans owner'
    obtain ⟨m, last, judgment⟩ := judged w row registered
    obtain ⟨m', last', hears⟩ := heard
    cases last.symm.trans last'
    rcases judgment with ⟨_, declared⟩ | ⟨alive, _⟩
    · exact declares_unheard declared hears
    · exact nomatch status.symm.trans alive
  · intro unrevived site ids error waits taskId r r' found inFlight found' moved
    by_cases owned : r.ownedBy ids = true
    · obtain ⟨⟨w, owner, listed⟩, _⟩ := TaskRow.ownedBy_iff.mp owned
      obtain ⟨_, row, owner', registered⟩ := (good.sound taskId r found).owner inFlight
      cases owner.symm.trans owner'
      refine ⟨w, row, owner, registered, ?_⟩
      obtain ⟨m, last, judgment⟩ := judged w row registered
      rcases judgment with ⟨dead, _⟩ | ⟨_, heard⟩
      · exact dead
      · exact False.elim (unrevived taskId r w found inFlight owner
          (by rwa [ServerPool.reaping, waits]) ⟨m, last, heard⟩)
    · have spared := reapTasksForWorkers_spares io ids error found (Bool.eq_false_iff.mpr owned)
      cases found'.symm.trans spared
      exact nomatch inFlight.symm.trans moved

instance (past : ServerPast) (w : WorkerId) : Decidable (HeardSince w past) :=
  decidable_of_iff ((lastWord w past).any fun m => hears m == some w) <| by
    simp [HeardSince, Option.any_eq_true]

instance (past : ServerPast) (p : ServerPool) (i : Nat) : Decidable (Unrevived past p i) :=
  decidable_of_iff (∀ r ∈ p.store.live.tasks.rows, r.status.inFlight = true →
      ∀ w ∈ r.workerId.toList, w ∈ p.reaping i → ¬HeardSince w past)
    ⟨fun each _ r w found inFlight owner =>
        each r (Table.get_eq_some.mp found).1 inFlight w (Option.mem_toList.mpr owner),
      fun unrevived r member inFlight w owner =>
        unrevived r.id r w (Table.get_of_mem member) inFlight (Option.mem_toList.mp owner)⟩

instance (past : ServerPast) (p : ServerPool) : (l : Turn) →
    Decidable ((fun _ => (server P config).Lawful : ServerPast → ServerPool → Turn → Prop) past p l) :=
  fun l => inferInstanceAs (Decidable ((server P config).Lawful p l))

/-- The worker of a running task stays silent until a tick declares it dead. -/
def declaredTurns : List Turn :=
  runningTurns ++ [.spawn (.reaperTick .insertion)] ++ turns 4 2 100

theorem reaps_the_dead_declared : ∃ past p, Recorded .plain {} past p ∧ "worker_0" ∈ p.reaping 4 ∧
    ReapsTheDead .plain p 4 { now := 102 } := by
  have recorded : ((server .plain {}).record (fun _ => (server .plain {}).Lawful) declaredTurns []
      started).any (fun out => decide ("worker_0" ∈ ServerPool.reaping out.2 4) &&
        decide (Unrevived out.1 out.2 4)) = true := by decide +kernel
  obtain ⟨past, p, run, facts⟩ := System.record_any recorded
  obtain ⟨reaping, unrevived⟩ := Bool.and_eq_true_iff.mp facts
  exact ⟨past, p, run, of_decide_eq_true reaping,
    (reaps_the_dead_iff run).mpr (of_decide_eq_true unrevived)⟩

/-- The worker heartbeats between the step that declares it dead and the one that reaps. -/
def revivedTurns : List Turn :=
  runningTurns ++ [.spawn (.reaperTick .insertion)] ++ turns 4 1 100 ++
  [.spawn (.heartbeat "worker_0" {})] ++ turns 5 2 101 ++ turns 4 1 102

theorem ReapsTheDead.refuted {i : Nat} {io : Io} {site : Site} {ids : List WorkerId} {error : String}
    {taskId : TaskId} {r : TaskRow}
    (waits : p.waiting i = some ⟨site, .reapTasksForWorkers ids error⟩)
    (found : p.store.live.tasks.get taskId = some r) (inFlight : r.status.inFlight = true)
    (taken : (((DbOp.reapTasksForWorkers ids error).after P io p.store).live.tasks.get taskId).any
      fun r' => !r'.status.inFlight)
    (alive : r.workerId.all fun w => (p.store.live.workers.get w).all fun row => row.status = .alive) :
    ¬ReapsTheDead P p i io := by
  intro dead
  obtain ⟨r', found', moved⟩ := (Option.any_eq_true _ _).mp taken
  obtain ⟨w, row, owner, registered, status⟩ :=
    dead site ids error waits taskId r r' found inFlight found' (by simpa using moved)
  simp [owner, registered, status] at alive

/-- Thread `i` is about to take a task from a worker that is alive. -/
def ServerPool.reapsLiving (p : ServerPool) (i : Nat) (io : Io) (taskId : TaskId) : Bool :=
  match p.waiting i, p.store.live.tasks.get taskId with
  | some ⟨_, .reapTasksForWorkers ids error⟩, some r => r.status.inFlight &&
    ((((DbOp.reapTasksForWorkers ids error).after .plain io p.store).live.tasks.get taskId).any
      fun r' => !r'.status.inFlight) &&
    r.workerId.all fun w => (p.store.live.workers.get w).all fun row => row.status = .alive
  | _, _ => false

theorem living_worker_reaped : ¬∀ past p i io, Recorded .plain {} past p →
    (server .plain {}).Lawful p (.sched i io) → ReapsTheDead .plain p i io := by
  intro reaps
  have recorded : ((server .plain {}).record (fun _ => (server .plain {}).Lawful) revivedTurns []
      started).any (fun out => ServerPool.reapsLiving out.2 4 { now := 103 } "task_1") = true := by decide +kernel
  obtain ⟨past, p, run, facts⟩ := System.record_any recorded
  clear recorded
  unfold ServerPool.reapsLiving at facts
  split at facts
  · rename_i site ids error r waits found
    obtain ⟨facts, alive⟩ := Bool.and_eq_true_iff.mp facts
    obtain ⟨inFlight, taken⟩ := Bool.and_eq_true_iff.mp facts
    refine ReapsTheDead.refuted waits found inFlight taken alive (reaps past p 4 { now := 103 } run ?_)
    intro op waits'
    cases waits.symm.trans waits'
    trivial
  · contradiction

/-! ## Punctual workers -/

/-- When the worker registered or was heard from, the latest time first. -/
def contacts (w : WorkerId) (past : ServerPast) : List Time :=
  (System.made past).filterMap fun m => if hears m = some w then some m.io.now else none

/-- The clock never goes back, up to `now`. -/
def Chronological (now : Time) (past : ServerPast) : Prop :=
  (now :: (System.made past).map fun m => m.io.now).IsChain fun later earlier => earlier ≤ later

/-- The worker is never silent for longer than its leases last or it is held alive. -/
def Punctual (config : ServerConfig) (w : WorkerId) (now : Time) (past : ServerPast) : Prop :=
  (now :: contacts w past).IsChain fun later earlier =>
    later - earlier ≤ min config.leaseTtlS config.workerDeadAfterS

/-- The worker is alive, nobody declared it dead, and its leases outlast its patience. -/
structure Tended (config : ServerConfig) (w : WorkerId) (past : ServerPast) (db : Db) : Prop where
  alive : ∀ row, db.workers.get w = some row →
    row.status = .alive ∧ (contacts w past).head? = some row.lastSeenAt
  leases : ∀ taskId r, db.tasks.get taskId = some r → r.workerId = some w → r.status.inFlight = true →
    ∃ row expires, db.workers.get w = some row ∧ r.leaseExpiresAt = some expires ∧
      row.lastSeenAt + config.leaseTtlS ≤ expires
  spared : ∀ m ∈ System.made past, w ∉ declares m

section
variable {m : CallMade} {now : Time} {prior : ServerPast}

theorem Chronological.earlier (chronological : Chronological now past)
    (calls : System.made past = m :: System.made prior) :
    m.io.now ≤ now ∧ Chronological m.io.now prior := by
  rw [Chronological, calls, List.map_cons, List.isChain_cons_cons] at chronological
  exact chronological

theorem Punctual.earlier (punctual : Punctual config w now past)
    (calls : System.made past = m :: System.made prior) (before : m.io.now ≤ now) :
    Punctual config w m.io.now prior := by
  rw [Punctual, contacts, calls, List.filterMap_cons] at punctual
  split at punctual
  · rename_i other
    rw [Punctual, contacts]
    cases times : (System.made prior).filterMap fun m =>
        if hears m = some w then some m.io.now else none with
    | nil => exact .singleton _
    | cons seen rest =>
      rw [times, List.isChain_cons_cons] at punctual
      exact List.isChain_cons_cons.mpr ⟨(Int.sub_le_sub_right before seen).trans punctual.1, punctual.2⟩
  · rename_i time heard
    split at heard
    · cases heard
      exact (List.isChain_cons_cons.mp punctual).2
    · contradiction

theorem Chronological.made (chronological : Chronological now past) (member : m ∈ System.made past) :
    m.io.now ≤ now :=
  List.rel_of_pairwise_cons (List.isChain_iff_pairwise.mp chronological) (List.mem_map_of_mem member)

theorem Chronological.contact (chronological : Chronological now past)
    (last : (contacts w past).head? = some seen) : seen ≤ now := by
  obtain ⟨m, member, heard⟩ := List.mem_filterMap.mp (List.mem_of_mem_head? last)
  split at heard
  · cases heard
    exact chronological.made member
  · contradiction

theorem Punctual.contact (punctual : Punctual config w now past)
    (last : (contacts w past).head? = some seen) :
    now - seen ≤ min config.leaseTtlS config.workerDeadAfterS := by
  obtain ⟨rest, times⟩ := List.head?_eq_some_iff.mp last
  rw [Punctual, times] at punctual
  exact (List.isChain_cons_cons.mp punctual).1

/-- A tick does not declare a punctual worker dead. -/
theorem Tended.unmarked {s : Session Db} {i : Nat} {c : Call} {io : Io}
    (tended : Tended config w past s.live) (punctual : Punctual config w io.now past)
    (marks : ∀ ttl, c.op = .markDeadWorkers ttl → ttl = config.workerDeadAfterS) :
    w ∉ declares ⟨i, c, io, s⟩ := by
  intro declared
  obtain ⟨site, op⟩ := c
  cases op with
  | markDeadWorkers ttl =>
    cases marks ttl rfl
    obtain ⟨ids, answer, chosen, _, _⟩ := markDeadWorkers_cases io s config.workerDeadAfterS
    simp only [declares, answer] at declared
    obtain ⟨row, registered, _, late⟩ := (chosen w).mp declared
    have close := punctual.contact (tended.alive row registered).2
    exact not_lt.mpr (close.trans (min_le_right _ _)) 
      (Int.lt_sub_left_of_add_lt (Int.add_lt_of_lt_sub_right late))
  | _ => exact List.not_mem_nil declared

/-- A registered worker is heard from by its heartbeat. -/
theorem hears_registered {i : Nat} {c : Call} {io : Io} {s : Session Db} {row : WorkerRow}
    (heard : hears ⟨i, c, io, s⟩ = some w) (registered : s.live.workers.get w = some row) :
    ∃ ttl, c.op = .heartbeatWorker w ttl := by
  obtain ⟨site, op⟩ := c
  cases op with
  | heartbeatWorker v ttl =>
    simp only [hears] at heard
    split at heard
    · cases heard
      exact ⟨ttl, rfl⟩
    · contradiction
  | registerWorker reg principal =>
    rcases registerWorker_cases io s reg principal with ⟨workers, inserted, ran⟩ | ⟨error, ran⟩
    · simp only [hears, ran] at heard
      cases heard
      cases registered.symm.trans (Table.insert_fresh inserted)
    · simp only [hears, ran] at heard
      contradiction
  | _ => cases (show (none : Option WorkerId) = some w from heard)

/-- One call keeps a punctual worker tended. -/
theorem Tended.call {i : Nat} {io : Io} {request : Request} {c : Call}
    {next : Call.Ret c → Prog Reply} (tended : Tended config w past p.store.live)
    (waits : p.threads[i]? = some ⟨request, .call c next⟩) (makes : request.makes config c.op)
    (chronological : Chronological io.now past) (punctual : Punctual config w io.now past) :
    Tended config w (⟨p, .sched i io⟩ :: past) (c.op.after P io p.store).live := by
  have spared : w ∉ declares ⟨i, c, io, p.store⟩ :=
    tended.unmarked punctual fun ttl marks => makes_marks (marks ▸ makes)
  have calls := System.made_sched past io waits
  have alive : ∀ row', (c.op.after P io p.store).live.workers.get w = some row' →
      row'.status = .alive ∧ row'.lastSeenAt ≤ io.now ∧
      (contacts w (⟨p, .sched i io⟩ :: past)).head? = some row'.lastSeenAt := by
    intro row' found
    rw [contacts, calls, List.filterMap_cons]
    rcases exec_judged (i := i) found with ⟨heard, alive, seen⟩ | ⟨row, before, silent, seen, judgment⟩
    · rw [if_pos heard, seen]
      exact ⟨alive, le_refl _, rfl⟩
    · rw [if_neg silent, seen]
      obtain ⟨alive, last⟩ := tended.alive row before
      rcases judgment with ⟨declared, _⟩ | ⟨_, same⟩
      · exact False.elim (spared declared)
      · exact ⟨same.trans alive, chronological.contact last, last⟩
  refine ⟨fun row found => ⟨(alive row found).1, (alive row found).2.2⟩, ?_, ?_⟩
  · intro taskId r' found owner inFlight
    have rowed {row : WorkerRow} (registered : p.store.live.workers.get w = some row) :
        ∃ row', (c.op.after P io p.store).live.workers.get w = some row' ∧ row'.lastSeenAt ≤ io.now := by
      have kept : ∃ row', (c.op.after P io p.store).live.workers.get w = some row' :=
        exec_registered io registered
      obtain ⟨row', now⟩ := kept
      exact ⟨row', now, (alive row' now).2.1⟩
    cases exec_held found inFlight with
    | @kept r before inFlight' owner' _ lease unrenewed =>
      obtain ⟨row, expires, registered, held, later⟩ :=
        tended.leases taskId r before (owner'.symm.trans owner) inFlight'
      obtain ⟨row', registered', _⟩ := rowed registered
      refine ⟨row', expires, registered', lease.trans held, ?_⟩
      rcases exec_judged (i := i) registered' with ⟨heard, _⟩ | ⟨row'', registered'', _, seen, _⟩
      · obtain ⟨ttl, beats⟩ := hears_registered heard registered
        cases makes_heartbeat (beats ▸ makes)
        exact False.elim (unrenewed w owner (by rw [registered]; rfl) _ beats)
      · cases registered.symm.trans registered''
        exact seen ▸ later
    | @renewed r v ttl row beats registered before _ owner' same =>
      subst same
      cases owner.symm.trans owner'
      cases makes_heartbeat (beats ▸ makes)
      obtain ⟨row', registered', seen⟩ := rowed registered
      exact ⟨row', _, registered', rfl, Int.add_le_add_right seen _⟩
    | @granted v ttl row payload leases registered _ _ _ owner' lease =>
      cases owner.symm.trans owner'
      cases makes_lease (leases ▸ makes)
      obtain ⟨row', registered', seen⟩ := rowed registered
      exact ⟨row', _, registered', lease, Int.add_le_add_right seen _⟩
  · intro m member
    rw [calls] at member
    rcases List.mem_cons.mp member with rfl | before
    · exact spared
    · exact tended.spared m before

/-- Only calls count. -/
theorem Tended.uncalled {db : Db} (tended : Tended config w past db)
    (t : System.Taken Request Call Call.Ret Fault Reply (Session Db) Io) (idle : t.made = none) :
    Tended config w (t :: past) db := by
  have calls : System.made (t :: past) = System.made past := by
    rw [System.made, List.filterMap_cons, idle]
    rfl
  refine ⟨fun row found => ?_, tended.leases, calls ▸ tended.spared⟩
  rw [contacts, calls]
  exact tended.alive row found

theorem recorded_requesting (run : Recorded P config past p) : Requesting config p :=
  run.invariant (I := fun _ p => Requesting config p)
    (fun requesting _ stepped => requesting.step stepped) started_requesting

/-- In every run up to a moment until which the worker is punctual, it is tended. -/
theorem recorded_tended (run : Recorded P config past p) (chronological : Chronological now past)
    (punctual : Punctual config w now past) : Tended config w past p.store.live := by
  induction run generalizing now with
  | start =>
    exact ⟨fun row found => by simp [started, Session.settled] at found,
      fun taskId r found => by simp [started, Session.settled] at found,
      fun _ member => False.elim (List.not_mem_nil member)⟩
  | @next past p l q before lawful stepped ih =>
    cases l with
    | spawn request =>
      cases Option.some.inj stepped
      exact (ih chronological punctual).uncalled _ rfl
    | restart =>
      cases Option.some.inj stepped
      refine Tended.uncalled ?_ _ rfl
      change Tended config w past p.store.disk
      have settled := (recorded_keeping before).1.settled
      exact settled ▸ ih chronological punctual
    | sched i io =>
      obtain ⟨request, c, next, waits, rfl⟩ := System.sched_cases stepped
      have calls := System.made_sched past io waits
      obtain ⟨later, chronological⟩ := chronological.earlier calls
      have punctual := punctual.earlier calls later
      exact (ih chronological punctual).call waits ((recorded_requesting before).made waits)
        chronological punctual

end

/-! ## Reaper ticks and healthy workers -/

/-- A step of a reaper tick leaves every task that the worker holds as it is. -/
def LeavesTo (P : Platform) (w : WorkerId) (p : ServerPool) (i : Nat) (io : Io) : Prop :=
  ∀ order c next, p.threads[i]? = some ⟨.reaperTick order, .call c next⟩ →
    ∀ taskId r, p.store.live.tasks.get taskId = some r → r.workerId = some w →
      r.status.inFlight = true → (c.op.after P io p.store).live.tasks.get taskId = some r

theorem healthy_worker_undisturbed {i : Nat} {io : Io} (run : Recorded P config past p)
    (chronological : Chronological io.now past) (punctual : Punctual config w io.now past) :
    LeavesTo P w p i io := by
  intro order c next waits taskId r found owner inFlight
  have tended := recorded_tended run chronological punctual
  have makes := (recorded_requesting run).made waits
  obtain ⟨site, op⟩ := c
  cases op with
  | markDeadWorkers ttl =>
    obtain ⟨_, _, _, _, same⟩ := markDeadWorkers_cases io p.store ttl
    exact (congrArg (fun tasks => tasks.get taskId) same).trans found
  | reapTasksForWorkers ids error =>
    refine reapTasksForWorkers_spares io ids error found (Bool.eq_false_iff.mpr fun owned => ?_)
    obtain ⟨⟨v, owner', listed⟩, _⟩ := TaskRow.ownedBy_iff.mp owned
    cases owner.symm.trans owner'
    rcases recorded_staged run _ (List.mem_of_getElem? waits) with ⟨order, fresh⟩ | ⟨ids', calls, declared⟩
    · exact nomatch fresh
    · obtain rfl : ids = ids' := of_decide_eq_true calls.1
      obtain ⟨m, before, declares⟩ := declared w listed
      exact tended.spared m before declares
  | reapExpiredLeases =>
    obtain ⟨row, expires, registered, lease, later⟩ := tended.leases taskId r found owner inFlight
    have close := punctual.contact (tended.alive row registered).2
    refine (reapExpiredLeases_selected io found).1 ?_
    have current : io.now ≤ expires :=
      (Int.le_add_of_sub_left_le (close.trans (min_le_left _ _))).trans later
    simp [TaskRow.expired, lease, not_lt.mpr current]
  | _ =>
    refine exec_frame found fun writes => ?_
    rcases makes with common | writes' | ⟨_, _, final⟩ <;> contradiction

instance (now : Time) (past : ServerPast) : Decidable (Chronological now past) :=
  inferInstanceAs (Decidable (List.IsChain _ _))

instance (config : ServerConfig) (w : WorkerId) (now : Time) (past : ServerPast) :
    Decidable (Punctual config w now past) :=
  inferInstanceAs (Decidable (List.IsChain _ _))

/-- A running task outlives its first lease: the worker heartbeats, and a tick comes
to its step that reaps expired leases. -/
def renewedTurns : List Turn :=
  runningTurns ++ [.spawn (.heartbeat "worker_0" {})] ++ turns 4 5 40 ++
  [.spawn (.reaperTick .insertion)] ++ turns 5 2 80

theorem healthy_worker_undisturbed_renewed : ∃ past p r, Recorded .plain {} past p ∧
    p.store.live.tasks.get "task_1" = some r ∧ r.status.inFlight = true ∧
    r.workerId = some "worker_0" ∧ LeavesTo .plain "worker_0" p 5 { now := 80 } := by
  have recorded : ((server .plain {}).record (fun _ => (server .plain {}).Lawful) renewedTurns []
      started).any (fun out => decide (Chronological 80 out.1) &&
        (decide (Punctual {} "worker_0" 80 out.1) &&
        (out.2.store.live.tasks.get "task_1").any fun r =>
          r.status.inFlight && decide (r.workerId = some "worker_0"))) = true := by decide +kernel
  obtain ⟨past, p, run, facts⟩ := System.record_any recorded
  clear recorded
  obtain ⟨chronological, facts⟩ := Bool.and_eq_true_iff.mp facts
  obtain ⟨punctual, facts⟩ := Bool.and_eq_true_iff.mp facts
  obtain ⟨r, found, facts⟩ := (Option.any_eq_true _ _).mp facts
  obtain ⟨inFlight, owner⟩ := Bool.and_eq_true_iff.mp facts
  exact ⟨past, p, r, run, found, inFlight, of_decide_eq_true owner,
    healthy_worker_undisturbed run (of_decide_eq_true chronological) (of_decide_eq_true punctual)⟩

end N4Cluster
