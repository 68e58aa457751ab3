import N4Cluster.Server.Leases
import N4Cluster.Worker.Workdirs

/-! Leases that an agent never takes up. The server cannot tell a lost lease response
from a slow start: what it leased to an agent is taken back once the agent has been
silent for as long as a lease lasts, and not before. -/
namespace N4Cluster
open Relational Transactional Interleave

/-- A cluster with what its server has done. -/
structure Logged where
  past : ServerPast := []
  cluster : Cluster

section
variable (P : Platform) (config : ServerConfig) (agent : AgentConfig)

def Logged.take (x : Logged) (step : ClusterStep) : Option Logged :=
  (x.cluster.take P config agent step).map fun c =>
    ⟨match x.cluster.turn step with
      | some turn => ⟨x.cluster.pool, turn⟩ :: x.past
      | none => x.past, c⟩

/-- The runs of the server and the agent from `x`. -/
abbrev LoggedRuns (ok : ClusterStep → Prop) (x y : Logged) : Prop :=
  Runs (Logged.take P config agent) (fun x step => x.cluster.Lawful P config step ∧ ok step) x y

end

def Logged.started (agent : AgentConfig) : Logged := { cluster := Cluster.started agent }

variable {P : Platform} {config : ServerConfig} {agent : AgentConfig} {x y z : Logged}
  {step : ClusterStep} {ok : ClusterStep → Prop} {taskId : TaskId} {a : Nat}

/-- A step of the cluster is a turn of its server, or none. -/
theorem Cluster.take_turn {c c' : Cluster} (stepped : c.take P config agent step = some c') :
    (∃ turn, c.turn step = some turn ∧ (server P config).take c.pool turn = some c'.pool) ∨
    c.turn step = none ∧ c'.pool = c.pool := by
  have served {d : Cluster} {turn : Turn} (pool : d.pool = c.pool)
      (served : d.serve P config turn = some c') : (server P config).take c.pool turn = some c'.pool := by
    obtain ⟨pool', taken, rfl, _⟩ := serve_cases served
    exact pool ▸ taken
  cases Cluster.taken P config agent stepped with
  | server asked => exact .inl ⟨_, rfl, served rfl asked⟩
  | @agent thread io call next _ waits sent =>
    have turn : c.turn (.agent thread io) = AgentCall.turn io call := by
      simp only [Cluster.turn, waits]
    have same : ((c.effect agent call).resume (next (c.answer io call)) thread).pool = c.pool := by
      cases thread <;> cases call <;> rfl
    cases turns : AgentCall.turn io call with
    | some made =>
      simp only [turns] at sent
      exact .inl ⟨made, turn.trans turns, served same sent⟩
    | none =>
      simp only [turns] at sent
      cases sent
      exact .inr ⟨turn.trans turns, same⟩
  | leaseAgain | beat => exact .inr ⟨rfl, rfl⟩

/-- What the agent makes the server do is always allowed. -/
theorem Cluster.Lawful.turn {c : Cluster} {turn : Turn} (lawful : c.Lawful P config step)
    (turns : c.turn step = some turn) : (server P config).Lawful c.pool turn := by
  cases step with
  | server turn' =>
    cases turns
    exact lawful
  | agent thread io =>
    simp only [Cluster.turn] at turns
    split at turns
    · obtain ⟨request, _, rfl, _⟩ := turn_spawns turns
      trivial
    · contradiction
  | leaseAgain | beat => contradiction

/-- A step of the log: one more turn of the server, or none. -/
theorem Logged.take_cases (stepped : x.take P config agent step = some y) :
    (∃ turn, x.cluster.turn step = some turn ∧ y.past = ⟨x.cluster.pool, turn⟩ :: x.past ∧
      (server P config).take x.cluster.pool turn = some y.cluster.pool) ∨
    x.cluster.turn step = none ∧ y.past = x.past ∧ y.cluster.pool = x.cluster.pool := by
  obtain ⟨c, taken, rfl⟩ := Option.map_eq_some_iff.mp stepped
  rcases Cluster.take_turn taken with ⟨turn, turns, served⟩ | ⟨idle, same⟩
  · simp only [turns]
    exact .inl ⟨turn, rfl, rfl, served⟩
  · simp only [idle]
    exact .inr ⟨trivial, trivial, same⟩

theorem Logged.step_recorded (recorded : Recorded P config x.past x.cluster.pool)
    (lawful : x.cluster.Lawful P config step) (stepped : x.take P config agent step = some y) :
    Recorded P config y.past y.cluster.pool := by
  rcases Logged.take_cases stepped with ⟨turn, turns, past, taken⟩ | ⟨_, past, pool⟩
  · exact past ▸ .next recorded (lawful.turn turns) taken
  · exact past ▸ pool ▸ recorded

theorem LoggedRuns.recorded (run : LoggedRuns P config agent ok x y)
    (recorded : Recorded P config x.past x.cluster.pool) : Recorded P config y.past y.cluster.pool :=
  run.invariant (I := fun y : Logged => Recorded P config y.past y.cluster.pool)
    (fun recorded allowed stepped => Logged.step_recorded recorded allowed.1 stepped) recorded

theorem LoggedRuns.spent (run : LoggedRuns P config agent ok x y)
    (recorded : Recorded P config x.past x.cluster.pool)
    (spent : x.cluster.pool.store.live.Spent taskId a) :
    y.cluster.pool.store.live.Spent taskId a := by
  have both := run.invariant (I := fun y : Logged => Recorded P config y.past y.cluster.pool ∧
    y.cluster.pool.store.live.Spent taskId a) (fun both allowed stepped => ?_) ⟨recorded, spent⟩
  · exact both.2
  · refine ⟨Logged.step_recorded both.1 allowed.1 stepped, ?_⟩
    rcases Logged.take_cases stepped with ⟨turn, turns, _, taken⟩ | ⟨_, _, pool⟩
    · exact both.2.step (recorded_keeping both.1) (allowed.1.turn turns) taken
    · exact pool ▸ both.2

/-! ## Whole ticks -/

def ClusterStep.restarting : ClusterStep → Bool
  | .server .restart => true
  | _ => false

/-- A whole reaper tick, from its first call at `start` to its end. -/
def WholeTick (P : Platform) (config : ServerConfig) (agent : AgentConfig) (x y : Logged)
    (start : Time) : Prop :=
  ∃ i order io x', x.cluster.pool.threads[i]? = some ⟨.reaperTick order, reaperTick P config order⟩ ∧
    io.now = start ∧ x.take P config agent (.server (.sched i io)) = some x' ∧
    LoggedRuns P config agent (fun step => step.restarting = false) x' y ∧
    ∃ th, y.cluster.pool.threads[i]? = some th ∧ th.program.finished = true

theorem Logged.made_grows (stepped : x.take P config agent step = some y) {m : CallMade}
    (member : m ∈ System.made x.past) : m ∈ System.made y.past := by
  rcases Logged.take_cases stepped with ⟨turn, _, past, _⟩ | ⟨_, past, _⟩
  · exact past ▸ N4Cluster.made_grows _ member
  · exact past ▸ member

/-- While a tick runs, its expiry step is to come or the attempt is over. -/
theorem LoggedRuns.expiring {m first : CallMade} {i : Nat} {w : WorkerId} {start now : Time}
    (run : LoggedRuns P config agent (fun step => step.restarting = false) x y)
    (recorded : Recorded P config x.past x.cluster.pool)
    (expiring : Expiring P i taskId a x.cluster.pool)
    (member : m ∈ System.made x.past) (leased : CallMade.leased P m = some (w, taskId, a))
    (lapsed : m.io.now + config.leaseTtlS < start)
    (started : first ∈ System.made x.past) (begins : first.io.now = start)
    (chronological : Chronological now y.past) (silent : Silent config w start y.past) :
    Expiring P i taskId a y.cluster.pool ∧ Recorded P config y.past y.cluster.pool ∧
      m ∈ System.made y.past ∧ first ∈ System.made y.past := by
  induction run generalizing now with
  | refl => exact ⟨expiring, recorded, member, started⟩
  | @next y step z before allowed stepped ih =>
    have old : Silent config w start y.past := fun m member heard =>
      silent m (Logged.made_grows stepped member) heard
    rcases Logged.take_cases stepped with ⟨turn, turns, past, taken⟩ | ⟨_, past, pool⟩
    · rw [past] at chronological
      obtain ⟨earlier, clock, called⟩ := chronological.back
      obtain ⟨expiring, recorded, member, started⟩ := ih clock old
      have late : ∀ io, turn = .sched i io → start ≤ io.now := by
        rintro io rfl
        obtain ⟨request, c, next, waits, _⟩ := System.sched_cases taken
        have now := called ⟨i, c, io, y.cluster.pool.store⟩
          (by simp only [System.Taken.made, waiting_of waits, Option.map_some])
        rw [← begins, ← show earlier = io.now from now]
        exact clock.made started
      have still : turn ≠ .restart := by
        rintro rfl
        cases step with
        | server turn =>
          cases turns
          cases allowed.2
        | agent thread io =>
          simp only [Cluster.turn] at turns
          split at turns
          · obtain ⟨_, _, same, _⟩ := turn_spawns turns
            cases same
          · contradiction
        | leaseAgain | beat => contradiction
      exact ⟨expiring.step recorded (allowed.1.turn turns) taken still member leased lapsed old late,
        Logged.step_recorded recorded allowed.1 stepped, Logged.made_grows stepped member,
        Logged.made_grows stepped started⟩
    · rw [past] at chronological
      obtain ⟨expiring, recorded, member, started⟩ := ih chronological old
      exact ⟨by rwa [Expiring, pool], Logged.step_recorded recorded allowed.1 stepped,
        Logged.made_grows stepped member, Logged.made_grows stepped started⟩

/-- The task is leased under the attempt. -/
def Db.LeasedUnder (db : Db) (taskId : TaskId) (a : Nat) : Prop :=
  ∃ r, db.tasks.get taskId = some r ∧ r.status = .leased ∧ r.attempt = a

theorem Db.Spent.unleased {db : Db} (spent : db.Spent taskId a) : ¬db.LeasedUnder taskId a := by
  rintro ⟨r, found, leased, attempt⟩
  obtain ⟨r', found', _, idle⟩ := spent
  cases found.symm.trans found'
  have still := idle attempt
  rw [leased] at still
  contradiction

/-- After any whole tick that starts later than a lease lasts, and after which silence
the condition allows, the task is not leased under that lease, now or ever. A task that
was moved to running is not leased any more. -/
def LeasesLapse (P : Platform) (config : ServerConfig) (agent : AgentConfig)
    (quiet : WorkerId → Time → ServerPast → Prop) : Prop :=
  ∀ x y z m w taskId a start now,
    LoggedRuns P config agent (fun _ => True) (Logged.started agent) x →
    x.cluster.workerId = some w → m ∈ System.made x.past → CallMade.leased P m = some (w, taskId, a) →
    m.io.now + config.leaseTtlS < start → WholeTick P config agent x y start →
    Chronological now y.past → quiet w start y.past →
    LoggedRuns P config agent (fun _ => True) y z → ¬z.cluster.pool.store.live.LeasedUnder taskId a

theorem leases_lapse : LeasesLapse P config agent (Silent config) := by
  intro x y z m w taskId a start now run _ member leased lapsed tick chronological silent later
  obtain ⟨i, order, io, x', waits, begins, stepped, ticks, th, found, finished⟩ := tick
  have recorded := LoggedRuns.recorded run .start
  rw [reaperTick_eq] at waits
  have lawful : x.cluster.Lawful P config (.server (.sched i io)) := by
    intro c found
    cases found.symm.trans (waiting_of waits)
    trivial
  have recorded' := Logged.step_recorded recorded lawful stepped
  have begun : x'.past = ⟨x.cluster.pool, .sched i io⟩ :: x.past ∧
      (server P config).take x.cluster.pool (.sched i io) = some x'.cluster.pool := by
    rcases Logged.take_cases stepped with ⟨turn, turns, past, taken⟩ | ⟨none, _⟩
    · cases turns
      exact ⟨past, taken⟩
    · contradiction
  have first := System.made_sched x.past io waits
  have due : Expiring P i taskId a x'.cluster.pool := by
    obtain ⟨request, c, next, waits', moved⟩ := System.sched_cases begun.2
    cases waits.symm.trans waits'
    rw [Expiring, moved]
    refine .inl ⟨_, List.getElem?_set_self (List.getElem?_eq_some_iff.mp waits).1, ?_⟩
    have ticking : Due P (reaperTick P config order) := reaperTick_due order
    rw [reaperTick_eq] at ticking
    exact ticking.elim nofun fun next => next _ ⟨io, x.cluster.pool.store, rfl⟩
  have opens : (⟨i, ⟨.route, .markDeadWorkers config.workerDeadAfterS⟩, io, x.cluster.pool.store⟩ :
      CallMade) ∈ System.made x'.past := by
    rw [begun.1, first]
    exact List.mem_cons_self
  obtain ⟨expiring, recorded, _⟩ := LoggedRuns.expiring ticks recorded' due
    (Logged.made_grows stepped member) leased lapsed opens begins chronological silent
  have spent := expiring.over fun th' found' => by
    cases found.symm.trans found'
    exact finished
  exact (LoggedRuns.spent later recorded spent).unleased

/-! ## A lost lease response -/

/-- An agent with one slot. -/
def oneSlot : AgentConfig := { registration := equipped }

/-- The response that hands out the task is lost. -/
def lostSteps : List ClusterStep :=
  registeredSteps singleTask ++ [.leaseAgain] ++ agentSteps .main 2 ++ serverSteps (turns 2 3 3) ++
  [.agent .main { delivered := false }]

/-- The agent heartbeats. -/
def lostBeatSteps : List ClusterStep :=
  lostSteps ++ [.beat] ++ agentSteps .heartbeat 1 ++ serverSteps (turns 3 3 60)

/-- A tick played from where it is spawned. -/
def playTick (agent : AgentConfig) (x : Logged) (start : Time) (n : Nat) : Option (Logged × Logged) := do
  let i := x.cluster.pool.threads.length
  let x ← x.take .plain {} agent (.server (.spawn (.reaperTick .insertion)))
  let x' ← x.take .plain {} agent (.server (.sched i { now := start }))
  let y ← takes (Logged.take .plain {} agent)
    (fun x step => x.cluster.Lawful .plain {} step ∧ step.restarting = false)
    (serverSteps (turns i n start)) x'
  if y.cluster.pool.threads[i]?.any fun th => th.program.finished then some (x, y) else none

theorem playTick_whole {start : Time} {n : Nat} (played : playTick agent x start n = some (y, z)) :
    LoggedRuns .plain {} agent (fun _ => True) x y ∧ WholeTick .plain {} agent y z start := by
  simp only [playTick, Option.bind_eq_bind, Option.bind_eq_some_iff] at played
  obtain ⟨y', spawned, x', began, z', ran, ended⟩ := played
  split at ended
  · rename_i finished
    cases ended
    obtain ⟨th, found, done⟩ := (Option.any_eq_true _ _).mp finished
    have allowed : x.cluster.Lawful .plain {} (.server (.spawn (.reaperTick .insertion))) := trivial
    refine ⟨.next .refl ⟨allowed, trivial⟩ spawned,
      _, .insertion, _, x', ?_, rfl, began, takes_runs .refl ran, th, found, done⟩
    cases spawned
    exact List.getElem?_concat_length
  · contradiction

instance (config : ServerConfig) (w : WorkerId) (start : Time) (past : ServerPast) :
    Decidable (Silent config w start past) :=
  inferInstanceAs (Decidable (∀ m ∈ System.made past, _))

instance (db : Db) (taskId : TaskId) (a : Nat) : Decidable (db.LeasedUnder taskId a) :=
  decidable_of_iff ((db.tasks.get taskId).any fun r => decide (r.status = .leased ∧ r.attempt = a)) <| by
    simp [Db.LeasedUnder, Option.any_eq_true]

/-- The agent was given its task at time 3. -/
def Logged.given (x : Logged) : Bool :=
  decide (x.cluster.workerId = some "worker_0") && (System.made x.past).any fun m =>
    decide (CallMade.leased .plain m = some ("worker_0", "task_1", 1)) && decide (m.io.now = 3)

theorem Logged.given_iff : x.given = true ↔ x.cluster.workerId = some "worker_0" ∧
    ∃ m ∈ System.made x.past, CallMade.leased .plain m = some ("worker_0", "task_1", 1) ∧ m.io.now = 3 := by
  simp [Logged.given]

theorem leases_lapse_silent : ∃ x y m, LoggedRuns .plain {} oneSlot (fun _ => True) (Logged.started oneSlot) x ∧
    m ∈ System.made x.past ∧ CallMade.leased .plain m = some ("worker_0", "task_1", 1) ∧
    WholeTick .plain {} oneSlot x y 100 ∧ ¬y.cluster.pool.store.live.LeasedUnder "task_1" 1 := by
  have taken : (takes (Logged.take .plain {} oneSlot) (fun x step => x.cluster.Lawful .plain {} step ∧ True)
      lostSteps (Logged.started oneSlot)).any (fun x => (playTick oneSlot x 100 10).any fun out =>
        out.1.given && (decide (Chronological 100 out.2.past) &&
          decide (Silent {} "worker_0" 100 out.2.past))) = true := by decide +kernel
  obtain ⟨x₀, run, facts⟩ := takes_any taken
  clear taken
  obtain ⟨⟨x, y⟩, played, facts⟩ := (Option.any_eq_true _ _).mp facts
  obtain ⟨spawned, tick⟩ := playTick_whole played
  obtain ⟨given, facts⟩ := Bool.and_eq_true_iff.mp facts
  obtain ⟨chronological, silent⟩ := Bool.and_eq_true_iff.mp facts
  obtain ⟨agent, m, member, leased, time⟩ := Logged.given_iff.mp given
  have reached := run.trans spawned
  refine ⟨x, y, m, reached, member, leased, tick, ?_⟩
  exact leases_lapse x y y m "worker_0" "task_1" 1 100 100 reached agent member leased
    (by rw [time]; decide) tick (of_decide_eq_true chronological) (of_decide_eq_true silent) .refl

theorem lost_lease_kept : ¬LeasesLapse .plain {} oneSlot fun _ _ _ => True := by
  have taken : (takes (Logged.take .plain {} oneSlot) (fun x step => x.cluster.Lawful .plain {} step ∧ True)
      lostBeatSteps (Logged.started oneSlot)).any (fun x => (playTick oneSlot x 100 2).any fun out =>
        out.1.given && (decide (Chronological 100 out.2.past) &&
          decide (out.2.cluster.pool.store.live.LeasedUnder "task_1" 1))) = true := by decide +kernel
  obtain ⟨x₀, run, facts⟩ := takes_any taken
  clear taken
  obtain ⟨⟨x, y⟩, played, facts⟩ := (Option.any_eq_true _ _).mp facts
  obtain ⟨spawned, tick⟩ := playTick_whole played
  obtain ⟨given, facts⟩ := Bool.and_eq_true_iff.mp facts
  obtain ⟨chronological, held⟩ := Bool.and_eq_true_iff.mp facts
  obtain ⟨agent, m, member, leased, time⟩ := Logged.given_iff.mp given
  intro lapse
  exact lapse x y y m "worker_0" "task_1" 1 100 100 (run.trans spawned) agent member
    leased (by rw [time]; decide) tick (of_decide_eq_true chronological) trivial .refl
    (of_decide_eq_true held)

end N4Cluster
