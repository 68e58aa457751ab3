import N4Cluster.Server.Orders
import N4Cluster.Worker.Slots

/-! What an agent stops. Task threads look up whether their task was cancelled in a set that
only the answers to heartbeats fill. Whatever the network does to them, and however late they
arrive, only tasks are stopped whose job is being cancelled or is over without success: no
healthy run is ever killed. -/
namespace N4Cluster
open Relational Transactional Relation Interleave

variable {P : Platform} {config : ServerConfig} {db db' : Db} {taskId : TaskId} {α : Type}

/-! ## The agent -/

/-- Asks the agent to stop tasks. -/
def AgentCall.orders : AgentCall → Bool
  | .requestCancel _ => true
  | _ => false

abbrev Obedient (p : AgentProg α) : Prop := p.AllCalls fun call => call.orders = false

theorem Plain.obedient {p : AgentProg α} (plain : Plain p) : Obedient p :=
  Program.AllCalls.mono (fun call plain => by cases call <;> first | rfl | contradiction) plain

namespace Agent
variable {agent : AgentConfig} {w : WorkerId} {task : TaskPayload}

theorem ask_obedient {call : AgentCall} (obedient : call.orders = false) : Obedient (ask call) :=
  ⟨obedient, fun _ => trivial⟩

theorem register_obedient : Obedient (register agent) := by
  refine (post_plain _).obedient.bind fun response => (raiseForStatus_plain response).obedient.bind fun _ => ?_
  split
  · exact ask_obedient rfl
  · trivial

theorem leaseOnce_obedient : Obedient (leaseOnce agent w) := by
  refine (ask_obedient rfl).bind fun active => ?_
  split
  · trivial
  · refine Program.AllCalls.bind (orElse_calls ((post_plain _).obedient.bind fun response =>
      (raiseForStatus_plain response).obedient.bind fun _ => trivial)) fun task => ?_
    cases task with
    | none => trivial
    | some task => exact (ask_obedient rfl).bind fun _ => ask_obedient rfl

theorem handleTask_obedient : Obedient (handleTask agent w task) := by
  refine Program.AllCalls.ensure attempt_plain.obedient ?_
  have removes : Obedient (cleanup agent task) := cleanup_calls rfl
  exact (ask_obedient rfl).bind fun _ => removes.bind fun _ => ask_obedient rfl

/-- The heartbeat thread once its call is over, and while it awaits the response. -/
def heard : Option Response → AgentProg Unit
  | none => .ret ()
  | some response =>
    match response.reply with
    | some (.ack ids) => if response.status = 200 then ask (.requestCancel ids) else .ret ()
    | _ => .ret ()

def hearing (ticket : Ticket) : AgentProg Unit := .call (.await ticket) heard

theorem heartbeatOnce_eq : heartbeatOnce agent w = .call (.send (.heartbeat w agent.principal)) fun sent =>
    match sent with
    | none => .ret ()
    | some ticket => hearing ticket := by
  simp only [heartbeatOnce, orElse, post, ask, Program.call_bind, Program.call_handle, Program.ret_bind]
  refine congrArg _ (funext fun sent => ?_)
  cases sent with
  | none => rfl
  | some ticket =>
    simp only [Program.call_bind, Program.call_handle, hearing]
    refine congrArg _ (funext fun answer => ?_)
    cases answer with
    | none => rfl
    | some response =>
      obtain ⟨status, reply⟩ := response
      cases reply with
      | none => rfl
      | some reply =>
        cases reply with
        | ack ids =>
          simp only [heard, Program.pure_eq, Program.ret_bind]
          split <;> rfl
        | _ => rfl

end Agent

/-! ## The agent and the server together -/

/-- Where the heartbeat thread stands; what it is about to stop is to be stopped. -/
inductive BeatStage (agent : AgentConfig) (db : Db) : AgentProg Unit → Prop where
  | obedient (calls : Obedient program) : BeatStage agent db program
  | beating (w : WorkerId) : BeatStage agent db (Agent.heartbeatOnce agent w)
  | hearing (ticket : Ticket) : BeatStage agent db (Agent.hearing ticket)
  | ordering (stops : ∀ taskId ∈ ids, db.Stops taskId) : BeatStage agent db (Agent.ask (.requestCancel ids))

variable {agent : AgentConfig} {c c' : Cluster}

theorem BeatStage.later {program : AgentProg Unit} (stage : BeatStage agent db program) (heeds : Heeds db db') :
    BeatStage agent db' program := by
  cases stage with
  | obedient calls => exact .obedient calls
  | beating w => exact .beating w
  | hearing ticket => exact .hearing ticket
  | ordering stops => exact .ordering fun taskId member => (stops taskId member).later heeds

structure Cluster.Orderly (P : Platform) (config : ServerConfig) (agent : AgentConfig) (c : Cluster) : Prop where
  server : Discipline.Governed (S := server P config) (heeding P) c.pool Orders
  requested : ∀ taskId ∈ c.cancelRequested, c.pool.store.live.Stops taskId
  beats : BeatStage agent c.pool.store.live c.heartbeat
  main : Obedient c.main
  works : ∀ th ∈ c.handlers, Obedient th.program

theorem started_orderly : (Cluster.started agent).Orderly P config agent := by
  refine ⟨⟨started_sound, fun th member => ?_⟩, fun _ member => ?_, .obedient trivial, Agent.register_obedient,
    fun _ member => ?_⟩
  all_goals exact False.elim (List.not_mem_nil member)

theorem Cluster.Orderly.serve {turn : Turn} (orderly : c.Orderly P config agent)
    (lawful : (N4Cluster.server P config).Lawful c.pool turn) (served : c.serve P config turn = some c') :
    c'.Orderly P config agent := by
  obtain ⟨pool, taken, here, _, same⟩ := serve_cases served
  obtain ⟨governed, heeds⟩ := (heeding_governs P config).step orderly.server lawful taken
  have heeds : Heeds c.pool.store.live pool.store.live := heeds
  rw [same]
  exact ⟨governed, fun taskId member => (orderly.requested taskId member).later heeds, orderly.beats.later heeds,
    orderly.main, orderly.works⟩

/-- What a call makes the server do besides. -/
theorem Cluster.Orderly.sent {call : AgentCall} {io : AgentIo} (orderly : c.Orderly P config agent)
    (stepped : (match call.turn io with
      | some turn => c.serve P config turn
      | none => some c) = some c') : c'.Orderly P config agent := by
  split at stepped
  · rename_i turn turns
    obtain ⟨request, _, rfl, _⟩ := turn_spawns turns
    exact orderly.serve (by trivial) stepped
  · cases stepped
    exact orderly

theorem Cluster.Orderly.effect {call : AgentCall} (orderly : c.Orderly P config agent) (obedient : call.orders = false) :
    (c.effect agent call).Orderly P config agent := by
  obtain ⟨server, requested, beats, main, works⟩ := orderly
  cases call with
  | requestCancel ids => contradiction
  | startThread task =>
    refine ⟨server, requested, beats, main, fun th member => ?_⟩
    rcases List.mem_append.mp member with old | new
    · exact works th old
    · rw [List.mem_singleton.mp new]
      exact Agent.handleTask_obedient
  | discardCancel taskId =>
    exact ⟨server, fun id member => requested id (List.mem_filter.mp member).1, beats, main, works⟩
  | _ => exact ⟨server, requested, beats, main, works⟩

/-- The answer to a heartbeat holds what is to be stopped. -/
theorem Cluster.Orderly.heard (orderly : c.Orderly P config agent) (io : AgentIo) (ticket : Ticket) :
    BeatStage agent c.pool.store.live (Agent.heard (c.answer io (.await ticket))) := by
  cases answered : c.answer io (.await ticket) with
  | none => exact .obedient trivial
  | some response =>
    simp only [Cluster.answer, Cluster.response] at answered
    split at answered
    · split at answered
      · obtain ⟨⟨request, program⟩, found, responds⟩ := Option.bind_eq_some_iff.mp answered
        cases program with
        | call call next => cases responds
        | raise fault =>
          obtain ⟨site, error⟩ := fault
          cases error <;> (cases responds; exact .obedient trivial)
        | ret reply =>
          cases responds
          cases reply with
          | ack ids => exact .ordering (orderly.server.answered found)
          | _ => exact .obedient trivial
      · cases answered
    · cases answered

theorem Cluster.Orderly.step {step : ClusterStep} (orderly : c.Orderly P config agent) (lawful : c.Lawful P config step)
    (stepped : c.take P config agent step = some c') : c'.Orderly P config agent := by
  cases Cluster.taken P config agent stepped with
  | server served => exact orderly.serve lawful served
  | @agent thread io call next _ waits sent =>
    refine Cluster.Orderly.sent ?_ sent
    cases thread with
    | main =>
      have calls := orderly.main
      rw [Option.some.inj waits] at calls
      have after := orderly.effect calls.1
      exact ⟨after.server, after.requested, after.beats, calls.2 _, after.works⟩
    | handler k =>
      obtain ⟨th, found, program⟩ := Option.map_eq_some_iff.mp waits
      have calls := orderly.works th (List.mem_of_getElem? found)
      rw [program] at calls
      have after := orderly.effect calls.1
      refine ⟨after.server, after.requested, after.beats, after.main, fun other member => ?_⟩
      obtain ⟨j, here⟩ := List.mem_iff_getElem?.mp member
      simp only [Cluster.resume, List.getElem?_modify] at here
      obtain ⟨old, before, rfl⟩ := Option.map_eq_some_iff.mp here
      split
      · exact calls.2 _
      · exact after.works old (List.mem_of_getElem? before)
    | heartbeat =>
      have stage := orderly.beats
      generalize program : c.heartbeat = beat at stage
      cases stage with
      | obedient calls =>
        cases (Option.some.inj waits).symm.trans program
        have after := orderly.effect calls.1
        exact ⟨after.server, after.requested, .obedient (calls.2 _), after.main, after.works⟩
      | beating w =>
        rw [Agent.heartbeatOnce_eq] at program
        cases (Option.some.inj waits).symm.trans program
        refine ⟨orderly.server, orderly.requested, ?_, orderly.main, orderly.works⟩
        cases delivered : io.delivered with
        | true =>
          simp only [Cluster.answer, delivered, if_true]
          exact .hearing _
        | false =>
          simp only [Cluster.answer, delivered]
          exact .obedient trivial
      | hearing ticket =>
        cases (Option.some.inj waits).symm.trans program
        exact ⟨orderly.server, orderly.requested, orderly.heard io ticket, orderly.main, orderly.works⟩
      | ordering stops =>
        cases (Option.some.inj waits).symm.trans program
        refine ⟨orderly.server, fun taskId member => ?_, .obedient trivial, orderly.main, orderly.works⟩
        rcases List.mem_append.mp member with old | new
        · exact orderly.requested taskId old
        · exact stops taskId new
  | leaseAgain =>
    exact ⟨orderly.server, orderly.requested, orderly.beats, Agent.leaseOnce_obedient, orderly.works⟩
  | @beat w => exact ⟨orderly.server, orderly.requested, .beating w, orderly.main, orderly.works⟩

theorem effect_requested {call : AgentCall} (obedient : call.orders = false)
    (told : taskId ∈ (c.effect agent call).cancelRequested) : taskId ∈ c.cancelRequested := by
  cases call with
  | requestCancel ids => contradiction
  | discardCancel other => exact (List.mem_filter.mp told).1
  | _ => exact told

theorem serve_requested {turn : Turn} (served : c.serve P config turn = some c') :
    c'.cancelRequested = c.cancelRequested := by
  obtain ⟨pool, _, _, _, same⟩ := serve_cases served
  rw [same]

theorem sent_requested {resumed : Cluster} {call : AgentCall} {io : AgentIo}
    (sent : (match call.turn io with
      | some turn => Cluster.serve P config resumed turn
      | none => some resumed) = some c') : c'.cancelRequested = resumed.cancelRequested := by
  split at sent
  · exact serve_requested sent
  · cases sent
    rfl

/-- A task that an agent is newly told to stop was named to its heartbeat thread. -/
theorem Cluster.Orderly.told {step : ClusterStep} (orderly : c.Orderly P config agent)
    (stepped : c.take P config agent step = some c') (now : taskId ∈ c'.cancelRequested)
    (new : taskId ∉ c.cancelRequested) :
    ∃ io ids, step = .agent .heartbeat io ∧ c.heartbeat = Agent.ask (.requestCancel ids) ∧ taskId ∈ ids := by
  cases Cluster.taken P config agent stepped with
  | server served => exact absurd (serve_requested served ▸ now) new
  | @agent thread io call next _ waits sent =>
    have now : taskId ∈ (c.effect agent call).cancelRequested := by
      rw [sent_requested sent] at now
      cases thread <;> exact now
    cases thread with
    | main =>
      have calls := orderly.main
      rw [Option.some.inj waits] at calls
      exact absurd (effect_requested calls.1 now) new
    | handler k =>
      obtain ⟨th, found, program⟩ := Option.map_eq_some_iff.mp waits
      have calls := orderly.works th (List.mem_of_getElem? found)
      rw [program] at calls
      exact absurd (effect_requested calls.1 now) new
    | heartbeat =>
      have stage := orderly.beats
      generalize program : c.heartbeat = beat at stage
      have same := (Option.some.inj waits).symm.trans program
      cases stage with
      | obedient calls =>
        cases same
        exact absurd (effect_requested calls.1 now) new
      | beating w =>
        rw [Agent.heartbeatOnce_eq] at same
        cases same
        exact absurd now new
      | hearing ticket =>
        cases same
        exact absurd now new
      | ordering stops =>
        cases same
        exact ⟨io, _, rfl, rfl, (List.mem_append.mp now).resolve_left new⟩
  | leaseAgain | beat => exact absurd now new

/-- In every run of the server and an agent, whatever the network loses and however long an answer
is on its way: a task that the agent has been told to stop is a stored task of a job that is being
cancelled, was cancelled or has failed, never of one that waits, runs or has succeeded; and it
was named to the heartbeat thread. -/
theorem cancellations_ordered
    (run : Runs (fun c => c.take P config agent) (Cluster.Lawful P config) (Cluster.started agent) c) :
    (∀ taskId ∈ c.cancelRequested, ∃ r row, c.pool.store.live.tasks.get taskId = some r ∧
      c.pool.store.live.jobs.get r.jobId = some row ∧
      (row.status = .cancelling ∨ row.status = .cancelled ∨ row.status = .failed)) ∧
    ∀ step c', c.take P config agent step = some c' → ∀ taskId ∈ c'.cancelRequested, taskId ∉ c.cancelRequested →
      ∃ io ids, step = .agent .heartbeat io ∧ c.heartbeat = Agent.ask (.requestCancel ids) ∧ taskId ∈ ids := by
  have orderly : c.Orderly P config agent :=
    run.invariant (I := fun c => c.Orderly P config agent)
      (fun orderly lawful stepped => orderly.step lawful stepped) started_orderly
  refine ⟨fun taskId told => ?_, fun _ _ stepped _ now new => orderly.told stepped now new⟩
  obtain ⟨r, found, row, job, halted⟩ := orderly.requested taskId told
  refine ⟨r, row, found, job, ?_⟩
  generalize row.status = status at halted
  cases status <;> simp_all [JobStatus.halted]

/-- A task is started, its job is cancelled, and the agent's next heartbeat is answered. -/
def stoppedSteps : List ClusterStep :=
  registeredSteps singleTask ++ leaseSteps 2 3 ++ agentSteps (.handler 0) 1 ++ serverSteps (turns 3 3 4) ++
  agentSteps (.handler 0) 1 ++ serverSteps ([.spawn (.cancelJob "job_0")] ++ turns 4 3 5) ++
  [.beat] ++ agentSteps .heartbeat 1 ++ serverSteps (turns 5 5 6) ++ agentSteps .heartbeat 2

theorem cancellations_ordered_stopped : ∃ (c : Cluster) (r : TaskRow) (row : JobRow),
    "task_1" ∈ c.cancelRequested ∧ c.pool.store.live.tasks.get "task_1" = some r ∧
    c.pool.store.live.jobs.get r.jobId = some row ∧
    (row.status = .cancelling ∨ row.status = .cancelled ∨ row.status = .failed) := by
  have taken : (takes (fun c => c.take .plain {} twoSlots) (Cluster.Lawful .plain {}) stoppedSteps
      (Cluster.started twoSlots)).any (fun c => decide ("task_1" ∈ c.cancelRequested)) = true := by
    decide +kernel
  obtain ⟨c, run, told⟩ := takes_any taken
  have told := of_decide_eq_true told
  obtain ⟨r, row, found, job, halted⟩ := (cancellations_ordered run).1 "task_1" told
  exact ⟨c, r, row, told, found, job, halted⟩

end N4Cluster
