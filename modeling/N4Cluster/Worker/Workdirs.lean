import N4Cluster.Server.Outcomes
import N4Cluster.Worker.Cluster

/-! The work directories of one agent. Only the lease loop starts task threads; two of
them share a directory exactly when the server hands out a task again while the
agent still works on it. -/
namespace N4Cluster
open Relational Transactional Interleave

/-! ## The agent's programs -/

/-- The calls that start a task thread. -/
def AgentCall.starts : AgentCall → Bool
  | .startThread _ => true
  | _ => false

/-- No call of the program starts a task thread. -/
abbrev Quiet (p : Program AgentCall AgentCall.Ret AgentErr α) : Prop :=
  p.AllCalls fun call => call.starts = false

namespace Agent
variable {α : Type} {agent : AgentConfig} {w : WorkerId} {task : TaskPayload}

theorem ask_quiet {call : AgentCall} (quiet : call.starts = false) : Quiet (ask call) :=
  ⟨quiet, fun _ => trivial⟩

theorem orElse_quiet {value : α} {body : AgentProg α} (quiet : Quiet body) :
    Quiet (orElse value body) :=
  Program.AllCalls.handle quiet fun error => by cases error <;> trivial

theorem post_quiet (request : Request) : Quiet (post request) := by
  refine (ask_quiet rfl).bind fun sent => ?_
  cases sent with
  | none => trivial
  | some ticket =>
    refine (ask_quiet rfl).bind fun answer => ?_
    cases answer <;> trivial

theorem raiseForStatus_quiet (response : Response) : Quiet (raiseForStatus response) := by
  unfold raiseForStatus
  split <;> trivial

theorem register_quiet : Quiet (register agent) := by
  refine (post_quiet _).bind fun response => (raiseForStatus_quiet response).bind fun _ => ?_
  split
  · exact ask_quiet rfl
  · trivial

theorem heartbeatOnce_quiet : Quiet (heartbeatOnce agent w) := by
  refine orElse_quiet ((post_quiet _).bind fun response => ?_)
  split
  · split
    · exact ask_quiet rfl
    · trivial
  · trivial

theorem reportFail_quiet (error : String) (retriable : Bool) :
    Quiet (reportFail agent w task error retriable) :=
  orElse_quiet ((post_quiet _).bind fun _ => trivial)

theorem uploadIf_quiet (role : String) (file : Option (Option NewArtifact)) :
    Quiet (uploadIf agent task.taskId role file) := by
  unfold uploadIf
  split
  · trivial
  · refine orElse_quiet ((post_quiet _).bind fun response => (raiseForStatus_quiet response).bind fun _ => ?_)
    split <;> trivial

theorem reportSuccess_quiet (run : ExecutionResult) (fingerprint : String) :
    Quiet (reportSuccess agent w task run fingerprint) := by
  refine (uploadIf_quiet _ _).bind fun _ => (uploadIf_quiet _ _).bind fun _ => Program.AllCalls.bind ?_ fun _ => ?_
  · unfold uploadWorkspace
    split
    · exact uploadIf_quiet _ _
    · trivial
  · split
    · trivial
    · exact (post_quiet _).bind fun _ => trivial

theorem executed_quiet (run : ExecutionResult) (fingerprint : String) :
    Quiet (executed agent w task run fingerprint) := by
  refine Program.AllCalls.bind (Program.AllCalls.forEach _ fun _ _ => ?_) fun _ => ?_
  · exact orElse_quiet ((post_quiet _).bind fun _ => trivial)
  · split
    · exact reportFail_quiet _ _
    · split
      · exact reportSuccess_quiet _ _
      · exact (uploadIf_quiet _ _).bind fun _ => reportFail_quiet _ _

theorem started_quiet : Quiet (started agent w task) := by
  refine (ask_quiet rfl).bind fun spec => ?_
  split
  · exact reportFail_quiet _ _
  · trivial
  · refine (ask_quiet rfl).bind fun run => Program.AllCalls.bind ?_ fun _ => executed_quiet _ _
    cases run <;> trivial

theorem cleanup_calls {R : AgentCall → Prop} (removes : R (.removeTree (workdir agent task.taskId))) :
    (cleanup agent task).AllCalls R := by
  unfold cleanup
  split
  · trivial
  · exact ⟨removes, fun answer => by cases answer <;> trivial⟩

theorem handleTask_quiet : Quiet (handleTask agent w task) := by
  refine Program.AllCalls.ensure (Program.AllCalls.handle ?_ fun _ => reportFail_quiet _ _) ?_
  · refine (post_quiet _).bind fun start => ?_
    split
    · trivial
    · exact started_quiet
  · have removes : Quiet (cleanup agent task) := cleanup_calls rfl
    exact (ask_quiet rfl).bind fun _ => removes.bind fun _ => ask_quiet rfl

/-- The task in the answer to a lease call. -/
def leasedTask : Option Response → Option TaskPayload
  | none => none
  | some response => if 400 ≤ response.status then none else response.task

/-- The lease loop while its lease call is on the way, and while it awaits the response. -/
def awaiting (ticket : Ticket) : AgentProg Unit :=
  .call (.await ticket) fun answer => leased (leasedTask answer)

def asking (agent : AgentConfig) (w : WorkerId) : AgentProg Unit :=
  .call (.send (.lease w agent.principal)) fun sent =>
    match sent with
    | none => .ret ()
    | some ticket => awaiting ticket

theorem lease_eq : (lease agent w >>= leased) = asking agent w := by
  simp only [lease, orElse, post, ask, asking, Program.call_bind, Program.call_handle,
    Program.ret_bind]
  refine congrArg _ (funext fun sent => ?_)
  cases sent with
  | none => rfl
  | some ticket =>
    simp only [Program.call_bind, Program.call_handle, awaiting]
    refine congrArg _ (funext fun answer => ?_)
    cases answer with
    | none => rfl
    | some response =>
      simp only [raiseForStatus, leasedTask, Program.pure_eq, Program.ret_bind]
      split <;> rfl

theorem leaseOnce_eq : leaseOnce agent w = .call .activeCount fun active =>
    if agent.registration.slotsTotal ≤ active then .ret () else asking agent w := by
  simp only [leaseOnce, ask, Program.call_bind, Program.ret_bind]
  refine congrArg _ (funext fun active => ?_)
  split
  · rfl
  · exact lease_eq

end Agent

/-! ## What a lease call hands out -/

/-- The task a lease response carries. -/
def Reply.task : Reply → Option TaskPayload
  | .leased task => task
  | _ => none

/-- The task a call of the server leased. -/
def Call.grants (c : Call) (answer : Call.Ret c) : Option TaskId :=
  (c.op.leased answer).head?.map TaskPayload.taskId

/-- A program that has handed out no task yet, and will hand out the one it leases. -/
def Offering : Prog Reply → Prop
  | .ret reply => reply.task = none
  | .raise _ => True
  | .call c next => ∀ answer, Offering (next answer) ∨
      (next answer).Returns fun reply => ∀ payload, reply.task = some payload →
        c.grants answer = some payload.taskId

theorem offering_bind {α : Type} {p : Prog α} {k : α → Prog Reply} (later : ∀ value, Offering (k value)) :
    Offering (p >>= k) := by
  induction p with
  | ret value => exact later value
  | raise error => trivial
  | call c next ih => exact fun answer => .inl (ih answer)

theorem lease_offering {config : ServerConfig} (w : WorkerId) (principal : Principal) :
    Offering (Route.lease config w principal) := by
  refine offering_bind fun _ => ?_
  simp only [perform, Program.call_bind]
  intro answer
  refine .inr ?_
  cases answer with
  | error error => trivial
  | ok leased =>
    cases leased with
    | none =>
      intro payload same
      cases same
    | some payload =>
      simp only [Program.ret_bind]
      refine Program.Returns.bind fun _ => ?_
      intro other same
      cases same
      rfl

/-! ## The threads and the server together -/

/-- A task thread that has not ended. -/
def TaskThread.live (th : TaskThread) : Bool := !th.program.finished

/-- No live thread of the agent works on the task. -/
def Cluster.Free (c : Cluster) (taskId : TaskId) : Prop :=
  ∀ th ∈ c.handlers, th.live = true → th.task.taskId ≠ taskId

/-- Live task threads have different work directories. -/
def Cluster.Apart (agent : AgentConfig) (c : Cluster) : Prop :=
  ∀ (i j : Nat) (a b : TaskThread), c.handlers[i]? = some a → c.handlers[j]? = some b → a.live = true → b.live = true →
    Agent.workdir agent a.task.taskId = Agent.workdir agent b.task.taskId → i = j

/-- The answer to the lease call holds no task the agent still works on. -/
structure Cluster.Promises (c : Cluster) (ticket : Ticket) : Prop where
  epoch : ticket.epoch ≤ c.epoch
  reply : ticket.epoch = c.epoch → ∃ th, c.pool.threads[ticket.thread]? = some th ∧
    (Offering th.program ∨ th.program.Returns fun reply => ∀ payload, reply.task = some payload →
      c.Free payload.taskId)

/-- Where the main thread stands. -/
inductive MainStage (agent : AgentConfig) (c : Cluster) : AgentProg Unit → Prop where
  | quiet (calls : Quiet program) : MainStage agent c program
  | checking (w : WorkerId) : MainStage agent c (Agent.leaseOnce agent w)
  | asking (w : WorkerId) : MainStage agent c (Agent.asking agent w)
  | awaiting (promised : c.Promises ticket) : MainStage agent c (Agent.awaiting ticket)
  | counting (free : c.Free task.taskId) : MainStage agent c (Agent.leased (some task))
  | starting (free : c.Free task.taskId) : MainStage agent c (Agent.ask (.startThread task))

structure Cluster.Isolated (agent : AgentConfig) (c : Cluster) : Prop where
  apart : c.Apart agent
  main : MainStage agent c c.main
  beats : Quiet c.heartbeat
  works : ∀ th ∈ c.handlers, Quiet th.program

variable {P : Platform} {config : ServerConfig} {agent : AgentConfig} {c c' : Cluster} {ticket : Ticket}

theorem workdir_inj {a b : TaskId} (same : Agent.workdir agent a = Agent.workdir agent b) : a = b :=
  (String.append_right_inj _).mp same

theorem started_isolated : (Cluster.started agent).Isolated agent :=
  ⟨fun _ _ _ _ found => by simp [Cluster.started] at found, .quiet Agent.register_quiet, trivial,
    fun _ member => False.elim (List.not_mem_nil member)⟩

/-- More tasks are free once threads have ended. -/
theorem MainStage.mono {program : AgentProg Unit} (stage : MainStage agent c program)
    (free : ∀ taskId, c.Free taskId → c'.Free taskId)
    (promises : ∀ ticket, c.Promises ticket → c'.Promises ticket) : MainStage agent c' program := by
  cases stage with
  | quiet calls => exact .quiet calls
  | checking w => exact .checking w
  | asking w => exact .asking w
  | awaiting promised => exact .awaiting (promises _ promised)
  | counting here => exact .counting (free _ here)
  | starting here => exact .starting (free _ here)

/-- The agent's threads do not matter for the server's answer beyond what is free. -/
theorem Cluster.Promises.mono (promised : c.Promises ticket) (pool : c'.pool = c.pool)
    (epoch : c'.epoch = c.epoch) (free : ∀ taskId, c.Free taskId → c'.Free taskId) :
    c'.Promises ticket := by
  refine ⟨epoch ▸ promised.epoch, fun current => ?_⟩
  obtain ⟨th, found, answers⟩ := promised.reply (current.trans epoch)
  refine ⟨th, pool ▸ found, answers.imp_right fun returns => ?_⟩
  exact returns.mono fun reply keeps payload carried => free _ (keeps payload carried)

/-- The task that the call a thread waits at would lease. -/
def ServerPool.picks (P : Platform) (p : ServerPool) (i : Nat) : Option TaskId :=
  match p.waiting i with
  | some ⟨_, .leaseNextTask w _⟩ =>
    (p.store.live.workers.get w).bind fun worker =>
      match firstMatch P worker p.store.live.candidates with
      | .ok task => task.map TaskRow.id
      | .error _ => none
  | _ => none

/-- The main thread awaits the answer of a thread of the server. -/
def Cluster.awaits (c : Cluster) (i : Nat) : Bool :=
  match c.main with
  | .call (.await ticket) _ => ticket = ⟨c.epoch, i⟩
  | _ => false

/-- No lease step whose response the agent awaits picks a task that the agent still
works on. -/
def Unhandled (P : Platform) (c : Cluster) : ClusterStep → Prop
  | .server (.sched i _) => c.awaits i = true →
    ∀ taskId ∈ ServerPool.picks P c.pool i, c.Free taskId
  | _ => True

theorem grants_selected {i : Nat} {call : Call} {next : call.Ret → Prog Reply} {request : Request}
    {io : Io} {taskId : TaskId} {p : ServerPool}
    (waits : p.threads[i]? = some ⟨request, .call call next⟩)
    (granted : call.grants (call.op.exec P io p.store).1 = some taskId) :
    taskId ∈ ServerPool.picks P p i := by
  rw [ServerPool.picks, waiting_of waits]
  obtain ⟨site, op⟩ := call
  cases op with
  | leaseNextTask w ttl =>
    simp only [Call.grants, DbOp.exec] at granted
    cases ran : (leaseNextTask P io w ttl p.store).1 with
    | error error =>
      rw [ran] at granted
      contradiction
    | ok leased =>
      rw [ran] at granted
      cases leased with
      | none => contradiction
      | some payload =>
        obtain ⟨worker, task, registered, picked, same⟩ := leaseNextTask_selected ran
        cases granted
        simp only [registered, Option.bind_some, picked]
        exact congrArg some same.symm
  | _ => contradiction

theorem serve_cases {turn : Turn} (served : c.serve P config turn = some c') :
    ∃ pool, (server P config).take c.pool turn = some pool ∧ c'.pool = pool ∧
      c'.epoch = c.epoch + restarts turn ∧
      c' = { c with pool := pool, epoch := c'.epoch } := by
  obtain ⟨pool, taken, rfl⟩ := Option.map_eq_some_iff.mp served
  exact ⟨pool, taken, rfl, rfl, rfl⟩

/-- A turn of the server keeps the promise, if its lease picks a free task. -/
theorem Cluster.Promises.serve {turn : Turn} (promised : c.Promises ticket)
    (picks : ∀ io, turn = .sched ticket.thread io → ticket.epoch = c.epoch →
      ∀ taskId ∈ ServerPool.picks P c.pool ticket.thread, c.Free taskId)
    (served : c.serve P config turn = some c') : c'.Promises ticket := by
  obtain ⟨pool, taken, rfl, epoch, same⟩ := serve_cases served
  have handlers : c'.handlers = c.handlers := by rw [same]
  have free {taskId} (free : c.Free taskId) : c'.Free taskId := by
    rw [Cluster.Free, handlers]
    exact free
  cases turn with
  | restart =>
    have later : c'.epoch = c.epoch + 1 := epoch
    have before := promised.epoch
    exact ⟨by omega, fun current => by omega⟩
  | spawn request =>
    have now : c'.epoch = c.epoch := epoch
    refine ⟨now ▸ promised.epoch, fun current => ?_⟩
    obtain ⟨th, found, answers⟩ := promised.reply (current.trans now)
    refine ⟨th, ?_, answers.imp_right fun returns => returns.mono fun reply keeps payload carried =>
      free (keeps payload carried)⟩
    rw [← Option.some.inj taken]
    exact (List.getElem?_append_left (List.getElem?_eq_some_iff.mp found).1).trans found
  | sched i io =>
    have now : c'.epoch = c.epoch := epoch
    refine ⟨now ▸ promised.epoch, fun current => ?_⟩
    obtain ⟨th, found, answers⟩ := promised.reply (current.trans now)
    obtain ⟨request, call, next, waits, moved⟩ := System.sched_cases taken
    rw [moved]
    by_cases mine : i = ticket.thread
    · subst mine
      cases found.symm.trans waits
      refine ⟨_, List.getElem?_set_self (List.getElem?_eq_some_iff.mp found).1, ?_⟩
      rcases answers with offering | returns
      · refine (offering (call.op.exec P io c.pool.store).1).imp_right fun returns => ?_
        refine returns.mono fun reply keeps payload carried => free ?_
        exact picks io rfl (current.trans now) _ (grants_selected waits (keeps payload carried))
      · exact .inr ((returns _).mono fun reply keeps payload carried => free (keeps payload carried))
    · refine ⟨th, (List.getElem?_set_ne mine).trans found, answers.imp_right fun returns =>
        returns.mono fun reply keeps payload carried => free (keeps payload carried)⟩

theorem MainStage.serve {turn : Turn} {program : AgentProg Unit} (stage : MainStage agent c program)
    (picks : ∀ ticket, program = Agent.awaiting ticket → ∀ io, turn = .sched ticket.thread io →
      ticket.epoch = c.epoch →
      ∀ taskId ∈ ServerPool.picks P c.pool ticket.thread, c.Free taskId)
    (served : c.serve P config turn = some c') : MainStage agent c' program := by
  have free {taskId} (free : c.Free taskId) : c'.Free taskId := by
    obtain ⟨_, _, _, _, same⟩ := serve_cases served
    rw [Cluster.Free, show c'.handlers = c.handlers by rw [same]]
    exact free
  cases stage with
  | quiet calls => exact .quiet calls
  | checking w => exact .checking w
  | asking w => exact .asking w
  | awaiting promised => exact .awaiting (promised.serve (picks _ rfl) served)
  | counting here => exact .counting (free here)
  | starting here => exact .starting (free here)

/-- What else is the same after a turn of the server. -/
theorem Cluster.Isolated.serve {turn : Turn} (isolated : c.Isolated agent)
    (picks : ∀ ticket, c.main = Agent.awaiting ticket → ∀ io, turn = .sched ticket.thread io →
      ticket.epoch = c.epoch →
      ∀ taskId ∈ ServerPool.picks P c.pool ticket.thread, c.Free taskId)
    (served : c.serve P config turn = some c') : c'.Isolated agent := by
  have main := isolated.main.serve picks served
  obtain ⟨_, _, _, _, same⟩ := serve_cases served
  have handlers : c'.handlers = c.handlers := by rw [same]
  have others : c'.main = c.main ∧ c'.heartbeat = c.heartbeat := by rw [same]; exact ⟨rfl, rfl⟩
  refine ⟨?_, others.1 ▸ main, others.2 ▸ isolated.beats, handlers ▸ isolated.works⟩
  rw [Cluster.Apart, handlers]
  exact isolated.apart

/-- Calls that start no thread leave the threads alone. -/
theorem effect_rest (c : Cluster) (agent : AgentConfig) {call : AgentCall} (still : call.starts = false) :
    (c.effect agent call).handlers = c.handlers ∧ (c.effect agent call).pool = c.pool ∧
    (c.effect agent call).epoch = c.epoch ∧ (c.effect agent call).main = c.main ∧
    (c.effect agent call).heartbeat = c.heartbeat := by
  cases call <;> first | exact ⟨rfl, rfl, rfl, rfl, rfl⟩ | contradiction

/-- A thread of the resumed list is a thread of the old one that has moved on. -/
theorem modify_origin {threads : List TaskThread} {k j : Nat} {program : AgentProg Unit}
    {th : TaskThread} (waits : ∀ old, threads[k]? = some old → old.live = true)
    (found : (threads.modify k fun th => { th with program := program })[j]? = some th) :
    ∃ old, threads[j]? = some old ∧ old.task = th.task ∧ (th.live = true → old.live = true) := by
  rw [List.getElem?_modify] at found
  obtain ⟨old, before, rfl⟩ := Option.map_eq_some_iff.mp found
  refine ⟨old, before, ?_⟩
  split
  · rename_i here
    subst here
    exact ⟨rfl, fun _ => waits old before⟩
  · exact ⟨rfl, id⟩

/-- A task thread that makes a quiet call and moves on. -/
theorem Cluster.Isolated.works_on (isolated : c.Isolated agent) {k : Nat} {call : AgentCall}
    {next : call.Ret → AgentProg Unit} (waits : c.program (.handler k) = some (.call call next))
    (answer : call.Ret) :
    ((c.effect agent call).resume (next answer) (.handler k)).Isolated agent := by
  obtain ⟨th, found, program⟩ := Option.map_eq_some_iff.mp waits
  have works : Quiet (.call call next : AgentProg Unit) :=
    program ▸ isolated.works th (List.mem_of_getElem? found)
  obtain ⟨handlers, pool, epoch, main, heartbeat⟩ := effect_rest c agent works.1
  have live : ∀ old, c.handlers[k]? = some old → old.live = true := by
    intro old here
    cases found.symm.trans here
    simp [TaskThread.live, program, Program.finished]
  have origin {j : Nat} {th : TaskThread} (found : ((c.effect agent call).resume (next answer) (.handler k)).handlers[j]? =
      some th) : ∃ old : TaskThread, c.handlers[j]? = some old ∧ old.task = th.task ∧
        (th.live = true → old.live = true) := by
    simp only [Cluster.resume, handlers] at found
    exact modify_origin live found
  have free {taskId} (free : c.Free taskId) :
      ((c.effect agent call).resume (next answer) (.handler k)).Free taskId := by
    intro th member live
    obtain ⟨j, place⟩ := List.mem_iff_getElem?.mp member
    obtain ⟨old, before, task, lived⟩ := origin place
    exact task ▸ free old (List.mem_of_getElem? before) (lived live)
  refine ⟨?_, ?_, ?_, ?_⟩
  · intro i j a b left right first second same
    obtain ⟨a', before, task, lived⟩ := origin left
    obtain ⟨b', before', task', lived'⟩ := origin right
    exact isolated.apart i j a' b' before before' (lived first) (lived' second) (by rw [task, task', same])
  · have stage : MainStage agent ((c.effect agent call).resume (next answer) (.handler k)) c.main :=
      isolated.main.mono (fun _ => free) fun ticket promised => promised.mono pool epoch fun _ => free
    simpa only [Cluster.resume, main] using stage
  · simpa only [Cluster.resume, heartbeat] using isolated.beats
  · intro th member
    simp only [Cluster.resume, handlers] at member
    obtain ⟨j, place⟩ := List.mem_iff_getElem?.mp member
    rw [List.getElem?_modify] at place
    obtain ⟨old, before, rfl⟩ := Option.map_eq_some_iff.mp place
    split
    · exact works.2 answer
    · exact isolated.works old (List.mem_of_getElem? before)

/-- The heartbeat thread makes a call and moves on. -/
theorem Cluster.Isolated.beats_on (isolated : c.Isolated agent) {call : AgentCall}
    {next : call.Ret → AgentProg Unit} (waits : c.heartbeat = .call call next) (answer : call.Ret) :
    ((c.effect agent call).resume (next answer) .heartbeat).Isolated agent := by
  have beats : Quiet (.call call next : AgentProg Unit) := waits ▸ isolated.beats
  obtain ⟨handlers, pool, epoch, main, _⟩ := effect_rest c agent beats.1
  have free {taskId} (free : c.Free taskId) :
      ((c.effect agent call).resume (next answer) .heartbeat).Free taskId := by
    simp only [Cluster.Free, Cluster.resume, handlers]
    exact free
  refine ⟨?_, ?_, beats.2 answer, ?_⟩
  · simp only [Cluster.Apart, Cluster.resume, handlers]
    exact isolated.apart
  · have stage : MainStage agent ((c.effect agent call).resume (next answer) .heartbeat) c.main :=
      isolated.main.mono (fun _ => free) fun ticket promised => promised.mono pool epoch fun _ => free
    simpa only [Cluster.resume, main] using stage
  · simpa only [Cluster.resume, handlers] using isolated.works

/-- The main thread moves on to a stage that does not start a thread. -/
theorem Cluster.Isolated.main_on (isolated : c.Isolated agent) {call : AgentCall}
    (still : call.starts = false) {program : AgentProg Unit}
    (stage : MainStage agent ((c.effect agent call).resume program .main) program) :
    ((c.effect agent call).resume program .main).Isolated agent := by
  obtain ⟨handlers, _, _, _, heartbeat⟩ := effect_rest c agent still
  refine ⟨?_, stage, ?_, ?_⟩
  · simp only [Cluster.Apart, Cluster.resume, handlers]
    exact isolated.apart
  · simpa only [Cluster.resume, heartbeat] using isolated.beats
  · simpa only [Cluster.resume, handlers] using isolated.works

theorem getElem?_snoc {α : Type} {xs : List α} {x a : α} {i : Nat}
    (found : (xs ++ [x])[i]? = some a) : xs[i]? = some a ∨ i = xs.length ∧ a = x := by
  rw [List.getElem?_append] at found
  split at found
  · exact .inl found
  · rename_i beyond
    have bound := (List.getElem?_eq_some_iff.mp found).1
    rw [List.length_singleton] at bound
    have here : i - xs.length = 0 := by omega
    rw [here] at found
    exact .inr ⟨by omega, (Option.some.inj found).symm⟩

/-- The main thread starts a thread for a free task. -/
theorem Cluster.Isolated.starts (isolated : c.Isolated agent) {task : TaskPayload}
    (free : c.Free task.taskId) (program : AgentProg Unit) (quiet : Quiet program) :
    ((c.effect agent (.startThread task)).resume program .main).Isolated agent := by
  refine ⟨?_, .quiet quiet, isolated.beats, fun th member => ?_⟩
  · intro i j a b left right first second same
    have tasks := workdir_inj same
    rcases getElem?_snoc left with old | ⟨rfl, rfl⟩
    · rcases getElem?_snoc right with old' | ⟨rfl, rfl⟩
      · exact isolated.apart i j a b old old' first second same
      · exact False.elim (free a (List.mem_of_getElem? old) first tasks)
    · rcases getElem?_snoc right with old' | ⟨rfl, rfl⟩
      · exact False.elim (free b (List.mem_of_getElem? old') second tasks.symm)
      · rfl
  · rcases List.mem_append.mp member with old | new
    · exact isolated.works th old
    · rw [List.mem_singleton.mp new]
      exact Agent.handleTask_quiet

/-- The answer to an awaited lease call holds a free task, if any. -/
theorem Cluster.Promises.answer (promised : c.Promises ticket) {io : AgentIo} {task : TaskPayload}
    (answered : Agent.leasedTask (c.answer io (.await ticket)) = some task) : c.Free task.taskId := by
  simp only [Cluster.answer, Cluster.response] at answered
  split at answered
  · split at answered
    · rename_i current
      obtain ⟨th, found, answers⟩ := promised.reply current
      rw [found, Option.bind_some] at answered
      cases program : th.program with
      | ret reply =>
        rw [program] at answered answers
        have carried : reply.task = some task := by
          cases reply with
          | leased leased =>
            simpa [Agent.leasedTask, Response.ofProgram, Response.task, Reply.task] using answered
          | _ => simp [Agent.leasedTask, Response.ofProgram, Response.task] at answered
        rcases answers with offering | returns
        · exact nomatch (show reply.task = none from offering).symm.trans carried
        · exact returns task carried
      | raise fault =>
        rw [program] at answered
        obtain ⟨site, error⟩ := fault
        cases error <;> simp [Agent.leasedTask, Response.ofProgram, Response.task] at answered
      | call call next =>
        rw [program] at answered
        contradiction
    · contradiction
  · contradiction

/-- An agent's call makes the server accept a request, or nothing. -/
theorem turn_spawns {call : AgentCall} {io : AgentIo} {turn : Turn} (turns : call.turn io = some turn) :
    ∃ request, call = .send request ∧ turn = .spawn request ∧ io.delivered = true := by
  cases call with
  | send request =>
    simp only [AgentCall.turn] at turns
    split at turns
    · rename_i delivered
      cases turns
      exact ⟨request, rfl, rfl, delivered⟩
    · contradiction
  | _ => contradiction

/-- What the server does for a call keeps the agent's threads apart. -/
theorem Cluster.Isolated.sent {call : AgentCall} {io : AgentIo} (isolated : c.Isolated agent)
    (stepped : (match call.turn io with
      | some turn => c.serve P config turn
      | none => some c) = some c') : c'.Isolated agent := by
  split at stepped
  · rename_i turn turns
    obtain ⟨request, _, rfl, _⟩ := turn_spawns turns
    exact isolated.serve (fun _ _ _ spawned => by cases spawned) stepped
  · cases stepped
    exact isolated

/-- The lease call reaches the server, and the loop awaits the answer. -/
theorem Cluster.Isolated.asks (isolated : c.Isolated agent) {w : WorkerId}
    (served : Cluster.serve P config
      { c with main := Agent.awaiting ⟨c.epoch, c.pool.threads.length⟩ }
      (.spawn (.lease w agent.principal)) = some c') : c'.Isolated agent := by
  obtain ⟨pool, taken, rfl, epoch, same⟩ := serve_cases served
  have handlers : c'.handlers = c.handlers := by rw [same]
  have others : c'.main = Agent.awaiting ⟨c.epoch, c.pool.threads.length⟩ ∧
      c'.heartbeat = c.heartbeat := by rw [same]; exact ⟨rfl, rfl⟩
  have accepted : c'.pool.threads[c.pool.threads.length]? =
      some ⟨.lease w agent.principal, handler P config (.lease w agent.principal)⟩ := by
    rw [← Option.some.inj taken]
    exact List.getElem?_concat_length
  refine ⟨?_, ?_, others.2 ▸ isolated.beats, handlers ▸ isolated.works⟩
  · rw [Cluster.Apart, handlers]
    exact isolated.apart
  · rw [others.1]
    exact .awaiting ⟨Nat.le_of_eq epoch.symm,
      fun _ => ⟨_, accepted, .inl (lease_offering w agent.principal)⟩⟩

/-- The main thread makes a call and moves on. -/
theorem Cluster.Isolated.mains_on (isolated : c.Isolated agent) {call : AgentCall} {io : AgentIo}
    {next : call.Ret → AgentProg Unit} (waits : c.main = .call call next)
    (stepped : (match call.turn io with
      | some turn => Cluster.serve P config
          ((c.effect agent call).resume (next (c.answer io call)) .main) turn
      | none => some ((c.effect agent call).resume (next (c.answer io call)) .main)) = some c') :
    c'.Isolated agent := by
  have stage := isolated.main
  generalize program : c.main = main at stage
  cases stage with
  | quiet calls =>
    subst program
    rw [waits] at calls
    exact (isolated.main_on calls.1 (.quiet (calls.2 _))).sent stepped
  | checking w =>
    rw [Agent.leaseOnce_eq] at program
    cases waits.symm.trans program
    cases stepped
    refine isolated.main_on rfl ?_
    dsimp only
    split
    · exact .quiet trivial
    · exact .asking w
  | asking w =>
    cases waits.symm.trans program
    by_cases delivered : io.delivered = true
    · simp only [AgentCall.turn, Cluster.answer, delivered, if_true] at stepped
      exact isolated.asks stepped
    · simp only [AgentCall.turn, Cluster.answer, delivered] at stepped
      cases stepped
      exact isolated.main_on rfl (.quiet trivial)
  | @awaiting ticket promised =>
    cases waits.symm.trans program
    cases stepped
    refine isolated.main_on rfl ?_
    dsimp only
    cases answered : Agent.leasedTask (c.answer io (.await ticket)) with
    | none => exact .quiet trivial
    | some task => exact .counting (promised.answer answered)
  | counting free =>
    cases waits.symm.trans program
    cases stepped
    exact isolated.main_on rfl (.starting free)
  | starting free =>
    cases waits.symm.trans program
    cases stepped
    exact isolated.starts free _ trivial

theorem Cluster.Isolated.step {step : ClusterStep} (isolated : c.Isolated agent)
    (unhandled : Unhandled P c step) (stepped : c.take P config agent step = some c') :
    c'.Isolated agent := by
  cases Cluster.taken P config agent stepped with
  | server served =>
    refine isolated.serve (fun ticket waits io scheduled current => ?_) served
    subst scheduled
    refine unhandled ?_
    rw [Cluster.awaits, waits, Agent.awaiting]
    exact decide_eq_true (by rw [← current])
  | @agent thread io call next _ waits sent =>
    cases thread with
    | main => exact isolated.mains_on (Option.some.inj waits) sent
    | heartbeat => exact (isolated.beats_on (Option.some.inj waits) _).sent sent
    | handler k => exact (isolated.works_on waits _).sent sent
  | @leaseAgain w => exact ⟨isolated.apart, .checking w, isolated.beats, isolated.works⟩
  | beat =>
    refine ⟨isolated.apart, ?_, Agent.heartbeatOnce_quiet, isolated.works⟩
    exact isolated.main.mono (fun _ => id) fun ticket promised =>
      promised.mono rfl rfl fun _ => id

/-! ## Two slots -/

instance (c : Cluster) (taskId : TaskId) : Decidable (c.Free taskId) :=
  inferInstanceAs (Decidable (∀ th ∈ c.handlers, _))

instance (P : Platform) (c : Cluster) : (step : ClusterStep) → Decidable (Unhandled P c step)
  | .server (.sched i _) => inferInstanceAs (Decidable (c.awaits i = true →
      ∀ taskId ∈ ServerPool.picks P c.pool i, c.Free taskId))
  | .server (.spawn _) | .server .restart | .agent _ _ | .leaseAgain | .beat => isTrue trivial

/-- In every run, live task threads have different work directories. -/
def WorkdirsApart (P : Platform) (config : ServerConfig) (agent : AgentConfig)
    (ok : Cluster → ClusterStep → Prop) : Prop :=
  ∀ c, Runs (fun c => c.take P config agent) ok (Cluster.started agent) c → c.Apart agent

theorem workdirs_apart : WorkdirsApart P config agent fun c step =>
    c.Lawful P config step ∧ Unhandled P c step := by
  intro c run
  have isolated : c.Isolated agent :=
    run.invariant (fun isolated allowed stepped => isolated.step allowed.2 stepped) started_isolated
  exact isolated.apart

/-- An agent with two slots. -/
def twoSlots : AgentConfig :=
  { registration := { equipped with slotsTotal := 2, atLeastOneSlot := Nat.two_pos } }

def serverSteps (turns : List Turn) : List ClusterStep := turns.map .server

def agentSteps (thread : AgentThread) (n : Nat) : List ClusterStep :=
  List.replicate n (.agent thread {})

/-- The agent registers, and a client submits a job. -/
def registeredSteps (request : JobRequest) : List ClusterStep :=
  agentSteps .main 1 ++ serverSteps (turns 0 2 1) ++ agentSteps .main 2 ++
  serverSteps ([.spawn (.submitJob request {})] ++ turns 1 5 2)

/-- A turn of the lease loop, answered by the server's thread at the time. -/
def leaseSteps (i : Nat) (now : Time) : List ClusterStep :=
  [.leaseAgain] ++ agentSteps .main 2 ++ serverSteps (turns i 3 now) ++ agentSteps .main 3

theorem workdirs_apart_both : ∃ c : Cluster, (c.handlers.map fun th => th.live) = [true, true] ∧
    c.Apart twoSlots := by
  have taken : (takes (fun c => c.take .plain {} twoSlots)
      (fun c step => c.Lawful .plain {} step ∧ Unhandled .plain c step)
      (registeredSteps twoTasks ++ leaseSteps 2 3 ++ leaseSteps 3 4) (Cluster.started twoSlots)).any
      (fun c => decide ((c.handlers.map fun th => th.live) = [true, true])) = true := by
    decide +kernel
  obtain ⟨c, run, live⟩ := takes_any taken
  exact ⟨c, of_decide_eq_true live, workdirs_apart c run⟩

/-- The agent's subprocess runs. -/
def runningSteps : List ClusterStep :=
  registeredSteps singleTask ++ leaseSteps 2 3 ++ agentSteps (.handler 0) 1 ++
  serverSteps (turns 3 3 4) ++ agentSteps (.handler 0) 2

/-- A reaper tick declares the silent agent dead and requeues its task; a heartbeat
revives the agent, and the task comes back. -/
def returnedSteps : List ClusterStep :=
  runningSteps ++ serverSteps ([.spawn (.reaperTick .insertion)] ++ turns 4 4 100) ++
  [.beat] ++ agentSteps .heartbeat 1 ++ serverSteps (turns 5 3 101) ++ leaseSteps 6 102

theorem workdir_shared : ¬WorkdirsApart .plain {} twoSlots (Cluster.Lawful .plain {}) := by
  have taken : (takes (fun c => c.take .plain {} twoSlots) (Cluster.Lawful .plain {})
      returnedSteps (Cluster.started twoSlots)).any (fun c => decide (
        (c.handlers.map fun th => (th.task.taskId, th.live)) = [("task_1", true), ("task_1", true)])) =
      true := by
    decide +kernel
  obtain ⟨c, run, live⟩ := takes_any taken
  clear taken
  intro apart
  have threads := of_decide_eq_true live
  have place (k : Nat) (bound : k < 2) :
      ∃ th, c.handlers[k]? = some th ∧ th.task.taskId = "task_1" ∧ th.live = true := by
    have here : (c.handlers[k]?).map (fun th => (th.task.taskId, th.live)) = some ("task_1", true) := by
      rw [← List.getElem?_map, threads]
      match k, bound with
      | 0, _ | 1, _ => rfl
    obtain ⟨th, found, same⟩ := Option.map_eq_some_iff.mp here
    exact ⟨th, found, (Prod.mk.inj same).1, (Prod.mk.inj same).2⟩
  obtain ⟨a, first, task, lives⟩ := place 0 (by omega)
  obtain ⟨b, second, task', lives'⟩ := place 1 (by omega)
  exact nomatch apart c run 0 1 a b first second lives lives' (by rw [task, task'])

end N4Cluster
