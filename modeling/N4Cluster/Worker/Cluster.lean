import N4Cluster.Base.Runs
import N4Cluster.Server.Liveness
import N4Cluster.Worker.Agent

/-! The server and one agent over a network that may lose any request or response. A
turn of the cluster is a turn of the server, on its own or for other clients, or one
call of an agent thread. -/
namespace N4Cluster
open Relational Transactional Interleave

/-- A `_handle_task` thread. -/
structure TaskThread where
  task : TaskPayload
  program : AgentProg Unit

/-- The main thread registers and then leases; `epoch` counts the server's restarts. -/
structure Cluster where
  pool : ServerPool
  epoch : Nat := 0
  workerId : Option WorkerId := none
  active : Nat := 0
  cancelRequested : List TaskId := []
  main : AgentProg Unit
  heartbeat : AgentProg Unit := .ret ()
  handlers : List TaskThread := []

/-- What a call of an agent thread draws from outside: whether the network delivers,
what files and the runner answer, and whether a directory can be removed. -/
structure AgentIo where
  delivered : Bool := true
  spec : Except AgentErr String := .ok "fingerprint"
  run : Except AgentErr ExecutionResult := .ok { status := "succeeded" }
  removed : Except AgentErr Unit := .ok ()

def Response.ofProgram : Prog Reply → Option Response
  | .ret reply => some ⟨200, some reply⟩
  | .raise ⟨_, .http status _⟩ => some ⟨status, none⟩
  | .raise _ => some ⟨500, none⟩
  | .call _ _ => none

/-- The response to a request, once it is there. -/
def Cluster.response (c : Cluster) (ticket : Ticket) : Option Response :=
  if ticket.epoch = c.epoch then
    (c.pool.threads[ticket.thread]?).bind fun th => Response.ofProgram th.program
  else none

/-- What a call makes the server do. -/
def AgentCall.turn (io : AgentIo) : AgentCall → Option Turn
  | .send request => if io.delivered then some (.spawn request) else none
  | _ => none

/-- The answer to a call. -/
def Cluster.answer (c : Cluster) (io : AgentIo) : (call : AgentCall) → call.Ret
  | .send _ => if io.delivered then some ⟨c.epoch, c.pool.threads.length⟩ else none
  | .await ticket => if io.delivered then c.response ticket else none
  | .activeCount => c.active
  | .buildRunnerSpec _ _ => io.spec
  | .executeTask _ _ => io.run
  | .removeTree _ => io.removed
  | .setWorker _ | .incActive | .decActive | .startThread _ | .requestCancel _ | .discardCancel _ => ()

/-- The effect of a call on the agent's shared fields. -/
def Cluster.effect (c : Cluster) (agent : AgentConfig) : AgentCall → Cluster
  | .setWorker workerId => { c with workerId := some workerId }
  | .incActive => { c with active := c.active + 1 }
  | .decActive => { c with active := c.active - 1 }
  | .startThread task =>
    { c with handlers := c.handlers ++
        [⟨task, Agent.handleTask agent (c.workerId.getD "") task⟩] }
  | .requestCancel ids => { c with cancelRequested := c.cancelRequested ++ ids }
  | .discardCancel taskId =>
    { c with cancelRequested := c.cancelRequested.filter fun id => id ≠ taskId }
  | _ => c

/-- The threads of the agent. -/
inductive AgentThread where
  | main
  | heartbeat
  | handler (k : Nat)

def Cluster.program (c : Cluster) : AgentThread → Option (AgentProg Unit)
  | .main => some c.main
  | .heartbeat => some c.heartbeat
  | .handler k => (c.handlers[k]?).map TaskThread.program

def Cluster.resume (c : Cluster) (program : AgentProg Unit) : AgentThread → Cluster
  | .main => { c with main := program }
  | .heartbeat => { c with heartbeat := program }
  | .handler k => { c with handlers := c.handlers.modify k fun th => { th with program := program } }

inductive ClusterStep where
  | server (turn : Turn)
  | agent (thread : AgentThread) (io : AgentIo)
  | leaseAgain
  | beat

/-- The program has returned. -/
def AgentProg.returned : AgentProg Unit → Bool
  | .ret _ => true
  | _ => false

def restarts : Turn → Nat
  | .restart => 1
  | _ => 0

section
variable (P : Platform) (config : ServerConfig) (agent : AgentConfig)

def Cluster.serve (c : Cluster) (turn : Turn) : Option Cluster :=
  ((server P config).take c.pool turn).map fun pool =>
    { c with pool := pool, epoch := c.epoch + restarts turn }

/-- What a step makes the server do. -/
def Cluster.turn (c : Cluster) : ClusterStep → Option Turn
  | .server turn => some turn
  | .agent thread io =>
    match c.program thread with
    | some (.call call _) => call.turn io
    | _ => none
  | .leaseAgain | .beat => none

def Cluster.take (c : Cluster) : ClusterStep → Option Cluster
  | .server turn => c.serve P config turn
  | .agent thread io =>
    match c.program thread with
    | some (.call call next) =>
      let resumed := (c.effect agent call).resume (next (c.answer io call)) thread
      match call.turn io with
      | some turn => resumed.serve P config turn
      | none => some resumed
    | _ => none
  | .leaseAgain =>
    match AgentProg.returned c.main, c.workerId with
    | true, some workerId => some { c with main := Agent.leaseOnce agent workerId }
    | _, _ => none
  | .beat =>
    match AgentProg.returned c.heartbeat, c.workerId with
    | true, some workerId => some { c with heartbeat := Agent.heartbeatOnce agent workerId }
    | _, _ => none

/-- The steps that are taken, by their kinds. -/
inductive Cluster.Taken (c : Cluster) : ClusterStep → Cluster → Prop where
  | server {turn : Turn} {c' : Cluster} (served : c.serve P config turn = some c') : c.Taken (.server turn) c'
  | agent {thread : AgentThread} {io : AgentIo} {call : AgentCall} {next : call.Ret → AgentProg Unit}
      {c' : Cluster} (waits : c.program thread = some (.call call next))
      (sent : (match call.turn io with
        | some turn => Cluster.serve P config
            ((c.effect agent call).resume (next (c.answer io call)) thread) turn
        | none => some ((c.effect agent call).resume (next (c.answer io call)) thread)) = some c') :
      c.Taken (.agent thread io) c'
  | leaseAgain {w : WorkerId} (returned : AgentProg.returned c.main = true) (registered : c.workerId = some w) :
      c.Taken .leaseAgain { c with main := Agent.leaseOnce agent w }
  | beat {w : WorkerId} (returned : AgentProg.returned c.heartbeat = true) (registered : c.workerId = some w) :
      c.Taken .beat { c with heartbeat := Agent.heartbeatOnce agent w }

theorem Cluster.taken {c c' : Cluster} {step : ClusterStep} (stepped : c.take P config agent step = some c') :
    c.Taken P config agent step c' := by
  cases step with
  | server turn => exact .server stepped
  | agent thread io =>
    simp only [Cluster.take] at stepped
    split at stepped
    · rename_i call next waits
      exact .agent waits stepped
    · contradiction
  | leaseAgain =>
    simp only [Cluster.take] at stepped
    split at stepped
    · rename_i w returned registered
      cases stepped
      exact .leaseAgain returned registered
    · contradiction
  | beat =>
    simp only [Cluster.take] at stepped
    split at stepped
    · rename_i w returned registered
      cases stepped
      exact .beat returned registered
    · contradiction

/-- The environment's choices are valid for the call the server makes. -/
def Cluster.Lawful (c : Cluster) : ClusterStep → Prop
  | .server turn => (server P config).Lawful c.pool turn
  | _ => True

instance (c : Cluster) : (step : ClusterStep) → Decidable (c.Lawful P config step)
  | .server turn => inferInstanceAs (Decidable ((server P config).Lawful c.pool turn))
  | .agent _ _ | .leaseAgain | .beat => isTrue trivial

end

/-- A server on an empty store and an agent about to register. -/
def Cluster.started (agent : AgentConfig) : Cluster :=
  { pool := N4Cluster.started, main := Agent.register agent }

end N4Cluster
