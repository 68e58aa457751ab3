import N4Cluster.Worker.Workdirs

/-! The slots of one agent. The lease loop takes a slot before it starts a task thread, and the
thread gives it back as its last act, unless the removal of its work directory raises; so no
slot is taken twice, and as long as no removal raises none is lost. -/
namespace N4Cluster
open Relational Transactional Interleave

variable {P : Platform} {config : ServerConfig} {agent : AgentConfig} {c c' : Cluster} {w : WorkerId}
  {task : TaskPayload} {α : Type}

/-! ## What task threads call -/

/-- Asks the network or the machine, and leaves the agent's shared fields alone. -/
def AgentCall.plain : AgentCall → Bool
  | .send _ | .await _ | .buildRunnerSpec _ _ | .executeTask _ _ => true
  | _ => false

abbrev Plain (p : AgentProg α) : Prop := p.AllCalls fun call => call.plain = true

def AgentCall.removes : AgentCall → Bool
  | .removeTree _ => true
  | _ => false

/-- Neither takes a slot, nor gives one back, nor starts a thread, nor may keep one from being
given back. -/
def AgentCall.ordinary : AgentCall → Bool
  | .incActive | .decActive | .startThread _ | .removeTree _ => false
  | _ => true

abbrev Ordinary (p : AgentProg α) : Prop := p.AllCalls fun call => call.ordinary = true

theorem Plain.ordinary {p : AgentProg α} (plain : Plain p) : Ordinary p :=
  Program.AllCalls.mono (fun call plain => by cases call <;> first | rfl | contradiction) plain

namespace Agent

theorem ask_plain {call : AgentCall} (plain : call.plain = true) : Plain (ask call) := ⟨plain, fun _ => trivial⟩

theorem ask_ordinary {call : AgentCall} (ordinary : call.ordinary = true) : Ordinary (ask call) :=
  ⟨ordinary, fun _ => trivial⟩

theorem orElse_calls {R : AgentCall → Prop} {value : α} {body : AgentProg α} (calls : body.AllCalls R) :
    (orElse value body).AllCalls R :=
  Program.AllCalls.handle calls fun error => by cases error <;> trivial

theorem post_plain (request : Request) : Plain (post request) := by
  refine (ask_plain rfl).bind fun sent => ?_
  cases sent with
  | none => trivial
  | some ticket =>
    refine (ask_plain rfl).bind fun answer => ?_
    cases answer <;> trivial

theorem raiseForStatus_plain (response : Response) : Plain (raiseForStatus response) := by
  unfold raiseForStatus
  split <;> trivial

theorem register_ordinary : Ordinary (register agent) := by
  refine (post_plain _).ordinary.bind fun response => (raiseForStatus_plain response).ordinary.bind fun _ => ?_
  split
  · exact ask_ordinary rfl
  · trivial

theorem heartbeatOnce_ordinary : Ordinary (heartbeatOnce agent w) := by
  refine orElse_calls ((post_plain _).ordinary.bind fun response => ?_)
  split
  · split
    · exact ask_ordinary rfl
    · trivial
  · trivial

theorem reportFail_plain (error : String) (retriable : Bool) : Plain (reportFail agent w task error retriable) :=
  orElse_calls ((post_plain _).bind fun _ => trivial)

theorem uploadIf_plain (role : String) (file : Option (Option NewArtifact)) :
    Plain (uploadIf agent task.taskId role file) := by
  unfold uploadIf
  split
  · trivial
  · refine orElse_calls ((post_plain _).bind fun response => (raiseForStatus_plain response).bind fun _ => ?_)
    split <;> trivial

theorem reportSuccess_plain (run : ExecutionResult) (fingerprint : String) :
    Plain (reportSuccess agent w task run fingerprint) := by
  refine (uploadIf_plain _ _).bind fun _ => (uploadIf_plain _ _).bind fun _ => Program.AllCalls.bind ?_ fun _ => ?_
  · unfold uploadWorkspace
    split
    · exact uploadIf_plain _ _
    · trivial
  · split
    · trivial
    · exact (post_plain _).bind fun _ => trivial

theorem executed_plain (run : ExecutionResult) (fingerprint : String) :
    Plain (executed agent w task run fingerprint) := by
  refine Program.AllCalls.bind (Program.AllCalls.forEach _ fun _ _ => ?_) fun _ => ?_
  · exact orElse_calls ((post_plain _).bind fun _ => trivial)
  · split
    · exact reportFail_plain _ _
    · split
      · exact reportSuccess_plain _ _
      · exact (uploadIf_plain _ _).bind fun _ => reportFail_plain _ _

theorem work_plain : Plain (work agent w task) := by
  refine (post_plain _).bind fun start => ?_
  split
  · trivial
  · refine (ask_plain rfl).bind fun spec => ?_
    split
    · exact reportFail_plain _ _
    · trivial
    · refine (ask_plain rfl).bind fun run => Program.AllCalls.bind ?_ fun _ => executed_plain _ _
      cases run <;> trivial

/-- What a task thread does before it gives its slot back. -/
theorem attempt_plain : Plain ((work agent w task).handle fun error =>
    reportFail agent w task ("agent error: " ++ error.describe) true) :=
  Program.AllCalls.handle work_plain fun _ => reportFail_plain _ _

end Agent

/-! ## A thread that holds a slot -/

/-- Whatever the calls are answered, the program gives one slot back and ends with that, or it
ends where the removal of a directory has raised. -/
def Owing : AgentProg α → Prop
  | .ret _ | .raise _ => False
  | .call .decActive next => ∀ answer, (next answer).finished = true
  | .call (.removeTree _) next => Owing (next (.ok ())) ∧ ∀ error, (next (.error error)).finished = true
  | .call call next => call.ordinary = true ∧ ∀ answer, Owing (next answer)

theorem owing_call {call : AgentCall} {next : call.Ret → AgentProg α} (ordinary : call.ordinary = true)
    (later : ∀ answer, Owing (next answer)) : Owing (.call call next) := by
  cases call <;> first | exact ⟨ordinary, later⟩ | contradiction

theorem Owing.call_cases {call : AgentCall} {next : call.Ret → AgentProg α} (owing : Owing (.call call next)) :
    call.ordinary = true ∧ (∀ answer, Owing (next answer)) ∨
      (call = .decActive ∧ ∀ answer, (next answer).finished = true) ∨
      ∃ dir, ∃ same : call = .removeTree dir, Owing (next (same ▸ .ok ())) ∧
        ∀ error, (next (same ▸ .error error)).finished = true := by
  cases call with
  | decActive => exact .inr (.inl ⟨rfl, owing⟩)
  | removeTree dir => exact .inr (.inr ⟨dir, rfl, owing⟩)
  | _ => exact .inl owing

theorem Owing.unfinished {p : AgentProg α} (owing : Owing p) : p.finished = false := by
  cases p with
  | ret | raise => cases owing
  | call => rfl

theorem finished_bind {β : Type} {p : AgentProg α} {k : α → AgentProg β} (done : p.finished = true)
    (ends : ∀ value, (k value).finished = true) : (p >>= k).finished = true := by
  cases p with
  | ret value => exact ends value
  | raise error => rfl
  | call => cases done

theorem Owing.bind {β : Type} {p : AgentProg α} {k : α → AgentProg β} (owing : Owing p)
    (ends : ∀ value, (k value).finished = true) : Owing (p >>= k) := by
  induction p with
  | ret | raise => cases owing
  | call call next ih =>
    cases call with
    | decActive => exact fun answer => finished_bind (owing answer) ends
    | removeTree dir => exact ⟨ih (.ok ()) owing.1, fun error => finished_bind (owing.2 error) ends⟩
    | _ => exact ⟨owing.1, fun answer => ih answer (owing.2 answer)⟩

theorem Owing.ensure {body : AgentProg α} {last : AgentProg Unit} (ordinary : Ordinary body) (owing : Owing last) :
    Owing (body.ensure last) := by
  induction body with
  | ret value => exact owing.bind fun _ => rfl
  | raise error => exact owing.bind fun _ => rfl
  | call call next ih => exact owing_call ordinary.1 fun answer => ih answer (ordinary.2 answer)

theorem finish_owing : Owing (Agent.finish agent task) := by
  refine owing_call rfl fun _ => ?_
  unfold Agent.cleanup
  split
  · exact fun _ => rfl
  · exact ⟨fun _ => rfl, fun _ => rfl⟩

theorem handleTask_owing : Owing (Agent.handleTask agent w task) :=
  Owing.ensure Agent.attempt_plain.ordinary finish_owing

/-! ## The lease loop -/

/-- Where the main thread stands, and whether it has taken a slot that no thread holds yet. -/
inductive SlotStage (agent : AgentConfig) (active : Nat) : Nat → AgentProg Unit → Prop where
  | ordinary (calls : Ordinary program) : SlotStage agent active 0 program
  | checking (w : WorkerId) : SlotStage agent active 0 (Agent.leaseOnce agent w)
  | asking (w : WorkerId) (free : active < agent.registration.slotsTotal) : SlotStage agent active 0 (Agent.asking agent w)
  | awaiting (ticket : Ticket) (free : active < agent.registration.slotsTotal) :
      SlotStage agent active 0 (Agent.awaiting ticket)
  | counting (task : TaskPayload) (free : active < agent.registration.slotsTotal) :
      SlotStage agent active 0 (Agent.leased (some task))
  | starting (task : TaskPayload) : SlotStage agent active 1 (Agent.ask (.startThread task))

theorem SlotStage.fewer {active active' taken : Nat} {program : AgentProg Unit}
    (stage : SlotStage agent active taken program) (fewer : active' ≤ active) :
    SlotStage agent active' taken program := by
  cases stage with
  | ordinary calls => exact .ordinary calls
  | checking w => exact .checking w
  | asking w free => exact .asking w (Nat.lt_of_le_of_lt fewer free)
  | awaiting ticket free => exact .awaiting ticket (Nat.lt_of_le_of_lt fewer free)
  | counting task free => exact .counting task (Nat.lt_of_le_of_lt fewer free)
  | starting task => exact .starting task

/-- The threads that hold a slot. -/
def Cluster.busy (c : Cluster) : Nat := c.handlers.countP TaskThread.live

/-- The count of active tasks is that of the live threads, with the slot just taken and those
that were lost. -/
structure Cluster.Accounts (agent : AgentConfig) (c : Cluster) (taken lost : Nat) : Prop where
  main : SlotStage agent c.active taken c.main
  counted : c.active = c.busy + taken + lost
  bounded : c.active ≤ agent.registration.slotsTotal
  beats : Ordinary c.heartbeat
  works : ∀ th ∈ c.handlers, th.live = true → Owing th.program

theorem started_accounts : (Cluster.started agent).Accounts agent 0 0 :=
  ⟨.ordinary Agent.register_ordinary, rfl, Nat.zero_le _, trivial, fun _ member => False.elim (List.not_mem_nil member)⟩

/-- What the agent's fields show of its slots. -/
def Cluster.slots (c : Cluster) : Nat × List TaskThread × AgentProg Unit × AgentProg Unit :=
  (c.active, c.handlers, c.main, c.heartbeat)

theorem Cluster.Accounts.same {taken lost : Nat} (accounts : c.Accounts agent taken lost)
    (same : c'.slots = c.slots) : c'.Accounts agent taken lost := by
  obtain ⟨active, rest⟩ := Prod.mk.inj same
  obtain ⟨handlers, rest⟩ := Prod.mk.inj rest
  obtain ⟨main, heartbeat⟩ := Prod.mk.inj rest
  refine ⟨?_, ?_, ?_, ?_, ?_⟩
  · rw [active, main]
    exact accounts.main
  · rw [active, Cluster.busy, handlers]
    exact accounts.counted
  · rw [active]
    exact accounts.bounded
  · rw [heartbeat]
    exact accounts.beats
  · rw [handlers]
    exact accounts.works

theorem serve_slots {turn : Turn} (served : c.serve P config turn = some c') : c'.slots = c.slots := by
  obtain ⟨pool, _, _, _, same⟩ := serve_cases served
  rw [same]
  rfl

theorem effect_slots {call : AgentCall} (ordinary : call.ordinary = true) : (c.effect agent call).slots = c.slots := by
  cases call <;> first | rfl | contradiction

theorem sent_slots {resumed : Cluster} {call : AgentCall} {io : AgentIo}
    (stepped : (match call.turn io with
      | some turn => Cluster.serve P config resumed turn
      | none => some resumed) = some c') : c'.slots = resumed.slots := by
  split at stepped
  · exact serve_slots stepped
  · cases stepped
    rfl

/-- The main thread makes a call. -/
theorem Cluster.Accounts.main_on {taken lost : Nat} (accounts : c.Accounts agent taken lost) {call : AgentCall}
    (io : AgentIo) {next : call.Ret → AgentProg Unit} (waits : c.main = .call call next) :
    ∃ taken', ((c.effect agent call).resume (next (c.answer io call)) .main).Accounts agent taken' lost := by
  obtain ⟨stage, counted, bounded, beats, works⟩ := accounts
  generalize program : c.main = main at stage
  cases stage with
  | ordinary calls =>
    rw [← program, waits] at calls
    have kept : (c.effect agent call).slots = c.slots := effect_slots calls.1
    have still : (c.effect agent call).Accounts agent 0 lost :=
      Accounts.same ⟨.ordinary (waits.symm ▸ calls), counted, bounded, beats, works⟩ kept
    exact ⟨0, .ordinary (calls.2 _), still.counted, still.bounded, still.beats, still.works⟩
  | checking w =>
    rw [Agent.leaseOnce_eq] at program
    cases waits.symm.trans program
    refine ⟨0, ?_, counted, bounded, beats, works⟩
    change SlotStage agent c.active 0 (if agent.registration.slotsTotal ≤ c.active then _ else _)
    split
    · exact .ordinary trivial
    · rename_i free
      exact .asking w (Nat.lt_of_not_le free)
  | asking w free =>
    cases waits.symm.trans program
    refine ⟨0, ?_, counted, bounded, beats, works⟩
    by_cases delivered : io.delivered = true
    · simp only [Cluster.answer, delivered, if_true]
      exact .awaiting _ free
    · simp only [Cluster.answer, delivered]
      exact .ordinary trivial
  | awaiting ticket free =>
    cases waits.symm.trans program
    refine ⟨0, ?_, counted, bounded, beats, works⟩
    change SlotStage agent c.active 0 (Agent.leased (Agent.leasedTask _))
    cases Agent.leasedTask (c.answer io (.await ticket)) with
    | none => exact .ordinary trivial
    | some task => exact .counting task free
  | counting task free =>
    cases waits.symm.trans program
    refine ⟨1, .starting task, ?_, free, beats, works⟩
    change c.active + 1 = c.busy + 1 + lost
    omega
  | starting task =>
    cases waits.symm.trans program
    refine ⟨0, .ordinary trivial, ?_, bounded, beats, fun th member live => ?_⟩
    · change c.active = (c.handlers ++ [_]).countP TaskThread.live + 0 + lost
      rw [List.countP_append, List.countP_singleton, if_pos]
      · exact counted
      · rw [TaskThread.live, handleTask_owing.unfinished]
        rfl
    · obtain old | new := List.mem_append.mp member
      · exact works th old live
      · rw [List.mem_singleton.mp new]
        exact handleTask_owing

/-- The programs that are owing stay so when one of them goes on or ends. -/
theorem Cluster.Accounts.works_on {taken lost k : Nat} {program : AgentProg Unit}
    (accounts : c.Accounts agent taken lost) (now : program.finished = false → Owing program) :
    ∀ other ∈ c.handlers.modify k (fun th => { th with program := program }), other.live = true →
      Owing other.program := by
  intro other inside lives
  obtain ⟨j, here⟩ := List.mem_iff_getElem?.mp inside
  rw [List.getElem?_modify] at here
  split at here
  · obtain ⟨old, _, rfl⟩ := Option.map_eq_some_iff.mp here
    exact now (by simpa [TaskThread.live] using lives)
  · rw [id_map'] at here
    exact accounts.works other (List.mem_of_getElem? here) lives

theorem countP_modify {β : Type} {p : β → Bool} {f : β → β} {b : β} {l : List β} {i : Nat} (found : l[i]? = some b) :
    (l.modify i f).countP p + (p b).toNat = l.countP p + (p (f b)).toNat := by
  have value (b : β) : (if p b = true then 1 else 0) = (p b).toNat := by cases p b <;> rfl
  induction l generalizing i with
  | nil => cases found
  | cons a rest ih =>
    cases i with
    | zero =>
      cases Option.some.inj found
      rw [List.modify_zero_cons, List.countP_cons, List.countP_cons, value, value]
      omega
    | succ i =>
      have later := ih (i := i) found
      rw [List.modify_succ_cons, List.countP_cons, List.countP_cons]
      omega

/-- A task thread goes on. -/
theorem Cluster.Accounts.goes_on {taken lost k : Nat} {th : TaskThread} {program : AgentProg Unit}
    (accounts : c.Accounts agent taken lost) (found : c.handlers[k]? = some th) (live : th.live = true)
    (owing : Owing program) : (c.resume program (.handler k)).Accounts agent taken lost := by
  have counts := countP_modify (p := TaskThread.live) (f := fun th => { th with program := program }) found
  have lives : ({ th with program := program } : TaskThread).live = true := by
    rw [TaskThread.live, owing.unfinished]
    rfl
  rw [live, lives] at counts
  refine ⟨accounts.main, ?_, accounts.bounded, accounts.beats, accounts.works_on fun _ => owing⟩
  have busy : (c.resume program (.handler k)).busy = c.busy := Nat.add_right_cancel counts
  exact busy ▸ accounts.counted

/-- A task thread ends with its slot still taken. -/
theorem Cluster.Accounts.ends {taken lost k : Nat} {th : TaskThread} {program : AgentProg Unit}
    (accounts : c.Accounts agent taken lost) (found : c.handlers[k]? = some th) (live : th.live = true)
    (done : program.finished = true) : (c.resume program (.handler k)).Accounts agent taken (lost + 1) := by
  have counts := countP_modify (p := TaskThread.live) (f := fun th => { th with program := program }) found
  have ended : ({ th with program := program } : TaskThread).live = false := by
    rw [TaskThread.live, done]
    rfl
  rw [live, ended] at counts
  refine ⟨accounts.main, ?_, accounts.bounded, accounts.beats, accounts.works_on fun unfinished => ?_⟩
  · have busy : (c.resume program (.handler k)).busy + 1 = c.busy := counts
    have counted := accounts.counted
    change c.active = _
    omega
  · rw [done] at unfinished
    cases unfinished

/-- A slot that was still taken is given back. -/
theorem Cluster.Accounts.given {taken lost : Nat} (accounts : c.Accounts agent taken (lost + 1)) :
    { c with active := c.active - 1 }.Accounts agent taken lost := by
  have fewer : c.active - 1 ≤ c.active := Nat.sub_le _ _
  refine ⟨accounts.main.fewer fewer, ?_, Nat.le_trans fewer accounts.bounded, accounts.beats, accounts.works⟩
  have counted := accounts.counted
  change c.active - 1 = c.busy + taken + lost
  omega

/-- A task thread makes a call, and loses its slot only if the call is a removal that raises. -/
theorem Cluster.Accounts.handler_on {taken lost k : Nat} {th : TaskThread} (accounts : c.Accounts agent taken lost)
    {call : AgentCall} {next : call.Ret → AgentProg Unit} (found : c.handlers[k]? = some th)
    (waits : th.program = .call call next) (io : AgentIo) :
    ∃ lost', ((c.effect agent call).resume (next (c.answer io call)) (.handler k)).Accounts agent taken lost' ∧
      ((call.removes = true → io.removed.isOk = true) → lost' = lost) := by
  have live : th.live = true := by rw [TaskThread.live, waits]; rfl
  have owing := accounts.works th (List.mem_of_getElem? found) live
  rw [waits] at owing
  obtain ⟨ordinary, later⟩ | ⟨rfl, done⟩ | ⟨dir, rfl, owed, fails⟩ := owing.call_cases
  · have kept : (c.effect agent call).slots = c.slots := effect_slots ordinary
    have handlers : (c.effect agent call).handlers = c.handlers := congrArg (fun slots => slots.2.1) kept
    exact ⟨lost, (accounts.same kept).goes_on (handlers ▸ found) live (later _), fun _ => rfl⟩
  · exact ⟨lost, (accounts.ends found live (done _)).given, fun _ => rfl⟩
  · change ∃ lost', (c.resume (next io.removed) (.handler k)).Accounts agent taken lost' ∧ _
    cases removed : io.removed with
    | ok => exact ⟨lost, accounts.goes_on found live owed, fun _ => rfl⟩
    | error error =>
      refine ⟨lost + 1, accounts.ends found live (fails error), fun tidy => ?_⟩
      cases tidy rfl

/-- The thread is about to remove a directory. -/
def AgentProg.removing : AgentProg Unit → Bool
  | .call call _ => call.removes
  | _ => false

/-- No removal raises. -/
def Cluster.Tidy (c : Cluster) : ClusterStep → Prop
  | .agent thread io => (c.program thread).any AgentProg.removing = true → io.removed.isOk = true
  | _ => True

instance (c : Cluster) : (step : ClusterStep) → Decidable (c.Tidy step)
  | .agent thread _ => inferInstanceAs (Decidable ((c.program thread).any AgentProg.removing = true → _))
  | .server _ | .leaseAgain | .beat => isTrue trivial

theorem Cluster.Accounts.step {taken lost : Nat} {step : ClusterStep} (accounts : c.Accounts agent taken lost)
    (stepped : c.take P config agent step = some c') :
    ∃ taken' lost', c'.Accounts agent taken' lost' ∧ (c.Tidy step → lost' = lost) := by
  cases Cluster.taken P config agent stepped with
  | server served => exact ⟨taken, lost, accounts.same (serve_slots served), fun _ => rfl⟩
  | @agent thread io call next _ waits sent =>
    have same := sent_slots sent
    cases thread with
    | main =>
      obtain ⟨taken', later⟩ := accounts.main_on io (Option.some.inj waits)
      exact ⟨taken', lost, later.same same, fun _ => rfl⟩
    | heartbeat =>
      have calls := accounts.beats
      rw [Option.some.inj waits] at calls
      have kept : (c.effect agent call).slots = c.slots := effect_slots calls.1
      have still := accounts.same kept
      have resumed : ((c.effect agent call).resume (next (c.answer io call)) .heartbeat).Accounts agent taken lost :=
        ⟨still.main, still.counted, still.bounded, calls.2 _, still.works⟩
      exact ⟨taken, lost, resumed.same same, fun _ => rfl⟩
    | handler k =>
      obtain ⟨th, found, program⟩ := Option.map_eq_some_iff.mp waits
      obtain ⟨lost', later, kept⟩ := accounts.handler_on found program io
      refine ⟨taken, lost', later.same same, fun tidy => kept fun removes => tidy ?_⟩
      rw [waits]
      exact removes
  | @leaseAgain w returned =>
    obtain ⟨stage, counted, bounded, beats, works⟩ := accounts
    generalize program : c.main = main at stage
    cases stage with
    | starting =>
      rw [program] at returned
      cases returned
    | _ => exact ⟨0, lost, ⟨.checking w, counted, bounded, beats, works⟩, fun _ => rfl⟩
  | beat =>
    refine ⟨taken, lost, ?_, fun _ => rfl⟩
    exact ⟨accounts.main, accounts.counted, accounts.bounded, Agent.heartbeatOnce_ordinary, accounts.works⟩

/-- No more tasks are worked on than the agent has slots, and none of these is counted as free. -/
def Cluster.Bounded (agent : AgentConfig) (c : Cluster) : Prop :=
  c.busy ≤ c.active ∧ c.active ≤ agent.registration.slotsTotal

/-- The count of active tasks is that of the live threads, unless the lease loop has just taken a
slot for a thread that it is about to start. -/
def Cluster.Balanced (c : Cluster) : Prop :=
  c.active = c.busy ∨ c.active = c.busy + 1 ∧ ∃ task, c.main = Agent.ask (.startThread task)

theorem Cluster.Accounts.balanced {taken : Nat} (accounts : c.Accounts agent taken 0) : c.Balanced := by
  have counted := accounts.counted
  have stage := accounts.main
  unfold Cluster.Balanced
  generalize c.main = main at stage
  cases stage with
  | ordinary | checking | asking | awaiting | counting => exact .inl counted
  | starting task => exact .inr ⟨counted, task, rfl⟩

/-- In every run of the server and an agent, over any network, with any outcome of what the tasks
do and any exception on the way, no slot is taken twice; and as long as the removal of no work
directory raises, all slots that are not in use are free. -/
theorem slots_respected (P : Platform) (config : ServerConfig) (agent : AgentConfig) :
    (∀ c, Runs (fun c => c.take P config agent) (Cluster.Lawful P config) (Cluster.started agent) c →
      c.Bounded agent) ∧
    ∀ c, Runs (fun c => c.take P config agent) (fun c step => c.Lawful P config step ∧ c.Tidy step)
      (Cluster.started agent) c → c.Balanced := by
  constructor
  · intro c run
    obtain ⟨taken, lost, accounts⟩ : ∃ taken lost, c.Accounts agent taken lost :=
      run.invariant (I := fun c => ∃ taken lost, c.Accounts agent taken lost)
        (fun held _ stepped => by
          obtain ⟨_, _, accounts⟩ := held
          obtain ⟨taken, lost, later, _⟩ := accounts.step stepped
          exact ⟨taken, lost, later⟩)
        ⟨0, 0, started_accounts⟩
    have counted := accounts.counted
    exact ⟨by omega, accounts.bounded⟩
  · intro c run
    obtain ⟨taken, accounts⟩ : ∃ taken, c.Accounts agent taken 0 :=
      run.invariant (I := fun c => ∃ taken, c.Accounts agent taken 0)
        (fun held tidy stepped => by
          obtain ⟨_, accounts⟩ := held
          obtain ⟨taken, lost, later, kept⟩ := accounts.step stepped
          exact ⟨taken, kept tidy.2 ▸ later⟩)
        ⟨0, started_accounts⟩
    exact accounts.balanced

theorem slots_respected_both : ∃ c : Cluster,
    Runs (fun c => c.take .plain {} twoSlots) (fun c step => c.Lawful .plain {} step ∧ c.Tidy step)
      (Cluster.started twoSlots) c ∧ c.busy = 2 ∧ c.Bounded twoSlots ∧ c.Balanced := by
  have taken : (takes (fun c => c.take .plain {} twoSlots) (fun c step => c.Lawful .plain {} step ∧ c.Tidy step)
      (registeredSteps twoTasks ++ leaseSteps 2 3 ++ leaseSteps 3 4) (Cluster.started twoSlots)).any
      (fun c => decide (c.busy = 2)) = true := by
    decide +kernel
  obtain ⟨c, run, busy⟩ := takes_any taken
  have respected := slots_respected .plain {} twoSlots
  exact ⟨c, run, of_decide_eq_true busy, respected.1 c (run.mono fun _ _ both => both.1), respected.2 c run⟩

/-- A task thread hears nothing from the server and cannot remove its directory. -/
def stuckSteps : List ClusterStep :=
  List.replicate 3 (.agent (.handler 0) { delivered := false }) ++
  [.agent (.handler 0) { removed := .error (.other "RecursionError" "maximum recursion depth exceeded") }]

/-- Its slot is never given back. -/
theorem slot_lost : ∃ c : Cluster,
    Runs (fun c => c.take .plain {} twoSlots) (Cluster.Lawful .plain {}) (Cluster.started twoSlots) c ∧
      c.busy = 0 ∧ c.active = 1 ∧ AgentProg.returned c.main = true := by
  have taken : (takes (fun c => c.take .plain {} twoSlots) (Cluster.Lawful .plain {})
      (registeredSteps twoTasks ++ leaseSteps 2 3 ++ stuckSteps) (Cluster.started twoSlots)).any
      (fun c => decide (c.busy = 0 ∧ c.active = 1 ∧ AgentProg.returned c.main = true)) = true := by
    decide +kernel
  obtain ⟨c, run, lost⟩ := takes_any taken
  exact ⟨c, run, of_decide_eq_true lost⟩

end N4Cluster
