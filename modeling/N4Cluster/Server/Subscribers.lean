import N4Cluster.Base.Mailbox
import N4Cluster.Server.Broker

/-! The subscribers of an `EventBroker`: the table of their queues, and what each queue holds over
any run. Payloads are of any type, so also payloads told apart by when they were broadcast. -/
namespace N4Cluster

/-- A queue object, told by its identity. -/
abbrev QueueId := Nat

structure EventBroker (Payload : Type) where
  subscribers : JobId → Option (List QueueId) := fun _ => none
  globals : List QueueId := []
  queues : QueueId → List Payload := fun _ => []
  made : QueueId := 0

inductive BrokerStep (Payload : Type) where
  | subscribe (jobId : JobId)
  | subscribeGlobal
  | unsubscribe (jobId : JobId) (queue : QueueId)
  | unsubscribeGlobal (queue : QueueId)
  | broadcast (payload : Payload)
  | get (queue : QueueId)

variable {Payload : Type}

namespace EventBroker

/-- The set of a job, or of the global subscribers. -/
def members (b : EventBroker Payload) : Option JobId → List QueueId
  | none => b.globals
  | some jobId => (b.subscribers jobId).getD []

/-- A new queue object, empty. -/
def make (b : EventBroker Payload) : EventBroker Payload :=
  { b with queues := Function.update b.queues b.made [], made := b.made + 1 }

def subscribe (b : EventBroker Payload) (jobId : JobId) : EventBroker Payload :=
  { b.make with
    subscribers := Function.update b.subscribers jobId (some ((b.members (some jobId)).insert b.made)) }

def unsubscribe (b : EventBroker Payload) (jobId : JobId) (queue : QueueId) : EventBroker Payload :=
  match b.subscribers jobId with
  | none => b
  | some subs =>
    if queue ∈ subs then
      let rest := subs.filter fun other => other ≠ queue
      { b with subscribers := Function.update b.subscribers jobId (if rest.isEmpty then none else some rest) }
    else b

def subscribeGlobal (b : EventBroker Payload) : EventBroker Payload :=
  { b.make with globals := b.globals.insert b.made }

def unsubscribeGlobal (b : EventBroker Payload) (queue : QueueId) : EventBroker Payload :=
  { b with globals := b.globals.filter fun other => other ≠ queue }

variable (jobOf : Payload → Option JobId)

/-- The queues a payload goes to, each once. -/
def targets (b : EventBroker Payload) (payload : Payload) : List QueueId :=
  match jobOf payload with
  | none => b.globals
  | some jobId => b.globals ∪ b.members (some jobId)

/-- `_broadcast`. -/
def broadcast (b : EventBroker Payload) (payload : Payload) : EventBroker Payload :=
  { b with
    queues := (b.targets jobOf payload).foldl
      (fun queues queue => Function.update queues queue (Mailbox.push queueMax (queues queue) payload)) b.queues }

/-- One step, and what it hands to the holder of a queue; a get from an empty queue waits. -/
def step (b : EventBroker Payload) : BrokerStep Payload → EventBroker Payload × Option (QueueId × Payload)
  | .subscribe jobId => (b.subscribe jobId, none)
  | .subscribeGlobal => (b.subscribeGlobal, none)
  | .unsubscribe jobId queue => (b.unsubscribe jobId queue, none)
  | .unsubscribeGlobal queue => (b.unsubscribeGlobal queue, none)
  | .broadcast payload => (b.broadcast jobOf payload, none)
  | .get queue =>
    match b.queues queue with
    | [] => (b, none)
    | payload :: rest => ({ b with queues := Function.update b.queues queue rest }, some (queue, payload))

/-- The broker after a run, and all that was handed out. -/
def run (steps : List (BrokerStep Payload)) : EventBroker Payload × List (QueueId × Payload) :=
  steps.foldl (fun (b, log) act => ((b.step jobOf act).1, log ++ (b.step jobOf act).2.toList)) ({}, [])

end EventBroker

/-- What was taken from one queue. -/
def received (log : List (QueueId × Payload)) (queue : QueueId) : List Payload :=
  (log.filter fun handed => handed.1 = queue).map Prod.snd

/-! ## What a subscription is for -/

/-- A subscription to a job, or to everything, and what was broadcast to it while it was live. -/
structure Subscription (Payload : Type) where
  job : Option JobId
  live : Bool := true
  mail : List Payload := []

namespace Subscription

variable (jobOf : Payload → Option JobId)

def wants (sub : Subscription Payload) (payload : Payload) : Bool := sub.job.all fun jobId => jobOf payload = some jobId

def cancel (job : Option JobId) (sub : Subscription Payload) : Subscription Payload :=
  if sub.job = job then { sub with live := false } else sub

def hear (payload : Payload) (sub : Subscription Payload) : Subscription Payload :=
  if sub.live && sub.wants jobOf payload then { sub with mail := sub.mail ++ [payload] } else sub

/-- The subscriptions ever made, by their queues. -/
def after (subs : List (Subscription Payload)) : BrokerStep Payload → List (Subscription Payload)
  | .subscribe jobId => subs ++ [{ job := some jobId }]
  | .subscribeGlobal => subs ++ [{ job := none }]
  | .unsubscribe jobId queue => subs.modify queue (cancel (some jobId))
  | .unsubscribeGlobal queue => subs.modify queue (cancel none)
  | .broadcast payload => subs.map (hear jobOf payload)
  | .get _ => subs

def made (steps : List (BrokerStep Payload)) : List (Subscription Payload) := steps.foldl (after jobOf) []

variable {jobOf} {job : Option JobId} {sub : Subscription Payload} {payload : Payload}

@[simp] theorem cancel_job : (sub.cancel job).job = sub.job := by
  rw [cancel]
  split <;> rfl

@[simp] theorem cancel_mail : (sub.cancel job).mail = sub.mail := by
  rw [cancel]
  split <;> rfl

theorem cancel_live : (sub.cancel job).live = true ↔ sub.live = true ∧ sub.job ≠ job := by
  rw [cancel]
  split
  · rename_i same
    simp [same]
  · rename_i apart
    simp [apart]

theorem cancelled_iff {subs : List (Subscription Payload)} {queue q : QueueId} :
    (subs.modify queue (cancel job))[q]? = some sub ↔
      ∃ before, subs[q]? = some before ∧ sub = if queue = q then before.cancel job else before := by
  rw [List.getElem?_modify, Option.map_eq_map, Option.map_eq_some_iff]
  simp only [eq_comm]

/-- Cancelling changes nothing but who is live. -/
theorem cancelled_mail {queue q : QueueId} :
    (if queue = q then sub.cancel job else sub).mail = sub.mail ∧
      (if queue = q then sub.cancel job else sub).job = sub.job := by
  split
  · exact ⟨cancel_mail, cancel_job⟩
  · exact ⟨rfl, rfl⟩

@[simp] theorem hear_job : (sub.hear jobOf payload).job = sub.job := by
  rw [hear]
  split <;> rfl

@[simp] theorem hear_live : (sub.hear jobOf payload).live = sub.live := by
  rw [hear]
  split <;> rfl

theorem hear_mail : (sub.hear jobOf payload).mail =
    if sub.live = true ∧ sub.wants jobOf payload = true then sub.mail ++ [payload] else sub.mail := by
  simp only [hear, ← Bool.and_eq_true]
  split <;> rfl

end Subscription

/-! ## The sets of queues -/

namespace EventBroker

variable {jobOf : Payload → Option JobId} {b b' : EventBroker Payload} {log : List (QueueId × Payload)}
  {subs : List (Subscription Payload)} {own : Option JobId} {queue : QueueId}

/-- A queue has joined the set of a job, or of the global subscribers. -/
structure Joined (b : EventBroker Payload) (own : Option JobId) (b' : EventBroker Payload) : Prop where
  members : ∀ job, b'.members job = if job = own then (b.members job).insert b.made else b.members job
  queues : b'.queues = Function.update b.queues b.made []
  made : b'.made = b.made + 1
  filled : (∀ jobId, b.subscribers jobId ≠ some []) → ∀ jobId, b'.subscribers jobId ≠ some []

/-- A queue has left a set, if it was in it. -/
structure Left (b : EventBroker Payload) (own : Option JobId) (queue : QueueId) (b' : EventBroker Payload) :
    Prop where
  members : ∀ job, b'.members job =
    if job = own then (b.members job).filter (fun other => other ≠ queue) else b.members job
  queues : b'.queues = b.queues
  made : b'.made = b.made
  filled : (∀ jobId, b.subscribers jobId ≠ some []) → ∀ jobId, b'.subscribers jobId ≠ some []

theorem subscribe_joined (b : EventBroker Payload) (jobId : JobId) : Joined b (some jobId) (b.subscribe jobId) := by
  refine ⟨?_, rfl, rfl, ?_⟩
  · intro job
    cases job with
    | none => rfl
    | some other =>
      by_cases same : other = jobId
      · subst same
        simp [members, subscribe]
      · simp [members, subscribe, make, same]
  · intro filled other
    by_cases same : other = jobId
    · subst same
      have entered : b.made ∈ (b.members (some other)).insert b.made := List.mem_insert_self
      simpa [subscribe] using List.ne_nil_of_mem entered
    · simp [subscribe, make, same, filled]

theorem subscribeGlobal_joined (b : EventBroker Payload) : Joined b none b.subscribeGlobal := by
  refine ⟨?_, rfl, rfl, fun filled => filled⟩
  intro job
  cases job with
  | none => rfl
  | some jobId => rfl

theorem unsubscribe_absent {jobId : JobId} (absent : queue ∉ b.members (some jobId)) :
    b.unsubscribe jobId queue = b := by
  rw [unsubscribe]
  split
  · rfl
  · rename_i subs entry
    rw [members, entry] at absent
    exact if_neg absent

theorem unsubscribe_present {jobId : JobId} {subs : List QueueId} (entry : b.subscribers jobId = some subs)
    (inside : queue ∈ subs) :
    b.unsubscribe jobId queue =
      { b with
        subscribers := Function.update b.subscribers jobId
          (if (subs.filter fun other => other ≠ queue).isEmpty then none
            else some (subs.filter fun other => other ≠ queue)) } := by
  rw [unsubscribe, entry]
  exact if_pos inside

theorem unsubscribe_left (b : EventBroker Payload) (jobId : JobId) (queue : QueueId) :
    Left b (some jobId) queue (b.unsubscribe jobId queue) := by
  by_cases inside : queue ∈ b.members (some jobId)
  · obtain ⟨subs, entry⟩ : ∃ subs, b.subscribers jobId = some subs := by
      cases entry : b.subscribers jobId with
      | none =>
        rw [members, entry] at inside
        cases inside
      | some subs => exact ⟨subs, rfl⟩
    rw [unsubscribe_present entry (by rwa [members, entry] at inside)]
    refine ⟨?_, rfl, rfl, ?_⟩
    · intro job
      cases job with
      | none => rfl
      | some other =>
        by_cases same : other = jobId
        · subst same
          simp only [members, entry, Function.update_self, if_true, Option.getD_some]
          split
          · rename_i empty
            rw [List.isEmpty_iff.mp empty]
            rfl
          · rfl
        · simp [members, same]
    · intro filled other
      by_cases same : other = jobId
      · subst same
        simp only [Function.update_self]
        split
        · exact fun impossible => nomatch impossible
        · rename_i rest
          intro empty
          rw [Option.some.inj empty] at rest
          exact rest rfl
      · simpa only [Function.update_of_ne same] using filled other
  · rw [unsubscribe_absent inside]
    refine ⟨?_, rfl, rfl, fun filled => filled⟩
    intro job
    split
    · rename_i same
      rw [same, List.filter_eq_self.mpr]
      intro other member
      rw [decide_eq_true_eq]
      rintro rfl
      exact inside member
    · rfl

theorem unsubscribeGlobal_left (b : EventBroker Payload) (queue : QueueId) :
    Left b none queue (b.unsubscribeGlobal queue) := by
  refine ⟨?_, rfl, rfl, fun filled => filled⟩
  intro job
  cases job with
  | none => rfl
  | some jobId => rfl

/-! ## What every run keeps -/

/-- The sets hold the live subscriptions, and every queue has served its own. -/
structure Accounted (b : EventBroker Payload) (log : List (QueueId × Payload))
    (subs : List (Subscription Payload)) : Prop where
  made : b.made = subs.length
  member : ∀ job q, q ∈ b.members job ↔ ∃ sub, subs[q]? = some sub ∧ sub.live = true ∧ sub.job = job
  once : ∀ job, (b.members job).Nodup
  filled : ∀ jobId, b.subscribers jobId ≠ some []
  served : ∀ (q : QueueId) sub, subs[q]? = some sub →
    Mailbox.Served queueMax sub.mail (received log q) (b.queues q)
  unmade : ∀ q : QueueId, subs[q]? = none → b.queues q = [] ∧ received log q = []

theorem Accounted.start : Accounted ({} : EventBroker Payload) [] [] := by
  refine ⟨rfl, ?_, ?_, ?_, ?_, ?_⟩
  · intro job q
    cases job <;> simp [members]
  · intro job
    cases job <;> exact List.nodup_nil
  · intro jobId impossible
    cases impossible
  · intro q sub found
    cases found
  · intro q _
    exact ⟨rfl, rfl⟩

theorem getElem?_snoc {α : Type} (items : List α) (last : α) (i : Nat) :
    (items ++ [last])[i]? = if i = items.length then some last else items[i]? := by
  rw [List.getElem?_append]
  by_cases inside : i < items.length
  · rw [if_pos inside, if_neg (Nat.ne_of_lt inside)]
  · rw [if_neg inside]
    by_cases here : i = items.length
    · simp [here]
    · rw [if_neg here, List.getElem?_eq_none (by simp; omega), List.getElem?_eq_none (by omega)]

theorem Accounted.join (accounted : Accounted b log subs) (joined : Joined b own b') :
    Accounted b' log (subs ++ [{ job := own }]) := by
  have fresh : subs[b.made]? = none := by
    rw [accounted.made]
    exact List.getElem?_eq_none (Nat.le_refl _)
  refine ⟨?_, ?_, ?_, joined.filled accounted.filled, ?_, ?_⟩
  · rw [joined.made, accounted.made, List.length_append, List.length_singleton]
  · intro job q
    rw [joined.members, getElem?_snoc, ← accounted.made]
    by_cases here : q = b.made
    · subst here
      have absent : b.made ∉ b.members job := by
        rw [accounted.member, fresh]
        rintro ⟨_, impossible, -⟩
        cases impossible
      by_cases same : job = own
      · simp [same]
      · simp [same, absent, Ne.symm same]
    · rw [if_neg here, ← accounted.member]
      split
      · simp [here]
      · rfl
  · intro job
    rw [joined.members]
    split
    · exact (accounted.once job).insert
    · exact accounted.once job
  · intro q sub found
    rw [getElem?_snoc, ← accounted.made] at found
    rw [joined.queues]
    split at found
    · rename_i here
      obtain rfl := Option.some.inj found
      rw [here, Function.update_self, (accounted.unmade _ fresh).2]
      exact Mailbox.Served.start queueMax
    · rename_i other
      rw [Function.update_of_ne other]
      exact accounted.served q sub found
  · intro q absent
    rw [getElem?_snoc, ← accounted.made] at absent
    split at absent
    · cases absent
    · rename_i other
      rw [joined.queues, Function.update_of_ne other]
      exact accounted.unmade q absent

theorem Accounted.leave (accounted : Accounted b log subs) (left : Left b own queue b') :
    Accounted b' log (subs.modify queue (Subscription.cancel own)) := by
  refine ⟨?_, ?_, ?_, left.filled accounted.filled, ?_, ?_⟩
  · rw [left.made, List.length_modify]
    exact accounted.made
  · intro job q
    have old := accounted.member job q
    rw [left.members]
    constructor
    · intro member
      have inside : q ∈ b.members job ∧ (job = own → q ≠ queue) := by
        split at member
        · obtain ⟨inside, other⟩ := List.mem_filter.mp member
          exact ⟨inside, fun _ => of_decide_eq_true other⟩
        · rename_i apart
          exact ⟨member, fun same => absurd same apart⟩
      obtain ⟨sub, found, live, about⟩ := old.mp inside.1
      refine ⟨_, Subscription.cancelled_iff.mpr ⟨sub, found, rfl⟩, ?_⟩
      split
      · rename_i here
        have apart : sub.job ≠ own := fun same => inside.2 (about.symm.trans same) here.symm
        exact ⟨Subscription.cancel_live.mpr ⟨live, apart⟩, Subscription.cancel_job.trans about⟩
      · exact ⟨live, about⟩
    · rintro ⟨_, found, live, about⟩
      obtain ⟨sub, before, rfl⟩ := Subscription.cancelled_iff.mp found
      by_cases here : queue = q
      · rw [if_pos here] at live about
        obtain ⟨live, apart⟩ := Subscription.cancel_live.mp live
        rw [Subscription.cancel_job] at about
        rw [about] at apart
        rw [if_neg apart]
        exact old.mpr ⟨sub, before, live, about⟩
      · rw [if_neg here] at live about
        have inside := old.mpr ⟨sub, before, live, about⟩
        split
        · exact List.mem_filter.mpr ⟨inside, decide_eq_true (Ne.symm here)⟩
        · exact inside
  · intro job
    rw [left.members]
    split
    · exact (accounted.once job).filter _
    · exact accounted.once job
  · intro q sub found
    obtain ⟨before, first, rfl⟩ := Subscription.cancelled_iff.mp found
    rw [Subscription.cancelled_mail.1, left.queues]
    exact accounted.served q before first
  · intro q absent
    rw [left.queues]
    apply accounted.unmade
    simpa using absent

theorem targets_iff (accounted : Accounted b log subs) (payload : Payload) (q : QueueId) :
    q ∈ b.targets jobOf payload ↔
      ∃ sub, subs[q]? = some sub ∧ sub.live = true ∧ sub.wants jobOf payload = true := by
  have all := accounted.member none q
  rw [members] at all
  rw [targets]
  cases about : jobOf payload with
  | none =>
    simp only
    rw [all]
    constructor
    · rintro ⟨sub, found, live, every⟩
      exact ⟨sub, found, live, by rw [Subscription.wants, every]; rfl⟩
    · rintro ⟨sub, found, live, wants⟩
      refine ⟨sub, found, live, ?_⟩
      cases job : sub.job with
      | none => rfl
      | some jobId => simp [Subscription.wants, job, about] at wants
  | some jobId =>
    simp only
    rw [List.mem_union_iff, all, accounted.member]
    constructor
    · rintro (⟨sub, found, live, every⟩ | ⟨sub, found, live, own⟩)
      · exact ⟨sub, found, live, by rw [Subscription.wants, every]; rfl⟩
      · exact ⟨sub, found, live, by simp [Subscription.wants, own, about]⟩
    · rintro ⟨sub, found, live, wants⟩
      cases job : sub.job with
      | none => exact .inl ⟨sub, found, live, job⟩
      | some other =>
        have same : jobId = other := by simpa [Subscription.wants, job, about] using wants
        exact .inr ⟨sub, found, live, by rw [job, same]⟩

theorem targets_nodup (accounted : Accounted b log subs) (payload : Payload) :
    (b.targets jobOf payload).Nodup := by
  rw [targets]
  split
  · exact accounted.once none
  · exact (accounted.once _).union _

/-- Each target is offered the payload once, whatever the order of the loop. -/
theorem offered {payload : Payload} {targets : List QueueId} (once : targets.Nodup)
    (queues : QueueId → List Payload) (q : QueueId) :
    targets.foldl (fun queues queue => Function.update queues queue (Mailbox.push queueMax (queues queue) payload))
        queues q = if q ∈ targets then Mailbox.push queueMax (queues q) payload else queues q := by
  induction targets generalizing queues with
  | nil => rfl
  | cons first rest ih =>
    obtain ⟨absent, once⟩ := List.nodup_cons.mp once
    rw [List.foldl_cons, ih once]
    by_cases here : q = first
    · subst here
      simp [absent]
    · simp [here]

theorem Accounted.hear (accounted : Accounted b log subs) (payload : Payload) :
    Accounted (b.broadcast jobOf payload) log (subs.map (Subscription.hear jobOf payload)) := by
  have queues (q : QueueId) : (b.broadcast jobOf payload).queues q =
      if q ∈ b.targets jobOf payload then Mailbox.push queueMax (b.queues q) payload else b.queues q :=
    offered (targets_nodup accounted payload) b.queues q
  refine ⟨?_, ?_, accounted.once, accounted.filled, ?_, ?_⟩
  · rw [List.length_map]
    exact accounted.made
  · intro job q
    have old : q ∈ (b.broadcast jobOf payload).members job ↔ _ := accounted.member job q
    rw [old, List.getElem?_map]
    cases subs[q]? with
    | none => simp
    | some sub => simp
  · intro q _ found
    rw [List.getElem?_map] at found
    obtain ⟨sub, before, rfl⟩ := Option.map_eq_some_iff.mp found
    have served := accounted.served q sub before
    have target : q ∈ b.targets jobOf payload ↔ sub.live = true ∧ sub.wants jobOf payload = true := by
      rw [targets_iff accounted, before]
      simp
    rw [queues, Subscription.hear_mail]
    by_cases heard : q ∈ b.targets jobOf payload
    · rw [if_pos heard, if_pos (target.mp heard)]
      exact served.push (by decide) payload
    · rw [if_neg heard, if_neg fun wanted => heard (target.mpr wanted)]
      exact served
  · intro q absent
    rw [List.getElem?_map, Option.map_eq_none_iff] at absent
    have quiet : q ∉ b.targets jobOf payload := by
      rw [targets_iff accounted, absent]
      rintro ⟨_, impossible, -⟩
      cases impossible
    rw [queues, if_neg quiet]
    exact accounted.unmade q absent

theorem received_snoc (log : List (QueueId × Payload)) (payload : Payload) (q : QueueId) :
    received (log ++ [(queue, payload)]) q =
      if queue = q then received log q ++ [payload] else received log q := by
  by_cases here : queue = q
  · simp [received, here]
  · simp [received, here]

theorem Accounted.take {payload : Payload} {rest : List Payload} (accounted : Accounted b log subs)
    (held : b.queues queue = payload :: rest) :
    Accounted { b with queues := Function.update b.queues queue rest } (log ++ [(queue, payload)]) subs := by
  refine ⟨accounted.made, ?_, accounted.once, accounted.filled, ?_, ?_⟩
  · exact accounted.member
  · intro q sub found
    have served := accounted.served q sub found
    rw [received_snoc]
    by_cases here : queue = q
    · subst here
      rw [held] at served
      rw [if_pos rfl]
      simpa using served.get
    · rw [if_neg here]
      simpa only [Function.update_of_ne (Ne.symm here)] using served
  · intro q absent
    have nothing := accounted.unmade q absent
    have other : queue ≠ q := by
      rintro rfl
      rw [held] at nothing
      cases nothing.1
    rw [received_snoc, if_neg other]
    simpa only [Function.update_of_ne (Ne.symm other)] using nothing

theorem Accounted.step (accounted : Accounted b log subs) (act : BrokerStep Payload) :
    Accounted (b.step jobOf act).1 (log ++ (b.step jobOf act).2.toList) (Subscription.after jobOf subs act) := by
  have silent : log ++ (none : Option (QueueId × Payload)).toList = log := List.append_nil log
  cases act with
  | subscribe jobId =>
    rw [EventBroker.step, silent]
    exact accounted.join (subscribe_joined b jobId)
  | subscribeGlobal =>
    rw [EventBroker.step, silent]
    exact accounted.join (subscribeGlobal_joined b)
  | unsubscribe jobId queue =>
    rw [EventBroker.step, silent]
    exact accounted.leave (unsubscribe_left b jobId queue)
  | unsubscribeGlobal queue =>
    rw [EventBroker.step, silent]
    exact accounted.leave (unsubscribeGlobal_left b queue)
  | broadcast payload =>
    rw [EventBroker.step, silent]
    exact accounted.hear payload
  | get queue =>
    rw [EventBroker.step]
    cases held : b.queues queue with
    | nil =>
      rw [silent]
      exact accounted
    | cons payload rest => exact accounted.take held

theorem run_accounted (jobOf : Payload → Option JobId) (steps : List (BrokerStep Payload)) :
    Accounted (run jobOf steps).1 (run jobOf steps).2 (Subscription.made jobOf steps) := by
  induction steps using List.reverseRecOn with
  | nil => exact .start
  | append_singleton steps act ih =>
    rw [run, Subscription.made, List.foldl_append, List.foldl_append]
    exact ih.step act

/-- A job has no entry in the table once nobody is subscribed to it. -/
theorem Accounted.entry (accounted : Accounted b log subs) (jobId : JobId) :
    b.subscribers jobId = none ↔ ¬∃ sub ∈ subs, sub.live = true ∧ sub.job = some jobId := by
  have empty : b.subscribers jobId = none ↔ b.members (some jobId) = [] := by
    rw [members]
    cases entry : b.subscribers jobId with
    | none => simp
    | some set =>
      have filled := accounted.filled jobId
      rw [entry] at filled
      simpa using filled
  rw [empty, List.eq_nil_iff_forall_not_mem]
  constructor
  · rintro nobody ⟨sub, member, live, about⟩
    obtain ⟨q, found⟩ := List.mem_iff_getElem?.mp member
    exact nobody q ((accounted.member _ q).mpr ⟨sub, found, live, about⟩)
  · intro nobody q member
    obtain ⟨sub, found, live, about⟩ := (accounted.member _ q).mp member
    exact nobody ⟨sub, List.mem_of_getElem? found, live, about⟩

end EventBroker

theorem Subscription.made_wanted (jobOf : Payload → Option JobId) (steps : List (BrokerStep Payload)) :
    ∀ sub ∈ made jobOf steps, ∀ payload ∈ sub.mail, sub.wants jobOf payload = true := by
  induction steps using List.reverseRecOn with
  | nil => exact List.forall_mem_nil _
  | append_singleton steps act ih =>
    rw [made, List.foldl_append]
    change ∀ sub ∈ after jobOf (made jobOf steps) act, _
    have fresh (job : Option JobId) : ∀ sub ∈ made jobOf steps ++ [{ job := job }],
        ∀ payload ∈ sub.mail, sub.wants jobOf payload = true := by
      rw [List.forall_mem_append, List.forall_mem_singleton]
      exact ⟨ih, List.forall_mem_nil _⟩
    have left (job : Option JobId) (queue : QueueId) : ∀ sub ∈ (made jobOf steps).modify queue (cancel job),
        ∀ payload ∈ sub.mail, sub.wants jobOf payload = true := by
      intro _ member payload inside
      obtain ⟨q, found⟩ := List.mem_iff_getElem?.mp member
      obtain ⟨sub, before, rfl⟩ := cancelled_iff.mp found
      rw [cancelled_mail.1] at inside
      rw [wants, cancelled_mail.2]
      exact ih sub (List.mem_of_getElem? before) payload inside
    cases act with
    | subscribe jobId => exact fresh (some jobId)
    | subscribeGlobal => exact fresh none
    | unsubscribe jobId queue => exact left (some jobId) queue
    | unsubscribeGlobal queue => exact left none queue
    | broadcast payload =>
      intro _ member other inside
      obtain ⟨sub, old, rfl⟩ := List.mem_map.mp member
      rw [wants, hear_job]
      rw [hear_mail] at inside
      split at inside
      · rename_i heard
        rcases List.mem_append.mp inside with earlier | last
        · exact ih sub old other earlier
        · rw [List.mem_singleton.mp last]
          exact heard.2
      · exact ih sub old other inside
    | get queue => exact ih

/-- Over any run: what a subscriber got are payloads broadcast to it, each once and in order, and its
queue holds the last thousand of those that came after; a job nobody is subscribed to has no entry. -/
theorem subscribers_served (jobOf : Payload → Option JobId) (steps : List (BrokerStep Payload)) :
    let b := (EventBroker.run jobOf steps).1
    let log := (EventBroker.run jobOf steps).2
    let subs := Subscription.made jobOf steps
    (∀ (q : QueueId) sub, subs[q]? = some sub →
      Mailbox.Served queueMax sub.mail (received log q) (b.queues q) ∧
        ∀ payload ∈ received log q, sub.wants jobOf payload = true) ∧
    (∀ q : QueueId, subs[q]? = none → b.queues q = [] ∧ received log q = []) ∧
    ∀ jobId, b.subscribers jobId = none ↔ ¬∃ sub ∈ subs, sub.live = true ∧ sub.job = some jobId := by
  intro b log subs
  have accounted := EventBroker.run_accounted jobOf steps
  refine ⟨?_, accounted.unmade, accounted.entry⟩
  intro q sub found
  have served := accounted.served q sub found
  refine ⟨served, fun payload member => ?_⟩
  exact Subscription.made_wanted jobOf steps sub (List.mem_of_getElem? found) payload (served.subset member)

end N4Cluster
