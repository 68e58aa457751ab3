import N4Cluster.Server.Broker

/-! What the event streams send: persisted events in the order of their ids, and,
where replay and subscription leave no gap, every event of the job. -/
namespace N4Cluster
open Transactional Interleave

/-- The payload says of the event what the store says. -/
structure EventRow.Shows (row : EventRow) (v : EventView) : Prop where
  id : v.id = row.id
  jobId : v.jobId = row.jobId
  taskId : v.taskId = row.taskId
  workerId : v.workerId = row.workerId
  level : v.level = row.level
  type : v.type = row.type
  message : v.message = row.message

/-- The payload shows a persisted event. -/
def Persisted (events : List EventRow) (v : EventView) : Prop := ∃ row ∈ events, row.Shows v

/-- Event ids grow with the table. -/
structure Numbered (events : List EventRow) : Prop where
  increasing : events.Pairwise fun a b => a.id < b.id
  bounded : ∀ row ∈ events, 0 < row.id ∧ row.id ≤ events.length

variable {events rows : List EventRow} {s : Session Db} {job : Option JobId} {v : EventView}

theorem eventView_shows (row : EventRow) : row.Shows (eventView row) :=
  ⟨rfl, rfl, rfl, rfl, rfl, rfl, rfl⟩

theorem Persisted.grows (persisted : Persisted events v) (more : List EventRow) :
    Persisted (events ++ more) v := by
  obtain ⟨row, member, same⟩ := persisted
  exact ⟨row, List.mem_append_left _ member, same⟩

theorem Numbered.empty : Numbered [] := ⟨.nil, fun _ member => nomatch member⟩

theorem Numbered.snoc (numbered : Numbered events) {row : EventRow} (id : row.id = events.length + 1) :
    Numbered (events ++ [row]) := by
  constructor
  · refine List.pairwise_append.mpr ⟨numbered.increasing, List.pairwise_singleton _ _, ?_⟩
    intro a old b new
    obtain rfl := List.mem_singleton.mp new
    have bounded := (numbered.bounded a old).2
    omega
  · intro a member
    rw [List.length_append, List.length_singleton]
    rcases List.mem_append.mp member with old | new
    · have bounded := numbered.bounded a old
      omega
    · obtain rfl := List.mem_singleton.mp new
      omega

theorem Numbered.same_row (numbered : Numbered events) {a b : EventRow} (left : a ∈ events)
    (right : b ∈ events) (same : a.id = b.id) : a = b :=
  List.Pairwise.forall_of_forall_of_flip (R := fun a b : EventRow => a.id = b.id → a = b)
    (fun _ _ _ => rfl) (numbered.increasing.imp fun less same => absurd same (Nat.ne_of_lt less))
    (numbered.increasing.imp fun less same => absurd same.symm (Nat.ne_of_lt less)) left right same

/-- A replay reads events of its stream in the order of their ids. -/
theorem history_rows (job : Option JobId) (numbered : Numbered s.live.events) :
    ∃ rows, (Stream.history job s).1 = .ok rows ∧ rows.Pairwise (fun a b => a.id < b.id) ∧
      ∀ row ∈ rows, row ∈ s.live.events ∧ ∀ jobId, job = some jobId → row.jobId = some jobId := by
  cases job with
  | some jobId =>
    refine ⟨_, rfl, ?_, fun row member => ?_⟩
    · have ordered := numbered.increasing.filter fun r => r.jobId = some jobId && 0 < r.id
      rw [Db.eventsOf, (ordered.imp Nat.le_of_lt).insertionSort_eq]
      exact ordered.sublist (List.take_sublist _ _)
    · have member := (List.mem_insertionSort _).mp (List.mem_of_mem_take member)
      simp only [List.mem_filter, Bool.and_eq_true, decide_eq_true_eq] at member
      refine ⟨member.1, fun jobId' same => ?_⟩
      cases same
      exact member.2.1
  | none =>
    refine ⟨_, rfl, ?_, fun row member => ⟨?_, nofun⟩⟩
    · have sorted := List.pairwise_insertionSort (fun a b : EventRow => b.id ≤ a.id) s.live.events
      have apart : (s.live.events.insertionSort fun a b => b.id ≤ a.id).Pairwise
          fun a b => a.id ≠ b.id :=
        ((List.perm_insertionSort _ _).pairwise_iff fun {_ _} => Ne.symm).mpr
          (numbered.increasing.imp Nat.ne_of_lt)
      have strict := sorted.imp₂ (fun a b le ne => Nat.lt_of_le_of_ne le (Ne.symm ne)) apart
      exact List.pairwise_reverse.mpr (strict.sublist (List.take_sublist _ _))
    · exact (List.mem_insertionSort _).mp (List.mem_of_mem_take (List.mem_reverse.mp member))

/-! ## One stream -/

/-- Everything a stream holds is persisted and its own; what it sent is in order,
and what it has yet to replay comes later. -/
structure Stream.Kept (events : List EventRow) (c : Stream) : Prop where
  fresh : c.stage = .accepted → c.lastId = 0
  waiting : (c.stage = .accepted ∨ ∃ rows, c.stage = .replaying rows) → c.queue = none
  last : c.lastId = 0 ∨ c.lastId ∈ c.sent.map EventView.id
  ordered : c.sent.Pairwise fun a b => a.id < b.id
  bounded : ∀ v ∈ c.sent, v.id ≤ c.lastId
  sent : ∀ v ∈ c.sent, Persisted events v ∧ c.hears v = true
  queued : ∀ queue, c.queue = some queue → ∀ v ∈ queue, Persisted events v ∧ c.hears v = true
  rows : ∀ rows, c.stage = .replaying rows → rows.Pairwise (fun a b => a.id < b.id) ∧
    ∀ row ∈ rows, row ∈ events ∧ c.lastId < row.id ∧ c.hears (eventView row) = true

theorem connected_kept (job : Option JobId) : Stream.Kept events { job := job } :=
  ⟨fun _ => rfl, fun _ => rfl, .inl rfl, .nil, fun _ member => False.elim (List.not_mem_nil member),
    fun _ member => False.elim (List.not_mem_nil member), nofun, nofun⟩

theorem hears_of {c : Stream} (own : ∀ jobId, c.job = some jobId → v.jobId = some jobId) :
    c.hears v = true := by
  unfold Stream.hears
  split
  · rename_i jobId job
    exact decide_eq_true (own jobId job)
  · rfl

theorem mem_offer {queue : List EventView} {payload : EventView} (member : v ∈ offer queue payload) :
    v ∈ queue ∨ v = payload := by
  simp only [offer] at member
  have older (q : List EventView) (sub : ∀ u ∈ q, u ∈ queue)
      (member : v ∈ if queueMax ≤ q.length then q else q ++ [payload]) : v ∈ queue ∨ v = payload := by
    split at member
    · exact .inl (sub v member)
    · exact (List.mem_append.mp member).imp (sub v) List.mem_singleton.mp
  refine older _ (fun u present => ?_) member
  split at present
  · exact List.mem_of_mem_tail present
  · exact present

theorem Stream.Kept.receive {c : Stream} (kept : c.Kept events) (persisted : Persisted events v) :
    (c.receive v).Kept events := by
  unfold Stream.receive
  split
  · rename_i heard
    refine { kept with
      waiting := fun early => by rw [kept.waiting early]; rfl
      queued := fun queue held u member => ?_ }
    obtain ⟨before, present, rfl⟩ := Option.map_eq_some_iff.mp held
    rcases mem_offer member with old | rfl
    · exact kept.queued before present u old
    · exact ⟨persisted, heard⟩
  · exact kept

theorem Stream.Kept.grows {c : Stream} (kept : c.Kept events) (more : List EventRow) :
    c.Kept (events ++ more) where
  fresh := kept.fresh
  waiting := kept.waiting
  last := kept.last
  ordered := kept.ordered
  bounded := kept.bounded
  sent v member := ⟨(kept.sent v member).1.grows more, (kept.sent v member).2⟩
  queued queue held v member :=
    ⟨(kept.queued queue held v member).1.grows more, (kept.queued queue held v member).2⟩
  rows rows replaying := ⟨(kept.rows rows replaying).1, fun row member =>
    ⟨List.mem_append_left _ ((kept.rows rows replaying).2 row member).1,
      ((kept.rows rows replaying).2 row member).2⟩⟩

theorem deliver_last {c : Stream} : v.id ∈ (c.deliver v).sent.map EventView.id :=
  List.mem_map_of_mem (List.mem_append_right _ List.mem_cons_self)

/-- Handing over a later event keeps what was sent in order. -/
theorem Stream.Kept.deliver {c : Stream} (kept : c.Kept events) (persisted : Persisted events v)
    (heard : c.hears v = true) (later : c.lastId < v.id) :
    ((c.deliver v).sent.Pairwise fun a b => a.id < b.id) ∧
    (∀ u ∈ (c.deliver v).sent, u.id ≤ (c.deliver v).lastId) ∧
    ∀ u ∈ (c.deliver v).sent, Persisted events u ∧ (c.deliver v).hears u = true := by
  refine ⟨List.pairwise_append.mpr ⟨kept.ordered, List.pairwise_singleton _ _, ?_⟩, ?_, ?_⟩
  · intro a old b new
    obtain rfl := List.mem_singleton.mp new
    exact Nat.lt_of_le_of_lt (kept.bounded a old) later
  · intro u member
    rcases List.mem_append.mp member with old | new
    · exact Nat.le_of_lt (Nat.lt_of_le_of_lt (kept.bounded u old) later)
    · exact Nat.le_of_eq (congrArg EventView.id (List.mem_singleton.mp new))
  · intro u member
    rcases List.mem_append.mp member with old | new
    · exact kept.sent u old
    · rw [List.mem_singleton.mp new]
      exact ⟨persisted, heard⟩

theorem Stream.Kept.step {c c' : Stream} {step : StreamStep} (kept : c.Kept s.live.events)
    (numbered : Numbered s.live.events) (stepped : c.take s step = some c') :
    c'.Kept s.live.events := by
  obtain ⟨job, stage, lastId, queue, sent⟩ := c
  cases step with
  | replay =>
    cases stage <;> try contradiction
    obtain ⟨rows, read, increasing, own⟩ := history_rows job numbered
    simp only [Stream.take, read] at stepped
    cases stepped
    refine { kept with
      fresh := nofun
      waiting := fun _ => kept.waiting (.inl rfl)
      rows := fun rows' replaying => ?_ }
    cases replaying
    refine ⟨increasing, fun row member => ⟨(own row member).1, ?_, hears_of (own row member).2⟩⟩
    have zero : lastId = 0 := kept.fresh rfl
    exact zero ▸ (numbered.bounded row (own row member).1).1
  | send =>
    cases stage <;> try contradiction
    rename_i rows
    cases rows with
    | nil => contradiction
    | cons row rest =>
      cases stepped
      obtain ⟨increasing, all⟩ := kept.rows _ rfl
      obtain ⟨before, increasing⟩ := List.pairwise_cons.mp increasing
      obtain ⟨stored, later, heard⟩ := all row List.mem_cons_self
      obtain ⟨ordered, bounded, sent⟩ := kept.deliver ⟨row, stored, eventView_shows row⟩ heard later
      refine ⟨nofun, fun _ => kept.waiting (.inr ⟨_, rfl⟩), .inr deliver_last, ordered, bounded, sent,
        kept.queued, fun rows replaying => ?_⟩
      cases replaying
      refine ⟨increasing, fun other member => ?_⟩
      obtain ⟨stored, _, heard⟩ := all other (List.mem_cons_of_mem _ member)
      exact ⟨stored, before other member, heard⟩
  | subscribe =>
    cases stage <;> try contradiction
    rename_i rows
    cases rows with
    | cons => contradiction
    | nil =>
      cases stepped
      refine { kept with
        fresh := nofun
        waiting := fun early => by obtain now | ⟨_, now⟩ := early <;> exact nomatch now
        queued := fun queue held v member => ?_
        rows := nofun }
      cases held
      contradiction
  | get =>
    cases stage <;> try contradiction
    cases queue with
    | none => contradiction
    | some queue =>
      cases queue with
      | nil => contradiction
      | cons payload rest =>
        have shorter : ∀ queue, some rest = some queue → ∀ v ∈ queue,
            Persisted s.live.events v ∧ Stream.hears ⟨job, .live, lastId, some rest, sent⟩ v = true := by
          intro queue held v member
          cases held
          exact kept.queued _ rfl v (List.mem_cons_of_mem _ member)
        have relaying : (Stage.live = .accepted ∨ ∃ rows, Stage.live = .replaying rows) →
            some rest = none := by
          rintro (now | ⟨_, now⟩) <;> exact nomatch now
        simp only [Stream.take] at stepped
        cases stepped
        split
        · rename_i later
          obtain ⟨persisted, heard⟩ := kept.queued _ rfl payload List.mem_cons_self
          obtain ⟨ordered, bounded, sent⟩ := kept.deliver persisted heard later
          exact ⟨nofun, relaying, .inr deliver_last, ordered, bounded, sent, shorter, nofun⟩
        · exact ⟨nofun, relaying, kept.last, kept.ordered, kept.bounded, kept.sent, shorter, nofun⟩
  | disconnect =>
    cases stage <;> cases stepped
    all_goals
      refine ⟨nofun, ?_, kept.last, kept.ordered, kept.bounded, kept.sent, kept.queued, nofun⟩
      rintro (now | ⟨_, now⟩) <;> exact nomatch now
  | unsubscribe =>
    cases stage <;> cases stepped
    exact ⟨nofun, fun _ => rfl, kept.last, kept.ordered, kept.bounded, kept.sent, nofun, nofun⟩

/-! ## The hub -/

variable {h h' : Hub} {l : HubStep}

structure Hub.Kept (h : Hub) : Prop where
  settled : h.store = .settled h.store.live
  numbered : Numbered h.store.live.events
  pending : ∀ v ∈ h.unscheduled ++ h.scheduled, Persisted h.store.live.events v
  streams : ∀ c ∈ h.streams, c.Kept h.store.live.events

theorem started_kept : Hub.started.Kept :=
  ⟨rfl, .empty, fun _ member => False.elim (List.not_mem_nil member),
    fun _ member => False.elim (List.not_mem_nil member)⟩

/-- The row `add_event` writes. -/
def eventRow (io : Io) (id : Nat) (e : NewEvent) : EventRow :=
  ⟨id, e.jobId, e.taskId, e.workerId, io.now, e.level, e.type, e.message⟩

theorem insertEvent_ok (io : Io) (e : NewEvent) (s : Session Db) :
    insertEvent io e s = (.ok (s.live.events.length + 1), .settled { s.live with
      events := s.live.events ++ [eventRow io (s.live.events.length + 1) e] }) := rfl

theorem Hub.take_act (stepped : h.take l = some h') : h.act l = some h' := by
  unfold Hub.take at stepped
  split at stepped
  · contradiction
  · exact stepped

theorem Hub.Kept.step (kept : h.Kept) (stepped : h.take l = some h') : h'.Kept := by
  replace stepped := Hub.take_act stepped
  cases l with
  | emit io ts event =>
    simp only [Hub.act, insertEvent_ok] at stepped
    cases stepped
    refine ⟨rfl, kept.numbered.snoc rfl, fun v member => ?_, fun c member => (kept.streams c member).grows _⟩
    rw [List.append_assoc] at member
    rcases List.mem_append.mp member with old | later
    · exact (kept.pending v (List.mem_append_left _ old)).grows _
    · rcases List.mem_append.mp later with new | old
      · obtain rfl := List.mem_singleton.mp new
        exact ⟨_, List.mem_append_right _ List.mem_cons_self, rfl, rfl, rfl, rfl, rfl, rfl, rfl⟩
      · exact (kept.pending v (List.mem_append_right _ old)).grows _
  | schedule k =>
    simp only [Hub.act] at stepped
    split at stepped
    · rename_i payload found
      cases stepped
      refine { kept with pending := fun v member => kept.pending v ?_ }
      rcases List.mem_append.mp member with rest | later
      · exact List.mem_append_left _ (List.mem_of_mem_eraseIdx rest)
      · rcases List.mem_append.mp later with old | new
        · exact List.mem_append_right _ old
        · obtain rfl := List.mem_singleton.mp new
          exact List.mem_append_left _ (List.mem_of_getElem? found)
    · contradiction
  | broadcast =>
    simp only [Hub.act] at stepped
    split at stepped
    · rename_i payload rest scheduled
      cases stepped
      have later {v} (member : v ∈ payload :: rest) : Persisted h.store.live.events v :=
        kept.pending v (List.mem_append_right _ (scheduled ▸ member))
      refine ⟨kept.settled, kept.numbered, fun v member => ?_, fun c member => ?_⟩
      · rcases List.mem_append.mp member with old | left
        · exact kept.pending v (List.mem_append_left _ old)
        · exact later (List.mem_cons_of_mem _ left)
      · obtain ⟨before, present, rfl⟩ := List.mem_map.mp member
        exact (kept.streams before present).receive (later List.mem_cons_self)
    · contradiction
  | connect job =>
    cases stepped
    refine { kept with streams := fun c member => ?_ }
    rcases List.mem_append.mp member with old | new
    · exact kept.streams c old
    · rw [List.mem_singleton.mp new]
      exact connected_kept job
  | stream i step =>
    simp only [Hub.act] at stepped
    split at stepped
    · rename_i c found
      obtain ⟨c', moved, rfl⟩ := Option.map_eq_some_iff.mp stepped
      refine { kept with streams := fun other member => ?_ }
      rcases List.mem_or_eq_of_mem_set member with old | rfl
      · exact kept.streams other old
      · exact (kept.streams c (List.mem_of_getElem? found)).step kept.numbered moved
    · contradiction
  | restart =>
    cases stepped
    refine ⟨rfl, ?_, fun _ member => False.elim (List.not_mem_nil member),
      fun _ member => False.elim (List.not_mem_nil member)⟩
    have settled := kept.settled
    rw [Session.settled] at settled
    rw [settled]
    exact kept.numbered

/-- The runs of the broker. -/
abbrev Hub.Reached (ok : Hub → HubStep → Prop) (h : Hub) : Prop := Runs Hub.take ok Hub.started h

theorem reached_kept {ok : Hub → HubStep → Prop} (run : Hub.Reached ok h) : h.Kept :=
  run.invariant (fun kept _ stepped => kept.step stepped) started_kept

/-- On every stream the ids sent grow, and what is sent is a persisted event, of the
stream's job if it has one. -/
theorem streams_in_order {c : Stream} (run : Hub.Reached (fun _ _ => True) h) (member : c ∈ h.streams) :
    (c.sent.map EventView.id).Pairwise (· < ·) ∧
    ∀ v ∈ c.sent, ∃ row ∈ h.store.live.events, row.Shows v ∧
      ∀ jobId, c.job = some jobId → row.jobId = some jobId := by
  have kept := (reached_kept run).streams c member
  refine ⟨List.pairwise_map.mpr kept.ordered, fun v sent => ?_⟩
  obtain ⟨⟨row, stored, same⟩, heard⟩ := kept.sent v sent
  refine ⟨row, stored, same, fun jobId job => ?_⟩
  rw [Stream.hears, job] at heard
  exact same.jobId.symm.trans (of_decide_eq_true heard)

/-- A stream that has replayed one event and relayed another, while an emit of
another job was broadcast between them. -/
def relayedSteps : List HubStep :=
  [.emit { now := 1 } 1 { level := .info, type := "job_submitted", jobId := some "job_0" },
    .connect (some "job_0"), .stream 0 .replay, .stream 0 .send, .stream 0 .subscribe,
    .emit { now := 2 } 2 { level := .info, type := "task_leased", jobId := some "job_1" },
    .emit { now := 3 } 3 { level := .info, type := "task_leased", jobId := some "job_0" },
    .schedule 1, .schedule 0, .schedule 0, .broadcast, .broadcast, .broadcast, .stream 0 .get,
    .stream 0 .get]

theorem streams_in_order_relayed : ∃ h c, Hub.Reached (fun _ _ => True) h ∧ c ∈ h.streams ∧
    c.sent.map EventView.id = [1, 3] ∧ (c.sent.map EventView.id).Pairwise (· < ·) := by
  have taken : (takes Hub.take (fun _ _ => True) relayedSteps Hub.started).any (fun h =>
      h.streams.any fun c => decide (c.sent.map EventView.id = [1, 3])) = true := by decide +kernel
  obtain ⟨h, run, facts⟩ := takes_any taken
  obtain ⟨c, member, sent⟩ := List.any_eq_true.mp facts
  exact ⟨h, c, run, member, of_decide_eq_true sent, (streams_in_order run member).1⟩

/-! ## Complete streams -/

/-- No queue becomes full. -/
def Roomy (h : Hub) : HubStep → Prop
  | .broadcast => ∀ c ∈ h.streams, ∀ queue, c.queue = some queue → queue.length + 1 < queueMax
  | _ => True

/-- The broadcasts still to come. -/
def Hub.due (h : Hub) : List EventView := h.unscheduled ++ h.scheduled

/-- A subscription finds every event of its job replayed or still to be broadcast; a
broadcast finds it replayed already, or every other event sent or queued before it older. -/
def Gapless (h : Hub) : HubStep → Prop
  | .stream i .subscribe => ∀ c, h.streams[i]? = some c → ∀ jobId, c.job = some jobId →
    ∀ row ∈ h.store.live.events, row.jobId = some jobId →
      row.id ∈ c.sent.map EventView.id ∨ row.id ∈ h.due.map EventView.id
  | .broadcast => ∀ v, h.scheduled.head? = some v → ∀ c ∈ h.streams, ∀ queue, c.queue = some queue →
    c.job.isSome = true → c.hears v = true → v.id ∈ c.sent.map EventView.id ∨
      ∀ u ∈ c.sent ++ queue, u.id < v.id
  | _ => True

/-- If nothing is left to broadcast and the subscriber's queue is empty, the stream of a
job has sent the ids of the job's events. -/
def Hub.Told (h : Hub) : Prop :=
  ∀ c ∈ h.streams, ∀ jobId, c.job = some jobId → c.queue = some [] →
    h.unscheduled = [] → h.scheduled = [] → ∀ id,
      id ∈ c.sent.map EventView.id ↔ ∃ row ∈ h.store.live.events, row.jobId = some jobId ∧ row.id = id

/-- Every event of the job is sent, queued or due, and what is queued and not sent
comes in order and after what was sent. -/
structure Stream.Complete (events : List EventRow) (due : List EventView) (jobId : JobId) (c : Stream)
    (queue : List EventView) : Prop where
  covered : ∀ row ∈ events, row.jobId = some jobId →
    row.id ∈ c.sent.map EventView.id ∨ row.id ∈ queue.map EventView.id ∨ row.id ∈ due.map EventView.id
  queued : queue.Pairwise fun a b => b.id ∈ c.sent.map EventView.id ∨ a.id < b.id
  ahead : ∀ v ∈ queue, v.id ∈ c.sent.map EventView.id ∨ c.lastId < v.id

def Hub.Complete (h : Hub) : Prop :=
  ∀ c ∈ h.streams, ∀ jobId queue, c.job = some jobId → c.queue = some queue →
    c.Complete h.store.live.events h.due jobId queue

/-- Where no event is added or broadcast, a stream stays complete. -/
theorem Stream.Complete.moved {c : Stream} {jobId : JobId} {queue due due' : List EventView}
    (complete : c.Complete events due jobId queue) (kept : ∀ v ∈ due, v ∈ due') :
    c.Complete events due' jobId queue := by
  refine ⟨fun row stored job => ?_, complete.queued, complete.ahead⟩
  rcases complete.covered row stored job with sent | held | later
  · exact .inl sent
  · exact .inr (.inl held)
  · obtain ⟨v, member, id⟩ := List.mem_map.mp later
    exact .inr (.inr (List.mem_map.mpr ⟨v, kept v member, id⟩))

theorem offer_roomy {queue : List EventView} (room : queue.length + 1 < queueMax) :
    offer queue v = queue ++ [v] := by
  have short : ¬queueMax ≤ queue.length := by omega
  simp only [offer, if_neg short]

/-- A queue that is offered the event of a due row takes it over. -/
theorem Stream.Complete.receive {c : Stream} {jobId : JobId} {queue rest : List EventView}
    (complete : c.Complete h.store.live.events h.due jobId queue) (kept : h.Kept)
    (stream : c.Kept h.store.live.events)
    (scheduled : h.scheduled = v :: rest) (later : v.id ∈ c.sent.map EventView.id ∨
      ∀ u ∈ c.sent ++ queue, u.id < v.id) :
    Stream.Complete h.store.live.events (h.unscheduled ++ rest) jobId
      { c with queue := some (queue ++ [v]) } (queue ++ [v]) := by
  refine ⟨fun row stored job => ?_, ?_, fun u member => ?_⟩
  · rcases complete.covered row stored job with sent | held | due
    · exact .inl sent
    · refine .inr (.inl ?_)
      rw [List.map_append]
      exact List.mem_append_left _ held
    · obtain ⟨u, member, id⟩ := List.mem_map.mp due
      rw [Hub.due, scheduled] at member
      rcases List.mem_append.mp member with first | second
      · exact .inr (.inr (List.mem_map.mpr ⟨u, List.mem_append_left _ first, id⟩))
      · rcases List.mem_cons.mp second with rfl | second
        · exact .inr (.inl (List.mem_map.mpr ⟨u, List.mem_append_right _ List.mem_cons_self, id⟩))
        · exact .inr (.inr (List.mem_map.mpr ⟨u, List.mem_append_right _ second, id⟩))
  · refine List.pairwise_append.mpr ⟨complete.queued, List.pairwise_singleton _ _, ?_⟩
    intro a old b new
    obtain rfl := List.mem_singleton.mp new
    exact later.imp_right fun newer => newer a (List.mem_append_right _ old)
  · rcases List.mem_append.mp member with old | new
    · exact complete.ahead u old
    · obtain rfl := List.mem_singleton.mp new
      refine later.imp_right fun newer => ?_
      rcases stream.last with zero | last
      · obtain ⟨row, stored, same⟩ := kept.pending u
          (List.mem_append_right _ (scheduled ▸ List.mem_cons_self))
        have positive := (kept.numbered.bounded row stored).1
        have id := same.id
        change c.lastId < u.id
        omega
      · obtain ⟨w, sent, id⟩ := List.mem_map.mp last
        exact id ▸ newer w (List.mem_append_left _ sent)

/-- The broadcast of an event of another job leaves a stream complete. -/
theorem Stream.Complete.passed {c : Stream} {jobId : JobId} {queue rest : List EventView}
    (complete : c.Complete h.store.live.events h.due jobId queue) (kept : h.Kept)
    (scheduled : h.scheduled = v :: rest) (other : v.jobId ≠ some jobId) :
    c.Complete h.store.live.events (h.unscheduled ++ rest) jobId queue := by
  refine ⟨fun row stored job => ?_, complete.queued, complete.ahead⟩
  rcases complete.covered row stored job with sent | held | due
  · exact .inl sent
  · exact .inr (.inl held)
  · obtain ⟨u, member, id⟩ := List.mem_map.mp due
    rw [Hub.due, scheduled] at member
    refine .inr (.inr (List.mem_map.mpr ⟨u, ?_, id⟩))
    rcases List.mem_append.mp member with first | second
    · exact List.mem_append_left _ first
    · rcases List.mem_cons.mp second with rfl | second
      · obtain ⟨row', stored', same⟩ := kept.pending u
          (List.mem_append_right _ (scheduled ▸ List.mem_cons_self))
        cases kept.numbered.same_row stored stored' (id.symm.trans same.id)
        exact False.elim (other (same.jobId.trans job))
      · exact List.mem_append_right _ second

/-- The oldest payload is handed over. -/
theorem Stream.Complete.relayed {c : Stream} {jobId : JobId} {queue rest due : List EventView}
    (complete : c.Complete events due jobId (v :: rest)) :
    (Stream.deliver { c with queue := queue } v).Complete events due jobId rest := by
  have grown {id : Nat} (sent : id ∈ c.sent.map EventView.id) :
      id ∈ (c.deliver v).sent.map EventView.id := by
    rw [Stream.deliver, List.map_append]
    exact List.mem_append_left _ sent
  obtain ⟨first, queued⟩ := List.pairwise_cons.mp complete.queued
  refine ⟨fun row stored job => ?_, queued.imp (Or.imp_left grown), fun u member => ?_⟩
  · rcases complete.covered row stored job with sent | held | due
    · exact .inl (grown sent)
    · rcases List.mem_cons.mp held with same | held
      · exact .inl (same ▸ deliver_last)
      · exact .inr (.inl held)
    · exact .inr (.inr due)
  · exact (first u member).imp_left grown

/-- The oldest payload was replayed already. -/
theorem Stream.Complete.skipped {c : Stream} {jobId : JobId} {queue rest due : List EventView}
    (complete : c.Complete events due jobId (v :: rest)) (seen : ¬c.lastId < v.id) :
    Stream.Complete events due jobId { c with queue := queue } rest := by
  have sent : v.id ∈ c.sent.map EventView.id :=
    (complete.ahead v List.mem_cons_self).resolve_right seen
  refine ⟨fun row stored job => ?_, (List.pairwise_cons.mp complete.queued).2,
    fun u member => complete.ahead u (List.mem_cons_of_mem _ member)⟩
  rcases complete.covered row stored job with sent | held | due
  · exact .inl sent
  · rcases List.mem_cons.mp held with same | held
    · exact .inl (same ▸ sent)
    · exact .inr (.inl held)
  · exact .inr (.inr due)

/-- A step of the stream itself. -/
theorem Stream.Complete.taken {c c' : Stream} {step : StreamStep} {jobId : JobId} {i : Nat}
    {queue : List EventView} (complete : h.Complete) (kept : c.Kept h.store.live.events)
    (numbered : Numbered h.store.live.events) (gapless : Gapless h (.stream i step)) (found : h.streams[i]? = some c)
    (stepped : c.take h.store step = some c') (job : c'.job = some jobId)
    (held : c'.queue = some queue) : c'.Complete h.store.live.events h.due jobId queue := by
  have member := List.mem_of_getElem? found
  obtain ⟨own, stage, lastId, q, sent⟩ := c
  cases step with
  | replay =>
    cases stage <;> try contradiction
    obtain ⟨rows, read, _⟩ := history_rows own numbered
    simp only [Stream.take, read] at stepped
    cases stepped
    exact nomatch (kept.waiting (.inl rfl)).symm.trans held
  | send =>
    cases stage <;> try contradiction
    rename_i rows
    cases rows <;> cases stepped
    exact nomatch (kept.waiting (.inr ⟨_, rfl⟩)).symm.trans held
  | subscribe =>
    cases stage <;> try contradiction
    rename_i rows
    cases rows <;> cases stepped
    cases held
    refine ⟨fun row stored mine => ?_, .nil, fun _ member => False.elim (List.not_mem_nil member)⟩
    rcases gapless _ found jobId job row stored mine with replayed | due
    · exact .inl replayed
    · exact .inr (.inr due)
  | get =>
    cases stage <;> try contradiction
    cases q with
    | none => contradiction
    | some q =>
      cases q with
      | nil => contradiction
      | cons payload rest =>
        simp only [Stream.take] at stepped
        cases stepped
        split at job
        · rename_i later
          rw [if_pos later] at held ⊢
          cases held
          exact (complete _ member jobId _ job rfl).relayed
        · rename_i seen
          rw [if_neg seen] at held ⊢
          cases held
          exact (complete _ member jobId _ job rfl).skipped seen
  | disconnect =>
    cases stage <;> cases stepped
    all_goals exact
      have before := complete _ member jobId queue job held
      ⟨before.covered, before.queued, before.ahead⟩
  | unsubscribe =>
    cases stage <;> cases stepped
    contradiction

theorem Hub.Complete.step (complete : h.Complete) (kept : h.Kept) (roomy : Roomy h l)
    (gapless : Gapless h l) (stepped : h.take l = some h') : h'.Complete := by
  replace stepped := Hub.take_act stepped
  cases l with
  | emit io ts event =>
    simp only [Hub.act, insertEvent_ok] at stepped
    cases stepped
    intro c member jobId queue job held
    have before := complete c member jobId queue job held
    refine ⟨fun row stored own => ?_, before.queued, before.ahead⟩
    rcases List.mem_append.mp stored with old | new
    · rcases before.covered row old own with sent | held | later
      · exact .inl sent
      · exact .inr (.inl held)
      · refine .inr (.inr ?_)
        obtain ⟨v, member, id⟩ := List.mem_map.mp later
        refine List.mem_map.mpr ⟨v, ?_, id⟩
        rcases List.mem_append.mp member with first | second
        · exact List.mem_append_left _ (List.mem_append_left _ first)
        · exact List.mem_append_right _ second
    · obtain rfl := List.mem_singleton.mp new
      refine .inr (.inr (List.mem_map.mpr ⟨eventPayload _ ts event, ?_, rfl⟩))
      exact List.mem_append_left _ (List.mem_append_right _ List.mem_cons_self)
  | schedule k =>
    simp only [Hub.act] at stepped
    split at stepped
    · rename_i payload found
      cases stepped
      intro c member jobId queue job held
      refine (complete c member jobId queue job held).moved fun v present => ?_
      rcases List.mem_append.mp present with first | second
      · obtain ⟨place, at_place⟩ := List.mem_iff_getElem?.mp first
        by_cases here : place = k
        · subst here
          cases found.symm.trans at_place
          exact List.mem_append_right _ (List.mem_append_right _ List.mem_cons_self)
        · exact List.mem_append_left _ (List.mem_eraseIdx_iff_getElem?.mpr ⟨place, here, at_place⟩)
      · exact List.mem_append_right _ (List.mem_append_left _ second)
    · contradiction
  | broadcast =>
    simp only [Hub.act] at stepped
    split at stepped
    · rename_i payload rest scheduled
      cases stepped
      intro c member jobId queue job held
      obtain ⟨before, present, rfl⟩ := List.mem_map.mp member
      unfold Stream.receive at job held ⊢
      split at held
      · rename_i heard
        rw [if_pos heard] at job ⊢
        obtain ⟨queue, subscribed, rfl⟩ := Option.map_eq_some_iff.mp held
        rw [subscribed, Option.map_some, offer_roomy (roomy before present queue subscribed)]
        have later := gapless payload (by rw [scheduled]; rfl) before present queue subscribed
          (by rw [job]; rfl) heard
        exact (complete before present jobId queue job subscribed).receive kept
          (kept.streams before present) scheduled later
      · rename_i unheard
        rw [if_neg unheard] at job ⊢
        refine (complete before present jobId queue job held).passed kept scheduled fun same => ?_
        exact unheard (by simp [Stream.hears, job, same])
    · contradiction
  | connect job =>
    cases stepped
    intro c member jobId queue own held
    rcases List.mem_append.mp member with old | new
    · exact (complete c old jobId queue own held).moved fun _ same => same
    · rw [List.mem_singleton.mp new] at held
      contradiction
  | stream i step =>
    simp only [Hub.act] at stepped
    split at stepped
    · rename_i c found
      obtain ⟨c', moved, rfl⟩ := Option.map_eq_some_iff.mp stepped
      intro other member jobId queue job held
      rcases List.mem_or_eq_of_mem_set member with old | rfl
      · exact (complete other old jobId queue job held).moved fun _ same => same
      · have taken := Stream.Complete.taken complete (kept.streams c (List.mem_of_getElem? found))
          kept.numbered gapless found moved job held
        exact taken.moved fun _ same => same
    · contradiction
  | restart =>
    cases stepped
    exact fun _ member => False.elim (List.not_mem_nil member)

theorem started_complete : Hub.started.Complete := fun _ member => False.elim (List.not_mem_nil member)

theorem streams_complete {h : Hub} (run : Hub.Reached (fun h l => Roomy h l ∧ Gapless h l) h) :
    h.Told := by
  intro c member jobId job subscribed unscheduled scheduled id
  have kept := reached_kept run
  have both := run.invariant (I := fun h => h.Kept ∧ h.Complete)
    (fun both allowed stepped => ⟨both.1.step stepped, both.2.step both.1 allowed.1 allowed.2 stepped⟩)
    ⟨started_kept, started_complete⟩
  constructor
  · intro sent
    obtain ⟨v, handed, rfl⟩ := List.mem_map.mp sent
    obtain ⟨⟨row, stored, same⟩, heard⟩ := (kept.streams c member).sent v handed
    rw [Stream.hears, job] at heard
    exact ⟨row, stored, same.jobId.symm.trans (of_decide_eq_true heard), same.id.symm⟩
  · rintro ⟨row, stored, own, rfl⟩
    rcases (both.2 c member jobId [] job subscribed).covered row stored own with sent | held | due
    · exact sent
    · exact False.elim (List.not_mem_nil held)
    · rw [Hub.due, unscheduled, scheduled] at due
      exact False.elim (List.not_mem_nil due)

instance (h : Hub) : (l : HubStep) → Decidable (Roomy h l)
  | .broadcast => decidable_of_iff (∀ c ∈ h.streams, ∀ queue ∈ c.queue.toList, queue.length + 1 < queueMax)
    ⟨fun each c member queue held => each c member queue (Option.mem_toList.mpr held),
      fun each c member queue held => each c member queue (Option.mem_toList.mp held)⟩
  | .emit _ _ _ | .schedule _ | .connect _ | .stream _ _ | .restart => isTrue trivial

instance (h : Hub) : (l : HubStep) → Decidable (Gapless h l)
  | .stream i .subscribe => decidable_of_iff (∀ c ∈ (h.streams[i]?).toList, ∀ jobId ∈ c.job.toList,
      ∀ row ∈ h.store.live.events, row.jobId = some jobId →
        row.id ∈ c.sent.map EventView.id ∨ row.id ∈ h.due.map EventView.id)
    ⟨fun each c found jobId job => each c (Option.mem_toList.mpr found) jobId (Option.mem_toList.mpr job),
      fun each c found jobId job => each c (Option.mem_toList.mp found) jobId (Option.mem_toList.mp job)⟩
  | .broadcast => decidable_of_iff (∀ v ∈ h.scheduled.head?.toList, ∀ c ∈ h.streams,
      ∀ queue ∈ c.queue.toList, c.job.isSome = true → c.hears v = true →
        v.id ∈ c.sent.map EventView.id ∨ ∀ u ∈ c.sent ++ queue, u.id < v.id)
    ⟨fun each v head c member queue held =>
        each v (Option.mem_toList.mpr head) c member queue (Option.mem_toList.mpr held),
      fun each v head c member queue held =>
        each v (Option.mem_toList.mp head) c member queue (Option.mem_toList.mp held)⟩
  | .stream _ .replay | .stream _ .send | .stream _ .get | .stream _ .disconnect
  | .stream _ .unsubscribe | .emit _ _ _ | .schedule _ | .connect _ | .restart => isTrue trivial

theorem streams_complete_relayed : ∃ h c, Hub.Reached (fun h l => Roomy h l ∧ Gapless h l) h ∧
    c ∈ h.streams ∧ h.store.live.events.length = 3 ∧ ∀ id, id ∈ c.sent.map EventView.id ↔
      ∃ row ∈ h.store.live.events, row.jobId = some "job_0" ∧ row.id = id := by
  have taken : (takes Hub.take (fun h l => Roomy h l ∧ Gapless h l) relayedSteps Hub.started).any
      (fun h => decide (h.store.live.events.length = 3) && (h.unscheduled.isEmpty &&
        (h.scheduled.isEmpty && h.streams.any fun c => decide (c.job = some "job_0") &&
          c.queue.any fun queue => queue.isEmpty))) = true := by decide +kernel
  obtain ⟨h, run, facts⟩ := takes_any taken
  clear taken
  obtain ⟨count, facts⟩ := Bool.and_eq_true_iff.mp facts
  obtain ⟨unscheduled, facts⟩ := Bool.and_eq_true_iff.mp facts
  obtain ⟨scheduled, facts⟩ := Bool.and_eq_true_iff.mp facts
  obtain ⟨c, member, facts⟩ := List.any_eq_true.mp facts
  obtain ⟨job, facts⟩ := Bool.and_eq_true_iff.mp facts
  obtain ⟨queue, held, empty⟩ := (Option.any_eq_true _ _).mp facts
  rw [List.isEmpty_iff.mp empty] at held
  exact ⟨h, c, run, member, of_decide_eq_true count, streams_complete run c member "job_0"
    (of_decide_eq_true job) held (List.isEmpty_iff.mp unscheduled) (List.isEmpty_iff.mp scheduled)⟩

/-- An event is persisted and broadcast while the last row that the stream has read is
being sent. -/
def missedSteps : List HubStep :=
  [.emit { now := 1 } 1 { level := .info, type := "job_submitted", jobId := some "job_0" },
    .schedule 0, .broadcast, .connect (some "job_0"), .stream 0 .replay,
    .emit { now := 2 } 2 { level := .info, type := "task_leased", jobId := some "job_0" },
    .schedule 0, .broadcast, .stream 0 .send, .stream 0 .subscribe]

theorem event_missed : ¬∀ h, Hub.Reached Roomy h → h.Told := by
  intro complete
  have taken : (takes Hub.take Roomy missedSteps Hub.started).any (fun h =>
      h.unscheduled.isEmpty && (h.scheduled.isEmpty &&
        (h.store.live.events.any (fun row => decide (row.jobId = some "job_0" ∧ row.id = 2)) &&
          h.streams.any fun c => decide (c.job = some "job_0") &&
            (decide (c.sent.map EventView.id = [1]) && c.queue.any fun queue => queue.isEmpty)))) = true := by
    decide +kernel
  obtain ⟨h, run, facts⟩ := takes_any taken
  clear taken
  obtain ⟨unscheduled, facts⟩ := Bool.and_eq_true_iff.mp facts
  obtain ⟨scheduled, facts⟩ := Bool.and_eq_true_iff.mp facts
  obtain ⟨stored, facts⟩ := Bool.and_eq_true_iff.mp facts
  obtain ⟨row, stored, own⟩ := List.any_eq_true.mp stored
  obtain ⟨c, member, facts⟩ := List.any_eq_true.mp facts
  obtain ⟨job, facts⟩ := Bool.and_eq_true_iff.mp facts
  obtain ⟨sent, facts⟩ := Bool.and_eq_true_iff.mp facts
  obtain ⟨queue, held, empty⟩ := (Option.any_eq_true _ _).mp facts
  rw [List.isEmpty_iff.mp empty] at held
  have all := (complete h run c member "job_0" (of_decide_eq_true job) held
    (List.isEmpty_iff.mp unscheduled) (List.isEmpty_iff.mp scheduled) 2).mpr
      ⟨row, stored, of_decide_eq_true own⟩
  rw [of_decide_eq_true sent] at all
  contradiction

end N4Cluster
