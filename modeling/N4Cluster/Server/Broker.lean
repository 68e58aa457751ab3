import N4Cluster.Base.Runs
import N4Cluster.Server.Operations

/-! `EventBroker` and the two event streams. An emit persists its event in the
thread of a handler and then schedules the broadcast, which runs on the event
loop in the order of scheduling; a stream replays stored events and then relays
what its subscription receives. -/
namespace N4Cluster
open Transactional Interleave

structure EventView where
  id : Nat
  jobId : Option JobId
  taskId : Option TaskId
  workerId : Option WorkerId
  ts : Time
  level : EventLevel
  type : String
  message : String

/-- The rows of `list_events`. -/
def Db.eventsOf (db : Db) (jobId : JobId) (afterId limit : Nat) : List EventRow :=
  ((db.events.filter fun r => r.jobId = some jobId && afterId < r.id).insertionSort fun a b => a.id ≤ b.id).take limit

def listEvents (jobId : JobId) (afterId : Nat := 0) (limit : Nat := 500) : Sql (List EventRow) := do
  return (← Txn.live).eventsOf jobId afterId limit

def listRecentEvents (limit : Nat := 200) : Sql (List EventRow) := do
  let rows := (← Txn.live).events.insertionSort fun a b => b.id ≤ a.id
  return (rows.take limit).reverse

/-- `_event_view`. -/
def eventView (row : EventRow) : EventView :=
  ⟨row.id, row.jobId, row.taskId, row.workerId, row.ts, row.level, row.type, row.message⟩

/-- The payload `emit` broadcasts; `ts` is a second reading of the clock. -/
def eventPayload (id : Nat) (ts : Time) (e : NewEvent) : EventView :=
  ⟨id, e.jobId, e.taskId, e.workerId, ts, e.level, e.type, e.message⟩

/-- `_QUEUE_MAX`. -/
def queueMax : Nat := 1000

/-- What `_broadcast` does to one queue: the oldest payload makes room. -/
def offer (queue : List EventView) (payload : EventView) : List EventView :=
  let queue := if queueMax ≤ queue.length then queue.tail else queue
  if queueMax ≤ queue.length then queue else queue ++ [payload]

/-- Where a stream handler is: before the replay, sending the rows it has read,
relaying its queue, past an exception, or done. -/
inductive Stage where
  | accepted
  | replaying (rows : List EventRow)
  | live
  | leaving
  | closed

/-- One connection: `stream_events` of a job, or `stream_all_events`. What goes on
while a payload is being sent cannot tell that from what comes after it. -/
structure Stream where
  job : Option JobId
  stage : Stage := .accepted
  lastId : Nat := 0
  queue : Option (List EventView) := none
  sent : List EventView := []

inductive StreamStep where
  | replay
  | send
  | subscribe
  | get
  | disconnect
  | unsubscribe

/-- The rows a stream replays. -/
def Stream.history (job : Option JobId) : Sql (List EventRow) :=
  match job with
  | some jobId => listEvents jobId
  | none => listRecentEvents

/-- Hands a payload to the websocket. -/
def Stream.deliver (c : Stream) (payload : EventView) : Stream :=
  { c with sent := c.sent ++ [payload], lastId := payload.id }

def Stream.take (c : Stream) (s : Session Db) : StreamStep → Option Stream
  | .replay =>
    match c.stage, (Stream.history c.job s).1 with
    | .accepted, .ok rows => some { c with stage := .replaying rows }
    | _, _ => none
  | .send =>
    match c.stage with
    | .replaying (row :: rest) => some { c.deliver (eventView row) with stage := .replaying rest }
    | _ => none
  | .subscribe =>
    match c.stage with
    | .replaying [] => some { c with stage := .live, queue := some [] }
    | _ => none
  | .get =>
    match c.stage, c.queue with
    | .live, some (payload :: rest) =>
      let c := { c with queue := some rest }
      some (if c.lastId < payload.id then c.deliver payload else c)
    | _, _ => none
  | .disconnect =>
    match c.stage with
    | .live => some { c with stage := .leaving }
    | .accepted | .replaying _ => some { c with stage := .closed }
    | _ => none
  | .unsubscribe =>
    match c.stage with
    | .leaving => some { c with stage := .closed, queue := none }
    | _ => none

/-- Whether `_broadcast` looks up the stream's queue for the payload. -/
def Stream.hears (c : Stream) (payload : EventView) : Bool :=
  match c.job with
  | some jobId => payload.jobId = some jobId
  | none => true

/-- `_broadcast`, seen from one stream. -/
def Stream.receive (payload : EventView) (c : Stream) : Stream :=
  if c.hears payload then { c with queue := c.queue.map fun queue => offer queue payload } else c

/-- The store, the emits that have yet to schedule their broadcast, the broadcasts
scheduled on the loop, and the connections. -/
structure Hub where
  store : Session Db
  unscheduled : List EventView := []
  scheduled : List EventView := []
  streams : List Stream := []

inductive HubStep where
  | emit (io : Io) (ts : Time) (event : NewEvent)
  | schedule (emitter : Nat)
  | broadcast
  | connect (job : Option JobId)
  | stream (connection : Nat) (step : StreamStep)
  | restart

/-- What a step does. An emit whose event the driver refuses does nothing, and is none. -/
def Hub.act (h : Hub) : HubStep → Option Hub
  | .emit io ts event =>
    match insertEvent io event h.store with
    | (.ok id, store) =>
      some { h with store := store, unscheduled := h.unscheduled ++ [eventPayload id ts event] }
    | (.error _, _) => none
  | .schedule k =>
    match h.unscheduled[k]? with
    | some payload =>
      some { h with unscheduled := h.unscheduled.eraseIdx k, scheduled := h.scheduled ++ [payload] }
    | none => none
  | .broadcast =>
    match h.scheduled with
    | payload :: rest =>
      some { h with scheduled := rest, streams := h.streams.map (Stream.receive payload) }
    | [] => none
  | .connect job => some { h with streams := h.streams ++ [{ job := job }] }
  | .stream i step =>
    match h.streams[i]? with
    | some c => (c.take h.store step).map fun c => { h with streams := h.streams.set i c }
    | none => none
  | .restart => some { store := .settled h.store.disk }

/-- Past its last row a stream subscribes before it gives up the loop. -/
def Stream.subscribing (c : Stream) : Bool :=
  match c.stage with
  | .replaying [] => true
  | _ => false

/-- Whether the step takes a turn of the loop. Emits and what they schedule come from the
threads of handlers, and a stream that subscribes has the loop already. -/
def HubStep.awaits : HubStep → Bool
  | .broadcast | .connect _ => true
  | .stream _ .subscribe => false
  | .stream _ _ => true
  | .emit _ _ _ | .schedule _ | .restart => false

def Hub.take (h : Hub) (l : HubStep) : Option Hub :=
  if l.awaits && h.streams.any Stream.subscribing then none else h.act l

/-- The broker of a server started on an empty store. -/
def Hub.started : Hub := { store := .settled {} }

end N4Cluster
