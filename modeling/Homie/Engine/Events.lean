/-
The event bus: `homie-engine/src/events.rs`.

`publish` stamps an event, archives it in the replay ring and collects the subscriber
queues under the bus lock, and pushes into the queues after it has released it.  Every
queue is bounded: a push into a full queue evicts the oldest entry and remembers the
hole, and the first push that finds room again sends a marker first.

`BusSystem` is the bus with its subscribers and the publish calls under way; its steps
are the critical sections of the code, so a list of steps is one interleaving.  The
JSON text of a payload is third-party code and enters as `JsonCodec`.
-/
import Mathlib
import Homie.Lib.Trace

namespace Homie.Events

/-- `serde_json::Value`; a float is its bits. -/
inductive JsonValue where
  | null
  | bool (value : Bool)
  | integer (value : Int)
  | float (bits : UInt64)
  | string (value : String)
  | array (items : List JsonValue)
  | object (fields : List (String × JsonValue))

/-- `serde_json::to_vec` and `from_slice`. -/
structure JsonCodec where
  toVec : JsonValue → Option (List UInt8)
  fromSlice : List UInt8 → Option JsonValue

/-- `serde_json` on the empty object. -/
def emptyObjectJson : JsonCodec where
  toVec _ := some [0x7b, 0x7d]
  fromSlice _ := some (.object [])

/-- The name of the synthetic hole marker. -/
def eventsDropped : String := "events.dropped"

structure Event where
  name : String
  seq : Nat
  sessionId : Option String
  params : JsonValue

/-- The marker for `dropped` events numbered `fromSeq` to `toSeq`; its own number is zero. -/
def Event.marker (dropped fromSeq toSeq : Nat) : Event :=
  { name := eventsDropped
    seq := 0
    sessionId := none
    params := .object [("dropped", .integer dropped), ("fromSeq", .integer fromSeq),
      ("toSeq", .integer toSeq)] }

/-! ### Filters -/

structure Filter where
  sessions : Option (Finset String)
  kinds : Option (Finset String)

namespace Filter

def all : Filter := ⟨none, none⟩

/-- An empty list is no restriction. -/
def normalize (list : Option (List String)) : Option (Finset String) :=
  (list.map List.toFinset).filter fun set => set ≠ ∅

def new (sessions kinds : Option (List String)) : Filter :=
  ⟨normalize sessions, normalize kinds⟩

def admitsKind (filter : Filter) (name : String) : Bool :=
  match filter.kinds with
  | some kinds => name ∈ kinds
  | none => true

def admitsSession (filter : Filter) (sessionId : Option String) : Bool :=
  match filter.sessions, sessionId with
  | none, _ => true
  | some sessions, some id => id ∈ sessions
  | some _, none => false

/-- A filter never hides the drop marker. -/
def admits (filter : Filter) (event : Event) : Bool :=
  event.name == eventsDropped || filter.admitsKind event.name && filter.admitsSession event.sessionId

end Filter

/-! ### The replay ring -/

/-- A replay entry, with its payload encoded. -/
structure Archived where
  name : String
  seq : Nat
  sessionId : Option String
  params : List UInt8

namespace Archived

def storageBytes (archived : Archived) : Nat :=
  archived.name.utf8ByteSize + archived.params.length + 16

def event (json : JsonCodec) (archived : Archived) : Event :=
  { name := archived.name
    seq := archived.seq
    sessionId := archived.sessionId
    params := (json.fromSlice archived.params).getD .null }

end Archived

/-! ### One subscriber's queue -/

structure QueueState where
  queue : List Event
  filter : Filter
  capacity : Nat
  dropped : Nat
  firstDroppedSeq : Nat
  lastDroppedSeq : Nat
  closed : Bool

namespace QueueState

def new (filter : Filter) (capacity : Nat) : QueueState :=
  ⟨[], filter, capacity, 0, 0, 0, false⟩

/-- Whether a push has any effect. -/
def takes (state : QueueState) (event : Event) : Bool :=
  !state.closed && state.filter.admits event

/-- Evict the oldest entry of a full queue, or announce the hole before a queue with room. -/
def makeRoom (state : QueueState) : QueueState :=
  if state.queue.length ≥ state.capacity then
    match state.queue with
    | [] => state
    | evicted :: rest =>
      { state with
        queue := rest
        firstDroppedSeq := if state.dropped = 0 then evicted.seq else state.firstDroppedSeq
        lastDroppedSeq := evicted.seq
        dropped := state.dropped + 1 }
  else if state.dropped > 0 then
    { state with
      queue := state.queue ++
        [Event.marker state.dropped state.firstDroppedSeq state.lastDroppedSeq]
      dropped := 0 }
  else state

/-- Enqueue without ever blocking the publisher. -/
def push (state : QueueState) (event : Event) : QueueState :=
  if state.takes event then
    { state.makeRoom with queue := state.makeRoom.queue ++ [event] }
  else state

/-- An event already queued, without waiting. -/
def tryRecv (state : QueueState) : Option Event × QueueState :=
  match state.queue with
  | [] => (none, state)
  | event :: rest => (some event, { state with queue := rest })

end QueueState

/-! ### The bus -/

structure BusInner where
  nextSeq : Nat
  ring : List Archived
  ringBytes : Nat
  /-- The registered subscribers, by number; their queues are in the system. -/
  subscribers : List Nat
  nextSubscriber : Nat

structure EventBus where
  ringCapacity : Nat
  ringByteCapacity : Nat
  subscriberCapacity : Nat

namespace EventBus

def withCapacities (ringCapacity ringByteCapacity : Nat) (subscriberCapacity : Option Nat) :
    EventBus :=
  ⟨ringCapacity, ringByteCapacity, max (subscriberCapacity.getD (max ringCapacity 1 * 2)) 1⟩

/-- The `while` loop that pops the oldest entries until the ring fits its bounds. -/
def trimRing (bus : EventBus) : List Archived → Nat → List Archived × Nat
  | [], bytes => ([], bytes)
  | oldest :: rest, bytes =>
    if rest.length + 1 > bus.ringCapacity ∨ bytes > bus.ringByteCapacity then
      bus.trimRing rest (bytes - oldest.storageBytes)
    else (oldest :: rest, bytes)

/-- Archive an event, if there is a ring and its payload encodes. -/
def archive (bus : EventBus) (json : JsonCodec) (inner : BusInner) (event : Event) : BusInner :=
  if bus.ringCapacity > 0 ∧ bus.ringByteCapacity > 0 then
    match json.toVec event.params with
    | none => inner
    | some encoded =>
      let archived : Archived := ⟨event.name, event.seq, event.sessionId, encoded⟩
      let (ring, bytes) :=
        bus.trimRing (inner.ring ++ [archived]) (inner.ringBytes + archived.storageBytes)
      { inner with ring := ring, ringBytes := bytes }
  else inner

/-- The critical section of `publish`: the stamped event and the bus that archived it. -/
def stamp (bus : EventBus) (json : JsonCodec) (inner : BusInner) (name : String)
    (params : JsonValue) (sessionId : Option String) : Event × BusInner :=
  let event : Event := ⟨name, inner.nextSeq, sessionId, params⟩
  (event, bus.archive json { inner with nextSeq := inner.nextSeq + 1 } event)

/-- What `subscribe(since)` replays: the ring's events after `since`. -/
def replay (json : JsonCodec) (inner : BusInner) (sinceSeq : Option Nat) : List Event :=
  match sinceSeq with
  | none => []
  | some since => (inner.ring.filter fun archived => archived.seq > since).map (Archived.event json)

end EventBus

/-! ### The bus, its subscribers and its publishers -/

/-- A subscription: the queue shared with the bus, and what its stream has received. -/
structure Stream where
  state : QueueState
  received : List Event

/-- A `publish` call past its critical section, with the queues it still has to push into. -/
structure Publisher where
  event : Event
  remaining : List Nat

structure BusSystem where
  bus : EventBus
  inner : BusInner
  streams : Nat → Option Stream
  /-- Every `publish` call, in the order of their stamps. -/
  published : List Publisher

/-- A critical section of some thread. -/
inductive BusStep where
  /-- `publish` stamps, archives and collects the queues. -/
  | stamp (name : String) (params : JsonValue) (sessionId : Option String)
  /-- A `publish` call pushes into one of the queues it collected. -/
  | push (publisher subscriber : Nat)
  | subscribe (sinceSeq : Option Nat) (filter : Filter)
  | tryRecv (subscriber : Nat)
  /-- Dropping a stream closes its queue, and then takes it off the bus. -/
  | close (subscriber : Nat)
  | unsubscribe (subscriber : Nat)

namespace Stream

def push (stream : Stream) (event : Event) : Stream :=
  { stream with state := stream.state.push event }

/-- A receiver that has dropped its stream does not receive. -/
def tryRecv (stream : Stream) : Stream :=
  if stream.state.closed then stream
  else
    { state := stream.state.tryRecv.2
      received := stream.received ++ stream.state.tryRecv.1.toList }

def close (stream : Stream) : Stream :=
  { stream with state := { stream.state with closed := true } }

end Stream

namespace BusSystem

def new (bus : EventBus) : BusSystem :=
  { bus := bus
    inner := ⟨1, [], 0, [], 0⟩
    streams := fun _ => none
    published := [] }

def updateStream (sys : BusSystem) (id : Nat) (f : Stream → Stream) : BusSystem :=
  { sys with streams := Function.update sys.streams id ((sys.streams id).map f) }

/-- The stamping section of `publish`. -/
def stamp (json : JsonCodec) (sys : BusSystem) (name : String) (params : JsonValue)
    (sessionId : Option String) : BusSystem :=
  let (event, inner) := sys.bus.stamp json sys.inner name params sessionId
  { sys with
    inner := inner
    published := sys.published ++ [⟨event, inner.subscribers⟩] }

/-- One push of a `publish` call, if it still has that queue to push into. -/
def push (sys : BusSystem) (publisher id : Nat) : BusSystem :=
  match sys.published[publisher]? with
  | none => sys
  | some p =>
    if id ∈ p.remaining then
      { sys.updateStream id (·.push p.event) with
        published := sys.published.set publisher { p with remaining := p.remaining.erase id } }
    else sys

/-- `subscribe`, replay included: all of it runs under the bus lock. -/
def subscribe (json : JsonCodec) (sys : BusSystem) (sinceSeq : Option Nat) (filter : Filter) :
    BusSystem :=
  let state := (EventBus.replay json sys.inner sinceSeq).foldl QueueState.push
    (QueueState.new filter sys.bus.subscriberCapacity)
  { sys with
    inner :=
      { sys.inner with
        subscribers := sys.inner.subscribers ++ [sys.inner.nextSubscriber]
        nextSubscriber := sys.inner.nextSubscriber + 1 }
    streams := Function.update sys.streams sys.inner.nextSubscriber (some ⟨state, []⟩) }

/-- Only a closed stream is taken off the bus. -/
def unsubscribe (sys : BusSystem) (id : Nat) : BusSystem :=
  if (sys.streams id).any (·.state.closed) then
    { sys with inner := { sys.inner with subscribers := sys.inner.subscribers.erase id } }
  else sys

def step (json : JsonCodec) (sys : BusSystem) : BusStep → BusSystem × Unit
  | .stamp name params sessionId => (sys.stamp json name params sessionId, ())
  | .push publisher id => (sys.push publisher id, ())
  | .subscribe sinceSeq filter => (sys.subscribe json sinceSeq filter, ())
  | .tryRecv id => (sys.updateStream id Stream.tryRecv, ())
  | .close id => (sys.updateStream id Stream.close, ())
  | .unsubscribe id => (sys.unsubscribe id, ())

/-- `publish` run to its end: the stamp, and then every push. -/
def publish (json : JsonCodec) (sys : BusSystem) (name : String) (params : JsonValue)
    (sessionId : Option String) : BusSystem :=
  let stamped := sys.stamp json name params sessionId
  stamped.inner.subscribers.foldl (fun sys id => sys.push (sys.published.length - 1) id) stamped

/-- The state after the steps `steps` of a new bus. -/
def after (json : JsonCodec) (bus : EventBus) (steps : List BusStep) : BusSystem :=
  Trace.run (step json) (new bus) steps

/-- A call of the bus interface run to its end. -/
inductive Call where
  | publish (name : String) (params : JsonValue) (sessionId : Option String)
  | subscribe (sinceSeq : Option Nat) (filter : Filter)
  | tryRecv (subscriber : Nat)
  | dropStream (subscriber : Nat)

/-- One call, with no other under way. -/
def call (json : JsonCodec) (sys : BusSystem) : Call → BusSystem × Unit
  | .publish name params sessionId => (sys.publish json name params sessionId, ())
  | .subscribe sinceSeq filter => (sys.subscribe json sinceSeq filter, ())
  | .tryRecv id => (sys.updateStream id Stream.tryRecv, ())
  | .dropStream id => ((sys.updateStream id Stream.close).unsubscribe id, ())

end BusSystem

end Homie.Events
