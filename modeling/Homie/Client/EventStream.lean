/-
Reading lines of the control socket: the reader task of `homie-client/src/connection.rs`.

The reader takes what is buffered up to the next line feed.  A line that grows over the limit
is an error that ends the connection.
-/
import Homie.Engine.Events
import Homie.Proto.Control

namespace Homie.Client

/-- How a line was read; what is left in the buffer and what comes after it. -/
inductive LineRead where
  | line (bytes : List UInt8) (rest : List (List UInt8))
  | failed (message : String)
deriving DecidableEq

/-- The inner loop of the reader; the list holds what `fill_buf` returns, turn by turn. -/
def readLine (line : List UInt8) : List (List UInt8) → LineRead
  | [] => .failed "daemon closed the control connection"
  | available :: more =>
    if available = [] then .failed "daemon closed the control connection"
    else
      let newline := available.findIdx? (· == 0x0a)
      let consumed := (newline.map (· + 1)).getD available.length
      let payloadLen := newline.getD available.length
      if line.length + payloadLen > maxControlLineBytes then
        .failed "control line exceeds 4194304 bytes"
      else
        let line := line ++ available.take payloadLen
        if newline.isSome then .line line (available.drop consumed :: more)
        else readLine line more

end Homie.Client

/-! ### The client's event stream across reconnects: `subscribe_to_events`, `route_message` and
`run_lifecycle` of `homie-client/src/client.rs`, with `events_subscribe` of `homie-
engine/src/control.rs` at the other end of the socket

The client asks for the kinds of `EVENT_KINDS` and, when it has seen an event before, for
everything after the largest number it has routed.  The daemon subscribes the connection to
the bus, starts a thread that forwards from the queue to the socket, and answers; the
thread may write events before the answer is written.

`EventStream` is the bus, the client and the connection between them.  Opening a connection
and `hello` carry no events, so a reconnect is the moment the daemon handles the new
subscription.  A dropped connection takes what is in its socket with it, and its reader
routes nothing more.
-/

namespace Homie.Client

open Homie.Events Trace

/-- `EVENT_KINDS`: the kinds the client asks for. -/
def eventKinds : List String :=
  ["session.updated", "session.resources", "session.removed", "project.updated"]

/-- The filter the daemon makes of the client's request. -/
def eventFilter : Filter := Filter.new none (some eventKinds)

/-- An event as the client hands it on. -/
structure EventEnvelope where
  name : String
  seq : Nat
  params : JsonValue

/-- What the daemon writes to the connection: an event, or the answer to the subscription. -/
inductive ControlMessage where
  | event (name : String) (seq : Nat) (params : JsonValue)
  | subscribed

/-- The frame the forwarder thread makes of an event. -/
def eventFrame (event : Event) : ControlMessage :=
  .event event.name event.seq event.params

/-- A connection on which the daemon has handled the subscription. -/
structure EventConnection where
  /-- The subscription, until the daemon ends it. -/
  subscription : Option Nat
  /-- The number the next event had when it was made. -/
  startSeq : Nat
  /-- An event the forwarder has received and not yet written. -/
  taken : Option Event
  answered : Bool
  /-- Written and not yet read, oldest first. -/
  socket : List ControlMessage

structure EventStream where
  bus : BusSystem
  lastSeq : Nat
  /-- Everything sent to `event_tx`. -/
  routed : List EventEnvelope
  /-- Where the first acknowledged subscription started. -/
  firstSeq : Option Nat
  connection : Option EventConnection

inductive StreamStep where
  /-- A step of a publisher or of another subscriber, or of the clean-up of an old stream. -/
  | bus (step : BusStep)
  /-- The daemon handles the subscription of a new connection. -/
  | subscribe
  /-- The forwarder thread receives, and writes what it has received. -/
  | receive
  | write
  | answer
  /-- The client reads one message. -/
  | route
  /-- The daemon gives the connection up; what it has written can still be read. -/
  | hangUp
  /-- The client drops the connection. -/
  | drop

namespace EventStream

def new (bus : EventBus) : EventStream :=
  { bus := BusSystem.new bus
    lastSeq := 0
    routed := []
    firstSeq := none
    connection := none }

/-- The resume point of a request; zero is sent as none. -/
def sinceSeq (sys : EventStream) : Option Nat :=
  if sys.lastSeq ≠ 0 then some sys.lastSeq else none

/-- The subscription the connection is served from. -/
def subscription (sys : EventStream) : Option Nat :=
  sys.connection.bind EventConnection.subscription

/-- Whether a step of the bus belongs to the connection's own forwarder thread. -/
def ownStep (sys : EventStream) : BusStep → Bool
  | .tryRecv id => sys.subscription = some id
  | .close id => sys.subscription = some id
  | _ => false

/-- `events_subscribe` on the daemon, with the parameters of `subscribe_to_events`. -/
def subscribe (json : JsonCodec) (sys : EventStream) : EventStream :=
  { sys with
    bus := sys.bus.subscribe json sys.sinceSeq eventFilter
    connection := some
      { subscription := some sys.bus.inner.nextSubscriber
        startSeq := sys.bus.inner.nextSeq
        taken := none
        answered := false
        socket := [] } }

/-- The event at the front of the connection's queue. -/
def front (sys : EventStream) (id : Nat) : Option Event :=
  (sys.bus.streams id).bind fun stream => stream.state.tryRecv.1

/-- `route_message`. -/
def routeMessage (sys : EventStream) (startSeq : Nat) : ControlMessage → EventStream
  | .event name seq params =>
    { sys with
      lastSeq := max sys.lastSeq seq
      routed := sys.routed ++ [⟨name, seq, params⟩] }
  | .subscribed => { sys with firstSeq := sys.firstSeq.or (some startSeq) }

/-- A step of the connection. -/
def connectionStep (json : JsonCodec) (sys : EventStream) (connection : EventConnection) :
    StreamStep → EventStream
  | .bus step => if sys.ownStep step then sys else { sys with bus := (sys.bus.step json step).1 }
  | .subscribe => sys
  | .receive =>
    match connection.subscription, connection.taken with
    | some id, none =>
      { sys with
        bus := sys.bus.updateStream id Stream.tryRecv
        connection := some { connection with taken := sys.front id } }
    | _, _ => sys
  | .write =>
    match connection.subscription, connection.taken with
    | some _, some event =>
      { sys with
        connection := some
          { connection with
            taken := none
            socket := connection.socket ++ [eventFrame event] } }
    | _, _ => sys
  | .answer =>
    if connection.answered ∨ connection.subscription = none then sys
    else
      { sys with
        connection := some
          { connection with
            answered := true
            socket := connection.socket ++ [.subscribed] } }
  | .route =>
    match connection.socket with
    | [] => sys
    | message :: rest =>
      routeMessage { sys with connection := some { connection with socket := rest } }
        connection.startSeq message
  | .hangUp =>
    match connection.subscription with
    | some id =>
      { sys with
        bus := sys.bus.updateStream id Stream.close
        connection := some { connection with subscription := none, taken := none } }
    | none => sys
  | .drop => { sys with connection := none }

def step (json : JsonCodec) (sys : EventStream) (event : StreamStep) : EventStream × Unit :=
  match sys.connection, event with
  | some connection, event => (sys.connectionStep json connection event, ())
  | none, .bus step => ({ sys with bus := (sys.bus.step json step).1 }, ())
  | none, .subscribe => (sys.subscribe json, ())
  | none, _ => (sys, ())

/-- The state after the steps `steps` of a new bus and a new client. -/
def after (json : JsonCodec) (bus : EventBus) (steps : List StreamStep) : EventStream :=
  run (step json) (new bus) steps

end EventStream

end Homie.Client
