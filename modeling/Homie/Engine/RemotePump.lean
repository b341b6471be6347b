/-
The engine's side of a remote session: `homie-engine/src/session/remote.rs` and the part
of `homie-engine/src/remote/client.rs` it calls.

`pump_remote` follows one Holder through any number of connections.  On each it says
`Hello` with the output offset it has reached, and then handles the messages of the
connection one by one; what a message asks for next is its disposition.  Everything a
connection starts with is in its `Link`, so that the variables of one connection cannot
outlive it.

The status reducer and the evaluation of the screen are in `Engine.Status`; here a message
changes the terminal state only.  `let _ = log.append(bytes)` drops the result, so the log
is what was handed to it.

`RemoteSystem` is an engine and a Holder.  The engine dials the Holder, and the first thing
the Holder reads on that connection is the engine's `Hello`; every other client of the
Holder does what it likes.  The engine takes the messages of its socket in order, as late
as it likes, and a connection can be lost at any time.
-/
import Homie.Engine.SessionScreen
import Homie.Remote.Holder

namespace Homie.Remote

/-! ### The client -/

/-- What a `RemoteSessionClient` is built with. -/
structure RemoteClient where
  sessionId : String
  token : SessionToken
  incarnation : String
  /-- `helper.build_id`. -/
  buildId : String
  /-- `engine-` and the package version. -/
  localBuildId : String

/-- `REQUIRED_CAPABILITIES`. -/
def requiredCapabilities : List RemoteCapability := phaseOneCapabilities

namespace RemoteClient

/-- The `Hello` of `connect`. -/
def hello (client : RemoteClient) (nonce : String) (outputOffset : Nat)
    (gridSequence : Option UInt64) : Hello :=
  { protocol := ProtocolVersion.current
    localBuildId := client.localBuildId
    sessionId := client.sessionId
    sessionToken := client.token
    expectedIncarnation := some client.incarnation
    requestedRole := .controller
    clientNonce := nonce
    requiredCapabilities := Remote.requiredCapabilities
    lastAcknowledgedOutputOffset := some (UInt64.ofNat outputOffset)
    lastAcknowledgedGridSequence := gridSequence }

def validateHello (client : RemoteClient) (debug : String → String) (ack : HelloAck) : IoResult :=
  match ack.validate with
  | .error e => .error ⟨.other, codecErrorText debug e⟩
  | .ok () =>
    if ack.protocol.major ≠ ProtocolVersion.current.major ∨
        ack.holderBuildId ≠ client.buildId ∨ ack.sessionIncarnation ≠ client.incarnation then
      .error ⟨.invalidData, "remote HelloAck identity, build, or protocol does not match"⟩
    else if requiredCapabilities.any (!ack.capabilities.contains ·) then
      .error ⟨.unsupported, "remote Holder is missing a required capability"⟩
    else .ok ()

end RemoteClient

/-! ### The pump -/

/-- One connection of the pump. -/
structure Link where
  /-- The connection at the Holder. -/
  id : Nat
  hello : Hello
  /-- How many messages of the socket have been handled. -/
  read : Nat
  /-- The writer's `controller_epoch`. -/
  controllerEpoch : Option UInt64
  replaying : Bool
  helloAccepted : Bool

/-- The part of the shared session state a message can change, and the connection. -/
structure RemotePump (T : Type) where
  session : Session T
  /-- `remote_output_offset`. -/
  outputOffset : Nat
  /-- The bytes handed to the session's log. -/
  log : List UInt8
  /-- `exit`; it is set when `exited` is. -/
  exit : Option Exit
  stop : Bool
  link : Option Link

/-- `RemoteConnectionDisposition`. -/
inductive Disposition where
  | proceed
  | reconnect
  | exited
  | fatal
deriving DecidableEq, Repr

namespace RemotePump

variable {T : Type} (P : Platform T) (client : RemoteClient)

/-- `adopt_remote`: nothing is on the mirror, and the stream goes on at `outputOffset`. -/
def adopt (cols rows : UInt16) (outputOffset : Nat) : RemotePump T :=
  { session :=
      ⟨HeadlessScreen.new P.backend cols.toNat rows.toNat, some ⟨GridMirror.new, 0, none⟩⟩
    outputOffset
    log := []
    exit := none
    stop := false
    link := none }

def mirror (pump : RemotePump T) : Option GridMirror := pump.session.remoteGrid.map (·.mirror)

/-- `offset.saturating_add(bytes.len() as u64)`. -/
def outputEnd (offset : UInt64) (bytes : List UInt8) : Nat :=
  min (offset.toNat + bytes.length) (2 ^ 64 - 1)

def applyRemoteOutput (pump : RemotePump T) (offset : UInt64) (bytes : List UInt8) :
    RemotePump T :=
  let expected := pump.outputOffset
  if outputEnd offset bytes ≤ expected then pump
  else
    let skip := min (expected - offset.toNat) bytes.length
    let fresh := bytes.drop skip
    if fresh = [] then pump
    else
      { pump with
        outputOffset := outputEnd offset bytes
        log := pump.log ++ fresh
        session := { pump.session with screen := pump.session.screen.feed P.backend fresh } }

/-- Whether the snapshot was taken, and the state it leaves; the mirror comes first. -/
def applyRemoteSnapshot (pump : RemotePump T) (snapshot : FullSnapshot) : Bool × RemotePump T :=
  match pump.session.remoteGrid with
  | none => (false, pump)
  | some remote =>
    match remote.mirror.applySnapshot snapshot.sequence snapshot.grid snapshot.altScreen
        snapshot.bracketedPaste snapshot.mouseReporting with
    | .error _ => (false, pump)
    | .ok mirror =>
      let resized := pump.session.screen.resize P.backend snapshot.grid.cols.toNat
        snapshot.grid.rows.toNat
      let (restored, screen) := resized.restore P.backend [] snapshot.grid snapshot.altScreen
        snapshot.bracketedPaste snapshot.mouseReporting
      (restored, { pump with
        session := ⟨screen, some ⟨mirror, remote.revision + 1, some snapshot.grid⟩⟩ })

def applyRemoteDelta (pump : RemotePump T) (delta : GridDelta) : Bool × RemotePump T :=
  match pump.session.remoteGrid with
  | none => (false, pump)
  | some remote =>
    match remote.mirror.applyDelta delta.sequence delta.grid delta.altScreen
        delta.bracketedPaste delta.mouseReporting with
    | .error _ => (false, pump)
    | .ok mirror =>
      let pending := if remote.pending.isSome then mirror.fullUpdate else some delta.grid
      (true, { pump with
        session := { pump.session with
          remoteGrid := some ⟨mirror, remote.revision + 1, pending⟩ } })

def recordRemoteExit (pump : RemotePump T) (exit : ProcessExit) : RemotePump T :=
  { pump with
    exit := some (match exit.code, exit.signal with
      | _, some signal => .signal signal
      | some code, none => .code code
      | none, none => .code (-1)) }

/-- `mark_remote_transport_failed`. -/
def transportFailed (pump : RemotePump T) : RemotePump T :=
  { pump with exit := some (.code 126) }

/-- `HelloAck`. -/
def acceptHello (pump : RemotePump T) (link : Link) (ack : HelloAck) :
    Disposition × RemotePump T × Link :=
  if link.helloAccepted ∨ client.validateHello P.debug ack ≠ .ok () then (.fatal, pump, link)
  else
    let link := { link with controllerEpoch := some ack.controllerEpoch }
    match ack.processState with
    | .exited code signal => (.exited, pump.recordRemoteExit ⟨code, signal⟩, link)
    | .running _ => (.proceed, pump, { link with helloAccepted := true })

def handleFrame (pump : RemotePump T) (link : Link) (frame : Frame) :
    Disposition × RemotePump T × Link :=
  match frame.frameType with
  | .replayBegin => (.proceed, pump, { link with replaying := true })
  | .replayEnd => (.proceed, pump, { link with replaying := false })
  | .output =>
    match frame.outputPayload with
    | none => (.fatal, pump, link)
    | some (offset, bytes) => (.proceed, pump.applyRemoteOutput P offset bytes, link)
  | _ => (.fatal, pump, link)

/-- `grant` is what writing the queued resize and input answers. -/
def handleRemoteMessage (pump : RemotePump T) (link : Link) (message : RemoteMessage)
    (grant : IoResult) : Disposition × RemotePump T × Link :=
  match message with
  | .helloAck ack => pump.acceptHello P client link ack
  | message =>
    if !link.helloAccepted then (.fatal, pump, link)
    else
      match message with
      | .terminal frame => pump.handleFrame P link frame
      | .fullSnapshot snapshot =>
        let (taken, pump) := pump.applyRemoteSnapshot P snapshot
        (if taken then .proceed else .fatal, pump, link)
      | .gridDelta delta =>
        -- A gap is recoverable: the next Hello reseeds with a full snapshot.
        let (taken, pump) := pump.applyRemoteDelta delta
        (if taken then .proceed else .reconnect, pump, link)
      | .controlGranted granted =>
        if link.controllerEpoch = some granted.controllerEpoch ∧ grant = .ok () then
          (.proceed, pump, link)
        else (.reconnect, pump, link)
      | .controlRevoked _ => (.reconnect, pump, link)
      | .processExit exit => (.exited, pump.recordRemoteExit exit, link)
      | .scrollbackResponse _ => (.proceed, pump, link)
      | .error error => (if error.fatal then .fatal else .proceed, pump, link)
      | _ => (.fatal, pump, link)

/-- What `pump_remote` does with a disposition: only one that proceeds keeps the connection. -/
def dispose : Disposition × RemotePump T × Link → RemotePump T
  | (.proceed, pump, link) => { pump with link := some { link with read := link.read + 1 } }
  | (.reconnect, pump, _) | (.exited, pump, _) => { pump with link := none }
  | (.fatal, pump, _) => { pump.transportFailed with link := none }

/-- The loop of `pump_remote` has not ended. -/
def running (pump : RemotePump T) : Bool := pump.exit.isNone && !pump.stop

end RemotePump

/-! ### The engine and the Holder -/

structure RemoteSystem (T : Type) where
  holder : Holder T
  pump : RemotePump T

inductive SystemEvent where
  | holder (event : HolderEvent)
  /-- The pump tries to connect. -/
  | connect (nonce : String) (result : IoResult)
  /-- The pump handles the next message of its socket. -/
  | receive (grant : IoResult)
  /-- The pump decodes a message that begins in an unfinished frame. -/
  | garbled (message : RemoteMessage) (grant : IoResult)
  /-- The connection ends, or its bytes do not decode. -/
  | drop (undecodable : Bool)
  /-- A writer found the connection broken. -/
  | writerLost
  /-- The session is stopped, or an inspection found the process gone. -/
  | stop

namespace RemoteSystem

variable {T : Type} (P : Platform T) (client : RemoteClient)

def start (holder : Holder T) (cols rows : UInt16) (outputOffset : Nat) : RemoteSystem T :=
  ⟨holder, RemotePump.adopt P cols rows outputOffset⟩

/-- The first message the Holder reads on the pump's connection is the `Hello` it sent. -/
def hears (s : RemoteSystem T) : HolderEvent → Bool
  | .message message _ =>
    match s.pump.link, s.holder.reading with
    | some link, some (_, c) =>
      if c.id = link.id ∧ c.epoch = none then
        match message with
        | .hello hello => hello = link.hello
        | _ => false
      else true
    | _, _ => true
  | _ => true

def connect (s : RemoteSystem T) (nonce : String) (result : IoResult) : RemoteSystem T :=
  if s.pump.running ∧ s.pump.link.isNone ∧ s.holder.failed.isNone ∧ result = .ok () then
    { holder := s.holder.dial
      pump := { s.pump with
        link := some
          { id := s.holder.dialed
            hello := client.hello nonce s.pump.outputOffset (s.pump.mirror.bind (·.sequence))
            read := 0
            controllerEpoch := none
            replaying := false
            helloAccepted := false } } }
  else s

/-- One message of the connection; `running` is looked at before each read. -/
def handle (s : RemoteSystem T) (link : Link) (message : RemoteMessage) (grant : IoResult) :
    RemoteSystem T :=
  { s with
    pump := RemotePump.dispose (s.pump.handleRemoteMessage P client link message grant) }

def receive (s : RemoteSystem T) (grant : IoResult) : RemoteSystem T :=
  match s.pump.link with
  | none => s
  | some link =>
    match (s.holder.sockets link.id).received[link.read]? with
    | none => s
    | some message => s.handle P client link message grant

def garbled (s : RemoteSystem T) (message : RemoteMessage) (grant : IoResult) : RemoteSystem T :=
  match s.pump.link with
  | none => s
  | some link =>
    if (s.holder.sockets link.id).torn ∧
        (s.holder.sockets link.id).received.length ≤ link.read then
      s.handle P client link message grant
    else s

def drop (s : RemoteSystem T) (undecodable : Bool) : RemoteSystem T :=
  match s.pump.link with
  | none => s
  | some _ =>
    { s with
      pump := { (if undecodable then s.pump.transportFailed else s.pump) with link := none } }

def writerLost (s : RemoteSystem T) : RemoteSystem T :=
  { s with pump := { s.pump with
      link := s.pump.link.map fun link => { link with controllerEpoch := none } } }

def step (s : RemoteSystem T) : SystemEvent → RemoteSystem T × Unit
  | .holder event =>
    (if s.hears event then { s with holder := (s.holder.step P event).1 } else s, ())
  | .connect nonce result => (s.connect client nonce result, ())
  | .receive grant => (s.receive P client grant, ())
  | .garbled message grant => (s.garbled P client message grant, ())
  | .drop undecodable => (s.drop undecodable, ())
  | .writerLost => (s.writerLost, ())
  | .stop => ({ s with pump := { s.pump with stop := true, link := none } }, ())

/-! ### Runs that are evaluated -/

/-- The engine of the Holder that runs. -/
def sampleClient : RemoteClient := ⟨"s1", ⟨"0123456789abcdef"⟩, "i1", "b1", "b1"⟩

def sample : RemoteSystem LineTerm := start LineTerm.platform Holder.sample 2 1 0

/-- The pump connects, and the Holder hears its `Hello`. -/
def attach (outputOffset : Nat) (gridSequence : Option UInt64) : List SystemEvent :=
  [.connect "n1" (.ok ()), .holder (.accept (.ok ())), .holder (.beginRead .pending),
    .holder (.message (.hello (sampleClient.hello "n1" outputOffset gridSequence)) .quiet),
    .holder (.endRead .wouldBlock [])]

/-- The child writes. -/
def feed (bytes : List UInt8) : SystemEvent := .holder (.drain (.bytes bytes) (.ok ()) (.ok ()))

/-- Everything queued is written, and the pump handles some messages. -/
def deliver (count : Nat) : List SystemEvent :=
  .holder (.flushConnection [.ok 65536]) :: List.replicate count (.receive (.ok ()))

end RemoteSystem

end Homie.Remote
