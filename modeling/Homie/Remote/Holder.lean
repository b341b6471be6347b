/-
The Holder's bounded, offset-addressed record of raw PTY output:
`homie-remote/src/output_log.rs`.

The file is a header and a payload that starts at `baseOffset`; the counters in memory
and the file agree, because a failed append ends the Holder.  When the payload passes
its capacity the older half goes.  Offsets are natural numbers.

A call that can fail takes what the file system answered.
-/
import Homie.Lib.Outbox
import Homie.Lib.Window
import Homie.TerminalState.Screen

namespace Homie.Remote

inductive ErrorKind where
  | invalidData | permissionDenied | unsupported | connectionAborted | wouldBlock
  | interrupted | writeZero | brokenPipe | connectionReset | notConnected | invalidInput | other
deriving DecidableEq, Repr

/-- `std::io::Error`: its kind and what it displays. -/
structure IoError where
  kind : ErrorKind
  message : String
deriving DecidableEq, Repr

/-- What a call outside the Holder answered. -/
abbrev IoResult := Except IoError Unit

/-- `DISK_CAPACITY`. -/
def diskCapacity : Nat := 32 * 2 ^ 20

structure OutputLog where
  baseOffset : Nat
  payload : List UInt8
deriving DecidableEq, Repr

namespace OutputLog

def empty : OutputLog := ⟨0, []⟩

def tailOffset (log : OutputLog) : Nat := log.baseOffset + log.payload.length

/-- Keeps the newer half of the capacity. -/
def truncateToHalf (log : OutputLog) : OutputLog :=
  let keep := diskCapacity / 2
  let dropBytes := log.payload.length - keep
  ⟨log.baseOffset + dropBytes, log.payload.drop dropBytes⟩

/-- Appends the bytes at the tail; the offset returned is theirs. -/
def append (log : OutputLog) (bytes : List UInt8) : Nat × OutputLog :=
  let start := log.tailOffset
  let log := { log with payload := log.payload ++ bytes }
  (start, if log.payload.length > diskCapacity then log.truncateToHalf else log)

/-- At most `maximum` bytes from the requested offset on, or from the oldest byte kept. -/
def read (log : OutputLog) (requestedOffset maximum : Nat) : Nat × List UInt8 :=
  let start := max requestedOffset log.baseOffset
  let tail := log.tailOffset
  if start ≥ tail ∨ maximum = 0 then (tail, [])
  else
    let count := min (tail - start) maximum
    (start, (log.payload.drop (start - log.baseOffset)).take count)

end OutputLog

end Homie.Remote

/-! ### The remote Holder: `homie-remote/src/holder.rs`

One process owns the PTY, the screen and the output log of a session, serves one
installed controller and looks at one connection that has not shaken hands yet.  `run`
polls and calls the handlers in a fixed order, leaving out those without an event; here
every handler is a step and a run is any list of steps.  `read_messages` is the one
handler that is cut up: `beginRead` takes a connection out of its slot, `message` handles
one message of it and `endRead` puts it back, so a state with no read in progress is a
state between two calls.

What the kernel answers is part of the step: the results of `write`, of the state file
and of the token check, and the chunk a read of the PTY returned.  A handler that returns
an error to `run` ends the Holder.  Time is left to the steps, `emit` says whether the
coalescing interval has passed.

A connection's buffer is the list of the messages encoded in it, and a socket the list
of the messages its peer can decode.  An error that `send_fatal` writes inside a frame
leaves the socket `torn`: what the peer decodes from there on is anything.
-/

namespace Homie.Remote

/-- `INTERACTIVE_GRID_BUDGET`. -/
def interactiveGridBudget : Nat := 2
/-- `MAX_OUTBOUND_BYTES`. -/
def maxOutboundBytes : Nat := 20 * 2 ^ 20
/-- `MAX_PENDING_INPUT_BYTES`. -/
def maxPendingInputBytes : Nat := 2 ^ 20
/-- `REPLAY_BUDGET_BYTES`. -/
def replayBudgetBytes : Nat := 4 * 2 ^ 20
/-- `PERSIST_OFFSET_INTERVAL`. -/
def persistOffsetInterval : Nat := 2 ^ 20
/-- What one read of the log takes. -/
def replayPieceBytes : Nat := 64 * 1024

def protocolMajor : UInt16 := 1
def protocolMinor : UInt16 := 2
def ProtocolVersion.current : ProtocolVersion := ⟨protocolMajor, protocolMinor⟩

/-- `PHASE_ONE_HOLDER_CAPABILITIES`. -/
def phaseOneCapabilities : List RemoteCapability :=
  [.fullSnapshot, .incrementalGrid, .processExit, .signal, .controllerLease, .scrollback]

/-- `SIGINT`, `SIGTERM`, `SIGKILL`, `SIGSTOP`, `SIGCONT`, `SIGHUP` and `SIGQUIT` on Linux. -/
def allowedSignal (signal : Int32) : Bool :=
  signal == 2 || signal == 15 || signal == 9 || signal == 19 || signal == 18 || signal == 1
    || signal == 3

/-- `saturating_add(1)`. -/
def saturatingSucc (value : UInt64) : UInt64 :=
  if value = UInt64.ofNat (2 ^ 64 - 1) then value else value + 1

/-! ### What errors display -/

/-- The name `#[derive(Debug)]` gives a capability. -/
def capabilityName : RemoteCapability → String
  | .fullSnapshot => "FullSnapshot"
  | .incrementalGrid => "IncrementalGrid"
  | .processExit => "ProcessExit"
  | .signal => "Signal"
  | .controllerLease => "ControllerLease"
  | .scrollback => "Scrollback"
  | .sessionManagement => "SessionManagement"
  | .environmentCapture => "EnvironmentCapture"
  | .directoryList => "DirectoryList"
  | .persistenceProbe => "PersistenceProbe"
  | .atomicActivation => "AtomicActivation"
  | .agentEvents => "AgentEvents"
  | .resourceInspect => "ResourceInspect"
  | .portForward => "PortForward"
  | .rebootRecovery => "RebootRecovery"
  | .migration => "Migration"
  | .unknown => "Unknown"

def gridErrorText : GridCodecError → String
  | .unexpectedEnd offset needed remaining =>
    "truncated grid payload at byte " ++ toString offset ++ ": need " ++ toString needed ++
      " bytes, have " ++ toString remaining
  | .tooManyRows count => "row count " ++ toString count ++ " does not fit in u16"
  | .tooManyCells count => "row cell count " ++ toString count ++ " does not fit in u16"
  | .decodedRowTooLong count =>
    "decoded row exceeds the u16 grid width (" ++ toString count ++ " cells)"

/-- `debug` is the standard library's `{:?}` of a string. -/
def codecErrorText (debug : String → String) : RemoteCodecError → String
  | .unknownMessageType kind => "unknown remote message type " ++ toString kind.toNat
  | .frameTooLarge length max =>
    "remote frame is " ++ toString length ++ " bytes; maximum is " ++ toString max
  | .controlFrameTooLarge length max =>
    "remote control frame is " ++ toString length ++ " bytes; maximum is " ++ toString max
  | .payloadLengthOverflow length =>
    "remote payload length " ++ toString length ++ " does not fit in u32"
  | .invalidControlPayload kind detail =>
    "invalid remote control payload for type " ++ toString kind.toNat ++ ": " ++ detail
  | .invalidFullSnapshot detail => "invalid full snapshot: " ++ detail
  | .invalidIdentifier field value => "invalid " ++ field ++ " " ++ debug value
  | .invalidSessionToken => "invalid session token"
  | .invalidLaunch detail => "invalid launch request: " ++ detail
  | .grid error => gridErrorText error

/-- What a Holder is built with. -/
structure Platform (T : Type) where
  backend : Backend T
  /-- The emulator's `SGR_MOUSE` mode. -/
  sgrMouse : T → Bool
  json : ControlJson
  /-- `BUILD_ID`. -/
  buildId : String
  debug : String → String

/-! ### Connections -/

/-- The bytes of one encoded message: its header and its payload. -/
def frameBytes (json : ControlJson) (message : RemoteMessage) : Nat :=
  headerBytes + ((RemoteCodec.encodeInto json message []).2.drop headerBytes).length

/-- What the peer of a connection has been sent. -/
structure Socket where
  /-- The messages wholly written. -/
  received : List RemoteMessage
  /-- Bytes of another frame follow an unfinished one. -/
  torn : Bool

def Socket.fresh : Socket := ⟨[], false⟩

/-- A connection; `id` tells its stream from others. -/
structure Connection where
  id : Nat
  epoch : Option UInt64
  /-- The messages encoded in the buffer. -/
  outbound : List RemoteMessage
  /-- How many bytes of the buffer are written. -/
  sent : Nat

namespace Connection

variable {T : Type} (P : Platform T)

def new (id : Nat) : Connection := ⟨id, none, [], 0⟩

def admitted (c : Connection) (epoch : UInt64) : Connection := { c with epoch := some epoch }

/-- `outbound.len()`. -/
def outboundBytes (c : Connection) : Nat := Outbox.total (frameBytes P.json) c.outbound

/-- A message that cannot be encoded leaves the buffer as it was. -/
def queue (c : Connection) (message : RemoteMessage) : Except IoError Connection :=
  match (RemoteCodec.encodeInto P.json message []).1 with
  | .error e => .error ⟨.other, codecErrorText P.debug e⟩
  | .ok () => .ok { c with outbound := c.outbound ++ [message] }

def queueError (c : Connection) (code message : String) (fatal : Bool) :
    Except IoError Connection :=
  c.queue P (.error ⟨code, message, fatal⟩)

/-- The buffer is empty again. -/
def clear (c : Connection) : Connection := { c with outbound := [], sent := 0 }

/--
The last words to a connection that is then discarded.  The buffer is cleared also when
part of a frame is out already; `written` says whether the stream took all of the error.
-/
def sendFatal (c : Connection) (code message : String) (written : Bool) (socket : Socket) :
    Socket :=
  match c.clear.queueError P code message true with
  | .error _ => socket
  | .ok _ =>
    if Outbox.midMessage (frameBytes P.json) c.outbound c.sent then { socket with torn := true }
    else if written then
      { socket with received := socket.received ++ [.error ⟨code, message, true⟩] }
    else socket

/-- `count` more bytes of the buffer are written. -/
def advance (c : Connection) (socket : Socket) (count : Nat) : Connection × Socket :=
  let sent := min (c.sent + count) (c.outboundBytes P)
  ({ c with sent },
    { socket with
      received := socket.received ++ Outbox.finished (frameBytes P.json) c.outbound c.sent sent })

/-- Writes until everything is out or the stream is full; the list holds the results. -/
def flush : Connection → Socket → List (Except IoError Nat) → IoResult × Connection × Socket
  | c, socket, [] => (.ok (), if c.sent < c.outboundBytes P then c else c.clear, socket)
  | c, socket, result :: writes =>
    if c.sent < c.outboundBytes P then
      match result with
      | .ok 0 => (.error ⟨.writeZero, "attach write returned zero"⟩, c, socket)
      | .ok (count + 1) =>
        let (c, socket) := c.advance P socket (count + 1)
        flush c socket writes
      | .error e =>
        if e.kind = .wouldBlock then (.ok (), c, socket)
        else if e.kind = .interrupted then flush c socket writes
        else (.error e, c, socket)
    else (.ok (), c.clear, socket)

end Connection

/-! ### A platform that runs

The small emulator, with the texts `serde_json` writes for the messages a Holder sends.
-/

/-- The parts with a comma between them, in brackets. -/
def jsonList (opening closing : UInt8) (parts : List (List UInt8)) : List UInt8 :=
  [opening] ++ [0x2c].intercalate parts ++ [closing]

def jsonString (text : String) : List UInt8 := [0x22] ++ asciiBytes text ++ [0x22]

def jsonNat (value : Nat) : List UInt8 := asciiBytes (toString value)

def jsonOption (value : Option Int32) : List UInt8 :=
  (value.map fun number => asciiBytes (toString number.toInt)).getD (asciiBytes "null")

def jsonObject (fields : List (String × List UInt8)) : List UInt8 :=
  jsonList 0x7b 0x7d (fields.map fun field => jsonString field.1 ++ [0x3a] ++ field.2)

def wireName : RemoteCapability → String
  | .fullSnapshot => "full-snapshot"
  | .incrementalGrid => "incremental-grid"
  | .processExit => "process-exit"
  | .signal => "signal"
  | .controllerLease => "controller-lease"
  | .scrollback => "scrollback"
  | .sessionManagement => "session-management"
  | .environmentCapture => "environment-capture"
  | .directoryList => "directory-list"
  | .persistenceProbe => "persistence-probe"
  | .atomicActivation => "atomic-activation"
  | .agentEvents => "agent-events"
  | .resourceInspect => "resource-inspect"
  | .portForward => "port-forward"
  | .rebootRecovery => "reboot-recovery"
  | .migration => "migration"
  | .unknown => "unknown"

def helloAckText (ack : HelloAck) : List UInt8 :=
  jsonObject [
    ("protocol", jsonObject [("major", jsonNat ack.protocol.major.toNat),
      ("minor", jsonNat ack.protocol.minor.toNat)]),
    ("holderBuildId", jsonString ack.holderBuildId),
    ("sessionIncarnation", jsonString ack.sessionIncarnation),
    ("capabilities", jsonList 0x5b 0x5d (ack.capabilities.map (jsonString ∘ wireName))),
    ("controllerEpoch", jsonNat ack.controllerEpoch.toNat),
    ("processState", match ack.processState with
      | .running pid => jsonObject [("state", jsonString "running"), ("pid", jsonNat pid.toNat)]
      | .exited code signal => jsonObject [("state", jsonString "exited"),
          ("code", jsonOption code), ("signal", jsonOption signal)]),
    ("outputOffset", jsonNat ack.outputOffset.toNat),
    ("snapshotSequence", jsonNat ack.snapshotSequence.toNat)]

/-- A payload that is written as this text. -/
def writes {α : Type} (text : α → List UInt8) : Serde α where
  toWriter value := (text value, .ok ())
  fromSlice _ := .error "only written here"

/-- A payload that a Holder does not write. -/
def neverWritten (α : Type) : Serde α where
  toWriter _ := ([], .error "never written")
  fromSlice _ := .error "only written here"

def LineTerm.json : ControlJson where
  hello := neverWritten _
  helloAck := writes helloAckText
  processExit := writes fun exit =>
    jsonObject [("code", jsonOption exit.code), ("signal", jsonOption exit.signal)]
  signal := neverWritten _
  acquireControl := neverWritten _
  controlGranted := writes fun granted =>
    jsonObject [("controllerEpoch", jsonNat granted.controllerEpoch.toNat)]
  controlRevoked := writes fun revoked =>
    jsonObject [("controllerEpoch", jsonNat revoked.controllerEpoch.toNat),
      ("reason", jsonString revoked.reason)]
  releaseControl := neverWritten _
  scrollbackRequest := neverWritten _
  scrollbackResponse := neverWritten _
  error := writes fun error =>
    jsonObject [("code", jsonString error.code), ("message", jsonString error.message),
      ("fatal", asciiBytes (toString error.fatal))]

def LineTerm.platform : Platform LineTerm :=
  { backend := LineTerm.backend, sgrMouse := fun _ => false, json := LineTerm.json
    buildId := "b1", debug := fun text => "\"" ++ text ++ "\"" }

/-! ### The Holder -/

/-- The fields of the state file that the handlers use. -/
structure SessionState where
  sessionId : String
  sessionIncarnation : String
  processState : RemoteProcessState
  cols : UInt16
  rows : UInt16
  outputOffset : Nat
  snapshotSequence : UInt64
  controllerEpoch : UInt64
deriving DecidableEq

/-- What has been done to the child's terminal. -/
structure Pty where
  /-- The bytes typed into it. -/
  written : List UInt8
  cols : UInt16
  rows : UInt16
  /-- The signals sent to its process group. -/
  signals : List Int32
deriving DecidableEq

inductive Exit where
  | code (code : Int32)
  | signal (signal : Int32)
deriving DecidableEq

/-- The message that reports an exit. -/
def Exit.report : Exit → ProcessExit
  | .code value => ⟨some value, none⟩
  | .signal value => ⟨none, some value⟩

/-- The two places of a connection. -/
inductive Slot where
  | installed
  | pending
deriving DecidableEq, Repr

/-- A record of the run for the proofs; no handler reads it. -/
structure Ledger (T : Type) where
  /-- Every byte read from the PTY. -/
  history : List UInt8
  /-- The numbered grid messages: each with the screen it was made from. -/
  emitted : List (UInt64 × HeadlessScreen T)
  /-- The messages that a reseed threw away. -/
  discarded : List RemoteMessage
  /-- The screen when the exit was recorded. -/
  exitScreen : Option (HeadlessScreen T)

structure Holder (T : Type) where
  screen : HeadlessScreen T
  log : OutputLog
  state : SessionState
  /-- The state file. -/
  stored : SessionState
  pty : Pty
  /-- `pty_reader` is open. -/
  ptyReader : Bool
  exitWatcher : Bool
  /-- Clients the listener has not accepted yet, oldest first. -/
  backlog : List Connection
  /-- How many clients have connected. -/
  dialed : Nat
  connection : Option Connection
  pendingConnection : Option Connection
  /-- The connection `read_messages` is reading. -/
  reading : Option (Slot × Connection)
  pendingInput : List UInt8
  /-- `dirty_since` is set. -/
  dirtySince : Bool
  interactiveGridBudget : Nat
  lastPersistedOffset : Nat
  sockets : Nat → Socket
  /-- The error `run` returned. -/
  failed : Option IoError
  ledger : Ledger T

/-- What the calls of one message answer. -/
structure Calls where
  authenticate : Except IoError Bool
  /-- The error of the read at an offset, if it fails. -/
  readLog : Nat → Option IoError
  writeState : IoResult
  resize : IoResult
  killGroup : IoResult
  ptyWrites : List (Except IoError Nat)
  /-- `send_fatal`, if the message is refused, gets its error out. -/
  fatalWritten : Bool

/-- Nothing fails, and the PTY takes no input now. -/
def Calls.quiet : Calls := ⟨.ok true, fun _ => none, .ok (), .ok (), .ok (), [], true⟩

namespace Holder

variable {T : Type} (P : Platform T)

/-- A Holder right after its start; `launch` removes what an earlier one left. -/
def new (sessionId sessionIncarnation : String) (pid : UInt32) (cols rows : UInt16) : Holder T :=
  let state : SessionState :=
    { sessionId, sessionIncarnation, processState := .running pid, cols, rows, outputOffset := 0
      snapshotSequence := 0, controllerEpoch := 0 }
  { screen := HeadlessScreen.new P.backend cols.toNat rows.toNat
    log := .empty
    state
    stored := state
    pty := ⟨[], cols, rows, []⟩
    ptyReader := true
    exitWatcher := true
    backlog := []
    dialed := 0
    connection := none
    pendingConnection := none
    reading := none
    pendingInput := []
    dirtySince := false
    interactiveGridBudget := 0
    lastPersistedOffset := 0
    sockets := fun _ => .fresh
    failed := none
    ledger := ⟨[], [], [], none⟩ }

def setSocket (h : Holder T) (id : Nat) (socket : Socket) : Holder T :=
  { h with sockets := fun other => if other = id then socket else h.sockets other }

/-- A handler returned an error to `run`. -/
def fail (h : Holder T) (error : IoError) : Holder T := { h with failed := some error }

/-- `write_state`: on success the file holds the state. -/
def writeState (h : Holder T) : IoResult → IoResult × Holder T
  | .ok () => (.ok (), { h with stored := h.state })
  | .error e => (.error e, h)

/-- `self.state.snapshot_sequence.saturating_add(1)`. -/
def nextSequence (h : Holder T) : Holder T :=
  { h with state := { h.state with snapshotSequence := saturatingSucc h.state.snapshotSequence } }

/-- A grid message with the current number was made from the current screen. -/
def recordEmitted (h : Holder T) : Holder T :=
  { h with
    ledger := { h.ledger with
      emitted := h.ledger.emitted ++ [(h.state.snapshotSequence, h.screen)] } }

/-! ### Grid messages -/

def fullSnapshot (h : Holder T) (grid : GridUpdate) : FullSnapshot :=
  { sequence := h.state.snapshotSequence
    altScreen := h.screen.isAltScreen P.backend
    bracketedPaste := h.screen.bracketedPaste P.backend
    mouseReporting := h.screen.mouseReporting P.backend
    grid }

def gridDelta (h : Holder T) (grid : GridUpdate) : GridDelta :=
  { sequence := h.state.snapshotSequence
    altScreen := h.screen.isAltScreen P.backend
    bracketedPaste := h.screen.bracketedPaste P.backend
    mouseReporting := h.screen.mouseReporting P.backend
    grid }

/-- The current screen as a message of its own. -/
def snapshotMessage (h : Holder T) : RemoteMessage :=
  .fullSnapshot (h.fullSnapshot P (h.screen.fullSnapshot P.backend))

/-- `queue_snapshot`; the ledger is kept by the callers. -/
def queueSnapshot (h : Holder T) (c : Connection) : Except IoError Connection :=
  c.queue P (h.snapshotMessage P)

/-- The connection is out of its slot and what it had to send is thrown away. -/
def throwAway (h : Holder T) (c : Connection) : Holder T :=
  { h with
    connection := none
    ledger := { h.ledger with discarded := h.ledger.discarded ++ c.outbound } }

/--
Queues a message for the installed controller.  A controller that does not read is
dropped when part of a frame is out, and otherwise starts over from a full snapshot.
-/
def queue (h : Holder T) (message : RemoteMessage) : IoResult × Holder T :=
  match h.connection with
  | none => (.ok (), h)
  | some c =>
    match c.queue P message with
    | .error e => (.error e, { h with connection := none })
    | .ok c =>
      if c.outboundBytes P > maxOutboundBytes then
        if c.sent ≠ 0 then (.ok (), { h with connection := none })
        else
          let h := h.throwAway c
          match c.clear.queueError P "slow_client_reseed"
              "incremental output was discarded; applying a fresh terminal snapshot" false with
          | .error e => (.error e, h)
          | .ok c =>
            let h := h.nextSequence
            match h.queueSnapshot P c with
            | .error e => (.error e, h)
            | .ok c => (.ok (), { h.recordEmitted with connection := some c })
      else (.ok (), { h with connection := some c })

/-- The update of the screen as a numbered message, full or not. -/
def gridMessage (h : Holder T) (grid : GridUpdate) : RemoteMessage :=
  if grid.isFullSnapshot then .fullSnapshot (h.fullSnapshot P grid)
  else .gridDelta (h.gridDelta P grid)

def emitGridDelta (h : Holder T) : IoResult × Holder T :=
  let h := { h with
    interactiveGridBudget := h.interactiveGridBudget - 1
    dirtySince := false }
  if h.connection.all fun c => c.epoch.isNone then (.ok (), h)
  else
    let (grid, screen) := h.screen.gridUpdate P.backend false
    let h := { h with screen }.nextSequence.recordEmitted
    h.queue P (h.gridMessage P grid)

/-! ### Output -/

/-- A chunk is in the log and on the screen. -/
def fed (h : Holder T) (bytes : List UInt8) : Holder T :=
  let log := (h.log.append bytes).2
  { h with
    log
    state := { h.state with outputOffset := log.tailOffset }
    screen := h.screen.feed P.backend bytes
    dirtySince := true
    ledger := { h.ledger with history := h.ledger.history ++ bytes } }

/-- The state is written every so many bytes. -/
def persist (h : Holder T) (write : IoResult) : IoResult × Holder T :=
  if h.state.outputOffset - h.lastPersistedOffset ≥ persistOffsetInterval then
    match h.writeState write with
    | (.error e, h) => (.error e, h)
    | (.ok (), h) => (.ok (), { h with lastPersistedOffset := h.state.outputOffset })
  else (.ok (), h)

/-- One chunk of output: `append` and `write` are what the two files answer. -/
def drainChunk (h : Holder T) (bytes : List UInt8) (append write : IoResult) :
    IoResult × Holder T :=
  match append with
  | .error e => (.error e, h)
  | .ok () =>
    let offset := (h.log.append bytes).1
    let h := h.fed P bytes
    let (queued, h) :=
      if h.connection.any fun c => c.epoch.isSome then
        h.queue P (.terminal (Frame.output (UInt64.ofNat offset) bytes))
      else (.ok (), h)
    match queued with
    | .error e => (.error e, h)
    | .ok () => h.persist write

/--
The frames of `queue_replay`, piece by piece.  Every piece has a byte, so the distance to
the tail is fuel enough.
-/
def queuePieces (log : OutputLog) (readLog : Nat → Option IoError) :
    Nat → Nat → Connection → Except IoError Connection
  | 0, _, c => .ok c
  | fuel + 1, offset, c =>
    if offset < log.tailOffset then
      match readLog offset with
      | some e => .error e
      | none =>
        let (actual, bytes) := log.read offset replayPieceBytes
        if bytes = [] then .ok c
        else
          match c.queue P (.terminal (Frame.output (UInt64.ofNat actual) bytes)) with
          | .error e => .error e
          | .ok c => queuePieces log readLog fuel (actual + bytes.length) c
    else .ok c

def queueReplay (h : Holder T) (c : Connection) (acknowledged : Option UInt64)
    (readLog : Nat → Option IoError) : Except IoError Connection := do
  let tail := h.log.tailOffset
  let requested := (acknowledged.map UInt64.toNat).getD tail
  if requested ≥ tail then pure c
  else
    let start := max requested (tail - replayBudgetBytes)
    let c ← c.queue P (.terminal (Frame.replayBegin (UInt64.ofNat start)))
    let c ← queuePieces P h.log readLog (tail - start) start c
    c.queue P (.terminal (Frame.replayEnd (UInt64.ofNat tail)))

/-! ### Input -/

/-- Types pending input into the PTY until it is full. -/
def flushInput (h : Holder T) : List (Except IoError Nat) → IoResult × Holder T
  | [] => (.ok (), h)
  | result :: writes =>
    if h.pendingInput = [] then (.ok (), h)
    else
      match result with
      | .ok 0 => (.error ⟨.writeZero, "PTY input write returned zero"⟩, h)
      | .ok (count + 1) =>
        flushInput { h with
          pendingInput := h.pendingInput.drop (count + 1)
          pty := { h.pty with
            written := h.pty.written ++ h.pendingInput.take (count + 1) } } writes
      | .error e =>
        if e.kind = .wouldBlock then (.ok (), h)
        else if e.kind = .interrupted then h.flushInput writes
        else (.error e, h)

def writeInput (h : Holder T) (bytes : List UInt8) (writes : List (Except IoError Nat)) :
    IoResult × Holder T :=
  if bytes = [] then (.ok (), h)
  else if h.pendingInput.length + bytes.length > maxPendingInputBytes then
    (.error ⟨.wouldBlock, "pending input queue is full"⟩, h)
  else
    { h with
      pendingInput := h.pendingInput ++ bytes
      interactiveGridBudget := Remote.interactiveGridBudget }.flushInput writes

/-! ### Messages -/

/-- The checks of `handshake` before anything changes. -/
def refusal (h : Holder T) (hello : Hello) (authenticate : Except IoError Bool) : Option IoError :=
  if hello.protocol.major ≠ protocolMajor then
    some ⟨.invalidData, "protocol major does not match"⟩
  else if hello.sessionId ≠ h.state.sessionId ∨
      hello.expectedIncarnation.any (· != h.state.sessionIncarnation) then
    some ⟨.permissionDenied, "session identity or incarnation does not match"⟩
  else
    match authenticate with
    | .error e => some e
    | .ok false => some ⟨.permissionDenied, "session authentication failed"⟩
    | .ok true =>
      (hello.requiredCapabilities.find? (!phaseOneCapabilities.contains ·)).map fun missing =>
        ⟨.unsupported, "required capability " ++ capabilityName missing ++ " is unavailable"⟩

def helloAck (h : Holder T) : HelloAck :=
  { protocol := ProtocolVersion.current
    holderBuildId := P.buildId
    sessionIncarnation := h.state.sessionIncarnation
    capabilities := phaseOneCapabilities
    controllerEpoch := h.state.controllerEpoch
    processState := h.state.processState
    outputOffset := UInt64.ofNat h.state.outputOffset
    snapshotSequence := h.state.snapshotSequence }

/-- `self.state.controller_epoch.saturating_add(1)`. -/
def advanceEpoch (h : Holder T) : Holder T :=
  { h with state := { h.state with controllerEpoch := saturatingSucc h.state.controllerEpoch } }

/-- What a handler of a message leaves: its result, the Holder and the connection. -/
abbrev Handled (T : Type) := IoResult × Holder T × Connection

/-- The part of `handshake` behind its checks: the epoch is advanced first. -/
def welcome (h : Holder T) (c : Connection) (acknowledged : Option UInt64) (calls : Calls) :
    Handled T :=
  let h := h.advanceEpoch
  let epoch := h.state.controllerEpoch
  let c := c.admitted epoch
  match c.queue P (.helloAck (h.helloAck P)) with
  | .error e => (.error e, h, c)
  | .ok c =>
    match h.queueReplay P c acknowledged calls.readLog with
    | .error e => (.error e, h, c)
    | .ok c =>
      let h := h.nextSequence
      match h.queueSnapshot P c with
      | .error e => (.error e, h, c)
      | .ok c =>
        let h := h.recordEmitted
        match c.queue P (.controlGranted ⟨epoch⟩) with
        | .error e => (.error e, h, c)
        | .ok c =>
          let (result, h) := h.writeState calls.writeState
          (result, h, c)

def handshake (h : Holder T) (c : Connection) (hello : Hello) (calls : Calls) : Handled T :=
  match h.refusal hello calls.authenticate with
  | some e => (.error e, h, c)
  | none => h.welcome P c hello.lastAcknowledgedOutputOffset calls

/-- The PTY, the screen and the state get a new size and the next grid message a number. -/
def resized (h : Holder T) (cols rows : UInt16) : Holder T :=
  { h with
    pty := { h.pty with cols, rows }
    screen := h.screen.resize P.backend cols.toNat rows.toNat
    state := { h.state with cols, rows } }.nextSequence

/-- `FrameType::Resize`. -/
def handleResize (h : Holder T) (c : Connection) (frame : Frame) (calls : Calls) : Handled T :=
  match frame.resizePayload with
  | none =>
    (.error ⟨.invalidData, "Resize payload must contain exactly two u16 values"⟩, h, c)
  | some (cols, rows) =>
    if frame.payload.length ≠ 4 ∨ validateTerminalDimensions cols rows ≠ .ok () then
      (.error ⟨.invalidData, "Resize dimensions are invalid"⟩, h, c)
    else
      match calls.resize with
      | .error e => (.error e, h, c)
      | .ok () =>
        let h := h.resized P cols rows
        match h.writeState calls.writeState with
        | (.error e, h) => (.error e, h, c)
        | (.ok (), h) =>
          match h.queueSnapshot P c with
          | .error e => (.error e, h, c)
          | .ok c => (.ok (), h.recordEmitted, c)

def handleFrame (h : Holder T) (c : Connection) (frame : Frame) (calls : Calls) : Handled T :=
  match frame.frameType with
  | .input =>
    let (result, h) := h.writeInput frame.payload calls.ptyWrites
    (result, h, c)
  | .resize => h.handleResize P c frame calls
  | .ping =>
    match c.queue P (.terminal Frame.pong) with
    | .error e => (.error e, h, c)
    | .ok c => (.ok (), h, c)
  | .scroll =>
    match frame.scrollPayload with
    | none => (.error ⟨.invalidData, "Scroll payload is invalid"⟩, h, c)
    | some (direction, lines, col, row) =>
      let bytes := h.screen.mouseWheel P.backend (P.sgrMouse h.screen.term) (direction == 0)
        lines.toNat col.toNat row.toNat
      let (result, h) := h.writeInput bytes calls.ptyWrites
      (result, h, c)
  | _ => (.error ⟨.invalidData, "terminal frame is not valid from a controller"⟩, h, c)

/-- `handle_message` once the connection has an epoch. -/
def handleControl (h : Holder T) (c : Connection) (epoch : UInt64) (message : RemoteMessage)
    (calls : Calls) : Handled T :=
  let reply (message : RemoteMessage) : Handled T :=
    match c.queue P message with
    | .error e => (.error e, h, c)
    | .ok c => (.ok (), h, c)
  if epoch ≠ h.state.controllerEpoch then
    (.error ⟨.permissionDenied, "controller epoch was revoked"⟩, h, c)
  else
    match message with
    | .terminal frame => h.handleFrame P c frame calls
    | .signal signal =>
      if signal.controllerEpoch ≠ epoch ∨ !allowedSignal signal.signal then
        (.error ⟨.permissionDenied, "signal or controller epoch is invalid"⟩, h, c)
      else
        match calls.killGroup with
        | .error e => (.error e, h, c)
        | .ok () =>
          (.ok (), { h with
            pty := { h.pty with signals := h.pty.signals ++ [signal.signal] } }, c)
    | .acquireControl _ => reply (.controlGranted ⟨epoch⟩)
    | .scrollbackRequest request =>
      reply (.scrollbackResponse ⟨request.requestId,
        h.screen.scrollbackCells P.backend request.firstRow request.maxRows⟩)
    | .releaseControl release =>
      if release.controllerEpoch ≠ epoch then
        (.error ⟨.permissionDenied, "release uses a stale controller epoch"⟩, h, c)
      else (.error ⟨.connectionAborted, "controller released"⟩, h, c)
    | _ => (.error ⟨.invalidData, "message is not valid from a controller"⟩, h, c)

def handleMessage (h : Holder T) (c : Connection) (message : RemoteMessage) (calls : Calls) :
    Handled T :=
  match c.epoch with
  | none =>
    match message with
    | .hello hello => h.handshake P c hello calls
    | _ => (.error ⟨.invalidData, "Hello must be the first attach message"⟩, h, c)
  | some epoch => h.handleControl P c epoch message calls

/-! ### Slots -/

/-- The installed controller is told that it was superseded, if that can be written at once. -/
def revokePrevious (h : Holder T) (writes : List (Except IoError Nat)) : Holder T :=
  match h.connection with
  | none => h
  | some previous =>
    let revoked : ControlRevoked :=
      ⟨previous.epoch.getD 0, "superseded by a newer authenticated attach"⟩
    let previous := match previous.queue P (.controlRevoked revoked) with
      | .ok queued => queued
      | .error _ => previous
    let (_, _, socket) := previous.flush P (h.sockets previous.id) writes
    { h.setSocket previous.id socket with connection := none }

/-- Where a connection goes after a read that did not close it. -/
def putBack (h : Holder T) (slot : Slot) (c : Connection) (writes : List (Except IoError Nat)) :
    Holder T :=
  match slot with
  | .installed => { h with connection := some c }
  | .pending =>
    if c.epoch.isSome then { h.revokePrevious P writes with connection := some c }
    else { h with pendingConnection := some c }

end Holder

/-! ### Steps -/

/-- What a read of the PTY returned; a chunk has at most 64 KiB. -/
inductive PtyRead where
  | bytes (chunk : List UInt8)
  | eof
  | failed (error : IoError)

/-- How the loop of `read_messages` ended, if not at a refused message. -/
inductive ReadEnd where
  | wouldBlock
  | eof
  | failed
  | invalidFrame (error : RemoteCodecError) (fatalWritten : Bool)

inductive HolderEvent where
  /-- A client connects to the socket. -/
  | dial
  | accept (result : IoResult)
  | drain (read : PtyRead) (append write : IoResult)
  | flushInput (writes : List (Except IoError Nat))
  | recordExit (finish : IoResult) (exit : Except IoError Exit) (flush write : IoResult)
  | guardExit (status : String)
  | beginRead (slot : Slot)
  | message (message : RemoteMessage) (calls : Calls)
  | endRead (ending : ReadEnd) (writes : List (Except IoError Nat))
  | flushConnection (writes : List (Except IoError Nat))
  | emit (due : Bool)

namespace Holder

variable {T : Type} (P : Platform T)

/-- `?` in `run`. -/
def settle : IoResult × Holder T → Holder T
  | (.ok (), h) => h
  | (.error e, h) => h.fail e

def dial (h : Holder T) : Holder T :=
  { h with backlog := h.backlog ++ [Connection.new h.dialed], dialed := h.dialed + 1 }

/-- Every client of the backlog takes the place of the one before it. -/
def acceptConnection (h : Holder T) (result : IoResult) : IoResult × Holder T :=
  (result, { h with
    pendingConnection := h.backlog.getLast?.or h.pendingConnection
    backlog := [] })

def drainPty (h : Holder T) (read : PtyRead) (append write : IoResult) : IoResult × Holder T :=
  if !h.ptyReader then (.ok (), h)
  else
    match read with
    | .bytes chunk => h.drainChunk P chunk append write
    | .eof => (.ok (), { h with ptyReader := false })
    | .failed e => (.error e, h)

/-- The child is reaped and its terminal is read no more. -/
def exited (h : Holder T) (report : ProcessExit) : Holder T :=
  { h with
    exitWatcher := false
    ptyReader := false
    state := { h.state with
      processState := .exited report.code report.signal
      outputOffset := h.log.tailOffset }
    ledger := { h.ledger with exitScreen := some h.screen } }

def recordExit (h : Holder T) (finish : IoResult) (exit : Except IoError Exit)
    (flush write : IoResult) : IoResult × Holder T :=
  if !h.exitWatcher then (.ok (), h)
  else
    match finish, exit with
    | .error e, _ => (.error e, h)
    | .ok (), .error e => (.error e, h)
    | .ok (), .ok exit =>
      let h := h.exited exit.report
      match flush with
      | .error e => (.error e, h)
      | .ok () =>
        match h.writeState write with
        | (.error e, h) => (.error e, h)
        | (.ok (), h) => h.queue P (.processExit exit.report)

def beginRead (h : Holder T) : Slot → Holder T
  | .installed =>
    match h.connection with
    | none => h
    | some c => { h with connection := none, reading := some (.installed, c) }
  | .pending =>
    match h.pendingConnection with
    | none => h
    | some c => { h with pendingConnection := none, reading := some (.pending, c) }

def stopReading (h : Holder T) : Holder T := { h with reading := none }

/-- A connection that is closed after a last error. -/
def closeReading (h : Holder T) (c : Connection) (code message : String) (written : Bool) :
    Holder T :=
  (h.setSocket c.id (c.sendFatal P code message written (h.sockets c.id))).stopReading

/-- One turn of the loop over the messages of a read. -/
def readMessage (h : Holder T) (message : RemoteMessage) (calls : Calls) : Holder T :=
  match h.reading with
  | none => h
  | some (slot, c) =>
    match h.handleMessage P c message calls with
    | (.ok (), h, c) => { h with reading := some (slot, c) }
    | (.error e, h, c) => h.closeReading P c "protocol_error" e.message calls.fatalWritten

def endRead (h : Holder T) (ending : ReadEnd) (writes : List (Except IoError Nat)) : Holder T :=
  match h.reading with
  | none => h
  | some (slot, c) =>
    match ending with
    | .wouldBlock => h.stopReading.putBack P slot c writes
    | .eof | .failed => h.stopReading
    | .invalidFrame e written =>
      h.closeReading P c "invalid_frame" (codecErrorText P.debug e) written

def flushConnection (h : Holder T) (writes : List (Except IoError Nat)) : IoResult × Holder T :=
  match h.connection with
  | none => (.ok (), h)
  | some c =>
    let (result, c, socket) := c.flush P (h.sockets c.id) writes
    let h := { h.setSocket c.id socket with connection := some c }
    match result with
    | .ok () => (.ok (), h)
    | .error e =>
      if e.kind = .brokenPipe ∨ e.kind = .connectionReset then
        (.ok (), { h with connection := none })
      else (.error e, h)

/-- A handler that runs while no connection is being read. -/
def between (h : Holder T) : HolderEvent → Holder T
  | .accept result => settle (h.acceptConnection result)
  | .drain read append write => settle (h.drainPty P read append write)
  | .flushInput writes => settle (h.flushInput writes)
  | .recordExit finish exit flush write => settle (h.recordExit P finish exit flush write)
  | .guardExit status =>
    -- Without its guard the child is killed at once.
    { h with pty := { h.pty with signals := h.pty.signals ++ [9] } }.fail
      ⟨.other, "Agent process guard exited unexpectedly with " ++ status⟩
  | .beginRead slot => h.beginRead slot
  | .flushConnection writes => settle (h.flushConnection P writes)
  | .emit due =>
    if h.dirtySince ∧ (h.interactiveGridBudget > 0 ∨ due) then settle (h.emitGridDelta P) else h
  | _ => h

def step (h : Holder T) (event : HolderEvent) : Holder T × Unit :=
  if h.failed.isSome then (h, ())
  else
    match event with
    | .dial => (h.dial, ())
    | .message message calls => (h.readMessage P message calls, ())
    | .endRead ending writes => (h.endRead P ending writes, ())
    | event => (if h.reading.isSome then h else h.between P event, ())

/-! ### Runs that are evaluated -/

/-- A Holder of the platform that runs, two columns wide. -/
def sample : Holder LineTerm := new LineTerm.platform "s1" "i1" 7 2 1

/-- The `Hello` of a controller of that Holder. -/
def sampleHello (acknowledged : Option UInt64) : Hello :=
  { protocol := ProtocolVersion.current
    localBuildId := "b1"
    sessionId := "s1"
    sessionToken := ⟨"0123456789abcdef"⟩
    expectedIncarnation := some "i1"
    requestedRole := .controller
    clientNonce := "n1"
    requiredCapabilities := phaseOneCapabilities
    lastAcknowledgedOutputOffset := acknowledged
    lastAcknowledgedGridSequence := none }

/-- A client connects, says `Hello` and has nothing more to say. -/
def attach (calls : Calls) (writes : List (Except IoError Nat)) : List HolderEvent :=
  [.dial, .accept (.ok ()), .beginRead .pending, .message (.hello (sampleHello (some 0))) calls,
    .endRead .wouldBlock writes]

end Holder

end Homie.Remote
