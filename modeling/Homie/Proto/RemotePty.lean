/-
The wire protocol between the local Engine and a remote PTY Holder:
`homie-proto/src/remote_pty.rs`.

Terminal frame kinds 1 through 10 keep their payloads; remote-only control kinds
start at 32.  Small control payloads are JSON, a snapshot or a delta keeps the
binary grid encoding.  `encodeInto` reserves a header at the end of a shared
buffer, writes the payload behind it and patches the length back in; `feed` is the
incremental decoder.

`serde_json` is a parameter: for each control payload, what it writes (also when
it then fails) and what it reads back.
-/
import Homie.Proto.Frames

namespace Homie

open Bytes

def maxControlFrameBytes : Nat := 64 * 1024
def maxTerminalCols : UInt16 := 4096
def maxTerminalRows : UInt16 := 4096
def maxTerminalCells : Nat := 1000000
def headerBytes : Nat := 5
def fullSnapshotFixedBytes : Nat := 9

def kindHello : UInt8 := 32
def kindHelloAck : UInt8 := 33
def kindFullSnapshot : UInt8 := 34
def kindProcessExit : UInt8 := 35
def kindSignal : UInt8 := 36
def kindAcquireControl : UInt8 := 37
def kindControlGranted : UInt8 := 38
def kindControlRevoked : UInt8 := 39
def kindReleaseControl : UInt8 := 40
def kindError : UInt8 := 41
def kindGridDelta : UInt8 := 42
def kindScrollbackRequest : UInt8 := 43
def kindScrollbackResponse : UInt8 := 44

/-! ### Payloads -/

structure ProtocolVersion where
  major : UInt16
  minor : UInt16
deriving DecidableEq, Repr

inductive RemoteRole where
  | controller
deriving DecidableEq, Repr

inductive RemoteCapability where
  | fullSnapshot | incrementalGrid | processExit | signal | controllerLease | scrollback
  | sessionManagement | environmentCapture | directoryList | persistenceProbe
  | atomicActivation | agentEvents | resourceInspect | portForward | rebootRecovery
  | migration
  /-- A capability introduced by a newer protocol minor. -/
  | unknown
deriving DecidableEq, Repr

/-- Authentication bearer shared only by the local Engine and one Holder. -/
structure SessionToken where
  value : String
deriving DecidableEq, Repr

structure Hello where
  protocol : ProtocolVersion
  localBuildId : String
  sessionId : String
  sessionToken : SessionToken
  expectedIncarnation : Option String
  requestedRole : RemoteRole
  clientNonce : String
  requiredCapabilities : List RemoteCapability
  lastAcknowledgedOutputOffset : Option UInt64
  lastAcknowledgedGridSequence : Option UInt64
deriving DecidableEq, Repr

inductive RemoteProcessState where
  | running (pid : UInt32)
  | exited (code signal : Option Int32)
deriving DecidableEq

structure HelloAck where
  protocol : ProtocolVersion
  holderBuildId : String
  sessionIncarnation : String
  capabilities : List RemoteCapability
  controllerEpoch : UInt64
  processState : RemoteProcessState
  outputOffset : UInt64
  snapshotSequence : UInt64
deriving DecidableEq

structure FullSnapshot where
  sequence : UInt64
  altScreen : Bool
  bracketedPaste : Bool
  mouseReporting : Bool
  grid : GridUpdate
deriving DecidableEq, Repr

structure GridDelta where
  sequence : UInt64
  altScreen : Bool
  bracketedPaste : Bool
  mouseReporting : Bool
  grid : GridUpdate
deriving DecidableEq, Repr

structure ProcessExit where
  code : Option Int32
  signal : Option Int32
deriving DecidableEq

structure Signal where
  controllerEpoch : UInt64
  signal : Int32
deriving DecidableEq

structure AcquireControl where
  clientNonce : String
deriving DecidableEq, Repr

structure ControlGranted where
  controllerEpoch : UInt64
deriving DecidableEq, Repr

structure ControlRevoked where
  controllerEpoch : UInt64
  reason : String
deriving DecidableEq, Repr

structure ReleaseControl where
  controllerEpoch : UInt64
deriving DecidableEq, Repr

structure RemoteError where
  code : String
  message : String
  fatal : Bool
deriving DecidableEq, Repr

structure ScrollbackRequest where
  requestId : UInt64
  firstRow : Int64
  maxRows : Int64
deriving DecidableEq

/-- `homie_proto::ReadScrollbackCellsResult`. -/
structure ReadScrollbackCellsResult where
  payload : List UInt8
  firstRow : Int64
  rowCount : Int64
  totalRows : Int64
  liveStartRow : Int64
  cols : Int64
  contentSeq : UInt64
deriving DecidableEq

structure ScrollbackResponse where
  requestId : UInt64
  result : ReadScrollbackCellsResult
deriving DecidableEq

inductive RemoteMessage where
  | terminal (frame : Frame)
  | hello (value : Hello)
  | helloAck (value : HelloAck)
  | fullSnapshot (value : FullSnapshot)
  | gridDelta (value : GridDelta)
  | processExit (value : ProcessExit)
  | signal (value : Signal)
  | acquireControl (value : AcquireControl)
  | controlGranted (value : ControlGranted)
  | controlRevoked (value : ControlRevoked)
  | releaseControl (value : ReleaseControl)
  | scrollbackRequest (value : ScrollbackRequest)
  | scrollbackResponse (value : ScrollbackResponse)
  | error (value : RemoteError)
deriving DecidableEq

inductive RemoteCodecError where
  | unknownMessageType (kind : UInt8)
  | frameTooLarge (length max : Nat)
  | controlFrameTooLarge (length max : Nat)
  | payloadLengthOverflow (length : Nat)
  | invalidControlPayload (kind : UInt8) (detail : String)
  | invalidFullSnapshot (detail : String)
  | invalidIdentifier (field value : String)
  | invalidSessionToken
  | invalidLaunch (detail : String)
  | grid (error : GridCodecError)
deriving DecidableEq, Repr

/-! ### Validation -/

def isIdentifierByte (byte : UInt8) : Bool :=
  (48 ≤ byte && byte ≤ 57) || (65 ≤ byte && byte ≤ 90) || (97 ≤ byte && byte ≤ 122)
    || byte == 45 || byte == 95 || byte == 46

/-- Non-empty, at most 128 bytes, ASCII alphanumerics and `-`, `_`, `.` only. -/
def validateIdentifier (field value : String) : Except RemoteCodecError Unit :=
  if !value.isEmpty && value.utf8ByteSize ≤ 128 && value.toUTF8.toList.all isIdentifierByte then
    .ok ()
  else .error (.invalidIdentifier field value)

def SessionToken.new (value : String) : Except RemoteCodecError SessionToken :=
  if value.utf8ByteSize < 16 || value.utf8ByteSize > 512 || value.toUTF8.toList.any (· == 0) then
    .error .invalidSessionToken
  else .ok ⟨value⟩

def Hello.validate (hello : Hello) : Except RemoteCodecError Unit := do
  validateIdentifier "local build id" hello.localBuildId
  validateIdentifier "session id" hello.sessionId
  match hello.expectedIncarnation with
  | some incarnation => validateIdentifier "expected incarnation" incarnation
  | none => pure ()
  validateIdentifier "client nonce" hello.clientNonce
  let _ ← SessionToken.new hello.sessionToken.value

def HelloAck.validate (ack : HelloAck) : Except RemoteCodecError Unit := do
  validateIdentifier "holder build id" ack.holderBuildId
  validateIdentifier "session incarnation" ack.sessionIncarnation

def AcquireControl.validate (acquire : AcquireControl) : Except RemoteCodecError Unit :=
  validateIdentifier "client nonce" acquire.clientNonce

def ScrollbackRequest.validate (request : ScrollbackRequest) : Except RemoteCodecError Unit :=
  if request.requestId == 0 || request.firstRow < 0
      || !(0 ≤ request.maxRows && request.maxRows ≤ 1024) then
    .error (.invalidControlPayload kindScrollbackRequest "scrollback request id/range is invalid")
  else .ok ()

/-- The text of the one error `validate_terminal_dimensions` returns. -/
def terminalDimensionsDetail : String :=
  "terminal dimensions must be non-zero, at most 4096x4096, and at most 1000000 cells"

def validateTerminalDimensions (cols rows : UInt16) : Except RemoteCodecError Unit :=
  if cols == 0 || rows == 0 || cols > maxTerminalCols || rows > maxTerminalRows
      || cols.toNat * rows.toNat > maxTerminalCells then
    .error (.invalidLaunch terminalDimensionsDetail)
  else .ok ()

def validateGridUpdate (grid : GridUpdate) : Except RemoteCodecError Unit :=
  match validateTerminalDimensions grid.cols grid.rows with
  | .error _ => .error (.invalidFullSnapshot
      ("grid dimensions are invalid: invalid launch request: " ++ terminalDimensionsDetail))
  | .ok () =>
    if grid.cursorCol ≥ grid.cols || grid.cursorRow ≥ grid.rows then
      .error (.invalidFullSnapshot "cursor is outside the terminal grid")
    else if grid.changedRows.any fun row => row.y ≥ grid.rows || row.cells.length != grid.cols.toNat
    then
      .error (.invalidFullSnapshot "changed row is outside the grid or has the wrong width")
    else .ok ()

/-! ### JSON payloads -/

/-- `serde_json` at one type: what `to_writer` appends, with its result, and `from_slice`. -/
structure Serde (α : Type) where
  toWriter : α → List UInt8 × Except String Unit
  fromSlice : List UInt8 → Except String α

/-- `serde_json` at every control payload. -/
structure ControlJson where
  hello : Serde Hello
  helloAck : Serde HelloAck
  processExit : Serde ProcessExit
  signal : Serde Signal
  acquireControl : Serde AcquireControl
  controlGranted : Serde ControlGranted
  controlRevoked : Serde ControlRevoked
  releaseControl : Serde ReleaseControl
  scrollbackRequest : Serde ScrollbackRequest
  scrollbackResponse : Serde ScrollbackResponse
  error : Serde RemoteError

namespace RemoteCodec

/-- A fallible step on the shared output buffer: its result, and the buffer it leaves. -/
abbrev Written := Except RemoteCodecError Unit × List UInt8

def appendJson {α : Type} (serde : Serde α) (kind : UInt8) (value : α) (output : List UInt8)
    (start : Nat) : Written :=
  let output := output.set start kind
  match serde.toWriter value with
  | (written, .ok ()) => (.ok (), output ++ written)
  | (written, .error detail) => (.error (.invalidControlPayload kind detail), output ++ written)

def rollback (output : List UInt8) (start : Nat) (error : RemoteCodecError) : Written :=
  (.error error, output.take start)

/-- Validation in front of a payload: nothing is written when it fails. -/
def checked (validation : Except RemoteCodecError Unit) (output : List UInt8)
    (step : List UInt8 → Written) : Written :=
  match validation with
  | .error e => (.error e, output)
  | .ok () => step output

def gridModes (altScreen bracketedPaste mouseReporting : Bool) : UInt8 :=
  altScreen.toUInt8 ||| (bracketedPaste.toUInt8 <<< 1) ||| (mouseReporting.toUInt8 <<< 2)

/--
The two grid payloads, which differ in their kind, in whether the grid has to be a
full snapshot, and in the text of the error when it is not.
-/
def appendGrid (kind : UInt8) (full : Bool) (mismatch : String) (sequence : UInt64) (modes : UInt8)
    (grid : GridUpdate) (output : List UInt8) (start : Nat) : Written :=
  checked (validateGridUpdate grid) output fun output =>
    let output := output.set start kind
    let output := output ++ u64Be sequence
    let output := output ++ [modes]
    if grid.isFullSnapshot ≠ full then rollback output start (.invalidFullSnapshot mismatch)
    else match grid.encode with
      | .error e => (.error (.grid e), output)
      | .ok bytes => (.ok (), output ++ bytes)

def notFullSnapshot : String := "grid update is not marked as a full snapshot"
def deltaIsFullSnapshot : String := "grid delta is marked as a full snapshot"

/-- The closure in `encode_into` that fills in one message behind its reserved header. -/
def encodeBody (json : ControlJson) (message : RemoteMessage) (output : List UInt8)
    (start : Nat) : Written :=
  match message with
  | .terminal frame => (.ok (), output.set start frame.frameType.toU8 ++ frame.payload)
  | .hello value => checked value.validate output fun output =>
    appendJson json.hello kindHello value output start
  | .helloAck value => checked value.validate output fun output =>
    appendJson json.helloAck kindHelloAck value output start
  | .fullSnapshot value => appendGrid kindFullSnapshot true notFullSnapshot value.sequence
      (gridModes value.altScreen value.bracketedPaste value.mouseReporting) value.grid output start
  | .gridDelta value => appendGrid kindGridDelta false deltaIsFullSnapshot value.sequence
      (gridModes value.altScreen value.bracketedPaste value.mouseReporting) value.grid output start
  | .processExit value => appendJson json.processExit kindProcessExit value output start
  | .signal value => appendJson json.signal kindSignal value output start
  | .acquireControl value => checked value.validate output fun output =>
    appendJson json.acquireControl kindAcquireControl value output start
  | .controlGranted value => appendJson json.controlGranted kindControlGranted value output start
  | .controlRevoked value => appendJson json.controlRevoked kindControlRevoked value output start
  | .releaseControl value => appendJson json.releaseControl kindReleaseControl value output start
  | .scrollbackRequest value => checked value.validate output fun output =>
    appendJson json.scrollbackRequest kindScrollbackRequest value output start
  | .scrollbackResponse value =>
    appendJson json.scrollbackResponse kindScrollbackResponse value output start
  | .error value => appendJson json.error kindError value output start

/-- The kinds whose payload is bounded like a control line, not like a frame. -/
def isControlKind (kind : UInt8) : Bool :=
  kind ≥ kindHello
    && !(kind == kindFullSnapshot || kind == kindGridDelta || kind == kindScrollbackResponse)

/-- Appends one encoded message to `output`. -/
def encodeInto (json : ControlJson) (message : RemoteMessage) (output : List UInt8) : Written :=
  let start := output.length
  let output := output ++ List.replicate headerBytes 0
  match encodeBody json message output start with
  | (.error e, output) => (.error e, output.take start)
  | (.ok (), output) =>
    let payloadLength := output.length - start - headerBytes
    if payloadLength > maxFrameBytes then
      rollback output start (.frameTooLarge payloadLength maxFrameBytes)
    else if isControlKind (output.getD start 0) && payloadLength > maxControlFrameBytes then
      rollback output start (.controlFrameTooLarge payloadLength maxControlFrameBytes)
    -- this check does not roll back; `maxFrameBytes` keeps it from firing
    else if payloadLength ≥ 2 ^ 32 then (.error (.payloadLengthOverflow payloadLength), output)
    else
      (.ok (), output.take (start + 1) ++ u32Be (UInt32.ofNat payloadLength)
        ++ output.drop (start + headerBytes))

/-- Encodes messages one behind another into a shared buffer, stopping at the first refusal. -/
def encodeAll (json : ControlJson) : List RemoteMessage → List UInt8 → Written
  | [], output => (.ok (), output)
  | message :: messages, output =>
    match encodeInto json message output with
    | (.error e, output) => (.error e, output)
    | (.ok (), output) => encodeAll json messages output

/-! ### Decoding -/

def decodeJson {α : Type} (serde : Serde α) (kind : UInt8) (payload : List UInt8) :
    Except RemoteCodecError α :=
  match serde.fromSlice payload with
  | .ok value => .ok value
  | .error detail => .error (.invalidControlPayload kind detail)

/-- A JSON payload that is validated after it is read. -/
def decodeChecked {α : Type} (serde : Serde α) (validate : α → Except RemoteCodecError Unit)
    (kind : UInt8) (payload : List UInt8) : Except RemoteCodecError α := do
  let value ← decodeJson serde kind payload
  validate value
  pure value

/-- What both grid payloads hold: a sequence number, mode bits and a grid. -/
def decodeGrid (full : Bool) (mismatch : String) (payload : List UInt8) :
    Except RemoteCodecError (UInt64 × UInt8 × GridUpdate) :=
  match GridUpdate.decode (payload.drop fullSnapshotFixedBytes) with
  | .error e => .error (.grid e)
  | .ok grid => do
    validateGridUpdate grid
    if grid.isFullSnapshot ≠ full then .error (.invalidFullSnapshot mismatch)
    else pure (readU64Be (payload.take 8), payload.getD 8 0, grid)

def decodeMessage (json : ControlJson) (kind : UInt8) (payload : List UInt8) :
    Except RemoteCodecError RemoteMessage :=
  if kind ≤ FrameType.modes.toU8 then
    match FrameType.tryFrom kind with
    | .ok frameType => .ok (.terminal ⟨frameType, payload⟩)
    | .error _ => .error (.unknownMessageType kind)
  else if kind = kindHello then .hello <$> decodeChecked json.hello Hello.validate kind payload
  else if kind = kindHelloAck then
    .helloAck <$> decodeChecked json.helloAck HelloAck.validate kind payload
  else if kind = kindFullSnapshot then
    if payload.length < fullSnapshotFixedBytes then
      .error (.invalidFullSnapshot ("need at least 9 bytes, got " ++ toString payload.length))
    else do
      let (sequence, modes, grid) ← decodeGrid true notFullSnapshot payload
      pure (.fullSnapshot ⟨sequence, modes &&& 1 != 0, modes &&& 2 != 0, modes &&& 4 != 0, grid⟩)
  else if kind = kindGridDelta then
    if payload.length < 9 then
      .error (.invalidFullSnapshot
        ("grid delta needs at least 8 bytes, got " ++ toString payload.length))
    else do
      let (sequence, modes, grid) ← decodeGrid false deltaIsFullSnapshot payload
      pure (.gridDelta ⟨sequence, modes &&& 1 != 0, modes &&& 2 != 0, modes &&& 4 != 0, grid⟩)
  else if kind = kindProcessExit then .processExit <$> decodeJson json.processExit kind payload
  else if kind = kindSignal then .signal <$> decodeJson json.signal kind payload
  else if kind = kindAcquireControl then
    .acquireControl <$> decodeChecked json.acquireControl AcquireControl.validate kind payload
  else if kind = kindControlGranted then
    .controlGranted <$> decodeJson json.controlGranted kind payload
  else if kind = kindControlRevoked then
    .controlRevoked <$> decodeJson json.controlRevoked kind payload
  else if kind = kindReleaseControl then
    .releaseControl <$> decodeJson json.releaseControl kind payload
  else if kind = kindScrollbackRequest then
    .scrollbackRequest <$> decodeChecked json.scrollbackRequest ScrollbackRequest.validate kind payload
  else if kind = kindScrollbackResponse then
    .scrollbackResponse <$> decodeJson json.scrollbackResponse kind payload
  else if kind = kindError then .error <$> decodeJson json.error kind payload
  else .error (.unknownMessageType kind)

def validateKind (kind : UInt8) : Except RemoteCodecError Unit :=
  if (1 ≤ kind && kind ≤ FrameType.modes.toU8)
      || (kindHello ≤ kind && kind ≤ kindScrollbackResponse) then .ok ()
  else .error (.unknownMessageType kind)

/-- What `feed` checks on a header before it waits for the payload. -/
def accept (kind : UInt8) (length : Nat) : Except RemoteCodecError UInt8 := do
  validateKind kind
  if length > maxFrameBytes then .error (.frameTooLarge length maxFrameBytes)
  else if isControlKind kind && length > maxControlFrameBytes then
    .error (.controlFrameTooLarge length maxControlFrameBytes)
  else pure kind

/-- One turn of the loop in `feed`, on the bytes past `consumed`. -/
def next (json : ControlJson) :
    List UInt8 → Except RemoteCodecError (Option (RemoteMessage × List UInt8)) :=
  Framing.headed accept (decodeMessage json)

end RemoteCodec

/-- Incrementally decodes the SSH stdio byte stream. -/
structure RemoteCodec where
  buffer : List UInt8
deriving DecidableEq, Repr

namespace RemoteCodec

def new : RemoteCodec := ⟨[]⟩

def feed (json : ControlJson) (codec : RemoteCodec) (bytes : List UInt8) :
    Except RemoteCodecError (List RemoteMessage) × RemoteCodec :=
  let buffer := codec.buffer ++ bytes
  match Framing.decode (next json) buffer with
  | .ok (messages, residue) => (.ok messages, ⟨residue⟩)
  | .error e => (.error e, ⟨buffer⟩)

/-- Feeding chunks in order until one of them fails. -/
def feedAll (json : ControlJson) (codec : RemoteCodec) :
    List (List UInt8) → Except RemoteCodecError (List RemoteMessage × RemoteCodec)
  | [] => .ok ([], codec)
  | chunk :: chunks =>
    match codec.feed json chunk with
    | (.error e, _) => .error e
    | (.ok messages, codec') =>
      match feedAll json codec' chunks with
      | .error e => .error e
      | .ok (later, last) => .ok (messages ++ later, last)

end RemoteCodec

end Homie
