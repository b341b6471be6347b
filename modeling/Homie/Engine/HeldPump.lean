/-
The pump of a held session: `pump_held` in `homie-engine/src/session/pump.rs`, and the exit
markers of `holder/protocol.rs`.

The Holder writes the log.  The pump follows it from a checkpoint or from a bounded replay
start, takes the exit markers out of the bytes and feeds the screen with the others.
Bytes below the floor belong to prior incarnations of the session: their markers go too,
and count for nothing.

A poll gives the pump the log as it finds it, refreshed, on the disk of that moment.
Decoding a payload is base64 and `serde_json`, and enters as `decode`.
-/
import Homie.Engine.Log
import Homie.Proto.Control

namespace Homie

inductive HolderExitReason
  | exited
  | signaled
deriving DecidableEq, Repr

/-- How a held child ended. -/
structure HolderExitStatus where
  reason : HolderExitReason
  code : Option Int32
  signal : Option Int32
deriving DecidableEq, Repr

/-- `serde_json::to_vec`: members that are absent are skipped. -/
def HolderExitStatus.json (status : HolderExitStatus) : List UInt8 :=
  let reason := match status.reason with
    | .exited => "exited"
    | .signaled => "signaled"
  let number (name : String) (value : Option Int32) :=
    (value.map fun n => (name, JsonText.integer n.toInt)).toList
  JsonText.object ([("reason", JsonText.string reason.toList)] ++ number "code" status.code
    ++ number "signal" status.signal)

namespace HolderExitMarker

/-- `ESC ]777;homie-exit=`. -/
def opening : List UInt8 :=
  [0x1b, 0x5d, 0x37, 0x37, 0x37, 0x3b, 0x68, 0x6f, 0x6d, 0x69, 0x65, 0x2d, 0x65, 0x78, 0x69, 0x74,
    0x3d]

def terminator : UInt8 := 0x07

/-- What stands between the opening and the terminator. -/
def payload (status : HolderExitStatus) : List UInt8 :=
  (Base64.encode status.json).flatMap String.utf8EncodeChar

def encode (status : HolderExitStatus) : List UInt8 := opening ++ payload status ++ [terminator]

/-- The first place of `needle` in `haystack`. -/
def find (haystack needle : List UInt8) : Option Nat :=
  (List.range (haystack.length + 1 - needle.length)).find? fun i =>
    (haystack.drop i).take needle.length == needle

/-- The longest tail of the data that may be the start of a marker. -/
def longestSuffix (data : List UInt8) : Nat :=
  let maxLength := min data.length (opening.length - 1)
  ((List.range' 1 maxLength).reverse.find? fun length =>
    data.drop (data.length - length) == opening.take length).getD 0

/-- What a `drain` returns, and the buffer it leaves. -/
structure Drained where
  output : List UInt8
  exitStatus : Option HolderExitStatus
  buffer : List UInt8
deriving DecidableEq

/-- One round of `drain` on a buffer that is not empty, and whether it goes on. -/
def drainRound (decode : List UInt8 → Option HolderExitStatus) (state : Drained) : Drained × Bool :=
  match find state.buffer opening with
  | some markerStart =>
    if markerStart > 0 then
      ({ state with
          output := state.output ++ state.buffer.take markerStart
          buffer := state.buffer.drop markerStart }, true)
    else match state.buffer.findIdx? (· == terminator) with
      -- incomplete marker; wait for more bytes
      | none => (state, false)
      | some stop =>
        let payload := (state.buffer.take stop).drop opening.length
        ({ state with
            exitStatus := (decode payload).or state.exitStatus
            buffer := state.buffer.drop (stop + 1) }, true)
  | none =>
    let emit := state.buffer.length - longestSuffix state.buffer
    ({ state with
        output := state.output ++ state.buffer.take emit
        buffer := state.buffer.drop emit }, false)

/-- The `while` loop of `drain`; every round that goes on shortens the buffer. -/
def drainLoop (decode : List UInt8 → Option HolderExitStatus) : Nat → Drained → Drained
  | 0, state => state
  | fuel + 1, state =>
    if state.buffer.isEmpty then state
    else
      let (state, goesOn) := drainRound decode state
      if goesOn then drainLoop decode fuel state else state

/-- Pulls complete output and markers from a chunk accumulator. -/
def drain (decode : List UInt8 → Option HolderExitStatus) (buffer : List UInt8) : Drained :=
  drainLoop decode buffer.length ⟨[], none, buffer⟩

end HolderExitMarker

/-- What of a screen checkpoint places the pump in the log. -/
structure LogCheckpoint where
  logOffset : Nat
  markerBuffer : List UInt8
deriving DecidableEq

structure HeldPump where
  exitMarkerFloor : Nat
  offset : Nat
  markerBuffer : List UInt8
  exitStatus : Option HolderExitStatus
  /-- Everything fed to the screen, and the part of it that came from the floor on. -/
  output : List UInt8
  live : List UInt8
deriving DecidableEq

namespace HeldPump

/-- A checkpoint serves when the log still reaches it and the tail after it fits the budget. -/
def usable (log : OutputLog) (replayBudget : Nat) (checkpoint : LogCheckpoint) : Bool :=
  decide (checkpoint.logOffset ≤ log.tailOffset) &&
    decide (log.tailOffset - checkpoint.logOffset ≤ replayBudget)

/-- Where the pump starts; `checkpoint` is one that the screen could restore. -/
def start (log : OutputLog) (replayBudget exitMarkerFloor : Nat)
    (checkpoint : Option LogCheckpoint) : HeldPump :=
  match checkpoint.filter (usable log replayBudget) with
  | some checkpoint =>
    ⟨exitMarkerFloor, checkpoint.logOffset, checkpoint.markerBuffer, none, [], []⟩
  | none => ⟨exitMarkerFloor, log.preferredReplayStart replayBudget, [], none, [], []⟩

/-- The part of a chunk below the floor: its markers are stripped and ignored. -/
def takeStale (decode : List UInt8 → Option HolderExitStatus) (pump : HeldPump) (start : Nat)
    (stale : List UInt8) : HeldPump :=
  if stale.isEmpty then pump
  else
    let drained := HolderExitMarker.drain decode (pump.markerBuffer ++ stale)
    { pump with
      output := pump.output ++ drained.output
      -- an unfinished stale marker ends at the floor
      markerBuffer := if start + stale.length ≥ pump.exitMarkerFloor then [] else drained.buffer }

/-- The part of a chunk from the floor on. -/
def takeLive (decode : List UInt8 → Option HolderExitStatus) (pump : HeldPump)
    (bytes : List UInt8) : HeldPump :=
  if bytes.isEmpty then pump
  else
    let drained := HolderExitMarker.drain decode (pump.markerBuffer ++ bytes)
    { pump with
      output := pump.output ++ drained.output
      live := pump.live ++ drained.output
      markerBuffer := drained.buffer
      exitStatus := drained.exitStatus.or pump.exitStatus }

/-- One chunk that the log returned. -/
def takeChunk (decode : List UInt8 → Option HolderExitStatus) (pump : HeldPump) (start : Nat)
    (chunk : List UInt8) : HeldPump :=
  -- a rotation can move the readable floor past the pump
  let pump := if start > pump.offset ∧ ¬ pump.markerBuffer.isEmpty then
      { pump with markerBuffer := [] } else pump
  let pump := { pump with offset := start + chunk.length }
  let honoredFrom := min (pump.exitMarkerFloor - start) chunk.length
  let pump := pump.takeStale decode start (chunk.take honoredFrom)
  pump.takeLive decode (chunk.drop honoredFrom)

/-- One round of the loop, and the chunk it took. -/
def step (decode : List UInt8 → Option HolderExitStatus) (pump : HeldPump)
    (poll : Disk × OutputLog) : HeldPump × Option (Nat × List UInt8) :=
  if pump.exitStatus.isSome then (pump, none)
  else match OutputLog.read poll.1 poll.2 pump.offset (64 * 1024) with
    | none => (pump, none)
    | some ((start, chunk), _) =>
      if chunk.isEmpty then (pump, none)
      else (pump.takeChunk decode start chunk, some (start, chunk))

end HeldPump

end Homie
