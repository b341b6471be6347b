/-
Binary data-channel frames: `homie-proto/src/frames.rs`.

Each frame is `[type u8][payload length u32 BE][payload]`.  `FrameCodec` is the
incremental decoder of a connection: `feed` appends a chunk to its buffer and
returns every frame now complete.  When `feed` fails the chunk stays in the buffer
and the frames it had already taken off are lost with the error.
-/
import Homie.Lib.Framing
import Homie.Proto.Grid

namespace Homie

open Bytes

/-- A single frame larger than this indicates a corrupt stream. -/
def maxFrameBytes : Nat := 16 * 1024 * 1024

inductive FrameType where
  | output | input | resize | replayBegin | replayEnd | ping | pong | grid | scroll | modes
deriving DecidableEq, Repr

inductive FrameCodecError where
  | unknownFrameType (frameType : UInt8)
  | frameTooLarge (length max : Nat)
  | payloadLengthOverflow (length : Nat)
deriving DecidableEq, Repr

namespace FrameType

/-- The wire discriminant, `frame_type as u8`. -/
def toU8 : FrameType → UInt8
  | output => 1
  | input => 2
  | resize => 3
  | replayBegin => 4
  | replayEnd => 5
  | ping => 6
  | pong => 7
  | grid => 8
  | scroll => 9
  | modes => 10

def tryFrom (value : UInt8) : Except FrameCodecError FrameType :=
  match value.toNat with
  | 1 => .ok output
  | 2 => .ok input
  | 3 => .ok resize
  | 4 => .ok replayBegin
  | 5 => .ok replayEnd
  | 6 => .ok ping
  | 7 => .ok pong
  | 8 => .ok grid
  | 9 => .ok scroll
  | 10 => .ok modes
  | _ => .error (.unknownFrameType value)

end FrameType

structure Frame where
  frameType : FrameType
  payload : List UInt8
deriving DecidableEq, Repr

/-! ### Typed frames -/

namespace Frame

/-- The frames that carry a lone stream offset. -/
def offsetFrame (frameType : FrameType) (offset : UInt64) : Frame := ⟨frameType, u64Be offset⟩

def output (offset : UInt64) (bytes : List UInt8) : Frame := ⟨.output, u64Be offset ++ bytes⟩
def input (bytes : List UInt8) : Frame := ⟨.input, bytes⟩
def resize (cols rows : UInt16) : Frame := ⟨.resize, u16Be cols ++ u16Be rows⟩
def replayBegin (offset : UInt64) : Frame := offsetFrame .replayBegin offset
def replayEnd (offset : UInt64) : Frame := offsetFrame .replayEnd offset
def ping : Frame := ⟨.ping, []⟩
def pong : Frame := ⟨.pong, []⟩

def grid (update : GridUpdate) : Except GridCodecError Frame :=
  (⟨.grid, ·⟩) <$> update.encode

/-- `direction` is `0` for up and `1` for down. -/
def scroll (direction : UInt8) (lines col row : UInt16) : Frame :=
  ⟨.scroll, [direction] ++ (u16Be lines ++ (u16Be col ++ u16Be row))⟩

def modes (altScreen mouseReporting : Bool) : Frame :=
  ⟨.modes, [altScreen.toUInt8 ||| (mouseReporting.toUInt8 <<< 1)]⟩

def readU16 (bytes : List UInt8) (offset : Nat) : UInt16 := readU16Be ((bytes.drop offset).take 2)

def gridPayload (frame : Frame) : Except GridCodecError (Option GridUpdate) :=
  if frame.frameType ≠ .grid then .ok none else some <$> GridUpdate.decode frame.payload

def outputPayload (frame : Frame) : Option (UInt64 × List UInt8) :=
  if frame.frameType ≠ .output ∨ frame.payload.length < 8 then none
  else some (readU64Be (frame.payload.take 8), frame.payload.drop 8)

def resizePayload (frame : Frame) : Option (UInt16 × UInt16) :=
  if frame.frameType ≠ .resize ∨ frame.payload.length < 4 then none
  else some (readU16 frame.payload 0, readU16 frame.payload 2)

def offsetPayload (frame : Frame) : Option UInt64 :=
  if (frame.frameType ≠ .replayBegin ∧ frame.frameType ≠ .replayEnd)
      ∨ frame.payload.length < 8 then none
  else some (readU64Be (frame.payload.take 8))

def scrollPayload (frame : Frame) : Option (UInt8 × UInt16 × UInt16 × UInt16) :=
  if frame.frameType ≠ .scroll ∨ frame.payload.length < 7 then none
  else some (frame.payload.headD 0, readU16 frame.payload 1, readU16 frame.payload 3,
    readU16 frame.payload 5)

def modesPayload (frame : Frame) : Option (Bool × Bool) :=
  if frame.frameType ≠ .modes then none
  else frame.payload.head?.map fun bits => (bits &&& 1 != 0, bits &&& 2 != 0)

end Frame

/-! ### The codec -/

/-- Incremental decoder for arbitrary data-channel chunks. -/
structure FrameCodec where
  buffer : List UInt8
deriving DecidableEq, Repr

namespace FrameCodec

def new : FrameCodec := ⟨[]⟩

def encode (frame : Frame) : Except FrameCodecError (List UInt8) :=
  let length := frame.payload.length
  if length > maxFrameBytes then .error (.frameTooLarge length maxFrameBytes)
  else if length ≥ 2 ^ 32 then .error (.payloadLengthOverflow length)
  else .ok (frame.frameType.toU8 :: (u32Be (UInt32.ofNat length) ++ frame.payload))

/-- What `feed` checks on a header before it waits for the payload. -/
def accept (kind : UInt8) (length : Nat) : Except FrameCodecError FrameType :=
  match FrameType.tryFrom kind with
  | .error e => .error e
  | .ok frameType =>
    if length > maxFrameBytes then .error (.frameTooLarge length maxFrameBytes)
    else .ok frameType

/-- One turn of the loop in `feed`, on the bytes past `consumed`. -/
def next : List UInt8 → Except FrameCodecError (Option (Frame × List UInt8)) :=
  Framing.headed accept fun frameType payload => .ok ⟨frameType, payload⟩

/-- Appends bytes and returns every complete frame now available. -/
def feed (codec : FrameCodec) (bytes : List UInt8) :
    Except FrameCodecError (List Frame) × FrameCodec :=
  let buffer := codec.buffer ++ bytes
  match Framing.decode next buffer with
  | .ok (frames, residue) => (.ok frames, ⟨residue⟩)
  | .error e => (.error e, ⟨buffer⟩)

/-- Feeding chunks in order until one of them fails. -/
def feedAll (codec : FrameCodec) : List (List UInt8) → Except FrameCodecError (List Frame × FrameCodec)
  | [] => .ok ([], codec)
  | chunk :: chunks =>
    match codec.feed chunk with
    | (.error e, _) => .error e
    | (.ok frames, codec') =>
      match feedAll codec' chunks with
      | .error e => .error e
      | .ok (later, last) => .ok (frames ++ later, last)

end FrameCodec

end Homie
