/-
The input a Holder has not typed into its PTY yet: `PendingBytes`, `write_input` and `flush_input`
of `homie-remote/src/holder.rs`.

The bytes stay in one buffer with a cursor, which is cleared once all of it is written.  The PTY's
answers to the writes are an argument; one that takes bytes takes a prefix of what it is offered.
-/
import Homie.Lib.Trace
import Homie.Remote.Holder

namespace Homie.Remote

structure PendingBytes where
  bytes : List UInt8
  consumed : Nat
deriving DecidableEq

namespace PendingBytes

def empty : PendingBytes := ⟨[], 0⟩

def push (pending : PendingBytes) (bytes : List UInt8) : PendingBytes :=
  if pending.consumed = pending.bytes.length then ⟨bytes, 0⟩
  else { pending with bytes := pending.bytes ++ bytes }

def consume (pending : PendingBytes) (count : Nat) : PendingBytes :=
  if pending.consumed + count = pending.bytes.length then empty
  else { pending with consumed := pending.consumed + count }

def remaining (pending : PendingBytes) : List UInt8 := pending.bytes.drop pending.consumed

def len (pending : PendingBytes) : Nat := pending.bytes.length - pending.consumed

end PendingBytes

/-- The queue and the PTY it is written to. -/
structure InputQueue where
  pending : PendingBytes
  written : List UInt8
deriving DecidableEq

namespace InputQueue

def new : InputQueue := ⟨.empty, []⟩

/-- The PTY takes as many bytes as it says, of those it was offered. -/
def accept (queue : InputQueue) (count : Nat) : InputQueue :=
  let taken := queue.pending.remaining.take count
  ⟨queue.pending.consume taken.length, queue.written ++ taken⟩

def flushInput (queue : InputQueue) : List (Except IoError Nat) → IoResult × InputQueue
  | [] => (.ok (), queue)
  | result :: writes =>
    if queue.pending.len = 0 then (.ok (), queue)
    else
      match result with
      | .ok 0 => (.error ⟨.writeZero, "PTY input write returned zero"⟩, queue)
      | .ok (count + 1) => (queue.accept (count + 1)).flushInput writes
      | .error e =>
        if e.kind = .wouldBlock then (.ok (), queue)
        else if e.kind = .interrupted then queue.flushInput writes
        else (.error e, queue)

/-- The input is pushed: there is some, and it fits. -/
def takes (queue : InputQueue) (bytes : List UInt8) : Bool :=
  bytes ≠ [] && queue.pending.len + bytes.length ≤ maxPendingInputBytes

def writeInput (queue : InputQueue) (bytes : List UInt8) (writes : List (Except IoError Nat)) :
    IoResult × InputQueue :=
  if bytes = [] then (.ok (), queue)
  else if queue.pending.len + bytes.length > maxPendingInputBytes then
    (.error ⟨.wouldBlock, "pending input queue is full"⟩, queue)
  else { queue with pending := queue.pending.push bytes }.flushInput writes

/-- An input arrives, or `poll` reports that the PTY takes bytes again. -/
inductive Event where
  | input (bytes : List UInt8) (writes : List (Except IoError Nat))
  | writable (writes : List (Except IoError Nat))

def step (queue : InputQueue) : Event → InputQueue × IoResult
  | .input bytes writes => (queue.writeInput bytes writes).swap
  | .writable writes => (queue.flushInput writes).swap

/-- What a step pushed. -/
def pushed (x : Trace.Step InputQueue Event IoResult) : List UInt8 :=
  match x.event with
  | .input bytes _ => if x.before.takes bytes then bytes else []
  | .writable _ => []

end InputQueue

end Homie.Remote
