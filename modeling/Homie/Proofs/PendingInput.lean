/-
Nothing typed is lost, doubled or reordered on its way into the PTY.

What was written followed by what is pending is the stream of the inputs that were pushed: a push
appends to it, and a write moves the boundary.  The Holder's queue as a list is the same queue
without its cursor (`flushInput_refines`).
-/
import Homie.Proofs.HolderSteps
import Homie.Remote.PendingInput

namespace Homie.Remote

open Trace

namespace PendingBytes

variable {pending : PendingBytes}

/-- The cursor is inside the buffer, where `remaining` can cut it. -/
def Sound (pending : PendingBytes) : Prop := pending.consumed ≤ pending.bytes.length

theorem length_remaining (pending : PendingBytes) : pending.remaining.length = pending.len :=
  List.length_drop

theorem Sound.push (h : pending.Sound) (bytes : List UInt8) : (pending.push bytes).Sound := by
  unfold PendingBytes.push
  split
  · exact Nat.zero_le _
  · show _ ≤ (pending.bytes ++ bytes).length
    rw [List.length_append]
    exact Nat.le_add_right_of_le h

theorem remaining_push (h : pending.Sound) (bytes : List UInt8) :
    (pending.push bytes).remaining = pending.remaining ++ bytes := by
  unfold PendingBytes.push
  split
  · next hall => simp [remaining, hall]
  · exact List.drop_append_of_le_length h

theorem Sound.consume {count : Nat} (hcount : count ≤ pending.len) (h : pending.Sound) :
    (pending.consume count).Sound := by
  unfold PendingBytes.consume
  split
  · exact Nat.le_refl 0
  · unfold Sound at h
    unfold len at hcount
    show pending.consumed + count ≤ pending.bytes.length
    omega

theorem remaining_consume (pending : PendingBytes) (count : Nat) :
    (pending.consume count).remaining = pending.remaining.drop count := by
  unfold PendingBytes.consume
  split
  · next hall =>
      show [] = (pending.bytes.drop pending.consumed).drop count
      rw [List.drop_drop, hall, List.drop_length]
  · exact List.drop_drop.symm

end PendingBytes

namespace InputQueue

/-- The cursor is sound, and written and pending together are the stream. -/
structure Carries (queue : InputQueue) (stream : List UInt8) : Prop where
  sound : queue.pending.Sound
  stream : queue.written ++ queue.pending.remaining = stream
  fits : queue.pending.len ≤ maxPendingInputBytes

variable {queue : InputQueue} {stream : List UInt8}

theorem length_taken_le (queue : InputQueue) (count : Nat) :
    (queue.pending.remaining.take count).length ≤ queue.pending.len := by
  rw [← queue.pending.length_remaining]
  exact List.length_take_le' count _

theorem remaining_accept (queue : InputQueue) (count : Nat) :
    (queue.accept count).pending.remaining = queue.pending.remaining.drop count := by
  show (queue.pending.consume _).remaining = _
  rw [PendingBytes.remaining_consume, List.length_take]
  rcases Nat.le_total count queue.pending.remaining.length with h | h
  · rw [Nat.min_eq_left h]
  · rw [Nat.min_eq_right h, List.drop_length, List.drop_of_length_le h]

theorem Carries.accept (h : queue.Carries stream) (count : Nat) :
    (queue.accept count).Carries stream := by
  refine ⟨h.sound.consume (queue.length_taken_le count), ?_, ?_⟩
  · show queue.written ++ queue.pending.remaining.take count ++ _ = stream
    rw [remaining_accept, List.append_assoc, List.take_append_drop]
    exact h.stream
  · rw [← PendingBytes.length_remaining, remaining_accept, List.length_drop,
      PendingBytes.length_remaining]
    exact Nat.le_trans (Nat.sub_le _ _) h.fits

theorem Carries.flushInput (h : queue.Carries stream) (writes : List (Except IoError Nat)) :
    (queue.flushInput writes).2.Carries stream := by
  induction writes generalizing queue with
  | nil => exact h
  | cons result writes ih =>
    unfold InputQueue.flushInput
    split
    · exact h
    · match result with
      | .ok 0 => exact h
      | .ok (count + 1) => exact ih (h.accept (count + 1))
      | .error e =>
        dsimp only
        split
        · exact h
        · split
          · exact ih h
          · exact h

theorem Carries.step (h : queue.Carries stream) (event : Event) :
    (queue.step event).1.Carries (stream ++ pushed (take InputQueue.step queue event)) := by
  cases event with
  | writable writes =>
    show (queue.flushInput writes).2.Carries (stream ++ [])
    rw [List.append_nil]
    exact h.flushInput writes
  | input bytes writes =>
    show (queue.writeInput bytes writes).2.Carries
      (stream ++ if queue.takes bytes then bytes else [])
    unfold writeInput takes
    by_cases hbytes : bytes = []
    · rw [if_pos hbytes]
      simpa [hbytes] using h
    · rw [if_neg hbytes]
      by_cases hfull : queue.pending.len + bytes.length > maxPendingInputBytes
      · rw [if_pos hfull]
        simpa [hbytes, Nat.not_le.mpr hfull] using h
      · rw [if_neg hfull]
        rw [if_pos (by simpa [hbytes] using Nat.not_lt.mp hfull)]
        refine Carries.flushInput ⟨h.sound.push bytes, ?_, ?_⟩ writes
        · show queue.written ++ (queue.pending.push bytes).remaining = _
          rw [PendingBytes.remaining_push h.sound, ← List.append_assoc, h.stream]
        · show (queue.pending.push bytes).len ≤ _
          rw [← PendingBytes.length_remaining, PendingBytes.remaining_push h.sound,
            List.length_append, PendingBytes.length_remaining]
          exact Nat.not_lt.mp hfull

/-- **The input queue is a queue.** After any inputs and any answers of the PTY, what was written
followed by what is pending is everything that was pushed, in order; the count of pending bytes
is how many there are, and it stays within its limit. -/
theorem input_queue_fifo (events : List Event) :
    (run step new events).written ++ (run step new events).pending.remaining
        = ((trace step new events).map pushed).flatten ∧
      (run step new events).pending.len = (run step new events).pending.remaining.length ∧
      (run step new events).pending.len ≤ maxPendingInputBytes ∧
      (run step new events).pending.consumed ≤ (run step new events).pending.bytes.length := by
  have hrun : (run step new events).Carries ((trace step new events).map pushed).flatten := by
    refine trace_invariant step (P := fun history queue =>
      queue.Carries (history.map pushed).flatten) ?_ ?_ events
    · exact ⟨Nat.le_refl 0, rfl, Nat.zero_le _⟩
    · intro history queue event h
      have hnext := h.step event
      rwa [List.map_append, List.flatten_append, List.map_singleton, List.flatten_singleton]
  exact ⟨hrun.stream, (PendingBytes.length_remaining _).symm, hrun.fits, hrun.sound⟩

/-! ### The queue of the Holder -/

/-- The Holder's list is what the buffer has left. -/
structure Refines {T : Type} (queue : InputQueue) (h : Holder T) : Prop where
  pending : h.pendingInput = queue.pending.remaining
  written : h.pty.written = queue.written

variable {T : Type} {h : Holder T}

theorem flushInput_refines (hq : queue.Refines h) (writes : List (Except IoError Nat)) :
    (h.flushInput writes).1 = (queue.flushInput writes).1 ∧
      (queue.flushInput writes).2.Refines (h.flushInput writes).2 := by
  induction writes generalizing queue h with
  | nil => exact ⟨rfl, hq⟩
  | cons result writes ih =>
    have hempty : h.pendingInput = [] ↔ queue.pending.len = 0 := by
      rw [hq.pending, ← queue.pending.length_remaining, List.length_eq_zero_iff]
    unfold Holder.flushInput InputQueue.flushInput
    by_cases hlen : queue.pending.len = 0
    · rw [if_pos hlen, if_pos (hempty.mpr hlen)]
      exact ⟨rfl, hq⟩
    · rw [if_neg hlen, if_neg (mt hempty.mp hlen)]
      rcases result with e | _ | count
      · dsimp only
        split
        · exact ⟨rfl, hq⟩
        · split
          · exact ih hq
          · exact ⟨rfl, hq⟩
      · exact ⟨rfl, hq⟩
      · refine ih ⟨?_, ?_⟩
        · show h.pendingInput.drop (count + 1) = _
          rw [remaining_accept, hq.pending]
        · show h.pty.written ++ h.pendingInput.take (count + 1) = _
          rw [hq.written, hq.pending]
          rfl

theorem writeInput_refines (hq : queue.Refines h) (hsound : queue.pending.Sound)
    (bytes : List UInt8) (writes : List (Except IoError Nat)) :
    (h.writeInput bytes writes).1 = (queue.writeInput bytes writes).1 ∧
      (queue.writeInput bytes writes).2.Refines (h.writeInput bytes writes).2 := by
  have hlength : h.pendingInput.length = queue.pending.len := by
    rw [hq.pending, PendingBytes.length_remaining]
  unfold Holder.writeInput InputQueue.writeInput
  rw [hlength]
  split
  · exact ⟨rfl, hq⟩
  · split
    · exact ⟨rfl, hq⟩
    · have hpushed : ({ queue with pending := queue.pending.push bytes } : InputQueue).Refines
          { h with
            pendingInput := h.pendingInput ++ bytes
            interactiveGridBudget := Remote.interactiveGridBudget } := by
        refine ⟨?_, hq.written⟩
        show h.pendingInput ++ bytes = (queue.pending.push bytes).remaining
        rw [PendingBytes.remaining_push hsound, hq.pending]
      exact flushInput_refines hpushed writes

/-- The same events on a Holder. -/
def holderStep (h : Holder T) : Event → Holder T × IoResult
  | .input bytes writes => (h.writeInput bytes writes).swap
  | .writable writes => (h.flushInput writes).swap

theorem step_refines (hq : queue.Refines h) (hsound : queue.pending.Sound) (event : Event) :
    (holderStep h event).2 = (queue.step event).2 ∧
      (queue.step event).1.Refines (holderStep h event).1 := by
  cases event with
  | input bytes writes => exact writeInput_refines hq hsound bytes writes
  | writable writes => exact flushInput_refines hq writes

theorem run_refines (events : List Event) (hq : queue.Refines h) (hcarries : queue.Carries stream) :
    (trace holderStep h events).map Step.outcome = (trace step queue events).map Step.outcome ∧
      (run step queue events).Refines (run holderStep h events) := by
  induction events generalizing queue h stream with
  | nil => exact ⟨rfl, hq⟩
  | cons event events ih =>
    obtain ⟨houtcome, hnext⟩ := step_refines hq hcarries.sound event
    obtain ⟨houtcomes, hlast⟩ := ih hnext (hcarries.step event)
    refine ⟨?_, hlast⟩
    rw [trace, trace, List.map_cons, List.map_cons, houtcomes]
    exact congrArg (· :: _) houtcome

/-- **The Holder's queue is the code's.** Whatever is typed and however the PTY answers, a Holder
that keeps its pending input as a list answers as the buffer with its cursor does, and has typed
and kept the same bytes. -/
theorem holder_queue_refines (h : Holder T) (hpending : h.pendingInput = [])
    (hwritten : h.pty.written = []) (events : List Event) :
    (trace holderStep h events).map Step.outcome = (trace step new events).map Step.outcome ∧
      (run holderStep h events).pendingInput = (run step new events).pending.remaining ∧
      (run holderStep h events).pty.written = (run step new events).written := by
  have hnew : new.Carries [] := ⟨Nat.le_refl 0, rfl, Nat.zero_le _⟩
  obtain ⟨houtcomes, hlast⟩ := run_refines events ⟨hpending, hwritten⟩ hnew
  exact ⟨houtcomes, hlast.pending, hlast.written⟩

theorem holder_queue_refines_launched :
    (run holderStep (Holder.new LineTerm.platform "s" "1" 7 80 24)
      [.input [97, 98] [.ok 1]]).pendingInput = [98] := by
  have hrefines := holder_queue_refines (Holder.new LineTerm.platform "s" "1" 7 80 24) rfl rfl
    [.input [97, 98] [.ok 1]]
  exact hrefines.2.1

end InputQueue

end Homie.Remote
