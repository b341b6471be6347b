/-
Windows on a growing stream.

A log keeps pieces of one stream: a ring of recent elements, a file that starts at some
base, a buffer copied out for a reader.  `Sits stream offset piece` says that a piece is
what the stream holds from `offset` on.  It survives everything appended later, and a
window that the piece covers reads the same from both; a piece that reaches the end of
the stream goes on reaching it when both are appended to.
-/
import Mathlib

namespace Homie

variable {α : Type}

/-- `piece` is what `stream` holds from `offset` on. -/
def Sits (stream : List α) (offset : Nat) (piece : List α) : Prop :=
  offset ≤ stream.length ∧ piece <+: stream.drop offset

/-- `piece` is all that `stream` holds from `offset` on. -/
def Reaches (stream : List α) (offset : Nat) (piece : List α) : Prop :=
  offset ≤ stream.length ∧ piece = stream.drop offset

namespace Sits

variable {stream piece : List α} {offset : Nat}

theorem length_le (h : Sits stream offset piece) : offset + piece.length ≤ stream.length := by
  have hlen := h.2.length_le
  have hoff := h.1
  rw [List.length_drop] at hlen
  omega

/-- What was there stays there. -/
theorem append (h : Sits stream offset piece) (more : List α) :
    Sits (stream ++ more) offset piece := by
  refine ⟨?_, ?_⟩
  · rw [List.length_append]
    exact Nat.le_add_right_of_le h.1
  · rw [List.drop_append_of_le_length h.1]
    exact h.2.trans (List.prefix_append _ _)

/-- What a piece holds from one of its offsets on, the stream holds there. -/
theorem holds_from (h : Sits stream offset piece) {start : Nat} (hstart : offset ≤ start) :
    piece.drop (start - offset) <+: stream.drop start := by
  have hdrop := List.IsPrefix.drop h.2 (start - offset)
  rwa [List.drop_drop, Nat.add_sub_cancel' hstart] at hdrop

/-- The slice that ends at a stream offset inside the piece has all the bytes up to it. -/
theorem slice_eq (h : Sits stream offset piece) {start : Nat} (stop : Nat) (hstart : offset ≤ start)
    (hstop : stop ≤ offset + piece.length) :
    (piece.drop (start - offset)).take (stop - start) = (stream.drop start).take (stop - start) := by
  obtain ⟨rest, hrest⟩ := h.2
  by_cases hinside : start - offset ≤ piece.length
  · have hdrop : stream.drop start = piece.drop (start - offset) ++ rest := by
      rw [show start = offset + (start - offset) by omega, ← List.drop_drop, ← hrest,
        List.drop_append_of_le_length hinside]
      congr 2
      omega
    rw [hdrop, List.take_append_of_le_length (by rw [List.length_drop]; omega)]
  · have hzero : stop - start = 0 := by omega
    rw [hzero, List.take_zero, List.take_zero]

end Sits

namespace Reaches

variable {stream piece : List α} {offset : Nat}

theorem sits (h : Reaches stream offset piece) : Sits stream offset piece :=
  ⟨h.1, [], by rw [List.append_nil, h.2]⟩

theorem length_eq (h : Reaches stream offset piece) :
    offset + piece.length = stream.length := by
  rw [h.2, List.length_drop]
  have := h.1
  omega

/-- Appending to both keeps the piece at the end. -/
theorem append (h : Reaches stream offset piece) (more : List α) :
    Reaches (stream ++ more) offset (piece ++ more) := by
  refine ⟨?_, ?_⟩
  · rw [List.length_append]
    exact Nat.le_add_right_of_le h.1
  · rw [h.2, List.drop_append_of_le_length h.1]

/-- Dropping from the front moves the offset. -/
theorem drop (h : Reaches stream offset piece) {count : Nat} (hcount : count ≤ piece.length) :
    Reaches stream (offset + count) (piece.drop count) := by
  refine ⟨?_, ?_⟩
  · have := h.length_eq
    omega
  · rw [h.2, List.drop_drop]

theorem nil (stream : List α) : Reaches stream stream.length [] :=
  ⟨Nat.le_refl _, List.drop_length.symm⟩

end Reaches

end Homie
