/-
A queue of messages that is written by bytes.

Messages are queued whole, but a non-blocking stream takes any number of bytes.  The
buffer is kept until all of it is written; `sent` counts the bytes that went out.
`complete` says how many messages those bytes finish, and `rest` is what the peer does
not have yet.  Writing moves messages from `rest` to the peer and queueing appends to
`rest`, so what the peer has followed by `rest` is the stream of everything queued.
-/
import Mathlib

namespace Homie.Outbox

variable {μ : Type} (size : μ → Nat)

/-- The length of the buffer in bytes. -/
def total (messages : List μ) : Nat := (messages.map size).sum

/-- How many messages end within the first `sent` bytes. -/
def complete : List μ → Nat → Nat
  | [], _ => 0
  | message :: messages, sent =>
    if size message ≤ sent then complete messages (sent - size message) + 1 else 0

/-- The messages that are not wholly written. -/
def rest (messages : List μ) (sent : Nat) : List μ := messages.drop (complete size messages sent)

/-- The messages that writing on to `sent'` bytes finishes. -/
def finished (messages : List μ) (sent sent' : Nat) : List μ :=
  (messages.take (complete size messages sent')).drop (complete size messages sent)

/-- The last byte written is inside a message. -/
def midMessage (messages : List μ) (sent : Nat) : Prop :=
  total size (messages.take (complete size messages sent)) < sent

instance (messages : List μ) (sent : Nat) : Decidable (midMessage size messages sent) :=
  inferInstanceAs (Decidable (_ < _))

theorem total_concat (messages : List μ) (message : μ) :
    total size (messages ++ [message]) = total size messages + size message := by
  simp [total]

theorem complete_mono (messages : List μ) {sent sent' : Nat} (h : sent ≤ sent') :
    complete size messages sent ≤ complete size messages sent' := by
  induction messages generalizing sent sent' with
  | nil => exact Nat.le_refl _
  | cons message messages ih =>
    rw [complete, complete]
    by_cases hfits : size message ≤ sent
    · have hrest := ih (Nat.sub_le_sub_right h (size message))
      rw [if_pos hfits, if_pos (Nat.le_trans hfits h)]
      omega
    · rw [if_neg hfits]
      exact Nat.zero_le _

theorem complete_total (messages : List μ) :
    complete size messages (total size messages) = messages.length := by
  induction messages with
  | nil => rfl
  | cons message messages ih =>
    have htotal : total size (message :: messages) = size message + total size messages := rfl
    rw [complete, htotal, if_pos (Nat.le_add_right _ _), Nat.add_sub_cancel_left, ih,
      List.length_cons]

theorem complete_le_length (messages : List μ) (sent : Nat) :
    complete size messages sent ≤ messages.length := by
  induction messages generalizing sent with
  | nil => exact Nat.le_refl _
  | cons message messages ih =>
    have hrest := ih (sent - size message)
    rw [complete, List.length_cons]
    split <;> omega

/-! ### The stream -/

/-- Writing moves the finished messages to the peer. -/
theorem finished_append_rest (messages : List μ) {sent sent' : Nat} (h : sent ≤ sent') :
    finished size messages sent sent' ++ rest size messages sent' = rest size messages sent := by
  have hle := complete_mono size messages h
  unfold finished rest
  rw [List.drop_take]
  conv_rhs => rw [← List.take_append_drop
    (complete size messages sent' - complete size messages sent)
    (messages.drop (complete size messages sent))]
  rw [List.drop_drop]
  congr 2
  omega

/-- Everything is written: nothing is left. -/
theorem rest_total (messages : List μ) : rest size messages (total size messages) = [] := by
  unfold rest
  rw [complete_total, List.drop_length]

variable {size} (hsize : ∀ message, 0 < size message)
include hsize

theorem complete_concat {messages : List μ} {message : μ} {sent : Nat}
    (h : sent ≤ total size messages) :
    complete size (messages ++ [message]) sent = complete size messages sent := by
  induction messages generalizing sent with
  | nil =>
    have hzero : sent = 0 := Nat.le_zero.mp h
    have hpos := hsize message
    rw [List.nil_append, complete, complete, if_neg (by omega)]
  | cons first messages ih =>
    have htotal : total size (first :: messages) = size first + total size messages := rfl
    rw [List.cons_append, complete, complete]
    by_cases hfits : size first ≤ sent
    · rw [if_pos hfits, if_pos hfits, ih (by omega)]
    · rw [if_neg hfits, if_neg hfits]

/-- Queueing appends to what is left. -/
theorem rest_concat {messages : List μ} {message : μ} {sent : Nat}
    (h : sent ≤ total size messages) :
    rest size (messages ++ [message]) sent = rest size messages sent ++ [message] := by
  unfold rest
  rw [complete_concat hsize h,
    List.drop_append_of_le_length (complete_le_length size messages sent)]

/-- Before the first byte nothing is written. -/
theorem rest_zero (messages : List μ) : rest size messages 0 = messages := by
  unfold rest
  cases messages with
  | nil => rfl
  | cons message messages =>
    have hpos := hsize message
    rw [complete, if_neg (by omega), List.drop_zero]

end Homie.Outbox
