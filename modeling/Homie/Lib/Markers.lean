/-
In-band markers in a stream of elements.

A marker is an opening sequence, a payload and a closing element.  `scan` takes the
markers out of a buffer: what is left is output, except that an open marker, or a tail
that may become one, stays behind as the rest.  Scanning in pieces, with the rest in front
of the next piece, is scanning at once (`scan_append`): where a stream is cut does not
matter.
-/
import Mathlib

namespace Homie

variable {α σ : Type}

/-- What a scan gives: the output, the last marker that decodes, and what it keeps back. -/
structure Scanned (α σ : Type) where
  output : List α
  status : Option σ
  rest : List α
deriving DecidableEq

namespace Scanned

def held (buffer : List α) : Scanned α σ := ⟨[], none, buffer⟩

/-- One scan after another: a later marker wins. -/
def andThen (earlier later : Scanned α σ) : Scanned α σ :=
  ⟨earlier.output ++ later.output, later.status.or earlier.status, later.rest⟩

@[simp] theorem held_andThen (buffer : List α) (later : Scanned α σ) :
    (held buffer).andThen later = later := by
  simp [held, andThen]

theorem andThen_assoc (a b c : Scanned α σ) : (a.andThen b).andThen c = a.andThen (b.andThen c) := by
  simp [andThen, Option.or_assoc]

end Scanned

open Scanned

variable [DecidableEq α] (opening : List α) (closing : α) (decode : List α → Option σ)

/-- Takes the markers out of a buffer. -/
def scan : List α → Scanned α σ
  | [] => held []
  | a :: tail =>
    if opening <+: a :: tail then
      match (a :: tail).findIdx? (· == closing) with
      | none => held (a :: tail)
      | some stop =>
        (Scanned.mk [] (decode (((a :: tail).take stop).drop opening.length)) []).andThen
          (scan (tail.drop stop))
    else if a :: tail <+: opening then held (a :: tail)
    else (Scanned.mk [a] none []).andThen (scan tail)
termination_by buffer => buffer.length
decreasing_by
  · simp only [List.length_drop, List.length_cons]
    omega
  · simp

@[simp] theorem scan_nil : scan opening closing decode [] = held [] := by
  rw [scan]

variable {opening closing decode}

/-- A buffer that may become a marker stays. -/
theorem scan_held {buffer : List α} (h : buffer <+: opening) (hne : buffer ≠ opening) :
    scan opening closing decode buffer = held buffer := by
  cases buffer with
  | nil => exact scan_nil _ _ _
  | cons a tail =>
    have hshort : ¬ opening <+: a :: tail := fun hback =>
      hne (h.eq_of_length (Nat.le_antisymm h.length_le hback.length_le))
    rw [scan, if_neg hshort, if_pos h]

/-- An element that opens nothing is output. -/
theorem scan_plain {a : α} {tail : List α} (hopen : ¬ opening <+: a :: tail)
    (htail : ¬ a :: tail <+: opening) :
    scan opening closing decode (a :: tail)
      = (Scanned.mk [a] none []).andThen (scan opening closing decode tail) := by
  rw [scan, if_neg hopen, if_neg htail]

/-- An open marker stays until it is closed. -/
theorem scan_open {buffer : List α} (hopen : opening <+: buffer)
    (hclosed : buffer.findIdx? (· == closing) = none) :
    scan opening closing decode buffer = held buffer := by
  cases buffer with
  | nil => exact scan_nil _ _ _
  | cons a tail => rw [scan, if_pos hopen, hclosed]

/-- A closed marker goes, and leaves what it decodes to. -/
theorem scan_closed {buffer : List α} (hopen : opening <+: buffer) {stop : Nat}
    (hclosed : buffer.findIdx? (· == closing) = some stop) :
    scan opening closing decode buffer
      = (Scanned.mk [] (decode ((buffer.take stop).drop opening.length)) []).andThen
          (scan opening closing decode (buffer.drop (stop + 1))) := by
  cases buffer with
  | nil => exact nomatch hclosed
  | cons a tail =>
    rw [scan, if_pos hopen, hclosed]
    rfl

/-- **A stream may be cut anywhere.** -/
theorem scan_append (buffer more : List α) :
    scan opening closing decode (buffer ++ more)
      = (scan opening closing decode buffer).andThen
          (scan opening closing decode ((scan opening closing decode buffer).rest ++ more)) := by
  induction hlen : buffer.length using Nat.strong_induction_on generalizing buffer with
  | _ n ih =>
    cases buffer with
    | nil => exact (held_andThen [] _).symm.trans (by simp [held])
    | cons a tail =>
      by_cases hopen : opening <+: a :: tail
      · cases hclosed : (a :: tail).findIdx? (· == closing) with
        | none =>
          rw [scan_open hopen hclosed]
          exact (held_andThen _ _).symm
        | some stop =>
          have hmore : (a :: tail ++ more).findIdx? (· == closing) = some stop := by
            rw [List.findIdx?_append, hclosed]
            rfl
          have hstop : stop < (a :: tail).length :=
            (List.findIdx?_eq_some_iff_findIdx_eq.mp hclosed).1
          rw [scan_closed (hopen.trans (List.prefix_append _ _)) hmore,
            scan_closed hopen hclosed, andThen_assoc,
            List.take_append_of_le_length (Nat.le_of_lt hstop),
            List.drop_append_of_le_length hstop,
            ih _ (by simp only [List.length_drop]; simp only [List.length_cons] at *; omega) _ rfl]
          rfl
      · by_cases htail : a :: tail <+: opening
        · rw [scan_held htail (fun heq => hopen (heq ▸ List.prefix_refl _))]
          exact (held_andThen _ _).symm
        · -- more elements neither complete the opening nor make this a part of it
          have hopen' : ¬ opening <+: a :: (tail ++ more) := by
            intro h
            rcases List.prefix_or_prefix_of_prefix h (List.prefix_append (a :: tail) more) with h | h
            · exact hopen h
            · exact htail h
          have htail' : ¬ a :: (tail ++ more) <+: opening := fun h =>
            htail ((List.prefix_append (a :: tail) more).trans h)
          rw [List.cons_append, scan_plain hopen' htail', scan_plain hopen htail, andThen_assoc,
            ih _ (by simp only [List.length_cons] at hlen; omega) tail rfl]
          rfl

/-- What a scan keeps back, it keeps back for good until more comes. -/
theorem scan_rest (buffer : List α) :
    scan opening closing decode (scan opening closing decode buffer).rest
      = held (scan opening closing decode buffer).rest := by
  induction hlen : buffer.length using Nat.strong_induction_on generalizing buffer with
  | _ n ih =>
    cases buffer with
    | nil =>
      rw [scan_nil]
      exact scan_nil _ _ _
    | cons a tail =>
      by_cases hopen : opening <+: a :: tail
      · cases hclosed : (a :: tail).findIdx? (· == closing) with
        | none =>
          have hscan : scan opening closing decode (a :: tail) = held (a :: tail) :=
            scan_open hopen hclosed
          rw [hscan]
          exact hscan
        | some stop =>
          rw [scan_closed hopen hclosed]
          exact ih _ (by simp only [List.length_drop]; simp only [List.length_cons] at *; omega)
            _ rfl
      · by_cases htail : a :: tail <+: opening
        · have hscan : scan opening closing decode (a :: tail) = held (a :: tail) :=
            scan_held htail fun heq => hopen (heq ▸ List.prefix_refl _)
          rw [hscan]
          exact hscan
        · rw [scan_plain hopen htail]
          exact ih _ (by simp only [List.length_cons] at hlen; omega) tail rfl

/-- Elements that open nothing are output up to the first that may. -/
theorem scan_skip {buffer : List α} {count : Nat} (hcount : count ≤ buffer.length)
    (hplain : ∀ i < count, ¬ opening <+: buffer.drop i ∧ ¬ buffer.drop i <+: opening) :
    scan opening closing decode buffer
      = (Scanned.mk (buffer.take count) none []).andThen
          (scan opening closing decode (buffer.drop count)) := by
  induction count generalizing buffer with
  | zero => exact (held_andThen [] _).symm
  | succ count ih =>
    cases buffer with
    | nil => exact absurd hcount (Nat.not_succ_le_zero _)
    | cons a tail =>
      have hfirst := hplain 0 (Nat.succ_pos _)
      rw [scan_plain hfirst.1 hfirst.2, ih (Nat.le_of_succ_le_succ hcount)
        fun i hi => hplain (i + 1) (Nat.succ_lt_succ hi), ← andThen_assoc]
      rfl

end Homie
