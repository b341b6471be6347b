/-
Numbers as decimal digits in text.

`decimal` writes a number and `parseUnsigned` is what the standard library reads for an unsigned
type; a number that the type holds is read back as it was written.
-/
import Mathlib
import Homie.Lib.Text

namespace Homie

/-- A number's `to_string`. -/
def decimal (number : Nat) : List UInt8 := Utf8.encode (toString number)

/-- The value of a run of digits. -/
def digitsValue (digits : List UInt8) : Nat :=
  digits.foldl (fun value digit => 10 * value + (digit.toNat - 48)) 0

/-- `str::parse` for an unsigned type with this many values; one plus sign is taken. -/
def parseUnsigned (values : Nat) (text : List UInt8) : Option Nat :=
  let digits := match text with
    | 0x2b :: digits => digits
    | digits => digits
  if digits.isEmpty then none
  else if digits.all fun digit => 0x30 ≤ digit && digit ≤ 0x39 then
    if digitsValue digits < values then some (digitsValue digits) else none
  else none

theorem toNat_digit {c : Char} (h : c.isDigit) : 48 ≤ c.toNat ∧ c.toNat ≤ 57 := by
  simp only [Char.isDigit, Bool.and_eq_true, decide_eq_true_eq] at h
  exact ⟨UInt32.le_iff_toNat_le.mp h.1, UInt32.le_iff_toNat_le.mp h.2⟩

theorem encodeChar_digit {c : Char} (h : c.isDigit) :
    String.utf8EncodeChar c = [UInt8.ofNat c.toNat] := by
  have hle : c.val.toNat ≤ 0x7f := Nat.le_trans (toNat_digit h).2 (by decide)
  unfold String.utf8EncodeChar
  exact if_pos hle

/-- A digit's byte holds it. -/
theorem toNat_byte_digit {c : Char} (h : c.isDigit) : (UInt8.ofNat c.toNat).toNat = c.toNat := by
  have hle := (toNat_digit h).2
  simp only [UInt8.toNat_ofNat']
  omega

theorem decimal_eq (number : Nat) :
    decimal number = (Nat.toDigits 10 number).map fun c => UInt8.ofNat c.toNat := by
  have htext : (toString number).toList = Nat.toDigits 10 number := by
    rw [Nat.toString_eq_ofList_toDigits, String.toList_ofList]
  have hdigits : ∀ c ∈ Nat.toDigits 10 number,
      String.utf8EncodeChar c = [UInt8.ofNat c.toNat] := by
    intro c hc
    exact encodeChar_digit (Nat.isDigit_of_mem_toDigits (by decide) (by decide) hc)
  unfold decimal Utf8.encode
  rw [htext, List.flatMap_congr hdigits, List.map_eq_flatMap]

theorem length_decimal_le {number digits : Nat} (hpos : 0 < digits) (h : number < 10 ^ digits) :
    (decimal number).length ≤ digits := by
  rw [decimal_eq, List.length_map]
  exact (Nat.length_toDigits_le_iff (by decide) hpos).mpr h

/-- Every byte of a number is a digit. -/
theorem digit_of_mem_decimal {number : Nat} {byte : UInt8} (h : byte ∈ decimal number) :
    0x30 ≤ byte ∧ byte ≤ 0x39 := by
  rw [decimal_eq] at h
  obtain ⟨c, hc, rfl⟩ := List.mem_map.mp h
  have hdigit := Nat.isDigit_of_mem_toDigits (by decide) (by decide) hc
  have hrange := toNat_digit hdigit
  rw [UInt8.le_iff_toNat_le, UInt8.le_iff_toNat_le, toNat_byte_digit hdigit]
  exact hrange

theorem decimal_ne_nil (number : Nat) : decimal number ≠ [] := by
  rw [decimal_eq]
  simp

theorem digitsValue_decimal (number : Nat) : digitsValue (decimal number) = number := by
  have hvalue : ∀ (digits : List Char), (∀ c ∈ digits, c.isDigit) → ∀ value,
      (digits.map fun c => UInt8.ofNat c.toNat).foldl
          (fun value digit => 10 * value + (digit.toNat - 48)) value
        = Nat.ofDigitChars 10 digits value := by
    intro digits
    induction digits with
    | nil => exact fun _ _ => rfl
    | cons c digits ih =>
      intro hdigits value
      have hc := toNat_byte_digit (hdigits c List.mem_cons_self)
      simp only [List.map_cons, List.foldl_cons, hc]
      exact ih (fun other hother => hdigits other (List.mem_cons_of_mem _ hother)) _
  unfold digitsValue
  rw [decimal_eq, hvalue _ fun c hc => Nat.isDigit_of_mem_toDigits (by decide) (by decide) hc]
  exact Nat.ofDigitChars_ten_toDigits

theorem parseUnsigned_decimal_eq (values number : Nat) :
    parseUnsigned values (decimal number) = if number < values then some number else none := by
  have hplus : ∀ digits, decimal number ≠ 0x2b :: digits := by
    intro digits heq
    have hmem : (0x2b : UInt8) ∈ decimal number := heq ▸ List.mem_cons_self
    exact absurd (digit_of_mem_decimal hmem) (by decide)
  have hempty : (decimal number).isEmpty = false := by
    simpa using decimal_ne_nil number
  have hall : ((decimal number).all fun digit => 0x30 ≤ digit && digit ≤ 0x39) = true := by
    simp only [List.all_eq_true, Bool.and_eq_true, decide_eq_true_eq]
    exact fun byte hbyte => digit_of_mem_decimal hbyte
  unfold parseUnsigned
  split
  · exact absurd ‹_› (hplus _)
  · simp only [hempty, hall, digitsValue_decimal, Bool.false_eq_true, if_false, if_true]

theorem parseUnsigned_decimal {values number : Nat} (h : number < values) :
    parseUnsigned values (decimal number) = some number := by
  rw [parseUnsigned_decimal_eq, if_pos h]

end Homie

/-! ### Hexadecimal digits and what they stand for

Reading the digits gives the number back, and zeros in front change nothing, so that numbers
printed to a fixed width are told apart.
-/

namespace Homie.Hexadecimal

def digitValue (c : Char) : Nat := ((List.range 16).map Nat.digitChar).idxOf c

theorem digitValue_digitChar {d : Nat} (h : d < 16) : digitValue d.digitChar = d := by
  have hall : ∀ d < 16, digitValue d.digitChar = d := by decide
  exact hall d h

def valueFrom (value : Nat) (digits : List Char) : Nat :=
  digits.foldl (fun value c => 16 * value + digitValue c) value

def value (digits : List Char) : Nat := valueFrom 0 digits

/-- The digits of a number stand for it. -/
theorem value_toDigits (n : Nat) : value (Nat.toDigits 16 n) = n := by
  induction n using Nat.strongRecOn with
  | ind n ih =>
    by_cases hlt : n < 16
    · rw [Nat.toDigits_of_lt_base hlt]
      simp [value, valueFrom, digitValue_digitChar hlt]
    · have hrec := ih (n / 16) (by omega)
      unfold value valueFrom at hrec ⊢
      rw [Nat.toDigits_of_base_le (by decide) (by omega), List.foldl_append, hrec]
      simp only [List.foldl_cons, List.foldl_nil]
      rw [digitValue_digitChar (Nat.mod_lt _ (by decide))]
      omega

/-- Zeros in front count for nothing. -/
theorem value_padded (count : Nat) (digits : List Char) :
    value (List.replicate count '0' ++ digits) = value digits := by
  induction count with
  | zero => rfl
  | succ count ih => exact ih

end Homie.Hexadecimal
