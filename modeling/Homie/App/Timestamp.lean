/-
The timestamps of the app's usage reader: `homie-app/src/usage/timestamp.rs`.
-/
import Homie.Lib.Lines
import Homie.Lib.Text

namespace Homie.App.Timestamp

open Lines (Bytes)

/-- `u8::is_ascii_digit` -/
def isAsciiDigit (byte : UInt8) : Bool := 0x30 ≤ byte && byte ≤ 0x39

/-- One round of the loop in `number`. -/
def pushDigit (result : Int) (byte : UInt8) : Option Int :=
  if isAsciiDigit byte then some (result * 10 + (byte - 0x30).toNat) else none

def number (bytes : Bytes) (start stop : Nat) : Option Int :=
  if start ≤ stop ∧ stop ≤ bytes.length then ((bytes.take stop).drop start).foldlM pushDigit 0
  else none

def daysInMonth (year month : Int) : Int :=
  if month = 2 then
    if year.tmod 4 = 0 ∧ (year.tmod 100 ≠ 0 ∨ year.tmod 400 = 0) then 29 else 28
  else if month = 4 ∨ month = 6 ∨ month = 9 ∨ month = 11 then 30
  else 31

/-- Howard Hinnant's civil-date conversion, shifted to the Unix epoch. -/
def daysFromCivil (year month day : Int) : Int :=
  let adjustedYear := year - if month ≤ 2 then 1 else 0
  let era := (if adjustedYear ≥ 0 then adjustedYear else adjustedYear - 399).tdiv 400
  let yearOfEra := adjustedYear - era * 400
  let shiftedMonth := month + if month > 2 then -3 else 9
  let dayOfYear := (153 * shiftedMonth + 2).tdiv 5 + day - 1
  let dayOfEra := yearOfEra * 365 + yearOfEra.tdiv 4 - yearOfEra.tdiv 100 + dayOfYear
  era * 146097 + dayOfEra - 719468

/-- The cursor after a fraction, or none if a point is all there is of it. -/
def skipFraction (bytes : Bytes) (cursor : Nat) : Option Nat :=
  if bytes[cursor]? = some 0x2e then
    let digits := (bytes.drop (cursor + 1)).takeWhile isAsciiDigit
    if digits = [] then none else some (cursor + 1 + digits.length)
  else some cursor

/-- The seconds of the offset that ends the text. -/
def offsetAt (bytes : Bytes) (cursor : Nat) : Option Int :=
  match bytes[cursor]? with
  | some 0x5a => if cursor + 1 = bytes.length then some 0 else none
  | some sign =>
    if (sign = 0x2b ∨ sign = 0x2d) ∧ cursor + 6 = bytes.length
        ∧ bytes[cursor + 3]? = some 0x3a then do
      let hours ← number bytes (cursor + 1) (cursor + 3)
      let minutes ← number bytes (cursor + 4) (cursor + 6)
      if hours > 23 ∨ minutes > 59 then none
      else
        let seconds := hours * 3600 + minutes * 60
        some (if sign = 0x2b then seconds else -seconds)
    else none
  | none => none

/-- Parse the ISO-8601 forms accepted by the Swift formatters, returning Unix seconds. -/
def parseTimestamp (value : String) : Option Int := do
  let bytes := Utf8.encode value
  if bytes.length < 20 ∨ bytes[4]? ≠ some 0x2d ∨ bytes[7]? ≠ some 0x2d ∨ bytes[10]? ≠ some 0x54
      ∨ bytes[13]? ≠ some 0x3a ∨ bytes[16]? ≠ some 0x3a then
    none
  let year ← number bytes 0 4
  let month ← number bytes 5 7
  let day ← number bytes 8 10
  let hour ← number bytes 11 13
  let minute ← number bytes 14 16
  let second ← number bytes 17 19
  if ¬(1 ≤ month ∧ month ≤ 12) ∨ day = 0 ∨ day > daysInMonth year month ∨ hour > 23
      ∨ minute > 59 ∨ second > 59 then
    none
  let cursor ← skipFraction bytes 19
  let offset ← offsetAt bytes cursor
  return daysFromCivil year month day * 86400 + (hour * 3600 + minute * 60 + second) - offset

end Homie.App.Timestamp
