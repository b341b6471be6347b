/-
The proleptic Gregorian calendar, as the days its years and months have.

A day is numbered by the days before it, summed over whole years and then over whole months.
Programs do not sum: they have a formula, and `Date.dayNumber_eq` is the one to compare it with.
-/
import Mathlib
import Homie.Lib.Text

namespace Homie.Calendar

def IsLeap (year : Int) : Prop := year % 4 = 0 ∧ (year % 100 ≠ 0 ∨ year % 400 = 0)

instance (year : Int) : Decidable (IsLeap year) :=
  inferInstanceAs (Decidable (_ ∧ (_ ∨ _)))

def yearDays (year : Int) : Int := if IsLeap year then 366 else 365

def monthDays (year : Int) (month : Nat) : Nat :=
  match month with
  | 2 => if IsLeap year then 29 else 28
  | 4 | 6 | 9 | 11 => 30
  | _ => 31

theorem monthDays_le (year : Int) (month : Nat) : monthDays year month ≤ 31 := by
  unfold monthDays
  split
  · split <;> decide
  all_goals decide

/-- The days of as many years, from one on. -/
def daysOfYears (start : Int) (count : Nat) : Int := ∑ k ∈ Finset.range count, yearDays (start + k)

/-- The first of January, counted from the one of 1970. -/
def yearStart (year : Int) : Int :=
  daysOfYears 1970 (year - 1970).toNat - daysOfYears year (1970 - year).toNat

/-- The first of a month, counted from the first of January. -/
def monthStart (year : Int) (month : Nat) : Nat := ∑ m ∈ Finset.Ico 1 month, monthDays year m

/-- A day there is. -/
structure Date where
  year : Int
  month : Nat
  day : Nat
  month_mem : 1 ≤ month ∧ month ≤ 12
  day_mem : 1 ≤ day ∧ day ≤ monthDays year month

/-- The days from the first of January 1970 to the date. -/
def Date.dayNumber (date : Date) : Int :=
  yearStart date.year + monthStart date.year date.month + (date.day - 1)

/-- What a clock shows that is `offset` seconds ahead of UTC. -/
structure Moment where
  date : Date
  hour : Fin 24
  minute : Fin 60
  second : Fin 60
  offset : Int

/-- The whole seconds from the start of 1970 in UTC to the moment. -/
def Moment.seconds (moment : Moment) : Int :=
  moment.date.dayNumber * 86400 + moment.hour * 3600 + moment.minute * 60 + moment.second
    - moment.offset

/-! ### Years in closed form -/

theorem daysOfYears_succ (start : Int) (count : Nat) :
    daysOfYears start (count + 1) = daysOfYears start count + yearDays (start + count) :=
  Finset.sum_range_succ ..

theorem daysOfYears_succ' (start : Int) (count : Nat) :
    daysOfYears start (count + 1) = yearDays start + daysOfYears (start + 1) count := by
  rw [daysOfYears, Finset.sum_range_succ', daysOfYears, add_comm, Nat.cast_zero, add_zero]
  congr 1
  refine Finset.sum_congr rfl fun k _ => congrArg yearDays ?_
  push_cast
  omega

theorem yearStart_succ (year : Int) : yearStart (year + 1) = yearStart year + yearDays year := by
  rcases le_or_gt 1970 year with hle | hlt
  · have hnext : (year + 1 - 1970).toNat = (year - 1970).toNat + 1 := by omega
    have hafter : (1970 - (year + 1)).toNat = (1970 - year).toNat := by omega
    have hnone : (1970 - year).toNat = 0 := by omega
    have hyear : 1970 + ((year - 1970).toNat : Int) = year := by omega
    rw [yearStart, yearStart, hnext, hafter, hnone, daysOfYears_succ, hyear]
    simp [daysOfYears]
  · have hthis : (1970 - year).toNat = (1970 - (year + 1)).toNat + 1 := by omega
    have hnext : (year + 1 - 1970).toNat = (year - 1970).toNat := by omega
    rw [yearStart, yearStart, hthis, hnext, daysOfYears_succ']
    omega

/-- A day for every fourth year, less one for every hundredth, and one again for every 400th. -/
theorem yearStart_eq (year : Int) :
    yearStart year =
      365 * (year - 1970) + (year - 1) / 4 - (year - 1) / 100 + (year - 1) / 400 - 477 := by
  have hstep (y : Int) : yearDays y = 365 + ((y / 4 - (y - 1) / 4) - (y / 100 - (y - 1) / 100)
      + (y / 400 - (y - 1) / 400)) := by
    rw [yearDays]
    split
    · rename_i hleap
      rw [IsLeap] at hleap
      omega
    · rename_i hplain
      rw [IsLeap] at hplain
      omega
  induction year using Int.inductionOn' (b := 1970) with
  | zero => rfl
  | succ year _ ih =>
    rw [yearStart_succ, ih, hstep]
    have hprev : year + 1 - 1 = year := by omega
    rw [hprev]
    omega
  | pred year _ ih =>
    have hback := yearStart_succ (year - 1)
    rw [hstep, sub_add_cancel, ih] at hback
    omega

/-! ### The formula -/

theorem monthStart_eq (year : Int) {month : Nat} (hmonth : 1 ≤ month ∧ month ≤ 12) :
    (monthStart year month : Int) =
      if month ≤ 2 then 31 * (month - 1 : Int)
      else (153 * (month - 3 : Int) + 2) / 5 + if IsLeap year then 60 else 59 := by
  obtain ⟨hlow, hhigh⟩ := hmonth
  by_cases hleap : IsLeap year <;> interval_cases month <;>
    simp [monthStart, Finset.sum_Ico_succ_top, monthDays, hleap]

/-- With years that start in March, the leap day is the last of its year. -/
theorem Date.dayNumber_eq (date : Date) :
    date.dayNumber =
      let year := if date.month ≤ 2 then date.year - 1 else date.year
      let month : Int := if date.month ≤ 2 then date.month + 9 else date.month - 3
      365 * year + year / 4 - year / 100 + year / 400 + (153 * month + 2) / 5 + date.day
        - 719469 := by
  obtain ⟨year, month, day, hmonth, hday⟩ := date
  rw [dayNumber, yearStart_eq, monthStart_eq year hmonth]
  by_cases hearly : month ≤ 2
  · simp only [if_pos hearly]
    omega
  · simp only [if_neg hearly]
    split
    · rename_i hleap
      rw [IsLeap] at hleap
      omega
    · rename_i hplain
      rw [IsLeap] at hplain
      omega

end Homie.Calendar

/-! ### Moments in the form of ISO 8601: `2026-07-22T15:34:56.5+03:00`

A moment has many spellings, by the digits of its fraction and by the way its offset is written,
so the form is a relation.  All of it is ASCII, and a byte of the text is a character.
-/

namespace Homie.Calendar

/-! ### Decimal digits -/

/-- The last `width` digits of a number. -/
def decimal : Nat → Nat → List Char
  | 0, _ => []
  | width + 1, n => decimal width (n / 10) ++ [Char.ofNat (48 + n % 10)]

@[simp] theorem length_decimal (width n : Nat) : (decimal width n).length = width := by
  induction width generalizing n with
  | zero => rfl
  | succ width ih => simp [decimal, ih]

theorem isDigit_ofNat {d : Nat} (hd : d < 10) : (Char.ofNat (48 + d)).isDigit = true := by
  revert d
  decide

theorem isDigit_of_mem_decimal {width n : Nat} {c : Char} (hc : c ∈ decimal width n) :
    c.isDigit = true := by
  induction width generalizing n with
  | zero => simp [decimal] at hc
  | succ width ih =>
    rcases List.mem_append.mp hc with hc | hc
    · exact ih hc
    · rw [List.mem_singleton.mp hc]
      exact isDigit_ofNat (Nat.mod_lt n (by decide))

/-! ### The form -/

/-- How far a clock is ahead of UTC or behind it, as it is written after the time. -/
inductive Offset where
  | zulu
  | shifted (behind : Bool) (hours : Fin 24) (minutes : Fin 60)
deriving DecidableEq, Repr

def Offset.seconds : Offset → Int
  | zulu => 0
  | shifted false hours minutes => hours * 3600 + minutes * 60
  | shifted true hours minutes => -(hours * 3600 + minutes * 60)

def Offset.spelling : Offset → List Char
  | zulu => ['Z']
  | shifted behind hours minutes =>
    (if behind then '-' else '+') :: (decimal 2 hours ++ ':' :: decimal 2 minutes)

/-- Nothing, or a point and the digits of a fraction. -/
inductive Fraction : List Char → Prop where
  | none : Fraction []
  | some {digits : List Char} (hsome : digits ≠ []) (hdigits : ∀ c ∈ digits, c.isDigit) :
      Fraction ('.' :: digits)

/-- The date and the time to the second. -/
def Moment.clock (moment : Moment) : List Char :=
  decimal 4 moment.date.year.toNat ++ '-' :: (decimal 2 moment.date.month ++ '-' ::
    (decimal 2 moment.date.day ++ 'T' :: (decimal 2 moment.hour ++ ':' ::
      (decimal 2 moment.minute ++ ':' :: decimal 2 moment.second))))

/-- The text is the moment, whose year has four digits. -/
def Spells (text : String) (moment : Moment) : Prop :=
  (0 ≤ moment.date.year ∧ moment.date.year ≤ 9999) ∧
  ∃ (fraction : List Char) (offset : Offset), Fraction fraction ∧ offset.seconds = moment.offset ∧
    text.toList = moment.clock ++ (fraction ++ offset.spelling)

/-! ### The form in bytes -/

/-- The bytes of ASCII characters. -/
def ascii (chars : List Char) : List UInt8 := chars.map fun c => UInt8.ofNat c.toNat

@[simp] theorem ascii_nil : ascii [] = [] := rfl

@[simp] theorem ascii_cons (c : Char) (chars : List Char) :
    ascii (c :: chars) = UInt8.ofNat c.toNat :: ascii chars := rfl

@[simp] theorem ascii_append (front back : List Char) :
    ascii (front ++ back) = ascii front ++ ascii back := List.map_append

@[simp] theorem length_ascii (chars : List Char) : (ascii chars).length = chars.length :=
  List.length_map _

theorem utf8EncodeChar_of_ascii {c : Char} (hc : c.toNat < 128) :
    String.utf8EncodeChar c = [UInt8.ofNat c.toNat] := by
  have hval : c.val.toNat ≤ 127 := Nat.le_of_lt_succ hc
  rw [String.utf8EncodeChar]
  exact if_pos hval

theorem encode_of_ascii {text : String} (hascii : ∀ c ∈ text.toList, c.toNat < 128) :
    Utf8.encode text = ascii text.toList := by
  have hchars : ∀ chars : List Char, (∀ c ∈ chars, c.toNat < 128) →
      chars.flatMap String.utf8EncodeChar = ascii chars := by
    intro chars hchars
    induction chars with
    | nil => rfl
    | cons c chars ih =>
      rw [List.flatMap_cons, utf8EncodeChar_of_ascii (hchars c List.mem_cons_self),
        ih fun d hd => hchars d (List.mem_cons_of_mem c hd)]
      rfl
  exact hchars _ hascii

/-- A text is told by its bytes, and these bytes are those of one. -/
theorem toList_of_encode {text : String} {chars : List Char} (hascii : ∀ c ∈ chars, c.toNat < 128)
    (h : Utf8.encode text = ascii chars) : text.toList = chars := by
  have hchars : (String.ofList chars).toList = chars := String.toList_ofList
  have hencode : Utf8.encode (String.ofList chars) = ascii chars := by
    rw [encode_of_ascii (by rwa [hchars]), hchars]
  rw [Utf8.encode_inj (h.trans hencode.symm), hchars]

/-! ### Every character of the form is ASCII -/

theorem toNat_lt_of_isDigit {c : Char} (hc : c.isDigit = true) : c.toNat < 128 := by
  simp only [Char.isDigit, Bool.and_eq_true, decide_eq_true_eq] at hc
  have hhigh : c.val.toNat ≤ 57 := hc.2
  exact Nat.lt_of_le_of_lt hhigh (by decide)

theorem toNat_lt_of_mem_fraction {fraction : List Char} (hfraction : Fraction fraction) {c : Char}
    (hc : c ∈ fraction) : c.toNat < 128 := by
  cases hfraction with
  | none => cases hc
  | some _ hdigits =>
    rcases List.mem_cons.mp hc with rfl | hc
    · decide
    · exact toNat_lt_of_isDigit (hdigits c hc)

theorem toNat_lt_of_mem_offset {offset : Offset} {c : Char} (hc : c ∈ offset.spelling) :
    c.toNat < 128 := by
  cases offset with
  | zulu =>
    rw [List.mem_singleton.mp hc]
    decide
  | shifted behind hours minutes =>
    rcases List.mem_cons.mp hc with rfl | hc
    · cases behind <;> decide
    · rcases List.mem_append.mp hc with hc | hc
      · exact toNat_lt_of_isDigit (isDigit_of_mem_decimal hc)
      · rcases List.mem_cons.mp hc with rfl | hc
        · decide
        · exact toNat_lt_of_isDigit (isDigit_of_mem_decimal hc)

theorem toNat_lt_of_mem_clock {moment : Moment} {c : Char} (hc : c ∈ moment.clock) :
    c.toNat < 128 := by
  have hdecimal {width n : Nat} (hc : c ∈ decimal width n) : c.toNat < 128 :=
    toNat_lt_of_isDigit (isDigit_of_mem_decimal hc)
  simp only [Moment.clock, List.mem_append, List.mem_cons] at hc
  rcases hc with hc | rfl | hc | rfl | hc | rfl | hc | rfl | hc | rfl | hc
  all_goals first | exact hdecimal hc | decide

theorem toNat_lt_of_mem_form {moment : Moment} {fraction : List Char} {offset : Offset}
    (hfraction : Fraction fraction) :
    ∀ c ∈ moment.clock ++ (fraction ++ offset.spelling), c.toNat < 128 := by
  intro c hc
  rw [List.mem_append, List.mem_append] at hc
  rcases hc with hc | hc | hc
  · exact toNat_lt_of_mem_clock hc
  · exact toNat_lt_of_mem_fraction hfraction hc
  · exact toNat_lt_of_mem_offset hc

end Homie.Calendar
