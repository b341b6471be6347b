/-
Where the node's timestamp parser cuts a character in two.

`parse_rfc3339_seconds` takes its pieces of the text by byte offsets.  A piece that starts or ends
inside a character is no piece of a string, and taking it panics.  The parser makes its tests in
one order and stops at the first that fails, so what counts is every offset it cuts at up to there.
-/
import Homie.App.Timestamp
import Homie.Lib.Calendar
import Homie.Node.Usage

namespace Homie.Usage

open Lines (Bytes)

/-! ### The tests of the parser -/

/-- The bytes from `start` to `stop`, wherever these lie. -/
def between (text : Bytes) (start stop : Nat) : Bytes := (text.take stop).drop start

/-- A test: the offsets the text is cut at for it, and whether the parser goes on after it. -/
structure Check where
  cuts : List Nat
  passes : Bool

/-- No offset is inside a character, up to the first test that fails. -/
def Unbroken (text : Bytes) : List Check → Prop
  | [] => True
  | check :: rest =>
    (∀ cut ∈ check.cuts, isCharBoundary text cut) ∧ (check.passes → Unbroken text rest)

/-- The tests of the date and of the time. -/
def clockChecks (text : Bytes) : List Check :=
  let reads (start stop : Nat) : Bool := (parseInteger (between text start stop)).isSome
  [ ⟨[4, 5], between text 4 5 == [0x2d]⟩,
    ⟨[7, 8], between text 7 8 == [0x2d]⟩,
    ⟨[10, 11], between text 10 11 == [0x54]⟩,
    ⟨[], reads 0 4⟩, ⟨[], reads 5 7⟩, ⟨[], reads 8 10⟩,
    ⟨[13], reads 11 13⟩, ⟨[14, 16], reads 14 16⟩, ⟨[17, 19], reads 17 19⟩ ]

/-- The tests of the offset after the last sign, if five bytes are left for it. -/
def zoneChecks (text : Bytes) : List Check :=
  match lastSign (text.drop 19) with
  | none => []
  | some position =>
    let zone := 19 + (position + 1)
    if text.length < zone + 5 then []
    else
      [ ⟨[zone + 2], (parseInteger (between text zone (zone + 2))).isSome⟩,
        ⟨[zone + 3, zone + 5], true⟩ ]

/-- No cut of the parser is inside a character. -/
def CutsWhole (text : Bytes) : Prop :=
  text.length < 20 ∨ Unbroken text (clockChecks text ++ zoneChecks text)

/-! ### Programs that return -/

/-- A program that does not stop on the way. -/
def Returns {α : Type} (program : Except Failure α) : Prop := ∃ result, program = .ok result

@[simp] theorem returns_pure {α : Type} (result : α) :
    Returns (pure result : Except Failure α) := ⟨result, rfl⟩

@[simp] theorem returns_slice_bind {α : Type} {text : Bytes} {start stop : Nat}
    (hle : start ≤ stop) (next : Bytes → Except Failure α) :
    Returns (slice text start stop >>= next) ↔
      isCharBoundary text start ∧ isCharBoundary text stop ∧
        Returns (next (between text start stop)) := by
  by_cases hcuts : isCharBoundary text start ∧ isCharBoundary text stop
  · have hslice : slice text start stop = .ok (between text start stop) := if_pos ⟨hle, hcuts⟩
    rw [hslice]
    exact ⟨fun h => ⟨hcuts.1, hcuts.2, h⟩, fun h => h.2.2⟩
  · have hslice : slice text start stop = .error .panic := if_neg fun h => hcuts h.2
    rw [hslice]
    constructor
    · rintro ⟨_, hresult⟩
      cases hresult
    · exact fun h => absurd ⟨h.1, h.2.1⟩ hcuts

theorem returns_guard {α : Type} {test : Prop} [Decidable test] {result : α}
    {next : Except Failure α} :
    Returns (if test then pure result else next) ↔ (¬test → Returns next) := by
  by_cases htest : test <;> simp [htest]

theorem returns_field {α : Type} {field : Option Int} {result : α}
    {next : Int → Except Failure α} {rest : Prop}
    (hrest : ∀ value, Returns (next value) ↔ rest) :
    Returns (match field with
      | some value => next value
      | _ => pure result) ↔ (field.isSome → rest) := by
  cases field <;> simp [hrest]

@[simp] theorem isCharBoundary_zero (text : Bytes) : isCharBoundary text 0 = true := rfl

@[simp] theorem isCharBoundary_length (text : Bytes) : isCharBoundary text text.length = true := by
  simp [isCharBoundary]

theorem isCharBoundary_drop {text : Bytes} {start index : Nat} (hpos : 0 < index) :
    isCharBoundary (text.drop start) index = isCharBoundary text (start + index) := by
  have hfirst : (index == 0) = (start + index == 0) := by
    rw [Bool.eq_iff_iff, beq_iff_eq, beq_iff_eq]
    omega
  have hlast : (index == text.length - start) = (start + index == text.length) := by
    rw [Bool.eq_iff_iff, beq_iff_eq, beq_iff_eq]
    omega
  rw [isCharBoundary, isCharBoundary, List.getElem?_drop, List.length_drop, hfirst, hlast]

theorem between_drop (text : Bytes) (start first last : Nat) :
    between (text.drop start) first last = between text (start + first) (start + last) := by
  rw [between, between, List.take_drop, List.drop_drop]

/-! ### The parser returns exactly where no cut is inside a character -/

theorem returns_iff (text : Bytes) : Returns (parseRfc3339Seconds text) ↔ CutsWhole text := by
  by_cases hlen : text.length < 20
  · simp [parseRfc3339Seconds, CutsWhole, hlen]
  · simp only [parseRfc3339Seconds, CutsWhole, hlen, false_or, clockChecks,
      List.cons_append, List.nil_append, Unbroken, List.forall_mem_cons, List.not_mem_nil,
      false_implies, implies_true, and_true, and_assoc, true_and, ne_eq, beq_iff_eq]
    simp (disch := omega) only [returns_slice_bind, returns_guard, not_not, not_false_eq_true,
      true_implies, isCharBoundary_zero, true_and]
    -- The pieces of the date are between marks, and cut where the marks have been cut out.
    refine and_congr_right fun h4 => and_congr_right fun h5 => imp_congr_right fun _ => ?_
    refine and_congr_right fun h7 => and_congr_right fun h8 => imp_congr_right fun _ => ?_
    refine and_congr_right fun h10 => and_congr_right fun h11 => imp_congr_right fun _ => ?_
    simp only [h4, true_and]
    refine returns_field fun year => ?_
    simp (disch := omega) only [h5, h7, true_and, returns_slice_bind]
    refine returns_field fun month => ?_
    simp (disch := omega) only [h8, h10, true_and, returns_slice_bind]
    refine returns_field fun day => ?_
    simp (disch := omega) only [h11, true_and, returns_slice_bind]
    refine and_congr_right fun _ => returns_field fun hour => ?_
    simp (disch := omega) only [returns_slice_bind]
    refine and_congr_right fun _ => and_congr_right fun _ => returns_field fun minute => ?_
    simp (disch := omega) only [returns_slice_bind]
    refine and_congr_right fun _ => and_congr_right fun h19 => returns_field fun second => ?_
    have hsuffix : between text 19 text.length = text.drop 19 := by
      rw [between, List.take_length]
    simp (disch := omega) only [h19, isCharBoundary_length, hsuffix, true_and, returns_slice_bind]
    cases hsign : lastSign (text.drop 19) with
    | none => simp [zoneChecks, hsign, Unbroken]
    | some position =>
      simp only [zoneChecks, hsign, List.drop_drop, returns_guard, List.length_drop]
      by_cases hroom : text.length < 19 + (position + 1) + 5
      · have hshort : text.length - (19 + (position + 1)) < 5 := by omega
        simp only [if_pos hroom, hshort, not_true_eq_false, false_implies, Unbroken]
      · have hlong : ¬text.length - (19 + (position + 1)) < 5 := by omega
        simp only [if_neg hroom, hlong, not_false_eq_true, true_implies, Unbroken,
          List.forall_mem_cons, List.not_mem_nil, false_implies, implies_true, and_true]
        simp (disch := omega) only [returns_slice_bind, isCharBoundary_drop, between_drop,
          isCharBoundary_zero, true_and, Nat.add_zero]
        refine and_congr_right fun _ => returns_field fun hours => ?_
        simp (disch := omega) only [returns_slice_bind, isCharBoundary_drop, between_drop]
        refine and_congr_right fun _ => and_iff_left ?_
        cases parseInteger _ <;> exact returns_pure _

/-- A text in ASCII is never cut inside a character. -/
theorem isCharBoundary_of_ascii {text : Bytes} (hascii : ∀ byte ∈ text, byte < 0x80) {index : Nat}
    (hle : index ≤ text.length) : isCharBoundary text index = true := by
  rcases Nat.lt_or_eq_of_le hle with hlt | rfl
  · have hbyte : text[index] < 0x80 := hascii _ (List.getElem_mem hlt)
    simp [isCharBoundary, hlt, hbyte]
  · exact isCharBoundary_length text

/-- The parser returns exactly where it cuts no character in two. -/
theorem parse_returns_iff (value : String) :
    (∃ result, parseRfc3339Seconds (Utf8.encode value) = .ok result) ↔
      CutsWhole (Utf8.encode value) :=
  returns_iff _

/-- The last digit of the year is an accented letter, and the line it stands in stops the import. -/
theorem accented_year_panics :
    parseRfc3339Seconds (Utf8.encode "202é-07-22T12:34:56Z") = .error .panic ∧
    eventTimestamp (.object [("timestamp", .string "202é-07-22T12:34:56Z")]) = .error .panic := by
  decide

end Homie.Usage

/-! ### The two timestamp parsers agree

What the app's parser takes are exactly the spellings of a moment, and it returns the moment's
seconds.  The node's parser tests less, but on a spelling it goes the same way: no other sign
stands after the offset's own, and all of the text is ASCII, so no cut is inside a character.
-/

namespace Homie.App.Timestamp

open Calendar
open Lines (Bytes)
open Usage (between)

/-! ### The calendar -/

theorem era_eq (year : Int) :
    (if year ≥ 0 then year else year - 399).tdiv 400 = year / 400 := by
  split
  · rename_i hpos
    exact Int.tdiv_eq_ediv_of_nonneg hpos
  · rename_i hneg
    have hsign : Int.sign 400 = 1 := rfl
    rw [Int.tdiv_eq_ediv, hsign]
    split <;> omega

theorem daysFromCivil_eq (date : Date) :
    daysFromCivil date.year date.month date.day = date.dayNumber := by
  have hmonth := date.month_mem
  rw [Date.dayNumber_eq, daysFromCivil]
  simp only [era_eq]
  by_cases hearly : date.month ≤ 2
  · have hint : (date.month : Int) ≤ 2 := by omega
    simp only [if_pos hearly, if_pos hint, if_neg (not_lt.mpr hint)]
    rw [Int.tdiv_eq_ediv_of_nonneg (by omega), Int.tdiv_eq_ediv_of_nonneg (by omega),
      Int.tdiv_eq_ediv_of_nonneg (by omega)]
    omega
  · have hint : ¬(date.month : Int) ≤ 2 := by omega
    simp only [if_neg hearly, if_neg hint, if_pos (not_le.mp hint)]
    rw [Int.tdiv_eq_ediv_of_nonneg (by omega), Int.tdiv_eq_ediv_of_nonneg (by omega),
      Int.tdiv_eq_ediv_of_nonneg (by omega)]
    omega

theorem node_daysFromCivil (year month day : Int) :
    Usage.daysFromCivil year month day = daysFromCivil year month day := by
  have hyear : (if month ≤ 2 then year - 1 else year) = year - if month ≤ 2 then 1 else 0 := by
    split <;> simp
  simp only [Usage.daysFromCivil, daysFromCivil, hyear]

theorem daysInMonth_eq (year : Int) {month : Nat} (hmonth : 1 ≤ month ∧ month ≤ 12) :
    daysInMonth year month = monthDays year month := by
  have hleap : (year.tmod 4 = 0 ∧ (year.tmod 100 ≠ 0 ∨ year.tmod 400 = 0)) ↔ IsLeap year := by
    simp only [IsLeap, ← Int.dvd_iff_tmod_eq_zero, ← Int.dvd_iff_emod_eq_zero, ne_eq]
  obtain ⟨hlow, hhigh⟩ := hmonth
  simp only [daysInMonth, hleap, monthDays]
  interval_cases month <;> simp

/-! ### Digits -/

/-- The byte of a digit. -/
def digitByte (d : Nat) : UInt8 := UInt8.ofNat (Char.ofNat (48 + d)).toNat

theorem digitByte_spec : ∀ d < 10, isAsciiDigit (digitByte d) ∧ (digitByte d - 0x30).toNat = d := by
  decide

theorem eq_digitByte {byte : UInt8} (hdigit : isAsciiDigit byte) :
    ∃ d < 10, byte = digitByte d := by
  simp only [isAsciiDigit, Bool.and_eq_true, decide_eq_true_eq, UInt8.le_iff_toNat_le] at hdigit
  have hlow : 48 ≤ byte.toNat := hdigit.1
  have hhigh : byte.toNat ≤ 57 := hdigit.2
  refine ⟨byte.toNat - 48, by omega, ?_⟩
  have hvalid : (48 + (byte.toNat - 48)).isValidChar := Or.inl (by omega)
  rw [digitByte, Char.toNat_ofNat, if_pos hvalid]
  have hback : 48 + (byte.toNat - 48) = byte.toNat := by omega
  rw [hback, UInt8.ofNat_toNat]

theorem pushDigit_eq_some {result n : Int} {byte : UInt8} :
    pushDigit result byte = some n ↔ ∃ d < 10, byte = digitByte d ∧ n = result * 10 + (d : Nat) := by
  rw [pushDigit]
  constructor
  · intro h
    split at h
    · rename_i hdigit
      obtain ⟨d, hd, rfl⟩ := eq_digitByte hdigit
      rw [(digitByte_spec d hd).2] at h
      exact ⟨d, hd, rfl, (Option.some.inj h).symm⟩
    · cases h
  · rintro ⟨d, hd, rfl, rfl⟩
    rw [if_pos (digitByte_spec d hd).1, (digitByte_spec d hd).2]

theorem ascii_decimal_succ (width n : Nat) :
    ascii (Calendar.decimal (width + 1) n)
      = ascii (Calendar.decimal width (n / 10)) ++ [digitByte (n % 10)] := by
  rw [Calendar.decimal, ascii_append]
  rfl

/-- A number is read off its own digits and off no others. -/
theorem foldlM_pushDigit {piece : Bytes} {n : Int} :
    piece.foldlM pushDigit 0 = some n ↔
      ∃ k < 10 ^ piece.length, piece = ascii (Calendar.decimal piece.length k) ∧ n = (k : Nat) := by
  induction piece using List.reverseRecOn generalizing n with
  | nil =>
    have hzero : (some 0 = some n) ↔ ∃ k < 1, n = ((k : Nat) : Int) := by
      simp [eq_comm]
    simpa [Calendar.decimal] using hzero
  | append_singleton piece byte ih =>
    rw [List.foldlM_append, Option.bind_eq_bind, Option.bind_eq_some_iff]
    simp only [List.foldlM_cons, List.foldlM_nil, Option.bind_eq_bind, Option.pure_def,
      Option.bind_fun_some, List.length_append, List.length_singleton, pushDigit_eq_some, ih,
      ascii_decimal_succ]
    constructor
    · rintro ⟨_, ⟨k, hk, hpiece, rfl⟩, d, hd, rfl, rfl⟩
      have hhigh : (10 * k + d) / 10 = k := by omega
      have hlow : (10 * k + d) % 10 = d := by omega
      refine ⟨10 * k + d, by rw [Nat.pow_succ]; omega, ?_, by push_cast; ring⟩
      rw [hhigh, hlow, ← hpiece]
    · rintro ⟨k, hk, hpiece, rfl⟩
      have hsplit := List.append_inj hpiece (by simp)
      refine ⟨(k / 10 : Nat), ⟨k / 10, by rw [Nat.pow_succ] at hk; omega, hsplit.1, rfl⟩,
        k % 10, Nat.mod_lt k (by decide), List.singleton_inj.mp hsplit.2, ?_⟩
      omega

/-! ### Pieces of a text -/

theorem drop_eq_between_append (text : Bytes) {start stop : Nat} (hle : start ≤ stop) :
    text.drop start = between text start stop ++ text.drop stop := by
  have hstop : start + (stop - start) = stop := by omega
  have hsplit := List.take_append_drop (stop - start) (text.drop start)
  rwa [List.drop_drop, hstop, ← List.drop_take, eq_comm] at hsplit

theorem between_succ {text : Bytes} {index : Nat} {byte : UInt8} (h : text[index]? = some byte) :
    between text index (index + 1) = [byte] := by
  obtain ⟨hlt, rfl⟩ := List.getElem?_eq_some_iff.mp h
  have hone : index + 1 - index = 1 := by omega
  rw [between, List.drop_take, hone, List.drop_eq_getElem_cons hlt]
  rfl

theorem length_between {text : Bytes} {start stop : Nat} (hlen : stop ≤ text.length) :
    (between text start stop).length = stop - start := by
  rw [between, List.length_drop, List.length_take, Nat.min_eq_left hlen]

theorem number_eq_some (width : Nat) {bytes : Bytes} {start stop : Nat} {n : Int}
    (hstop : stop = start + width) :
    number bytes start stop = some n ↔
      stop ≤ bytes.length ∧ ∃ k < 10 ^ width,
        between bytes start stop = ascii (Calendar.decimal width k) ∧ n = (k : Nat) := by
  have hwidth : stop - start = width := by omega
  rw [number]
  by_cases hlen : stop ≤ bytes.length
  · rw [if_pos ⟨by omega, hlen⟩]
    have hpiece := @foldlM_pushDigit (between bytes start stop) n
    rw [length_between hlen, hwidth] at hpiece
    exact hpiece.trans (and_iff_right hlen).symm
  · rw [if_neg fun h => hlen h.2]
    simp [hlen]

/-! ### What follows the time -/

theorem ascii_of_digits (piece : Bytes) (hdigits : ∀ byte ∈ piece, isAsciiDigit byte) :
    ∃ chars : List Char, piece = ascii chars ∧ ∀ c ∈ chars, c.isDigit := by
  induction piece with
  | nil => exact ⟨[], rfl, fun _ hc => nomatch hc⟩
  | cons byte piece ih =>
    obtain ⟨chars, rfl, hchars⟩ := ih fun b hb => hdigits b (List.mem_cons_of_mem byte hb)
    obtain ⟨d, hd, rfl⟩ := eq_digitByte (hdigits byte List.mem_cons_self)
    exact ⟨Char.ofNat (48 + d) :: chars, rfl, List.forall_mem_cons.mpr ⟨isDigit_ofNat hd, hchars⟩⟩

theorem isAsciiDigit_of_isDigit {c : Char} (hc : c.isDigit) :
    isAsciiDigit (UInt8.ofNat c.toNat) := by
  simp only [Char.isDigit, Bool.and_eq_true, decide_eq_true_eq] at hc
  have hlow : 48 ≤ c.toNat := hc.1
  have hhigh : c.toNat ≤ 57 := hc.2
  have hback : (UInt8.ofNat c.toNat).toNat = c.toNat := by
    rw [UInt8.toNat_ofNat']
    omega
  simp only [isAsciiDigit, Bool.and_eq_true, decide_eq_true_eq, UInt8.le_iff_toNat_le, hback]
  exact ⟨hlow, hhigh⟩

theorem drop_takeWhile {α : Type} (p : α → Bool) (l : List α) :
    l.drop (l.takeWhile p).length = l.dropWhile p :=
  calc l.drop (l.takeWhile p).length
      = (l.takeWhile p ++ l.dropWhile p).drop (l.takeWhile p).length := by
        rw [List.takeWhile_append_dropWhile]
    _ = l.dropWhile p := List.drop_left

theorem skipFraction_form {bytes : Bytes} {cursor next : Nat}
    (h : skipFraction bytes cursor = some next) :
    ∃ fraction, Fraction fraction ∧ bytes.drop cursor = ascii fraction ++ bytes.drop next := by
  rw [skipFraction] at h
  split at h
  · rename_i hpoint
    obtain ⟨hlt, hbyte⟩ := List.getElem?_eq_some_iff.mp hpoint
    simp only [Option.ite_none_left_eq_some, Option.some.injEq] at h
    obtain ⟨hsome, rfl⟩ := h
    generalize hrest : bytes.drop (cursor + 1) = rest at hsome ⊢
    obtain ⟨digits, hdigits, hall⟩ := ascii_of_digits (rest.takeWhile isAsciiDigit)
      fun byte hbyte => List.mem_takeWhile_imp hbyte
    have hnonempty : digits ≠ [] := fun h => hsome (by rw [hdigits, h, ascii_nil])
    refine ⟨'.' :: digits, .some hnonempty hall, ?_⟩
    rw [← List.drop_drop, List.drop_eq_getElem_cons hlt, hrest, hbyte, drop_takeWhile, ascii_cons,
      ← hdigits, List.cons_append, List.takeWhile_append_dropWhile]
    rfl
  · cases h
    exact ⟨[], .none, rfl⟩

theorem offset_spelling_cons (offset : Offset) :
    ∃ byte rest, ascii offset.spelling = byte :: rest ∧ isAsciiDigit byte = false ∧ byte ≠ 0x2e := by
  cases offset with
  | zulu => exact ⟨_, _, rfl, by decide, by decide⟩
  | shifted behind hours minutes =>
    refine ⟨_, _, rfl, ?_, ?_⟩ <;> cases behind <;> decide

theorem skipFraction_of_form {bytes : Bytes} {cursor : Nat} {fraction : List Char} {offset : Offset}
    (hfraction : Fraction fraction)
    (h : bytes.drop cursor = ascii (fraction ++ offset.spelling)) :
    skipFraction bytes cursor = some (cursor + fraction.length) := by
  obtain ⟨byte, rest, hspelling, hdigit, hpoint⟩ := offset_spelling_cons offset
  have hfirst : bytes[cursor]? = (ascii fraction ++ byte :: rest)[0]? := by
    rw [← hspelling, ← ascii_append, ← h, List.getElem?_drop, Nat.add_zero]
  rw [skipFraction, hfirst]
  cases hfraction with
  | none => simp [hpoint]
  | @some digits hsome hdigits =>
    have hrest : bytes.drop (cursor + 1) = ascii digits ++ byte :: rest := by
      rw [← List.drop_drop, h, ascii_append, hspelling]
      rfl
    have hall : ∀ b ∈ ascii digits, isAsciiDigit b = true := by
      intro b hb
      obtain ⟨c, hc, rfl⟩ := List.mem_map.mp hb
      exact isAsciiDigit_of_isDigit (hdigits c hc)
    have htake : (bytes.drop (cursor + 1)).takeWhile isAsciiDigit = ascii digits := by
      rw [hrest, List.takeWhile_append_of_pos hall, List.takeWhile_cons_of_neg (by simp [hdigit]),
        List.append_nil]
    have hnonempty : ascii digits ≠ [] := fun hnil => hsome (List.map_eq_nil_iff.mp hnil)
    have hlen : cursor + 1 + digits.length = cursor + ('.' :: digits).length := by
      rw [List.length_cons]
      omega
    simp only [htake, hnonempty, if_false, length_ascii, hlen]
    exact if_pos rfl

theorem offsetAt_form {bytes : Bytes} {cursor : Nat} {seconds : Int}
    (h : offsetAt bytes cursor = some seconds) :
    ∃ offset : Offset, bytes.drop cursor = ascii offset.spelling ∧ offset.seconds = seconds := by
  rw [offsetAt] at h
  split at h
  · rename_i hzulu
    obtain ⟨hlt, hbyte⟩ := List.getElem?_eq_some_iff.mp hzulu
    simp only [Option.ite_none_right_eq_some, Option.some.injEq] at h
    obtain ⟨hend, rfl⟩ := h
    refine ⟨.zulu, ?_, rfl⟩
    rw [List.drop_eq_getElem_cons hlt, hbyte, hend, List.drop_length]
    rfl
  · rename_i sign hzulu hsign
    simp only [Option.ite_none_right_eq_some, Option.bind_eq_bind, Option.bind_eq_some_iff,
      Option.ite_none_left_eq_some, Option.some.injEq] at h
    obtain ⟨⟨hpm, hend, hcolon⟩, hours, hhours, minutes, hminutes, hrange, hseconds⟩ := h
    obtain ⟨-, hours, -, htens, rfl⟩ := (number_eq_some 2 (by omega)).mp hhours
    obtain ⟨-, minutes, -, hunits, rfl⟩ := (number_eq_some 2 (by omega)).mp hminutes
    refine ⟨.shifted (sign == 0x2d) ⟨hours, by omega⟩ ⟨minutes, by omega⟩, ?_, ?_⟩
    · rw [drop_eq_between_append bytes (Nat.le_succ cursor), between_succ hsign,
        drop_eq_between_append bytes (by omega : cursor + 1 ≤ cursor + 3), htens,
        drop_eq_between_append bytes (Nat.le_succ (cursor + 3)), between_succ hcolon,
        drop_eq_between_append bytes (by omega : cursor + 4 ≤ cursor + 6), hunits, hend,
        List.drop_length]
      rcases hpm with rfl | rfl <;> simp [Offset.spelling]
    · rcases hpm with rfl | rfl <;> simpa [Offset.seconds] using hseconds
  · cases h

theorem offsetAt_of_form {bytes : Bytes} {cursor : Nat} {offset : Offset}
    (h : bytes.drop cursor = ascii offset.spelling) :
    offsetAt bytes cursor = some offset.seconds := by
  have hbyte (i : Nat) : bytes[cursor + i]? = (ascii offset.spelling)[i]? := by
    rw [← h, List.getElem?_drop]
  have hlen : bytes.length - cursor = (ascii offset.spelling).length := by
    rw [← h, List.length_drop]
  have hfirst := hbyte 0
  rw [Nat.add_zero] at hfirst
  cases offset with
  | zulu =>
    have hend : cursor + 1 = bytes.length := by
      simp [Offset.spelling] at hlen
      omega
    rw [offsetAt, hfirst]
    exact if_pos hend
  | shifted behind hours minutes =>
    have hend : cursor + 6 = bytes.length := by
      simp [Offset.spelling] at hlen
      omega
    have hcolon : bytes[cursor + 3]? = some 0x3a := hbyte 3
    have hhours : number bytes (cursor + 1) (cursor + 3) = some (hours.val : Int) := by
      refine (number_eq_some 2 (by omega)).mpr ⟨by omega, hours.val, by omega, ?_, rfl⟩
      rw [← Usage.between_drop bytes cursor 1 3, h]
      rfl
    have hminutes : number bytes (cursor + 4) (cursor + 6) = some (minutes.val : Int) := by
      refine (number_eq_some 2 (by omega)).mpr ⟨by omega, minutes.val, by omega, ?_, rfl⟩
      rw [← Usage.between_drop bytes cursor 4 6, h]
      rfl
    rw [offsetAt, hfirst]
    cases behind <;>
      simp [Offset.spelling, Offset.seconds, hcolon, hhours, hminutes] <;> omega

/-! ### What the app's parser takes -/

/-- The numbers the parser has read when it returns. -/
structure Reading where
  year : Int
  month : Int
  day : Int
  hour : Int
  minute : Int
  second : Int
  cursor : Nat
  offset : Int

/-- Every test of the parser is passed, with these numbers. -/
structure Takes (bytes : Bytes) (reading : Reading) : Prop where
  long : 20 ≤ bytes.length
  marks : bytes[4]? = some 0x2d ∧ bytes[7]? = some 0x2d ∧ bytes[10]? = some 0x54 ∧
    bytes[13]? = some 0x3a ∧ bytes[16]? = some 0x3a
  year : number bytes 0 4 = some reading.year
  month : number bytes 5 7 = some reading.month
  day : number bytes 8 10 = some reading.day
  hour : number bytes 11 13 = some reading.hour
  minute : number bytes 14 16 = some reading.minute
  second : number bytes 17 19 = some reading.second
  month_mem : 1 ≤ reading.month ∧ reading.month ≤ 12
  day_mem : ¬reading.day = 0 ∧ reading.day ≤ daysInMonth reading.year reading.month
  time_mem : reading.hour ≤ 23 ∧ reading.minute ≤ 59 ∧ reading.second ≤ 59
  cursor : skipFraction bytes 19 = some reading.cursor
  offset : offsetAt bytes reading.cursor = some reading.offset

def Reading.seconds (reading : Reading) : Int :=
  daysFromCivil reading.year reading.month reading.day * 86400
    + (reading.hour * 3600 + reading.minute * 60 + reading.second) - reading.offset

theorem parseTimestamp_eq_some {value : String} {seconds : Int} :
    parseTimestamp value = some seconds ↔
      ∃ reading, Takes (Utf8.encode value) reading ∧ reading.seconds = seconds := by
  simp only [parseTimestamp, Option.bind_eq_bind, Option.pure_def, Option.bind_none,
    Option.ite_none_left_eq_some, Option.bind_eq_some_iff, Option.some.injEq, not_or, not_not,
    gt_iff_lt, not_lt]
  constructor
  · rintro ⟨⟨hlong, hmarks⟩, year, hyear, month, hmonth, day, hday, hour, hhour, minute, hminute,
      second, hsecond, ⟨hmonths, hzero, hdays, htime⟩, cursor, hcursor, offset, hoffset, rfl⟩
    exact ⟨⟨year, month, day, hour, minute, second, cursor, offset⟩,
      ⟨hlong, hmarks, hyear, hmonth, hday, hhour, hminute, hsecond, hmonths, ⟨hzero, hdays⟩, htime,
        hcursor, hoffset⟩, rfl⟩
  · rintro ⟨reading, htakes, rfl⟩
    exact ⟨⟨htakes.long, htakes.marks⟩, _, htakes.year, _, htakes.month, _, htakes.day, _,
      htakes.hour, _, htakes.minute, _, htakes.second,
      ⟨htakes.month_mem, htakes.day_mem.1, htakes.day_mem.2, htakes.time_mem⟩, _, htakes.cursor, _,
      htakes.offset, rfl⟩

theorem eq_pieces (bytes : Bytes) :
    bytes = between bytes 0 4 ++ (between bytes 4 5 ++ (between bytes 5 7 ++ (between bytes 7 8 ++
      (between bytes 8 10 ++ (between bytes 10 11 ++ (between bytes 11 13 ++ (between bytes 13 14 ++
      (between bytes 14 16 ++ (between bytes 16 17 ++ (between bytes 17 19 ++
      bytes.drop 19)))))))))) := by
  simp only [← drop_eq_between_append bytes (by decide : 17 ≤ 19),
    ← drop_eq_between_append bytes (by decide : 16 ≤ 17),
    ← drop_eq_between_append bytes (by decide : 14 ≤ 16),
    ← drop_eq_between_append bytes (by decide : 13 ≤ 14),
    ← drop_eq_between_append bytes (by decide : 11 ≤ 13),
    ← drop_eq_between_append bytes (by decide : 10 ≤ 11),
    ← drop_eq_between_append bytes (by decide : 8 ≤ 10),
    ← drop_eq_between_append bytes (by decide : 7 ≤ 8),
    ← drop_eq_between_append bytes (by decide : 5 ≤ 7),
    ← drop_eq_between_append bytes (by decide : 4 ≤ 5),
    ← drop_eq_between_append bytes (by decide : 0 ≤ 4), List.drop_zero]

theorem spells_of_takes {value : String} {reading : Reading}
    (htakes : Takes (Utf8.encode value) reading) :
    ∃ moment, Spells value moment ∧ moment.seconds = reading.seconds := by
  obtain ⟨hlong, ⟨h4, h7, h10, h13, h16⟩, hyear, hmonth, hday, hhour, hminute, hsecond, hmonths,
    ⟨hzero, hdays⟩, ⟨hhours, hminutes, hseconds⟩, hcursor, hoffset⟩ := htakes
  obtain ⟨year, month, day, hour, minute, second, cursor, seconds⟩ := reading
  dsimp only at *
  generalize hbytes : Utf8.encode value = bytes at *
  obtain ⟨-, year, hy, hpyear, rfl⟩ := (number_eq_some 4 rfl).mp hyear
  obtain ⟨-, month, -, hpmonth, rfl⟩ := (number_eq_some 2 rfl).mp hmonth
  obtain ⟨-, day, -, hpday, rfl⟩ := (number_eq_some 2 rfl).mp hday
  obtain ⟨-, hour, -, hphour, rfl⟩ := (number_eq_some 2 rfl).mp hhour
  obtain ⟨-, minute, -, hpminute, rfl⟩ := (number_eq_some 2 rfl).mp hminute
  obtain ⟨-, second, -, hpsecond, rfl⟩ := (number_eq_some 2 rfl).mp hsecond
  obtain ⟨fraction, hfraction, hsuffix⟩ := skipFraction_form hcursor
  obtain ⟨offset, hspelling, rfl⟩ := offsetAt_form hoffset
  have hmonthMem : 1 ≤ month ∧ month ≤ 12 := by omega
  rw [daysInMonth_eq _ hmonthMem] at hdays
  let date : Date := ⟨year, month, day, hmonthMem, by omega⟩
  let moment : Moment :=
    ⟨date, ⟨hour, by omega⟩, ⟨minute, by omega⟩, ⟨second, by omega⟩, offset.seconds⟩
  refine ⟨moment, ⟨⟨Int.natCast_nonneg year, ?_⟩, fraction, offset, hfraction, rfl, ?_⟩, ?_⟩
  · exact Int.ofNat_le.mpr (Nat.le_of_lt_succ hy)
  · refine toList_of_encode (toNat_lt_of_mem_form hfraction) (hbytes.trans ?_)
    rw [eq_pieces bytes, hpyear, between_succ h4, hpmonth, between_succ h7, hpday, between_succ h10,
      hphour, between_succ h13, hpminute, between_succ h16, hpsecond, hsuffix, hspelling]
    simp [Moment.clock, moment, date]
  · have hdate := daysFromCivil_eq date
    simp only [Moment.seconds, Reading.seconds, moment, ← hdate, date]
    ring

/-! ### Every spelling is taken -/

theorem clock_pieces (moment : Moment) (suffix : List Char) :
    let bytes := ascii (moment.clock ++ suffix)
    (bytes[4]? = some 0x2d ∧ bytes[7]? = some 0x2d ∧ bytes[10]? = some 0x54 ∧
      bytes[13]? = some 0x3a ∧ bytes[16]? = some 0x3a) ∧
    between bytes 0 4 = ascii (Calendar.decimal 4 moment.date.year.toNat) ∧
    between bytes 5 7 = ascii (Calendar.decimal 2 moment.date.month) ∧
    between bytes 8 10 = ascii (Calendar.decimal 2 moment.date.day) ∧
    between bytes 11 13 = ascii (Calendar.decimal 2 moment.hour) ∧
    between bytes 14 16 = ascii (Calendar.decimal 2 moment.minute) ∧
    between bytes 17 19 = ascii (Calendar.decimal 2 moment.second) ∧
    bytes.drop 19 = ascii suffix :=
  ⟨⟨rfl, rfl, rfl, rfl, rfl⟩, rfl, rfl, rfl, rfl, rfl, rfl, rfl⟩

/-- What a spelling is made of, in bytes. -/
structure Spelled (bytes : Bytes) (moment : Moment) (fraction : List Char) (offset : Offset) :
    Prop where
  ascii : ∀ byte ∈ bytes, byte < 0x80
  long : 20 ≤ bytes.length
  marks : bytes[4]? = some 0x2d ∧ bytes[7]? = some 0x2d ∧ bytes[10]? = some 0x54 ∧
    bytes[13]? = some 0x3a ∧ bytes[16]? = some 0x3a
  year : between bytes 0 4 = Calendar.ascii (Calendar.decimal 4 moment.date.year.toNat)
  month : between bytes 5 7 = Calendar.ascii (Calendar.decimal 2 moment.date.month)
  day : between bytes 8 10 = Calendar.ascii (Calendar.decimal 2 moment.date.day)
  hour : between bytes 11 13 = Calendar.ascii (Calendar.decimal 2 moment.hour)
  minute : between bytes 14 16 = Calendar.ascii (Calendar.decimal 2 moment.minute)
  second : between bytes 17 19 = Calendar.ascii (Calendar.decimal 2 moment.second)
  suffix : bytes.drop 19 = Calendar.ascii (fraction ++ offset.spelling)
  year_lt : 0 ≤ moment.date.year ∧ moment.date.year.toNat < 10 ^ 4
  month_lt : moment.date.month < 10 ^ 2
  day_lt : moment.date.day < 10 ^ 2
  fraction_form : Fraction fraction
  offset_eq : offset.seconds = moment.offset

theorem spelled_of_spells {value : String} {moment : Moment} (h : Spells value moment) :
    ∃ fraction offset, Spelled (Utf8.encode value) moment fraction offset := by
  obtain ⟨⟨hpos, hfour⟩, fraction, offset, hfraction, hoffset, htext⟩ := h
  have hascii := @toNat_lt_of_mem_form moment fraction offset hfraction
  rw [← htext] at hascii
  have hbytes := encode_of_ascii hascii
  rw [htext] at hbytes hascii
  have hlong : 20 ≤ (Utf8.encode value).length := by
    obtain ⟨byte, rest, hspelling, -⟩ := offset_spelling_cons offset
    rw [hbytes, ← List.append_assoc, ascii_append, hspelling]
    simp [Moment.clock]
    omega
  obtain ⟨hmarks, hyear, hmonth, hday, hhour, hminute, hsecond, hsuffix⟩ :=
    clock_pieces moment (fraction ++ offset.spelling)
  rw [← hbytes] at hmarks hyear hmonth hday hhour hminute hsecond hsuffix
  have hmonths := moment.date.month_mem
  have hdays := moment.date.day_mem
  have hdaysLe := monthDays_le moment.date.year moment.date.month
  refine ⟨fraction, offset, ⟨?_, hlong, hmarks, hyear, hmonth, hday, hhour, hminute, hsecond,
    hsuffix, by omega, by omega, by omega, hfraction, hoffset⟩⟩
  intro byte hbyte
  rw [hbytes] at hbyte
  obtain ⟨c, hc, rfl⟩ := List.mem_map.mp hbyte
  rw [UInt8.lt_iff_toNat_lt, UInt8.toNat_ofNat']
  exact Nat.lt_of_le_of_lt (Nat.mod_le _ _) (hascii c hc)

theorem takes_of_spells {value : String} {moment : Moment} (h : Spells value moment) :
    ∃ reading, Takes (Utf8.encode value) reading ∧ reading.seconds = moment.seconds := by
  obtain ⟨fraction, offset, hspelled⟩ := spelled_of_spells h
  have hlong := hspelled.long
  have hyears := hspelled.year_lt
  have hmonths := moment.date.month_mem
  have hdays := moment.date.day_mem
  have hcursor := skipFraction_of_form hspelled.fraction_form hspelled.suffix
  have hrest : (Utf8.encode value).drop (19 + fraction.length) = ascii offset.spelling := by
    rw [← List.drop_drop, hspelled.suffix, ascii_append, ← length_ascii fraction, List.drop_left]
  refine ⟨⟨moment.date.year, moment.date.month, moment.date.day, moment.hour, moment.minute,
    moment.second, 19 + fraction.length, offset.seconds⟩, ⟨hlong, hspelled.marks, ?_, ?_, ?_, ?_,
    ?_, ?_, by dsimp only; omega, ?_, by dsimp only; omega, hcursor, offsetAt_of_form hrest⟩, ?_⟩
  · exact (number_eq_some 4 rfl).mpr
      ⟨by omega, _, hyears.2, hspelled.year, (Int.toNat_of_nonneg hyears.1).symm⟩
  · exact (number_eq_some 2 rfl).mpr ⟨by omega, _, hspelled.month_lt, hspelled.month, rfl⟩
  · exact (number_eq_some 2 rfl).mpr ⟨by omega, _, hspelled.day_lt, hspelled.day, rfl⟩
  · exact (number_eq_some 2 rfl).mpr ⟨by omega, _, by omega, hspelled.hour, rfl⟩
  · exact (number_eq_some 2 rfl).mpr ⟨by omega, _, by omega, hspelled.minute, rfl⟩
  · exact (number_eq_some 2 rfl).mpr ⟨by omega, _, by omega, hspelled.second, rfl⟩
  · rw [daysInMonth_eq _ hmonths]
    dsimp only
    omega
  · rw [Reading.seconds, daysFromCivil_eq, Moment.seconds, ← hspelled.offset_eq]
    dsimp only
    ring

theorem parseTimestamp_iff {value : String} {seconds : Int} :
    parseTimestamp value = some seconds ↔
      ∃ moment, Spells value moment ∧ moment.seconds = seconds := by
  rw [parseTimestamp_eq_some]
  constructor
  · rintro ⟨reading, htakes, rfl⟩
    exact spells_of_takes htakes
  · rintro ⟨moment, hspells, rfl⟩
    exact takes_of_spells hspells

/-! ### The node on a spelling -/

theorem parseDigits_decimal {width n : Nat} (hwidth : 0 < width) (hn : n < 10 ^ width) :
    parseDigits (Calendar.decimal width n) = some n := by
  have hfold : ∀ {width n : Nat}, n < 10 ^ width →
      (Calendar.decimal width n).foldl (fun n c => 10 * n + (c.toNat - 48)) 0 = n := by
    intro width
    induction width with
    | zero => 
        intro n hn
        rw [Nat.pow_zero] at hn
        exact (Nat.lt_one_iff.mp hn).symm
    | succ width ih =>
      intro n hn
      have hvalid : (48 + n % 10).isValidChar := Or.inl (by omega)
      rw [Nat.pow_succ] at hn
      rw [Calendar.decimal, List.foldl_append, ih (by omega), List.foldl_cons, List.foldl_nil,
        Char.toNat_ofNat, if_pos hvalid]
      omega
  have hsome : Calendar.decimal width n ≠ [] := by
    rw [← List.length_pos_iff, length_decimal]
    exact hwidth
  have hall : (Calendar.decimal width n).all Char.isDigit := by
    rw [List.all_eq_true]
    exact fun c hc => isDigit_of_mem_decimal hc
  rw [parseDigits, if_pos ⟨hsome, hall⟩, hfold hn]

theorem parseI64_of_digits {chars : List Char} {n : Nat} (hdigits : parseDigits chars = some n)
    (hn : n < 2 ^ 63) : parseI64 chars = some (n : Int) := by
  have hall : chars.all Char.isDigit := by
    rw [parseDigits] at hdigits
    split at hdigits
    · rename_i h
      exact h.2
    · cases hdigits
  have hsigns : ∀ rest, chars ≠ '-' :: rest ∧ chars ≠ '+' :: rest := by
    intro rest
    constructor <;> rintro rfl <;> simp at hall
  rw [parseI64, hdigits]
  · have hlow : (-2 ^ 63 : Int) ≤ n := le_trans (by norm_num) (Int.natCast_nonneg n)
    have hhigh : (n : Int) < 2 ^ 63 := by exact_mod_cast hn
    -- The bounds stay abstract: computing them is more than the kernel does.
    have hchecked (range : Int → Prop) [DecidablePred range] (hrange : range n) :
        (do let value ← Int.ofNat <$> some n
            if range value then some value else none) = some (n : Int) := if_pos hrange
    exact hchecked (fun value => -2 ^ 63 ≤ value ∧ value < 2 ^ 63) ⟨hlow, hhigh⟩
  · exact fun rest h => (hsigns rest).1 h
  · exact fun rest h => (hsigns rest).2 h

theorem parseInteger_decimal {width n : Nat} (hwidth : 0 < width ∧ width ≤ 4)
    (hn : n < 10 ^ width) :
    Usage.parseInteger (ascii (Calendar.decimal width n)) = some (n : Int) := by
  have hback : (ascii (Calendar.decimal width n)).map (fun byte => Char.ofNat byte.toNat)
      = Calendar.decimal width n := by
    rw [ascii, List.map_map]
    refine (List.map_congr_left fun c hc => ?_).trans (List.map_id _)
    have hc := toNat_lt_of_isDigit (isDigit_of_mem_decimal hc)
    have hbyte : (UInt8.ofNat c.toNat).toNat = c.toNat := by
      rw [UInt8.toNat_ofNat']
      omega
    rw [Function.comp_apply, hbyte, Char.ofNat_toNat, id]
  have hsmall : 10 ^ width ≤ 10 ^ 4 := Nat.pow_le_pow_right (by decide) hwidth.2
  rw [Usage.parseInteger, hback]
  exact parseI64_of_digits (parseDigits_decimal hwidth.1 hn) (by omega)

theorem slice_of_ascii {text : Bytes} (hascii : ∀ byte ∈ text, byte < 0x80) {start stop : Nat}
    (hle : start ≤ stop) (hlen : stop ≤ text.length) :
    Usage.slice text start stop = .ok (between text start stop) :=
  if_pos ⟨hle, Usage.isCharBoundary_of_ascii hascii (hle.trans hlen),
    Usage.isCharBoundary_of_ascii hascii hlen⟩

def isSign (byte : UInt8) : Bool := byte == 0x2b || byte == 0x2d

theorem lastSign_none {suffix : Bytes} (hnone : ∀ byte ∈ suffix, isSign byte = false) :
    Usage.lastSign suffix = none := by
  have hfind : suffix.reverse.findIdx? isSign = none := by
    rw [List.findIdx?_eq_none_iff]
    exact fun byte hbyte => hnone byte (List.mem_reverse.mp hbyte)
  exact congrArg (Option.map _) hfind

theorem lastSign_append {front back : Bytes} {sign : UInt8} (hsign : isSign sign = true)
    (hback : ∀ byte ∈ back, isSign byte = false) :
    Usage.lastSign (front ++ sign :: back) = some front.length := by
  have hnone : back.reverse.findIdx? isSign = none := by
    rw [List.findIdx?_eq_none_iff]
    exact fun byte hbyte => hback byte (List.mem_reverse.mp hbyte)
  have hfind : (front ++ sign :: back).reverse.findIdx? isSign = some back.length := by
    rw [List.reverse_append, List.reverse_cons, List.append_assoc, List.findIdx?_append, hnone]
    simp [List.findIdx?_cons, hsign]
  refine (congrArg (Option.map _) hfind).trans ?_
  rw [Option.map_some, List.length_append, List.length_cons]
  congr 1
  omega

theorem isSign_of_isDigit {c : Char} (hc : c.isDigit = true) :
    isSign (UInt8.ofNat c.toNat) = false := by
  have hdigit := isAsciiDigit_of_isDigit hc
  obtain ⟨d, hd, hbyte⟩ := eq_digitByte hdigit
  have hall : ∀ d < 10, isSign (digitByte d) = false := by decide
  rw [hbyte]
  exact hall d hd

theorem suffix_signs {fraction : List Char} (hfraction : Fraction fraction) :
    ∀ byte ∈ ascii fraction, isSign byte = false := by
  intro byte hbyte
  obtain ⟨c, hc, rfl⟩ := List.mem_map.mp hbyte
  cases hfraction with
  | none => cases hc
  | some _ hdigits =>
    rcases List.mem_cons.mp hc with rfl | hc
    · decide
    · exact isSign_of_isDigit (hdigits c hc)

theorem offset_signs {hours minutes : Nat} :
    ∀ byte ∈ ascii (Calendar.decimal 2 hours ++ ':' :: Calendar.decimal 2 minutes),
      isSign byte = false := by
  intro byte hbyte
  obtain ⟨c, hc, rfl⟩ := List.mem_map.mp hbyte
  rcases List.mem_append.mp hc with hc | hc
  · exact isSign_of_isDigit (isDigit_of_mem_decimal hc)
  · rcases List.mem_cons.mp hc with rfl | hc
    · decide
    · exact isSign_of_isDigit (isDigit_of_mem_decimal hc)

theorem lastSign_zulu {fraction : List Char} (hfraction : Fraction fraction) :
    Usage.lastSign (ascii (fraction ++ Offset.zulu.spelling)) = none := by
  refine lastSign_none fun byte hbyte => ?_
  rw [ascii_append, List.mem_append] at hbyte
  rcases hbyte with hbyte | hbyte
  · exact suffix_signs hfraction byte hbyte
  · rw [List.mem_singleton.mp hbyte]
    decide

/-- What follows the sign of an offset. -/
def zone (hours minutes : Nat) : Bytes :=
  ascii (Calendar.decimal 2 hours ++ ':' :: Calendar.decimal 2 minutes)

def signByte (behind : Bool) : UInt8 := if behind then 0x2d else 0x2b

theorem suffix_shifted (fraction : List Char) (behind : Bool) (hours : Fin 24) (minutes : Fin 60) :
    ascii (fraction ++ (Offset.shifted behind hours minutes).spelling)
      = ascii fraction ++ signByte behind :: zone hours minutes := by
  rw [ascii_append]
  cases behind <;> rfl

theorem lastSign_shifted (front : Bytes) (behind : Bool) (hours minutes : Nat) :
    Usage.lastSign (front ++ signByte behind :: zone hours minutes) = some front.length := by
  have hsign : isSign (signByte behind) = true := by cases behind <;> decide
  exact lastSign_append hsign offset_signs

theorem ok_bind {ε α β : Type} (a : α) (f : α → Except ε β) : (Except.ok a >>= f) = f a := rfl

/-- The node's parser returns the seconds of whatever moment a text spells. -/
theorem node_reads_spelling {value : String} {moment : Moment} (h : Spells value moment) :
    Usage.parseRfc3339Seconds (Utf8.encode value) = .ok (some moment.seconds) := by
  obtain ⟨fraction, offset, hspelled⟩ := spelled_of_spells h
  have hlong := hspelled.long
  obtain ⟨h4, h7, h10, -, -⟩ := hspelled.marks
  generalize Utf8.encode value = bytes at *
  have hslice {start stop : Nat} (hle : start ≤ stop) (hstop : stop ≤ 19) :
      Usage.slice bytes start stop = .ok (between bytes start stop) :=
    slice_of_ascii hspelled.ascii hle (hstop.trans (Nat.le_of_succ_le hlong))
  have hsuffix : Usage.slice bytes 19 bytes.length = .ok (bytes.drop 19) := by
    rw [slice_of_ascii hspelled.ascii (Nat.le_of_succ_le hlong) le_rfl, between, List.take_length]
  have htwo {n : Nat} (hn : n < 10 ^ 2) :
      Usage.parseInteger (ascii (Calendar.decimal 2 n)) = some (n : Int) :=
    parseInteger_decimal ⟨by decide, by decide⟩ hn
  rw [Usage.parseRfc3339Seconds, if_neg (not_lt.mpr hlong),
    hslice (by decide) (by decide), ok_bind, between_succ h4, if_neg (not_not.mpr rfl),
    hslice (by decide) (by decide), ok_bind, between_succ h7, if_neg (not_not.mpr rfl),
    hslice (by decide) (by decide), ok_bind, between_succ h10, if_neg (not_not.mpr rfl)]
  simp only [hslice (by decide : 0 ≤ 4) (by decide), hslice (by decide : 5 ≤ 7) (by decide),
    hslice (by decide : 8 ≤ 10) (by decide), hslice (by decide : 11 ≤ 13) (by decide),
    hslice (by decide : 14 ≤ 16) (by decide), hslice (by decide : 17 ≤ 19) (by decide), ok_bind,
    hspelled.year, hspelled.month, hspelled.day, hspelled.hour, hspelled.minute, hspelled.second,
    hsuffix, hspelled.suffix, parseInteger_decimal ⟨by decide, by decide⟩ hspelled.year_lt.2, htwo,
    hspelled.month_lt, hspelled.day_lt, (by omega : moment.hour.val < 10 ^ 2),
    (by omega : moment.minute.val < 10 ^ 2), (by omega : moment.second.val < 10 ^ 2),
    Int.toNat_of_nonneg hspelled.year_lt.1, node_daysFromCivil, daysFromCivil_eq]
  cases offset with
  | zulu =>
    rw [lastSign_zulu hspelled.fraction_form, Moment.seconds, ← hspelled.offset_eq, Offset.seconds,
      Int.sub_zero]
    rfl
  | shifted behind hours minutes =>
    have hposition : (ascii fraction ++ signByte behind :: zone hours minutes)[(ascii
        fraction).length]? = some (signByte behind) := by
      rw [List.getElem?_append_right le_rfl, Nat.sub_self]
      rfl
    have hzone : (ascii fraction ++ signByte behind :: zone hours minutes).drop
        ((ascii fraction).length + 1) = zone hours minutes := by
      rw [← List.drop_drop, List.drop_left]
      rfl
    have hascii : ∀ byte ∈ zone hours minutes, byte < 0x80 := by
      intro byte hbyte
      refine hspelled.ascii byte (List.mem_of_mem_drop (i := 19) ?_)
      rw [hspelled.suffix, suffix_shifted]
      exact List.mem_append_right _ (List.mem_cons_of_mem _ hbyte)
    have hfive : (zone hours minutes).length = 5 := rfl
    have hhours : Usage.slice (zone hours minutes) 0 2 = .ok (ascii (Calendar.decimal 2 hours)) :=
      slice_of_ascii hascii (by decide) (by rw [hfive]; decide)
    have hminutes : Usage.slice (zone hours minutes) 3 5 = .ok (ascii (Calendar.decimal 2 minutes)) :=
      slice_of_ascii hascii (by decide) (by rw [hfive])
    simp only [suffix_shifted, lastSign_shifted, hzone, hfive, hhours, hminutes, ok_bind,
      htwo (by omega : hours.val < 10 ^ 2), htwo (by omega : minutes.val < 10 ^ 2), hposition]
    have hdelta : (if some (signByte behind) = some 0x2b then (1 : Int) else -1)
        * (hours * 3600 + minutes * 60) = (Offset.shifted behind hours minutes).seconds := by
      cases behind with
      | false => exact Int.one_mul _
      | true => exact Int.neg_one_mul _
    rw [if_neg (by decide), Moment.seconds, ← hspelled.offset_eq, ← hdelta]
    rfl

/-! ### The two parsers -/

/--
What the app's parser returns, the node's returns too, and it is the time of the moment the text
spells, which is one moment however the text is read.
-/
theorem parsers_agree {value : String} {seconds : Int} (h : parseTimestamp value = some seconds) :
    Usage.parseRfc3339Seconds (Utf8.encode value) = .ok (some seconds) ∧
    (∃ moment, Spells value moment) ∧
    ∀ moment, Spells value moment → moment.seconds = seconds := by
  obtain ⟨moment, hspells, rfl⟩ := parseTimestamp_iff.mp h
  refine ⟨node_reads_spelling hspells, ⟨moment, hspells⟩, fun other hother => ?_⟩
  have hparse := parseTimestamp_iff.mpr ⟨other, hother, rfl⟩
  exact Option.some.inj (hparse.symm.trans h)

/-- Late on a leap day, so that the offset takes it into March. -/
theorem parsers_agree_leap_day :
    parseTimestamp "2024-02-29T23:30:00.25-01:00" = some 1709253000 ∧
    Usage.parseRfc3339Seconds (Utf8.encode "2024-02-29T23:30:00.25-01:00")
      = .ok (some 1709253000) := by
  have h : parseTimestamp "2024-02-29T23:30:00.25-01:00" = some 1709253000 := by rfl
  exact ⟨h, (parsers_agree h).1⟩

end Homie.App.Timestamp
