/-
Text as a list of characters, with the standard library's `trim` and `parse`, and text out of
bytes, with its `from_utf8_lossy`.
-/
import Mathlib

namespace Homie

/-- The characters with the Unicode property `White_Space`. -/
def isWhitespace (c : Char) : Bool :=
  let n := c.toNat
  (9 ≤ n && n ≤ 13) || n == 0x20 || n == 0x85 || n == 0xa0 || n == 0x1680
    || (0x2000 ≤ n && n ≤ 0x200a) || n == 0x2028 || n == 0x2029 || n == 0x202f || n == 0x205f
    || n == 0x3000

/-- `str::trim` -/
def trimText (chars : List Char) : List Char :=
  ((chars.dropWhile isWhitespace).reverse.dropWhile isWhitespace).reverse

/-- The value of a non-empty run of decimal digits. -/
def parseDigits (digits : List Char) : Option Nat :=
  if digits ≠ [] ∧ digits.all Char.isDigit then
    some (digits.foldl (fun n c => 10 * n + (c.toNat - 48)) 0)
  else none

/-- `str::parse::<i64>`. -/
def parseI64 (text : List Char) : Option Int := do
  let value ← match text with
    | '-' :: digits => (fun n : Nat => -(n : Int)) <$> parseDigits digits
    | '+' :: digits => Int.ofNat <$> parseDigits digits
    | digits => Int.ofNat <$> parseDigits digits
  if -2 ^ 63 ≤ value ∧ value < 2 ^ 63 then some value else none

namespace Utf8

/-- The bytes that may follow a first byte, as ranges; a byte that starts nothing has none. -/
def continuations (first : UInt8) : Option (List (UInt8 × UInt8)) :=
  if first < 0x80 then some []
  else if first < 0xc2 then none
  else if first < 0xe0 then some [(0x80, 0xbf)]
  else if first = 0xe0 then some [(0xa0, 0xbf), (0x80, 0xbf)]
  else if first = 0xed then some [(0x80, 0x9f), (0x80, 0xbf)]
  else if first < 0xf0 then some [(0x80, 0xbf), (0x80, 0xbf)]
  else if first = 0xf0 then some [(0x90, 0xbf), (0x80, 0xbf), (0x80, 0xbf)]
  else if first < 0xf4 then some [(0x80, 0xbf), (0x80, 0xbf), (0x80, 0xbf)]
  else if first = 0xf4 then some [(0x80, 0x8f), (0x80, 0xbf), (0x80, 0xbf)]
  else none

/-- U+FFFD. -/
def replacement : List UInt8 := [0xef, 0xbf, 0xbd]

/-- A character under way: the bytes it has, and the ranges it still wants. -/
structure Decoder where
  seen : List UInt8
  wanted : List (UInt8 × UInt8)

def Decoder.idle : Decoder := ⟨[], []⟩

def Decoder.first (byte : UInt8) : List UInt8 × Decoder :=
  match continuations byte with
  | none => (replacement, idle)
  | some [] => ([byte], idle)
  | some wanted => ([], ⟨[byte], wanted⟩)

/-- One more byte; a character that it cannot continue is given up before it is looked at. -/
def Decoder.feed (decoder : Decoder) (byte : UInt8) : List UInt8 × Decoder :=
  match decoder.wanted with
  | [] => first byte
  | (low, high) :: wanted =>
    if low ≤ byte ∧ byte ≤ high then
      match wanted with
      | [] => (decoder.seen ++ [byte], idle)
      | wanted => ([], ⟨decoder.seen ++ [byte], wanted⟩)
    else (replacement ++ (first byte).1, (first byte).2)

def Decoder.run (decoder : Decoder) : List UInt8 → List UInt8
  | [] => if decoder.wanted.isEmpty then [] else replacement
  | byte :: bytes => (decoder.feed byte).1 ++ (decoder.feed byte).2.run bytes

/-- `String::from_utf8_lossy`. -/
def lossy (bytes : List UInt8) : List UInt8 := Decoder.idle.run bytes

/-- `str::from_utf8` takes the bytes; it does when nothing has to be replaced. -/
def valid (bytes : List UInt8) : Bool := lossy bytes == bytes

/-- `str::is_char_boundary`. -/
def isCharBoundary (text : List UInt8) (index : Nat) : Bool :=
  index == 0 || match text[index]? with
    | none => index == text.length
    | some byte => byte < 0x80 || 0xc0 ≤ byte

/-- `str::as_bytes`. -/
def encode (text : String) : List UInt8 := text.toList.flatMap String.utf8EncodeChar

theorem encode_inj {text other : String} (h : encode text = encode other) : text = other := by
  have hbytes : text.toList.utf8Encode = other.toList.utf8Encode := congrArg List.toByteArray h
  rw [← String.toByteArray_inj, ← String.ofList_toList (s := text),
    ← String.ofList_toList (s := other), String.toByteArray_ofList, String.toByteArray_ofList]
  exact hbytes

example : lossy [0x61, 0xf0, 0x9f, 0x98, 0x62, 0xed, 0xa0, 0xc3, 0xa9]
    = 0x61 :: replacement ++ 0x62 :: replacement ++ replacement ++ [0xc3, 0xa9] := by decide

end Utf8

end Homie

/-! ### The words of a text: `str::split_whitespace`, on the text's bytes

White space is the Unicode property, so a separator takes up to three bytes.  The words are read
from the front; words of ASCII characters are read as they were written (`words_append`).
-/

namespace Homie.Words

/-- The white space beyond ASCII. -/
def wideWidth : List UInt8 → Nat
  | 0xc2 :: second :: _ => if second = 0x85 ∨ second = 0xa0 then 2 else 0
  | 0xe1 :: 0x9a :: 0x80 :: _ => 3
  | 0xe2 :: 0x80 :: third :: _ =>
    if (0x80 ≤ third ∧ third ≤ 0x8a) ∨ third = 0xa8 ∨ third = 0xa9 ∨ third = 0xaf then 3 else 0
  | 0xe2 :: 0x81 :: 0x9f :: _ => 3
  | 0xe3 :: 0x80 :: 0x80 :: _ => 3
  | _ => 0

/-- How many bytes of white space the text begins with, by its first character. -/
def whitespaceWidth : List UInt8 → Nat
  | [] => 0
  | byte :: rest =>
    if byte < 0x80 then if byte = 0x20 ∨ (0x09 ≤ byte ∧ byte ≤ 0x0d) then 1 else 0
    else wideWidth (byte :: rest)

/-- Reading on with a word under way, and within a separator for as many bytes as `skip`. -/
def wordsFrom : Nat → List UInt8 → List UInt8 → List (List UInt8)
  | _, word, [] => if word.isEmpty then [] else [word]
  | skip + 1, word, _ :: bytes => wordsFrom skip word bytes
  | 0, word, byte :: bytes =>
    match whitespaceWidth (byte :: bytes) with
    | 0 => wordsFrom 0 (word ++ [byte]) bytes
    | width + 1 =>
      if word.isEmpty then wordsFrom width [] bytes else word :: wordsFrom width [] bytes

/-- `str::split_whitespace`. -/
def words (text : List UInt8) : List (List UInt8) := wordsFrom 0 [] text

def trimStartFrom : Nat → List UInt8 → List UInt8
  | _, [] => []
  | skip + 1, _ :: bytes => trimStartFrom skip bytes
  | 0, byte :: bytes =>
    match whitespaceWidth (byte :: bytes) with
    | 0 => byte :: bytes
    | width + 1 => trimStartFrom width bytes

/-- The text up to where only white space is left. -/
def trimEnd : List UInt8 → List UInt8
  | [] => []
  | byte :: bytes => if (words (byte :: bytes)).isEmpty then [] else byte :: trimEnd bytes

/-- `str::trim`. -/
def trim (text : List UInt8) : List UInt8 := trimEnd (trimStartFrom 0 text)

example : trim [0x20, 0xc2, 0xa0, 0x61, 0x20, 0x62, 0xe3, 0x80, 0x80, 0x0a] = [0x61, 0x20, 0x62] := by
  decide

/-- A word without white space in it. -/
def Solid (word : List UInt8) : Prop := ∀ byte ∈ word, 0x20 < byte ∧ byte < 0x80

theorem whitespaceWidth_solid {byte : UInt8} (h : 0x20 < byte ∧ byte < 0x80) (rest : List UInt8) :
    whitespaceWidth (byte :: rest) = 0 := by
  have hspace : ¬ (byte = 0x20 ∨ (0x09 ≤ byte ∧ byte ≤ 0x0d)) := by
    have hlt := UInt8.lt_iff_toNat_lt.mp h.1
    rintro (rfl | ⟨-, hle⟩)
    · exact absurd hlt (by decide)
    · have hle := UInt8.le_iff_toNat_le.mp hle
      have hspace : (0x20 : UInt8).toNat = 32 := rfl
      have hreturn : (0x0d : UInt8).toNat = 13 := rfl
      omega
  rw [whitespaceWidth, if_pos h.2, if_neg hspace]

theorem wordsFrom_solid {word : List UInt8} (h : Solid word) (front rest : List UInt8) :
    wordsFrom 0 front (word ++ rest) = wordsFrom 0 (front ++ word) rest := by
  induction word generalizing front with
  | nil => simp
  | cons byte word ih =>
    have hword := ih (fun other hother => h other (List.mem_cons_of_mem _ hother))
      (front ++ [byte])
    have hbyte := whitespaceWidth_solid (h byte List.mem_cons_self) (word ++ rest)
    rw [List.cons_append, wordsFrom, hbyte]
    simp only [hword, List.append_assoc, List.cons_append, List.nil_append]

/-- A word with a space behind it is the first of the words. -/
theorem words_append {word : List UInt8} (h : Solid word) (hne : word ≠ []) (rest : List UInt8) :
    words (word ++ 0x20 :: rest) = word :: words rest := by
  have hspace : whitespaceWidth (0x20 :: rest) = 1 := by simp [whitespaceWidth]
  unfold words
  rw [wordsFrom_solid h, wordsFrom, hspace]
  simp [hne]

end Homie.Words
