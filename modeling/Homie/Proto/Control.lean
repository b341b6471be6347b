/-
Control replies as lines: `homie-proto/src/control.rs` and the scrollback results of
`homie-proto/src/methods.rs`.

A reply is an object with the request's number and the result.  The result goes through
`serde_json::Value`, whose maps keep their keys sorted; a remote reply is written from the
structure directly, with the fields in the order of their declaration.
-/
import Homie.Lib.JsonText
import Homie.Proto.RemotePty

namespace Homie

open JsonText

/-- `MAX_CONTROL_LINE_BYTES`. -/
def maxControlLineBytes : Nat := 4 * 1024 * 1024

/-! ### `base64_bytes` -/

namespace Base64

def alphabet : List Char :=
  "ABCDEFGHIJKLMNOPQRSTUVWXYZabcdefghijklmnopqrstuvwxyz0123456789+/".toList

def padding : Char := Char.ofNat 0x3d

/-- `ALPHABET[value]`; every index has six bits. -/
def symbol (value : UInt8) : Char := alphabet.getD value.toNat padding

/-- The four characters of a chunk; a byte that is missing counts as zero. -/
def encodeChunk (first : UInt8) (second third : Option UInt8) : List Char :=
  [symbol (first >>> 2), symbol (((first &&& 0x03) <<< 4) ||| (second.getD 0 >>> 4)),
    if second.isSome then symbol (((second.getD 0 &&& 0x0f) <<< 2) ||| (third.getD 0 >>> 6))
    else padding,
    if third.isSome then symbol (third.getD 0 &&& 0x3f) else padding]

def encode : List UInt8 → List Char
  | [] => []
  | [first] => encodeChunk first none none
  | [first, second] => encodeChunk first (some second) none
  | first :: second :: third :: rest => encodeChunk first (some second) (some third) ++ encode rest

end Base64

/-! ### Results -/

/-- The members of a `ReadScrollbackCellsResult`. -/
def ReadScrollbackCellsResult.fields (result : ReadScrollbackCellsResult) :
    List (String × List UInt8) :=
  [("payload", string (Base64.encode result.payload)),
    ("firstRow", integer result.firstRow.toInt),
    ("rowCount", integer result.rowCount.toInt),
    ("totalRows", integer result.totalRows.toInt),
    ("liveStartRow", integer result.liveStartRow.toInt),
    ("cols", integer result.cols.toInt),
    ("contentSeq", integer result.contentSeq.toNat)]

/-- `serde_json::to_writer` of a `ScrollbackResponse`. -/
def ScrollbackResponse.text (response : ScrollbackResponse) : List UInt8 :=
  object [("requestId", integer response.requestId.toNat),
    ("result", object response.result.fields)]

structure ReadScrollbackResult where
  lines : List (List Char)
  firstRow : Int64
  visibleStartRow : Int64
  cols : Int64
  rows : Int64
  contentSeq : UInt64
  isAltScreen : Bool

def ReadScrollbackResult.fields (result : ReadScrollbackResult) : List (String × List UInt8) :=
  [("lines", array (result.lines.map string)),
    ("firstRow", integer result.firstRow.toInt),
    ("visibleStartRow", integer result.visibleStartRow.toInt),
    ("cols", integer result.cols.toInt),
    ("rows", integer result.rows.toInt),
    ("contentSeq", integer result.contentSeq.toNat),
    ("isAltScreen", bool result.isAltScreen)]

/-- A `ControlMessage::Response` with the result of these fields, without its terminator. -/
def responseText (id : UInt64) (fields : List (String × List UInt8)) : List UInt8 :=
  sortedObject [("id", integer id.toNat), ("ok", sortedObject fields)]

/-- `encode_line` of such a response. -/
def encodeLine (id : UInt64) (fields : List (String × List UInt8)) : List UInt8 :=
  responseText id fields ++ [0x0a]

end Homie

/-! ### Base64 text is made of its alphabet

Four characters stand for three bytes or fewer, each of them one byte in a string.
-/

namespace Homie.Base64

open JsonText

theorem length_encode : ∀ bytes, (encode bytes).length = 4 * ((bytes.length + 2) / 3)
  | [] => rfl
  | [_] => by simp [encode, encodeChunk]
  | [_, _] => by simp [encode, encodeChunk]
  | first :: second :: third :: rest => by
    have ih := length_encode rest
    simp only [encode, List.length_append, ih, List.length_cons, encodeChunk, List.length_nil]
    omega

/-- The characters of the text. -/
def characters : List Char := padding :: alphabet

theorem symbol_mem (value : UInt8) : symbol value ∈ characters := by
  unfold symbol
  rw [List.getD_eq_getElem?_getD]
  cases hget : alphabet[value.toNat]? with
  | none => exact List.mem_cons_self
  | some c => exact List.mem_cons_of_mem _ (List.mem_of_getElem? hget)

theorem encodeChunk_mem (first : UInt8) (second third : Option UInt8) :
    ∀ c ∈ encodeChunk first second third, c ∈ characters := by
  have hpadding : padding ∈ characters := List.mem_cons_self
  intro c hc
  simp only [encodeChunk, List.mem_cons, List.not_mem_nil, or_false] at hc
  rcases hc with rfl | rfl | rfl | rfl
  · exact symbol_mem _
  · exact symbol_mem _
  · split
    · exact symbol_mem _
    · exact hpadding
  · split
    · exact symbol_mem _
    · exact hpadding

theorem encode_mem : ∀ bytes, ∀ c ∈ encode bytes, c ∈ characters
  | [], c, hc => absurd hc List.not_mem_nil
  | [first], c, hc => encodeChunk_mem first none none c hc
  | [first, second], c, hc => encodeChunk_mem first (some second) none c hc
  | first :: second :: third :: rest, c, hc => by
    rcases List.mem_append.mp hc with hchunk | hrest
    · exact encodeChunk_mem first (some second) (some third) c hchunk
    · exact encode_mem rest c hrest

/-- A character is written as one byte. -/
theorem escape_character {c : Char} (hc : c ∈ characters) : (escape c).length = 1 := by
  have hall : characters.all (fun c => (escape c).length == 1) = true := by decide
  exact beq_iff_eq.mp (List.all_eq_true.mp hall c hc)

theorem length_string_encode (bytes : List UInt8) :
    (string (encode bytes)).length = 2 + 4 * ((bytes.length + 2) / 3) := by
  have hsum : ((encode bytes).map fun c => (escape c).length) = (encode bytes).map fun _ => 1 :=
    List.map_congr_left fun c hc => escape_character (encode_mem bytes c hc)
  rw [length_string, hsum, List.map_const', List.sum_replicate_nat, Nat.mul_one, length_encode]

end Homie.Base64
