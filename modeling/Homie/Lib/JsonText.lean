/-
Compact JSON as bytes.

What a writer without whitespace puts out for strings, integers, arrays and objects, how long
that is, and that no line feed is in it, so that a text can be a line of a stream.  Nothing in
this file knows what the values are.
-/
import Mathlib

namespace Homie.JsonText

/-! ### The writer -/

def hexDigit (n : Nat) : UInt8 := UInt8.ofNat (if n < 10 then 0x30 + n else 0x61 + (n - 10))

/-- One character inside a string. -/
def escape (c : Char) : List UInt8 :=
  match c.toNat with
  | 0x22 => [0x5c, 0x22]
  | 0x5c => [0x5c, 0x5c]
  | 0x08 => [0x5c, 0x62]
  | 0x09 => [0x5c, 0x74]
  | 0x0a => [0x5c, 0x6e]
  | 0x0c => [0x5c, 0x66]
  | 0x0d => [0x5c, 0x72]
  | n =>
    if n < 0x20 then [0x5c, 0x75, 0x30, 0x30, hexDigit (n / 16), hexDigit (n % 16)]
    else String.utf8EncodeChar c

def string (text : List Char) : List UInt8 := [0x22] ++ text.flatMap escape ++ [0x22]

def integer (n : Int) : List UInt8 := (toString n).toList.flatMap String.utf8EncodeChar

def bool (value : Bool) : List UInt8 := (toString value).toList.flatMap String.utf8EncodeChar

/-- The items with a comma between them. -/
def items (list : List (List UInt8)) : List UInt8 := [0x2c].intercalate list

def array (list : List (List UInt8)) : List UInt8 := [0x5b] ++ items list ++ [0x5d]

def member (field : String × List UInt8) : List UInt8 := string field.1.toList ++ [0x3a] ++ field.2

def object (fields : List (String × List UInt8)) : List UInt8 :=
  [0x7b] ++ items (fields.map member) ++ [0x7d]

/-- An object whose keys are kept sorted. -/
def sortedObject (fields : List (String × List UInt8)) : List UInt8 :=
  object (fields.mergeSort fun a b => a.1 ≤ b.1)

/-! ### Lengths -/

theorem length_string (text : List Char) :
    (string text).length = 2 + (text.map fun c => (escape c).length).sum := by
  simp only [string, List.length_append, List.length_flatMap, List.length_cons, List.length_nil]
  omega

/-- Every item comes with a comma, but for the first. -/
theorem length_items : ∀ (list : List (List UInt8)), list ≠ [] →
    (items list).length + 1 = (list.map fun item => item.length + 1).sum
  | [], h => absurd rfl h
  | [item], _ => by simp [items]
  | item :: next :: rest, _ => by
    have ih := length_items (next :: rest) (by simp)
    have hcons : items (item :: next :: rest) = item ++ [0x2c] ++ items (next :: rest) := by
      simp [items, List.intercalate, List.intersperse]
    rw [hcons, List.map_cons, List.sum_cons, ← ih]
    simp only [List.length_append, List.length_cons, List.length_nil]
    omega

theorem length_array (list : List (List UInt8)) :
    (array list).length
      = if list = [] then 2 else 1 + (list.map fun item => item.length + 1).sum := by
  unfold array
  split
  · rename_i hempty
    subst hempty
    rfl
  · rename_i hne
    have hitems := length_items list hne
    simp only [List.length_append, List.length_cons, List.length_nil]
    omega

/-- The bytes of a member with its comma. -/
def memberBytes (field : String × List UInt8) : Nat :=
  (string field.1.toList).length + field.2.length + 2

theorem length_object {fields : List (String × List UInt8)} (hne : fields ≠ []) :
    (object fields).length = 1 + (fields.map memberBytes).sum := by
  have hitems := length_items (fields.map member) (by simpa using hne)
  have hmembers : ((fields.map member).map fun item => item.length + 1)
      = fields.map memberBytes := by
    rw [List.map_map]
    refine List.map_congr_left fun field _ => ?_
    simp only [Function.comp, member, memberBytes, List.length_append, List.length_cons,
      List.length_nil]
    omega
  rw [hmembers] at hitems
  simp only [object, List.length_append, List.length_cons, List.length_nil]
  omega

/-- The order of the keys does not change the length. -/
theorem length_sortedObject {fields : List (String × List UInt8)} (hne : fields ≠ []) :
    (sortedObject fields).length = 1 + (fields.map memberBytes).sum := by
  have hperm : (fields.mergeSort fun a b => a.1 ≤ b.1).Perm fields := List.mergeSort_perm _ _
  unfold sortedObject
  rw [length_object, (hperm.map memberBytes).sum_eq]
  intro hempty
  rw [hempty] at hperm
  exact hne hperm.symm.eq_nil

/-! ### Lines -/

/-- No line feed is in the bytes. -/
def OneLine (bytes : List UInt8) : Prop := (0x0a : UInt8) ∉ bytes

instance (bytes : List UInt8) : Decidable (OneLine bytes) :=
  inferInstanceAs (Decidable ((0x0a : UInt8) ∉ bytes))

theorem OneLine.append {left right : List UInt8} (hleft : OneLine left) (hright : OneLine right) :
    OneLine (left ++ right) := by
  intro hmem
  exact (List.mem_append.mp hmem).elim hleft hright

theorem OneLine.flatMap {α : Type} {f : α → List UInt8} {list : List α}
    (h : ∀ x ∈ list, OneLine (f x)) : OneLine (list.flatMap f) := by
  intro hmem
  obtain ⟨x, hx, hin⟩ := List.mem_flatMap.mp hmem
  exact h x hx hin

/-- Only the line feed is encoded with a line feed. -/
theorem oneLine_utf8EncodeChar {c : Char} (h : c.toNat ≠ 0x0a) :
    OneLine (String.utf8EncodeChar c) := by
  have hvalue : c.val.toNat ≠ 0x0a := h
  have hbyte : ∀ {n : Nat}, n % 256 ≠ 0x0a → (0x0a : UInt8) ≠ UInt8.ofNat n := by
    intro n hn heq
    apply hn
    rw [← UInt8.toNat_ofNat', ← heq]
    rfl
  unfold OneLine String.utf8EncodeChar
  dsimp only
  split
  · simp only [List.mem_cons, List.not_mem_nil, or_false]
    exact hbyte (by omega)
  · split
    · simp only [List.mem_cons, List.not_mem_nil, or_false, not_or]
      exact ⟨hbyte (by omega), hbyte (by omega)⟩
    · split
      · simp only [List.mem_cons, List.not_mem_nil, or_false, not_or]
        exact ⟨hbyte (by omega), hbyte (by omega), hbyte (by omega)⟩
      · simp only [List.mem_cons, List.not_mem_nil, or_false, not_or]
        exact ⟨hbyte (by omega), hbyte (by omega), hbyte (by omega), hbyte (by omega)⟩

theorem oneLine_hexDigit {n : Nat} (h : n < 16) : (0x0a : UInt8) ≠ hexDigit n := by
  revert h
  revert n
  decide

theorem oneLine_escape (c : Char) : OneLine (escape c) := by
  have hshort : ∀ {a b : UInt8}, (0x0a : UInt8) ≠ a → (0x0a : UInt8) ≠ b → OneLine [a, b] := by
    intro a b ha hb
    simp only [OneLine, List.mem_cons, List.not_mem_nil, or_false, not_or]
    exact ⟨ha, hb⟩
  unfold escape
  split
  · exact hshort (by decide) (by decide)
  · exact hshort (by decide) (by decide)
  · exact hshort (by decide) (by decide)
  · exact hshort (by decide) (by decide)
  · exact hshort (by decide) (by decide)
  · exact hshort (by decide) (by decide)
  · exact hshort (by decide) (by decide)
  · rename_i hlineFeed _ _
    split
    · rename_i hcontrol
      simp only [OneLine, List.mem_cons, List.not_mem_nil, or_false, not_or]
      exact ⟨by decide, by decide, by decide, by decide, oneLine_hexDigit (by omega),
        oneLine_hexDigit (by omega)⟩
    · exact oneLine_utf8EncodeChar hlineFeed

theorem oneLine_string (text : List Char) : OneLine (string text) := by
  have hquote : OneLine [0x22] := by decide
  unfold string
  exact (hquote.append (OneLine.flatMap fun c _ => oneLine_escape c)).append hquote

theorem oneLine_digits (n : Nat) : OneLine (n.repr.toList.flatMap String.utf8EncodeChar) := by
  refine OneLine.flatMap fun c hc => oneLine_utf8EncodeChar ?_
  rw [Nat.toList_repr] at hc
  have hdigit := Nat.isDigit_of_mem_toDigits (by decide) (by decide) hc
  intro hlineFeed
  have hc : c = Char.ofNat 0x0a := by rw [← hlineFeed, Char.ofNat_toNat]
  rw [hc] at hdigit
  exact absurd hdigit (by decide)

theorem oneLine_integer (n : Int) : OneLine (integer n) := by
  cases n with
  | ofNat m => exact oneLine_digits m
  | negSucc m =>
    have hsign : OneLine (String.utf8EncodeChar (Char.ofNat 0x2d)) := by decide
    have hinteger : integer (Int.negSucc m) = String.utf8EncodeChar (Char.ofNat 0x2d)
        ++ (m + 1).repr.toList.flatMap String.utf8EncodeChar := by
      change ("-" ++ (m + 1).repr).toList.flatMap String.utf8EncodeChar = _
      rw [String.toList_append, List.flatMap_append]
      rfl
    rw [hinteger]
    exact hsign.append (oneLine_digits (m + 1))

theorem oneLine_bool (value : Bool) : OneLine (bool value) := by
  cases value
  · decide
  · decide

theorem oneLine_items {list : List (List UInt8)} (h : ∀ item ∈ list, OneLine item) :
    OneLine (items list) := by
  induction list with
  | nil => simp [items, OneLine, List.intercalate]
  | cons item rest ih =>
    have hrest := ih fun other hother => h other (List.mem_cons_of_mem _ hother)
    have hitem := h item List.mem_cons_self
    cases rest with
    | nil => simpa [items, List.intercalate, List.intersperse] using hitem
    | cons next rest =>
      have hcomma : OneLine [0x2c] := by decide
      have hcons : items (item :: next :: rest) = item ++ [0x2c] ++ items (next :: rest) := by
        simp [items, List.intercalate, List.intersperse]
      rw [hcons]
      exact (hitem.append hcomma).append hrest

theorem oneLine_array {list : List (List UInt8)} (h : ∀ item ∈ list, OneLine item) :
    OneLine (array list) := by
  have hopen : OneLine [0x5b] := by decide
  have hclose : OneLine [0x5d] := by decide
  exact (hopen.append (oneLine_items h)).append hclose

theorem oneLine_object {fields : List (String × List UInt8)} (h : ∀ field ∈ fields, OneLine field.2) :
    OneLine (object fields) := by
  have hopen : OneLine [0x7b] := by decide
  have hclose : OneLine [0x7d] := by decide
  have hcolon : OneLine [0x3a] := by decide
  refine (hopen.append (oneLine_items ?_)).append hclose
  intro item hitem
  obtain ⟨field, hfield, rfl⟩ := List.mem_map.mp hitem
  exact ((oneLine_string _).append hcolon).append (h field hfield)

theorem oneLine_sortedObject {fields : List (String × List UInt8)}
    (h : ∀ field ∈ fields, OneLine field.2) : OneLine (sortedObject fields) :=
  oneLine_object fun field hfield => h field (List.mem_mergeSort.mp hfield)

end Homie.JsonText
