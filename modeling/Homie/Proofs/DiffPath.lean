/-
The path that a diff row names, and the path that git wrote.

Git writes each side of a `diff --git` line on its own: as it is behind `a/` or `b/`, or between
quotes with its special bytes escaped.  The parser takes what stands behind the last ` b/`, or the
last ` "b/`, and trims quotes.  That gives a plain side back unless it holds ` b/` itself, and
never a quoted one, since nothing is unescaped (`path_eq_iff`).
-/
import Homie.Proofs.DiffAccounting

namespace Homie.App.Diff

/-! ### What git writes -/

/-- The letter of an escape. -/
def escapeLetter (byte : UInt8) : Option UInt8 :=
  if byte = 0x07 then some 0x61
  else if byte = 0x08 then some 0x62
  else if byte = 0x09 then some 0x74
  else if byte = 0x0a then some 0x6e
  else if byte = 0x0b then some 0x76
  else if byte = 0x0c then some 0x66
  else if byte = 0x0d then some 0x72
  else if byte = 0x22 then some 0x22
  else if byte = 0x5c then some 0x5c
  else none

/-- A byte between quotes.  Under `core.quotePath`, a byte that is not ASCII is escaped too. -/
def quoteByte (quotePath : Bool) (byte : UInt8) : Bytes :=
  match escapeLetter byte with
  | some letter => [0x5c, letter]
  | none =>
    if byte < 0x20 ∨ byte = 0x7f ∨ (quotePath ∧ 0x80 ≤ byte) then
      [0x5c, 0x30 + byte / 64, 0x30 + byte / 8 % 8, 0x30 + byte % 8]
    else [byte]

def quoteName (quotePath : Bool) (name : Bytes) : Bytes := name.flatMap (quoteByte quotePath)

/-- The name has a byte that git does not write as it is. -/
def needsQuotes (quotePath : Bool) (name : Bytes) : Bool :=
  name.any fun byte => quoteByte quotePath byte != [byte]

def writeSide (quotePath : Bool) (letter : UInt8) (name : Bytes) : Bytes :=
  if needsQuotes quotePath name then
    0x22 :: letter :: 0x2f :: (quoteName quotePath name ++ [0x22])
  else letter :: 0x2f :: name

/-- What follows `diff --git ` for a change from one name to another. -/
def writePaths (quotePath : Bool) (old new : Bytes) : Bytes :=
  writeSide quotePath 0x61 old ++ 0x20 :: writeSide quotePath 0x62 new

/-! ### Quoting -/

theorem quoteByte_cases (quotePath : Bool) (byte : UInt8) :
    (quoteByte quotePath byte = [byte] ∧ byte ∉ [0x22, 0x5c, 0x0a, 0x0d]) ∨
      (byte = 0x22 ∧ quoteByte quotePath byte = [0x5c, 0x22]) ∨
      (byte ∉ [0x22, 0x20] ∧ (quoteByte quotePath byte).head? = some 0x5c ∧
        2 ≤ (quoteByte quotePath byte).length ∧
        ∀ other ∈ [0x20, 0x22, 0x0a, 0x0d], other ∉ quoteByte quotePath byte) := by
  have hall : ∀ (quotePath : Bool) (n : Fin 256),
      (quoteByte quotePath (UInt8.ofFin n) = [UInt8.ofFin n] ∧
          UInt8.ofFin n ∉ [0x22, 0x5c, 0x0a, 0x0d]) ∨
        (UInt8.ofFin n = 0x22 ∧ quoteByte quotePath (UInt8.ofFin n) = [0x5c, 0x22]) ∨
        (UInt8.ofFin n ∉ [0x22, 0x20] ∧
          (quoteByte quotePath (UInt8.ofFin n)).head? = some 0x5c ∧
          2 ≤ (quoteByte quotePath (UInt8.ofFin n)).length ∧
          [0x20, 0x22, 0x0a, 0x0d].all fun other => other ∉ quoteByte quotePath (UInt8.ofFin n)) := by
    decide +kernel
  have h := hall quotePath byte.toFin
  simpa only [UInt8.ofFin_toFin, List.all_eq_true, decide_eq_true_eq] using h

section
variable (quotePath : Bool)

theorem length_quoteByte (byte : UInt8) : 1 ≤ (quoteByte quotePath byte).length := by
  rcases quoteByte_cases quotePath byte with ⟨h, -⟩ | ⟨-, h⟩ | ⟨-, -, h, -⟩
  · simp [h]
  · simp [h]
  · omega

theorem length_quoteName (name : Bytes) : name.length ≤ (quoteName quotePath name).length := by
  induction name with
  | nil => exact Nat.le_refl 0
  | cons byte name ih =>
    have hbyte := length_quoteByte quotePath byte
    simp only [quoteName, List.flatMap_cons, List.length_append, List.length_cons] at ih ⊢
    omega

theorem length_lt_quoteName {name : Bytes} (h : needsQuotes quotePath name = true) :
    name.length < (quoteName quotePath name).length := by
  induction name with
  | nil => simp [needsQuotes] at h
  | cons byte name ih =>
    have hlength := length_quoteName quotePath name
    simp only [needsQuotes, List.any_cons, Bool.or_eq_true, bne_iff_ne, ne_eq] at h
    simp only [quoteName, List.flatMap_cons, List.length_append, List.length_cons] at ih hlength ⊢
    rcases h with hbyte | hname
    · have hlong : 2 ≤ (quoteByte quotePath byte).length := by
        rcases quoteByte_cases quotePath byte with ⟨h, -⟩ | ⟨-, h⟩ | ⟨-, -, h, -⟩
        · exact absurd h hbyte
        · simp [h]
        · exact h
      omega
    · have hbyte := length_quoteByte quotePath byte
      have hrest := ih hname
      omega

theorem notMem_of_not_needsQuotes {name : Bytes} (h : needsQuotes quotePath name = false)
    {byte : UInt8} (hbyte : byte ∈ [0x22, 0x5c, 0x0a, 0x0d]) : byte ∉ name := by
  intro hmem
  have hquote := List.any_eq_false.mp h byte hmem
  simp only [bne_iff_ne, ne_eq, not_not] at hquote
  rcases quoteByte_cases quotePath byte with ⟨-, hplain⟩ | ⟨-, hescape⟩ | ⟨-, -, hlong, -⟩
  · exact hplain hbyte
  · rw [hescape] at hquote
    exact absurd (congrArg List.length hquote) (by simp)
  · rw [hquote] at hlong
    exact absurd hlong (by simp)

/-- What does not begin with a backslash begins as the name does. -/
theorem quoteName_eq_cons {name rest : Bytes} {byte : UInt8}
    (h : quoteName quotePath name = byte :: rest) (hbyte : byte ≠ 0x5c) :
    byte ≠ 0x22 ∧ ∃ more, name = byte :: more ∧ rest = quoteName quotePath more := by
  cases name with
  | nil => simp [quoteName] at h
  | cons first name =>
    have hhead := congrArg List.head? h
    simp only [quoteName, List.flatMap_cons] at h hhead
    rcases quoteByte_cases quotePath first with ⟨hplain, hnot⟩ | ⟨-, hescape⟩ | ⟨-, hfirst, -⟩
    · rw [hplain] at h
      obtain ⟨rfl, rfl⟩ := List.cons.inj h
      exact ⟨fun heq => hnot (by simp [heq]), name, rfl, rfl⟩
    · rw [hescape] at h
      exact absurd (List.cons.inj h).1.symm hbyte
    · rw [List.head?_append, hfirst] at hhead
      exact absurd (Option.some.inj hhead).symm hbyte

theorem quoteByte_of_space {byte : UInt8} (h : (0x20 : UInt8) ∈ quoteByte quotePath byte) :
    byte = 0x20 ∧ quoteByte quotePath byte = [0x20] := by
  rcases quoteByte_cases quotePath byte with ⟨hplain, -⟩ | ⟨-, hquote⟩ | ⟨-, -, -, hnot⟩
  · rw [hplain] at h
    obtain rfl := List.mem_singleton.mp h
    exact ⟨rfl, hplain⟩
  · rw [hquote] at h
    exact absurd h (by decide)
  · exact absurd h (hnot 0x20 (by simp))

theorem quoteName_eq_space {name front back : Bytes}
    (h : quoteName quotePath name = front ++ 0x20 :: back) :
    ∃ before behind, name = before ++ 0x20 :: behind ∧ back = quoteName quotePath behind := by
  induction name generalizing front with
  | nil => simp [quoteName] at h
  | cons byte name ih =>
    have hsplit : quoteByte quotePath byte ++ quoteName quotePath name
        = front ++ 0x20 :: back := h
    rcases List.append_eq_append_iff.mp hsplit with ⟨more, rfl, hrest⟩ | ⟨more, hbyte, hrest⟩
    · obtain ⟨before, behind, rfl, hback⟩ := ih hrest
      exact ⟨byte :: before, behind, rfl, hback⟩
    · cases more with
      | nil =>
        have hrest : quoteName quotePath name = [] ++ 0x20 :: back := hrest.symm
        obtain ⟨before, behind, rfl, hback⟩ := ih hrest
        exact ⟨byte :: before, behind, rfl, hback⟩
      | cons space more =>
        obtain ⟨rfl, hback⟩ := List.cons.inj hrest
        have hspace : (0x20 : UInt8) ∈ quoteByte quotePath byte := by simp [hbyte]
        obtain ⟨rfl, hone⟩ := quoteByte_of_space quotePath hspace
        rw [hone] at hbyte
        have hmore : more = [] := by
          have hlength := congrArg List.length hbyte
          simp only [List.length_append, List.length_cons, List.length_nil] at hlength
          exact List.eq_nil_of_length_eq_zero (by omega)
        exact ⟨[], name, rfl, by rw [hback, hmore]; rfl⟩

/-- The last byte between quotes is a quote only if the name ends with one. -/
theorem quoteName_last {name front : Bytes} (h : quoteName quotePath name = front ++ [0x22]) :
    name.getLast? = some 0x22 := by
  induction name generalizing front with
  | nil => simp [quoteName] at h
  | cons byte name ih =>
    have hsplit : quoteByte quotePath byte ++ quoteName quotePath name = front ++ [0x22] := h
    cases name with
    | nil =>
      rw [quoteName, List.flatMap_nil, List.append_nil] at hsplit
      have hmem : (0x22 : UInt8) ∈ quoteByte quotePath byte := by simp [hsplit]
      rcases quoteByte_cases quotePath byte with ⟨hplain, hnot⟩ | ⟨rfl, -⟩ | ⟨-, -, -, hnot⟩
      · rw [hplain] at hmem
        exact absurd (List.mem_singleton.mp hmem) (fun heq => hnot (by simp [← heq]))
      · rfl
      · exact absurd hmem (hnot 0x22 (by simp))
    | cons next name =>
      rw [List.getLast?_cons_cons]
      have hlength := length_quoteName quotePath (next :: name)
      rcases List.append_eq_append_iff.mp hsplit with ⟨more, -, hrest⟩ | ⟨more, -, hrest⟩
      · exact ih hrest
      · cases more with
        | nil =>
          have hrest : quoteName quotePath (next :: name) = [] ++ [0x22] := hrest.symm
          exact ih hrest
        | cons first more =>
          have hshort := congrArg List.length hrest
          simp only [List.length_cons, List.length_append, List.length_nil] at hshort hlength
          omega

/-- A pattern of bytes that no escape has, with a space in front, is one of the name. -/
theorem infix_of_quoteName {name : Bytes} (h : Utf8.encode " b/" <:+: quoteName quotePath name) :
    Utf8.encode " b/" <:+: name := by
  have hpattern : Utf8.encode " b/" = [0x20, 0x62, 0x2f] := by decide
  rw [hpattern] at h ⊢
  obtain ⟨front, back, heq⟩ := h
  have hspace : quoteName quotePath name = front ++ 0x20 :: (0x62 :: 0x2f :: back) := by
    simp [← heq]
  obtain ⟨before, behind, rfl, hbehind⟩ := quoteName_eq_space quotePath hspace
  obtain ⟨-, more, rfl, hmore⟩ := quoteName_eq_cons quotePath hbehind.symm (by decide)
  obtain ⟨-, last, rfl, -⟩ := quoteName_eq_cons quotePath hmore.symm (by decide)
  exact ⟨before, last, by simp⟩

/-- No quote between quotes follows a space. -/
theorem not_infix_quoteName (name : Bytes) :
    ¬ Utf8.encode " \"b/" <:+: quoteName quotePath name := by
  have hpattern : Utf8.encode " \"b/" = [0x20, 0x22, 0x62, 0x2f] := by decide
  rw [hpattern]
  rintro ⟨front, back, heq⟩
  have hspace : quoteName quotePath name = front ++ 0x20 :: (0x22 :: 0x62 :: 0x2f :: back) := by
    simp [← heq]
  obtain ⟨before, behind, -, hbehind⟩ := quoteName_eq_space quotePath hspace
  exact (quoteName_eq_cons quotePath hbehind.symm (by decide)).1 rfl

end

/-! ### Trimming -/

theorem dropWhile_suffix {p : UInt8 → Bool} {front : Bytes} {byte : UInt8} {back : Bytes}
    (h : p byte = false) : byte :: back <:+ (front ++ byte :: back).dropWhile p := by
  induction front with
  | nil => simp [h]
  | cons first front ih =>
    rw [List.cons_append, List.dropWhile_cons]
    split
    · exact ih
    · exact (List.suffix_append front _).trans (List.suffix_cons first _)

theorem trimMatches_inside (byte : UInt8) (text : Bytes) : trimMatches byte text <:+: text := by
  have hfront := (List.dropWhile_suffix (· == byte) (l := text)).isInfix
  have hback := (List.dropWhile_suffix (· == byte)
    (l := (text.dropWhile (· == byte)).reverse)).isInfix
  unfold trimMatches
  refine List.IsInfix.trans ?_ hfront
  rw [← List.reverse_infix, List.reverse_reverse]
  exact hback

theorem trimMatches_self {byte : UInt8} {text : Bytes} (h : byte ∉ text) :
    trimMatches byte text = text := by
  have hkeep : ∀ {bytes : Bytes}, byte ∉ bytes → bytes.dropWhile (· == byte) = bytes := by
    intro bytes hbytes
    cases bytes with
    | nil => rfl
    | cons first bytes =>
      have hne : first ≠ byte := fun heq => hbytes (heq ▸ List.mem_cons_self)
      simp [hne]
  unfold trimMatches
  rw [hkeep h, hkeep (by simpa using h), List.reverse_reverse]

theorem infix_trimMatches {byte first last : UInt8} (hfirst : first ≠ byte) (hlast : last ≠ byte)
    {middle rest : Bytes} (hmiddle : first :: rest = middle ++ [last]) (front back : Bytes) :
    first :: rest <:+: trimMatches byte (front ++ (first :: rest) ++ back) := by
  have hfront : (first :: rest) ++ back <:+
      (front ++ (first :: rest) ++ back).dropWhile (· == byte) := by
    rw [List.append_assoc, List.cons_append]
    exact dropWhile_suffix (by simpa using hfirst)
  obtain ⟨more, hmore⟩ := hfront
  have hback : (first :: rest).reverse ++ more.reverse <:+
      (back.reverse ++ ((first :: rest).reverse ++ more.reverse)).dropWhile (· == byte) := by
    rw [hmiddle, List.reverse_append, List.reverse_singleton, List.singleton_append,
      List.cons_append]
    exact dropWhile_suffix (by simpa using hlast)
  unfold trimMatches
  rw [← hmore, List.reverse_append, List.reverse_append, List.append_assoc]
  refine List.IsInfix.trans ?_ (List.reverse_infix.mpr hback.isInfix)
  simp only [List.reverse_append, List.reverse_reverse]
  exact (List.suffix_append more _).isInfix

theorem trimMatches_last {byte : UInt8} {text front : Bytes} :
    trimMatches byte text ≠ front ++ [byte] := by
  intro h
  have hreverse := congrArg List.reverse h
  simp only [trimMatches, List.reverse_reverse, List.reverse_append, List.reverse_singleton,
    List.singleton_append] at hreverse
  have hhead := List.head?_dropWhile_not (· == byte) (text.dropWhile (· == byte)).reverse
  rw [hreverse] at hhead
  simp at hhead

/-! ### The path that is read -/

def plainSide : Bytes := Utf8.encode " b/"
def quotedSide : Bytes := Utf8.encode " \"b/"

theorem plainSide_eq : plainSide = [0x20, 0x62, 0x2f] := by decide
theorem quotedSide_eq : quotedSide = [0x20, 0x22, 0x62, 0x2f] := by decide
theorem plainSide_ascii : ∀ byte ∈ plainSide, byte < 0x80 := by simp [plainSide_eq]
theorem quotedSide_ascii : ∀ byte ∈ quotedSide, byte < 0x80 := by simp [quotedSide_eq]
theorem plainSide_ne_nil : plainSide ≠ [] := by decide
theorem quotedSide_ne_nil : quotedSide ≠ [] := by decide

/-- What stands behind the last ` b/` is trimmed, and it does not hold another. -/
theorem diffPath_of_plainSide {header front back : Bytes}
    (h : Fields.rsplitOnce plainSide header = some (front, back)) :
    diffPath header = trimMatches 0x22 back := by
  unfold plainSide at h
  simp only [diffPath, h]

theorem diffPath_of_quotedSide {header front back : Bytes}
    (hnone : Fields.rsplitOnce plainSide header = none)
    (h : Fields.rsplitOnce quotedSide header = some (front, back)) :
    diffPath header = trimMatches 0x22 back := by
  unfold plainSide at hnone
  unfold quotedSide at h
  simp only [diffPath, hnone, h]

theorem rsplitOnce_plainSide {back : Bytes} (h : Fields.rsplitOnce plainSide back = none) :
    Fields.rsplitOnce plainSide (plainSide ++ back) = some ([], back) := by
  rw [plainSide_eq] at h ⊢
  simp [Fields.rsplitOnce, h, List.isPrefixOf?]

theorem rsplitOnce_quotedSide {back : Bytes} (h : Fields.rsplitOnce quotedSide back = none) :
    Fields.rsplitOnce quotedSide (quotedSide ++ back) = some ([], back) := by
  rw [quotedSide_eq] at h ⊢
  simp [Fields.rsplitOnce, h, List.isPrefixOf?]

/-- A quoted side brings no ` b/` of its own. -/
theorem rsplitOnce_plain_quoted {back : Bytes} (h : Fields.rsplitOnce plainSide back = none) :
    Fields.rsplitOnce plainSide (quotedSide ++ back) = none := by
  rw [plainSide_eq] at h ⊢
  rw [quotedSide_eq]
  simp [Fields.rsplitOnce, h, List.isPrefixOf?]

/-- A name that is written plain is read back when it is text and does not hold ` b/`. -/
theorem diffPath_plain (side : Bytes) {name : Bytes} (hquote : (0x22 : UInt8) ∉ name) :
    diffPath (Utf8.lossy (side ++ plainSide ++ name)) = name
      ↔ ¬ plainSide <:+: name ∧ Utf8.valid name = true := by
  have hheader := Utf8.lossy_pattern plainSide_ascii plainSide_ne_nil side name
  have hinside := Utf8.infix_lossy plainSide_ascii plainSide_ne_nil name
  rw [hheader]
  cases hcut : Fields.rsplitOnce plainSide (Utf8.lossy side ++ plainSide ++ Utf8.lossy name) with
  | none =>
    exact absurd ⟨_, _, rfl⟩ ((Fields.rsplitOnce_eq_none plainSide_ne_nil).mp hcut)
  | some cut =>
    obtain ⟨front, back⟩ := cut
    obtain ⟨heq, hlast⟩ := Fields.rsplitOnce_eq_some plainSide_ne_nil hcut
    rw [diffPath_of_plainSide hcut]
    -- A name that is read back comes from a piece without another ` b/`.
    have hname : trimMatches 0x22 back = name → ¬ plainSide <:+: name := by
      intro htrim hmem
      rw [← htrim] at hmem
      exact hlast (hmem.trans (trimMatches_inside 0x22 back))
    have hback : ¬ plainSide <:+: name → back = Utf8.lossy name := by
      intro hnot
      have hrest := (Fields.rsplitOnce_eq_none plainSide_ne_nil).mpr fun h => hnot (hinside.mp h)
      have hside := Fields.rsplitOnce_append (rsplitOnce_plainSide hrest) (Utf8.lossy side)
      rw [← List.append_assoc, hcut] at hside
      exact (Prod.mk.inj (Option.some.inj hside)).2
    constructor
    · intro htrim
      have hnot := hname htrim
      have hquoteLossy : (0x22 : UInt8) ∉ Utf8.lossy name := by
        intro hmem
        obtain ⟨before, behind, hsplit⟩ := List.append_of_mem hmem
        obtain ⟨before, behind, rfl, -⟩ := Utf8.lossy_eq_append (by decide) hsplit
        exact hquote (by simp)
      rw [hback hnot, trimMatches_self hquoteLossy] at htrim
      exact ⟨hnot, beq_iff_eq.mpr htrim⟩
    · intro h
      have hvalid : Utf8.lossy name = name := eq_of_beq h.2
      rw [hback h.1, hvalid, trimMatches_self hquote]

/-- A pattern that ends with no quote is not made by one at the end. -/
theorem infix_of_infix_quote (front : Bytes) {pattern text : Bytes} {last : UInt8}
    (hpattern : pattern = front ++ [last]) (hlast : last ≠ 0x22)
    (h : pattern <:+: text ++ [0x22]) : pattern <:+: text := by
  obtain ⟨before, behind, heq⟩ := h
  rcases List.eq_nil_or_concat behind with rfl | ⟨behind, byte, rfl⟩
  · rw [hpattern, List.append_nil, ← List.append_assoc] at heq
    exact absurd (List.append_inj' heq rfl).2 (by simpa using hlast)
  · rw [List.concat_eq_append, ← List.append_assoc] at heq
    exact ⟨before, behind, (List.append_inj' heq rfl).1⟩

/-- A name that is written with quotes is not read back. -/
theorem diffPath_quoted (quotePath : Bool) (side : Bytes) {name : Bytes}
    (hname : needsQuotes quotePath name = true) :
    diffPath (Utf8.lossy (side ++ quotedSide ++ (quoteName quotePath name ++ [0x22]))) ≠ name := by
  intro hpath
  set quoted := Utf8.lossy (quoteName quotePath name) with hquoted
  have htail : Utf8.lossy (quoteName quotePath name ++ [0x22]) = quoted ++ [0x22] :=
    Utf8.lossy_append (by decide) _ []
  have hheader := Utf8.lossy_pattern quotedSide_ascii quotedSide_ne_nil side
    (quoteName quotePath name ++ [0x22])
  rw [htail] at hheader
  rw [hheader] at hpath
  have hlong : name.length < quoted.length :=
    (length_lt_quoteName quotePath hname).trans_le (Utf8.length_le_lossy _)
  -- Whatever the cut, the quoted name is in the piece that is trimmed.
  have hpiece : ∀ back : Bytes, quoted ++ [0x22] <:+ back → trimMatches 0x22 back ≠ name := by
    intro back hback htrim
    obtain ⟨first, rest, hfirst⟩ : ∃ first rest, quoted = first :: rest :=
      List.exists_cons_of_length_pos (by omega)
    have hne : first ≠ 0x22 := by
      rintro rfl
      have hleads : [0x22] <+: quoted := by simp [hfirst]
      obtain ⟨more, hmore⟩ := (Utf8.prefix_lossy (by simp) _).mp hleads
      exact (quoteName_eq_cons quotePath hmore.symm (by decide)).1 rfl
    rcases List.eq_nil_or_concat quoted with hnil | ⟨middle, last, hlast⟩
    · exact absurd (congrArg List.length hnil) (by simp only [List.length_nil]; omega)
    · rw [List.concat_eq_append] at hlast
      have hquote : last ≠ 0x22 := by
        rintro rfl
        obtain ⟨before, behind, hsplit, -, hbehind⟩ := Utf8.lossy_eq_append (by decide) hlast
        have hnil : behind = [] := by
          have hlength := Utf8.length_le_lossy behind
          rw [hbehind] at hlength
          exact List.eq_nil_of_length_eq_zero (Nat.le_zero.mp hlength)
        rw [hnil] at hsplit
        obtain ⟨front, hfront⟩ := List.getLast?_eq_some_iff.mp (quoteName_last quotePath hsplit)
        exact trimMatches_last (htrim.trans hfront)
      obtain ⟨front, rfl⟩ := hback
      have hinside := infix_trimMatches hne hquote (hfirst.symm.trans hlast) front [0x22]
      rw [← hfirst, List.append_assoc, htrim] at hinside
      have hlength := hinside.length_le
      omega
  have hsplit : ¬ plainSide <:+: name → ¬ plainSide <:+: quotedSide ++ (quoted ++ [0x22]) := by
    intro hnot
    rw [← Fields.rsplitOnce_eq_none plainSide_ne_nil]
    refine rsplitOnce_plain_quoted ((Fields.rsplitOnce_eq_none plainSide_ne_nil).mpr fun h => ?_)
    have hinner := infix_of_infix_quote [0x20, 0x62] plainSide_eq (by decide) h
    exact hnot (infix_of_quoteName quotePath
      ((Utf8.infix_lossy plainSide_ascii plainSide_ne_nil _).mp hinner))
  cases hcut : Fields.rsplitOnce plainSide
      (Utf8.lossy side ++ quotedSide ++ (quoted ++ [0x22])) with
  | some cut =>
    obtain ⟨front, back⟩ := cut
    obtain ⟨heq, hlast⟩ := Fields.rsplitOnce_eq_some plainSide_ne_nil hcut
    rw [diffPath_of_plainSide hcut] at hpath
    have hnot : ¬ plainSide <:+: name := by
      intro hmem
      rw [← hpath] at hmem
      exact hlast (hmem.trans (trimMatches_inside 0x22 back))
    refine hpiece back ?_ hpath
    have hside : plainSide ++ back <:+ Utf8.lossy side ++ quotedSide ++ (quoted ++ [0x22]) :=
      ⟨front, by rw [heq, List.append_assoc]⟩
    have htailSuffix : quotedSide ++ (quoted ++ [0x22]) <:+
        Utf8.lossy side ++ quotedSide ++ (quoted ++ [0x22]) :=
      ⟨Utf8.lossy side, by rw [List.append_assoc]⟩
    -- The cut is not within the quoted side, so the piece reaches back over it.
    have hlength : (quotedSide ++ (quoted ++ [0x22])).length < (plainSide ++ back).length := by
      by_contra hle
      have hinner := List.suffix_of_suffix_length_le hside htailSuffix (Nat.not_lt.mp hle)
      exact hsplit hnot ((List.prefix_append plainSide back).isInfix.trans hinner.isInfix)
    have hback : back <:+ Utf8.lossy side ++ quotedSide ++ (quoted ++ [0x22]) :=
      (List.suffix_append plainSide back).trans hside
    have hquotedSuffix : quoted ++ [0x22] <:+
        Utf8.lossy side ++ quotedSide ++ (quoted ++ [0x22]) :=
      List.suffix_append _ _
    refine List.suffix_of_suffix_length_le hquotedSuffix hback ?_
    rw [plainSide_eq, quotedSide_eq] at hlength
    simp only [List.length_append, List.length_cons, List.length_nil] at hlength ⊢
    omega
  | none =>
    have hnone : Fields.rsplitOnce quotedSide (quoted ++ [0x22]) = none := by
      refine (Fields.rsplitOnce_eq_none quotedSide_ne_nil).mpr fun h => ?_
      have hinner := infix_of_infix_quote [0x20, 0x22, 0x62] quotedSide_eq
        (by decide) h
      exact not_infix_quoteName quotePath name
        ((Utf8.infix_lossy quotedSide_ascii quotedSide_ne_nil _).mp hinner)
    have hside := Fields.rsplitOnce_append (rsplitOnce_quotedSide hnone) (Utf8.lossy side)
    rw [← List.append_assoc] at hside
    rw [diffPath_of_quotedSide hcut hside] at hpath
    exact hpiece _ (List.suffix_refl _) hpath

/-! ### The path of a change -/

theorem notMem_writeSide (quotePath : Bool) {letter byte : UInt8} (hletter : letter ≠ byte)
    (hbyte : byte ∈ [0x0a, 0x0d]) (name : Bytes) : byte ∉ writeSide quotePath letter name := by
  have hother : byte ≠ 0x22 ∧ byte ≠ 0x2f := by
    simp only [List.mem_cons, List.not_mem_nil, or_false] at hbyte
    rcases hbyte with rfl | rfl <;> decide
  unfold writeSide
  split
  · have hname : byte ∉ quoteName quotePath name := by
      intro hmem
      obtain ⟨other, -, hin⟩ := List.mem_flatMap.mp hmem
      simp only [List.mem_cons, List.not_mem_nil, or_false] at hbyte
      rcases quoteByte_cases quotePath other with ⟨hplain, hnot⟩ | ⟨-, hquote⟩ | ⟨-, -, -, hnot⟩
      · rw [hplain, List.mem_singleton] at hin
        refine hnot ?_
        rw [← hin]
        rcases hbyte with rfl | rfl <;> decide
      · rw [hquote] at hin
        rcases hbyte with rfl | rfl <;> exact absurd hin (by decide)
      · refine hnot byte ?_ hin
        rcases hbyte with rfl | rfl <;> decide
    simp [hother.1, hother.2, Ne.symm hletter, hname]
  · have hplain : needsQuotes quotePath name = false := by
      simpa using ‹¬ needsQuotes quotePath name = true›
    have hname := notMem_of_not_needsQuotes quotePath hplain
      (List.mem_cons_of_mem _ (List.mem_cons_of_mem _ hbyte))
    simp [hother.2, Ne.symm hletter, hname]

theorem notMem_writePaths (quotePath : Bool) {byte : UInt8} (hbyte : byte ∈ [0x0a, 0x0d])
    (old new : Bytes) : byte ∉ writePaths quotePath old new := by
  have hletters : (0x61 : UInt8) ≠ byte ∧ (0x62 : UInt8) ≠ byte ∧ byte ≠ 0x20 := by
    simp only [List.mem_cons, List.not_mem_nil, or_false] at hbyte
    rcases hbyte with rfl | rfl <;> decide
  have hold := notMem_writeSide quotePath hletters.1 hbyte old
  have hnew := notMem_writeSide quotePath hletters.2.1 hbyte new
  simp [writePaths, hold, hnew, hletters.2.2]

/-- The section of a change from one name to another. -/
def sectionOf (quotePath : Bool) (old new : Bytes) (preamble : List PreambleLine)
    (hunks : List GitHunk) : GitSection where
  paths := writePaths quotePath old new
  plain := notMem_writePaths quotePath (by simp) old new
  preamble := preamble
  hunks := hunks

/-- The path of a change's file is its new name just when git writes that name without quotes,
and the name is text and does not hold ` b/`. -/
theorem path_eq_iff (before behind : List GitSection) (quotePath : Bool) (old new : Bytes)
    (preamble : List PreambleLine) (hunks : List GitHunk) :
    ((parseUnifiedDiffBytes (render
        (before ++ sectionOf quotePath old new preamble hunks :: behind))).fileDiffs[
          before.length]?).map (·.path) = some new
      ↔ needsQuotes quotePath new = false ∧ ¬ Utf8.encode " b/" <:+: new ∧
          Utf8.valid new = true := by
  have hplace : (before ++ sectionOf quotePath old new preamble hunks :: behind)[before.length]?
      = some (sectionOf quotePath old new preamble hunks) := by simp
  obtain ⟨front, -, -, hfile⟩ := fileDiff_render hplace
  have htext : lineText (writePaths quotePath old new)
      = Utf8.lossy (writePaths quotePath old new) := by
    have hcr := notMem_writePaths quotePath (by simp : (0x0d : UInt8) ∈ [0x0a, 0x0d]) old new
    have hstrip := stripCr_append hcr []
    rw [List.append_nil] at hstrip
    rw [lineText, hstrip]
    simp [Lines.stripCr]
  have hpath : ((parseUnifiedDiffBytes (render
      (before ++ sectionOf quotePath old new preamble hunks :: behind))).fileDiffs[
        before.length]?).map (·.path) = some new
        ↔ diffPath (Utf8.lossy (writePaths quotePath old new)) = new := by
    rw [hfile, Option.map_some, Option.some.injEq, ← htext]
    rfl
  rw [hpath]
  cases hquotes : needsQuotes quotePath new with
  | true =>
    have hwritten : writePaths quotePath old new
        = writeSide quotePath 0x61 old ++ quotedSide ++ (quoteName quotePath new ++ [0x22]) := by
      simp [writePaths, writeSide, hquotes, quotedSide_eq]
    rw [hwritten]
    simpa using diffPath_quoted quotePath (writeSide quotePath 0x61 old) hquotes
  | false =>
    have hwritten : writePaths quotePath old new
        = writeSide quotePath 0x61 old ++ plainSide ++ new := by
      simp [writePaths, writeSide, hquotes, plainSide_eq]
    have hquote := notMem_of_not_needsQuotes quotePath hquotes (by simp : (0x22 : UInt8) ∈ _)
    rw [hwritten, diffPath_plain _ hquote]
    simp [plainSide]

/-- A name with a letter that is not ASCII is escaped, and comes back as the escape. -/
theorem quoted_path_is_lost :
    ¬ ∀ (quotePath : Bool) (old new : Bytes),
      ((parseUnifiedDiffBytes (render [sectionOf quotePath old new [] []])).fileDiffs[0]?).map
        (·.path) = some new := by
  intro h
  have hread := h true (Utf8.encode "é") (Utf8.encode "é")
  exact absurd hread (by decide)

end Homie.App.Diff
