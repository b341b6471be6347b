/-
The patches that git writes, and the lines they are read in.

A file's section is its `diff --git` line, the lines of its preamble, and its hunks; a hunk is its
`@@` line and the lines of its body, as many old and new ones as the `@@` line counts.  What stands
behind a body line's mark is any text, so a line's first bytes are all that tell it from a header.
-/
import Homie.App.Diff
import Homie.Lib.Lossy

namespace Homie.App.Diff

inductive BodyMark where
  | context
  | addition
  | deletion
  /-- `\ No newline at end of file` -/
  | note
deriving DecidableEq, Repr

def BodyMark.byte : BodyMark → UInt8
  | .context => 0x20
  | .addition => 0x2b
  | .deletion => 0x2d
  | .note => 0x5c

structure BodyLine where
  mark : BodyMark
  content : Bytes
  plain : Lines.Plain content
deriving DecidableEq

namespace BodyLine

def text (line : BodyLine) : Bytes := line.mark.byte :: line.content

def isOld (line : BodyLine) : Bool := line.mark == .context || line.mark == .deletion

def isNew (line : BodyLine) : Bool := line.mark == .context || line.mark == .addition

end BodyLine

/-- A start and a count of lines; git leaves a count of one out. -/
structure LineRange where
  start : Nat
  count : Nat
  countShown : Bool
  shown : countShown = false → count = 1
deriving DecidableEq

/-- An empty side shows its count. -/
theorem LineRange.shown_zero : true = false → 0 = 1 := by decide

/-- A side of one line may leave its count out. -/
theorem LineRange.shown_one : false = false → 1 = 1 := by decide

theorem plain_nil : Lines.Plain [] := List.not_mem_nil

def LineRange.bytes (range : LineRange) : Bytes :=
  decimal range.start ++ if range.countShown then 0x2c :: decimal range.count else []

structure GitHunk where
  old : LineRange
  new : LineRange
  /-- What follows the second `@@`. -/
  context : Bytes
  body : List BodyLine
  plain : Lines.Plain context
  oldCount : body.countP BodyLine.isOld = old.count
  newCount : body.countP BodyLine.isNew = new.count
deriving DecidableEq

def GitHunk.header (hunk : GitHunk) : Bytes :=
  Utf8.encode "@@ -" ++ hunk.old.bytes ++ Utf8.encode " +" ++ hunk.new.bytes ++
    Utf8.encode " @@" ++ hunk.context

/-- A line before the first hunk: none that begins a file or a hunk, and with the mark of a body
line only if it names the old or the new side. -/
structure PreambleLine where
  text : Bytes
  plain : Lines.Plain text
  notFile : ¬ diffHeader <+: text
  notHunk : ¬ hunkHeader <+: text
  notBody : ∀ mark ∈ [0x20, 0x2b, 0x2d], text.head? = some mark →
    oldFileHeader <+: text ∨ newFileHeader <+: text
deriving DecidableEq

/-- The part of a patch that is about one file. -/
structure GitSection where
  /-- What follows `diff --git `. -/
  paths : Bytes
  plain : Lines.Plain paths
  preamble : List PreambleLine
  hunks : List GitHunk
deriving DecidableEq

/-! ### Lines and bytes -/

/-- A line as the patch holds it. -/
def raw (text : Bytes) : Bytes := text ++ [0x0a]

def bodyLines (body : List BodyLine) : List Bytes := body.map fun line => raw line.text

def GitHunk.lines (hunk : GitHunk) : List Bytes := raw hunk.header :: bodyLines hunk.body

def GitHunk.bytes (hunk : GitHunk) : Bytes := hunk.lines.flatten

def preambleLines (preamble : List PreambleLine) : List Bytes :=
  preamble.map fun line => raw line.text

namespace GitSection

/-- The lines before the first hunk, the `diff --git` line among them. -/
def preambleLines (file : GitSection) : List Bytes :=
  raw (diffHeader ++ file.paths) :: Diff.preambleLines file.preamble

def preambleBytes (file : GitSection) : Bytes := file.preambleLines.flatten

def lines (file : GitSection) : List Bytes :=
  file.preambleLines ++ file.hunks.flatMap GitHunk.lines

end GitSection

def render (sections : List GitSection) : Bytes := (sections.flatMap GitSection.lines).flatten

/-! ### Cutting a patch into its lines -/

theorem splitInclusive_line {text : Bytes} (h : Lines.Plain text) (rest : Bytes) :
    Fields.splitInclusive 0x0a (raw text ++ rest)
      = raw text :: Fields.splitInclusive 0x0a rest := by
  induction text with
  | nil => simp [raw, Fields.splitInclusive]
  | cons byte text ih =>
    have hbyte : byte ≠ 0x0a := fun heq => h (heq ▸ List.mem_cons_self)
    have htext := ih fun hmem => h (List.mem_cons_of_mem _ hmem)
    simp only [raw, List.cons_append] at htext ⊢
    rw [Fields.splitInclusive, if_neg hbyte, htext]

theorem splitInclusive_plain {rest : Bytes} (h : Lines.Plain rest) (hne : rest ≠ []) :
    Fields.splitInclusive 0x0a rest = [rest] := by
  induction rest with
  | nil => exact absurd rfl hne
  | cons byte rest ih =>
    have hbyte : byte ≠ 0x0a := fun heq => h (heq ▸ List.mem_cons_self)
    rw [Fields.splitInclusive, if_neg hbyte]
    by_cases hrest : rest = []
    · rw [hrest]
      rfl
    · rw [ih (fun hmem => h (List.mem_cons_of_mem _ hmem)) hrest]

/-- What is a line: a text without a line feed, and one behind it. -/
def IsLine (line : Bytes) : Prop := ∃ text, Lines.Plain text ∧ line = raw text

theorem splitInclusive_lines {lines : List Bytes} (h : ∀ line ∈ lines, IsLine line)
    (rest : Bytes) :
    Fields.splitInclusive 0x0a (lines.flatten ++ rest)
      = lines ++ Fields.splitInclusive 0x0a rest := by
  induction lines with
  | nil => rfl
  | cons line lines ih =>
    obtain ⟨text, htext, rfl⟩ := h line List.mem_cons_self
    have hlines := ih fun other hother => h other (List.mem_cons_of_mem _ hother)
    rw [List.flatten_cons, List.append_assoc, splitInclusive_line htext, hlines,
      List.cons_append]

theorem BodyLine.plain_text (line : BodyLine) : Lines.Plain line.text := by
  intro hmem
  rcases List.mem_cons.mp hmem with heq | hmem
  · cases hmark : line.mark <;> rw [hmark] at heq <;> exact absurd heq (by decide)
  · exact line.plain hmem

theorem decimal_plain (number : Nat) : Lines.Plain (decimal number) := by
  intro hmem
  exact absurd (digit_of_mem_decimal hmem) (by decide)

theorem LineRange.plain (range : LineRange) : Lines.Plain range.bytes := by
  intro hmem
  rcases List.mem_append.mp hmem with hstart | hcount
  · exact decimal_plain _ hstart
  · split at hcount
    · rcases List.mem_cons.mp hcount with heq | hcount
      · exact absurd heq (by decide)
      · exact decimal_plain _ hcount
    · exact absurd hcount List.not_mem_nil

theorem GitHunk.plain_header (hunk : GitHunk) : Lines.Plain hunk.header := by
  have hfront : (0x0a : UInt8) ∉ Utf8.encode "@@ -" := by decide
  have hmiddle : (0x0a : UInt8) ∉ Utf8.encode " +" := by decide
  have hback : (0x0a : UInt8) ∉ Utf8.encode " @@" := by decide
  have hold := hunk.old.plain
  have hnew := hunk.new.plain
  have hcontext := hunk.plain
  unfold Lines.Plain at *
  simp [GitHunk.header, hfront, hmiddle, hback, hold, hnew, hcontext]

theorem isLine_body (body : List BodyLine) : ∀ line ∈ bodyLines body, IsLine line := by
  intro line hline
  obtain ⟨bodyLine, -, rfl⟩ := List.mem_map.mp hline
  exact ⟨bodyLine.text, bodyLine.plain_text, rfl⟩

theorem GitHunk.isLine (hunk : GitHunk) : ∀ line ∈ hunk.lines, IsLine line := by
  intro line hline
  rcases List.mem_cons.mp hline with rfl | hline
  · exact ⟨hunk.header, hunk.plain_header, rfl⟩
  · exact isLine_body hunk.body line hline

theorem GitSection.plain_paths (file : GitSection) :
    Lines.Plain (diffHeader ++ file.paths) := by
  have hheader : (0x0a : UInt8) ∉ diffHeader := by decide
  have hpaths := file.plain
  unfold Lines.Plain at *
  simp [hheader, hpaths]

theorem GitSection.isLine_preamble (file : GitSection) :
    ∀ line ∈ file.preambleLines, IsLine line := by
  intro line hline
  rcases List.mem_cons.mp hline with rfl | hline
  · exact ⟨diffHeader ++ file.paths, file.plain_paths, rfl⟩
  · obtain ⟨preambleLine, -, rfl⟩ := List.mem_map.mp hline
    exact ⟨preambleLine.text, preambleLine.plain, rfl⟩

theorem GitSection.isLine (file : GitSection) : ∀ line ∈ file.lines, IsLine line := by
  intro line hline
  rcases List.mem_append.mp hline with hpreamble | hhunk
  · exact file.isLine_preamble line hpreamble
  · obtain ⟨hunk, -, hline⟩ := List.mem_flatMap.mp hhunk
    exact hunk.isLine line hline

theorem isLine_sections (sections : List GitSection) :
    ∀ line ∈ sections.flatMap GitSection.lines, IsLine line := by
  intro line hline
  obtain ⟨file, -, hline⟩ := List.mem_flatMap.mp hline
  exact file.isLine line hline

theorem splitInclusive_render (sections : List GitSection) :
    Fields.splitInclusive 0x0a (render sections) = sections.flatMap GitSection.lines := by
  have h := splitInclusive_lines (isLine_sections sections) []
  simpa [render, Fields.splitInclusive] using h

end Homie.App.Diff

/-! ### The snapshot of a patch that git writes, in closed form

`DiffSnapshot.addFile` is what a section adds to a snapshot: its rows at the end, and one file with
one hunk for each of its own.  The loop over the lines is followed from the inside out: a body line
(`step_body`), a body, a hunk, a section, and all of them (`parse_render`).

A body line that begins like the `---` or `+++` line of a preamble is `skipped`: it goes to the
patch, but it has no row and is not counted.
-/

namespace Homie.App.Diff

/-! ### Lines as they are read -/

/-- The text that the loop sees of a line. -/
def lineText (text : Bytes) : Bytes := Utf8.lossy (Lines.stripCr text)

theorem trimPatchLine_raw (text : Bytes) : trimPatchLine (raw text) = Lines.stripCr text := by
  simp [trimPatchLine, raw]

theorem trimPatchLine_plain {text : Bytes} (h : Lines.Plain text) :
    trimPatchLine text = Lines.stripCr text := by
  have hlast : text.getLast? ≠ some 0x0a := fun heq => h (List.mem_of_getLast? heq)
  rw [trimPatchLine, if_neg hlast]

theorem stripCr_cons {byte : UInt8} (h : byte ≠ 0x0d) (text : Bytes) :
    Lines.stripCr (byte :: text) = byte :: Lines.stripCr text := by
  cases text with
  | nil => simp [Lines.stripCr, h]
  | cons other text =>
    unfold Lines.stripCr
    rw [List.getLast?_cons_cons]
    split
    · rfl
    · rfl

theorem stripCr_append {front : Bytes} (h : (0x0d : UInt8) ∉ front) (back : Bytes) :
    Lines.stripCr (front ++ back) = front ++ Lines.stripCr back := by
  induction front with
  | nil => rfl
  | cons byte front ih =>
    have hbyte : byte ≠ 0x0d := fun heq => h (heq ▸ List.mem_cons_self)
    rw [List.cons_append, stripCr_cons hbyte, ih fun hmem => h (List.mem_cons_of_mem _ hmem),
      List.cons_append]

theorem prefix_stripCr {pattern : Bytes} (h : (0x0d : UInt8) ∉ pattern) (text : Bytes) :
    pattern <+: Lines.stripCr text ↔ pattern <+: text := by
  constructor
  · exact fun hleads => hleads.trans (Lines.stripCr_isPrefix text)
  · rintro ⟨back, rfl⟩
    rw [stripCr_append h]
    exact List.prefix_append pattern _

/-- What a line is told by: bytes that are ASCII and no carriage return. -/
def Telling (pattern : Bytes) : Prop := ∀ byte ∈ pattern, byte < 0x80 ∧ byte ≠ 0x0d

instance (pattern : Bytes) : Decidable (Telling pattern) :=
  List.decidableBAll (fun byte => byte < 0x80 ∧ byte ≠ 0x0d) pattern

theorem Telling.ascii {pattern : Bytes} (h : Telling pattern) : ∀ byte ∈ pattern, byte < 0x80 :=
  fun byte hbyte => (h byte hbyte).1

theorem Telling.noReturn {pattern : Bytes} (h : Telling pattern) : (0x0d : UInt8) ∉ pattern :=
  fun hmem => (h _ hmem).2 rfl

theorem prefix_lineText {pattern : Bytes} (h : Telling pattern) (text : Bytes) :
    pattern <+: lineText text ↔ pattern <+: text :=
  (Utf8.prefix_lossy h.ascii _).trans (prefix_stripCr h.noReturn text)

theorem lineText_append {pattern : Bytes} (h : Telling pattern) (text : Bytes) :
    lineText (pattern ++ text) = pattern ++ lineText text := by
  rw [lineText, stripCr_append h.noReturn, Utf8.lossy_ascii_append h.ascii]
  rfl

theorem telling_diffHeader : Telling diffHeader := by decide
theorem telling_hunkHeader : Telling hunkHeader := by decide
theorem telling_oldFileHeader : Telling oldFileHeader := by decide
theorem telling_newFileHeader : Telling newFileHeader := by decide

theorem isPrefixOf_lineText {pattern : Bytes} (h : Telling pattern) (text : Bytes) :
    pattern.isPrefixOf (lineText text) = pattern.isPrefixOf text := by
  rw [Bool.eq_iff_iff, List.isPrefixOf_iff_prefix, List.isPrefixOf_iff_prefix,
    prefix_lineText h]

/-! ### One step -/

section
variable {rawLine text : Bytes} (hline : trimPatchLine rawLine = Lines.stripCr text)
include hline

theorem step_file {paths : Bytes} (h : text = diffHeader ++ paths) (state : ParserState) :
    step state rawLine = startFile state rawLine (lineText paths) := by
  have hheader : diffHeader.isPrefixOf? (Utf8.lossy (Lines.stripCr text))
      = some (lineText paths) := by
    show diffHeader.isPrefixOf? (lineText text) = _
    rw [h, lineText_append telling_diffHeader, Fields.isPrefixOf?_append]
  simp only [step, hline, hheader]

theorem step_hunk (hfile : ¬ diffHeader <+: text) (h : hunkHeader <+: text)
    (state : ParserState) : step state rawLine = startHunk state rawLine (lineText text) := by
  have hnone := Fields.isPrefixOf?_eq_none fun hleads =>
    hfile ((prefix_lineText telling_diffHeader text).mp hleads)
  have hsome : hunkHeader.isPrefixOf (lineText text) = true :=
    List.isPrefixOf_iff_prefix.mpr ((prefix_lineText telling_hunkHeader text).mpr h)
  unfold lineText at *
  simp only [step, hline, hnone, hsome, if_true]

theorem step_line (hfile : ¬ diffHeader <+: text) (h : ¬ hunkHeader <+: text)
    (state : ParserState) :
    step state rawLine = readLine (keepLine state rawLine) (lineText text) := by
  have hnone := Fields.isPrefixOf?_eq_none fun hleads =>
    hfile ((prefix_lineText telling_diffHeader text).mp hleads)
  have hother : ¬ hunkHeader.isPrefixOf (lineText text) = true := by
    rw [isPrefixOf_lineText telling_hunkHeader]
    exact fun hleads => h (List.isPrefixOf_iff_prefix.mp hleads)
  unfold lineText at *
  simp only [step, hline, hnone, hother, Bool.false_eq_true, if_false]

end

/-! ### A body -/

/-- The line is taken for the `---` or `+++` line of a preamble. -/
def BodyLine.skipped (line : BodyLine) : Bool :=
  oldFileHeader.isPrefixOf line.text || newFileHeader.isPrefixOf line.text

def BodyLine.isAddition (line : BodyLine) : Bool := line.mark == .addition

def BodyLine.isDeletion (line : BodyLine) : Bool := line.mark == .deletion

/-- Lines that are counted as added, and as deleted. -/
def addedIn (body : List BodyLine) : Nat := body.countP fun line => line.isAddition && !line.skipped

def deletedIn (body : List BodyLine) : Nat :=
  body.countP fun line => line.isDeletion && !line.skipped

namespace BodyLine

def row (line : BodyLine) (old new : Option UInt32) : DiffRow :=
  match line.mark with
  | .context => ⟨.context, old, new, lineText line.content⟩
  | .addition => ⟨.addition, none, new, lineText line.content⟩
  | .deletion => ⟨.deletion, old, none, lineText line.content⟩
  | .note => ⟨.other, none, none, lineText line.text⟩

def nextOld (line : BodyLine) (old : Option UInt32) : Option UInt32 :=
  if line.isOld && !line.skipped then old.map saturatingSucc else old

def nextNew (line : BodyLine) (new : Option UInt32) : Option UInt32 :=
  if line.isNew && !line.skipped then new.map saturatingSucc else new

def rows (line : BodyLine) (old new : Option UInt32) : List DiffRow :=
  if line.skipped then [] else [line.row old new]

end BodyLine

def bodyRows : Option UInt32 → Option UInt32 → List BodyLine → List DiffRow
  | _, _, [] => []
  | old, new, line :: body =>
    line.rows old new ++ bodyRows (line.nextOld old) (line.nextNew new) body

def lastOld (body : List BodyLine) (old : Option UInt32) : Option UInt32 :=
  body.foldl (fun old line => line.nextOld old) old

def lastNew (body : List BodyLine) (new : Option UInt32) : Option UInt32 :=
  body.foldl (fun new line => line.nextNew new) new

def widest (columns : Nat) (rows : List DiffRow) : Nat :=
  rows.foldl (fun columns row => max columns (min (charCount row.text) 500)) columns

/-- A snapshot with rows at its end. -/
def DiffSnapshot.withRows (snapshot : DiffSnapshot) (rows : List DiffRow) : DiffSnapshot :=
  { snapshot with
    rows := snapshot.rows ++ rows
    maxTextColumns := widest snapshot.maxTextColumns rows }

/-- A snapshot in which the hunk at a place has taken in these lines of a body. -/
def DiffSnapshot.grow (snapshot : DiffSnapshot) (place : Nat × Nat) (added deleted : Nat)
    (bytes : Bytes) (rows : List DiffRow) : DiffSnapshot :=
  { snapshot.withRows rows with
    additions := snapshot.additions + added
    deletions := snapshot.deletions + deleted
    fileDiffs := snapshot.fileDiffs.modify place.1 fun file =>
      { file with
        additions := file.additions + added
        deletions := file.deletions + deleted
        hunks := file.hunks.modify place.2 fun hunk =>
          { hunk with
            additions := hunk.additions + added
            deletions := hunk.deletions + deleted
            patch := hunk.patch ++ bytes } } }

theorem grow_grow (snapshot : DiffSnapshot) (place : Nat × Nat) (added deleted : Nat)
    (bytes : Bytes) (rows : List DiffRow) (moreAdded moreDeleted : Nat) (moreBytes : Bytes)
    (moreRows : List DiffRow) :
    (snapshot.grow place added deleted bytes rows).grow place moreAdded moreDeleted moreBytes
        moreRows
      = snapshot.grow place (added + moreAdded) (deleted + moreDeleted) (bytes ++ moreBytes)
          (rows ++ moreRows) := by
  simp [DiffSnapshot.grow, DiffSnapshot.withRows, widest, List.modify_modify_eq,
    Function.comp_def, Nat.add_assoc]

theorem grow_nothing (snapshot : DiffSnapshot) (place : Nat × Nat) :
    snapshot.grow place 0 0 [] [] = snapshot := by
  have hhunk : (fun hunk : DiffHunk => { hunk with
      additions := hunk.additions + 0
      deletions := hunk.deletions + 0
      patch := hunk.patch ++ [] }) = id := by
    funext hunk
    simp
  unfold DiffSnapshot.grow
  rw [hhunk]
  simp only [List.modify_id, Nat.add_zero, DiffSnapshot.withRows, widest, List.append_nil,
    List.foldl_nil]
  have hfiles : snapshot.fileDiffs.modify place.1 id = snapshot.fileDiffs := List.modify_id ..
  show { snapshot with fileDiffs := snapshot.fileDiffs.modify place.1 id } = snapshot
  rw [hfiles]

/-- A body line does not begin a file or a hunk. -/
theorem BodyLine.not_header (line : BodyLine) {pattern : Bytes} (byte : UInt8)
    (h : pattern.head? = some byte) (hbyte : ∀ mark : BodyMark, mark.byte ≠ byte) :
    ¬ pattern <+: line.text := by
  intro hleads
  obtain ⟨rest, rfl⟩ := List.head?_eq_some_iff.mp h
  exact hbyte line.mark (List.cons_prefix_cons.mp hleads).1.symm

theorem BodyLine.lineText_text (line : BodyLine) :
    lineText line.text = line.mark.byte :: lineText line.content := by
  have hmark : Telling [line.mark.byte] := by
    cases line.mark <;> decide
  exact lineText_append hmark line.content

theorem step_body (line : BodyLine) {rawLine : Bytes}
    (hline : trimPatchLine rawLine = Lines.stripCr line.text) (state : ParserState)
    {place : Nat × Nat} (hfile : state.currentFile = some place.1)
    (hhunk : state.currentHunk = some place) :
    step state rawLine
      = { state with
          snapshot := state.snapshot.grow place (addedIn [line]) (deletedIn [line]) rawLine
            (line.rows state.oldLine state.newLine)
          oldLine := line.nextOld state.oldLine
          newLine := line.nextNew state.newLine } := by
  have hdiff : ¬ diffHeader <+: line.text :=
    line.not_header 0x64 (by decide) fun mark => by cases mark <;> decide
  have hat : ¬ hunkHeader <+: line.text :=
    line.not_header 0x40 (by decide) fun mark => by cases mark <;> decide
  rw [step_line hline hdiff hat]
  have hskipped : (oldFileHeader.isPrefixOf (lineText line.text) ||
      newFileHeader.isPrefixOf (lineText line.text)) = line.skipped := by
    rw [isPrefixOf_lineText telling_oldFileHeader, isPrefixOf_lineText telling_newFileHeader]
    rfl
  obtain ⟨snapshot, oldLine, newLine, currentFile, currentHunk, filePreamble⟩ := state
  obtain rfl := hfile
  obtain rfl := hhunk
  unfold readLine
  rw [hskipped]
  cases hskip : line.skipped with
  | true =>
    simp [keepLine, DiffSnapshot.grow, addedIn, deletedIn, BodyLine.rows, hskip,
      BodyLine.nextOld, BodyLine.nextNew, DiffSnapshot.modifyHunk, DiffSnapshot.modifyFile,
      DiffSnapshot.withRows, widest]
  | false =>
    have htext := line.lineText_text
    rw [htext]
    cases hmark : line.mark <;>
      simp [keepLine, DiffSnapshot.grow, addedIn, deletedIn, BodyLine.rows, hskip, hmark, htext,
        BodyLine.nextOld, BodyLine.nextNew, BodyLine.isOld, BodyLine.isNew, BodyMark.byte,
        BodyLine.isAddition, BodyLine.isDeletion, BodyLine.row, countAddition, countDeletion,
        DiffSnapshot.modifyAt, DiffSnapshot.modifyHunk, DiffSnapshot.modifyFile,
        List.modify_modify_eq, Function.comp_def, pushRow, DiffSnapshot.withRows, widest]

theorem run_body (body : List BodyLine) (state : ParserState) {place : Nat × Nat}
    (hfile : state.currentFile = some place.1) (hhunk : state.currentHunk = some place) :
    (bodyLines body).foldl step state
      = { state with
          snapshot := state.snapshot.grow place (addedIn body) (deletedIn body)
            (bodyLines body).flatten (bodyRows state.oldLine state.newLine body)
          oldLine := lastOld body state.oldLine
          newLine := lastNew body state.newLine } := by
  induction body generalizing state with
  | nil =>
    show state = { state with snapshot := state.snapshot.grow place 0 0 [] [] }
    rw [grow_nothing]
  | cons line body ih =>
    have hadded : addedIn (line :: body) = addedIn [line] + addedIn body := by
      simp [addedIn, List.countP_cons, Nat.add_comm]
    have hdeleted : deletedIn (line :: body) = deletedIn [line] + deletedIn body := by
      simp [deletedIn, List.countP_cons, Nat.add_comm]
    have hstep := step_body line (trimPatchLine_raw line.text) state hfile hhunk
    have hrest := ih (step state (raw line.text)) (by rw [hstep]; exact hfile)
      (by rw [hstep]; exact hhunk)
    refine hrest.trans ?_
    rw [hstep]
    simp only [grow_grow, hadded, hdeleted]
    rfl

/-! ### A hunk -/

/-- A number that fits. -/
def fitted (number : Nat) : Option UInt32 :=
  if number < 2 ^ 32 then some (UInt32.ofNat number) else none

namespace GitHunk

def rows (hunk : GitHunk) : List DiffRow :=
  ⟨.hunk, none, none, lineText hunk.header⟩ ::
    bodyRows (fitted hunk.old.start) (fitted hunk.new.start) hunk.body

/-- The hunk as the inspector has it, with its rows from one on and behind a preamble. -/
def diffHunk (hunk : GitHunk) (start : Nat) (preamble : Bytes) : DiffHunk where
  header := lineText hunk.header
  rowRange := ⟨start, start + hunk.rows.length⟩
  oldStart := fitted hunk.old.start
  newStart := fitted hunk.new.start
  additions := addedIn hunk.body
  deletions := deletedIn hunk.body
  patch := preamble ++ hunk.bytes
  fingerprint := fnv1a64 (preamble ++ hunk.bytes)

end GitHunk

theorem solid_decimal (number : Nat) : Words.Solid (decimal number) := by
  intro byte hbyte
  have hdigit := digit_of_mem_decimal hbyte
  exact ⟨UInt8.lt_of_lt_of_le (by decide) hdigit.1, UInt8.lt_of_le_of_lt hdigit.2 (by decide)⟩

theorem LineRange.solid (range : LineRange) : Words.Solid range.bytes := by
  intro byte hbyte
  rcases List.mem_append.mp hbyte with hstart | hcount
  · exact solid_decimal _ byte hstart
  · split at hcount
    · rcases List.mem_cons.mp hcount with rfl | hcount
      · decide
      · exact solid_decimal _ byte hcount
    · exact absurd hcount List.not_mem_nil

theorem rangeStart_bytes (sign : UInt8) (range : LineRange) :
    rangeStart (sign :: range.bytes) sign = fitted range.start := by
  have hdigits : ∀ byte ∈ decimal range.start, (byte != 0x2c) = true := by
    intro byte hbyte
    have hdigit := digit_of_mem_decimal hbyte
    simp only [bne_iff_ne, ne_eq]
    rintro rfl
    exact absurd hdigit (by decide)
  have hcut : range.bytes.takeWhile (· != 0x2c) = decimal range.start := by
    unfold LineRange.bytes
    rw [List.takeWhile_append_of_pos hdigits]
    split <;> simp
  simp only [rangeStart, if_true, hcut, fitted]
  rw [parseUnsigned_decimal_eq]
  split <;> rfl

/-- The header up to its second `@@`. -/
theorem GitHunk.header_eq (hunk : GitHunk) :
    hunk.header = Utf8.encode "@@" ++ 0x20 :: ((0x2d :: hunk.old.bytes) ++ 0x20 ::
      ((0x2b :: hunk.new.bytes) ++ 0x20 :: (Utf8.encode "@@" ++ hunk.context))) := by
  have hfront : Utf8.encode "@@ -" = Utf8.encode "@@" ++ [0x20, 0x2d] := by decide
  have hmiddle : Utf8.encode " +" = [0x20, 0x2b] := by decide
  have hback : Utf8.encode " @@" = 0x20 :: Utf8.encode "@@" := by decide
  unfold GitHunk.header
  rw [hfront, hmiddle, hback]
  simp

theorem parseHunkStart_header (hunk : GitHunk) :
    parseHunkStart (lineText hunk.header) = (fitted hunk.old.start, fitted hunk.new.start) := by
  have hat : Words.Solid (Utf8.encode "@@") := by
    have hencode : Utf8.encode "@@" = [0x40, 0x40] := by decide
    simp [Words.Solid, hencode]
  have hold : Words.Solid (0x2d :: hunk.old.bytes) := by
    intro byte hbyte
    rcases List.mem_cons.mp hbyte with rfl | hbyte
    · decide
    · exact hunk.old.solid byte hbyte
  have hnew : Words.Solid (0x2b :: hunk.new.bytes) := by
    intro byte hbyte
    rcases List.mem_cons.mp hbyte with rfl | hbyte
    · decide
    · exact hunk.new.solid byte hbyte
  have htelling : ∀ {word : Bytes}, Words.Solid word → Telling (word ++ [0x20]) := by
    intro word hword byte hbyte
    rcases List.mem_append.mp hbyte with hin | hspace
    · refine ⟨(hword byte hin).2, ?_⟩
      rintro rfl
      exact absurd (hword _ hin).1 (by decide)
    · rw [List.mem_singleton.mp hspace]
      decide
  have htext : ∀ {word : Bytes}, Words.Solid word → ∀ rest,
      lineText (word ++ 0x20 :: rest) = word ++ 0x20 :: lineText rest := by
    intro word hword rest
    have h := lineText_append (htelling hword) rest
    simpa using h
  have hwords : Words.words (lineText hunk.header)
      = Utf8.encode "@@" :: (0x2d :: hunk.old.bytes) :: (0x2b :: hunk.new.bytes) ::
          Words.words (lineText (Utf8.encode "@@" ++ hunk.context)) := by
    rw [hunk.header_eq, htext hat, htext hold, htext hnew, Words.words_append hat (by decide),
      Words.words_append hold (by simp), Words.words_append hnew (by simp)]
  simp only [parseHunkStart, hwords, List.getElem?_cons_succ, List.getElem?_cons_zero,
    Option.bind_some, rangeStart_bytes]

theorem modify_last {α : Type} (front : List α) (last : α) (f : α → α) :
    (front ++ [last]).modify front.length f = front ++ [f last] := by
  induction front with
  | nil => rfl
  | cons x front ih => simp [ih]

/-- The loop stands in a file, the last one so far, and has no hunk open. -/
structure InFile (state : ParserState) (files : List DiffFile) (file : DiffFile) : Prop where
  fileDiffs : state.snapshot.fileDiffs = files ++ [file]
  currentFile : state.currentFile = some files.length
  currentHunk : state.currentHunk = none

/-- Items one behind the other, each made for the place where its rows begin. -/
def laidOut {α β γ : Type} (rows : α → List γ) (make : α → Nat → β) : Nat → List α → List β
  | _, [] => []
  | start, item :: items =>
    make item start :: laidOut rows make (start + (rows item).length) items

/-- Hunks as the inspector has them. -/
def diffHunks (preamble : Bytes) (start : Nat) (hunks : List GitHunk) : List DiffHunk :=
  laidOut GitHunk.rows (fun hunk start => hunk.diffHunk start preamble) start hunks

def addedAll (hunks : List GitHunk) : Nat := (hunks.map fun hunk => addedIn hunk.body).sum

def deletedAll (hunks : List GitHunk) : Nat := (hunks.map fun hunk => deletedIn hunk.body).sum

/-- A file with hunks more, whose rows begin at one. -/
def DiffFile.withHunks (file : DiffFile) (start : Nat) (preamble : Bytes)
    (hunks : List GitHunk) : DiffFile :=
  { file with
    additions := file.additions + addedAll hunks
    deletions := file.deletions + deletedAll hunks
    hunks := file.hunks ++ diffHunks preamble start hunks }

/-- What hunks add to a snapshot whose last file they belong to. -/
def DiffSnapshot.addHunks (snapshot : DiffSnapshot) (files : List DiffFile) (file : DiffFile)
    (preamble : Bytes) (hunks : List GitHunk) : DiffSnapshot :=
  { snapshot.withRows (hunks.flatMap GitHunk.rows) with
    additions := snapshot.additions + addedAll hunks
    deletions := snapshot.deletions + deletedAll hunks
    fileDiffs := files ++ [file.withHunks snapshot.rows.length preamble hunks] }

theorem step_hunk_header (hunk : GitHunk) (state : ParserState) :
    step state (raw hunk.header)
      = startHunk state (raw hunk.header) (lineText hunk.header) := by
  have hleads : hunkHeader <+: hunk.header := by
    rw [hunk.header_eq]
    exact List.prefix_append _ _
  have hnot : ¬ diffHeader <+: hunk.header := by
    intro hdiff
    rcases List.prefix_or_prefix_of_prefix hleads hdiff with h | h
    · exact absurd h (by decide)
    · exact absurd h (by decide)
  exact step_hunk (trimPatchLine_raw _) hnot hleads state

/-- A hunk before any line of its body. -/
def GitHunk.opened (hunk : GitHunk) (start : Nat) (preamble : Bytes) : DiffHunk :=
  ⟨lineText hunk.header, ⟨start, start⟩, fitted hunk.old.start, fitted hunk.new.start, 0, 0,
    preamble ++ raw hunk.header, 0⟩

theorem finishHunk_closed {state : ParserState} (h : state.currentHunk = none) :
    finishHunk state = state := by
  obtain ⟨snapshot, oldLine, newLine, currentFile, currentHunk, filePreamble⟩ := state
  obtain rfl := h
  rfl

theorem startHunk_inFile (hunk : GitHunk) {state : ParserState} {files : List DiffFile}
    {file : DiffFile} (h : InFile state files file) :
    startHunk state (raw hunk.header) (lineText hunk.header)
      = { state with
          snapshot := { state.snapshot.withRows [⟨.hunk, none, none, lineText hunk.header⟩] with
            fileDiffs := files ++ [{ file with
              hunks := file.hunks ++
                [hunk.opened state.snapshot.rows.length state.filePreamble] }] }
          oldLine := fitted hunk.old.start
          newLine := fitted hunk.new.start
          currentHunk := some (files.length, file.hunks.length) } := by
  simp only [startHunk, finishHunk_closed h.currentHunk, parseHunkStart_header, h.currentFile,
    DiffSnapshot.modifyAt, DiffSnapshot.modifyFile, h.fileDiffs, modify_last, Option.map_some,
    List.getElem?_concat_length, List.length_append, List.length_singleton, Option.getD_some,
    Nat.add_sub_cancel]
  rfl

theorem run_hunk (hunk : GitHunk) {state : ParserState} {files : List DiffFile} {file : DiffFile}
    (h : InFile state files file) :
    finishHunk (hunk.lines.foldl step state)
      = { state with
          snapshot := state.snapshot.addHunks files file state.filePreamble [hunk]
          oldLine := lastOld hunk.body (fitted hunk.old.start)
          newLine := lastNew hunk.body (fitted hunk.new.start) } := by
  have hopened := startHunk_inFile hunk h
  rw [GitHunk.lines, List.foldl_cons, step_hunk_header, hopened,
    run_body hunk.body _ h.currentFile rfl]
  have hbytes : ∀ preamble : Bytes, preamble ++ raw hunk.header ++ (bodyLines hunk.body).flatten
      = preamble ++ hunk.bytes := by
    intro preamble
    rw [List.append_assoc]
    rfl
  have hrows : hunk.rows = [⟨.hunk, none, none, lineText hunk.header⟩] ++
      bodyRows (fitted hunk.old.start) (fitted hunk.new.start) hunk.body := rfl
  simp only [finishHunk, DiffSnapshot.modifyAt, DiffSnapshot.modifyHunk, DiffSnapshot.modifyFile,
    DiffSnapshot.grow, modify_last, DiffSnapshot.addHunks, DiffSnapshot.withRows, GitHunk.opened,
    DiffFile.withHunks, diffHunks, laidOut, addedAll, deletedAll, List.map_cons, List.map_nil,
    List.sum_cons, List.sum_nil, List.flatMap_cons, List.flatMap_nil, List.append_nil,
    Nat.add_zero,
    hbytes, GitHunk.diffHunk, hrows, widest, List.foldl_append, List.append_assoc,
    List.length_append, Nat.zero_add, h.currentHunk]

theorem finishHunk_finishHunk (state : ParserState) :
    finishHunk (finishHunk state) = finishHunk state :=
  finishHunk_closed rfl

theorem finishHunk_run_hunks (hunks : List GitHunk) (state : ParserState) :
    finishHunk ((hunks.flatMap GitHunk.lines).foldl step (finishHunk state))
      = finishHunk ((hunks.flatMap GitHunk.lines).foldl step state) := by
  cases hunks with
  | nil => exact finishHunk_finishHunk state
  | cons hunk hunks =>
    rw [List.flatMap_cons, GitHunk.lines, List.cons_append, List.foldl_cons, List.foldl_cons,
      step_hunk_header, step_hunk_header]
    simp only [startHunk, finishHunk_finishHunk]

theorem DiffFile.withHunks_nil (file : DiffFile) (start : Nat) (preamble : Bytes) :
    file.withHunks start preamble [] = file := by
  simp [DiffFile.withHunks, addedAll, deletedAll, diffHunks, laidOut]

theorem addHunks_addHunks (snapshot : DiffSnapshot) (files : List DiffFile) (file : DiffFile)
    (preamble : Bytes) (hunk : GitHunk) (hunks : List GitHunk) :
    (snapshot.addHunks files file preamble [hunk]).addHunks files
        (file.withHunks snapshot.rows.length preamble [hunk]) preamble hunks
      = snapshot.addHunks files file preamble (hunk :: hunks) := by
  simp [DiffSnapshot.addHunks, DiffSnapshot.withRows, DiffFile.withHunks, diffHunks, laidOut,
    addedAll, deletedAll, widest, Nat.add_assoc]

theorem run_hunks (hunks : List GitHunk) {state : ParserState} {files : List DiffFile}
    {file : DiffFile} (h : InFile state files file) :
    InFile (finishHunk ((hunks.flatMap GitHunk.lines).foldl step state)) files
        (file.withHunks state.snapshot.rows.length state.filePreamble hunks) ∧
      (finishHunk ((hunks.flatMap GitHunk.lines).foldl step state)).snapshot
        = state.snapshot.addHunks files file state.filePreamble hunks := by
  induction hunks generalizing state file with
  | nil =>
    have hsnapshot : state.snapshot.addHunks files file state.filePreamble []
        = state.snapshot := by
      simp [DiffSnapshot.addHunks, DiffSnapshot.withRows, DiffFile.withHunks_nil, widest,
        addedAll, deletedAll, ← h.fileDiffs]
    have hclosed := finishHunk_closed h.currentHunk
    rw [hsnapshot, DiffFile.withHunks_nil]
    show InFile (finishHunk state) files file ∧ (finishHunk state).snapshot = state.snapshot
    rw [hclosed]
    exact ⟨h, rfl⟩
  | cons hunk hunks ih =>
    have hfirst := run_hunk hunk h
    have hinside : InFile (finishHunk (hunk.lines.foldl step state)) files
        (file.withHunks state.snapshot.rows.length state.filePreamble [hunk]) := by
      rw [hfirst]
      exact ⟨rfl, h.currentFile, h.currentHunk⟩
    obtain ⟨hrest, hsnapshot⟩ := ih hinside
    rw [List.flatMap_cons, List.foldl_append, ← finishHunk_run_hunks]
    have hall := addHunks_addHunks state.snapshot files file state.filePreamble hunk hunks
    have hrows : (finishHunk (hunk.lines.foldl step state)).snapshot
        = state.snapshot.addHunks files file state.filePreamble [hunk] := by rw [hfirst]
    have hpreamble : (finishHunk (hunk.lines.foldl step state)).filePreamble
        = state.filePreamble := by rw [hfirst]
    rw [hrows, hpreamble] at hrest hsnapshot
    rw [hall] at hsnapshot
    refine ⟨⟨?_, hrest.currentFile, hrest.currentHunk⟩, hsnapshot⟩
    rw [hsnapshot]
    rfl

/-! ### A section -/

namespace PreambleLine

def rows (line : PreambleLine) : List DiffRow :=
  if oldFileHeader.isPrefixOf line.text || newFileHeader.isPrefixOf line.text then []
  else [⟨.other, none, none, lineText line.text⟩]

end PreambleLine

theorem step_preamble (line : PreambleLine) {rawLine : Bytes}
    (hline : trimPatchLine rawLine = Lines.stripCr line.text) {state : ParserState}
    {files : List DiffFile} {file : DiffFile} (h : InFile state files file) :
    step state rawLine
      = { state with
          snapshot := state.snapshot.withRows line.rows
          filePreamble := state.filePreamble ++ rawLine } := by
  rw [step_line hline line.notFile line.notHunk]
  have hkeep : keepLine state rawLine
      = { state with filePreamble := state.filePreamble ++ rawLine } := by
    simp [keepLine, h.currentHunk, h.currentFile]
  rw [hkeep]
  unfold readLine PreambleLine.rows
  rw [isPrefixOf_lineText telling_oldFileHeader, isPrefixOf_lineText telling_newFileHeader]
  split
  · simp [DiffSnapshot.withRows, widest]
  · rename_i hother
    have hmark : ∀ mark ∈ [0x20, 0x2b, 0x2d], ∀ rest, lineText line.text ≠ mark :: rest := by
      intro mark hmark rest heq
      have htelling : ∀ mark ∈ [0x20, 0x2b, 0x2d], Telling [mark] := by
        simp [Telling]
      have hleads : [mark] <+: line.text := by
        refine (prefix_lineText (htelling mark hmark) line.text).mp ?_
        rw [heq]
        exact List.prefix_append [mark] rest
      obtain ⟨more, hmore⟩ := hleads
      refine hother (Bool.or_eq_true_iff.mpr ?_)
      rcases line.notBody mark hmark (by rw [← hmore]; rfl) with hp | hp
      · exact Or.inl (List.isPrefixOf_iff_prefix.mpr hp)
      · exact Or.inr (List.isPrefixOf_iff_prefix.mpr hp)
    split
    · exact absurd ‹_› (hmark _ (by decide) _)
    · exact absurd ‹_› (hmark _ (by decide) _)
    · exact absurd ‹_› (hmark _ (by decide) _)
    · rfl

def preambleRows (preamble : List PreambleLine) : List DiffRow :=
  preamble.flatMap PreambleLine.rows

theorem run_preamble (preamble : List PreambleLine) {state : ParserState}
    {files : List DiffFile} {file : DiffFile} (h : InFile state files file) :
    (preambleLines preamble).foldl step state
      = { state with
          snapshot := state.snapshot.withRows (preambleRows preamble)
          filePreamble := state.filePreamble ++ (preambleLines preamble).flatten } := by
  induction preamble generalizing state with
  | nil => simp [preambleLines, preambleRows, DiffSnapshot.withRows, widest]
  | cons line preamble ih =>
    have hstep := step_preamble line (trimPatchLine_raw line.text) h
    have hinside : InFile (step state (raw line.text)) files file := by
      rw [hstep]
      exact ⟨h.fileDiffs, h.currentFile, h.currentHunk⟩
    show (preambleLines preamble).foldl step (step state (raw line.text)) = _
    rw [ih hinside, hstep]
    simp [preambleLines, preambleRows, DiffSnapshot.withRows, widest]

/-- The end of a file, as the next one or the end of the patch makes it. -/
def finish (state : ParserState) : ParserState := finishFile (finishHunk state)

namespace GitSection

def path (file : GitSection) : Bytes := diffPath (lineText file.paths)

def rows (file : GitSection) : List DiffRow :=
  ⟨.file, none, none, Utf8.lossy file.path⟩ ::
    (preambleRows file.preamble ++ file.hunks.flatMap GitHunk.rows)

/-- The file as the inspector has it, with its rows from one on. -/
def diffFile (file : GitSection) (start : Nat) : DiffFile where
  path := file.path
  rowRange := ⟨start, start + file.rows.length⟩
  additions := addedAll file.hunks
  deletions := deletedAll file.hunks
  hunks := diffHunks file.preambleBytes (start + ((preambleRows file.preamble).length + 1))
    file.hunks

end GitSection

/-- What a section adds to a snapshot. -/
def DiffSnapshot.addFile (snapshot : DiffSnapshot) (file : GitSection) : DiffSnapshot :=
  { snapshot.withRows file.rows with
    files := snapshot.files + 1
    additions := snapshot.additions + addedAll file.hunks
    deletions := snapshot.deletions + deletedAll file.hunks
    fileDiffs := snapshot.fileDiffs ++ [file.diffFile snapshot.rows.length] }

/-- A file before any line of its section but the first. -/
def GitSection.opened (file : GitSection) (start : Nat) : DiffFile :=
  ⟨file.path, ⟨start, start⟩, 0, 0, []⟩

theorem step_section (file : GitSection) (state : ParserState) :
    step state (raw (diffHeader ++ file.paths))
      = { snapshot :=
            { (finish state).snapshot.withRows
                [⟨.file, none, none, Utf8.lossy file.path⟩] with
              files := (finish state).snapshot.files + 1
              fileDiffs := (finish state).snapshot.fileDiffs ++
                [file.opened (finish state).snapshot.rows.length] }
          oldLine := none
          newLine := none
          currentFile := some (finish state).snapshot.fileDiffs.length
          currentHunk := none
          filePreamble := raw (diffHeader ++ file.paths) } := by
  rw [step_file (trimPatchLine_raw _) rfl]
  simp only [startFile, List.length_append, List.length_singleton, Nat.add_sub_cancel]
  rfl

theorem finishFile_inFile {state : ParserState} {files : List DiffFile} {file : DiffFile}
    (h : InFile state files file) :
    (finishFile state).snapshot
      = { state.snapshot with
          fileDiffs := files ++
            [{ file with rowRange := ⟨file.rowRange.start, state.snapshot.rows.length⟩ }] } := by
  simp only [finishFile, DiffSnapshot.modifyAt, DiffSnapshot.modifyFile, h.currentFile,
    h.fileDiffs, modify_last]

theorem run_section (file : GitSection) (state : ParserState) :
    (finish (file.lines.foldl step state)).snapshot = (finish state).snapshot.addFile file := by
  have hopened := step_section file state
  have hfirst : InFile (step state (raw (diffHeader ++ file.paths)))
      (finish state).snapshot.fileDiffs
      (file.opened (finish state).snapshot.rows.length) := by
    rw [hopened]
    exact ⟨rfl, rfl, rfl⟩
  have hpreamble := run_preamble file.preamble hfirst
  have hsecond : InFile ((preambleLines file.preamble).foldl step
      (step state (raw (diffHeader ++ file.paths)))) (finish state).snapshot.fileDiffs
      (file.opened (finish state).snapshot.rows.length) := by
    rw [hpreamble]
    exact ⟨hfirst.fileDiffs, hfirst.currentFile, hfirst.currentHunk⟩
  obtain ⟨hthird, hhunks⟩ := run_hunks file.hunks hsecond
  have hlines : file.lines.foldl step state
      = (file.hunks.flatMap GitHunk.lines).foldl step ((preambleLines file.preamble).foldl step
          (step state (raw (diffHeader ++ file.paths)))) := by
    rw [GitSection.lines, GitSection.preambleLines, List.cons_append, List.foldl_cons,
      List.foldl_append]
  rw [hlines]
  refine (finishFile_inFile hthird).trans ?_
  rw [hhunks, hpreamble, hopened]
  simp [DiffSnapshot.addFile, DiffSnapshot.addHunks, DiffSnapshot.withRows, DiffFile.withHunks,
    GitSection.opened, GitSection.diffFile, GitSection.rows, GitSection.preambleBytes,
    GitSection.preambleLines, widest, Nat.add_assoc]

theorem run_sections (sections : List GitSection) (state : ParserState) :
    (finish ((sections.flatMap GitSection.lines).foldl step state)).snapshot
      = sections.foldl DiffSnapshot.addFile (finish state).snapshot := by
  induction sections generalizing state with
  | nil => rfl
  | cons file sections ih =>
    rw [List.flatMap_cons, List.foldl_append, ih, run_section, List.foldl_cons]

/-- Files as the inspector has them. -/
def diffFiles (start : Nat) (sections : List GitSection) : List DiffFile :=
  laidOut GitSection.rows GitSection.diffFile start sections

/-- What sections add to a snapshot. -/
def DiffSnapshot.addFiles (snapshot : DiffSnapshot) (sections : List GitSection) :
    DiffSnapshot :=
  { snapshot.withRows (sections.flatMap GitSection.rows) with
    files := snapshot.files + sections.length
    additions := snapshot.additions + (sections.map fun file => addedAll file.hunks).sum
    deletions := snapshot.deletions + (sections.map fun file => deletedAll file.hunks).sum
    fileDiffs := snapshot.fileDiffs ++ diffFiles snapshot.rows.length sections }

theorem foldl_addFile (sections : List GitSection) (snapshot : DiffSnapshot) :
    sections.foldl DiffSnapshot.addFile snapshot = snapshot.addFiles sections := by
  induction sections generalizing snapshot with
  | nil => simp [DiffSnapshot.addFiles, DiffSnapshot.withRows, widest, diffFiles, laidOut]
  | cons file sections ih =>
    rw [List.foldl_cons, ih]
    simp [DiffSnapshot.addFiles, DiffSnapshot.addFile, DiffSnapshot.withRows, widest,
      diffFiles, laidOut, Nat.add_assoc, Nat.add_comm, Nat.add_left_comm]

theorem parse_render (sections : List GitSection) :
    parseUnifiedDiffBytes (render sections) = DiffSnapshot.default.addFiles sections := by
  unfold parseUnifiedDiffBytes
  rw [splitInclusive_render, ← foldl_addFile]
  exact run_sections sections ParserState.start

theorem getElem?_laidOut {α β γ : Type} (rows : α → List γ) (make : α → Nat → β)
    {items : List α} {place : Nat} {item : α} (h : items[place]? = some item) (start : Nat) :
    ∃ before behind, items.flatMap rows = before ++ rows item ++ behind ∧
      (laidOut rows make start items)[place]? = some (make item (start + before.length)) := by
  induction items generalizing place start with
  | nil => simp at h
  | cons first items ih =>
    cases place with
    | zero =>
      obtain rfl : first = item := by simpa using h
      exact ⟨[], items.flatMap rows, by simp, by simp [laidOut]⟩
    | succ place =>
      obtain ⟨before, behind, hrows, hmade⟩ := ih (by simpa using h)
        (start + (rows first).length)
      refine ⟨rows first ++ before, behind, by simp [hrows], ?_⟩
      simp only [laidOut, List.getElem?_cons_succ, hmade, List.length_append, Nat.add_assoc]

theorem length_laidOut {α β γ : Type} (rows : α → List γ) (make : α → Nat → β) (start : Nat)
    (items : List α) : (laidOut rows make start items).length = items.length := by
  induction items generalizing start with
  | nil => rfl
  | cons item items ih => simp [laidOut, ih]

end Homie.App.Diff
