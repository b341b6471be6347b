/-
What a snapshot accounts for: every file, hunk and body line of the patch it was read from.

A body line whose text begins like the `---` or `+++` line of a preamble (a deleted `-- x`, an
added `++ x`) is taken for one: it has no row, is not counted, and the lines behind it are one off.
Every other body line is accounted for as long as its number is one of a `u32`.
-/
import Homie.Proofs.DiffParse

namespace Homie.App.Diff

/-! ### What there is to account for -/

/-- A row as its kind and its line numbers. -/
abbrev RowView := DiffRowKind × Option Nat × Option Nat

def DiffRow.view (row : DiffRow) : RowView :=
  (row.kind, row.oldLine.map UInt32.toNat, row.newLine.map UInt32.toNat)

def BodyLine.trueRow (line : BodyLine) (old new : Nat) : RowView :=
  match line.mark with
  | .context => (.context, some old, some new)
  | .addition => (.addition, none, some new)
  | .deletion => (.deletion, some old, none)
  | .note => (.other, none, none)

/-- The rows of a body with the numbers its lines have in the old file and in the new one. -/
def trueRows : Nat → Nat → List BodyLine → List RowView
  | _, _, [] => []
  | old, new, line :: body =>
    line.trueRow old new ::
      trueRows (old + if line.isOld then 1 else 0) (new + if line.isNew then 1 else 0) body

/-- The rows of a range. -/
def DiffSnapshot.rowsIn (snapshot : DiffSnapshot) (range : RowRange) : List DiffRow :=
  (snapshot.rows.drop range.start).take (range.stop - range.start)

/-- Ranges that begin where the one before ends, from one row up to another. -/
def Consecutive : Nat → List RowRange → Nat → Prop
  | start, [], stop => start = stop
  | start, range :: ranges, stop =>
    range.start = start ∧ range.start ≤ range.stop ∧ Consecutive range.stop ranges stop

structure HunkAccounted (snapshot : DiffSnapshot) (preamble : Bytes) (range : RowRange)
    (hunk : GitHunk) (diffHunk : DiffHunk) : Prop where
  patch : diffHunk.patch = preamble ++ hunk.bytes
  additions : diffHunk.additions = hunk.body.countP BodyLine.isAddition
  deletions : diffHunk.deletions = hunk.body.countP BodyLine.isDeletion
  inside : range.start ≤ diffHunk.rowRange.start ∧ diffHunk.rowRange.stop ≤ range.stop
  rows : (snapshot.rowsIn diffHunk.rowRange).map DiffRow.view
    = (.hunk, none, none) :: trueRows hunk.old.start hunk.new.start hunk.body

namespace GitSection

def additions (file : GitSection) : Nat :=
  (file.hunks.map fun hunk => hunk.body.countP BodyLine.isAddition).sum

def deletions (file : GitSection) : Nat :=
  (file.hunks.map fun hunk => hunk.body.countP BodyLine.isDeletion).sum

end GitSection

structure FileAccounted (snapshot : DiffSnapshot) (file : GitSection) (diffFile : DiffFile) :
    Prop where
  hunkCount : diffFile.hunks.length = file.hunks.length
  additions : diffFile.additions = file.additions
  deletions : diffFile.deletions = file.deletions
  hunks : ∀ (place : Nat) hunk diffHunk, file.hunks[place]? = some hunk →
    diffFile.hunks[place]? = some diffHunk →
    HunkAccounted snapshot file.preambleBytes diffFile.rowRange hunk diffHunk

structure Accounted (snapshot : DiffSnapshot) (sections : List GitSection) : Prop where
  fileCount : snapshot.fileDiffs.length = sections.length ∧ snapshot.files = sections.length
  additions : snapshot.additions = (sections.map GitSection.additions).sum
  deletions : snapshot.deletions = (sections.map GitSection.deletions).sum
  ranges : Consecutive 0 (snapshot.fileDiffs.map (·.rowRange)) snapshot.rows.length
  files : ∀ (place : Nat) file diffFile, sections[place]? = some file →
    snapshot.fileDiffs[place]? = some diffFile → FileAccounted snapshot file diffFile

/-! ### A body -/

/-- The numbers of the lines are numbers of a `u32`. -/
def NumbersFit : Nat → Nat → List BodyLine → Prop
  | _, _, [] => True
  | old, new, line :: body =>
    (line.isOld → old < 2 ^ 32) ∧ (line.isNew → new < 2 ^ 32) ∧
      NumbersFit (old + if line.isOld then 1 else 0) (new + if line.isNew then 1 else 0) body

theorem toNat_saturatingSucc {line : UInt32} (h : line.toNat + 1 < 2 ^ 32) :
    (saturatingSucc line).toNat = line.toNat + 1 := by
  have hne : line ≠ 0xffffffff := by
    rintro rfl
    exact absurd h (by decide)
  rw [saturatingSucc, if_neg hne, UInt32.toNat_add]
  exact Nat.mod_eq_of_lt h

/-- The counter stands for the number as long as there is one of that size. -/
def Tracks (counter : Option UInt32) (number : Nat) : Prop :=
  number < 2 ^ 32 → counter.map UInt32.toNat = some number

theorem tracks_fitted (number : Nat) : Tracks (fitted number) number := by
  intro h
  rw [fitted, if_pos h, Option.map_some, UInt32.toNat_ofNat_of_lt' h]

theorem Tracks.step {counter : Option UInt32} {number : Nat} (h : Tracks counter number)
    (moves : Bool) :
    Tracks (if moves then counter.map saturatingSucc else counter)
      (number + if moves then 1 else 0) := by
  cases moves with
  | false => simpa using h
  | true =>
    intro hlt
    simp only [if_true] at hlt ⊢
    have hcounter := h (by omega)
    obtain ⟨line, rfl, rfl⟩ := Option.map_eq_some_iff.mp hcounter
    rw [Option.map_some, Option.map_some, toNat_saturatingSucc hlt]

theorem Tracks.eq_iff {counter : Option UInt32} {number : Nat} (h : Tracks counter number) :
    counter.map UInt32.toNat = some number ↔ number < 2 ^ 32 := by
  refine ⟨fun heq => ?_, h⟩
  obtain ⟨line, -, rfl⟩ := Option.map_eq_some_iff.mp heq
  exact line.toNat_lt

theorem view_row_iff (line : BodyLine) {oldLine newLine : Option UInt32} {old new : Nat}
    (hold : Tracks oldLine old) (hnew : Tracks newLine new) :
    (line.row oldLine newLine).view = line.trueRow old new
      ↔ (line.isOld → old < 2 ^ 32) ∧ (line.isNew → new < 2 ^ 32) := by
  rw [← hold.eq_iff, ← hnew.eq_iff]
  cases hmark : line.mark <;>
    simp [BodyLine.row, BodyLine.trueRow, DiffRow.view, hmark, BodyLine.isOld, BodyLine.isNew]

theorem length_trueRows (old new : Nat) (body : List BodyLine) :
    (trueRows old new body).length = body.length := by
  induction body generalizing old new with
  | nil => rfl
  | cons line body ih => simp [trueRows, ih]

theorem length_bodyRows_le (old new : Option UInt32) (body : List BodyLine) :
    (bodyRows old new body).length ≤ body.length := by
  induction body generalizing old new with
  | nil => exact Nat.le_refl 0
  | cons line body ih =>
    have hrest := ih (line.nextOld old) (line.nextNew new)
    have hline : (line.rows old new).length ≤ 1 := by
      unfold BodyLine.rows
      split <;> simp
    simp only [bodyRows, List.length_append, List.length_cons]
    omega

/-- The rows of a body are the true ones just when no line is skipped and every number fits. -/
theorem view_bodyRows_iff (body : List BodyLine) {oldLine newLine : Option UInt32}
    {old new : Nat} (hold : Tracks oldLine old) (hnew : Tracks newLine new) :
    (bodyRows oldLine newLine body).map DiffRow.view = trueRows old new body
      ↔ (∀ line ∈ body, line.skipped = false) ∧ NumbersFit old new body := by
  induction body generalizing oldLine newLine old new with
  | nil => simp [bodyRows, trueRows, NumbersFit]
  | cons line body ih =>
    cases hskip : line.skipped with
    | true =>
      -- A row is missing, so there are fewer of them than lines.
      have hshort := length_bodyRows_le (line.nextOld oldLine) (line.nextNew newLine) body
      constructor
      · intro heq
        have hlength := congrArg List.length heq
        simp only [bodyRows, BodyLine.rows, hskip, if_true, List.nil_append, List.length_map,
          length_trueRows, List.length_cons] at hlength
        omega
      · intro h
        exact absurd (h.1 line List.mem_cons_self) (by simp [hskip])
    | false =>
      have hrest := ih (hold.step line.isOld) (hnew.step line.isNew)
      have hline := view_row_iff line hold hnew
      simp only [bodyRows, BodyLine.rows, hskip, trueRows, NumbersFit, BodyLine.nextOld,
        BodyLine.nextNew, Bool.not_false, Bool.and_true, Bool.false_eq_true, if_false,
        List.cons_append, List.nil_append, List.map_cons, List.cons.injEq, List.forall_mem_cons,
        hrest, hline, true_and]
      tauto

/-! ### Hunks and files in their places -/

theorem rowsIn_mid {snapshot : DiffSnapshot} {before rows behind : List DiffRow}
    (h : snapshot.rows = before ++ rows ++ behind) :
    snapshot.rowsIn ⟨before.length, before.length + rows.length⟩ = rows := by
  simp [DiffSnapshot.rowsIn, h]

/-- Nothing of the hunk is taken for something else. -/
def GitHunk.Plain (hunk : GitHunk) : Prop :=
  (∀ line ∈ hunk.body, line.skipped = false) ∧
    NumbersFit hunk.old.start hunk.new.start hunk.body

theorem GitHunk.rows_view_iff (hunk : GitHunk) :
    hunk.rows.map DiffRow.view
        = (.hunk, none, none) :: trueRows hunk.old.start hunk.new.start hunk.body
      ↔ hunk.Plain := by
  have hbody := view_bodyRows_iff hunk.body (tracks_fitted hunk.old.start)
    (tracks_fitted hunk.new.start)
  unfold GitHunk.rows GitHunk.Plain
  rw [List.map_cons, List.cons.injEq, hbody]
  simp [DiffRow.view]

theorem countP_of_not_skipped {body : List BodyLine} (h : ∀ line ∈ body, line.skipped = false)
    (counts : BodyLine → Bool) :
    body.countP (fun line => counts line && !line.skipped) = body.countP counts := by
  refine List.countP_congr fun line hline => ?_
  simp [h line hline]

theorem GitHunk.Plain.addedIn {hunk : GitHunk} (h : hunk.Plain) :
    Diff.addedIn hunk.body = hunk.body.countP BodyLine.isAddition :=
  countP_of_not_skipped h.1 _

theorem GitHunk.Plain.deletedIn {hunk : GitHunk} (h : hunk.Plain) :
    Diff.deletedIn hunk.body = hunk.body.countP BodyLine.isDeletion :=
  countP_of_not_skipped h.1 _

theorem GitSection.added_of_plain {file : GitSection} (h : ∀ hunk ∈ file.hunks, hunk.Plain) :
    addedAll file.hunks = file.additions := by
  unfold addedAll GitSection.additions
  rw [List.map_congr_left fun hunk hhunk => (h hunk hhunk).addedIn]

theorem GitSection.deleted_of_plain {file : GitSection} (h : ∀ hunk ∈ file.hunks, hunk.Plain) :
    deletedAll file.hunks = file.deletions := by
  unfold deletedAll GitSection.deletions
  rw [List.map_congr_left fun hunk hhunk => (h hunk hhunk).deletedIn]

theorem fileDiff_render {sections : List GitSection} {place : Nat} {file : GitSection}
    (h : sections[place]? = some file) :
    ∃ before behind, (parseUnifiedDiffBytes (render sections)).rows
        = before ++ file.rows ++ behind ∧
      (parseUnifiedDiffBytes (render sections)).fileDiffs[place]?
        = some (file.diffFile before.length) := by
  obtain ⟨before, behind, hrows, hfile⟩ :=
    getElem?_laidOut GitSection.rows GitSection.diffFile h 0
  rw [Nat.zero_add] at hfile
  rw [parse_render]
  exact ⟨before, behind, hrows, hfile⟩

theorem GitSection.diffHunk_diffFile (file : GitSection) {place : Nat} {hunk : GitHunk}
    (h : file.hunks[place]? = some hunk) (start : Nat) :
    ∃ before behind, file.rows = before ++ hunk.rows ++ behind ∧
      (file.diffFile start).hunks[place]?
        = some (hunk.diffHunk (start + before.length) file.preambleBytes) := by
  obtain ⟨before, behind, hrows, hhunk⟩ := getElem?_laidOut GitHunk.rows
    (fun hunk start => hunk.diffHunk start file.preambleBytes) h
    (start + ((preambleRows file.preamble).length + 1))
  refine ⟨⟨.file, none, none, Utf8.lossy file.path⟩ :: (preambleRows file.preamble ++ before),
    behind, by simp [GitSection.rows, hrows], ?_⟩
  refine Eq.trans hhunk ?_
  simp only [List.length_cons, List.length_append]
  congr 2
  omega

theorem hunk_render {sections : List GitSection} {place : Nat} {file : GitSection}
    (hfile : sections[place]? = some file) {hunkPlace : Nat} {hunk : GitHunk}
    (hhunk : file.hunks[hunkPlace]? = some hunk) :
    ∃ diffFile diffHunk,
      (parseUnifiedDiffBytes (render sections)).fileDiffs[place]? = some diffFile ∧
      diffFile.hunks[hunkPlace]? = some diffHunk ∧
      diffHunk.patch = file.preambleBytes ++ hunk.bytes ∧
      diffHunk.additions = addedIn hunk.body ∧ diffHunk.deletions = deletedIn hunk.body ∧
      (diffFile.rowRange.start ≤ diffHunk.rowRange.start ∧
        diffHunk.rowRange.stop ≤ diffFile.rowRange.stop) ∧
      (parseUnifiedDiffBytes (render sections)).rowsIn diffHunk.rowRange = hunk.rows := by
  obtain ⟨before, behind, hrows, hdiffFile⟩ := fileDiff_render hfile
  obtain ⟨front, back, hfileRows, hdiffHunk⟩ := file.diffHunk_diffFile hhunk before.length
  refine ⟨_, _, hdiffFile, hdiffHunk, rfl, rfl, rfl, ⟨?_, ?_⟩, ?_⟩
  · exact Nat.le_add_right _ _
  · have hlength := congrArg List.length hfileRows
    simp only [List.length_append] at hlength
    simp only [GitHunk.diffHunk, GitSection.diffFile]
    omega
  · have hmid : (parseUnifiedDiffBytes (render sections)).rows
        = (before ++ front) ++ hunk.rows ++ (back ++ behind) := by
      rw [hrows, hfileRows]
      simp only [List.append_assoc]
    have hrowsIn := rowsIn_mid hmid
    rwa [List.length_append] at hrowsIn

theorem consecutive_diffFiles (start : Nat) (sections : List GitSection) :
    Consecutive start ((diffFiles start sections).map (·.rowRange))
      (start + (sections.flatMap GitSection.rows).length) := by
  induction sections generalizing start with
  | nil => simp [diffFiles, laidOut, Consecutive]
  | cons file sections ih =>
    have hrest := ih (start + file.rows.length)
    refine ⟨rfl, Nat.le_add_right _ _, ?_⟩
    rw [List.flatMap_cons, List.length_append, ← Nat.add_assoc]
    exact hrest

/-- Everything is accounted for just when every hunk is plain. -/
theorem accounted_iff (sections : List GitSection) :
    Accounted (parseUnifiedDiffBytes (render sections)) sections
      ↔ ∀ file ∈ sections, ∀ hunk ∈ file.hunks,
          (∀ line ∈ hunk.body, line.skipped = false) ∧
            NumbersFit hunk.old.start hunk.new.start hunk.body := by
  constructor
  · intro h file hfile hunk hhunk
    obtain ⟨place, hplace⟩ := List.mem_iff_getElem?.mp hfile
    obtain ⟨hunkPlace, hhunkPlace⟩ := List.mem_iff_getElem?.mp hhunk
    obtain ⟨diffFile, diffHunk, hdiffFile, hdiffHunk, -, -, -, -, hrows⟩ :=
      hunk_render hplace hhunkPlace
    have haccounted := (h.files place file diffFile hplace hdiffFile).hunks hunkPlace hunk
      diffHunk hhunkPlace hdiffHunk
    have hview := haccounted.rows
    rw [hrows] at hview
    exact hunk.rows_view_iff.mp hview
  · intro h
    have hplain : ∀ file ∈ sections, ∀ hunk ∈ file.hunks, hunk.Plain := h
    refine ⟨⟨?_, ?_⟩, ?_, ?_, ?_, ?_⟩
    · rw [parse_render]
      exact length_laidOut GitSection.rows GitSection.diffFile 0 sections
    · rw [parse_render]
      exact Nat.zero_add _
    · rw [parse_render]
      refine (Nat.zero_add _).trans (congrArg List.sum ?_)
      exact List.map_congr_left fun file hfile => GitSection.added_of_plain (hplain file hfile)
    · rw [parse_render]
      refine (Nat.zero_add _).trans (congrArg List.sum ?_)
      exact List.map_congr_left fun file hfile => GitSection.deleted_of_plain (hplain file hfile)
    · rw [parse_render]
      have hranges := consecutive_diffFiles 0 sections
      rwa [Nat.zero_add] at hranges
    · intro place file diffFile hplace hdiffFile
      have hmem := hplain file (List.mem_of_getElem? hplace)
      obtain ⟨before, behind, -, hfile⟩ := fileDiff_render hplace
      obtain rfl := Option.some.inj (hdiffFile.symm.trans hfile)
      refine ⟨length_laidOut _ _ _ _, GitSection.added_of_plain hmem,
        GitSection.deleted_of_plain hmem, ?_⟩
      intro hunkPlace hunk diffHunk hhunkPlace hdiffHunk
      have hunkPlain := hmem hunk (List.mem_of_getElem? hhunkPlace)
      obtain ⟨otherFile, otherHunk, hotherFile, hotherHunk, hpatch, hadded, hdeleted, hinside,
        hrows⟩ := hunk_render hplace hhunkPlace
      obtain rfl := Option.some.inj (hfile.symm.trans hotherFile)
      obtain rfl := Option.some.inj (hdiffHunk.symm.trans hotherHunk)
      refine ⟨hpatch, hadded.trans hunkPlain.addedIn, hdeleted.trans hunkPlain.deletedIn, hinside,
        ?_⟩
      rw [hrows]
      exact hunk.rows_view_iff.mpr hunkPlain

/-- One hunk that deletes the line `-- x`. -/
def commentDeleted : GitSection where
  paths := Utf8.encode "a/q.sql b/q.sql"
  plain := by decide
  preamble := []
  hunks :=
    [{ old := ⟨1, 1, false, by decide⟩
       new := ⟨0, 0, true, by decide⟩
       context := []
       body := [⟨.deletion, Utf8.encode "-- x", by decide⟩]
       plain := by decide
       oldCount := by decide
       newCount := by decide }]

/-- The line is not counted. -/
theorem deleted_comment_is_lost :
    ¬ ∀ sections, Accounted (parseUnifiedDiffBytes (render sections)) sections := by
  intro h
  have hdeletions := (h [commentDeleted]).deletions
  have hread : (parseUnifiedDiffBytes (render [commentDeleted])).deletions = 0 := by
    decide
  rw [hread] at hdeletions
  exact absurd hdeletions (by decide)

end Homie.App.Diff
