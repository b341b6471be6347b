/-
The loop as what it does to patches alone.

`Collector` forgets rows, counts and line numbers: it keeps the patches of the files that are
closed, those of the file it stands in, and the one it is collecting.  `collect` tells a line by
its first bytes only, and the loop over the lines refines it (`foldl_collects`), whatever the lines
are.
-/
import Homie.Proofs.DiffParse

namespace Homie.App.Diff

/-! ### The collector -/

inductive LineKind where
  | file
  | hunk
  | other
deriving DecidableEq

def lineKind (rawLine : Bytes) : LineKind :=
  let line := Utf8.lossy (trimPatchLine rawLine)
  if diffHeader.isPrefixOf line then .file
  else if hunkHeader.isPrefixOf line then .hunk
  else .other

inductive Collector where
  /-- Before the first `diff --git` line. -/
  | outside
  | inside (files : List (List Bytes)) (hunks : List Bytes) (current : Option Bytes)
      (preamble : Bytes)

namespace Collector

def patches : Collector → List (List Bytes)
  | .outside => []
  | .inside files hunks current _ => files ++ [hunks ++ current.toList]

/-- A hunk takes in every line that begins no other. -/
def isOpen : Collector → Bool
  | .outside => false
  | .inside _ _ current _ => current.isSome

def collect (collector : Collector) (rawLine : Bytes) : Collector :=
  match lineKind rawLine, collector with
  | .file, collector => .inside collector.patches [] none rawLine
  | _, .outside => .outside
  | .hunk, .inside files hunks current preamble =>
    .inside files (hunks ++ current.toList) (some (preamble ++ rawLine)) preamble
  | .other, .inside files hunks (some patch) preamble =>
    .inside files hunks (some (patch ++ rawLine)) preamble
  | .other, .inside files hunks none preamble => .inside files hunks none (preamble ++ rawLine)

theorem collect_file {rawLine : Bytes} (h : lineKind rawLine = .file) (collector : Collector) :
    collector.collect rawLine = .inside collector.patches [] none rawLine := by
  simp only [collect, h]

end Collector

/-! ### The loop keeps to it -/

def DiffFile.patches (file : DiffFile) : List Bytes := file.hunks.map (·.patch)

def DiffSnapshot.patches (snapshot : DiffSnapshot) : List (List Bytes) :=
  snapshot.fileDiffs.map DiffFile.patches

/-- The collector is what the state says of its patches. -/
def Collects (state : ParserState) : Collector → Prop
  | .outside =>
    state.snapshot.fileDiffs = [] ∧ state.currentFile = none ∧ state.currentHunk = none
  | .inside files hunks current preamble =>
    state.snapshot.patches = files ++ [hunks ++ current.toList] ∧
      state.currentFile = some files.length ∧
      state.currentHunk = current.map (fun _ => (files.length, hunks.length)) ∧
      state.filePreamble = preamble

theorem Collects.patches {state : ParserState} {collector : Collector}
    (h : Collects state collector) : state.snapshot.patches = collector.patches := by
  cases collector with
  | outside =>
    rw [DiffSnapshot.patches, h.1]
    rfl
  | inside files hunks current preamble => exact h.1

theorem map_modify {α β : Type} {f : α → α} {g : α → β} {f' : β → β}
    (h : ∀ x, g (f x) = f' (g x)) (xs : List α) (place : Nat) :
    (xs.modify place f).map g = (xs.map g).modify place f' := by
  induction xs generalizing place with
  | nil => simp
  | cons x xs ih =>
    cases place with
    | zero => simp [h]
    | succ place => simp [ih]

theorem patches_modifyFile (snapshot : DiffSnapshot) (place : Nat) {f : DiffFile → DiffFile}
    (f' : List Bytes → List Bytes) (h : ∀ file, (f file).patches = f' file.patches) :
    (snapshot.modifyFile place f).patches = snapshot.patches.modify place f' :=
  map_modify h snapshot.fileDiffs place

theorem patches_modifyHunk (snapshot : DiffSnapshot) (place : Nat × Nat) {f : DiffHunk → DiffHunk}
    (f' : Bytes → Bytes) (h : ∀ hunk, (f hunk).patch = f' hunk.patch) :
    (snapshot.modifyHunk place f).patches
      = snapshot.patches.modify place.1 (·.modify place.2 f') :=
  patches_modifyFile snapshot place.1 (·.modify place.2 f') fun file =>
    map_modify h file.hunks place.2

/-! Changes that are not about patches. -/

theorem patches_modifyHunk_self (snapshot : DiffSnapshot) (place : Nat × Nat)
    {f : DiffHunk → DiffHunk} (h : ∀ hunk, (f hunk).patch = hunk.patch) :
    (snapshot.modifyHunk place f).patches = snapshot.patches := by
  have hfile : (fun hunks : List Bytes => hunks.modify place.2 id) = id :=
    funext fun hunks => List.modify_id ..
  rw [patches_modifyHunk snapshot place id h, hfile, List.modify_id]

theorem patches_modifyFile_self (snapshot : DiffSnapshot) (place : Nat)
    {f : DiffFile → DiffFile} (h : ∀ file, (f file).patches = file.patches) :
    (snapshot.modifyFile place f).patches = snapshot.patches := by
  rw [patches_modifyFile snapshot place id h, List.modify_id]

theorem patches_modifyAt {α : Type} {modify : DiffSnapshot → α → DiffSnapshot}
    (h : ∀ snapshot place, (modify snapshot place).patches = snapshot.patches)
    (snapshot : DiffSnapshot) (place : Option α) :
    (snapshot.modifyAt place modify).patches = snapshot.patches := by
  cases place with
  | none => rfl
  | some place => exact h snapshot place

theorem patches_finishHunk (state : ParserState) :
    (finishHunk state).snapshot.patches = state.snapshot.patches := by
  refine patches_modifyAt ?_ state.snapshot state.currentHunk
  intro snapshot place
  exact patches_modifyHunk_self snapshot place fun _ => rfl

theorem patches_finishFile (state : ParserState) :
    (finishFile state).snapshot.patches = state.snapshot.patches := by
  refine patches_modifyAt ?_ state.snapshot state.currentFile
  intro snapshot place
  exact patches_modifyFile_self snapshot place fun _ => rfl

theorem patches_countAddition (state : ParserState) :
    (countAddition state).patches = state.snapshot.patches := by
  refine (patches_modifyAt ?_ _ state.currentHunk).trans
    (patches_modifyAt ?_ _ state.currentFile)
  · intro snapshot place
    exact patches_modifyHunk_self snapshot place fun _ => rfl
  · intro snapshot place
    exact patches_modifyFile_self snapshot place fun _ => rfl

theorem patches_countDeletion (state : ParserState) :
    (countDeletion state).patches = state.snapshot.patches := by
  refine (patches_modifyAt ?_ _ state.currentHunk).trans
    (patches_modifyAt ?_ _ state.currentFile)
  · intro snapshot place
    exact patches_modifyHunk_self snapshot place fun _ => rfl
  · intro snapshot place
    exact patches_modifyFile_self snapshot place fun _ => rfl

/-- The rows of a line do not matter to the patches. -/
theorem patches_readLine (state : ParserState) (line : Bytes) :
    (readLine state line).snapshot.patches = state.snapshot.patches ∧
      (readLine state line).currentFile = state.currentFile ∧
      (readLine state line).currentHunk = state.currentHunk ∧
      (readLine state line).filePreamble = state.filePreamble := by
  unfold readLine
  split
  · exact ⟨rfl, rfl, rfl, rfl⟩
  · split
    · exact ⟨patches_countAddition state, rfl, rfl, rfl⟩
    · exact ⟨patches_countDeletion state, rfl, rfl, rfl⟩
    · exact ⟨rfl, rfl, rfl, rfl⟩
    · exact ⟨rfl, rfl, rfl, rfl⟩

theorem hunkCount_eq (snapshot : DiffSnapshot) (place : Nat) :
    snapshot.fileDiffs[place]?.map (·.hunks.length) = snapshot.patches[place]?.map List.length := by
  simp [DiffSnapshot.patches, DiffFile.patches, Function.comp_def]

theorem collects_startFile {state : ParserState} {collector : Collector}
    (h : Collects state collector) (rawLine header : Bytes) :
    Collects (startFile state rawLine header) (.inside collector.patches [] none rawLine) := by
  have hpatches : (finishFile (finishHunk state)).snapshot.patches = collector.patches := by
    rw [patches_finishFile, patches_finishHunk, h.patches]
  have hlength := congrArg List.length hpatches
  unfold DiffSnapshot.patches at hpatches hlength
  rw [List.length_map] at hlength
  refine ⟨?_, ?_, rfl, rfl⟩
  · simp [startFile, pushRow, DiffSnapshot.patches, DiffFile.patches, ← hpatches]
  · simp [startFile, hlength]

theorem collects_startHunk_outside {state : ParserState} (h : Collects state .outside)
    (rawLine line : Bytes) : Collects (startHunk state rawLine line) .outside := by
  obtain ⟨hfiles, hfile, hhunk⟩ := h
  have hclosed := finishHunk_closed hhunk
  refine ⟨?_, ?_, ?_⟩
  · simp [startHunk, hclosed, hfile, DiffSnapshot.modifyAt, pushRow, hfiles]
  · simp [startHunk, hclosed, hfile]
  · simp [startHunk, hclosed, hfile]

theorem patches_addHunk (snapshot : DiffSnapshot) (place : Nat) (hunk : DiffHunk) :
    (snapshot.modifyFile place fun file => { file with hunks := file.hunks ++ [hunk] }).patches
      = snapshot.patches.modify place (· ++ [hunk.patch]) := by
  refine patches_modifyFile snapshot place (· ++ [hunk.patch]) ?_
  intro file
  simp [DiffFile.patches]

theorem collects_startHunk {state : ParserState} {files : List (List Bytes)}
    {hunks : List Bytes} {current : Option Bytes} {preamble : Bytes}
    (h : Collects state (.inside files hunks current preamble)) (rawLine line : Bytes) :
    Collects (startHunk state rawLine line)
      (.inside files (hunks ++ current.toList) (some (preamble ++ rawLine)) preamble) := by
  obtain ⟨hpatches, hfile, -, rfl⟩ := h
  have hfinished : (finishHunk state).snapshot.patches = files ++ [hunks ++ current.toList] := by
    rw [patches_finishHunk, hpatches]
  have hcurrent : (finishHunk state).currentFile = some files.length := hfile
  refine ⟨?_, hfile, ?_, rfl⟩
  · simp only [startHunk, hcurrent, DiffSnapshot.modifyAt]
    refine (patches_addHunk _ _ _).trans ?_
    rw [hfinished, modify_last]
    rfl
  · simp only [startHunk, hcurrent, DiffSnapshot.modifyAt, Option.map_some]
    rw [hunkCount_eq, patches_addHunk, hfinished, modify_last]
    simp

theorem collects_keepLine {state : ParserState} {files : List (List Bytes)}
    {hunks : List Bytes} {current : Option Bytes} {preamble : Bytes}
    (h : Collects state (.inside files hunks current preamble)) (rawLine : Bytes) :
    Collects (keepLine state rawLine)
      (match current with
        | some patch => .inside files hunks (some (patch ++ rawLine)) preamble
        | none => .inside files hunks none (preamble ++ rawLine)) := by
  obtain ⟨hpatches, hfile, hhunk, rfl⟩ := h
  cases current with
  | none =>
    have hkeep : keepLine state rawLine
        = { state with filePreamble := state.filePreamble ++ rawLine } := by
      simp [keepLine, hhunk, hfile]
    rw [hkeep]
    exact ⟨hpatches, hfile, hhunk, rfl⟩
  | some patch =>
    have hkeep : keepLine state rawLine
        = { state with
            snapshot := state.snapshot.modifyHunk (files.length, hunks.length) fun hunk =>
              { hunk with patch := hunk.patch ++ rawLine } } := by
      simp [keepLine, hhunk]
    rw [hkeep]
    refine ⟨?_, hfile, hhunk, rfl⟩
    refine (patches_modifyHunk _ _ (· ++ rawLine) fun _ => rfl).trans ?_
    rw [hpatches]
    simp [modify_last]

theorem Collects.readLine {state : ParserState} {collector : Collector}
    (h : Collects state collector) (line : Bytes) :
    Collects (readLine state line) collector := by
  have hfiles : (Diff.readLine state line).snapshot.patches = state.snapshot.patches :=
    patches_readLine state line |>.1
  obtain ⟨-, hfile, hhunk, hpreamble⟩ := patches_readLine state line
  cases collector with
  | outside =>
    obtain ⟨hnone, hcurrent, hclosed⟩ := h
    refine ⟨?_, hfile.trans hcurrent, hhunk.trans hclosed⟩
    rw [DiffSnapshot.patches, DiffSnapshot.patches, hnone] at hfiles
    exact List.map_eq_nil_iff.mp hfiles
  | inside files hunks current preamble =>
    obtain ⟨hpatches, hcurrent, hopen, hfront⟩ := h
    exact ⟨hfiles.trans hpatches, hfile.trans hcurrent, hhunk.trans hopen,
      hpreamble.trans hfront⟩

theorem collects_step {state : ParserState} {collector : Collector}
    (h : Collects state collector) (rawLine : Bytes) :
    Collects (step state rawLine) (collector.collect rawLine) := by
  cases hheader : diffHeader.isPrefixOf? (Utf8.lossy (trimPatchLine rawLine)) with
  | some header =>
    have hleads : diffHeader <+: Utf8.lossy (trimPatchLine rawLine) :=
      ⟨header, (Fields.isPrefixOf?_eq_some.mp hheader).symm⟩
    have hkind : lineKind rawLine = .file := by
      simp [lineKind, List.isPrefixOf_iff_prefix.mpr hleads]
    have hstep : step state rawLine = startFile state rawLine header := by
      simp only [step, hheader]
    rw [hstep, Collector.collect_file hkind]
    exact collects_startFile h rawLine header
  | none =>
    have hfile : diffHeader.isPrefixOf (Utf8.lossy (trimPatchLine rawLine)) = false := by
      refine Bool.eq_false_iff.mpr fun hleads => ?_
      obtain ⟨back, hback⟩ := List.isPrefixOf_iff_prefix.mp hleads
      rw [← hback, Fields.isPrefixOf?_append] at hheader
      exact absurd hheader (by simp)
    cases hat : hunkHeader.isPrefixOf (Utf8.lossy (trimPatchLine rawLine)) with
    | true =>
      have hkind : lineKind rawLine = .hunk := by simp only [lineKind, hfile, hat]; rfl
      simp only [step, hheader, hat, if_true]
      cases collector with
      | outside =>
        simp only [Collector.collect, hkind]
        exact collects_startHunk_outside h rawLine _
      | inside files hunks current preamble =>
        simp only [Collector.collect, hkind]
        exact collects_startHunk h rawLine _
    | false =>
      have hkind : lineKind rawLine = .other := by simp only [lineKind, hfile, hat]; rfl
      simp only [step, hheader, hat, Bool.false_eq_true, if_false]
      cases collector with
      | outside =>
        have hkeep : keepLine state rawLine = state := by
          simp [keepLine, h.2.1, h.2.2]
        simp only [Collector.collect, hkind, hkeep]
        exact h.readLine _
      | inside files hunks current preamble =>
        have hkept := (collects_keepLine h rawLine).readLine
          (Utf8.lossy (trimPatchLine rawLine))
        cases current with
        | none => simpa only [Collector.collect, hkind] using hkept
        | some patch => simpa only [Collector.collect, hkind] using hkept

theorem foldl_collects (lines : List Bytes) {state : ParserState} {collector : Collector}
    (h : Collects state collector) :
    Collects (lines.foldl step state) (lines.foldl Collector.collect collector) := by
  induction lines generalizing state collector with
  | nil => exact h
  | cons line lines ih => exact ih (collects_step h line)

theorem patches_parse (patch : Bytes) :
    (parseUnifiedDiffBytes patch).patches
      = ((Fields.splitInclusive 0x0a patch).foldl Collector.collect .outside).patches := by
  have hstart : Collects ParserState.start .outside := ⟨rfl, rfl, rfl⟩
  have hread := foldl_collects (Fields.splitInclusive 0x0a patch) hstart
  show (finishFile (finishHunk _)).snapshot.patches = _
  rw [patches_finishFile, patches_finishHunk, hread.patches]

end Homie.App.Diff
