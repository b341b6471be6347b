/-
The two tests for a patch that creates a file.

Both look beyond the preamble: the inspector for `--- /dev/null` anywhere, the review for a line
that is it.  So they agree and are right when the preamble declares a created file, and otherwise
just when no line of the patch, whatever it is of, holds that text (`patchCreatesFile_iff`).
-/
import Homie.Proofs.DiffAccounting
import Homie.Proofs.DiffCut

namespace Homie.App.Diff

/-! ### The preamble of a patch -/

def newFileMode : Bytes := Utf8.encode "new file mode "

/-- The lines before the `@@` line. -/
def preambleOf (patch : Bytes) : List Bytes :=
  (patch.splitOn 0x0a).takeWhile fun line => !hunkHeader.isPrefixOf line

/-- The file preamble declares a created file. -/
def DeclaresCreated (patch : Bytes) : Prop :=
  ∃ line ∈ preambleOf patch, line = devNull ∨ newFileMode <+: line

/-- Git names no old side of a file that it calls new. -/
def GitSection.NamesNoOldSide (file : GitSection) : Prop :=
  ∀ line ∈ file.preamble, newFileMode <+: line.text → ∃ line ∈ file.preamble, line.text = devNull

/-! ### Lines that no mode line is among -/

/-- No line begins with an `n`. -/
def Quiet (bytes : Bytes) : Prop := ¬ [0x6e] <+: bytes ∧ ¬ [0x0a, 0x6e] <:+: bytes

theorem Quiet.of_prefix {bytes front : Bytes} (h : Quiet bytes) (hleads : front <+: bytes) :
    Quiet front :=
  ⟨fun hfront => h.1 (hfront.trans hleads), fun hfront => h.2 (hfront.trans hleads.isInfix)⟩

theorem quiet_append {front back : Bytes} (hfront : Quiet front) (hback : Quiet back) :
    Quiet (front ++ back) := by
  constructor
  · intro hleads
    cases front with
    | nil => exact hback.1 hleads
    | cons byte front =>
      refine hfront.1 ?_
      rw [List.cons_append, List.cons_prefix_cons] at hleads
      exact List.cons_prefix_cons.mpr ⟨hleads.1, List.nil_prefix⟩
  · intro hinside
    rcases List.infix_append_iff_ne_nil.mp hinside with h | h | ⟨first, second, hne, hne', heq, -, h⟩
    · exact hfront.2 h
    · exact hback.2 h
    · -- The pattern is cut between its two bytes.
      have hsecond : second = [0x6e] := by
        match first, second, hne, hne', heq with
        | [_], [_], _, _, heq => simpa using (List.cons.inj heq).2.symm
        | [_], _ :: _ :: _, _, _, heq => simp at heq
        | _ :: _ :: _, _ :: _, _, _, heq => simp at heq
      exact hback.1 (hsecond ▸ h)

theorem quiet_of_notMem {bytes : Bytes} (h : (0x6e : UInt8) ∉ bytes) : Quiet bytes := by
  constructor
  · intro hleads
    exact h (hleads.subset (by simp))
  · intro hinside
    exact h (hinside.subset (by simp))

theorem quiet_raw {text : Bytes} (hplain : Lines.Plain text) (h : ¬ [0x6e] <+: text) :
    Quiet (raw text) := by
  constructor
  · intro hleads
    cases text with
    | nil => exact absurd hleads (by decide)
    | cons byte text =>
      rw [raw, List.cons_append, List.cons_prefix_cons] at hleads
      exact h (List.cons_prefix_cons.mpr ⟨hleads.1, List.nil_prefix⟩)
  · intro hinside
    rcases List.infix_append_iff_ne_nil.mp hinside with h | h | ⟨first, second, hne, hne', heq, h, -⟩
    · exact hplain (h.subset (by simp))
    · exact absurd h.length_le (by simp)
    · obtain ⟨byte, first, rfl⟩ := List.exists_cons_of_ne_nil hne
      obtain ⟨rfl, -⟩ := List.cons.inj heq
      exact hplain (h.subset List.mem_cons_self)

theorem quiet_flatten {lines : List Bytes} (h : ∀ line ∈ lines, Quiet line) :
    Quiet lines.flatten := by
  induction lines with
  | nil => exact quiet_of_notMem List.not_mem_nil
  | cons line lines ih =>
    rw [List.flatten_cons]
    exact quiet_append (h line List.mem_cons_self)
      (ih fun other hother => h other (List.mem_cons_of_mem _ hother))

theorem GitHunk.quiet (hunk : GitHunk) : Quiet hunk.bytes := by
  refine quiet_flatten ?_
  intro line hline
  cases List.mem_cons.mp hline with
  | inl heq =>
    rw [heq]
    refine quiet_raw hunk.plain_header ?_
    obtain ⟨back, hback⟩ := hunk.header_prefix
    have hheader : hunkHeader = [0x40, 0x40] := by decide
    rw [hback, hheader]
    intro hleads
    exact absurd (List.cons_prefix_cons.mp hleads).1 (by decide)
  | inr hbody =>
    obtain ⟨bodyLine, -, rfl⟩ := List.mem_map.mp hbody
    refine quiet_raw bodyLine.plain_text ?_
    exact bodyLine.not_header 0x6e rfl fun mark => by cases mark <;> decide

/-- No line of quiet bytes is a mode line. -/
theorem Quiet.not_mode {bytes : Bytes} (h : Quiet bytes) {line : Bytes}
    (hline : line ∈ bytes.splitOn 0x0a) : ¬ newFileMode <+: line := by
  intro hmode
  have hn : [0x6e] <+: line := by
    have hfirst : [0x6e] <+: newFileMode := by decide
    exact hfirst.trans hmode
  cases Fields.front_of_mem_splitOn hline with
  | inl hleads => exact h.1 (hn.trans hleads)
  | inr hinside =>
    refine h.2 (List.IsInfix.trans ?_ hinside)
    exact (List.cons_prefix_cons.mpr ⟨rfl, hn⟩).isInfix

/-! ### The patches of a cut -/

/-- A patch is the preamble of a section, and quiet bytes that begin with an `@@`. -/
def FromSection (sections : List GitSection) (patch : Bytes) : Prop :=
  ∃ file ∈ sections, file.hunks ≠ [] ∧ ∃ rest, patch = file.preambleBytes ++ rest ∧
    hunkHeader <+: rest ∧ Quiet rest

theorem FromSection.append {sections : List GitSection} {patch : Bytes}
    (h : FromSection sections patch) {more : Bytes} (hmore : (0x6e : UInt8) ∉ more) :
    FromSection sections (patch ++ more) := by
  obtain ⟨file, hfile, hne, rest, rfl, hat, hquiet⟩ := h
  refine ⟨file, hfile, hne, rest ++ more, by rw [List.append_assoc], ?_, ?_⟩
  · exact hat.trans (List.prefix_append rest more)
  · exact quiet_append hquiet (quiet_of_notMem hmore)

theorem fromSection_take {sections : List GitSection} {file : GitSection} (hfile : file ∈ sections)
    {hunk : GitHunk} (hhunk : hunk ∈ file.hunks) {n : Nat} (hn : 2 ≤ n) :
    FromSection sections (file.preambleBytes ++ hunk.bytes.take n) := by
  refine ⟨file, hfile, List.ne_nil_of_mem hhunk, hunk.bytes.take n, rfl, ?_, ?_⟩
  · obtain ⟨back, hback⟩ := hunk.header_prefix
    have hlength : hunkHeader.length = 2 := by decide
    have hbytes : hunk.bytes = hunkHeader ++ (back ++ [0x0a] ++ (bodyLines hunk.body).flatten) := by
      rw [GitHunk.bytes, GitHunk.lines, List.flatten_cons, raw, hback]
      simp only [List.append_assoc]
    rw [hbytes, List.take_append, List.take_of_length_le (by omega)]
    exact List.prefix_append hunkHeader _
  · exact hunk.quiet.of_prefix (List.take_prefix n hunk.bytes)

/-- All patches are of sections. -/
def AllFrom (sections : List GitSection) (patches : List Bytes) : Prop :=
  ∀ patch ∈ patches, FromSection sections patch

theorem AllFrom.append {sections : List GitSection} {front back : List Bytes}
    (hfront : AllFrom sections front) (hback : AllFrom sections back) :
    AllFrom sections (front ++ back) := by
  intro patch hpatch
  cases List.mem_append.mp hpatch with
  | inl h => exact hfront patch h
  | inr h => exact hback patch h

theorem allFrom_singleton {sections : List GitSection} {patch : Bytes}
    (h : FromSection sections patch) : AllFrom sections [patch] := by
  intro other hother
  rw [List.mem_singleton.mp hother]
  exact h

theorem allFrom_cutPatches {sections : List GitSection} {file : GitSection}
    (hfile : file ∈ sections) (current : Option Bytes) {rest : List GitHunk}
    (hrest : ∀ hunk ∈ rest, hunk ∈ file.hunks) (n : Nat)
    (h : AllFrom sections current.toList) :
    AllFrom sections (cutPatches file.preambleBytes current rest n) := by
  induction rest generalizing current n with
  | nil => exact h
  | cons hunk rest ih =>
    have hmem := hrest hunk List.mem_cons_self
    rw [cutPatches]
    by_cases hwhole : hunk.bytes.length ≤ n
    · have hbytes := fromSection_take hfile hmem hunk.two_le_length
      rw [List.take_length] at hbytes
      rw [if_pos hwhole]
      exact h.append (ih (some (file.preambleBytes ++ hunk.bytes))
        (fun other hother => hrest other (List.mem_cons_of_mem _ hother)) _
        (allFrom_singleton hbytes))
    · rw [if_neg hwhole]
      by_cases htwo : 2 ≤ n
      · rw [if_pos htwo]
        exact h.append (allFrom_singleton (fromSection_take hfile hmem htwo))
      · rw [if_neg htwo]
        by_cases hzero : n = 0
        · rwa [if_pos hzero]
        · rw [if_neg hzero]
          cases current with
          | none => exact h
          | some patch =>
            have hpatch := h patch List.mem_cons_self
            exact allFrom_singleton (hpatch.append (by decide))

theorem allFrom_patches {sections : List GitSection} {files : List (List Bytes)}
    {hunks : List Bytes} {current : Option Bytes} (preamble : Bytes) :
    AllFrom sections (Collector.inside files hunks current preamble).patches.flatten
      ↔ AllFrom sections files.flatten ∧ AllFrom sections (hunks ++ current.toList) := by
  simp only [Collector.patches, List.flatten_append, List.flatten_singleton, AllFrom,
    List.forall_mem_append]

theorem allFrom_cut_section {sections : List GitSection} {file : GitSection}
    (hfile : file ∈ sections) {collector : Collector}
    (h : AllFrom sections collector.patches.flatten) (n : Nat) :
    AllFrom sections
      ((cutLines file.lines n).foldl Collector.collect collector).patches.flatten := by
  by_cases hshort : n < diffHeader.length
  · by_cases hzero : n = 0
    · rw [hzero, cutLines_zero]
      exact h
    · obtain ⟨line, hcut, -, hkind, hleads⟩ := file.cutLines_short hzero hshort
      have hline : (0x6e : UInt8) ∉ line := fun hmem =>
        absurd (hleads.subset hmem) (by decide)
      rw [hcut, List.foldl_cons, List.foldl_nil]
      cases collector with
      | outside => simpa only [Collector.collect, hkind] using h
      | inside files hunks current preamble =>
        obtain ⟨hfiles, hhunks⟩ := (allFrom_patches preamble).mp h
        cases current with
        | none =>
          simp only [Collector.collect, hkind]
          exact (allFrom_patches _).mpr ⟨hfiles, hhunks⟩
        | some patch =>
          simp only [Collector.collect, hkind]
          refine (allFrom_patches _).mpr ⟨hfiles, ?_⟩
          have hpatch := hhunks patch (by simp)
          have hothers : AllFrom sections hunks := fun other hother =>
            hhunks other (List.mem_append_left _ hother)
          exact hothers.append (allFrom_singleton (hpatch.append hline))
  · rw [GitSection.lines, cutLines_append _ _ _ file.preamble_ne_nil, List.foldl_append,
      file.foldl_cut_preamble collector (Nat.not_lt.mp hshort)]
    have hnone : AllFrom sections ([] ++ (none : Option Bytes).toList) :=
      fun patch hpatch => absurd hpatch List.not_mem_nil
    by_cases hlong : file.preambleBytes.length ≤ n
    · obtain ⟨whole, last, front, hrun, hpatches⟩ := foldl_cut_hunks collector.patches [] none
        file.preambleBytes file.hunks (n - file.preambleBytes.length)
      have hcut : file.preambleLines.flatten.length = file.preambleBytes.length := rfl
      rw [List.take_of_length_le hlong, hcut, hrun]
      refine (allFrom_patches _).mpr ⟨h, ?_⟩
      rw [hpatches]
      exact allFrom_cutPatches hfile none (fun hunk hhunk => hhunk) _ hnone
    · have hcut : n - file.preambleLines.flatten.length = 0 :=
        Nat.sub_eq_zero_of_le (Nat.le_of_not_le hlong)
      rw [hcut, cutLines_zero]
      exact (allFrom_patches _).mpr ⟨h, hnone⟩

theorem fromSection_of_mem {sections : List GitSection} {n : Nat} {diffFile : DiffFile}
    (hfile : diffFile ∈ (parseUnifiedDiffBytes ((render sections).take n)).fileDiffs)
    {diffHunk : DiffHunk} (hhunk : diffHunk ∈ diffFile.hunks) :
    FromSection sections diffHunk.patch := by
  have hall : ∀ (rest : List GitSection) (collector : Collector) (n : Nat),
      (∀ file ∈ rest, file ∈ sections) → AllFrom sections collector.patches.flatten →
        AllFrom sections ((cutLines (rest.flatMap GitSection.lines) n).foldl Collector.collect
          collector).patches.flatten := by
    intro rest
    induction rest with
    | nil => exact fun collector n _ h => h
    | cons file rest ih =>
      intro collector n hrest h
      rw [List.flatMap_cons, cutLines_append _ _ _ file.lines_ne_nil, List.foldl_append]
      exact ih _ _ (fun other hother => hrest other (List.mem_cons_of_mem _ hother))
        (allFrom_cut_section (hrest file List.mem_cons_self) h n)
  refine hall sections .outside n (fun file hfile => hfile)
    (fun patch hpatch => absurd hpatch List.not_mem_nil) diffHunk.patch ?_
  rw [← splitInclusive_take (isLine_sections sections), ← render, ← patches_parse]
  refine List.mem_flatten.mpr ⟨diffFile.patches, List.mem_map_of_mem hfile, ?_⟩
  exact List.mem_map_of_mem hhunk

/-! ### What the tests say of a patch -/

theorem inspector_iff (patch : Bytes) :
    Inspector.patchCreatesFile patch = true
      ↔ ∃ line ∈ patch.splitOn 0x0a, devNull <:+: line := by
  have hplain : (0x0a : UInt8) ∉ devNull := by decide
  rw [← Fields.infix_splitOn hplain, List.infix_iff_prefix_suffix, Inspector.patchCreatesFile,
    List.any_eq_true]
  simp only [List.mem_tails, List.isPrefixOf_iff_prefix]
  exact ⟨fun ⟨t, hsuffix, hleads⟩ => ⟨t, hleads, hsuffix⟩,
    fun ⟨t, hleads, hsuffix⟩ => ⟨t, hsuffix, hleads⟩⟩

theorem review_iff (patch : Bytes) :
    GitReview.patchCreatesFile patch = true
      ↔ ∃ line ∈ patch.splitOn 0x0a, Lines.stripCr line = devNull ∨ newFileMode <+: line := by
  simp [GitReview.patchCreatesFile, newFileMode]

namespace GitSection

/-- The lines before the first hunk, without their line feeds. -/
def preambleTexts (file : GitSection) : List Bytes :=
  (diffHeader ++ file.paths) :: file.preamble.map PreambleLine.text

theorem preambleBytes_eq (file : GitSection) :
    file.preambleBytes = Fields.terminated 0x0a file.preambleTexts := by
  simp [preambleBytes, preambleLines, Diff.preambleLines, preambleTexts, Fields.terminated, raw,
    List.flatMap, Function.comp_def]

theorem splitOn_append (file : GitSection) (rest : Bytes) :
    (file.preambleBytes ++ rest).splitOn 0x0a = file.preambleTexts ++ rest.splitOn 0x0a := by
  rw [preambleBytes_eq]
  refine Fields.splitOn_terminated_append ?_ rest
  intro text htext
  cases List.mem_cons.mp htext with
  | inl heq => exact heq ▸ file.plain_paths
  | inr hmem =>
    obtain ⟨line, -, rfl⟩ := List.mem_map.mp hmem
    exact line.plain

theorem preambleOf_append (file : GitSection) {rest : Bytes} (h : hunkHeader <+: rest) :
    preambleOf (file.preambleBytes ++ rest) = file.preambleTexts := by
  have htexts : ∀ text ∈ file.preambleTexts, (!hunkHeader.isPrefixOf text) = true := by
    intro text htext
    have hnot : ¬ hunkHeader <+: text := by
      cases List.mem_cons.mp htext with
      | inl heq =>
        rw [heq]
        intro hat
        rcases List.prefix_or_prefix_of_prefix hat (List.prefix_append diffHeader file.paths)
          with h | h
        · exact absurd h (by decide)
        · exact absurd h (by decide)
      | inr hmem =>
        obtain ⟨line, -, rfl⟩ := List.mem_map.mp hmem
        exact line.notHunk
    rw [Bool.not_eq_true', ← Bool.not_eq_true, List.isPrefixOf_iff_prefix]
    exact hnot
  have hplain : (0x0a : UInt8) ∉ hunkHeader := by decide
  obtain ⟨more, rfl⟩ := h
  obtain ⟨piece, pieces, hsplit⟩ :=
    List.exists_cons_of_ne_nil (List.splitOn_ne_nil (0x0a : UInt8) more)
  have hat : hunkHeader.isPrefixOf (hunkHeader ++ piece) = true :=
    List.isPrefixOf_iff_prefix.mpr (List.prefix_append hunkHeader piece)
  rw [preambleOf, splitOn_append, Fields.splitOn_append_of_notMem hplain, hsplit,
    List.modifyHead_cons, List.takeWhile_append_of_pos htexts, List.takeWhile_cons, hat]
  simp

/-- The `diff --git` line declares nothing. -/
theorem declares_iff (file : GitSection) {rest : Bytes} (h : hunkHeader <+: rest) :
    DeclaresCreated (file.preambleBytes ++ rest)
      ↔ ∃ line ∈ file.preamble, line.text = devNull ∨ newFileMode <+: line.text := by
  have hdevNull : diffHeader ++ file.paths ≠ devNull := by
    intro heq
    have hleads : diffHeader <+: devNull := heq ▸ List.prefix_append diffHeader file.paths
    exact absurd hleads (by decide)
  have hmode : ¬ newFileMode <+: diffHeader ++ file.paths := by
    intro hmode
    rcases List.prefix_or_prefix_of_prefix hmode (List.prefix_append diffHeader file.paths)
      with h | h
    · exact absurd h (by decide)
    · exact absurd h (by decide)
  rw [DeclaresCreated, file.preambleOf_append h, preambleTexts]
  simp [hdevNull, hmode]

end GitSection

/-- The tests agree and are right just when the preamble declares a created file, or no line of
the patch holds `--- /dev/null`. -/
theorem patchCreatesFile_iff {sections : List GitSection}
    (hgit : ∀ file ∈ sections, file.hunks ≠ [] → file.NamesNoOldSide) {n : Nat}
    {diffFile : DiffFile}
    (hfile : diffFile ∈ (parseUnifiedDiffBytes ((render sections).take n)).fileDiffs)
    {diffHunk : DiffHunk} (hhunk : diffHunk ∈ diffFile.hunks) :
    (Inspector.patchCreatesFile diffHunk.patch = GitReview.patchCreatesFile diffHunk.patch ∧
        (GitReview.patchCreatesFile diffHunk.patch = true ↔ DeclaresCreated diffHunk.patch))
      ↔ DeclaresCreated diffHunk.patch ∨
          ∀ line ∈ diffHunk.patch.splitOn 0x0a, ¬ devNull <:+: line := by
  obtain ⟨file, hmem, hne, rest, hpatch, hat, hquiet⟩ := fromSection_of_mem hfile hhunk
  have hsplit : diffHunk.patch.splitOn 0x0a = file.preambleTexts ++ rest.splitOn 0x0a := by
    rw [hpatch, file.splitOn_append]
  have hpreamble : preambleOf diffHunk.patch = file.preambleTexts := by
    rw [hpatch, file.preambleOf_append hat]
  have hdeclares := file.declares_iff hat
  rw [← hpatch] at hdeclares
  -- A declared file is seen by both tests.
  have hreviewed : DeclaresCreated diffHunk.patch →
      GitReview.patchCreatesFile diffHunk.patch = true := by
    intro h
    obtain ⟨line, hline, hnew⟩ := h
    rw [hpreamble] at hline
    refine (review_iff _).mpr ⟨line, by rw [hsplit]; exact List.mem_append_left _ hline, ?_⟩
    cases hnew with
    | inl heq =>
      rw [heq]
      exact .inl (by decide)
    | inr hmode => exact .inr hmode
  have hinspected : DeclaresCreated diffHunk.patch →
      Inspector.patchCreatesFile diffHunk.patch = true := by
    intro h
    obtain ⟨line, hline, hnew⟩ := hdeclares.mp h
    obtain ⟨other, hother, heq⟩ : ∃ other ∈ file.preamble, other.text = devNull := by
      cases hnew with
      | inl heq => exact ⟨line, hline, heq⟩
      | inr hmode => exact hgit file hmem hne line hline hmode
    refine (inspector_iff _).mpr ⟨devNull, ?_, List.infix_refl devNull⟩
    rw [hsplit, ← heq]
    exact List.mem_append_left _ (List.mem_cons_of_mem _ (List.mem_map_of_mem hother))
  -- What the review sees beyond it, the inspector sees as well.
  have hseen : GitReview.patchCreatesFile diffHunk.patch = true →
      DeclaresCreated diffHunk.patch ∨ Inspector.patchCreatesFile diffHunk.patch = true := by
    intro h
    obtain ⟨line, hline, hnew⟩ := (review_iff _).mp h
    cases hnew with
    | inl heq =>
      have hleads := Lines.stripCr_isPrefix line
      rw [heq] at hleads
      exact .inr ((inspector_iff _).mpr ⟨line, hline, hleads.isInfix⟩)
    | inr hmode =>
      rw [hsplit] at hline
      cases List.mem_append.mp hline with
      | inl htext => exact .inl ⟨line, by rw [hpreamble]; exact htext, .inr hmode⟩
      | inr hrest => exact absurd hmode (hquiet.not_mode hrest)
  by_cases h : DeclaresCreated diffHunk.patch
  · refine iff_of_true ⟨?_, iff_of_true (hreviewed h) h⟩ (.inl h)
    rw [hreviewed h, hinspected h]
  · have hnone : (∀ line ∈ diffHunk.patch.splitOn 0x0a, ¬ devNull <:+: line)
        ↔ Inspector.patchCreatesFile diffHunk.patch = false := by
      rw [← Bool.not_eq_true, inspector_iff]
      simp only [not_exists, not_and]
    rw [hnone]
    constructor
    · intro hagree
      refine .inr ?_
      rw [hagree.1, ← Bool.not_eq_true]
      exact fun hreview => h (hagree.2.mp hreview)
    · intro hquietPatch
      have hinspector := hquietPatch.resolve_left h
      have hreview : GitReview.patchCreatesFile diffHunk.patch = false := by
        rw [← Bool.not_eq_true]
        intro hreview
        cases hseen hreview with
        | inl hdeclared => exact h hdeclared
        | inr hinspect => exact absurd (hinspector.symm.trans hinspect) (by simp)
      exact ⟨hinspector.trans hreview.symm, iff_of_false (by simp [hreview]) h⟩

/-- A file whose one hunk adds a line. -/
def fileCreated : GitSection where
  paths := Utf8.encode "a/x b/x"
  plain := by decide
  preamble :=
    [⟨Utf8.encode "new file mode 100644", by decide, by decide, by decide, by
        simp only [List.forall_mem_cons, List.not_mem_nil, false_imp_iff, implies_true]
        decide⟩,
      ⟨devNull, by decide, by decide, by decide, by
        simp only [List.forall_mem_cons, List.not_mem_nil, false_imp_iff, implies_true]
        decide⟩]
  hunks :=
    [{ old := ⟨0, 0, true, LineRange.shown_zero⟩
       new := ⟨1, 1, false, LineRange.shown_one⟩
       context := []
       body := [⟨.addition, [0x78], by decide⟩]
       plain := plain_nil
       oldCount := by decide
       newCount := by decide }]

theorem onlyPatch {file : GitSection} {hunk : GitHunk} (h : file.hunks = [hunk]) :
    ∃ diffFile ∈ (parseUnifiedDiffBytes ((render [file]).take (render [file]).length)).fileDiffs,
      ∃ diffHunk ∈ diffFile.hunks, diffHunk.patch = render [file] := by
  have hfile : [file][0]? = some file := rfl
  have hhunk : file.hunks[0]? = some hunk := by rw [h]; rfl
  obtain ⟨diffFile, diffHunk, hdiffFile, hdiffHunk, hpatch, -⟩ := hunk_render hfile hhunk
  rw [List.take_length]
  refine ⟨diffFile, List.mem_of_getElem? hdiffFile, diffHunk, List.mem_of_getElem? hdiffHunk, ?_⟩
  rw [hpatch]
  simp [render, GitSection.lines, h, GitSection.preambleBytes, GitHunk.bytes]

theorem patchCreatesFile_iff_created :
    Inspector.patchCreatesFile (render [fileCreated])
        = GitReview.patchCreatesFile (render [fileCreated]) ∧
      (GitReview.patchCreatesFile (render [fileCreated]) = true
        ↔ DeclaresCreated (render [fileCreated])) := by
  have hgit : ∀ file ∈ [fileCreated], file.hunks ≠ [] → file.NamesNoOldSide := by
    intro file hfile _ line _ _
    rw [List.mem_singleton.mp hfile]
    exact ⟨_, List.mem_cons_of_mem _ List.mem_cons_self, rfl⟩
  have hdeclared : DeclaresCreated (render [fileCreated]) :=
    ⟨devNull, by decide, .inl rfl⟩
  obtain ⟨diffFile, hfile, diffHunk, hhunk, hpatch⟩ := onlyPatch (rfl : fileCreated.hunks = _)
  have hagree := patchCreatesFile_iff hgit hfile hhunk
  rw [hpatch] at hagree
  exact hagree.mpr (.inl hdeclared)

/-- A hunk with a line that speaks of `--- /dev/null`. -/
def headerQuoted : GitSection where
  paths := Utf8.encode "a/x b/x"
  plain := by decide
  preamble := []
  hunks :=
    [{ old := ⟨0, 0, true, LineRange.shown_zero⟩
       new := ⟨1, 1, false, LineRange.shown_one⟩
       context := []
       body := [⟨.addition, devNull, by decide⟩]
       plain := plain_nil
       oldCount := by decide
       newCount := by decide }]

/-- The inspector takes the file for a created one, and the review does not. -/
theorem quoted_header_is_taken :
    ¬ ∀ sections : List GitSection,
      (∀ file ∈ sections, file.hunks ≠ [] → file.NamesNoOldSide) →
      ∀ (n : Nat),
      ∀ diffFile ∈ (parseUnifiedDiffBytes ((render sections).take n)).fileDiffs,
      ∀ diffHunk ∈ diffFile.hunks,
        Inspector.patchCreatesFile diffHunk.patch = GitReview.patchCreatesFile diffHunk.patch ∧
          (GitReview.patchCreatesFile diffHunk.patch = true
            ↔ DeclaresCreated diffHunk.patch) := by
  intro h
  have hgit : ∀ file ∈ [headerQuoted], file.hunks ≠ [] → file.NamesNoOldSide := by
    intro file hfile _ line hline _
    rw [List.mem_singleton.mp hfile] at hline
    exact absurd hline List.not_mem_nil
  obtain ⟨diffFile, hfile, diffHunk, hhunk, hpatch⟩ := onlyPatch (rfl : headerQuoted.hunks = _)
  have hagree := (h [headerQuoted] hgit _ diffFile hfile diffHunk hhunk).1
  rw [hpatch] at hagree
  exact absurd hagree (by decide)

end Homie.App.Diff
