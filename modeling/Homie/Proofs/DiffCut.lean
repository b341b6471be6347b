/-
Whole hunks of a patch that is cut at a byte.

The loop knows no unfinished hunk: the hunk that the cut runs through is kept as if it were whole.
`CleanCut` says where a cut does no harm: behind a hunk, from the eleventh byte of a `diff --git`
line up to the first `@` behind it, or before the eleventh byte when no hunk is open that would
take the bytes in.
-/
import Homie.App.Diff
import Homie.Lib.Fallible
import Homie.Proofs.DiffCollector

namespace Homie.App.Diff

/-! ### Cut lines -/

/-- The lines of a patch that is cut. -/
def cutLines : List Bytes → Nat → List Bytes
  | [], _ => []
  | line :: lines, n =>
    if n = 0 then [] else line.take n :: cutLines lines (n - line.length)

theorem cutLines_zero (lines : List Bytes) : cutLines lines 0 = [] := by
  cases lines <;> rfl

theorem flatten_cutLines (lines : List Bytes) (n : Nat) :
    (cutLines lines n).flatten = lines.flatten.take n := by
  induction lines generalizing n with
  | nil => simp [cutLines]
  | cons line lines ih =>
    by_cases h : n = 0
    · simp [cutLines, h]
    · rw [cutLines, if_neg h, List.flatten_cons, List.flatten_cons, ih, List.take_append]

theorem cutLines_append (front back : List Bytes) (n : Nat) (hne : ∀ line ∈ front, line ≠ []) :
    cutLines (front ++ back) n
      = cutLines front n ++ cutLines back (n - front.flatten.length) := by
  induction front generalizing n with
  | nil => simp [cutLines]
  | cons line front ih =>
    by_cases h : n = 0
    · simp [cutLines, h, cutLines_zero]
    · have hrest := ih (n - line.length) fun other hother =>
        hne other (List.mem_cons_of_mem _ hother)
      rw [List.cons_append, cutLines, if_neg h, hrest, cutLines, if_neg h, List.flatten_cons,
        List.length_append, Nat.sub_sub, List.cons_append]

/-- What is not cut is all there. -/
theorem cutLines_of_le {lines : List Bytes} {n : Nat} (hne : ∀ line ∈ lines, line ≠ [])
    (h : lines.flatten.length ≤ n) : cutLines lines n = lines := by
  induction lines generalizing n with
  | nil => rfl
  | cons line lines ih =>
    have hline := List.length_pos_of_ne_nil (hne line List.mem_cons_self)
    rw [List.flatten_cons, List.length_append] at h
    have hn : n ≠ 0 := by omega
    rw [cutLines, if_neg hn, List.take_of_length_le (by omega),
      ih (fun other hother => hne other (List.mem_cons_of_mem _ hother)) (by omega)]

theorem mem_cutLines {lines : List Bytes} {n : Nat} {piece : Bytes}
    (h : piece ∈ cutLines lines n) : ∃ line ∈ lines, ∃ m, piece = line.take m := by
  induction lines generalizing n with
  | nil => exact absurd h List.not_mem_nil
  | cons line lines ih =>
    by_cases hn : n = 0
    · simp [cutLines, hn] at h
    · rw [cutLines, if_neg hn] at h
      cases List.mem_cons.mp h with
      | inl heq => exact ⟨line, List.mem_cons_self, n, heq⟩
      | inr hrest =>
        obtain ⟨other, hother, m, rfl⟩ := ih hrest
        exact ⟨other, List.mem_cons_of_mem _ hother, m, rfl⟩

theorem IsLine.ne_nil {line : Bytes} (h : IsLine line) : line ≠ [] := by
  obtain ⟨text, -, rfl⟩ := h
  simp [raw]

theorem splitInclusive_take {lines : List Bytes} (h : ∀ line ∈ lines, IsLine line) (n : Nat) :
    Fields.splitInclusive 0x0a (lines.flatten.take n) = cutLines lines n := by
  induction lines generalizing n with
  | nil => simp [cutLines, Fields.splitInclusive]
  | cons line lines ih =>
    obtain ⟨text, htext, rfl⟩ := h line List.mem_cons_self
    have hrest := ih fun other hother => h other (List.mem_cons_of_mem _ hother)
    by_cases hn : n = 0
    · simp [cutLines, hn, Fields.splitInclusive]
    · rw [cutLines, if_neg hn, List.flatten_cons, List.take_append]
      by_cases hlong : (raw text).length ≤ n
      · rw [List.take_of_length_le hlong, splitInclusive_line htext, hrest]
      · -- The line itself is cut, and no line feed is left.
        have hnone : n - (raw text).length = 0 := by omega
        have hpiece : (raw text).take n = text.take n := by
          have hle : n ≤ text.length := by
            simp only [raw, List.length_append, List.length_singleton] at hlong
            omega
          exact List.take_append_of_le_length hle
        have hplain : Lines.Plain (text.take n) := fun hmem => htext (List.mem_of_mem_take hmem)
        have hne : text.take n ≠ [] := by
          intro hnil
          have hlength := congrArg List.length hnil
          simp only [raw, List.length_append, List.length_singleton] at hlong
          simp only [List.length_take, List.length_nil] at hlength
          omega
        rw [hnone, List.take_zero, List.append_nil, hpiece, splitInclusive_plain hplain hne,
          cutLines_zero]

/-! ### What a cut line is taken for -/

theorem trimPatchLine_take {text : Bytes} (h : Lines.Plain text) (n : Nat) :
    trimPatchLine ((raw text).take n) = Lines.stripCr (text.take n) := by
  by_cases hn : n ≤ text.length
  · have hpiece : (raw text).take n = text.take n := List.take_append_of_le_length hn
    rw [hpiece]
    exact trimPatchLine_plain fun hmem => h (List.mem_of_mem_take hmem)
  · have hlength : (raw text).length ≤ n := by
      simp only [raw, List.length_append, List.length_singleton]
      omega
    rw [List.take_of_length_le hlength, List.take_of_length_le (by omega), trimPatchLine_raw]

theorem lineKind_take {text : Bytes} (h : Lines.Plain text) (n : Nat) :
    lineKind ((raw text).take n)
      = if diffHeader.isPrefixOf (text.take n) then .file
        else if hunkHeader.isPrefixOf (text.take n) then .hunk
        else .other := by
  have hfile := isPrefixOf_lineText telling_diffHeader (text.take n)
  have hhunk := isPrefixOf_lineText telling_hunkHeader (text.take n)
  unfold lineText at hfile hhunk
  simp only [lineKind, trimPatchLine_take h, hfile, hhunk]

theorem isPrefixOf_take_append (pattern back : Bytes) (n : Nat) :
    pattern.isPrefixOf ((pattern ++ back).take n) = decide (pattern.length ≤ n) := by
  rw [Bool.eq_iff_iff, List.isPrefixOf_iff_prefix, decide_eq_true_iff]
  constructor
  · intro hleads
    have hlength := hleads.length_le
    rw [List.length_take] at hlength
    omega
  · intro hn
    rw [List.take_append, List.take_of_length_le hn]
    exact List.prefix_append pattern _

theorem isPrefixOf_take_of_not {pattern text : Bytes} (h : ¬ pattern <+: text) (n : Nat) :
    pattern.isPrefixOf (text.take n) = false := by
  refine Bool.eq_false_iff.mpr fun hleads => h ?_
  exact (List.isPrefixOf_iff_prefix.mp hleads).trans (List.take_prefix n text)

theorem lineKind_other {text : Bytes} (h : Lines.Plain text) (hfile : ¬ diffHeader <+: text)
    (hhunk : ¬ hunkHeader <+: text) (n : Nat) : lineKind ((raw text).take n) = .other := by
  simp [lineKind_take h, isPrefixOf_take_of_not hfile, isPrefixOf_take_of_not hhunk]

theorem BodyLine.lineKind_take (line : BodyLine) (n : Nat) :
    lineKind ((raw line.text).take n) = .other := by
  refine lineKind_other line.plain_text ?_ ?_ n
  · exact line.not_header 0x64 (by decide) fun mark => by cases mark <;> decide
  · exact line.not_header 0x40 (by decide) fun mark => by cases mark <;> decide

theorem PreambleLine.lineKind_take (line : PreambleLine) (n : Nat) :
    lineKind ((raw line.text).take n) = .other :=
  lineKind_other line.plain line.notFile line.notHunk n

theorem GitHunk.header_prefix (hunk : GitHunk) : ∃ back, hunk.header = hunkHeader ++ back :=
  ⟨_, hunk.header_eq⟩

theorem GitHunk.lineKind_take (hunk : GitHunk) (n : Nat) :
    lineKind ((raw hunk.header).take n) = if 2 ≤ n then .hunk else .other := by
  obtain ⟨back, hback⟩ := hunk.header_prefix
  have hnot : ¬ diffHeader <+: hunk.header := by
    intro hdiff
    rw [hback] at hdiff
    rcases List.prefix_or_prefix_of_prefix (List.prefix_append hunkHeader back) hdiff with h | h
    · exact absurd h (by decide)
    · exact absurd h (by decide)
  have hlength : hunkHeader.length = 2 := by decide
  rw [Diff.lineKind_take hunk.plain_header, isPrefixOf_take_of_not hnot, hback,
    isPrefixOf_take_append, hlength]
  simp

theorem GitSection.lineKind_take (file : GitSection) (n : Nat) :
    lineKind ((raw (diffHeader ++ file.paths)).take n)
      = if diffHeader.length ≤ n then .file else .other := by
  rw [Diff.lineKind_take file.plain_paths, isPrefixOf_take_append]
  by_cases hn : diffHeader.length ≤ n
  · simp [hn]
  · have hnot : hunkHeader.isPrefixOf ((diffHeader ++ file.paths).take n) = false := by
      refine isPrefixOf_take_of_not ?_ n
      intro hat
      rcases List.prefix_or_prefix_of_prefix (List.prefix_append diffHeader file.paths) hat
        with h | h
      · exact absurd h (by decide)
      · exact absurd h (by decide)
    simp [hn, hnot]

/-! ### What is collected of cut lines -/

theorem foldl_other_open {lines : List Bytes} (h : ∀ line ∈ lines, lineKind line = .other)
    (files : List (List Bytes)) (hunks : List Bytes) (patch preamble : Bytes) :
    lines.foldl Collector.collect (.inside files hunks (some patch) preamble)
      = .inside files hunks (some (patch ++ lines.flatten)) preamble := by
  induction lines generalizing patch with
  | nil => simp
  | cons line lines ih =>
    have hline := h line List.mem_cons_self
    have hrest := ih (fun other hother => h other (List.mem_cons_of_mem _ hother))
      (patch ++ line)
    rw [List.foldl_cons, List.flatten_cons, ← List.append_assoc, ← hrest]
    simp only [Collector.collect, hline]

theorem foldl_other_closed {lines : List Bytes} (h : ∀ line ∈ lines, lineKind line = .other)
    (files : List (List Bytes)) (hunks : List Bytes) (preamble : Bytes) :
    lines.foldl Collector.collect (.inside files hunks none preamble)
      = .inside files hunks none (preamble ++ lines.flatten) := by
  induction lines generalizing preamble with
  | nil => simp
  | cons line lines ih =>
    have hline := h line List.mem_cons_self
    have hrest := ih (fun other hother => h other (List.mem_cons_of_mem _ hother))
      (preamble ++ line)
    rw [List.foldl_cons, List.flatten_cons, ← List.append_assoc, ← hrest]
    simp only [Collector.collect, hline]

theorem cutLines_body_other (body : List BodyLine) (n : Nat) :
    ∀ line ∈ cutLines (bodyLines body) n, lineKind line = .other := by
  intro line hline
  obtain ⟨whole, hwhole, m, rfl⟩ := mem_cutLines hline
  obtain ⟨bodyLine, -, rfl⟩ := List.mem_map.mp hwhole
  exact bodyLine.lineKind_take m

theorem cutLines_preamble_other (preamble : List PreambleLine) (n : Nat) :
    ∀ line ∈ cutLines (preambleLines preamble) n, lineKind line = .other := by
  intro line hline
  obtain ⟨whole, hwhole, m, rfl⟩ := mem_cutLines hline
  obtain ⟨preambleLine, -, rfl⟩ := List.mem_map.mp hwhole
  exact preambleLine.lineKind_take m

section
variable (files : List (List Bytes)) (hunks : List Bytes) (current : Option Bytes)
  (preamble : Bytes)

/-- A hunk is begun as soon as its two `@` are there, and is then what is there of it. -/
theorem foldl_cut_hunk (hunk : GitHunk) {n : Nat} (hn : 2 ≤ n) :
    (cutLines hunk.lines n).foldl Collector.collect (.inside files hunks current preamble)
      = .inside files (hunks ++ current.toList) (some (preamble ++ hunk.bytes.take n)) preamble := by
  have hne : n ≠ 0 := by omega
  have hkind := hunk.lineKind_take n
  rw [if_pos hn] at hkind
  have hbytes : hunk.bytes.take n = (raw hunk.header).take n ++
      (cutLines (bodyLines hunk.body) (n - (raw hunk.header).length)).flatten := by
    rw [flatten_cutLines, ← List.take_append]
    rfl
  rw [GitHunk.lines, cutLines, if_neg hne, List.foldl_cons]
  simp only [Collector.collect, hkind]
  rw [foldl_other_open (cutLines_body_other _ _), List.append_assoc, ← hbytes]

theorem GitHunk.lines_ne_nil (hunk : GitHunk) : ∀ line ∈ hunk.lines, line ≠ [] :=
  fun line hline => (hunk.isLine line hline).ne_nil

theorem GitHunk.two_le_length (hunk : GitHunk) : 2 ≤ hunk.bytes.length := by
  obtain ⟨back, hback⟩ := hunk.header_prefix
  have hlength : hunkHeader.length = 2 := by decide
  rw [GitHunk.bytes, GitHunk.lines, List.flatten_cons, raw, hback]
  simp only [List.length_append, hlength]
  omega

theorem foldl_hunk (hunk : GitHunk) :
    hunk.lines.foldl Collector.collect (.inside files hunks current preamble)
      = .inside files (hunks ++ current.toList) (some (preamble ++ hunk.bytes)) preamble := by
  have hcut := foldl_cut_hunk files hunks current preamble hunk hunk.two_le_length
  have hlines : cutLines hunk.lines hunk.bytes.length = hunk.lines :=
    cutLines_of_le hunk.lines_ne_nil (Nat.le_refl _)
  rwa [hlines, List.take_length] at hcut

/-- The patches of hunks behind a preamble. -/
def patchesOf (preamble : Bytes) (hunks : List GitHunk) : List Bytes :=
  hunks.map fun hunk => preamble ++ hunk.bytes

theorem foldl_hunks (rest : List GitHunk) :
    ∃ whole last,
      (rest.flatMap GitHunk.lines).foldl Collector.collect (.inside files hunks current preamble)
        = .inside files whole last preamble ∧
      whole ++ last.toList = hunks ++ current.toList ++ patchesOf preamble rest ∧
      last.isSome = (current.isSome || !rest.isEmpty) := by
  induction rest generalizing hunks current with
  | nil => exact ⟨hunks, current, rfl, by simp [patchesOf], by simp⟩
  | cons hunk rest ih =>
    obtain ⟨whole, last, hrun, hpatches, hopen⟩ :=
      ih (hunks ++ current.toList) (some (preamble ++ hunk.bytes))
    refine ⟨whole, last, ?_, ?_, by simp [hopen]⟩
    · rw [List.flatMap_cons, List.foldl_append, foldl_hunk, hrun]
    · rw [hpatches]
      simp [patchesOf]

end

theorem GitSection.length_header_le (file : GitSection) :
    diffHeader.length ≤ file.preambleBytes.length := by
  rw [preambleBytes, preambleLines, List.flatten_cons, raw]
  simp only [List.length_append]
  omega

/-! ### Clean cuts -/

/-- Where the hunks of a section may be cut; `isOpen` says that one is open before them. -/
def CleanHunks (isOpen : Bool) : List GitHunk → Nat → Prop
  | [], _ => True
  | hunk :: hunks, n =>
    if hunk.bytes.length ≤ n then CleanHunks true hunks (n - hunk.bytes.length)
    else n = 0 ∨ n = 1 ∧ isOpen = false

/-- Where a patch may be cut; `isOpen` says that the section before has a hunk. -/
def CleanCut (isOpen : Bool) : List GitSection → Nat → Prop
  | [], _ => True
  | file :: sections, n =>
    if file.lines.flatten.length ≤ n then
      CleanCut (!file.hunks.isEmpty) sections (n - file.lines.flatten.length)
    else if n < diffHeader.length then n = 0 ∨ isOpen = false
    else CleanHunks false file.hunks (n - file.preambleBytes.length)

theorem foldl_cut_hunk_one (files : List (List Bytes)) (hunks : List Bytes)
    (current : Option Bytes) (preamble : Bytes) (hunk : GitHunk) :
    ∃ front, (cutLines hunk.lines 1).foldl Collector.collect
        (.inside files hunks current preamble)
      = .inside files hunks (current.map (· ++ [0x40])) front := by
  have hfirst : (raw hunk.header).take 1 = [0x40] := by
    have hheader : hunkHeader = [0x40, 0x40] := by decide
    obtain ⟨back, hback⟩ := hunk.header_prefix
    simp [raw, hback, hheader]
  have hkind := hunk.lineKind_take 1
  rw [if_neg (by decide), hfirst] at hkind
  have hcut : cutLines hunk.lines 1 = [[0x40]] := by
    have hrest : 1 - (raw hunk.header).length = 0 := by
      simp only [raw, List.length_append, List.length_singleton]
      omega
    rw [GitHunk.lines, cutLines, if_neg (by decide), hrest, cutLines_zero, hfirst]
  have hother : ∀ line ∈ [([0x40] : Bytes)], lineKind line = .other := by
    intro line hline
    rw [List.mem_singleton.mp hline, hkind]
  rw [hcut]
  cases current with
  | none =>
    refine ⟨preamble ++ [0x40], ?_⟩
    rw [foldl_other_closed hother, List.flatten_singleton]
    rfl
  | some patch =>
    refine ⟨preamble, ?_⟩
    rw [foldl_other_open hother, List.flatten_singleton]
    rfl

theorem length_content_lt {file : GitSection} {hunk : GitHunk} {line : BodyLine}
    (hhunk : hunk ∈ file.hunks) (hline : line ∈ hunk.body) :
    line.content.length < file.lines.flatten.length := by
  have hmem : raw line.text ∈ file.lines :=
    List.mem_append_right _ (List.mem_flatMap.mpr
      ⟨hunk, hhunk, List.mem_cons_of_mem _ (List.mem_map.mpr ⟨line, hline, rfl⟩)⟩)
  have hlength := (List.sublist_flatten_of_mem hmem).length_le
  simp only [raw, BodyLine.text, List.length_append, List.length_cons] at hlength
  omega

/-- Behind the two `@` of a hunk and before its end, no cut is clean. -/
theorem not_cleanCut_one {file : GitSection} {hunk : GitHunk} (hhunks : file.hunks = [hunk])
    {isOpen : Bool} {n : Nat} (hfront : file.preambleBytes.length + 2 ≤ n)
    (hback : n < file.lines.flatten.length) : ¬ CleanCut isOpen [file] n := by
  have hheader := file.length_header_le
  have hlength : file.lines.flatten.length = file.preambleBytes.length + hunk.bytes.length := by
    simp [GitSection.lines, hhunks, GitSection.preambleBytes, GitHunk.bytes]
  rw [CleanCut, if_neg (by omega), if_neg (by omega), hhunks, CleanHunks, if_neg (by omega)]
  omega

/-- The patches of hunks that are cut, behind the one that is open; one byte that is left of a
hunk goes to the patch before it. -/
def cutPatches (preamble : Bytes) : Option Bytes → List GitHunk → Nat → List Bytes
  | current, [], _ => current.toList
  | current, hunk :: rest, n =>
    if hunk.bytes.length ≤ n then
      current.toList ++
        cutPatches preamble (some (preamble ++ hunk.bytes)) rest (n - hunk.bytes.length)
    else if 2 ≤ n then current.toList ++ [preamble ++ hunk.bytes.take n]
    else if n = 0 then current.toList
    else (current.map (· ++ [0x40])).toList

theorem foldl_cut_hunks (files : List (List Bytes)) (hunks : List Bytes)
    (current : Option Bytes) (preamble : Bytes) (rest : List GitHunk) (n : Nat) :
    ∃ whole last front,
      (cutLines (rest.flatMap GitHunk.lines) n).foldl Collector.collect
          (.inside files hunks current preamble) = .inside files whole last front ∧
      whole ++ last.toList = hunks ++ cutPatches preamble current rest n := by
  induction rest generalizing hunks current n with
  | nil => exact ⟨hunks, current, preamble, rfl, rfl⟩
  | cons hunk rest ih =>
    rw [List.flatMap_cons, cutLines_append _ _ _ hunk.lines_ne_nil, List.foldl_append]
    show ∃ whole last front,
      (cutLines (rest.flatMap GitHunk.lines) (n - hunk.bytes.length)).foldl _ _ = _ ∧ _
    by_cases hwhole : hunk.bytes.length ≤ n
    · rw [cutLines_of_le hunk.lines_ne_nil hwhole, foldl_hunk, cutPatches, if_pos hwhole,
        ← List.append_assoc]
      exact ih (hunks ++ current.toList) (some (preamble ++ hunk.bytes)) _
    · have hnone : n - hunk.bytes.length = 0 := by omega
      rw [cutPatches, if_neg hwhole, hnone, cutLines_zero, List.foldl_nil]
      by_cases htwo : 2 ≤ n
      · rw [foldl_cut_hunk files hunks current preamble hunk htwo, if_pos htwo,
          ← List.append_assoc]
        exact ⟨_, _, _, rfl, rfl⟩
      · rw [if_neg htwo]
        by_cases hzero : n = 0
        · rw [hzero, cutLines_zero]
          exact ⟨hunks, current, preamble, rfl, rfl⟩
        · obtain rfl : n = 1 := by omega
          obtain ⟨front, hrun⟩ := foldl_cut_hunk_one files hunks current preamble hunk
          exact ⟨_, _, _, hrun, rfl⟩

theorem cutPatches_zero (preamble : Bytes) (current : Option Bytes) (rest : List GitHunk) :
    cutPatches preamble current rest 0 = current.toList := by
  cases rest with
  | nil => rfl
  | cons hunk rest =>
    have hlength := hunk.two_le_length
    rw [cutPatches, if_neg (by omega), if_neg (by omega), if_pos rfl]

theorem cutPatches_prefix_iff (preamble : Bytes) (current : Option Bytes) (rest : List GitHunk)
    (n : Nat) :
    cutPatches preamble current rest n <+: current.toList ++ patchesOf preamble rest
      ↔ CleanHunks current.isSome rest n := by
  induction rest generalizing current n with
  | nil => simp [cutPatches, patchesOf, CleanHunks]
  | cons hunk rest ih =>
    by_cases hwhole : hunk.bytes.length ≤ n
    · rw [cutPatches, if_pos hwhole, CleanHunks, if_pos hwhole, List.prefix_append_right_inj]
      exact ih (some (preamble ++ hunk.bytes)) _
    · rw [cutPatches, if_neg hwhole, CleanHunks, if_neg hwhole]
      by_cases htwo : 2 ≤ n
      · have hnot : ¬ (n = 0 ∨ n = 1 ∧ current.isSome = false) := by omega
        rw [if_pos htwo, List.prefix_append_right_inj]
        refine iff_of_false ?_ hnot
        intro hleads
        have hpatch := (List.cons_prefix_cons.mp hleads).1
        have hlength := congrArg List.length (List.append_cancel_left hpatch)
        rw [List.length_take] at hlength
        omega
      · rw [if_neg htwo]
        by_cases hzero : n = 0
        · rw [if_pos hzero]
          exact iff_of_true (List.prefix_append _ _) (.inl hzero)
        · have hone : n = 1 := by omega
          rw [if_neg hzero]
          cases current with
          | none => exact iff_of_true List.nil_prefix (.inr ⟨hone, rfl⟩)
          | some patch =>
            refine iff_of_false ?_ (by simp [hzero])
            intro hleads
            have hpatch := (List.cons_prefix_cons.mp hleads).1
            exact absurd (List.append_right_eq_self.mp hpatch) (by simp)

namespace GitSection

/-- The patches of a section's hunks. -/
def patches (file : GitSection) : List Bytes := patchesOf file.preambleBytes file.hunks

theorem preamble_ne_nil (file : GitSection) : ∀ line ∈ file.preambleLines, line ≠ [] :=
  fun line hline => (file.isLine_preamble line hline).ne_nil

theorem lines_ne_nil (file : GitSection) : ∀ line ∈ file.lines, line ≠ [] :=
  fun line hline => (file.isLine line hline).ne_nil

/-- A section begins with its `diff --git ` whatever is open. -/
theorem foldl_cut_preamble (file : GitSection) (collector : Collector) {n : Nat}
    (hn : diffHeader.length ≤ n) :
    (cutLines file.preambleLines n).foldl Collector.collect collector
      = .inside collector.patches [] none (file.preambleBytes.take n) := by
  have hpos : 0 < diffHeader.length := by decide
  have hne : n ≠ 0 := by omega
  have hkind := file.lineKind_take n
  rw [if_pos hn] at hkind
  rw [preambleLines, cutLines, if_neg hne, List.foldl_cons, Collector.collect_file hkind,
    foldl_other_closed (cutLines_preamble_other _ _), flatten_cutLines, ← List.take_append]
  rfl

theorem foldl_preamble (file : GitSection) (collector : Collector) :
    file.preambleLines.foldl Collector.collect collector
      = .inside collector.patches [] none file.preambleBytes := by
  have hcut := file.foldl_cut_preamble collector file.length_header_le
  have hlines : cutLines file.preambleLines file.preambleBytes.length = file.preambleLines :=
    cutLines_of_le file.preamble_ne_nil (Nat.le_refl _)
  rwa [hlines, List.take_length] at hcut

theorem foldl_lines (file : GitSection) (collector : Collector) :
    (file.lines.foldl Collector.collect collector).patches
        = collector.patches ++ [file.patches] ∧
      (file.lines.foldl Collector.collect collector).isOpen = !file.hunks.isEmpty := by
  obtain ⟨whole, last, hrun, hpatches, hopen⟩ :=
    foldl_hunks collector.patches [] none file.preambleBytes file.hunks
  rw [lines, List.foldl_append, foldl_preamble, hrun]
  exact ⟨congrArg (fun hunks => collector.patches ++ [hunks]) hpatches, hopen⟩

/-- A section that is cut behind its `diff --git ` is a file with the hunks that are there. -/
theorem foldl_cut_lines (file : GitSection) (collector : Collector) {n : Nat}
    (hn : diffHeader.length ≤ n) :
    ∃ hunks, ((cutLines file.lines n).foldl Collector.collect collector).patches
        = collector.patches ++ [hunks] ∧
      (hunks <+: file.patches ↔ CleanHunks false file.hunks (n - file.preambleBytes.length)) := by
  rw [lines, cutLines_append _ _ _ file.preamble_ne_nil, List.foldl_append,
    file.foldl_cut_preamble collector hn]
  obtain ⟨whole, last, front, hrun, hpatches⟩ := foldl_cut_hunks collector.patches [] none
    (file.preambleBytes.take n) file.hunks (n - file.preambleBytes.length)
  refine ⟨whole ++ last.toList, congrArg Collector.patches hrun, ?_⟩
  have hclean := cutPatches_prefix_iff file.preambleBytes none file.hunks
    (n - file.preambleBytes.length)
  rw [hpatches]
  by_cases hlong : file.preambleBytes.length ≤ n
  · rw [List.take_of_length_le hlong]
    exact hclean
  · -- No byte of a hunk is left.
    have hnone : n - file.preambleBytes.length = 0 := by omega
    rw [hnone] at hclean ⊢
    rw [cutPatches_zero] at hclean ⊢
    exact hclean

/-- Less than a `diff --git ` is a line of what is before it. -/
theorem cutLines_short (file : GitSection) {n : Nat} (hn : n ≠ 0) (h : n < diffHeader.length) :
    ∃ line, cutLines file.lines n = [line] ∧ line ≠ [] ∧ lineKind line = .other ∧
      line <+: diffHeader := by
  have hkind := file.lineKind_take n
  rw [if_neg (by omega)] at hkind
  have hrest : n - (raw (diffHeader ++ file.paths)).length = 0 := by
    simp only [raw, List.length_append]
    omega
  refine ⟨(raw (diffHeader ++ file.paths)).take n, ?_, ?_, hkind, ?_⟩
  · rw [lines, preambleLines, List.cons_append, cutLines, if_neg hn, hrest, cutLines_zero]
  · simp [raw, hn]
  · rw [raw, List.append_assoc, List.take_append_of_le_length (Nat.le_of_lt h)]
    exact List.take_prefix n diffHeader

end GitSection

/-! ### Whole hunks -/

/-- The hunks of each file that is read are the first of its section. -/
def WholePatches (read written : List (List Bytes)) : Prop :=
  ∀ (place : Nat) hunks, read[place]? = some hunks → hunks <+: written[place]?.getD []

theorem wholePatches_self (read more : List (List Bytes)) : WholePatches read (read ++ more) := by
  intro place hunks h
  obtain ⟨hlt, -⟩ := List.getElem?_eq_some_iff.mp h
  rw [List.getElem?_append_left hlt, h]
  exact List.prefix_refl hunks

theorem wholePatches_last (front : List (List Bytes)) (hunks all : List Bytes)
    (more : List (List Bytes)) :
    WholePatches (front ++ [hunks]) (front ++ all :: more) ↔ hunks <+: all := by
  constructor
  · intro h
    simpa using h front.length hunks (by simp)
  · intro hleads place found hfound
    by_cases hlt : place < front.length
    · rw [List.getElem?_append_left hlt] at hfound ⊢
      rw [hfound]
      exact List.prefix_refl found
    · rw [List.getElem?_append_right (Nat.not_lt.mp hlt)] at hfound ⊢
      cases hplace : place - front.length with
      | zero =>
        rw [hplace] at hfound
        rw [← Option.some.inj hfound]
        exact hleads
      | succ m =>
        rw [hplace] at hfound
        exact absurd hfound (by simp)

/-- A piece of a `diff --git ` does harm just where a hunk takes it in. -/
theorem wholePatches_collect_other {line : Bytes} (hkind : lineKind line = .other)
    (hline : line ≠ []) (collector : Collector) (more : List (List Bytes)) :
    WholePatches (collector.collect line).patches (collector.patches ++ more)
      ↔ collector.isOpen = false := by
  cases collector with
  | outside =>
    simp only [Collector.collect, hkind]
    exact iff_of_true (wholePatches_self _ more) rfl
  | inside files hunks current preamble =>
    cases current with
    | none =>
      simp only [Collector.collect, hkind]
      exact iff_of_true (wholePatches_self (files ++ [hunks ++ []]) more) rfl
    | some patch =>
      simp only [Collector.collect, hkind, Collector.patches, Option.toList_some,
        List.append_assoc, List.singleton_append]
      rw [wholePatches_last, List.prefix_append_right_inj]
      refine iff_of_false ?_ (by simp [Collector.isOpen])
      intro hleads
      exact hline (List.append_right_eq_self.mp (List.cons_prefix_cons.mp hleads).1)

theorem foldl_cut_sections (sections : List GitSection) (collector : Collector) (n : Nat) :
    WholePatches
        ((cutLines (sections.flatMap GitSection.lines) n).foldl Collector.collect collector).patches
        (collector.patches ++ sections.map GitSection.patches)
      ↔ CleanCut collector.isOpen sections n := by
  induction sections generalizing collector n with
  | nil => exact iff_of_true (wholePatches_self collector.patches []) trivial
  | cons file sections ih =>
    rw [List.flatMap_cons, cutLines_append _ _ _ file.lines_ne_nil, List.foldl_append,
      List.map_cons, CleanCut]
    by_cases hwhole : file.lines.flatten.length ≤ n
    · obtain ⟨hpatches, hopen⟩ := file.foldl_lines collector
      have hrest := ih (file.lines.foldl Collector.collect collector)
        (n - file.lines.flatten.length)
      rw [hpatches, hopen, List.append_assoc, List.singleton_append] at hrest
      rw [cutLines_of_le file.lines_ne_nil hwhole, if_pos hwhole, hrest]
    · have hnone : n - file.lines.flatten.length = 0 := by omega
      rw [if_neg hwhole, hnone, cutLines_zero, List.foldl_nil]
      by_cases hshort : n < diffHeader.length
      · rw [if_pos hshort]
        by_cases hzero : n = 0
        · rw [hzero, cutLines_zero, List.foldl_nil]
          exact iff_of_true (wholePatches_self _ _) (.inl rfl)
        · obtain ⟨line, hcut, hline, hkind, -⟩ := file.cutLines_short hzero hshort
          rw [hcut, List.foldl_cons, List.foldl_nil,
            wholePatches_collect_other hkind hline collector]
          simp [hzero]
      · rw [if_neg hshort]
        obtain ⟨hunks, hpatches, hiff⟩ := file.foldl_cut_lines collector (Nat.not_lt.mp hshort)
        rw [hpatches, wholePatches_last, hiff]

/-- Every hunk of the snapshot is a whole hunk of what git says, in its place. -/
def WholeHunks (snapshot : DiffSnapshot) (sections : List GitSection) : Prop :=
  ∀ (place hunkPlace : Nat) diffFile diffHunk, snapshot.fileDiffs[place]? = some diffFile →
    diffFile.hunks[hunkPlace]? = some diffHunk →
    ∃ file hunk, sections[place]? = some file ∧ file.hunks[hunkPlace]? = some hunk ∧
      diffHunk.patch = file.preambleBytes ++ hunk.bytes

theorem wholeHunks_iff (snapshot : DiffSnapshot) (sections : List GitSection) :
    WholeHunks snapshot sections
      ↔ WholePatches snapshot.patches (sections.map GitSection.patches) := by
  constructor
  · intro h place hunks hhunks
    obtain ⟨diffFile, hdiffFile, rfl⟩ : ∃ diffFile, snapshot.fileDiffs[place]? = some diffFile ∧
        diffFile.patches = hunks := by
      simpa [DiffSnapshot.patches] using hhunks
    rw [List.prefix_iff_getElem?]
    intro hunkPlace hlt
    rw [DiffFile.patches, List.length_map] at hlt
    obtain ⟨file, hunk, hfile, hhunk, hpatch⟩ := h place hunkPlace diffFile _ hdiffFile
      (List.getElem?_eq_getElem hlt)
    simp [hfile, GitSection.patches, patchesOf, hhunk, ← hpatch, DiffFile.patches]
  · intro h place hunkPlace diffFile diffHunk hdiffFile hdiffHunk
    have hleads := h place diffFile.patches (by simp [DiffSnapshot.patches, hdiffFile])
    have hpatch : diffFile.patches[hunkPlace]? = some diffHunk.patch := by
      simp [DiffFile.patches, hdiffHunk]
    obtain ⟨hlt, hget⟩ := List.getElem?_eq_some_iff.mp hpatch
    have hwritten := List.prefix_iff_getElem?.mp hleads hunkPlace hlt
    rw [hget] at hwritten
    cases hfile : sections[place]? with
    | none => simp [hfile] at hwritten
    | some file =>
      rw [List.getElem?_map, hfile, Option.map_some, Option.getD_some, GitSection.patches,
        patchesOf, List.getElem?_map] at hwritten
      obtain ⟨hunk, hhunk, heq⟩ := Option.map_eq_some_iff.mp hwritten
      exact ⟨file, hunk, rfl, hhunk, heq.symm⟩

theorem wholeHunks_take_iff (sections : List GitSection) (n : Nat) :
    WholeHunks (parseUnifiedDiffBytes ((render sections).take n)) sections
      ↔ CleanCut false sections n := by
  have hsections := foldl_cut_sections sections .outside n
  rw [wholeHunks_iff, patches_parse, render, splitInclusive_take (isLine_sections sections)]
  exact hsections

end Homie.App.Diff

/-! ### What a load reads of git's output: its first `maxDiffBytes`, and the hunks that are whole
there

`gitPatch` is all that the commands of a load say, one behind the other.  A load that succeeds has
read as many of its bytes as there is room for (`load_fileDiffs`), however the outputs were cut on
the way.
-/

namespace Homie.App.Diff

open Fallible (bind_eq_ok)

/-! ### What git says -/

def stdoutOf (git : Git) (args : List Bytes) : Bytes :=
  match git args with
  | .error _ => []
  | .ok output => output.stdout

/-- The commands whose outputs are the tracked lanes. -/
def trackedCommands (git : Git) (source : LocalDiffSource) : List (List Bytes) :=
  match source, succeeds git (arguments ["rev-parse", "--verify", "HEAD"]) with
  | .defaultBranch, true =>
    match resolveComparison git .defaultBranch with
    | .error _ => []
    | .ok resolution => [diffArguments [resolution.commit, Utf8.encode "--"]]
  | .head, true => [diffArguments (arguments ["HEAD", "--"])]
  | .staged, true => [diffArguments (arguments ["--cached", "HEAD", "--"])]
  | .staged, false => [cachedArguments]
  | .working, _ => [workingArguments]
  | .defaultBranch, false | .head, false => [cachedArguments, workingArguments]

/-- And those of the untracked files that are shown. -/
def untrackedCommands (git : Git) (source : LocalDiffSource) : List (List Bytes) :=
  if source = .staged then []
  else (untrackedPaths (stdoutOf git listArguments)).map untrackedArguments

/-- What the commands of a load say, one behind the other. -/
def gitPatch (git : Git) (source : LocalDiffSource) : Bytes :=
  (trackedCommands git source ++ untrackedCommands git source).flatMap (stdoutOf git)

/-! ### What is kept of it -/

/-- What is kept of bytes, one more than is shown. -/
def kept (bytes : Bytes) : Bytes := bytes.take (maxDiffBytes + 1)

theorem appendBytes_kept (whole bytes : Bytes) :
    appendBytes (kept whole) bytes = kept (whole ++ bytes) := by
  unfold appendBytes kept
  rw [List.take_append, List.length_take]
  congr 2
  omega

theorem take_kept (bytes : Bytes) : (kept bytes).take maxDiffBytes = bytes.take maxDiffBytes := by
  rw [kept, List.take_take, Nat.min_eq_left (Nat.le_succ maxDiffBytes)]

theorem runGit_eq_ok {git : Git} {args : List Bytes} {output : GitOutput}
    (h : runGit git args = .ok output) : stdoutOf git args = output.stdout := by
  unfold runGit at h
  unfold stdoutOf
  cases hgit : git args with
  | error error =>
    rw [hgit] at h
    exact absurd h (by simp)
  | ok found =>
    rw [hgit] at h
    exact congrArg GitOutput.stdout (Except.ok.inj h)

theorem appendOutput_eq_ok {git : Git} {whole : Bytes} {args : List Bytes} {patch : Bytes}
    (h : appendOutput git (kept whole) args = .ok patch) :
    patch = kept (whole ++ stdoutOf git args) := by
  obtain ⟨output, hrun, h⟩ := bind_eq_ok.mp h
  by_cases hsuccess : output.success
  · rw [if_pos hsuccess] at h
    rw [runGit_eq_ok hrun, ← appendBytes_kept]
    exact (Except.ok.inj h).symm
  · rw [if_neg hsuccess] at h
    exact nomatch h

theorem appendOutput_one {git : Git} {args : List Bytes} {label : Option Bytes}
    {result : Bytes × Option Bytes}
    (h : (do let patch ← appendOutput git [] args; return (patch, label)) = Except.ok result) :
    result.1 = kept ([args].flatMap (stdoutOf git)) := by
  obtain ⟨patch, hpatch, h⟩ := bind_eq_ok.mp h
  have hkept : appendOutput git (kept []) args = .ok patch := hpatch
  rw [← Except.ok.inj h, List.flatMap_singleton]
  exact appendOutput_eq_ok hkept

theorem appendOutput_two {git : Git} {first second : List Bytes} {label : Option Bytes}
    {result : Bytes × Option Bytes}
    (h : (do
      let patch ← appendOutput git [] first
      let patch ← appendOutput git patch second
      return (patch, label)) = Except.ok result) :
    result.1 = kept ([first, second].flatMap (stdoutOf git)) := by
  obtain ⟨patch, hpatch, h⟩ := bind_eq_ok.mp h
  obtain ⟨both, hboth, h⟩ := bind_eq_ok.mp h
  have hkept : appendOutput git (kept []) first = .ok patch := hpatch
  rw [appendOutput_eq_ok hkept] at hboth
  rw [← Except.ok.inj h]
  refine (appendOutput_eq_ok hboth).trans ?_
  simp

theorem appendTrackedDiffs_eq_ok {git : Git} {source : LocalDiffSource}
    {result : Bytes × Option Bytes} (h : appendTrackedDiffs git source = .ok result) :
    result.1 = kept ((trackedCommands git source).flatMap (stdoutOf git)) := by
  unfold appendTrackedDiffs at h
  unfold trackedCommands
  cases hhead : succeeds git (arguments ["rev-parse", "--verify", "HEAD"]) with
  | true =>
    rw [hhead] at h
    cases source with
    | defaultBranch =>
      obtain ⟨resolution, hresolution, h⟩ := bind_eq_ok.mp h
      rw [hresolution]
      exact appendOutput_one h
    | head => exact appendOutput_one h
    | staged => exact appendOutput_one h
    | working => exact appendOutput_one h
  | false =>
    rw [hhead] at h
    cases source with
    | defaultBranch => exact appendOutput_two h
    | head => exact appendOutput_two h
    | staged => exact appendOutput_one h
    | working => exact appendOutput_one h

theorem appendUntrackedPaths_eq_ok {git : Git} {paths : List Bytes} {whole patch : Bytes}
    (h : appendUntrackedPaths git (kept whole) paths = .ok patch) :
    patch.take maxDiffBytes
      = (whole ++ (paths.map untrackedArguments).flatMap (stdoutOf git)).take maxDiffBytes := by
  induction paths generalizing whole with
  | nil =>
    rw [← Except.ok.inj h, take_kept]
    simp
  | cons path paths ih =>
    rw [appendUntrackedPaths] at h
    by_cases hfull : maxDiffBytes ≤ (kept whole).length
    · rw [if_pos hfull] at h
      rw [← Except.ok.inj h, take_kept]
      have hlong : maxDiffBytes ≤ whole.length := by
        simp only [kept, List.length_take] at hfull
        omega
      rw [List.take_append_of_le_length hlong]
    · rw [if_neg hfull] at h
      obtain ⟨output, hrun, h⟩ := bind_eq_ok.mp h
      by_cases hfailed : (!output.success && output.code != some 1) = true
      · rw [if_pos hfailed] at h
        exact nomatch h
      · rw [if_neg hfailed, ← runGit_eq_ok hrun, appendBytes_kept] at h
        rw [ih h, List.map_cons, List.flatMap_cons, List.append_assoc]

theorem appendUntrackedDiffs_eq_ok {git : Git} {whole patch : Bytes}
    (h : appendUntrackedDiffs git (kept whole) = .ok patch) :
    patch.take maxDiffBytes
      = (whole ++ ((untrackedPaths (stdoutOf git listArguments)).map untrackedArguments).flatMap
          (stdoutOf git)).take maxDiffBytes := by
  obtain ⟨untracked, hrun, h⟩ := bind_eq_ok.mp h
  by_cases hfailed : (!untracked.success) = true
  · rw [if_pos hfailed] at h
    exact nomatch h
  · rw [if_neg hfailed] at h
    rw [runGit_eq_ok hrun]
    exact appendUntrackedPaths_eq_ok h

theorem load_fileDiffs {git : Git} {repoRoot : Bytes} {layer : DiffLayer}
    {source : LocalDiffSource} {snapshot : DiffSnapshot}
    (h : loadDiffFromRepository git repoRoot layer source = .ok snapshot) :
    snapshot.fileDiffs
      = (parseUnifiedDiffBytes ((gitPatch git source).take maxDiffBytes)).fileDiffs := by
  obtain ⟨⟨tracked, baseRef⟩, htracked, h⟩ := bind_eq_ok.mp h
  have hkept : tracked = kept _ := appendTrackedDiffs_eq_ok htracked
  dsimp only at h
  by_cases hstaged : source = .staged
  · rw [if_pos hstaged] at h
    rw [← Except.ok.inj h, hkept, gitPatch, untrackedCommands, if_pos hstaged, List.append_nil]
    dsimp only
    rw [take_kept]
  · rw [if_neg hstaged] at h
    obtain ⟨patch, huntracked, h⟩ := bind_eq_ok.mp h
    rw [hkept] at huntracked
    rw [← Except.ok.inj h, gitPatch, untrackedCommands, if_neg hstaged, List.flatMap_append,
      ← appendUntrackedDiffs_eq_ok huntracked]

/-- A repository with a commit whose index differs from it by a patch. -/
def stagedGit (patch : Bytes) : Git := fun args =>
  .ok ⟨some 0, if args = diffArguments (arguments ["--cached", "HEAD", "--"]) then patch else [], []⟩

theorem gitPatch_stagedGit (patch : Bytes) : gitPatch (stagedGit patch) .staged = patch := by
  have hhead : succeeds (stagedGit patch) (arguments ["rev-parse", "--verify", "HEAD"]) = true :=
    rfl
  simp [gitPatch, trackedCommands, hhead, untrackedCommands, stdoutOf, stagedGit]

theorem load_stagedGit (patch : Bytes) :
    ∃ snapshot, loadDiffFromRepository (stagedGit patch) [] .staged .staged = .ok snapshot :=
  ⟨_, rfl⟩

def longLine (length : Nat) : BodyLine where
  mark := .deletion
  content := List.replicate length 0x78
  plain := fun hmem => absurd (List.eq_of_mem_replicate hmem) (by decide)

def longHunk (length : Nat) : GitHunk where
  old := ⟨1, 1, false, LineRange.shown_one⟩
  new := ⟨0, 0, true, LineRange.shown_zero⟩
  context := []
  body := [longLine length]
  plain := plain_nil
  oldCount := rfl
  newCount := rfl

/-- One hunk that deletes a line of a length. -/
def longLineDeleted (length : Nat) : GitSection where
  paths := Utf8.encode "a/log b/log"
  plain := by decide
  preamble := []
  hunks := [longHunk length]

theorem length_longLineDeleted (length : Nat) :
    length < (longLineDeleted length).lines.flatten.length := by
  have hhunk : longHunk length ∈ (longLineDeleted length).hunks := List.mem_singleton_self _
  have hline : longLine length ∈ (longHunk length).body := List.mem_singleton_self _
  have hlength : (longLine length).content.length = length := List.length_replicate
  have hlt := length_content_lt hhunk hline
  rwa [hlength] at hlt

theorem length_preamble_longLineDeleted (length : Nat) :
    (longLineDeleted length).preambleBytes.length = 23 := by
  have hfront : (longLineDeleted length).preambleBytes = (longLineDeleted 0).preambleBytes := rfl
  rw [hfront]
  decide

/-- The hunks of a load are whole ones just when what git says is cut cleanly. -/
theorem load_wholeHunks_iff {git : Git} {repoRoot : Bytes} {layer : DiffLayer}
    {source : LocalDiffSource} {snapshot : DiffSnapshot} {sections : List GitSection}
    (hload : loadDiffFromRepository git repoRoot layer source = .ok snapshot)
    (hgit : gitPatch git source = render sections) :
    WholeHunks snapshot sections ↔ CleanCut false sections maxDiffBytes := by
  have hfiles := load_fileDiffs hload
  rw [hgit] at hfiles
  rw [← wholeHunks_take_iff, WholeHunks, WholeHunks, hfiles]

theorem load_wholeHunks_iff_staged :
    ∃ snapshot, loadDiffFromRepository (stagedGit (render [longLineDeleted 1])) [] .staged .staged
        = .ok snapshot ∧ WholeHunks snapshot [longLineDeleted 1] := by
  have hshort : (longLineDeleted 1).lines.flatten.length ≤ maxDiffBytes := by decide
  have hclean : CleanCut false [longLineDeleted 1] maxDiffBytes := by
    rw [CleanCut, if_pos hshort]
    trivial
  obtain ⟨snapshot, hload⟩ := load_stagedGit (render [longLineDeleted 1])
  exact ⟨snapshot, hload, (load_wholeHunks_iff hload (gitPatch_stagedGit _)).mpr hclean⟩

/-- The hunk is kept without its end. -/
theorem long_line_is_cut :
    ¬ ∀ (git : Git) (repoRoot : Bytes) (layer : DiffLayer) (source : LocalDiffSource)
      (snapshot : DiffSnapshot) (sections : List GitSection),
      loadDiffFromRepository git repoRoot layer source = .ok snapshot →
      gitPatch git source = render sections → WholeHunks snapshot sections := by
  intro h
  generalize hlength : maxDiffBytes = length
  obtain ⟨snapshot, hload⟩ := load_stagedGit (render [longLineDeleted length])
  have hwhole := h _ _ _ _ snapshot [longLineDeleted length] hload (gitPatch_stagedGit _)
  have hfiles := load_fileDiffs hload
  rw [gitPatch_stagedGit] at hfiles
  rw [WholeHunks, hfiles, ← WholeHunks, wholeHunks_take_iff, hlength] at hwhole
  refine not_cleanCut_one rfl ?_ (length_longLineDeleted length) hwhole
  rw [length_preamble_longLineDeleted, ← hlength]
  decide

end Homie.App.Diff
