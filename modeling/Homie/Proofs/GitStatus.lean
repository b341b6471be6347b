/-
Reading what `git status` writes.

`Change.records` and `GitBranch.headers` are the porcelain format, version 2 with `-z`: a record
for each header and each change, a NUL behind each, and the original path of a rename as a record
of its own.  Reading takes a change's records off the front and nothing else, whatever its path
looks like, so the changes come back one by one.
-/
import Homie.App.GitStatus
import Homie.Lib.Lossy

namespace Homie.App.GitReview

/-! ### The format -/

/-- A path that git can name. -/
structure GitPath where
  bytes : Bytes
  notEmpty : bytes ≠ []
  noNul : (0x00 : UInt8) ∉ bytes
deriving DecidableEq

/-- What git writes between two spaces. -/
structure Field where
  bytes : Bytes
  noSpace : (0x20 : UInt8) ∉ bytes
  noNul : (0x00 : UInt8) ∉ bytes
deriving DecidableEq

/-- The letters of a path that is not in conflict. -/
structure OrdinaryXY where
  index : UInt8
  worktree : UInt8
  noSpace : (0x20 : UInt8) ∉ [index, worktree]
  noNul : (0x00 : UInt8) ∉ [index, worktree]
  neitherUnmerged : (0x55 : UInt8) ∉ [index, worktree]
  notBothDeleted : [index, worktree] ≠ Utf8.encode "DD"
  notBothAdded : [index, worktree] ≠ Utf8.encode "AA"
deriving DecidableEq

/-- The letters of a path in conflict: any two. -/
structure UnmergedXY where
  index : UInt8
  worktree : UInt8
  noSpace : (0x20 : UInt8) ∉ [index, worktree]
  noNul : (0x00 : UInt8) ∉ [index, worktree]
deriving DecidableEq

/-- The submodule state, and the modes and object names in `HEAD`, the index and the worktree. -/
structure TrackedDetails where
  submodule : Field
  headMode : Field
  indexMode : Field
  worktreeMode : Field
  headName : Field
  indexName : Field
deriving DecidableEq

/-- The submodule state, and the modes and object names of the three stages. -/
structure StageDetails where
  submodule : Field
  firstMode : Field
  secondMode : Field
  thirdMode : Field
  worktreeMode : Field
  firstName : Field
  secondName : Field
  thirdName : Field
deriving DecidableEq

inductive Change where
  | ordinary (xy : OrdinaryXY) (details : TrackedDetails) (path : GitPath)
  | renamed (xy : OrdinaryXY) (details : TrackedDetails) (score : Field)
      (path original : GitPath)
  | unmerged (xy : UnmergedXY) (details : StageDetails) (path : GitPath)
  | untracked (path : GitPath)
deriving DecidableEq

def TrackedDetails.fields (details : TrackedDetails) : List Bytes :=
  [details.submodule.bytes, details.headMode.bytes, details.indexMode.bytes,
    details.worktreeMode.bytes, details.headName.bytes, details.indexName.bytes]

def StageDetails.fields (details : StageDetails) : List Bytes :=
  [details.submodule.bytes, details.firstMode.bytes, details.secondMode.bytes,
    details.thirdMode.bytes, details.worktreeMode.bytes, details.firstName.bytes,
    details.secondName.bytes, details.thirdName.bytes]

/-- A record of fields and a path, with a space behind each field. -/
def record (fields : List Bytes) (path : GitPath) : Bytes :=
  Fields.terminated 0x20 fields ++ path.bytes

def Change.records : Change → List Bytes
  | .ordinary xy details path =>
    [record ([[0x31], [xy.index, xy.worktree]] ++ details.fields) path]
  | .renamed xy details score path original =>
    [record ([[0x32], [xy.index, xy.worktree]] ++ details.fields ++ [score.bytes]) path,
      original.bytes]
  | .unmerged xy details path =>
    [record ([[0x75], [xy.index, xy.worktree]] ++ details.fields) path]
  | .untracked path => [record [[0x3f]] path]

/-- A name as a text without a NUL. -/
structure Name where
  bytes : Bytes
  isText : Utf8.valid bytes
  noNul : (0x00 : UInt8) ∉ bytes
deriving DecidableEq

def isHexDigit (byte : UInt8) : Bool :=
  (0x30 ≤ byte && byte ≤ 0x39) || (0x61 ≤ byte && byte ≤ 0x66)

/-- A commit's object name. -/
structure ObjectId where
  bytes : Bytes
  hex : bytes.all isHexDigit
deriving DecidableEq

/-- No commit is an unborn branch and no name a detached head.  An upstream that is gone has no
counts. -/
structure GitBranch where
  oid : Option ObjectId
  head : Option Name
  upstream : Option (Name × Option (UInt64 × UInt64))
deriving DecidableEq

def aheadBehind (counts : UInt64 × UInt64) : Bytes :=
  0x2b :: decimal counts.1.toNat ++ 0x20 :: 0x2d :: decimal counts.2.toNat

def GitBranch.headers (branch : GitBranch) : List Bytes :=
  [Utf8.encode "# " ++ (oidHeader ++ (branch.oid.map (·.bytes)).getD initialOid),
    Utf8.encode "# " ++ (headHeader ++ (branch.head.map (·.bytes)).getD detachedHead)] ++
  match branch.upstream with
  | none => []
  | some (name, counts) =>
    (Utf8.encode "# " ++ (upstreamHeader ++ name.bytes)) ::
      match counts with
      | none => []
      | some counts => [Utf8.encode "# " ++ (aheadBehindHeader ++ aheadBehind counts)]

/-- What git writes for a branch and its changes. -/
def render (branch : GitBranch) (changes : List Change) : Bytes :=
  Fields.terminated 0x00 (branch.headers ++ changes.flatMap Change.records)

/-! ### What it says -/

def GitBranch.info (branch : GitBranch) : BranchInfo where
  name := branch.head.map (·.bytes)
  oid := branch.oid.map (·.bytes)
  upstream := branch.upstream.map (·.1.bytes)
  ahead := ((branch.upstream.bind (·.2)).map (·.1)).getD 0
  behind := ((branch.upstream.bind (·.2)).map (·.2)).getD 0

def Change.staged : Change → Option FileChange
  | .ordinary xy _ path =>
    if xy.index = 0x2e then none else some ⟨path.bytes, none, changeKind xy.index⟩
  | .renamed xy _ _ path original =>
    if xy.index = 0x2e then none
    else some ⟨path.bytes, some original.bytes, changeKind xy.index⟩
  | .unmerged .. | .untracked _ => none

def Change.unstaged : Change → Option FileChange
  | .ordinary xy _ path =>
    if xy.worktree = 0x2e then none else some ⟨path.bytes, none, changeKind xy.worktree⟩
  | .renamed xy _ _ path original =>
    if xy.worktree = 0x2e then none
    else some ⟨path.bytes, some original.bytes, changeKind xy.worktree⟩
  | .unmerged .. | .untracked _ => none

def Change.notTracked : Change → Option FileChange
  | .untracked path => some ⟨path.bytes, none, .added⟩
  | .ordinary .. | .renamed .. | .unmerged .. => none

def Change.conflicted : Change → Option FileChange
  | .unmerged _ _ path => some ⟨path.bytes, none, .unmerged⟩
  | .ordinary .. | .renamed .. | .untracked _ => none

/-- A branch, and changes split up in their order. -/
def statusOf (root : Bytes) (branch : GitBranch) (changes : List Change) : ReviewStatus where
  repoRoot := root
  branch := branch.info
  staged := changes.filterMap Change.staged
  unstaged := changes.filterMap Change.unstaged
  untracked := changes.filterMap Change.notTracked
  conflicted := changes.filterMap Change.conflicted

/-! ### Records -/

theorem record_cons (kind : UInt8) (fields : List Bytes) (path : GitPath) :
    record ([kind] :: fields) path = kind :: 0x20 :: record fields path := by
  simp [record, Fields.terminated]

theorem splitFields_record {fields : List Bytes} (h : ∀ field ∈ fields, (0x20 : UInt8) ∉ field)
    (path : GitPath) :
    splitFields (record fields path) (fields.length + 1) = fields ++ [path.bytes] :=
  Fields.splitn_fields h path.bytes

theorem TrackedDetails.plain (details : TrackedDetails) :
    ∀ field ∈ details.fields, (0x20 : UInt8) ∉ field ∧ (0x00 : UInt8) ∉ field := by
  simp [TrackedDetails.fields, Field.noSpace, Field.noNul]

theorem StageDetails.plain (details : StageDetails) :
    ∀ field ∈ details.fields, (0x20 : UInt8) ∉ field ∧ (0x00 : UInt8) ∉ field := by
  simp [StageDetails.fields, Field.noSpace, Field.noNul]

/-- A record can be told from its neighbours: it is not empty and holds no NUL. -/
def IsRecord (record : Bytes) : Prop := record ≠ [] ∧ (0x00 : UInt8) ∉ record

theorem isRecord_record {fields : List Bytes} (h : ∀ field ∈ fields, (0x00 : UInt8) ∉ field)
    (path : GitPath) : IsRecord (record fields path) := by
  refine ⟨?_, ?_⟩
  · simp [record, path.notEmpty]
  · intro hmem
    rcases List.mem_append.mp hmem with hfields | hpath
    · obtain ⟨field, hfield, hin⟩ := List.mem_flatMap.mp hfields
      rcases List.mem_append.mp hin with hin | hin
      · exact h field hfield hin
      · exact absurd (List.mem_singleton.mp hin) (by decide)
    · exact path.noNul hpath

theorem Change.isRecord (change : Change) : ∀ record ∈ change.records, IsRecord record := by
  intro record hrecord
  cases change with
  | ordinary xy details path =>
    obtain rfl := List.mem_singleton.mp hrecord
    refine isRecord_record ?_ path
    intro field hfield
    simp only [List.cons_append, List.nil_append, List.mem_cons] at hfield
    rcases hfield with rfl | rfl | hfield
    · decide
    · exact xy.noNul
    · exact (details.plain field hfield).2
  | renamed xy details score path original =>
    simp only [Change.records, List.mem_cons, List.not_mem_nil, or_false] at hrecord
    rcases hrecord with rfl | rfl
    · refine isRecord_record ?_ path
      intro field hfield
      simp only [List.cons_append, List.nil_append, List.mem_cons, List.mem_append,
        List.not_mem_nil, or_false] at hfield
      rcases hfield with rfl | rfl | hfield | rfl
      · decide
      · exact xy.noNul
      · exact (details.plain field hfield).2
      · exact score.noNul
    · exact ⟨original.notEmpty, original.noNul⟩
  | unmerged xy details path =>
    obtain rfl := List.mem_singleton.mp hrecord
    refine isRecord_record ?_ path
    intro field hfield
    simp only [List.cons_append, List.nil_append, List.mem_cons] at hfield
    rcases hfield with rfl | rfl | hfield
    · decide
    · exact xy.noNul
    · exact (details.plain field hfield).2
  | untracked path =>
    obtain rfl := List.mem_singleton.mp hrecord
    exact isRecord_record (by decide) path

theorem ObjectId.ascii (oid : ObjectId) : ∀ byte ∈ oid.bytes, 0x30 ≤ byte ∧ byte < 0x80 := by
  intro byte hbyte
  have hhex := List.all_eq_true.mp oid.hex byte hbyte
  simp only [isHexDigit, Bool.or_eq_true, Bool.and_eq_true, decide_eq_true_eq] at hhex
  rcases hhex with h | h
  · exact ⟨h.1, UInt8.lt_of_le_of_lt h.2 (by decide)⟩
  · exact ⟨UInt8.le_trans (by decide) h.1, UInt8.lt_of_le_of_lt h.2 (by decide)⟩

theorem nul_notMem_decimal (number : Nat) : (0x00 : UInt8) ∉ decimal number := by
  intro h
  exact absurd (digit_of_mem_decimal h) (by decide)

theorem GitBranch.isRecord (branch : GitBranch) : ∀ header ∈ branch.headers, IsRecord header := by
  have hline : ∀ {name value : Bytes}, (0x00 : UInt8) ∉ name → (0x00 : UInt8) ∉ value →
      IsRecord (Utf8.encode "# " ++ (name ++ value)) := by
    intro name value hname hvalue
    have hhash : (0x00 : UInt8) ∉ Utf8.encode "# " := by decide
    have hne : Utf8.encode "# " ≠ [] := by decide
    exact ⟨by simp [hne], by simp [hhash, hname, hvalue]⟩
  have hoid : (0x00 : UInt8) ∉ (branch.oid.map (·.bytes)).getD initialOid := by
    cases branch.oid with
    | none => decide
    | some oid => exact fun hmem => absurd (oid.ascii 0x00 hmem) (by decide)
  have hhead : (0x00 : UInt8) ∉ (branch.head.map (·.bytes)).getD detachedHead := by
    cases branch.head with
    | none => decide
    | some name => exact name.noNul
  have hcounts : ∀ counts, (0x00 : UInt8) ∉ aheadBehind counts := by
    intro counts
    simp [aheadBehind, nul_notMem_decimal]
  intro header hheader
  rcases List.mem_append.mp hheader with hfirst | hupstream
  · simp only [List.mem_cons, List.not_mem_nil, or_false] at hfirst
    rcases hfirst with rfl | rfl
    · exact hline (by decide) hoid
    · exact hline (by decide) hhead
  · rcases hbranch : branch.upstream with _ | ⟨name, _ | counts⟩
    · simp [hbranch] at hupstream
    · simp only [hbranch, List.mem_singleton] at hupstream
      rw [hupstream]
      exact hline (by decide) name.noNul
    · simp only [hbranch, List.mem_cons, List.not_mem_nil, or_false] at hupstream
      rcases hupstream with rfl | rfl
      · exact hline (by decide) name.noNul
      · exact hline (by decide) (hcounts counts)

theorem records_render (branch : GitBranch) (changes : List Change) :
    ((render branch changes).splitOn 0x00).filter (fun record => !record.isEmpty)
      = branch.headers ++ changes.flatMap Change.records := by
  have hrecords : ∀ record ∈ branch.headers ++ changes.flatMap Change.records,
      IsRecord record := by
    intro record hrecord
    rcases List.mem_append.mp hrecord with hheader | hchange
    · exact branch.isRecord record hheader
    · obtain ⟨change, -, hmem⟩ := List.mem_flatMap.mp hchange
      exact change.isRecord record hmem
  have hkept : (branch.headers ++ changes.flatMap Change.records).filter
      (fun record => !record.isEmpty) = branch.headers ++ changes.flatMap Change.records := by
    refine List.filter_eq_self.mpr ?_
    intro record hrecord
    simpa using (hrecords record hrecord).1
  unfold render
  rw [Fields.splitOn_terminated fun record hrecord => (hrecords record hrecord).2,
    List.filter_append, hkept]
  simp

/-! ### Headers -/

theorem lossy_of_valid {bytes : Bytes} (h : Utf8.valid bytes) : Utf8.lossy bytes = bytes :=
  eq_of_beq h

theorem lossy_oid (oid : ObjectId) : Utf8.lossy oid.bytes = oid.bytes :=
  Utf8.lossy_ascii fun byte hbyte => (oid.ascii byte hbyte).2

theorem lossy_decimal (number : Nat) : Utf8.lossy (decimal number) = decimal number :=
  Utf8.lossy_ascii fun _ hbyte =>
    UInt8.lt_of_le_of_lt (digit_of_mem_decimal hbyte).2 (by decide)

theorem parsePrefixedCount_decimal (sign : UInt8) (count : UInt64) :
    parsePrefixedCount (sign :: decimal count.toNat) sign = .ok count := by
  have hsign : [sign].isPrefixOf? (sign :: decimal count.toNat) = some (decimal count.toNat) :=
    Fields.isPrefixOf?_append [sign] _
  have hcount := parseUnsigned_decimal count.toNat_lt
  simp only [parsePrefixedCount, hsign, lossy_decimal, hcount, UInt64.ofNat_toNat]

theorem parseBranchHeader_oid (branch : BranchInfo) (value : Bytes) :
    parseBranchHeader branch (oidHeader ++ value)
      = .ok { branch with oid := if value = initialOid then none else some (Utf8.lossy value) } := by
  simp only [parseBranchHeader, Fields.isPrefixOf?_append]

theorem parseBranchHeader_head (branch : BranchInfo) (value : Bytes) :
    parseBranchHeader branch (headHeader ++ value)
      = .ok { branch with
          name := if value = detachedHead then none else some (Utf8.lossy value) } := by
  have hoid : oidHeader.isPrefixOf? (headHeader ++ value) = none :=
    Fields.isPrefixOf?_other (by decide) (by decide) value
  simp only [parseBranchHeader, hoid, Fields.isPrefixOf?_append]

theorem parseBranchHeader_upstream (branch : BranchInfo) (value : Bytes) :
    parseBranchHeader branch (upstreamHeader ++ value)
      = .ok { branch with upstream := some (Utf8.lossy value) } := by
  have hoid : oidHeader.isPrefixOf? (upstreamHeader ++ value) = none :=
    Fields.isPrefixOf?_other (by decide) (by decide) value
  have hhead : headHeader.isPrefixOf? (upstreamHeader ++ value) = none :=
    Fields.isPrefixOf?_other (by decide) (by decide) value
  simp only [parseBranchHeader, hoid, hhead, Fields.isPrefixOf?_append]

theorem parseBranchHeader_counts (branch : BranchInfo) (counts : UInt64 × UInt64) :
    parseBranchHeader branch (aheadBehindHeader ++ aheadBehind counts)
      = .ok { branch with ahead := counts.1, behind := counts.2 } := by
  have hoid : oidHeader.isPrefixOf? (aheadBehindHeader ++ aheadBehind counts) = none :=
    Fields.isPrefixOf?_other (by decide) (by decide) _
  have hhead : headHeader.isPrefixOf? (aheadBehindHeader ++ aheadBehind counts) = none :=
    Fields.isPrefixOf?_other (by decide) (by decide) _
  have hupstream : upstreamHeader.isPrefixOf? (aheadBehindHeader ++ aheadBehind counts) = none :=
    Fields.isPrefixOf?_other (by decide) (by decide) _
  have hspace : ∀ field ∈ [0x2b :: decimal counts.1.toNat], (0x20 : UInt8) ∉ field := by
    intro field hfield
    obtain rfl := List.mem_singleton.mp hfield
    intro hmem
    rcases List.mem_cons.mp hmem with heq | hmem
    · exact absurd heq (by decide)
    · exact absurd (digit_of_mem_decimal hmem) (by decide)
  have hfields : splitFields (aheadBehind counts) 2
      = [0x2b :: decimal counts.1.toNat, 0x2d :: decimal counts.2.toNat] := by
    have hsplit := Fields.splitn_fields hspace (0x2d :: decimal counts.2.toNat)
    simpa [Fields.terminated, splitFields, aheadBehind] using hsplit
  simp only [parseBranchHeader, hoid, hhead, hupstream, Fields.isPrefixOf?_append, hfields]
  simp [requireFields, index, parsePrefixedCount_decimal, bind, Except.bind, pure, Except.pure]

theorem parseRecords_header (status : ReviewStatus) (entries : Nat) (header : Bytes)
    (rest : List Bytes) :
    parseRecords status entries ((Utf8.encode "# " ++ header) :: rest)
      = (parseBranchHeader status.branch header).bind fun branch =>
          parseRecords { status with branch } entries rest := by
  simp only [parseRecords, Fields.isPrefixOf?_append]
  rfl

theorem parseRecords_headers (branch : GitBranch)
    (hname : branch.head.map (·.bytes) ≠ some detachedHead) (root : Bytes) (rest : List Bytes) :
    parseRecords ⟨root, BranchInfo.default, [], [], [], []⟩ 0 (branch.headers ++ rest)
      = parseRecords ⟨root, branch.info, [], [], [], []⟩ 0 rest := by
  have hoid : (if (branch.oid.map (·.bytes)).getD initialOid = initialOid then none
      else some (Utf8.lossy ((branch.oid.map (·.bytes)).getD initialOid)))
        = branch.oid.map (·.bytes) := by
    cases branch.oid with
    | none => rfl
    | some oid =>
      have hne : oid.bytes ≠ initialOid := by
        intro heq
        have hmem : (0x28 : UInt8) ∈ oid.bytes := heq ▸ by decide
        exact absurd (oid.ascii _ hmem).1 (by decide)
      simp [hne, lossy_oid]
  have hhead : (if (branch.head.map (·.bytes)).getD detachedHead = detachedHead then none
      else some (Utf8.lossy ((branch.head.map (·.bytes)).getD detachedHead)))
        = branch.head.map (·.bytes) := by
    cases hcase : branch.head with
    | none => rfl
    | some name =>
      have hne : name.bytes ≠ detachedHead := by
        intro heq
        exact hname (by rw [hcase, Option.map_some, heq])
      simp [hne, lossy_of_valid name.isText]
  have hfront : ∀ more, parseRecords ⟨root, BranchInfo.default, [], [], [], []⟩ 0
      ((Utf8.encode "# " ++ (oidHeader ++ (branch.oid.map (·.bytes)).getD initialOid)) ::
        (Utf8.encode "# " ++ (headHeader ++ (branch.head.map (·.bytes)).getD detachedHead)) ::
        more)
      = parseRecords ⟨root, ⟨branch.head.map (·.bytes), branch.oid.map (·.bytes), none, 0, 0⟩,
          [], [], [], []⟩ 0 more := by
    intro more
    rw [parseRecords_header, parseBranchHeader_oid, hoid]
    show parseRecords _ _ _ = _
    rw [parseRecords_header, parseBranchHeader_head, hhead]
    rfl
  unfold GitBranch.headers GitBranch.info
  match branch.upstream with
  | none => exact hfront rest
  | some (name, none) =>
    refine (hfront _).trans ?_
    show parseRecords _ 0 ((Utf8.encode "# " ++ (upstreamHeader ++ name.bytes)) :: rest) = _
    rw [parseRecords_header, parseBranchHeader_upstream, lossy_of_valid name.isText]
    rfl
  | some (name, some counts) =>
    refine (hfront _).trans ?_
    show parseRecords _ 0 ((Utf8.encode "# " ++ (upstreamHeader ++ name.bytes)) ::
      (Utf8.encode "# " ++ (aheadBehindHeader ++ aheadBehind counts)) :: rest) = _
    rw [parseRecords_header, parseBranchHeader_upstream, lossy_of_valid name.isText]
    show parseRecords _ _ _ = _
    rw [parseRecords_header, parseBranchHeader_counts]
    rfl

/-! ### Changes -/

/-- The lists of a status with a change put at their ends. -/
def ReviewStatus.add (status : ReviewStatus) (change : Change) : ReviewStatus :=
  { status with
    staged := status.staged ++ change.staged.toList
    unstaged := status.unstaged ++ change.unstaged.toList
    untracked := status.untracked ++ change.notTracked.toList
    conflicted := status.conflicted ++ change.conflicted.toList }

theorem OrdinaryXY.not_isUnmerged (xy : OrdinaryXY) : isUnmerged xy.index xy.worktree = false := by
  have hdeleted : ¬ (xy.index = 0x44 ∧ xy.worktree = 0x44) := by
    intro h
    exact xy.notBothDeleted (by rw [h.1, h.2]; decide)
  have hadded : ¬ (xy.index = 0x41 ∧ xy.worktree = 0x41) := by
    intro h
    exact xy.notBothAdded (by rw [h.1, h.2]; decide)
  have hunmerged := xy.neitherUnmerged
  simp only [List.mem_cons, List.not_mem_nil, or_false, not_or] at hunmerged
  simp only [isUnmerged, Bool.or_eq_false_iff, Bool.and_eq_false_iff, beq_eq_false_iff_ne, ne_eq]
  exact ⟨⟨⟨fun h => hunmerged.1 h.symm, fun h => hunmerged.2 h.symm⟩,
    Classical.not_and_iff_not_or_not.mp hdeleted⟩, Classical.not_and_iff_not_or_not.mp hadded⟩

/-- A change without a conflict goes where its letters are not dots. -/
theorem addTrackedChange_ordinary (status : ReviewStatus) (xy : OrdinaryXY) (path : Bytes)
    (original : Option Bytes) :
    addTrackedChange status [xy.index, xy.worktree] path original false
      = .ok { status with
          staged := status.staged ++ (if xy.index = 0x2e then none
            else some ⟨path, original, changeKind xy.index⟩ : Option FileChange).toList
          unstaged := status.unstaged ++ (if xy.worktree = 0x2e then none
            else some ⟨path, original, changeKind xy.worktree⟩ : Option FileChange).toList } := by
  simp only [addTrackedChange, index, xy.not_isUnmerged, List.length_cons, List.length_nil,
    List.getElem?_cons_zero, List.getElem?_cons_succ, bind, Except.bind, pure, Except.pure,
    Bool.or_false, Bool.false_eq_true, if_false, ne_eq, not_true_eq_false]
  by_cases hindex : xy.index = 0x2e <;> by_cases hworktree : xy.worktree = 0x2e <;>
    simp [hindex, hworktree]

theorem addTrackedChange_unmerged (status : ReviewStatus) (xy : UnmergedXY) (path : Bytes) :
    addTrackedChange status [xy.index, xy.worktree] path none true
      = .ok { status with conflicted := status.conflicted ++ [⟨path, none, .unmerged⟩] } := by
  simp [addTrackedChange, index, bind, Except.bind, pure, Except.pure]

/-- No change begins like a header. -/
theorem not_header {kind : UInt8} (h : kind ≠ 0x23) (tail : Bytes) :
    (Utf8.encode "# ").isPrefixOf? (kind :: tail) = none := by
  have hencode : Utf8.encode "# " = [0x23, 0x20] := by decide
  rw [hencode]
  simp [List.isPrefixOf?, Ne.symm h]

section
variable (status : ReviewStatus) {entries : Nat} (hentries : entries + 1 ≤ maxStatusEntries)
include hentries

theorem parseRecords_ordinary (xy : OrdinaryXY) (details : TrackedDetails) (path : GitPath)
    (rest : List Bytes) :
    parseRecords status entries ((Change.ordinary xy details path).records ++ rest)
      = parseRecords (status.add (.ordinary xy details path)) (entries + 1) rest := by
  have hspace : ∀ field ∈ [[0x31], [xy.index, xy.worktree]] ++ details.fields,
      (0x20 : UInt8) ∉ field := by
    intro field hfield
    simp only [List.cons_append, List.nil_append, List.mem_cons] at hfield
    rcases hfield with rfl | rfl | hfield
    · decide
    · exact xy.noSpace
    · exact (details.plain field hfield).1
  have hfields := splitFields_record hspace path
  simp only [List.cons_append, List.nil_append, TrackedDetails.fields, List.length_cons,
    List.length_nil, record_cons] at hfields
  simp only [Change.records, List.cons_append, List.nil_append, TrackedDetails.fields,
    record_cons, parseRecords, @not_header 0x31 (by decide),
    if_neg (Nat.not_lt.mpr hentries), List.head?_cons, if_true, hfields]
  simp [requireFields, index, addTrackedChange_ordinary, bind, Except.bind, ReviewStatus.add,
    Change.staged, Change.unstaged, Change.notTracked, Change.conflicted]

theorem parseRecords_renamed (xy : OrdinaryXY) (details : TrackedDetails) (score : Field)
    (path original : GitPath) (rest : List Bytes) :
    parseRecords status entries ((Change.renamed xy details score path original).records ++ rest)
      = parseRecords (status.add (.renamed xy details score path original)) (entries + 1)
          rest := by
  have hspace : ∀ field ∈ [[0x32], [xy.index, xy.worktree]] ++ details.fields ++ [score.bytes],
      (0x20 : UInt8) ∉ field := by
    intro field hfield
    simp only [List.cons_append, List.nil_append, List.mem_cons, List.mem_append,
      List.not_mem_nil, or_false] at hfield
    rcases hfield with rfl | rfl | hfield | rfl
    · decide
    · exact xy.noSpace
    · exact (details.plain field hfield).1
    · exact score.noSpace
  have hfields := splitFields_record hspace path
  simp only [List.cons_append, List.nil_append, TrackedDetails.fields, List.length_cons,
    List.length_nil, record_cons] at hfields
  simp only [Change.records, List.cons_append, List.nil_append, TrackedDetails.fields,
    record_cons, parseRecords, @not_header 0x32 (by decide),
    if_neg (Nat.not_lt.mpr hentries), List.head?_cons, if_true, hfields]
  simp [requireFields, index, addTrackedChange_ordinary, bind, Except.bind, ReviewStatus.add,
    Change.staged, Change.unstaged, Change.notTracked, Change.conflicted]

theorem parseRecords_unmerged (xy : UnmergedXY) (details : StageDetails) (path : GitPath)
    (rest : List Bytes) :
    parseRecords status entries ((Change.unmerged xy details path).records ++ rest)
      = parseRecords (status.add (.unmerged xy details path)) (entries + 1) rest := by
  have hspace : ∀ field ∈ [[0x75], [xy.index, xy.worktree]] ++ details.fields,
      (0x20 : UInt8) ∉ field := by
    intro field hfield
    simp only [List.cons_append, List.nil_append, List.mem_cons] at hfield
    rcases hfield with rfl | rfl | hfield
    · decide
    · exact xy.noSpace
    · exact (details.plain field hfield).1
  have hfields := splitFields_record hspace path
  simp only [List.cons_append, List.nil_append, StageDetails.fields, List.length_cons,
    List.length_nil, record_cons] at hfields
  simp only [Change.records, List.cons_append, List.nil_append, StageDetails.fields,
    record_cons, parseRecords, @not_header 0x75 (by decide),
    if_neg (Nat.not_lt.mpr hentries), List.head?_cons, if_true, hfields]
  simp [requireFields, index, addTrackedChange_unmerged, bind, Except.bind, ReviewStatus.add,
    Change.staged, Change.unstaged, Change.notTracked, Change.conflicted]

theorem parseRecords_untracked (path : GitPath) (rest : List Bytes) :
    parseRecords status entries ((Change.untracked path).records ++ rest)
      = parseRecords (status.add (.untracked path)) (entries + 1) rest := by
  simp only [Change.records, List.cons_append, List.nil_append, record_cons, parseRecords,
    @not_header 0x3f (by decide), if_neg (Nat.not_lt.mpr hentries), List.head?_cons]
  simp [sliceFrom, record, Fields.terminated, bind, Except.bind, ReviewStatus.add,
    Change.staged, Change.unstaged, Change.notTracked, Change.conflicted]

theorem parseRecords_change (change : Change) (rest : List Bytes) :
    parseRecords status entries (change.records ++ rest)
      = parseRecords (status.add change) (entries + 1) rest := by
  cases change with
  | ordinary xy details path =>
    exact parseRecords_ordinary status hentries xy details path rest
  | renamed xy details score path original =>
    exact parseRecords_renamed status hentries xy details score path original rest
  | unmerged xy details path =>
    exact parseRecords_unmerged status hentries xy details path rest
  | untracked path => exact parseRecords_untracked status hentries path rest

end

/-- All changes, as long as there are not too many of them. -/
theorem parseRecords_changes (status : ReviewStatus) {entries : Nat} (changes : List Change)
    (hentries : entries + changes.length ≤ maxStatusEntries) :
    parseRecords status entries (changes.flatMap Change.records)
      = .ok { status with
          staged := status.staged ++ changes.filterMap Change.staged
          unstaged := status.unstaged ++ changes.filterMap Change.unstaged
          untracked := status.untracked ++ changes.filterMap Change.notTracked
          conflicted := status.conflicted ++ changes.filterMap Change.conflicted } := by
  induction changes generalizing status entries with
  | nil => simp [parseRecords]
  | cons change changes ih =>
    rw [List.length_cons] at hentries
    have hsplit : ∀ {f : Change → Option FileChange},
        (change :: changes).filterMap f = (f change).toList ++ changes.filterMap f := by
      intro f
      cases h : f change <;> simp [h]
    rw [List.flatMap_cons, parseRecords_change status (by omega), ih _ (by omega)]
    simp only [ReviewStatus.add, hsplit, List.append_assoc]

theorem parseStatus_render (root : Bytes) (branch : GitBranch)
    (hname : branch.head.map (·.bytes) ≠ some detachedHead) (changes : List Change)
    (hcount : changes.length ≤ maxStatusEntries) :
    parseStatus root (render branch changes) = .ok (statusOf root branch changes) := by
  unfold parseStatus
  rw [records_render, parseRecords_headers branch hname,
    parseRecords_changes _ changes (by simpa using hcount)]
  simp [statusOf]

/-! ### No panic -/

def Safe {α : Type} (outcome : Outcome α) : Prop := outcome ≠ .error .panic

theorem safe_ok {α : Type} (value : α) : Safe (.ok value : Outcome α) := by simp [Safe]

theorem safe_malformed {α : Type} (message : MalformedStatus) :
    Safe (malformed message : Outcome α) := by
  simp [Safe, malformed]

theorem Safe.bind {α β : Type} {outcome : Outcome α} (h : Safe outcome) {next : α → Outcome β}
    (hnext : ∀ value, outcome = .ok value → Safe (next value)) : Safe (outcome >>= next) := by
  cases outcome with
  | error failure => exact fun heq => h (by cases heq; rfl)
  | ok value => exact hnext value rfl

theorem index_of_lt {α : Type} {slice : List α} {place : Nat} (h : place < slice.length) :
    index slice place = .ok slice[place] := by
  simp [index, h]

theorem safe_requireFields (fields : List Bytes) (expected : Nat) (description : String) :
    Safe (requireFields fields expected description) := by
  unfold requireFields
  split
  · exact safe_ok ()
  · exact safe_malformed _

theorem length_of_requireFields {fields : List Bytes} {expected : Nat} {description : String}
    (h : requireFields fields expected description = .ok ()) : fields.length = expected := by
  unfold requireFields at h
  split at h
  · assumption
  · exact absurd h (by simp [malformed])

theorem safe_parsePrefixedCount (value : Bytes) (sign : UInt8) :
    Safe (parsePrefixedCount value sign) := by
  unfold parsePrefixedCount
  split
  · exact safe_malformed _
  · split
    · exact safe_malformed _
    · exact safe_ok _

theorem safe_parseBranchHeader (branch : BranchInfo) (header : Bytes) :
    Safe (parseBranchHeader branch header) := by
  unfold parseBranchHeader
  split
  · exact safe_ok _
  · split
    · exact safe_ok _
    · split
      · exact safe_ok _
      · split
        · refine (safe_requireFields _ 2 _).bind fun _ hfields => ?_
          have hlen := length_of_requireFields hfields
          rw [index_of_lt (by omega), index_of_lt (by omega)]
          refine (safe_parsePrefixedCount _ _).bind fun _ _ => ?_
          exact (safe_parsePrefixedCount _ _).bind fun _ _ => safe_ok _
        · exact safe_ok _

theorem safe_addTrackedChange (status : ReviewStatus) (xy path : Bytes)
    (originalPath : Option Bytes) (explicitlyUnmerged : Bool) :
    Safe (addTrackedChange status xy path originalPath explicitlyUnmerged) := by
  unfold addTrackedChange
  split
  · exact safe_malformed _
  · rename_i hlen
    have hlen : xy.length = 2 := not_not.mp hlen
    rw [index_of_lt (by omega), index_of_lt (by omega)]
    simp only [bind, Except.bind, pure, Except.pure]
    split
    · exact safe_ok _
    · exact safe_ok _

theorem safe_tracked {record : Bytes} {count place : Nat} {description : String}
    (hcount : 1 < count) (hplace : place < count) (status : ReviewStatus)
    (originalPath : Option Bytes) (explicitlyUnmerged : Bool)
    {next : ReviewStatus → Outcome ReviewStatus} (hnext : ∀ status, Safe (next status)) :
    Safe (do
      requireFields (splitFields record count) count description
      let status ← addTrackedChange status (← index (splitFields record count) 1)
        (← index (splitFields record count) place) originalPath explicitlyUnmerged
      next status) := by
  refine (safe_requireFields _ _ _).bind fun _ hfields => ?_
  have hlen := length_of_requireFields hfields
  rw [index_of_lt (by omega), index_of_lt (by omega)]
  exact (safe_addTrackedChange _ _ _ _ _).bind fun status _ => hnext status

theorem safe_parseRecords (records : List Bytes) :
    ∀ status entries, Safe (parseRecords status entries records) := by
  induction hlength : records.length using Nat.strongRecOn generalizing records with
  | _ length ih =>
  intro status entries
  cases records with
  | nil => exact safe_ok status
  | cons record rest =>
    subst hlength
    have hrest : ∀ status entries, Safe (parseRecords status entries rest) :=
      ih rest.length (by simp) rest rfl
    unfold parseRecords
    split
    · exact (safe_parseBranchHeader _ _).bind fun _ _ => hrest _ _
    · split
      · simp [Safe]
      · split
        · exact hrest _ _
        · split
          · exact safe_tracked (by omega) (by omega) _ _ _ fun _ => hrest _ _
          · split
            · -- A rename takes the next record with it, when there is one.
              dsimp only
              split
              · rename_i hfields
                exact fun heq => safe_requireFields _ 10 _ (by rw [hfields, Except.error.inj heq])
              · exact safe_malformed _
              · rename_i original rest hfields
                have hlen := length_of_requireFields hfields
                rw [index_of_lt (by omega), index_of_lt (by omega)]
                refine (safe_addTrackedChange _ _ _ _ _).bind fun _ _ => ?_
                have hshorter : rest.length < (record :: original :: rest).length := by
                  simp only [List.length_cons]
                  omega
                exact ih rest.length hshorter rest rfl _ _
            · split
              · exact safe_tracked (by omega) (by omega) _ _ _ fun _ => hrest _ _
              · split
                · rename_i hpath
                  have hlen : 2 ≤ record.length :=
                    (List.getElem?_eq_some_iff.mp hpath.2).1
                  have hslice : sliceFrom record 2 = .ok (record.drop 2) := if_pos hlen
                  rw [hslice]
                  exact hrest _ _
                · exact safe_malformed _

/-- What git writes of a branch and as many as 20000 changes is read as them, in their order,
unless the branch has the name that stands for a detached head; and no bytes make the reading
panic. -/
theorem parseStatus_inverts (root : Bytes) :
    (∀ (branch : GitBranch) (changes : List Change),
      branch.head.map (·.bytes) ≠ some (Utf8.encode "(detached)") → changes.length ≤ 20000 →
        parseStatus root (render branch changes) = .ok (statusOf root branch changes)) ∧
    ∀ bytes, parseStatus root bytes ≠ .error .panic := by
  refine ⟨?_, fun bytes => safe_parseRecords _ _ _⟩
  intro branch changes hname hcount
  exact parseStatus_render root branch hname changes hcount

/-- An untracked path that looks like a header, on a branch that is ahead. -/
theorem parseStatus_inverts_untracked :
    parseStatus [] (render
      ⟨some ⟨Utf8.encode "1f", by decide⟩,
        some ⟨Utf8.encode "main", by decide, by decide⟩,
        some (⟨Utf8.encode "origin/main", by decide, by decide⟩, some (2, 0))⟩
      [.untracked ⟨Utf8.encode "# 1 a", by decide, by decide⟩])
      = .ok (statusOf []
        ⟨some ⟨Utf8.encode "1f", by decide⟩,
          some ⟨Utf8.encode "main", by decide, by decide⟩,
          some (⟨Utf8.encode "origin/main", by decide, by decide⟩, some (2, 0))⟩
        [.untracked ⟨Utf8.encode "# 1 a", by decide, by decide⟩]) :=
  (parseStatus_inverts []).1 _ _ (by decide) (by decide)

/-- A branch may be called `(detached)`; it is read as a detached head. -/
theorem detached_name_is_lost :
    ¬ ∀ (root : Bytes) (branch : GitBranch) (changes : List Change), changes.length ≤ 20000 →
      parseStatus root (render branch changes) = .ok (statusOf root branch changes) := by
  intro h
  have hread := h [] ⟨none, some ⟨Utf8.encode "(detached)", by decide, by decide⟩,
    none⟩ [] (by decide)
  exact absurd hread (by decide)

end Homie.App.GitReview
