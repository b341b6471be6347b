/-
The inspector's reading of a unified diff: `homie-app/src/diff/parse.rs` and the records of
`diff/mod.rs` that it fills, and the two tests for a patch that creates a file
(`inspector/projection.rs` and `git_review/paths.rs`).

A text is its bytes.  `step` is the body of the loop over the patch's lines, with the loop's
variables as a state.
-/
import Homie.Lib.Fields
import Homie.Lib.Lines
import Homie.Lib.Numerals
import Homie.Lib.Text

namespace Homie.App.Diff

abbrev Bytes := List UInt8

inductive DiffLayer where
  | branch
  | staged
  | working
deriving DecidableEq, Repr

/-- `other` is the code's `Meta`. -/
inductive DiffRowKind where
  | file
  | hunk
  | context
  | addition
  | deletion
  | other
deriving DecidableEq, Repr

structure DiffRow where
  kind : DiffRowKind
  oldLine : Option UInt32
  newLine : Option UInt32
  text : Bytes
deriving DecidableEq, Repr

/-- Rows from one up to another. -/
structure RowRange where
  start : Nat
  stop : Nat
deriving DecidableEq, Repr

/-- A whole, independently applicable unified-diff hunk; its patch repeats the complete file
preamble. -/
structure DiffHunk where
  header : Bytes
  rowRange : RowRange
  oldStart : Option UInt32
  newStart : Option UInt32
  additions : Nat
  deletions : Nat
  patch : Bytes
  fingerprint : UInt64
deriving DecidableEq, Repr

structure DiffFile where
  path : Bytes
  rowRange : RowRange
  additions : Nat
  deletions : Nat
  hunks : List DiffHunk
deriving DecidableEq, Repr

structure DiffSnapshot where
  repoRoot : Bytes
  baseRef : Option Bytes
  layer : DiffLayer
  rows : List DiffRow
  fileDiffs : List DiffFile
  files : Nat
  additions : Nat
  deletions : Nat
  maxTextColumns : Nat
  truncated : Bool
deriving DecidableEq, Repr

def DiffSnapshot.default : DiffSnapshot := ⟨[], none, .branch, [], [], 0, 0, 0, 0, false⟩

/-- The variables of the loop. -/
structure ParserState where
  snapshot : DiffSnapshot
  oldLine : Option UInt32
  newLine : Option UInt32
  currentFile : Option Nat
  currentHunk : Option (Nat × Nat)
  filePreamble : Bytes
deriving DecidableEq, Repr

/-! ### Rows, hunks and files -/

def diffHeader : Bytes := Utf8.encode "diff --git "
def hunkHeader : Bytes := Utf8.encode "@@"
def oldFileHeader : Bytes := Utf8.encode "--- "
def newFileHeader : Bytes := Utf8.encode "+++ "

/-- The line without its line feed and the carriage return before it. -/
def trimPatchLine (line : Bytes) : Bytes :=
  Lines.stripCr (if line.getLast? = some 0x0a then line.dropLast else line)

/-- The number of characters: bytes that continue none. -/
def charCount (text : Bytes) : Nat := text.countP fun byte => byte < 0x80 || 0xc0 ≤ byte

def pushRow (snapshot : DiffSnapshot) (row : DiffRow) : DiffSnapshot :=
  { snapshot with
    maxTextColumns := max snapshot.maxTextColumns (min (charCount row.text) 500)
    rows := snapshot.rows ++ [row] }

def fnv1a64 (bytes : Bytes) : UInt64 :=
  bytes.foldl (fun hash byte => (hash ^^^ byte.toUInt64) * 0x100000001b3) 0xcbf29ce484222325

def DiffSnapshot.modifyFile (snapshot : DiffSnapshot) (file : Nat) (f : DiffFile → DiffFile) :
    DiffSnapshot :=
  { snapshot with fileDiffs := snapshot.fileDiffs.modify file f }

def DiffSnapshot.modifyHunk (snapshot : DiffSnapshot) (place : Nat × Nat)
    (f : DiffHunk → DiffHunk) : DiffSnapshot :=
  snapshot.modifyFile place.1 fun file => { file with hunks := file.hunks.modify place.2 f }

/-- `Option::map`, for a change of the snapshot at a place that is there or not. -/
def DiffSnapshot.modifyAt {α : Type} (snapshot : DiffSnapshot) (place : Option α)
    (modify : DiffSnapshot → α → DiffSnapshot) : DiffSnapshot :=
  match place with
  | none => snapshot
  | some place => modify snapshot place

def finishHunk (state : ParserState) : ParserState :=
  { state with
    snapshot := state.snapshot.modifyAt state.currentHunk fun snapshot place =>
      snapshot.modifyHunk place fun hunk =>
        { hunk with
          rowRange := { hunk.rowRange with stop := snapshot.rows.length }
          fingerprint := fnv1a64 hunk.patch }
    currentHunk := none }

def finishFile (state : ParserState) : ParserState :=
  { state with
    snapshot := state.snapshot.modifyAt state.currentFile fun snapshot file =>
      snapshot.modifyFile file fun file =>
        { file with rowRange := { file.rowRange with stop := snapshot.rows.length } }
    currentFile := none }

/-! ### Headers -/

/-- `str::trim_matches`. -/
def trimMatches (byte : UInt8) (text : Bytes) : Bytes :=
  ((text.dropWhile (· == byte)).reverse.dropWhile (· == byte)).reverse

def diffPath (header : Bytes) : Bytes :=
  trimMatches 0x22
    (match Fields.rsplitOnce (Utf8.encode " b/") header with
      | some (_, path) => path
      | none =>
        match Fields.rsplitOnce (Utf8.encode " \"b/") header with
        | some (_, path) => path
        | none => header)

def rangeStart (field : Bytes) (sign : UInt8) : Option UInt32 :=
  match field with
  | [] => none
  | byte :: range =>
    if byte = sign then
      (parseUnsigned (2 ^ 32) (range.takeWhile (· != 0x2c))).map UInt32.ofNat
    else none

def parseHunkStart (header : Bytes) : Option UInt32 × Option UInt32 :=
  let fields := Words.words header
  (fields[1]?.bind (rangeStart · 0x2d), fields[2]?.bind (rangeStart · 0x2b))

/-! ### The loop -/

/-- `u32::saturating_add(1)` -/
def saturatingSucc (line : UInt32) : UInt32 := if line = 0xffffffff then line else line + 1

def startFile (state : ParserState) (rawLine header : Bytes) : ParserState :=
  let state := finishFile (finishHunk state)
  let path := diffPath header
  let rowStart := state.snapshot.rows.length
  let snapshot := { state.snapshot with
    files := state.snapshot.files + 1
    fileDiffs := state.snapshot.fileDiffs ++ [⟨path, ⟨rowStart, rowStart⟩, 0, 0, []⟩] }
  { snapshot := pushRow snapshot ⟨.file, none, none, Utf8.lossy path⟩
    oldLine := none
    newLine := none
    currentFile := some (snapshot.fileDiffs.length - 1)
    currentHunk := none
    filePreamble := rawLine }

def startHunk (state : ParserState) (rawLine line : Bytes) : ParserState :=
  let state := finishHunk state
  let (old, new) := parseHunkStart line
  let rowStart := state.snapshot.rows.length
  let hunk : DiffHunk :=
    ⟨line, ⟨rowStart, rowStart⟩, old, new, 0, 0, state.filePreamble ++ rawLine, 0⟩
  let snapshot := state.snapshot.modifyAt state.currentFile fun snapshot file =>
    snapshot.modifyFile file fun file => { file with hunks := file.hunks ++ [hunk] }
  { state with
    snapshot := pushRow snapshot ⟨.hunk, none, none, line⟩
    oldLine := old
    newLine := new
    currentHunk := state.currentFile.map fun file =>
      (file, ((snapshot.fileDiffs[file]?.map (·.hunks.length)).getD 0) - 1) }

/-- The line goes to the open hunk's patch, or to the preamble. -/
def keepLine (state : ParserState) (rawLine : Bytes) : ParserState :=
  match state.currentHunk with
  | some place =>
    { state with
      snapshot := state.snapshot.modifyHunk place fun hunk =>
        { hunk with patch := hunk.patch ++ rawLine } }
  | none =>
    if state.currentFile.isSome then
      -- Everything before the first hunk is part of the complete file preamble.
      { state with filePreamble := state.filePreamble ++ rawLine }
    else state

def countAddition (state : ParserState) : DiffSnapshot :=
  let snapshot := { state.snapshot with additions := state.snapshot.additions + 1 }
  let snapshot := snapshot.modifyAt state.currentFile fun snapshot file =>
    snapshot.modifyFile file fun file => { file with additions := file.additions + 1 }
  snapshot.modifyAt state.currentHunk fun snapshot place =>
    snapshot.modifyHunk place fun hunk => { hunk with additions := hunk.additions + 1 }

def countDeletion (state : ParserState) : DiffSnapshot :=
  let snapshot := { state.snapshot with deletions := state.snapshot.deletions + 1 }
  let snapshot := snapshot.modifyAt state.currentFile fun snapshot file =>
    snapshot.modifyFile file fun file => { file with deletions := file.deletions + 1 }
  snapshot.modifyAt state.currentHunk fun snapshot place =>
    snapshot.modifyHunk place fun hunk => { hunk with deletions := hunk.deletions + 1 }

/-- A line that is no header, once it is kept. -/
def readLine (state : ParserState) (line : Bytes) : ParserState :=
  if oldFileHeader.isPrefixOf line || newFileHeader.isPrefixOf line then state
  else
    match line with
    | 0x2b :: text =>
      { state with
        snapshot := pushRow (countAddition state) ⟨.addition, none, state.newLine, text⟩
        newLine := state.newLine.map saturatingSucc }
    | 0x2d :: text =>
      { state with
        snapshot := pushRow (countDeletion state) ⟨.deletion, state.oldLine, none, text⟩
        oldLine := state.oldLine.map saturatingSucc }
    | 0x20 :: text =>
      { state with
        snapshot := pushRow state.snapshot ⟨.context, state.oldLine, state.newLine, text⟩
        oldLine := state.oldLine.map saturatingSucc
        newLine := state.newLine.map saturatingSucc }
    | line => { state with snapshot := pushRow state.snapshot ⟨.other, none, none, line⟩ }

def step (state : ParserState) (rawLine : Bytes) : ParserState :=
  let line := Utf8.lossy (trimPatchLine rawLine)
  match diffHeader.isPrefixOf? line with
  | some header => startFile state rawLine header
  | none =>
    if hunkHeader.isPrefixOf line then startHunk state rawLine line
    else readLine (keepLine state rawLine) line

def ParserState.start : ParserState := ⟨DiffSnapshot.default, none, none, none, none, []⟩

def parseUnifiedDiffBytes (patch : Bytes) : DiffSnapshot :=
  (finishFile (finishHunk
    ((Fields.splitInclusive 0x0a patch).foldl step ParserState.start))).snapshot

/-! ### Patches that create a file -/

def devNull : Bytes := Utf8.encode "--- /dev/null"

namespace Inspector

/-- `patch_creates_file` of the inspector, which shows a Discard button when it is false. -/
def patchCreatesFile (patch : Bytes) : Bool := patch.tails.any devNull.isPrefixOf

end Inspector

namespace GitReview

/-- `patch_creates_file` of the review, which refuses a Discard when it is true. -/
def patchCreatesFile (patch : Bytes) : Bool :=
  (patch.splitOn 0x0a).any fun line =>
    Lines.stripCr line == devNull || (Utf8.encode "new file mode ").isPrefixOf line

end GitReview

end Homie.App.Diff

/-! ### The patch that the inspector loads: `homie-app/src/diff/load.rs`

Git is a parameter: what a run with some arguments gives, or why it cannot be started.  The
outputs are put behind each other up to one byte more than `maxDiffBytes`, and cut there before
they are read.
-/

namespace Homie.App.Diff

def maxDiffBytes : Nat := 16 * 1024 * 1024
def maxUntrackedFiles : Nat := 200

/-- What a run of git leaves behind; no code is a run that a signal ended. -/
structure GitOutput where
  code : Option Int
  stdout : Bytes
  stderr : Bytes
deriving DecidableEq, Repr

def GitOutput.success (output : GitOutput) : Bool := output.code == some 0

/-- Git as a function of its arguments, with the text of what keeps it from being started. -/
abbrev Git := List Bytes → Except Bytes GitOutput

/-- What the message of a failed run shows: what git says, or how it ended. -/
inductive GitMessage where
  | text (text : Bytes)
  | exited (code : Option Int)
deriving DecidableEq, Repr

inductive DiffError where
  | notRepository
  | git (message : GitMessage)
deriving DecidableEq, Repr

inductive LocalDiffSource where
  | defaultBranch
  | head
  | staged
  | working
deriving DecidableEq, Repr

inductive SessionDiffBase where
  | head
  | defaultBranch
deriving DecidableEq, Repr

def runGit (git : Git) (args : List Bytes) : Except DiffError GitOutput :=
  match git args with
  | .error error => .error (.git (.text error))
  | .ok output => .ok output

def arguments (args : List String) : List Bytes := args.map Utf8.encode

def gitFailure (output : GitOutput) : DiffError :=
  let stderr := Words.trim (Utf8.lossy output.stderr)
  .git (if stderr.isEmpty then .exited output.code else .text stderr)

/-! ### What the branch is compared with -/

structure ComparisonResolution where
  label : Bytes
  commit : Bytes
deriving DecidableEq, Repr

def headResolution : ComparisonResolution := ⟨Utf8.encode "HEAD", Utf8.encode "HEAD"⟩

/-- `is_ok_and(|output| output.status.success())` -/
def succeeds (git : Git) (args : List Bytes) : Bool :=
  match runGit git args with
  | .error _ => false
  | .ok output => output.success

def resolveDefaultBranchRef (git : Git) : Option Bytes :=
  let originHead : Option Bytes :=
    match runGit git
      (arguments ["symbolic-ref", "--quiet", "--short", "refs/remotes/origin/HEAD"]) with
    | .error _ => none
    | .ok output =>
      if output.success then
        let candidate := Words.trim (Utf8.lossy output.stdout)
        if candidate.isEmpty then none else some candidate
      else none
  (originHead.toList ++ arguments ["origin/main", "main", "origin/master", "master"]).find?
    fun candidate => succeeds git
      (arguments ["rev-parse", "--verify", "--quiet"] ++
        [candidate ++ Utf8.encode "^\x7bcommit\x7d"])

def resolveComparison (git : Git) (comparison : SessionDiffBase) :
    Except DiffError ComparisonResolution :=
  if comparison = .head then .ok headResolution
  else
    match resolveDefaultBranchRef git with
    | none => .ok headResolution
    | some baseRef => do
      let mergeBase ← runGit git [Utf8.encode "merge-base", baseRef, Utf8.encode "HEAD"]
      let commit := Words.trim (Utf8.lossy mergeBase.stdout)
      if mergeBase.success ∧ commit ≠ [] then return ⟨baseRef, commit⟩
      else return headResolution

/-! ### The patch -/

def appendBytes (patch bytes : Bytes) : Bytes :=
  patch ++ bytes.take (maxDiffBytes + 1 - patch.length)

def appendOutput (git : Git) (patch : Bytes) (args : List Bytes) : Except DiffError Bytes := do
  let output ← runGit git args
  if output.success then return appendBytes patch output.stdout
  else throw (gitFailure output)

/-- `git diff` with the options that every lane shares. -/
def diffArguments (rest : List Bytes) : List Bytes :=
  arguments ["diff", "--no-ext-diff", "--no-color", "--unified=3"] ++ rest

def cachedArguments : List Bytes := diffArguments (arguments ["--cached", "--"])

def workingArguments : List Bytes := diffArguments (arguments ["--"])

def untrackedArguments (path : Bytes) : List Bytes :=
  arguments ["diff", "--no-index", "--no-color", "--unified=3", "--", "/dev/null"] ++ [path]

/-- The loop over the untracked files. -/
def appendUntrackedPaths (git : Git) (patch : Bytes) : List Bytes → Except DiffError Bytes
  | [] => .ok patch
  | path :: paths =>
    if maxDiffBytes ≤ patch.length then .ok patch
    else do
      let output ← runGit git (untrackedArguments path)
      -- `git diff --no-index` returns 1 when it found a difference.
      if !output.success && output.code != some 1 then throw (gitFailure output)
      appendUntrackedPaths git (appendBytes patch output.stdout) paths

def untrackedPaths (stdout : Bytes) : List Bytes :=
  ((stdout.splitOn 0x00).filter fun path => !path.isEmpty).take maxUntrackedFiles

def listArguments : List Bytes := arguments ["ls-files", "--others", "--exclude-standard", "-z"]

def appendUntrackedDiffs (git : Git) (patch : Bytes) : Except DiffError Bytes := do
  let untracked ← runGit git listArguments
  if !untracked.success then throw (gitFailure untracked)
  appendUntrackedPaths git patch (untrackedPaths untracked.stdout)

/-- The lanes of tracked files, and the label of what they are compared with. -/
def appendTrackedDiffs (git : Git) (source : LocalDiffSource) :
    Except DiffError (Bytes × Option Bytes) := do
  let hasHead := succeeds git (arguments ["rev-parse", "--verify", "HEAD"])
  match source, hasHead with
  | .defaultBranch, true =>
    let resolution ← resolveComparison git .defaultBranch
    let patch ← appendOutput git [] (diffArguments [resolution.commit, Utf8.encode "--"])
    return (patch, some resolution.label)
  | .head, true =>
    let patch ← appendOutput git [] (diffArguments (arguments ["HEAD", "--"]))
    return (patch, some (Utf8.encode "HEAD"))
  | .staged, true =>
    let patch ← appendOutput git [] (diffArguments (arguments ["--cached", "HEAD", "--"]))
    return (patch, some (Utf8.encode "HEAD"))
  | .staged, false =>
    let patch ← appendOutput git [] cachedArguments
    return (patch, none)
  | .working, _ =>
    let patch ← appendOutput git [] workingArguments
    return (patch, none)
  | .defaultBranch, false | .head, false =>
    -- An unborn branch has no comparison commit: both lanes, one behind the other.
    let patch ← appendOutput git [] cachedArguments
    let patch ← appendOutput git patch workingArguments
    return (patch, none)

def truncationRow : DiffRow := ⟨.other, none, none, Utf8.encode "Diff truncated at 16 MB"⟩

def loadDiffFromRepository (git : Git) (repoRoot : Bytes) (layer : DiffLayer)
    (source : LocalDiffSource) : Except DiffError DiffSnapshot := do
  let (patch, baseRef) ← appendTrackedDiffs git source
  let patch ← if source = .staged then pure patch else appendUntrackedDiffs git patch
  let truncated := decide (maxDiffBytes < patch.length)
  let snapshot := parseUnifiedDiffBytes (patch.take maxDiffBytes)
  return { snapshot with
    repoRoot
    baseRef
    layer
    truncated
    rows := if truncated then snapshot.rows ++ [truncationRow] else snapshot.rows }

end Homie.App.Diff
