/-
The review's reading of `git status --porcelain=v2 --branch -z`: `homie-app/src/git_review/status.rs`
and the records of `git_review/mod.rs` that it fills.

A text is its bytes.  An index or a slice out of range is `Failure.panic`; an error keeps the texts
and numbers that its message shows.
-/
import Homie.Lib.Numerals
import Homie.Lib.Fields

namespace Homie.App.GitReview

abbrev Bytes := List UInt8

def maxStatusEntries : Nat := 20000

/-! ### What the status is -/

inductive ChangeKind where
  | added
  | modified
  | deleted
  | renamed
  | copied
  | typeChanged
  | unmerged
  | unknown (value : Char)
deriving DecidableEq, Repr

structure FileChange where
  path : Bytes
  originalPath : Option Bytes
  kind : ChangeKind
deriving DecidableEq, Repr

/-- No name is a detached head, no object id an unborn branch. -/
structure BranchInfo where
  name : Option Bytes
  oid : Option Bytes
  upstream : Option Bytes
  ahead : UInt64
  behind : UInt64
deriving DecidableEq, Repr

def BranchInfo.default : BranchInfo := ⟨none, none, none, 0, 0⟩

structure ReviewStatus where
  repoRoot : Bytes
  branch : BranchInfo
  staged : List FileChange
  unstaged : List FileChange
  untracked : List FileChange
  conflicted : List FileChange
deriving DecidableEq, Repr

/-- What is wrong with a status, with what the message shows of it. -/
inductive MalformedStatus where
  | unknownKind (kind : Char)
  | noOriginalPath
  | fields (description : String) (count expected : Nat)
  | notTwoBytes (xy : Bytes)
  | wrongPrefix (value : Bytes)
  | notANumber (value : Bytes)
deriving DecidableEq, Repr

inductive GitReviewError where
  | outputTooLarge (operation : String) (limit : Nat)
  | malformedStatus (message : MalformedStatus)
deriving DecidableEq, Repr

inductive Failure where
  | error (error : GitReviewError)
  | panic
deriving DecidableEq, Repr

abbrev Outcome := Except Failure

def malformed {α : Type} (message : MalformedStatus) : Outcome α :=
  .error (.error (.malformedStatus message))

/-- `slice[index]` -/
def index {α : Type} (slice : List α) (index : Nat) : Outcome α :=
  match slice[index]? with
  | some value => .ok value
  | none => .error .panic

/-- `&slice[start..]` -/
def sliceFrom (slice : Bytes) (start : Nat) : Outcome Bytes :=
  if start ≤ slice.length then .ok (slice.drop start) else .error .panic

/-! ### The branch -/

def splitFields (bytes : Bytes) (count : Nat) : List Bytes := Fields.splitn 0x20 count bytes

def requireFields (fields : List Bytes) (expected : Nat) (description : String) : Outcome Unit :=
  if fields.length = expected then .ok ()
  else malformed (.fields description fields.length expected)

def parsePrefixedCount (value : Bytes) (sign : UInt8) : Outcome UInt64 :=
  match [sign].isPrefixOf? value with
  | none => malformed (.wrongPrefix (Utf8.lossy value))
  | some number =>
    match parseUnsigned (2 ^ 64) (Utf8.lossy number) with
    | none => malformed (.notANumber (Utf8.lossy value))
    | some count => .ok (UInt64.ofNat count)

def oidHeader : Bytes := Utf8.encode "branch.oid "
def headHeader : Bytes := Utf8.encode "branch.head "
def upstreamHeader : Bytes := Utf8.encode "branch.upstream "
def aheadBehindHeader : Bytes := Utf8.encode "branch.ab "
def initialOid : Bytes := Utf8.encode "(initial)"
def detachedHead : Bytes := Utf8.encode "(detached)"

def parseBranchHeader (branch : BranchInfo) (header : Bytes) : Outcome BranchInfo :=
  match oidHeader.isPrefixOf? header with
  | some value =>
    .ok { branch with oid := if value = initialOid then none else some (Utf8.lossy value) }
  | none =>
  match headHeader.isPrefixOf? header with
  | some value =>
    .ok { branch with name := if value = detachedHead then none else some (Utf8.lossy value) }
  | none =>
  match upstreamHeader.isPrefixOf? header with
  | some value => .ok { branch with upstream := some (Utf8.lossy value) }
  | none =>
  match aheadBehindHeader.isPrefixOf? header with
  | some value => do
    let fields := splitFields value 2
    requireFields fields 2 "branch ahead/behind header"
    let ahead ← parsePrefixedCount (← index fields 0) 0x2b
    let behind ← parsePrefixedCount (← index fields 1) 0x2d
    return { branch with ahead, behind }
  | none => .ok branch

/-! ### The changes -/

def changeKind (value : UInt8) : ChangeKind :=
  if value = 0x41 then .added
  else if value = 0x4d then .modified
  else if value = 0x44 then .deleted
  else if value = 0x52 then .renamed
  else if value = 0x43 then .copied
  else if value = 0x54 then .typeChanged
  else if value = 0x55 then .unmerged
  else .unknown (Char.ofNat value.toNat)

def isUnmerged (index worktree : UInt8) : Bool :=
  index == 0x55 || worktree == 0x55 || (index == 0x44 && worktree == 0x44)
    || (index == 0x41 && worktree == 0x41)

def addTrackedChange (status : ReviewStatus) (xy path : Bytes) (originalPath : Option Bytes)
    (explicitlyUnmerged : Bool) : Outcome ReviewStatus :=
  if xy.length ≠ 2 then malformed (.notTwoBytes (Utf8.lossy xy))
  else do
    let indexKind ← index xy 0
    let worktreeKind ← index xy 1
    if explicitlyUnmerged || isUnmerged indexKind worktreeKind then
      return { status with conflicted := status.conflicted ++ [⟨path, originalPath, .unmerged⟩] }
    let status := if indexKind ≠ 0x2e then
        { status with staged := status.staged ++ [⟨path, originalPath, changeKind indexKind⟩] }
      else status
    return if worktreeKind ≠ 0x2e then
        { status with unstaged := status.unstaged ++
            [⟨path, originalPath, changeKind worktreeKind⟩] }
      else status

/-- The loop over the records, from one of them on.  A rename takes the next record with it, as
its original path. -/
def parseRecords (status : ReviewStatus) (entries : Nat) : List Bytes → Outcome ReviewStatus
  | [] => .ok status
  | record :: rest =>
    match (Utf8.encode "# ").isPrefixOf? record with
    | some header => do
      let branch ← parseBranchHeader status.branch header
      parseRecords { status with branch } entries rest
    | none =>
      if maxStatusEntries < entries + 1 then
        .error (.error (.outputTooLarge "reading status" maxStatusEntries))
      else
        match record.head? with
        | none => parseRecords status (entries + 1) rest
        | some kind =>
          if kind = 0x31 then do
            let fields := splitFields record 9
            requireFields fields 9 "ordinary entry"
            let status ← addTrackedChange status (← index fields 1) (← index fields 8) none
              false
            parseRecords status (entries + 1) rest
          else if kind = 0x32 then
            let fields := splitFields record 10
            match requireFields fields 10 "rename/copy entry", rest with
            | .error failure, _ => .error failure
            | .ok (), [] => malformed .noOriginalPath
            | .ok (), original :: rest => do
              let status ← addTrackedChange status (← index fields 1) (← index fields 9)
                (some original) false
              parseRecords status (entries + 1) rest
          else if kind = 0x75 then do
            let fields := splitFields record 11
            requireFields fields 11 "unmerged entry"
            let status ← addTrackedChange status (← index fields 1) (← index fields 10) none
              true
            parseRecords status (entries + 1) rest
          else if kind = 0x3f ∧ record[1]? = some 0x20 then do
            let path ← sliceFrom record 2
            parseRecords
              { status with untracked := status.untracked ++ [⟨path, none, .added⟩] }
              (entries + 1) rest
          else malformed (.unknownKind (Char.ofNat kind.toNat))

def parseStatus (root bytes : Bytes) : Outcome ReviewStatus :=
  parseRecords ⟨root, BranchInfo.default, [], [], [], []⟩ 0
    ((bytes.splitOn 0x00).filter fun record => !record.isEmpty)

end Homie.App.GitReview
