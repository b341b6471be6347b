/-
The receiver's copy of a remote screen: `homie-terminal-state/src/mirror.rs`.

A mirror accepts a full snapshot as a new baseline and then only contiguous sequenced
diffs.  A method that takes `&mut self` and can fail returns the new mirror or the
error; on an error the old mirror stands.

That an error leaves the old mirror is a fact about the order of the source's statements,
so the two methods are also written down as they run, over a mirror that each statement
changes in place.
-/
import Homie.Proto.Grid
import Homie.Lib.RowMajor

namespace Homie

structure GridMirror where
  cells : List GridCell
  cols : UInt16
  rows : UInt16
  cursorCol : UInt16
  cursorRow : UInt16
  cursorVisible : Bool
  sequence : Option UInt64
  altScreen : Bool
  bracketedPaste : Bool
  mouseReporting : Bool
deriving DecidableEq, Repr

inductive MirrorError where
  | snapshotRequired
  | sequenceGap (expected actual : UInt64)
  | sequenceOverflow
  | invalidGrid (detail : String)
deriving DecidableEq, Repr

def validateGrid (grid : GridUpdate) : Except MirrorError Unit :=
  if grid.cols = 0 ∨ grid.rows = 0 then .error (.invalidGrid "dimensions must be non-zero")
  else if grid.cursorCol ≥ grid.cols ∨ grid.cursorRow ≥ grid.rows then
    .error (.invalidGrid "cursor is outside the grid")
  else if grid.changedRows.any fun row =>
      row.y ≥ grid.rows || row.cells.length != grid.cols.toNat then
    .error (.invalidGrid "changed row is outside the grid or has the wrong width")
  else .ok ()

namespace GridMirror

def new : GridMirror := ⟨[], 0, 0, 0, 0, false, none, false, false, false⟩

def updateMetadata (mirror : GridMirror) (grid : GridUpdate) : GridMirror :=
  { mirror with
    cols := grid.cols
    rows := grid.rows
    cursorCol := grid.cursorCol
    cursorRow := grid.cursorRow
    cursorVisible := grid.cursorVisible }

/-- The part that accepting a snapshot and accepting a delta share. -/
def accept (mirror : GridMirror) (sequence : UInt64) (grid : GridUpdate)
    (altScreen bracketedPaste mouseReporting : Bool) : GridMirror :=
  { ({ mirror with cells := grid.apply mirror.cells }.updateMetadata grid) with
    sequence := some sequence, altScreen, bracketedPaste, mouseReporting }

def applySnapshot (mirror : GridMirror) (sequence : UInt64) (grid : GridUpdate)
    (altScreen bracketedPaste mouseReporting : Bool) : Except MirrorError GridMirror := do
  if !grid.isFullSnapshot then throw .snapshotRequired
  validateGrid grid
  pure (mirror.accept sequence grid altScreen bracketedPaste mouseReporting)

def applyDelta (mirror : GridMirror) (sequence : UInt64) (grid : GridUpdate)
    (altScreen bracketedPaste mouseReporting : Bool) : Except MirrorError GridMirror := do
  let some previous := mirror.sequence | throw .snapshotRequired
  if previous.toNat + 1 ≥ 2 ^ 64 then throw .sequenceOverflow
  let expected := previous + 1
  if sequence ≠ expected then throw (.sequenceGap expected sequence)
  if grid.isFullSnapshot ∨ grid.cols ≠ mirror.cols ∨ grid.rows ≠ mirror.rows then
    throw .snapshotRequired
  validateGrid grid
  pure (mirror.accept sequence grid altScreen bracketedPaste mouseReporting)

def size (mirror : GridMirror) : UInt16 × UInt16 := (mirror.cols, mirror.rows)

def cursor (mirror : GridMirror) : UInt16 × UInt16 × Bool :=
  (mirror.cursorCol, mirror.cursorRow, mirror.cursorVisible)

def modes (mirror : GridMirror) : Bool × Bool × Bool :=
  (mirror.altScreen, mirror.bracketedPaste, mirror.mouseReporting)

def fullUpdate (mirror : GridMirror) : Option GridUpdate :=
  let cols := mirror.cols.toNat
  let rows := mirror.rows.toNat
  if mirror.sequence.isNone ∨ mirror.cells.length ≠ cols * rows then none
  else some
    { cols := mirror.cols
      rows := mirror.rows
      cursorCol := mirror.cursorCol
      cursorRow := mirror.cursorRow
      cursorVisible := mirror.cursorVisible
      isFullSnapshot := true
      changedRows := (List.range rows).map fun row =>
        ⟨UInt16.ofNat row, RowMajor.rowAt cols mirror.cells row⟩ }

/-! ### The two methods, statement by statement -/

/-- A method on `&mut self` that can fail: what was assigned before an error stays. -/
abbrev Method := ExceptT MirrorError (StateM GridMirror)

/-- The `?` operator. -/
def orReturn : Except MirrorError Unit → Method Unit
  | .ok () => pure ()
  | .error e => throw e

/-- What both methods do once a message has passed the checks. -/
def assign (sequence : UInt64) (grid : GridUpdate)
    (altScreen bracketedPaste mouseReporting : Bool) : Method Unit := do
  modify fun self => { self with cells := grid.apply self.cells }
  modify fun self => self.updateMetadata grid
  modify fun self => { self with sequence := some sequence }
  modify fun self => { self with altScreen }
  modify fun self => { self with bracketedPaste }
  modify fun self => { self with mouseReporting }

def runSnapshot (sequence : UInt64) (grid : GridUpdate)
    (altScreen bracketedPaste mouseReporting : Bool) : Method Unit :=
  if !grid.isFullSnapshot then throw .snapshotRequired
  else do
    orReturn (validateGrid grid)
    assign sequence grid altScreen bracketedPaste mouseReporting

def runDelta (sequence : UInt64) (grid : GridUpdate)
    (altScreen bracketedPaste mouseReporting : Bool) : Method Unit := do
  let self ← get
  match self.sequence with
  | none => throw .snapshotRequired
  | some previous =>
    if previous.toNat + 1 ≥ 2 ^ 64 then throw .sequenceOverflow
    else
      let expected := previous + 1
      if sequence ≠ expected then throw (.sequenceGap expected sequence)
      else if grid.isFullSnapshot ∨ grid.cols ≠ self.cols ∨ grid.rows ≠ self.rows then
        throw .snapshotRequired
      else
        orReturn (validateGrid grid)
        assign sequence grid altScreen bracketedPaste mouseReporting

/-- A call of one of the two methods. -/
inductive Call where
  | snapshot (sequence : UInt64) (grid : GridUpdate)
      (altScreen bracketedPaste mouseReporting : Bool)
  | delta (sequence : UInt64) (grid : GridUpdate)
      (altScreen bracketedPaste mouseReporting : Bool)
deriving DecidableEq, Repr

/-- The mirror after a call, and what the call returned. -/
def step (mirror : GridMirror) : Call → GridMirror × Except MirrorError Unit
  | .snapshot sequence grid altScreen bracketedPaste mouseReporting =>
    ((runSnapshot sequence grid altScreen bracketedPaste mouseReporting).run.run mirror).swap
  | .delta sequence grid altScreen bracketedPaste mouseReporting =>
    ((runDelta sequence grid altScreen bracketedPaste mouseReporting).run.run mirror).swap

end GridMirror

end Homie
