/-
The grid buffer of a terminal view: `homie-term/src/buffer.rs`.

An update is patched into a row-major buffer of cells.  A row that an update changed, and a row the
cursor left or entered, takes the number of the update as its generation; the renderer keeps the
generations it has drawn and is given the rows that have another one.
-/
import Homie.Lib.RowMajor
import Homie.Proto.Grid

namespace Homie.Term

open RowMajor (rowAt)

structure CursorState where
  col : UInt16
  row : UInt16
  visible : Bool
deriving DecidableEq, Repr

structure ApplySummary where
  changed : Bool
  sizeChanged : Bool
  cursorChanged : Bool
  dirtyRowCount : Nat
  generation : UInt64
deriving DecidableEq, Repr

structure ChangedRenderRow where
  row : Nat
  generation : UInt64
  cells : List GridCell
deriving DecidableEq, Repr

structure RenderDamageSnapshot where
  cols : UInt16
  rows : UInt16
  cursor : CursorState
  changedRows : List ChangedRenderRow
deriving DecidableEq, Repr

structure GridBuffer where
  cols : UInt16
  rows : UInt16
  cells : List GridCell
  cursor : CursorState
  generation : UInt64
  rowGenerations : List UInt64
  dirtyRows : List Bool
deriving DecidableEq, Repr

/-- `Vec::resize` -/
def resize {α : Type} (list : List α) (length : Nat) (value : α) : List α :=
  list.take length ++ List.replicate (length - list.length) value

namespace GridBuffer

def new (cols rows : UInt16) : GridBuffer where
  cols := cols
  rows := rows
  cells := List.replicate (cols.toNat * rows.toNat) GridCell.blank
  cursor := ⟨0, 0, false⟩
  generation := 0
  rowGenerations := List.replicate rows.toNat 0
  dirtyRows := List.replicate rows.toNat true

variable (buffer : GridBuffer)

def row (row : Nat) : Option (List GridCell) :=
  if row ≥ buffer.rows.toNat then none else some (rowAt buffer.cols.toNat buffer.cells row)

/-- The character of a cell in a line of text. -/
def cellChar (cell : GridCell) : Char :=
  let n := cell.scalar.toNat
  if n.isValidChar ∧ n ≠ 0x0a ∧ n ≠ 0x0d then Char.ofNat n else ' '

/-- The cells of a row with a character of their own, by column. -/
def rowTextWithColumns (row : Nat) : Option (List Char × List Nat) :=
  (buffer.row row).map fun cells =>
    let printed := cells.zipIdx.filter fun (cell, _) => cell.scalar ≠ 0
    (printed.map fun (cell, _) => cellChar cell, printed.map (·.2))

def clearDirty : GridBuffer :=
  { buffer with dirtyRows := buffer.dirtyRows.map fun _ => false }

/-! ### Damage -/

/-- The generations that are known afterwards, and the rows that were not known. -/
def snapshotDamage (knownGenerations : List UInt64) (visibleRows visibleCols : Nat)
    (force : Bool) : List UInt64 × RenderDamageSnapshot :=
  let rowCount := min visibleRows buffer.rows.toNat
  let colCount := min visibleCols buffer.cols.toNat
  let known := resize knownGenerations rowCount (UInt64.ofNat (2 ^ 64 - 1))
  let generation (row : Nat) : UInt64 := buffer.rowGenerations.getD row 0
  (known.zipIdx.map fun (_, row) => generation row,
    { cols := buffer.cols
      rows := buffer.rows
      cursor := buffer.cursor
      changedRows := known.zipIdx.filterMap fun (known, row) =>
        if force ∨ known ≠ generation row then
          some ⟨row, generation row, ((buffer.row row).getD []).take colCount⟩
        else none })

/-! ### Updates -/

/-- What the loop over the changed rows works on. -/
structure Patch where
  cells : List GridCell
  dirtyRows : List Bool
  changed : Bool

/-- One changed row; a row that is there already is left alone. -/
def Patch.apply (cols rows : Nat) (patch : Patch) (changedRow : ChangedRow) : Patch :=
  let row := changedRow.y.toNat
  if row ≥ rows then patch
  else
    let target := rowAt cols patch.cells row
    let copied := min changedRow.cells.length cols
    if target.take copied ≠ changedRow.cells.take copied
        ∨ (target.drop copied).any (· ≠ GridCell.blank) then
      { cells := changedRow.applyTo cols rows patch.cells
        dirtyRows := patch.dirtyRows.set row true
        changed := true }
    else patch

def apply (update : GridUpdate) : GridBuffer × ApplySummary :=
  let newCols := update.cols.toNat
  let newRows := update.rows.toNat
  let sizeChanged := buffer.cols ≠ update.cols ∨ buffer.rows ≠ update.rows
  let replace := update.isFullSnapshot ∨ sizeChanged
  let rowGenerations :=
    if replace ∨ buffer.dirtyRows.length ≠ newRows then resize buffer.rowGenerations newRows 0
    else buffer.rowGenerations
  let patch : Patch :=
    if replace then
      ⟨List.replicate (newCols * newRows) GridCell.blank, List.replicate newRows true, true⟩
    else ⟨buffer.cells, resize (buffer.dirtyRows.map fun _ => false) newRows false, false⟩
  let patch := update.changedRows.foldl (Patch.apply newCols newRows) patch
  let newCursor : CursorState := ⟨update.cursorCol, update.cursorRow, update.cursorVisible⟩
  let cursorChanged := buffer.cursor ≠ newCursor
  let dirtyRows :=
    if cursorChanged then
      (patch.dirtyRows.set buffer.cursor.row.toNat true).set newCursor.row.toNat true
    else patch.dirtyRows
  let changed := patch.changed ∨ cursorChanged
  let generation := if changed then buffer.generation + 1 else buffer.generation
  ({ cols := update.cols
     rows := update.rows
     cells := patch.cells
     cursor := newCursor
     generation := generation
     rowGenerations :=
       if changed then
         List.zipWith (fun known dirty => if dirty then generation else known) rowGenerations
           dirtyRows
       else rowGenerations
     dirtyRows := dirtyRows },
    { changed := changed
      sizeChanged := sizeChanged
      cursorChanged := cursorChanged
      dirtyRowCount := dirtyRows.countP id
      generation := generation })

end GridBuffer

end Homie.Term
