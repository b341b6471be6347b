/-
The terminal grid and its row codec: `homie-proto/src/grid.rs`.

A `GridUpdate` carries the screen geometry, the cursor and a list of changed rows.
On the wire every integer is big-endian and a row is run-length encoded.  The
decoder walks a cursor over the payload and fails on the first field that is not
there; `apply` patches a row-major buffer.

A `Vec<u8>` is a list of bytes, and a function that appends to one returns the
longer list.
-/
import Homie.Lib.Cursor

namespace Homie

open Bytes

inductive TermColor where
  | default
  | defaultInverted
  | ansi (color : UInt8)
  | rgb (red green blue : UInt8)
deriving DecidableEq, Repr

namespace TermColor

/-- Four-byte packed form `[tag][a][b][c]` used on the wire. -/
def packed : TermColor → UInt32
  | default => 0
  | defaultInverted => (1 : UInt32) <<< 24
  | ansi color => ((2 : UInt32) <<< 24) ||| color.toUInt32
  | rgb red green blue =>
    ((3 : UInt32) <<< 24) ||| (red.toUInt32 <<< 16) ||| (green.toUInt32 <<< 8) ||| blue.toUInt32

/-- Every tag other than 0, 1 and 2 reads as RGB. -/
def unpack (packed : UInt32) : TermColor :=
  if packed >>> 24 = 0 then default
  else if packed >>> 24 = 1 then defaultInverted
  else if packed >>> 24 = 2 then ansi (packed &&& 0xff).toUInt8
  else rgb ((packed >>> 16) &&& 0xff).toUInt8 ((packed >>> 8) &&& 0xff).toUInt8
    (packed &&& 0xff).toUInt8

end TermColor

/-- The SwiftTerm `CharacterStyle` bits; unknown bits are retained. -/
structure TermStyle where
  bits : UInt16
deriving DecidableEq, Repr

namespace TermStyle

def empty : TermStyle := ⟨0⟩
def bold : TermStyle := ⟨(1 : UInt16) <<< 0⟩
def underline : TermStyle := ⟨(1 : UInt16) <<< 1⟩
def blink : TermStyle := ⟨(1 : UInt16) <<< 2⟩
def inverse : TermStyle := ⟨(1 : UInt16) <<< 3⟩
def invisible : TermStyle := ⟨(1 : UInt16) <<< 4⟩
def dim : TermStyle := ⟨(1 : UInt16) <<< 5⟩
def italic : TermStyle := ⟨(1 : UInt16) <<< 6⟩
def crossedOut : TermStyle := ⟨(1 : UInt16) <<< 7⟩

def union (a b : TermStyle) : TermStyle := ⟨a.bits ||| b.bits⟩
def contains (a b : TermStyle) : Bool := a.bits &&& b.bits == b.bits

end TermStyle

structure GridCell where
  /-- Unicode scalar value; zero is rendered as blank by the client. -/
  scalar : UInt32
  fg : TermColor
  bg : TermColor
  style : TermStyle
deriving DecidableEq, Repr

def GridCell.blank : GridCell := ⟨32, .default, .defaultInverted, .empty⟩

/-- A changed row and its zero-based grid coordinate. -/
structure ChangedRow where
  y : UInt16
  cells : List GridCell
deriving DecidableEq, Repr

/-- Grid geometry, cursor state, and either a full snapshot or changed rows. -/
structure GridUpdate where
  cols : UInt16
  rows : UInt16
  cursorCol : UInt16
  cursorRow : UInt16
  cursorVisible : Bool
  isFullSnapshot : Bool
  changedRows : List ChangedRow
deriving DecidableEq, Repr

inductive GridCodecError where
  | unexpectedEnd (offset needed remaining : Nat)
  | tooManyRows (count : Nat)
  | tooManyCells (count : Nat)
  | decodedRowTooLong (count : Nat)
deriving DecidableEq, Repr

/-- `u16::MAX`, the widest row and the longest run the wire can carry. -/
def u16Max : Nat := 65535

/-! ### Encoding -/

/--
The two nested loops of `append_row`, as one pass: `count` copies of `cell` have
been seen, and a run ends at the first different cell or when its count is full.
-/
def GridRowCodec.runsFrom (cell : GridCell) (count : UInt16) :
    List GridCell → List (UInt16 × GridCell)
  | [] => [(count, cell)]
  | next :: rest =>
    if next = cell ∧ count < 0xffff then runsFrom cell (count + 1) rest
    else (count, cell) :: runsFrom next 1 rest

def GridRowCodec.rowRuns : List GridCell → List (UInt16 × GridCell)
  | [] => []
  | cell :: rest => runsFrom cell 1 rest

def GridRowCodec.putRun (run : UInt16 × GridCell) : List UInt8 :=
  u16Be run.1 ++ (u32Be run.2.scalar ++ (u32Be run.2.fg.packed ++
    (u32Be run.2.bg.packed ++ u16Be run.2.style.bits)))

/-- Appends `[runCount u16]` and the row's RLE runs, without a `y` prefix. -/
def GridRowCodec.appendRow (cells : List GridCell) (encoded : List UInt8) :
    Except GridCodecError (List UInt8) :=
  if cells.length > u16Max then .error (.tooManyCells cells.length)
  else
    let runs := rowRuns cells
    -- A row has no more runs than cells, so the count always fits.
    .ok (encoded ++ (u16Be (UInt16.ofNat runs.length) ++ runs.flatMap putRun))

def GridRowCodec.encodeRows (rows : List (List GridCell)) : Except GridCodecError (List UInt8) :=
  rows.foldlM (fun encoded row => appendRow row encoded) []

/-- `u8::from(cursor_visible) | (u8::from(is_full_snapshot) << 1)`. -/
def GridUpdate.flags (u : GridUpdate) : UInt8 :=
  u.cursorVisible.toUInt8 ||| (u.isFullSnapshot.toUInt8 <<< 1)

def GridUpdate.encode (u : GridUpdate) : Except GridCodecError (List UInt8) :=
  if u.changedRows.length > u16Max then .error (.tooManyRows u.changedRows.length)
  else
    let header := u16Be u.cols ++ (u16Be u.rows ++ (u16Be u.cursorCol ++ (u16Be u.cursorRow ++
      ([u.flags] ++ u16Be (UInt16.ofNat u.changedRows.length)))))
    u.changedRows.foldlM
      (fun encoded row => GridRowCodec.appendRow row.cells (encoded ++ u16Be row.y)) header

/-! ### Decoding -/

namespace Cursor

def take (n : Nat) : Reader GridCodecError (List UInt8) :=
  Reader.take GridCodecError.unexpectedEnd n

def u8 : Reader GridCodecError UInt8 := (fun bytes => bytes.headD 0) <$> take 1
def u16 : Reader GridCodecError UInt16 := readU16Be <$> take 2
def u32 : Reader GridCodecError UInt32 := readU32Be <$> take 4

end Cursor

/-- One run of the wire: its count and its cell. -/
def GridRowCodec.readRun : Reader GridCodecError (UInt16 × GridCell) := do
  let count ← Cursor.u16
  let scalar ← Cursor.u32
  let fg ← TermColor.unpack <$> Cursor.u32
  let bg ← TermColor.unpack <$> Cursor.u32
  let style ← TermStyle.mk <$> Cursor.u16
  pure (count, ⟨scalar, fg, bg, style⟩)

/-- The loop of `read_row_from_cursor`: `runs` runs to go, `cells` decoded so far. -/
def GridRowCodec.readRuns : Nat → List GridCell → Reader GridCodecError (List GridCell)
  | 0, cells => pure cells
  | runs + 1, cells => do
    let (count, cell) ← readRun
    let newLen := cells.length + count.toNat
    if newLen > u16Max then throw (.decodedRowTooLong newLen)
    else readRuns runs (cells ++ List.replicate count.toNat cell)

def GridRowCodec.readRowFromCursor : Reader GridCodecError (List GridCell) := do
  let runCount ← Cursor.u16
  readRuns runCount.toNat []

/-- Decodes exactly `rowCount` consecutive rows; trailing bytes are ignored. -/
def GridRowCodec.decodeRows (payload : List UInt8) (rowCount : Nat) :
    Except GridCodecError (List (List GridCell)) :=
  (·.1) <$> Reader.times readRowFromCursor rowCount ⟨payload, 0⟩

def ChangedRow.read : Reader GridCodecError ChangedRow := do
  let y ← Cursor.u16
  let cells ← GridRowCodec.readRowFromCursor
  pure ⟨y, cells⟩

def GridUpdate.read : Reader GridCodecError GridUpdate := do
  let cols ← Cursor.u16
  let rows ← Cursor.u16
  let cursorCol ← Cursor.u16
  let cursorRow ← Cursor.u16
  let flags ← Cursor.u8
  let rowCount ← Cursor.u16
  let changedRows ← Reader.times ChangedRow.read rowCount.toNat
  pure ⟨cols, rows, cursorCol, cursorRow, flags &&& 1 != 0, flags &&& 2 != 0, changedRows⟩

def GridUpdate.decode (payload : List UInt8) : Except GridCodecError GridUpdate :=
  (·.1) <$> GridUpdate.read ⟨payload, 0⟩

/-! ### Patching a buffer -/

/-- Writes one changed row, padded or truncated to `cols`; out-of-range rows are ignored. -/
def ChangedRow.applyTo (cols rows : Nat) (buffer : List GridCell) (changed : ChangedRow) :
    List GridCell :=
  let y := changed.y.toNat
  if y ≥ rows then buffer
  else
    let start := y * cols
    let copied := min changed.cells.length cols
    buffer.take start ++ (changed.cells.take copied ++
      List.replicate (cols - copied) GridCell.blank) ++ buffer.drop (start + cols)

/--
Applies the update to a row-major cell buffer.  A full snapshot (or a mismatched
buffer length) clears the buffer to blanks first.
-/
def GridUpdate.apply (u : GridUpdate) (buffer : List GridCell) : List GridCell :=
  let cols := u.cols.toNat
  let rows := u.rows.toNat
  let cellCount := cols * rows
  let buffer :=
    if u.isFullSnapshot ∨ buffer.length ≠ cellCount then List.replicate cellCount GridCell.blank
    else buffer
  u.changedRows.foldl (ChangedRow.applyTo cols rows) buffer

end Homie
