/-
The headless screen: `homie-terminal-state/src/screen.rs`.

A screen feeds an emulator, watches its title and progress reports, counts content
changes by a digest of the visible characters, and hands out the grid as updates
relative to the cells it handed out last.

The emulator is a parameter, and so is the digest: the standard library's hasher does
not say what it computes.  Counters are natural numbers, a column or line that becomes
a `u16` is truncated to one.
-/
import Homie.Lib.RowMajor
import Homie.Lib.Text
import Homie.Proto.RemotePty
import Homie.TerminalState.Wire

namespace Homie

/-- `HISTORY_CELL_BUDGET_BYTES`. -/
def historyCellBudgetBytes : Nat := 4 * 2 ^ 20

def eventQueueCapacity : Nat := 64

/-- Screen geometry handed to the emulator, never empty. -/
structure Geometry where
  cols : Nat
  rows : Nat
  cols_pos : 0 < cols
  rows_pos : 0 < rows
deriving DecidableEq

def Geometry.clamp (cols rows : Nat) : Geometry :=
  ⟨max cols 1, max rows 1, by omega, by omega⟩

/-- The emulator and the hasher a screen is built on. -/
structure Backend (T : Type) extends Emulator T where
  /-- The visible characters row by row and the title, through `DefaultHasher`. -/
  hash : List Char → Option String → UInt64

/-- The small emulator, with a digest that keeps a few characters apart. -/
def LineTerm.backend : Backend LineTerm :=
  { LineTerm.emulator with
    hash := fun chars title =>
      let values := chars.map Char.toNat ++
        title.elim [0x110000] fun text => 0x110001 :: text.toList.map Char.toNat
      values.foldl (fun digest value => digest * 0x110002 + UInt64.ofNat value + 1) 0 }

structure HeadlessScreen (T : Type) where
  term : T
  geometry : Geometry
  title : Option String
  progressState : Option Int
  progressValue : Option Int
  contentSeq : Nat
  lastDigest : UInt64
  /-- Trailing bytes of the previous chunk. -/
  progressCarry : List UInt8
  /-- Diff baseline: the cells last handed out. -/
  lastCells : List GridCell
  lastGridCols : Nat
  lastGridRows : Nat

/-! ### Progress reports -/

/--
One `;`-separated part of a report, trimmed and parsed.  A part that is not UTF-8 has a
replacement character in the source, which no number has.
-/
def parsePart (part : List UInt8) : Option Int := do
  let text ← String.fromUTF8? ⟨part.toArray⟩
  parseI64 (trimText text.toList)

/-- `ESC ] 9 ; 4 ;`. -/
def progressPrefix : List UInt8 := [0x1b, 0x5d, 0x39, 0x3b, 0x34, 0x3b]

/--
The loop of `scan_progress` over what is left of the haystack.  Every round drops a
whole prefix, so the length of the haystack is fuel enough.
-/
def scanReports : Nat → List UInt8 → Option Int × Option Int → Option Int × Option Int
  | 0, _, progress => progress
  | fuel + 1, haystack, progress =>
    match find haystack progressPrefix with
    | none => progress
    | some found =>
      let rest := haystack.drop (found + progressPrefix.length)
      -- Terminated by BEL or ST.
      match rest.findIdx? fun b => b == 0x07 || b == 0x1b with
      | none => progress
      | some stop =>
        let parts := (rest.take stop).splitOn 0x3b
        scanReports fuel (rest.drop stop) (parts[0]?.bind parsePart, parts[1]?.bind parsePart)

namespace HeadlessScreen

variable {T : Type}

/-- Extracts `ESC ] 9 ; 4 ; state ; value` progress reports. -/
def scanProgress (s : HeadlessScreen T) (bytes : List UInt8) : HeadlessScreen T :=
  let haystack := s.progressCarry ++ bytes
  let progress := scanReports haystack.length haystack (s.progressState, s.progressValue)
  { s with
    progressState := progress.1
    progressValue := progress.2
    progressCarry := haystack.drop (haystack.length - 64) }

/-! ### The screen and its emulator -/

variable (E : Backend T)

def historyLineLimit (cols : Nat) : Nat :=
  max (historyCellBudgetBytes / (max cols 1 * E.cellSize)) 64

def new (cols rows : Nat) : HeadlessScreen T :=
  let geometry := Geometry.clamp cols rows
  { term := E.new (historyLineLimit E geometry.cols) geometry.cols geometry.rows
    geometry
    title := none
    progressState := none
    progressValue := none
    contentSeq := 0
    lastDigest := 0
    progressCarry := []
    lastCells := []
    lastGridCols := 0
    lastGridRows := 0 }

/-- One event of the queue; only the title is interesting. -/
def drainEvent (title : Option String) : TermEvent → Option String
  | .title text => some text
  | .resetTitle => none
  | .other => title

/-- Content fingerprint hashed straight off the grid cells. -/
def digestCells (s : HeadlessScreen T) : UInt64 :=
  E.hash ((List.range s.geometry.rows).flatMap fun row =>
    (List.range s.geometry.cols).map fun column => (E.cell s.term row column).c) s.title

def damaged : TermDamage → Bool
  | .full => true
  | .lines damaged => !damaged.isEmpty

/-- Feeds raw PTY output into the emulator. -/
def feed (s : HeadlessScreen T) (bytes : List UInt8) : HeadlessScreen T :=
  let s := s.scanProgress bytes
  let titleBefore := s.title
  let (term, events) := E.advance s.term bytes
  -- The queue is bounded; what does not fit is not sent.
  let title := (events.take eventQueueCapacity).foldl drainEvent s.title
  let (damage, term) := E.damage term
  let s := { s with term := E.resetDamage term, title }
  if damaged damage ∨ s.title ≠ titleBefore then
    let digest := s.digestCells E
    if digest ≠ s.lastDigest then
      { s with lastDigest := digest, contentSeq := s.contentSeq + 1 }
    else s
  else s

def resize (s : HeadlessScreen T) (cols rows : Nat) : HeadlessScreen T :=
  let geometry := Geometry.clamp cols rows
  { s with geometry, term := E.resize s.term geometry.cols geometry.rows }

def isAltScreen (s : HeadlessScreen T) : Bool := (E.mode s.term).altScreen
def bracketedPaste (s : HeadlessScreen T) : Bool := (E.mode s.term).bracketedPaste
def mouseReporting (s : HeadlessScreen T) : Bool := (E.mode s.term).mouseMode

def size (s : HeadlessScreen T) : Nat × Nat := (s.geometry.cols, s.geometry.rows)

/-- Cursor (col, row, visible) without touching cell data. -/
def cursor (s : HeadlessScreen T) : UInt16 × UInt16 × Bool :=
  (UInt16.ofNat (E.cursorColumn s.term), UInt16.ofNat (max (E.cursorLine s.term) 0).toNat,
    (E.mode s.term).showCursor)

/-! ### Updates -/

/-- One line of the grid as wire cells; lines below zero are scrollback. -/
def wireRow (s : HeadlessScreen T) (line : Int) : List GridCell :=
  (List.range s.geometry.cols).map fun x => wireCell (E.cell s.term line x)

/-- The header fields of an update: geometry and cursor. -/
def updateWith (s : HeadlessScreen T) (isFullSnapshot : Bool) (changedRows : List ChangedRow) :
    GridUpdate where
  cols := UInt16.ofNat s.geometry.cols
  rows := UInt16.ofNat s.geometry.rows
  cursorCol := (s.cursor E).1
  cursorRow := (s.cursor E).2.1
  cursorVisible := (s.cursor E).2.2
  isFullSnapshot
  changedRows

/-- Whether the inner loop of `grid_update` finds a cell that is not the baseline's. -/
def rowDiffers (cols : Nat) (lastCells row : List GridCell) (y : Nat) : Bool :=
  (List.range cols).any fun x => lastCells[y * cols + x]? != row[x]?

/-- The loop of `grid_update` over the rows: the baseline and the rows found changed. -/
def diffRow (s : HeadlessScreen T) (forceFull : Bool) (acc : List GridCell × List ChangedRow)
    (y : Nat) : List GridCell × List ChangedRow :=
  let (lastCells, changed) := acc
  let cols := s.geometry.cols
  let base := y * cols
  let row := s.wireRow E y
  if forceFull || rowDiffers cols lastCells row y then
    (lastCells.take base ++ row ++ lastCells.drop (base + cols),
      changed ++ [⟨UInt16.ofNat y, row⟩])
  else (lastCells, changed)

/--
Builds an update from the current screen.  When `full` is true (or the geometry
changed) every row is included; otherwise only rows that changed since the last call.
-/
def gridUpdate (s : HeadlessScreen T) (full : Bool) : GridUpdate × HeadlessScreen T :=
  let cols := s.geometry.cols
  let rows := s.geometry.rows
  let geometryChanged : Bool := s.lastGridCols ≠ cols ∨ s.lastGridRows ≠ rows
  let forceFull := full || geometryChanged
  -- The loop indexes this baseline without a check; it always has `cols * rows` cells.
  let lastCells :=
    if geometryChanged then List.replicate (cols * rows) GridCell.blank else s.lastCells
  let (lastCells, changed) := (List.range rows).foldl (s.diffRow E forceFull) (lastCells, [])
  (s.updateWith E forceFull changed,
    { s with lastCells, lastGridCols := cols, lastGridRows := rows })

/-- A full-screen snapshot that does not disturb the diff baseline. -/
def fullSnapshot (s : HeadlessScreen T) : GridUpdate :=
  s.updateWith E true
    ((List.range s.geometry.rows).map fun y => ⟨UInt16.ofNat y, s.wireRow E y⟩)

/-- Styled rows above the visible grid, oldest first. -/
def historySnapshot (s : HeadlessScreen T) : List (List GridCell) :=
  let history := E.historySize s.term
  (List.range history).map fun index => s.wireRow E (index - history)

/-- A window of scrollback rows as encoded cells, clamped to what exists. -/
def scrollbackCells (s : HeadlessScreen T) (firstRow maxRows : Int64) :
    ReadScrollbackCellsResult :=
  let history := E.historySize s.term
  let total := history + s.geometry.rows
  let start := min (max firstRow.toInt 0) total |>.toNat
  let stop := min (start + (max maxRows.toInt 0).toNat) total
  let rows := (List.range (stop - start)).map fun index =>
    s.wireRow E ((start + index : Nat) - history)
  { payload := match GridRowCodec.encodeRows rows with
      | .ok payload => payload
      | .error _ => []
    firstRow := Int64.ofNat start
    rowCount := Int64.ofNat rows.length
    totalRows := Int64.ofNat total
    liveStartRow := Int64.ofNat history
    cols := Int64.ofNat s.geometry.cols
    contentSeq := UInt64.ofNat s.contentSeq }

/-- The bytes of one wheel step; `sgrMouse` is the emulator's `SGR_MOUSE` mode. -/
def wheelBytes (sgrMouse : Bool) (button x y : Nat) : List UInt8 :=
  if sgrMouse then
    asciiBytes ("\x1b[<" ++ toString button ++ ";" ++ toString (x + 1) ++ ";" ++ toString (y + 1)
      ++ "M")
  else
    -- Legacy X10 encoding: 32 + button, 32 + 1-based coordinate.
    [0x1b] ++ asciiBytes "[M" ++ [UInt8.ofNat (32 + button), UInt8.ofNat (min (32 + x + 1) 255),
      UInt8.ofNat (min (32 + y + 1) 255)]

/-- What the wheel types into an application that asked for the mouse. -/
def mouseWheel (s : HeadlessScreen T) (sgrMouse : Bool) (up : Bool) (lines col row : Nat) :
    List UInt8 :=
  if !s.mouseReporting E ∨ lines = 0 then []
  else
    let x := min col (s.geometry.cols - 1)
    let y := min row (s.geometry.rows - 1)
    (List.replicate lines (wheelBytes sgrMouse (if up then 64 else 65) x y)).flatten

/-! ### Restoring a checkpoint -/

/-- `CSI row ; column H`, one-based. -/
def cursorTo (row column : Nat) : List UInt8 :=
  asciiBytes ("\x1b[" ++ toString row ++ ";" ++ toString column ++ "H")

/-- Paints one cell at column `x`; blanks are left to the initial clear. -/
def paintCell (y : Nat) (acc : List UInt8 × Option GridCell) (cell : GridCell × Nat) :
    List UInt8 × Option GridCell :=
  let (bytes, previous) := acc
  let (cell, x) := cell
  if cell = GridCell.blank then acc
  else
    let sameStyle := previous.any fun prev =>
      prev.fg == cell.fg && prev.bg == cell.bg && prev.style == cell.style
    let style := if sameStyle then [] else sgr cell
    let glyph := (cell.glyph.map String.utf8EncodeChar).getD [0x20]
    (bytes ++ cursorTo (y + 1) (x + 1) ++ style ++ glyph, some cell)

/-- The bytes that paint one row, unless it does not fit the screen. -/
def paintRow (cols rows : Nat) (row : ChangedRow) : Option (List UInt8) :=
  if row.y.toNat ≥ rows ∨ row.cells.length ≠ cols then none
  else some (row.cells.zipIdx.foldl (paintCell row.y.toNat) ([], none)).1

/-- The byte stream that paints a visible grid and sets the modes. -/
def paintBytes (cols rows : Nat) (update : GridUpdate)
    (altScreen bracketedPaste mouseReporting : Bool) : Option (List UInt8) := do
  let sorted := update.changedRows.mergeSort fun a b => a.y ≤ b.y
  let painted ← sorted.mapM (paintRow cols rows)
  pure ((if altScreen then asciiBytes "\x1b[?1049h" else []) ++ asciiBytes "\x1b[H\x1b[2J" ++
    painted.flatten ++ asciiBytes "\x1b[0m" ++
    (if bracketedPaste then asciiBytes "\x1b[?2004h" else []) ++
    (if mouseReporting then asciiBytes "\x1b[?1000h\x1b[?1006h" else []) ++
    (if update.cursorVisible then asciiBytes "\x1b[?25h" else asciiBytes "\x1b[?25l") ++
    cursorTo (min (update.cursorRow.toNat + 1) rows) (min (update.cursorCol.toNat + 1) cols))

/-- Writes the persisted rows over the scrollback lines, oldest first. -/
def writeHistory (term : T) (history : List (List GridCell)) : T :=
  history.zipIdx.foldl (fun term row =>
    row.1.zipIdx.foldl (fun term cell =>
      E.setCell term (row.2 - history.length) cell.2 (emulatorCell cell.1)) term) term

/-- Allocates scrollback and fills it; `false` when the emulator keeps another amount. -/
def restoreHistory (s : HeadlessScreen T) (history : List (List GridCell)) :
    Bool × HeadlessScreen T :=
  if history.isEmpty then (true, s)
  else
    let term := E.scrollUp s.term 0 s.geometry.rows history.length
    if E.historySize term ≠ history.length then (false, { s with term })
    else (true, { s with term := writeHistory E term history })

/-- Restores a persisted grid by synthesizing the byte stream that would have painted it. -/
def restore (s : HeadlessScreen T) (history : List (List GridCell)) (update : GridUpdate)
    (altScreen bracketedPaste mouseReporting : Bool) : Bool × HeadlessScreen T :=
  let cols := s.geometry.cols
  let rows := s.geometry.rows
  if !update.isFullSnapshot ∨ update.cols.toNat ≠ cols ∨ update.rows.toNat ≠ rows ∨
      update.changedRows.length ≠ rows ∨ history.length > historyLineLimit E cols ∨
      history.any fun row => row.length != cols then
    (false, s)
  else
    match s.restoreHistory E history with
    | (false, s) => (false, s)
    | (true, s) =>
      match paintBytes cols rows update altScreen bracketedPaste mouseReporting with
      | none => (false, s)
      | some bytes =>
        -- The diff baseline predates the restore: the next update is a full frame.
        (true, { s.feed E bytes with lastGridCols := 0, lastGridRows := 0 })

end HeadlessScreen

end Homie

/-! ### A screen and a consumer of its updates

Between two `grid_update` calls a screen is fed, resized or restored; every update goes
to the consumer, which patches its buffer with `GridUpdate::apply` and keeps the
header.  Sizes come from `u16` handlers, so a run cannot leave the range of the wire.
-/

namespace Homie

open RowMajor

variable {T : Type} (E : Backend T)

/-- What changes a screen between two updates. -/
inductive ScreenChange where
  | feed (bytes : List UInt8)
  | resize (cols rows : UInt16)
  | restore (history : List (List GridCell)) (update : GridUpdate)
      (altScreen bracketedPaste mouseReporting : Bool)
deriving DecidableEq, Repr

namespace HeadlessScreen

def change (s : HeadlessScreen T) : ScreenChange → HeadlessScreen T
  | .feed bytes => s.feed E bytes
  | .resize cols rows => s.resize E cols.toNat rows.toNat
  | .restore history update altScreen bracketedPaste mouseReporting =>
    (s.restore E history update altScreen bracketedPaste mouseReporting).2

/-- The visible cells, row after row. -/
def cells (s : HeadlessScreen T) : List GridCell :=
  ofRows s.geometry.rows fun y => s.wireRow E y

end HeadlessScreen

/-- A row-major buffer with the header of the last update it took. -/
structure GridConsumer where
  cells : List GridCell
  cols : UInt16
  rows : UInt16
  cursor : UInt16 × UInt16 × Bool
deriving DecidableEq, Repr

namespace GridConsumer

def empty : GridConsumer := ⟨[], 0, 0, 0, 0, false⟩

def apply (consumer : GridConsumer) (u : GridUpdate) : GridConsumer :=
  ⟨u.apply consumer.cells, u.cols, u.rows, u.cursorCol, u.cursorRow, u.cursorVisible⟩

/-- The consumer holds the screen's cells, geometry and cursor. -/
structure Shows (consumer : GridConsumer) (s : HeadlessScreen T) : Prop where
  cells : consumer.cells = s.cells E
  size : (consumer.cols.toNat, consumer.rows.toNat) = s.size
  cursor : consumer.cursor = s.cursor E

end GridConsumer

inductive StreamOp where
  | change (change : ScreenChange)
  | gridUpdate (full : Bool)
deriving DecidableEq, Repr

structure GridStream (T : Type) where
  screen : HeadlessScreen T
  consumer : GridConsumer

namespace GridStream

def start (cols rows : UInt16) : GridStream T :=
  ⟨HeadlessScreen.new E cols.toNat rows.toNat, .empty⟩

/-- A new sink next to a running stream: its first frame is a full snapshot. -/
def seed (s : HeadlessScreen T) : GridStream T :=
  ⟨s, GridConsumer.empty.apply (s.fullSnapshot E)⟩

def step (s : GridStream T) : StreamOp → GridStream T × Option GridUpdate
  | .change change => ({ s with screen := s.screen.change E change }, none)
  | .gridUpdate full =>
    let (update, screen) := s.screen.gridUpdate E full
    (⟨screen, s.consumer.apply update⟩, some update)

/-- The changes before the first update, if there is one. -/
def changesBeforeUpdate : List StreamOp → Option (List ScreenChange)
  | [] => none
  | .gridUpdate _ :: _ => some []
  | .change change :: ops => (changesBeforeUpdate ops).map (change :: ·)

end GridStream

end Homie
