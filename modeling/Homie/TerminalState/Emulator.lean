/-
The terminal emulator behind a screen.

`alacritty_terminal` parses the bytes and owns the grid; the screen only calls it.
`Emulator` is the list of those calls, over a type that holds the `Term` together with
its `Processor`.  Nothing is assumed about them.  The cells, their colors and their
flags are the emulator's own types, with its numbering.

`LineTerm` is a small emulator that runs: printable ASCII, carriage return, line feed
and the SGR foreground colors.
-/
import Mathlib

namespace Homie

inductive NamedColor where
  | black | red | green | yellow | blue | magenta | cyan | white
  | brightBlack | brightRed | brightGreen | brightYellow
  | brightBlue | brightMagenta | brightCyan | brightWhite
  | foreground | background | cursor
  | dimBlack | dimRed | dimGreen | dimYellow | dimBlue | dimMagenta | dimCyan | dimWhite
  | brightForeground | dimForeground
deriving DecidableEq, Repr

/-- `named as usize`: the sixteen ANSI colors, then the rest from 256 on. -/
def NamedColor.index (color : NamedColor) : Nat :=
  if color.ctorIdx < 16 then color.ctorIdx else color.ctorIdx + 240

inductive Color where
  | named (color : NamedColor)
  | indexed (index : UInt8)
  | spec (r g b : UInt8)
deriving DecidableEq, Repr

/-- The emulator's cell flags, a set of bits. -/
structure Flags where
  bits : UInt16
deriving DecidableEq, Repr

namespace Flags

def empty : Flags := ⟨0⟩
def inverse : Flags := ⟨0x0001⟩
def bold : Flags := ⟨0x0002⟩
def italic : Flags := ⟨0x0004⟩
def underline : Flags := ⟨0x0008⟩
def dim : Flags := ⟨0x0080⟩
def dimBold : Flags := ⟨0x0082⟩
def hidden : Flags := ⟨0x0100⟩
def strikeout : Flags := ⟨0x0200⟩
def doubleUnderline : Flags := ⟨0x0800⟩
def undercurl : Flags := ⟨0x1000⟩
def dottedUnderline : Flags := ⟨0x2000⟩
def dashedUnderline : Flags := ⟨0x4000⟩

def union (a b : Flags) : Flags := ⟨a.bits ||| b.bits⟩
def contains (a b : Flags) : Bool := a.bits &&& b.bits == b.bits
def intersects (a b : Flags) : Bool := a.bits &&& b.bits != 0

def allUnderlines : Flags :=
  underline.union (doubleUnderline.union (undercurl.union (dottedUnderline.union dashedUnderline)))

end Flags

structure Cell where
  c : Char
  fg : Color
  bg : Color
  flags : Flags
deriving DecidableEq, Repr

/-- The cell of a cleared screen. -/
def Cell.default : Cell := ⟨' ', .named .foreground, .named .background, .empty⟩

/-- The mode bits a screen looks at. -/
structure TermMode where
  altScreen : Bool
  bracketedPaste : Bool
  showCursor : Bool
  /-- `MOUSE_MODE`: any flavor of mouse reporting. -/
  mouseMode : Bool
deriving DecidableEq, Repr

/-- What the emulator sends its listener. -/
inductive TermEvent where
  | title (text : String)
  | resetTitle
  | other
deriving DecidableEq, Repr

/-- What changed since the damage was last reset: everything, or these lines. -/
inductive TermDamage where
  | full
  | lines (damaged : List Nat)
deriving DecidableEq, Repr

/-- The calls a screen makes.  Lines below zero are scrollback. -/
structure Emulator (T : Type) where
  /-- `size_of::<Cell>()`. -/
  cellSize : Nat
  new : (scrollingHistory cols rows : Nat) → T
  /-- The bytes go through the parser; the events come out oldest first. -/
  advance : T → List UInt8 → T × List TermEvent
  damage : T → TermDamage × T
  resetDamage : T → T
  resize : T → (cols rows : Nat) → T
  mode : T → TermMode
  cursorColumn : T → Nat
  cursorLine : T → Int
  cell : T → (line : Int) → (column : Nat) → Cell
  setCell : T → (line : Int) → (column : Nat) → Cell → T
  historySize : T → Nat
  /-- `scroll_up` of the lines from `first` to `last`, exclusive, by `count`. -/
  scrollUp : T → (first last : Int) → (count : Nat) → T

/-! ### A small emulator -/

structure LineTerm where
  scrollingHistory : Nat
  cols : Nat
  rows : Nat
  /-- Scrollback and screen, oldest line first. -/
  lines : List (List Cell)
  column : Nat
  line : Nat
  /-- The last column was written, so the next character wraps. -/
  wrapNext : Bool
  fg : Color
  /-- The bytes after an escape character, until its sequence is complete. -/
  escape : Option (List UInt8)
deriving DecidableEq, Repr

namespace LineTerm

def blankLine (cols : Nat) : List Cell := List.replicate cols Cell.default

def new (scrollingHistory cols rows : Nat) : LineTerm :=
  { scrollingHistory, cols, rows, lines := List.replicate rows (blankLine cols), column := 0,
    line := 0, wrapNext := false, fg := .named .foreground, escape := none }

def historySize (t : LineTerm) : Nat := t.lines.length - t.rows

/-- Where a line number of the screen is in `lines`. -/
def lineIndex (t : LineTerm) (line : Int) : Nat := (line + t.historySize).toNat

def cell (t : LineTerm) (line : Int) (column : Nat) : Cell :=
  ((t.lines.getD (t.lineIndex line) []).getD column Cell.default)

def setCell (t : LineTerm) (line : Int) (column : Nat) (cell : Cell) : LineTerm :=
  { t with lines := t.lines.modify (t.lineIndex line) (·.set column cell) }

/-- Blank lines come in at the bottom; what is over the limit goes at the top. -/
def scrollUp (t : LineTerm) (count : Nat) : LineTerm :=
  let lines := t.lines ++ List.replicate count (blankLine t.cols)
  { t with lines := lines.drop (lines.length - (t.scrollingHistory + t.rows)) }

def lineFeed (t : LineTerm) : LineTerm :=
  if t.line + 1 < t.rows then { t with line := t.line + 1 } else t.scrollUp 1

def input (t : LineTerm) (c : Char) : LineTerm :=
  let t := if t.wrapNext then { t.lineFeed with column := 0, wrapNext := false } else t
  let t := t.setCell t.line t.column ⟨c, t.fg, .named .background, .empty⟩
  if t.column + 1 < t.cols then { t with column := t.column + 1 } else { t with wrapNext := true }

def ansiColors : List NamedColor := [.black, .red, .green, .yellow, .blue, .magenta, .cyan, .white]

/-- One SGR parameter: reset, or one of the eight foreground colors. -/
def selectColor (t : LineTerm) (code : List UInt8) : LineTerm :=
  match code with
  | [] | [0x30] => { t with fg := .named .foreground }
  | [0x33, digit] =>
    if digit < 0x30 then t
    else (ansiColors[digit.toNat - 0x30]?).elim t fun color => { t with fg := .named color }
  | _ => t

def advanceByte (t : LineTerm) (byte : UInt8) : LineTerm :=
  match t.escape with
  | some sequence =>
    -- A control sequence runs from `[` to its first byte from `@` on.
    if sequence = [] ∨ byte < 0x40 then { t with escape := some (sequence ++ [byte]) }
    else if byte = 0x6d then { t.selectColor sequence.tail with escape := none }
    else { t with escape := none }
  | none =>
    if byte = 0x1b then { t with escape := some [] }
    else if byte = 0x0d then { t with column := 0, wrapNext := false }
    else if byte = 0x0a then t.lineFeed
    else if 0x20 ≤ byte ∧ byte < 0x7f then t.input (Char.ofNat byte.toNat)
    else t

def emulator : Emulator LineTerm where
  cellSize := 24
  new := new
  advance t bytes := (bytes.foldl advanceByte t, [])
  damage t := (.lines [t.line], t)
  resetDamage t := t
  resize t cols rows := { new t.scrollingHistory cols rows with fg := t.fg, escape := t.escape }
  mode _ := ⟨false, false, true, false⟩
  cursorColumn := column
  cursorLine t := t.line
  cell := cell
  setCell := setCell
  historySize := historySize
  scrollUp t _ _ count := t.scrollUp count

end LineTerm

end Homie
