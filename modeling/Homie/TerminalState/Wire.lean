/-
Between emulator cells and wire cells: `homie-terminal-state/src/wire.rs`.

`wireCell` is what a client is shown of a cell.  `emulatorCell` and `sgr` go the other
way when a checkpoint is restored: the first for scrollback, which is written directly,
the second for the visible grid, which is painted through the parser.
-/
import Homie.Proto.Grid
import Homie.TerminalState.Emulator

namespace Homie

def wireColor : Color → TermColor
  | .named .foreground => .default
  | .named .background => .defaultInverted
  | .named named =>
    let index := named.index
    if index < 16 then .ansi (UInt8.ofNat index)
    else if NamedColor.dimBlack.index ≤ index ∧ index ≤ NamedColor.dimWhite.index then
      -- Dim variants render as their base color; the style carries the dimming.
      .ansi (UInt8.ofNat (index - NamedColor.dimBlack.index))
    else .default
  | .indexed index => .ansi index
  | .spec r g b => .rgb r g b

def wireStyle (flags : Flags) : TermStyle :=
  let add (on : Bool) (bit style : TermStyle) := if on then style.union bit else style
  let style := add (flags.intersects (Flags.bold.union Flags.dimBold)) .bold .empty
  let style := add (flags.intersects Flags.allUnderlines) .underline style
  let style := add (flags.contains Flags.inverse) .inverse style
  let style := add (flags.contains Flags.hidden) .invisible style
  let style := add (flags.intersects (Flags.dim.union Flags.dimBold)) .dim style
  let style := add (flags.contains Flags.italic) .italic style
  add (flags.contains Flags.strikeout) .crossedOut style

/-- Maps an emulator cell to the wire cell the client renders. -/
def wireCell (cell : Cell) : GridCell :=
  let scalar := if cell.c.val = 0 then 32 else cell.c.val
  ⟨scalar, wireColor cell.fg, wireColor cell.bg, wireStyle cell.flags⟩

/-- The bytes of an ASCII text. -/
def asciiBytes (text : String) : List UInt8 := text.toList.map fun c => UInt8.ofNat c.toNat

def colorCodes (color : TermColor) (foreground : Bool) : List String :=
  match color with
  | .default | .defaultInverted => [if foreground then "39" else "49"]
  | .ansi value => [if foreground then "38" else "48", "5", toString value.toNat]
  | .rgb red green blue =>
    [if foreground then "38" else "48", "2", toString red.toNat, toString green.toNat,
      toString blue.toNat]

/-- The SGR sequence that reproduces a cell's attributes. -/
def sgr (cell : GridCell) : List UInt8 :=
  let code (style : TermStyle) (text : String) := if cell.style.contains style then [text] else []
  let codes := ["0"] ++ code .bold "1" ++ code .dim "2" ++ code .italic "3" ++
    code .underline "4" ++ code .blink "5" ++ code .inverse "7" ++ code .invisible "8" ++
    code .crossedOut "9" ++ colorCodes cell.fg true ++ colorCodes cell.bg false
  asciiBytes ("\x1b[" ++ ";".intercalate codes ++ "m")

/-- Where `needle` first stands in `haystack`. -/
def find (haystack needle : List UInt8) : Option Nat :=
  if needle = [] ∨ haystack.length < needle.length then none
  else
    (List.range (haystack.length - needle.length + 1)).find? fun i =>
      (haystack.drop i).take needle.length == needle

/-- `char::from_u32`. -/
def charFromU32 (scalar : UInt32) : Option Char :=
  if h : scalar.isValidChar then some ⟨scalar, h⟩ else none

/-- The glyph of a wire cell, if it has one: zero stands for a blank. -/
def GridCell.glyph (cell : GridCell) : Option Char :=
  (charFromU32 cell.scalar).filter fun _ => cell.scalar != 0

def emulatorColor : TermColor → Color
  | .default => .named .foreground
  | .defaultInverted => .named .background
  | .ansi index => .indexed index
  | .rgb r g b => .spec r g b

def emulatorCell (cell : GridCell) : Cell :=
  let flag (style : TermStyle) (bit flags : Flags) :=
    if cell.style.contains style then flags.union bit else flags
  let flags := flag .bold .bold .empty
  let flags := flag .underline .underline flags
  let flags := flag .inverse .inverse flags
  let flags := flag .invisible .hidden flags
  let flags := flag .dim .dim flags
  let flags := flag .italic .italic flags
  let flags := flag .crossedOut .strikeout flags
  ⟨cell.glyph.getD ' ', emulatorColor cell.fg, emulatorColor cell.bg, flags⟩

end Homie
