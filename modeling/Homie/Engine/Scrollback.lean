/-
Replies that carry scrollback: `scrollback` of `homie-terminal-state/src/screen.rs`, the two
handlers of `homie-engine/src/control/handlers/session.rs` and the resizes that a local session
takes.
-/
import Homie.Proto.Control
import Homie.TerminalState.Screen

namespace Homie

variable {T : Type} (E : Backend T)

namespace HeadlessScreen

/-- `str::trim_end`. -/
def trimEnd (text : List Char) : List Char := (text.reverse.dropWhile isWhitespace).reverse

/-- A control character other than the tab is shown as a blank. -/
def shownChar (c : Char) : Char := if c.toNat < 0x20 ∧ c.toNat ≠ 0x09 then Char.ofNat 0x20 else c

/-- The text of one line of the grid. -/
def lineText (s : HeadlessScreen T) (line : Int) : List Char :=
  trimEnd ((List.range s.geometry.cols).map fun x => shownChar (E.cell s.term line x).c)

/-- Scrollback plus the visible screen as plain text, for search. -/
def scrollback (s : HeadlessScreen T) : ReadScrollbackResult :=
  let history := E.historySize s.term
  let total := history + s.geometry.rows
  { lines := (List.range total).map fun index => s.lineText E (index - history)
    firstRow := 0
    visibleStartRow := Int64.ofNat history
    cols := Int64.ofNat s.geometry.cols
    rows := Int64.ofNat s.geometry.rows
    contentSeq := UInt64.ofNat s.contentSeq
    isAltScreen := s.isAltScreen E }

end HeadlessScreen

/-! ### Requests -/

/-- A request for scrollback, with its parameters. -/
inductive ScrollbackQuery where
  /-- `session.read_scrollback`. -/
  | text
  /-- `session.read_scrollback_cells`. -/
  | cells (firstRow maxRows : Int64)

/-- The members of the result of a request to a local session. -/
def ScrollbackQuery.result (s : HeadlessScreen T) : ScrollbackQuery → List (String × List UInt8)
  | .text => (s.scrollback E).fields
  | .cells firstRow maxRows => (s.scrollbackCells E firstRow maxRows).fields

/-! ### Local sessions -/

/-- `clamp(2, u16::MAX as i64)`, for a number of columns or rows. -/
def clampSize (size : Int) : Nat := (max 2 (min size 65535)).toNat

/-- What happens to the screen of a local session. -/
inductive LocalCall where
  | feed (bytes : List UInt8)
  | resize (cols rows : Int)

def LocalCall.run (s : HeadlessScreen T) : LocalCall → HeadlessScreen T
  | .feed bytes => s.feed E bytes
  | .resize cols rows => s.resize E (clampSize cols) (clampSize rows)

/-- The screen of a session launched with this geometry, after these calls. -/
def localScreen (cols rows : Int) (calls : List LocalCall) : HeadlessScreen T :=
  calls.foldl (LocalCall.run E) (HeadlessScreen.new E (clampSize cols) (clampSize rows))

end Homie
