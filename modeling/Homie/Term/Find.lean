/-
Find in a terminal: `homie-term/src/find.rs`.

A search takes the text of the history and the rows of the live grid and lists the matches by the
absolute numbers of their rows.  The model keeps the matches with the geometry of the snapshot they
came from, steps through them, and puts the ones in the window on its rows.

A line is the list of its characters, a `Duration` counts nanoseconds and a `usize` is a natural
number; the one `usize` that can wrap is reduced by hand.  `lower` is `char::to_lowercase`, and
`windowRow` the row of a window of that height that `HISTORY_ANCHOR` comes to, which the code
computes in floating point.  The anchor of a `NavigationTarget` is always that constant and is left
out.
-/
import Homie.Lib.Sorting
import Homie.Term.Scrollback

namespace Homie.Term

def durationMax : Nat := 2 ^ 64 * 10 ^ 9 - 1

def searchDebounce : Nat := 200 * 10 ^ 6
def outputRescanDelay : Nat := 100 * 10 ^ 6
def matchCap : Nat := 500

structure FindMatch where
  absoluteRow : Int
  startCol : Nat
  endColExclusive : Nat
  text : List Char
deriving DecidableEq, Repr

structure FindSpan where
  row : Nat
  startCol : Nat
  endColExclusive : Nat
  isCurrent : Bool
deriving DecidableEq, Repr

structure FindSnapshot where
  lines : List (List Char)
  firstRow : Int64
  visibleStartRow : Int64
  cols : Int64
  rows : Int64
  contentSeq : UInt64
  isAltScreen : Bool

structure SearchRequest where
  query : List Char
  isRescan : Bool
  generation : UInt64
deriving DecidableEq, Repr

inductive NavigationTarget where
  | live
  | history (absoluteRow : Int)
deriving DecidableEq, Repr

/-! ### Matches -/

section

variable (lower : Char → List Char)

def charsEqualCi (haystack needle : List Char) : Bool :=
  (haystack.zip needle).all fun (left, right) => left = right ∨ lower left = lower right

def columnFor (index : Nat) (columns : Option (List Nat)) : Nat :=
  match columns with
  | none => index
  | some columns => ((columns[index]?).or (columns.getLast?.map (· + 1))).getD index

def columnPastEnd (index : Nat) (columns : Option (List Nat)) : Nat := columnFor index columns

/-- A line to search: its characters, the columns they are in where they are not in a column each,
and the number of its row. -/
structure SearchLine where
  line : List Char
  columns : Option (List Nat)
  absoluteRow : Int

def SearchLine.matchAt (line : SearchLine) (index length : Nat) : FindMatch where
  absoluteRow := line.absoluteRow
  startCol := columnFor index line.columns
  endColExclusive := columnPastEnd (index + length) line.columns
  text := line.line

/-- The `while` loop; it ends after as many passes as the line has characters, or before. -/
def scanLine (needle : List Char) (line : SearchLine) : Nat → Nat → List FindMatch → List FindMatch
  | 0, _, output => output
  | fuel + 1, index, output =>
    if index + needle.length ≤ line.line.length ∧ output.length < matchCap then
      if charsEqualCi lower ((line.line.drop index).take needle.length) needle then
        scanLine needle line fuel (index + needle.length)
          (output ++ [line.matchAt index needle.length])
      else scanLine needle line fuel (index + 1) output
    else output

def appendMatches (needle : List Char) (output : List FindMatch) (line : SearchLine) :
    List FindMatch :=
  if line.line.length < needle.length then output
  else scanLine lower needle line (line.line.length + 1) 0 output

/-- A loop over lines, which stops when the matches are many enough; whether it did is `true`. -/
def searchLines (needle : List Char) : List SearchLine → List FindMatch → List FindMatch × Bool
  | [], output => (output, false)
  | line :: lines, output =>
    let output := appendMatches lower needle output line
    if output.length ≥ matchCap then (output.take matchCap, true)
    else searchLines needle lines output

/-- The lines above the live grid. -/
def historyLines (snapshot : FindSnapshot) : List SearchLine :=
  snapshot.lines.zipIdx.filterMap fun (line, index) =>
    let absoluteRow := saturate (snapshot.firstRow.toInt + rowsToI64 index)
    if absoluteRow ≥ snapshot.visibleStartRow.toInt then none else some ⟨line, none, absoluteRow⟩

def liveLines (snapshot : FindSnapshot) (live : GridBuffer) : List SearchLine :=
  (List.range (min (max snapshot.rows.toInt 0).toNat live.rows.toNat)).filterMap fun row =>
    (live.rowTextWithColumns row).map fun (line, columns) =>
      ⟨line, some columns, saturate (snapshot.visibleStartRow.toInt + rowsToI64 row)⟩

def compareMatches (left right : FindMatch) : Ordering :=
  (compare left.absoluteRow right.absoluteRow).then (compare left.startCol right.startCol)

def buildMatches (query : List Char) (snapshot : FindSnapshot) (live : GridBuffer) :
    List FindMatch :=
  if query = [] then []
  else
    let (found, full) :=
      if snapshot.isAltScreen then ([], false)
      else searchLines lower query (historyLines snapshot) []
    if full then found
    else
      let (found, full) := searchLines lower query (liveLines snapshot live) found
      if full then found else (Sorting.sortBy compareMatches found).take matchCap

end

/-! ### The model -/

/-- `found` are the `matches` of the source. -/
structure TerminalFindModel where
  query : List Char
  found : List FindMatch
  currentIndex : Nat
  isAltScreen : Bool
  cachedVisibleStartRow : Option Int64
  cachedRows : Nat
  cachedContentSeq : Option UInt64
  cachedCols : Option Int64
  generation : UInt64
  searchDue : Option Nat
  rescanDue : Option Nat

namespace TerminalFindModel

def default : TerminalFindModel := ⟨[], [], 0, false, none, 0, none, none, 0, none, none⟩

variable (model : TerminalFindModel)

def setQuery (query : List Char) (now : Nat) : TerminalFindModel :=
  if query = model.query then model
  else
    let model := { model with query := query, generation := model.generation + 1, rescanDue := none }
    if query = [] then { model with found := [], currentIndex := 0, searchDue := none }
    else { model with searchDue := some (min (now + searchDebounce) durationMax) }

def onOutput (now : Nat) : Bool × TerminalFindModel :=
  if model.query = [] ∨ model.rescanDue.isSome then (false, model)
  else (true, { model with rescanDue := some (min (now + outputRescanDelay) durationMax) })

def takeDueSearch (now : Nat) : Option SearchRequest × TerminalFindModel :=
  if model.searchDue.any (· ≤ now) then
    (some ⟨model.query, false, model.generation⟩, { model with searchDue := none })
  else if model.rescanDue.any (· ≤ now) then
    (some ⟨model.query, true, model.generation⟩, { model with rescanDue := none })
  else (none, model)

def applySnapshot (lower : Char → List Char) (request : SearchRequest) (snapshot : FindSnapshot)
    (live : GridBuffer) (viewport : ScrollbackViewport) :
    Bool × TerminalFindModel × ScrollbackViewport :=
  if request.generation ≠ model.generation ∨ request.query ≠ model.query then
    (false, model, viewport)
  else
    let sequenceChanged := model.cachedContentSeq ≠ some snapshot.contentSeq
      ∨ model.cachedCols ≠ some snapshot.cols
    let model := { model with
      found := buildMatches lower request.query snapshot live
      isAltScreen := snapshot.isAltScreen
      cachedVisibleStartRow := some snapshot.visibleStartRow
      cachedRows := (max snapshot.rows.toInt 0).toNat
      cachedContentSeq := some snapshot.contentSeq
      cachedCols := some snapshot.cols }
    let viewport := viewport.applyGeometry snapshot.visibleStartRow.toInt
      (max snapshot.visibleStartRow.toInt 0) snapshot.contentSeq model.cachedRows
    let windowTop := saturate (snapshot.visibleStartRow.toInt - viewport.viewOffset)
    (true,
      { model with
        currentIndex :=
          if request.isRescan ∧ ¬sequenceChanged then min model.currentIndex (model.found.length - 1)
          else (model.found.findIdx? fun item => item.absoluteRow ≥ windowTop).getD 0 },
      viewport)

/-- The span of one match. -/
def spanOf (viewport : ScrollbackViewport) (visibleStart : Int64) (item : FindMatch) (index : Nat) :
    Option FindSpan :=
  let row := item.absoluteRow - saturate (visibleStart.toInt - viewport.viewOffset)
  if 0 ≤ row ∧ row < 2 ^ 63 ∧ row < model.cachedRows then
    some ⟨row.toNat, item.startCol, item.endColExclusive, index = model.currentIndex⟩
  else none

def visibleSpans (viewport : ScrollbackViewport) : List FindSpan :=
  match model.cachedVisibleStartRow with
  | none => []
  | some visibleStart =>
    model.found.zipIdx.filterMap fun (item, index) => model.spanOf viewport visibleStart item index

/-! ### Navigation -/

/-- `usize::wrapping_add_signed` -/
def wrappingAddSigned (index : Nat) (direction : Int) : Nat :=
  ((index + direction) % 2 ^ 64).toNat

def advance (windowRow : Nat → Int) (direction : Int) (viewport : ScrollbackViewport) :
    Option NavigationTarget × TerminalFindModel × ScrollbackViewport :=
  let index := wrappingAddSigned model.currentIndex direction % model.found.length
  match model.found[index]? with
  | none => (none, model, viewport)
  | some item =>
    let model := { model with currentIndex := index }
    match model.cachedVisibleStartRow with
    | none => (none, model, viewport)
    | some visibleStart =>
      if item.absoluteRow ≥ visibleStart.toInt then
        (some .live, model, (viewport.scrollToLive model.cachedRows).2)
      else
        (some (.history item.absoluteRow), model,
          (viewport.scrollToAbsolute item.absoluteRow (windowRow model.cachedRows)
            model.cachedRows).2)

def next (windowRow : Nat → Int) (viewport : ScrollbackViewport) :
    Option NavigationTarget × TerminalFindModel × ScrollbackViewport :=
  model.advance windowRow 1 viewport

def previous (windowRow : Nat → Int) (viewport : ScrollbackViewport) :
    Option NavigationTarget × TerminalFindModel × ScrollbackViewport :=
  model.advance windowRow (-1) viewport

end TerminalFindModel

/-! ### Events -/

/-- A terminal view with its find. -/
structure FindState where
  model : TerminalFindModel
  viewport : ScrollbackViewport
  live : GridBuffer

inductive FindEvent where
  | setQuery (query : List Char) (now : Nat)
  | onOutput (now : Nat)
  | takeDueSearch (now : Nat)
  | applySnapshot (request : SearchRequest) (snapshot : FindSnapshot)
  | next
  | previous
  /-- A scroll, rows that came, a fetch that began or failed. -/
  | viewport (op : ScrollbackOp)
  /-- Live output. -/
  | update (update : GridUpdate)

def FindState.step (lower : Char → List Char) (windowRow : Nat → Int) (state : FindState) :
    FindEvent → FindState × Unit
  | .setQuery query now => ({ state with model := state.model.setQuery query now }, ())
  | .onOutput now => ({ state with model := (state.model.onOutput now).2 }, ())
  | .takeDueSearch now => ({ state with model := (state.model.takeDueSearch now).2 }, ())
  | .applySnapshot request snapshot =>
    let (_, model, viewport) :=
      state.model.applySnapshot lower request snapshot state.live state.viewport
    ({ state with model := model, viewport := viewport }, ())
  | .next =>
    let (_, model, viewport) := state.model.next windowRow state.viewport
    ({ state with model := model, viewport := viewport }, ())
  | .previous =>
    let (_, model, viewport) := state.model.previous windowRow state.viewport
    ({ state with model := model, viewport := viewport }, ())
  | .viewport op => ({ state with viewport := (state.viewport.step op).1 }, ())
  | .update update => ({ state with live := (state.live.apply update).1 }, ())

end Homie.Term
