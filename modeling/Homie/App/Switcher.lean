/-
The session switcher and the session overview: `homie-app/src/switcher.rs`.

The switcher is transient: it holds the order it was opened with until it commits or is cancelled.
The overview reads a session in two ways, the lane it is shown in and whether a query matches its
title; these are arguments (`OverviewReading`), so that what follows holds for any lanes and any
matching.
-/
import Homie.App.Record

namespace Homie.App

/-! ### The switcher -/

inductive CycleDirection where
  | forward
  | reverse
deriving DecidableEq, Repr

inductive SwitcherKey where
  | tab (control shift : Bool)
  | escape
  | enter
  | arrowLeft
  | arrowRight
  | arrowUp
  | arrowDown
  | other
deriving DecidableEq, Repr

inductive SwitcherOutcome where
  | ignored
  | consumed
  | opened
  | highlightChanged
  | committed (id : SessionId)
  | cancelled
deriving DecidableEq, Repr

structure SessionSwitcherState where
  visible : Bool
  order : List SessionId
  index : Nat
deriving DecidableEq, Repr

namespace SessionSwitcherState

def default : SessionSwitcherState := ⟨false, [], 0⟩

def highlighted (switcher : SessionSwitcherState) : Option SessionId :=
  if switcher.visible then switcher.order[switcher.index]? else none

def «open» (switcher : SessionSwitcherState) (order : List SessionId)
    (direction : CycleDirection) : SessionSwitcherState × Bool :=
  if order.length ≤ 1 then (switcher, false)
  else
    let index := match direction with
      | .forward => 1
      | .reverse => order.length - 1
    (⟨true, order, index⟩, true)

def advance (switcher : SessionSwitcherState) (direction : CycleDirection) :
    SessionSwitcherState :=
  if !switcher.visible || switcher.order.isEmpty then switcher
  else
    { switcher with
      index := match direction with
        | .forward => (switcher.index + 1) % switcher.order.length
        | .reverse => (switcher.index + switcher.order.length - 1) % switcher.order.length }

def cancel (switcher : SessionSwitcherState) : SessionSwitcherState :=
  { switcher with visible := false }

def commit (switcher : SessionSwitcherState) : SessionSwitcherState × Option SessionId :=
  (switcher.cancel, switcher.highlighted)

def commitIndex (switcher : SessionSwitcherState) (index : Nat) :
    SessionSwitcherState × Option SessionId :=
  if !switcher.visible || switcher.order.length ≤ index then (switcher, none)
  else { switcher with index := index }.commit

/-- `map_or`: what a commit reports. -/
def committedOr (fallback : SwitcherOutcome) : Option SessionId → SwitcherOutcome
  | some id => .committed id
  | none => fallback

/-- Ctrl-Tab opens the switcher with `mruOrder`, or moves on in it; while it is open every key is
taken. -/
def keyDown (switcher : SessionSwitcherState) (key : SwitcherKey) (mruOrder : List SessionId) :
    SessionSwitcherState × SwitcherOutcome :=
  match key with
  | .tab true shift =>
    let direction := if shift then CycleDirection.reverse else .forward
    if switcher.visible then (switcher.advance direction, .highlightChanged)
    else
      let (opened, ok) := switcher.open mruOrder direction
      (opened, if ok then .opened else .consumed)
  | key =>
    if !switcher.visible then (switcher, .ignored)
    else match key with
      | .escape => (switcher.cancel, .cancelled)
      | .enter =>
        let (next, selected) := switcher.commit
        (next, committedOr .consumed selected)
      | .arrowLeft | .arrowUp => (switcher.advance .reverse, .highlightChanged)
      | .arrowRight | .arrowDown => (switcher.advance .forward, .highlightChanged)
      | .tab _ _ | .other => (switcher, .consumed)

/-- Releasing Ctrl commits. -/
def modifiersChanged (switcher : SessionSwitcherState) (controlHeld : Bool) :
    SessionSwitcherState × SwitcherOutcome :=
  if switcher.visible && !controlHeld then
    let (next, selected) := switcher.commit
    (next, committedOr .ignored selected)
  else (switcher, .ignored)

/-- Drops sessions that are gone; the highlighted one stays highlighted if it is still there. -/
def reconcile (switcher : SessionSwitcherState) (live : SessionId → Bool) :
    SessionSwitcherState :=
  let order := switcher.order.filter live
  { visible := switcher.visible && !(decide (order.length ≤ 1))
    order := order
    index := (switcher.highlighted.bind fun id => order.idxOf? id).getD
      (min switcher.index (order.length - 1)) }

end SessionSwitcherState

/-! ### The overview -/

inductive OverviewMode where
  | board
  | list
deriving DecidableEq, Repr

inductive OverviewLane where
  | running
  | needsInput
  | done
  | asleep
  | ended
deriving DecidableEq, Repr

def OverviewLane.ALL : List OverviewLane := [.running, .needsInput, .done, .asleep, .ended]

inductive OverviewFilter where
  | all
  | lane (lane : OverviewLane)
deriving DecidableEq, Repr

inductive OverviewArrow where
  | left
  | right
  | up
  | down
deriving DecidableEq, Repr

inductive OverviewOutcome where
  | ignored
  | changed
  | dismissed
  | activate (id : SessionId)
  | requestClose (ids : List SessionId)
deriving DecidableEq, Repr

/-- How the overview reads a session: `OverviewLane::for_session`, and `fuzzy_matches` of a query
with the title it displays. -/
structure OverviewReading where
  forSession : SessionRecord → OverviewLane
  fuzzyMatches : String → SessionRecord → Bool

structure SessionOverviewState where
  visible : Bool
  mode : OverviewMode
  filter : OverviewFilter
  query : String
  selection : List SessionId
  focused : Option SessionId
deriving DecidableEq, Repr

namespace SessionOverviewState

def default : SessionOverviewState := ⟨false, .board, .all, "", [], none⟩

variable (reading : OverviewReading) (overview : SessionOverviewState)

def visibleSessions (sessions : List SessionRecord) : List SessionRecord :=
  sessions.filter fun session =>
    (match overview.filter with
      | .all => true
      | .lane lane => reading.forSession session == lane) &&
    reading.fuzzyMatches overview.query session

def focusFirstVisible (sessions : List SessionRecord) : SessionOverviewState :=
  { overview with focused := ((overview.visibleSessions reading sessions).head?).map (·.id) }

def reconcile (sessions : List SessionRecord) : SessionOverviewState :=
  let next := { overview with
    selection := overview.selection.filter fun id => sessions.any (·.id == id) }
  if next.focused.all fun id =>
      !(next.visibleSessions reading sessions).any (·.id == id) then
    next.focusFirstVisible reading sessions
  else next

def «open» (sessions : List SessionRecord) : SessionOverviewState :=
  { overview with visible := true }.focusFirstVisible reading sessions

def toggle (sessions : List SessionRecord) : SessionOverviewState :=
  if overview.visible then { overview with visible := false }
  else overview.open reading sessions

def dismiss : SessionOverviewState := { overview with visible := false }

def setMode (mode : OverviewMode) (sessions : List SessionRecord) : SessionOverviewState :=
  { overview with mode := mode }.reconcile reading sessions

def setFilter (filter : OverviewFilter) (sessions : List SessionRecord) : SessionOverviewState :=
  { overview with filter := filter }.reconcile reading sessions

/-- `char::is_control`. -/
def isControl (c : Char) : Bool := c.val < 0x20 || (0x7F ≤ c.val && c.val ≤ 0x9F)

def appendQuery (text : String) (sessions : List SessionRecord) : SessionOverviewState :=
  if text.isEmpty || text.toList.any isControl then overview
  else { overview with query := overview.query ++ text }.reconcile reading sessions

/-- A set of ids is drained into a sorted list. -/
def closeSelected : SessionOverviewState × OverviewOutcome :=
  if overview.selection.isEmpty then (overview, .ignored)
  else ({ overview with selection := [] },
    .requestClose (overview.selection.mergeSort fun left right => (compare left right).isLE))

def backspace (sessions : List SessionRecord) : SessionOverviewState × OverviewOutcome :=
  if !overview.query.isEmpty then
    ({ overview with query := String.ofList overview.query.toList.dropLast }.reconcile reading
      sessions, .changed)
  else if overview.selection.isEmpty then (overview, .ignored)
  else overview.closeSelected

/-- Escape undoes the query, then the selection, then the overlay. -/
def escape (sessions : List SessionRecord) : SessionOverviewState × OverviewOutcome :=
  if !overview.query.isEmpty then
    ({ overview with query := "" }.reconcile reading sessions, .changed)
  else if !overview.selection.isEmpty then ({ overview with selection := [] }, .changed)
  else if overview.visible then ({ overview with visible := false }, .dismissed)
  else (overview, .ignored)

def toggleSelection (id : SessionId) : SessionOverviewState :=
  if id ∈ overview.selection then
    { overview with selection := overview.selection.filter (· ≠ id) }
  else { overview with selection := id :: overview.selection }

def activate (id : SessionId) : SessionOverviewState × OverviewOutcome :=
  if overview.selection.isEmpty then ({ overview with visible := false }, .activate id)
  else (overview.toggleSelection id, .changed)

def activateFocused : SessionOverviewState × OverviewOutcome :=
  match overview.focused with
  | some id => overview.activate id
  | none => (overview, .ignored)

def clearSelection : SessionOverviewState := { overview with selection := [] }

def selectAllVisible (sessions : List SessionRecord) : SessionOverviewState :=
  { overview with
    selection := ((overview.visibleSessions reading sessions).map (·.id)).foldl
      (fun selection id => selection.insert id) overview.selection }

def closeOne (id : SessionId) : SessionOverviewState × OverviewOutcome :=
  ({ overview with selection := overview.selection.filter (· ≠ id) }, .requestClose [id])

/-- The positions of `visible` that are in the lane. -/
def laneItems (visible : List SessionRecord) (lane : OverviewLane) : List Nat :=
  (visible.zipIdx.filter fun (session, _) => reading.forSession session == lane).map (·.2)

/-- The next lane in a direction that is not empty, the same row of it. -/
def sideways (visible : List SessionRecord) (row : Nat) : List OverviewLane → Option Nat
  | [] => none
  | lane :: lanes =>
    let candidates := laneItems reading visible lane
    if candidates.isEmpty then sideways visible row lanes
    else candidates[min row (candidates.length - 1)]?

def boardTarget (arrow : OverviewArrow) (visible : List SessionRecord) (current : Nat) : Nat :=
  match visible[current]? with
  | none => current
  | some session =>
    let lane := reading.forSession session
    let items := laneItems reading visible lane
    let row := (items.idxOf? current).getD 0
    match arrow with
    | .up => (items[row - 1]?).getD current
    | .down => (items[min (row + 1) (items.length - 1)]?).getD current
    | .left =>
      (sideways reading visible row
        (OverviewLane.ALL.take (OverviewLane.ALL.idxOf lane)).reverse).getD current
    | .right =>
      (sideways reading visible row
        (OverviewLane.ALL.drop (OverviewLane.ALL.idxOf lane + 1))).getD current

def moveFocus (arrow : OverviewArrow) (sessions : List SessionRecord) : SessionOverviewState :=
  let visible := overview.visibleSessions reading sessions
  if visible.isEmpty then { overview with focused := none }
  else
    let current := (overview.focused.bind fun id => visible.findIdx? (·.id == id)).getD 0
    let next := match overview.mode with
      | .list => match arrow with
        | .left | .up => current - 1
        | .right | .down => min (current + 1) (visible.length - 1)
      | .board => boardTarget reading arrow visible current
    { overview with focused := (visible[next]?).map (·.id) }

end SessionOverviewState

end Homie.App
