/-
The session store as the window sees it: `homie-app/src/store` (`events.rs`, `navigation.rs`,
`sessions.rs`, `ordering.rs`, `residency.rs`, `switcher.rs`, `lifecycle.rs`).

Every public operation that writes the selection, the terminals that stay attached, the sidebar or
what it is computed from is here.  A hash set is a list without order; the order in which
`remove_sessions` walks the hash map is an argument of the step.  The walk up the spawn chain takes
fuel for every session.

`residencyMoves` is a history variable: it records who entered and who left the set of resident
terminals, and nothing reads it.
-/
import Homie.App.Projection
import Homie.App.Store
import Homie.App.Switcher

namespace Homie.App.Navigation

/-! ### Terminal residency -/

structure TerminalResidency where
  capacity : Nat
  /-- Most recently used first. -/
  order : List SessionId
deriving DecidableEq, Repr

namespace TerminalResidency

/-- Only the selected terminal is visible. -/
def default : TerminalResidency := ⟨1, []⟩

/-- The evicted session, if any, is to be detached by the caller. -/
def touch (residency : TerminalResidency) (id : SessionId) :
    TerminalResidency × Option SessionId :=
  let order := id :: residency.order.filter (· ≠ id)
  if residency.capacity < order.length then
    ({ residency with order := order.dropLast }, order.getLast?)
  else ({ residency with order := order }, none)

def remove (residency : TerminalResidency) (id : SessionId) : TerminalResidency × Bool :=
  let kept := residency.order.filter (· ≠ id)
  ({ residency with order := kept }, kept.length != residency.order.length)

end TerminalResidency

inductive ResidencyMove where
  | entered (id : SessionId)
  | left (id : SessionId)
deriving DecidableEq, Repr

/-! ### The store -/

structure Preferences extends Prefs where
  sidebarExpandedArchives : List ProjectId
  lastSelectedSession : Option SessionId
  confirmBeforeClosingSession : Bool

inductive StoreEffect where
  | uiChanged
  | markSeen (id : SessionId)
  | remove (id : SessionId)
  | resume (id : SessionId) (automatic : Bool)
  | archive (id : SessionId)
  | unarchive (id : SessionId)
  | rename (id : SessionId) (title : String)
  | detachAttachment (id : SessionId)
deriving DecidableEq, Repr

structure ClickModifiers where
  command : Bool
  shift : Bool

structure SessionStore where
  sessions : SessionMap
  projects : ProjectMap
  selectedSessionId : Option SessionId
  sidebarSelection : List SessionId
  pendingClose : Option (List SessionId)
  /-- Sessions with a `session.remove` in flight. -/
  closing : List SessionId
  autoResuming : List SessionId
  prefs : Preferences
  terminalResidency : TerminalResidency
  sidebarSelectionAnchor : Option SessionId
  mruOrder : List SessionId
  switcher : SessionSwitcherState
  overview : SessionOverviewState
  autoResumeAttempted : List SessionId
  revision : UInt64
  cachedProjection : Option (UInt64 × SidebarProjection)
  effects : List StoreEffect
  /-- How the overview reads sessions; no operation changes it. -/
  reading : OverviewReading
  residencyMoves : List ResidencyMove

namespace SessionStore

/-- The store before the first list of sessions. -/
def headless (reading : OverviewReading) (prefs : Preferences) : SessionStore where
  sessions := .empty
  projects := .empty
  selectedSessionId := prefs.lastSelectedSession
  sidebarSelection := []
  pendingClose := none
  closing := []
  autoResuming := []
  prefs := prefs
  terminalResidency := .default
  sidebarSelectionAnchor := none
  mruOrder := prefs.lastSelectedSession.toList
  switcher := .default
  overview := .default
  autoResumeAttempted := []
  revision := 0
  cachedProjection := none
  effects := []
  reading := reading
  residencyMoves := []

def emit (store : SessionStore) (effect : StoreEffect) : SessionStore :=
  { store with effects := store.effects ++ [effect] }

def invalidateProjection (store : SessionStore) : SessionStore :=
  { store with revision := store.revision + 1, cachedProjection := none }

/-! ### The cached sidebar -/

/-- The groups of `build_projection` as they are walked here; no other order gives another
sidebar. -/
def asGrouped : HashOrder (ProjectId × List SessionRecord) := ⟨id, fun _ => List.Perm.refl _⟩

/-- `build_projection` on the current state. -/
def currentProjection (store : SessionStore) : SidebarProjection :=
  (buildProjection asGrouped store.sessions.values.length store.sessions store.projects.get
    store.prefs.toPrefs store.selectedSessionId store.closing).getD ⟨[], [], []⟩

def sidebarProjection (store : SessionStore) : SidebarProjection × SessionStore :=
  let rebuilt := (store.currentProjection,
    { store with cachedProjection := some (store.revision, store.currentProjection) })
  match store.cachedProjection with
  | some (revision, projection) =>
    if revision = store.revision then (projection, store) else rebuilt
  | none => rebuilt

def orderedSessions (store : SessionStore) : List SessionRecord × SessionStore :=
  let (projection, store) := store.sidebarProjection
  (projection.orderedSessions, store)

/-- The row an empty selection falls back to. -/
def firstActive (projection : SidebarProjection) : Option SessionRecord :=
  projection.projects.findSome? (·.active.head?)

/-! ### Navigation -/

/-- The walk up the spawn chain; `seen` guards against a cycle. -/
def spawnChain (sessions : SessionMap) : Nat → List SessionId → Option SessionId → List SessionId
  | _, _, none => []
  | 0, _, some _ => []
  | fuel + 1, seen, some ancestor =>
    if ancestor ∈ seen then []
    else ancestor :: spawnChain sessions fuel (ancestor :: seen)
      ((sessions.get ancestor).bind (·.parent))

/-- Unfolds what hides a session. -/
def reveal (store : SessionStore) (id : SessionId) : SessionStore × Bool :=
  match store.sessions.get id with
  | none => (store, false)
  | some session =>
    let project := session.projectId
    let ancestors := spawnChain store.sessions (store.sessions.values.length + 1) [id]
      session.parent
    let folded := store.prefs.sidebarCollapsedProjects.contains project
    let hidden := session.isArchived && !store.prefs.sidebarExpandedArchives.contains project
    let nested := ancestors.any store.prefs.sidebarCollapsedSessions.contains
    let changed := folded || hidden || nested
    let store := { store with prefs := { store.prefs with
      sidebarCollapsedProjects := store.prefs.sidebarCollapsedProjects.erase project
      sidebarExpandedArchives :=
        if hidden then store.prefs.sidebarExpandedArchives ++ [project]
        else store.prefs.sidebarExpandedArchives
      sidebarCollapsedSessions :=
        ancestors.foldl List.erase store.prefs.sidebarCollapsedSessions } }
    (if changed then store.invalidateProjection else store, changed)

/-- `touch`, and the detachment of whom it evicts. -/
def touchTerminal (store : SessionStore) (id : SessionId) : SessionStore :=
  let (residency, evicted) := store.terminalResidency.touch id
  let moves := (if id ∈ store.terminalResidency.order then [] else [ResidencyMove.entered id]) ++
    evicted.toList.map ResidencyMove.left
  let store := { store with
    terminalResidency := residency
    residencyMoves := store.residencyMoves ++ moves }
  match evicted with
  | some evicted => store.emit (.detachAttachment evicted)
  | none => store

/-- `remove`, and the detachment if the session was resident. -/
def dropTerminal (store : SessionStore) (id : SessionId) : SessionStore :=
  let (residency, removed) := store.terminalResidency.remove id
  if removed then
    { store with
      terminalResidency := residency
      residencyMoves := store.residencyMoves ++ [ResidencyMove.left id] }.emit (.detachAttachment id)
  else { store with terminalResidency := residency }

/-- There is a record, and it is not archived. -/
def isActive (store : SessionStore) (id : SessionId) : Bool :=
  (store.sessions.get id).any (!·.isArchived)

/-- `DaemonRestart` left a session that can be resumed. -/
def resumesAfterRestart (session : SessionRecord) : Bool :=
  !session.isArchived && session.resumability == .resumable &&
    match session.status with
    | .exited info => info.reason == .daemonRestart
    | _ => false

def autoResumeIfNeeded (store : SessionStore) (id : SessionId) : SessionStore :=
  let eligible := store.selectedSessionId == some id &&
    (store.sessions.get id).any resumesAfterRestart
  if !eligible || store.autoResumeAttempted.contains id then store
  else
    { store with
      autoResumeAttempted := id :: store.autoResumeAttempted
      autoResuming := store.autoResuming.insert id }.emit (.resume id true)

/-- The first part of `focus_session`: the selection, what is unfolded for it, and what is
remembered about it. -/
def markSelected (store : SessionStore) (id : SessionId) : SessionStore :=
  let selectionChanged := store.selectedSessionId != some id
  let store := { store with selectedSessionId := some id }
  let (store, revealed) := store.reveal id
  let store :=
    if selectionChanged || revealed || store.prefs.lastSelectedSession != some id then
      { store with prefs := { store.prefs with lastSelectedSession := some id } }
    else store
  { store with mruOrder := id :: store.mruOrder.filter (· ≠ id) }.invalidateProjection

/-- The second part: an active session becomes resident, and is seen. -/
def attachFocused (store : SessionStore) (id : SessionId) : SessionStore :=
  if store.isActive id then (store.touchTerminal id).emit (.markSeen id) else store

def focusSession (store : SessionStore) (id : SessionId) : SessionStore :=
  (((store.markSelected id).attachFocused id).autoResumeIfNeeded id).emit .uiChanged

def setSelectedSurvivor (store : SessionStore) : Option SessionId → SessionStore
  | some id => store.focusSession id
  | none =>
    { store with
      selectedSessionId := none
      prefs := { store.prefs with lastSelectedSession := none } }.invalidateProjection

def autoSelectIfNeeded (store : SessionStore) : SessionStore :=
  match store.selectedSessionId with
  | some _ => store
  | none =>
    let (projection, store) := store.sidebarProjection
    store.setSelectedSurvivor ((firstActive projection).map (·.id))

def autoResumeSelectedIfNeeded (store : SessionStore) : SessionStore :=
  match store.selectedSessionId with
  | some id => store.autoResumeIfNeeded id
  | none => store

def reconcileNavigation (store : SessionStore) : SessionStore :=
  let store := { store with
    switcher := store.switcher.reconcile fun id => (store.sessions.get id).isSome }
  let (sessions, store) := store.orderedSessions
  { store with overview := store.overview.reconcile store.reading sessions }

def sidebarVisibleOrder (store : SessionStore) : List SessionId × SessionStore :=
  let expanded := store.prefs.sidebarExpandedArchives
  let (projection, store) := store.sidebarProjection
  (projection.projects.flatMap fun group =>
    group.sessions.map (·.session.id) ++
      if expanded.contains group.project.id then group.archived.map (·.id) else [], store)

/-- `sync_sidebar_order`. -/
def syncSidebarOrder (store : SessionStore) : SessionStore :=
  let (prefs, changed) := reconcileSidebarOrder store.sessions store.projects store.prefs.toPrefs
  let store := { store with prefs := { store.prefs with toPrefs := prefs } }
  if changed then store.invalidateProjection else store

/-- The survivor that follows the selected session, of its project if there is one. -/
def neighbor (store : SessionStore) (order excluded : List SessionId) : Option SessionId :=
  let survivors := order.filter fun id => !excluded.contains id
  match store.selectedSessionId with
  | none => survivors.head?
  | some current =>
    match order.idxOf? current with
    | none => survivors.head?
    | some index =>
      let project := (store.sessions.get current).map (·.projectId)
      let eligible := fun id => !excluded.contains id
      let sameProject := fun id =>
        eligible id && (store.sessions.get id).map (·.projectId) == project
      let ahead := order.drop index
      let behind := (order.take index).reverse
      (ahead.find? sameProject).or <| (behind.find? sameProject).or <|
        (ahead.find? eligible).or <| (behind.find? eligible).or survivors.head?

def focusNeighbor (store : SessionStore) (excluded : List SessionId) : SessionStore :=
  let (projection, store) := store.sidebarProjection
  store.setSelectedSurvivor (store.neighbor (projection.orderedSessions.map (·.id)) excluded)

def select (store : SessionStore) (id : SessionId) : SessionStore :=
  if (store.sessions.get id).isSome then
    { store with sidebarSelection := [], sidebarSelectionAnchor := some id }.focusSession id
  else store

def sidebarSelectionOrdered (store : SessionStore) : List SessionId × SessionStore :=
  let (projection, store) := store.sidebarProjection
  (projection.displayOrder.filter store.sidebarSelection.contains, store)

/-- Shift: the rows from the anchor to the clicked one. -/
def selectRange (store : SessionStore) (id : SessionId) : SessionStore :=
  let (order, store) := store.sidebarVisibleOrder
  match order.idxOf? id with
  | none => store
  | some clicked =>
    let anchor := ((store.sidebarSelectionAnchor.bind order.idxOf?).or
      (store.selectedSessionId.bind order.idxOf?)).getD clicked
    { store with
      sidebarSelection := (order.drop (min anchor clicked)).take
        (max anchor clicked + 1 - min anchor clicked) }

/-- With nothing else selected, the focused session goes into the selection first. -/
def withFocused (store : SessionStore) (id : SessionId) : SessionStore :=
  match store.selectedSessionId with
  | some focused =>
    if store.sidebarSelection.isEmpty && focused != id &&
        (store.sessions.get focused).isSome then
      { store with sidebarSelection := [focused] }
    else store
  | none => store

/-- The row goes; if it was focused, the first that stays selected is focused. -/
def dropRow (store : SessionStore) (id : SessionId) : SessionStore :=
  let store := { store with sidebarSelection := store.sidebarSelection.filter (· ≠ id) }
  if store.selectedSessionId = some id then
    let (ordered, store) := store.sidebarSelectionOrdered
    match ordered.head? with
    | some next => store.focusSession next
    | none => store
  else store

/-- Command: the row goes in or out. -/
def toggleRow (store : SessionStore) (id : SessionId) : SessionStore :=
  let store := store.withFocused id
  if store.sidebarSelection.contains id then store.dropRow id
  else
    { store with
      sidebarSelection := id :: store.sidebarSelection
      sidebarSelectionAnchor := some id }

def sidebarClick (store : SessionStore) (id : SessionId) (modifiers : ClickModifiers) :
    SessionStore :=
  if (store.sessions.get id).isNone then store
  else if modifiers.shift then store.selectRange id
  else if modifiers.command then store.toggleRow id
  else store.select id

def mruSessions (store : SessionStore) : List SessionId × SessionStore :=
  let recent := (store.mruOrder.filter fun id => (store.sessions.get id).isSome).eraseDups
  let (sessions, store) := store.orderedSessions
  ((recent ++ sessions.map (·.id)).eraseDups, store)

/-! ### Closing, archiving, reviving -/

/-- One row of `remove_sessions`. -/
def closeRow (store : SessionStore) (id : SessionId) : SessionStore :=
  let store := { store with sidebarSelection := store.sidebarSelection.filter (· ≠ id) }
  let store := store.dropTerminal id
  { store with closing := store.closing.insert id }.emit (.remove id)

/-- The sessions that go with `ids`: they, and the auxiliary terminals of their workbenches. -/
def withAuxiliary (walk : HashOrder SessionRecord) (store : SessionStore) (ids : List SessionId) :
    List SessionId :=
  let auxiliary := (walk.visit store.sessions.values).filter fun session =>
    session.parent.any ids.contains && isAuxiliaryTerminal session
  (ids ++ auxiliary.map (·.id)).eraseDups

def removeSessions (walk : HashOrder SessionRecord) (store : SessionStore)
    (ids : List SessionId) : SessionStore :=
  let ids := store.withAuxiliary walk ids
  let store := if store.selectedSessionId.any ids.contains then store.focusNeighbor ids else store
  (ids.foldl closeRow store).invalidateProjection.reconcileNavigation

def requestClose (walk : HashOrder SessionRecord) (store : SessionStore) (ids : List SessionId) :
    SessionStore :=
  let ids := ids.filter fun id => !store.closing.contains id
  if ids.isEmpty then store
  else
    let hasRunning := ids.any fun id =>
      (store.sessions.get id).any (!App.SessionStore.isExited ·)
    if store.prefs.confirmBeforeClosingSession && hasRunning then
      { store with pendingClose := some ids }
    else store.removeSessions walk ids

def confirmPendingClose (walk : HashOrder SessionRecord) (store : SessionStore) : SessionStore :=
  match store.pendingClose with
  | some ids => { store with pendingClose := none }.removeSessions walk ids
  | none => store

def cancelPendingClose (store : SessionStore) : SessionStore := { store with pendingClose := none }

/-- `get_mut` and a change that keeps the id. -/
def modify (store : SessionStore) (id : SessionId) (f : SessionRecord → SessionRecord) :
    SessionStore :=
  match store.sessions.get id with
  | some session => { store with sessions := store.sessions.insert (f session) }
  | none => store

/-- One row of `archive_sessions`. -/
def archiveRow (now : SessionId → DateMillis) (store : SessionStore) (id : SessionId) :
    SessionStore :=
  let store := { store with sidebarSelection := store.sidebarSelection.filter (· ≠ id) }
  let store := store.modify id fun session => { session with archivedAt := some (now id) }
  (store.dropTerminal id).emit (.archive id)

/-- `now` is the reading of the clock for each session. -/
def archiveSessions (store : SessionStore) (now : SessionId → DateMillis)
    (ids : List SessionId) : SessionStore :=
  let targets := ids.filter store.isActive
  let store :=
    if store.selectedSessionId.any targets.contains then store.focusNeighbor targets else store
  (targets.foldl (archiveRow now) store).invalidateProjection

/-- One row of `revive_sessions`; the ids that were revived so far come along. -/
def reviveRow (revived : List SessionId × SessionStore) (id : SessionId) :
    List SessionId × SessionStore :=
  match revived.2.sessions.get id with
  | some session =>
    if session.isArchived then
      (revived.1 ++ [id],
        (revived.2.modify id fun session => { session with archivedAt := none }).emit
          (if session.resumability = .resumable then .resume id false else .unarchive id))
    else revived
  | none => revived

def reviveSessions (store : SessionStore) (ids : List SessionId) : SessionStore :=
  let (revived, store) := ids.foldl reviveRow ([], store)
  let store := store.invalidateProjection
  match revived.head? with
  | some first => store.select first
  | none => store

def finishAutoResume (store : SessionStore) (id : SessionId) : SessionStore :=
  { store with autoResuming := store.autoResuming.filter (· ≠ id) }

def rename (store : SessionStore) (id : SessionId) (title : String) : SessionStore :=
  let store := if (store.sessions.get id).isSome then
      (store.modify id fun session =>
        { session with title := title, titleSource := .userRename }).invalidateProjection
    else store
  store.emit (.rename id title)

/-! ### Records from the daemon -/

/-- A full resync is the authority. -/
def takeList (store : SessionStore) (result : SessionListResult) : SessionStore :=
  let store := { store with
    closing := []
    sessions := .ofList result.sessions
    projects := .ofList result.projects }
  { store with
    selectedSessionId :=
      store.selectedSessionId.filter fun id => (store.sessions.get id).isSome }.invalidateProjection

/-- A restored selection did not travel through `focus_session`. -/
def restoreTerminal (store : SessionStore) : SessionStore :=
  match store.selectedSessionId with
  | some id =>
    if store.isActive id && !store.terminalResidency.order.contains id then
      store.touchTerminal id
    else store
  | none => store

def hydrate (store : SessionStore) (result : SessionListResult) : SessionStore :=
  (store.takeList result).syncSidebarOrder.autoSelectIfNeeded.restoreTerminal
    |>.autoResumeSelectedIfNeeded.reconcileNavigation

def shouldAutoClose (store : SessionStore) (session : SessionRecord) : Bool :=
  !store.closing.contains session.id && App.SessionStore.exitedClean session &&
    (store.sessions.get session.id).all fun previous => !App.SessionStore.isExited previous

/-- The first part of `upsert_session`: a spawn selects the id before the record arrives. -/
def takeRecord (store : SessionStore) (session : SessionRecord) : SessionStore :=
  let isNew := (store.sessions.get session.id).isNone
  let store := { store with sessions := store.sessions.insert session }
  let store :=
    if isNew && store.selectedSessionId == some session.id && !session.isArchived &&
        !store.terminalResidency.order.contains session.id then
      store.touchTerminal session.id
    else store
  let store := store.invalidateProjection
  if isNew then store.syncSidebarOrder else store

/-- The last part: what the selection makes of the record. -/
def settleRecord (store : SessionStore) (id : SessionId) (isNew : Bool) : SessionStore :=
  let store := store.autoResumeIfNeeded id
  let store :=
    if isNew then
      if store.selectedSessionId = some id then store.focusSession id
      else store.autoSelectIfNeeded
    else store
  store.reconcileNavigation

def upsertSession (walk : HashOrder SessionRecord) (store : SessionStore)
    (session : SessionRecord) : SessionStore :=
  if store.shouldAutoClose session then
    (store.takeRecord session).removeSessions walk [session.id]
  else
    (store.takeRecord session).settleRecord session.id (store.sessions.get session.id).isNone

def removeSessionRecord (store : SessionStore) (id : SessionId) : SessionStore :=
  let store := if store.selectedSessionId = some id then store.focusNeighbor [id] else store
  let store := { store with
    sessions := store.sessions.erase id
    closing := store.closing.filter (· ≠ id)
    sidebarSelection := store.sidebarSelection.filter (· ≠ id)
    mruOrder := store.mruOrder.filter (· ≠ id)
    autoResuming := store.autoResuming.filter (· ≠ id) }
  (store.dropTerminal id).invalidateProjection.syncSidebarOrder.reconcileNavigation

def handleEvent (walk : HashOrder SessionRecord) (store : SessionStore) : Event → SessionStore
  | .sessionUpdated session =>
    if store.sessions.get session.id = some session then store
    else store.upsertSession walk session
  | .sessionResources resources =>
    match store.sessions.get resources.id with
    | some record =>
      if record.sampled resources = record then store
      else
        { store with
          sessions := store.sessions.insert (record.sampled resources) }.invalidateProjection
    | none => store
  | .sessionRemoved id =>
    if (store.sessions.get id).isSome then store.removeSessionRecord id else store
  | .projectUpdated project =>
    if store.projects.get project.id = some project then store
    else
      { store with
        projects := store.projects.insert project }.invalidateProjection.syncSidebarOrder

/-! ### Preferences -/

/-- `update_preferences`; what `normalize` clamps is not kept here. -/
def updatePreferences (store : SessionStore) (update : Preferences → Preferences) :
    SessionStore :=
  { store with prefs := update store.prefs }.invalidateProjection

def setProjectOrder (store : SessionStore) (order : List ProjectId) : SessionStore :=
  store.updatePreferences fun prefs => { prefs with sidebarProjectOrder := order }

def setSessionOrder (store : SessionStore) (order : List SessionId) : SessionStore :=
  store.updatePreferences fun prefs => { prefs with sidebarSessionOrder := order }

def stageProjectOrder (store : SessionStore) (order : List ProjectId) : SessionStore :=
  if store.prefs.sidebarProjectOrder = order then store else store.setProjectOrder order

def stageSessionOrder (store : SessionStore) (order : List SessionId) : SessionStore :=
  if store.prefs.sidebarSessionOrder = order then store else store.setSessionOrder order

def toggleVecMember (values : List String) (value : String) : List String :=
  if values.contains value then values.erase value else values ++ [value]

def toggleProjectPin (store : SessionStore) (id : ProjectId) : SessionStore :=
  store.updatePreferences fun prefs =>
    { prefs with sidebarPinnedProjects := toggleVecMember prefs.sidebarPinnedProjects id }

def toggleSessionPin (store : SessionStore) (id : SessionId) : SessionStore :=
  store.updatePreferences fun prefs =>
    { prefs with sidebarPinnedSessions := toggleVecMember prefs.sidebarPinnedSessions id }

def toggleProjectCollapsed (store : SessionStore) (id : ProjectId) : SessionStore :=
  store.updatePreferences fun prefs =>
    { prefs with sidebarCollapsedProjects := toggleVecMember prefs.sidebarCollapsedProjects id }

/-- The walk of `is_descendant_of`. -/
def reaches (sessions : SessionMap) (ancestor : SessionId) :
    Nat → List SessionId → Option SessionId → Bool
  | _, _, none => false
  | 0, _, some _ => false
  | fuel + 1, seen, some node =>
    if node = ancestor then true
    else if node ∈ seen then false
    else reaches sessions ancestor fuel (node :: seen) ((sessions.get node).bind (·.parent))

def isDescendantOf (store : SessionStore) (candidate ancestor : SessionId) : Bool :=
  reaches store.sessions ancestor (store.sessions.values.length + 1) [candidate]
    ((store.sessions.get candidate).bind (·.parent))

def toggleSessionCollapsed (store : SessionStore) (id : SessionId) : SessionStore :=
  let collapsing := !store.prefs.sidebarCollapsedSessions.contains id
  let store :=
    if collapsing && store.selectedSessionId.any (store.isDescendantOf · id) then store.select id
    else store
  store.updatePreferences fun prefs =>
    { prefs with sidebarCollapsedSessions := toggleVecMember prefs.sidebarCollapsedSessions id }

def toggleArchiveExpanded (store : SessionStore) (id : ProjectId) : SessionStore :=
  let store :=
    if store.prefs.sidebarExpandedArchives.contains id then
      { store with
        sidebarSelection := store.sidebarSelection.filter fun sessionId =>
          !(store.sessions.get sessionId).any fun session =>
            session.projectId == id && session.isArchived }
    else store
  store.updatePreferences fun prefs =>
    { prefs with sidebarExpandedArchives := toggleVecMember prefs.sidebarExpandedArchives id }

/-! ### Switcher and overview -/

def applySwitcherOutcome (store : SessionStore) : SwitcherOutcome → SessionStore
  | .committed id => store.select id
  | _ => store

/-- Only Ctrl-Tab with a closed switcher reads the recent sessions. -/
def opensSwitcher (store : SessionStore) : SwitcherKey → Bool
  | .tab true _ => !store.switcher.visible
  | _ => false

def pressSwitcherKey (store : SessionStore) (key : SwitcherKey) (order : List SessionId) :
    SessionStore :=
  let (switcher, outcome) := store.switcher.keyDown key order
  { store with switcher := switcher }.applySwitcherOutcome outcome

def handleSwitcherKey (store : SessionStore) (key : SwitcherKey) : SessionStore :=
  if store.opensSwitcher key then
    let (order, store) := store.mruSessions
    store.pressSwitcherKey key order
  else store.pressSwitcherKey key []

def handleSwitcherModifiersChanged (store : SessionStore) (controlHeld : Bool) : SessionStore :=
  let (switcher, outcome) := store.switcher.modifiersChanged controlHeld
  { store with switcher := switcher }.applySwitcherOutcome outcome

def commitSwitcherIndex (store : SessionStore) (index : Nat) : SessionStore :=
  let (switcher, selected) := store.switcher.commitIndex index
  let store := { store with switcher := switcher }
  match selected with
  | some id => store.select id
  | none => store

def cancelSwitcher (store : SessionStore) : SessionStore :=
  { store with switcher := store.switcher.cancel }

def applyOverviewOutcome (walk : HashOrder SessionRecord) (store : SessionStore) :
    OverviewOutcome → SessionStore
  | .activate id => store.select id
  | .requestClose ids => store.requestClose walk ids
  | _ => store

/-- An overview action that reads the ordered sessions. -/
def withOverview (store : SessionStore)
    (f : SessionOverviewState → List SessionRecord → SessionOverviewState) : SessionStore :=
  let (sessions, store) := store.orderedSessions
  { store with overview := f store.overview sessions }

def toggleOverview (store : SessionStore) : SessionStore :=
  let store := store.withOverview fun overview => overview.toggle store.reading
  if store.overview.visible then store.cancelSwitcher else store

def dismissOverview (store : SessionStore) : SessionStore :=
  { store with overview := store.overview.dismiss }

def setOverviewMode (store : SessionStore) (mode : OverviewMode) : SessionStore :=
  store.withOverview fun overview => overview.setMode store.reading mode

def setOverviewFilter (store : SessionStore) (filter : OverviewFilter) : SessionStore :=
  store.withOverview fun overview => overview.setFilter store.reading filter

def appendOverviewQuery (store : SessionStore) (text : String) : SessionStore :=
  store.withOverview fun overview => overview.appendQuery store.reading text

/-- An overview action with an outcome, on the ordered sessions. -/
def actOnOverview (walk : HashOrder SessionRecord) (store : SessionStore)
    (f : SessionOverviewState → List SessionRecord → SessionOverviewState × OverviewOutcome) :
    SessionStore :=
  let (sessions, store) := store.orderedSessions
  let (overview, outcome) := f store.overview sessions
  { store with overview := overview }.applyOverviewOutcome walk outcome

def overviewBackspace (walk : HashOrder SessionRecord) (store : SessionStore) : SessionStore :=
  store.actOnOverview walk fun overview => overview.backspace store.reading

def overviewEscape (walk : HashOrder SessionRecord) (store : SessionStore) : SessionStore :=
  store.actOnOverview walk fun overview => overview.escape store.reading

def moveOverviewFocus (store : SessionStore) (arrow : OverviewArrow) : SessionStore :=
  store.withOverview fun overview => overview.moveFocus store.reading arrow

/-- An overview action with an outcome that reads no sessions. -/
def actOnSelection (walk : HashOrder SessionRecord) (store : SessionStore)
    (f : SessionOverviewState → SessionOverviewState × OverviewOutcome) : SessionStore :=
  let (overview, outcome) := f store.overview
  { store with overview := overview }.applyOverviewOutcome walk outcome

def activateOverviewFocus (walk : HashOrder SessionRecord) (store : SessionStore) :
    SessionStore :=
  store.actOnSelection walk (·.activateFocused)

def activateOverviewSession (walk : HashOrder SessionRecord) (store : SessionStore)
    (id : SessionId) : SessionStore :=
  store.actOnSelection walk (·.activate id)

def toggleOverviewSelection (store : SessionStore) (id : SessionId) : SessionStore :=
  if (store.sessions.get id).isSome then
    { store with overview := store.overview.toggleSelection id }
  else store

def clearOverviewSelection (store : SessionStore) : SessionStore :=
  { store with overview := store.overview.clearSelection }

def selectAllOverviewSessions (store : SessionStore) : SessionStore :=
  store.withOverview fun overview => overview.selectAllVisible store.reading

def closeOverviewSelection (walk : HashOrder SessionRecord) (store : SessionStore) :
    SessionStore :=
  store.actOnSelection walk (·.closeSelected)

def closeOverviewSession (walk : HashOrder SessionRecord) (store : SessionStore)
    (id : SessionId) : SessionStore :=
  store.actOnSelection walk (·.closeOne id)

end SessionStore

/-! ### Runs -/

/-- The public operations, and those the runtime calls. -/
inductive Operation where
  | hydrate (result : SessionListResult)
  | handleEvent (event : Event)
  | upsertSession (session : SessionRecord)
  | removeSessionRecord (id : SessionId)
  | select (id : SessionId)
  | applySpawnResult (id : SessionId)
  | sidebarClick (id : SessionId) (modifiers : ClickModifiers)
  | clearSidebarSelection
  | sidebarSelectionOrdered
  | focusNeighbor (excluded : List SessionId)
  | mruSessions
  | requestClose (ids : List SessionId)
  | confirmPendingClose
  | cancelPendingClose
  | removeSessions (ids : List SessionId)
  | archiveSessions (ids : List SessionId) (now : SessionId → DateMillis)
  | reviveSessions (ids : List SessionId)
  | autoResumeIfNeeded (id : SessionId)
  | finishAutoResume (id : SessionId)
  | rename (id : SessionId) (title : String)
  | reconcileSidebarOrder
  | setProjectOrder (order : List ProjectId)
  | setSessionOrder (order : List SessionId)
  | stageProjectOrder (order : List ProjectId)
  | stageSessionOrder (order : List SessionId)
  | toggleProjectPin (id : ProjectId)
  | toggleSessionPin (id : SessionId)
  | toggleProjectCollapsed (id : ProjectId)
  | toggleSessionCollapsed (id : SessionId)
  | toggleArchiveExpanded (id : ProjectId)
  | updatePreferences (update : Preferences → Preferences)
  | sidebarProjection
  | handleSwitcherKey (key : SwitcherKey)
  | handleSwitcherModifiersChanged (controlHeld : Bool)
  | commitSwitcherIndex (index : Nat)
  | cancelSwitcher
  | toggleOverview
  | dismissOverview
  | setOverviewMode (mode : OverviewMode)
  | setOverviewFilter (filter : OverviewFilter)
  | appendOverviewQuery (text : String)
  | overviewBackspace
  | overviewEscape
  | moveOverviewFocus (arrow : OverviewArrow)
  | activateOverviewFocus
  | activateOverviewSession (id : SessionId)
  | toggleOverviewSelection (id : SessionId)
  | clearOverviewSelection
  | selectAllOverviewSessions
  | closeOverviewSelection
  | closeOverviewSession (id : SessionId)

/-- An operation, and the order in which it finds the sessions in their hash map. -/
structure Turn where
  walk : HashOrder SessionRecord
  operation : Operation

/-- `sidebar_session_order` and `sidebar_project_order` are the sync of the sidebar order without
the write to disk; `ordered_sessions` reads the sidebar as `sidebar_projection` does. -/
def perform (store : SessionStore) (turn : Turn) : SessionStore :=
  match turn.operation with
  | .hydrate result => store.hydrate result
  | .handleEvent event => store.handleEvent turn.walk event
  | .upsertSession session => store.upsertSession turn.walk session
  | .removeSessionRecord id => store.removeSessionRecord id
  | .select id => store.select id
  | .applySpawnResult id => store.focusSession id
  | .sidebarClick id modifiers => store.sidebarClick id modifiers
  | .clearSidebarSelection => { store with sidebarSelection := [] }
  | .sidebarSelectionOrdered => store.sidebarSelectionOrdered.2
  | .focusNeighbor excluded => store.focusNeighbor excluded
  | .mruSessions => store.mruSessions.2
  | .requestClose ids => store.requestClose turn.walk ids
  | .confirmPendingClose => store.confirmPendingClose turn.walk
  | .cancelPendingClose => store.cancelPendingClose
  | .removeSessions ids => store.removeSessions turn.walk ids
  | .archiveSessions ids now => store.archiveSessions now ids
  | .reviveSessions ids => store.reviveSessions ids
  | .autoResumeIfNeeded id => store.autoResumeIfNeeded id
  | .finishAutoResume id => store.finishAutoResume id
  | .rename id title => store.rename id title
  | .reconcileSidebarOrder => store.syncSidebarOrder
  | .setProjectOrder order => store.setProjectOrder order
  | .setSessionOrder order => store.setSessionOrder order
  | .stageProjectOrder order => store.stageProjectOrder order
  | .stageSessionOrder order => store.stageSessionOrder order
  | .toggleProjectPin id => store.toggleProjectPin id
  | .toggleSessionPin id => store.toggleSessionPin id
  | .toggleProjectCollapsed id => store.toggleProjectCollapsed id
  | .toggleSessionCollapsed id => store.toggleSessionCollapsed id
  | .toggleArchiveExpanded id => store.toggleArchiveExpanded id
  | .updatePreferences update => store.updatePreferences update
  | .sidebarProjection => store.sidebarProjection.2
  | .handleSwitcherKey key => store.handleSwitcherKey key
  | .handleSwitcherModifiersChanged controlHeld =>
    store.handleSwitcherModifiersChanged controlHeld
  | .commitSwitcherIndex index => store.commitSwitcherIndex index
  | .cancelSwitcher => store.cancelSwitcher
  | .toggleOverview => store.toggleOverview
  | .dismissOverview => store.dismissOverview
  | .setOverviewMode mode => store.setOverviewMode mode
  | .setOverviewFilter filter => store.setOverviewFilter filter
  | .appendOverviewQuery text => store.appendOverviewQuery text
  | .overviewBackspace => store.overviewBackspace turn.walk
  | .overviewEscape => store.overviewEscape turn.walk
  | .moveOverviewFocus arrow => store.moveOverviewFocus arrow
  | .activateOverviewFocus => store.activateOverviewFocus turn.walk
  | .activateOverviewSession id => store.activateOverviewSession turn.walk id
  | .toggleOverviewSelection id => store.toggleOverviewSelection id
  | .clearOverviewSelection => store.clearOverviewSelection
  | .selectAllOverviewSessions => store.selectAllOverviewSessions
  | .closeOverviewSelection => store.closeOverviewSelection turn.walk
  | .closeOverviewSession id => store.closeOverviewSession turn.walk id

def step (store : SessionStore) (turn : Turn) : SessionStore × Unit := (perform store turn, ())

end Homie.App.Navigation
