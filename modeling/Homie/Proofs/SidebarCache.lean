/-
The cached sidebar is the sidebar.

Every operation that changes what the sidebar is computed from invalidates the cache before anyone
reads it.  Most operations end in an invalidation or in reads, so that they leave a fresh cache
whatever they found.
-/
import Homie.App.Navigation
import Homie.Lib.Trace
import Homie.Proofs.ManualOrder

namespace Homie.App.Navigation

open Sorting Trace

/-! ### The projection of a state -/

/-- The order in which the groups are walked does not show in the projection. -/
theorem buildProjection_order (order order' : HashOrder (ProjectId × List SessionRecord))
    {fuel fuel' : Nat} (sessions : SessionMap) (projects : ProjectMap) (prefs : Prefs)
    (selected : Option SessionId) (closing : List SessionId)
    (hfuel : sessions.values.length ≤ fuel) (hfuel' : sessions.values.length ≤ fuel') :
    ∃ projection,
      buildProjection order fuel sessions projects.get prefs selected closing = some projection ∧
      buildProjection order' fuel' sessions projects.get prefs selected closing =
        some projection := by
  obtain ⟨projection, _, hbuild, _⟩ := exists_projection order sessions projects.get prefs selected
    closing
  obtain ⟨projection', _, hbuild', _⟩ := exists_projection order' sessions projects.get prefs
    selected closing
  have hvisit := order.perm (grouped sessions closing)
  have hnodup := (hvisit.map (·.1)).nodup_iff.mpr (grouped_groups sessions closing).nodup
  have hl := projection_of_groups (hbuild fuel hfuel)
  have hr := projection_of_groups (hbuild' fuel hfuel)
  rw [← sorted_built _ (hvisit.trans (order'.perm (grouped sessions closing)).symm) hnodup,
    ← hl] at hr
  refine ⟨projection, hbuild fuel hfuel, ?_⟩
  rw [hbuild' fuel' hfuel', hr]

namespace SessionStore

variable {store : SessionStore} {walk : HashOrder SessionRecord} {id : SessionId}

theorem currentProjection_eq (store : SessionStore)
    (order : HashOrder (ProjectId × List SessionRecord)) {fuel : Nat}
    (hfuel : store.sessions.values.length ≤ fuel) :
    buildProjection order fuel store.sessions store.projects.get store.prefs.toPrefs
      store.selectedSessionId store.closing = some store.currentProjection := by
  obtain ⟨projection, hbuild, hcurrent⟩ := buildProjection_order order asGrouped store.sessions
    store.projects store.prefs.toPrefs store.selectedSessionId store.closing hfuel (Nat.le_refl _)
  unfold currentProjection
  rw [hbuild, hcurrent, Option.getD_some]

/-! ### Freshness -/

/-- A cache entry of the current revision is the current projection. -/
def Fresh (store : SessionStore) : Prop :=
  ∀ revision projection, store.cachedProjection = some (revision, projection) →
    revision = store.revision → projection = store.currentProjection

theorem fresh_invalidate (store : SessionStore) : store.invalidateProjection.Fresh := by
  intro revision projection h
  cases h

theorem Fresh.sidebarProjection (h : store.Fresh) :
    ∃ cache, store.sidebarProjection =
        (store.currentProjection, { store with cachedProjection := cache }) ∧
      Fresh { store with cachedProjection := cache } := by
  have hrebuilt : Fresh { store with
      cachedProjection := some (store.revision, store.currentProjection) } := by
    intro revision projection hcache _
    rw [Option.some.injEq, Prod.mk.injEq] at hcache
    exact hcache.2.symm
  unfold SessionStore.sidebarProjection
  cases hcache : store.cachedProjection with
  | none => exact ⟨_, rfl, hrebuilt⟩
  | some entry =>
    obtain ⟨revision, projection⟩ := entry
    by_cases hrevision : revision = store.revision
    · refine ⟨some (revision, projection), ?_, ?_⟩
      · simp only [if_pos hrevision]
        rw [h revision projection hcache hrevision, ← h revision projection hcache hrevision,
          ← hcache]
      · intro revision' projection' hcache'
        exact h revision' projection' (hcache.trans hcache')
    · refine ⟨_, ?_, hrebuilt⟩
      simp only [if_neg hrevision]

theorem Fresh.orderedSessions (h : store.Fresh) :
    ∃ cache, store.orderedSessions =
        (store.currentProjection.orderedSessions, { store with cachedProjection := cache }) ∧
      Fresh { store with cachedProjection := cache } := by
  obtain ⟨cache, hread, hfresh⟩ := h.sidebarProjection
  refine ⟨cache, ?_, hfresh⟩
  unfold SessionStore.orderedSessions
  rw [hread]

theorem Fresh.emit (h : store.Fresh) (effect : StoreEffect) : (store.emit effect).Fresh := h

theorem Fresh.touchTerminal (h : store.Fresh) (id : SessionId) :
    (store.touchTerminal id).Fresh := by
  unfold SessionStore.touchTerminal
  dsimp only
  split
  · exact h
  · exact h

theorem Fresh.autoResumeIfNeeded (h : store.Fresh) (id : SessionId) :
    (store.autoResumeIfNeeded id).Fresh := by
  unfold SessionStore.autoResumeIfNeeded
  dsimp only
  split
  · exact h
  · exact h

/-! ### Navigation -/

theorem Fresh.attachFocused (h : store.Fresh) (id : SessionId) :
    (store.attachFocused id).Fresh := by
  unfold SessionStore.attachFocused
  split
  · exact (h.touchTerminal id).emit _
  · exact h

theorem fresh_focusSession (store : SessionStore) (id : SessionId) :
    (store.focusSession id).Fresh := by
  have hmarked : (store.markSelected id).Fresh := fresh_invalidate _
  exact ((hmarked.attachFocused id).autoResumeIfNeeded id).emit _

theorem fresh_setSelectedSurvivor (store : SessionStore) (survivor : Option SessionId) :
    (store.setSelectedSurvivor survivor).Fresh := by
  cases survivor with
  | none => exact fresh_invalidate _
  | some id => exact fresh_focusSession store id

theorem Fresh.autoSelectIfNeeded (h : store.Fresh) : store.autoSelectIfNeeded.Fresh := by
  unfold SessionStore.autoSelectIfNeeded
  split
  · exact h
  · exact fresh_setSelectedSurvivor _ _

theorem Fresh.autoResumeSelectedIfNeeded (h : store.Fresh) :
    store.autoResumeSelectedIfNeeded.Fresh := by
  unfold SessionStore.autoResumeSelectedIfNeeded
  split
  · exact h.autoResumeIfNeeded _
  · exact h

theorem Fresh.withOverview (h : store.Fresh)
    (f : SessionOverviewState → List SessionRecord → SessionOverviewState) :
    (store.withOverview f).Fresh := by
  obtain ⟨cache, hread, hfresh⟩ := h.orderedSessions
  unfold SessionStore.withOverview
  rw [hread]
  exact hfresh

theorem Fresh.reconcileNavigation (h : store.Fresh) : store.reconcileNavigation.Fresh := by
  have hswitcher : Fresh { store with
      switcher := store.switcher.reconcile fun id => (store.sessions.get id).isSome } := h
  exact hswitcher.withOverview _

theorem reconcileSidebarOrder_unchanged {sessions : SessionMap} {projects : ProjectMap}
    {prefs : Prefs} (h : (reconcileSidebarOrder sessions projects prefs).2 = false) :
    (reconcileSidebarOrder sessions projects prefs).1 = prefs := by
  unfold reconcileSidebarOrder at h ⊢
  simp only [Bool.or_eq_false_iff, Option.isSome_eq_false_iff, Option.isNone_iff_eq_none] at h ⊢
  obtain ⟨⟨⟨hsessions, hprojects⟩, hcollapsed⟩, hpinned⟩ := h
  rw [hsessions, hprojects, hcollapsed, hpinned]
  rfl

theorem Fresh.syncSidebarOrder (h : store.Fresh) : store.syncSidebarOrder.Fresh := by
  unfold SessionStore.syncSidebarOrder
  dsimp only
  split
  · exact fresh_invalidate _
  · next hchanged =>
      rw [reconcileSidebarOrder_unchanged (Bool.not_eq_true _ ▸ hchanged)]
      exact h

theorem fresh_focusNeighbor (store : SessionStore) (excluded : List SessionId) :
    (store.focusNeighbor excluded).Fresh :=
  fresh_setSelectedSurvivor _ _

theorem Fresh.select (h : store.Fresh) (id : SessionId) : (store.select id).Fresh := by
  unfold SessionStore.select
  split
  · exact fresh_focusSession _ id
  · exact h

theorem Fresh.selectRange (h : store.Fresh) (id : SessionId) : (store.selectRange id).Fresh := by
  obtain ⟨cache, hread, hfresh⟩ := h.sidebarProjection
  unfold SessionStore.selectRange sidebarVisibleOrder
  rw [hread]
  dsimp only
  split
  · exact hfresh
  · exact hfresh

theorem Fresh.sidebarSelectionOrdered (h : store.Fresh) :
    ∃ cache, store.sidebarSelectionOrdered =
        (store.currentProjection.displayOrder.filter store.sidebarSelection.contains,
          { store with cachedProjection := cache }) ∧
      Fresh { store with cachedProjection := cache } := by
  obtain ⟨cache, hread, hfresh⟩ := h.sidebarProjection
  refine ⟨cache, ?_, hfresh⟩
  unfold SessionStore.sidebarSelectionOrdered
  rw [hread]

theorem Fresh.withFocused (h : store.Fresh) (id : SessionId) : (store.withFocused id).Fresh := by
  unfold SessionStore.withFocused
  split
  · split
    · exact h
    · exact h
  · exact h

theorem Fresh.dropRow (h : store.Fresh) (id : SessionId) : (store.dropRow id).Fresh := by
  have hkept : Fresh { store with sidebarSelection := store.sidebarSelection.filter (· ≠ id) } := h
  obtain ⟨cache, hread, hfresh⟩ := hkept.sidebarSelectionOrdered
  unfold SessionStore.dropRow
  dsimp only
  rw [hread]
  split
  · split
    · exact fresh_focusSession _ _
    · exact hfresh
  · exact h

theorem Fresh.toggleRow (h : store.Fresh) (id : SessionId) : (store.toggleRow id).Fresh := by
  unfold SessionStore.toggleRow
  dsimp only
  split
  · exact (h.withFocused id).dropRow id
  · exact h.withFocused id

theorem Fresh.sidebarClick (h : store.Fresh) (id : SessionId) (modifiers : ClickModifiers) :
    (store.sidebarClick id modifiers).Fresh := by
  unfold SessionStore.sidebarClick
  split
  · exact h
  · split
    · exact h.selectRange id
    · split
      · exact h.toggleRow id
      · exact h.select id

theorem Fresh.mruSessions (h : store.Fresh) :
    ∃ cache, store.mruSessions =
        (((store.mruOrder.filter fun id => (store.sessions.get id).isSome).eraseDups ++
          store.currentProjection.orderedSessions.map (·.id)).eraseDups,
          { store with cachedProjection := cache }) ∧
      Fresh { store with cachedProjection := cache } := by
  obtain ⟨cache, hread, hfresh⟩ := h.orderedSessions
  refine ⟨cache, ?_, hfresh⟩
  unfold SessionStore.mruSessions
  rw [hread]

/-! ### Closing, archiving, reviving -/

theorem fresh_removeSessions (walk : HashOrder SessionRecord) (store : SessionStore)
    (ids : List SessionId) : (store.removeSessions walk ids).Fresh :=
  (fresh_invalidate _).reconcileNavigation

theorem Fresh.requestClose (h : store.Fresh) (walk : HashOrder SessionRecord)
    (ids : List SessionId) : (store.requestClose walk ids).Fresh := by
  unfold SessionStore.requestClose
  dsimp only
  split
  · exact h
  · split
    · exact h
    · exact fresh_removeSessions walk store _

theorem Fresh.confirmPendingClose (h : store.Fresh) (walk : HashOrder SessionRecord) :
    (store.confirmPendingClose walk).Fresh := by
  unfold SessionStore.confirmPendingClose
  split
  · exact fresh_removeSessions walk _ _
  · exact h

theorem fresh_reviveSessions (store : SessionStore) (ids : List SessionId) :
    (store.reviveSessions ids).Fresh := by
  unfold reviveSessions
  dsimp only
  split
  · exact (fresh_invalidate _).select _
  · exact fresh_invalidate _

theorem Fresh.rename (h : store.Fresh) (id : SessionId) (title : String) :
    (store.rename id title).Fresh := by
  unfold SessionStore.rename
  dsimp only
  split
  · exact fresh_invalidate _
  · exact h

/-! ### Records from the daemon -/

theorem Fresh.restoreTerminal (h : store.Fresh) : store.restoreTerminal.Fresh := by
  unfold SessionStore.restoreTerminal
  split
  · split
    · exact h.touchTerminal _
    · exact h
  · exact h

theorem fresh_hydrate (store : SessionStore) (result : SessionListResult) :
    (store.hydrate result).Fresh := by
  have htaken : (store.takeList result).Fresh := fresh_invalidate _
  exact htaken.syncSidebarOrder.autoSelectIfNeeded.restoreTerminal.autoResumeSelectedIfNeeded
    |>.reconcileNavigation

theorem fresh_takeRecord (store : SessionStore) (session : SessionRecord) :
    (store.takeRecord session).Fresh := by
  unfold takeRecord
  dsimp only
  split
  · exact (fresh_invalidate _).syncSidebarOrder
  · exact fresh_invalidate _

theorem Fresh.settleRecord (h : store.Fresh) (id : SessionId) (isNew : Bool) :
    (store.settleRecord id isNew).Fresh := by
  unfold SessionStore.settleRecord
  dsimp only
  refine Fresh.reconcileNavigation ?_
  split
  · split
    · exact fresh_focusSession _ _
    · exact (h.autoResumeIfNeeded id).autoSelectIfNeeded
  · exact h.autoResumeIfNeeded id

theorem fresh_upsertSession (walk : HashOrder SessionRecord) (store : SessionStore)
    (session : SessionRecord) : (store.upsertSession walk session).Fresh := by
  unfold upsertSession
  split
  · exact fresh_removeSessions walk _ _
  · exact (fresh_takeRecord store session).settleRecord _ _

theorem fresh_removeSessionRecord (store : SessionStore) (id : SessionId) :
    (store.removeSessionRecord id).Fresh :=
  (fresh_invalidate _).syncSidebarOrder.reconcileNavigation

theorem Fresh.handleEvent (h : store.Fresh) (walk : HashOrder SessionRecord) (event : Event) :
    (store.handleEvent walk event).Fresh := by
  cases event with
  | sessionUpdated session =>
    unfold SessionStore.handleEvent
    dsimp only
    split
    · exact h
    · exact fresh_upsertSession walk store session
  | sessionResources resources =>
    unfold SessionStore.handleEvent
    dsimp only
    split
    · split
      · exact h
      · exact fresh_invalidate _
    · exact h
  | sessionRemoved id =>
    unfold SessionStore.handleEvent
    dsimp only
    split
    · exact fresh_removeSessionRecord store id
    · exact h
  | projectUpdated project =>
    unfold SessionStore.handleEvent
    dsimp only
    split
    · exact h
    · exact (fresh_invalidate _).syncSidebarOrder

/-! ### Switcher and overview -/

theorem Fresh.applySwitcherOutcome (h : store.Fresh) (outcome : SwitcherOutcome) :
    (store.applySwitcherOutcome outcome).Fresh := by
  unfold SessionStore.applySwitcherOutcome
  split
  · exact h.select _
  · exact h

theorem Fresh.applyOverviewOutcome (h : store.Fresh) (walk : HashOrder SessionRecord)
    (outcome : OverviewOutcome) : (store.applyOverviewOutcome walk outcome).Fresh := by
  unfold SessionStore.applyOverviewOutcome
  split
  · exact h.select _
  · exact h.requestClose walk _
  · exact h

theorem Fresh.actOnOverview (h : store.Fresh) (walk : HashOrder SessionRecord)
    (f : SessionOverviewState → List SessionRecord → SessionOverviewState × OverviewOutcome) :
    (store.actOnOverview walk f).Fresh := by
  obtain ⟨cache, hread, hfresh⟩ := h.orderedSessions
  unfold SessionStore.actOnOverview
  rw [hread]
  have hnext : Fresh { store with
      cachedProjection := cache
      overview := (f store.overview store.currentProjection.orderedSessions).1 } := hfresh
  exact hnext.applyOverviewOutcome walk _

theorem Fresh.actOnSelection (h : store.Fresh) (walk : HashOrder SessionRecord)
    (f : SessionOverviewState → SessionOverviewState × OverviewOutcome) :
    (store.actOnSelection walk f).Fresh := by
  have hnext : Fresh { store with overview := (f store.overview).1 } := h
  exact hnext.applyOverviewOutcome walk _

theorem Fresh.pressSwitcherKey (h : store.Fresh) (key : SwitcherKey) (order : List SessionId) :
    (store.pressSwitcherKey key order).Fresh := by
  have hnext : Fresh { store with switcher := (store.switcher.keyDown key order).1 } := h
  exact hnext.applySwitcherOutcome _

theorem Fresh.handleSwitcherModifiersChanged (h : store.Fresh) (controlHeld : Bool) :
    (store.handleSwitcherModifiersChanged controlHeld).Fresh := by
  have hnext : Fresh { store with
      switcher := (store.switcher.modifiersChanged controlHeld).1 } := h
  exact hnext.applySwitcherOutcome _

theorem Fresh.commitSwitcherIndex (h : store.Fresh) (index : Nat) :
    (store.commitSwitcherIndex index).Fresh := by
  have hnext : Fresh { store with switcher := (store.switcher.commitIndex index).1 } := h
  unfold SessionStore.commitSwitcherIndex
  dsimp only
  split
  · exact hnext.select _
  · exact hnext

theorem Fresh.handleSwitcherKey (h : store.Fresh) (key : SwitcherKey) :
    (store.handleSwitcherKey key).Fresh := by
  obtain ⟨cache, hread, hfresh⟩ := h.mruSessions
  unfold SessionStore.handleSwitcherKey
  rw [hread]
  split
  · exact hfresh.pressSwitcherKey key _
  · exact h.pressSwitcherKey key []

end SessionStore

/-! ### Every run -/

theorem fresh_perform {store : SessionStore} (h : store.Fresh) (turn : Turn) :
    (perform store turn).Fresh := by
  obtain ⟨walk, operation⟩ := turn
  cases operation with
  | hydrate result => exact store.fresh_hydrate result
  | handleEvent event => exact h.handleEvent walk event
  | upsertSession session => exact SessionStore.fresh_upsertSession walk store session
  | removeSessionRecord id => exact store.fresh_removeSessionRecord id
  | select id => exact h.select id
  | applySpawnResult id => exact store.fresh_focusSession id
  | sidebarClick id modifiers => exact h.sidebarClick id modifiers
  | clearSidebarSelection => exact h
  | sidebarSelectionOrdered =>
    obtain ⟨cache, hread, hfresh⟩ := h.sidebarSelectionOrdered
    change SessionStore.Fresh store.sidebarSelectionOrdered.2
    rw [hread]
    exact hfresh
  | focusNeighbor excluded => exact store.fresh_focusNeighbor excluded
  | mruSessions =>
    obtain ⟨cache, hread, hfresh⟩ := h.mruSessions
    change SessionStore.Fresh store.mruSessions.2
    rw [hread]
    exact hfresh
  | requestClose ids => exact h.requestClose walk ids
  | confirmPendingClose => exact h.confirmPendingClose walk
  | cancelPendingClose => exact h
  | removeSessions ids => exact SessionStore.fresh_removeSessions walk store ids
  | archiveSessions ids now => exact SessionStore.fresh_invalidate _
  | reviveSessions ids => exact store.fresh_reviveSessions ids
  | autoResumeIfNeeded id => exact h.autoResumeIfNeeded id
  | finishAutoResume id => exact h
  | rename id title => exact h.rename id title
  | reconcileSidebarOrder => exact h.syncSidebarOrder
  | setProjectOrder order => exact SessionStore.fresh_invalidate _
  | setSessionOrder order => exact SessionStore.fresh_invalidate _
  | stageProjectOrder order =>
    unfold perform SessionStore.stageProjectOrder
    dsimp only
    split
    · exact h
    · exact SessionStore.fresh_invalidate _
  | stageSessionOrder order =>
    unfold perform SessionStore.stageSessionOrder
    dsimp only
    split
    · exact h
    · exact SessionStore.fresh_invalidate _
  | toggleProjectPin id => exact SessionStore.fresh_invalidate _
  | toggleSessionPin id => exact SessionStore.fresh_invalidate _
  | toggleProjectCollapsed id => exact SessionStore.fresh_invalidate _
  | toggleSessionCollapsed id => exact SessionStore.fresh_invalidate _
  | toggleArchiveExpanded id => exact SessionStore.fresh_invalidate _
  | updatePreferences update => exact SessionStore.fresh_invalidate _
  | sidebarProjection =>
    obtain ⟨cache, hread, hfresh⟩ := h.sidebarProjection
    change SessionStore.Fresh store.sidebarProjection.2
    rw [hread]
    exact hfresh
  | handleSwitcherKey key => exact h.handleSwitcherKey key
  | handleSwitcherModifiersChanged controlHeld =>
    exact h.handleSwitcherModifiersChanged controlHeld
  | commitSwitcherIndex index => exact h.commitSwitcherIndex index
  | cancelSwitcher => exact h
  | toggleOverview =>
    have htoggled := h.withOverview fun overview => overview.toggle store.reading
    unfold perform SessionStore.toggleOverview
    dsimp only
    split
    · exact htoggled
    · exact htoggled
  | dismissOverview => exact h
  | setOverviewMode mode => exact h.withOverview _
  | setOverviewFilter filter => exact h.withOverview _
  | appendOverviewQuery text => exact h.withOverview _
  | overviewBackspace => exact h.actOnOverview walk _
  | overviewEscape => exact h.actOnOverview walk _
  | moveOverviewFocus arrow => exact h.withOverview _
  | activateOverviewFocus => exact h.actOnSelection walk _
  | activateOverviewSession id => exact h.actOnSelection walk _
  | toggleOverviewSelection id =>
    unfold perform SessionStore.toggleOverviewSelection
    dsimp only
    split
    · exact h
    · exact h
  | clearOverviewSelection => exact h
  | selectAllOverviewSessions => exact h.withOverview _
  | closeOverviewSelection => exact h.actOnSelection walk _
  | closeOverviewSession id => exact h.actOnSelection walk _

theorem fresh_headless (reading : OverviewReading) (prefs : Preferences) :
    (SessionStore.headless reading prefs).Fresh := by
  intro revision projection h
  cases h

theorem fresh_run (reading : OverviewReading) (prefs : Preferences) (turns : List Turn) :
    (run step (SessionStore.headless reading prefs) turns).Fresh :=
  run_invariant step (fresh_headless reading prefs) (fun _ turn h => fresh_perform h turn) turns

/-- **The cached sidebar is never stale.** After any operations, in any order, what
`sidebar_projection` returns is what `build_projection` makes of the current sessions, projects,
preferences, selection and closing set, whatever order it walks its groups in. -/
theorem sidebar_never_stale (reading : OverviewReading) (prefs : Preferences) (turns : List Turn)
    (order : HashOrder (ProjectId × List SessionRecord)) :
    let store := run step (SessionStore.headless reading prefs) turns
    ∀ fuel, store.sessions.values.length ≤ fuel →
      buildProjection order fuel store.sessions store.projects.get store.prefs.toPrefs
          store.selectedSessionId store.closing =
        some store.sidebarProjection.1 := by
  intro store fuel hfuel
  obtain ⟨cache, hread, _⟩ := (fresh_run reading prefs turns).sidebarProjection
  rw [hread]
  exact store.currentProjection_eq order hfuel

end Homie.App.Navigation
