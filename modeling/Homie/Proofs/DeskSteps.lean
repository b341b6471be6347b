/-
Everything an operation of the window can do to its desk.

`asked` is the session that the caller of an operation names to be focused, `closed` are the
sessions that an operation sends on their way out, `brought` is the record that it comes with.
`DeskStep` lists what the desk can look like after an operation; whatever an operation chooses by
itself is listed in the sidebar.
-/
import Homie.Proofs.Desk

namespace Homie.App

/-! ### What an operation is told -/

namespace SwitcherOutcome

def committedId : SwitcherOutcome → Option SessionId
  | .committed id => some id
  | _ => none

end SwitcherOutcome

namespace OverviewOutcome

def activated : OverviewOutcome → Option SessionId
  | .activate id => some id
  | _ => none

def requested : OverviewOutcome → List SessionId
  | .requestClose ids => ids
  | _ => []

end OverviewOutcome

namespace Navigation

/-- The record an operation comes with. -/
def Turn.brought (turn : Turn) : Option SessionRecord :=
  match turn.operation with
  | .upsertSession session => some session
  | .handleEvent (.sessionUpdated session) => some session
  | _ => none

/-- The row a command click is about. -/
def Turn.clicked (turn : Turn) : Option SessionId :=
  match turn.operation with
  | .sidebarClick id modifiers => if modifiers.command && !modifiers.shift then some id else none
  | _ => none

namespace SessionStore

variable (store : SessionStore)

/-- The first of `ids` that `revive_sessions` brings back. -/
def firstRevived (ids : List SessionId) : Option SessionId :=
  ids.find? fun id => (store.sessions.get id).any (·.isArchived)

/-- The session an operation is asked to focus. -/
def asked (turn : Turn) : Option SessionId :=
  match turn.operation with
  | .select id => some id
  | .applySpawnResult id => some id
  | .sidebarClick id modifiers => if modifiers.shift || modifiers.command then none else some id
  | .reviveSessions ids => store.firstRevived ids
  | .toggleSessionCollapsed id =>
    if !store.prefs.sidebarCollapsedSessions.contains id &&
        store.selectedSessionId.any (store.isDescendantOf · id) then some id
    else none
  | .handleSwitcherKey key => (store.switcher.keyDown key []).2.committedId
  | .handleSwitcherModifiersChanged controlHeld =>
    (store.switcher.modifiersChanged controlHeld).2.committedId
  | .commitSwitcherIndex index => (store.switcher.commitIndex index).2
  | .activateOverviewFocus => store.overview.activateFocused.2.activated
  | .activateOverviewSession id => (store.overview.activate id).2.activated
  | _ => none

/-- What `request_close` closes without asking back. -/
def closesAtOnce (ids : List SessionId) : List SessionId :=
  let ids := ids.filter fun id => !store.closing.contains id
  let hasRunning := ids.any fun id => (store.sessions.get id).any (!App.SessionStore.isExited ·)
  if store.prefs.confirmBeforeClosingSession && hasRunning then [] else ids

/-- The sessions an operation closes, with the auxiliary terminals that go with them. -/
def closed (turn : Turn) : List SessionId :=
  match turn.operation with
  | .removeSessions ids => store.withAuxiliary turn.walk ids
  | .requestClose ids => store.withAuxiliary turn.walk (store.closesAtOnce ids)
  | .confirmPendingClose => store.withAuxiliary turn.walk (store.pendingClose.getD [])
  | .overviewBackspace =>
    store.withAuxiliary turn.walk
      (store.closesAtOnce (store.overview.backspace store.reading []).2.requested)
  | .closeOverviewSelection =>
    store.withAuxiliary turn.walk (store.closesAtOnce store.overview.closeSelected.2.requested)
  | .closeOverviewSession id => store.withAuxiliary turn.walk (store.closesAtOnce [id])
  | .upsertSession session | .handleEvent (.sessionUpdated session) =>
    if store.shouldAutoClose session then
      (store.takeRecord session).withAuxiliary turn.walk [session.id]
    else []
  | _ => []

end SessionStore

/-! ### Records on the desk -/

namespace Desk

variable (desk : Desk)

/-- A spawned session waits for its record to become resident. -/
def record (session : SessionRecord) : Desk :=
  let waiting := (desk.sessions.get session.id).isNone && desk.selected == some session.id &&
    !session.isArchived && !desk.resident.order.contains session.id
  let next := { desk with sessions := desk.sessions.insert session }
  if waiting then next.touch session.id else next

def forget (id : SessionId) : Desk :=
  { desk with
    sessions := desk.sessions.erase id
    closing := desk.closing.filter (· ≠ id)
    picked := desk.picked.filter (· ≠ id)
    recent := desk.recent.filter (· ≠ id) }.drop id

def relist (sessions : SessionMap) : Desk :=
  { desk with
    closing := []
    sessions := sessions
    selected := desk.selected.filter fun id => (sessions.get id).isSome }

def restore : Desk :=
  match desk.selected with
  | some id => if desk.isActive id && !desk.resident.order.contains id then desk.touch id else desk
  | none => desk

theorem restore_eq : ∃ resident, desk.restore = { desk with resident := resident } := by
  unfold restore
  split
  · split
    · exact ⟨_, rfl⟩
    · exact ⟨_, rfl⟩
  · exact ⟨_, rfl⟩

variable (session : SessionRecord)

theorem record_eq : ∃ resident, desk.record session =
    { desk with sessions := desk.sessions.insert session, resident := resident } := by
  unfold record
  dsimp only
  split
  · exact ⟨_, rfl⟩
  · exact ⟨_, rfl⟩

@[simp] theorem record_sessions :
    (desk.record session).sessions = desk.sessions.insert session := by
  obtain ⟨_, hrecord⟩ := desk.record_eq session
  rw [hrecord]

@[simp] theorem record_closing : (desk.record session).closing = desk.closing := by
  obtain ⟨_, hrecord⟩ := desk.record_eq session
  rw [hrecord]

@[simp] theorem record_selected : (desk.record session).selected = desk.selected := by
  obtain ⟨_, hrecord⟩ := desk.record_eq session
  rw [hrecord]

@[simp] theorem record_recent : (desk.record session).recent = desk.recent := by
  obtain ⟨_, hrecord⟩ := desk.record_eq session
  rw [hrecord]

end Desk

namespace SessionStore

variable {store : SessionStore} {walk : HashOrder SessionRecord} {id : SessionId}

theorem desk_takeRecord (store : SessionStore) (session : SessionRecord) :
    (store.takeRecord session).desk = store.desk.record session := by
  have hsync : ∀ (isNew : Bool) (next : SessionStore),
      (if isNew = true then next.syncSidebarOrder else next).desk = next.desk := by
    intro isNew next
    cases isNew with
    | false => rfl
    | true => exact desk_syncSidebarOrder next
  unfold takeRecord
  dsimp only
  rw [hsync, desk_invalidateProjection]
  unfold Desk.record
  dsimp only
  change _ = if ((store.sessions.get session.id).isNone &&
    store.selectedSessionId == some session.id && !session.isArchived &&
      !store.terminalResidency.order.contains session.id) = true then _ else _
  split
  · exact desk_touchTerminal _ _
  · rfl

theorem desk_restoreTerminal (store : SessionStore) :
    store.restoreTerminal.desk = store.desk.restore := by
  unfold restoreTerminal Desk.restore
  change _ = match store.selectedSessionId with | some id => _ | none => _
  cases store.selectedSessionId with
  | none => rfl
  | some id =>
    dsimp only
    change _ = if (store.isActive id && !store.terminalResidency.order.contains id) = true
      then _ else _
    split
    · exact desk_touchTerminal store id
    · rfl

theorem Fresh.desk_hydrate (store : SessionStore) (result : SessionListResult) :
    ∃ base, (store.hydrate result).desk = base.restore ∧
      let relisted := store.desk.relist (.ofList result.sessions)
      (relisted.selected ≠ none ∧ base = relisted ∨
        relisted.selected = none ∧ ∃ next, base = relisted.choose next ∧
          (∀ id, next = some id → relisted.Listed id ∧ relisted.isActive id = true) ∧
          (next = none → ∀ session ∈ relisted.sessions.values,
            isAuxiliaryTerminal session = false → session.isArchived = true)) := by
  have htaken : (store.takeList result).syncSidebarOrder.Fresh :=
    Fresh.syncSidebarOrder (fresh_invalidate _)
  have hdesk : (store.takeList result).syncSidebarOrder.desk =
      store.desk.relist (.ofList result.sessions) := desk_syncSidebarOrder _
  refine ⟨(store.takeList result).syncSidebarOrder.autoSelectIfNeeded.desk, ?_, ?_⟩
  · unfold hydrate
    rw [desk_reconcileNavigation, desk_autoResumeSelectedIfNeeded, desk_restoreTerminal]
  · generalize (store.takeList result).syncSidebarOrder = taken at htaken hdesk ⊢
    dsimp only
    rw [← hdesk]
    cases hselected : taken.selectedSessionId with
    | some id =>
      refine Or.inl ⟨fun hnone => ?_, desk_autoSelect_of_some hselected⟩
      cases hselected.symm.trans hnone
    | none =>
      obtain ⟨next, hnext, hactive, hnobody⟩ := htaken.autoSelect hselected
      refine Or.inr ⟨hselected, next, hnext, hactive, ?_⟩
      intro hnone session hin haux
      refine hnobody hnone session hin ?_ haux
      have hclosing : taken.closing = [] := congrArg Desk.closing hdesk
      rw [hclosing]
      exact List.not_mem_nil

theorem desk_settleRecord (h : store.Fresh) (id : SessionId) (isNew : Bool) :
    (store.settleRecord id isNew).desk = store.desk ∧
        (isNew = true → store.selectedSessionId ≠ some id) ∨
      (isNew = true ∧ store.selectedSessionId = some id) ∧
        (store.settleRecord id isNew).desk = store.desk.focus id ∨
      (isNew = true ∧ store.selectedSessionId = none) ∧
        ∃ next, (store.settleRecord id isNew).desk = store.desk.choose next ∧
          ∀ other, next = some other → store.desk.Listed other := by
  have hresumed := h.autoResumeIfNeeded id
  have hdesk := desk_autoResumeIfNeeded store id
  have hselected : (store.autoResumeIfNeeded id).selectedSessionId = store.selectedSessionId :=
    congrArg Desk.selected hdesk
  unfold settleRecord
  dsimp only
  rw [desk_reconcileNavigation, hselected, ← hdesk]
  cases isNew with
  | false => exact Or.inl ⟨rfl, fun hfalse => by cases hfalse⟩
  | true =>
    rw [if_pos rfl]
    by_cases hmine : store.selectedSessionId = some id
    · rw [if_pos hmine]
      exact Or.inr (Or.inl ⟨⟨rfl, hmine⟩, desk_focusSession _ id⟩)
    · rw [if_neg hmine]
      cases hother : store.selectedSessionId with
      | some other =>
        refine Or.inl ⟨desk_autoSelect_of_some (hselected.trans hother), fun _ => ?_⟩
        rw [← hother]
        exact hmine
      | none =>
        obtain ⟨next, hnext, hactive, _⟩ := hresumed.autoSelect (hselected.trans hother)
        exact Or.inr (Or.inr ⟨⟨rfl, rfl⟩, next, hnext, fun x hx => (hactive x hx).1⟩)

theorem Fresh.desk_removeSessionRecord (h : store.Fresh) (id : SessionId) :
    ∃ base, store.desk.Handed [id] base ∧
      (store.removeSessionRecord id).desk = base.forget id := by
  unfold SessionStore.removeSessionRecord
  dsimp only
  rw [desk_reconcileNavigation, desk_syncSidebarOrder, desk_invalidateProjection,
    desk_dropTerminal]
  refine ⟨(if store.selectedSessionId = some id then store.focusNeighbor [id] else store).desk,
    ?_, rfl⟩
  split
  · obtain ⟨next, hdesk, hsurvives⟩ := h.focusNeighbor [id]
    exact Or.inr ⟨next, hdesk, hsurvives⟩
  · next hother =>
      refine Or.inl ⟨rfl, fun x hx => ?_⟩
      rw [List.mem_singleton.mp hx]
      exact hother

theorem keeps_insert {sessions : SessionMap} {session session' : SessionRecord}
    (hget : sessions.get session.id = some session) (hid : session'.id = session.id)
    (hactive : session.isArchived = false → session'.isArchived = false) :
    Keeps sessions (sessions.insert session') where
  recorded other := by
    rw [sessions.get_insert]
    split
    · next hother => rw [hother, hid, hget]; rfl
    · rfl
  active other hother := by
    rw [sessions.get_insert]
    split
    · next hsame =>
        rw [hsame, hid, hget, Option.any_some] at hother
        rw [Option.any_some]
        simpa using hactive (by simpa using hother)
    · exact hother

theorem keeps_modify (store : SessionStore) (id : SessionId) {f : SessionRecord → SessionRecord}
    (hid : ∀ session, (f session).id = session.id)
    (hactive : ∀ session, session.isArchived = false → (f session).isArchived = false) :
    ∃ sessions, (store.modify id f).desk = { store.desk with sessions := sessions } ∧
      Keeps store.sessions sessions := by
  rw [desk_modify]
  cases hget : store.sessions.get id with
  | none => exact ⟨store.sessions, rfl, Keeps.refl _⟩
  | some session =>
    have hkey : session.id = id := store.sessions.key_of_get hget
    exact ⟨_, rfl, keeps_insert (hkey ▸ hget) (hid session) (hactive session)⟩

/-! ### Reviving, switching, closing -/

theorem reviveRow_keeps (revived : List SessionId) (store : SessionStore) (id : SessionId) :
    ∃ sessions, (reviveRow (revived, store) id).2.desk = { store.desk with sessions := sessions } ∧
      Keeps store.sessions sessions := by
  have hsame : ∃ sessions, store.desk = { store.desk with sessions := sessions } ∧
      Keeps store.sessions sessions := ⟨store.sessions, rfl, Keeps.refl _⟩
  unfold reviveRow
  dsimp only
  split
  · split
    · exact keeps_modify store id (fun _ => rfl) (fun _ _ => rfl)
    · exact hsame
  · exact hsame

theorem reviveRows_keeps (ids : List SessionId) (revived : List SessionId) (store : SessionStore) :
    ∃ sessions, (ids.foldl reviveRow (revived, store)).2.desk =
        { store.desk with sessions := sessions } ∧ Keeps store.sessions sessions := by
  induction ids generalizing revived store with
  | nil => exact ⟨store.sessions, rfl, Keeps.refl _⟩
  | cons id ids ih =>
    obtain ⟨sessions, hdesk, hkeeps⟩ := reviveRow_keeps revived store id
    obtain ⟨sessions', hdesk', hkeeps'⟩ := ih (reviveRow (revived, store) id).1
      (reviveRow (revived, store) id).2
    have hsessions : (reviveRow (revived, store) id).2.sessions = sessions :=
      congrArg Desk.sessions hdesk
    rw [hsessions] at hkeeps'
    refine ⟨sessions', ?_, hkeeps.trans hkeeps'⟩
    rw [List.foldl_cons, hdesk', hdesk]

theorem reviveRow_archived (revived : List SessionId)
    (h : (store.sessions.get id).any (·.isArchived) = true) :
    (reviveRow (revived, store) id).1 = revived ++ [id] := by
  obtain ⟨session, hget, harchived⟩ := (Option.any_eq_true _ _).mp h
  unfold reviveRow
  dsimp only
  rw [hget]
  dsimp only
  rw [if_pos harchived]

theorem reviveRow_stays (revived : List SessionId)
    (h : (store.sessions.get id).any (·.isArchived) = false) :
    reviveRow (revived, store) id = (revived, store) := by
  unfold reviveRow
  dsimp only
  split
  · next session hget =>
      rw [hget, Option.any_some] at h
      rw [if_neg (Bool.eq_false_iff.mp h)]
  · rfl

theorem head_reviveRows (ids : List SessionId) (revived : List SessionId) (store : SessionStore) :
    (ids.foldl reviveRow (revived, store)).1.head? =
      if revived = [] then store.firstRevived ids else revived.head? := by
  induction ids generalizing revived store with
  | nil =>
    by_cases hrevived : revived = []
    · rw [if_pos hrevived, hrevived]
      rfl
    · rw [if_neg hrevived]
      rfl
  | cons id ids ih =>
    rw [List.foldl_cons]
    unfold firstRevived
    rw [List.find?_cons]
    cases h : (store.sessions.get id).any (·.isArchived) with
    | false =>
      rw [reviveRow_stays revived h, ih]
      rfl
    | true =>
      rw [ih, reviveRow_archived revived h, if_neg (by simp)]
      cases revived with
      | nil => rfl
      | cons first revived => rfl

theorem recorded_firstRevived {ids : List SessionId} {first : SessionId}
    (h : store.firstRevived ids = some first) : (store.sessions.get first).isSome = true := by
  have hfound := List.find?_some h
  cases hget : store.sessions.get first with
  | none => rw [hget] at hfound; cases hfound
  | some session => rfl

theorem desk_reviveSessions (store : SessionStore) (ids : List SessionId) :
    ∃ sessions, Keeps store.sessions sessions ∧
      (store.reviveSessions ids).desk =
        match store.firstRevived ids with
        | some first => { store.desk with sessions := sessions, picked := [] }.focus first
        | none => { store.desk with sessions := sessions } := by
  obtain ⟨sessions, hdesk, hkeeps⟩ := reviveRows_keeps ids [] store
  have hhead := head_reviveRows ids [] store
  rw [if_pos rfl] at hhead
  refine ⟨sessions, hkeeps, ?_⟩
  unfold reviveSessions
  generalize ids.foldl reviveRow ([], store) = result at hdesk hhead
  obtain ⟨revived, next⟩ := result
  dsimp only at hdesk hhead ⊢
  rw [hhead]
  cases hfirst : store.firstRevived ids with
  | none => exact hdesk
  | some first =>
    have hsessions : next.sessions = sessions := congrArg Desk.sessions hdesk
    have hrecorded : (next.sessions.get first).isSome = true := by
      rw [hsessions, hkeeps.recorded]
      exact recorded_firstRevived hfirst
    dsimp only
    rw [desk_select, if_pos (show (next.invalidateProjection.sessions.get first).isSome = true
      from hrecorded), desk_invalidateProjection, hdesk]

/-- Opening the switcher commits nothing, whatever it is opened with. -/
theorem committed_opening {key : SwitcherKey} (h : store.opensSwitcher key = true)
    (order : List SessionId) : (store.switcher.keyDown key order).2.committedId = none := by
  have hopened : ∀ ok : Bool,
      (if ok = true then SwitcherOutcome.opened else .consumed).committedId = none := by
    intro ok
    cases ok with
    | false => rfl
    | true => rfl
  unfold opensSwitcher at h
  unfold SessionSwitcherState.keyDown
  split at h
  · simp only [Bool.not_eq_true'] at h
    dsimp only
    rw [h, if_neg Bool.false_ne_true]
    exact hopened _
  · cases h

theorem desk_applySwitcherOutcome (store : SessionStore) (outcome : SwitcherOutcome) :
    (store.applySwitcherOutcome outcome).desk =
      match outcome.committedId with
      | some id => (store.select id).desk
      | none => store.desk := by
  cases outcome with
  | committed id => rfl
  | ignored => rfl
  | consumed => rfl
  | opened => rfl
  | highlightChanged => rfl
  | cancelled => rfl

theorem withAuxiliary_nil (walk : HashOrder SessionRecord) (store : SessionStore) :
    store.withAuxiliary walk [] = [] := by
  have hnone : (walk.visit store.sessions.values).filter (fun session =>
      session.parent.any ([] : List SessionId).contains && isAuxiliaryTerminal session) = [] := by
    rw [List.filter_eq_nil_iff]
    intro session _
    cases session.parent with
    | none => exact Bool.false_ne_true
    | some parent => exact Bool.false_ne_true
  unfold withAuxiliary
  dsimp only
  rw [hnone]
  rfl

theorem mem_withAuxiliary {ids : List SessionId} (h : id ∈ ids) :
    id ∈ store.withAuxiliary walk ids := by
  unfold withAuxiliary
  dsimp only
  exact List.mem_eraseDups.mpr (List.mem_append_left _ h)

theorem mem_closed_of_brought {turn : Turn} {session : SessionRecord}
    (hbrought : turn.brought = some session) (hcloses : store.shouldAutoClose session = true) :
    session.id ∈ store.closed turn := by
  have hmem : session.id ∈ (store.takeRecord session).withAuxiliary turn.walk [session.id] :=
    mem_withAuxiliary (List.mem_singleton_self _)
  unfold Turn.brought at hbrought
  unfold closed
  split at hbrought
  · next hturn =>
      rw [Option.some.injEq] at hbrought
      subst hbrought
      rw [hturn]
      dsimp only
      rw [if_pos hcloses]
      exact hmem
  · next hturn =>
      rw [Option.some.injEq] at hbrought
      subst hbrought
      rw [hturn]
      dsimp only
      rw [if_pos hcloses]
      exact hmem
  · cases hbrought

theorem Fresh.desk_requestClose (h : store.Fresh) (walk : HashOrder SessionRecord)
    (ids : List SessionId) :
    ∃ base, store.desk.Handed (store.withAuxiliary walk (store.closesAtOnce ids)) base ∧
      (store.requestClose walk ids).desk =
        (store.withAuxiliary walk (store.closesAtOnce ids)).foldl Desk.close base := by
  have hnobody : ∀ next : SessionStore, next.desk = store.desk →
      ∃ base, store.desk.Handed (store.withAuxiliary walk []) base ∧
        next.desk = (store.withAuxiliary walk []).foldl Desk.close base := by
    intro next hnext
    refine ⟨store.desk, Or.inl ⟨rfl, fun id hid => ?_⟩, ?_⟩
    · rw [withAuxiliary_nil] at hid
      exact absurd hid List.not_mem_nil
    · rw [withAuxiliary_nil]
      exact hnext
  unfold SessionStore.requestClose closesAtOnce
  dsimp only
  generalize ids.filter (fun id => !store.closing.contains id) = stillOpen
  generalize (store.prefs.confirmBeforeClosingSession && stillOpen.any fun id =>
    (store.sessions.get id).any (!App.SessionStore.isExited ·)) = asks
  by_cases hempty : stillOpen.isEmpty = true
  · rw [if_pos hempty, List.isEmpty_iff.mp hempty, ite_self]
    exact hnobody store rfl
  · rw [if_neg hempty]
    cases asks with
    | true =>
      rw [if_pos rfl, if_pos rfl]
      exact hnobody { store with pendingClose := some stillOpen } rfl
    | false => exact h.desk_removeSessions walk stillOpen

/-! ### Every step -/

/-- Whom a step may pick: who was picked, is listed, was clicked or is selected. -/
def Pickable (store : SessionStore) (turn : Turn) (id : SessionId) : Prop :=
  id ∈ store.sidebarSelection ∨ store.desk.Listed id ∨
    (turn.clicked = some id ∨ store.selectedSessionId = some id) ∧
      (store.sessions.get id).isSome = true

end SessionStore

/-- What the desk can be after an operation. -/
inductive DeskStep (store : SessionStore) (turn : Turn) : Desk → Prop where
  | kept {sessions : SessionMap} (hkeeps : Keeps store.sessions sessions) :
      DeskStep store turn { store.desk with sessions := sessions }
  | picked {picked : List SessionId} (hpicked : ∀ id ∈ picked, store.Pickable turn id) :
      DeskStep store turn { store.desk with picked := picked }
  | moved {picked : List SessionId} {next : SessionId}
      (hpicked : ∀ id ∈ picked, store.Pickable turn id) (hnext : store.desk.Listed next) :
      DeskStep store turn ({ store.desk with picked := picked }.focus next)
  | asked {id : SessionId} {picked : List SessionId} (hasked : store.asked turn = some id)
      (hpicked : ∀ other ∈ picked, other ∈ store.sidebarSelection) :
      DeskStep store turn ({ store.desk with picked := picked }.focus id)
  | revived {ids : List SessionId} {id : SessionId} {sessions : SessionMap}
      (hturn : turn.operation = .reviveSessions ids) (hasked : store.asked turn = some id)
      (hkeeps : Keeps store.sessions sessions) :
      DeskStep store turn ({ store.desk with sessions := sessions, picked := [] }.focus id)
  | chosen {next : Option SessionId} {excluded : List SessionId}
      (hnext : store.desk.Survives excluded next) : DeskStep store turn (store.desk.choose next)
  | closed {base : Desk} (hbase : store.desk.Handed (store.closed turn) base) :
      DeskStep store turn ((store.closed turn).foldl Desk.close base)
  | archived {base : Desk} {now : SessionId → DateMillis} {ids : List SessionId}
      (hbase : store.desk.Handed ids base) :
      DeskStep store turn (ids.foldl (fun desk id => desk.archive now id) base)
  | relisted {result : SessionListResult} (hturn : turn.operation = .hydrate result)
      (hselected : (store.desk.relist (.ofList result.sessions)).selected ≠ none) :
      DeskStep store turn (store.desk.relist (.ofList result.sessions)).restore
  | reselected {result : SessionListResult} {next : Option SessionId}
      (hturn : turn.operation = .hydrate result)
      (hselected : (store.desk.relist (.ofList result.sessions)).selected = none)
      (hnext : ∀ id, next = some id → (store.desk.relist (.ofList result.sessions)).Listed id ∧
        (store.desk.relist (.ofList result.sessions)).isActive id = true)
      (hnobody : next = none → ∀ session ∈ (KeyedMap.ofList result.sessions : SessionMap).values,
        isAuxiliaryTerminal session = false → session.isArchived = true) :
      DeskStep store turn ((store.desk.relist (.ofList result.sessions)).choose next).restore
  | recorded {session : SessionRecord} (hbrought : turn.brought = some session)
      (hstays : store.shouldAutoClose session = false)
      (hother : store.sessions.get session.id = none → store.selectedSessionId ≠ some session.id) :
      DeskStep store turn (store.desk.record session)
  | spawned {session : SessionRecord} (hbrought : turn.brought = some session)
      (hstays : store.shouldAutoClose session = false)
      (hnew : store.sessions.get session.id = none)
      (hmine : store.selectedSessionId = some session.id) :
      DeskStep store turn ((store.desk.record session).focus session.id)
  | filled {session : SessionRecord} {next : Option SessionId}
      (hbrought : turn.brought = some session) (hstays : store.shouldAutoClose session = false)
      (hnobody : store.selectedSessionId = none)
      (hnext : ∀ id, next = some id → (store.desk.record session).Listed id) :
      DeskStep store turn ((store.desk.record session).choose next)
  | autoClosed {session : SessionRecord} {base : Desk} (hbrought : turn.brought = some session)
      (hcloses : store.shouldAutoClose session = true)
      (hbase : (store.desk.record session).Handed (store.closed turn) base) :
      DeskStep store turn ((store.closed turn).foldl Desk.close base)
  | forgotten {id : SessionId} {base : Desk} (hbase : store.desk.Handed [id] base) :
      DeskStep store turn (base.forget id)

namespace DeskStep

open Navigation.SessionStore

variable {store : SessionStore} {turn : Turn} {id : SessionId}

theorem same (store : SessionStore) (turn : Turn) : DeskStep store turn store.desk :=
  kept (Keeps.refl _)

theorem of_same {next : SessionStore} (h : next.desk = store.desk) :
    DeskStep store turn next.desk := by
  rw [h]
  exact same store turn

theorem select {origin : SessionStore} (hdesk : store.desk = origin.desk)
    (hasked : origin.asked turn = some id) : DeskStep origin turn (store.select id).desk := by
  rw [desk_select]
  split
  · rw [hdesk]
    exact asked hasked fun _ h => absurd h List.not_mem_nil
  · exact of_same hdesk

theorem switcherOutcome {origin : SessionStore} {outcome : SwitcherOutcome}
    (hdesk : store.desk = origin.desk) (hasked : outcome.committedId = origin.asked turn) :
    DeskStep origin turn (store.applySwitcherOutcome outcome).desk := by
  rw [desk_applySwitcherOutcome]
  split
  · next id hid => exact select hdesk (hasked.symm.trans hid)
  · exact of_same hdesk

theorem requestClose {origin : SessionStore} (h : store.Fresh) (hdesk : store.desk = origin.desk)
    {ids : List SessionId}
    (hclosed : store.withAuxiliary turn.walk (store.closesAtOnce ids) = origin.closed turn) :
    DeskStep origin turn (store.requestClose turn.walk ids).desk := by
  obtain ⟨base, hbase, hnext⟩ := h.desk_requestClose turn.walk ids
  rw [hnext, hclosed]
  rw [hclosed, hdesk] at hbase
  exact closed hbase

theorem overviewOutcome {origin : SessionStore} {outcome : OverviewOutcome} (h : store.Fresh)
    (hdesk : store.desk = origin.desk)
    (hasked : ∀ id, outcome = .activate id → origin.asked turn = some id)
    (hclosed : ∀ ids, outcome = .requestClose ids →
      store.withAuxiliary turn.walk (store.closesAtOnce ids) = origin.closed turn) :
    DeskStep origin turn (store.applyOverviewOutcome turn.walk outcome).desk := by
  unfold SessionStore.applyOverviewOutcome
  split
  · exact select hdesk (hasked _ rfl)
  · exact requestClose h hdesk (hclosed _ rfl)
  · exact of_same hdesk

theorem keeping (h : ∃ sessions, desk' = { store.desk with sessions := sessions } ∧
    Keeps store.sessions sessions) : DeskStep store turn desk' := by
  obtain ⟨sessions, rfl, hkeeps⟩ := h
  exact kept hkeeps

theorem sidebarClick (h : store.Fresh) (id : SessionId) (modifiers : ClickModifiers)
    (hturn : turn.operation = .sidebarClick id modifiers) :
    DeskStep store turn (store.sidebarClick id modifiers).desk := by
  unfold SessionStore.sidebarClick
  by_cases hnone : (store.sessions.get id).isNone = true
  · rw [if_pos hnone]
    exact same store turn
  · rw [if_neg hnone]
    have hrecorded : (store.sessions.get id).isSome = true :=
      Option.isSome_iff_ne_none.mpr fun hgone => hnone (Option.isNone_iff_eq_none.mpr hgone)
    cases hshift : modifiers.shift with
    | true =>
      obtain ⟨picked, hdesk, hpicked⟩ := h.desk_selectRange id
      rw [if_pos rfl, hdesk]
      exact DeskStep.picked fun x hx => (hpicked x hx).imp_right Or.inl
    | false =>
      rw [if_neg Bool.false_ne_true]
      cases hcommand : modifiers.command with
      | true =>
        have hclicked : turn.clicked = some id := by
          unfold Turn.clicked
          rw [hturn]
          dsimp only
          rw [hshift, hcommand]
          rfl
        obtain ⟨picked, hpicked, hdesk⟩ := h.desk_toggleRow id
        have hpickable : ∀ x ∈ picked, store.Pickable turn x := by
          intro x hx
          rcases hpicked x hx with hold | rfl | ⟨hselected, hthere⟩
          · exact Or.inl hold
          · exact Or.inr (Or.inr ⟨Or.inl hclicked, hrecorded⟩)
          · exact Or.inr (Or.inr ⟨Or.inr hselected, hthere⟩)
        rw [if_pos rfl]
        rcases hdesk with hdesk | ⟨next, hnext, hdesk⟩
        · rw [hdesk]
          exact DeskStep.picked hpickable
        · rw [hdesk]
          exact moved hpickable hnext
      | false =>
        rw [if_neg Bool.false_ne_true]
        refine select rfl ?_
        unfold SessionStore.asked
        rw [hturn]
        dsimp only
        rw [hshift, hcommand]
        rfl

theorem reviveSessions (ids : List SessionId) (hturn : turn.operation = .reviveSessions ids) :
    DeskStep store turn (store.reviveSessions ids).desk := by
  obtain ⟨sessions, hkeeps, hdesk⟩ := desk_reviveSessions store ids
  rw [hdesk]
  split
  · next first hfirst =>
      refine revived hturn ?_ hkeeps
      unfold SessionStore.asked
      rw [hturn]
      exact hfirst
  · exact kept hkeeps

theorem hydrate (result : SessionListResult) (hturn : turn.operation = .hydrate result) :
    DeskStep store turn (store.hydrate result).desk := by
  obtain ⟨base, hdesk, hbase⟩ := Fresh.desk_hydrate store result
  rw [hdesk]
  rcases hbase with ⟨hselected, rfl⟩ | ⟨hselected, next, rfl, hnext, hnobody⟩
  · exact relisted hturn hselected
  · exact reselected hturn hselected hnext hnobody

theorem upsertSession (session : SessionRecord)
    (hbrought : turn.brought = some session)
    (hclosed : store.shouldAutoClose session = true →
      store.closed turn = (store.takeRecord session).withAuxiliary turn.walk [session.id]) :
    DeskStep store turn (store.upsertSession turn.walk session).desk := by
  have htaken := fresh_takeRecord store session
  have hdesk := desk_takeRecord store session
  unfold SessionStore.upsertSession
  cases hcloses : store.shouldAutoClose session with
  | true =>
    obtain ⟨base, hbase, hnext⟩ := htaken.desk_removeSessions turn.walk [session.id]
    rw [if_pos rfl, hnext, ← hclosed hcloses]
    rw [← hclosed hcloses, hdesk] at hbase
    exact autoClosed hbrought hcloses hbase
  | false =>
    have hselected : (store.takeRecord session).selectedSessionId = store.selectedSessionId :=
      (congrArg Desk.selected hdesk).trans (store.desk.record_selected session)
    rw [if_neg Bool.false_ne_true]
    rcases desk_settleRecord htaken session.id (store.sessions.get session.id).isNone with
      ⟨hnext, hother⟩ | ⟨⟨hnew, hmine⟩, hnext⟩ | ⟨⟨_, hnobody⟩, next, hnext, hlisted⟩
    · rw [hnext, hdesk]
      rw [hselected] at hother
      exact recorded hbrought hcloses fun hnone => hother (Option.isNone_iff_eq_none.mpr hnone)
    · rw [hnext, hdesk]
      rw [hselected] at hmine
      exact spawned hbrought hcloses (Option.isNone_iff_eq_none.mp hnew) hmine
    · rw [hnext, hdesk]
      rw [hselected] at hnobody
      exact filled hbrought hcloses hnobody fun x hx => hdesk ▸ hlisted x hx

theorem handleEvent (h : store.Fresh) (event : Event)
    (hturn : turn.operation = .handleEvent event) :
    DeskStep store turn (store.handleEvent turn.walk event).desk := by
  cases event with
  | sessionUpdated session =>
    unfold SessionStore.handleEvent
    dsimp only
    split
    · exact same store turn
    · refine upsertSession session ?_ fun hcloses => ?_
      · unfold Turn.brought
        rw [hturn]
      · unfold SessionStore.closed
        rw [hturn]
        exact if_pos hcloses
  | sessionResources resources =>
    unfold SessionStore.handleEvent
    dsimp only
    split
    · next record hget =>
        split
        · exact same store turn
        · have hkey : record.id = resources.id := store.sessions.key_of_get hget
          rw [← hkey] at hget
          exact kept (keeps_insert hget rfl id)
    · exact same store turn
  | sessionRemoved id =>
    unfold SessionStore.handleEvent
    dsimp only
    split
    · obtain ⟨base, hbase, hdesk⟩ := h.desk_removeSessionRecord id
      rw [hdesk]
      exact forgotten hbase
    · exact same store turn
  | projectUpdated project =>
    unfold SessionStore.handleEvent
    dsimp only
    split
    · exact same store turn
    · exact of_same (desk_syncSidebarOrder _)

/-! ### Overlays and preferences -/

theorem handleSwitcherKey (h : store.Fresh) (key : SwitcherKey)
    (hturn : turn.operation = .handleSwitcherKey key) :
    DeskStep store turn (store.handleSwitcherKey key).desk := by
  have hasked : store.asked turn = (store.switcher.keyDown key []).2.committedId := by
    unfold SessionStore.asked
    rw [hturn]
  obtain ⟨cache, hread, _⟩ := h.mruSessions
  unfold SessionStore.handleSwitcherKey
  rw [hread]
  split
  · next hopens =>
      refine switcherOutcome rfl ?_
      rw [hasked, committed_opening hopens []]
      exact committed_opening hopens _
  · exact switcherOutcome rfl hasked.symm

theorem commitSwitcherIndex (index : Nat)
    (hturn : turn.operation = .commitSwitcherIndex index) :
    DeskStep store turn (store.commitSwitcherIndex index).desk := by
  unfold SessionStore.commitSwitcherIndex
  dsimp only
  split
  · next id hid =>
      refine select rfl ?_
      unfold SessionStore.asked
      rw [hturn]
      exact hid
  · exact same store turn

theorem toggleSessionCollapsed (id : SessionId)
    (hturn : turn.operation = .toggleSessionCollapsed id) :
    DeskStep store turn (store.toggleSessionCollapsed id).desk := by
  unfold SessionStore.toggleSessionCollapsed
  dsimp only
  split
  · next hcollapses =>
      have hasked : store.asked turn = some id := by
        unfold SessionStore.asked
        rw [hturn]
        exact if_pos hcollapses
      exact select rfl hasked
  · exact same store turn

theorem toggleArchiveExpanded (store : SessionStore) (turn : Turn) (id : ProjectId) :
    DeskStep store turn (store.toggleArchiveExpanded id).desk := by
  unfold SessionStore.toggleArchiveExpanded
  dsimp only
  split
  · exact DeskStep.picked fun x hx => Or.inl (List.mem_filter.mp hx).1
  · exact same store turn

theorem actOnOverview (h : store.Fresh)
    {f : SessionOverviewState → List SessionRecord → SessionOverviewState × OverviewOutcome}
    (hasked : ∀ sessions id, (f store.overview sessions).2 = .activate id →
      store.asked turn = some id)
    (hclosed : ∀ sessions ids, (f store.overview sessions).2 = .requestClose ids →
      store.withAuxiliary turn.walk (store.closesAtOnce ids) = store.closed turn) :
    DeskStep store turn (store.actOnOverview turn.walk f).desk := by
  obtain ⟨cache, hread, hfresh⟩ := h.orderedSessions
  unfold SessionStore.actOnOverview
  rw [hread]
  have hnext : Fresh { store with
      cachedProjection := cache
      overview := (f store.overview store.currentProjection.orderedSessions).1 } := hfresh
  exact overviewOutcome hnext rfl (hasked _) (hclosed _)

theorem actOnSelection (h : store.Fresh)
    {f : SessionOverviewState → SessionOverviewState × OverviewOutcome}
    (hasked : ∀ id, (f store.overview).2 = .activate id → store.asked turn = some id)
    (hclosed : ∀ ids, (f store.overview).2 = .requestClose ids →
      store.withAuxiliary turn.walk (store.closesAtOnce ids) = store.closed turn) :
    DeskStep store turn (store.actOnSelection turn.walk f).desk := by
  have hnext : Fresh { store with overview := (f store.overview).1 } := h
  exact overviewOutcome hnext rfl hasked hclosed

theorem overviewBackspace (h : store.Fresh) (hturn : turn.operation = .overviewBackspace) :
    DeskStep store turn (store.overviewBackspace turn.walk).desk := by
  have houtcome : ∀ sessions,
      (store.overview.backspace store.reading sessions).2 =
        (store.overview.backspace store.reading []).2 := by
    intro sessions
    unfold SessionOverviewState.backspace
    split
    · rfl
    · rfl
  refine actOnOverview h ?_ ?_
  · intro sessions id hactivate
    unfold SessionOverviewState.backspace SessionOverviewState.closeSelected at hactivate
    split at hactivate
    · cases hactivate
    · split at hactivate
      · cases hactivate
      · cases hactivate
  · intro sessions ids hcloses
    unfold SessionStore.closed
    rw [hturn]
    dsimp only
    rw [← houtcome sessions, hcloses]
    rfl

theorem overviewEscape (h : store.Fresh) :
    DeskStep store turn (store.overviewEscape turn.walk).desk := by
  have hquiet : ∀ sessions, (store.overview.escape store.reading sessions).2.activated = none ∧
      ∀ ids, (store.overview.escape store.reading sessions).2 ≠ .requestClose ids := by
    intro sessions
    unfold SessionOverviewState.escape
    split
    · exact ⟨rfl, fun _ h => by cases h⟩
    · split
      · exact ⟨rfl, fun _ h => by cases h⟩
      · split
        · exact ⟨rfl, fun _ h => by cases h⟩
        · exact ⟨rfl, fun _ h => by cases h⟩
  refine actOnOverview h ?_ ?_
  · intro sessions id hactivate
    have hnone := (hquiet sessions).1
    rw [hactivate] at hnone
    cases hnone
  · intro sessions ids hcloses
    exact absurd hcloses ((hquiet sessions).2 ids)

end DeskStep

theorem SessionStore.Fresh.deskStep {store : SessionStore} (h : store.Fresh) (turn : Turn) :
    DeskStep store turn (perform store turn).desk := by
  obtain ⟨walk, operation⟩ := turn
  have hsame : ∀ turn, DeskStep store turn store.desk := DeskStep.same store
  cases operation with
  | hydrate result => exact DeskStep.hydrate result rfl
  | handleEvent event => exact DeskStep.handleEvent h event rfl
  | upsertSession session =>
    refine DeskStep.upsertSession session rfl fun hcloses => ?_
    exact if_pos hcloses
  | removeSessionRecord id =>
    obtain ⟨base, hbase, hdesk⟩ := h.desk_removeSessionRecord id
    unfold perform
    dsimp only
    rw [hdesk]
    exact .forgotten hbase
  | select id => exact .select rfl rfl
  | applySpawnResult id =>
    unfold perform
    dsimp only
    rw [SessionStore.desk_focusSession]
    exact @DeskStep.asked store _ id store.sidebarSelection rfl fun _ hx => hx
  | sidebarClick id modifiers => exact .sidebarClick h id modifiers rfl
  | clearSidebarSelection =>
    exact .picked fun _ hx => absurd hx List.not_mem_nil
  | sidebarSelectionOrdered => exact .of_same (SessionStore.desk_sidebarProjection store)
  | focusNeighbor excluded =>
    obtain ⟨next, hdesk, hsurvives⟩ := h.focusNeighbor excluded
    unfold perform
    dsimp only
    rw [hdesk]
    exact .chosen hsurvives
  | mruSessions => exact .of_same (SessionStore.desk_sidebarProjection store)
  | requestClose ids => exact .requestClose h rfl rfl
  | confirmPendingClose =>
    unfold perform SessionStore.confirmPendingClose
    dsimp only
    split
    · next ids hpending =>
        have hfresh : SessionStore.Fresh { store with pendingClose := none } := h
        obtain ⟨base, hbase, hdesk⟩ := hfresh.desk_removeSessions walk ids
        have hclosed : store.closed ⟨walk, .confirmPendingClose⟩ =
            SessionStore.withAuxiliary walk { store with pendingClose := none } ids := by
          unfold SessionStore.closed
          dsimp only
          rw [hpending]
          rfl
        rw [hdesk, ← hclosed]
        rw [← hclosed] at hbase
        exact .closed hbase
    · exact hsame _
  | cancelPendingClose => exact hsame _
  | removeSessions ids =>
    obtain ⟨base, hbase, hdesk⟩ := h.desk_removeSessions walk ids
    unfold perform
    dsimp only
    rw [hdesk]
    exact @DeskStep.closed store ⟨walk, .removeSessions ids⟩ base hbase
  | archiveSessions ids now =>
    obtain ⟨base, hbase, hdesk⟩ := h.desk_archiveSessions now ids
    unfold perform
    dsimp only
    rw [hdesk]
    exact .archived hbase
  | reviveSessions ids => exact .reviveSessions ids rfl
  | autoResumeIfNeeded id => exact .of_same (SessionStore.desk_autoResumeIfNeeded store id)
  | finishAutoResume id => exact hsame _
  | rename id title =>
    unfold perform SessionStore.rename
    dsimp only
    split
    · exact .keeping (SessionStore.keeps_modify store id (fun _ => rfl) fun _ h => h)
    · exact hsame _
  | reconcileSidebarOrder => exact .of_same (SessionStore.desk_syncSidebarOrder store)
  | setProjectOrder order => exact hsame _
  | setSessionOrder order => exact hsame _
  | stageProjectOrder order =>
    unfold perform SessionStore.stageProjectOrder
    dsimp only
    split
    · exact hsame _
    · exact hsame _
  | stageSessionOrder order =>
    unfold perform SessionStore.stageSessionOrder
    dsimp only
    split
    · exact hsame _
    · exact hsame _
  | toggleProjectPin id => exact hsame _
  | toggleSessionPin id => exact hsame _
  | toggleProjectCollapsed id => exact hsame _
  | toggleSessionCollapsed id => exact .toggleSessionCollapsed id rfl
  | toggleArchiveExpanded id => exact .toggleArchiveExpanded store _ id
  | updatePreferences update => exact hsame _
  | sidebarProjection => exact .of_same (SessionStore.desk_sidebarProjection store)
  | handleSwitcherKey key => exact .handleSwitcherKey h key rfl
  | handleSwitcherModifiersChanged controlHeld => exact .switcherOutcome rfl rfl
  | commitSwitcherIndex index => exact .commitSwitcherIndex index rfl
  | cancelSwitcher => exact hsame _
  | toggleOverview =>
    have htoggled := SessionStore.desk_withOverview store fun overview =>
      overview.toggle store.reading
    unfold perform SessionStore.toggleOverview
    dsimp only
    split
    · exact .of_same htoggled
    · exact .of_same htoggled
  | dismissOverview => exact hsame _
  | setOverviewMode mode => exact .of_same (SessionStore.desk_withOverview store _)
  | setOverviewFilter filter => exact .of_same (SessionStore.desk_withOverview store _)
  | appendOverviewQuery text => exact .of_same (SessionStore.desk_withOverview store _)
  | overviewBackspace => exact .overviewBackspace h rfl
  | overviewEscape => exact .overviewEscape h
  | moveOverviewFocus arrow => exact .of_same (SessionStore.desk_withOverview store _)
  | activateOverviewFocus =>
    refine .actOnSelection h (fun id hactivate => ?_) fun ids hcloses => ?_
    · exact congrArg OverviewOutcome.activated hactivate
    · unfold SessionOverviewState.activateFocused SessionOverviewState.activate at hcloses
      split at hcloses
      · split at hcloses
        · cases hcloses
        · cases hcloses
      · cases hcloses
  | activateOverviewSession id =>
    refine .actOnSelection h (fun other hactivate => ?_) fun ids hcloses => ?_
    · exact congrArg OverviewOutcome.activated hactivate
    · unfold SessionOverviewState.activate at hcloses
      split at hcloses
      · cases hcloses
      · cases hcloses
  | toggleOverviewSelection id =>
    unfold perform SessionStore.toggleOverviewSelection
    dsimp only
    split
    · exact hsame _
    · exact hsame _
  | clearOverviewSelection => exact hsame _
  | selectAllOverviewSessions => exact .of_same (SessionStore.desk_withOverview store _)
  | closeOverviewSelection =>
    refine .actOnSelection h (fun id hactivate => ?_) fun ids hcloses => ?_
    · unfold SessionOverviewState.closeSelected at hactivate
      split at hactivate
      · cases hactivate
      · cases hactivate
    · unfold SessionStore.closed
      dsimp only
      rw [hcloses]
      rfl
  | closeOverviewSession id =>
    refine .actOnSelection h (fun other hactivate => by cases hactivate) fun ids hcloses => ?_
    cases hcloses
    rfl

/-! ### Two steps exactly -/

namespace SessionStore

variable {store : SessionStore} {walk : HashOrder SessionRecord}

theorem desk_hydrate_headless (reading : OverviewReading) {prefs : Preferences} {id : SessionId}
    {result : SessionListResult} {session : SessionRecord}
    (hlast : prefs.lastSelectedSession = some id)
    (hget : (KeyedMap.ofList result.sessions : SessionMap).get id = some session)
    (hactive : session.isArchived = false) :
    ((headless reading prefs).hydrate result).desk =
      { sessions := .ofList result.sessions
        closing := []
        selected := some id
        recent := [id]
        picked := []
        resident := ⟨1, [id]⟩ } := by
  have hrelisted : (headless reading prefs).desk.relist (.ofList result.sessions) =
      { sessions := .ofList result.sessions
        closing := []
        selected := some id
        recent := [id]
        picked := []
        resident := .default } := by
    unfold Desk.relist desk headless
    rw [hlast]
    dsimp only
    rw [Option.filter_some, if_pos (by rw [hget]; rfl)]
    rfl
  obtain ⟨base, hdesk, hbase⟩ := Fresh.desk_hydrate (headless reading prefs) result
  dsimp only at hbase
  rw [hrelisted] at hbase
  rcases hbase with ⟨_, rfl⟩ | ⟨hnone, _⟩
  · rw [hdesk]
    unfold Desk.restore
    dsimp only
    rw [if_pos]
    · rfl
    · unfold Desk.isActive
      dsimp only
      rw [hget, Option.any_some, hactive]
      rfl
  · cases hnone

theorem desk_updated {session known : SessionRecord}
    (hget : store.sessions.get session.id = some known) (hchanged : known ≠ session)
    (hstays : store.shouldAutoClose session = false) :
    (store.handleEvent walk (.sessionUpdated session)).desk =
      { store.desk with sessions := store.sessions.insert session } := by
  have hrecord : store.desk.record session =
      { store.desk with sessions := store.sessions.insert session } := by
    unfold Desk.record
    dsimp only
    change (if ((store.sessions.get session.id).isNone && _ && _ && _) = true then _ else _) = _
    rw [hget]
    rfl
  unfold handleEvent upsertSession
  dsimp only
  rw [if_neg (by rw [hget]; exact fun heq => hchanged (Option.some.inj heq)), if_neg
    (Bool.eq_false_iff.mp hstays), hget]
  rcases desk_settleRecord (fresh_takeRecord store session) session.id false with
    ⟨hdesk, _⟩ | ⟨⟨hfalse, _⟩, _⟩ | ⟨⟨hfalse, _⟩, _⟩
  · exact (hdesk.trans (desk_takeRecord store session)).trans hrecord
  · cases hfalse
  · cases hfalse

end SessionStore

/-! ### A window that remembers one session -/

/-- The window that showed `id` when it was closed, and asks nothing. -/
def lastShowing (id : SessionId) : Preferences where
  toPrefs := noPrefs
  sidebarExpandedArchives := []
  lastSelectedSession := some id
  confirmBeforeClosingSession := false

def plainReading : OverviewReading := ⟨fun _ => .running, fun _ _ => true⟩

/-- An operation on a hash map that is walked as it is listed. -/
def turnOf (operation : Operation) : Turn := ⟨⟨id, fun _ => List.Perm.refl _⟩, operation⟩

end Navigation

end Homie.App
