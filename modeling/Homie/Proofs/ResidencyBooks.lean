/-
The books of the resident terminals.

Who entered the resident set and who left it is kept in `residencyMoves`.  The books balance when
the moves of every session alternate and end where the resident set stands, and when the departures
are, one for one and in order, the detachments that were asked for.  Only `touchTerminal` and
`dropTerminal` make entries, so every operation keeps them.
-/
import Homie.Proofs.SidebarCache

namespace Homie.App.Navigation

open Trace

/-! ### Moves -/

/-- Where the moves of a session lead, from resident or not; an entry of a resident session and a
departure of an absent one have no reading. -/
def resides (id : SessionId) : Bool → List ResidencyMove → Option Bool
  | present, [] => some present
  | present, .entered other :: moves =>
    if other = id then if present then none else resides id true moves
    else resides id present moves
  | present, .left other :: moves =>
    if other = id then if present then resides id false moves else none
    else resides id present moves

def ResidencyMove.departed : ResidencyMove → Option SessionId
  | .entered _ => none
  | .left id => some id

def StoreEffect.detached : StoreEffect → Option SessionId
  | .detachAttachment id => some id
  | _ => none

theorem resides_append (id : SessionId) (present : Bool) (front back : List ResidencyMove) :
    resides id present (front ++ back) =
      (resides id present front).bind fun present => resides id present back := by
  induction front generalizing present with
  | nil => rfl
  | cons move front ih =>
    cases move with
    | entered other =>
      rw [List.cons_append, resides, resides]
      by_cases hother : other = id
      · rw [if_pos hother, if_pos hother]
        cases present with
        | false => exact ih true
        | true => rfl
      · rw [if_neg hother, if_neg hother]
        exact ih present
    | left other =>
      rw [List.cons_append, resides, resides]
      by_cases hother : other = id
      · rw [if_pos hother, if_pos hother]
        cases present with
        | false => rfl
        | true => exact ih false
      · rw [if_neg hother, if_neg hother]
        exact ih present

/-! ### The resident set -/

namespace TerminalResidency

variable {residency : TerminalResidency} {id : SessionId}

theorem touch_fits (h : (id :: residency.order.filter (· ≠ id)).length ≤ residency.capacity) :
    residency.touch id =
      ({ residency with order := id :: residency.order.filter (· ≠ id) }, none) := by
  unfold touch
  exact if_neg (Nat.not_lt.mpr h)

theorem touch_evicts (h : residency.capacity < (id :: residency.order.filter (· ≠ id)).length) :
    ∃ kept evicted, id :: residency.order.filter (· ≠ id) = kept ++ [evicted] ∧
      residency.touch id = ({ residency with order := kept }, some evicted) := by
  have hne : id :: residency.order.filter (· ≠ id) ≠ [] := List.cons_ne_nil _ _
  refine ⟨_, _, (List.dropLast_append_getLast hne).symm, ?_⟩
  unfold touch
  rw [← List.getLast?_eq_getLast_of_ne_nil hne]
  exact if_pos h

theorem nodup_touched (h : residency.order.Nodup) :
    (id :: residency.order.filter (· ≠ id)).Nodup := by
  refine List.nodup_cons.mpr ⟨fun hmem => ?_, h.filter _⟩
  simpa using (List.mem_filter.mp hmem).2

theorem mem_touched {other : SessionId} :
    other ∈ id :: residency.order.filter (· ≠ id) ↔ other = id ∨ other ∈ residency.order := by
  rw [List.mem_cons, List.mem_filter, decide_eq_true_iff]
  by_cases hother : other = id
  · exact ⟨fun _ => Or.inl hother, fun _ => Or.inl hother⟩
  · constructor
    · intro h
      exact h.imp_right And.left
    · intro h
      exact h.imp_right fun hmem => ⟨hmem, hother⟩

/-- Touching a resident session makes no room necessary. -/
theorem length_touched_of_mem (hnodup : residency.order.Nodup) (h : id ∈ residency.order) :
    (id :: residency.order.filter (· ≠ id)).length ≤ residency.order.length := by
  have herase : residency.order.filter (· ≠ id) = residency.order.erase id := by
    rw [hnodup.erase_eq_filter]
    exact List.filter_congr fun other _ => by simp [bne, beq_eq_decide]
  rw [herase, List.length_cons, List.length_erase_of_mem h]
  have := List.length_pos_of_mem h
  omega

end TerminalResidency

/-! ### The books -/

/-- The moves of everybody alternate and end in `order`, and the departures are the detachments. -/
structure Ledger (order : List SessionId) (moves : List ResidencyMove)
    (effects : List StoreEffect) : Prop where
  settled : ∀ id, resides id false moves = some (decide (id ∈ order))
  detached : effects.filterMap StoreEffect.detached = moves.filterMap ResidencyMove.departed

namespace Ledger

variable {order order' : List SessionId} {moves : List ResidencyMove} {effects : List StoreEffect}
variable {id : SessionId}

theorem emit (h : Ledger order moves effects) {effect : StoreEffect}
    (heffect : effect.detached = none) : Ledger order moves (effects ++ [effect]) := by
  refine ⟨h.settled, ?_⟩
  rw [List.filterMap_append, List.filterMap_cons_none heffect, List.filterMap_nil,
    List.append_nil]
  exact h.detached

theorem enter (h : Ledger order moves effects) (hid : id ∉ order)
    (hmem : ∀ other, other ∈ order' ↔ other = id ∨ other ∈ order) :
    Ledger order' (moves ++ [.entered id]) effects := by
  refine ⟨fun other => ?_, ?_⟩
  · rw [resides_append, h.settled, Option.bind_some, resides]
    by_cases hother : id = other
    · subst hother
      rw [if_pos rfl, if_neg (by simpa using hid)]
      exact congrArg some (decide_eq_true ((hmem id).mpr (Or.inl rfl))).symm
    · rw [if_neg hother]
      refine congrArg some (decide_eq_decide.mpr ?_)
      rw [hmem]
      exact ⟨Or.inr, fun hin => hin.resolve_left fun heq => hother heq.symm⟩
  · rw [List.filterMap_append, h.detached]
    exact (List.append_nil _).symm

theorem leave (h : Ledger order moves effects) (hid : id ∈ order)
    (hmem : ∀ other, other ∈ order' ↔ other ≠ id ∧ other ∈ order) :
    Ledger order' (moves ++ [.left id]) (effects ++ [.detachAttachment id]) := by
  refine ⟨fun other => ?_, ?_⟩
  · rw [resides_append, h.settled, Option.bind_some, resides]
    by_cases hother : id = other
    · subst hother
      rw [if_pos rfl, if_pos (decide_eq_true hid)]
      exact congrArg some (decide_eq_false fun hin => ((hmem id).mp hin).1 rfl).symm
    · rw [if_neg hother]
      refine congrArg some (decide_eq_decide.mpr ?_)
      rw [hmem]
      exact ⟨fun hin => ⟨fun heq => hother heq.symm, hin⟩, And.right⟩
  · rw [List.filterMap_append, List.filterMap_append, h.detached]
    rfl

theorem reorder (h : Ledger order moves effects) (hmem : ∀ other, other ∈ order' ↔ other ∈ order) :
    Ledger order' moves effects := by
  refine ⟨fun other => ?_, h.detached⟩
  rw [h.settled]
  exact congrArg some (decide_eq_decide.mpr (hmem other).symm)

end Ledger

/-- The ledger balances, and the set holds at most one: only the selected terminal is visible. -/
structure Books (residency : TerminalResidency) (moves : List ResidencyMove)
    (effects : List StoreEffect) : Prop extends Ledger residency.order moves effects where
  single : residency.capacity = 1
  nodup : residency.order.Nodup
  bounded : residency.order.length ≤ residency.capacity

theorem Books.initial : Books .default [] [] :=
  ⟨⟨fun _ => rfl, rfl⟩, rfl, List.nodup_nil, Nat.zero_le _⟩

namespace SessionStore

variable {store : SessionStore} {walk : HashOrder SessionRecord} {id : SessionId}

def Accounted (store : SessionStore) : Prop :=
  Books store.terminalResidency store.residencyMoves store.effects

namespace Accounted

theorem emit (h : store.Accounted) {effect : StoreEffect} (heffect : effect.detached = none) :
    (store.emit effect).Accounted :=
  ⟨h.toLedger.emit heffect, h.single, h.nodup, h.bounded⟩

/-- A touch is an entry, unless the session is resident, and a departure if the set was full. -/
theorem touchTerminal (h : store.Accounted) (id : SessionId) :
    (store.touchTerminal id).Accounted := by
  have hnodup := @TerminalResidency.nodup_touched _ id h.nodup
  have hmem := @TerminalResidency.mem_touched store.terminalResidency id
  unfold SessionStore.touchTerminal
  by_cases hid : id ∈ store.terminalResidency.order
  · have hfits := (TerminalResidency.length_touched_of_mem h.nodup hid).trans h.bounded
    rw [TerminalResidency.touch_fits hfits]
    dsimp only
    rw [if_pos hid, Option.toList_none, List.map_nil, List.append_nil, List.append_nil]
    refine ⟨h.reorder fun other => ?_, h.single, hnodup, hfits⟩
    rw [hmem]
    exact ⟨fun hin => hin.elim (fun heq => heq ▸ hid) fun hin => hin, Or.inr⟩
  · rcases Nat.lt_or_ge store.terminalResidency.capacity
      (id :: store.terminalResidency.order.filter (· ≠ id)).length with hfull | hfits
    · obtain ⟨kept, evicted, hsplit, htouch⟩ := TerminalResidency.touch_evicts hfull
      rw [htouch]
      dsimp only
      rw [hsplit] at hnodup hmem
      have hentered := h.enter hid fun other => hmem
      have hleft : Ledger kept _ _ := hentered.leave (List.mem_append_right _ (List.mem_singleton_self _))
        fun other => ⟨fun hkept => ⟨fun heq => ?_, List.mem_append_left _ hkept⟩, fun hin =>
          (List.mem_append.mp hin.2).resolve_right fun hlast => hin.1 (List.mem_singleton.mp hlast)⟩
      · rw [if_neg hid]
        rw [List.append_assoc] at hleft
        refine ⟨hleft, h.single, hnodup.of_append_left, ?_⟩
        have hlength := congrArg List.length hsplit
        rw [List.length_append, List.length_cons, List.length_singleton] at hlength
        have hfilter := List.length_filter_le (· ≠ id) store.terminalResidency.order
        have := h.bounded
        change kept.length ≤ store.terminalResidency.capacity
        omega
      · exact (List.nodup_append.mp hnodup).2.2 other hkept evicted (List.mem_singleton_self _) heq
    · rw [TerminalResidency.touch_fits hfits]
      dsimp only
      rw [if_neg hid, Option.toList_none, List.map_nil, List.append_nil]
      exact ⟨h.enter hid fun _ => hmem, h.single, hnodup, hfits⟩

theorem dropTerminal (h : store.Accounted) (id : SessionId) :
    (store.dropTerminal id).Accounted := by
  have hnodup : (store.terminalResidency.order.filter (· ≠ id)).Nodup := h.nodup.filter _
  have hbounded : (store.terminalResidency.order.filter (· ≠ id)).length ≤
      store.terminalResidency.capacity := (List.length_filter_le _ _).trans h.bounded
  have hmem : ∀ other, other ∈ store.terminalResidency.order.filter (· ≠ id) ↔
      other ≠ id ∧ other ∈ store.terminalResidency.order := by
    intro other
    rw [List.mem_filter, decide_eq_true_iff, and_comm]
  unfold SessionStore.dropTerminal TerminalResidency.remove
  dsimp only
  split
  · next hremoved =>
      have hid : id ∈ store.terminalResidency.order := by
        by_contra hid
        have hsame : store.terminalResidency.order.filter (· ≠ id) =
            store.terminalResidency.order := by
          refine List.filter_eq_self.mpr fun other hother => decide_eq_true ?_
          rintro rfl
          exact hid hother
        rw [hsame, bne_self_eq_false] at hremoved
        cases hremoved
      exact ⟨h.leave hid hmem, h.single, hnodup, hbounded⟩
  · next hkept =>
      have hsame : store.terminalResidency.order.filter (· ≠ id) =
          store.terminalResidency.order := by
        rw [List.filter_eq_self, ← List.length_filter_eq_length_iff]
        exact bne_eq_false_iff_eq.mp (Bool.eq_false_iff.mpr hkept)
      exact ⟨h.reorder fun other => by rw [hsame], h.single, hnodup, hbounded⟩

theorem autoResumeIfNeeded (h : store.Accounted) (id : SessionId) :
    (store.autoResumeIfNeeded id).Accounted := by
  unfold SessionStore.autoResumeIfNeeded
  dsimp only
  split
  · exact h
  · refine emit ?_ rfl
    exact h

theorem autoResumeSelectedIfNeeded (h : store.Accounted) :
    store.autoResumeSelectedIfNeeded.Accounted := by
  unfold SessionStore.autoResumeSelectedIfNeeded
  split
  · exact h.autoResumeIfNeeded _
  · exact h

/-! ### Reading and navigation -/

theorem sidebarProjection (h : store.Accounted) : store.sidebarProjection.2.Accounted := by
  unfold SessionStore.sidebarProjection
  dsimp only
  split
  · split
    · exact h
    · exact h
  · exact h

theorem reveal (h : store.Accounted) (id : SessionId) : (store.reveal id).1.Accounted := by
  unfold SessionStore.reveal
  split
  · exact h
  · dsimp only
    split
    · exact h
    · exact h

theorem markSelected (h : store.Accounted) (id : SessionId) :
    (store.markSelected id).Accounted := by
  have hselected : Accounted { store with selectedSessionId := some id } := h
  have hrevealed := hselected.reveal id
  unfold SessionStore.markSelected
  dsimp only
  split
  · exact hrevealed
  · exact hrevealed

theorem attachFocused (h : store.Accounted) (id : SessionId) :
    (store.attachFocused id).Accounted := by
  unfold SessionStore.attachFocused
  split
  · exact (h.touchTerminal id).emit rfl
  · exact h

theorem focusSession (h : store.Accounted) (id : SessionId) :
    (store.focusSession id).Accounted :=
  (((h.markSelected id).attachFocused id).autoResumeIfNeeded id).emit rfl

theorem setSelectedSurvivor (h : store.Accounted) (survivor : Option SessionId) :
    (store.setSelectedSurvivor survivor).Accounted := by
  cases survivor with
  | none => exact h
  | some id => exact h.focusSession id

theorem autoSelectIfNeeded (h : store.Accounted) : store.autoSelectIfNeeded.Accounted := by
  unfold SessionStore.autoSelectIfNeeded
  split
  · exact h
  · exact h.sidebarProjection.setSelectedSurvivor _

theorem withOverview (h : store.Accounted)
    (f : SessionOverviewState → List SessionRecord → SessionOverviewState) :
    (store.withOverview f).Accounted :=
  h.sidebarProjection

theorem reconcileNavigation (h : store.Accounted) : store.reconcileNavigation.Accounted := by
  have hswitcher : Accounted { store with
      switcher := store.switcher.reconcile fun id => (store.sessions.get id).isSome } := h
  exact hswitcher.withOverview _

theorem syncSidebarOrder (h : store.Accounted) : store.syncSidebarOrder.Accounted := by
  unfold SessionStore.syncSidebarOrder
  dsimp only
  split
  · exact h
  · exact h

theorem focusNeighbor (h : store.Accounted) (excluded : List SessionId) :
    (store.focusNeighbor excluded).Accounted :=
  h.sidebarProjection.setSelectedSurvivor _

theorem select (h : store.Accounted) (id : SessionId) : (store.select id).Accounted := by
  unfold SessionStore.select
  split
  · have hcleared : Accounted { store with
        sidebarSelection := [], sidebarSelectionAnchor := some id } := h
    exact hcleared.focusSession id
  · exact h

theorem selectRange (h : store.Accounted) (id : SessionId) : (store.selectRange id).Accounted := by
  unfold SessionStore.selectRange sidebarVisibleOrder
  dsimp only
  split
  · exact h.sidebarProjection
  · exact h.sidebarProjection

theorem withFocused (h : store.Accounted) (id : SessionId) : (store.withFocused id).Accounted := by
  unfold SessionStore.withFocused
  split
  · split
    · exact h
    · exact h
  · exact h

theorem dropRow (h : store.Accounted) (id : SessionId) : (store.dropRow id).Accounted := by
  have hkept : Accounted { store with
      sidebarSelection := store.sidebarSelection.filter (· ≠ id) } := h
  have hread := hkept.sidebarProjection
  unfold SessionStore.dropRow
  dsimp only
  split
  · split
    · exact focusSession hread _
    · exact hread
  · exact h

theorem toggleRow (h : store.Accounted) (id : SessionId) : (store.toggleRow id).Accounted := by
  unfold SessionStore.toggleRow
  dsimp only
  split
  · exact (h.withFocused id).dropRow id
  · exact h.withFocused id

theorem sidebarClick (h : store.Accounted) (id : SessionId) (modifiers : ClickModifiers) :
    (store.sidebarClick id modifiers).Accounted := by
  unfold SessionStore.sidebarClick
  split
  · exact h
  · split
    · exact h.selectRange id
    · split
      · exact h.toggleRow id
      · exact h.select id

/-! ### Closing, archiving, reviving -/

theorem closeRow (h : store.Accounted) (id : SessionId) : (store.closeRow id).Accounted := by
  have hkept : Accounted { store with
      sidebarSelection := store.sidebarSelection.filter (· ≠ id) } := h
  have hdropped := hkept.dropTerminal id
  refine emit ?_ rfl
  exact hdropped

theorem closeRows (h : store.Accounted) (ids : List SessionId) :
    (ids.foldl SessionStore.closeRow store).Accounted := by
  induction ids generalizing store with
  | nil => exact h
  | cons id ids ih => exact ih (h.closeRow id)

theorem removeSessions (h : store.Accounted) (walk : HashOrder SessionRecord)
    (ids : List SessionId) : (store.removeSessions walk ids).Accounted := by
  unfold SessionStore.removeSessions
  dsimp only
  refine reconcileNavigation ?_
  refine closeRows ?_ (store.withAuxiliary walk ids)
  split
  · exact h.focusNeighbor _
  · exact h

theorem requestClose (h : store.Accounted) (walk : HashOrder SessionRecord)
    (ids : List SessionId) : (store.requestClose walk ids).Accounted := by
  unfold SessionStore.requestClose
  dsimp only
  split
  · exact h
  · split
    · exact h
    · exact h.removeSessions walk _

theorem confirmPendingClose (h : store.Accounted) (walk : HashOrder SessionRecord) :
    (store.confirmPendingClose walk).Accounted := by
  unfold SessionStore.confirmPendingClose
  split
  · have htaken : Accounted { store with pendingClose := none } := h
    exact htaken.removeSessions walk _
  · exact h

theorem modify (h : store.Accounted) (id : SessionId) (f : SessionRecord → SessionRecord) :
    (store.modify id f).Accounted := by
  unfold SessionStore.modify
  split
  · exact h
  · exact h

theorem archiveRow (h : store.Accounted) (now : SessionId → DateMillis) (id : SessionId) :
    (SessionStore.archiveRow now store id).Accounted := by
  have hkept : Accounted { store with
      sidebarSelection := store.sidebarSelection.filter (· ≠ id) } := h
  have hmodified := hkept.modify id fun session => { session with archivedAt := some (now id) }
  exact (hmodified.dropTerminal id).emit rfl

theorem archiveRows (h : store.Accounted) (now : SessionId → DateMillis) (ids : List SessionId) :
    (ids.foldl (SessionStore.archiveRow now) store).Accounted := by
  induction ids generalizing store with
  | nil => exact h
  | cons id ids ih => exact ih (h.archiveRow now id)

theorem archiveSessions (h : store.Accounted) (now : SessionId → DateMillis)
    (ids : List SessionId) : (store.archiveSessions now ids).Accounted := by
  unfold SessionStore.archiveSessions
  dsimp only
  refine archiveRows ?_ now (ids.filter store.isActive)
  split
  · exact h.focusNeighbor _
  · exact h

theorem reviveRow (revived : List SessionId × SessionStore) (h : revived.2.Accounted)
    (id : SessionId) : (SessionStore.reviveRow revived id).2.Accounted := by
  unfold SessionStore.reviveRow
  split
  · split
    · refine (h.modify id _).emit ?_
      split
      · rfl
      · rfl
    · exact h
  · exact h

theorem reviveRows (revived : List SessionId × SessionStore) (h : revived.2.Accounted)
    (ids : List SessionId) : (ids.foldl SessionStore.reviveRow revived).2.Accounted := by
  induction ids generalizing revived with
  | nil => exact h
  | cons id ids ih => exact ih _ (reviveRow revived h id)

theorem reviveSessions (h : store.Accounted) (ids : List SessionId) :
    (store.reviveSessions ids).Accounted := by
  have hrevived := reviveRows ([], store) h ids
  unfold SessionStore.reviveSessions
  dsimp only
  split
  · refine select ?_ _
    exact hrevived
  · exact hrevived

theorem rename (h : store.Accounted) (id : SessionId) (title : String) :
    (store.rename id title).Accounted := by
  unfold SessionStore.rename
  dsimp only
  refine emit ?_ rfl
  split
  · exact h.modify id _
  · exact h

/-! ### Records from the daemon -/

theorem restoreTerminal (h : store.Accounted) : store.restoreTerminal.Accounted := by
  unfold SessionStore.restoreTerminal
  split
  · split
    · exact h.touchTerminal _
    · exact h
  · exact h

theorem hydrate (h : store.Accounted) (result : SessionListResult) :
    (store.hydrate result).Accounted := by
  have htaken : (store.takeList result).Accounted := h
  exact htaken.syncSidebarOrder.autoSelectIfNeeded.restoreTerminal.autoResumeSelectedIfNeeded
    |>.reconcileNavigation

theorem takeRecord (h : store.Accounted) (session : SessionRecord) :
    (store.takeRecord session).Accounted := by
  have hsync : ∀ {isNew : Bool} {next : SessionStore}, next.Accounted →
      (if isNew = true then next.syncSidebarOrder else next).Accounted := by
    intro isNew next hnext
    split
    · exact hnext.syncSidebarOrder
    · exact hnext
  have hinserted : Accounted { store with sessions := store.sessions.insert session } := h
  unfold SessionStore.takeRecord
  dsimp only
  refine hsync ?_
  split
  · exact hinserted.touchTerminal session.id
  · exact hinserted

theorem settleRecord (h : store.Accounted) (id : SessionId) (isNew : Bool) :
    (store.settleRecord id isNew).Accounted := by
  have hresumed := h.autoResumeIfNeeded id
  unfold SessionStore.settleRecord
  dsimp only
  refine reconcileNavigation ?_
  split
  · split
    · exact hresumed.focusSession id
    · exact hresumed.autoSelectIfNeeded
  · exact hresumed

theorem upsertSession (h : store.Accounted) (walk : HashOrder SessionRecord)
    (session : SessionRecord) : (store.upsertSession walk session).Accounted := by
  unfold SessionStore.upsertSession
  split
  · exact (h.takeRecord session).removeSessions walk _
  · exact (h.takeRecord session).settleRecord _ _

theorem removeSessionRecord (h : store.Accounted) (id : SessionId) :
    (store.removeSessionRecord id).Accounted := by
  unfold SessionStore.removeSessionRecord
  dsimp only
  refine reconcileNavigation (syncSidebarOrder (dropTerminal ?_ id))
  split
  · exact h.focusNeighbor _
  · exact h

theorem handleEvent (h : store.Accounted) (walk : HashOrder SessionRecord) (event : Event) :
    (store.handleEvent walk event).Accounted := by
  cases event with
  | sessionUpdated session =>
    unfold SessionStore.handleEvent
    dsimp only
    split
    · exact h
    · exact h.upsertSession walk session
  | sessionResources resources =>
    unfold SessionStore.handleEvent
    dsimp only
    split
    · split
      · exact h
      · exact h
    · exact h
  | sessionRemoved id =>
    unfold SessionStore.handleEvent
    dsimp only
    split
    · exact h.removeSessionRecord id
    · exact h
  | projectUpdated project =>
    unfold SessionStore.handleEvent
    dsimp only
    split
    · exact h
    · refine syncSidebarOrder ?_
      exact h

/-! ### Switcher and overview -/

theorem applySwitcherOutcome (h : store.Accounted) (outcome : SwitcherOutcome) :
    (store.applySwitcherOutcome outcome).Accounted := by
  unfold SessionStore.applySwitcherOutcome
  split
  · exact h.select _
  · exact h

theorem applyOverviewOutcome (h : store.Accounted) (walk : HashOrder SessionRecord)
    (outcome : OverviewOutcome) : (store.applyOverviewOutcome walk outcome).Accounted := by
  unfold SessionStore.applyOverviewOutcome
  split
  · exact h.select _
  · exact h.requestClose walk _
  · exact h

theorem actOnOverview (h : store.Accounted) (walk : HashOrder SessionRecord)
    (f : SessionOverviewState → List SessionRecord → SessionOverviewState × OverviewOutcome) :
    (store.actOnOverview walk f).Accounted := by
  have hread := h.sidebarProjection
  refine applyOverviewOutcome ?_ walk _
  exact hread

theorem actOnSelection (h : store.Accounted) (walk : HashOrder SessionRecord)
    (f : SessionOverviewState → SessionOverviewState × OverviewOutcome) :
    (store.actOnSelection walk f).Accounted := by
  refine applyOverviewOutcome ?_ walk _
  exact h

theorem pressSwitcherKey (h : store.Accounted) (key : SwitcherKey) (order : List SessionId) :
    (store.pressSwitcherKey key order).Accounted := by
  refine applySwitcherOutcome ?_ _
  exact h

theorem handleSwitcherKey (h : store.Accounted) (key : SwitcherKey) :
    (store.handleSwitcherKey key).Accounted := by
  have hread := h.sidebarProjection
  unfold SessionStore.handleSwitcherKey
  split
  · refine pressSwitcherKey ?_ key _
    exact hread
  · exact h.pressSwitcherKey key []

theorem handleSwitcherModifiersChanged (h : store.Accounted) (controlHeld : Bool) :
    (store.handleSwitcherModifiersChanged controlHeld).Accounted := by
  refine applySwitcherOutcome ?_ _
  exact h

theorem commitSwitcherIndex (h : store.Accounted) (index : Nat) :
    (store.commitSwitcherIndex index).Accounted := by
  unfold SessionStore.commitSwitcherIndex
  dsimp only
  split
  · refine select ?_ _
    exact h
  · exact h

theorem toggleSessionCollapsed (h : store.Accounted) (id : SessionId) :
    (store.toggleSessionCollapsed id).Accounted := by
  unfold SessionStore.toggleSessionCollapsed
  dsimp only
  split
  · exact h.select id
  · exact h

end Accounted

end SessionStore

/-! ### Every run -/

theorem accounted_perform {store : SessionStore} (h : store.Accounted) (turn : Turn) :
    (perform store turn).Accounted := by
  obtain ⟨walk, operation⟩ := turn
  cases operation with
  | hydrate result => exact h.hydrate result
  | handleEvent event => exact h.handleEvent walk event
  | upsertSession session => exact h.upsertSession walk session
  | removeSessionRecord id => exact h.removeSessionRecord id
  | select id => exact h.select id
  | applySpawnResult id => exact h.focusSession id
  | sidebarClick id modifiers => exact h.sidebarClick id modifiers
  | clearSidebarSelection => exact h
  | sidebarSelectionOrdered => exact h.sidebarProjection
  | focusNeighbor excluded => exact h.focusNeighbor excluded
  | mruSessions => exact h.sidebarProjection
  | requestClose ids => exact h.requestClose walk ids
  | confirmPendingClose => exact h.confirmPendingClose walk
  | cancelPendingClose => exact h
  | removeSessions ids => exact h.removeSessions walk ids
  | archiveSessions ids now => exact h.archiveSessions now ids
  | reviveSessions ids => exact h.reviveSessions ids
  | autoResumeIfNeeded id => exact h.autoResumeIfNeeded id
  | finishAutoResume id => exact h
  | rename id title => exact h.rename id title
  | reconcileSidebarOrder => exact h.syncSidebarOrder
  | setProjectOrder order => exact h
  | setSessionOrder order => exact h
  | stageProjectOrder order =>
    unfold perform SessionStore.stageProjectOrder
    dsimp only
    split
    · exact h
    · exact h
  | stageSessionOrder order =>
    unfold perform SessionStore.stageSessionOrder
    dsimp only
    split
    · exact h
    · exact h
  | toggleProjectPin id => exact h
  | toggleSessionPin id => exact h
  | toggleProjectCollapsed id => exact h
  | toggleSessionCollapsed id => exact h.toggleSessionCollapsed id
  | toggleArchiveExpanded id =>
    unfold perform SessionStore.toggleArchiveExpanded
    dsimp only
    split
    · exact h
    · exact h
  | updatePreferences update => exact h
  | sidebarProjection => exact h.sidebarProjection
  | handleSwitcherKey key => exact h.handleSwitcherKey key
  | handleSwitcherModifiersChanged controlHeld =>
    exact h.handleSwitcherModifiersChanged controlHeld
  | commitSwitcherIndex index => exact h.commitSwitcherIndex index
  | cancelSwitcher => exact h
  | toggleOverview =>
    have htoggled := h.withOverview fun overview => overview.toggle store.reading
    unfold perform SessionStore.toggleOverview
    dsimp only
    split
    · exact htoggled
    · exact htoggled
  | dismissOverview => exact h
  | setOverviewMode mode => exact h.withOverview _
  | setOverviewFilter filter => exact h.withOverview _
  | appendOverviewQuery text => exact h.withOverview _
  | overviewBackspace => exact h.actOnOverview walk _
  | overviewEscape => exact h.actOnOverview walk _
  | moveOverviewFocus arrow => exact h.withOverview _
  | activateOverviewFocus => exact h.actOnSelection walk _
  | activateOverviewSession id => exact h.actOnSelection walk _
  | toggleOverviewSelection id =>
    unfold perform SessionStore.toggleOverviewSelection
    dsimp only
    split
    · exact h
    · exact h
  | clearOverviewSelection => exact h
  | selectAllOverviewSessions => exact h.withOverview _
  | closeOverviewSelection => exact h.actOnSelection walk _
  | closeOverviewSession id => exact h.actOnSelection walk _

theorem accounted_run (reading : OverviewReading) (prefs : Preferences) (turns : List Turn) :
    (run step (SessionStore.headless reading prefs) turns).Accounted := by
  have hstart : (SessionStore.headless reading prefs).Accounted := Books.initial
  exact run_invariant step hstart (fun _ turn h => accounted_perform h turn) turns

end Homie.App.Navigation
