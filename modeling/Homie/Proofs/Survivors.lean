/-
Who is selected when the selected session goes.

`focus_neighbor` looks for the successor among the rows of the window, first ahead and then behind,
first in the project and then anywhere.  What it does not look at are the sessions that are folded
away: with none but them left it clears the selection, and from a hidden selection it takes the
first row there is, of whatever project.
-/
import Homie.Proofs.Selection
import Homie.Proofs.Unfolding

namespace Homie.App.Navigation

open Sorting

/-! ### The successor -/

namespace SessionStore

variable {store : SessionStore} {order gone : List SessionId} {current id : SessionId}

def projectOf (store : SessionStore) (id : SessionId) : Option ProjectId :=
  (store.sessions.get id).map (·.projectId)

theorem neighbor_of_hidden (hselected : store.selectedSessionId = some current)
    (hhidden : current ∉ order) :
    store.neighbor order gone = (order.filter fun id => !gone.contains id).head? := by
  unfold neighbor
  dsimp only
  rw [hselected]
  dsimp only
  rw [List.idxOf?_eq_none_iff.mpr hhidden]

theorem exists_find_or {p : SessionId → Bool} {ahead behind : List SessionId}
    (rest : Option SessionId) (h : ∃ id, (id ∈ ahead ∨ id ∈ behind) ∧ p id = true) :
    ∃ id, (ahead.find? p).or ((behind.find? p).or rest) = some id ∧ p id = true := by
  cases hahead : ahead.find? p with
  | some id => exact ⟨id, rfl, List.find?_some hahead⟩
  | none =>
    cases hbehind : behind.find? p with
    | some id => exact ⟨id, rfl, List.find?_some hbehind⟩
    | none =>
      obtain ⟨id, hid, hfits⟩ := h
      rcases hid with hid | hid
      · exact absurd hfits (List.find?_eq_none.mp hahead id hid)
      · exact absurd hfits (List.find?_eq_none.mp hbehind id hid)

theorem neighbor_of_project (hselected : store.selectedSessionId = some current)
    (hrow : current ∈ order)
    (hstays : ∃ id ∈ order, id ∉ gone ∧ store.projectOf id = store.projectOf current) :
    ∃ id, store.neighbor order gone = some id ∧ store.projectOf id = store.projectOf current := by
  obtain ⟨id, hid, hopen, hproject⟩ := hstays
  unfold neighbor
  dsimp only
  rw [hselected]
  dsimp only
  cases hindex : order.idxOf? current with
  | none => exact absurd hrow (List.idxOf?_eq_none_iff.mp hindex)
  | some index =>
    dsimp only
    have hplace : id ∈ order.drop index ∨ id ∈ (order.take index).reverse := by
      rw [List.mem_reverse, or_comm, ← List.mem_append, List.take_append_drop]
      exact hid
    have hfits : (!gone.contains id && store.projectOf id == store.projectOf current) = true := by
      simp [hopen, hproject]
    obtain ⟨next, hnext, hfound⟩ := exists_find_or
      (((order.drop index).find? fun id => !gone.contains id).or
        (((order.take index).reverse.find? fun id => !gone.contains id).or
          (order.filter fun id => !gone.contains id).head?))
      (p := fun id => !gone.contains id && store.projectOf id == store.projectOf current)
      ⟨id, hplace, hfits⟩
    exact ⟨next, hnext, beq_iff_eq.mp (Bool.and_eq_true_iff.mp hfound).2⟩

/-- Nobody is taken only where no row stays. -/
theorem neighbor_eq_none (h : store.neighbor order gone = none) : ∀ id ∈ order, id ∈ gone := by
  have hfirst : (order.filter fun id => !gone.contains id).head? = none := by
    unfold neighbor at h
    dsimp only at h
    split at h
    · exact h
    · split at h
      · exact h
      · simp only [Option.or_eq_none_iff] at h
        exact h.2.2.2.2
  intro id hid
  have hnot := List.filter_eq_nil_iff.mp (List.head?_eq_none_iff.mp hfirst) id hid
  simpa using hnot

end SessionStore

/-! ### Who stays -/

/-- The sessions that can be looked at: neither archived, nor closing, nor auxiliary. -/
def openSessions (sessions : SessionMap) (closing : List SessionId) : List SessionRecord :=
  (listedSessions sessions closing).filter (!·.isArchived)

theorem mem_openSessions {sessions : SessionMap} {closing : List SessionId}
    {session : SessionRecord} :
    session ∈ openSessions sessions closing ↔ sessions.get session.id = some session ∧
      session.id ∉ closing ∧ isAuxiliaryTerminal session = false ∧
      session.isArchived = false := by
  rw [openSessions, List.mem_filter, listedSessions, mem_listed, sessions.get_eq_some,
    and_iff_left rfl, Bool.not_eq_true', and_assoc, and_assoc]

/-- An open session is selected, and one of the project if the project has one. -/
def Desk.HandedOver (desk : Desk) (project : Option ProjectId) : Prop :=
  ∃ session ∈ openSessions desk.sessions desk.closing, desk.selected = some session.id ∧
    ((∃ other ∈ openSessions desk.sessions desk.closing, some other.projectId = project) →
      some session.projectId = project)

namespace SessionStore

variable {store : SessionStore} {gone gone' : List SessionId} {current id : SessionId}
variable {session : SessionRecord}

/-- The rows that stay when `gone` go. -/
def rowsLeft (store : SessionStore) (gone : List SessionId) : List SessionRecord :=
  store.currentProjection.orderedSessions.filter fun session => !gone.contains session.id

/-- A row stays; and if the project has somebody who stays, then a row of it stays where the
selected session has a row, and the first row that stays is of it where it has none. -/
def FindsSurvivor (store : SessionStore) (current : SessionId) (gone : List SessionId) : Prop :=
  store.rowsLeft gone ≠ [] ∧
    ((∃ session ∈ openSessions store.sessions store.closing, session.id ∉ gone ∧
        some session.projectId = store.projectOf current) →
      if current ∈ store.currentProjection.orderedSessions.map (·.id) then
        ∃ session ∈ store.rowsLeft gone, some session.projectId = store.projectOf current
      else ∃ session, (store.rowsLeft gone).head? = some session ∧
        some session.projectId = store.projectOf current)

theorem mem_rows : session ∈ store.currentProjection.orderedSessions →
    session ∈ listedSessions store.sessions store.closing ∧
      (session.isArchived = true → store.selectedSessionId = some session.id) := by
  intro h
  obtain ⟨hlisted, hway⟩ :=
    (mem_orderedSessions (Nat.le_refl _) store.currentProjection_built).mp h
  refine ⟨hlisted, fun harchived => ?_⟩
  rcases hway with hway | hway
  · exact hway.2
  · rw [hway.1] at harchived
    cases harchived

theorem open_of_rowsLeft (hselected : store.selectedSessionId = some current)
    (hgone : current ∈ gone) (h : session ∈ store.rowsLeft gone) :
    session ∈ openSessions store.sessions store.closing ∧ session.id ∉ gone := by
  obtain ⟨hrow, hstays⟩ := List.mem_filter.mp h
  obtain ⟨hlisted, harchived⟩ := mem_rows hrow
  have hleft : session.id ∉ gone := by simpa using hstays
  refine ⟨List.mem_filter.mpr ⟨hlisted, ?_⟩, hleft⟩
  rw [Bool.not_eq_true', ← Bool.not_eq_true]
  intro hput
  have hsame := harchived hput
  rw [hselected, Option.some.injEq] at hsame
  exact hleft (hsame ▸ hgone)

theorem rowsLeft_ids (store : SessionStore) (gone : List SessionId) :
    (store.rowsLeft gone).map (·.id) =
      (store.currentProjection.orderedSessions.map (·.id)).filter fun id => !gone.contains id := by
  rw [List.filter_map]
  rfl

theorem projectOf_open (h : session ∈ openSessions store.sessions store.closing) :
    store.projectOf session.id = some session.projectId := by
  unfold projectOf
  rw [(mem_openSessions.mp h).1]
  rfl

theorem successor_project (hselected : store.selectedSessionId = some current)
    (hgone : current ∈ gone) (hrow : session ∈ store.rowsLeft gone)
    (hnext : store.neighbor (store.currentProjection.orderedSessions.map (·.id)) gone =
      some session.id) :
    some session.projectId = store.projectOf current ↔
      if current ∈ store.currentProjection.orderedSessions.map (·.id) then
        ∃ session ∈ store.rowsLeft gone, some session.projectId = store.projectOf current
      else ∃ session, (store.rowsLeft gone).head? = some session ∧
        some session.projectId = store.projectOf current := by
  have hproject : ∀ other ∈ store.rowsLeft gone,
      store.projectOf other.id = some other.projectId :=
    fun other hother => projectOf_open (open_of_rowsLeft hselected hgone hother).1
  by_cases hseen : current ∈ store.currentProjection.orderedSessions.map (·.id)
  · rw [if_pos hseen]
    refine ⟨fun hsame => ⟨session, hrow, hsame⟩, fun hstays => ?_⟩
    obtain ⟨other, hother, hsame⟩ := hstays
    obtain ⟨hin, hleft⟩ := List.mem_filter.mp hother
    obtain ⟨id, hid, hfound⟩ := neighbor_of_project hselected hseen
      ⟨other.id, List.mem_map_of_mem hin, by simpa using hleft, (hproject other hother).trans hsame⟩
    rw [hnext, Option.some.injEq] at hid
    rw [← hfound, ← hid, hproject session hrow]
  · rw [if_neg hseen]
    rw [neighbor_of_hidden hselected hseen, ← rowsLeft_ids, List.head?_map] at hnext
    obtain ⟨first, hfirst, hid⟩ := Option.map_eq_some_iff.mp hnext
    have hsame : first.projectId = session.projectId := by
      have hids := hproject first (List.mem_of_mem_head? hfirst)
      rw [hid, hproject session hrow, Option.some.injEq] at hids
      exact hids.symm
    simp [hfirst, hsame]

/-- **The hand-over.** Whoever goes: when the selection has moved to the successor, it is on a
survivor as it should be iff the rows tell of one. -/
theorem handedOver_iff (hselected : store.selectedSessionId = some current) (hgone : current ∈ gone)
    {next : Desk}
    (hopen : ∀ session, session ∈ openSessions next.sessions next.closing ↔
      session ∈ openSessions store.sessions store.closing ∧ session.id ∉ gone)
    (hnext : next.selected =
      store.neighbor (store.currentProjection.orderedSessions.map (·.id)) gone) :
    next.HandedOver (store.projectOf current) ↔ store.FindsSurvivor current gone := by
  have hothers : (∃ other ∈ openSessions next.sessions next.closing,
        some other.projectId = store.projectOf current) ↔
      ∃ session ∈ openSessions store.sessions store.closing, session.id ∉ gone ∧
        some session.projectId = store.projectOf current := by
    simp only [hopen, and_assoc]
  unfold Desk.HandedOver FindsSurvivor
  rw [hothers, hnext]
  cases hfound : store.neighbor (store.currentProjection.orderedSessions.map (·.id)) gone with
  | none =>
    have hnone : store.rowsLeft gone = [] := by
      refine List.filter_eq_nil_iff.mpr fun session hrow => ?_
      simpa using neighbor_eq_none hfound session.id (List.mem_map_of_mem hrow)
    simp [hnone]
  | some id =>
    obtain ⟨hin, hleft⟩ := neighbor_survives hfound
    obtain ⟨session, hrow, rfl⟩ := List.mem_map.mp hin
    have hstays : session ∈ store.rowsLeft gone :=
      List.mem_filter.mpr ⟨hrow, by simpa using hleft⟩
    obtain ⟨hmine, _⟩ := open_of_rowsLeft hselected hgone hstays
    have hproject := successor_project hselected hgone hstays hfound
    constructor
    · intro hover
      obtain ⟨other, hother, hid, hkeeps⟩ := hover
      have hsame : other = session := by
        have hget := (mem_openSessions.mp ((hopen other).mp hother).1).1
        rw [← Option.some.inj hid, (mem_openSessions.mp hmine).1, Option.some.injEq] at hget
        exact hget.symm
      rw [hsame, hproject] at hkeeps
      exact ⟨List.ne_nil_of_mem hstays, hkeeps⟩
    · intro hfinds
      refine ⟨session, (hopen session).mpr ⟨hmine, hleft⟩, rfl, ?_⟩
      rw [hproject]
      exact hfinds.2

end SessionStore

/-! ### What is open after -/

namespace Desk

variable {desk : Desk} {id : SessionId} {ids : List SessionId} {session : SessionRecord}

theorem choose_eq (desk : Desk) (next : Option SessionId) :
    (desk.choose next).sessions = desk.sessions ∧ (desk.choose next).closing = desk.closing ∧
      (desk.choose next).selected = next := by
  cases next with
  | none => exact ⟨rfl, rfl, rfl⟩
  | some id =>
    obtain ⟨resident, hfocus⟩ := desk.focus_eq id
    change (desk.focus id).sessions = _ ∧ (desk.focus id).closing = _ ∧
      (desk.focus id).selected = _
    rw [hfocus]
    exact ⟨rfl, rfl, rfl⟩

theorem closeAll_selected (desk : Desk) (ids : List SessionId) :
    (ids.foldl Desk.close desk).selected = desk.selected := by
  induction ids generalizing desk with
  | nil => rfl
  | cons id ids ih => exact ih (desk.close id)

theorem mem_open_closeAll :
    session ∈ openSessions (ids.foldl Desk.close desk).sessions
        (ids.foldl Desk.close desk).closing ↔
      session ∈ openSessions desk.sessions desk.closing ∧ session.id ∉ ids := by
  rw [mem_openSessions, mem_openSessions, closeAll_sessions, mem_closeAll_closing, not_or]
  tauto

theorem archive_sessions {now : SessionId → DateMillis} :
    (desk.archive now id).sessions = match desk.sessions.get id with
      | some session => desk.sessions.insert { session with archivedAt := some (now id) }
      | none => desk.sessions := rfl

theorem mem_open_archive {now : SessionId → DateMillis} :
    session ∈ openSessions (desk.archive now id).sessions (desk.archive now id).closing ↔
      session ∈ openSessions desk.sessions desk.closing ∧ session.id ≠ id := by
  rw [archive_sessions, show (desk.archive now id).closing = desk.closing from rfl]
  cases hget : desk.sessions.get id with
  | none =>
    refine (and_iff_left_of_imp fun hopen hid => ?_).symm
    have hthere := (mem_openSessions.mp hopen).1
    rw [hid, hget] at hthere
    cases hthere
  | some known =>
    have hkey : known.id = id := desk.sessions.key_of_get hget
    rw [mem_openSessions, mem_openSessions, desk.sessions.get_insert]
    by_cases hid : session.id = id
    · rw [if_pos (hid.trans hkey.symm)]
      refine ⟨fun hopen => ?_, fun hopen => absurd hid hopen.2⟩
      obtain ⟨hsame, _, _, hactive⟩ := hopen
      rw [← Option.some.inj hsame] at hactive
      cases hactive
    · rw [if_neg fun hsame => hid (hsame.trans hkey)]
      exact (and_iff_left hid).symm

theorem mem_open_archiveAll {now : SessionId → DateMillis} :
    session ∈ openSessions (ids.foldl (fun desk id => desk.archive now id) desk).sessions
        (ids.foldl (fun desk id => desk.archive now id) desk).closing ↔
      session ∈ openSessions desk.sessions desk.closing ∧ session.id ∉ ids := by
  induction ids generalizing desk with
  | nil => exact (and_iff_left List.not_mem_nil).symm
  | cons id ids ih =>
    rw [List.foldl_cons, @ih (desk.archive now id), mem_open_archive, List.mem_cons, not_or,
      and_assoc]

theorem archiveAll_selected (desk : Desk) (now : SessionId → DateMillis) (ids : List SessionId) :
    (ids.foldl (fun desk id => desk.archive now id) desk).selected = desk.selected := by
  induction ids generalizing desk with
  | nil => rfl
  | cons id ids ih => exact ih (desk.archive now id)

theorem mem_open_forget :
    session ∈ openSessions (desk.forget id).sessions (desk.forget id).closing ↔
      session ∈ openSessions desk.sessions desk.closing ∧ session.id ≠ id := by
  change session ∈ openSessions (desk.sessions.erase id) (desk.closing.filter (· ≠ id)) ↔ _
  rw [mem_openSessions, mem_openSessions, desk.sessions.get_erase]
  by_cases hid : session.id = id
  · simp [hid]
  · simp [hid]

end Desk

namespace SessionStore

variable {store : SessionStore} {gone gone' : List SessionId} {current : SessionId}

/-- `focus_neighbor` focuses the successor. -/
theorem Fresh.focusNeighbor_desk (h : store.Fresh) (gone : List SessionId) :
    (store.focusNeighbor gone).desk = store.desk.choose
      (store.neighbor (store.currentProjection.orderedSessions.map (·.id)) gone) := by
  obtain ⟨cache, hread, _⟩ := h.sidebarProjection
  unfold SessionStore.focusNeighbor
  rw [hread]
  dsimp only
  rw [desk_setSelectedSurvivor]
  rfl

theorem findsSurvivor_congr (hselected : store.selectedSessionId = some current)
    (hgone : current ∈ gone) (hgone' : current ∈ gone')
    (h : ∀ session ∈ openSessions store.sessions store.closing,
      (session.id ∈ gone ↔ session.id ∈ gone')) :
    store.FindsSurvivor current gone ↔ store.FindsSurvivor current gone' := by
  have hrows : store.rowsLeft gone = store.rowsLeft gone' := by
    refine List.filter_congr fun session hrow => ?_
    obtain ⟨hlisted, harchived⟩ := mem_rows hrow
    have hiff : session.id ∈ gone ↔ session.id ∈ gone' := by
      cases hput : session.isArchived with
      | true =>
        have hsame := harchived hput
        rw [hselected, Option.some.injEq] at hsame
        rw [← hsame]
        exact iff_of_true hgone hgone'
      | false => exact h session (List.mem_filter.mpr ⟨hlisted, by simp [hput]⟩)
    simp only [List.contains_eq_mem, hiff]
  have hsurvivors : (∃ session ∈ openSessions store.sessions store.closing, session.id ∉ gone ∧
        some session.projectId = store.projectOf current) ↔
      ∃ session ∈ openSessions store.sessions store.closing, session.id ∉ gone' ∧
        some session.projectId = store.projectOf current := by
    refine exists_congr fun session => and_congr_right fun hopen => ?_
    rw [h session hopen]
  unfold FindsSurvivor
  rw [hrows, hsurvivors]

/-- The auxiliary terminals that go along are not open. -/
theorem mem_withAuxiliary_of_open {walk : HashOrder SessionRecord} {ids : List SessionId}
    {session : SessionRecord} (hopen : session ∈ openSessions store.sessions store.closing) :
    session.id ∈ store.withAuxiliary walk ids ↔ session.id ∈ ids := by
  refine ⟨fun hin => ?_, mem_withAuxiliary⟩
  unfold withAuxiliary at hin
  rcases List.mem_append.mp (List.mem_eraseDups.mp hin) with hin | hin
  · exact hin
  · obtain ⟨other, hother, hid⟩ := List.mem_map.mp hin
    obtain ⟨hvalues, haux⟩ := List.mem_filter.mp hother
    obtain ⟨hget, _, hplain, _⟩ := mem_openSessions.mp hopen
    have hsame : store.sessions.get session.id = some other :=
      store.sessions.get_eq_some.mpr ⟨(walk.perm _).mem_iff.mp hvalues, hid⟩
    rw [hget, Option.some.injEq] at hsame
    rw [hsame] at hplain
    simp [hplain] at haux

theorem removeSessions_handedOver (hfresh : store.Fresh)
    (hselected : store.selectedSessionId = some current) (walk : HashOrder SessionRecord)
    {ids : List SessionId} (hin : current ∈ ids) :
    (store.removeSessions walk ids).desk.HandedOver (store.projectOf current) ↔
      store.FindsSurvivor current ids := by
  have hgone : current ∈ store.withAuxiliary walk ids := mem_withAuxiliary hin
  have hasked : store.selectedSessionId.any (store.withAuxiliary walk ids).contains = true := by
    rw [hselected, Option.any_some]
    exact List.contains_iff_mem.mpr hgone
  have hdesk : (store.removeSessions walk ids).desk =
      (store.withAuxiliary walk ids).foldl Desk.close (store.desk.choose (store.neighbor
        (store.currentProjection.orderedSessions.map (·.id)) (store.withAuxiliary walk ids))) := by
    unfold SessionStore.removeSessions
    dsimp only
    rw [desk_reconcileNavigation, desk_invalidateProjection, desk_closeRows, if_pos hasked,
      hfresh.focusNeighbor_desk]
  obtain ⟨hsessions, hclosing, hnext⟩ := store.desk.choose_eq (store.neighbor
    (store.currentProjection.orderedSessions.map (·.id)) (store.withAuxiliary walk ids))
  rw [handedOver_iff hselected hgone]
  · exact findsSurvivor_congr hselected hgone hin fun session => mem_withAuxiliary_of_open
  · intro session
    rw [hdesk, Desk.mem_open_closeAll, hsessions, hclosing]
    rfl
  · rw [hdesk, Desk.closeAll_selected, hnext]

theorem archiveSessions_handedOver (hfresh : store.Fresh)
    (hselected : store.selectedSessionId = some current) (now : SessionId → DateMillis)
    {ids : List SessionId} (hin : current ∈ ids) :
    (store.archiveSessions now ids).desk.HandedOver (store.projectOf current) ↔
      store.isActive current = true ∧ store.FindsSurvivor current ids := by
  have hopen : ∀ session ∈ openSessions store.sessions store.closing,
      (session.id ∈ ids.filter store.isActive ↔ session.id ∈ ids) := by
    intro session hsession
    obtain ⟨hget, _, _, hactive⟩ := mem_openSessions.mp hsession
    rw [List.mem_filter, and_iff_left_iff_imp]
    intro _
    unfold isActive
    rw [hget, Option.any_some, hactive]
    rfl
  unfold SessionStore.archiveSessions
  dsimp only
  rw [desk_invalidateProjection, desk_archiveRows]
  by_cases hactive : store.isActive current = true
  · have hgone : current ∈ ids.filter store.isActive := List.mem_filter.mpr ⟨hin, hactive⟩
    have hasked : store.selectedSessionId.any (ids.filter store.isActive).contains = true := by
      rw [hselected, Option.any_some]
      exact List.contains_iff_mem.mpr hgone
    obtain ⟨hsessions, hclosing, hnext⟩ := store.desk.choose_eq (store.neighbor
      (store.currentProjection.orderedSessions.map (·.id)) (ids.filter store.isActive))
    rw [and_iff_right hactive, if_pos hasked, hfresh.focusNeighbor_desk, handedOver_iff hselected hgone]
    · exact findsSurvivor_congr hselected hgone hin hopen
    · intro session
      rw [Desk.mem_open_archiveAll, hsessions, hclosing]
      rfl
    · rw [Desk.archiveAll_selected, hnext]
  · -- an archived session stays selected
    have hstays : store.selectedSessionId.any (ids.filter store.isActive).contains = false := by
      rw [hselected, Option.any_some, List.contains_eq_mem]
      simp [hactive]
    rw [hstays, if_neg Bool.false_ne_true]
    refine iff_of_false (fun hover => ?_) fun h => hactive h.1
    obtain ⟨session, hsession, hid, _⟩ := hover
    rw [Desk.archiveAll_selected] at hid
    change store.selectedSessionId = some session.id at hid
    rw [hselected, Option.some.injEq] at hid
    obtain ⟨hget, _, _, hopen'⟩ := mem_openSessions.mp (Desk.mem_open_archiveAll.mp hsession).1
    refine hactive ?_
    unfold isActive
    change store.sessions.get session.id = some session at hget
    rw [hid, hget, Option.any_some, hopen']
    rfl

theorem sessionRemoved_handedOver (hfresh : store.Fresh)
    (hselected : store.selectedSessionId = some current) (walk : HashOrder SessionRecord) :
    (store.handleEvent walk (.sessionRemoved current)).desk.HandedOver (store.projectOf current) ↔
      (store.sessions.get current).isSome = true ∧ store.FindsSurvivor current [current] := by
  unfold SessionStore.handleEvent
  dsimp only
  by_cases hthere : (store.sessions.get current).isSome = true
  · have hdesk : (store.removeSessionRecord current).desk = Desk.forget (store.desk.choose
        (store.neighbor (store.currentProjection.orderedSessions.map (·.id)) [current])) current := by
      unfold SessionStore.removeSessionRecord
      dsimp only
      rw [desk_reconcileNavigation, desk_syncSidebarOrder, desk_invalidateProjection,
        desk_dropTerminal, if_pos hselected, ← hfresh.focusNeighbor_desk]
      rfl
    obtain ⟨hsessions, hclosing, hnext⟩ := store.desk.choose_eq (store.neighbor
      (store.currentProjection.orderedSessions.map (·.id)) [current])
    rw [if_pos hthere, and_iff_right hthere, handedOver_iff hselected (List.mem_singleton_self _)]
    · intro session
      rw [hdesk, Desk.mem_open_forget, hsessions, hclosing, List.mem_singleton]
      rfl
    · rw [hdesk]
      exact hnext
  · rw [if_neg hthere]
    refine iff_of_false (fun hover => hthere ?_) fun h => hthere h.1
    obtain ⟨session, hsession, hid, _⟩ := hover
    change store.selectedSessionId = some session.id at hid
    rw [hselected, Option.some.injEq] at hid
    have hget := (mem_openSessions.mp hsession).1
    change store.sessions.get session.id = some session at hget
    rw [hid, hget]
    rfl

end SessionStore

/-- A hash map that is walked as it is listed. -/
def asListed : HashOrder SessionRecord := ⟨id, fun sessions => List.Perm.refl sessions⟩

/-- One session is selected, and the project of the other is folded. -/
def otherFolded : SessionStore :=
  { SessionStore.headless plainReading { lastShowing "a" with
      sidebarCollapsedProjects := ["other"] } with
    sessions := .ofList [plainSession "a" "homie" 0, plainSession "b" "other" 1] }

end Homie.App.Navigation
