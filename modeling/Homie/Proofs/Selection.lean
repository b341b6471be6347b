/-
Where navigation lands.

Between the request to close a session and `session.removed` the session is still recorded, and
hidden.  What an operation chooses by itself is never such a session; but the order of the sessions
focused lately is not pruned when one of them is closed, so the switcher offers it, and whoever the
caller names is focused without a look at `closing`.
-/
import Homie.Proofs.DeskSteps

namespace Homie.App.Navigation

open Trace

/-! ### A clear desk -/

namespace Desk

variable {desk base : Desk} {id : SessionId} {ids : List SessionId}

/-- Nobody on the way out is remembered, picked or selected. -/
structure Clear (desk : Desk) : Prop where
  recent : ∀ id ∈ desk.recent, (desk.sessions.get id).isSome = true → id ∉ desk.closing
  picked : ∀ id ∈ desk.picked, desk.Listed id
  selected : ∀ id, desk.selected = some id → id ∈ desk.recent

namespace Clear

theorem pick (h : desk.Clear) {picked : List SessionId} (hpicked : ∀ id ∈ picked, desk.Listed id) :
    Clear { desk with picked := picked } := ⟨h.recent, hpicked, h.selected⟩

theorem keep (h : desk.Clear) {sessions : SessionMap}
    (hrecorded : ∀ id, (sessions.get id).isSome = (desk.sessions.get id).isSome) :
    Clear { desk with sessions := sessions } where
  recent id hid hthere := h.recent id hid ((hrecorded id).symm.trans hthere)
  picked id hid := ⟨(hrecorded id).trans (h.picked id hid).1, (h.picked id hid).2⟩
  selected := h.selected

theorem focus (h : desk.Clear) (hid : (desk.sessions.get id).isSome = true → id ∉ desk.closing) :
    (desk.focus id).Clear := by
  obtain ⟨resident, hfocus⟩ := desk.focus_eq id
  rw [hfocus]
  refine ⟨fun other hother hthere => ?_, h.picked, fun other hother => ?_⟩
  · rcases List.mem_cons.mp hother with rfl | hold
    · exact hid hthere
    · exact h.recent other (List.mem_filter.mp hold).1 hthere
  · rw [Option.some.injEq] at hother
    rw [← hother]
    exact List.mem_cons_self

theorem choose (h : desk.Clear) {next : Option SessionId}
    (hnext : ∀ id, next = some id → desk.Listed id) : (desk.choose next).Clear := by
  cases next with
  | none => exact ⟨h.recent, h.picked, fun id hid => by cases hid⟩
  | some id => exact h.focus fun _ => (hnext id rfl).2

theorem handed (h : desk.Clear) (hbase : desk.Handed ids base) : base.Clear := by
  rcases hbase with ⟨rfl, _⟩ | ⟨next, rfl, hsurvives⟩
  · exact h
  · exact h.choose fun id hid => (hsurvives id hid).1

/-- Closing somebody who was never focused. -/
theorem close (h : desk.Clear)
    (hid : (desk.sessions.get id).isSome = true → id ∉ desk.recent) : (desk.close id).Clear where
  recent other hother hthere hclosing := by
    rcases List.mem_insert_iff.mp hclosing with rfl | hold
    · exact hid hthere hother
    · exact h.recent other hother hthere hold
  picked other hother := by
    obtain ⟨hold, hne⟩ := List.mem_filter.mp hother
    have hne' : other ≠ id := of_decide_eq_true hne
    refine ⟨(h.picked other hold).1, fun hclosing => ?_⟩
    exact (List.mem_insert_iff.mp hclosing).elim hne' (h.picked other hold).2
  selected := h.selected

theorem closeAll (h : desk.Clear)
    (hids : ∀ id ∈ ids, (desk.sessions.get id).isSome = true → id ∉ desk.recent) :
    (ids.foldl Desk.close desk).Clear := by
  induction ids generalizing desk with
  | nil => exact h
  | cons id ids ih =>
    exact ih (h.close (hids id List.mem_cons_self))
      fun other hother => hids other (List.mem_cons_of_mem _ hother)

theorem archive (h : desk.Clear) (now : SessionId → DateMillis) (id : SessionId) :
    (desk.archive now id).Clear := by
  have hrecorded : ∀ other,
      ((desk.archive now id).sessions.get other).isSome = (desk.sessions.get other).isSome := by
    intro other
    unfold Desk.archive
    dsimp only
    cases hget : desk.sessions.get id with
    | none => rfl
    | some session =>
      have hkey : session.id = id := desk.sessions.key_of_get hget
      dsimp only
      rw [desk.sessions.get_insert]
      split
      · next hsame => rw [hsame, hkey, hget]; rfl
      · rfl
  have hkept := (@pick desk h (desk.picked.filter (· ≠ id)) fun other hother =>
    h.picked other (List.mem_filter.mp hother).1).keep hrecorded
  exact ⟨hkept.recent, hkept.picked, hkept.selected⟩

theorem archiveAll (h : desk.Clear) (now : SessionId → DateMillis) (ids : List SessionId) :
    (ids.foldl (fun desk id => desk.archive now id) desk).Clear := by
  induction ids generalizing desk with
  | nil => exact h
  | cons id ids ih => exact ih (h.archive now id)

theorem forget (h : desk.Clear) (hother : desk.selected ≠ some id) : (desk.forget id).Clear where
  recent other hin hthere hclosing := by
    change ((desk.sessions.erase id).get other).isSome = true at hthere
    obtain ⟨hold, hne⟩ := List.mem_filter.mp hin
    rw [desk.sessions.get_erase, if_neg (of_decide_eq_true hne)] at hthere
    exact h.recent other hold hthere (List.mem_filter.mp hclosing).1
  picked other hin := by
    obtain ⟨hold, hne⟩ := List.mem_filter.mp hin
    refine ⟨?_, fun hclosing => (h.picked other hold).2 (List.mem_filter.mp hclosing).1⟩
    change ((desk.sessions.erase id).get other).isSome = true
    rw [desk.sessions.get_erase, if_neg (of_decide_eq_true hne)]
    exact (h.picked other hold).1
  selected other hselected := by
    change desk.selected = some other at hselected
    refine List.mem_filter.mpr ⟨h.selected other hselected, decide_eq_true ?_⟩
    rintro rfl
    exact hother hselected

theorem record (h : desk.Clear) {session : SessionRecord}
    (hnew : desk.sessions.get session.id = none → session.id ∈ desk.closing →
      session.id ∉ desk.recent) : (desk.record session).Clear := by
  obtain ⟨resident, hrecord⟩ := desk.record_eq session
  rw [hrecord]
  refine ⟨fun other hin hthere hclosing => ?_, fun other hin => ⟨?_, (h.picked other hin).2⟩,
    h.selected⟩
  · cases hget : desk.sessions.get other with
    | some known => exact h.recent other hin (by rw [hget]; rfl) hclosing
    | none =>
      change ((desk.sessions.insert session).get other).isSome = true at hthere
      rw [desk.sessions.get_insert] at hthere
      split at hthere
      · next hsame =>
          rw [hsame] at hget hclosing hin
          exact hnew hget hclosing hin
      · rw [hget] at hthere
        cases hthere
  · change ((desk.sessions.insert session).get other).isSome = true
    rw [desk.sessions.get_insert]
    split
    · rfl
    · exact (h.picked other hin).1

theorem relist (h : desk.Clear) {sessions : SessionMap}
    (hpicked : ∀ id ∈ desk.picked, (sessions.get id).isSome = true) :
    (desk.relist sessions).Clear where
  recent _ _ _ := List.not_mem_nil
  picked id hid := ⟨hpicked id hid, List.not_mem_nil⟩
  selected id hid := h.selected id (Option.filter_eq_some_iff.mp hid).1

theorem restore (h : desk.Clear) : desk.restore.Clear := by
  obtain ⟨resident, hrestore⟩ := desk.restore_eq
  rw [hrestore]
  exact ⟨h.recent, h.picked, h.selected⟩

end Clear

/-- Whoever goes is not selected any more. -/
theorem Handed.selected_stays (h : desk.Handed ids base) (hid : id ∈ ids) :
    base.selected ≠ some id := by
  rcases h with ⟨rfl, hstays⟩ | ⟨next, rfl, hsurvives⟩
  · exact hstays id hid
  · cases next with
    | none => exact fun hnone => by cases hnone
    | some next =>
      obtain ⟨resident, hfocus⟩ := desk.focus_eq next
      intro hselected
      change (desk.focus next).selected = some id at hselected
      rw [hfocus, Option.some.injEq] at hselected
      exact (hsurvives next rfl).2 (hselected ▸ hid)

/-- A survivor is not among those that go, so they are remembered as before. -/
theorem Handed.recent_iff (h : desk.Handed ids base) (hid : id ∈ ids) :
    id ∈ base.recent ↔ id ∈ desk.recent := by
  rcases h with ⟨rfl, _⟩ | ⟨next, rfl, hsurvives⟩
  · exact Iff.rfl
  · cases next with
    | none => exact Iff.rfl
    | some next =>
      have hne : id ≠ next := fun heq => (hsurvives next rfl).2 (heq ▸ hid)
      obtain ⟨resident, hfocus⟩ := desk.focus_eq next
      change id ∈ (desk.focus next).recent ↔ id ∈ desk.recent
      rw [hfocus, List.mem_cons, List.mem_filter, decide_eq_true_iff]
      exact ⟨fun hin => (hin.resolve_left hne).1, fun hin => Or.inr ⟨hin, hne⟩⟩

theorem Handed.sessions (h : desk.Handed ids base) : base.sessions = desk.sessions := by
  rcases h with ⟨rfl, _⟩ | ⟨next, rfl, _⟩
  · rfl
  · cases next with
    | none => rfl
    | some next =>
      obtain ⟨resident, hfocus⟩ := desk.focus_eq next
      change (desk.focus next).sessions = desk.sessions
      rw [hfocus]

/-! ### Closing leaves the memory alone -/

theorem closeAll_sessions (desk : Desk) (ids : List SessionId) :
    (ids.foldl Desk.close desk).sessions = desk.sessions := by
  induction ids generalizing desk with
  | nil => rfl
  | cons id ids ih => exact ih (desk.close id)

theorem closeAll_recent (desk : Desk) (ids : List SessionId) :
    (ids.foldl Desk.close desk).recent = desk.recent := by
  induction ids generalizing desk with
  | nil => rfl
  | cons id ids ih => exact ih (desk.close id)

theorem mem_closeAll_closing (desk : Desk) (ids : List SessionId) (id : SessionId) :
    id ∈ (ids.foldl Desk.close desk).closing ↔ id ∈ ids ∨ id ∈ desk.closing := by
  induction ids generalizing desk with
  | nil => exact ⟨Or.inr, fun h => h.resolve_left List.not_mem_nil⟩
  | cons first ids ih =>
    have hclose : id ∈ (desk.close first).closing ↔ id = first ∨ id ∈ desk.closing :=
      List.mem_insert_iff
    rw [List.foldl_cons, ih, hclose, List.mem_cons, or_left_comm, or_assoc]

end Desk

/-! ### What a step must meet -/

namespace SessionStore

/-- The session is recorded, or the operation brings its record. -/
def RecordedFor (store : SessionStore) (turn : Turn) (id : SessionId) : Prop :=
  (store.sessions.get id).isSome = true ∨
    ∃ session, turn.brought = some session ∧ session.id = id

/-- The steps after which nobody on the way out is remembered, picked or selected. -/
structure Steers (store : SessionStore) (turn : Turn) : Prop where
  /-- Nobody on the way out is focused by name. -/
  asked : ∀ id, store.asked turn = some id → (store.sessions.get id).isSome = true →
    id ∉ store.closing
  /-- Nor picked by a command click. -/
  clicked : ∀ id, turn.clicked = some id → (store.sessions.get id).isSome = true →
    id ∉ store.closing
  /-- Nobody is closed who was ever focused. -/
  closed : ∀ id ∈ store.closed turn, store.RecordedFor turn id → id ∉ store.mruOrder
  /-- The record of somebody focused does not arrive while it is closing. -/
  recorded : ∀ session, turn.brought = some session → store.sessions.get session.id = none →
    session.id ∈ store.closing → session.id ∉ store.mruOrder
  /-- A resync still lists whoever is picked. -/
  relisted : ∀ result, turn.operation = .hydrate result → ∀ id ∈ store.sidebarSelection,
    ((KeyedMap.ofList result.sessions : SessionMap).get id).isSome = true

end SessionStore

section Steps

variable {store : SessionStore} {turn : Turn}

theorem Desk.Clear.pickable (h : store.desk.Clear) (hmeets : store.Steers turn)
    {picked : List SessionId} (hpicked : ∀ id ∈ picked, store.Pickable turn id) :
    Desk.Clear { store.desk with picked := picked } := by
  refine h.pick fun id hid => ?_
  rcases hpicked id hid with hold | hlisted | ⟨hclicked | hselected, hthere⟩
  · exact h.picked id hold
  · exact hlisted
  · exact ⟨hthere, hmeets.clicked id hclicked hthere⟩
  · exact ⟨hthere, h.recent id (h.selected id hselected) hthere⟩

theorem clear_step (hfresh : store.Fresh) (h : store.desk.Clear) (hmeets : store.Steers turn) :
    (perform store turn).desk.Clear := by
  have hstep := hfresh.deskStep turn
  generalize (perform store turn).desk = next at hstep ⊢
  cases hstep with
  | kept hkeeps => exact h.keep hkeeps.recorded
  | picked hpicked => exact h.pickable hmeets hpicked
  | moved hpicked hnext => exact (h.pickable hmeets hpicked).focus fun _ => hnext.2
  | asked hasked hpicked =>
    exact (h.pick fun id hid => h.picked id (hpicked id hid)).focus (hmeets.asked _ hasked)
  | revived _ hasked hkeeps =>
    refine ((@Desk.Clear.pick _ h [] fun id hid => absurd hid List.not_mem_nil).keep
      hkeeps.recorded).focus fun hthere => ?_
    exact hmeets.asked _ hasked ((hkeeps.recorded _).symm.trans hthere)
  | chosen hnext => exact h.choose fun id hid => (hnext id hid).1
  | closed hbase =>
    refine (h.handed hbase).closeAll fun id hid hthere hrecent => ?_
    rw [hbase.sessions] at hthere
    exact hmeets.closed id hid (Or.inl hthere) ((hbase.recent_iff hid).mp hrecent)
  | archived hbase => exact (h.handed hbase).archiveAll _ _
  | relisted hturn => exact (h.relist (hmeets.relisted _ hturn)).restore
  | reselected hturn _ hnext =>
    exact ((h.relist (hmeets.relisted _ hturn)).choose fun id hid => (hnext id hid).1).restore
  | recorded hbrought => exact h.record (hmeets.recorded _ hbrought)
  | @spawned session hbrought _ hnew hmine =>
    refine (h.record (hmeets.recorded _ hbrought)).focus fun _ => ?_
    rw [Desk.record_closing]
    exact fun hclosing => hmeets.recorded _ hbrought hnew hclosing (h.selected _ hmine)
  | filled hbrought _ _ hnext => exact (h.record (hmeets.recorded _ hbrought)).choose hnext
  | @autoClosed session _ hbrought _ hbase =>
    refine ((h.record (hmeets.recorded _ hbrought)).handed hbase).closeAll
      fun id hid hthere hrecent => ?_
    have hremembered := (hbase.recent_iff hid).mp hrecent
    rw [Desk.record_recent] at hremembered
    rw [hbase.sessions, Desk.record_sessions, KeyedMap.get_insert] at hthere
    refine hmeets.closed id hid ?_ hremembered
    split at hthere
    · next hsame => exact Or.inr ⟨session, hbrought, hsame.symm⟩
    · exact Or.inl hthere
  | forgotten hbase =>
    exact (h.handed hbase).forget (hbase.selected_stays (List.mem_singleton_self _))

end Steps

/-! ### Every run -/

theorem clear_run (reading : OverviewReading) (prefs : Preferences) {turns : List Turn}
    (hmeets : ∀ x ∈ trace step (SessionStore.headless reading prefs) turns,
      x.before.Steers x.event) :
    (run step (SessionStore.headless reading prefs) turns).desk.Clear := by
  have hstart : (SessionStore.headless reading prefs).Fresh ∧
      (SessionStore.headless reading prefs).desk.Clear := by
    refine ⟨fresh_headless reading prefs, fun _ _ _ => List.not_mem_nil,
      fun _ hid => absurd hid List.not_mem_nil, fun id hid => ?_⟩
    exact Option.mem_toList.mpr hid
  have hrun := run_invariant_where step (P := fun store => store.Fresh ∧ store.desk.Clear)
    hmeets hstart fun store turn hmeets hstore =>
      ⟨fresh_perform hstore.1 turn, clear_step hstore.1 hstore.2 hmeets⟩
  exact hrun.2

theorem SessionStore.Fresh.mem_mruSessions {store : SessionStore} (h : store.Fresh)
    {id : SessionId} : id ∈ store.mruSessions.1 ↔
      id ∈ store.mruOrder ∧ (store.sessions.get id).isSome = true ∨
        id ∈ store.currentProjection.orderedSessions.map (·.id) := by
  obtain ⟨cache, hread, _⟩ := h.mruSessions
  rw [hread, List.mem_eraseDups, List.mem_append, List.mem_eraseDups, List.mem_filter]

theorem SessionStore.Fresh.opened_order {store : SessionStore} (h : store.Fresh) {shift : Bool}
    (hidden : store.switcher.visible = false)
    (hopened : (store.handleSwitcherKey (.tab true shift)).switcher.visible = true) :
    (store.handleSwitcherKey (.tab true shift)).switcher.order = store.mruSessions.1 := by
  obtain ⟨cache, hread, _⟩ := h.mruSessions
  have hopens : store.opensSwitcher (.tab true shift) = true := by
    unfold SessionStore.opensSwitcher
    rw [hidden]
    rfl
  unfold SessionStore.handleSwitcherKey at hopened ⊢
  rw [if_pos hopens, hread] at hopened ⊢
  dsimp only at hopened ⊢
  generalize ((store.mruOrder.filter fun id => (store.sessions.get id).isSome).eraseDups ++
    store.currentProjection.orderedSessions.map (·.id)).eraseDups = order at hopened ⊢
  unfold SessionStore.pressSwitcherKey SessionSwitcherState.keyDown at hopened ⊢
  dsimp only at hopened ⊢
  rw [hidden, if_neg Bool.false_ne_true] at hopened ⊢
  unfold SessionSwitcherState.open at hopened ⊢
  by_cases hshort : order.length ≤ 1
  · rw [if_pos hshort] at hopened
    exact absurd (hidden.symm.trans hopened) Bool.false_ne_true
  · rw [if_neg hshort]
    rfl

/-- The first list brings the remembered session back, and another one. -/
def bothListed : List Turn :=
  [turnOf (.hydrate ⟨[plainSession "a" "homie" 0, plainSession "b" "homie" 1], []⟩)]

end Homie.App.Navigation
