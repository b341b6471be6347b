/-
Who stays attached.

A resident terminal should be one of a session that is there, is not archived and is not on its way
out.  Whatever an operation chooses by itself is; what can go wrong is a session that the caller
names although it is closing, a record that somebody else archived, and a resync that drops the
resident session and selects nobody who could take its place.  The books of the resident set balance
in any case.
-/
import Homie.Proofs.DeskSteps
import Homie.Proofs.ResidencyBooks

namespace Homie.App.Navigation

open Trace

/-! ### Touching and dropping -/

namespace TerminalResidency

variable {residency : TerminalResidency} {id other : SessionId}

theorem mem_touch (h : other ∈ (residency.touch id).1.order) :
    other = id ∨ other ∈ residency.order := by
  rw [← mem_touched]
  rcases Nat.lt_or_ge residency.capacity (id :: residency.order.filter (· ≠ id)).length with
    hfull | hfits
  · obtain ⟨kept, evicted, hsplit, htouch⟩ := touch_evicts hfull
    rw [htouch] at h
    rw [hsplit]
    exact List.mem_append_left _ h
  · rw [touch_fits hfits] at h
    exact h

theorem mem_remove : other ∈ (residency.remove id).1.order ↔ other ≠ id ∧ other ∈ residency.order := by
  unfold remove
  dsimp only
  rw [List.mem_filter, decide_eq_true_iff, and_comm]

theorem touch_single (hsingle : residency.capacity = 1)
    (hbounded : residency.order.length ≤ residency.capacity) :
    (residency.touch id).1.order = [id] := by
  rcases Nat.lt_or_ge residency.capacity (id :: residency.order.filter (· ≠ id)).length with
    hfull | hfits
  · obtain ⟨kept, evicted, hsplit, htouch⟩ := touch_evicts hfull
    have hlength := congrArg List.length hsplit
    rw [List.length_append, List.length_cons, List.length_singleton] at hlength
    have hfilter := List.length_filter_le (· ≠ id) residency.order
    have hkept : kept.length = 1 := by
      rw [List.length_cons] at hfull
      omega
    obtain ⟨only, rfl⟩ := List.length_eq_one_iff.mp hkept
    rw [htouch, ← (List.cons.inj hsplit).1]
  · rw [touch_fits hfits]
    have hnone : (residency.order.filter (· ≠ id)).length = 0 := by
      rw [List.length_cons] at hfits
      omega
    rw [List.length_eq_zero_iff.mp hnone]

end TerminalResidency

/-! ### Coherence -/

namespace Desk

variable {desk base : Desk} {id : SessionId} {ids : List SessionId}

/-- Every resident session is active and stays, those of `ids` apart. -/
def CoherentBut (ids : List SessionId) (desk : Desk) : Prop :=
  ∀ id ∈ desk.resident.order, id ∉ ids → desk.isActive id = true ∧ id ∉ desk.closing

def Coherent (desk : Desk) : Prop :=
  ∀ id ∈ desk.resident.order, desk.isActive id = true ∧ id ∉ desk.closing

theorem Coherent.but (h : desk.Coherent) (ids : List SessionId) : desk.CoherentBut ids :=
  fun id hid _ => h id hid

theorem CoherentBut.all (h : desk.CoherentBut []) : desk.Coherent :=
  fun id hid => h id hid List.not_mem_nil

theorem CoherentBut.focus (h : desk.CoherentBut ids)
    (hid : desk.isActive id = true → id ∉ desk.closing) : (desk.focus id).CoherentBut ids := by
  have hsame : ∀ other, Desk.isActive { desk with
      selected := some id, recent := id :: desk.recent.filter (· ≠ id) } other =
        desk.isActive other := fun _ => rfl
  unfold Desk.focus
  dsimp only
  rw [hsame]
  split
  · next hactive =>
      intro other hin hother
      rcases TerminalResidency.mem_touch hin with rfl | hold
      · exact ⟨hactive, hid hactive⟩
      · exact h other hold hother
  · exact h

theorem CoherentBut.choose (h : desk.CoherentBut ids) {next : Option SessionId}
    (hnext : ∀ id, next = some id → desk.Listed id) : (desk.choose next).CoherentBut ids := by
  cases next with
  | none => exact h
  | some id => exact h.focus fun _ => (hnext id rfl).2

theorem CoherentBut.handed (h : desk.CoherentBut ids) {excluded : List SessionId}
    (hbase : desk.Handed excluded base) : base.CoherentBut ids := by
  rcases hbase with ⟨rfl, _⟩ | ⟨next, rfl, hsurvives⟩
  · exact h
  · exact h.choose fun id hid => (hsurvives id hid).1

/-- What is dropped need not be coherent before. -/
theorem CoherentBut.close (h : desk.CoherentBut (id :: ids)) :
    (desk.close id).CoherentBut ids := by
  intro other hin hother
  obtain ⟨hne, hold⟩ := TerminalResidency.mem_remove.mp hin
  obtain ⟨hactive, hopen⟩ := h other hold fun hmem =>
    (List.mem_cons.mp hmem).elim hne hother
  refine ⟨hactive, fun hclosing => ?_⟩
  exact (List.mem_insert_iff.mp hclosing).elim hne hopen

theorem CoherentBut.closeAll (h : desk.CoherentBut ids) : (ids.foldl Desk.close desk).Coherent := by
  induction ids generalizing desk with
  | nil => exact h.all
  | cons id ids ih => exact ih h.close

theorem Coherent.archive (h : desk.Coherent) (now : SessionId → DateMillis) (id : SessionId) :
    (desk.archive now id).Coherent := by
  intro other hin
  obtain ⟨hne, hold⟩ := TerminalResidency.mem_remove.mp hin
  obtain ⟨hactive, hopen⟩ := h other hold
  refine ⟨?_, hopen⟩
  unfold Desk.isActive Desk.archive
  dsimp only
  cases hget : desk.sessions.get id with
  | none => exact hactive
  | some session =>
    have hkey : session.id = id := desk.sessions.key_of_get hget
    dsimp only
    rw [desk.sessions.get_insert, if_neg (show other ≠ session.id from hkey ▸ hne)]
    exact hactive

theorem Coherent.archiveAll (h : desk.Coherent) (now : SessionId → DateMillis)
    (ids : List SessionId) :
    (ids.foldl (fun desk id => desk.archive now id) desk).Coherent := by
  induction ids generalizing desk with
  | nil => exact h
  | cons id ids ih => exact ih (h.archive now id)

theorem CoherentBut.forget (h : desk.CoherentBut [id]) : (desk.forget id).Coherent := by
  intro other hin
  obtain ⟨hne, hold⟩ := TerminalResidency.mem_remove.mp hin
  obtain ⟨hactive, hopen⟩ := h other hold fun hmem => hne (List.mem_singleton.mp hmem)
  refine ⟨?_, fun hclosing => hopen (List.mem_filter.mp hclosing).1⟩
  change ((desk.sessions.erase id).get other).any (!·.isArchived) = true
  rw [desk.sessions.get_erase, if_neg hne]
  exact hactive

theorem Coherent.record (h : desk.Coherent) {session : SessionRecord}
    (hwaiting : desk.sessions.get session.id = none → desk.selected = some session.id →
      session.isArchived = false → session.id ∉ desk.closing)
    (harchived : session.isArchived = true → session.id ∈ desk.resident.order →
      session.id ∈ ids) : (desk.record session).CoherentBut ids := by
  have hactive : ∀ other ∈ desk.resident.order, other ∉ ids →
      Desk.isActive { desk with sessions := desk.sessions.insert session } other = true ∧
        other ∉ desk.closing := by
    intro other hin hother
    obtain ⟨hactive, hopen⟩ := h other hin
    refine ⟨?_, hopen⟩
    change ((desk.sessions.insert session).get other).any (!·.isArchived) = true
    rw [desk.sessions.get_insert]
    split
    · next hsame =>
        rw [hsame] at hin hother
        rw [Option.any_some, Bool.not_eq_true']
        exact Bool.eq_false_iff.mpr fun hstored => hother (harchived hstored hin)
    · exact hactive
  unfold Desk.record
  dsimp only
  split
  · next hcond =>
      simp only [Bool.and_eq_true, Option.isNone_iff_eq_none, beq_iff_eq, Bool.not_eq_true']
        at hcond
      obtain ⟨⟨⟨hnew, hselected⟩, hstored⟩, _⟩ := hcond
      intro other hin hother
      rcases TerminalResidency.mem_touch hin with rfl | hold
      · refine ⟨?_, hwaiting hnew hselected hstored⟩
        change ((desk.sessions.insert session).get session.id).any (!·.isArchived) = true
        rw [desk.sessions.get_insert, if_pos rfl, Option.any_some, hstored]
        rfl
      · exact hactive other hold hother
  · exact hactive

theorem Coherent.restore (h : desk.Coherent)
    (hopen : ∀ id, desk.selected = some id → id ∉ desk.closing) : desk.restore.Coherent := by
  unfold Desk.restore
  split
  · next id hselected =>
      split
      · next hcond =>
          intro other hin
          rcases TerminalResidency.mem_touch hin with rfl | hold
          · exact ⟨(Bool.and_eq_true_iff.mp hcond).1, hopen other hselected⟩
          · exact h other hold
      · exact h
  · exact h

/-- The selected session takes the only place. -/
theorem restore_seats (hsingle : desk.resident.capacity = 1)
    (hbounded : desk.resident.order.length ≤ desk.resident.capacity)
    (hselected : desk.selected = some id) (hactive : desk.isActive id = true)
    (hopen : id ∉ desk.closing) : desk.restore.Coherent := by
  unfold Desk.restore
  rw [hselected]
  dsimp only
  split
  · intro other hin
    have honly : (desk.resident.touch id).1.order = [id] :=
      TerminalResidency.touch_single hsingle hbounded
    change other ∈ (desk.resident.touch id).1.order at hin
    rw [honly, List.mem_singleton] at hin
    subst hin
    exact ⟨hactive, hopen⟩
  · next hcond =>
      have hresident : id ∈ desk.resident.order := by
        by_contra habsent
        exact hcond (Bool.and_eq_true_iff.mpr ⟨hactive, by simpa using habsent⟩)
      intro other hin
      rw [hsingle] at hbounded
      obtain ⟨only, honly⟩ := List.length_eq_one_iff.mp
        (Nat.le_antisymm hbounded (List.length_pos_of_mem hresident))
      rw [honly, List.mem_singleton] at hresident hin
      rw [hin, ← hresident]
      exact ⟨hactive, hopen⟩

theorem focus_seats (hsingle : desk.resident.capacity = 1)
    (hbounded : desk.resident.order.length ≤ desk.resident.capacity)
    (hactive : desk.isActive id = true) (hopen : id ∉ desk.closing) :
    (desk.focus id).Coherent := by
  have honly : (desk.resident.touch id).1.order = [id] :=
    TerminalResidency.touch_single hsingle hbounded
  have hfocused : desk.focus id =
      { desk with selected := some id, recent := id :: desk.recent.filter (· ≠ id) }.touch id :=
    if_pos hactive
  rw [hfocused]
  intro other hin
  change other ∈ (desk.resident.touch id).1.order at hin
  rw [honly, List.mem_singleton] at hin
  subst hin
  exact ⟨hactive, hopen⟩

end Desk

/-! ### What a step must meet -/

namespace SessionStore

/-- A resync leaves nobody attached who should not be: all that are resident are still active, or
the selected session is and takes the place, or nobody is selected and somebody can be. -/
def Reseats (store : SessionStore) (result : SessionListResult) : Prop :=
  let sessions : SessionMap := .ofList result.sessions
  (∀ id ∈ store.terminalResidency.order, (sessions.get id).any (!·.isArchived) = true) ∨
    (∃ id, store.selectedSessionId = some id ∧ (sessions.get id).any (!·.isArchived) = true) ∨
    (∀ id, store.selectedSessionId = some id → sessions.get id = none) ∧
      ∃ session ∈ sessions.values, isAuxiliaryTerminal session = false ∧ session.isArchived = false

/-- The steps after which the resident sessions are still active sessions that stay. -/
structure Attaches (store : SessionStore) (turn : Turn) : Prop where
  /-- Nobody on the way out is focused while active, or revived first. -/
  asked : ∀ id, store.asked turn = some id →
    (store.isActive id = true ∨ ∃ ids, turn.operation = .reviveSessions ids) → id ∉ store.closing
  /-- Nor does the record of one arrive that is already selected. -/
  spawned : ∀ session, turn.brought = some session → store.sessions.get session.id = none →
    store.selectedSessionId = some session.id → session.isArchived = false →
      session.id ∉ store.closing
  /-- Nobody else archives a resident session, unless it is closed for it. -/
  archived : ∀ session, turn.brought = some session → session.isArchived = true →
    session.id ∈ store.terminalResidency.order → store.shouldAutoClose session = true
  reseats : ∀ result, turn.operation = .hydrate result → store.Reseats result

end SessionStore

section Steps

open Navigation.SessionStore

variable {store : SessionStore} {turn : Turn}

theorem coherent_relisted (hbooks : store.Accounted) {result : SessionListResult}
    (hreseats : store.Reseats result)
    (hselected : (store.desk.relist (.ofList result.sessions)).selected ≠ none) :
    (store.desk.relist (.ofList result.sessions)).restore.Coherent := by
  have hopen : ∀ id, id ∉ (store.desk.relist (.ofList result.sessions)).closing :=
    fun _ => List.not_mem_nil
  rcases hreseats with hall | ⟨id, hmine, hactive⟩ | ⟨hgone, _⟩
  · refine Desk.Coherent.restore (fun id hid => ⟨hall id hid, hopen id⟩) fun id _ => hopen id
  · have hkept : (store.desk.relist (.ofList result.sessions)).selected = some id := by
      change store.selectedSessionId.filter _ = some id
      obtain ⟨session, hget, _⟩ := (Option.any_eq_true _ _).mp hactive
      rw [hmine, Option.filter_some, if_pos (by rw [hget]; rfl)]
    exact Desk.restore_seats hbooks.single hbooks.bounded hkept hactive (hopen id)
  · refine absurd ?_ hselected
    change store.selectedSessionId.filter _ = none
    rw [Option.filter_eq_none_iff]
    intro id hmine
    rw [hgone id hmine]
    exact Bool.false_ne_true

theorem coherent_reselected (hbooks : store.Accounted) {result : SessionListResult}
    {next : Option SessionId} (hreseats : store.Reseats result)
    (hselected : (store.desk.relist (.ofList result.sessions)).selected = none)
    (hnext : ∀ id, next = some id → (store.desk.relist (.ofList result.sessions)).Listed id ∧
      (store.desk.relist (.ofList result.sessions)).isActive id = true)
    (hnobody : next = none → ∀ session ∈ (KeyedMap.ofList result.sessions : SessionMap).values,
      isAuxiliaryTerminal session = false → session.isArchived = true) :
    ((store.desk.relist (.ofList result.sessions)).choose next).restore.Coherent := by
  have hopen : ∀ id, id ∉ (store.desk.relist (.ofList result.sessions)).closing :=
    fun _ => List.not_mem_nil
  have hclosing : ((store.desk.relist (.ofList result.sessions)).choose next).closing = [] := by
    cases next with
    | none => rfl
    | some id =>
      have hfocused : (store.desk.relist (.ofList result.sessions)).choose (some id) = _ :=
        if_pos (hnext id rfl).2
      rw [hfocused]
      rfl
  refine Desk.Coherent.restore ?_ fun id _ => by rw [hclosing]; exact List.not_mem_nil
  cases next with
  | some id =>
    exact Desk.focus_seats hbooks.single hbooks.bounded (hnext id rfl).2 (hopen id)
  | none =>
    rcases hreseats with hall | ⟨id, hmine, hactive⟩ | ⟨_, session, hin, haux, hstays⟩
    · exact fun id hid => ⟨hall id hid, hopen id⟩
    · change store.selectedSessionId.filter _ = none at hselected
      rw [Option.filter_eq_none_iff] at hselected
      obtain ⟨session, hget, _⟩ := (Option.any_eq_true _ _).mp hactive
      exact absurd (by rw [hget]; rfl) (hselected id hmine)
    · rw [hnobody rfl session hin haux] at hstays
      cases hstays

theorem coherent_step (hfresh : store.Fresh) (hbooks : store.Accounted)
    (hcoherent : store.desk.Coherent) (hmeets : store.Attaches turn) :
    (perform store turn).desk.Coherent := by
  have hall := hcoherent.but []
  have hpicked : ∀ picked : List SessionId,
      Desk.CoherentBut [] { store.desk with picked := picked } := fun _ => hcoherent.but []
  have hkeeps : ∀ {sessions : SessionMap} (picked : List SessionId), Keeps store.sessions sessions →
      Desk.CoherentBut [] { store.desk with sessions := sessions, picked := picked } := by
    intro sessions picked hkeeps id hid _
    exact ⟨hkeeps.active id (hcoherent id hid).1, (hcoherent id hid).2⟩
  have hwaiting : ∀ session, turn.brought = some session →
      store.sessions.get session.id = none → store.selectedSessionId = some session.id →
        session.isArchived = false → session.id ∉ store.closing := hmeets.spawned
  have hstep := hfresh.deskStep turn
  generalize (perform store turn).desk = next at hstep ⊢
  cases hstep with
  | kept h => exact (hkeeps store.desk.picked h).all
  | picked => exact hcoherent
  | @moved picked _ _ hnext => exact ((hpicked picked).focus fun _ => hnext.2).all
  | @asked _ picked hasked =>
    exact ((hpicked picked).focus fun hactive => hmeets.asked _ hasked (Or.inl hactive)).all
  | revived hturn hasked h =>
    exact ((hkeeps [] h).focus fun _ => hmeets.asked _ hasked (Or.inr ⟨_, hturn⟩)).all
  | chosen hnext => exact (hall.choose fun id hid => (hnext id hid).1).all
  | closed hbase => exact ((hcoherent.but _).handed hbase).closeAll
  | archived hbase => exact (hall.handed hbase).all.archiveAll _ _
  | relisted hturn hselected =>
    exact coherent_relisted hbooks (hmeets.reseats _ hturn) hselected
  | reselected hturn hselected hnext hnobody =>
    exact coherent_reselected hbooks (hmeets.reseats _ hturn) hselected hnext hnobody
  | recorded hbrought hstays _ =>
    refine (hcoherent.record (hwaiting _ hbrought) fun harchived hresident => ?_).all
    rw [hmeets.archived _ hbrought harchived hresident] at hstays
    cases hstays
  | @spawned session hbrought hstays hnew hmine =>
    have hrecord : (store.desk.record session).CoherentBut [] :=
      hcoherent.record (hwaiting _ hbrought) fun harchived hresident => by
        rw [hmeets.archived _ hbrought harchived hresident] at hstays
        cases hstays
    refine (hrecord.focus fun hactive => ?_).all
    rw [Desk.record_closing]
    refine hwaiting _ hbrought hnew hmine ?_
    unfold Desk.isActive at hactive
    rw [Desk.record_sessions, KeyedMap.get_insert, if_pos rfl, Option.any_some] at hactive
    simpa using hactive
  | filled hbrought hstays _ hnext =>
    refine ((hcoherent.record (hwaiting _ hbrought) fun harchived hresident => ?_).choose
      fun id hid => hnext id hid).all
    rw [hmeets.archived _ hbrought harchived hresident] at hstays
    cases hstays
  | autoClosed hbrought hcloses hbase =>
    have hrecord := hcoherent.record (hwaiting _ hbrought)
      fun _ _ => mem_closed_of_brought hbrought hcloses
    exact (hrecord.handed hbase).closeAll
  | forgotten hbase => exact ((hcoherent.but _).handed hbase).forget

end Steps

/-! ### Every run -/

theorem coherent_run (reading : OverviewReading) (prefs : Preferences) {turns : List Turn}
    (hmeets : ∀ x ∈ trace step (SessionStore.headless reading prefs) turns,
      x.before.Attaches x.event) :
    (run step (SessionStore.headless reading prefs) turns).desk.Coherent := by
  have hstart : (SessionStore.headless reading prefs).Fresh ∧
      (SessionStore.headless reading prefs).Accounted ∧
        (SessionStore.headless reading prefs).desk.Coherent :=
    ⟨fresh_headless reading prefs, Books.initial, fun _ hid => absurd hid List.not_mem_nil⟩
  have hrun := run_invariant_where step
    (P := fun store => store.Fresh ∧ store.Accounted ∧ store.desk.Coherent) hmeets hstart
    fun store turn hmeets hstore =>
      ⟨fresh_perform hstore.1 turn, accounted_perform hstore.2.1 turn,
        coherent_step hstore.1 hstore.2.1 hstore.2.2 hmeets⟩
  exact hrun.2.2

/-- **Terminal residency.** After any operations the resident set holds at most `capacity` distinct
ids, the entries and departures of every id alternate and end in it, and the detachments are the
departures, one for one; and if every step met the conditions of `Attaches`, every resident id is a
session that is there, is not archived and is not closing. -/
theorem residency_coherent (reading : OverviewReading) (prefs : Preferences) (turns : List Turn) :
    let store := run step (SessionStore.headless reading prefs) turns
    store.terminalResidency.order.Nodup ∧
      store.terminalResidency.order.length ≤ store.terminalResidency.capacity ∧
      (∀ id, resides id false store.residencyMoves =
        some (decide (id ∈ store.terminalResidency.order))) ∧
      store.effects.filterMap StoreEffect.detached =
        store.residencyMoves.filterMap ResidencyMove.departed ∧
      ((∀ x ∈ trace step (SessionStore.headless reading prefs) turns,
          x.before.Attaches x.event) →
        ∀ id ∈ store.terminalResidency.order, store.isActive id = true ∧ id ∉ store.closing) := by
  have hbooks := accounted_run reading prefs turns
  exact ⟨hbooks.nodup, hbooks.bounded, hbooks.settled, hbooks.detached,
    fun hmeets => coherent_run reading prefs hmeets⟩

/-- The first list brings the remembered session back. -/
def listed : List Turn := [turnOf (.hydrate ⟨[plainSession "a" "homie" 0], []⟩)]

def archivedRecord : SessionRecord := { plainSession "a" "homie" 0 with archivedAt := some 1 }

/-- Then another client archives it. -/
def archivedElsewhere : List Turn :=
  listed ++ [turnOf (.handleEvent (.sessionUpdated archivedRecord))]

/-- The remembered session is resident, active and stays. -/
theorem residency_coherent_listed :
    (run step (SessionStore.headless plainReading (lastShowing "a"))
        listed).terminalResidency.order.Nodup ∧
    ∀ id ∈ (run step (SessionStore.headless plainReading (lastShowing "a"))
        listed).terminalResidency.order,
      (run step (SessionStore.headless plainReading (lastShowing "a")) listed).isActive id = true ∧
      id ∉ (run step (SessionStore.headless plainReading (lastShowing "a")) listed).closing := by
  have hcoherent := residency_coherent plainReading (lastShowing "a") listed
  refine ⟨hcoherent.1, hcoherent.2.2.2.2 ?_⟩
  intro x hx
  rw [List.mem_singleton.mp hx]
  exact {
    asked := fun id hid => by cases hid
    spawned := fun session hsession => by cases hsession
    archived := fun session hsession => by cases hsession
    reseats := fun result _ => Or.inl fun id hid => absurd hid List.not_mem_nil }

theorem desk_listed :
    (run step (SessionStore.headless plainReading (lastShowing "a")) listed).desk =
      { sessions := .ofList [plainSession "a" "homie" 0]
        closing := []
        selected := some "a"
        recent := ["a"]
        picked := []
        resident := ⟨1, ["a"]⟩ } :=
  SessionStore.desk_hydrate_headless plainReading rfl rfl rfl

/-- Another client archives the session on screen: its terminal stays attached. -/
theorem archived_elsewhere_stays_resident :
    ¬ ∀ id ∈ (run step (SessionStore.headless plainReading (lastShowing "a"))
        archivedElsewhere).terminalResidency.order,
      (run step (SessionStore.headless plainReading (lastShowing "a"))
        archivedElsewhere).isActive id = true := by
  have hdesk := desk_listed
  have hfinal : (run step (SessionStore.headless plainReading (lastShowing "a"))
      archivedElsewhere).desk =
        { sessions := (KeyedMap.ofList [plainSession "a" "homie" 0] : SessionMap).insert
            archivedRecord
          closing := []
          selected := some "a"
          recent := ["a"]
          picked := []
          resident := ⟨1, ["a"]⟩ } := by
    unfold archivedElsewhere
    rw [run_concat]
    generalize run step (SessionStore.headless plainReading (lastShowing "a")) listed = store
      at hdesk ⊢
    have hget : store.sessions.get "a" = some (plainSession "a" "homie" 0) := by
      rw [show store.sessions = _ from congrArg Desk.sessions hdesk]
      rfl
    refine (SessionStore.desk_updated hget (by decide) ?_).trans ?_
    · unfold SessionStore.shouldAutoClose
      rw [Bool.and_assoc]
      exact Bool.and_eq_false_iff.mpr (Or.inr rfl)
    · exact congrArg
        (fun desk : Desk => { desk with sessions := desk.sessions.insert archivedRecord }) hdesk
  generalize run step (SessionStore.headless plainReading (lastShowing "a")) archivedElsewhere =
    store at hfinal ⊢
  intro hall
  have hresident : "a" ∈ store.desk.resident.order := by
    rw [hfinal]
    exact List.mem_singleton_self _
  have hactive : store.desk.isActive "a" = true := hall "a" hresident
  rw [hfinal] at hactive
  cases hactive

end Homie.App.Navigation
