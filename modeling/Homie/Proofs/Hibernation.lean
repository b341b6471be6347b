/-
When a record agrees with itself and with its live session.

A record that has exited asks for nothing and is not frozen, and a record is frozen exactly when
its session is.  Waking, reaping, removing and adopting a local session keep that whatever the
state.  The others write one of the two places only, or the status without what goes with it, and
`Allowed` says for each when that does not matter.
-/
import Homie.Engine.Hibernation

namespace Homie.Hibernation

open Trace Watch

/-- The record agrees with itself and with the session under its id. -/
structure RecordOk (record : SessionRecord) (session : Option Session) : Prop where
  exited : isExited record.status = true → record.needsInput = none ∧ record.hibernation = none
  frozen : record.hibernation.isSome = session.any (·.hibernated)

/-- Every record of the registry does. -/
def Consistent (registry : Registry) : Prop :=
  ∀ id record, registry.records id = some record → RecordOk record (registry.sessions id)

/-- The operations that keep records consistent, from a registry where they are. -/
def Allowed (registry : Registry) : Operation → Prop
  | .insertRecord id record => RecordOk record (registry.sessions id)
  | .spawn _ session record => session.isSome →
      record.hibernation = none ∧ (isExited record.status = true → record.needsInput = none)
  | .adoptRemote id session => session.isSome →
      ∀ record, registry.records id = some record → record.hibernation = none
  | .terminate id exit => (registry.sessions id).isSome →
      ∀ record, registry.records id = some record →
        record.hibernation = none ∧ (exit.isSome → record.needsInput = none)
  | .respawn id session _ => session.isSome →
      ∀ record, registry.records id = some record → record.hibernation = none
  | .hibernate id _ tree _ => (registry.sessions id).isSome → tree.isSome →
      ∀ record, registry.records id = some record → isExited record.status = false
  | .changedSince published _ => ∀ id session record, registry.sessions id = some session →
      published id ≠ some session.stateVersion → registry.records id = some record →
      isExited session.shared.status = true →
        session.shared.needsInput = none ∧ record.hibernation = none
  | _ => True

/-! ### Operations on one id -/

section One

variable {registry registry' : Registry} {id : String}

theorem consistent_iff_at (id : String) (h : Consistent registry)
    (hsessions : ∀ other, other ≠ id → registry'.sessions other = registry.sessions other)
    (hrecords : ∀ other, other ≠ id → registry'.records other = registry.records other) :
    Consistent registry' ↔
      ∀ record, registry'.records id = some record → RecordOk record (registry'.sessions id) := by
  refine ⟨fun h' => h' id, fun hid other record hrecord => ?_⟩
  by_cases hother : other = id
  · subst hother
    exact hid record hrecord
  · rw [hsessions other hother]
    exact h other record (by rw [← hrecords other hother]; exact hrecord)

@[simp] theorem setSession_sessions (session : Option Session) :
    (registry.setSession id session).sessions id = session := Function.update_self ..

@[simp] theorem setSession_records (session : Option Session) :
    (registry.setSession id session).records = registry.records := rfl

@[simp] theorem setRecord_records (record : Option SessionRecord) :
    (registry.setRecord id record).records id = record := Function.update_self ..

@[simp] theorem setRecord_sessions (record : Option SessionRecord) :
    (registry.setRecord id record).sessions = registry.sessions := rfl

theorem setSession_other (session : Option Session) {other : String} (h : other ≠ id) :
    (registry.setSession id session).sessions other = registry.sessions other :=
  Function.update_of_ne h ..

theorem setRecord_other (record : Option SessionRecord) {other : String} (h : other ≠ id) :
    (registry.setRecord id record).records other = registry.records other :=
  Function.update_of_ne h ..

theorem consistent_set (h : Consistent registry) (session : Option Session)
    (record : Option SessionRecord) :
    Consistent ((registry.setSession id session).setRecord id record) ↔
      ∀ r, record = some r → RecordOk r session := by
  refine (consistent_iff_at id h ?_ ?_).trans ?_
  · exact fun other hother => setSession_other session hother
  · exact fun other hother => setRecord_other record hother
  · simp

theorem consistent_setSession (h : Consistent registry) (session : Option Session) :
    Consistent (registry.setSession id session) ↔
      ∀ record, registry.records id = some record → RecordOk record session := by
  refine (consistent_iff_at id h ?_ ?_).trans ?_
  · exact fun other hother => setSession_other session hother
  · exact fun other _ => rfl
  · simp

theorem consistent_setRecord (h : Consistent registry) (record : Option SessionRecord) :
    Consistent (registry.setRecord id record) ↔
      ∀ r, record = some r → RecordOk r (registry.sessions id) := by
  refine (consistent_iff_at id h ?_ ?_).trans ?_
  · exact fun other _ => rfl
  · exact fun other hother => setRecord_other record hother
  · simp

/-- Beside a session that is not hibernated, a record may not be frozen. -/
theorem recordOk_awake {record : SessionRecord} {session : Option Session}
    (hsession : session.any (·.hibernated) = false) :
    RecordOk record session ↔
      record.hibernation = none ∧ (isExited record.status = true → record.needsInput = none) := by
  constructor
  · intro h
    have hnone : record.hibernation = none := by
      have hfrozen := h.frozen
      rw [hsession] at hfrozen
      simpa using hfrozen
    exact ⟨hnone, fun hexited => (h.exited hexited).1⟩
  · rintro ⟨hnone, hinput⟩
    exact ⟨fun hexited => ⟨hinput hexited, hnone⟩, by rw [hnone, hsession]; rfl⟩

end One

section Operations

variable {registry : Registry} (h : Consistent registry)
include h

theorem spawn_iff (id : String) (session : Option LiveSession) (record : SessionRecord) :
    Consistent (registry.spawn id session record) ↔ Allowed registry (.spawn id session record) := by
  cases session with
  | none => exact ⟨fun _ hnone => (nomatch hnone), fun _ => h⟩
  | some session =>
    refine (consistent_set h (some ⟨session, false⟩) (some record)).trans ?_
    have hawake : RecordOk record (some ⟨session, false⟩) ↔ record.hibernation = none ∧
        (isExited record.status = true → record.needsInput = none) := recordOk_awake rfl
    constructor
    · intro hall _
      exact hawake.mp (hall record rfl)
    · intro hallowed r hr
      cases hr
      exact hawake.mpr (hallowed rfl)

theorem adoptRemote_iff (id : String) (session : Option LiveSession) :
    Consistent (registry.adoptRemote id session) ↔ Allowed registry (.adoptRemote id session) := by
  cases session with
  | none =>
    have hsame : registry.adoptRemote id none = registry := by
      unfold Registry.adoptRemote
      cases registry.records id <;> rfl
    rw [hsame]
    exact ⟨fun _ hnone => (nomatch hnone), fun _ => h⟩
  | some session =>
    cases hrecord : registry.records id with
    | none =>
      simp only [Registry.adoptRemote, hrecord]
      refine ⟨fun _ _ record hr => ?_, fun _ => h⟩
      rw [hrecord] at hr
      cases hr
    | some record =>
      simp only [Registry.adoptRemote, hrecord]
      refine (consistent_setSession h _).trans ?_
      constructor
      · intro hall _ r hr
        exact ((recordOk_awake rfl).mp (hall r hr)).1
      · intro hallowed r hr
        have hnone := hallowed rfl r hr
        exact (recordOk_awake rfl).mpr ⟨hnone, fun hexited => ((h id r hr).exited hexited).1⟩

theorem consistent_adoptHolder (id : String) (session : Option LiveSession) :
    Consistent (registry.adoptHolder id session) := by
  unfold Registry.adoptHolder
  split
  · rename_i record _ hrecord _
    refine (consistent_setSession h _).mpr ?_
    intro r hr
    rw [hrecord] at hr
    cases hr
    exact ⟨(h id record hrecord).exited, rfl⟩
  · exact h

theorem terminate_iff (id : String) (exit : Option Remote.Exit) :
    Consistent (registry.terminate id exit) ↔ Allowed registry (.terminate id exit) := by
  cases hsession : registry.sessions id with
  | none =>
    simp only [Registry.terminate, Allowed, hsession]
    exact ⟨fun _ hnone => (nomatch hnone), fun _ => h⟩
  | some session =>
    -- the session is gone, and the record is as it was or exited
    cases hrecord : registry.records id with
    | none =>
      simp only [Registry.terminate, Allowed, hsession, setSession_records, hrecord]
      refine ⟨fun _ _ r hr => (nomatch hr), fun _ => ?_⟩
      have hall : ∀ r, registry.records id = some r → RecordOk r none := by
        intro r hr
        rw [hrecord] at hr
        cases hr
      cases exit <;> exact (consistent_setSession h none).mpr hall
    | some record =>
      cases exit with
      | none =>
        simp only [Registry.terminate, Allowed, hsession]
        refine (consistent_setSession h none).trans ?_
        rw [hrecord]
        constructor
        · intro hall _ r hr
          exact ⟨((recordOk_awake rfl).mp (hall r hr)).1, fun hnone => nomatch hnone⟩
        · intro hallowed r hr
          refine (recordOk_awake rfl).mpr ⟨(hallowed rfl r hr).1, fun hexited => ?_⟩
          exact ((h id r (hrecord.trans hr)).exited hexited).1
      | some exit =>
        simp only [Registry.terminate, Allowed, hsession, setSession_records, hrecord]
        refine (consistent_set h none _).trans ?_
        constructor
        · intro hall _ r hr
          cases hr
          obtain ⟨hnone, hinput⟩ := (recordOk_awake rfl).mp (hall _ rfl)
          exact ⟨hnone, fun _ => hinput rfl⟩
        · intro hallowed r hr
          cases hr
          obtain ⟨hnone, hinput⟩ := hallowed rfl record rfl
          exact (recordOk_awake rfl).mpr ⟨hnone, fun _ => hinput rfl⟩

theorem respawn_iff (id : String) (session : Option LiveSession) (now : Int) :
    Consistent (registry.respawn id session now) ↔
      Allowed registry (.respawn id session now) := by
  cases session with
  | none =>
    have hsame : registry.respawn id none now = registry := by
      unfold Registry.respawn
      cases registry.records id <;> rfl
    rw [hsame]
    exact ⟨fun _ hnone => (nomatch hnone), fun _ => h⟩
  | some session =>
    cases hrecord : registry.records id with
    | none =>
      simp only [Registry.respawn, hrecord]
      refine ⟨fun _ _ record hr => ?_, fun _ => h⟩
      rw [hrecord] at hr
      cases hr
    | some record =>
      simp only [Registry.respawn, Allowed, hrecord]
      refine (consistent_set h _ _).trans ?_
      constructor
      · intro hall _ r hr
        cases hr
        exact ((recordOk_awake rfl).mp (hall _ rfl)).1
      · intro hallowed r hr
        cases hr
        exact (recordOk_awake rfl).mpr ⟨hallowed rfl record rfl, fun _ => rfl⟩

theorem consistent_remove (id : String) (exit : Option Remote.Exit) :
    Consistent (registry.remove id exit) := by
  have hother : ∀ other, other ≠ id →
      (registry.terminate id exit).sessions other = registry.sessions other ∧
      (registry.terminate id exit).records other = registry.records other := by
    intro other hne
    unfold Registry.terminate
    cases registry.sessions id with
    | none => exact ⟨rfl, rfl⟩
    | some session =>
      simp only
      split
      · exact ⟨setSession_other none hne, setRecord_other _ hne⟩
      · exact ⟨setSession_other none hne, rfl⟩
  unfold Registry.remove
  cases hrecord : (registry.terminate id exit).records id with
  | none =>
    simp only [hrecord]
    refine (consistent_iff_at id h (fun other hne => (hother other hne).1)
      (fun other hne => (hother other hne).2)).mpr ?_
    intro record hr
    rw [hrecord] at hr
    cases hr
  | some record =>
    simp only [hrecord]
    refine (consistent_iff_at id h (fun other hne => ?_) (fun other hne => ?_)).mpr ?_
    · exact (setSession_other none hne).trans (hother other hne).1
    · exact (setRecord_other none hne).trans (hother other hne).2
    · intro r hr
      rw [setSession_records, setRecord_records] at hr
      cases hr

/-- A record without a session is not frozen, so reaping it leaves nothing of its session. -/
theorem consistent_reapOrphans : Consistent registry.reapOrphans := by
  intro id record hrecord
  obtain ⟨old, hold, hnew⟩ := Option.map_eq_some_iff.mp hrecord
  have hok := h id old hold
  show RecordOk record (registry.sessions id)
  by_cases horphan : (old.host.isNone && !isExited old.status && (registry.sessions id).isNone) = true
  · rw [if_pos horphan] at hnew
    subst hnew
    have hsession : registry.sessions id = none := by
      rw [Bool.and_eq_true] at horphan
      exact Option.isNone_iff_eq_none.mp horphan.2
    rw [hsession] at hok ⊢
    exact (recordOk_awake rfl).mpr ⟨((recordOk_awake rfl).mp hok).1, fun _ => rfl⟩
  · rw [if_neg horphan] at hnew
    rw [← hnew]
    exact hok

theorem hibernate_iff (id : String) (reason : HibernationReason)
    (tree : Option (List (Int32 × Int64))) (now : Int) :
    Consistent (registry.hibernate id reason tree now) ↔
      Allowed registry (.hibernate id reason tree now) := by
  cases hsession : registry.sessions id with
  | none =>
    simp only [Registry.hibernate, Allowed, hsession]
    exact ⟨fun _ hnone => (nomatch hnone), fun _ => h⟩
  | some session =>
    cases tree with
    | none =>
      simp only [Registry.hibernate, Allowed, hsession]
      exact ⟨fun _ _ hnone => (nomatch hnone), fun _ => h⟩
    | some tree =>
      simp only [Registry.hibernate, Allowed, hsession]
      refine (consistent_set h _ _).trans ?_
      simp only [setSession_records]
      constructor
      · intro hall _ _ record hrecord
        rw [hrecord] at hall
        have hok := hall _ rfl
        cases hexited : isExited record.status with
        | false => rfl
        | true => exact absurd (hok.exited hexited).2 (by simp)
      · intro hallowed r hr
        obtain ⟨record, hrecord, rfl⟩ := Option.map_eq_some_iff.mp hr
        have hlive := hallowed rfl rfl record hrecord
        refine ⟨fun hexited => ?_, rfl⟩
        rw [show isExited record.status = true from hexited] at hlive
        cases hlive

theorem consistent_ensureSessionAwake (id : String) (continues : Bool) (now : Int) :
    Consistent (registry.ensureSessionAwake id continues now) := by
  have hclear : ∀ session : Option Session, session.any (·.hibernated) = false →
      Consistent ((registry.setSession id session).setHibernation id none now) := by
    intro session hsession
    refine (consistent_set h _ _).mpr ?_
    intro r hr
    obtain ⟨record, hrecord, rfl⟩ := Option.map_eq_some_iff.mp hr
    exact (recordOk_awake hsession).mpr
      ⟨rfl, fun hexited => ((h id record hrecord).exited hexited).1⟩
  cases hsession : registry.sessions id with
  | none =>
    have hsame : registry.setSession id none = registry := by
      unfold Registry.setSession
      rw [← hsession, Function.update_eq_self]
    have hcleared := hclear none rfl
    rw [hsame] at hcleared
    simp only [Registry.ensureSessionAwake, hsession]
    split
    · exact hcleared
    · exact h
  | some session =>
    simp only [Registry.ensureSessionAwake, hsession]
    cases continues with
    | false => exact h
    | true =>
      rw [if_pos rfl]
      split
      · exact hclear _ rfl
      · rename_i hknown
        refine (consistent_setSession h _).mpr ?_
        intro record hrecord
        have hnone : record.hibernation = none := by
          simp only [Registry.knownHibernated, hrecord, Bool.or_eq_true, not_or] at hknown
          simpa using hknown.1
        exact (recordOk_awake rfl).mpr
          ⟨hnone, fun hexited => ((h id record hrecord).exited hexited).1⟩

theorem consistent_wakeSession (id : String) (continues : Bool) (now : Int) :
    Consistent (registry.wakeSession id continues now) := by
  unfold Registry.wakeSession
  split
  · exact consistent_ensureSessionAwake h id continues now
  · exact h

/-- Threads of a session do not touch its mark. -/
theorem consistent_change (titleFromPrompt : String → String) (id : String)
    (change : Watch.SessionChange) : Consistent (registry.change titleFromPrompt id change) := by
  refine (consistent_setSession h _).mpr ?_
  intro record hrecord
  have hok := h id record hrecord
  refine ⟨hok.exited, hok.frozen.trans ?_⟩
  cases registry.sessions id <;> rfl

end Operations

/-! ### Polling -/

section Polling

variable {isAlphanumeric : Char → Bool} {registry : Registry} {published : String → Option Nat}
variable {now : Int} {id : String} {session : Session} {record : SessionRecord}

theorem foldChanged_status (isAlphanumeric : Char → Bool) (now : Int)
    (record : Watch.SessionRecord) (view : SessionView) :
    (Watch.Registry.foldChanged isAlphanumeric now record view).status = view.status ∧
      (Watch.Registry.foldChanged isAlphanumeric now record view).needsInput = view.needsInput := by
  have hfold : ∀ record : Watch.SessionRecord,
      (foldSessionView isAlphanumeric record view).status = view.status ∧
        (foldSessionView isAlphanumeric record view).needsInput = view.needsInput := by
    intro record
    unfold foldSessionView
    simp only
    split
    · exact ⟨rfl, rfl⟩
    · split <;> exact ⟨rfl, rfl⟩
  unfold Watch.Registry.foldChanged
  simp only
  split <;> exact hfold record

theorem polled_moved (isAlphanumeric : Char → Bool) (now : Int)
    (hsession : registry.sessions id = some session)
    (hmoved : published id ≠ some session.stateVersion) (hrecord : registry.records id = some record) :
    ∃ next, registry.polled isAlphanumeric published now id = some next ∧
      next.status = session.shared.status ∧ next.needsInput = session.shared.needsInput ∧
      next.hibernation = record.hibernation := by
  obtain ⟨hstatus, hinput⟩ := foldChanged_status isAlphanumeric now
    record.toSessionRecord session.toLiveSession.view
  refine ⟨{ record with
    toSessionRecord := Watch.Registry.foldChanged isAlphanumeric now record.toSessionRecord
      session.toLiveSession.view }, ?_, hstatus, hinput, rfl⟩
  unfold Registry.polled
  rw [hsession, Option.filter_some, if_pos (by simpa using hmoved), hrecord]
  rfl

theorem polled_unmoved (isAlphanumeric : Char → Bool) (now : Int)
    (h : ¬∃ session record, registry.sessions id = some session ∧
      published id ≠ some session.stateVersion ∧ registry.records id = some record) :
    registry.polled isAlphanumeric published now id = none := by
  unfold Registry.polled
  cases hsession : registry.sessions id with
  | none => rfl
  | some session =>
    by_cases hmoved : published id = some session.stateVersion
    · rw [Option.filter_some, if_neg (by simpa using hmoved)]
      rfl
    · cases hrecord : registry.records id with
      | none => cases Option.filter _ (some session) <;> rfl
      | some record => exact absurd ⟨session, record, hsession, hmoved, hrecord⟩ h

theorem changedSince_iff (h : Consistent registry) :
    Consistent (registry.changedSince isAlphanumeric published now) ↔
      Allowed registry (.changedSince published now) := by
  constructor
  · intro hnext id session record hsession hmoved hrecord hexited
    obtain ⟨next, hpolled, hstatus, hinput, hfrozen⟩ := polled_moved isAlphanumeric now
      hsession hmoved hrecord
    have hok := hnext id next (by simp only [Registry.changedSince, hpolled, Option.some_or])
    rw [← hstatus] at hexited
    rw [← hinput, ← hfrozen]
    exact hok.exited hexited
  · intro hallowed id record hrecord
    show RecordOk record (registry.sessions id)
    by_cases hmove : ∃ session record, registry.sessions id = some session ∧
        published id ≠ some session.stateVersion ∧ registry.records id = some record
    · obtain ⟨session, old, hsession, hmoved, hold⟩ := hmove
      obtain ⟨next, hpolled, hstatus, hinput, hfrozen⟩ := polled_moved isAlphanumeric now
        hsession hmoved hold
      simp only [Registry.changedSince, hpolled, Option.some_or] at hrecord
      cases hrecord
      refine ⟨fun hexited => ?_, ?_⟩
      · rw [hstatus] at hexited
        rw [hinput, hfrozen]
        exact hallowed id session old hsession hmoved hold hexited
      · rw [hfrozen]
        exact (h id old hold).frozen
    · simp only [Registry.changedSince, polled_unmoved isAlphanumeric now hmove,
        Option.none_or] at hrecord
      exact h id record hrecord

end Polling

/-! ### Runs -/

variable {isAlphanumeric : Char → Bool} {titleFromPrompt : String → String}

theorem step_iff {registry : Registry} (h : Consistent registry) (operation : Operation) :
    Consistent (step isAlphanumeric titleFromPrompt registry operation).1 ↔
      Allowed registry operation := by
  cases operation with
  | insertRecord id record =>
    refine (consistent_setRecord h (some record)).trans ?_
    exact ⟨fun hall => hall record rfl, fun hok r hr => by cases hr; exact hok⟩
  | spawn id session record => exact spawn_iff h id session record
  | adoptRemote id session => exact adoptRemote_iff h id session
  | adoptHolder id session => exact iff_of_true (consistent_adoptHolder h id session) trivial
  | terminate id exit => exact terminate_iff h id exit
  | respawn id session now => exact respawn_iff h id session now
  | remove id exit => exact iff_of_true (consistent_remove h id exit) trivial
  | reapOrphans => exact iff_of_true (consistent_reapOrphans h) trivial
  | hibernate id reason tree now => exact hibernate_iff h id reason tree now
  | ensureSessionAwake id continues now =>
    exact iff_of_true (consistent_ensureSessionAwake h id continues now) trivial
  | wakeSession id continues now =>
    exact iff_of_true (consistent_wakeSession h id continues now) trivial
  | changedSince published now => exact changedSince_iff h
  | change id change => exact iff_of_true (consistent_change h titleFromPrompt id change) trivial

/-- **Records are consistent all along a run exactly when every operation of it is allowed.** -/
theorem records_consistent_iff (isAlphanumeric : Char → Bool) (titleFromPrompt : String → String)
    (operations : List Operation) :
    (∀ front back, operations = front ++ back →
        Consistent (run (step isAlphanumeric titleFromPrompt) .new front)) ↔
      ∀ x ∈ trace (step isAlphanumeric titleFromPrompt) .new operations,
        Allowed x.before x.event :=
  run_always_iff (step isAlphanumeric titleFromPrompt) (P := Consistent)
    (C := fun x => Allowed x.before x.event) (fun _ _ hrecord => by cases hrecord)
    (fun _ operation h => step_iff h operation) operations

/-- A session that is at rest. -/
def atRest : LiveSession := ⟨⟨.idle, none, false, 1⟩, none, none, "claude-code", 0⟩

def atRestRecord : SessionRecord :=
  ⟨⟨"claude-code", "/work", "claude-code", .placeholder, .idle, none, 0⟩, none, none⟩

/-- A hibernated session is terminated: its record has exited and is still frozen. -/
theorem terminated_stays_frozen :
    ∃ record, (run (step (fun _ => true) id) .new
        [.spawn "s1" (some atRest) atRestRecord, .hibernate "s1" .idle (some []) 1,
          .terminate "s1" (some (.code 0))]).records "s1" = some record ∧
      isExited record.status = true ∧ record.hibernation ≠ none ∧
      (run (step (fun _ => true) id) .new
        [.spawn "s1" (some atRest) atRestRecord, .hibernate "s1" .idle (some []) 1,
          .terminate "s1" (some (.code 0))]).sessions "s1" = none := by
  refine ⟨_, rfl, rfl, ?_, rfl⟩
  exact Option.some_ne_none _

end Homie.Hibernation

/-! ### Input to a session that may be frozen gets to the child, or waits

Between the calls the bytes taken are, in order, those the child was sent, those in front of a
deferred start and those in the queue of the frozen session; at most one of the two queues is in
use (`Ordered`).  Every call keeps this but a wake whose flush fails: the queue was emptied before
the write, and the caller drops the error (`Loses`).
-/

namespace Homie.HibernatedInput

open Trace
open Engine (DeferredState)

namespace Session

/-- What waits for a deferred start. -/
def deferredQueue (session : Session) : List UInt8 :=
  (session.deferred.map DeferredState.queuedInput).getD []

/-- What was taken was delivered in order, or waits for the next flush. -/
def Kept (session : Session) : Prop :=
  session.delivered ++ session.deferredQueue ++ session.queuedInput = session.taken

instance (session : Session) : Decidable session.Kept := inferInstanceAs (Decidable (_ = _))

/-- The deferred start, if there is one, is still to come. -/
def unlaunched (session : Session) : Bool := session.deferred.any fun deferred => !deferred.launched

/-- Which of the queues may be in use. -/
structure Ordered (session : Session) : Prop where
  awake : session.hibernated = false → session.queuedInput = []
  waiting : session.unlaunched = true → session.queuedInput = []
  started : session.unlaunched = false → session.deferredQueue = []

variable {session : Session} {bytes : List UInt8} {answer : WriteAnswer}

/-! ### One write -/

theorem writeRaw_waiting (hwaiting : session.unlaunched = true) :
    ∃ deferred, session.writeRaw bytes answer
        = (true, { session with deferred := some deferred }) ∧ deferred.launched = false ∧
      deferred.queuedInput = session.deferredQueue ++ bytes := by
  unfold unlaunched at hwaiting
  cases hdeferred : session.deferred with
  | none =>
    rw [hdeferred] at hwaiting
    cases hwaiting
  | some deferred =>
    rw [hdeferred] at hwaiting
    have hlaunched : deferred.launched = false := by simpa using hwaiting
    refine ⟨{ deferred with queuedInput := deferred.queuedInput ++ bytes }, ?_, hlaunched, ?_⟩
    · simp [writeRaw, queueDeferred, hdeferred, DeferredState.queueInput, hlaunched]
    · simp [deferredQueue, hdeferred]

theorem writeRaw_started (hstarted : session.unlaunched = false) :
    session.writeRaw bytes answer =
      if session.hibernated then
        (true, { session with queuedInput := session.queuedInput ++ bytes })
      else session.transportWrite bytes answer := by
  have hnone : session.queueDeferred bytes = none := by
    unfold unlaunched at hstarted
    unfold queueDeferred
    cases hdeferred : session.deferred with
    | none => rfl
    | some deferred =>
      rw [hdeferred] at hstarted
      have hlaunched : deferred.launched = true := by simpa using hstarted
      simp [DeferredState.queueInput, hlaunched]
  rw [writeRaw, hnone]

theorem writeInput_kept (hkept : session.Kept) (hordered : session.Ordered) (bytes : List UInt8)
    (answer : WriteAnswer) :
    (session.writeInput bytes answer).2.Kept ∧ (session.writeInput bytes answer).2.Ordered := by
  unfold Kept at hkept
  cases hunlaunched : session.unlaunched with
  | true =>
    obtain ⟨deferred, hwrite, hlaunched, hqueue⟩ :=
      @writeRaw_waiting session bytes answer hunlaunched
    have hempty := hordered.waiting hunlaunched
    rw [writeInput, hwrite]
    refine ⟨?_, hordered.awake, fun _ => hempty, ?_⟩
    · show session.delivered ++ deferred.queuedInput ++ session.queuedInput
        = session.taken ++ bytes
      rw [hqueue, ← hkept, hempty]
      simp
    · intro hstarted
      simp [unlaunched, hlaunched] at hstarted
  | false =>
    have hfront := hordered.started hunlaunched
    cases hhibernated : session.hibernated with
    | true =>
      rw [writeInput, writeRaw_started hunlaunched, if_pos hhibernated]
      refine ⟨?_, ?_, ?_, fun _ => hfront⟩
      · show session.delivered ++ session.deferredQueue ++ (session.queuedInput ++ bytes)
          = session.taken ++ bytes
        rw [← hkept]
        simp
      · intro hawake
        exact absurd (hhibernated.symm.trans hawake) Bool.noConfusion
      · intro hwaiting
        exact absurd (hunlaunched.symm.trans hwaiting) Bool.noConfusion
    | false =>
      have hempty := hordered.awake hhibernated
      rw [writeInput, writeRaw_started hunlaunched, if_neg (by simp [hhibernated])]
      refine ⟨?_, hordered.awake, hordered.waiting, hordered.started⟩
      show session.delivered ++ answer.put bytes ++ session.deferredQueue ++ session.queuedInput
        = session.taken ++ if (answer == .written) = true then bytes else answer.put bytes
      have hwent : (if (answer == .written) = true then bytes else answer.put bytes)
          = answer.put bytes := by
        cases answer with
        | written => rfl
        | failed put => rfl
      rw [hwent, ← hkept, hfront, hempty]
      simp

/-! ### Freezing and waking -/

theorem hibernate_kept (hkept : session.Kept) (hordered : session.Ordered) (stops : Bool) :
    (session.hibernate stops).2.Kept ∧ (session.hibernate stops).2.Ordered := by
  unfold hibernate
  cases stops with
  | false => exact ⟨hkept, hordered⟩
  | true => exact ⟨hkept, nofun, hordered.waiting, hordered.started⟩

/-- A flush loses what the write does not put out. -/
theorem setHibernated_kept (hkept : session.Kept) (hordered : session.Ordered)
    (answer : WriteAnswer) :
    ((session.setHibernated false answer).2.Kept ↔
        answer.put session.queuedInput = session.queuedInput) ∧
      (session.setHibernated false answer).2.Ordered := by
  unfold Kept at hkept
  by_cases hempty : session.queuedInput = []
  · have hput : answer.put [] = [] := by
      cases answer with
      | written => rfl
      | failed put => exact List.take_nil
    have hset : session.setHibernated false answer
        = (true, { session with hibernated := false, queuedInput := [] }) := by
      simp only [setHibernated, hempty]
      rfl
    rw [hempty, List.append_nil] at hkept
    rw [hset, hempty]
    refine ⟨iff_of_true ?_ hput, fun _ => rfl, fun _ => rfl, hordered.started⟩
    show session.delivered ++ session.deferredQueue ++ [] = session.taken
    rw [List.append_nil, hkept]
  · have hstarted : session.unlaunched = false := by
      cases hunlaunched : session.unlaunched with
      | false => rfl
      | true => exact absurd (hordered.waiting hunlaunched) hempty
    have hfront := hordered.started hstarted
    have hset : session.setHibernated false answer = transportWrite
        { session with hibernated := false, queuedInput := [] } session.queuedInput answer := by
      have hraw := @writeRaw_started { session with hibernated := false, queuedInput := [] }
        session.queuedInput answer hstarted
      simp only [setHibernated, List.isEmpty_iff, hempty]
      exact hraw
    rw [hset]
    refine ⟨?_, fun _ => rfl, fun _ => rfl, fun _ => hfront⟩
    show session.delivered ++ answer.put session.queuedInput ++ session.deferredQueue ++ []
      = session.taken ↔ _
    rw [← hkept, hfront, List.append_nil, List.append_nil, List.append_nil]
    exact List.append_right_inj _

theorem ensureSessionAwake_kept (hkept : session.Kept) (hordered : session.Ordered)
    (continues : Bool) (answer : WriteAnswer) :
    ((session.ensureSessionAwake continues answer).2.Kept ↔
        (continues = true → answer.put session.queuedInput = session.queuedInput)) ∧
      (session.ensureSessionAwake continues answer).2.Ordered := by
  unfold ensureSessionAwake
  cases continues with
  | false => exact ⟨iff_of_true hkept nofun, hordered⟩
  | true =>
    obtain ⟨hiff, hnext⟩ := setHibernated_kept hkept hordered answer
    have hrecord : ∀ {s : Session} {known : Bool},
        ((if known then { s with recorded := false } else s).Kept ↔ s.Kept) ∧
          (s.Ordered → (if known then { s with recorded := false } else s).Ordered) := by
      intro s known
      cases known with
      | true => exact ⟨Iff.rfl, fun h => ⟨h.awake, h.waiting, h.started⟩⟩
      | false => exact ⟨Iff.rfl, id⟩
    exact ⟨(hrecord.1.trans hiff).trans ⟨fun h _ => h, fun h => h rfl⟩, hrecord.2 hnext⟩

theorem wakeSession_kept (hkept : session.Kept) (hordered : session.Ordered) (continues : Bool)
    (answer : WriteAnswer) :
    ((session.wakeSession continues answer).2.Kept ↔
        (continues = true → answer.put session.queuedInput = session.queuedInput)) ∧
      (session.wakeSession continues answer).2.Ordered := by
  unfold wakeSession
  split
  · exact ensureSessionAwake_kept hkept hordered continues answer
  · -- an awake session has nothing to flush
    rename_i hawake
    have hempty : session.queuedInput = [] := by
      refine hordered.awake ?_
      cases hhibernated : session.hibernated with
      | false => rfl
      | true => exact absurd (by rw [hhibernated, Bool.or_true]) hawake
    refine ⟨iff_of_true hkept fun _ => ?_, hordered⟩
    rw [hempty]
    cases answer with
    | written => rfl
    | failed put => exact List.take_nil

theorem start_kept (launched : Option Bool) :
    (start launched).Kept ∧ (start launched).Ordered := by
  cases launched with
  | none => exact ⟨rfl, fun _ => rfl, fun _ => rfl, fun _ => rfl⟩
  | some launched => exact ⟨rfl, fun _ => rfl, fun _ => rfl, fun _ => rfl⟩

end Session

/-! ### Runs -/

open HibernatedInput.Session

/-- A wake that gets through to the child puts out the whole queue. -/
def Flushes (x : Step Session Call Bool) : Prop :=
  match x.event with
  | .writeInput _ _ => True
  | .hibernate _ => True
  | .ensureSessionAwake continues answer =>
    continues = true → answer.put x.before.queuedInput = x.before.queuedInput
  | .wakeSession continues answer =>
    continues = true → answer.put x.before.queuedInput = x.before.queuedInput

theorem step_kept {session : Session} (hkept : session.Kept) (hordered : session.Ordered)
    (call : Call) :
    ((step session call).1.Kept ↔ Flushes (take step session call)) ∧
      (step session call).1.Ordered := by
  cases call with
  | writeInput bytes answer =>
    obtain ⟨hnext, hnext'⟩ := writeInput_kept hkept hordered bytes answer
    exact ⟨iff_of_true hnext trivial, hnext'⟩
  | hibernate stops =>
    obtain ⟨hnext, hnext'⟩ := hibernate_kept hkept hordered stops
    exact ⟨iff_of_true hnext trivial, hnext'⟩
  | ensureSessionAwake continues answer =>
    exact ensureSessionAwake_kept hkept hordered continues answer
  | wakeSession continues answer => exact wakeSession_kept hkept hordered continues answer

/--
**Input is lost exactly where a flush fails.**  Through any run of writes, freezes and wakes, and
whatever the transport answers, what was taken is delivered in order or still queued, if and only
if every wake that gets through to the child puts out the whole queue.
-/
theorem input_kept_iff (launched : Option Bool) (calls : List Call) :
    (∀ front back, calls = front ++ back → (run step (start launched) front).Kept) ↔
      ∀ x ∈ trace step (start launched) calls, Flushes x := by
  have hrun := run_always_iff step (P := fun session => session.Kept ∧ session.Ordered)
    (C := Flushes) (start_kept launched) (fun session call h =>
      ⟨fun hnext => (step_kept h.1 h.2 call).1.mp hnext.1,
        fun hflushes => ⟨(step_kept h.1 h.2 call).1.mpr hflushes, (step_kept h.1 h.2 call).2⟩⟩)
    calls
  refine ⟨fun h => hrun.mp fun front back heq => ⟨h front back heq, ?_⟩,
    fun h front back heq => (hrun.mpr h front back heq).1⟩
  -- while nothing is lost, the queues stay in order
  induction front using List.reverseRecOn generalizing back with
  | nil => exact (start_kept launched).2
  | append_singleton front call ih =>
    have hsplit : calls = front ++ call :: back := by
      rw [heq, List.append_assoc, List.singleton_append]
    rw [run_concat]
    exact (step_kept (h front _ hsplit) (ih _ hsplit) call).2

/-- A frozen session is sent a line, and the write of the wake fails. -/
def lostLine : List Call :=
  [.hibernate true, .writeInput [0x6c, 0x73, 0x0d] .written, .wakeSession true (.failed 0)]

/-- The line was accepted, the wake returns `Ok`, and the line is gone. -/
theorem failed_flush_loses :
    ¬ (run step (start none) lostLine).Kept ∧
      ((trace step (start none) lostLine).map Step.outcome) = [true, true, true] ∧
      (run step (start none) lostLine).delivered = [] ∧
      (run step (start none) lostLine).queuedInput = [] := by
  decide

end Homie.HibernatedInput
