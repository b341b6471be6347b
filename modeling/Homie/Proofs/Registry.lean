/-
What the watcher of the registry has told its listeners.

A poll returns the record of every session whose version is not the published one.  Within
one session that is enough: everything its view shows moves its version, and versions only
grow.  A session that replaces another under its id starts counting again, and when a poll
finds it at exactly the published number the replacement is not seen.  `NoCoincidence`
excludes that.
-/
import Homie.Engine.Registry

namespace Homie.Watch

open Trace

variable {isAlphanumeric : Char → Bool} {titleFromPrompt : String → String}

/-! ### Folding -/

variable (isAlphanumeric) in
/-- The title that folding `view` gives a record whose title is not kept. -/
def newTitle (record : SessionRecord) (view : SessionView) : Option String :=
  (view.title.bind (normalizeAgentTitle isAlphanumeric)).filter
    fun title => !isGenericTerminalTitle isAlphanumeric title record

theorem foldSessionView_kept {record : SessionRecord} (hkept : titleKept record = true)
    (view : SessionView) :
    foldSessionView isAlphanumeric record view = foldSessionStatus record view :=
  if_pos hkept

/-- A title that is not kept is replaced by the view's, if that gives one. -/
theorem foldSessionView_newTitle {record : SessionRecord} (hkept : titleKept record = false)
    (view : SessionView) :
    foldSessionView isAlphanumeric record view =
      match newTitle isAlphanumeric record view with
      | none => foldSessionStatus record view
      | some title =>
        { foldSessionStatus record view with
          title := title, titleSource := view.titleSource.getD .agentProvided } := by
  unfold foldSessionView
  dsimp only
  rw [if_neg (by rw [show titleKept (foldSessionStatus record view) = false from hkept]; decide)]
  rfl

theorem foldSessionView_none {record : SessionRecord} (hkept : titleKept record = false)
    {view : SessionView} (htitle : newTitle isAlphanumeric record view = none) :
    foldSessionView isAlphanumeric record view = foldSessionStatus record view := by
  rw [foldSessionView_newTitle hkept, htitle]

theorem foldSessionView_some {record : SessionRecord} (hkept : titleKept record = false)
    {view : SessionView} {title : String}
    (htitle : newTitle isAlphanumeric record view = some title) :
    foldSessionView isAlphanumeric record view
      = { foldSessionStatus record view with
          title := title, titleSource := view.titleSource.getD .agentProvided } := by
  rw [foldSessionView_newTitle hkept, htitle]

variable (isAlphanumeric) in
theorem foldSessionView_idem (record : SessionRecord) (view : SessionView) :
    foldSessionView isAlphanumeric (foldSessionView isAlphanumeric record view) view
      = foldSessionView isAlphanumeric record view := by
  cases hkept : titleKept record with
  | true =>
    have hagain : titleKept (foldSessionStatus record view) = true := hkept
    rw [foldSessionView_kept hkept, foldSessionView_kept hagain]
    rfl
  | false =>
    have hagain : titleKept (foldSessionStatus record view) = false := hkept
    cases htitle : newTitle isAlphanumeric record view with
    | none =>
      rw [foldSessionView_none hkept htitle, foldSessionView_none hagain htitle]
      rfl
    | some title =>
      rw [foldSessionView_some hkept htitle]
      -- the new source may keep the title from now on; it is the same title either way
      cases hafter : titleKept { foldSessionStatus record view with
          title := title, titleSource := view.titleSource.getD .agentProvided } with
      | true =>
        rw [foldSessionView_kept hafter]
        rfl
      | false =>
        rw [foldSessionView_some hafter htitle]
        rfl

variable (isAlphanumeric) in
theorem foldSessionView_updatedAt (record : SessionRecord) (view : SessionView) (now : Int) :
    foldSessionView isAlphanumeric { record with updatedAt := now } view
      = { foldSessionView isAlphanumeric record view with updatedAt := now } := by
  cases hkept : titleKept record with
  | true =>
    have hagain : titleKept { record with updatedAt := now } = true := hkept
    rw [foldSessionView_kept hkept, foldSessionView_kept hagain]
    rfl
  | false =>
    have hagain : titleKept { record with updatedAt := now } = false := hkept
    cases htitle : newTitle isAlphanumeric record view with
    | none =>
      rw [foldSessionView_none hkept htitle, foldSessionView_none hagain htitle]
      rfl
    | some title =>
      rw [foldSessionView_some hkept htitle, foldSessionView_some hagain htitle]
      rfl

variable (isAlphanumeric) in
theorem foldSessionView_foldChanged (now : Int) (record : SessionRecord) (view : SessionView) :
    foldSessionView isAlphanumeric (Registry.foldChanged isAlphanumeric now record view) view
      = Registry.foldChanged isAlphanumeric now record view := by
  unfold Registry.foldChanged
  dsimp only
  split
  · rw [foldSessionView_updatedAt, foldSessionView_idem]
  · exact foldSessionView_idem isAlphanumeric record view

/-! ### Versions -/

/-- The version does not move back, and stays only when the view does. -/
def Advances (session session' : LiveSession) : Prop :=
  session'.birth = session.birth ∧
    (session.stateVersion < session'.stateVersion ∨
      session'.stateVersion = session.stateVersion ∧ session'.view = session.view)

theorem advances_bump {session session' : LiveSession} (hbirth : session'.birth = session.birth)
    (hshared : session'.shared = session.shared) : Advances session session'.bump := by
  refine ⟨hbirth, Or.inl ?_⟩
  change session.shared.stateVersion < session'.shared.stateVersion + 1
  rw [hshared]
  exact Nat.lt_succ_self _

/-- One part of `apply`: it leaves the version to the end, and tells whether it moved. -/
def Reports (shared : SessionShared) (part : Bool × SessionShared) : Prop :=
  part.2.stateVersion = shared.stateVersion ∧
    (part.1 = false → part.2.status = shared.status ∧ part.2.needsInput = shared.needsInput)

theorem reports_applyStatus (shared : SessionShared) (change : Option SessionStatus) :
    Reports shared (shared.applyStatus change) := by
  cases change with
  | none => exact ⟨rfl, fun _ => ⟨rfl, rfl⟩⟩
  | some status =>
    refine ⟨rfl, fun hsame => ⟨?_, rfl⟩⟩
    exact (bne_eq_false_iff_eq.mp hsame).symm

theorem reports_applyDetail (shared : SessionShared) (change : Option NeedsInputDetail) :
    Reports shared (shared.applyDetail change) := by
  cases change with
  | none => exact ⟨rfl, fun _ => ⟨rfl, rfl⟩⟩
  | some detail =>
    refine ⟨rfl, fun hsame => ⟨rfl, ?_⟩⟩
    exact (bne_eq_false_iff_eq.mp hsame).symm

theorem reports_clearDetail (shared : SessionShared) (change : Option SessionStatus) :
    Reports shared (shared.clearDetail change) := by
  unfold SessionShared.clearDetail
  split
  · refine ⟨rfl, fun hsame => ⟨rfl, ?_⟩⟩
    cases hneeds : shared.needsInput with
    | none => rfl
    | some detail => simp [hneeds] at hsame
  · exact ⟨rfl, fun _ => ⟨rfl, rfl⟩⟩

theorem apply_advances (shared : SessionShared) (outcome : ReducerOutcome) :
    shared.stateVersion < (shared.apply outcome).stateVersion ∨
      (shared.apply outcome).stateVersion = shared.stateVersion ∧
        (shared.apply outcome).status = shared.status ∧
        (shared.apply outcome).needsInput = shared.needsInput := by
  obtain ⟨hversion₁, hsame₁⟩ := reports_applyStatus shared outcome.statusChange
  obtain ⟨hversion₂, hsame₂⟩ :=
    reports_applyDetail (shared.applyStatus outcome.statusChange).2 outcome.needsInput
  obtain ⟨hversion₃, hsame₃⟩ := reports_clearDetail
    ((shared.applyStatus outcome.statusChange).2.applyDetail outcome.needsInput).2
    outcome.statusChange
  unfold SessionShared.apply
  dsimp only
  split
  · left
    change shared.stateVersion < _ + 1
    omega
  · rename_i hquiet
    simp only [Bool.or_eq_true, not_or, Bool.not_eq_true] at hquiet
    obtain ⟨⟨hquiet₁, hquiet₂⟩, hquiet₃⟩ := hquiet
    obtain ⟨hstatus₁, hneeds₁⟩ := hsame₁ hquiet₁
    obtain ⟨hstatus₂, hneeds₂⟩ := hsame₂ hquiet₂
    obtain ⟨hstatus₃, hneeds₃⟩ := hsame₃ hquiet₃
    refine Or.inr ⟨by omega, ?_, ?_⟩
    · rw [hstatus₃, hstatus₂, hstatus₁]
    · rw [hneeds₃, hneeds₂, hneeds₁]

variable (titleFromPrompt) in
theorem change_advances (session : LiveSession) (change : SessionChange) :
    Advances session (session.change titleFromPrompt change) := by
  have hsame : Advances session session := ⟨rfl, Or.inr ⟨rfl, rfl⟩⟩
  cases change with
  | apply outcome =>
    refine ⟨rfl, (apply_advances session.shared outcome).imp_right fun h => ⟨h.1, ?_⟩⟩
    simp only [LiveSession.change, LiveSession.view, h.2.1, h.2.2]
  | title title =>
    simp only [LiveSession.change, LiveSession.setTitle]
    split
    · exact advances_bump rfl rfl
    · exact hsame
  | prompt text =>
    simp only [LiveSession.change, LiveSession.capturePromptTitle]
    split
    · exact hsame
    · split
      · exact hsame
      · split
        · exact advances_bump rfl rfl
        · exact hsame

/-! ### The invariant -/

namespace Watched

/-- The watcher has told what the record of this session is when its view is folded in. -/
def Told (isAlphanumeric : Char → Bool) (sys : Watched) (id : String) (session : LiveSession) :
    Prop :=
  ∃ record, sys.registry.records id = some record ∧
    sys.returned id = some (foldSessionView isAlphanumeric record session.view)

/-- A poll finds no session that is new since the last one at exactly the published version. -/
def NoCoincidence (s : Step Watched WatchEvent Unit) : Prop :=
  match s.event with
  | .poll _ => ∀ id session, s.before.registry.sessions id = some session →
      s.before.polledBirths ≤ session.birth → s.before.published id ≠ some session.stateVersion
  | _ => True

/-- What the published versions mean between two polls. -/
structure Sound (isAlphanumeric : Char → Bool) (sys : Watched) : Prop where
  /-- Every session has a record. -/
  recorded : ∀ id session, sys.registry.sessions id = some session →
    (sys.registry.records id).isSome
  polled : sys.polledBirths ≤ sys.births
  born : ∀ id session, sys.registry.sessions id = some session → session.birth < sys.births
  /-- A session that the last poll saw is at the published version, and told, or past it. -/
  seen : ∀ id session, sys.registry.sessions id = some session →
    session.birth < sys.polledBirths →
    ∃ version, sys.published id = some version ∧ version ≤ session.stateVersion ∧
      (version = session.stateVersion → sys.Told isAlphanumeric id session)

variable {sys : Watched}

theorem sound_new : Sound isAlphanumeric new :=
  ⟨(fun _ _ h => nomatch h), Nat.le_refl 0, (fun _ _ h => nomatch h), (fun _ _ h => nomatch h)⟩

/-- A step that only touches one id, and leaves there no session or one that is new. -/
theorem Sound.replace (h : Sound isAlphanumeric sys) (id : String) {registry : Registry}
    {births : Nat} (hbirths : sys.births ≤ births)
    (hothers : ∀ other, other ≠ id → registry.sessions other = sys.registry.sessions other ∧
      registry.records other = sys.registry.records other)
    (hid : ∀ session, registry.sessions id = some session →
      (registry.records id).isSome ∧ session.birth = sys.births ∧ sys.births < births) :
    Sound isAlphanumeric { sys with registry := registry, births := births } := by
  refine ⟨?_, h.polled.trans hbirths, ?_, ?_⟩
  · intro other session hsession
    by_cases hother : other = id
    · subst hother
      exact (hid session hsession).1
    · obtain ⟨hsessions, hrecords⟩ := hothers other hother
      change (registry.records other).isSome
      rw [hrecords]
      exact h.recorded other session (hsessions ▸ hsession)
  · intro other session hsession
    by_cases hother : other = id
    · subst hother
      obtain ⟨-, hbirth, hnew⟩ := hid session hsession
      exact hbirth ▸ hnew
    · exact (h.born other session ((hothers other hother).1 ▸ hsession)).trans_le hbirths
  · intro other session hsession hseen
    by_cases hother : other = id
    · -- a new session has not been polled yet
      subst hother
      obtain ⟨-, hbirth, -⟩ := hid session hsession
      have hpolled := h.polled
      change session.birth < sys.polledBirths at hseen
      omega
    · obtain ⟨hsessions, hrecords⟩ := hothers other hother
      obtain ⟨version, hpublished, hle, htold⟩ :=
        h.seen other session (hsessions ▸ hsession) hseen
      refine ⟨version, hpublished, hle, fun hversion => ?_⟩
      obtain ⟨record, hrecord, hreturned⟩ := htold hversion
      exact ⟨record, hrecords.trans hrecord, hreturned⟩

theorem Sound.spawn (h : Sound isAlphanumeric sys) (id : String) (session : LiveSession)
    (record : SessionRecord) :
    Sound isAlphanumeric (sys.enter session fun session => sys.registry.spawn id session record) := by
  refine h.replace id (Nat.le_succ _) ?_ ?_
  · intro other hother
    exact ⟨Function.update_of_ne hother _ _, Function.update_of_ne hother _ _⟩
  · intro entered hentered
    simp only [Registry.spawn, Function.update_self, Option.some.injEq] at hentered ⊢
    subst hentered
    exact ⟨rfl, rfl, Nat.lt_succ_self _⟩

theorem Sound.adopt (h : Sound isAlphanumeric sys) (id : String) (session : LiveSession) :
    Sound isAlphanumeric (sys.enter session fun session => sys.registry.adopt id session) := by
  unfold enter Registry.adopt
  dsimp only
  split
  · rename_i hrecord
    refine h.replace id (Nat.le_succ _) ?_ ?_
    · intro other hother
      exact ⟨Function.update_of_ne hother _ _, rfl⟩
    · intro entered hentered
      simp only [Function.update_self, Option.some.injEq] at hentered
      subst hentered
      exact ⟨hrecord, rfl, Nat.lt_succ_self _⟩
  · refine ⟨h.recorded, h.polled.trans (Nat.le_succ _), ?_, h.seen⟩
    intro other live hlive
    exact (h.born other live hlive).trans (Nat.lt_succ_self _)

theorem Sound.respawn (h : Sound isAlphanumeric sys) (id : String) (session : LiveSession)
    (now : Int) :
    Sound isAlphanumeric (sys.enter session fun session => sys.registry.respawn id session now) := by
  unfold enter Registry.respawn
  cases hrecord : sys.registry.records id with
  | none =>
    refine ⟨h.recorded, h.polled.trans (Nat.le_succ _), ?_, h.seen⟩
    intro other live hlive
    exact (h.born other live hlive).trans (Nat.lt_succ_self _)
  | some record =>
    refine h.replace id (Nat.le_succ _) ?_ ?_
    · intro other hother
      exact ⟨Function.update_of_ne hother _ _, Function.update_of_ne hother _ _⟩
    · intro entered hentered
      simp only [Function.update_self, Option.some.injEq] at hentered ⊢
      subst hentered
      exact ⟨rfl, rfl, Nat.lt_succ_self _⟩

theorem Sound.terminate (h : Sound isAlphanumeric sys) (id : String) (exit : Option Remote.Exit) :
    Sound isAlphanumeric { sys with registry := sys.registry.terminate id exit } := by
  unfold Registry.terminate
  split
  · exact h
  · refine h.replace id (Nat.le_refl _) ?_ ?_
    · intro other hother
      cases exit with
      | none => exact ⟨Function.update_of_ne hother _ _, rfl⟩
      | some exit => exact ⟨Function.update_of_ne hother _ _, Function.update_of_ne hother _ _⟩
    · intro session hsession
      cases exit <;> simp at hsession

theorem Sound.forget (h : Sound isAlphanumeric sys) (id : String) :
    Sound isAlphanumeric { sys with registry := sys.registry.forget id } := by
  refine h.replace id (Nat.le_refl _) ?_ ?_
  · intro other hother
    exact ⟨Function.update_of_ne hother _ _, Function.update_of_ne hother _ _⟩
  · intro session hsession
    simp [Registry.forget] at hsession

theorem Sound.change (h : Sound isAlphanumeric sys) (id : String) (change : SessionChange) :
    Sound isAlphanumeric { sys with registry := sys.registry.change titleFromPrompt id change } := by
  have hcases : ∀ other session', (sys.registry.change titleFromPrompt id change).sessions other
      = some session' → ∃ session, sys.registry.sessions other = some session ∧
        Advances session session' := by
    intro other session' hsession'
    by_cases hother : other = id
    · subst hother
      simp only [Registry.change, Function.update_self, Option.map_eq_some_iff] at hsession'
      obtain ⟨session, hsession, rfl⟩ := hsession'
      exact ⟨session, hsession, change_advances titleFromPrompt session change⟩
    · simp only [Registry.change, Function.update_of_ne hother] at hsession'
      exact ⟨session', hsession', rfl, Or.inr ⟨rfl, rfl⟩⟩
  refine ⟨?_, h.polled, ?_, ?_⟩
  · intro other session' hsession'
    obtain ⟨session, hsession, -⟩ := hcases other session' hsession'
    exact h.recorded other session hsession
  · intro other session' hsession'
    obtain ⟨session, hsession, hbirth, -⟩ := hcases other session' hsession'
    exact hbirth ▸ h.born other session hsession
  · intro other session' hsession' hseen
    obtain ⟨session, hsession, hbirth, hmoves⟩ := hcases other session' hsession'
    obtain ⟨version, hpublished, hle, htold⟩ := h.seen other session hsession (hbirth ▸ hseen)
    rcases hmoves with hlater | ⟨hversion, hview⟩
    · exact ⟨version, hpublished, by omega, fun hsame => by omega⟩
    · refine ⟨version, hpublished, by omega, fun hsame => ?_⟩
      obtain ⟨record, hrecord, hreturned⟩ := htold (by omega)
      exact ⟨record, hrecord, hview ▸ hreturned⟩

/-! ### Polls -/

theorem poll_moved {id : String} {session : LiveSession} {record : SessionRecord}
    (hsession : sys.registry.sessions id = some session)
    (hrecord : sys.registry.records id = some record)
    (hmoved : sys.published id ≠ some session.stateVersion) (now : Int) :
    (sys.poll isAlphanumeric now).published id = some session.stateVersion ∧
      (sys.poll isAlphanumeric now).Told isAlphanumeric id session := by
  have hfound : sys.registry.moved (fun id =>
      if (sys.registry.sessions id).isSome then sys.published id else none) id = some session := by
    simp [Registry.moved, hsession, Option.filter, hmoved]
  refine ⟨?_, Registry.foldChanged isAlphanumeric now record session.view, ?_, ?_⟩
  · simp [poll, Registry.changedSince, hfound]
  · simp [poll, Registry.changedSince, hfound, hrecord]
  · rw [foldSessionView_foldChanged]
    simp [poll, Registry.changedSince, hfound, hrecord]

variable (isAlphanumeric) in
theorem poll_unmoved {id : String} {session : LiveSession}
    (hsession : sys.registry.sessions id = some session)
    (hsame : sys.published id = some session.stateVersion) (now : Int) :
    (sys.poll isAlphanumeric now).published id = some session.stateVersion ∧
      (sys.poll isAlphanumeric now).registry.records id = sys.registry.records id ∧
      (sys.poll isAlphanumeric now).returned id = sys.returned id := by
  have hfound : sys.registry.moved (fun id =>
      if (sys.registry.sessions id).isSome then sys.published id else none) id = none := by
    simp [Registry.moved, hsession, Option.filter, hsame]
  simp [poll, Registry.changedSince, hfound, hsession, hsame]

theorem Sound.told_poll (h : Sound isAlphanumeric sys) {now : Int}
    (hdistinct : NoCoincidence (take (step isAlphanumeric titleFromPrompt) sys (.poll now)))
    {id : String} {session : LiveSession} (hsession : sys.registry.sessions id = some session) :
    (sys.poll isAlphanumeric now).published id = some session.stateVersion ∧
      (sys.poll isAlphanumeric now).Told isAlphanumeric id session := by
  obtain ⟨record, hrecord⟩ := Option.isSome_iff_exists.mp (h.recorded id session hsession)
  by_cases hsame : sys.published id = some session.stateVersion
  · -- the last poll has seen this very session
    have hseen : session.birth < sys.polledBirths := by
      by_contra hnew
      exact hdistinct id session hsession (Nat.not_lt.mp hnew) hsame
    obtain ⟨version, hpublished, -, htold⟩ := h.seen id session hsession hseen
    have hversion : version = session.stateVersion :=
      Option.some.inj (hpublished.symm.trans hsame)
    obtain ⟨record, hrecord, hreturned⟩ := htold hversion
    obtain ⟨hafter, hrecords, hreturns⟩ := poll_unmoved isAlphanumeric hsession hsame now
    exact ⟨hafter, record, hrecords.trans hrecord, hreturns.trans hreturned⟩
  · exact poll_moved hsession hrecord hsame now

theorem Sound.poll (h : Sound isAlphanumeric sys) {now : Int}
    (hdistinct : NoCoincidence (take (step isAlphanumeric titleFromPrompt) sys (.poll now))) :
    Sound isAlphanumeric (sys.poll isAlphanumeric now) := by
  refine ⟨?_, Nat.le_refl _, h.born, ?_⟩
  · intro id session hsession
    obtain ⟨-, record, hrecord, -⟩ := h.told_poll hdistinct hsession
    rw [hrecord]
    rfl
  · intro id session hsession _
    obtain ⟨hpublished, htold⟩ := h.told_poll hdistinct hsession
    exact ⟨session.stateVersion, hpublished, Nat.le_refl _, fun _ => htold⟩

/-! ### Runs -/

theorem Sound.step (h : Sound isAlphanumeric sys) (event : WatchEvent)
    (hdistinct : NoCoincidence (take (step isAlphanumeric titleFromPrompt) sys event)) :
    Sound isAlphanumeric (step isAlphanumeric titleFromPrompt sys event).1 := by
  cases event with
  | spawn id session record => exact h.spawn id session record
  | adopt id session => exact h.adopt id session
  | respawn id session now => exact h.respawn id session now
  | terminate id exit => exact h.terminate id exit
  | forget id => exact h.forget id
  | change id change => exact h.change id change
  | poll now => exact h.poll hdistinct

/--
**The watcher is complete.**  In a run in which no poll finds a session that came in since the
last one at exactly the published version, the last record returned for every live session
after a poll is the session's record with its view folded in.
-/
theorem watcher_complete (isAlphanumeric : Char → Bool) (titleFromPrompt : String → String)
    {events : List WatchEvent} {now : Int}
    (hdistinct : ∀ s ∈ trace (step isAlphanumeric titleFromPrompt) new (events ++ [.poll now]),
      NoCoincidence s)
    {id : String} {session : LiveSession}
    (hsession : (run (step isAlphanumeric titleFromPrompt) new
      (events ++ [.poll now])).registry.sessions id = some session) :
    ∃ record, (run (step isAlphanumeric titleFromPrompt) new
        (events ++ [.poll now])).registry.records id = some record ∧
      (run (step isAlphanumeric titleFromPrompt) new (events ++ [.poll now])).returned id
        = some (foldSessionView isAlphanumeric record session.view) := by
  rw [trace_concat] at hdistinct
  rw [run_concat] at hsession ⊢
  have hsound : Sound isAlphanumeric (run (step isAlphanumeric titleFromPrompt) new events) := by
    refine run_invariant_where (C := NoCoincidence) _ (fun s hs => hdistinct s ?_) sound_new
      fun sys event hstep hsys => hsys.step event hstep
    exact List.mem_append_left _ hs
  have hlast : NoCoincidence (take (step isAlphanumeric titleFromPrompt)
      (run (step isAlphanumeric titleFromPrompt) new events) (.poll now)) :=
    hdistinct _ (List.mem_append_right _ (List.mem_singleton_self _))
  exact (hsound.told_poll hlast hsession).2

/-! ### A session that is resumed -/

/-- A session as it starts. -/
def started : LiveSession := ⟨.new, none, none, "claude", 0⟩

def startedRecord : SessionRecord := ⟨"claude", "/work", "claude", .placeholder, .starting, none, 0⟩

def goesTo (status : SessionStatus) : WatchEvent := .change "s1" (.apply ⟨some status, none, false⟩)

/-- The session works, ends and is resumed; the new one is not seen to do anything yet. -/
def resumed : List WatchEvent :=
  [.spawn "s1" started startedRecord, goesTo .working, .poll 1,
    .terminate "s1" (some (.code 0)), .respawn "s1" started 2]

theorem resumed_elsewhere {id : String} (hid : id ≠ "s1") :
    ∀ s ∈ trace (step Char.isAlphanum fun prompt => prompt) new (resumed ++ [.poll 3]),
      s.before.registry.sessions id = none := by
  simp [resumed, trace, take, step, enter, goesTo, Registry.spawn, Registry.change,
    Registry.respawn, Registry.terminate, poll, Registry.changedSince, hid, new, Registry.empty]

theorem resumed_noCoincidence :
    ∀ s ∈ trace (step Char.isAlphanum fun prompt => prompt) new (resumed ++ [.poll 3]),
      NoCoincidence s := by
  intro s hs
  have hcheck : ∀ s ∈ trace (step Char.isAlphanum fun prompt => prompt) new (resumed ++ [.poll 3]),
      ((s.before.registry.sessions "s1").map fun session =>
        decide (s.before.polledBirths ≤ session.birth →
          s.before.published "s1" ≠ some session.stateVersion)) ≠ some false := by
    decide
  unfold NoCoincidence
  split
  · intro id session hsession hnew
    by_cases hid : id = "s1"
    · subst hid
      have hsession' := hcheck s hs
      rw [hsession] at hsession'
      simpa [hnew] using hsession'
    · rw [resumed_elsewhere hid s hs] at hsession
      cases hsession
  · trivial

/-- The poll after the resumption returns the record of the new session. -/
theorem watcher_complete_resumed :
    (run (step Char.isAlphanum fun prompt => prompt) new (resumed ++ [.poll 3])).returned "s1"
      = some ⟨"claude", "/work", "claude", .placeholder, .starting, none, 2⟩ := by
  have hsession : (run (step Char.isAlphanum fun prompt => prompt) new
      (resumed ++ [.poll 3])).registry.sessions "s1" = some { started with birth := 1 } := rfl
  obtain ⟨record, hrecord, hreturned⟩ := watcher_complete Char.isAlphanum (fun prompt => prompt)
    resumed_noCoincidence hsession
  cases hrecord
  exact hreturned.trans (by decide)

/-- Every live session is told. -/
def Complete (sys : Watched) : Prop :=
  ∀ id session, sys.registry.sessions id = some session → sys.Told Char.isAlphanum id session

/-- The resumed session goes idle: its version is the published one, and the listeners keep
seeing the old session at work, poll after poll. -/
theorem same_version_hides_replacement :
    ¬ Complete (run (step Char.isAlphanum fun prompt => prompt) new
      (resumed ++ [goesTo .idle, .poll 3, .poll 4])) := by
  intro hcomplete
  obtain ⟨record, hrecord, hreturned⟩ := hcomplete "s1" _ rfl
  cases hrecord
  revert hreturned
  decide

end Watched
end Homie.Watch
