/-
What one call can do to a session's status.

A dozen kinds of signal reach the reducer from three sources, but they act on the
debounce in few ways.  `classify` says which of them a call is for the reducer it
meets: positive work, a request for input, a strong idle signal, an idle frame, or
none of these.  `step_moves` then lists everything a step can do to the status, the
idle candidacy and the completion flag.  Every law over runs is derived from that list
and never opens `reduce` again.
-/
import Homie.Engine.Status

namespace Homie

namespace StatusReducer

/-! ### Small steps -/

@[simp] theorem setStatus_status (new : SessionStatus) (x : Reduced) :
    (setStatus new x).1.status = new := by
  unfold setStatus
  split
  · rfl
  · rename_i h
    exact Decidable.not_not.mp h

@[simp] theorem setStatus_state (new : SessionStatus) (x : Reduced) :
    (setStatus new x).1.state = x.1.state := by
  unfold setStatus
  split <;> rfl

@[simp] theorem setStatus_authority (new : SessionStatus) (x : Reduced) :
    (setStatus new x).1.authority = x.1.authority := by
  unfold setStatus
  split <;> rfl

@[simp] theorem setStatus_timing (new : SessionStatus) (x : Reduced) :
    (setStatus new x).1.timing = x.1.timing := by
  unfold setStatus
  split <;> rfl

@[simp] theorem setStatus_turnCompleted (new : SessionStatus) (x : Reduced) :
    (setStatus new x).2.turnCompleted = x.2.turnCompleted := by
  unfold setStatus
  split <;> rfl

theorem setStatus_change {new : SessionStatus} {x : Reduced} (h : x.1.status ≠ new) :
    (setStatus new x).2.statusChange = some new := by
  unfold setStatus
  rw [if_pos h]

/-- The four fields that say how close a session is to going idle. -/
structure Candidacy where
  since : Option SystemTime
  confirms : Nat
  strong : Bool
  pending : Bool
deriving DecidableEq

def Candidacy.none : Candidacy := ⟨.none, 0, false, false⟩

def candidacy (r : StatusReducer) : Candidacy where
  since := r.state.idleCandidateSince
  confirms := r.state.idleConfirms
  strong := r.state.idleStrong
  pending := r.state.pendingTurnCompleted

/-- A strong idle signal opens the candidacy, or joins it. -/
def Candidacy.arm (c : Candidacy) (now : SystemTime) (turnInFlight : Bool) : Candidacy where
  since := some (c.since.getD now)
  confirms := c.confirms
  strong := true
  pending := turnInFlight

/-- An idle frame opens the candidacy, or is one more confirmation of it. -/
def Candidacy.confirm (c : Candidacy) (now : SystemTime) : Candidacy where
  since := some (c.since.getD now)
  confirms := if c.since.isNone then 1 else c.confirms + 1
  strong := c.strong
  pending := c.pending

/-- The candidacy has seen enough. -/
def Candidacy.Ripe (c : Candidacy) (timing : ReducerTiming) (now : SystemTime) : Prop :=
  (if c.strong then 1 else timing.idleConfirmations) ≤ c.confirms ∨
    (timing.idleConfirmCap ≤ (c.since.map (SystemTime.durationSince now)).getD 0 ∧ 1 ≤ c.confirms)

theorem armStrong_candidacy (now : SystemTime) (r : StatusReducer) :
    (armStrong now r).candidacy = r.candidacy.arm now r.state.turnInFlight := rfl

theorem countConfirmation_openCandidacy (now : SystemTime) (r : StatusReducer) :
    (countConfirmation (openCandidacy now r)).candidacy = r.candidacy.confirm now := by
  unfold openCandidacy
  cases h : r.state.idleCandidateSince with
  | none => simp [candidacy, Candidacy.confirm, countConfirmation, h]
  | some since => simp [candidacy, Candidacy.confirm, countConfirmation, h]

@[simp] theorem openCandidacy_status (now : SystemTime) (r : StatusReducer) :
    (openCandidacy now r).status = r.status := by
  unfold openCandidacy
  split <;> rfl

@[simp] theorem openCandidacy_timing (now : SystemTime) (r : StatusReducer) :
    (openCandidacy now r).timing = r.timing := by
  unfold openCandidacy
  split <;> rfl

theorem idleConfirmed_iff (now : SystemTime) (r : StatusReducer) :
    idleConfirmed now r = true ↔ r.candidacy.Ripe r.timing now := by
  unfold idleConfirmed
  rw [Bool.or_eq_true, decide_eq_true_eq, decide_eq_true_eq]
  exact Iff.rfl

/-! ### What a call is -/

inductive SignalClass where
  | work
  | needsInput
  | strongIdle
  | idleFrame
  | other
deriving DecidableEq, Repr

def classifyHook : ClaudeHook → SignalClass
  | .userPromptSubmit => .work
  | .preToolUse => .work
  | .permissionRequest _ _ => .needsInput
  | .notification notificationType _ =>
    if (notificationKind notificationType).isSome then .needsInput
    else if notificationType = some "agent_completed" then .strongIdle
    else .other
  | .stop => .strongIdle
  | _ => .other

/-- A fresh frame the reducer remembers but does not act on yet. -/
def held (r : StatusReducer) (observation : ScreenObservation) (now : SystemTime) : Bool :=
  if r.state.screenBlockerActive then r.state.blockerMissScans + 1 < r.timing.blockerClearScans
  else graceHolds r observation now

def classifyScreen (r : StatusReducer) (observation : ScreenObservation) (now : SystemTime) :
    SignalClass :=
  if r.state.lastScreenSeq = some observation.contentSeq then .other
  else match observation.state with
    | .skip => .other
    | .blockedPermission => .needsInput
    | .blockedQuestion => .needsInput
    | .idle => .idleFrame
    | .working => if held r observation now then .other else .work

/-- A tick acts on a remembered working screen once the grace is over. -/
def tickWorks (r : StatusReducer) (now : SystemTime) : Bool :=
  graceOver now r && r.state.screenBelief == some .working

/-- What a signal is to an agent with a full status model. -/
def classifyFull (r : StatusReducer) (now : SystemTime) : StatusSignal → SignalClass
  | .claudeHook hook isSubagent => if isSubagent then .other else classifyHook hook
  | .codexTurnComplete => .strongIdle
  | .screen observation => classifyScreen r observation now
  | .tick => if tickWorks r now then .work else .other
  | _ => .other

/-- What a call is to the reducer it meets. -/
def classify (r : StatusReducer) : ReducerCall → SignalClass
  | .signal signal now =>
    if isExited r.status then .other
    else if r.authority = .processOnly then
      if signal = .ptyOutputActivity ∧ r.status = .starting then .work else .other
    else classifyFull r now signal
  | .finishStartupGrace _ => .other

/-! ### What a step can do -/

/-- Why a step took the session from working to idle. -/
inductive Cause (r : StatusReducer) (call : ReducerCall) : Bool → Prop where
  /-- A strong idle signal, with the screen already reading idle. -/
  | strong (h : classify r call = .strongIdle) : Cause r call r.state.turnInFlight
  /-- An idle frame that made the candidacy ripe. -/
  | frame {observation : ScreenObservation} {now : SystemTime}
      (hcall : call = .signal (.screen observation) now) (h : classify r call = .idleFrame)
      (ripe : (r.candidacy.confirm now).Ripe r.timing now) : Cause r call r.candidacy.pending
  /-- A tick, after a strong idle signal. -/
  | tick (h : classify r call = .other) (hstrong : r.candidacy.strong = true) :
      Cause r call r.candidacy.pending

/-- Everything a step can do to the status, the candidacy and the completion flag. -/
inductive Moves (r : StatusReducer) (call : ReducerCall) (x : Reduced) : Prop where
  | work (h : classify r call = .work) (status : x.1.status = .working)
      (candidacy : x.1.candidacy = .none) (completed : x.2.turnCompleted = false)
  /-- Outside `working`, nothing but work matters to a turn. -/
  | rest (h : classify r call ≠ .work) (before : r.status ≠ .working)
      (status : x.1.status ≠ .working) (completed : x.2.turnCompleted = false)
  | ask (h : classify r call = .needsInput) (before : r.status = .working)
      (status : isNeedsInput x.1.status = true) (completed : x.2.turnCompleted = false)
  /-- Exit, or too quiet for too long. -/
  | leave (h : classify r call = .other) (before : r.status = .working)
      (status : x.1.status = .unknown ∨ isExited x.1.status = true)
      (completed : x.2.turnCompleted = false)
  | stay (h : classify r call = .other) (before : r.status = .working)
      (status : x.1.status = .working) (candidacy : x.1.candidacy = r.candidacy)
      (change : x.2.statusChange = none) (completed : x.2.turnCompleted = false)
  | arm (now : SystemTime) (h : classify r call = .strongIdle) (before : r.status = .working)
      (status : x.1.status = .working)
      (candidacy : x.1.candidacy = r.candidacy.arm now r.state.turnInFlight)
      (change : x.2.statusChange = none) (completed : x.2.turnCompleted = false)
  | confirm {observation : ScreenObservation} {now : SystemTime}
      (hcall : call = .signal (.screen observation) now) (h : classify r call = .idleFrame)
      (before : r.status = .working) (status : x.1.status = .working)
      (candidacy : x.1.candidacy = r.candidacy.confirm now)
      (unripe : ¬ (r.candidacy.confirm now).Ripe r.timing now)
      (change : x.2.statusChange = none) (completed : x.2.turnCompleted = false)
  | commit {fire : Bool} (cause : Cause r call fire) (before : r.status = .working)
      (status : x.1.status = .idle) (change : x.2.statusChange = some .idle)
      (completed : x.2.turnCompleted = fire)

theorem goWorking_spec (now : SystemTime) (clear : Bool) (x : Reduced) :
    (goWorking now clear x).1.status = .working ∧ (goWorking now clear x).1.candidacy = .none ∧
      (goWorking now clear x).2.turnCompleted = x.2.turnCompleted := by
  unfold goWorking
  refine ⟨by simp, ?_, by simp⟩
  cases clear <;> simp [candidacy, cancelIdleCandidacy, Candidacy.none]

theorem commitIdle_spec (now : SystemTime) {x : Reduced} (h : x.1.status = .working)
    (hfalse : x.2.turnCompleted = false) :
    (commitIdle now x).1.status = .idle ∧ (commitIdle now x).2.statusChange = some .idle ∧
      (commitIdle now x).2.turnCompleted = x.1.state.pendingTurnCompleted := by
  have hne : x.1.status ≠ .idle := by rw [h]; decide
  unfold commitIdle
  refine ⟨by simp [cancelIdleCandidacy], ?_, ?_⟩
  · cases x.1.state.pendingTurnCompleted <;> simp [setStatus_change hne]
  · cases x.1.state.pendingTurnCompleted <;> simp [hfalse]

theorem askForInput_spec (detail : NeedsInputDetail) (x : Reduced) :
    (askForInput detail x).1.status = .needsInput detail.kind ∧
      (askForInput detail x).1.candidacy = .none ∧
      (askForInput detail x).2.turnCompleted = x.2.turnCompleted := by
  unfold askForInput
  refine ⟨by simp, ?_, by simp⟩
  simp [candidacy, cancelIdleCandidacy, Candidacy.none]

/-! ### One handler at a time -/

/-- A handler is entered with the reducer it got but for bookkeeping, and nothing reported. -/
structure Agrees (r : StatusReducer) (x : Reduced) : Prop where
  status : x.1.status = r.status
  candidacy : x.1.candidacy = r.candidacy
  turnInFlight : x.1.state.turnInFlight = r.state.turnInFlight
  timing : x.1.timing = r.timing
  outcome : x.2 = .default

section

variable {r : StatusReducer} {call : ReducerCall} {x : Reduced}

theorem agrees_self (r : StatusReducer) : Agrees r (r, .default) := ⟨rfl, rfl, rfl, rfl, rfl⟩

theorem Agrees.completed (h : Agrees r x) : x.2.turnCompleted = false := by
  rw [h.outcome]
  rfl

theorem Agrees.change (h : Agrees r x) : x.2.statusChange = none := by
  rw [h.outcome]
  rfl

theorem moves_of_agrees (h : Agrees r x) (hclass : classify r call = .other) : Moves r call x := by
  by_cases hw : r.status = .working
  · exact .stay hclass hw (h.status.trans hw) h.candidacy h.change h.completed
  · refine .rest (by rw [hclass]; decide) hw ?_ h.completed
    rw [h.status]
    exact hw

/-- Away from `working`, a signal that is not work may set any status but that. -/
theorem moves_setStatus (h : Agrees r x) (hclass : classify r call ≠ .work)
    (hw : r.status ≠ .working) {new : SessionStatus} (hnew : new ≠ .working) :
    Moves r call (setStatus new x) := by
  refine .rest hclass hw ?_ ?_
  · rw [setStatus_status]
    exact hnew
  · rw [setStatus_turnCompleted]
    exact h.completed

theorem moves_goWorking (hclass : classify r call = .work) (hdone : x.2.turnCompleted = false)
    (now : SystemTime) (clear : Bool) : Moves r call (goWorking now clear x) := by
  obtain ⟨hstatus, hcand, hcompleted⟩ := goWorking_spec now clear x
  exact .work hclass hstatus hcand (hcompleted.trans hdone)

theorem moves_askForInput (hclass : classify r call = .needsInput)
    (hdone : x.2.turnCompleted = false) (detail : NeedsInputDetail) :
    Moves r call (askForInput detail x) := by
  obtain ⟨hstatus, -, hcompleted⟩ := askForInput_spec detail x
  by_cases hw : r.status = .working
  · exact .ask hclass hw (by rw [hstatus]; rfl) (hcompleted.trans hdone)
  · exact .rest (by rw [hclass]; decide) hw (by rw [hstatus]; exact fun h => nomatch h)
      (hcompleted.trans hdone)

/-- A commit from `working`, for whatever cause. -/
theorem moves_commitIdle {fire : Bool} (cause : Cause r call fire) (hw : r.status = .working)
    (hwx : x.1.status = .working) (hdone : x.2.turnCompleted = false)
    (hfire : x.1.state.pendingTurnCompleted = fire) (now : SystemTime) :
    Moves r call (commitIdle now x) := by
  obtain ⟨hstatus, hchange, hcompleted⟩ := commitIdle_spec now hwx hdone
  exact .commit cause hw hstatus hchange (hcompleted.trans hfire)

theorem moves_handleStrongIdle (h : Agrees r x) (hclass : classify r call = .strongIdle)
    (now : SystemTime) : Moves r call (handleStrongIdle now x) := by
  have hnot : classify r call ≠ .work := by rw [hclass]; decide
  unfold handleStrongIdle
  by_cases hstart : x.1.status = .starting
  · rw [if_pos hstart]
    refine moves_setStatus h hnot ?_ (by decide)
    rw [← h.status, hstart]
    decide
  by_cases hw : x.1.status = .working
  · have hbefore : r.status = .working := h.status.symm.trans hw
    rw [if_neg hstart, if_neg (fun hne => hne hw)]
    split
    · exact moves_commitIdle (x := (countConfirmation (armStrong now x.1), x.2))
        (.strong hclass) hbefore hw h.completed h.turnInFlight now
    · refine .arm now hclass hbefore hw ?_ h.change h.completed
      exact (armStrong_candidacy now x.1).trans (by rw [h.candidacy, h.turnInFlight])
  · rw [if_neg hstart, if_pos hw]
    refine .rest hnot ?_ hw h.completed
    rw [← h.status]
    exact hw

theorem moves_confirmIdle {observation : ScreenObservation} {now : SystemTime} (h : Agrees r x)
    (hcall : call = .signal (.screen observation) now) (hclass : classify r call = .idleFrame)
    (hw : r.status = .working) : Moves r call (confirmIdle now x) := by
  have hwx : x.1.status = .working := h.status.trans hw
  have hcand : (countConfirmation (openCandidacy now x.1)).candidacy = r.candidacy.confirm now := by
    rw [countConfirmation_openCandidacy, h.candidacy]
  have hstatus : (countConfirmation (openCandidacy now x.1)).status = .working := by
    rw [← hwx]
    exact openCandidacy_status now x.1
  have htiming : (countConfirmation (openCandidacy now x.1)).timing = r.timing := by
    rw [← h.timing]
    exact openCandidacy_timing now x.1
  unfold confirmIdle
  rw [if_neg (fun hne => hne hwx)]
  dsimp only
  split
  · rename_i hripe
    rw [idleConfirmed_iff, hcand, htiming] at hripe
    exact moves_commitIdle (x := (countConfirmation (openCandidacy now x.1), x.2))
      (.frame hcall hclass hripe) hw hstatus h.completed (congrArg Candidacy.pending hcand) now
  · rename_i hripe
    rw [idleConfirmed_iff, hcand, htiming] at hripe
    exact .confirm hcall hclass hw hstatus hcand hripe h.change h.completed

theorem moves_handleNotification (tools : TextTools) {notificationType : Option String}
    (h : Agrees r x)
    (hclass : classify r call =
      if (notificationKind notificationType).isSome then .needsInput
      else if notificationType = some "agent_completed" then .strongIdle else .other)
    (message : Option String) (now : SystemTime) :
    Moves r call (handleNotification tools notificationType message now x) := by
  unfold handleNotification
  cases hkind : notificationKind notificationType with
  | some found =>
    rw [hkind] at hclass
    exact moves_askForInput hclass h.completed _
  | none =>
    rw [hkind] at hclass
    dsimp only
    by_cases hdone : notificationType = some "agent_completed"
    · rw [if_pos hdone] at hclass ⊢
      exact moves_handleStrongIdle h hclass now
    · rw [if_neg hdone] at hclass ⊢
      exact moves_of_agrees h hclass

theorem moves_handleMainHook (tools : TextTools) {hook : ClaudeHook} (h : Agrees r x)
    (hclass : classify r call = classifyHook hook) (now : SystemTime) :
    Moves r call (handleMainHook tools hook now x) := by
  cases hook with
  | sessionStart =>
    unfold handleMainHook
    by_cases hstart : x.1.status = .starting
    · rw [if_pos hstart]
      refine moves_setStatus h (by rw [hclass]; decide) ?_ (by decide)
      rw [← h.status, hstart]
      decide
    · rw [if_neg hstart]
      exact moves_of_agrees h hclass
  | userPromptSubmit => exact moves_goWorking hclass h.completed now true
  | preToolUse => exact moves_goWorking hclass h.completed now true
  | permissionRequest toolName inputSummary => exact moves_askForInput hclass h.completed _
  | notification notificationType message =>
    exact moves_handleNotification tools h hclass message now
  | stop => exact moves_handleStrongIdle h hclass now
  | subagentStart id => exact moves_of_agrees h hclass
  | subagentStop id => exact moves_of_agrees h hclass
  | sessionEnd => exact moves_of_agrees h hclass

theorem moves_handleClaudeHook (tools : TextTools) {hook : ClaudeHook} {isSubagent : Bool}
    (h : Agrees r x)
    (hclass : classify r call = if isSubagent then .other else classifyHook hook)
    (now : SystemTime) : Moves r call (handleClaudeHook tools hook isSubagent now x) := by
  have hmain : ∀ y : Reduced, Agrees r y → Moves r call
      (if isSubagent then y else handleMainHook tools hook now y) := by
    intro y hy
    cases isSubagent with
    | true => exact moves_of_agrees hy hclass
    | false => exact moves_handleMainHook tools hy hclass now
  have hkept : ∀ hook', hook = hook' → classifyHook hook' = .other → classify r call = .other := by
    intro hook' heq hother
    rw [hclass, heq, hother]
    cases isSubagent <;> rfl
  unfold handleClaudeHook
  cases hook with
  | subagentStart id => exact moves_of_agrees ⟨h.1, h.2, h.3, h.4, h.5⟩ (hkept _ rfl rfl)
  | subagentStop id => exact moves_of_agrees ⟨h.1, h.2, h.3, h.4, h.5⟩ (hkept _ rfl rfl)
  | sessionStart => exact hmain _ ⟨h.1, h.2, h.3, h.4, h.5⟩
  | userPromptSubmit => exact hmain _ ⟨h.1, h.2, h.3, h.4, h.5⟩
  | preToolUse => exact hmain _ ⟨h.1, h.2, h.3, h.4, h.5⟩
  | permissionRequest toolName inputSummary => exact hmain _ ⟨h.1, h.2, h.3, h.4, h.5⟩
  | notification notificationType message => exact hmain _ ⟨h.1, h.2, h.3, h.4, h.5⟩
  | stop => exact hmain _ ⟨h.1, h.2, h.3, h.4, h.5⟩
  | sessionEnd => exact hmain _ ⟨h.1, h.2, h.3, h.4, h.5⟩

theorem moves_applyNonBlockerScreen {observation : ScreenObservation} {now : SystemTime}
    (h : Agrees r x) (hcall : call = .signal (.screen observation) now)
    (hclass : observation.state = .working ∧ classify r call = .work ∨
      observation.state = .idle ∧ classify r call = .idleFrame) (cleared : Bool) :
    Moves r call (applyNonBlockerScreen observation now cleared x) := by
  unfold applyNonBlockerScreen
  rcases hclass with ⟨hstate, hclass⟩ | ⟨hstate, hclass⟩
  · rw [hstate]
    exact moves_goWorking hclass h.completed now false
  · rw [hstate]
    dsimp only
    have hnot : classify r call ≠ .work := by rw [hclass]; decide
    by_cases hw : x.1.status = .working
    · rw [if_pos hw]
      exact moves_confirmIdle h hcall hclass (h.status.symm.trans hw)
    have hbefore : r.status ≠ .working := by rw [← h.status]; exact hw
    rw [if_neg hw]
    split
    · exact moves_setStatus h hnot hbefore (by decide)
    · split
      · refine .rest hnot hbefore ?_ ?_
        · rw [setStatus_status]
          decide
        · rw [setStatus_turnCompleted]
          exact h.completed
      · exact .rest hnot hbefore hw h.completed

/-- A frame that arrives while working meets no blocker: the blocker would be the status. -/
def BlockerShown (r : StatusReducer) : Prop :=
  r.state.screenBlockerActive = true → isNeedsInput r.status = true ∨ isExited r.status = true

theorem BlockerShown.not_working (hb : BlockerShown r) (h : r.state.screenBlockerActive = true) :
    r.status ≠ .working := by
  intro hw
  rcases hb h with h | h
  · rw [hw] at h
    cases h
  · rw [hw] at h
    cases h

/-- A frame that is held is remembered and moves nothing, whatever it shows. -/
theorem moves_held {observation : ScreenObservation} {now : SystemTime} (h : Agrees r x)
    (hb : BlockerShown r) (hheld : held r observation now = true)
    (hclass : classify r call ≠ .work) : Moves r call x := by
  have hbefore : r.status ≠ .working := by
    unfold held at hheld
    split at hheld
    · rename_i hactive
      exact hb.not_working hactive
    · intro hw
      rw [graceHolds, hw] at hheld
      simp at hheld
  exact .rest hclass hbefore (by rw [h.status]; exact hbefore) h.completed

theorem moves_handleNonBlocker {observation : ScreenObservation} {now : SystemTime} (h : Agrees r x)
    (hheld : held x.1 observation now = held r observation now) (hb : BlockerShown r)
    (hcall : call = .signal (.screen observation) now)
    (hclass : observation.state = .working ∧
        classify r call = (if held r observation now then .other else .work) ∨
      observation.state = .idle ∧ classify r call = .idleFrame) :
    Moves r call (handleNonBlocker observation now x) := by
  have hnot : held r observation now = true → classify r call ≠ .work := by
    intro hh
    rcases hclass with ⟨-, hclass⟩ | ⟨-, hclass⟩
    · rw [hclass, if_pos hh]
      decide
    · rw [hclass]
      decide
  have hact : ¬ held r observation now = true → observation.state = .working ∧
      classify r call = .work ∨ observation.state = .idle ∧ classify r call = .idleFrame := by
    intro hh
    rcases hclass with ⟨hstate, hclass⟩ | hclass
    · rw [if_neg hh] at hclass
      exact Or.inl ⟨hstate, hclass⟩
    · exact Or.inr hclass
  rw [← hheld] at hact hnot
  unfold handleNonBlocker
  split
  · rename_i hactive
    have hdef : held x.1 observation now
        = decide (x.1.state.blockerMissScans + 1 < x.1.timing.blockerClearScans) := by
      rw [held, if_pos hactive]
    split
    · rename_i hmiss
      have hh : held x.1 observation now = true := by rw [hdef]; exact decide_eq_true hmiss
      exact moves_held ⟨h.1, h.2, h.3, h.4, h.5⟩ hb (hheld ▸ hh) (hnot hh)
    · rename_i hmiss
      have hh : ¬ held x.1 observation now = true := by rw [hdef]; simpa using hmiss
      exact moves_applyNonBlockerScreen
        (x := ({ x.1 with state.screenBlockerActive := false, state.blockerMissScans := 0 }, x.2))
        ⟨h.1, h.2, h.3, h.4, h.5⟩ hcall (hact hh) true
  · rename_i hactive
    have hdef : held x.1 observation now = graceHolds x.1 observation now := by
      rw [held, if_neg hactive]
    split
    · rename_i hgrace
      exact moves_held h hb (hheld ▸ hdef.trans hgrace) (hnot (hdef.trans hgrace))
    · rename_i hgrace
      exact moves_applyNonBlockerScreen h hcall (hact (by rw [hdef]; exact hgrace)) false

theorem moves_handleScreen (tools : TextTools) (observation : ScreenObservation)
    (now : SystemTime) (hb : BlockerShown r)
    (hclass : classify r (.signal (.screen observation) now) = classifyScreen r observation now) :
    Moves r (.signal (.screen observation) now)
      (handleScreen tools observation now (r, .default)) := by
  unfold classifyScreen at hclass
  unfold handleScreen
  dsimp only
  by_cases hskip : observation.state = .skip
  · rw [if_pos hskip]
    refine moves_of_agrees ⟨rfl, rfl, rfl, rfl, rfl⟩ ?_
    rw [hclass, hskip]
    split <;> rfl
  rw [if_neg hskip]
  by_cases hseq : r.state.lastScreenSeq = some observation.contentSeq
  · rw [if_pos hseq] at hclass
    rw [if_pos hseq]
    exact moves_of_agrees ⟨rfl, rfl, rfl, rfl, rfl⟩ hclass
  rw [if_neg hseq] at hclass
  rw [if_neg hseq]
  cases hstate : observation.state with
  | skip => exact absurd hstate hskip
  | blockedPermission =>
    rw [hstate] at hclass
    exact moves_askForInput hclass rfl _
  | blockedQuestion =>
    rw [hstate] at hclass
    exact moves_askForInput hclass rfl _
  | idle =>
    rw [hstate] at hclass
    exact moves_handleNonBlocker (r := r) (x := (rememberFrame observation now r, .default))
      ⟨rfl, rfl, rfl, rfl, rfl⟩ rfl hb rfl (Or.inr ⟨hstate, hclass⟩)
  | working =>
    rw [hstate] at hclass
    exact moves_handleNonBlocker (r := r) (x := (rememberFrame observation now r, .default))
      ⟨rfl, rfl, rfl, rfl, rfl⟩ rfl hb rfl (Or.inl ⟨hstate, hclass⟩)

theorem moves_tickTimers (now : SystemTime) (hclass : classify r call = .other)
    (hw : r.status = .working) : Moves r call (
      if r.timing.stalenessTimeout < SystemTime.durationSince now r.state.lastSignalAt then
        setStatus .unknown (r, .default)
      else if r.state.idleStrong = true ∧ r.state.idleCandidateSince.isSome then
        commitIdle now (countConfirmation r, .default)
      else (r, .default)) := by
  split
  · refine .leave hclass hw (Or.inl ?_) ?_
    · rw [setStatus_status]
    · rw [setStatus_turnCompleted]
      rfl
  · split
    · rename_i hstrong
      exact moves_commitIdle (x := (countConfirmation r, .default)) (.tick hclass hstrong.1) hw hw
        rfl rfl now
    · exact moves_of_agrees (agrees_self r) hclass

/-- A belief that is not revisited as working leaves the session where it was, or idle. -/
theorem revisitBelief_cases (now : SystemTime) (h : tickWorks x.1 now = false) :
    revisitBelief now x = x ∨
      x.1.status = .starting ∧ revisitBelief now x = setStatus .idle x := by
  unfold tickWorks at h
  unfold revisitBelief
  cases hover : graceOver now x.1 with
  | false => exact Or.inl rfl
  | true =>
    rw [hover] at h
    have hstart : x.1.status = .starting := by
      simp [graceOver] at hover
      exact hover.1.1
    cases hbelief : x.1.state.screenBelief with
    | none => exact Or.inl rfl
    | some belief =>
      rw [hbelief] at h
      cases belief with
      | working => cases h
      | idle => exact Or.inr ⟨hstart, rfl⟩
      | blockedPermission => exact Or.inl rfl
      | blockedQuestion => exact Or.inl rfl
      | skip => exact Or.inl rfl

theorem revisitBelief_works (now : SystemTime) (h : tickWorks x.1 now = true) :
    revisitBelief now x = goWorking now false x := by
  unfold tickWorks at h
  rw [Bool.and_eq_true] at h
  unfold revisitBelief
  rw [if_pos h.1, eq_of_beq h.2]

theorem handleTick_of_ne (now : SystemTime) (h : (revisitBelief now x).1.status ≠ .working) :
    handleTick now x = revisitBelief now x := by
  unfold handleTick
  dsimp only
  rw [if_neg (fun hc => h hc.1), if_neg (fun hc => h hc.1)]

/-- Just entered, `working` is neither stale nor a candidate for idle. -/
theorem handleTick_of_goWorking (now : SystemTime)
    (h : revisitBelief now x = goWorking now false x) : handleTick now x = goWorking now false x := by
  have hsignal : (goWorking now false x).1.state.lastSignalAt = now := by simp [goWorking]
  have hstrong : (goWorking now false x).1.state.idleStrong = false := by
    simp [goWorking, cancelIdleCandidacy]
  have hquiet : SystemTime.durationSince now now = 0 := by simp [SystemTime.durationSince]
  unfold handleTick
  dsimp only
  rw [h, if_neg, if_neg]
  · rw [hstrong]
    exact fun hc => Bool.false_ne_true hc.2.1
  · rw [hsignal, hquiet]
    exact fun hc => Nat.not_lt_zero _ hc.2

theorem moves_handleTick (now : SystemTime)
    (hclass : classify r (.signal .tick now) = if tickWorks r now then .work else .other) :
    Moves r (.signal .tick now) (handleTick now (r, .default)) := by
  cases hworks : tickWorks r now with
  | true =>
    rw [hworks] at hclass
    rw [handleTick_of_goWorking now (revisitBelief_works now hworks)]
    exact moves_goWorking hclass rfl now false
  | false =>
    rw [hworks] at hclass
    rcases revisitBelief_cases (x := (r, .default)) now hworks with hsame | ⟨hstart, hidle⟩
    · by_cases hw : r.status = .working
      · have htimers := moves_tickTimers now hclass hw
        unfold handleTick
        rw [hsame]
        simpa only [hw, true_and] using htimers
      · rw [handleTick_of_ne now (by rw [hsame]; exact hw), hsame]
        exact moves_of_agrees (agrees_self r) hclass
    · have hne : r.status ≠ .working := by rw [hstart]; decide
      rw [handleTick_of_ne now (by rw [hidle, setStatus_status]; decide), hidle]
      have hnot : classify r (.signal .tick now) ≠ .work := by rw [hclass]; decide
      exact moves_setStatus (agrees_self r) hnot hne (by decide)

theorem moves_reduceFull (tools : TextTools) (signal : StatusSignal) (now : SystemTime)
    (hb : BlockerShown r) (hclass : classify r (.signal signal now) = classifyFull r now signal) :
    Moves r (.signal signal now) (reduceFull tools signal now (r, .default)) := by
  cases signal with
  | claudeHook hook isSubagent =>
    exact moves_handleClaudeHook tools (agrees_self r) hclass now
  | codexTurnComplete => exact moves_handleStrongIdle (r := r) ⟨rfl, rfl, rfl, rfl, rfl⟩ hclass now
  | screen observation => exact moves_handleScreen tools observation now hb hclass
  | ptyOutputActivity => exact moves_of_agrees ⟨rfl, rfl, rfl, rfl, rfl⟩ hclass
  | userKeystroke =>
    unfold reduceFull
    dsimp only
    split
    · exact moves_of_agrees ⟨rfl, rfl, rfl, rfl, rfl⟩ hclass
    · exact moves_of_agrees ⟨rfl, rfl, rfl, rfl, rfl⟩ hclass
  | processExit code signal => exact moves_of_agrees ⟨rfl, rfl, rfl, rfl, rfl⟩ hclass
  | tick => exact moves_handleTick now hclass

theorem moves_reduceProcessOnly (signal : StatusSignal) (now : SystemTime)
    (hclass : classify r (.signal signal now)
      = if signal = .ptyOutputActivity ∧ r.status = .starting then .work else .other)
    (hnone : r.candidacy = .none) :
    Moves r (.signal signal now) (reduceProcessOnly signal now (r, .default)) := by
  cases signal with
  | ptyOutputActivity =>
    unfold reduceProcessOnly
    by_cases hstart : r.status = .starting
    · rw [if_pos ⟨rfl, hstart⟩] at hclass
      dsimp only
      rw [if_pos hstart]
      refine .work hclass ?_ ?_ ?_
      · exact setStatus_status _ _
      · simp only [candidacy, setStatus_state]
        exact hnone
      · exact setStatus_turnCompleted _ _
    · rw [if_neg (fun hc => hstart hc.2)] at hclass
      dsimp only
      rw [if_neg hstart]
      exact moves_of_agrees ⟨rfl, rfl, rfl, rfl, rfl⟩ hclass
  | claudeHook hook isSubagent => exact moves_of_agrees (agrees_self r) hclass
  | codexTurnComplete => exact moves_of_agrees (agrees_self r) hclass
  | screen observation => exact moves_of_agrees (agrees_self r) hclass
  | userKeystroke => exact moves_of_agrees (agrees_self r) hclass
  | processExit code signal => exact moves_of_agrees (agrees_self r) hclass
  | tick => exact moves_of_agrees (agrees_self r) hclass

/--
How a step finds its handler.  A statement about every call is a statement about a dead
session, an exit, an agent without a status model and an agent with one.
-/
theorem step_rule (tools : TextTools) {P : ReducerCall → Reduced → Prop}
    (grace : ∀ now, P (.finishStartupGrace now) (r.finishStartupGrace now, .default))
    (dead : isExited r.status = true → ∀ signal now, P (.signal signal now) (r, .default))
    (exit : isExited r.status = false → ∀ code sig now, P (.signal (.processExit code sig) now)
      (setStatus (.exited (exitInfo code sig)) (r, .default)))
    (processOnly : isExited r.status = false → r.authority = .processOnly → ∀ signal now,
      P (.signal signal now) (reduceProcessOnly signal now (r, .default)))
    (full : isExited r.status = false → r.authority ≠ .processOnly → ∀ signal now,
      P (.signal signal now) (reduceFull tools signal now (r, .default))) (call : ReducerCall) :
    P call (r.step tools call) := by
  cases call with
  | finishStartupGrace now => exact grace now
  | signal signal now =>
    show P _ (r.reduce tools signal now)
    unfold reduce
    cases hexit : isExited r.status with
    | true => exact dead hexit signal now
    | false =>
      have hlive : P (.signal signal now)
          (if r.authority = .processOnly then reduceProcessOnly signal now (r, .default)
            else reduceFull tools signal now (r, .default)) := by
        split
        · rename_i hproc
          exact processOnly hexit hproc signal now
        · rename_i hproc
          exact full hexit hproc signal now
      cases signal with
      | processExit code sig => exact exit hexit code sig now
      | claudeHook hook isSubagent => exact hlive
      | codexTurnComplete => exact hlive
      | screen observation => exact hlive
      | ptyOutputActivity => exact hlive
      | userKeystroke => exact hlive
      | tick => exact hlive

theorem moves_processExit (code sig : Option Int32) (now : SystemTime) :
    Moves r (.signal (.processExit code sig) now)
      (setStatus (.exited (exitInfo code sig)) (r, .default)) := by
  have hclass : classify r (.signal (.processExit code sig) now) = .other := by
    simp [classify, classifyFull]
  by_cases hw : r.status = .working
  · refine .leave hclass hw (Or.inr ?_) ?_
    · rw [setStatus_status]
      rfl
    · exact setStatus_turnCompleted _ _
  · refine .rest (by rw [hclass]; decide) hw ?_ ?_
    · rw [setStatus_status]
      exact fun h => nomatch h
    · exact setStatus_turnCompleted _ _

/-- What every reachable reducer keeps, and `step_moves` needs. -/
structure Sound (r : StatusReducer) : Prop where
  blocker : BlockerShown r
  /-- An agent without a status model never opens a candidacy. -/
  processOnly : r.authority = .processOnly → r.candidacy = .none

/-- Every call does one of the things `Moves` lists. -/
theorem step_moves (tools : TextTools) (hsound : Sound r) (call : ReducerCall) :
    Moves r call (r.step tools call) := by
  refine step_rule tools ?_ ?_ ?_ ?_ ?_ call
  · intro now
    exact moves_of_agrees ⟨rfl, rfl, rfl, rfl, rfl⟩ rfl
  · intro hexit signal now
    refine moves_of_agrees (agrees_self r) ?_
    rw [classify, if_pos hexit]
  · intro _ code sig now
    exact moves_processExit code sig now
  · intro hexit hproc signal now
    refine moves_reduceProcessOnly signal now ?_ (hsound.processOnly hproc)
    rw [classify, if_neg (by rw [hexit]; exact Bool.false_ne_true), if_pos hproc]
  · intro hexit hproc signal now
    refine moves_reduceFull tools signal now hsound.blocker ?_
    rw [classify, if_neg (by rw [hexit]; exact Bool.false_ne_true), if_neg hproc]

end

end StatusReducer

end Homie
