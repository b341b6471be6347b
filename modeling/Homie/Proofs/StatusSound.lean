/-
What every call on a reducer leaves alone.

The authority and the timing never change; the last content sequence changes only when
a fresh frame arrives; and while a blocker is on the screen the status says so.  These
are the facts the laws over runs take for granted.
-/
import Homie.Proofs.StatusStep

namespace Homie

namespace StatusReducer

/-! ### Frame -/

/-- `y` has the configuration of `x`, and the last sequence number it saw. -/
structure Kept (x y : Reduced) : Prop where
  authority : y.1.authority = x.1.authority
  timing : y.1.timing = x.1.timing
  seq : y.1.state.lastScreenSeq = x.1.state.lastScreenSeq

theorem Kept.refl (x : Reduced) : Kept x x := ⟨rfl, rfl, rfl⟩

theorem Kept.after {x y z : Reduced} (h' : Kept y z) (h : Kept x y) : Kept x z :=
  ⟨h'.authority.trans h.authority, h'.timing.trans h.timing, h'.seq.trans h.seq⟩

theorem Kept.ite {x y z : Reduced} {c : Prop} [Decidable c] (hy : Kept x y) (hz : Kept x z) :
    Kept x (if c then y else z) := by
  split
  · exact hy
  · exact hz

theorem kept_setStatus (new : SessionStatus) (x : Reduced) : Kept x (setStatus new x) := by
  refine ⟨setStatus_authority _ _, setStatus_timing _ _, ?_⟩
  rw [setStatus_state]

theorem kept_goWorking (now : SystemTime) (clear : Bool) (x : Reduced) :
    Kept x (goWorking now clear x) := by
  unfold goWorking
  cases clear with
  | true => exact (kept_setStatus _ _).after ⟨rfl, rfl, rfl⟩
  | false => exact (kept_setStatus _ _).after ⟨rfl, rfl, rfl⟩

theorem kept_commitIdle (now : SystemTime) (x : Reduced) : Kept x (commitIdle now x) := by
  have h := kept_setStatus .idle x
  exact ⟨h.authority, h.timing, h.seq⟩

theorem kept_askForInput (detail : NeedsInputDetail) (x : Reduced) :
    Kept x (askForInput detail x) :=
  (kept_setStatus _ _).after ⟨rfl, rfl, rfl⟩

theorem kept_handleStrongIdle (now : SystemTime) (x : Reduced) :
    Kept x (handleStrongIdle now x) := by
  unfold handleStrongIdle
  refine (kept_setStatus _ _).ite (Kept.ite (Kept.refl x) (Kept.ite ?_ ⟨rfl, rfl, rfl⟩))
  exact (kept_commitIdle _ _).after ⟨rfl, rfl, rfl⟩

theorem kept_openCandidacy (now : SystemTime) (x : Reduced) :
    Kept x (countConfirmation (openCandidacy now x.1), x.2) := by
  unfold openCandidacy
  split
  · exact ⟨rfl, rfl, rfl⟩
  · exact ⟨rfl, rfl, rfl⟩

theorem kept_confirmIdle (now : SystemTime) (x : Reduced) : Kept x (confirmIdle now x) := by
  unfold confirmIdle
  refine Kept.ite (Kept.refl x) (Kept.ite ?_ (kept_openCandidacy now x))
  exact (kept_commitIdle _ _).after (kept_openCandidacy now x)

theorem kept_handleMainHook (tools : TextTools) (hook : ClaudeHook) (now : SystemTime)
    (x : Reduced) : Kept x (handleMainHook tools hook now x) := by
  cases hook with
  | sessionStart => exact (kept_setStatus _ _).ite (Kept.refl x)
  | userPromptSubmit => exact (kept_goWorking now true _).after ⟨rfl, rfl, rfl⟩
  | preToolUse => exact kept_goWorking now true x
  | permissionRequest toolName inputSummary => exact kept_askForInput _ x
  | notification notificationType message =>
    show Kept x (handleNotification tools notificationType message now x)
    unfold handleNotification
    split
    · exact kept_askForInput _ x
    · exact (kept_handleStrongIdle now x).ite (Kept.refl x)
  | stop => exact kept_handleStrongIdle now x
  | subagentStart id => exact Kept.refl x
  | subagentStop id => exact Kept.refl x
  | sessionEnd => exact Kept.refl x

theorem kept_handleClaudeHook (tools : TextTools) (hook : ClaudeHook) (isSubagent : Bool)
    (now : SystemTime) (x : Reduced) : Kept x (handleClaudeHook tools hook isSubagent now x) := by
  have hmain : ∀ y : Reduced, Kept x y →
      Kept x (if isSubagent then y else handleMainHook tools hook now y) :=
    fun y hy => hy.ite ((kept_handleMainHook tools hook now y).after hy)
  unfold handleClaudeHook
  split
  · exact ⟨rfl, rfl, rfl⟩
  · exact ⟨rfl, rfl, rfl⟩
  · exact hmain _ ⟨rfl, rfl, rfl⟩

theorem kept_applyNonBlockerScreen (observation : ScreenObservation) (now : SystemTime)
    (cleared : Bool) (x : Reduced) :
    Kept x (applyNonBlockerScreen observation now cleared x) := by
  unfold applyNonBlockerScreen
  split
  · exact kept_goWorking now false x
  · refine (kept_confirmIdle now x).ite ((kept_setStatus _ _).ite ?_)
    split
    · exact (kept_setStatus _ _).after ⟨rfl, rfl, rfl⟩
    · exact Kept.refl x
  · exact Kept.refl x
  · exact Kept.refl x
  · exact Kept.refl x

theorem kept_handleNonBlocker (observation : ScreenObservation) (now : SystemTime) (x : Reduced) :
    Kept x (handleNonBlocker observation now x) := by
  unfold handleNonBlocker
  refine Kept.ite (Kept.ite ⟨rfl, rfl, rfl⟩ ?_) (Kept.ite (Kept.refl x) ?_)
  · exact (kept_applyNonBlockerScreen observation now true _).after ⟨rfl, rfl, rfl⟩
  · exact kept_applyNonBlockerScreen observation now false x

theorem kept_handleTick (now : SystemTime) (x : Reduced) : Kept x (handleTick now x) := by
  have hrevisit : Kept x (revisitBelief now x) := by
    unfold revisitBelief
    refine Kept.ite ?_ (Kept.refl x)
    split
    · exact kept_goWorking now false x
    · exact kept_setStatus _ _
    · exact Kept.refl x
  unfold handleTick
  refine Kept.ite ((kept_setStatus _ _).after hrevisit) (Kept.ite ?_ hrevisit)
  exact (kept_commitIdle now _).after ⟨hrevisit.authority, hrevisit.timing, hrevisit.seq⟩

/-- A frame the reducer has not just seen. -/
def freshFrame (r : StatusReducer) : ReducerCall → Option UInt64
  | .signal (.screen observation) _ =>
    if isExited r.status ∨ r.authority = .processOnly ∨ observation.state = .skip
      ∨ r.state.lastScreenSeq = some observation.contentSeq then none
    else some observation.contentSeq
  | _ => none

theorem kept_reduceProcessOnly (signal : StatusSignal) (now : SystemTime) (x : Reduced) :
    Kept x (reduceProcessOnly signal now x) := by
  unfold reduceProcessOnly
  split
  · dsimp only
    split
    · have h := kept_setStatus .working ({ x.1 with state.turnInFlight := true }, x.2)
      exact ⟨h.authority, h.timing, h.seq⟩
    · exact ⟨rfl, rfl, rfl⟩
  · exact Kept.refl x

/-- The configuration is the caller's; the last sequence number is the last fresh frame's. -/
def SeesFrame (r : StatusReducer) (call : ReducerCall) (x : Reduced) : Prop :=
  x.1.authority = r.authority ∧ x.1.timing = r.timing ∧
    x.1.state.lastScreenSeq = (freshFrame r call).or r.state.lastScreenSeq

theorem seesFrame_of_kept {r : StatusReducer} {call : ReducerCall} {x : Reduced}
    (hfresh : freshFrame r call = none) (h : Kept (r, .default) x) : SeesFrame r call x := by
  unfold SeesFrame
  rw [hfresh]
  exact ⟨h.authority, h.timing, h.seq⟩

theorem seesFrame_handleScreen (tools : TextTools) {r : StatusReducer}
    (observation : ScreenObservation) (now : SystemTime) (hexit : isExited r.status = false)
    (hproc : r.authority ≠ .processOnly) :
    SeesFrame r (.signal (.screen observation) now)
      (handleScreen tools observation now (r, .default)) := by
  unfold handleScreen
  by_cases hskip : observation.state = .skip
  · rw [if_pos hskip]
    exact seesFrame_of_kept (by simp [freshFrame, hskip]) ⟨rfl, rfl, rfl⟩
  rw [if_neg hskip]
  by_cases hseq : r.state.lastScreenSeq = some observation.contentSeq
  · rw [if_pos hseq]
    exact seesFrame_of_kept (by simp [freshFrame, hseq]) ⟨rfl, rfl, rfl⟩
  rw [if_neg hseq]
  have hfresh : freshFrame r (.signal (.screen observation) now) = some observation.contentSeq := by
    simp [freshFrame, hexit, hproc, hskip, hseq]
  have hremember : ∀ {x y : Reduced}, x.1.authority = r.authority → x.1.timing = r.timing →
      x.1.state.lastScreenSeq = some observation.contentSeq → Kept x y →
      SeesFrame r (.signal (.screen observation) now) y := by
    intro x y hauth htiming hlast h
    refine ⟨h.authority.trans hauth, h.timing.trans htiming, ?_⟩
    rw [hfresh]
    exact h.seq.trans hlast
  dsimp only
  split
  · exact hremember rfl rfl rfl (kept_askForInput _ _)
  · exact hremember rfl rfl rfl (kept_handleNonBlocker observation now _)

/-- A step keeps the configuration, and the last sequence number unless a frame is fresh. -/
theorem step_seesFrame (tools : TextTools) (r : StatusReducer) (call : ReducerCall) :
    SeesFrame r call (r.step tools call) := by
  refine step_rule tools ?_ ?_ ?_ ?_ ?_ call
  · intro now
    exact seesFrame_of_kept rfl ⟨rfl, rfl, rfl⟩
  · intro hexit signal now
    refine seesFrame_of_kept ?_ (Kept.refl _)
    cases signal <;> simp [freshFrame, hexit]
  · intro _ code sig now
    exact seesFrame_of_kept rfl (kept_setStatus _ _)
  · intro _ hproc signal now
    refine seesFrame_of_kept ?_ (kept_reduceProcessOnly signal now _)
    cases signal <;> simp [freshFrame, hproc]
  · intro hexit hproc signal now
    cases signal with
    | screen observation => exact seesFrame_handleScreen tools observation now hexit hproc
    | claudeHook hook isSubagent =>
      exact seesFrame_of_kept rfl (kept_handleClaudeHook tools hook isSubagent now _)
    | codexTurnComplete =>
      exact seesFrame_of_kept rfl ((kept_handleStrongIdle now _).after ⟨rfl, rfl, rfl⟩)
    | ptyOutputActivity => exact seesFrame_of_kept rfl ⟨rfl, rfl, rfl⟩
    | userKeystroke =>
      refine seesFrame_of_kept rfl ?_
      unfold reduceFull
      exact Kept.ite ⟨rfl, rfl, rfl⟩ ⟨rfl, rfl, rfl⟩
    | processExit code sig => exact seesFrame_of_kept rfl (Kept.refl _)
    | tick => exact seesFrame_of_kept rfl (kept_handleTick now _)

/-! ### A blocker on the screen is the status -/

section

variable {x : Reduced}

theorem blockerShown_of_off {r : StatusReducer} (h : r.state.screenBlockerActive = false) :
    BlockerShown r := by
  intro hactive
  rw [h] at hactive
  cases hactive

/-- Where the status is neither a question nor an end, no blocker is active. -/
theorem BlockerShown.off {r : StatusReducer} (h : BlockerShown r)
    (hask : isNeedsInput r.status = false) (hexit : isExited r.status = false) :
    r.state.screenBlockerActive = false := by
  cases hactive : r.state.screenBlockerActive with
  | false => rfl
  | true =>
    rcases h hactive with hs | hs
    · rw [hask] at hs
      cases hs
    · rw [hexit] at hs
      cases hs

theorem BlockerShown.off_of {r : StatusReducer} (h : BlockerShown r) {status : SessionStatus}
    (hs : r.status = status) (hask : isNeedsInput status = false)
    (hexit : isExited status = false) : r.state.screenBlockerActive = false :=
  h.off (by rw [hs]; exact hask) (by rw [hs]; exact hexit)

@[simp] theorem commitIdle_blocker (now : SystemTime) (x : Reduced) :
    (commitIdle now x).1.state.screenBlockerActive = x.1.state.screenBlockerActive := by
  simp [commitIdle, cancelIdleCandidacy]

@[simp] theorem openCandidacy_blocker (now : SystemTime) (r : StatusReducer) :
    (openCandidacy now r).state.screenBlockerActive = r.state.screenBlockerActive := by
  unfold openCandidacy
  split <;> rfl

@[simp] theorem goWorking_blocker (now : SystemTime) (clear : Bool) (x : Reduced) :
    (goWorking now clear x).1.state.screenBlockerActive
      = (!clear && x.1.state.screenBlockerActive) := by
  cases clear <;> simp [goWorking, cancelIdleCandidacy]

theorem shown_setStatus (h : x.1.state.screenBlockerActive = false) (new : SessionStatus) :
    BlockerShown (setStatus new x).1 := by
  refine blockerShown_of_off ?_
  rw [setStatus_state]
  exact h

theorem shown_askForInput (detail : NeedsInputDetail) (x : Reduced) :
    BlockerShown (askForInput detail x).1 := by
  intro _
  refine Or.inl ?_
  rw [(askForInput_spec detail x).1]
  rfl

theorem shown_handleStrongIdle (h : BlockerShown x.1) (now : SystemTime) :
    BlockerShown (handleStrongIdle now x).1 := by
  unfold handleStrongIdle
  split
  · rename_i hs
    exact shown_setStatus (h.off_of hs rfl rfl) _
  · split
    · exact h
    · rename_i hs
      have hoff := h.off_of (Decidable.not_not.mp hs) rfl rfl
      split
      · refine blockerShown_of_off ?_
        rw [commitIdle_blocker]
        exact hoff
      · exact blockerShown_of_off hoff

theorem shown_confirmIdle (h : x.1.state.screenBlockerActive = false) (now : SystemTime) :
    BlockerShown (confirmIdle now x).1 := by
  have hopen : (countConfirmation (openCandidacy now x.1)).state.screenBlockerActive = false :=
    (openCandidacy_blocker now x.1).trans h
  unfold confirmIdle
  split
  · exact blockerShown_of_off h
  · dsimp only
    split
    · refine blockerShown_of_off ?_
      rw [commitIdle_blocker]
      exact hopen
    · exact blockerShown_of_off hopen

theorem shown_handleMainHook (tools : TextTools) (h : BlockerShown x.1) (hook : ClaudeHook)
    (now : SystemTime) : BlockerShown (handleMainHook tools hook now x).1 := by
  cases hook with
  | sessionStart =>
    unfold handleMainHook
    dsimp only
    split
    · rename_i hs
      exact shown_setStatus (h.off_of hs rfl rfl) _
    · exact h
  | userPromptSubmit => exact blockerShown_of_off (goWorking_blocker now true _)
  | preToolUse => exact blockerShown_of_off (goWorking_blocker now true _)
  | permissionRequest toolName inputSummary => exact shown_askForInput _ x
  | notification notificationType message =>
    show BlockerShown (handleNotification tools notificationType message now x).1
    unfold handleNotification
    split
    · exact shown_askForInput _ x
    · split
      · exact shown_handleStrongIdle h now
      · exact h
  | stop => exact shown_handleStrongIdle h now
  | subagentStart id => exact h
  | subagentStop id => exact h
  | sessionEnd => exact h

theorem shown_handleClaudeHook (tools : TextTools) (h : BlockerShown x.1) (hook : ClaudeHook)
    (isSubagent : Bool) (now : SystemTime) :
    BlockerShown (handleClaudeHook tools hook isSubagent now x).1 := by
  unfold handleClaudeHook
  split
  · exact h
  · exact h
  · split
    · exact h
    · exact shown_handleMainHook (x := ({ x.1 with state.lastSignalAt := now }, x.2)) tools h _ now

theorem shown_applyNonBlockerScreen (h : x.1.state.screenBlockerActive = false)
    (observation : ScreenObservation) (now : SystemTime) (cleared : Bool) :
    BlockerShown (applyNonBlockerScreen observation now cleared x).1 := by
  unfold applyNonBlockerScreen
  split
  · refine blockerShown_of_off ?_
    rw [goWorking_blocker, h]
    rfl
  · split
    · exact shown_confirmIdle h now
    · split
      · exact shown_setStatus h _
      · split
        · exact shown_setStatus (x := (cancelIdleCandidacy x.1, x.2)) h _
        · exact blockerShown_of_off h
  · exact blockerShown_of_off h
  · exact blockerShown_of_off h
  · exact blockerShown_of_off h

theorem shown_handleNonBlocker (h : BlockerShown x.1) (observation : ScreenObservation)
    (now : SystemTime) : BlockerShown (handleNonBlocker observation now x).1 := by
  unfold handleNonBlocker
  split
  · split
    · exact h
    · exact shown_applyNonBlockerScreen (by rfl) observation now true
  · rename_i hoff
    have hoff : x.1.state.screenBlockerActive = false := Bool.eq_false_iff.mpr hoff
    split
    · exact h
    · exact shown_applyNonBlockerScreen hoff observation now false

theorem shown_handleScreen (tools : TextTools) (h : BlockerShown x.1)
    (observation : ScreenObservation) (now : SystemTime) :
    BlockerShown (handleScreen tools observation now x).1 := by
  unfold handleScreen
  split
  · exact h
  · split
    · exact h
    · dsimp only
      split
      · exact shown_askForInput _ _
      · exact shown_handleNonBlocker (x := (rememberFrame observation now x.1, x.2)) h _ now

theorem shown_revisitBelief (h : BlockerShown x.1) (now : SystemTime) :
    BlockerShown (revisitBelief now x).1 := by
  unfold revisitBelief
  split
  · rename_i hover
    have hs : x.1.status = .starting := by
      simp [graceOver] at hover
      exact hover.1.1
    have hoff := h.off_of hs rfl rfl
    split
    · refine blockerShown_of_off ?_
      rw [goWorking_blocker, hoff]
      rfl
    · exact shown_setStatus hoff _
    · exact h
  · exact h

theorem shown_handleTick (h : BlockerShown x.1) (now : SystemTime) :
    BlockerShown (handleTick now x).1 := by
  have hr := shown_revisitBelief h now
  unfold handleTick
  dsimp only
  split
  · rename_i hs
    exact shown_setStatus (hr.off_of hs.1 rfl rfl) _
  · split
    · rename_i hs
      refine blockerShown_of_off ?_
      rw [commitIdle_blocker]
      exact hr.off_of hs.1 rfl rfl
    · exact hr

theorem shown_reduceProcessOnly (h : BlockerShown x.1) (signal : StatusSignal)
    (now : SystemTime) : BlockerShown (reduceProcessOnly signal now x).1 := by
  unfold reduceProcessOnly
  split
  · dsimp only
    split
    · rename_i hs
      refine blockerShown_of_off ?_
      simp only [setStatus_state]
      exact h.off_of hs rfl rfl
    · exact h
  · exact h

theorem shown_reduceFull (tools : TextTools) (h : BlockerShown x.1) (signal : StatusSignal)
    (now : SystemTime) : BlockerShown (reduceFull tools signal now x).1 := by
  cases signal with
  | processExit code sig => exact h
  | ptyOutputActivity => exact h
  | userKeystroke =>
    unfold reduceFull
    dsimp only
    split
    · exact h
    · exact h
  | claudeHook hook isSubagent => exact shown_handleClaudeHook tools h hook isSubagent now
  | codexTurnComplete =>
    exact shown_handleStrongIdle (x := ({ x.1 with state.lastSignalAt := now }, x.2)) h now
  | screen observation => exact shown_handleScreen tools h observation now
  | tick => exact shown_handleTick h now

theorem candidacy_reduceProcessOnly (signal : StatusSignal) (now : SystemTime) :
    (reduceProcessOnly signal now x).1.candidacy = x.1.candidacy := by
  unfold reduceProcessOnly
  split
  · dsimp only
    split
    · simp only [candidacy, setStatus_state]
    · rfl
  · rfl

end

/-! ### Every reachable reducer is sound -/

theorem sound_new (authority : Authority) (spawnedAt : SystemTime) (timing : ReducerTiming) :
    Sound ((new authority spawnedAt).withTiming timing) :=
  ⟨blockerShown_of_off rfl, fun _ => rfl⟩

theorem Sound.step {r : StatusReducer} (h : Sound r) (tools : TextTools) (call : ReducerCall) :
    Sound (r.step tools call).1 := by
  refine ⟨?_, ?_⟩
  · refine step_rule (P := fun _ x => BlockerShown x.1) tools ?_ ?_ ?_ ?_ ?_ call
    · intro now
      exact h.blocker
    · intro _ signal now
      exact h.blocker
    · intro _ code sig now _
      refine Or.inr ?_
      rw [setStatus_status]
      rfl
    · intro _ _ signal now
      exact shown_reduceProcessOnly h.blocker signal now
    · intro _ _ signal now
      exact shown_reduceFull tools h.blocker signal now
  · intro hproc
    have hauth : r.authority = .processOnly :=
      (step_seesFrame tools r call).1.symm.trans hproc
    have hnone := h.processOnly hauth
    refine step_rule (P := fun _ x => x.1.candidacy = .none) tools ?_ ?_ ?_ ?_ ?_ call
    · intro now
      exact hnone
    · intro _ signal now
      exact hnone
    · intro _ code sig now
      simp only [candidacy, setStatus_state]
      exact hnone
    · intro _ _ signal now
      exact (candidacy_reduceProcessOnly signal now).trans hnone
    · intro _ hne
      exact absurd hauth hne

end StatusReducer

end Homie
