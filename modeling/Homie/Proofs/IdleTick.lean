/-
Ticks and a screen that stands still.

The pump reports a screen once, so a candidacy that one idle frame opened gets no second frame.
What a tick does to it is said by `tick_working`: it settles a strong candidacy and no other, and
never looks at the cap.  A strong candidacy with an idle screen is settled by the signal that
makes it strong, or by the frame that shows the screen; so no run leaves one to a tick
(`Weak.run`).
-/
import Homie.Proofs.AntiFlicker

namespace Homie

open Trace

namespace StatusReducer

/-! ### One tick -/

theorem tick_working (tools : TextTools) {r : StatusReducer} (now : SystemTime)
    (hworking : r.status = .working) :
    (r.reduce tools .tick now).1.status =
      if r.authority = .processOnly then .working
      else if r.timing.stalenessTimeout < SystemTime.durationSince now r.state.lastSignalAt then
        .unknown
      else if r.state.idleStrong = true ∧ r.state.idleCandidateSince.isSome then .idle
      else .working := by
  have hrevisit : revisitBelief now (r, .default) = (r, .default) := by
    unfold revisitBelief
    rw [if_neg]
    simp [graceOver, hworking]
  have hlive : isExited r.status = false := by rw [hworking]; rfl
  unfold reduce
  rw [hlive, if_neg Bool.false_ne_true]
  dsimp only
  by_cases hauthority : r.authority = .processOnly
  · rw [if_pos hauthority, if_pos hauthority]
    exact hworking
  rw [if_neg hauthority, if_neg hauthority]
  change (handleTick now (r, .default)).1.status = _
  unfold handleTick
  rw [hrevisit]
  by_cases hstale : r.timing.stalenessTimeout <
      SystemTime.durationSince now r.state.lastSignalAt
  · rw [if_pos ⟨hworking, hstale⟩, if_pos hstale]
    exact setStatus_status _ _
  rw [if_neg fun h => hstale h.2, if_neg hstale]
  by_cases hstrong : r.state.idleStrong = true ∧ r.state.idleCandidateSince.isSome
  · rw [if_pos ⟨hworking, hstrong⟩, if_pos hstrong]
    exact (commitIdle_spec (x := (countConfirmation r, .default)) now hworking rfl).1
  · rw [if_neg fun h => hstrong h.2, if_neg hstrong]
    exact hworking

/-! ### No run leaves a strong candidacy to an idle screen -/

/-- A strong candidacy waits for a screen that does not read idle yet. -/
def Weak (r : StatusReducer) : Prop :=
  r.state.idleStrong = true →
    r.status ≠ .starting ∧ (r.status = .working → r.state.screenBelief ≠ some .idle)

variable {x : Reduced}

theorem weak_of_off {r : StatusReducer} (h : r.state.idleStrong = false) : Weak r := by
  intro hstrong
  rw [h] at hstrong
  cases hstrong

/-- A starting session has no strong candidacy. -/
theorem Weak.off {r : StatusReducer} (h : Weak r) (hstarting : r.status = .starting) :
    r.state.idleStrong = false := by
  cases hstrong : r.state.idleStrong with
  | false => rfl
  | true => exact absurd hstarting (h hstrong).1

theorem weak_setStatus (h : x.1.state.idleStrong = false) (new : SessionStatus) :
    Weak (setStatus new x).1 := by
  refine weak_of_off ?_
  rw [setStatus_state]
  exact h

theorem weak_goWorking (now : SystemTime) (clear : Bool) (x : Reduced) :
    Weak (goWorking now clear x).1 :=
  weak_of_off (congrArg Candidacy.strong (goWorking_spec now clear x).2.1)

theorem weak_askForInput (detail : NeedsInputDetail) (x : Reduced) :
    Weak (askForInput detail x).1 :=
  weak_of_off (congrArg Candidacy.strong (askForInput_spec detail x).2.1)

theorem weak_commitIdle (now : SystemTime) (x : Reduced) : Weak (commitIdle now x).1 :=
  weak_of_off rfl

theorem weak_handleStrongIdle (h : Weak x.1) (now : SystemTime) :
    Weak (handleStrongIdle now x).1 := by
  unfold handleStrongIdle
  by_cases hstarting : x.1.status = .starting
  · rw [if_pos hstarting]
    exact weak_setStatus (h.off hstarting) _
  rw [if_neg hstarting]
  split
  · exact h
  · split
    · exact weak_commitIdle _ _
    · rename_i hbelief
      exact fun _ => ⟨hstarting, fun _ => hbelief⟩

theorem weak_confirmIdle (hworking : x.1.status = .working) (now : SystemTime) :
    Weak (confirmIdle now x).1 := by
  unfold confirmIdle
  rw [if_neg (not_not.mpr hworking)]
  dsimp only
  split
  · exact weak_commitIdle _ _
  · rename_i hunripe
    intro hstrong
    refine absurd ?_ hunripe
    have hcand := countConfirmation_openCandidacy now x.1
    rw [idleConfirmed_iff, hcand]
    have hstrong' : (x.1.candidacy.confirm now).strong = true := by
      rw [← hcand]
      exact hstrong
    refine Or.inl ?_
    rw [if_pos hstrong']
    show 1 ≤ if x.1.candidacy.since.isNone then 1 else x.1.candidacy.confirms + 1
    split <;> omega

theorem weak_handleMainHook (tools : TextTools) (h : Weak x.1) (hook : ClaudeHook)
    (now : SystemTime) : Weak (handleMainHook tools hook now x).1 := by
  cases hook with
  | sessionStart =>
    unfold handleMainHook
    dsimp only
    split
    · rename_i hstarting
      exact weak_setStatus (h.off hstarting) _
    · exact h
  | userPromptSubmit => exact weak_goWorking now true _
  | preToolUse => exact weak_goWorking now true x
  | permissionRequest toolName inputSummary => exact weak_askForInput _ x
  | notification notificationType message =>
    show Weak (handleNotification tools notificationType message now x).1
    unfold handleNotification
    split
    · exact weak_askForInput _ x
    · split
      · exact weak_handleStrongIdle h now
      · exact h
  | stop => exact weak_handleStrongIdle h now
  | subagentStart id => exact h
  | subagentStop id => exact h
  | sessionEnd => exact h

theorem weak_handleClaudeHook (tools : TextTools) (h : Weak x.1) (hook : ClaudeHook)
    (isSubagent : Bool) (now : SystemTime) :
    Weak (handleClaudeHook tools hook isSubagent now x).1 := by
  unfold handleClaudeHook
  split
  · exact h
  · exact h
  · split
    · exact h
    · exact weak_handleMainHook (x := ({ x.1 with state.lastSignalAt := now }, x.2)) tools h _ now

theorem weak_applyNonBlockerScreen {observation : ScreenObservation}
    (hoff : x.1.status = .starting → x.1.state.idleStrong = false)
    (hbelief : x.1.state.screenBelief = some observation.state) (now : SystemTime)
    (cleared : Bool) : Weak (applyNonBlockerScreen observation now cleared x).1 := by
  have hsame : observation.state ≠ .idle ∨ x.1.status ≠ .working → Weak x.1 := by
    intro hother hstrong
    refine ⟨fun hstarting => ?_, fun hworking => ?_⟩
    · rw [hoff hstarting] at hstrong
      cases hstrong
    · rw [hbelief]
      intro hidle
      exact hother.elim (fun h => h (Option.some.inj hidle)) (fun h => h hworking)
  unfold applyNonBlockerScreen
  split
  · exact weak_goWorking now false x
  · split
    · rename_i hworking
      exact weak_confirmIdle hworking now
    · rename_i hworking
      split
      · rename_i hstarting
        exact weak_setStatus (hoff hstarting) _
      · split
        · exact weak_setStatus (x := (cancelIdleCandidacy x.1, x.2)) rfl _
        · exact hsame (Or.inr hworking)
  · rename_i hstate
    exact hsame (Or.inl (by rw [hstate]; decide))
  · rename_i hstate
    exact hsame (Or.inl (by rw [hstate]; decide))
  · rename_i hstate
    exact hsame (Or.inl (by rw [hstate]; decide))

theorem weak_handleScreen (tools : TextTools) (h : Weak x.1) (hshown : BlockerShown x.1)
    (observation : ScreenObservation) (now : SystemTime) :
    Weak (handleScreen tools observation now x).1 := by
  unfold handleScreen
  split
  · exact h
  · split
    · exact h
    · dsimp only
      split
      · exact weak_askForInput _ _
      · unfold handleNonBlocker
        split
        · rename_i hactive
          split
          · -- a held frame is remembered, but not while working
            intro hstrong
            exact ⟨(h hstrong).1, fun hworking => absurd hworking (hshown.not_working hactive)⟩
          · exact weak_applyNonBlockerScreen
              (x := ({ rememberFrame observation now x.1 with
                state.screenBlockerActive := false, state.blockerMissScans := 0 }, x.2))
              h.off rfl now true
        · split
          · rename_i hgrace
            refine weak_of_off (h.off ?_)
            simp only [graceHolds, Bool.and_eq_true, beq_iff_eq] at hgrace
            exact hgrace.1.1
          · exact weak_applyNonBlockerScreen (x := (rememberFrame observation now x.1, x.2))
              h.off rfl now false

theorem weak_revisitBelief (h : Weak x.1) (now : SystemTime) : Weak (revisitBelief now x).1 := by
  unfold revisitBelief
  split
  · rename_i hover
    simp only [graceOver, Bool.and_eq_true, beq_iff_eq] at hover
    split
    · exact weak_goWorking now false x
    · exact weak_setStatus (h.off hover.1.1) _
    · exact h
  · exact h

theorem weak_handleTick (h : Weak x.1) (now : SystemTime) : Weak (handleTick now x).1 := by
  have hrevisit := weak_revisitBelief h now
  unfold handleTick
  dsimp only
  split
  · intro _
    rw [setStatus_status]
    exact ⟨nofun, nofun⟩
  · split
    · exact weak_commitIdle _ _
    · exact hrevisit

theorem weak_reduceProcessOnly (h : Weak x.1) (signal : StatusSignal) (now : SystemTime) :
    Weak (reduceProcessOnly signal now x).1 := by
  unfold reduceProcessOnly
  split
  · dsimp only
    split
    · rename_i hstarting
      refine weak_of_off ?_
      simp only [setStatus_state]
      exact h.off hstarting
    · exact h
  · exact h

theorem weak_reduceFull (tools : TextTools) (h : Weak x.1) (hshown : BlockerShown x.1)
    (signal : StatusSignal) (now : SystemTime) : Weak (reduceFull tools signal now x).1 := by
  cases signal with
  | processExit code sig => exact h
  | ptyOutputActivity => exact h
  | userKeystroke =>
    unfold reduceFull
    dsimp only
    split
    · exact h
    · exact h
  | claudeHook hook isSubagent => exact weak_handleClaudeHook tools h hook isSubagent now
  | codexTurnComplete =>
    exact weak_handleStrongIdle (x := ({ x.1 with state.lastSignalAt := now }, x.2)) h now
  | screen observation => exact weak_handleScreen tools h hshown observation now
  | tick => exact weak_handleTick h now

theorem Weak.step {r : StatusReducer} (h : Weak r) (hsound : Sound r) (tools : TextTools)
    (call : ReducerCall) : Weak (r.step tools call).1 := by
  refine step_rule (P := fun _ x => Weak x.1) tools ?_ ?_ ?_ ?_ ?_ call
  · intro now
    exact h
  · intro _ signal now
    exact h
  · intro _ code sig now _
    rw [setStatus_status]
    exact ⟨nofun, nofun⟩
  · intro _ _ signal now
    exact weak_reduceProcessOnly h signal now
  · intro _ _ signal now
    exact weak_reduceFull tools h hsound.blocker signal now

theorem weak_run (tools : TextTools) (authority : Authority) (spawnedAt : SystemTime)
    (timing : ReducerTiming) (calls : List ReducerCall) :
    Weak (run (StatusReducer.step tools) (start authority spawnedAt timing) calls) := by
  have hboth : Weak _ ∧ Sound _ := run_invariant (StatusReducer.step tools)
    (P := fun r => Weak r ∧ Sound r) ⟨weak_of_off rfl, sound_new authority spawnedAt timing⟩
    (fun r call h => ⟨h.1.step h.2 tools call, h.2.step tools call⟩) calls
  exact hboth.1

end StatusReducer

open StatusReducer

/-- A working session whose screen reads idle and whose candidacy has been open for the cap. -/
structure Settling (r : StatusReducer) (now : SystemTime) : Prop where
  working : r.status = .working
  belief : r.state.screenBelief = some .idle
  open_ : ∃ since, r.state.idleCandidateSince = some since ∧ since + r.timing.idleConfirmCap ≤ now

/--
**A tick ends a candidacy exactly when it is strong and the session has not gone stale.**

The cap on the wait has no part in it: it is looked at when a frame comes.  And in no run does a
tick meet a session that is settling and strong, so a session that waits for its second frame on
a still screen stays working, until it is stale.
-/
theorem tick_settles_iff (tools : TextTools) :
    (∀ (r : StatusReducer) (now : SystemTime), Settling r now →
      ((r.reduce tools .tick now).1.status = .idle ↔
        r.authority ≠ .processOnly ∧ r.state.idleStrong = true ∧
          SystemTime.durationSince now r.state.lastSignalAt ≤ r.timing.stalenessTimeout)) ∧
    ∀ (authority : Authority) (spawnedAt : SystemTime) (timing : ReducerTiming)
      (calls : List ReducerCall) (now : SystemTime),
      Settling (run (StatusReducer.step tools) (start authority spawnedAt timing) calls) now →
        ((run (StatusReducer.step tools) (start authority spawnedAt timing) calls).reduce tools
          .tick now).1.status ≠ .idle := by
  have hiff : ∀ (r : StatusReducer) (now : SystemTime), Settling r now →
      ((r.reduce tools .tick now).1.status = .idle ↔
        r.authority ≠ .processOnly ∧ r.state.idleStrong = true ∧
          SystemTime.durationSince now r.state.lastSignalAt ≤ r.timing.stalenessTimeout) := by
    intro r now h
    obtain ⟨since, hopen, -⟩ := h.open_
    rw [tick_working tools now h.working, hopen]
    by_cases hauthority : r.authority = .processOnly
    · simp [hauthority]
    rw [if_neg hauthority]
    by_cases hstale : r.timing.stalenessTimeout <
        SystemTime.durationSince now r.state.lastSignalAt
    · rw [if_pos hstale]
      exact iff_of_false nofun fun h => absurd h.2.2 (Nat.not_le.mpr hstale)
    rw [if_neg hstale]
    by_cases hstrong : r.state.idleStrong = true
    · rw [if_pos ⟨hstrong, rfl⟩]
      exact iff_of_true rfl ⟨hauthority, hstrong, Nat.le_of_not_lt hstale⟩
    · rw [if_neg fun h => hstrong h.1]
      exact iff_of_false nofun fun h => hstrong h.2.1
  refine ⟨hiff, ?_⟩
  intro authority spawnedAt timing calls now h hidle
  obtain ⟨-, hstrong, -⟩ := (hiff _ now h).mp hidle
  exact (weak_run tools authority spawnedAt timing calls hstrong).2 h.working h.belief

/-- A session that is seen working, and idle a tenth of a second later. -/
def stillScreen : StatusReducer :=
  run (StatusReducer.step plainTools) (start .screenPrimary 0 .default) (idleAt [2])

/-- A strong candidacy on the same screen. -/
def strongStill : StatusReducer := { stillScreen with state.idleStrong := true }

theorem settling_still : Settling stillScreen (14 * 10 ^ 9) :=
  ⟨by decide, by decide, 4 * 10 ^ 9 + 10 ^ 8, by decide, by decide⟩

/-- The strong one is settled by the tick, the one from a run is not. -/
theorem tick_settles_still :
    (strongStill.reduce plainTools .tick (14 * 10 ^ 9)).1.status = .idle ∧
      (stillScreen.reduce plainTools .tick (14 * 10 ^ 9)).1.status ≠ .idle := by
  have hstrong : Settling strongStill (14 * 10 ^ 9) :=
    ⟨settling_still.working, settling_still.belief, settling_still.open_⟩
  exact ⟨((tick_settles_iff plainTools).1 strongStill (14 * 10 ^ 9) hstrong).mpr
      ⟨by decide, rfl, by decide⟩,
    (tick_settles_iff plainTools).2 .screenPrimary 0 .default (idleAt [2]) (14 * 10 ^ 9)
      settling_still⟩

/-- Ten seconds after the only idle frame a tick leaves the session working; a minute after it, the
session is unknown. -/
theorem still_screen_stays_working :
    Settling stillScreen (14 * 10 ^ 9) ∧
      (stillScreen.reduce plainTools .tick (14 * 10 ^ 9)).1.status = .working ∧
      (stillScreen.reduce plainTools .tick (65 * 10 ^ 9)).1.status = .unknown :=
  ⟨settling_still, by decide, by decide⟩

end Homie
