/-
A prompt on the screen holds the session in needs-input.

Once a frame has shown a blocker, `Blocked` lists what a call can do: hold the prompt,
show it again, count a frame that misses it, clear it after enough such frames, exit, or
take a work hook of the main agent.  Every other signal holds it, whatever its source.

The miss counter tallies the fresh frames without a blocker since the last one with it.
Skip screens and repeated frames are not taken, so they neither count nor start the count
again, and a frame is fresh when its number is not the last one's.  So the frames that
clear a prompt differ from their neighbours, with nothing taken between them; they are
pairwise distinct when the numbers never go back.
-/
import Homie.Proofs.AntiFlicker

namespace Homie

open Trace

namespace StatusReducer

/-! ### Frames with and without a blocker -/

/-- A fresh frame that shows a blocker. -/
def showsBlocker (r : StatusReducer) (call : ReducerCall) : Bool :=
  match call with
  | .signal (.screen observation) _ =>
    (freshFrame r call).isSome && (needsInputKind observation.state).isSome
  | _ => false

/-- The number of a fresh frame that shows none. -/
def missedFrame (r : StatusReducer) (call : ReducerCall) : Option UInt64 :=
  if showsBlocker r call then none else freshFrame r call

/-- A work hook of the main agent. -/
def mainWorkHook : ReducerCall → Bool
  | .signal (.claudeHook .userPromptSubmit false) _ => true
  | .signal (.claudeHook .preToolUse false) _ => true
  | _ => false

def isProcessExit : ReducerCall → Bool
  | .signal (.processExit _ _) _ => true
  | _ => false

/-! ### What a call does to a prompt -/

/-- The prompt is up, `misses` frames have missed it. -/
structure Asking (misses : Nat) (r : StatusReducer) : Prop where
  status : isNeedsInput r.status = true
  active : r.state.screenBlockerActive = true
  counted : r.state.blockerMissScans = misses

/-- Everything a call can do to a prompt on the screen. -/
inductive Blocked (misses : Nat) (r : StatusReducer) (call : ReducerCall) (x : Reduced) : Prop where
  | hold (fresh : freshFrame r call = none) (after : Asking misses x.1)
  | shown (h : showsBlocker r call = true) (after : Asking 0 x.1)
  | miss {seq : UInt64} (h : missedFrame r call = some seq)
      (few : misses + 1 < r.timing.blockerClearScans) (after : Asking (misses + 1) x.1)
  | clear {seq : UInt64} (h : missedFrame r call = some seq)
      (enough : r.timing.blockerClearScans ≤ misses + 1)
      (after : isNeedsInput x.1.status = false)
  | exit (h : isProcessExit call = true) (after : isNeedsInput x.1.status = false)
  | work (h : mainWorkHook call = true) (after : isNeedsInput x.1.status = false)

section

variable {misses : Nat} {x : Reduced}

theorem Asking.not_starting (h : Asking misses x.1) : x.1.status ≠ .starting := by
  intro hs
  have := h.status
  rw [hs] at this
  cases this

theorem Asking.not_working (h : Asking misses x.1) : x.1.status ≠ .working := by
  intro hs
  have := h.status
  rw [hs] at this
  cases this

theorem Asking.alive {r : StatusReducer} (h : Asking misses r) : isExited r.status = false := by
  have := h.status
  cases hs : r.status <;> rw [hs] at this <;> first | rfl | cases this

/-- A strong idle signal only ends a turn that is working. -/
theorem handleStrongIdle_asking (h : Asking misses x.1) (now : SystemTime) :
    handleStrongIdle now x = x := by
  unfold handleStrongIdle
  rw [if_neg h.not_starting, if_pos h.not_working]

theorem handleTick_asking (h : Asking misses x.1) (now : SystemTime) : handleTick now x = x := by
  have hrevisit : revisitBelief now x = x := by
    unfold revisitBelief graceOver
    rw [if_neg (by simp [h.not_starting])]
  unfold handleTick
  rw [hrevisit]
  rw [if_neg (fun hw => h.not_working hw.1), if_neg (fun hw => h.not_working hw.1)]

theorem asking_askForInput {detail : NeedsInputDetail}
    (hactive : x.1.state.screenBlockerActive = true)
    (hcount : x.1.state.blockerMissScans = misses) : Asking misses (askForInput detail x).1 := by
  refine ⟨?_, ?_, ?_⟩
  · rw [(askForInput_spec detail x).1]
    rfl
  · simpa [askForInput, cancelIdleCandidacy] using hactive
  · simpa [askForInput, cancelIdleCandidacy] using hcount

theorem asking_handleMainHook (tools : TextTools) (h : Asking misses x.1) {hook : ClaudeHook}
    (hprompt : hook ≠ .userPromptSubmit) (htool : hook ≠ .preToolUse) (now : SystemTime) :
    Asking misses (handleMainHook tools hook now x).1 := by
  cases hook with
  | userPromptSubmit => exact absurd rfl hprompt
  | preToolUse => exact absurd rfl htool
  | sessionStart =>
    unfold handleMainHook
    dsimp only
    rw [if_neg h.not_starting]
    exact h
  | permissionRequest toolName inputSummary => exact asking_askForInput h.active h.counted
  | notification notificationType message =>
    show Asking misses (handleNotification tools notificationType message now x).1
    unfold handleNotification
    split
    · exact asking_askForInput h.active h.counted
    · split
      · rw [handleStrongIdle_asking h now]
        exact h
      · exact h
  | stop =>
    show Asking misses (handleStrongIdle now x).1
    rw [handleStrongIdle_asking h now]
    exact h
  | sessionEnd => exact h
  | subagentStart id => exact h
  | subagentStop id => exact h

end

section

variable {misses : Nat} {r : StatusReducer}

theorem blocked_claudeHook (tools : TextTools) (h : Asking misses r) (hook : ClaudeHook)
    (isSubagent : Bool) (now : SystemTime) :
    Blocked misses r (.signal (.claudeHook hook isSubagent) now)
      (handleClaudeHook tools hook isSubagent now (r, .default)) := by
  by_cases hwork : mainWorkHook (.signal (.claudeHook hook isSubagent) now) = true
  · refine .work hwork ?_
    cases isSubagent with
    | true => cases hook <;> cases hwork
    | false =>
      have hworking : ∀ x, isNeedsInput (goWorking now true x).1.status = false := by
        intro x
        rw [(goWorking_spec now true x).1]
        rfl
      cases hook <;> cases hwork
      · exact hworking _
      · exact hworking _
  refine .hold rfl ?_
  have hr : Asking misses { r with state.lastSignalAt := now } := ⟨h.status, h.active, h.counted⟩
  unfold handleClaudeHook
  split
  · exact ⟨h.status, h.active, h.counted⟩
  · exact ⟨h.status, h.active, h.counted⟩
  · cases isSubagent with
    | true => exact hr
    | false =>
      refine asking_handleMainHook (x := ({ r with state.lastSignalAt := now }, .default)) tools
        hr ?_ ?_ now
      · rintro rfl
        exact hwork rfl
      · rintro rfl
        exact hwork rfl

/-- Enough misses: the session reads the screen again and is no longer asking. -/
theorem cleared_status {observation : ScreenObservation} {x : Reduced} (now : SystemTime)
    (hask : isNeedsInput x.1.status = true) (hskip : observation.state ≠ .skip)
    (hkind : needsInputKind observation.state = none) :
    isNeedsInput (applyNonBlockerScreen observation now true x).1.status = false := by
  unfold applyNonBlockerScreen
  cases hstate : observation.state with
  | working =>
    dsimp only
    rw [(goWorking_spec now false x).1]
    rfl
  | idle =>
    cases hs : x.1.status with
    | needsInput kind =>
      dsimp only
      rw [if_neg (fun h => nomatch h), if_neg (fun h => nomatch h), setStatus_status]
      rfl
    | starting => rw [hs] at hask; cases hask
    | working => rw [hs] at hask; cases hask
    | idle => rw [hs] at hask; cases hask
    | unknown => rw [hs] at hask; cases hask
    | exited info => rw [hs] at hask; cases hask
  | blockedPermission => simp [hstate, needsInputKind] at hkind
  | blockedQuestion => simp [hstate, needsInputKind] at hkind
  | skip => exact absurd hstate hskip

theorem blocked_screen (tools : TextTools) (h : Asking misses r) (hproc : r.authority ≠ .processOnly)
    (observation : ScreenObservation) (now : SystemTime) :
    Blocked misses r (.signal (.screen observation) now)
      (handleScreen tools observation now (r, .default)) := by
  unfold handleScreen
  by_cases hskip : observation.state = .skip
  · rw [if_pos hskip]
    exact .hold (by simp [freshFrame, hskip]) ⟨h.status, h.active, h.counted⟩
  rw [if_neg hskip]
  by_cases hseq : r.state.lastScreenSeq = some observation.contentSeq
  · rw [if_pos hseq]
    exact .hold (by simp [freshFrame, hseq]) ⟨h.status, h.active, h.counted⟩
  rw [if_neg hseq]
  have hfresh : freshFrame r (.signal (.screen observation) now) = some observation.contentSeq := by
    simp [freshFrame, h.alive, hproc, hskip, hseq]
  dsimp only
  cases hkind : needsInputKind observation.state with
  | some kind =>
    refine .shown ?_ (asking_askForInput rfl rfl)
    simp [showsBlocker, hfresh, hkind]
  | none =>
    have hmiss : missedFrame r (.signal (.screen observation) now)
        = some observation.contentSeq := by
      simp [missedFrame, showsBlocker, hfresh, hkind]
    unfold handleNonBlocker
    have hactive : (rememberFrame observation now r).state.screenBlockerActive = true := h.active
    have hcount : (rememberFrame observation now r).state.blockerMissScans = misses := h.counted
    simp only [hactive, if_true, hcount]
    by_cases hfew : misses + 1 < r.timing.blockerClearScans
    · rw [if_pos (show misses + 1 < (rememberFrame observation now r).timing.blockerClearScans
        from hfew)]
      exact .miss hmiss hfew ⟨h.status, rfl, rfl⟩
    · rw [if_neg (show ¬ misses + 1 < (rememberFrame observation now r).timing.blockerClearScans
        from hfew)]
      refine .clear hmiss (by omega) ?_
      exact cleared_status now (x := (_, _)) h.status hskip hkind

/-- Every call does one of the things `Blocked` lists. -/
theorem step_blocked (tools : TextTools) (h : Asking misses r) (call : ReducerCall) :
    Blocked misses r call (r.step tools call) := by
  refine step_rule tools ?_ ?_ ?_ ?_ ?_ call
  · intro now
    exact .hold rfl ⟨h.status, h.active, h.counted⟩
  · intro hexit
    rw [h.alive] at hexit
    cases hexit
  · intro _ code sig now
    refine .exit rfl ?_
    rw [setStatus_status]
    rfl
  · intro _ hproc signal now
    have hfresh : freshFrame r (.signal signal now) = none := by
      cases signal <;> simp [freshFrame, hproc]
    refine .hold hfresh ?_
    unfold reduceProcessOnly
    split
    · dsimp only
      rw [if_neg (Asking.not_starting (x := (r, .default)) h)]
      exact ⟨h.status, h.active, h.counted⟩
    · exact h
  · intro _ hproc signal now
    cases signal with
    | screen observation => exact blocked_screen tools h hproc observation now
    | claudeHook hook isSubagent => exact blocked_claudeHook tools h hook isSubagent now
    | codexTurnComplete =>
      refine .hold rfl ?_
      have hr : Asking misses { r with state.lastSignalAt := now } :=
        ⟨h.status, h.active, h.counted⟩
      show Asking misses (handleStrongIdle now ({ r with state.lastSignalAt := now }, .default)).1
      rw [handleStrongIdle_asking hr now]
      exact hr
    | ptyOutputActivity => exact .hold rfl ⟨h.status, h.active, h.counted⟩
    | userKeystroke =>
      refine .hold rfl ?_
      unfold reduceFull
      dsimp only
      split <;> exact ⟨h.status, h.active, h.counted⟩
    | processExit code sig => exact .hold rfl h
    | tick =>
      refine .hold rfl ?_
      show Asking misses (handleTick now (r, .default)).1
      rw [handleTick_asking h now]
      exact h

/-- A frame that shows a blocker puts the prompt up, whatever was there before. -/
theorem asking_of_shown (tools : TextTools) {call : ReducerCall} (h : showsBlocker r call = true) :
    Asking 0 (r.step tools call).1 := by
  cases call with
  | finishStartupGrace now => cases h
  | signal signal now =>
    cases signal with
    | screen observation =>
      simp only [showsBlocker, freshFrame, Bool.and_eq_true] at h
      split at h
      · simp at h
      rename_i hfresh
      simp only [not_or] at hfresh
      obtain ⟨hexit, hproc, hskip, hseq⟩ := hfresh
      obtain ⟨kind, hkind⟩ := Option.isSome_iff_exists.mp h.2
      show Asking 0 (r.reduce tools (.screen observation) now).1
      unfold reduce
      rw [if_neg hexit]
      dsimp only
      rw [if_neg hproc]
      show Asking 0 (handleScreen tools observation now (r, .default)).1
      unfold handleScreen
      rw [if_neg hskip, if_neg hseq, hkind]
      exact asking_askForInput rfl rfl
    | claudeHook hook isSubagent => cases h
    | codexTurnComplete => cases h
    | ptyOutputActivity => cases h
    | userKeystroke => cases h
    | processExit code sig => cases h
    | tick => cases h

end

/-! ### The tally of misses -/

/-- The steps since the last frame that showed a blocker. -/
def watch (past : List ReducerStep) : List ReducerStep :=
  past.rtakeWhile fun s => !showsBlocker s.before s.event

/-- The numbers of the fresh frames since then, oldest first. -/
def misses (past : List ReducerStep) : List UInt64 :=
  (watch past).filterMap fun s => missedFrame s.before s.event

theorem missedFrame_some {r : StatusReducer} {call : ReducerCall} {seq : UInt64}
    (h : missedFrame r call = some seq) :
    showsBlocker r call = false ∧ freshFrame r call = some seq := by
  unfold missedFrame at h
  split at h
  · cases h
  · rename_i hshown
    exact ⟨Bool.eq_false_iff.mpr hshown, h⟩

theorem missedFrame_none {r : StatusReducer} {call : ReducerCall} (h : freshFrame r call = none) :
    showsBlocker r call = false ∧ missedFrame r call = none := by
  have hshown : showsBlocker r call = false := by
    unfold showsBlocker
    split
    · rw [h]
      rfl
    · rfl
  refine ⟨hshown, ?_⟩
  unfold missedFrame
  rw [hshown]
  exact h

theorem misses_shown (past : List ReducerStep) {s : ReducerStep}
    (h : showsBlocker s.before s.event = true) : misses (past ++ [s]) = [] := by
  rw [misses, watch, List.rtakeWhile_concat_neg _ _ _ (by simp [h])]
  rfl

theorem misses_concat (past : List ReducerStep) {s : ReducerStep}
    (h : showsBlocker s.before s.event = false) :
    misses (past ++ [s]) = misses past ++ (missedFrame s.before s.event).toList := by
  rw [misses, watch, List.rtakeWhile_concat_pos _ _ _ (by simp [h]), List.filterMap_append]
  cases hframe : missedFrame s.before s.event <;> simp [misses, watch, hframe]

theorem misses_held (past : List ReducerStep) {s : ReducerStep}
    (h : freshFrame s.before s.event = none) : misses (past ++ [s]) = misses past := by
  obtain ⟨hshown, hmiss⟩ := missedFrame_none h
  rw [misses_concat past hshown, hmiss]
  exact List.append_nil _

theorem misses_missed (past : List ReducerStep) {s : ReducerStep} {seq : UInt64}
    (h : missedFrame s.before s.event = some seq) : misses (past ++ [s]) = misses past ++ [seq] := by
  rw [misses_concat past (missedFrame_some h).1, h]
  rfl

theorem freshFrame_new {r : StatusReducer} {call : ReducerCall} {seq : UInt64}
    (h : freshFrame r call = some seq) :
    screenSeq call = some seq ∧ r.state.lastScreenSeq ≠ some seq := by
  cases call with
  | finishStartupGrace now => cases h
  | signal signal now =>
    cases signal with
    | screen observation =>
      simp only [freshFrame] at h
      split at h
      · cases h
      · rename_i hnot
        cases h
        exact ⟨rfl, fun hlast => hnot (Or.inr (Or.inr (Or.inr hlast)))⟩
    | claudeHook hook isSubagent => cases h
    | codexTurnComplete => cases h
    | ptyOutputActivity => cases h
    | userKeystroke => cases h
    | processExit code sig => cases h
    | tick => cases h

/-- The prompt is up and its counter tallies the misses. -/
structure Watch (timing : ReducerTiming) (past : List ReducerStep) (r : StatusReducer) :
    Prop where
  asking : Asking (misses past).length r
  config : r.timing = timing
  chain : (misses past).IsChain (· ≠ ·)
  last : ∀ seq ∈ (misses past).getLast?, r.state.lastScreenSeq = some seq

theorem watch_shown (tools : TextTools) (past : List ReducerStep) {r : StatusReducer}
    {call : ReducerCall} (h : showsBlocker r call = true) :
    Watch r.timing (past ++ [take (step tools) r call]) (r.step tools call).1 := by
  have hmisses : misses (past ++ [take (step tools) r call]) = [] := misses_shown past h
  refine ⟨?_, (step_seesFrame tools r call).2.1, ?_, ?_⟩
  · rw [hmisses]
    exact asking_of_shown tools h
  · rw [hmisses]
    exact List.IsChain.nil
  · rw [hmisses]
    intro seq hseq
    cases hseq

section

variable {timing : ReducerTiming} {past : List ReducerStep} {r : StatusReducer}

theorem Watch.miss_chain (h : Watch timing past r) {seq : UInt64}
    (hnew : r.state.lastScreenSeq ≠ some seq) : (misses past ++ [seq]).IsChain (· ≠ ·) := by
  refine h.chain.append (List.isChain_singleton _) ?_
  intro before hbefore after hafter heq
  rw [List.head?_singleton, Option.mem_some] at hafter
  exact hnew ((h.last before hbefore).trans (by rw [heq, hafter]))

theorem Watch.step (h : Watch timing past r) (tools : TextTools) {call : ReducerCall}
    (hask : isNeedsInput (r.step tools call).1.status = true) :
    Watch timing (past ++ [take (StatusReducer.step tools) r call]) (r.step tools call).1 := by
  obtain ⟨-, htiming, hseq⟩ := step_seesFrame tools r call
  cases step_blocked tools h.asking call with
  | hold fresh after =>
    have hmisses := misses_held past (s := take (StatusReducer.step tools) r call) fresh
    rw [fresh, Option.none_or] at hseq
    refine ⟨by rw [hmisses]; exact after, htiming.trans h.config, ?_, ?_⟩
    · rw [hmisses]
      exact h.chain
    · rw [hmisses, hseq]
      exact h.last
  | shown hshown after =>
    have hwatch := watch_shown tools past hshown
    rwa [h.config] at hwatch
  | @miss seq hmiss few after =>
    have hfresh := (missedFrame_some hmiss).2
    have hmisses := misses_missed past (s := take (StatusReducer.step tools) r call) hmiss
    rw [hfresh, Option.some_or] at hseq
    refine ⟨?_, htiming.trans h.config, ?_, ?_⟩
    · rw [hmisses, List.length_append]
      exact after
    · rw [hmisses]
      exact h.miss_chain (freshFrame_new hfresh).2
    · rw [hmisses, hseq]
      simp
  | clear hmiss enough after => rw [hask] at after; cases after
  | exit hexit after => rw [hask] at after; cases after
  | work hwork after => rw [hask] at after; cases after

theorem Watch.leave (h : Watch timing past r) (tools : TextTools) (call : ReducerCall)
    (hask : isNeedsInput (r.step tools call).1.status = false) :
    isProcessExit call = true ∨ mainWorkHook call = true ∨
      ((missedFrame r call).isSome = true ∧
        timing.blockerClearScans
          ≤ (misses (past ++ [take (StatusReducer.step tools) r call])).length ∧
        (misses (past ++ [take (StatusReducer.step tools) r call])).IsChain (· ≠ ·)) := by
  cases step_blocked tools h.asking call with
  | hold fresh after => rw [after.status] at hask; cases hask
  | shown hshown after => rw [after.status] at hask; cases hask
  | miss hmiss few after => rw [after.status] at hask; cases hask
  | exit hexit after => exact Or.inl hexit
  | work hwork after => exact Or.inr (Or.inl hwork)
  | @clear seq hmiss enough after =>
    have hfresh := (missedFrame_some hmiss).2
    have hmisses := misses_missed past (s := take (StatusReducer.step tools) r call) hmiss
    refine Or.inr (Or.inr ⟨by rw [hmiss]; rfl, ?_, ?_⟩)
    · rw [hmisses, List.length_append, ← h.config]
      exact enough
    · rw [hmisses]
      exact h.miss_chain (freshFrame_new hfresh).2

end

theorem watch_run (tools : TextTools) {past : List ReducerStep} {r : StatusReducer}
    {timing : ReducerTiming} (h : Watch timing past r) (calls : List ReducerCall)
    (hask : ∀ s ∈ history tools r calls, isNeedsInput s.after.status = true) :
    Watch timing (past ++ history tools r calls) (run (step tools) r calls) := by
  induction calls generalizing past r with
  | nil =>
    rw [history, trace, List.append_nil]
    exact h
  | cons call calls ih =>
    have hnext := h.step tools (hask _ List.mem_cons_self)
    have hrest := ih hnext fun s hs => hask s (List.mem_cons_of_mem _ hs)
    rwa [List.append_assoc] at hrest

end StatusReducer

open StatusReducer

/--
**A prompt holds the session until it is answered or gone.**  In every reachable state an
active blocker means needs-input or exited.  And once a frame has shown a blocker, the
session stops asking only on process exit, on a work hook of the main agent, or on a
fresh frame without a blocker; then at least `blocker_clear_scans` such frames have come
since the last frame with one, each with a number other than the frame taken before it,
pairwise distinct if the numbers never go back.
-/
theorem blocker_law (tools : TextTools) (authority : Authority) (spawnedAt : SystemTime)
    (timing : ReducerTiming) (calls : List ReducerCall) :
    BlockerShown (run (step tools) (start authority spawnedAt timing) calls) ∧
    ∀ front b middle s back,
      history tools (start authority spawnedAt timing) calls = front ++ b :: (middle ++ s :: back) →
      showsBlocker b.before b.event = true →
      (∀ x ∈ middle, isNeedsInput x.after.status = true) →
      isNeedsInput s.after.status = false →
      isProcessExit s.event = true ∨ mainWorkHook s.event = true ∨
        ((missedFrame s.before s.event).isSome = true ∧
          timing.blockerClearScans ≤ (misses (front ++ b :: middle ++ [s])).length ∧
          (misses (front ++ b :: middle ++ [s])).IsChain (· ≠ ·) ∧
          ((screenSeqs calls).Pairwise (· ≤ ·) →
            (misses (front ++ b :: middle ++ [s])).Nodup)) := by
  have hsound : ∀ calls, Sound (run (step tools) (start authority spawnedAt timing) calls) :=
    fun calls => (tally_run tools authority spawnedAt timing calls).sound
  refine ⟨(hsound calls).blocker, ?_⟩
  intro front b middle s back hrun hshown hstay hleave
  have hcut : history tools (start authority spawnedAt timing) calls
      = (front ++ b :: middle) ++ s :: back := by
    rw [hrun]
    simp
  obtain ⟨earlier, call, later, hfront, hb, hrest⟩ := history_split hrun
  obtain ⟨between, call', -, hmiddle, hs, -⟩ := history_split hrest.symm
  -- the prompt is up after `b`, and its tally runs until the step that ends it
  have htiming : (run (step tools) (start authority spawnedAt timing) earlier).timing = timing :=
    (tally_run tools authority spawnedAt timing earlier).config
  have hwatch : Watch timing (front ++ [b]) b.after := by
    rw [hb] at hshown ⊢
    have hstart := watch_shown tools front hshown
    rwa [show (take (step tools) _ call).before.timing = timing from htiming] at hstart
  have hpast := watch_run tools hwatch between (by rw [← hmiddle]; exact hstay)
  rw [← hmiddle, List.append_assoc, List.singleton_append] at hpast
  have hleft := hpast.leave tools call' (by rw [hs] at hleave; exact hleave)
  have hstep : take (step tools) (run (step tools) b.after between) call' = s := hs.symm
  rw [hstep] at hleft
  have hevent : s.event = call' := by rw [hs]; rfl
  have hbefore : s.before = run (step tools) b.after between := by rw [hs]; rfl
  rw [hevent, hbefore]
  rcases hleft with hexit | hwork | ⟨hmissed, henough, hchain⟩
  · exact Or.inl hexit
  · exact Or.inr (Or.inl hwork)
  · refine Or.inr (Or.inr ⟨hmissed, henough, hchain, fun hsorted => ?_⟩)
    refine nodup_of_isChain_ne hchain (hsorted.sublist ?_)
    refine seqs_sublist ?_ hcut (List.rtakeWhile_suffix _ _)
    intro x seq hx
    exact (freshFrame_new (missedFrame_some hx).2).1

/-- A screen-primary agent shows a permission prompt, then a few other screens. -/
def promptThen (frames : List (ManifestState × UInt64)) : List ReducerCall :=
  ((.blockedPermission, 1) :: frames).zipIdx.map fun (frame, n) =>
    .signal (.screen ⟨frame.1, "rule", 0, frame.2, none, none⟩) (4 * 10 ^ 9 + n * 10 ^ 8)

/-- The steps of such a run, with `scans` misses asked for. -/
def promptHistory (scans : Nat) (frames : List (ManifestState × UInt64)) : List ReducerStep :=
  history plainTools
    (start .screenPrimary 0 { ReducerTiming.default with blockerClearScans := scans })
    (promptThen frames)

/-- What a screen observation shows. -/
def shownState : ReducerCall → Option ManifestState
  | .signal (.screen observation) _ => some observation.state
  | _ => none

/-- Neither a skip screen nor a blocker. -/
def releases (state : ManifestState) : Bool :=
  state != .skip && (needsInputKind state).isNone

/-- Two idle frames clear the prompt. -/
theorem blocker_law_two_misses :
    (promptHistory 2 [(.idle, 2), (.idle, 3)]).getLast?.map (·.after.status) = some .idle ∧
    2 ≤ (misses (promptHistory 2 [(.idle, 2), (.idle, 3)])).length := by
  have h := (blocker_law plainTools .screenPrimary 0
    { ReducerTiming.default with blockerClearScans := 2 } (promptThen [(.idle, 2), (.idle, 3)])).2
    [] _ ((promptHistory 2 [(.idle, 2), (.idle, 3)]).drop 1 |>.take 1) _ [] rfl rfl (by decide) rfl
  refine ⟨by decide, ?_⟩
  rcases h with hexit | hwork | ⟨-, henough, -⟩
  · exact absurd hexit (by decide)
  · exact absurd hwork (by decide)
  · exact henough

/--
Where a skip screen comes between, and where the numbers go back.  With two misses asked
for, idle frames on both sides of a skip screen clear the prompt, though no two frames in a
row are both neither skipped nor blockers; with three, frames 2, 3, 2 do, though only two of
them are distinct.  No exit and no hook is involved in either.
-/
theorem blocker_law_skip_between :
    ((promptHistory 2 [(.idle, 2), (.skip, 3), (.idle, 4)]).getLast?.map fun s =>
        (s.before.status, s.after.status)) = some (.needsInput .permission, .idle) ∧
      ((promptThen [(.idle, 2), (.skip, 3), (.idle, 4)]).filterMap shownState).IsChain
        (fun state next => ¬ (releases state = true ∧ releases next = true)) ∧
      (∀ s ∈ promptHistory 2 [(.idle, 2), (.skip, 3), (.idle, 4)],
        isProcessExit s.event = false ∧ mainWorkHook s.event = false) ∧
      ((promptHistory 3 [(.idle, 2), (.idle, 3), (.idle, 2)]).getLast?.map fun s =>
        (s.before.status, s.after.status)) = some (.needsInput .permission, .idle) ∧
      (misses (promptHistory 3 [(.idle, 2), (.idle, 3), (.idle, 2)])).dedup.length < 3 ∧
      (∀ s ∈ promptHistory 3 [(.idle, 2), (.idle, 3), (.idle, 2)],
        isProcessExit s.event = false ∧ mainWorkHook s.event = false) := by
  decide

end Homie
