/-
A turn is reported complete once.

A completion can be committed by a hook, a screen frame or a tick, whichever comes
when the flag left by a strong idle signal is still up.  What carries the law is that
the flag has one source and four sinks: a strong idle signal raises it, and work, a
request for input, a commit and nothing else take it down.  So along every run the
flag, seen while working, remembers a strong idle signal since the last work.
-/
import Homie.Lib.Trace
import Homie.Proofs.StatusSound

namespace Homie

open Trace

namespace StatusReducer

/-! ### Runs -/

abbrev ReducerStep := Step StatusReducer ReducerCall ReducerOutcome

/-- A session's reducer as it starts, in any configuration. -/
def start (authority : Authority) (spawnedAt : SystemTime) (timing : ReducerTiming) :
    StatusReducer :=
  (new authority spawnedAt).withTiming timing

/-- The steps a list of calls takes from `r`, oldest first. -/
def history (tools : TextTools) (r : StatusReducer) (calls : List ReducerCall) :
    List ReducerStep :=
  trace (step tools) r calls

theorem history_split {tools : TextTools} {r : StatusReducer} {calls : List ReducerCall}
    {front back : List ReducerStep} {s : ReducerStep}
    (h : history tools r calls = front ++ s :: back) :
    ∃ earlier call later, front = history tools r earlier ∧
      s = take (step tools) (run (step tools) r earlier) call ∧
      back = history tools s.after later :=
  trace_split (step tools) h

/-- The signal was positive work. -/
def Worked (s : ReducerStep) : Prop := classify s.before s.event = .work

/-- The signal ended a turn for sure. -/
def StrongIdle (s : ReducerStep) : Prop := classify s.before s.event = .strongIdle

/-- The step took the session into needs-input. -/
def Asked (s : ReducerStep) : Prop := ∃ kind, s.outcome.statusChange = some (.needsInput kind)

/-- Neither work nor a needs-input transition. -/
def Undisturbed (s : ReducerStep) : Prop := ¬ Worked s ∧ ¬ Asked s

theorem undisturbed_of {s : ReducerStep} (h : classify s.before s.event ≠ .work)
    (hchange : s.outcome.statusChange = none ∨ s.outcome.statusChange = some .idle) :
    Undisturbed s := by
  refine ⟨h, ?_⟩
  rintro ⟨kind, hkind⟩
  rcases hchange with hc | hc
  · rw [hc] at hkind
    cases hkind
  · rw [hc] at hkind
    cases hkind

/-! ### The pending flag remembers a strong idle signal -/

/-- Sound, and while working the pending flag has its strong idle signal behind it. -/
structure Pending (past : List ReducerStep) (r : StatusReducer) : Prop where
  sound : Sound r
  strong : r.status = .working → r.candidacy.pending = true → Since StrongIdle Undisturbed past

theorem Pending.step {past : List ReducerStep} {r : StatusReducer} (h : Pending past r)
    (tools : TextTools) (call : ReducerCall) :
    Pending (past ++ [take (step tools) r call]) (r.step tools call).1 := by
  refine ⟨h.sound.step tools call, ?_⟩
  intro hw hpending
  cases step_moves tools h.sound call with
  | work hclass status candidacy completed =>
    rw [candidacy] at hpending
    cases hpending
  | rest hclass before status completed => exact absurd hw status
  | ask hclass before status completed =>
    rw [hw] at status
    cases status
  | leave hclass before status completed =>
    rcases status with status | status
    · rw [hw] at status
      cases status
    · rw [hw] at status
      cases status
  | stay hclass before status candidacy change completed =>
    rw [candidacy] at hpending
    refine (h.strong before hpending).concat (undisturbed_of ?_ (Or.inl change))
    show classify r call ≠ .work
    rw [hclass]
    decide
  | arm now hclass before status candidacy change completed => exact since_now hclass
  | confirm hcall hclass before status candidacy unripe change completed =>
    rw [candidacy] at hpending
    refine (h.strong before hpending).concat (undisturbed_of ?_ (Or.inl change))
    show classify r call ≠ .work
    rw [hclass]
    decide
  | commit cause before status change completed =>
    rw [hw] at status
    cases status

theorem pending_run (tools : TextTools) {r : StatusReducer} (hsound : Sound r)
    (hr : r.status ≠ .working) (calls : List ReducerCall) :
    Pending (history tools r calls) (run (step tools) r calls) :=
  trace_invariant (step tools) (P := Pending) ⟨hsound, fun hw => absurd hw hr⟩
    (fun _ _ call h => h.step tools call) calls

theorem Pending.completed {past : List ReducerStep} {r : StatusReducer} (h : Pending past r)
    (tools : TextTools) (call : ReducerCall)
    (hdone : (r.step tools call).2.turnCompleted = true) :
    (r.step tools call).2.statusChange = some .idle ∧ r.status = .working ∧
      (r.step tools call).1.status = .idle ∧
      Since StrongIdle Undisturbed (past ++ [take (StatusReducer.step tools) r call]) := by
  cases step_moves tools h.sound call with
  | work hclass status candidacy completed => rw [completed] at hdone; cases hdone
  | rest hclass before status completed => rw [completed] at hdone; cases hdone
  | ask hclass before status completed => rw [completed] at hdone; cases hdone
  | leave hclass before status completed => rw [completed] at hdone; cases hdone
  | stay hclass before status candidacy change completed => rw [completed] at hdone; cases hdone
  | arm now hclass before status candidacy change completed => rw [completed] at hdone; cases hdone
  | confirm hcall hclass before status candidacy unripe change completed =>
    rw [completed] at hdone; cases hdone
  | commit cause before status change completed =>
    rw [completed] at hdone
    refine ⟨change, before, status, ?_⟩
    cases cause with
    | strong hclass => exact since_now hclass
    | frame hcall hclass ripe =>
      refine (h.strong before hdone).concat (undisturbed_of ?_ (Or.inr change))
      show classify r call ≠ .work
      rw [hclass]
      decide
    | tick hclass hstrong =>
      refine (h.strong before hdone).concat (undisturbed_of ?_ (Or.inr change))
      show classify r call ≠ .work
      rw [hclass]
      decide

/-! ### Back to working only by work -/

/-- A work signal that moved the reducer to working. -/
def Resumed (s : ReducerStep) : Prop :=
  Worked s ∧ s.before.status ≠ .working ∧ s.after.status = .working

theorem resumed_of_enters {tools : TextTools} {r : StatusReducer} (hsound : Sound r)
    {call : ReducerCall} (hr : r.status ≠ .working)
    (hw : (r.step tools call).1.status = .working) : Resumed (take (step tools) r call) := by
  cases step_moves tools hsound call with
  | work hclass status candidacy completed => exact ⟨hclass, hr, hw⟩
  | rest hclass before status completed => exact absurd hw status
  | ask hclass before status completed => exact absurd before hr
  | leave hclass before status completed => exact absurd before hr
  | stay hclass before status candidacy change completed => exact absurd before hr
  | arm now hclass before status candidacy change completed => exact absurd before hr
  | confirm hcall hclass before status candidacy unripe change completed => exact absurd before hr
  | commit cause before status change completed => exact absurd before hr

theorem exists_resumed (tools : TextTools) {r : StatusReducer} (hsound : Sound r)
    (hr : r.status ≠ .working) (calls : List ReducerCall)
    (hw : (run (step tools) r calls).status = .working) :
    ∃ s ∈ history tools r calls, Resumed s := by
  have hinv := trace_invariant (step tools) (s := r)
    (P := fun past r' => Sound r' ∧ (r'.status = .working → ∃ s ∈ past, Resumed s))
    ⟨hsound, fun h => absurd h hr⟩ ?_ calls
  · exact hinv.2 hw
  · rintro past r' call ⟨hs, hpast⟩
    refine ⟨hs.step tools call, ?_⟩
    intro hnow
    by_cases hbefore : r'.status = .working
    · obtain ⟨s, hmem, hres⟩ := hpast hbefore
      exact ⟨s, List.mem_append_left _ hmem, hres⟩
    · exact ⟨_, List.mem_append_right _ (List.mem_singleton.mpr rfl),
        resumed_of_enters hs hbefore hnow⟩

theorem start_status_ne (authority : Authority) (spawnedAt : SystemTime) (timing : ReducerTiming) :
    (start authority spawnedAt timing).status ≠ .working := by
  show SessionStatus.starting ≠ .working
  decide

end StatusReducer

open StatusReducer

/--
**A turn is reported complete once.**  In every run of every configuration, between two
completions there is a work signal that moved the reducer to working; and a completion
carries a change to idle, on a strong idle signal after the last work signal, with no
needs-input transition in between.
-/
theorem turn_completion (tools : TextTools) (authority : Authority) (spawnedAt : SystemTime)
    (timing : ReducerTiming) (calls : List ReducerCall) :
    (∀ front first middle second back,
      history tools (start authority spawnedAt timing) calls
        = front ++ first :: (middle ++ second :: back) →
      first.outcome.turnCompleted = true → second.outcome.turnCompleted = true →
        ∃ s ∈ middle, Resumed s) ∧
    (∀ front s back,
      history tools (start authority spawnedAt timing) calls = front ++ s :: back →
      s.outcome.turnCompleted = true →
        s.outcome.statusChange = some .idle ∧ Since StrongIdle Undisturbed (front ++ [s])) := by
  have hsound : Sound (start authority spawnedAt timing) := sound_new authority spawnedAt timing
  have hstart := start_status_ne authority spawnedAt timing
  refine ⟨?_, ?_⟩
  · intro front first middle second back h hfirst hsecond
    obtain ⟨earlier, call, later, -, rfl, hrest⟩ := history_split h
    have hpending := pending_run tools hsound hstart earlier
    obtain ⟨-, -, hidle, -⟩ := hpending.completed tools call hfirst
    -- the rest of the run starts idle, and the second completion finds it working
    have hsound' := hpending.sound.step tools call
    have hne : ((run (step tools) (start authority spawnedAt timing) earlier).step tools
        call).1.status ≠ .working := by
      rw [hidle]
      decide
    obtain ⟨between, call', -, hmiddle, rfl, -⟩ := history_split hrest.symm
    obtain ⟨-, hworking, -, -⟩ :=
      (pending_run tools hsound' hne between).completed tools call' hsecond
    rw [hmiddle]
    exact exists_resumed tools hsound' hne between hworking
  · intro front s back h hdone
    obtain ⟨earlier, call, -, rfl, rfl, -⟩ := history_split h
    have hpending := pending_run tools hsound hstart earlier
    obtain ⟨hchange, -, -, hsince⟩ := hpending.completed tools call hdone
    exact ⟨hchange, hsince⟩

/-- Texts with nothing to mask and no capitals. -/
def plainTools : TextTools := ⟨id, id⟩

/-- Two turns of a hooks-primary agent, one second apart: prompt, stop, tick, twice. -/
def twoTurns : List ReducerCall :=
  [.signal (.claudeHook .userPromptSubmit false) (1 * 10 ^ 9),
    .signal (.claudeHook .stop false) (2 * 10 ^ 9), .signal .tick (3 * 10 ^ 9),
    .signal (.claudeHook .userPromptSubmit false) (4 * 10 ^ 9),
    .signal (.claudeHook .stop false) (5 * 10 ^ 9), .signal .tick (6 * 10 ^ 9)]

/-- The steps those two turns take. -/
def twoTurnsHistory : List ReducerStep :=
  history plainTools (start .hooksPrimary 0 .default) twoTurns

theorem turn_completion_two_turns :
    twoTurnsHistory.map (·.outcome.turnCompleted) = [false, false, true, false, false, true] ∧
    (∃ s ∈ (twoTurnsHistory.drop 3).take 2, Resumed s) ∧
    Since StrongIdle Undisturbed twoTurnsHistory := by
  have h := turn_completion plainTools .hooksPrimary 0 .default twoTurns
  refine ⟨by decide, ?_, ?_⟩
  · exact h.1 (twoTurnsHistory.take 2) _ ((twoTurnsHistory.drop 3).take 2) _ [] rfl rfl rfl
  · exact (h.2 (twoTurnsHistory.take 5) _ [] rfl rfl).2

end Homie

/-! ### A session does not flicker from working to idle

The candidacy counter, its start and the strong flag are four fields, reset from hooks,
frames and ticks.  The invariant says what they stand for: while working, they tally
the idle frames taken since the last work or needs-input signal.  Leaving `working`
for idle then needs a strong idle signal among those, enough frames, or a frame late
enough after the first.

The reducer compares a frame's sequence number with the last one only, so what it
guarantees is that neighbouring frames differ.  They are pairwise distinct when the
numbers never go back, which is how the engine counts them.
-/

namespace Homie

open Trace

namespace StatusReducer

/-! ### The candidacy's stretch of a run -/

/-- A work or needs-input signal, after which the tally starts again. -/
def disturbs (s : ReducerStep) : Bool :=
  classify s.before s.event == .work || classify s.before s.event == .needsInput

/-- The steps since the last work or needs-input signal. -/
def stretch (past : List ReducerStep) : List ReducerStep :=
  past.rtakeWhile fun s => !disturbs s

/-- The sequence number and time of a step that took an idle frame. -/
def idleFrame (s : ReducerStep) : Option (UInt64 × SystemTime) :=
  match s.event with
  | .signal (.screen observation) now =>
    if classify s.before s.event = .idleFrame then some (observation.contentSeq, now) else none
  | _ => none

/-- The idle frames taken in a stretch of steps, oldest first. -/
def idleFrames (steps : List ReducerStep) : List (UInt64 × SystemTime) :=
  steps.filterMap idleFrame

theorem stretch_disturbed (past : List ReducerStep) {s : ReducerStep}
    (h : classify s.before s.event = .work ∨ classify s.before s.event = .needsInput) :
    stretch (past ++ [s]) = [] := by
  refine List.rtakeWhile_concat_neg _ _ _ ?_
  rcases h with h | h <;> simp [disturbs, h]

theorem stretch_concat (past : List ReducerStep) {s : ReducerStep} {c : SignalClass}
    (h : classify s.before s.event = c) (hwork : c ≠ .work) (hask : c ≠ .needsInput) :
    stretch (past ++ [s]) = stretch past ++ [s] := by
  refine List.rtakeWhile_concat_pos _ _ _ ?_
  subst h
  simp [disturbs, hwork, hask]

theorem idleFrame_none {s : ReducerStep} (h : classify s.before s.event ≠ .idleFrame) :
    idleFrame s = none := by
  unfold idleFrame
  split
  · rw [if_neg h]
  · rfl

theorem idleFrames_concat (steps : List ReducerStep) (s : ReducerStep) :
    idleFrames (steps ++ [s]) = idleFrames steps ++ (idleFrame s).toList := by
  unfold idleFrames
  rw [List.filterMap_append]
  cases h : idleFrame s <;> simp [h]

theorem idleFrames_other (past : List ReducerStep) {s : ReducerStep} {c : SignalClass}
    (h : classify s.before s.event = c) (hwork : c ≠ .work) (hask : c ≠ .needsInput)
    (hidle : c ≠ .idleFrame) : idleFrames (stretch (past ++ [s])) = idleFrames (stretch past) := by
  rw [stretch_concat past h hwork hask, idleFrames_concat, idleFrame_none (by rw [h]; exact hidle)]
  exact List.append_nil _

theorem idleFrames_frame (past : List ReducerStep) {s : ReducerStep}
    {observation : ScreenObservation} {now : SystemTime}
    (hcall : s.event = .signal (.screen observation) now)
    (h : classify s.before s.event = .idleFrame) :
    idleFrames (stretch (past ++ [s]))
      = idleFrames (stretch past) ++ [(observation.contentSeq, now)] := by
  have hframe : idleFrame s = some (observation.contentSeq, now) := by
    rw [idleFrame, hcall]
    rw [hcall] at h
    exact if_pos h
  rw [stretch_concat past h (by decide) (by decide), idleFrames_concat, hframe]
  rfl

/-! ### Fresh frames while working -/

/-- Stale frames are of no class; a fresh one is what it shows. -/
theorem freshFrame_screen (r : StatusReducer) (observation : ScreenObservation)
    (now : SystemTime) :
    freshFrame r (.signal (.screen observation) now) = none ∧
        classify r (.signal (.screen observation) now) = .other ∨
      freshFrame r (.signal (.screen observation) now) = some observation.contentSeq ∧
        observation.state ≠ .skip ∧ r.state.lastScreenSeq ≠ some observation.contentSeq ∧
        classify r (.signal (.screen observation) now) = classifyScreen r observation now := by
  simp only [freshFrame, classify]
  by_cases hexit : isExited r.status = true
  · simp [hexit]
  by_cases hproc : r.authority = .processOnly
  · simp [hproc]
  by_cases hskip : observation.state = .skip
  · refine Or.inl ⟨by simp [hskip], ?_⟩
    rw [if_neg hexit, if_neg hproc, classifyFull, classifyScreen, hskip]
    split <;> rfl
  by_cases hseq : r.state.lastScreenSeq = some observation.contentSeq
  · refine Or.inl ⟨by simp [hseq], ?_⟩
    rw [if_neg hexit, if_neg hproc, classifyFull, classifyScreen, if_pos hseq]
  · refine Or.inr ⟨by simp [hexit, hproc, hskip, hseq], hskip, hseq, ?_⟩
    rw [if_neg hexit, if_neg hproc, classifyFull]

/-- While working a fresh frame is never held: it is work, a blocker or an idle frame. -/
theorem freshFrame_working {r : StatusReducer} (hsound : Sound r) (hw : r.status = .working)
    {call : ReducerCall} (h : classify r call = .other ∨ classify r call = .strongIdle) :
    freshFrame r call = none := by
  cases call with
  | finishStartupGrace now => rfl
  | signal signal now =>
    cases signal with
    | screen observation =>
      rcases freshFrame_screen r observation now with ⟨hnone, -⟩ | ⟨-, hskip, hseq, hclass⟩
      · exact hnone
      have hheld : held r observation now = false := by
        have hoff := hsound.blocker.off_of hw rfl rfl
        simp [held, hoff, graceHolds, hw]
      exfalso
      rw [hclass, classifyScreen, if_neg hseq, hheld] at h
      cases hstate : observation.state with
      | skip => exact hskip hstate
      | working => simp [hstate] at h
      | idle => simp [hstate] at h
      | blockedPermission => simp [hstate] at h
      | blockedQuestion => simp [hstate] at h
    | claudeHook hook isSubagent => rfl
    | codexTurnComplete => rfl
    | ptyOutputActivity => rfl
    | userKeystroke => rfl
    | processExit code sig => rfl
    | tick => rfl

theorem freshFrame_idleFrame {r : StatusReducer} {observation : ScreenObservation}
    {now : SystemTime} (h : classify r (.signal (.screen observation) now) = .idleFrame) :
    freshFrame r (.signal (.screen observation) now) = some observation.contentSeq ∧
      r.state.lastScreenSeq ≠ some observation.contentSeq := by
  rcases freshFrame_screen r observation now with ⟨-, hother⟩ | ⟨hfresh, -, hseq, -⟩
  · rw [h] at hother
    cases hother
  · exact ⟨hfresh, hseq⟩

/-! ### What the four fields tally -/

structure Tally (timing : ReducerTiming) (past : List ReducerStep) (r : StatusReducer) :
    Prop where
  sound : Sound r
  config : r.timing = timing
  strong : r.status = .working → r.candidacy.strong = true → ∃ s ∈ stretch past, StrongIdle s
  count : r.status = .working → r.candidacy.strong = false →
    r.candidacy.confirms = (idleFrames (stretch past)).length ∧
      r.candidacy.since = (idleFrames (stretch past)).head?.map Prod.snd
  last : r.status = .working → ∀ frame ∈ (idleFrames (stretch past)).getLast?,
    r.state.lastScreenSeq = some frame.1
  chain : r.status = .working →
    (idleFrames (stretch past)).IsChain fun frame frame' => frame.1 ≠ frame'.1
  cap : r.status = .working → timing.idleConfirmCap = 0 → idleFrames (stretch past) = []

theorem Tally.of_ne {timing : ReducerTiming} {past : List ReducerStep} {r : StatusReducer}
    (sound : Sound r) (config : r.timing = timing) (h : r.status ≠ .working) :
    Tally timing past r :=
  ⟨sound, config, fun hw => absurd hw h, fun hw => absurd hw h, fun hw => absurd hw h,
    fun hw => absurd hw h, fun hw => absurd hw h⟩

/-- A step that takes no frame keeps the tally, if it keeps the candidacy or arms it. -/
theorem Tally.carry {timing : ReducerTiming} {past : List ReducerStep} {r : StatusReducer}
    (h : Tally timing past r) (tools : TextTools) {call : ReducerCall} (hw : r.status = .working)
    (hclass : classify r call = .other ∧ (r.step tools call).1.candidacy = r.candidacy ∨
      classify r call = .strongIdle ∧ (r.step tools call).1.candidacy.strong = true) :
    Tally timing (past ++ [take (StatusReducer.step tools) r call]) (r.step tools call).1 := by
  obtain ⟨-, htiming, hseq⟩ := step_seesFrame tools r call
  have hfresh : freshFrame r call = none :=
    freshFrame_working h.sound hw (hclass.imp And.left And.left)
  rw [hfresh, Option.none_or] at hseq
  have hframes : idleFrames (stretch (past ++ [take (StatusReducer.step tools) r call]))
      = idleFrames (stretch past) := by
    rcases hclass with ⟨hclass, -⟩ | ⟨hclass, -⟩
    · exact idleFrames_other past hclass (by decide) (by decide) (by decide)
    · exact idleFrames_other past hclass (by decide) (by decide) (by decide)
  have hstretch : stretch (past ++ [take (StatusReducer.step tools) r call])
      = stretch past ++ [take (StatusReducer.step tools) r call] := by
    rcases hclass with ⟨hclass, -⟩ | ⟨hclass, -⟩
    · exact stretch_concat past hclass (by decide) (by decide)
    · exact stretch_concat past hclass (by decide) (by decide)
  refine ⟨h.sound.step tools call, htiming.trans h.config, ?_, ?_, ?_, ?_, ?_⟩
  · intro _ hstrong
    rw [hstretch]
    rcases hclass with ⟨-, hcand⟩ | ⟨hclass, -⟩
    · rw [hcand] at hstrong
      obtain ⟨s, hmem, hs⟩ := h.strong hw hstrong
      exact ⟨s, List.mem_append_left _ hmem, hs⟩
    · exact ⟨_, List.mem_append_right _ (List.mem_singleton.mpr rfl), hclass⟩
  · intro _ hstrong
    rcases hclass with ⟨-, hcand⟩ | ⟨-, harmed⟩
    · rw [hcand] at hstrong ⊢
      rw [hframes]
      exact h.count hw hstrong
    · rw [harmed] at hstrong
      cases hstrong
  · intro _
    rw [hframes, hseq]
    exact h.last hw
  · intro _
    rw [hframes]
    exact h.chain hw
  · intro _ hcap
    rw [hframes]
    exact h.cap hw hcap

theorem Tally.confirm_count {timing : ReducerTiming} {past : List ReducerStep}
    {r : StatusReducer} (h : Tally timing past r) (hw : r.status = .working)
    (hstrong : r.candidacy.strong = false) (seq : UInt64) (now : SystemTime) :
    (r.candidacy.confirm now).confirms = (idleFrames (stretch past) ++ [(seq, now)]).length ∧
      (r.candidacy.confirm now).since
        = (idleFrames (stretch past) ++ [(seq, now)]).head?.map Prod.snd := by
  obtain ⟨hcount, hsince⟩ := h.count hw hstrong
  simp only [Candidacy.confirm, hcount, hsince, List.length_append, List.length_singleton]
  cases idleFrames (stretch past) with
  | nil => exact ⟨rfl, rfl⟩
  | cons first rest => exact ⟨rfl, rfl⟩

theorem Tally.confirm_chain {timing : ReducerTiming} {past : List ReducerStep}
    {r : StatusReducer} (h : Tally timing past r) (hw : r.status = .working) {seq : UInt64}
    (hnew : r.state.lastScreenSeq ≠ some seq) (now : SystemTime) :
    (idleFrames (stretch past) ++ [(seq, now)]).IsChain fun frame frame' => frame.1 ≠ frame'.1 := by
  refine (h.chain hw).append (List.isChain_singleton _) ?_
  intro frame hframe frame' hframe'
  rw [List.head?_singleton, Option.mem_some] at hframe'
  intro heq
  rw [← hframe'] at heq
  exact hnew ((h.last hw frame hframe).trans (congrArg some heq))

/-- An idle frame that is not enough yet is one more in the tally. -/
theorem Tally.frame {timing : ReducerTiming} {past : List ReducerStep} {r : StatusReducer}
    (h : Tally timing past r) (tools : TextTools) {observation : ScreenObservation}
    {now : SystemTime} (hw : r.status = .working)
    (hclass : classify r (.signal (.screen observation) now) = .idleFrame)
    (hcand : (r.step tools (.signal (.screen observation) now)).1.candidacy
      = r.candidacy.confirm now)
    (hunripe : ¬ (r.candidacy.confirm now).Ripe r.timing now) :
    Tally timing
      (past ++ [take (StatusReducer.step tools) r (.signal (.screen observation) now)])
      (r.step tools (.signal (.screen observation) now)).1 := by
  obtain ⟨-, htiming, hseq⟩ := step_seesFrame tools r (.signal (.screen observation) now)
  obtain ⟨hfresh, hnew⟩ := freshFrame_idleFrame hclass
  rw [hfresh, Option.some_or] at hseq
  have hframes := idleFrames_frame past
    (s := take (StatusReducer.step tools) r (.signal (.screen observation) now)) rfl hclass
  have hstretch := stretch_concat past
    (s := take (StatusReducer.step tools) r (.signal (.screen observation) now))
    hclass (by decide) (by decide)
  refine ⟨h.sound.step tools _, htiming.trans h.config, ?_, ?_, ?_, ?_, ?_⟩
  · intro _ hstrong
    rw [hcand] at hstrong
    obtain ⟨s, hmem, hs⟩ := h.strong hw hstrong
    rw [hstretch]
    exact ⟨s, List.mem_append_left _ hmem, hs⟩
  · intro _ hstrong
    rw [hcand] at hstrong ⊢
    rw [hframes]
    exact h.confirm_count hw hstrong observation.contentSeq now
  · intro _ frame hframe
    rw [hframes, List.getLast?_concat] at hframe
    rw [hseq, ← Option.mem_some.mp hframe]
  · intro _
    rw [hframes]
    exact h.confirm_chain hw hnew now
  · intro _ hcap
    refine absurd (Or.inr ⟨?_, ?_⟩) hunripe
    · rw [h.config, hcap]
      exact Nat.zero_le _
    · simp only [Candidacy.confirm]
      split <;> omega

theorem Tally.step {timing : ReducerTiming} {past : List ReducerStep} {r : StatusReducer}
    (h : Tally timing past r) (tools : TextTools) (call : ReducerCall) :
    Tally timing (past ++ [take (StatusReducer.step tools) r call]) (r.step tools call).1 := by
  have hsound := h.sound.step tools call
  have hconfig := (step_seesFrame tools r call).2.1.trans h.config
  cases step_moves tools h.sound call with
  | work hclass status candidacy completed =>
    have hempty := stretch_disturbed past
      (s := take (StatusReducer.step tools) r call) (Or.inl hclass)
    refine ⟨hsound, hconfig, ?_, ?_, ?_, ?_, ?_⟩
    · intro _ hstrong
      rw [candidacy] at hstrong
      cases hstrong
    · intro _ _
      rw [candidacy, hempty]
      exact ⟨rfl, rfl⟩
    · intro _ frame hframe
      rw [hempty] at hframe
      cases hframe
    · intro _
      rw [hempty]
      exact List.IsChain.nil
    · intro _ _
      rw [hempty]
      rfl
  | rest hclass before status completed => exact Tally.of_ne hsound hconfig status
  | ask hclass before status completed =>
    refine Tally.of_ne hsound hconfig ?_
    intro hw
    rw [hw] at status
    cases status
  | leave hclass before status completed =>
    refine Tally.of_ne hsound hconfig ?_
    intro hw
    rw [hw] at status
    rcases status with status | status
    · cases status
    · cases status
  | stay hclass before status candidacy change completed =>
    exact h.carry tools before (Or.inl ⟨hclass, candidacy⟩)
  | arm now hclass before status candidacy change completed =>
    exact h.carry tools before (Or.inr ⟨hclass, by rw [candidacy]; rfl⟩)
  | confirm hcall hclass before status candidacy unripe change completed =>
    subst hcall
    exact h.frame tools before hclass candidacy unripe
  | commit cause before status change completed =>
    refine Tally.of_ne hsound hconfig ?_
    rw [status]
    decide

theorem tally_run (tools : TextTools) (authority : Authority) (spawnedAt : SystemTime)
    (timing : ReducerTiming) (calls : List ReducerCall) :
    Tally timing (history tools (start authority spawnedAt timing) calls)
      (run (StatusReducer.step tools) (start authority spawnedAt timing) calls) :=
  trace_invariant (StatusReducer.step tools) (P := Tally timing)
    (Tally.of_ne (sound_new authority spawnedAt timing) rfl
      (start_status_ne authority spawnedAt timing))
    (fun _ _ call h => h.step tools call) calls

/-! ### Sequence numbers that never go back -/

/-- The content sequence number of a screen observation. -/
def screenSeq : ReducerCall → Option UInt64
  | .signal (.screen observation) _ => some observation.contentSeq
  | _ => none

/-- The content sequence numbers among `calls`, in order. -/
def screenSeqs (calls : List ReducerCall) : List UInt64 := calls.filterMap screenSeq

theorem screenSeq_of_idleFrame {s : ReducerStep} {frame : UInt64 × SystemTime}
    (h : idleFrame s = some frame) : screenSeq s.event = some frame.1 := by
  unfold idleFrame at h
  split at h
  · rename_i observation now hevent
    rw [hevent]
    split at h
    · cases h
      rfl
    · cases h
  · cases h

theorem frames_seqs {frame : ReducerStep → Option UInt64}
    (hframe : ∀ {s seq}, frame s = some seq → screenSeq s.event = some seq)
    (steps : List ReducerStep) :
    (steps.filterMap frame).Sublist (screenSeqs (steps.map Step.event)) := by
  induction steps with
  | nil => exact List.Sublist.slnil
  | cons s steps ih =>
    unfold screenSeqs at *
    rw [List.map_cons, List.filterMap_cons, List.filterMap_cons]
    cases hs : frame s with
    | some seq =>
      rw [hframe hs]
      exact ih.cons_cons _
    | none =>
      cases hseq : screenSeq s.event with
      | none => exact ih
      | some seq => exact ih.cons _

/-- Neighbours that differ, in a list that never goes back, are all distinct. -/
theorem nodup_of_isChain_ne {seqs : List UInt64} (hne : seqs.IsChain (· ≠ ·))
    (hle : seqs.Pairwise (· ≤ ·)) : seqs.Nodup := by
  have hlt : seqs.IsChain (· < ·) := by
    induction hne with
    | nil => exact .nil
    | singleton seq => exact .singleton seq
    | cons_cons hne hrest ih =>
      obtain ⟨hfirst, hle⟩ := List.pairwise_cons.mp hle
      refine .cons_cons ?_ (ih hle)
      exact UInt64.lt_of_le_of_ne (hfirst _ (List.mem_cons_self)) hne
  exact hlt.pairwise.imp fun h => UInt64.ne_of_lt h

theorem seqs_sublist {tools : TextTools} {r : StatusReducer} {calls : List ReducerCall}
    {front back steps : List ReducerStep} {s : ReducerStep} {frame : ReducerStep → Option UInt64}
    (hframe : ∀ {s seq}, frame s = some seq → screenSeq s.event = some seq)
    (h : history tools r calls = front ++ s :: back) (hsteps : steps <:+ front ++ [s]) :
    (steps.filterMap frame).Sublist (screenSeqs calls) := by
  have hevents : (history tools r calls).map Step.event = calls :=
    trace_events (StatusReducer.step tools) r calls
  have hfront : (front ++ [s]).Sublist (history tools r calls) := by
    rw [h, show front ++ s :: back = (front ++ [s]) ++ back by simp]
    exact List.sublist_append_left _ _
  have hcalls := ((hsteps.sublist.trans hfront).map Step.event).filterMap screenSeq
  rw [hevents] at hcalls
  exact (frames_seqs hframe steps).trans hcalls

theorem idleFrames_sublist {tools : TextTools} {r : StatusReducer} {calls : List ReducerCall}
    {front back : List ReducerStep} {s : ReducerStep}
    (h : history tools r calls = front ++ s :: back) :
    ((idleFrames (stretch (front ++ [s]))).map Prod.fst).Sublist (screenSeqs calls) := by
  have hmap : (idleFrames (stretch (front ++ [s]))).map Prod.fst
      = (stretch (front ++ [s])).filterMap fun s => (idleFrame s).map Prod.fst := by
    rw [idleFrames, List.map_filterMap]
  rw [hmap]
  refine seqs_sublist ?_ h (List.rtakeWhile_suffix _ _)
  intro s seq hs
  obtain ⟨frame, hframe, rfl⟩ := Option.map_eq_some_iff.mp hs
  exact screenSeq_of_idleFrame hframe

/-! ### Leaving working for idle -/

theorem SystemTime.add_le_of_le_durationSince {now since : Int} {cap : Nat} (hcap : cap ≠ 0)
    (h : cap ≤ SystemTime.durationSince now since) : since + cap ≤ now := by
  unfold SystemTime.durationSince at h
  omega

theorem SystemTime.not_add_le_self (now : Int) {cap : Nat} (hcap : 0 < cap) :
    ¬ now + (cap : Int) ≤ now := by
  omega

/--
A ripe candidacy without a strong signal: enough frames, or the last one late enough.
Without a cap the first frame is already ripe, so there is no earlier one to be late for.
-/
theorem Tally.ripe {timing : ReducerTiming} {past : List ReducerStep} {r : StatusReducer}
    (h : Tally timing past r) (hw : r.status = .working) (hstrong : r.candidacy.strong = false)
    (seq : UInt64) {now : SystemTime} (hripe : (r.candidacy.confirm now).Ripe r.timing now) :
    timing.idleConfirmations ≤ (idleFrames (stretch past) ++ [(seq, now)]).length ∨
      ∃ first, (idleFrames (stretch past) ++ [(seq, now)]).head? = some first ∧
        first.2 + timing.idleConfirmCap ≤ now := by
  obtain ⟨hcount, hsince⟩ := h.confirm_count hw hstrong seq now
  have hweak : (r.candidacy.confirm now).strong = false := hstrong
  unfold Candidacy.Ripe at hripe
  rw [hweak, hcount, hsince, h.config] at hripe
  rcases hripe with hmany | ⟨hlate, -⟩
  · exact Or.inl hmany
  · refine Or.inr ?_
    cases hframes : idleFrames (stretch past) with
    | nil =>
      rw [hframes] at hlate
      refine ⟨(seq, now), rfl, ?_⟩
      have hzero : timing.idleConfirmCap ≤ SystemTime.durationSince now now := hlate
      have hself : SystemTime.durationSince now now = 0 := by simp [SystemTime.durationSince]
      rw [hself, Nat.le_zero] at hzero
      rw [hzero]
      exact Int.le_of_eq (Int.add_zero now)
    | cons first rest =>
      rw [hframes] at hlate
      refine ⟨first, rfl, ?_⟩
      have hcap : timing.idleConfirmCap ≠ 0 := by
        intro hcap
        have := h.cap hw hcap
        rw [hframes] at this
        cases this
      exact SystemTime.add_le_of_le_durationSince hcap hlate

theorem Tally.settles {timing : ReducerTiming} {past : List ReducerStep} {r : StatusReducer}
    (h : Tally timing past r) (tools : TextTools) {call : ReducerCall} (hw : r.status = .working)
    (hidle : (r.step tools call).1.status = .idle) :
    (∃ s ∈ stretch (past ++ [take (StatusReducer.step tools) r call]), StrongIdle s) ∨
      ∃ seq now, idleFrame (take (StatusReducer.step tools) r call) = some (seq, now) ∧
        idleFrames (stretch (past ++ [take (StatusReducer.step tools) r call]))
          = idleFrames (stretch past) ++ [(seq, now)] ∧
        (idleFrames (stretch past) ++ [(seq, now)]).IsChain
          (fun frame frame' => frame.1 ≠ frame'.1) ∧
        (timing.idleConfirmations ≤ (idleFrames (stretch past) ++ [(seq, now)]).length ∨
          ∃ first, (idleFrames (stretch past) ++ [(seq, now)]).head? = some first ∧
            first.2 + timing.idleConfirmCap ≤ now) := by
  -- a strong signal earlier in the stretch is still in it after a step that disturbs nothing
  have hearlier : ∀ {c : SignalClass}, classify r call = c → c ≠ .work → c ≠ .needsInput →
      r.candidacy.strong = true →
      ∃ s ∈ stretch (past ++ [take (StatusReducer.step tools) r call]), StrongIdle s := by
    intro c hclass hwork hask hstrong
    obtain ⟨s, hmem, hs⟩ := h.strong hw hstrong
    rw [stretch_concat past (s := take (StatusReducer.step tools) r call) hclass hwork hask]
    exact ⟨s, List.mem_append_left _ hmem, hs⟩
  cases step_moves tools h.sound call with
  | work hclass status candidacy completed => rw [hidle] at status; cases status
  | rest hclass before status completed => exact absurd hw before
  | ask hclass before status completed => rw [hidle] at status; cases status
  | leave hclass before status completed =>
    rw [hidle] at status
    rcases status with status | status
    · cases status
    · cases status
  | stay hclass before status candidacy change completed => rw [hidle] at status; cases status
  | arm now hclass before status candidacy change completed => rw [hidle] at status; cases status
  | confirm hcall hclass before status candidacy unripe change completed =>
    rw [hidle] at status; cases status
  | commit cause before status change completed =>
    cases cause with
    | strong hclass =>
      refine Or.inl ⟨take (StatusReducer.step tools) r call, ?_, hclass⟩
      rw [stretch_concat past (s := take (StatusReducer.step tools) r call) hclass
        (by decide) (by decide)]
      exact List.mem_append_right _ (List.mem_singleton.mpr rfl)
    | tick hclass hstrong => exact Or.inl (hearlier hclass (by decide) (by decide) hstrong)
    | @frame observation now hcall hclass ripe =>
      cases hstrong : r.candidacy.strong with
      | true => exact Or.inl (hearlier hclass (by decide) (by decide) hstrong)
      | false =>
        subst hcall
        refine Or.inr ⟨observation.contentSeq, now, if_pos hclass, ?_, ?_, ?_⟩
        · exact idleFrames_frame past rfl hclass
        · exact h.confirm_chain hw (freshFrame_idleFrame hclass).2 now
        · exact h.ripe hw hstrong observation.contentSeq ripe

end StatusReducer

open StatusReducer

/--
**Only a strong idle signal or repeated idle frames end a turn.**  Every step from
working to idle has behind it, since the last work or needs-input signal, a strong idle
signal; or as many idle frames as `idle_confirmations` asks for, each with a sequence
number other than the one before it, pairwise distinct if the numbers never go back; or
it is itself an idle frame at least `idle_confirm_cap` after the first.  With two or
more confirmations asked for and a cap above zero, one frame alone never does it.
-/
theorem anti_flicker (tools : TextTools) (authority : Authority) (spawnedAt : SystemTime)
    (timing : ReducerTiming) (calls : List ReducerCall) (front back : List ReducerStep)
    (s : ReducerStep)
    (hrun : history tools (start authority spawnedAt timing) calls = front ++ s :: back)
    (hworking : s.before.status = .working) (hidle : s.after.status = .idle) :
    ((∃ x ∈ stretch (front ++ [s]), StrongIdle x) ∨
      (timing.idleConfirmations ≤ (idleFrames (stretch (front ++ [s]))).length ∧
        (idleFrames (stretch (front ++ [s]))).IsChain (fun frame frame' => frame.1 ≠ frame'.1) ∧
        ((screenSeqs calls).Pairwise (· ≤ ·) →
          ((idleFrames (stretch (front ++ [s]))).map Prod.fst).Nodup)) ∨
      (∃ first last, (idleFrames (stretch (front ++ [s]))).head? = some first ∧
        idleFrame s = some last ∧ first.2 + timing.idleConfirmCap ≤ last.2)) ∧
    (2 ≤ timing.idleConfirmations → 0 < timing.idleConfirmCap →
      (∀ x ∈ stretch (front ++ [s]), ¬ StrongIdle x) →
        2 ≤ (idleFrames (stretch (front ++ [s]))).length) := by
  have hseqs := idleFrames_sublist hrun
  obtain ⟨earlier, call, later, rfl, rfl, -⟩ := history_split hrun
  have htally := tally_run tools authority spawnedAt timing earlier
  rcases htally.settles tools hworking hidle with hstrong | ⟨seq, now, hframe, hframes, hchain, hripe⟩
  · refine ⟨Or.inl hstrong, ?_⟩
    intro _ _ hnone
    obtain ⟨x, hmem, hx⟩ := hstrong
    exact absurd hx (hnone x hmem)
  rw [hframes] at hseqs ⊢
  refine ⟨Or.inr ?_, ?_⟩
  · rcases hripe with hmany | ⟨first, hfirst, hlate⟩
    · refine Or.inl ⟨hmany, hchain, ?_⟩
      intro hsorted
      exact nodup_of_isChain_ne ((List.isChain_map Prod.fst).mpr hchain) (hsorted.sublist hseqs)
    · exact Or.inr ⟨first, (seq, now), hfirst, hframe, hlate⟩
  · intro htwo hcap _
    rcases hripe with hmany | ⟨first, hfirst, hlate⟩
    · omega
    · cases hearlier : idleFrames (stretch (history tools (start authority spawnedAt timing) earlier))
        with
      | nil =>
        -- the first frame is the last: it cannot be a positive cap after itself
        rw [hearlier] at hfirst
        cases hfirst
        exact absurd hlate (SystemTime.not_add_le_self now hcap)
      | cons frame frames => simp

/-- A screen-primary agent seen working, then idle at a few sequence numbers 100 ms apart. -/
def idleAt (seqs : List UInt64) : List ReducerCall :=
  .signal (.screen ⟨.working, "busy", 0, 1, none, none⟩) (4 * 10 ^ 9) ::
    seqs.zipIdx.map fun (seq, n) =>
      .signal (.screen ⟨.idle, "prompt", 0, seq, none, none⟩) (4 * 10 ^ 9 + (n + 1) * 10 ^ 8)

/-- The steps of such a run, with `confirmations` asked for. -/
def idleAtHistory (confirmations : Nat) (seqs : List UInt64) : List ReducerStep :=
  history plainTools
    (start .screenPrimary 0 { ReducerTiming.default with idleConfirmations := confirmations })
    (idleAt seqs)

/-- Three frames at rising sequence numbers end the turn, none of them alone. -/
theorem anti_flicker_rising :
    (idleAtHistory 3 [2, 3, 4]).getLast?.map (·.after.status) = some .idle ∧
    2 ≤ (idleFrames (stretch (idleAtHistory 3 [2, 3, 4]))).length := by
  have h := anti_flicker plainTools .screenPrimary 0
    { ReducerTiming.default with idleConfirmations := 3 } (idleAt [2, 3, 4])
    ((idleAtHistory 3 [2, 3, 4]).take 3) [] _ rfl rfl rfl
  refine ⟨by decide, h.2 (by decide) (by decide) ?_⟩
  unfold StrongIdle
  decide

/--
Where the frames go back, and where one is enough.  With three confirmations asked for,
sequence numbers 2, 3, 2 end a turn though only two of the frames are distinct and none is
700 ms after the first; with one asked for, a single frame ends it.  No strong idle signal
is involved in either.
-/
theorem anti_flicker_seq_goes_back :
    ((idleAtHistory 3 [2, 3, 2]).getLast?.map fun s => (s.before.status, s.after.status))
        = some (.working, .idle) ∧
      (∀ s ∈ stretch (idleAtHistory 3 [2, 3, 2]), ¬ StrongIdle s) ∧
      ((idleFrames (stretch (idleAtHistory 3 [2, 3, 2]))).map Prod.fst).dedup.length < 3 ∧
      (∀ first ∈ (idleFrames (stretch (idleAtHistory 3 [2, 3, 2]))).head?,
        ∀ frame ∈ idleFrames (stretch (idleAtHistory 3 [2, 3, 2])),
          ¬ first.2 + (ReducerTiming.default.idleConfirmCap : Int) ≤ frame.2) ∧
      ((idleAtHistory 1 [2]).getLast?.map fun s => (s.before.status, s.after.status))
        = some (.working, .idle) ∧
      (∀ s ∈ stretch (idleAtHistory 1 [2]), ¬ StrongIdle s) ∧
      (idleFrames (stretch (idleAtHistory 1 [2]))).length = 1 ∧
      0 < ReducerTiming.default.idleConfirmCap := by
  unfold StrongIdle
  decide

end Homie
