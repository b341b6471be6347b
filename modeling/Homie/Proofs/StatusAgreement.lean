/-
What every handler of the reducer keeps.

A handler moves the status in three ways: it settles on working or idle, it asks for
input, or it leaves the status and what the outcome says alone.  What survives those three
survives every handler but the tick, which can also give up on a stale session; the tick
is left to the laws that need it.
-/
import Homie.Engine.SessionStatus
import Homie.Lib.Trace
import Homie.Proofs.StatusSound
import Homie.Proofs.StatusStep

namespace Homie

namespace StatusReducer

/-- What survives the three ways a handler moves the status. -/
structure Stable (P : Reduced → Prop) : Prop where
  quiet : ∀ {x y : Reduced}, P x → y.1.status = x.1.status →
    y.2.statusChange = x.2.statusChange → y.2.needsInput = x.2.needsInput → P y
  settle : ∀ {x : Reduced} {new : SessionStatus}, new = .working ∨ new = .idle → P x →
    P (setStatus new x)
  ask : ∀ {x : Reduced} (detail : NeedsInputDetail), P x →
    P (setStatus (.needsInput detail.kind) (x.1, { x.2 with needsInput := some detail }))

namespace Stable

variable {P : Reduced → Prop} (h : Stable P) {x : Reduced}

include h

theorem goWorking (hx : P x) (now : SystemTime) (clear : Bool) : P (goWorking now clear x) := by
  unfold StatusReducer.goWorking
  refine h.settle (Or.inl rfl) ?_
  cases clear with
  | true => exact h.quiet hx rfl rfl rfl
  | false => exact h.quiet hx rfl rfl rfl

theorem commitIdle (hx : P x) (now : SystemTime) : P (commitIdle now x) := by
  refine h.quiet (x := setStatus .idle x) (h.settle (Or.inr rfl) hx) rfl ?_ ?_
  · unfold StatusReducer.commitIdle
    dsimp only
    split <;> rfl
  · unfold StatusReducer.commitIdle
    dsimp only
    split <;> rfl

theorem askForInput (hx : P x) (detail : NeedsInputDetail) : P (askForInput detail x) :=
  h.ask (x := (cancelIdleCandidacy { x.1 with state.pendingNeedsInput := some detail }, x.2)) detail
    (h.quiet hx rfl rfl rfl)

theorem handleStrongIdle (hx : P x) (now : SystemTime) : P (handleStrongIdle now x) := by
  unfold StatusReducer.handleStrongIdle
  split
  · exact h.settle (Or.inr rfl) hx
  · split
    · exact hx
    · split
      · refine h.commitIdle ?_ now
        exact h.quiet hx rfl rfl rfl
      · exact h.quiet hx rfl rfl rfl

theorem confirmIdle (hx : P x) (now : SystemTime) : P (confirmIdle now x) := by
  have hopen : P (countConfirmation (openCandidacy now x.1), x.2) :=
    h.quiet hx (openCandidacy_status now x.1) rfl rfl
  unfold StatusReducer.confirmIdle
  split
  · exact hx
  · dsimp only
    split
    · exact h.commitIdle hopen now
    · exact hopen

theorem handleMainHook (hx : P x) (tools : TextTools) (hook : ClaudeHook) (now : SystemTime) :
    P (handleMainHook tools hook now x) := by
  cases hook with
  | sessionStart =>
    show P (if x.1.status = .starting then setStatus .idle x else x)
    split
    · exact h.settle (Or.inr rfl) hx
    · exact hx
  | userPromptSubmit =>
    refine h.goWorking ?_ now true
    exact h.quiet hx rfl rfl rfl
  | preToolUse => exact h.goWorking hx now true
  | permissionRequest toolName inputSummary => exact h.askForInput hx _
  | notification notificationType message =>
    show P (handleNotification tools notificationType message now x)
    unfold handleNotification
    split
    · exact h.askForInput hx _
    · split
      · exact h.handleStrongIdle hx now
      · exact hx
  | stop => exact h.handleStrongIdle hx now
  | subagentStart id => exact hx
  | subagentStop id => exact hx
  | sessionEnd => exact hx

theorem handleClaudeHook (hx : P x) (tools : TextTools) (hook : ClaudeHook) (isSubagent : Bool)
    (now : SystemTime) : P (handleClaudeHook tools hook isSubagent now x) := by
  unfold StatusReducer.handleClaudeHook
  split
  · exact h.quiet hx rfl rfl rfl
  · exact h.quiet hx rfl rfl rfl
  · split
    · exact h.quiet hx rfl rfl rfl
    · refine h.handleMainHook ?_ tools _ now
      exact h.quiet hx rfl rfl rfl

theorem applyNonBlockerScreen (hx : P x) (observation : ScreenObservation) (now : SystemTime)
    (cleared : Bool) : P (applyNonBlockerScreen observation now cleared x) := by
  unfold StatusReducer.applyNonBlockerScreen
  split
  · exact h.goWorking hx now false
  · split
    · exact h.confirmIdle hx now
    · split
      · exact h.settle (Or.inr rfl) hx
      · split
        · refine h.settle (Or.inr rfl) ?_
          exact h.quiet hx rfl rfl rfl
        · exact hx
  · exact hx
  · exact hx
  · exact hx

theorem handleNonBlocker (hx : P x) (observation : ScreenObservation) (now : SystemTime) :
    P (handleNonBlocker observation now x) := by
  unfold StatusReducer.handleNonBlocker
  split
  · split
    · exact h.quiet hx rfl rfl rfl
    · refine h.applyNonBlockerScreen ?_ observation now true
      exact h.quiet hx rfl rfl rfl
  · split
    · exact hx
    · exact h.applyNonBlockerScreen hx observation now false

theorem handleScreen (hx : P x) (tools : TextTools) (observation : ScreenObservation)
    (now : SystemTime) : P (handleScreen tools observation now x) := by
  unfold StatusReducer.handleScreen
  split
  · exact h.quiet hx rfl rfl rfl
  · split
    · exact h.quiet hx rfl rfl rfl
    · dsimp only
      split
      · refine h.askForInput ?_ _
        exact h.quiet hx rfl rfl rfl
      · refine h.handleNonBlocker ?_ observation now
        exact h.quiet hx rfl rfl rfl

theorem reduceProcessOnly (hx : P x) (signal : StatusSignal) (now : SystemTime) :
    P (reduceProcessOnly signal now x) := by
  unfold StatusReducer.reduceProcessOnly
  split
  · refine h.quiet (x := if x.1.status = .starting then
        setStatus .working ({ x.1 with state.turnInFlight := true }, x.2) else x) ?_ rfl rfl rfl
    split
    · refine h.settle (Or.inl rfl) ?_
      exact h.quiet hx rfl rfl rfl
    · exact hx
  · exact hx

theorem reduceFull (hx : P x) (tools : TextTools) (signal : StatusSignal) (now : SystemTime)
    (htick : signal = .tick → P (handleTick now x)) : P (reduceFull tools signal now x) := by
  cases signal with
  | processExit code sig => exact hx
  | ptyOutputActivity => exact h.quiet hx rfl rfl rfl
  | userKeystroke =>
    unfold StatusReducer.reduceFull
    dsimp only
    split
    · exact h.quiet hx rfl rfl rfl
    · exact h.quiet hx rfl rfl rfl
  | claudeHook hook isSubagent => exact h.handleClaudeHook hx tools hook isSubagent now
  | codexTurnComplete =>
    refine h.handleStrongIdle ?_ now
    exact h.quiet hx rfl rfl rfl
  | screen observation => exact h.handleScreen hx tools observation now
  | tick => exact htick rfl

theorem revisitBelief (hx : P x) (now : SystemTime) : P (revisitBelief now x) := by
  unfold StatusReducer.revisitBelief
  split
  · split
    · exact h.goWorking hx now false
    · exact h.settle (Or.inr rfl) hx
    · exact hx
  · exact hx

end Stable

end StatusReducer

end Homie

/-! ### The session shows what the reducer believes

An outcome reports every status change of its reduction (`step_reported`), so the shared
status follows the reducer if changes arrive in the order they were made.  `Agrees` is
the invariant: the reducer's status is the last change in flight, or the shared status if
there is none.

Reducing happens under the lock and applying mostly does not, so two threads can apply in
the opposite order of their reductions.  The pump's own output signal is applied with the
lock held, which is what keeps that path in order.
-/

namespace Homie

open Trace

namespace StatusReducer

/-! ### An outcome reports the status -/

/-- From `x` to `y` the status and the reported change are as they were, or the change reported
is the status. -/
def Reported (x y : Reduced) : Prop :=
  (y.1.status = x.1.status ∧ y.2.statusChange = x.2.statusChange) ∨
    y.2.statusChange = some y.1.status

theorem Reported.refl (x : Reduced) : Reported x x := Or.inl ⟨rfl, rfl⟩

theorem Reported.after {x y z : Reduced} (h' : Reported y z) (h : Reported x y) :
    Reported x z := by
  rcases h' with ⟨hstatus, hchange⟩ | hchange
  · rcases h with ⟨hstatus', hchange'⟩ | hchange'
    · exact Or.inl ⟨hstatus.trans hstatus', hchange.trans hchange'⟩
    · refine Or.inr ?_
      rw [hchange, hstatus]
      exact hchange'
  · exact Or.inr hchange

theorem reported_setStatus (new : SessionStatus) (x : Reduced) : Reported x (setStatus new x) := by
  by_cases h : x.1.status = new
  · unfold setStatus
    rw [if_neg (fun hne => hne h)]
    exact Reported.refl x
  · refine Or.inr ?_
    rw [setStatus_change h, setStatus_status]

theorem stable_reported (x : Reduced) : Stable (Reported x) where
  quiet hx hstatus hchange _ := Reported.after (Or.inl ⟨hstatus, hchange⟩) hx
  settle _ hx := (reported_setStatus _ _).after hx
  ask _ hx := (reported_setStatus _ _).after (Reported.after (Or.inl ⟨rfl, rfl⟩) hx)

theorem reported_handleTick (now : SystemTime) (x : Reduced) : Reported x (handleTick now x) := by
  have hrevisit : Reported x (revisitBelief now x) :=
    (stable_reported x).revisitBelief (Reported.refl x) now
  unfold handleTick
  dsimp only
  split
  · exact (reported_setStatus _ _).after hrevisit
  · split
    · refine (stable_reported x).commitIdle ?_ now
      exact Reported.after (Or.inl ⟨rfl, rfl⟩) hrevisit
    · exact hrevisit

theorem reduce_reported (tools : TextTools) (r : StatusReducer) (signal : StatusSignal)
    (now : SystemTime) : Reported (r, .default) (r.reduce tools signal now) := by
  refine step_rule (P := fun _ x => Reported (r, .default) x) tools ?_ ?_ ?_ ?_ ?_
    (.signal signal now)
  · exact fun _ => Or.inl ⟨rfl, rfl⟩
  · exact fun _ _ _ => Reported.refl _
  · exact fun _ code sig _ => reported_setStatus _ _
  · intro _ _ signal now
    exact (stable_reported _).reduceProcessOnly (Reported.refl _) signal now
  · intro _ _ signal now
    exact (stable_reported _).reduceFull (Reported.refl _) tools signal now
      fun _ => reported_handleTick now _

end StatusReducer

/-! ### Applying -/

theorem SessionShared.apply_status (shared : SessionShared) (outcome : ReducerOutcome) :
    (shared.apply outcome).status = outcome.statusChange.getD shared.status := by
  have hstatus : (shared.applyStatus outcome.statusChange).2.status
      = outcome.statusChange.getD shared.status := by
    cases outcome.statusChange <;> rfl
  have hdetail : ∀ (s : SessionShared) detail, (s.applyDetail detail).2.status = s.status := by
    intro s detail
    cases detail <;> rfl
  have hclear : ∀ (s : SessionShared) change, (s.clearDetail change).2.status = s.status := by
    intro s change
    unfold clearDetail
    split <;> rfl
  have hlast : (shared.apply outcome).status
      = (((shared.applyStatus outcome.statusChange).2.applyDetail outcome.needsInput).2.clearDetail
          outcome.statusChange).2.status := by
    unfold apply
    dsimp only
    split <;> rfl
  rw [hlast, hclear, hdetail, hstatus]

namespace StatusSystem

/-- The status changes in flight, oldest first. -/
def changes (inFlight : List InFlight) : List SessionStatus :=
  inFlight.filterMap (·.outcome.statusChange)

/-- The reducer's status is the last change in flight, or the one already shown. -/
def Agrees (sys : StatusSystem) : Prop :=
  sys.reducer.status = (changes sys.inFlight).getLast?.getD sys.shared.status

/-- A thread that applies a status change finds no earlier one still in flight. -/
def InReductionOrder (s : Step StatusSystem StatusAction Unit) : Prop :=
  ∀ thread earlier pending later, s.event = .apply thread →
    s.before.inFlight = earlier ++ pending :: later → pending.thread = thread →
    pending.outcome.statusChange ≠ none → ∀ x ∈ earlier, x.outcome.statusChange = none

theorem agrees_new (authority : Authority) (spawnedAt : SystemTime) (timing : ReducerTiming) :
    Agrees (new authority spawnedAt timing) := rfl

variable {sys : StatusSystem}

theorem Agrees.reduceBy (h : Agrees sys) (tools : TextTools) (thread : Nat)
    (signal : StatusSignal) (now : SystemTime) :
    Agrees (sys.reduceBy tools thread signal now) := by
  show (sys.reducer.reduce tools signal now).1.status
    = (changes (sys.inFlight ++ [⟨thread, (sys.reducer.reduce tools signal now).2⟩])).getLast?.getD
        sys.shared.status
  have hchanges : changes (sys.inFlight ++ [⟨thread, (sys.reducer.reduce tools signal now).2⟩])
      = changes sys.inFlight ++ (sys.reducer.reduce tools signal now).2.statusChange.toList := by
    rw [changes, List.filterMap_append, changes]
    cases hc : (sys.reducer.reduce tools signal now).2.statusChange <;> simp [hc]
  rw [hchanges]
  rcases StatusReducer.reduce_reported tools sys.reducer signal now with ⟨hstatus, hnone⟩ | hsome
  · rw [hstatus, hnone]
    show sys.reducer.status = (changes sys.inFlight ++ []).getLast?.getD sys.shared.status
    rw [List.append_nil]
    exact h
  · rw [hsome]
    simp

/-- Applying keeps the agreement if it does not overtake an earlier change. -/
theorem Agrees.applyBy (h : Agrees sys) {thread : Nat}
    (horder : ∀ earlier pending later, sys.inFlight = earlier ++ pending :: later →
      pending.thread = thread → pending.outcome.statusChange ≠ none →
        ∀ x ∈ earlier, x.outcome.statusChange = none) : Agrees (sys.applyBy thread) := by
  unfold StatusSystem.applyBy
  cases hfind : sys.inFlight.find? (·.thread == thread) with
  | none => exact h
  | some pending =>
    obtain ⟨hthread, earlier, later, hsplit, hnot⟩ := List.find?_eq_some_iff_append.mp hfind
    have herase : sys.inFlight.eraseP (·.thread == thread) = earlier ++ later := by
      rw [hsplit, List.eraseP_append_right _ (by simpa using hnot)]
      simp [hthread]
    show sys.reducer.status = (changes (sys.inFlight.eraseP (·.thread == thread))).getLast?.getD
      (sys.shared.apply pending.outcome).status
    rw [herase, SessionShared.apply_status, h]
    have hchanges : changes sys.inFlight = changes earlier ++
        (pending.outcome.statusChange.toList ++ changes later) := by
      rw [hsplit, changes, List.filterMap_append, List.filterMap_cons]
      cases pending.outcome.statusChange <;> rfl
    have hrest : changes (earlier ++ later) = changes earlier ++ changes later :=
      List.filterMap_append
    rw [hchanges, hrest]
    cases hchange : pending.outcome.statusChange with
    | none => simp
    | some status =>
      have hnone : changes earlier = [] :=
        List.filterMap_eq_nil_iff.mpr
          (horder earlier pending later hsplit (by simpa using hthread) (by simp [hchange]))
      rw [hnone]
      cases changes later with
      | nil => simp
      | cons first rest => simp [List.getLast?_cons]

theorem Agrees.step (h : Agrees sys) (tools : TextTools) {action : StatusAction}
    (horder : InReductionOrder (take (StatusSystem.step tools) sys action)) :
    Agrees (sys.step tools action).1 := by
  cases action with
  | feed thread signal now =>
    simp only [StatusSystem.step]
    split
    · exact h.reduceBy tools thread signal now
    · exact h
  | output thread observation now =>
    simp only [StatusSystem.step]
    split
    · exact h.reduceBy tools thread .ptyOutputActivity now
    · exact h
  | apply thread =>
    have happly : Agrees (sys.applyBy thread) :=
      h.applyBy fun earlier pending later => horder thread earlier pending later rfl
    simp only [StatusSystem.step]
    split
    · exact happly
    · exact happly
    · exact happly
    · exact h
  | observe thread =>
    simp only [StatusSystem.step]
    split
    · exact h.reduceBy tools thread _ _
    · exact h

/-! ### The main result -/

/-- **The session shows the reducer's status.** In every run in which no thread applies a
status change while an earlier one is still in flight, the shared status is the reducer's
whenever every outcome has been applied. -/
theorem status_agreement {tools : TextTools} {authority : Authority} {spawnedAt : SystemTime}
    {timing : ReducerTiming} {actions : List StatusAction}
    (horder : ∀ s ∈ trace (step tools) (new authority spawnedAt timing) actions, InReductionOrder s)
    (hquiet : (run (step tools) (new authority spawnedAt timing) actions).inFlight = []) :
    (run (step tools) (new authority spawnedAt timing) actions).shared.status
      = (run (step tools) (new authority spawnedAt timing) actions).reducer.status := by
  have h : Agrees (run (step tools) (new authority spawnedAt timing) actions) :=
    run_invariant_where (step tools) (P := Agrees) horder (agrees_new authority spawnedAt timing)
      (fun _ _ hstep hagrees => hagrees.step tools hstep)
  unfold Agrees at h
  rw [hquiet] at h
  exact h.symm

/-- A frame that shows a permission prompt. -/
def promptFrame : ScreenObservation := ⟨.blockedPermission, "rule", 0, 1, none, none⟩

/-- A prompt hook of thread 0 and a chunk of output of thread 1, applied as they are reduced. -/
def inTurn : List StatusAction :=
  [.feed 0 (.claudeHook .userPromptSubmit false) 1, .apply 0, .output 1 (some promptFrame) 2,
    .apply 1, .observe 1, .apply 1]

theorem status_agreement_in_turn :
    (run (step ⟨id, id⟩) (new .hooksPrimary 0 .default) inTurn).shared.status
      = (run (step ⟨id, id⟩) (new .hooksPrimary 0 .default) inTurn).reducer.status := by
  refine status_agreement ?_ rfl
  -- at most one outcome is in flight at any time
  intro s hs thread earlier pending later hevent hsplit _ _ x hx
  have hone : s.before.inFlight.length ≤ 1 := by
    clear hevent hsplit
    simp only [inTurn, trace, List.mem_cons, List.not_mem_nil, or_false] at hs
    rcases hs with rfl | rfl | rfl | rfl | rfl | rfl <;> decide
  rw [hsplit, List.length_append, List.length_cons] at hone
  have hnil : earlier = [] := List.length_eq_zero_iff.mp (by omega)
  rw [hnil] at hx
  exact absurd hx List.not_mem_nil

/-- The same calls, with the hook's outcome applied last. -/
def overtaken : List StatusAction :=
  [.feed 0 (.claudeHook .userPromptSubmit false) 1, .output 1 (some promptFrame) 2,
    .apply 1, .observe 1, .apply 1, .apply 0]

/-- The session shows `working` while the reducer, and the screen, ask for permission. -/
theorem status_overtaken :
    (run (step ⟨id, id⟩) (new .hooksPrimary 0 .default) overtaken).inFlight.length = 0 ∧
      (run (step ⟨id, id⟩) (new .hooksPrimary 0 .default) overtaken).shared.status = .working ∧
      (run (step ⟨id, id⟩) (new .hooksPrimary 0 .default) overtaken).reducer.status
        = .needsInput .permission := by
  decide

end StatusSystem

end Homie

namespace Homie.StatusReducer

open Trace

/-! ### What the outcomes of a run say -/

theorem step_reported (tools : TextTools) (r : StatusReducer) (call : ReducerCall) :
    (r.step tools call).1.status = (r.step tools call).2.statusChange.getD r.status := by
  have hcall : Reported (r, .default) (r.step tools call) := by
    cases call with
    | signal signal now => exact reduce_reported tools r signal now
    | finishStartupGrace now => exact Or.inl ⟨rfl, rfl⟩
  rcases hcall with ⟨hstatus, hchange⟩ | hchange
  · rw [hstatus, hchange]
    rfl
  · rw [hchange, Option.getD_some]

theorem step_exited (tools : TextTools) {r : StatusReducer} (h : isExited r.status = true)
    (call : ReducerCall) : (r.step tools call).1.status = r.status ∧
      (r.step tools call).2 = .default := by
  cases call with
  | signal signal now =>
    have hstep : r.step tools (.signal signal now) = (r, .default) := if_pos h
    rw [hstep]
    exact ⟨rfl, rfl⟩
  | finishStartupGrace now => exact ⟨rfl, rfl⟩

theorem trace_exited (tools : TextTools) {r : StatusReducer} (h : isExited r.status = true)
    (calls : List ReducerCall) :
    ∀ x ∈ trace (StatusReducer.step tools) r calls,
      x.after.status = r.status ∧ x.outcome = .default := by
  induction calls generalizing r with
  | nil => exact fun x hx => absurd hx List.not_mem_nil
  | cons call calls ih =>
    obtain ⟨hstatus, hquiet⟩ := step_exited tools h call
    intro x hx
    rcases List.mem_cons.mp hx with rfl | hx
    · exact ⟨hstatus, hquiet⟩
    · have hrest := ih (r := (r.step tools call).1) (hstatus ▸ h) x hx
      exact ⟨hrest.1.trans hstatus, hrest.2⟩

/-- **Outcomes tell the whole story.** Whoever starts from `starting` and follows the reported
changes has the reducer's status after any calls; and from an exit on nothing is reported and the
exit stays. -/
theorem outcomes_spell_status (tools : TextTools) (authority : Authority) (spawnedAt : SystemTime)
    (calls : List ReducerCall) :
    (run (StatusReducer.step tools) (new authority spawnedAt) calls).status
        = ((trace (StatusReducer.step tools) (new authority spawnedAt) calls).filterMap
            (·.outcome.statusChange)).getLastD .starting ∧
      (isExited (run (StatusReducer.step tools) (new authority spawnedAt) calls).status = true →
        ∀ later, ∀ x ∈ trace (StatusReducer.step tools)
            (run (StatusReducer.step tools) (new authority spawnedAt) calls) later,
          x.after.status
              = (run (StatusReducer.step tools) (new authority spawnedAt) calls).status ∧
            x.outcome = .default) := by
  constructor
  · refine trace_invariant (StatusReducer.step tools) (P := fun history r => r.status
      = (history.filterMap (·.outcome.statusChange)).getLastD .starting) rfl ?_ calls
    intro history r call h
    rw [step_reported, List.filterMap_append, h]
    cases hchange : (r.step tools call).2.statusChange with
    | none => simp [take, hchange]
    | some status => simp [take, hchange]
  · exact trace_exited tools

end Homie.StatusReducer
