/-
A session asks for input exactly when it has something to ask.

The status and the pending detail are applied by separate branches of `apply`: a detail is
stored when the outcome carries one, and cleared when the outcome says working or idle.
`Told` says what an outcome must look like for the two to stay together, and every handler
keeps it: whoever asks for input brings a detail, and whoever leaves goes to working or
idle.  The exit leaves to neither, so a session that dies at a prompt keeps its detail.
-/
import Homie.Proofs.StatusAgreement

namespace Homie

open Trace

namespace SessionShared

/-- The pending detail is there exactly when the status asks for input. -/
def Consistent (shared : SessionShared) : Prop :=
  shared.needsInput.isSome = StatusReducer.isNeedsInput shared.status

/-- Whether a detail is pending after an outcome, given whether one was before it. -/
def pendingAfter (before : Bool) (outcome : ReducerOutcome) : Bool :=
  if outcome.statusChange = some .working ∨ outcome.statusChange = some .idle then false
  else outcome.needsInput.isSome || before

theorem apply_needsInput (shared : SessionShared) (outcome : ReducerOutcome) :
    (shared.apply outcome).needsInput.isSome
      = pendingAfter shared.needsInput.isSome outcome := by
  have hlast : (shared.apply outcome).needsInput
      = (((shared.applyStatus outcome.statusChange).2.applyDetail outcome.needsInput).2.clearDetail
          outcome.statusChange).2.needsInput := by
    unfold apply
    dsimp only
    split <;> rfl
  have hstatus : (shared.applyStatus outcome.statusChange).2.needsInput = shared.needsInput := by
    cases outcome.statusChange <;> rfl
  have hdetail : ∀ s : SessionShared, (s.applyDetail outcome.needsInput).2.needsInput.isSome
      = (outcome.needsInput.isSome || s.needsInput.isSome) := by
    intro s
    cases outcome.needsInput <;> rfl
  rw [hlast, pendingAfter, clearDetail]
  split
  · rfl
  · rw [hdetail, hstatus]

end SessionShared

namespace StatusReducer

open SessionShared

/-- The outcome so far, applied to a consistent session that shows `status`. -/
structure Told (status : SessionStatus) (x : Reduced) : Prop where
  /-- The session shows what the reducer believes, once the reducer believes anything. -/
  shown : x.1.status = .starting ∨ x.2.statusChange.getD status = x.1.status
  pending : pendingAfter (isNeedsInput status) x.2
    = isNeedsInput (x.2.statusChange.getD status)

variable {status : SessionStatus} {x : Reduced}

theorem setStatus_same {new : SessionStatus} (h : x.1.status = new) : setStatus new x = x := by
  rw [setStatus, if_neg (fun hne => hne h)]

theorem setStatus_outcome {new : SessionStatus} (h : x.1.status ≠ new) :
    (setStatus new x).2 = { x.2 with statusChange := some new } := by
  rw [setStatus, if_pos h]

theorem Told.settle (h : Told status x) {new : SessionStatus} (hnew : new = .working ∨ new = .idle) :
    Told status (setStatus new x) := by
  by_cases hsame : x.1.status = new
  · rwa [setStatus_same hsame]
  · refine ⟨Or.inr ?_, ?_⟩
    · rw [setStatus_outcome hsame, setStatus_status]
      rfl
    · rw [setStatus_outcome hsame, pendingAfter]
      rcases hnew with rfl | rfl
      · rfl
      · rfl

theorem Told.ask (h : Told status x) (detail : NeedsInputDetail) :
    Told status (setStatus (.needsInput detail.kind)
      (x.1, { x.2 with needsInput := some detail })) := by
  by_cases hsame : x.1.status = .needsInput detail.kind
  · -- the change reported so far is the request, so it clears nothing
    have hshown : x.2.statusChange.getD status = .needsInput detail.kind := by
      rcases h.shown with hstart | hshown
      · rw [hstart] at hsame
        exact nomatch hsame
      · rw [hshown, hsame]
    rw [setStatus_same (x := (x.1, { x.2 with needsInput := some detail })) hsame]
    refine ⟨Or.inr (hshown.trans hsame.symm), ?_⟩
    show pendingAfter _ _ = isNeedsInput (x.2.statusChange.getD status)
    rw [hshown, pendingAfter, if_neg]
    · rfl
    · rintro (hw | hi)
      · rw [show x.2.statusChange = _ from hw] at hshown
        exact nomatch hshown
      · rw [show x.2.statusChange = _ from hi] at hshown
        exact nomatch hshown
  · have houtcome := setStatus_outcome (x := (x.1, { x.2 with needsInput := some detail })) hsame
    refine ⟨Or.inr ?_, ?_⟩
    · rw [houtcome, setStatus_status]
      rfl
    · rw [houtcome, pendingAfter, if_neg]
      · rfl
      · rintro (hw | hi)
        · exact nomatch hw
        · exact nomatch hi

theorem stable_told (status : SessionStatus) : Stable (Told status) where
  quiet := by
    intro x y h hstatus hchange hneeds
    refine ⟨?_, ?_⟩
    · rw [hstatus, hchange]
      exact h.shown
    · have hpending := h.pending
      unfold pendingAfter at hpending ⊢
      rw [hchange, hneeds]
      exact hpending
  settle hnew h := h.settle hnew
  ask detail h := h.ask detail

variable {r : StatusReducer}

theorem told_start (h : r.status = .starting ∨ status = r.status) : Told status (r, .default) :=
  ⟨h, rfl⟩

theorem told_unknown (hwork : r.status = .working) (hshown : status = r.status) :
    Told status (setStatus .unknown (r, .default)) := by
  have hne : r.status ≠ .unknown := by
    rw [hwork]
    exact fun h => nomatch h
  refine ⟨Or.inr ?_, ?_⟩
  · rw [setStatus_outcome (x := (r, .default)) hne, setStatus_status]
    rfl
  · rw [setStatus_outcome (x := (r, .default)) hne, hshown, hwork]
    rfl

theorem told_handleTick (h : r.status = .starting ∨ status = r.status) (now : SystemTime) :
    Told status (handleTick now (r, .default)) := by
  have hstable := stable_told status
  have hstart := told_start h
  cases hworks : tickWorks r now with
  | true =>
    -- a session just found working is not stale
    rw [handleTick_of_goWorking now (revisitBelief_works now hworks)]
    exact hstable.goWorking hstart now false
  | false =>
    rcases revisitBelief_cases (x := (r, .default)) now hworks with hsame | ⟨-, hidle⟩
    · by_cases hwork : r.status = .working
      · have hshown : status = r.status := by
          rcases h with hstarting | hshown
          · rw [hstarting] at hwork
            exact nomatch hwork
          · exact hshown
        unfold handleTick
        dsimp only
        rw [hsame]
        split
        · exact told_unknown hwork hshown
        · split
          · refine hstable.commitIdle ?_ now
            exact hstable.quiet hstart rfl rfl rfl
          · exact hstart
      · rw [handleTick_of_ne now (by rw [hsame]; exact hwork), hsame]
        exact hstart
    · rw [handleTick_of_ne now (by rw [hidle, setStatus_status]; decide), hidle]
      exact hstable.settle (Or.inr rfl) hstart

theorem exit_outcome (hlive : isExited r.status = false) (code sig : Option Int32) :
    (setStatus (.exited (exitInfo code sig)) (r, .default)).2
      = { ReducerOutcome.default with statusChange := some (.exited (exitInfo code sig)) } := by
  refine setStatus_outcome (x := (r, .default)) ?_
  intro hexited
  rw [hexited] at hlive
  exact nomatch hlive

/-- Every call tells a session what it needs, except an exit at a prompt. -/
theorem step_told (tools : TextTools) (h : r.status = .starting ∨ status = r.status)
    (call : ReducerCall)
    (hexit : (∃ code sig now, call = .signal (.processExit code sig) now) →
      isNeedsInput status = false) : Told status (r.step tools call) := by
  revert hexit
  refine step_rule (P := fun call x =>
    ((∃ code sig now, call = .signal (.processExit code sig) now) → isNeedsInput status = false) →
      Told status x) tools ?_ ?_ ?_ ?_ ?_ call
  · intro now _
    exact told_start h
  · intro _ signal now _
    exact told_start h
  · intro hlive code sig now hexit
    have hcalm := hexit ⟨code, sig, now, rfl⟩
    refine ⟨Or.inr ?_, ?_⟩
    · rw [exit_outcome hlive, setStatus_status]
      rfl
    · rw [exit_outcome hlive, hcalm]
      rfl
  · intro _ _ signal now _
    exact (stable_told status).reduceProcessOnly (told_start h) signal now
  · intro _ _ signal now _
    exact (stable_told status).reduceFull (told_start h) tools signal now
      fun _ => told_handleTick h now

end StatusReducer

/-! ### Runs -/

namespace FedSession

open StatusReducer SessionShared

variable {tools : TextTools} {session : FedSession} {call : ReducerCall}

/-- The session shows what the reducer believes, once the reducer believes anything. -/
def Following (session : FedSession) : Prop :=
  session.reducer.status = .starting ∨ session.shared.status = session.reducer.status

/-- The process exits while the session asks for input. -/
def ExitsAsking (s : Step FedSession ReducerCall Unit) : Prop :=
  (∃ code sig now, s.event = .signal (.processExit code sig) now) ∧
    isNeedsInput s.before.shared.status = true

theorem Following.step (h : Following session) (call : ReducerCall) :
    Following (session.step tools call).1 := by
  have hreported : Reported (session.reducer, .default) (session.reducer.step tools call) := by
    cases call with
    | signal signal now => exact reduce_reported tools session.reducer signal now
    | finishStartupGrace now => exact Or.inl ⟨rfl, rfl⟩
  unfold Following
  rw [show (session.step tools call).1.shared.status = _ from apply_status _ _]
  rcases hreported with ⟨hstatus, hchange⟩ | hchange
  · rw [hchange, show (session.step tools call).1.reducer.status = session.reducer.status from
      hstatus]
    exact h
  · rw [hchange]
    exact Or.inr rfl

theorem consistent_step (h : Following session) (hconsistent : session.shared.Consistent)
    (hcalm : ¬ ExitsAsking (take (step tools) session call)) :
    (session.step tools call).1.shared.Consistent := by
  have htold : Told session.shared.status (session.reducer.step tools call) := by
    refine step_told tools h call ?_
    intro hexit
    exact Bool.eq_false_iff.mpr fun hasks => hcalm ⟨hexit, hasks⟩
  show Option.isSome (apply _ _).needsInput = isNeedsInput (apply _ _).status
  rw [apply_needsInput, apply_status, hconsistent]
  exact htold.pending

theorem inconsistent_of_exitsAsking (h : Following session)
    (hconsistent : session.shared.Consistent)
    (hasks : ExitsAsking (take (step tools) session call)) :
    ¬ (session.step tools call).1.shared.Consistent := by
  obtain ⟨⟨code, sig, now, hcall⟩, hneeds⟩ := hasks
  have hcall : call = .signal (.processExit code sig) now := hcall
  have hneeds : isNeedsInput session.shared.status = true := hneeds
  -- the reducer is alive: had it exited, the session would show that
  have hlive : isExited session.reducer.status = false := by
    rcases h with hstart | hshown
    · rw [hstart]
      rfl
    · rw [hshown] at hneeds
      cases hstatus : session.reducer.status with
      | needsInput kind => rfl
      | starting => rfl
      | working => rfl
      | idle => rfl
      | unknown => rfl
      | exited info =>
        rw [hstatus] at hneeds
        exact nomatch hneeds
  have hstep : session.reducer.step tools call
      = setStatus (.exited (exitInfo code sig)) (session.reducer, .default) := by
    rw [hcall, StatusReducer.step, reduce, hlive]
    rfl
  show ¬ Option.isSome (apply _ _).needsInput = isNeedsInput (apply _ _).status
  rw [apply_needsInput, apply_status, hconsistent, hneeds, hstep, exit_outcome hlive]
  exact Bool.noConfusion

/--
**A session's view is consistent until it exits at a prompt.**  However it was started and
whatever its reducer is fed, its pending detail is there exactly when its status asks for
input in every state it goes through, if and only if that was so at the start and the
process never exits while the session asks for input.
-/
theorem view_consistent_iff (tools : TextTools) (authority : Authority) (spawnedAt : SystemTime)
    (timing : ReducerTiming) (initialStatus : Option (SessionStatus × Option NeedsInputDetail))
    (calls : List ReducerCall) :
    (∀ k, (run (step tools) (new authority spawnedAt timing initialStatus)
        (calls.take k)).shared.Consistent) ↔
      (SessionShared.adopted initialStatus).Consistent ∧
        ∀ s ∈ trace (step tools) (new authority spawnedAt timing initialStatus) calls,
          ¬ ExitsAsking s := by
  have hfollowing : ∀ events, Following
      (run (step tools) (new authority spawnedAt timing initialStatus) events) :=
    run_invariant (step tools) (Or.inl rfl) fun _ event h => h.step event
  refine ⟨?_, ?_⟩
  · intro hall
    refine ⟨hall 0, ?_⟩
    intro s hs hasks
    obtain ⟨k, hevent, hbefore⟩ := before_of_mem_trace (step tools) hs
    have hlater := hall (k + 1)
    rw [List.take_add_one, hevent, Option.toList_some, run_concat] at hlater
    refine inconsistent_of_exitsAsking (hfollowing _) (hall k) ?_ hlater
    rw [← hbefore]
    exact hasks
  · rintro ⟨hstart, hcalm⟩ k
    have hleads : ∀ s ∈ trace (step tools) (new authority spawnedAt timing initialStatus)
        (calls.take k), ¬ ExitsAsking s := by
      intro s hs
      refine hcalm s ?_
      rw [← List.take_append_drop k calls, trace_append]
      exact List.mem_append_left _ hs
    refine (run_invariant_where (step tools)
      (P := fun session => Following session ∧ session.shared.Consistent) hleads
      ⟨Or.inl rfl, hstart⟩ ?_).2
    intro session call hcalm h
    exact ⟨h.1.step call, consistent_step h.1 h.2 hcalm⟩

/-- A prompt, and then the exit. -/
def diesAsking : List ReducerCall :=
  [.signal (.screen StatusSystem.promptFrame) 1, .signal (.processExit (some 0) none) 2]

/-- The session has exited, and still shows the prompt. -/
theorem exited_session_asks :
    (run (step ⟨id, id⟩) (new .hooksPrimary 0 .default none) diesAsking).shared.status
        = .exited ⟨.exited, some 0, none⟩ ∧
      ¬ (run (step ⟨id, id⟩) (new .hooksPrimary 0 .default none) diesAsking).shared.Consistent := by
  unfold Consistent
  decide

end FedSession

end Homie
