/-
The handoff of a deferred launch.

Two things are handed over: the bytes typed before the launch, and a size proposed while the
child was being started.  The launcher holds both in its hands after `finish_launch` has
already sent clients to the child, so a client that writes or resizes in between gets ahead
of them, and what the launcher then does comes too late.  `Undisturbed` excludes these steps,
and a Holder that does not carry the launcher's requests out.

`Sound` says what the launcher still has to do: the child's input together with what is in
the launcher's hands and in the queue is the accepted input, and the sizes are those of the
last accepted resize once the late size has been applied.
-/
import Homie.Engine.DeferredLaunch

namespace Homie.Engine.DeferredSession

open Trace

/-! ### What is still to be done -/

/-- The input the launcher has taken and not yet written. -/
def inHand (session : DeferredSession) : List UInt8 :=
  match session.launcher with
  | .flushing handoff => handoff.queuedInput
  | _ => []

/-- The late size that the child has not been given yet. -/
def lateForChild (session : DeferredSession) : Option Size :=
  match session.launcher with
  | .flushing handoff => handoff.lateSize
  | .sizingChild late => late
  | _ => none

/-- The late size that the emulator has not been given yet. -/
def lateForScreen (session : DeferredSession) : Option Size :=
  match session.launcher with
  | .flushing handoff => handoff.lateSize
  | .sizingChild late => late
  | .sizingScreen late => late
  | _ => none

/-- The input the child has been sent. -/
def received (session : DeferredSession) : List UInt8 :=
  (session.child.map Child.input).getD []

/--
No client gets ahead of what the launcher has in hand, and the Holder carries out what the
launcher asks of it.
-/
def Undisturbed (s : LaunchStep) : Prop :=
  match s.event with
  | .client answered =>
    match s.before.call with
    | some (.writing bytes) => answered = true → bytes ≠ [] → s.before.inHand = []
    | some (.resizingChild _) => answered = true → s.before.lateForChild = none
    | some (.resizingScreen _) => s.before.lateForScreen = none
    | none => True
  | .launcher answered =>
    match s.before.launcher with
    | .flushing handoff => handoff.queuedInput ≠ [] → answered = true
    | .sizingChild late => late ≠ none → answered = true
    | _ => True
  | _ => True

/-! ### Sizes -/

/-- A size the handlers let through. -/
def Admitted (size : Size) : Prop := size.atLeastTwo = size

theorem max_max_of_le (n : UInt16) {m k : UInt16} (h : k ≤ m) : max (max n m) k = max n m := by
  have hmax : ∀ a b : UInt16, max a b = if a ≤ b then b else a := fun _ _ => rfl
  rw [hmax, hmax]
  split <;> split <;> grind

theorem admitted_atLeastTwo (size : Size) : Admitted size.atLeastTwo := by
  simp only [Admitted, Size.atLeastTwo, max_max_of_le _ (by decide : (2 : UInt16) ≤ 2)]

theorem resizeScreen_screen (session : DeferredSession) {size : Size} (h : Admitted size) :
    (session.resizeScreen size).screen = size := by
  rw [← h]
  simp only [resizeScreen, Size.atLeastTwo, max_max_of_le _ (by decide : (1 : UInt16) ≤ 2)]

/-- The size everything should end with: the last accepted one, else the estimate. -/
def target (fallback : Size) (last : Option Size) : Size := last.getD fallback.atLeastTwo

/-! ### The invariant -/

/-- How far the launcher is with a child that clients do not reach yet. -/
def Preparing (fallback : Size) (session : DeferredSession) : Prop :=
  match session.launcher with
  | .waiting => session.child = none
  | .stopped => session.child = none
  | .sizing chosen =>
    session.child = none ∧ (session.deferred.pending = none → chosen = fallback)
  | .spawning chosen =>
    session.child = none ∧ (session.deferred.pending = none → chosen = fallback) ∧
      session.screen = chosen.atLeastTwo
  | .finishing chosen =>
    session.child = some ⟨[], chosen.atLeastTwo⟩ ∧
      (session.deferred.pending = none → chosen = fallback) ∧
      session.screen = chosen.atLeastTwo
  | _ => False

/-- Before `finish_launch` everything accepted is in the `DeferredState`. -/
structure Unlaunched (fallback : Size) (input : List UInt8) (last : Option Size)
    (session : DeferredSession) : Prop where
  launched : session.deferred.launched = false
  call : session.call = none
  queue : session.deferred.queuedInput = input
  proposed : session.deferred.pending = last
  admitted : ∀ size, last = some size → Admitted size
  preparing : Preparing fallback session

/-- The size of the child once the launcher has applied a late size to it. -/
def ChildSized (fallback : Size) (last : Option Size) (session : DeferredSession) (child : Child) :
    Prop :=
  match session.call with
  -- a client is between its two halves
  | some (.resizingScreen size) => child.size = size ∧ session.lateForChild = none
  | _ => session.lateForChild.getD child.size = target fallback last

/-- The launcher is past `finish_launch`. -/
def HandedOver : Launcher → Prop
  | .flushing _ | .sizingChild _ | .sizingScreen _ | .pumping => True
  | _ => False

/-- Afterwards it is at the child, or in the launcher's hands. -/
structure Launched (fallback : Size) (input : List UInt8) (last : Option Size)
    (session : DeferredSession) : Prop where
  launched : session.deferred.launched = true
  handedOver : HandedOver session.launcher
  queue : session.deferred.queuedInput = []
  child : ∃ child, session.child = some child ∧ child.input ++ session.inHand = input ∧
    ChildSized fallback last session child
  screen : (∀ size, session.call ≠ some (.resizingScreen size)) →
    session.lateForScreen.getD session.screen = target fallback last
  late : ∀ size, session.lateForScreen = some size → last = some size
  admitted : ∀ size, last = some size → Admitted size
  asked : ∀ size, session.call = some (.resizingChild size) ∨
    session.call = some (.resizingScreen size) → Admitted size

def Sound (fallback : Size) (input : List UInt8) (last : Option Size)
    (session : DeferredSession) : Prop :=
  Unlaunched fallback input last session ∨ Launched fallback input last session

variable {fallback : Size} {input : List UInt8} {last : Option Size} {session : DeferredSession}

theorem sound_new (fallback : Size) : Sound fallback [] none (new fallback) :=
  Or.inl ⟨rfl, rfl, rfl, rfl, (fun _ h => nomatch h), rfl⟩

/-! ### A client's call -/

/-- `last` after a step that told a client `accepted`. -/
def newLast (last : Option Size) (accepted : Accepted) : Option Size := accepted.newSize.or last

theorem Sound.writeInput (h : Sound fallback input last session) (hcall : session.call = none)
    (bytes : List UInt8) :
    Sound fallback (input ++ (session.writeInput bytes).2.bytes)
      (newLast last (session.writeInput bytes).2) (session.writeInput bytes).1 := by
  unfold DeferredSession.writeInput DeferredState.queueInput
  rcases h with h | h
  · -- queued for the launcher
    rw [if_neg (by simp [h.launched])]
    refine Or.inl ⟨h.launched, h.call, ?_, h.proposed, h.admitted, h.preparing⟩
    exact congrArg (· ++ bytes) h.queue
  · rw [if_pos h.launched]
    have hnil : input ++ (Accepted.nothing).bytes = input := List.append_nil input
    rw [hnil]
    refine Or.inr ⟨h.launched, h.handedOver, h.queue, ?_, ?_, h.late, h.admitted, ?_⟩
    · obtain ⟨child, hchild, hinput, hsized⟩ := h.child
      refine ⟨child, hchild, hinput, ?_⟩
      unfold ChildSized at hsized
      rw [hcall] at hsized
      exact hsized
    · intro _
      exact h.screen (by rw [hcall]; exact fun _ hsame => nomatch hsame)
    · rintro size (hasked | hasked) <;> cases hasked

/-- A proposal does not touch what the launcher has prepared. -/
theorem Preparing.propose (h : Preparing fallback session) (size : Size) :
    Preparing fallback
      { session with deferred := { session.deferred with pending := some size } } := by
  unfold Preparing at h ⊢
  cases hlauncher : session.launcher with
  | waiting | stopped => rw [hlauncher] at h; exact h
  | sizing chosen => rw [hlauncher] at h; exact ⟨h.1, (nomatch ·)⟩
  | spawning chosen | finishing chosen =>
    rw [hlauncher] at h
    exact ⟨h.1, (nomatch ·), h.2.2⟩
  | _ => rw [hlauncher] at h; exact h

theorem Sound.resize (h : Sound fallback input last session) (hcall : session.call = none)
    {size : Size} (hsize : Admitted size) :
    Sound fallback (input ++ (session.resize size).2.bytes)
      (newLast last (session.resize size).2) (session.resize size).1 := by
  unfold DeferredSession.resize DeferredState.proposeSize
  have hnil : ∀ accepted : Accepted, accepted.bytes = [] → input ++ accepted.bytes = input :=
    fun accepted hbytes => by rw [hbytes, List.append_nil]
  rcases h with h | h
  · -- proposed to the launcher
    rw [if_neg (by simp [h.launched])]
    refine Or.inl ⟨h.launched, h.call, ?_, rfl, ?_, h.preparing.propose size⟩
    · exact h.queue.trans (hnil (.size size) rfl).symm
    · rintro taken htaken
      cases htaken
      exact hsize
  · rw [if_pos h.launched, hnil .nothing rfl]
    refine Or.inr ⟨h.launched, h.handedOver, h.queue, ?_, ?_, h.late, h.admitted, ?_⟩
    · obtain ⟨child, hchild, hinput, hsized⟩ := h.child
      refine ⟨child, hchild, hinput, ?_⟩
      unfold ChildSized at hsized
      rw [hcall] at hsized
      exact hsized
    · intro _
      exact h.screen (by rw [hcall]; exact fun _ hsame => nomatch hsame)
    · rintro taken (hasked | hasked)
      · cases hasked
        exact hsize
      · cases hasked

/-! ### The rest of a call -/

theorem Launched.call_none (h : Launched fallback input last session)
    (hcall : ∀ size, session.call ≠ some (.resizingScreen size)) :
    Launched fallback input last { session with call := none } := by
  refine ⟨h.launched, h.handedOver, h.queue, ?_, ?_, h.late, h.admitted, ?_⟩
  · obtain ⟨child, hchild, hinput, hsized⟩ := h.child
    refine ⟨child, hchild, hinput, ?_⟩
    unfold ChildSized at hsized
    split at hsized
    · rename_i size hasked
      exact absurd hasked (hcall size)
    · exact hsized
  · intro _
    exact h.screen hcall
  · rintro size (hasked | hasked) <;> cases hasked

theorem Launched.writeChild (h : Launched fallback input last session) {bytes : List UInt8}
    (hfirst : bytes ≠ [] → session.inHand = []) :
    Launched fallback (input ++ bytes) last (session.writeChild bytes) := by
  refine ⟨h.launched, h.handedOver, h.queue, ?_, h.screen, h.late, h.admitted, h.asked⟩
  obtain ⟨child, hchild, hinput, hsized⟩ := h.child
  refine ⟨{ child with input := child.input ++ bytes }, ?_, ?_, hsized⟩
  · exact congrArg (Option.map _) hchild
  · change (child.input ++ bytes) ++ session.inHand = input ++ bytes
    by_cases hbytes : bytes = []
    · rw [hbytes, List.append_nil, List.append_nil]
      exact hinput
    · rw [← hinput, hfirst hbytes, List.append_nil, List.append_nil]

theorem Launched.resizeChild (h : Launched fallback input last session) {size : Size}
    (hcall : session.call = some (.resizingChild size)) (hlate : session.lateForChild = none) :
    Launched fallback input last
      ({ session with call := some (.resizingScreen size) }.resizeChild size) := by
  refine ⟨h.launched, h.handedOver, h.queue, ?_, ?_, h.late, h.admitted, ?_⟩
  · obtain ⟨child, hchild, hinput, -⟩ := h.child
    exact ⟨{ child with size := size }, congrArg (Option.map _) hchild, hinput, rfl, hlate⟩
  · intro hother
    exact absurd rfl (hother size)
  · rintro taken (hasked | hasked)
    · cases hasked
    · cases hasked
      exact h.asked size (Or.inl hcall)

theorem Launched.resizeScreen (h : Launched fallback input last session) {size : Size}
    (hcall : session.call = some (.resizingScreen size)) (hlate : session.lateForScreen = none) :
    Launched fallback input (some size) ({ session with call := none }.resizeScreen size) := by
  have hadmitted : Admitted size := h.asked size (Or.inr hcall)
  refine ⟨h.launched, h.handedOver, h.queue, ?_, ?_, ?_, ?_, ?_⟩
  · obtain ⟨child, hchild, hinput, hsized⟩ := h.child
    unfold ChildSized at hsized
    rw [hcall] at hsized
    obtain ⟨hsize, hchildLate⟩ := hsized
    refine ⟨child, hchild, hinput, ?_⟩
    change session.lateForChild.getD child.size = size
    rw [hchildLate, hsize]
    rfl
  · intro _
    change session.lateForScreen.getD _ = size
    rw [hlate]
    exact resizeScreen_screen _ hadmitted
  · intro taken htaken
    change session.lateForScreen = some taken at htaken
    rw [hlate] at htaken
    cases htaken
  · rintro taken htaken
    cases htaken
    exact hadmitted
  · rintro taken (hasked | hasked) <;> cases hasked

/-- One step of the call under way, when it does not get ahead of the launcher. -/
theorem Sound.clientStep (h : Sound fallback input last session) {answered : Bool}
    (hundisturbed : Undisturbed (take (step fallback) session (.client answered))) :
    Sound fallback (input ++ (session.clientStep answered).2.bytes)
      (newLast last (session.clientStep answered).2) (session.clientStep answered).1 := by
  have hnil : input ++ (Accepted.nothing).bytes = input := List.append_nil input
  unfold DeferredSession.clientStep
  rcases h with h | h
  · -- nothing is under way before the launch
    rw [h.call, hnil]
    exact Or.inl h
  · right
    simp only [Undisturbed, take] at hundisturbed
    cases hcall : session.call with
    | none =>
      rw [hnil]
      exact h
    | some call =>
      rw [hcall] at hundisturbed
      cases call with
      | writing bytes =>
        have hdone : Launched fallback input last { session with call := none } :=
          h.call_none (by rw [hcall]; exact fun _ hsame => nomatch hsame)
        cases answered with
        | false => exact hnil.symm ▸ hdone
        | true => exact hdone.writeChild (hundisturbed rfl)
      | resizingChild size =>
        cases hcarried : answered && holderAdmits size with
        | false =>
          have hdone : Launched fallback input last { session with call := none } :=
            h.call_none (by rw [hcall]; exact fun _ hsame => nomatch hsame)
          simp only [hcarried, Bool.false_eq_true, if_false]
          exact hnil.symm ▸ hdone
        | true =>
          simp only [hcarried, if_true]
          have hlate := hundisturbed (Bool.and_eq_true_iff.mp hcarried).1
          exact hnil.symm ▸ h.resizeChild hcall hlate
      | resizingScreen size =>
        exact (List.append_nil input).symm ▸ h.resizeScreen hcall hundisturbed

/-! ### The launcher -/

/-- `finish_launch` moves the queue and a late size into the launcher's hands. -/
theorem Unlaunched.finishLaunch (h : Unlaunched fallback input last session) {chosen : Size}
    (hlauncher : session.launcher = .finishing chosen)
    (hcancelled : session.deferred.cancelled = false) (answered : Bool) :
    Launched fallback input last (session.launcherStep fallback answered) := by
  have hprepared := h.preparing
  unfold Preparing at hprepared
  rw [hlauncher] at hprepared
  obtain ⟨hchild, hchosen, hscreen⟩ := hprepared
  -- either a late size is in hand, or the child already has the size
  have htarget : (session.deferred.pending.filter fun pending => pending ≠ chosen).getD
      chosen.atLeastTwo = target fallback last := by
    rw [h.proposed] at hchosen ⊢
    unfold target
    cases hlast : last with
    | none => rw [hchosen hlast]; rfl
    | some size =>
      by_cases hsame : size = chosen
      · subst hsame
        simp only [Option.filter, ne_eq, not_true_eq_false, decide_false, Bool.false_eq_true,
          if_false]
        exact h.admitted size hlast
      · simp [Option.filter, hsame]
  unfold launcherStep DeferredState.finishLaunch
  simp only [hlauncher, hcancelled, Bool.false_eq_true, if_false]
  refine ⟨rfl, trivial, rfl, ⟨_, hchild, h.queue, ?_⟩, ?_, ?_, h.admitted, ?_⟩
  · unfold ChildSized
    simp only [h.call]
    exact htarget
  · intro _
    simp only [lateForScreen]
    rw [hscreen]
    exact htarget
  · intro size hlate
    simp only [lateForScreen] at hlate
    rw [← h.proposed]
    exact (Option.filter_eq_some_iff.mp hlate).1
  · intro size hasked
    simp only [h.call] at hasked
    rcases hasked with hasked | hasked <;> cases hasked

/-- Everything before `finish_launch` is the launcher's own. -/
theorem Unlaunched.launcherStep (h : Unlaunched fallback input last session) (answered : Bool) :
    Sound fallback input last (session.launcherStep fallback answered) := by
  have hprepared := h.preparing
  unfold Preparing at hprepared
  cases hlauncher : session.launcher with
  | waiting =>
    rw [hlauncher] at hprepared
    refine Or.inl ?_
    unfold DeferredSession.launcherStep DeferredState.launchSize
    simp only [hlauncher]
    cases hcancelled : session.deferred.cancelled with
    | true => exact ⟨h.launched, h.call, h.queue, h.proposed, h.admitted, hprepared⟩
    | false =>
      refine ⟨h.launched, h.call, h.queue, h.proposed, h.admitted, hprepared, ?_⟩
      intro hnone
      change session.deferred.pending = none at hnone
      rw [hnone]
      rfl
  | sizing chosen =>
    rw [hlauncher] at hprepared
    obtain ⟨hchild, hchosen⟩ := hprepared
    refine Or.inl ?_
    unfold DeferredSession.launcherStep
    simp only [hlauncher]
    refine ⟨h.launched, h.call, h.queue, h.proposed, h.admitted, hchild, hchosen, ?_⟩
    exact resizeScreen_screen _ (admitted_atLeastTwo chosen)
  | spawning chosen =>
    rw [hlauncher] at hprepared
    obtain ⟨hchild, hchosen, hscreen⟩ := hprepared
    refine Or.inl ?_
    unfold DeferredSession.launcherStep
    simp only [hlauncher]
    cases answered with
    | true => exact ⟨h.launched, h.call, h.queue, h.proposed, h.admitted, rfl, hchosen, hscreen⟩
    | false => exact ⟨h.launched, h.call, h.queue, h.proposed, h.admitted, hchild⟩
  | finishing chosen =>
    cases hcancelled : session.deferred.cancelled with
    | false => exact Or.inr (h.finishLaunch hlauncher hcancelled answered)
    | true =>
      refine Or.inl ?_
      unfold DeferredSession.launcherStep DeferredState.finishLaunch
      simp only [hlauncher, hcancelled, if_true]
      exact ⟨h.launched, h.call, h.queue, h.proposed, h.admitted, rfl⟩
  | stopped =>
    unfold DeferredSession.launcherStep
    simp only [hlauncher]
    exact Or.inl h
  | _ => rw [hlauncher] at hprepared; exact hprepared.elim

theorem Launched.flush (h : Launched fallback input last session) {handoff : LaunchHandoff}
    (hlauncher : session.launcher = .flushing handoff) {answered : Bool}
    (hanswered : handoff.queuedInput ≠ [] → answered = true) :
    Launched fallback input last (session.launcherStep fallback answered) := by
  obtain ⟨child, hchild, hinput, hsized⟩ := h.child
  have hscreen := h.screen
  have hlate := h.late
  simp only [inHand, lateForScreen, hlauncher] at hinput hscreen hlate
  simp only [ChildSized, lateForChild, hlauncher] at hsized
  unfold DeferredSession.launcherStep
  simp only [hlauncher]
  by_cases hempty : handoff.queuedInput = []
  · rw [hempty] at hinput ⊢
    exact ⟨h.launched, trivial, h.queue, ⟨child, hchild, hinput, hsized⟩, hscreen, hlate, h.admitted,
      h.asked⟩
  · rw [if_pos (by simp [hempty, hanswered hempty])]
    refine ⟨h.launched, trivial, h.queue, ?_, hscreen, hlate, h.admitted, h.asked⟩
    refine ⟨{ child with input := child.input ++ handoff.queuedInput },
      congrArg (Option.map _) hchild, ?_, hsized⟩
    exact (List.append_nil _).trans hinput

theorem Launched.sizeChild (h : Launched fallback input last session) {late : Option Size}
    (hlauncher : session.launcher = .sizingChild late) {answered : Bool}
    (hanswered : late ≠ none → answered = true) :
    Launched fallback input last (session.launcherStep fallback answered) := by
  obtain ⟨child, hchild, hinput, hsized⟩ := h.child
  have hscreen := h.screen
  have hlate := h.late
  simp only [inHand, lateForScreen, hlauncher] at hinput hscreen hlate
  simp only [ChildSized, lateForChild, hlauncher] at hsized
  unfold DeferredSession.launcherStep
  simp only [hlauncher]
  cases late with
  | none =>
    exact ⟨h.launched, trivial, h.queue, ⟨child, hchild, hinput, hsized⟩, hscreen, hlate, h.admitted,
      h.asked⟩
  | some size =>
    have hadmitted : size.atLeastTwo = size := h.admitted size (hlate size rfl)
    simp only [hanswered (by simp), if_true]
    refine ⟨h.launched, trivial, h.queue, ?_, hscreen, hlate, h.admitted, h.asked⟩
    refine ⟨{ child with size := size.atLeastTwo }, congrArg (Option.map _) hchild, hinput, ?_⟩
    unfold ChildSized
    change match session.call with
      | some (.resizingScreen taken) => size.atLeastTwo = taken ∧ none = none
      | _ => size.atLeastTwo = target fallback last
    split
    · -- a client between its halves has waited for the late size
      rename_i taken hcall
      rw [hcall] at hsized
      exact absurd hsized.2 (by simp)
    · rename_i hcall
      rw [hadmitted]
      split at hsized
      · rename_i taken hcalled
        exact absurd hcalled (hcall taken)
      · exact hsized

theorem Launched.sizeScreen (h : Launched fallback input last session) {late : Option Size}
    (hlauncher : session.launcher = .sizingScreen late) (answered : Bool) :
    Launched fallback input last (session.launcherStep fallback answered) := by
  obtain ⟨child, hchild, hinput, hsized⟩ := h.child
  have hscreen := h.screen
  have hlate := h.late
  simp only [inHand, lateForScreen, hlauncher] at hinput hscreen hlate
  unfold ChildSized lateForChild at hsized
  rw [hlauncher] at hsized
  unfold DeferredSession.launcherStep
  simp only [hlauncher]
  cases late with
  | none =>
    exact ⟨h.launched, trivial, h.queue, ⟨child, hchild, hinput, hsized⟩, hscreen,
      (fun _ h => nomatch h), h.admitted, h.asked⟩
  | some size =>
    have hadmitted : size.atLeastTwo = size := h.admitted size (hlate size rfl)
    refine ⟨h.launched, trivial, h.queue, ⟨child, hchild, hinput, hsized⟩, ?_,
      (fun _ h => nomatch h), h.admitted, h.asked⟩
    intro hcall
    have hscreened := resizeScreen_screen { session with launcher := .pumping }
      (admitted_atLeastTwo size)
    refine hscreened.trans (hadmitted.trans ?_)
    exact hscreen hcall

theorem Sound.launcherStep (h : Sound fallback input last session) {answered : Bool}
    (hundisturbed : Undisturbed (take (step fallback) session (.launcher answered))) :
    Sound fallback input last (session.launcherStep fallback answered) := by
  rcases h with h | h
  · exact h.launcherStep answered
  · have hover := h.handedOver
    simp only [Undisturbed, take] at hundisturbed
    cases hlauncher : session.launcher with
    | flushing handoff =>
      rw [hlauncher] at hundisturbed
      exact Or.inr (h.flush hlauncher hundisturbed)
    | sizingChild late =>
      rw [hlauncher] at hundisturbed
      exact Or.inr (h.sizeChild hlauncher hundisturbed)
    | sizingScreen late => exact Or.inr (h.sizeScreen hlauncher answered)
    | pumping =>
      unfold DeferredSession.launcherStep
      simp only [hlauncher]
      exact Or.inr h
    | _ => rw [hlauncher] at hover; exact hover.elim

/-! ### Runs -/

theorem Sound.cancel (h : Sound fallback input last session) :
    Sound fallback input last { session with deferred := session.deferred.cancel.2 } := by
  unfold DeferredState.cancel
  rcases h with h | h
  · rw [if_neg (by simp [h.launched])]
    exact Or.inl ⟨h.launched, h.call, h.queue, h.proposed, h.admitted, h.preparing⟩
  · rw [if_pos h.launched]
    exact Or.inr h

theorem Sound.step (h : Sound fallback input last session) (event : LaunchEvent)
    (hundisturbed : Undisturbed (take (step fallback) session event)) :
    Sound fallback (input ++ (DeferredSession.step fallback session event).2.bytes)
      (newLast last (DeferredSession.step fallback session event).2)
      (DeferredSession.step fallback session event).1 := by
  have hnil : input ++ (Accepted.nothing).bytes = input := List.append_nil input
  unfold DeferredSession.step
  cases event with
  | writeInput bytes =>
    cases hcall : session.call with
    | none => exact h.writeInput hcall bytes
    | some call => exact hnil.symm ▸ h
  | resize size =>
    cases hcall : session.call with
    | none => exact h.resize hcall (admitted_atLeastTwo size)
    | some call => exact hnil.symm ▸ h
  | client answered => exact h.clientStep hundisturbed
  | launcher answered => exact hnil.symm ▸ h.launcherStep hundisturbed
  | cancel => exact hnil.symm ▸ h.cancel

theorem acceptedInput_concat (history : List LaunchStep) (s : LaunchStep) :
    acceptedInput (history ++ [s]) = acceptedInput history ++ s.outcome.bytes := by
  simp [acceptedInput]

theorem lastSize_concat (history : List LaunchStep) (s : LaunchStep) :
    lastSize (history ++ [s]) = newLast (lastSize history) s.outcome := by
  unfold lastSize newLast
  rw [List.filterMap_append, List.getLast?_append]
  cases hsize : s.outcome.newSize <;> simp [hsize]

theorem sound_run (fallback : Size) {events : List LaunchEvent}
    (hundisturbed : ∀ s ∈ trace (DeferredSession.step fallback) (new fallback) events,
      Undisturbed s) :
    Sound fallback (acceptedInput (trace (DeferredSession.step fallback) (new fallback) events))
      (lastSize (trace (DeferredSession.step fallback) (new fallback) events))
      (run (DeferredSession.step fallback) (new fallback) events) := by
  refine trace_invariant_where (C := Undisturbed)
    (P := fun history session => Sound fallback (acceptedInput history) (lastSize history) session)
    _ hundisturbed (sound_new fallback) ?_
  intro history session event hstep hsound
  rw [acceptedInput_concat, lastSize_concat]
  exact hsound.step event hstep

theorem Unlaunched.received (h : Unlaunched fallback input last session) :
    session.received = [] ∧ session.inHand = [] ∧ session.launcher ≠ .pumping := by
  have hprepared := h.preparing
  unfold Preparing at hprepared
  unfold DeferredSession.received inHand
  cases hlauncher : session.launcher with
  | waiting | stopped =>
    rw [hlauncher] at hprepared
    exact ⟨by rw [hprepared]; rfl, rfl, fun h => nomatch h⟩
  | sizing chosen | spawning chosen | finishing chosen =>
    rw [hlauncher] at hprepared
    exact ⟨by rw [hprepared.1]; rfl, rfl, fun h => nomatch h⟩
  | _ => rw [hlauncher] at hprepared; exact hprepared.elim

/--
**The handoff is complete.**  In a run in which no client gets ahead of the launcher and the
Holder carries out what the launcher asks of it, the accepted input is what the child has
been sent, followed by what the launcher has in hand or the queue holds.  Once the launcher is
pumping the child has been sent all of it, and when no client call is under way its terminal
and the emulator have the size of the last accepted resize.
-/
theorem deferred_launch_handoff (fallback : Size) {events : List LaunchEvent}
    (hundisturbed : ∀ s ∈ trace (step fallback) (new fallback) events, Undisturbed s) :
    let session := run (step fallback) (new fallback) events
    let history := trace (step fallback) (new fallback) events
    session.received ++ session.inHand ++ session.deferred.queuedInput = acceptedInput history ∧
      (session.launcher = .pumping → session.received = acceptedInput history ∧
        (session.call = none →
          session.child.map Child.size = some ((lastSize history).getD fallback.atLeastTwo) ∧
          session.screen = (lastSize history).getD fallback.atLeastTwo)) := by
  intro session history
  have hsound : Sound fallback (acceptedInput history) (lastSize history) session :=
    sound_run fallback hundisturbed
  rcases hsound with h | h
  · obtain ⟨hreceived, hhand, hnot⟩ := h.received
    refine ⟨?_, fun hpumping => absurd hpumping hnot⟩
    rw [hreceived, hhand]
    exact h.queue
  · obtain ⟨child, hchild, hinput, hsized⟩ := h.child
    have hreceived : session.received = child.input := by
      rw [DeferredSession.received, hchild]
      rfl
    refine ⟨?_, fun hpumping => ⟨?_, fun hcall => ?_⟩⟩
    · rw [hreceived, h.queue, List.append_nil]
      exact hinput
    · rw [hreceived, ← hinput, inHand, hpumping, List.append_nil]
    · have hscreen := h.screen (by rw [hcall]; exact fun _ hsame => nomatch hsame)
      unfold ChildSized lateForChild at hsized
      unfold lateForScreen at hscreen
      rw [hcall, hpumping] at hsized
      rw [hpumping] at hscreen
      exact ⟨by rw [hchild]; exact congrArg some hsized, hscreen⟩

/-! ### Two launches -/

/-- The launcher takes `n` steps, and every request is carried out. -/
def launcherSteps (n : Nat) : List LaunchEvent := List.replicate n (.launcher true)

/-- Bytes are typed and a size proposed while the child is being started, and a client goes on
after the handoff. -/
def settled : List LaunchEvent :=
  launcherSteps 2 ++ [.writeInput [0x61], .resize (100, 40)] ++ launcherSteps 5 ++
    [.writeInput [0x62], .client true, .resize (120, 50), .client true, .client true]

/-- A computed form of `Undisturbed`. -/
def undisturbed (s : LaunchStep) : Bool :=
  match s.event with
  | .client answered =>
    match s.before.call with
    | some (.writing bytes) => !answered || bytes.isEmpty || s.before.inHand.isEmpty
    | some (.resizingChild _) => !answered || s.before.lateForChild.isNone
    | some (.resizingScreen _) => s.before.lateForScreen.isNone
    | none => true
  | .launcher answered =>
    match s.before.launcher with
    | .flushing handoff => handoff.queuedInput.isEmpty || answered
    | .sizingChild late => late.isNone || answered
    | _ => true
  | _ => true

theorem undisturbed_of_check {s : LaunchStep} (h : undisturbed s = true) : Undisturbed s := by
  unfold undisturbed at h
  unfold Undisturbed
  split at h
  · split at h
    · intro hanswered hbytes
      simpa [hanswered, hbytes] using h
    · intro hanswered
      simpa [hanswered] using h
    · simpa using h
    · trivial
  · split at h
    · intro hqueued
      simpa [hqueued] using h
    · intro hlate
      simpa [hlate] using h
    · trivial
  · trivial

theorem deferred_launch_handoff_settled :
    (run (step (80, 24)) (new (80, 24)) settled).received = [0x61, 0x62] ∧
      (run (step (80, 24)) (new (80, 24)) settled).child.map Child.size = some (120, 50) ∧
      (run (step (80, 24)) (new (80, 24)) settled).screen = (120, 50) := by
  have hchecked : ∀ s ∈ trace (step (80, 24)) (new (80, 24)) settled, undisturbed s = true := by
    decide
  have hhandoff := deferred_launch_handoff (80, 24) fun s hs =>
    undisturbed_of_check (hchecked s hs)
  obtain ⟨hreceived, hsizes⟩ := hhandoff.2 (by rfl)
  obtain ⟨hchild, hscreen⟩ := hsizes (by rfl)
  exact ⟨hreceived.trans (by decide), hchild.trans (by decide),
    hscreen.trans (by decide)⟩

/-- The launcher is done, no call is under way, and something accepted has not arrived. -/
def Loses (events : List LaunchEvent) : Prop :=
  let session := run (step (80, 24)) (new (80, 24)) events
  let history := trace (step (80, 24)) (new (80, 24)) events
  session.launcher = .pumping ∧ session.call = none ∧
    (session.received ≠ acceptedInput history ∨ some session.screen ≠ lastSize history)

/-- A client writes between `finish_launch` and the flush, and its bytes come first; or it
resizes there, and the late size is applied after its own. -/
theorem client_overtakes_handoff :
    Loses (launcherSteps 3 ++ [.writeInput [0x61]] ++ launcherSteps 1 ++
        [.writeInput [0x62], .client true] ++ launcherSteps 3) ∧
      Loses (launcherSteps 3 ++ [.resize (100, 40)] ++ launcherSteps 1 ++
        [.resize (120, 50), .client true, .client true] ++ launcherSteps 3) := by
  refine ⟨⟨rfl, rfl, Or.inl ?_⟩, ⟨rfl, rfl, Or.inr ?_⟩⟩ <;> decide

end Homie.Engine.DeferredSession
