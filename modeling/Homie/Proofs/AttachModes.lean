/-
When the sinks of a session know its modes.

Modes are sent with the seed and then when they differ from the one value the pump
remembers, and a pump that finds the session replaced remembers none.  So a sink is left
behind when the pump sends no modes frame although the sink's last one is another; when
the frame goes out while the sink has its seed and is not registered yet; and when a pump
starts on the seed of another sink.  `ModesSent` excludes these, and then every connected
sink has the session's modes whenever the pump has processed every wake.
-/
import Homie.Proofs.AttachHub
import Homie.Proofs.RemoteSinks
import Homie.Proofs.GridDiff

namespace Homie

open Remote

/-! ### The session -/

namespace HubSession

variable {T : Type} {P : Platform T}

/-- What every session keeps: its screen is tracked, and its mirror, once it has a screen,
is well formed with nothing pending that would harm it. -/
structure Sound (shared : RemotePump T) : Prop where
  tracked : shared.session.screen.Tracked
  mirror : ∀ remote, shared.session.remoteGrid = some remote →
    remote.mirror.sequence.isSome = true → remote.Caught []

theorem sound_create (cols rows : UInt16) (outputOffset : Option Nat) :
    Sound (create P cols rows outputOffset) := by
  cases outputOffset with
  | some offset =>
    refine ⟨HeadlessScreen.tracked_new cols rows, ?_⟩
    rintro remote ⟨⟩ hsequence
    cases hsequence
  | none =>
    refine ⟨HeadlessScreen.tracked_new cols rows, ?_⟩
    rintro remote ⟨⟩

theorem sound_of_caught {shared : RemotePump T} {sinks : List (List GridCell)}
    (htracked : shared.session.screen.Tracked)
    (hcaught : RemoteSinks.Caught ⟨shared, sinks⟩) : Sound shared := by
  obtain ⟨remote, hremote, hall⟩ := hcaught
  refine ⟨htracked, ?_⟩
  intro other hother hsequence
  obtain rfl : remote = other := Option.some.inj (hremote.symm.trans hother)
  obtain ⟨hformed, hsettled, -⟩ := hall hsequence
  exact ⟨hformed, hsettled, fun _ hsink => absurd hsink List.not_mem_nil⟩

theorem Sound.applyChange {shared : RemotePump T} (h : Sound shared) (change : SessionChange) :
    Sound (applyChange P shared change) := by
  cases change with
  | screen change => exact ⟨h.tracked.change change, h.mirror⟩
  | output offset bytes =>
    simp only [HubSession.applyChange, RemotePump.applyRemoteOutput]
    split
    · exact h
    · split
      · exact h
      · exact ⟨h.tracked.change (.feed _), h.mirror⟩
  | snapshot snapshot =>
    cases hremote : shared.session.remoteGrid with
    | none =>
      simp only [HubSession.applyChange, RemotePump.applyRemoteSnapshot, hremote]
      exact h
    | some remote =>
      have hcaught : RemoteSinks.Caught ⟨shared, []⟩ := ⟨remote, hremote, h.mirror remote hremote⟩
      refine sound_of_caught ?_ (hcaught.snapshot (P := P) snapshot)
      simp only [HubSession.applyChange, RemotePump.applyRemoteSnapshot, hremote]
      split
      · exact h.tracked
      · exact (h.tracked.change (.resize _ _)).change (.restore _ _ _ _ _)
  | delta delta =>
    cases hremote : shared.session.remoteGrid with
    | none =>
      simp only [HubSession.applyChange, RemotePump.applyRemoteDelta, hremote]
      exact h
    | some remote =>
      have hcaught : RemoteSinks.Caught ⟨shared, []⟩ := ⟨remote, hremote, h.mirror remote hremote⟩
      refine sound_of_caught ?_ (hcaught.delta (P := P) delta)
      simp only [HubSession.applyChange, RemotePump.applyRemoteDelta, hremote]
      split
      · exact h.tracked
      · exact h.tracked

theorem Sound.foldl_applyChange (changes : List SessionChange) {shared : RemotePump T}
    (h : Sound shared) : Sound (changes.foldl (HubSession.applyChange P) shared) := by
  induction changes generalizing shared with
  | nil => exact h
  | cons change changes ih => exact ih (h.applyChange change)

theorem Sound.emit {shared : RemotePump T} (h : Sound shared) (signature : GridSignature) :
    Sound { shared with
      session := (shared.session.gridUpdateIfChanged P.backend signature).2.2 } := by
  have hscreen : (shared.session.gridUpdateIfChanged P.backend signature).2.2.screen.Tracked := by
    unfold Session.gridUpdateIfChanged
    split
    · split
      · exact h.tracked
      · exact h.tracked
    · split
      · exact h.tracked
      · exact h.tracked.gridUpdate false
  cases hremote : shared.session.remoteGrid with
  | some remote =>
    have hcaught : RemoteSinks.Caught ⟨shared, []⟩ := ⟨remote, hremote, h.mirror remote hremote⟩
    exact sound_of_caught hscreen (hcaught.emit (P := P) signature)
  | none =>
    refine ⟨hscreen, ?_⟩
    intro remote hsome
    have hnone : (shared.session.gridUpdateIfChanged P.backend signature).2.2.remoteGrid = none := by
      rw [Session.gridUpdateIfChanged_own (by rw [hremote]; rfl)]
      split
      · exact hremote
      · exact hremote
    rw [show _ = _ from hsome] at hnone
    cases hnone

end HubSession

namespace Session

variable {T : Type} {E : Backend T} {session : Session T}

theorem shown_emit (session : Session T) (signature : GridSignature) :
    (session.gridUpdateIfChanged E signature).2.2.shown E = session.shown E ∧
      (session.gridUpdateIfChanged E signature).2.2.modes E = session.modes E := by
  cases hremote : session.remoteGrid.filter fun remote => remote.mirror.sequence.isSome with
  | none =>
    rw [gridUpdateIfChanged_own hremote]
    split
    · exact ⟨rfl, rfl⟩
    · simp only [shown, modes, hremote]
      exact ⟨rfl, rfl⟩
  | some remote =>
    obtain ⟨hsome, hsequence⟩ := Option.filter_eq_some_iff.mp hremote
    rw [gridUpdateIfChanged_remote hsome hsequence]
    split
    · exact ⟨rfl, rfl⟩
    · simp only [shown, modes, hremote]
      have hkept : Option.filter (fun remote : RemoteGridState => remote.mirror.sequence.isSome)
          (some { remote with pending := none }) = some { remote with pending := none } :=
        Option.filter_some_pos hsequence
      rw [hkept]
      exact ⟨rfl, rfl⟩

theorem attachmentSeed_of_sound {shared : RemotePump T} (h : HubSession.Sound shared) :
    (shared.session.attachmentSeed E).grid.apply [] = shared.session.shown E ∧
      (shared.session.attachmentSeed E).modes = shared.session.modes E := by
  cases hremote : shared.session.remoteGrid.filter fun remote => remote.mirror.sequence.isSome with
  | none =>
    have hnone : (shared.session.remoteGrid.bind fun remote => remote.mirror.fullUpdate.map
        fun grid => AttachmentSeed.mk grid (remote.mirror.altScreen, remote.mirror.mouseReporting)
          remote.signature) = none := by
      cases hgrid : shared.session.remoteGrid with
      | none => rfl
      | some remote =>
        rw [hgrid] at hremote
        have hsequence : ¬ remote.mirror.sequence.isSome = true := by
          simpa [Option.filter] using hremote
        have hfull : remote.mirror.fullUpdate = none := by
          unfold GridMirror.fullUpdate
          rw [if_pos (Or.inl (by simpa using hsequence))]
        simp [hfull]
    simp only [attachmentSeed, hnone, shown, modes, hremote]
    exact ⟨HeadlessScreen.apply_fullSnapshot h.tracked.range [], rfl⟩
  | some remote =>
    obtain ⟨hsome, hsequence⟩ := Option.filter_eq_some_iff.mp hremote
    obtain ⟨update, hupdate, -, hpaints⟩ := (h.mirror remote hsome hsequence).formed.fullUpdate hsequence
    have hseed : shared.session.attachmentSeed E = ⟨update,
        (remote.mirror.altScreen, remote.mirror.mouseReporting), remote.signature⟩ := by
      simp only [attachmentSeed, hsome, Option.bind_some, hupdate, Option.map_some,
        Option.getD_some]
    simp only [hseed, shown, modes, hremote]
    exact ⟨hpaints [], trivial⟩

end Session

namespace AttachHub

variable {T : Type} {P : Platform T} {hub : AttachHub T}

/-- The session a hub serves is sound. -/
def Sound (hub : AttachHub T) : Prop := ∀ s ∈ hub.session, HubSession.Sound s.shared

theorem Sound.afterPump (h : Sound hub) (event : HubStep) :
    Sound (match hub.pump with
      | some pump => (hub.pumpStep P pump event, ())
      | none => (hub, ())).1 := by
  split
  · next p hp =>
      show Sound (hub.pumpStep P p event)
      have hmove := pumpStep_moves P hub p event
      revert hmove
      generalize hub.pumpStep P p event = next
      intro hmove
      cases hmove with
      | samplesGrid hphase hsession =>
        rintro _ ⟨⟩
        exact (h _ hsession).emit _
      | _ => exact h
  · exact h

theorem Sound.step (h : Sound hub) (event : HubStep) : Sound (hub.step P event).1 := by
  have hpumped := h.afterPump (P := P) event
  cases event with
  | change change =>
    intro s hs
    obtain ⟨old, hold, rfl⟩ := Option.map_eq_some_iff.mp hs
    exact (h old hold).applyChange change
  | notify =>
    intro s hs
    obtain ⟨old, hold, rfl⟩ := Option.map_eq_some_iff.mp hs
    exact h old hold
  | install cols rows outputOffset changes =>
    rw [AttachHub.step]
    split
    · exact h
    · rintro _ ⟨⟩
      exact (HubSession.sound_create cols rows outputOffset).foldl_applyChange changes
  | remove =>
    rw [AttachHub.step]
    split
    · exact h
    · rintro _ ⟨⟩
  | seed =>
    rw [AttachHub.step]
    split
    · exact h
    · show Sound (hub.seed P)
      unfold AttachHub.seed
      split
      · exact h
      · next hsession => exact fun s hs => h s hs
  | register id =>
    show Sound (hub.register id)
    unfold AttachHub.register
    split
    · exact h
    · exact h
  | hangUp id => exact h
  | deregister id => exact h
  | wait | check | coalesce | sampleGrid | sampleModes | readSinks | write | finish =>
    exact hpumped

theorem sound_new : Sound (new : AttachHub T) := by
  rintro _ ⟨⟩

/-! ### The modes -/

/-- A sink's last modes frame has the modes of the session. -/
def KnowsModes (P : Platform T) (view : SinkView) (session : Session T) : Prop :=
  view.modes = session.modes P.backend

theorem modes_after_gridFrames (view : SinkView) (update : Option GridUpdate) :
    (view.after (gridFrames update)).modes = view.modes := by
  cases update with
  | none => rfl
  | some update => rfl

theorem modes_after_modesFrames (view : SinkView) (lastModes : Option (Bool × Bool))
    (modes : Bool × Bool) :
    (view.after (modesFrames lastModes modes)).modes
      = if modesFrames lastModes modes = [] then view.modes else modes := by
  unfold modesFrames
  split
  · split
    · rfl
    · rfl
  · rfl

/--
A step leaves no sink with modes of its own.  When the pump sends no modes frame, every
connected sink has the modes already; a connection that is not registered when the sink
list is read loses no modes frame by it; and a pump that starts on a seed with nothing
newer finds the other sinks with the same modes.
-/
structure ModesSent (P : Platform T) (hub : AttachHub T) (event : HubStep) : Prop where
  sampled : ∀ p update s, event = .sampleModes → hub.pump = some p → p.phase = .sampled update →
    hub.session = some s → modesFrames p.lastModes (s.session.modes P.backend) = [] →
      ∀ a ∈ hub.attachments, a.connected = true → KnowsModes P a.view s.session
  read : ∀ p frames, event = .readSinks → hub.pump = some p → p.phase = .observed frames →
    ∀ a ∈ hub.attachments, a.connected = true → a.registered = false →
      a.expected.modes = a.view.modes
  started : ∀ id, event = .register id → StartsEven (KnowsModes P) hub id

theorem serves_modes (hbooks : Books hub) (hsound : Sound hub)
    (hcurrent : Current (KnowsModes P) true hub) {event : HubStep} (hsent : ModesSent P hub event) :
    Serves P (KnowsModes P) true hub event := by
  refine
    { seed := ?_
      grid := ?_
      modes := ?_
      reads := ?_
      register := hsent.started }
  · intro s hs
    exact (Session.attachmentSeed_of_sound (E := P.backend) (hsound s hs)).2
  · rintro p s rfl hp hphase hsession
    have hstep : (hub.step P .sampleGrid).1 = hub.pumpStep P p .sampleGrid := by
      simp only [AttachHub.step, hp]
    rw [hstep]
    simp only [pumpStep, hphase, hsession]
    refine ⟨?_, ?_, ?_⟩
    · rintro _ ⟨⟩ _ ⟨⟩ a _ _
      exact Or.inr (Or.inr (Or.inr rfl))
    · rintro _ ⟨⟩ b hb hconnected hregistered
      obtain ⟨a, ha, rfl⟩ := List.mem_map.mp hb
      rcases hcurrent.seeded s hsession a ha hconnected hregistered with hknows | hrest
      · refine Or.inl ?_
        show (a.view.after (a.due ++ _)).modes = Session.modes _ _
        rw [SinkView.after_append, modes_after_gridFrames]
        exact hknows.trans (s.session.shown_emit (E := P.backend) p.signature).2.symm
      · exact Or.inr hrest
    · rintro _ ⟨⟩ _ ⟨⟩
      exact Or.inl (Or.inr (Or.inr rfl))
  · rintro s rfl hsampling hsession
    cases hp : hub.pump with
    | none =>
      rw [sampling, hp] at hsampling
      cases hsampling
    | some p =>
      obtain ⟨update, hphase⟩ := (sampling_eq hp).mp hsampling
      have hstep : (hub.step P .sampleModes).1 = hub.pumpStep P p .sampleModes := by
        simp only [AttachHub.step, hp]
      have hknows : ∀ a ∈ hub.attachments, a.connected = true →
          (a.view.after (a.due ++ modesFrames p.lastModes (s.session.modes P.backend))).modes
            = s.session.modes P.backend := by
        intro a ha hconnected
        have hdue := hbooks.due p hp a ha
        rw [hphase] at hdue
        rw [show a.due = _ from hdue, SinkView.after_append, modes_after_modesFrames,
          modes_after_gridFrames]
        by_cases hnone : modesFrames p.lastModes (s.session.modes P.backend) = []
        · rw [if_pos hnone]
          exact hsent.sampled p update s rfl hp hphase hsession hnone a ha hconnected
        · rw [if_neg hnone]
      rw [hstep]
      simp only [pumpStep, hphase, hsession]
      refine ⟨?_, ?_, ?_⟩
      · rintro _ ⟨⟩ _ ⟨⟩ b hb hconnected
        obtain ⟨a, ha, rfl⟩ := List.mem_map.mp hb
        exact Or.inl (hknows a ha hconnected)
      · rintro _ ⟨⟩ b hb hconnected _
        obtain ⟨a, ha, rfl⟩ := List.mem_map.mp hb
        exact Or.inl (hknows a ha hconnected)
      · rintro _ ⟨⟩ _ ⟨⟩
        refine Or.inr fun view hview => ?_
        show (view.after (_ ++ _)).modes = _
        rw [SinkView.after_append, modes_after_modesFrames, modes_after_gridFrames]
        split
        · exact hview
        · rfl
  · intro p frames hevent hp hphase a ha hconnected hregistered s _ hknows
    show a.view.modes = _
    rw [← hsent.read p frames hevent hp hphase a ha hconnected hregistered]
    exact hknows

/-- `ModesSent`, computed. -/
def modesSent (P : Platform T) (hub : AttachHub T) : HubStep → Bool
  | .sampleModes =>
    match hub.pump, hub.session with
    | some p, some s =>
      modesFrames p.lastModes (s.session.modes P.backend) ≠ [] ||
        hub.attachments.all fun a => a.view.modes = s.session.modes P.backend
    | _, _ => true
  | .readSinks => hub.attachments.all fun a => a.expected.modes = a.view.modes || a.registered
  | .register id =>
    match hub.pump, hub.session with
    | none, some s =>
      hub.attachments.all fun a => a.id = id || a.view.modes = s.session.modes P.backend
    | _, _ => true
  | _ => true

theorem modesSent_of_check {event : HubStep} (h : modesSent P hub event = true) :
    ModesSent P hub event := by
  refine ⟨?_, ?_, ?_⟩
  · rintro p update s rfl hp hphase hsession hnone a ha hconnected
    rw [modesSent, hp, hsession] at h
    simp only [hnone, ne_eq, not_true_eq_false, decide_false, Bool.false_or, List.all_eq_true,
      decide_eq_true_eq] at h
    exact h a ha
  · rintro p frames rfl hp hphase a ha hconnected hregistered
    simp only [modesSent, List.all_eq_true, Bool.or_eq_true, decide_eq_true_eq] at h
    rcases h a ha with hsame | htrue
    · exact hsame
    · rw [hregistered] at htrue
      cases htrue
  · rintro id rfl hnone starter hstarter s hs hchanged hwake a ha hother hconnected
    have hsession : hub.session = some s := hs
    rw [modesSent, hnone, hsession] at h
    simp only [List.all_eq_true, Bool.or_eq_true, decide_eq_true_eq] at h
    rcases h a ha with hid | hsame
    · exact absurd hid hother
    · exact hsame

/-- A full snapshot of a screen of two blank cells, with the alternate screen on or not. -/
def blankSnapshot (altScreen : Bool) : FullSnapshot :=
  { sequence := 1
    grid := ⟨2, 1, 0, 0, true, true, [⟨0, [.blank, .blank]⟩]⟩
    altScreen := altScreen
    bracketedPaste := false
    mouseReporting := false }

/-- One turn of a pump with one sink. -/
def pumpTurn : List HubStep :=
  [.wait 0, .check, .sampleGrid, .sampleModes, .readSinks, .write, .write, .finish]

/-- A remote session with one sink and its pump. -/
def attached : List HubStep :=
  [.install 2 1 (some 0) [.snapshot (blankSnapshot false)], .seed, .register 0]

end AttachHub

end Homie
