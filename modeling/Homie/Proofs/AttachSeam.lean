/-
When the sinks of a session show its screen.

A sink gets a full frame as its seed and then the pump's diffs, and a diff carries the
rows that differ from the last one broadcast, not from what the sink has.  `RowsSent` says
when that makes no difference: at every sample a row that is not sent already stands in
every connected sink's buffer; a connection that has its seed and is not registered when
the sink list is read was seeded after the sample, or loses no row by it; and a pump that
starts on one seed finds the other sinks at the same screen.  Then whenever the pump has
processed all output, every connected sink's buffer is the screen.
-/
import Homie.Proofs.AttachModes

namespace Homie

open Remote RowMajor

/-! ### What an update carries -/

namespace GridUpdate

/-- Every row of `target` is in the update, or already in the buffer. -/
def Carries (u : GridUpdate) (target buffer : List GridCell) : Prop :=
  u.isFullSnapshot = true ∨ ∀ y < u.rows.toNat, u.written y = none →
    rowAt u.cols.toNat (u.cleared buffer) y = rowAt u.cols.toNat target y

instance (u : GridUpdate) (target buffer : List GridCell) : Decidable (u.Carries target buffer) :=
  inferInstanceAs (Decidable (_ ∨ _))

/-- An update made of rows of `target` takes a buffer there if it carries what is missing. -/
theorem apply_of_carries {u : GridUpdate} {target buffer : List GridCell}
    (hrows : u.apply target = target) (h : u.Carries target buffer) : u.apply buffer = target := by
  rcases h with hfull | hmissing
  · rw [apply_of_full hfull buffer target]
    exact hrows
  · have hlen : target.length = u.cols.toNat * u.rows.toNat := by
      rw [← hrows]
      exact u.length_apply target
    apply eq_of_rows (u.length_apply buffer) hlen
    intro y hy
    have htarget := u.rowAt_apply target hy
    rw [hrows] at htarget
    rw [u.rowAt_apply buffer hy]
    cases hwritten : u.written y with
    | none => exact hmissing y hy hwritten
    | some row =>
      rw [hwritten] at htarget
      exact htarget.symm

end GridUpdate

namespace Session

variable {T : Type} {E : Backend T}

theorem apply_emit {shared : RemotePump T} (h : HubSession.Sound shared)
    (signature : GridSignature) {update : GridUpdate}
    (hupdate : (shared.session.gridUpdateIfChanged E signature).1 = some update) :
    update.apply (shared.session.shown E) = shared.session.shown E := by
  cases hremote : shared.session.remoteGrid.filter fun remote => remote.mirror.sequence.isSome with
  | none =>
    rw [gridUpdateIfChanged_own hremote] at hupdate
    have hshown : shared.session.shown E = shared.session.screen.cells E := by
      simp only [shown, hremote]
    rw [hshown]
    split at hupdate
    · cases hupdate
    · obtain rfl := Option.some.inj hupdate
      refine (HeadlessScreen.apply_gridUpdate_iff h.tracked.range h.tracked.baseline false _).mpr ?_
      refine Or.inr fun y hy _ => ?_
      rw [HeadlessScreen.cleared, if_neg (by simp [HeadlessScreen.length_cells])]
      exact HeadlessScreen.rowAt_cells _ hy
  | some remote =>
    obtain ⟨hsome, hsequence⟩ := Option.filter_eq_some_iff.mp hremote
    have hcaught := h.mirror remote hsome hsequence
    have hshown : shared.session.shown E = remote.mirror.cells := by
      simp only [shown, hremote]
    rw [hshown]
    rw [gridUpdateIfChanged_remote hsome hsequence] at hupdate
    split at hupdate
    · cases hupdate
    · cases hpending : remote.pending with
      | some pending =>
        rw [hpending] at hupdate
        obtain rfl := Option.some.inj hupdate
        exact hcaught.settled pending hpending
      | none =>
        rw [hpending] at hupdate
        obtain ⟨whole, hwhole, -, hpaints⟩ := hcaught.formed.fullUpdate hsequence
        obtain rfl := Option.some.inj (hwhole.symm.trans hupdate)
        exact hpaints _

/-- The emission leaves nothing the sink does not have: without one the sink shows the
session, and with one it carries what the sink is missing. -/
def Sends (E : Backend T) (session : Session T) (signature : GridSignature)
    (buffer : List GridCell) : Prop :=
  match (session.gridUpdateIfChanged E signature).1 with
  | none => buffer = session.shown E
  | some update => update.Carries (session.shown E) buffer

instance (session : Session T) (signature : GridSignature) (buffer : List GridCell) :
    Decidable (session.Sends E signature buffer) :=
  match h : (session.gridUpdateIfChanged E signature).1 with
  | none => decidable_of_iff (buffer = session.shown E) (by simp [Sends, h])
  | some update =>
    decidable_of_iff (update.Carries (session.shown E) buffer) (by simp [Sends, h])

end Session

namespace AttachHub

variable {T : Type} {P : Platform T} {hub : AttachHub T}

/-- A sink's buffer has the cells the session shows. -/
def ShowsScreen (P : Platform T) (view : SinkView) (session : Session T) : Prop :=
  view.cells = session.shown P.backend

theorem cells_after_gridFrames (view : SinkView) (update : Option GridUpdate) :
    (view.after (gridFrames update)).cells = update.elim view.cells (·.apply view.cells) := by
  cases update with
  | none => rfl
  | some update => rfl

theorem cells_after_modesFrames (view : SinkView) (lastModes : Option (Bool × Bool))
    (modes : Bool × Bool) : (view.after (modesFrames lastModes modes)).cells = view.cells := by
  unfold modesFrames
  split
  · split
    · rfl
    · rfl
  · rfl

/-- A step leaves no sink with a row of its own. -/
structure RowsSent (P : Platform T) (hub : AttachHub T) (event : HubStep) : Prop where
  sampled : ∀ p s, event = .sampleGrid → hub.pump = some p → p.phase = .checked true →
    hub.session = some s → ∀ a ∈ hub.attachments, a.connected = true →
      s.session.Sends P.backend p.signature a.view.cells
  read : ∀ p frames, event = .readSinks → hub.pump = some p → p.phase = .observed frames →
    ∀ a ∈ hub.attachments, a.connected = true → a.registered = false →
      a.expected.cells = a.view.cells
  started : ∀ id, event = .register id → StartsEven (ShowsScreen P) hub id

theorem serves_grid (hbooks : Books hub) (hsound : Sound hub)
    (hcurrent : Current (ShowsScreen P) false hub) {event : HubStep} (hsent : RowsSent P hub event) :
    Serves P (ShowsScreen P) false hub event := by
  refine
    { seed := ?_
      grid := ?_
      modes := ?_
      reads := ?_
      register := hsent.started }
  · intro s hs
    exact (Session.attachmentSeed_of_sound (E := P.backend) (hsound s hs)).1
  · rintro p s rfl hp hphase hsession
    have hstep : (hub.step P .sampleGrid).1 = hub.pumpStep P p .sampleGrid := by
      simp only [AttachHub.step, hp]
    have hshown := (s.session.shown_emit (E := P.backend) p.signature).1
    have hshows : ∀ a ∈ hub.attachments, a.connected = true →
        (a.view.after (a.due ++ gridFrames
          (s.session.gridUpdateIfChanged P.backend p.signature).1)).cells
          = s.session.shown P.backend := by
      intro a ha hconnected
      have hdue := hbooks.due p hp a ha
      rw [hphase] at hdue
      have hsends := hsent.sampled p s rfl hp hphase hsession a ha hconnected
      rw [show a.due = [] from hdue, List.nil_append, cells_after_gridFrames]
      unfold Session.Sends at hsends
      cases hupdate : (s.session.gridUpdateIfChanged P.backend p.signature).1 with
      | none =>
        rw [hupdate] at hsends
        exact hsends
      | some update =>
        rw [hupdate] at hsends
        exact GridUpdate.apply_of_carries
          (Session.apply_emit (hsound s hsession) p.signature hupdate) hsends
    rw [hstep]
    simp only [pumpStep, hphase, hsession]
    refine ⟨?_, ?_, ?_⟩
    · rintro _ ⟨⟩ _ ⟨⟩ b hb hconnected
      obtain ⟨a, ha, rfl⟩ := List.mem_map.mp hb
      exact Or.inl ((hshows a ha hconnected).trans hshown.symm)
    · rintro _ ⟨⟩ b hb hconnected _
      obtain ⟨a, ha, rfl⟩ := List.mem_map.mp hb
      exact Or.inl ((hshows a ha hconnected).trans hshown.symm)
    · rintro _ ⟨⟩ _ ⟨⟩
      refine Or.inr fun view hview => ?_
      have hview : view.cells = s.session.shown P.backend := hview.trans hshown
      refine (cells_after_gridFrames view _).trans (Eq.trans ?_ hshown.symm)
      cases hupdate : (s.session.gridUpdateIfChanged P.backend p.signature).1 with
      | none => exact hview
      | some update =>
        show update.apply view.cells = _
        rw [hview]
        exact Session.apply_emit (hsound s hsession) p.signature hupdate
  · rintro s rfl hsampling hsession
    cases hp : hub.pump with
    | none =>
      rw [sampling, hp] at hsampling
      cases hsampling
    | some p =>
      obtain ⟨update, hphase⟩ := (sampling_eq hp).mp hsampling
      have hstep : (hub.step P .sampleModes).1 = hub.pumpStep P p .sampleModes := by
        simp only [AttachHub.step, hp]
      have hcells : ∀ (view : SinkView) (frames : List SinkFrame),
          (view.after (frames ++ modesFrames p.lastModes (s.session.modes P.backend))).cells
            = (view.after frames).cells := by
        intro view frames
        rw [SinkView.after_append, cells_after_modesFrames]
      have hkeep : ∀ q : AttachPump, q.wake = p.wake → Awake false s p → Awake false s q :=
        fun q hwake hawake => hawake.keep (by rw [hphase]; rfl) hwake
      rw [hstep]
      simp only [pumpStep, hphase, hsession]
      refine ⟨?_, ?_, ?_⟩
      · rintro _ ⟨⟩ _ ⟨⟩ b hb hconnected
        obtain ⟨a, ha, rfl⟩ := List.mem_map.mp hb
        rcases hcurrent.pumped s hsession p hp a ha hconnected with hshows | hawake
        · exact Or.inl ((hcells a.view a.due).trans hshows)
        · exact Or.inr (hkeep _ rfl hawake)
      · rintro _ ⟨⟩ b hb hconnected hregistered
        obtain ⟨a, ha, rfl⟩ := List.mem_map.mp hb
        rcases hcurrent.seeded s hsession a ha hconnected hregistered with hshows | hrest
        · exact Or.inl ((hcells a.view a.due).trans hshows)
        · exact Or.inr hrest
      · rintro _ ⟨⟩ _ ⟨⟩
        rcases hcurrent.stable s hsession p hp with hawake | hstable
        · exact Or.inl (hkeep _ rfl hawake)
        · refine Or.inr fun view hview => (hcells view (gridFrames update)).trans ?_
          have := hstable view hview
          rw [hphase] at this
          exact this
  · intro p frames hevent hp hphase a ha hconnected hregistered s _ hshows
    show a.view.cells = _
    rw [← hsent.read p frames hevent hp hphase a ha hconnected hregistered]
    exact hshows

/-- `RowsSent`, computed. -/
def rowsSent (P : Platform T) (hub : AttachHub T) : HubStep → Bool
  | .sampleGrid =>
    match hub.pump, hub.session with
    | some p, some s =>
      p.phase ≠ .checked true ||
        hub.attachments.all fun a => s.session.Sends P.backend p.signature a.view.cells
    | _, _ => true
  | .readSinks => hub.attachments.all fun a => a.expected.cells = a.view.cells || a.registered
  | .register id =>
    match hub.pump, hub.session with
    | none, some s =>
      hub.attachments.all fun a => a.id = id || a.view.cells = s.session.shown P.backend
    | _, _ => true
  | _ => true

theorem rowsSent_of_check {event : HubStep} (h : rowsSent P hub event = true) :
    RowsSent P hub event := by
  refine ⟨?_, ?_, ?_⟩
  · rintro p s rfl hp hphase hsession a ha hconnected
    rw [rowsSent, hp, hsession] at h
    simp only [hphase, ne_eq, not_true_eq_false, decide_false, Bool.false_or, List.all_eq_true,
      decide_eq_true_eq] at h
    exact h a ha
  · rintro p frames rfl hp hphase a ha hconnected hregistered
    simp only [rowsSent, List.all_eq_true, Bool.or_eq_true, decide_eq_true_eq] at h
    rcases h a ha with hsame | htrue
    · exact hsame
    · rw [hregistered] at htrue
      cases htrue
  · rintro id rfl hnone starter hstarter s hs hchanged hwake a ha hother hconnected
    have hsession : hub.session = some s := hs
    rw [rowsSent, hnone, hsession] at h
    simp only [List.all_eq_true, Bool.or_eq_true, decide_eq_true_eq] at h
    rcases h a ha with hid | hsame
    · exact absurd hid hother
    · exact hsame

/-- A local session with one sink and its pump; a second sink takes its seed, a letter is
written, and the pump samples it. -/
def secondSeeded : List HubStep :=
  [.install 2 1 none [], .seed, .register 0, .seed, .change (.screen (.feed [0x61])), .notify,
    .wait 0, .check, .sampleGrid, .sampleModes]

end AttachHub

end Homie
