/-
What the pump of an `AttachHub` owes its sinks.

An aspect of the session is something every sink should be shown: its cells, or its
modes.  `Current` is the invariant of an aspect: each connected sink agrees with the
session once it has taken what is due to it, or the pump has still to sample the session
(`Awake`): a change has not been notified, a generation has not been waited for, the
session has been replaced, or the pump is on its way to the sample.

Only four steps can end that: a sample, which must bring every sink to the session; the
reading of the sink list, at which a connection that is not registered loses what was due to
it; and the start of a pump, whose seed may be younger than another sink's.  The other
steps are treated here once for every aspect.
-/
import Homie.Engine.AttachHub

namespace Homie

open Remote AttachHub

/-! ### Phases -/

namespace PumpPhase

/-- Whether the sample of an aspect is still to come: the grid is sampled first, and the
modes (`late`) after it. -/
def pending (late : Bool) : PumpPhase → Bool
  | .woken changed => changed
  | .checked changed => changed
  | .sampled _ => late
  | _ => false

/-- The frames the pump has made of the samples it took. -/
def frames : PumpPhase → List SinkFrame
  | .sampled update => gridFrames update
  | .observed frames => frames
  | .writing frames _ => frames
  | _ => []

end PumpPhase

namespace Attachment

/-- The view a sink comes to with what is due to it. -/
def expected (a : Attachment) : SinkView := a.view.after a.due

/-- What is due to a connection while its pump is in a phase. -/
def Due (a : Attachment) : PumpPhase → Prop
  | .sampled update => a.due = gridFrames update
  | .observed frames => a.due = [] ∨ a.due = frames
  | .writing frames ids => a.due = if a.id ∈ ids then frames else []
  | _ => a.due = []

end Attachment

theorem SinkView.after_append (view : SinkView) (front back : List SinkFrame) :
    view.after (front ++ back) = (view.after front).after back := by
  unfold SinkView.after
  exact List.foldl_append

namespace AttachHub

variable {T : Type} {P : Platform T} {hub : AttachHub T}

/-! ### The books of a hub -/

/-- What holds whatever the sinks are shown. -/
structure Books (hub : AttachHub T) : Prop where
  nodup : (hub.attachments.map Attachment.id).Nodup
  below : ∀ a ∈ hub.attachments, a.id < hub.nextSink
  /-- A wake in use has been handed out, and is no newer than the session's own. -/
  source : ∀ s ∈ hub.session, s.wake.source < hub.nextSource
  seeded : ∀ a ∈ hub.attachments, a.wake.source < hub.nextSource ∧
    ∀ s ∈ hub.session, a.wake.source = s.wake.source → a.wake.generation ≤ s.wake.generation
  pumped : ∀ p ∈ hub.pump, p.wake.source < hub.nextSource ∧
    ∀ s ∈ hub.session, p.wake.source = s.wake.source → p.wake.generation ≤ s.wake.generation
  /-- Without a pump nobody is registered and nothing is due. -/
  idle : hub.pump = none → ∀ a ∈ hub.attachments, a.registered = false ∧ a.due = []
  due : ∀ p ∈ hub.pump, ∀ a ∈ hub.attachments, a.Due p.phase
  writing : ∀ p ∈ hub.pump, ∀ frames ids, p.phase = .writing frames ids →
    ids.Nodup ∧ ∀ id ∈ ids, id < hub.nextSink
  /-- The registry lock is held while the session is sampled. -/
  held : hub.sampling = true → hub.session.isSome = true

theorem books_new : Books (new : AttachHub T) := by
  refine ⟨List.nodup_nil, ?_, ?_, ?_, ?_, ?_, ?_, ?_, ?_⟩ <;> simp [new, sampling]

theorem sampling_eq {p : AttachPump} (h : hub.pump = some p) :
    hub.sampling = true ↔ ∃ update, p.phase = .sampled update := by
  unfold sampling
  rw [h]
  cases hphase : p.phase <;> simp [hphase]

/-- A step that touches neither the connections nor the pump, and hands no generation back. -/
theorem Books.with_session (h : Books hub) {session : Option (HubSession T)} {nextSource : Nat}
    (hnext : hub.nextSource ≤ nextSource)
    (hsource : ∀ s ∈ session, s.wake.source < nextSource)
    (hkeep : ∀ s ∈ session, hub.nextSource ≤ s.wake.source ∨
      ∃ old ∈ hub.session, old.wake.source = s.wake.source ∧
        old.wake.generation ≤ s.wake.generation)
    (hheld : hub.sampling = true → session.isSome = true) :
    Books { hub with session := session, nextSource := nextSource } := by
  have hlate : ∀ wake : GridWake, (wake.source < hub.nextSource ∧
      ∀ s ∈ hub.session, wake.source = s.wake.source → wake.generation ≤ s.wake.generation) →
      wake.source < nextSource ∧
        ∀ s ∈ session, wake.source = s.wake.source → wake.generation ≤ s.wake.generation := by
    intro wake hwake
    refine ⟨Nat.lt_of_lt_of_le hwake.1 hnext, ?_⟩
    intro s hs hsame
    rcases hkeep s hs with hnew | ⟨old, hold, hsource, hle⟩
    · have := hwake.1
      omega
    · exact Nat.le_trans (hwake.2 old hold (hsame.trans hsource.symm)) hle
  exact
    { nodup := h.nodup
      below := h.below
      source := hsource
      seeded := fun a ha => hlate a.wake (h.seeded a ha)
      pumped := fun p hp => hlate p.wake (h.pumped p hp)
      idle := h.idle
      due := h.due
      writing := h.writing
      held := hheld }

/-- A step that changes the connections one by one, and no number, wake or debt of theirs. -/
theorem Books.with_attachments (h : Books hub) {f : Attachment → Attachment}
    (hid : ∀ a, (f a).id = a.id) (hwake : ∀ a, (f a).wake = a.wake) (hdue : ∀ a, (f a).due = a.due)
    (hidle : hub.pump = none → ∀ a ∈ hub.attachments, (f a).registered = false) :
    Books { hub with attachments := hub.attachments.map f } := by
  have hall : ∀ b ∈ hub.attachments.map f, ∃ a ∈ hub.attachments, f a = b := by
    intro b hb
    exact List.mem_map.mp hb
  refine
    { nodup := ?_
      below := ?_
      source := h.source
      seeded := ?_
      pumped := h.pumped
      idle := ?_
      due := ?_
      writing := h.writing
      held := h.held }
  · rw [List.map_map, show Attachment.id ∘ f = Attachment.id from funext hid]
    exact h.nodup
  · intro b hb
    obtain ⟨a, ha, rfl⟩ := hall b hb
    rw [hid]
    exact h.below a ha
  · intro b hb
    obtain ⟨a, ha, rfl⟩ := hall b hb
    rw [hwake]
    exact h.seeded a ha
  · intro hnone b hb
    obtain ⟨a, ha, rfl⟩ := hall b hb
    rw [hdue]
    exact ⟨hidle hnone a ha, (h.idle hnone a ha).2⟩
  · intro p hp b hb
    obtain ⟨a, ha, rfl⟩ := hall b hb
    have hold := h.due p hp a ha
    unfold Attachment.Due at hold ⊢
    rw [hdue, hid]
    exact hold

theorem Books.with_pump (h : Books hub) (f : Attachment → Attachment)
    (session : Option (HubSession T)) (p : AttachPump) (hid : ∀ a, (f a).id = a.id)
    (hwake : ∀ a, (f a).wake = a.wake)
    (hsession : ∀ s ∈ session, ∃ old ∈ hub.session, s.wake = old.wake)
    (hpump : p.wake.source < hub.nextSource ∧
      ∀ s ∈ hub.session, p.wake.source = s.wake.source → p.wake.generation ≤ s.wake.generation)
    (hdue : ∀ a ∈ hub.attachments, (f a).Due p.phase)
    (hwriting : ∀ frames ids, p.phase = .writing frames ids →
      ids.Nodup ∧ ∀ id ∈ ids, id < hub.nextSink)
    (hheld : (∃ update, p.phase = .sampled update) → session.isSome = true) :
    Books
      { hub with
        session := session
        attachments := hub.attachments.map f
        pump := some p } := by
  have hlate : ∀ wake : GridWake, (∀ s ∈ hub.session, wake.source = s.wake.source →
        wake.generation ≤ s.wake.generation) →
      ∀ s ∈ session, wake.source = s.wake.source → wake.generation ≤ s.wake.generation := by
    intro wake hall s hs hsame
    obtain ⟨old, hold, heq⟩ := hsession s hs
    rw [heq] at hsame ⊢
    exact hall old hold hsame
  refine
    { nodup := ?_
      below := ?_
      source := ?_
      seeded := ?_
      pumped := ?_
      idle := fun hnone => by cases hnone
      due := ?_
      writing := ?_
      held := ?_ }
  · show ((hub.attachments.map f).map Attachment.id).Nodup
    rw [List.map_map, show Attachment.id ∘ f = Attachment.id from funext hid]
    exact h.nodup
  · intro b hb
    obtain ⟨a, ha, rfl⟩ := List.mem_map.mp hb
    rw [hid]
    exact h.below a ha
  · intro s hs
    obtain ⟨old, hold, heq⟩ := hsession s hs
    rw [heq]
    exact h.source old hold
  · intro b hb
    obtain ⟨a, ha, rfl⟩ := List.mem_map.mp hb
    rw [hwake]
    exact ⟨(h.seeded a ha).1, hlate a.wake (h.seeded a ha).2⟩
  · rintro _ ⟨⟩
    exact ⟨hpump.1, hlate p.wake hpump.2⟩
  · rintro _ ⟨⟩ b hb
    obtain ⟨a, ha, rfl⟩ := List.mem_map.mp hb
    exact hdue a ha
  · rintro _ ⟨⟩
    exact hwriting
  · intro hsampling
    exact hheld ((sampling_eq rfl).mp hsampling)

theorem Books.move (h : Books hub) (p : AttachPump)
    (hpump : p.wake.source < hub.nextSource ∧
      ∀ s ∈ hub.session, p.wake.source = s.wake.source → p.wake.generation ≤ s.wake.generation)
    (hdue : ∀ a ∈ hub.attachments, a.Due p.phase)
    (hwriting : ∀ frames ids, p.phase = .writing frames ids →
      ids.Nodup ∧ ∀ id ∈ ids, id < hub.nextSink)
    (hheld : (∃ update, p.phase = .sampled update) → hub.session.isSome = true) :
    Books { hub with pump := some p } := by
  have hmoved := h.with_pump id hub.session p (fun _ => rfl) (fun _ => rfl)
    (fun s hs => ⟨s, hs, rfl⟩) hpump hdue hwriting hheld
  rwa [List.map_id] at hmoved

theorem wakeNow_spec (hub : AttachHub T) (p : AttachPump) (generation : Nat) :
    (hub.wakeNow p generation).source = p.wake.source ∧
      ∀ s ∈ hub.session, p.wake.source = s.wake.source → hub.wakeNow p generation = s.wake := by
  cases hsession : hub.session with
  | none =>
    refine ⟨?_, fun s hs => by cases hs⟩
    simp only [wakeNow, hsession]
  | some s =>
    have hnow : hub.wakeNow p generation
        = if s.wake.source = p.wake.source then s.wake else ⟨p.wake.source, generation⟩ := by
      simp only [wakeNow, hsession]
    by_cases hsame : s.wake.source = p.wake.source
    · rw [hnow, if_pos hsame]
      refine ⟨hsame, ?_⟩
      rintro _ ⟨⟩ _
      rfl
    · rw [hnow, if_neg hsame]
      refine ⟨rfl, ?_⟩
      rintro _ ⟨⟩ heq
      exact absurd heq.symm hsame

theorem Books.wakeNow (h : Books hub) {p : AttachPump} (hp : hub.pump = some p)
    (generation : Nat) :
    (hub.wakeNow p generation).source < hub.nextSource ∧
      ∀ s ∈ hub.session, (hub.wakeNow p generation).source = s.wake.source →
        (hub.wakeNow p generation).generation ≤ s.wake.generation := by
  obtain ⟨hsource, hnow⟩ := hub.wakeNow_spec p generation
  refine ⟨?_, ?_⟩
  · rw [hsource]
    exact (h.pumped p hp).1
  · intro s hs hsame
    rw [hnow s hs (hsource.symm.trans hsame)]

/-! ### Every step keeps the books -/

theorem Books.seed (h : Books hub) (hsampling : ¬ hub.sampling = true) : Books (hub.seed P) := by
  unfold AttachHub.seed
  cases hsession : hub.session with
  | none => exact h
  | some s =>
    have hs : s ∈ hub.session := hsession
    refine
      { nodup := ?_
        below := ?_
        source := fun s' hs' => h.source s' (hsession ▸ hs')
        seeded := ?_
        pumped := fun p hp => ⟨(h.pumped p hp).1, fun s' hs' => (h.pumped p hp).2 s' (hsession ▸ hs')⟩
        idle := ?_
        due := ?_
        writing := ?_
        held := fun hsample => absurd hsample hsampling }
    · rw [List.map_append]
      refine List.nodup_append.mpr ⟨h.nodup, by simp, ?_⟩
      intro id hid other hother heq
      obtain ⟨a, ha, rfl⟩ := List.mem_map.mp hid
      have hlt := h.below a ha
      have hnew : other = hub.nextSink := by simpa using hother
      omega
    · intro a ha
      rcases List.mem_append.mp ha with ha | ha
      · exact Nat.lt_succ_of_lt (h.below a ha)
      · rw [List.mem_singleton.mp ha]
        exact Nat.lt_succ_self _
    · intro a ha
      rcases List.mem_append.mp ha with ha | ha
      · exact ⟨(h.seeded a ha).1, fun s' hs' => (h.seeded a ha).2 s' (hsession ▸ hs')⟩
      · rw [List.mem_singleton.mp ha]
        refine ⟨h.source s hs, ?_⟩
        rintro _ ⟨⟩ _
        exact Nat.le_refl _
    · intro hnone a ha
      rcases List.mem_append.mp ha with ha | ha
      · exact h.idle hnone a ha
      · rw [List.mem_singleton.mp ha]
        exact ⟨rfl, rfl⟩
    · intro p hp a ha
      rcases List.mem_append.mp ha with ha | ha
      · exact h.due p hp a ha
      · rw [List.mem_singleton.mp ha]
        cases hphase : p.phase with
        | sampled update => exact absurd ((sampling_eq hp).mpr ⟨update, hphase⟩) hsampling
        | observed frames => exact Or.inl rfl
        | writing frames ids =>
          -- the number is new, so the pump's list does not have it
          have hnot : hub.nextSink ∉ ids := fun hin =>
            Nat.lt_irrefl _ ((h.writing p hp frames ids hphase).2 _ hin)
          simp [Attachment.Due, hnot]
        | waiting | woken _ | checked _ | finishing => rfl
    · intro p hp frames ids hphase
      obtain ⟨hnodup, hlt⟩ := h.writing p hp frames ids hphase
      exact ⟨hnodup, fun id hid => Nat.lt_succ_of_lt (hlt id hid)⟩

theorem Books.register (h : Books hub) (id : Nat) : Books (hub.register id) := by
  unfold AttachHub.register
  split
  · exact h
  · next a hfind =>
      have ha := List.mem_of_find?_eq_some hfind
      cases hpump : hub.pump with
      | some p =>
        have hkept := h.with_attachments
          (f := fun a => if a.id = id then { a with registered := true } else a)
          (fun a => by split <;> rfl) (fun a => by split <;> rfl) (fun a => by split <;> rfl)
          (fun hnone => by rw [hpump] at hnone; cases hnone)
        rw [hpump] at hkept
        exact hkept
      | none =>
        refine h.with_pump (fun a => if a.id = id then { a with registered := true } else a)
          hub.session _ (fun a => by split <;> rfl) (fun a => by split <;> rfl)
          (fun s hs => ⟨s, hs, rfl⟩) (h.seeded a ha) ?_ ?_ ?_
        · intro b hb
          have hnone := (h.idle hpump b hb).2
          show (if b.id = id then { b with registered := true } else b).due = []
          split
          · exact hnone
          · exact hnone
        · intro frames ids hphase
          cases hphase
        · rintro ⟨update, hphase⟩
          cases hphase

theorem Books.deregister (h : Books hub) (id : Nat) :
    Books { hub with attachments := hub.attachments.filter (·.id ≠ id) } := by
  have hsub : ∀ a ∈ hub.attachments.filter (·.id ≠ id), a ∈ hub.attachments :=
    fun a ha => (List.mem_filter.mp ha).1
  exact
    { nodup := h.nodup.sublist (List.filter_sublist.map Attachment.id)
      below := fun a ha => h.below a (hsub a ha)
      source := h.source
      seeded := fun a ha => h.seeded a (hsub a ha)
      pumped := h.pumped
      idle := fun hnone a ha => h.idle hnone a (hsub a ha)
      due := fun p hp a ha => h.due p hp a (hsub a ha)
      writing := h.writing
      held := h.held }

/-! ### What the pump can do -/

/-- The steps of a pump. -/
inductive Moves (P : Platform T) (hub : AttachHub T) (p : AttachPump) :
    HubStep → AttachHub T → Prop
  | still (event : HubStep) : Moves P hub p event hub
  | wakes (generation : Nat) (hphase : p.phase = .waiting) :
      Moves P hub p (.wait generation)
        { hub with
          pump := some
            { p with
              wake := hub.wakeNow p generation
              phase := .woken ((hub.wakeNow p generation).generation ≠ p.wake.generation) } }
  | replaces {changed : Bool} {s : HubSession T} (hphase : p.phase = .woken changed)
      (hsession : hub.session = some s) (hnew : s.wake.source ≠ p.wake.source) :
      Moves P hub p .check { hub with pump := some ⟨.default, none, s.wake, .checked true⟩ }
  | checks {changed : Bool} (hphase : p.phase = .woken changed)
      (hsame : ∀ s ∈ hub.session, s.wake.source = p.wake.source) :
      Moves P hub p .check { hub with pump := some { p with phase := .checked changed } }
  | coalesces (generation : Nat) (hphase : p.phase = .checked true) :
      Moves P hub p (.coalesce generation)
        { hub with pump := some { p with wake := hub.wakeNow p generation } }
  | samplesGrid {s : HubSession T} (hphase : p.phase = .checked true)
      (hsession : hub.session = some s) :
      Moves P hub p .sampleGrid
        { hub with
          session := some
            { s with
              shared := { s.shared with
                session := (s.session.gridUpdateIfChanged P.backend p.signature).2.2 } }
          attachments := owe hub.attachments
            (gridFrames (s.session.gridUpdateIfChanged P.backend p.signature).1)
          pump := some
            { p with
              signature := (s.session.gridUpdateIfChanged P.backend p.signature).2.1
              phase := .sampled (s.session.gridUpdateIfChanged P.backend p.signature).1 } }
  | skips {changed : Bool} (hphase : p.phase = .checked changed)
      (hskip : changed = false ∨ hub.session = none) :
      Moves P hub p .sampleGrid { hub with pump := some { p with phase := .finishing } }
  | samplesModes {s : HubSession T} {update : Option GridUpdate}
      (hphase : p.phase = .sampled update) (hsession : hub.session = some s) :
      Moves P hub p .sampleModes
        { hub with
          attachments := owe hub.attachments (modesFrames p.lastModes (s.session.modes P.backend))
          pump := some
            { p with
              lastModes := some (s.session.modes P.backend)
              phase := .observed (gridFrames update ++
                modesFrames p.lastModes (s.session.modes P.backend)) } }
  | passes (hphase : p.phase = .observed []) :
      Moves P hub p .readSinks { hub with pump := some { p with phase := .finishing } }
  | reads {frames : List SinkFrame} (hphase : p.phase = .observed frames) (hframes : frames ≠ []) :
      Moves P hub p .readSinks
        { hub with
          attachments := hub.attachments.map fun a =>
            { a with due := if a.registered then frames else [] }
          pump := some
            { p with
              phase := .writing frames
                ((hub.attachments.filter (·.registered)).map Attachment.id) } }
  | writes {frames : List SinkFrame} {id : Nat} {ids : List Nat}
      (hphase : p.phase = .writing frames (id :: ids)) :
      Moves P hub p .write
        { hub with
          attachments := hub.attachments.map fun a =>
            if a.id = id then { a with view := a.view.after frames, due := [] } else a
          pump := some { p with phase := .writing frames ids } }
  | written {frames : List SinkFrame} (hphase : p.phase = .writing frames []) :
      Moves P hub p .write { hub with pump := some { p with phase := .finishing } }
  | rests (hphase : p.phase = .finishing) (hany : hub.attachments.any (·.registered) = true) :
      Moves P hub p .finish { hub with pump := some { p with phase := .waiting } }
  | stops (hphase : p.phase = .finishing)
      (hnone : ¬ hub.attachments.any (·.registered) = true) :
      Moves P hub p .finish { hub with pump := none }

theorem pumpStep_moves (P : Platform T) (hub : AttachHub T) (p : AttachPump) (event : HubStep) :
    Moves P hub p event (hub.pumpStep P p event) := by
  cases event with
  | wait generation =>
    simp only [pumpStep]
    split
    · next hphase => exact .wakes generation hphase
    · exact .still _
  | check =>
    simp only [pumpStep]
    split
    · next changed hphase =>
        split
        · next s hsession =>
            split
            · next hnew => exact .replaces hphase hsession hnew
            · next hsame =>
                refine .checks hphase ?_
                intro s' hs'
                rw [hsession] at hs'
                cases hs'
                exact not_not.mp hsame
        · next hsession =>
            refine .checks hphase ?_
            intro s' hs'
            rw [hsession] at hs'
            cases hs'
    · exact .still _
  | coalesce generation =>
    simp only [pumpStep]
    split
    · next hphase => exact .coalesces generation hphase
    · exact .still _
  | sampleGrid =>
    simp only [pumpStep]
    split
    · next s hphase hsession => exact .samplesGrid hphase hsession
    · next changed hphase hnot =>
        refine .skips hphase ?_
        cases changed with
        | false => exact Or.inl rfl
        | true =>
          cases hcase : hub.session with
          | none => exact Or.inr rfl
          | some s => exact absurd rfl (hnot s hcase)
    · exact .still _
  | sampleModes =>
    simp only [pumpStep]
    split
    · next update s hphase hsession => exact .samplesModes hphase hsession
    · exact .still _
  | readSinks =>
    simp only [pumpStep]
    split
    · next hphase => exact .passes hphase
    · next frames hne hphase =>
        refine .reads hphase ?_
        rintro rfl
        exact hne rfl
    · exact .still _
  | write =>
    simp only [pumpStep]
    split
    · next frames id ids hphase => exact .writes hphase
    · next frames hphase => exact .written hphase
    · exact .still _
  | finish =>
    simp only [pumpStep]
    split
    · next hphase =>
        split
        · next hany => exact .rests hphase hany
        · next hnone => exact .stops hphase hnone
    · exact .still _
  | _ => exact .still _

theorem Books.moves (h : Books hub) {p : AttachPump} (hp : hub.pump = some p) {event : HubStep}
    {next : AttachHub T} (hmove : Moves P hub p event next) : Books next := by
  have hpump := h.pumped p hp
  have hdue := h.due p hp
  -- nothing is due in a phase without frames
  have hfree : (∀ a : Attachment, a.Due p.phase = (a.due = [])) → ∀ a ∈ hub.attachments, a.due = [] :=
    fun hphase a ha => hphase a ▸ hdue a ha
  cases hmove with
  | still => exact h
  | wakes generation hphase =>
    refine h.move _ (h.wakeNow hp generation) (hfree ?_) (fun _ _ hw => by cases hw)
      (fun ⟨_, hs⟩ => by cases hs)
    intro a
    rw [hphase]
    rfl
  | replaces hphase hsession hnew =>
    refine h.move _ ⟨h.source _ hsession, ?_⟩ (hfree ?_) (fun _ _ hw => by cases hw)
      (fun ⟨_, hs⟩ => by cases hs)
    · intro s' hs' _
      rw [hsession] at hs'
      cases hs'
      exact Nat.le_refl _
    · intro a
      rw [hphase]
      rfl
  | checks hphase hsame =>
    refine h.move _ hpump (hfree ?_) (fun _ _ hw => by cases hw) (fun ⟨_, hs⟩ => by cases hs)
    intro a
    rw [hphase]
    rfl
  | coalesces generation hphase =>
    refine h.move _ (h.wakeNow hp generation) hdue ?_ ?_
    · intro frames ids hw
      rw [show _ = _ from hphase] at hw
      cases hw
    · rintro ⟨update, hs⟩
      rw [show _ = _ from hphase] at hs
      cases hs
  | samplesGrid hphase hsession =>
    refine h.with_pump _ _ _ (fun _ => rfl) (fun _ => rfl) ?_ hpump ?_ (fun _ _ hw => by cases hw)
      (fun _ => rfl)
    · rintro _ ⟨⟩
      exact ⟨_, hsession, rfl⟩
    · intro a ha
      have hnone : a.due = [] := hfree (fun a => by rw [hphase]; rfl) a ha
      show a.due ++ _ = _
      rw [hnone]
      rfl
  | skips hphase hskip =>
    refine h.move _ hpump (hfree ?_) (fun _ _ hw => by cases hw) (fun ⟨_, hs⟩ => by cases hs)
    intro a
    rw [hphase]
    rfl
  | samplesModes hphase hsession =>
    refine h.with_pump _ _ _ (fun _ => rfl) (fun _ => rfl) (fun s hs => ⟨s, hs, rfl⟩) hpump ?_
      (fun _ _ hw => by cases hw) (fun ⟨_, hs⟩ => by cases hs)
    intro a ha
    have hgrid := hdue a ha
    rw [hphase] at hgrid
    exact Or.inr (congrArg (· ++ _) hgrid)
  | passes hphase =>
    refine h.move _ hpump ?_ (fun _ _ hw => by cases hw) (fun ⟨_, hs⟩ => by cases hs)
    intro a ha
    have hnone := hdue a ha
    rw [hphase] at hnone
    exact or_self_iff.mp hnone
  | @reads frames hphase hframes =>
    refine h.with_pump _ _ _ (fun _ => rfl) (fun _ => rfl) (fun s hs => ⟨s, hs, rfl⟩) hpump ?_ ?_
      (fun ⟨_, hs⟩ => by cases hs)
    · intro a ha
      have hlisted : a.id ∈ (hub.attachments.filter (·.registered)).map Attachment.id ↔
          a.registered = true := by
        constructor
        · intro hin
          obtain ⟨b, hb, hid⟩ := List.mem_map.mp hin
          obtain ⟨hmem, hreg⟩ := List.mem_filter.mp hb
          rwa [List.inj_on_of_nodup_map h.nodup hmem ha hid] at hreg
        · intro hreg
          exact List.mem_map_of_mem (List.mem_filter.mpr ⟨ha, hreg⟩)
      show (if a.registered = true then frames else []) = if a.id ∈ _ then frames else []
      by_cases hreg : a.registered = true
      · rw [if_pos hreg, if_pos (hlisted.mpr hreg)]
      · rw [if_neg hreg, if_neg (fun hin => hreg (hlisted.mp hin))]
    · rintro _ _ ⟨⟩
      refine ⟨h.nodup.sublist (List.filter_sublist.map _), ?_⟩
      intro id hid
      obtain ⟨a, ha, rfl⟩ := List.mem_map.mp hid
      exact h.below a (List.mem_filter.mp ha).1
  | @writes frames id ids hphase =>
    obtain ⟨hnodup, hlt⟩ := h.writing p hp frames (id :: ids) hphase
    obtain ⟨hnot, hrest⟩ := List.nodup_cons.mp hnodup
    refine h.with_pump _ _ _ (fun a => by split <;> rfl) (fun a => by split <;> rfl)
      (fun s hs => ⟨s, hs, rfl⟩) hpump ?_ ?_
      (fun ⟨_, hs⟩ => by cases hs)
    · intro a ha
      have hold := hdue a ha
      rw [hphase] at hold
      dsimp only
      by_cases hid : a.id = id
      · rw [if_pos hid]
        show [] = if a.id ∈ ids then frames else []
        rw [hid, if_neg hnot]
      · rw [if_neg hid]
        show a.due = if a.id ∈ ids then frames else []
        rw [hold]
        simp [hid]
    · rintro _ _ ⟨⟩
      exact ⟨hrest, fun other ho => hlt other (List.mem_cons_of_mem _ ho)⟩
  | written hphase =>
    refine h.move _ hpump ?_ (fun _ _ hw => by cases hw) (fun ⟨_, hs⟩ => by cases hs)
    intro a ha
    have hnone := hdue a ha
    rw [hphase] at hnone
    simpa [Attachment.Due] using hnone
  | rests hphase hany =>
    refine h.move _ hpump (hfree ?_) (fun _ _ hw => by cases hw) (fun ⟨_, hs⟩ => by cases hs)
    intro a
    rw [hphase]
    rfl
  | stops hphase hnone =>
    refine
      { nodup := h.nodup
        below := h.below
        source := h.source
        seeded := h.seeded
        pumped := fun _ hq => by cases hq
        idle := ?_
        due := fun _ hq => by cases hq
        writing := fun _ hq => by cases hq
        held := fun hs => by cases hs }
    intro _ a ha
    refine ⟨?_, hfree (fun a => by rw [hphase]; rfl) a ha⟩
    simp only [List.any_eq_true, not_exists, not_and] at hnone
    exact Bool.eq_false_iff.mpr (hnone a ha)

theorem Books.afterPump (h : Books hub) (event : HubStep) :
    Books (match hub.pump with
      | some pump => (hub.pumpStep P pump event, ())
      | none => (hub, ())).1 := by
  split
  · next p hp => exact h.moves hp (pumpStep_moves P hub p event)
  · exact h

/-- What a step that is not the pump's leaves the books. -/
theorem Books.step (h : Books hub) (event : HubStep) : Books (hub.step P event).1 := by
  have hrest := h.afterPump (P := P) event
  -- a step of the session keeps its wake's source and never turns its generation back
  have hsession : ∀ f : HubSession T → HubSession T, (∀ s, (f s).wake.source = s.wake.source) →
      (∀ s, s.wake.generation ≤ (f s).wake.generation) → Books (hub.updateSession f) := by
    intro f hsource hgeneration
    refine h.with_session (Nat.le_refl _) ?_ ?_ ?_
    · intro s hs
      obtain ⟨old, hold, rfl⟩ := Option.map_eq_some_iff.mp hs
      rw [hsource]
      exact h.source old hold
    · intro s hs
      obtain ⟨old, hold, rfl⟩ := Option.map_eq_some_iff.mp hs
      exact Or.inr ⟨old, hold, (hsource old).symm, hgeneration old⟩
    · intro hsampling
      rw [Option.isSome_map]
      exact h.held hsampling
  cases event with
  | change change => exact hsession _ (fun _ => rfl) (fun _ => Nat.le_refl _)
  | notify => exact hsession _ (fun _ => rfl) (fun _ => Nat.le_succ _)
  | install cols rows outputOffset changes =>
    rw [AttachHub.step]
    split
    · exact h
    · next hsampling =>
        refine h.with_session (Nat.le_succ _) ?_ ?_ (fun hs => absurd hs hsampling)
        · rintro _ ⟨⟩
          exact Nat.lt_succ_self _
        · rintro _ ⟨⟩
          exact Or.inl (Nat.le_refl _)
  | remove =>
    rw [AttachHub.step]
    split
    · exact h
    · next hsampling =>
        exact h.with_session (Nat.le_refl _) (fun _ hs => by cases hs) (fun _ hs => by cases hs)
          (fun hs => absurd hs hsampling)
  | seed =>
    rw [AttachHub.step]
    split
    · exact h
    · next hsampling => exact h.seed hsampling
  | register id => exact h.register id
  | hangUp id =>
    refine h.with_attachments (fun a => by dsimp only; split <;> rfl)
      (fun a => by dsimp only; split <;> rfl) (fun a => by dsimp only; split <;> rfl) ?_
    intro hnone a ha
    dsimp only
    split
    · exact (h.idle hnone a ha).1
    · exact (h.idle hnone a ha).1
  | deregister id => exact h.deregister id
  | wait generation => exact hrest
  | check => exact hrest
  | coalesce generation => exact hrest
  | sampleGrid => exact hrest
  | sampleModes => exact hrest
  | readSinks => exact hrest
  | write => exact hrest
  | finish => exact hrest

/-! ### An aspect of the session -/

/-- The pump will still sample the aspect. -/
def Awake (late : Bool) (s : HubSession T) (p : AttachPump) : Prop :=
  s.changed = true ∨ p.wake ≠ s.wake ∨ p.phase.pending late = true

/-- Every connected sink agrees with the session, or will be brought to it. -/
structure Current (agrees : SinkView → Session T → Prop) (late : Bool) (hub : AttachHub T) :
    Prop where
  pumped : ∀ s ∈ hub.session, ∀ p ∈ hub.pump, ∀ a ∈ hub.attachments, a.connected = true →
    agrees a.expected s.session ∨ Awake late s p
  /-- A pump that this connection starts will see what has changed since its seed. -/
  seeded : ∀ s ∈ hub.session, ∀ a ∈ hub.attachments, a.connected = true → a.registered = false →
    agrees a.expected s.session ∨ s.changed = true ∨ a.wake ≠ s.wake
  /-- Frames sampled from the session as it is do not harm a sink seeded since. -/
  stable : ∀ s ∈ hub.session, ∀ p ∈ hub.pump, Awake late s p ∨
    ∀ view, agrees view s.session → agrees (view.after p.phase.frames) s.session

/-- A connection that is not registered when the sinks are read misses nothing by it. -/
def MissesNothing (agrees : SinkView → Session T → Prop) (hub : AttachHub T) : Prop :=
  ∀ a ∈ hub.attachments, a.connected = true → a.registered = false →
    ∀ s ∈ hub.session, agrees a.expected s.session → agrees a.view s.session

/-- A pump that starts on the seed of `id` and finds nothing newer finds no other sink behind. -/
def StartsEven (agrees : SinkView → Session T → Prop) (hub : AttachHub T) (id : Nat) : Prop :=
  hub.pump = none → ∀ starter ∈ hub.attachments.find? (·.id = id),
    ∀ s ∈ hub.session, s.changed = false → starter.wake = s.wake →
      ∀ a ∈ hub.attachments, a.id ≠ id → a.connected = true → agrees a.view s.session

section

variable {agrees : SinkView → Session T → Prop} {late : Bool}

theorem current_new : Current agrees late (new : AttachHub T) := by
  refine ⟨?_, ?_, ?_⟩ <;> simp [new]

theorem current_of_awake {session : Option (HubSession T)} {nextSource : Nat}
    (hawake : ∀ s ∈ session, s.changed = true ∨
      ((∀ p ∈ hub.pump, p.wake ≠ s.wake) ∧ ∀ a ∈ hub.attachments, a.wake ≠ s.wake)) :
    Current agrees late { hub with session := session, nextSource := nextSource } := by
  have hpump : ∀ s ∈ session, ∀ p ∈ hub.pump, Awake late s p := by
    intro s hs p hp
    rcases hawake s hs with hchanged | ⟨hwake, -⟩
    · exact Or.inl hchanged
    · exact Or.inr (Or.inl (hwake p hp))
  refine ⟨fun s hs p hp _ _ _ => Or.inr (hpump s hs p hp), ?_, fun s hs p hp => Or.inl (hpump s hs p hp)⟩
  intro s hs a ha _ _
  rcases hawake s hs with hchanged | ⟨-, hwake⟩
  · exact Or.inr (Or.inl hchanged)
  · exact Or.inr (Or.inr (hwake a ha))

theorem Current.seed (h : Current agrees late hub)
    (hseed : ∀ s ∈ hub.session, agrees
      ⟨(s.session.attachmentSeed P.backend).grid.apply [],
        (s.session.attachmentSeed P.backend).modes⟩ s.session) :
    Current agrees late (hub.seed P) := by
  unfold AttachHub.seed
  cases hsession : hub.session with
  | none => exact h
  | some s =>
    refine ⟨?_, ?_, fun s' hs' => h.stable s' (hsession ▸ hs')⟩
    · intro s' hs' p hp a ha hconnected
      rcases List.mem_append.mp ha with ha | ha
      · exact h.pumped s' (hsession ▸ hs') p hp a ha hconnected
      · cases hs'
        rw [List.mem_singleton.mp ha]
        exact Or.inl (hseed s hsession)
    · intro s' hs' a ha hconnected hregistered
      rcases List.mem_append.mp ha with ha | ha
      · exact h.seeded s' (hsession ▸ hs') a ha hconnected hregistered
      · cases hs'
        rw [List.mem_singleton.mp ha]
        exact Or.inl (hseed s hsession)

theorem Current.register (h : Current agrees late hub) (hbooks : Books hub) {id : Nat}
    (heven : StartsEven agrees hub id) : Current agrees late (hub.register id) := by
  unfold AttachHub.register
  split
  · exact h
  · next starter hfind =>
      -- registering changes no view and no debt
      have hback : ∀ b ∈ (hub.updateAttachment id ({ · with registered := true })).attachments,
          ∃ a ∈ hub.attachments, b.expected = a.expected ∧ b.connected = a.connected ∧
            b.wake = a.wake ∧ b.id = a.id ∧ (b.registered = false → a.registered = false) := by
        intro b hb
        obtain ⟨a, ha, rfl⟩ := List.mem_map.mp hb
        refine ⟨a, ha, ?_⟩
        split
        · exact ⟨rfl, rfl, rfl, rfl, fun hfalse => by cases hfalse⟩
        · exact ⟨rfl, rfl, rfl, rfl, fun hfalse => hfalse⟩
      refine ⟨?_, ?_, ?_⟩
      · intro s hs p hp b hb hconnected
        obtain ⟨a, ha, hexpected, hsame, -⟩ := hback b hb
        rw [hexpected]
        rw [hsame] at hconnected
        cases hpump : hub.pump with
        | some q => exact h.pumped s hs p (by rw [hpump] at hp ⊢; exact hp) a ha hconnected
        | none =>
          rw [show _ = _ from congrArg (Option.or · _) hpump] at hp
          cases hp
          obtain ⟨hregistered, hdue⟩ := hbooks.idle hpump a ha
          by_cases hother : a.id = id
          · -- the pump starts where the seed was taken
            have hself : a = starter := by
              have hid := List.find?_some hfind
              refine List.inj_on_of_nodup_map hbooks.nodup ha (List.mem_of_find?_eq_some hfind) ?_
              rw [hother]
              exact (by simpa using hid : starter.id = id).symm
            rcases h.seeded s hs a ha hconnected hregistered with hagrees | hchanged | hwake
            · exact Or.inl hagrees
            · exact Or.inr (Or.inl hchanged)
            · exact Or.inr (Or.inr (Or.inl (hself ▸ hwake)))
          · by_cases hchanged : s.changed = true
            · exact Or.inr (Or.inl hchanged)
            · by_cases hwake : starter.wake = s.wake
              · refine Or.inl ?_
                have heven := heven hpump starter hfind s hs (by simpa using hchanged) hwake a ha
                  hother hconnected
                rw [Attachment.expected, hdue]
                exact heven
              · exact Or.inr (Or.inr (Or.inl hwake))
      · intro s hs b hb hconnected hregistered
        obtain ⟨a, ha, hexpected, hsame, hwake, -, hback⟩ := hback b hb
        rw [hexpected, hwake]
        exact h.seeded s hs a ha (hsame ▸ hconnected) (hback hregistered)
      · intro s hs p hp
        cases hpump : hub.pump with
        | some q => exact h.stable s hs p (by rw [hpump] at hp ⊢; exact hp)
        | none =>
          rw [show _ = _ from congrArg (Option.or · _) hpump] at hp
          cases hp
          exact Or.inr fun _ hagrees => hagrees

theorem Current.fewer (h : Current agrees late hub) {attachments : List Attachment}
    (hsub : ∀ b ∈ attachments, b.connected = true → b ∈ hub.attachments) :
    Current agrees late { hub with attachments := attachments } :=
  ⟨fun s hs p hp a ha hconnected => h.pumped s hs p hp a (hsub a ha hconnected) hconnected,
    fun s hs a ha hconnected => h.seeded s hs a (hsub a ha hconnected) hconnected, h.stable⟩

theorem Current.move (h : Current agrees late hub) {p q : AttachPump} (hp : hub.pump = some p)
    (hawake : ∀ s ∈ hub.session, Awake late s p → Awake late s q) (hframes : q.phase.frames = []) :
    Current agrees late { hub with pump := some q } := by
  refine ⟨?_, h.seeded, ?_⟩
  · rintro s hs _ ⟨⟩ a ha hconnected
    rcases h.pumped s hs p hp a ha hconnected with hagrees | hold
    · exact Or.inl hagrees
    · exact Or.inr (hawake s hs hold)
  · rintro s hs _ ⟨⟩
    refine Or.inr fun view hview => ?_
    rw [hframes]
    exact hview

theorem awake_wakeNow {p : AttachPump} (generation : Nat) {s : HubSession T}
    (hs : hub.session = some s) (hawake : p.wake ≠ s.wake) :
    hub.wakeNow p generation ≠ s.wake ∨
      (hub.wakeNow p generation).generation ≠ p.wake.generation := by
  obtain ⟨hsource, hnow⟩ := hub.wakeNow_spec p generation
  by_cases hsame : p.wake.source = s.wake.source
  · refine Or.inr fun hgeneration => hawake ?_
    rw [hnow s hs hsame] at hgeneration
    cases hwake : p.wake with
    | mk source generation =>
      rw [hwake] at hsame hgeneration
      cases hwake' : s.wake with
      | mk source' generation' =>
        rw [hwake'] at hsame hgeneration
        exact congrArg₂ GridWake.mk hsame hgeneration.symm
  · refine Or.inl fun heq => hsame ?_
    rw [← heq, hsource]

theorem Awake.keep {s : HubSession T} {p q : AttachPump} (h : Awake late s p)
    (hphase : p.phase.pending late = false) (hwake : q.wake = p.wake) : Awake late s q := by
  rcases h with hchanged | hold | hpending
  · exact Or.inl hchanged
  · refine Or.inr (Or.inl ?_)
    rw [hwake]
    exact hold
  · rw [hphase] at hpending
    cases hpending

/-- Every step of the pump that is not a sample. -/
theorem Current.moves (h : Current agrees late hub) (hbooks : Books hub) {p : AttachPump}
    (hp : hub.pump = some p) {event : HubStep} {next : AttachHub T}
    (hmove : Moves P hub p event next)
    (hgrid : ∀ s, event = .sampleGrid → p.phase = .checked true → hub.session = some s →
      Current agrees late next)
    (hmodes : ∀ s, event = .sampleModes → hub.sampling = true → hub.session = some s →
      Current agrees late next)
    (hreads : ∀ frames, event = .readSinks → p.phase = .observed frames → MissesNothing agrees hub) :
    Current agrees late next := by
  cases hmove with
  | still => exact h
  | wakes generation hphase =>
    refine h.move hp ?_ rfl
    rintro s hs (hchanged | hwake | hpending)
    · exact Or.inl hchanged
    · rcases awake_wakeNow generation hs hwake with hnew | hgeneration
      · exact Or.inr (Or.inl hnew)
      · exact Or.inr (Or.inr (decide_eq_true hgeneration))
    · rw [hphase] at hpending
      cases hpending
  | replaces hphase hsession hnew =>
    exact h.move hp (fun _ _ _ => Or.inr (Or.inr rfl)) rfl
  | checks hphase hsame =>
    refine h.move hp ?_ rfl
    rintro s hs (hchanged | hwake | hpending)
    · exact Or.inl hchanged
    · exact Or.inr (Or.inl hwake)
    · rw [hphase] at hpending
      exact Or.inr (Or.inr hpending)
  | coalesces generation hphase =>
    refine h.move hp (fun _ _ _ => Or.inr (Or.inr ?_)) ?_
    · show p.phase.pending late = true
      rw [hphase]
      rfl
    · show p.phase.frames = []
      rw [hphase]
      rfl
  | samplesGrid hphase hsession => exact hgrid _ rfl hphase hsession
  | skips hphase hskip =>
    refine h.move hp ?_ rfl
    rintro s hs (hchanged | hwake | hpending)
    · exact Or.inl hchanged
    · exact Or.inr (Or.inl hwake)
    · rw [hphase] at hpending
      rcases hskip with rfl | hnone
      · cases hpending
      · rw [hnone] at hs
        cases hs
  | samplesModes hphase hsession =>
    exact hmodes _ rfl ((sampling_eq hp).mpr ⟨_, hphase⟩) hsession
  | passes hphase =>
    exact h.move hp (fun _ _ hawake => hawake.keep (by rw [hphase]; rfl) rfl) rfl
  | @reads frames hphase hframes =>
    have hmisses := hreads frames rfl hphase
    have hsame : ∀ (s : HubSession T) ids, Awake late s p →
        Awake late s { p with phase := .writing frames ids } :=
      fun s ids hawake => hawake.keep (by rw [hphase]; rfl) rfl
    refine ⟨?_, ?_, ?_⟩
    · rintro s hs _ ⟨⟩ b hb hconnected
      obtain ⟨a, ha, rfl⟩ := List.mem_map.mp hb
      rcases h.pumped s hs p hp a ha hconnected with hagrees | hawake
      · by_cases hregistered : a.registered = true
        · show agrees (a.view.after (if a.registered = true then frames else [])) _ ∨ _
          rw [if_pos hregistered]
          have hdue := hbooks.due p hp a ha
          rw [hphase] at hdue
          rcases hdue with hnone | hall
          · -- seeded since the sample, and sent the frames all the same
            rcases h.stable s hs p hp with hawake | hstable
            · exact Or.inr (hsame s _ hawake)
            · rw [Attachment.expected, hnone] at hagrees
              have := hstable a.view hagrees
              rw [hphase] at this
              exact Or.inl this
          · rw [Attachment.expected, hall] at hagrees
            exact Or.inl hagrees
        · show agrees (a.view.after (if a.registered = true then frames else [])) _ ∨ _
          rw [if_neg hregistered]
          exact Or.inl (hmisses a ha hconnected (by simpa using hregistered) s hs hagrees)
      · exact Or.inr (hsame s _ hawake)
    · intro s hs b hb hconnected hregistered
      obtain ⟨a, ha, rfl⟩ := List.mem_map.mp hb
      have hfalse : a.registered = false := hregistered
      rcases h.seeded s hs a ha hconnected hregistered with hagrees | hrest
      · refine Or.inl ?_
        show agrees (a.view.after (if a.registered = true then frames else [])) _
        rw [hfalse]
        exact hmisses a ha hconnected hfalse s hs hagrees
      · exact Or.inr hrest
    · rintro s hs _ ⟨⟩
      rcases h.stable s hs p hp with hawake | hstable
      · exact Or.inl (hsame s _ hawake)
      · rw [hphase] at hstable
        exact Or.inr hstable
  | @writes frames id ids hphase =>
    have hexpected : ∀ a ∈ hub.attachments,
        (if a.id = id then { a with view := a.view.after frames, due := [] } else a).expected
          = a.expected := by
      intro a ha
      split
      · next hid =>
          have hdue := hbooks.due p hp a ha
          rw [hphase] at hdue
          have hall : a.due = frames := by
            rw [hdue, hid, if_pos List.mem_cons_self]
          rw [Attachment.expected, Attachment.expected, hall]
          rfl
      · rfl
    have hsame : ∀ (s : HubSession T) ids, Awake late s p →
        Awake late s { p with phase := .writing frames ids } :=
      fun s ids hawake => hawake.keep (by rw [hphase]; rfl) rfl
    have hfields : ∀ a : Attachment,
        (if a.id = id then { a with view := a.view.after frames, due := [] } else a).connected
            = a.connected ∧
          (if a.id = id then { a with view := a.view.after frames, due := [] } else a).registered
            = a.registered ∧
          (if a.id = id then { a with view := a.view.after frames, due := [] } else a).wake
            = a.wake := by
      intro a
      split <;> exact ⟨rfl, rfl, rfl⟩
    refine ⟨?_, ?_, ?_⟩
    · rintro s hs _ ⟨⟩ b hb hconnected
      obtain ⟨a, ha, rfl⟩ := List.mem_map.mp hb
      rw [(hfields a).1] at hconnected
      rw [hexpected a ha]
      rcases h.pumped s hs p hp a ha hconnected with hagrees | hawake
      · exact Or.inl hagrees
      · exact Or.inr (hsame s _ hawake)
    · intro s hs b hb hconnected hregistered
      obtain ⟨a, ha, rfl⟩ := List.mem_map.mp hb
      obtain ⟨hc, hr, hw⟩ := hfields a
      rw [hexpected a ha, hw]
      exact h.seeded s hs a ha (hc ▸ hconnected) (hr ▸ hregistered)
    · rintro s hs _ ⟨⟩
      rcases h.stable s hs p hp with hawake | hstable
      · exact Or.inl (hsame s _ hawake)
      · rw [hphase] at hstable
        exact Or.inr hstable
  | written hphase =>
    exact h.move hp (fun _ _ hawake => hawake.keep (by rw [hphase]; rfl) rfl) rfl
  | rests hphase hany =>
    exact h.move hp (fun _ _ hawake => hawake.keep (by rw [hphase]; rfl) rfl) rfl
  | stops hphase hnone =>
    refine ⟨?_, h.seeded, ?_⟩
    · rintro s hs _ ⟨⟩
    · rintro s hs _ ⟨⟩

/-! ### Every step -/

/-- What a step must see to for an aspect: a seed shows the session, a sample brings every
sink to it, and neither the sink list nor a new pump leaves one behind. -/
structure Serves (P : Platform T) (agrees : SinkView → Session T → Prop) (late : Bool)
    (hub : AttachHub T) (event : HubStep) : Prop where
  seed : ∀ s ∈ hub.session, agrees
    ⟨(s.session.attachmentSeed P.backend).grid.apply [],
      (s.session.attachmentSeed P.backend).modes⟩ s.session
  grid : ∀ p s, event = .sampleGrid → hub.pump = some p → p.phase = .checked true →
    hub.session = some s → Current agrees late (hub.step P event).1
  modes : ∀ s, event = .sampleModes → hub.sampling = true → hub.session = some s →
    Current agrees late (hub.step P event).1
  reads : ∀ p frames, event = .readSinks → hub.pump = some p → p.phase = .observed frames →
    MissesNothing agrees hub
  register : ∀ id, event = .register id → StartsEven agrees hub id

theorem Current.step (h : Current agrees late hub) (hbooks : Books hub) {event : HubStep}
    (hserves : Serves P agrees late hub event) : Current agrees late (hub.step P event).1 := by
  have hpumped : (∀ p, hub.pump = some p → (hub.step P event).1 = hub.pumpStep P p event) ∧
      (hub.pump = none → (hub.step P event).1 = hub) →
      Current agrees late (hub.step P event).1 := by
    rintro ⟨hsome, hnone⟩
    cases hp : hub.pump with
    | none =>
      rw [hnone hp]
      exact h
    | some p =>
      have hgrid := fun s hevent => hserves.grid p s hevent hp
      have hmodes := hserves.modes
      rw [hsome p hp] at hgrid hmodes ⊢
      exact h.moves hbooks hp (pumpStep_moves P hub p event) hgrid hmodes
        (fun frames hevent => hserves.reads p frames hevent hp)
  cases event with
  | change change =>
    refine current_of_awake ?_
    intro s hs
    obtain ⟨old, hold, rfl⟩ := Option.map_eq_some_iff.mp hs
    exact Or.inl rfl
  | notify =>
    refine current_of_awake ?_
    intro s hs
    obtain ⟨old, hold, rfl⟩ := Option.map_eq_some_iff.mp hs
    -- the generation is beyond everything that was read before
    have hnewer : ∀ wake : GridWake, (wake.source = old.wake.source →
        wake.generation ≤ old.wake.generation) →
        wake ≠ ⟨old.wake.source, old.wake.generation + 1⟩ := by
      rintro wake hle rfl
      exact absurd (hle rfl) (Nat.not_succ_le_self _)
    exact Or.inr ⟨fun p hp => hnewer _ ((hbooks.pumped p hp).2 old hold),
      fun a ha => hnewer _ ((hbooks.seeded a ha).2 old hold)⟩
  | install cols rows outputOffset changes =>
    rw [AttachHub.step]
    split
    · exact h
    · refine current_of_awake ?_
      rintro _ ⟨⟩
      have hnew : ∀ wake : GridWake, wake.source < hub.nextSource → wake ≠ ⟨hub.nextSource, 0⟩ := by
        rintro wake hlt rfl
        exact Nat.lt_irrefl _ hlt
      exact Or.inr ⟨fun p hp => hnew _ (hbooks.pumped p hp).1,
        fun a ha => hnew _ (hbooks.seeded a ha).1⟩
  | remove =>
    rw [AttachHub.step]
    split
    · exact h
    · refine current_of_awake ?_
      rintro _ ⟨⟩
  | seed =>
    rw [AttachHub.step]
    split
    · exact h
    · exact h.seed hserves.seed
  | register id => exact h.register hbooks (hserves.register id rfl)
  | hangUp id =>
    refine h.fewer ?_
    intro b hb hconnected
    obtain ⟨a, ha, rfl⟩ := List.mem_map.mp hb
    by_cases hid : a.id = id
    · rw [if_pos hid] at hconnected
      cases hconnected
    · rw [if_neg hid]
      exact ha
  | deregister id => exact h.fewer (fun b hb _ => (List.mem_filter.mp hb).1)
  | wait | check | coalesce | sampleGrid | sampleModes | readSinks | write | finish =>
    refine hpumped ⟨fun p hp => ?_, fun hnone => ?_⟩
    · simp only [AttachHub.step, hp]
    · simp only [AttachHub.step, hnone]

/-- The pump has processed every wake of the session there is. -/
def Settled (hub : AttachHub T) (s : HubSession T) : Prop :=
  hub.session = some s ∧ s.changed = false ∧
    ∃ p, hub.pump = some p ∧ p.wake = s.wake ∧ p.phase = .waiting

theorem Current.settled (h : Current agrees late hub) (hbooks : Books hub) {s : HubSession T}
    (hsettled : hub.Settled s) {a : Attachment} (ha : a ∈ hub.attachments)
    (hconnected : a.connected = true) : agrees a.view s.session := by
  obtain ⟨hsession, hchanged, p, hp, hwake, hphase⟩ := hsettled
  have hdue := hbooks.due p hp a ha
  rw [hphase] at hdue
  rcases h.pumped s hsession p hp a ha hconnected with hagrees | hc | hw | hpending
  · rwa [Attachment.expected, show a.due = [] from hdue] at hagrees
  · rw [hchanged] at hc
    cases hc
  · exact absurd hwake hw
  · rw [hphase] at hpending
    cases hpending

end

end AttachHub

end Homie
