/-
Every sink of a remote session shows the mirror after each emission.

The update that is kept for the next emission is a function of the mirror: nothing is
pending when every sink shows the mirror, and otherwise applying it makes any sink show
the mirror, old or newly seeded (`Caught`).  A delta that finds nothing pending is kept as
it is, and every sink is where the delta starts; a delta that finds something pending is
merged by taking the whole mirror instead, which needs no start.  A sink seeded between a
delta and its emission gets the delta a second time, and an update can be applied twice.
-/
import Homie.Engine.AttachHub
import Homie.Proofs.GridMirror

namespace Homie

open GridMirror Remote

namespace RemoteGridState

/-- What is pending brings every sink to the mirror, and leaves a sink that is there. -/
structure Caught (remote : RemoteGridState) (sinks : List (List GridCell)) : Prop where
  formed : remote.mirror.Formed
  settled : ∀ update, remote.pending = some update →
    update.apply remote.mirror.cells = remote.mirror.cells
  reached : ∀ sink ∈ sinks, remote.pending.elim sink (·.apply sink) = remote.mirror.cells

theorem caught_of_paints {mirror : GridMirror} (hformed : mirror.Formed) (revision : Nat)
    {update : GridUpdate} (hpaints : ∀ buffer, update.apply buffer = mirror.cells)
    (sinks : List (List GridCell)) : Caught ⟨mirror, revision, some update⟩ sinks := by
  refine ⟨hformed, ?_, fun sink _ => hpaints sink⟩
  intro pending hpending
  rw [← Option.some.inj hpending]
  exact hpaints mirror.cells

theorem Caught.seeded {remote : RemoteGridState} {sinks : List (List GridCell)}
    (h : remote.Caught sinks) : remote.Caught (sinks ++ [remote.mirror.cells]) := by
  refine ⟨h.formed, h.settled, ?_⟩
  intro sink hsink
  rcases List.mem_append.mp hsink with hold | hnew
  · exact h.reached sink hold
  · rw [List.mem_singleton.mp hnew]
    cases hpending : remote.pending with
    | none => rfl
    | some update => exact h.settled update hpending

end RemoteGridState

namespace Session

variable {T : Type} {E : Backend T} {session : Session T} {remote : RemoteGridState}

theorem gridUpdateIfChanged_remote (hremote : session.remoteGrid = some remote)
    (hsequence : remote.mirror.sequence.isSome = true) (signature : GridSignature) :
    session.gridUpdateIfChanged E signature =
      if remote.signature = signature then (none, signature, session)
      else (remote.pending.or remote.mirror.fullUpdate, remote.signature,
        { session with remoteGrid := some { remote with pending := none } }) := by
  have hfilter : session.remoteGrid.filter (fun remote => remote.mirror.sequence.isSome)
      = some remote := by
    rw [hremote]
    exact Option.filter_some_pos hsequence
  unfold gridUpdateIfChanged
  rw [hfilter]

theorem gridUpdateIfChanged_own
    (hnone : session.remoteGrid.filter (fun remote => remote.mirror.sequence.isSome) = none)
    (signature : GridSignature) :
    session.gridUpdateIfChanged E signature =
      if session.screen.signature E = signature then (none, signature, session)
      else (some (session.screen.gridUpdate E false).1, session.screen.signature E,
        { session with screen := (session.screen.gridUpdate E false).2 }) := by
  unfold gridUpdateIfChanged
  rw [hnone]

end Session

namespace RemoteSinks

variable {T : Type} {P : Platform T}

/-- The session is remote, and once the mirror has a screen every sink is caught. -/
def Caught (s : RemoteSinks T) : Prop :=
  ∃ remote, s.pump.session.remoteGrid = some remote ∧
    (remote.mirror.sequence.isSome = true → remote.Caught s.sinks)

theorem caught_start (cols rows : UInt16) (outputOffset : Nat) :
    (start P cols rows outputOffset).Caught :=
  ⟨_, rfl, fun h => absurd h (by decide)⟩

/-! ### The mirror's side -/

theorem Caught.output {s : RemoteSinks T} (h : s.Caught) (offset : UInt64) (bytes : List UInt8) :
    (RemoteSinks.step P s (.output offset bytes)).1.Caught := by
  obtain ⟨remote, hremote, hcaught⟩ := h
  refine ⟨remote, ?_, hcaught⟩
  simp only [RemoteSinks.step, RemotePump.applyRemoteOutput]
  split
  · exact hremote
  · split
    · exact hremote
    · exact hremote

theorem Caught.snapshot {s : RemoteSinks T} (h : s.Caught) (snapshot : FullSnapshot) :
    (RemoteSinks.step P s (.snapshot snapshot)).1.Caught := by
  obtain ⟨remote, hremote, hcaught⟩ := h
  simp only [RemoteSinks.step, RemotePump.applyRemoteSnapshot, hremote]
  cases happly : remote.mirror.applySnapshot snapshot.sequence snapshot.grid snapshot.altScreen
    snapshot.bracketedPaste snapshot.mouseReporting with
  | error e => exact ⟨remote, hremote, hcaught⟩
  | ok mirror =>
    obtain ⟨hfull, hvalid, rfl⟩ := applySnapshot_ok_iff.mp happly
    refine ⟨_, rfl, fun _ => RemoteGridState.caught_of_paints ?_ _ ?_ s.sinks⟩
    · exact formed_accept _ _ _ _ _ hvalid
    · exact fun buffer => GridUpdate.apply_of_full hfull buffer remote.mirror.cells

theorem Caught.delta {s : RemoteSinks T} (h : s.Caught) (delta : GridDelta) :
    (RemoteSinks.step P s (.delta delta)).1.Caught := by
  obtain ⟨remote, hremote, hcaught⟩ := h
  simp only [RemoteSinks.step, RemotePump.applyRemoteDelta, hremote]
  cases happly : remote.mirror.applyDelta delta.sequence delta.grid delta.altScreen
    delta.bracketedPaste delta.mouseReporting with
  | error e => exact ⟨remote, hremote, hcaught⟩
  | ok mirror =>
    obtain ⟨previous, hprevious, -, -, -, -, -, hvalid, rfl⟩ := applyDelta_ok_iff.mp happly
    have hcaught := hcaught (by rw [hprevious]; rfl)
    have hformed := formed_accept remote.mirror delta.sequence delta.altScreen
      delta.bracketedPaste delta.mouseReporting hvalid
    refine ⟨_, rfl, fun _ => ?_⟩
    cases hpending : remote.pending with
    | some update =>
      -- Two updates are merged into the whole mirror.
      obtain ⟨merged, hmerged, -, hpaints⟩ := hformed.fullUpdate rfl
      simp only [Option.isSome_some, if_true, hmerged]
      exact RemoteGridState.caught_of_paints hformed _ hpaints s.sinks
    | none =>
      refine ⟨hformed, ?_, ?_⟩
      · rintro _ ⟨⟩
        exact delta.grid.apply_apply remote.mirror.cells
      · intro sink hsink
        have hsame := hcaught.reached sink hsink
        rw [hpending] at hsame
        show delta.grid.apply sink = delta.grid.apply remote.mirror.cells
        rw [show sink = remote.mirror.cells from hsame]

/-! ### The sinks' side -/

theorem Caught.seed {s : RemoteSinks T} (h : s.Caught) :
    (RemoteSinks.step P s .seed).1.Caught := by
  obtain ⟨remote, hremote, hcaught⟩ := h
  refine ⟨remote, hremote, ?_⟩
  intro hsequence
  obtain ⟨update, hupdate, -, hpaints⟩ := (hcaught hsequence).formed.fullUpdate hsequence
  have hseed : (s.pump.session.attachmentSeed P.backend).grid = update := by
    unfold Session.attachmentSeed
    simp [hremote, hupdate]
  simp only [RemoteSinks.step, hseed, hpaints]
  exact (hcaught hsequence).seeded

theorem emit_of_sequenced {s : RemoteSinks T} {remote : RemoteGridState}
    (hremote : s.pump.session.remoteGrid = some remote)
    (hsequence : remote.mirror.sequence.isSome = true) (hcaught : remote.Caught s.sinks)
    (signature : GridSignature) :
    RemoteSinks.step P s (.emit signature) = (s, none) ∨
    ∃ update, RemoteSinks.step P s (.emit signature)
      = (⟨{ s.pump with session := { s.pump.session with
            remoteGrid := some { remote with pending := none } } },
          s.sinks.map update.apply⟩, some update) ∧
      ∀ sink ∈ s.sinks, update.apply sink = remote.mirror.cells := by
  obtain ⟨whole, hwhole, -, hpaints⟩ := hcaught.formed.fullUpdate hsequence
  simp only [RemoteSinks.step, Session.gridUpdateIfChanged_remote hremote hsequence]
  by_cases hsame : remote.signature = signature
  · rw [if_pos hsame]
    exact Or.inl rfl
  · rw [if_neg hsame]
    refine Or.inr ?_
    cases hpending : remote.pending with
    | some update =>
      refine ⟨update, rfl, ?_⟩
      intro sink hsink
      have hreached := hcaught.reached sink hsink
      rwa [hpending] at hreached
    | none =>
      rw [hwhole]
      exact ⟨whole, rfl, fun sink _ => hpaints sink⟩

theorem emit_of_unsequenced {s : RemoteSinks T} {remote : RemoteGridState}
    (hremote : s.pump.session.remoteGrid = some remote)
    (hsequence : ¬ remote.mirror.sequence.isSome = true) (signature : GridSignature) :
    (RemoteSinks.step P s (.emit signature)).1.pump.session.remoteGrid = some remote := by
  have hnone : s.pump.session.remoteGrid.filter (fun remote => remote.mirror.sequence.isSome)
      = none := by
    rw [hremote]
    exact Option.filter_some_neg (by simpa using hsequence)
  simp only [RemoteSinks.step, Session.gridUpdateIfChanged_own hnone]
  split
  · exact hremote
  · exact hremote

theorem Caught.emit {s : RemoteSinks T} (h : s.Caught) (signature : GridSignature) :
    (RemoteSinks.step P s (.emit signature)).1.Caught := by
  obtain ⟨remote, hremote, hcaught⟩ := h
  by_cases hsequence : remote.mirror.sequence.isSome = true
  · rcases emit_of_sequenced (P := P) hremote hsequence (hcaught hsequence) signature with
      heq | ⟨update, heq, hsinks⟩
    · rw [heq]
      exact ⟨remote, hremote, hcaught⟩
    · rw [heq]
      refine ⟨_, rfl, fun _ => ⟨(hcaught hsequence).formed, ?_, ?_⟩⟩
      · intro update hnone
        cases hnone
      · intro sink hsink
        obtain ⟨old, hold, rfl⟩ := List.mem_map.mp hsink
        exact hsinks old hold
  · exact ⟨remote, emit_of_unsequenced hremote hsequence signature,
      fun h => absurd h hsequence⟩

theorem Caught.step {s : RemoteSinks T} (h : s.Caught) (event : RemoteSinksEvent) :
    (RemoteSinks.step P s event).1.Caught := by
  cases event with
  | output offset bytes => exact h.output offset bytes
  | snapshot snapshot => exact h.snapshot snapshot
  | delta delta => exact h.delta delta
  | seed => exact h.seed
  | emit signature => exact h.emit signature

/-- The step emitted nothing, or left every sink with the cells of a mirror that has a screen. -/
def ShowsMirror (x : Trace.Step (RemoteSinks T) RemoteSinksEvent (Option GridUpdate)) : Prop :=
  x.outcome = none ∨ ∃ remote, x.after.pump.session.remoteGrid = some remote ∧
    (remote.mirror.sequence = none ∨ ∀ sink ∈ x.after.sinks, sink = remote.mirror.cells)

theorem Caught.showsMirror {s : RemoteSinks T} (h : s.Caught) (event : RemoteSinksEvent) :
    ShowsMirror (Trace.take (RemoteSinks.step P) s event) := by
  cases event with
  | output offset bytes => exact Or.inl rfl
  | snapshot snapshot => exact Or.inl rfl
  | delta delta => exact Or.inl rfl
  | seed => exact Or.inl rfl
  | emit signature =>
    obtain ⟨remote, hremote, hcaught⟩ := h
    by_cases hsequence : remote.mirror.sequence.isSome = true
    · unfold Trace.take
      rcases emit_of_sequenced (P := P) hremote hsequence (hcaught hsequence) signature with
        heq | ⟨update, heq, hsinks⟩
      · rw [heq]
        exact Or.inl rfl
      · rw [heq]
        refine Or.inr ⟨_, rfl, Or.inr ?_⟩
        intro sink hsink
        obtain ⟨old, hold, rfl⟩ := List.mem_map.mp hsink
        exact hsinks old hold
    · refine Or.inr ⟨remote, emit_of_unsequenced hremote hsequence signature, Or.inl ?_⟩
      exact Option.not_isSome_iff_eq_none.mp hsequence

/--
**Every sink shows the mirror after each emission.**  In every run, whatever order remote
snapshots, deltas, seeds and emissions come in, an emission from a mirror that has a
screen leaves every sink seeded so far with exactly the mirror's cells.
-/
theorem sinks_show_mirror (cols rows : UInt16) (outputOffset : Nat)
    (events : List RemoteSinksEvent) (event : RemoteSinksEvent) :
    ShowsMirror (Trace.take (RemoteSinks.step P)
      (Trace.run (RemoteSinks.step P) (start P cols rows outputOffset) events) event) := by
  have hcaught := Trace.run_invariant (RemoteSinks.step P)
    (caught_start (P := P) cols rows outputOffset) (fun _ event h => h.step event) events
  exact hcaught.showsMirror event

end RemoteSinks

end Homie
