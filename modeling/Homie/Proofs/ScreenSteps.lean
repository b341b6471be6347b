/-
What each operation does to a screen, and what it leaves alone.

A feed hands the bytes to the emulator and then, if that left a trace the digest can
see, counts a content change; a restore is at most a rewritten emulator, one feed and a
dropped baseline.  Everything later proofs need of `feed`, `resize` and `restore` is
read off `feed_eq` and `restore_cases`.
-/
import Mathlib
import Homie.Engine.SessionScreen
import Homie.Lib.Trace
import Homie.TerminalState.Screen

namespace Homie

variable {T : Type} (E : Backend T)

namespace HeadlessScreen

/-! ### Feeding -/

/-- The screen once the emulator took the bytes, before the content is fingerprinted. -/
def afterAdvance (s : HeadlessScreen T) (bytes : List UInt8) : HeadlessScreen T :=
  { s.scanProgress bytes with
    term := E.resetDamage (E.damage (E.advance s.term bytes).1).2
    title := ((E.advance s.term bytes).2.take eventQueueCapacity).foldl drainEvent s.title }

/-- The feed makes the screen count a content change. -/
def Refreshes (s : HeadlessScreen T) (bytes : List UInt8) : Prop :=
  (damaged (E.damage (E.advance s.term bytes).1).1 = true ∨
    (s.afterAdvance E bytes).title ≠ s.title) ∧
  (s.afterAdvance E bytes).digestCells E ≠ s.lastDigest

instance (s : HeadlessScreen T) (bytes : List UInt8) : Decidable (s.Refreshes E bytes) :=
  inferInstanceAs (Decidable (_ ∧ _))

theorem feed_eq (s : HeadlessScreen T) (bytes : List UInt8) :
    s.feed E bytes =
      if s.Refreshes E bytes then
        { s.afterAdvance E bytes with
          lastDigest := (s.afterAdvance E bytes).digestCells E
          contentSeq := s.contentSeq + 1 }
      else s.afterAdvance E bytes := by
  have hdef : s.feed E bytes =
      if damaged (E.damage (E.advance s.term bytes).1).1 = true ∨
          (s.afterAdvance E bytes).title ≠ s.title then
        if (s.afterAdvance E bytes).digestCells E ≠ s.lastDigest then
          { s.afterAdvance E bytes with
            lastDigest := (s.afterAdvance E bytes).digestCells E
            contentSeq := s.contentSeq + 1 }
        else s.afterAdvance E bytes
      else s.afterAdvance E bytes := rfl
  rw [hdef]
  by_cases htouched : damaged (E.damage (E.advance s.term bytes).1).1 = true ∨
      (s.afterAdvance E bytes).title ≠ s.title
  · rw [if_pos htouched]
    by_cases hdigest : (s.afterAdvance E bytes).digestCells E ≠ s.lastDigest
    · have hrefreshes : s.Refreshes E bytes := ⟨htouched, hdigest⟩
      rw [if_pos hdigest, if_pos hrefreshes]
    · have hquiet : ¬ s.Refreshes E bytes := fun h => hdigest h.2
      rw [if_neg hdigest, if_neg hquiet]
  · have hquiet : ¬ s.Refreshes E bytes := fun h => htouched h.1
    rw [if_neg htouched, if_neg hquiet]

/-- Geometry and baseline are not the feed's business. -/
theorem feed_frame (s : HeadlessScreen T) (bytes : List UInt8) :
    (s.feed E bytes).geometry = s.geometry ∧ (s.feed E bytes).lastCells = s.lastCells ∧
      (s.feed E bytes).lastGridCols = s.lastGridCols ∧
      (s.feed E bytes).lastGridRows = s.lastGridRows := by
  rw [feed_eq]
  by_cases h : s.Refreshes E bytes
  · rw [if_pos h]
    exact ⟨rfl, rfl, rfl, rfl⟩
  · rw [if_neg h]
    exact ⟨rfl, rfl, rfl, rfl⟩

theorem contentSeq_feed (s : HeadlessScreen T) (bytes : List UInt8) :
    (s.feed E bytes).contentSeq
      = if s.Refreshes E bytes then s.contentSeq + 1 else s.contentSeq := by
  rw [feed_eq]
  by_cases h : s.Refreshes E bytes
  · rw [if_pos h, if_pos h]
  · rw [if_neg h, if_neg h]
    rfl

/-! ### Restoring -/

theorem restoreHistory_eq (s : HeadlessScreen T) (history : List (List GridCell)) :
    ∃ term, (s.restoreHistory E history).2 = { s with term } := by
  unfold restoreHistory
  by_cases hempty : history.isEmpty = true
  · rw [if_pos hempty]
    exact ⟨s.term, rfl⟩
  · rw [if_neg hempty]
    simp only
    split
    · exact ⟨_, rfl⟩
    · exact ⟨_, rfl⟩

/--
A restore that gives up may have rewritten the emulator; one that succeeds painted the
checkpoint over its history with one feed and dropped the baseline.
-/
theorem restore_cases (s : HeadlessScreen T) (history : List (List GridCell))
    (update : GridUpdate) (alt paste mouse : Bool) :
    ((s.restore E history update alt paste mouse).1 = false ∧
      ∃ term, (s.restore E history update alt paste mouse).2 = { s with term }) ∨
    ((s.restore E history update alt paste mouse).1 = true ∧
      ∃ bytes, paintBytes s.geometry.cols s.geometry.rows update alt paste mouse = some bytes ∧
        (s.restore E history update alt paste mouse).2
          = { (s.restoreHistory E history).2.feed E bytes with
              lastGridCols := 0
              lastGridRows := 0 }) := by
  obtain ⟨term, hterm⟩ := s.restoreHistory_eq E history
  unfold restore
  simp only
  split
  · exact Or.inl ⟨rfl, s.term, rfl⟩
  · rcases hhistory : s.restoreHistory E history with ⟨kept, restored⟩
    rw [hhistory] at hterm
    cases kept with
    | false => exact Or.inl ⟨rfl, term, hterm⟩
    | true =>
      cases hbytes : paintBytes s.geometry.cols s.geometry.rows update alt paste mouse with
      | none => exact Or.inl ⟨rfl, term, hterm⟩
      | some bytes => exact Or.inr ⟨rfl, bytes, rfl, rfl⟩

/-! ### Any change -/

theorem change_baseline (s : HeadlessScreen T) (c : ScreenChange) :
    (s.change E c).lastCells = s.lastCells ∧
      (((s.change E c).lastGridCols = s.lastGridCols ∧
        (s.change E c).lastGridRows = s.lastGridRows) ∨ (s.change E c).lastGridCols = 0) := by
  cases c with
  | feed bytes =>
    obtain ⟨-, hcells, hcols, hrows⟩ := s.feed_frame E bytes
    exact ⟨hcells, Or.inl ⟨hcols, hrows⟩⟩
  | resize cols rows => exact ⟨rfl, Or.inl ⟨rfl, rfl⟩⟩
  | restore history update alt paste mouse =>
    simp only [change]
    rcases s.restore_cases E history update alt paste mouse with
      ⟨-, term, heq⟩ | ⟨-, bytes, -, heq⟩
    · rw [heq]
      exact ⟨rfl, Or.inl ⟨rfl, rfl⟩⟩
    · obtain ⟨term, hterm⟩ := s.restoreHistory_eq E history
      obtain ⟨-, hcells, -⟩ := (s.restoreHistory E history).2.feed_frame E bytes
      rw [heq]
      refine ⟨hcells.trans ?_, Or.inr rfl⟩
      rw [hterm]

theorem change_geometry (s : HeadlessScreen T) (c : ScreenChange) :
    (s.change E c).geometry = s.geometry ∨
      ∃ cols rows : UInt16, (s.change E c).geometry = Geometry.clamp cols.toNat rows.toNat := by
  cases c with
  | feed bytes => exact Or.inl (s.feed_frame E bytes).1
  | resize cols rows => exact Or.inr ⟨cols, rows, rfl⟩
  | restore history update alt paste mouse =>
    refine Or.inl ?_
    simp only [change]
    rcases s.restore_cases E history update alt paste mouse with
      ⟨-, term, heq⟩ | ⟨-, bytes, -, heq⟩
    · rw [heq]
    · obtain ⟨term, hterm⟩ := s.restoreHistory_eq E history
      have hfeed := ((s.restoreHistory E history).2.feed_frame E bytes).1
      rw [heq]
      refine hfeed.trans ?_
      rw [hterm]

/--
The change makes the screen count a content change: it feeds bytes that do.  A restore
feeds the bytes that paint its checkpoint, to an emulator whose history is in place.
-/
def RefreshedBy (s : HeadlessScreen T) : ScreenChange → Prop
  | .feed bytes => s.Refreshes E bytes
  | .resize _ _ => False
  | .restore history update alt paste mouse =>
    (s.restore E history update alt paste mouse).1 = true ∧
      ∃ bytes, paintBytes s.geometry.cols s.geometry.rows update alt paste mouse = some bytes ∧
        (s.restoreHistory E history).2.Refreshes E bytes

theorem contentSeq_change_of_refreshed {s : HeadlessScreen T} {c : ScreenChange}
    (h : s.RefreshedBy E c) : (s.change E c).contentSeq = s.contentSeq + 1 := by
  cases c with
  | feed bytes => exact (s.contentSeq_feed E bytes).trans (if_pos h)
  | resize cols rows => exact absurd h id
  | restore history update alt paste mouse =>
    obtain ⟨htrue, bytes, hbytes, hrefreshes⟩ := h
    obtain ⟨term, hterm⟩ := s.restoreHistory_eq E history
    rcases s.restore_cases E history update alt paste mouse with
      ⟨hfalse, -⟩ | ⟨-, bytes', hbytes', heq⟩
    · rw [htrue] at hfalse
      exact absurd hfalse (by simp)
    · have hsame : bytes' = bytes := Option.some.inj (hbytes'.symm.trans hbytes)
      have hfeed := (s.restoreHistory E history).2.contentSeq_feed E bytes
      rw [if_pos hrefreshes] at hfeed
      simp only [change]
      rw [heq, hsame]
      refine hfeed.trans ?_
      rw [hterm]

theorem contentSeq_change_of_not_refreshed {s : HeadlessScreen T} {c : ScreenChange}
    (h : ¬ s.RefreshedBy E c) : (s.change E c).contentSeq = s.contentSeq := by
  cases c with
  | feed bytes => exact (s.contentSeq_feed E bytes).trans (if_neg h)
  | resize cols rows => rfl
  | restore history update alt paste mouse =>
    simp only [change]
    rcases s.restore_cases E history update alt paste mouse with
      ⟨-, term, heq⟩ | ⟨htrue, bytes, hbytes, heq⟩
    · rw [heq]
    · obtain ⟨term, hterm⟩ := s.restoreHistory_eq E history
      have hquiet : ¬ (s.restoreHistory E history).2.Refreshes E bytes :=
        fun hr => h ⟨htrue, bytes, hbytes, hr⟩
      have hfeed := (s.restoreHistory E history).2.contentSeq_feed E bytes
      rw [if_neg hquiet] at hfeed
      rw [heq]
      refine hfeed.trans ?_
      rw [hterm]

end HeadlessScreen

end Homie

/-! ### What the pump's signature can and cannot see

A poll compares a content counter, the size, the cursor and two modes with those of the
last emission, and builds a diff only if one of them moved.  The counter moves when a
feed leaves a new digest, and the digest reads characters and title only.  So a cell
whose colors or style changed is shown at the next poll exactly when something else
that the signature sees changed too.
-/

namespace Homie

open Trace

variable {T : Type} {E : Backend T}

/-- Everything in a signature but the content counter. -/
def HeadlessScreen.SameView (E : Backend T) (a b : HeadlessScreen T) : Prop :=
  a.size = b.size ∧ a.cursor E = b.cursor E ∧ a.isAltScreen E = b.isAltScreen E ∧
    a.mouseReporting E = b.mouseReporting E

theorem HeadlessScreen.signature_eq_iff {a b : HeadlessScreen T} :
    a.signature E = b.signature E ↔ a.contentSeq = b.contentSeq ∧ a.SameView E b := by
  unfold HeadlessScreen.signature HeadlessScreen.SameView
  rw [GridSignature.mk.injEq]

namespace GridPump

/-! ### One step -/

/-- The step made the screen count a content change. -/
def RefreshedBy (E : Backend T) (pump : GridPump T) : PumpOp → Prop
  | .change c => pump.session.screen.RefreshedBy E c
  | .attach | .poll => False

/-- The session is local. -/
def Local (pump : GridPump T) : Prop := pump.session.remoteGrid = none

theorem poll_cases {pump : GridPump T} (h : pump.Local) :
    (pump.session.screen.signature E = pump.signature ∧
      GridPump.step E pump .poll = (pump, none)) ∨
    (pump.session.screen.signature E ≠ pump.signature ∧
      GridPump.step E pump .poll
        = (⟨⟨(pump.session.screen.gridUpdate E false).2, none⟩, pump.session.screen.signature E⟩,
          some (pump.session.screen.gridUpdate E false).1)) := by
  have hbranch : pump.session.gridUpdateIfChanged E pump.signature =
      if pump.session.screen.signature E = pump.signature then
        (none, pump.signature, pump.session)
      else
        (some (pump.session.screen.gridUpdate E false).1, pump.session.screen.signature E,
          ⟨(pump.session.screen.gridUpdate E false).2, none⟩) := by
    unfold Session.gridUpdateIfChanged
    rw [h]
    rfl
  simp only [GridPump.step]
  rw [hbranch]
  by_cases hsame : pump.session.screen.signature E = pump.signature
  · rw [if_pos hsame]
    exact Or.inl ⟨hsame, rfl⟩
  · rw [if_neg hsame]
    exact Or.inr ⟨hsame, rfl⟩

theorem poll_isSome_iff {pump : GridPump T} (h : pump.Local) :
    (GridPump.step E pump .poll).2.isSome = true ↔
      pump.session.screen.signature E ≠ pump.signature := by
  rcases poll_cases (E := E) h with ⟨hsame, hpoll⟩ | ⟨hmoved, hpoll⟩
  · rw [hpoll]
    simp [hsame]
  · rw [hpoll]
    simp [hmoved]

theorem Local.step {pump : GridPump T} (h : pump.Local) (op : PumpOp) :
    (GridPump.step E pump op).1.Local := by
  cases op with
  | change c => exact h
  | attach => exact h
  | poll =>
    rcases poll_cases (E := E) h with ⟨-, hpoll⟩ | ⟨-, hpoll⟩
    · rw [hpoll]
      exact h
    · rw [hpoll]
      rfl

theorem signature_of_emission {pump : GridPump T} (h : pump.Local) {op : PumpOp}
    (hemits : (GridPump.step E pump op).2.isSome = true) :
    (GridPump.step E pump op).1.signature
      = (GridPump.step E pump op).1.session.screen.signature E := by
  cases op with
  | change c => exact absurd hemits (by simp [GridPump.step])
  | attach =>
    simp only [GridPump.step, Session.attachmentSeed]
    rw [h]
    rfl
  | poll =>
    rcases poll_cases (E := E) h with ⟨-, hpoll⟩ | ⟨-, hpoll⟩
    · rw [hpoll] at hemits
      exact absurd hemits (by simp)
    · -- Taking a diff moves nothing the signature reads.
      rw [hpoll]
      rfl

theorem signature_of_silence {pump : GridPump T} (h : pump.Local) {op : PumpOp}
    (hsilent : (GridPump.step E pump op).2 = none) :
    (GridPump.step E pump op).1.signature = pump.signature := by
  cases op with
  | change c => rfl
  | attach => exact absurd hsilent (by simp [GridPump.step])
  | poll =>
    rcases poll_cases (E := E) h with ⟨-, hpoll⟩ | ⟨-, hpoll⟩
    · rw [hpoll]
    · rw [hpoll] at hsilent
      exact absurd hsilent (by simp)

theorem contentSeq_step_of_not_refreshed {pump : GridPump T} (h : pump.Local) {op : PumpOp}
    (hquiet : ¬ pump.RefreshedBy E op) :
    (GridPump.step E pump op).1.session.screen.contentSeq = pump.session.screen.contentSeq := by
  cases op with
  | change c => exact HeadlessScreen.contentSeq_change_of_not_refreshed E hquiet
  | attach => rfl
  | poll =>
    rcases poll_cases (E := E) h with ⟨-, hpoll⟩ | ⟨-, hpoll⟩
    · rw [hpoll]
    · rw [hpoll]
      rfl

theorem contentSeq_step_of_refreshed {pump : GridPump T} {op : PumpOp}
    (hrefreshed : pump.RefreshedBy E op) :
    (GridPump.step E pump op).1.session.screen.contentSeq
      = pump.session.screen.contentSeq + 1 := by
  cases op with
  | change c => exact HeadlessScreen.contentSeq_change_of_refreshed E hrefreshed
  | attach => exact absurd hrefreshed id
  | poll => exact absurd hrefreshed id

/-! ### From one emission to the next -/

theorem Local.run {pump : GridPump T} (h : pump.Local) (ops : List PumpOp) :
    (Trace.run (GridPump.step E) pump ops).Local :=
  run_invariant (GridPump.step E) h (fun _ op hp => hp.step op) ops

theorem local_start (cols rows : UInt16) : (start E cols rows).Local := rfl

theorem signature_of_silent_run {pump : GridPump T} (h : pump.Local) {ops : List PumpOp}
    (hsilent : ∀ y ∈ trace (GridPump.step E) pump ops, y.outcome = none) :
    (Trace.run (GridPump.step E) pump ops).signature = pump.signature := by
  induction ops generalizing pump with
  | nil => rfl
  | cons op ops ih =>
    rw [trace, List.forall_mem_cons] at hsilent
    exact (ih (h.step op) hsilent.2).trans (signature_of_silence h hsilent.1)

/-- The content counter of a run never goes back, and stands still only if nothing counted. -/
theorem contentSeq_run {pump : GridPump T} (h : pump.Local) (ops : List PumpOp) :
    pump.session.screen.contentSeq
        ≤ (Trace.run (GridPump.step E) pump ops).session.screen.contentSeq ∧
      ((Trace.run (GridPump.step E) pump ops).session.screen.contentSeq
          = pump.session.screen.contentSeq ↔
        ∀ y ∈ trace (GridPump.step E) pump ops, ¬ y.before.RefreshedBy E y.event) := by
  induction ops generalizing pump with
  | nil => simp [Trace.run, trace]
  | cons op ops ih =>
    obtain ⟨hle, hiff⟩ := ih (h.step (E := E) op)
    rw [trace, List.forall_mem_cons]
    simp only [Trace.run]
    by_cases hop : pump.RefreshedBy E op
    · have hseq := contentSeq_step_of_refreshed hop
      refine ⟨by omega, fun heq => by omega, fun hall => absurd hop hall.1⟩
    · have hseq := contentSeq_step_of_not_refreshed h hop
      rw [hseq] at hle hiff
      refine ⟨hle, ?_⟩
      rw [hiff]
      exact ⟨fun hall => ⟨hop, hall⟩, fun hall => hall.2⟩

end GridPump

/--
**When the signature gate lets a changed cell through.**

A local session emitted an update, by a poll or as a fresh seed, and none since.  If a
visible cell now differs from that emission, the next poll returns an update exactly
when the size, the cursor or a mode differs too, or when some change since fed bytes
that damaged the screen, or set the title, and left another digest of characters and
title than the last.
-/
theorem signature_gate (E : Backend T) (cols rows : UInt16) (earlier : List PumpOp) (op : PumpOp)
    (later : List PumpOp) :
    let before := run (GridPump.step E) (GridPump.start E cols rows) earlier
    let emitted := (GridPump.step E before op).1
    let s := run (GridPump.step E) emitted later
    (GridPump.step E before op).2.isSome = true →
    (∀ y ∈ trace (GridPump.step E) emitted later, y.outcome = none) →
    ((s.session.screen.cells E ≠ emitted.session.screen.cells E →
        (s.session.gridUpdateIfChanged E s.signature).1.isSome = true) ↔
      s.session.screen.cells E = emitted.session.screen.cells E ∨
        ¬ s.session.screen.SameView E emitted.session.screen ∨
        ∃ y ∈ trace (GridPump.step E) emitted later, y.before.RefreshedBy E y.event) := by
  intro before emitted s hemits hsilent
  have hbefore : before.Local := (GridPump.local_start (E := E) cols rows).run (E := E) earlier
  have hlocal : emitted.Local := hbefore.step op
  -- The pump still holds the signature of the emission.
  have hsignature : s.signature = emitted.session.screen.signature E :=
    (GridPump.signature_of_silent_run hlocal hsilent).trans
      (GridPump.signature_of_emission hbefore hemits)
  have hpoll : (s.session.gridUpdateIfChanged E s.signature).1.isSome = true ↔
      ¬ ((∀ y ∈ trace (GridPump.step E) emitted later, ¬ y.before.RefreshedBy E y.event) ∧
        s.session.screen.SameView E emitted.session.screen) := by
    rw [← (GridPump.contentSeq_run (E := E) hlocal later).2, ← HeadlessScreen.signature_eq_iff,
      ← hsignature]
    exact GridPump.poll_isSome_iff (hlocal.run later)
  rw [hpoll]
  by_cases hcells : s.session.screen.cells E = emitted.session.screen.cells E
  · exact ⟨fun _ => Or.inl hcells, fun _ hne => absurd hcells hne⟩
  · by_cases hview : s.session.screen.SameView E emitted.session.screen
    · constructor
      · intro hgate
        refine Or.inr (Or.inr ?_)
        by_contra hnone
        exact hgate hcells ⟨fun y hy hrefreshed => hnone ⟨y, hy, hrefreshed⟩, hview⟩
      · rintro (hsame | hother | ⟨y, hy, hrefreshed⟩) _ ⟨hquiet, -⟩
        · exact hcells hsame
        · exact hother hview
        · exact hquiet y hy hrefreshed
    · exact ⟨fun _ => Or.inr (Or.inl hview), fun _ _ h => hview h.2⟩

/-- `a` is written to a new session and the first poll emits it. -/
def firstPoll : GridPump LineTerm × Option GridUpdate :=
  GridPump.step LineTerm.backend
    (run (GridPump.step LineTerm.backend) (GridPump.start LineTerm.backend 2 1)
      [.change (.feed [0x61, 0x0d])]) .poll

/-- `b` written over it counts as new content, and the next poll emits. -/
theorem signature_gate_new_character :
    ((run (GridPump.step LineTerm.backend) firstPoll.1
        [.change (.feed [0x62, 0x0d])]).session.gridUpdateIfChanged LineTerm.backend
      (run (GridPump.step LineTerm.backend) firstPoll.1
        [.change (.feed [0x62, 0x0d])]).signature).1.isSome = true := by
  have hgate := (signature_gate LineTerm.backend 2 1 [.change (.feed [0x61, 0x0d])] .poll
    [.change (.feed [0x62, 0x0d])] (by decide) (by decide)).mpr
  refine hgate (Or.inr (Or.inr ⟨_, List.mem_cons_self, ?_⟩)) (by decide)
  show HeadlessScreen.Refreshes LineTerm.backend _ [0x62, 0x0d]
  decide

/-- `a` written over it in red. -/
def recolored : GridPump LineTerm :=
  run (GridPump.step LineTerm.backend) firstPoll.1
    [.change (.feed [0x1b, 0x5b, 0x33, 0x31, 0x6d, 0x61, 0x0d])]

/--
Characters, title, cursor, size and modes are the same, so the digest has nothing to
tell apart; the cell is not, and the poll returns nothing.
-/
theorem signature_gate_misses_color :
    firstPoll.2.isSome = true ∧
      recolored.session.screen.cells LineTerm.backend
        ≠ firstPoll.1.session.screen.cells LineTerm.backend ∧
      (recolored.session.screen.cells LineTerm.backend).map GridCell.scalar
        = (firstPoll.1.session.screen.cells LineTerm.backend).map GridCell.scalar ∧
      recolored.session.screen.title = firstPoll.1.session.screen.title ∧
      (recolored.session.gridUpdateIfChanged LineTerm.backend recolored.signature).1 = none := by
  decide

end Homie
