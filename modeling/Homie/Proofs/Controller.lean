/-
Who controls the terminal.

A handshake advances the epoch of the Holder first and swaps the connection in last.
Between the two the connection that shakes hands has the new epoch and the installed
controller an old one, which is why a state with a read in progress has an invariant of
its own.  If the new connection goes away in between, the installed controller keeps its
slot but not its epoch.

Most handlers touch no epoch (`Keeps`); the case analysis here is about reading.
-/
import Homie.Lib.Trace
import Homie.Proofs.HolderSlots

namespace Homie.Remote

open Trace

variable {T : Type} {P : Platform T}

namespace Holder

/-! ### The installed controller -/

/-- The connection has the current epoch, and so has the state file. -/
def Current (h : Holder T) (c : Connection) : Prop :=
  c.epoch = some h.state.controllerEpoch ∧
    h.stored.controllerEpoch = h.state.controllerEpoch

/-- A controller is installed, and not with this epoch. -/
def Contested (h : Holder T) (epoch : UInt64) : Prop :=
  ∃ c, h.connection = some c ∧ c.epoch ≠ some epoch

/--
A step does not lose a connection that is taking over from an installed controller: a
`Hello` past the checks is answered in full, later messages of the same read are accepted,
and the read ends for want of data.
-/
structure Completes (P : Platform T) (x : Step (Holder T) HolderEvent Unit) : Prop where
  hello : ∀ c hello calls, x.before.reading = some (.pending, c) → c.epoch = none →
    x.event = .message (.hello hello) calls →
    x.before.refusal hello calls.authenticate = none →
    x.before.Contested x.before.advanceEpoch.state.controllerEpoch →
    x.before.CanWelcome P hello.lastAcknowledgedOutputOffset calls
  message : ∀ c epoch message calls, x.before.reading = some (.pending, c) →
    c.epoch = some epoch → x.event = .message message calls → x.before.Contested epoch →
    x.before.Accepts P epoch message calls
  ending : ∀ c epoch ending writes, x.before.reading = some (.pending, c) →
    c.epoch = some epoch → x.event = .endRead ending writes → x.before.Contested epoch →
    ending = .wouldBlock

/-- The invariant of the epochs, between two calls and inside a read. -/
structure EpochsAgree (h : Holder T) : Prop where
  /-- Only a connection that has just shaken hands can make the installed one stale. -/
  installed : ∀ c, h.connection = some c →
    h.Current c ∨ ∃ c', h.reading = some (.pending, c') ∧ c'.epoch ≠ none
  readingInstalled : ∀ c, h.reading = some (.installed, c) → h.connection = none ∧ h.Current c
  readingPending : ∀ c, h.reading = some (.pending, c) → c.epoch ≠ none → h.Current c
  pending : ∀ c, h.pendingConnection = some c → c.epoch = none
  backlog : ∀ c ∈ h.backlog, c.epoch = none

theorem epochsAgree_new (sessionId incarnation : String) (pid : UInt32) (cols rows : UInt16) :
    (new P sessionId incarnation pid cols rows : Holder T).EpochsAgree where
  installed := fun _ hc => absurd hc (by simp [new])
  readingInstalled := fun _ hc => absurd hc (by simp [new])
  readingPending := fun _ hc => absurd hc (by simp [new])
  pending := fun _ hc => absurd hc (by simp [new])
  backlog := fun _ hc => absurd hc (by simp [new])

theorem Keeps.current {h h' : Holder T} (hkeeps : Keeps h h') {c c' : Connection}
    (hepoch : c'.epoch = c.epoch) (hcurrent : h.Current c) : h'.Current c' := by
  refine ⟨?_, ?_⟩
  · rw [hepoch, hkeeps.epoch]
    exact hcurrent.1
  · rw [hkeeps.epoch]
    rcases hkeeps.stored with hstored | hstored
    · exact hstored.trans hcurrent.2
    · exact hstored

theorem EpochsAgree.keeps {h h' : Holder T} (hinv : h.EpochsAgree) (hkeeps : Keeps h h') :
    h'.EpochsAgree where
  installed := by
    intro c' hc'
    obtain ⟨c, hc, -, hepoch⟩ := hkeeps.connection c' hc'
    rw [hkeeps.reading]
    rcases hinv.installed c hc with hcurrent | hreading
    · exact Or.inl (hkeeps.current hepoch hcurrent)
    · exact Or.inr hreading
  readingInstalled := by
    intro c hc
    rw [hkeeps.reading] at hc
    obtain ⟨hnone, hcurrent⟩ := hinv.readingInstalled c hc
    refine ⟨?_, hkeeps.current rfl hcurrent⟩
    cases hc' : h'.connection with
    | none => rfl
    | some c' =>
      obtain ⟨c, hsome, -⟩ := hkeeps.connection c' hc'
      rw [hnone] at hsome
      cases hsome
  readingPending := by
    intro c hc hepoch
    rw [hkeeps.reading] at hc
    exact hkeeps.current rfl (hinv.readingPending c hc hepoch)
  pending := by
    rw [hkeeps.pending]
    exact hinv.pending
  backlog := by
    rw [hkeeps.backlog]
    exact hinv.backlog

theorem EpochsAgree.current {h : Holder T} (hinv : h.EpochsAgree) (hreading : h.reading = none)
    {c : Connection} (hc : h.connection = some c) : h.Current c := by
  rcases hinv.installed c hc with hcurrent | ⟨c', hc', -⟩
  · exact hcurrent
  · rw [hreading] at hc'
    cases hc'

theorem EpochsAgree.closed {h h' : Holder T} (hinv : h.EpochsAgree)
    (hreading : h'.reading = none) (hpending : h'.pendingConnection = h.pendingConnection)
    (hbacklog : h'.backlog = h.backlog)
    (hinstalled : ∀ c, h'.connection = some c → h'.Current c) : h'.EpochsAgree where
  installed := fun c hc => Or.inl (hinstalled c hc)
  readingInstalled := fun _ hc => absurd hc (by rw [hreading]; simp)
  readingPending := fun _ hc => absurd hc (by rw [hreading]; simp)
  pending := by
    rw [hpending]
    exact hinv.pending
  backlog := by
    rw [hbacklog]
    exact hinv.backlog

theorem EpochsAgree.dial {h : Holder T} (hinv : h.EpochsAgree) : h.dial.EpochsAgree where
  installed := hinv.installed
  readingInstalled := hinv.readingInstalled
  readingPending := hinv.readingPending
  pending := hinv.pending
  backlog := by
    intro c hc
    rcases List.mem_append.mp hc with hc | hc
    · exact hinv.backlog c hc
    · rw [List.mem_singleton.mp hc]
      rfl

theorem EpochsAgree.accept {h : Holder T} (hinv : h.EpochsAgree) (result : IoResult) :
    (settle (h.acceptConnection result)).EpochsAgree := by
  have haccepted : (h.acceptConnection result).2.EpochsAgree :=
    { installed := hinv.installed
      readingInstalled := hinv.readingInstalled
      readingPending := hinv.readingPending
      pending := by
        intro c hc
        rcases Option.or_eq_some_iff.mp hc with hlast | ⟨-, hpending⟩
        · exact hinv.backlog c (List.mem_of_getLast? hlast)
        · exact hinv.pending c hpending
      backlog := fun c hc => absurd hc List.not_mem_nil }
  exact haccepted.keeps (keeps_settle (.refl _))

theorem EpochsAgree.beginRead {h : Holder T} (hinv : h.EpochsAgree) (hreading : h.reading = none)
    (slot : Slot) : (h.beginRead slot).EpochsAgree := by
  cases slot with
  | installed =>
    simp only [Holder.beginRead]
    cases hsome : h.connection with
    | none => exact hinv
    | some c =>
      have hcurrent := hinv.current hreading hsome
      refine ⟨fun _ hc => absurd hc (by simp), ?_, fun _ hc => absurd hc (by simp),
        hinv.pending, hinv.backlog⟩
      intro c' hc'
      cases hc'
      exact ⟨rfl, hcurrent⟩
  | pending =>
    simp only [Holder.beginRead]
    cases hsome : h.pendingConnection with
    | none => exact hinv
    | some c =>
      refine ⟨fun c' hc' => Or.inl (hinv.current hreading hc'), fun _ hc => absurd hc (by simp),
        ?_, fun _ hc => absurd hc (by simp), hinv.backlog⟩
      intro c' hc' hepoch
      cases hc'
      exact absurd (hinv.pending c hsome) hepoch

theorem EpochsAgree.putBack {h : Holder T} (hinv : h.EpochsAgree) {slot : Slot} {c : Connection}
    (hreading : h.reading = some (slot, c)) (writes : List (Except IoError Nat)) :
    (h.stopReading.putBack P slot c writes).EpochsAgree := by
  rcases h.stopReading.putBack_cases (P := P) slot c writes with
    ⟨rfl, heq⟩ | ⟨rfl, hepoch, heq⟩ | ⟨rfl, hepoch, heq⟩
  · rw [heq]
    refine hinv.closed rfl rfl rfl ?_
    intro c' hc'
    cases hc'
    exact (hinv.readingInstalled c hreading).2
  · have hinstalled : ∀ c', h.connection = some c' → h.Current c' := by
      intro c' hc'
      rcases hinv.installed c' hc' with hcurrent | ⟨c'', hc'', hsome⟩
      · exact hcurrent
      · rw [hreading] at hc''
        cases hc''
        exact absurd hepoch hsome
    rw [heq]
    refine ⟨fun c' hc' => Or.inl (hinstalled c' hc'), fun _ hc => absurd hc (by simp [stopReading]),
      fun _ hc => absurd hc (by simp [stopReading]), ?_, hinv.backlog⟩
    intro c' hc'
    cases hc'
    exact hepoch
  · obtain ⟨sockets, -, -, hrevoked⟩ := h.stopReading.revokePrevious_eq (P := P) writes
    rw [heq, hrevoked]
    refine hinv.closed rfl rfl rfl ?_
    intro c' hc'
    cases hc'
    exact hinv.readingPending c hreading hepoch

theorem EpochsAgree.uncontested {h : Holder T} (hinv : h.EpochsAgree) {slot : Slot}
    {c : Connection} (hreading : h.reading = some (slot, c))
    (hcontest : ∀ epoch, slot = .pending → c.epoch = some epoch → ¬ h.Contested epoch) :
    ∀ c', h.connection = some c' → h.Current c' := by
  intro c' hc'
  cases slot with
  | installed =>
    rw [(hinv.readingInstalled c hreading).1] at hc'
    cases hc'
  | pending =>
    rcases hinv.installed c' hc' with hcurrent | ⟨c'', hc'', hsome⟩
    · exact hcurrent
    · rw [hreading] at hc''
      cases hc''
      have hcurrent := hinv.readingPending c hreading hsome
      have hsame : c'.epoch = some h.state.controllerEpoch := by
        by_contra hne
        exact hcontest _ rfl hcurrent.1 ⟨c', hc', hne⟩
      exact ⟨hsame, hcurrent.2⟩

theorem EpochsAgree.reread {h h' : Holder T} (hinv : h.EpochsAgree) {slot : Slot}
    {c c' : Connection} (hreading : h.reading = some (slot, c)) (hkeeps : Keeps h h')
    (hslot : h'.connection = h.connection) (hepoch : c'.epoch = c.epoch) :
    { h' with reading := some (slot, c') }.EpochsAgree where
  installed := by
    intro c₀ hc₀
    have hconnection : h.connection = some c₀ := hslot.symm.trans hc₀
    rcases hinv.installed c₀ hconnection with hcurrent | ⟨c'', hc'', hsome⟩
    · exact Or.inl (hkeeps.current rfl hcurrent)
    · rw [hreading] at hc''
      cases hc''
      exact Or.inr ⟨c', rfl, by rw [hepoch]; exact hsome⟩
  readingInstalled := by
    intro c₀ hc₀
    cases hc₀
    obtain ⟨hnone, hcurrent⟩ := hinv.readingInstalled c hreading
    exact ⟨hslot.trans hnone, hkeeps.current hepoch hcurrent⟩
  readingPending := by
    intro c₀ hc₀ hsome
    cases hc₀
    exact hkeeps.current hepoch (hinv.readingPending c hreading (by rw [← hepoch]; exact hsome))
  pending := by
    show ∀ c, h'.pendingConnection = some c → c.epoch = none
    rw [hkeeps.pending]
    exact hinv.pending
  backlog := by
    show ∀ c ∈ h'.backlog, c.epoch = none
    rw [hkeeps.backlog]
    exact hinv.backlog

theorem EpochsAgree.endRead {h : Holder T} (hinv : h.EpochsAgree) {ending : ReadEnd}
    {writes : List (Except IoError Nat)}
    (hcompletes : Completes P (take (step P) h (.endRead ending writes))) :
    (h.endRead P ending writes).EpochsAgree := by
  unfold Holder.endRead
  cases hreading : h.reading with
  | none => exact hinv
  | some place =>
    obtain ⟨slot, c⟩ := place
    have hcurrent : ending ≠ .wouldBlock → ∀ c', h.connection = some c' → h.Current c' := by
      intro hending
      refine hinv.uncontested hreading ?_
      intro epoch hslot hepoch hcontested
      subst hslot
      exact hending (hcompletes.ending c epoch ending writes hreading hepoch rfl hcontested)
    cases ending with
    | wouldBlock => exact hinv.putBack hreading writes
    | eof => exact hinv.closed rfl rfl rfl (hcurrent (by simp))
    | failed => exact hinv.closed rfl rfl rfl (hcurrent (by simp))
    | invalidFrame e written => exact hinv.closed rfl rfl rfl (hcurrent (by simp))

/-- A handshake that failed advanced the epoch for nothing: no other controller may be there. -/
theorem EpochsAgree.unwelcome {h h' : Holder T} (hinv : h.EpochsAgree)
    (hcurrent : ∀ c, h.connection = some c → h.Current c)
    (huncontested : ¬ h.Contested h.advanceEpoch.state.controllerEpoch)
    (hreading : h'.reading = none) (hpending : h'.pendingConnection = h.pendingConnection)
    (hbacklog : h'.backlog = h.backlog) (hconnection : h'.connection = h.connection)
    (hepoch : h'.state.controllerEpoch = h.advanceEpoch.state.controllerEpoch)
    (hstored : h'.stored = h.stored) : h'.EpochsAgree := by
  refine hinv.closed hreading hpending hbacklog ?_
  intro c hc
  rw [hconnection] at hc
  have hadvanced : c.epoch = some h.advanceEpoch.state.controllerEpoch := by
    by_contra hne
    exact huncontested ⟨c, hc, hne⟩
  have hsame : h.advanceEpoch.state.controllerEpoch = h.state.controllerEpoch :=
    Option.some.inj (hadvanced.symm.trans (hcurrent c hc).1)
  refine ⟨hadvanced.trans (congrArg some hepoch.symm), ?_⟩
  rw [hstored, hepoch, hsame]
  exact (hcurrent c hc).2

theorem EpochsAgree.readMessage {h : Holder T} (hinv : h.EpochsAgree) {message : RemoteMessage}
    {calls : Calls} (hcompletes : Completes P (take (step P) h (.message message calls))) :
    (h.readMessage P message calls).EpochsAgree := by
  cases hreading : h.reading with
  | none =>
    unfold Holder.readMessage
    rw [hreading]
    exact hinv
  | some place =>
    obtain ⟨slot, c⟩ := place
    -- without an epoch the connection is a pending one, and the installed one is current
    have hfirst : c.epoch = none → slot = .pending ∧
        ∀ c', h.connection = some c' → h.Current c' := by
      intro hnone
      refine ⟨?_, hinv.uncontested hreading ?_⟩
      · cases slot with
        | pending => rfl
        | installed =>
          have hcurrent := (hinv.readingInstalled c hreading).2.1
          rw [hnone] at hcurrent
          cases hcurrent
      · intro epoch _ hsome
        rw [hnone] at hsome
        cases hsome
    have hreads := h.readMessage_reads (P := P) hreading message calls
    generalize h.readMessage P message calls = after at hreads
    cases hreads with
    | refused e hnone => exact hinv.closed rfl rfl rfl (hfirst hnone).2
    | welcomed hello replayed hmessage hnone hrefusal hcan hreplay =>
      obtain ⟨rfl, -⟩ := hfirst hnone
      refine ⟨fun _ _ => Or.inr ⟨_, rfl, by simp [Connection.push, Connection.admitted]⟩,
        fun _ hc => absurd hc (by simp), ?_, hinv.pending, hinv.backlog⟩
      intro c' hc' _
      cases hc'
      exact ⟨rfl, rfl⟩
    | unwelcome hello e h' c' hmessage hnone hrefusal hcannot hid hstate =>
      obtain ⟨rfl, hcurrent⟩ := hfirst hnone
      have huncontested : ¬ h.Contested h.advanceEpoch.state.controllerEpoch := by
        intro hcontested
        exact hcannot (hcompletes.hello c hello calls hreading hnone
          (congrArg (HolderEvent.message · calls) hmessage) hrefusal hcontested)
      obtain ⟨hpending, hbacklog, hconnection, hepoch, hstored, -⟩ :=
        unwelcome_frame hstate
      exact hinv.unwelcome hcurrent huncontested rfl hpending hbacklog hconnection hepoch hstored
    | handled epoch h' c' hepoch heffect =>
      obtain ⟨hkeeps, hslot, -, hepoch'⟩ := keeps_effect heffect
      exact hinv.reread hreading hkeeps hslot hepoch'
    | closed epoch e h' c' hepoch hrefused heffect =>
      obtain ⟨hkeeps, hslot, -, -⟩ := keeps_effect heffect
      have hinstalled : ∀ c', h.connection = some c' → h.Current c' := by
        refine hinv.uncontested hreading ?_
        intro epoch' hpending hepoch' hcontested
        subst hpending
        have hcurrent := hinv.readingPending c hreading (by rw [hepoch']; simp)
        have hsame : epoch = h.state.controllerEpoch :=
          Option.some.inj (hepoch.symm.trans hcurrent.1)
        have haccepts := hcompletes.message c epoch' message calls hreading hepoch' rfl
          hcontested
        rw [Option.some.inj (hepoch'.symm.trans hepoch)] at haccepts
        exact hrefused hsame haccepts
      refine hinv.closed rfl hkeeps.pending hkeeps.backlog ?_
      intro c'' hc''
      exact hkeeps.current rfl (hinstalled c'' (hslot.symm.trans hc''))

theorem EpochsAgree.step {h : Holder T} (hinv : h.EpochsAgree) {event : HolderEvent}
    (hcompletes : Completes P (take (Holder.step P) h event)) :
    (Holder.step P h event).1.EpochsAgree := by
  rcases h.step_cases (P := P) event with
    heq | ⟨-, heq⟩ | ⟨message, calls, rfl, heq⟩ | ⟨ending, writes, rfl, heq⟩ | ⟨hreading, heq⟩
  · rw [heq]
    exact hinv
  · rw [heq]
    exact hinv.dial
  · rw [heq]
    exact hinv.readMessage hcompletes
  · rw [heq]
    exact hinv.endRead hcompletes
  · rw [heq]
    rcases h.between_cases (P := P) event with ⟨result, rfl⟩ | ⟨slot, rfl⟩ | hkeeps
    · exact hinv.accept result
    · exact hinv.beginRead hreading slot
    · exact hinv.keeps hkeeps

/--
**The installed controller has the current epoch.**

In every run in which no connection that is taking over from an installed controller is
lost between its `Hello` and its installation, whenever no read is in progress an
installed controller has the epoch of the Holder, which is also the one in the state
file.
-/
theorem installed_epoch_current {sessionId incarnation : String} {pid : UInt32}
    {cols rows : UInt16} {events : List HolderEvent}
    (hcompletes : ∀ x ∈ trace (Holder.step P) (new P sessionId incarnation pid cols rows) events,
      Completes P x)
    {c : Connection}
    (hreading :
      (run (Holder.step P) (new P sessionId incarnation pid cols rows) events).reading = none)
    (hinstalled : (run (Holder.step P) (new P sessionId incarnation pid cols rows)
      events).connection = some c) :
    (run (Holder.step P) (new P sessionId incarnation pid cols rows) events).Current c := by
  have hinv := run_invariant_where (Holder.step P) (P := EpochsAgree) hcompletes
    (epochsAgree_new sessionId incarnation pid cols rows)
    (fun _ _ hstep hagree => hagree.step hstep)
  exact hinv.current hreading hinstalled

/-! ### Two controllers -/

set_option maxRecDepth 60000

/-- A second controller attaches while the first is installed. -/
def takeover (calls : Calls) : List HolderEvent := attach .quiet [] ++ attach calls []

theorem sample_canWelcome {k : Nat} (hk : k = 3 ∨ k = 8) :
    (run (Holder.step LineTerm.platform) sample ((takeover .quiet).take k)).CanWelcome
      LineTerm.platform (some 0) .quiet where
  ack := by
    unfold Encodable
    rcases hk with rfl | rfl <;> with_unfolding_all decide
  replay := by
    refine ⟨[], ?_⟩
    have htail : (run (Holder.step LineTerm.platform) sample
        ((takeover .quiet).take k)).log.tailOffset = 0 := by
      rcases hk with rfl | rfl <;> with_unfolding_all decide
    unfold replay
    rw [htail]
    rfl
  snapshot := by
    unfold Encodable
    rcases hk with rfl | rfl <;> with_unfolding_all decide
  granted := by
    unfold Encodable
    rcases hk with rfl | rfl <;> with_unfolding_all decide
  stored := rfl

/-- The second controller is the installed one, with epoch 2. -/
theorem installed_epoch_current_takeover :
    ∃ c, (run (Holder.step LineTerm.platform) sample (takeover .quiet)).connection = some c ∧
      (run (Holder.step LineTerm.platform) sample (takeover .quiet)).Current c := by
  have hcompletes : ∀ x ∈ trace (Holder.step LineTerm.platform) sample (takeover .quiet),
      Completes LineTerm.platform x := by
    intro x hx
    obtain ⟨k, hget, hbefore⟩ := before_of_mem_trace _ hx
    have hk : k < 10 := (List.getElem?_eq_some_iff.mp hget).1
    have hmessages : ∀ message calls, x.event = .message message calls →
        (k = 3 ∨ k = 8) ∧ message = .hello (sampleHello (some 0)) ∧ calls = .quiet := by
      intro message calls hevent
      rw [hevent] at hget
      interval_cases k <;> cases hget
      · exact ⟨Or.inl rfl, rfl, rfl⟩
      · exact ⟨Or.inr rfl, rfl, rfl⟩
    refine ⟨?_, ?_, ?_⟩
    · intro c hello calls _ _ hevent _ _
      obtain ⟨hk, hhello, rfl⟩ := hmessages _ _ hevent
      cases hhello
      rw [hbefore]
      exact sample_canWelcome hk
    · -- both messages come before the handshake of their connection
      intro c epoch message calls hreading hepoch hevent _
      obtain ⟨hk, -⟩ := hmessages _ _ hevent
      have hfresh : (run (Holder.step LineTerm.platform) sample
          ((takeover .quiet).take k)).reading.map (·.2.epoch) = some none := by
        rcases hk with rfl | rfl <;> with_unfolding_all decide
      rw [← hbefore, hreading, Option.map_some, hepoch] at hfresh
      cases hfresh
    · intro c epoch ending writes _ _ hevent _
      rw [hevent] at hget
      interval_cases k <;> cases hget <;> rfl
  have hend : (run (Holder.step LineTerm.platform) sample (takeover .quiet)).reading = none ∧
      (run (Holder.step LineTerm.platform) sample
        (takeover .quiet)).connection.isSome = true := by
    with_unfolding_all decide
  obtain ⟨c, hc⟩ := Option.isSome_iff_exists.mp hend.2
  exact ⟨c, hc, installed_epoch_current hcompletes hend.1 hc⟩

/-- The disk is full when a handshake writes the state. -/
def diskFull : Calls :=
  { Calls.quiet with writeState := .error ⟨.other, "No space left on device"⟩ }

/--
The second handshake fails at the state file: the first controller stays installed with
epoch 1 while the Holder has epoch 2.
-/
theorem failed_takeover_leaves_stale_controller :
    ¬ ∀ (events : List HolderEvent) (c : Connection),
      (run (Holder.step LineTerm.platform) sample events).reading = none →
      (run (Holder.step LineTerm.platform) sample events).connection = some c →
      (run (Holder.step LineTerm.platform) sample events).Current c := by
  intro hall
  have hend : (run (Holder.step LineTerm.platform) sample (takeover diskFull)).reading = none ∧
      (run (Holder.step LineTerm.platform) sample
        (takeover diskFull)).connection.map (·.epoch) = some (some 1) ∧
      (run (Holder.step LineTerm.platform) sample
        (takeover diskFull)).state.controllerEpoch = 2 := by
    with_unfolding_all decide
  obtain ⟨hreading, hold, hnew⟩ := hend
  obtain ⟨c, hc, hepoch⟩ := Option.map_eq_some_iff.mp hold
  have hcurrent := (hall (takeover diskFull) c hreading hc).1
  rw [hepoch, hnew] at hcurrent
  exact absurd hcurrent (by decide)

end Holder

end Homie.Remote
