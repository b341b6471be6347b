/-
One controller at a time.

A message reaches the child only on a connection that has the current epoch.  `Led` says
that such a connection is the one of the latest successful handshake, and why: epochs
only grow, a handshake takes the next one, and no connection has a higher one than the
Holder.  The exception is a saturated epoch, which two connections can share; there the
new connection has to be installed before the old one is read again.

What an unadmitted connection can do is read off the handlers: nothing, unless a `Hello`
passes the checks and the handshake then fails.
-/
import Homie.Proofs.Controller

namespace Homie.Remote

open Trace

variable {T : Type} {P : Platform T}

namespace Holder


/-- What the child can see: the bytes taken for it, the size and the signals. -/
def terminal (h : Holder T) : List UInt8 × UInt16 × UInt16 × List Int32 :=
  (h.pty.written ++ h.pendingInput, h.pty.cols, h.pty.rows, h.pty.signals)

/-- The connection whose handshake a step completed, with its epoch. -/
def handshakeOf (x : Step (Holder T) HolderEvent Unit) : Option (Nat × UInt64) :=
  match x.before.reading, x.after.reading with
  | some (_, c), some (_, c') => if c.epoch.isNone then c'.epoch.map (c.id, ·) else none
  | _, _ => none

/-- The latest successful handshake. -/
def latestHandshake (history : List (Step (Holder T) HolderEvent Unit)) : Option (Nat × UInt64) :=
  (history.filterMap handshakeOf).getLast?

/-- The step is one of a connection that has not completed its handshake. -/
def Unadmitted (x : Step (Holder T) HolderEvent Unit) : Prop :=
  x.event = .dial ∨ (∃ result, x.event = .accept result) ∨ x.event = .beginRead .pending ∨
    ((∃ slot c, x.before.reading = some (slot, c) ∧ c.epoch = none) ∧ handshakeOf x = none ∧
      ((∃ message calls, x.event = .message message calls) ∨
        ∃ ending writes, x.event = .endRead ending writes))

/--
A `Hello` past the checks that advances the epoch is answered in full.  Where the epoch is
saturated it does not advance: there a connection that shook hands beside a controller with
the same epoch is not lost.
-/
structure Leases (P : Platform T) (x : Step (Holder T) HolderEvent Unit) : Prop where
  hello : ∀ slot c hello calls, x.before.reading = some (slot, c) → c.epoch = none →
    x.event = .message (.hello hello) calls →
    x.before.refusal hello calls.authenticate = none →
    x.before.advanceEpoch.state.controllerEpoch ≠ x.before.state.controllerEpoch →
    x.before.CanWelcome P hello.lastAcknowledgedOutputOffset calls
  message : ∀ c installed epoch message calls, x.before.reading = some (.pending, c) →
    c.epoch = some epoch → x.before.connection = some installed → installed.epoch = some epoch →
    x.event = .message message calls → x.before.Accepts P epoch message calls
  ending : ∀ c installed epoch ending writes, x.before.reading = some (.pending, c) →
    c.epoch = some epoch → x.before.connection = some installed → installed.epoch = some epoch →
    x.event = .endRead ending writes → ending = .wouldBlock

/-- Whoever has the current epoch is the connection of the latest handshake. -/
structure Led (latest : Option (Nat × UInt64)) (h : Holder T) : Prop where
  reading : ∀ slot c epoch, h.reading = some (slot, c) → c.epoch = some epoch →
    epoch ≤ h.state.controllerEpoch ∧
      (epoch = h.state.controllerEpoch → latest = some (c.id, epoch))
  readingInstalled : ∀ c, h.reading = some (.installed, c) → h.connection = none ∧ c.epoch ≠ none
  installed : ∀ c, h.connection = some c → ∃ epoch, c.epoch = some epoch ∧
    epoch ≤ h.state.controllerEpoch ∧
      (epoch = h.state.controllerEpoch → latest = some (c.id, epoch) ∨
        ∃ c', h.reading = some (.pending, c') ∧ c'.epoch = some epoch)
  pending : ∀ c, h.pendingConnection = some c → c.epoch = none
  backlog : ∀ c ∈ h.backlog, c.epoch = none

theorem led_new (sessionId incarnation : String) (pid : UInt32) (cols rows : UInt16) :
    Led none (new P sessionId incarnation pid cols rows : Holder T) where
  reading := fun _ _ _ hc => absurd hc (by simp [new])
  readingInstalled := fun _ hc => absurd hc (by simp [new])
  installed := fun _ hc => absurd hc (by simp [new])
  pending := fun _ hc => absurd hc (by simp [new])
  backlog := fun _ hc => absurd hc (by simp [new])

theorem Led.keeps {latest : Option (Nat × UInt64)} {h h' : Holder T} (hled : Led latest h)
    (hkeeps : Keeps h h') : Led latest h' where
  reading := by
    rw [hkeeps.reading, hkeeps.epoch]
    exact hled.reading
  readingInstalled := by
    intro c hc
    rw [hkeeps.reading] at hc
    obtain ⟨hnone, hepoch⟩ := hled.readingInstalled c hc
    refine ⟨?_, hepoch⟩
    cases hc' : h'.connection with
    | none => rfl
    | some c' =>
      obtain ⟨c, hsome, -⟩ := hkeeps.connection c' hc'
      rw [hnone] at hsome
      cases hsome
  installed := by
    intro c' hc'
    obtain ⟨c, hc, hid, hepoch⟩ := hkeeps.connection c' hc'
    rw [hkeeps.reading, hkeeps.epoch, hid, hepoch]
    exact hled.installed c hc
  pending := by
    rw [hkeeps.pending]
    exact hled.pending
  backlog := by
    rw [hkeeps.backlog]
    exact hled.backlog

theorem le_saturatingSucc (value : UInt64) : value ≤ saturatingSucc value := by
  unfold saturatingSucc
  split
  · exact UInt64.le_refl value
  · rename_i hne
    have hlt : value.toNat < 2 ^ 64 := value.toNat_lt
    have hmax : value.toNat ≠ 2 ^ 64 - 1 := by
      intro heq
      apply hne
      rw [← heq, UInt64.ofNat_toNat]
    rw [UInt64.le_iff_toNat_le, UInt64.toNat_add]
    have hone : (1 : UInt64).toNat = 1 := rfl
    rw [hone, Nat.mod_eq_of_lt (by omega)]
    omega

theorem latestHandshake_concat (history : List (Step (Holder T) HolderEvent Unit))
    (x : Step (Holder T) HolderEvent Unit) :
    latestHandshake (history ++ [x]) = (handshakeOf x).or (latestHandshake history) := by
  unfold latestHandshake
  rw [List.filterMap_append, List.getLast?_append]
  cases hx : handshakeOf x with
  | none => simp [hx]
  | some handshake => simp [hx]

/-- Only a message that is read completes a handshake. -/
theorem handshakeOf_eq_none {x : Step (Holder T) HolderEvent Unit}
    (h : x.after.reading = x.before.reading ∨ x.after.reading = none) : handshakeOf x = none := by
  unfold handshakeOf
  rcases h with hsame | hnone
  · rw [hsame]
    split
    · rename_i hreading hreading'
      rw [hreading] at hreading'
      cases hreading'
      split
      · rename_i hepoch
        rw [Option.isNone_iff_eq_none.mp hepoch]
        rfl
      · rfl
    · rfl
  · rw [hnone]
    split
    · rename_i hreading
      cases hreading
    · rfl

theorem Led.closed {latest : Option (Nat × UInt64)} {h h' : Holder T} (hled : Led latest h)
    (hreading : h'.reading = none) (hpending : h'.pendingConnection = h.pendingConnection)
    (hbacklog : h'.backlog = h.backlog) (hconnection : h'.connection = h.connection)
    (hepoch : h'.state.controllerEpoch = h.state.controllerEpoch)
    (hlost : ∀ c' installed epoch, h.reading = some (.pending, c') → c'.epoch = some epoch →
      h.connection = some installed → installed.epoch = some epoch →
      epoch = h.state.controllerEpoch → False) : Led latest h' where
  reading := fun _ _ _ hc => absurd hc (by rw [hreading]; simp)
  readingInstalled := fun _ hc => absurd hc (by rw [hreading]; simp)
  installed := by
    intro c hc
    rw [hconnection] at hc
    obtain ⟨epoch, hsome, hle, hlatest⟩ := hled.installed c hc
    rw [hepoch]
    refine ⟨epoch, hsome, hle, fun hcurrent => Or.inl ?_⟩
    rcases hlatest hcurrent with hlatest | ⟨c', hc', hepoch'⟩
    · exact hlatest
    · exact absurd hcurrent (hlost c' c epoch hc' hepoch' hc hsome)
  pending := by
    rw [hpending]
    exact hled.pending
  backlog := by
    rw [hbacklog]
    exact hled.backlog

theorem Led.dial {latest : Option (Nat × UInt64)} {h : Holder T} (hled : Led latest h) :
    Led latest h.dial where
  reading := hled.reading
  readingInstalled := hled.readingInstalled
  installed := hled.installed
  pending := hled.pending
  backlog := by
    intro c hc
    rcases List.mem_append.mp hc with hc | hc
    · exact hled.backlog c hc
    · rw [List.mem_singleton.mp hc]
      rfl

theorem Led.accept {latest : Option (Nat × UInt64)} {h : Holder T} (hled : Led latest h)
    (result : IoResult) : Led latest (settle (h.acceptConnection result)) := by
  have haccepted : Led latest (h.acceptConnection result).2 :=
    { reading := hled.reading
      readingInstalled := hled.readingInstalled
      installed := hled.installed
      pending := by
        intro c hc
        rcases Option.or_eq_some_iff.mp hc with hlast | ⟨-, hpending⟩
        · exact hled.backlog c (List.mem_of_getLast? hlast)
        · exact hled.pending c hpending
      backlog := fun c hc => absurd hc List.not_mem_nil }
  exact haccepted.keeps (keeps_settle (.refl _))

theorem Led.beginRead {latest : Option (Nat × UInt64)} {h : Holder T} (hled : Led latest h)
    (hreading : h.reading = none) (slot : Slot) : Led latest (h.beginRead slot) := by
  have hidle : ∀ c, h.connection = some c → ∃ epoch, c.epoch = some epoch ∧
      epoch ≤ h.state.controllerEpoch ∧
        (epoch = h.state.controllerEpoch → latest = some (c.id, epoch)) := by
    intro c hc
    obtain ⟨epoch, hsome, hle, hlatest⟩ := hled.installed c hc
    refine ⟨epoch, hsome, hle, fun hcurrent => ?_⟩
    rcases hlatest hcurrent with hlatest | ⟨c', hc', -⟩
    · exact hlatest
    · rw [hreading] at hc'
      cases hc'
  cases slot with
  | installed =>
    simp only [Holder.beginRead]
    cases hsome : h.connection with
    | none => exact hled
    | some c =>
      obtain ⟨epoch, hepoch, hle, hlatest⟩ := hidle c hsome
      refine ⟨?_, ?_, fun _ hc => absurd hc (by simp), hled.pending, hled.backlog⟩
      · intro slot c' epoch' hc' hepoch'
        cases hc'
        rw [Option.some.inj (hepoch'.symm.trans hepoch)]
        exact ⟨hle, hlatest⟩
      · intro c' hc'
        cases hc'
        exact ⟨rfl, by rw [hepoch]; simp⟩
  | pending =>
    simp only [Holder.beginRead]
    cases hsome : h.pendingConnection with
    | none => exact hled
    | some c =>
      refine ⟨?_, fun _ hc => absurd hc (by simp), ?_, fun _ hc => absurd hc (by simp),
        hled.backlog⟩
      · intro slot c' epoch hc' hepoch
        cases hc'
        rw [hled.pending c hsome] at hepoch
        cases hepoch
      · intro c' hc'
        obtain ⟨epoch, hepoch, hle, hlatest⟩ := hidle c' hc'
        exact ⟨epoch, hepoch, hle, fun hcurrent => Or.inl (hlatest hcurrent)⟩

theorem Led.putBack {latest : Option (Nat × UInt64)} {h : Holder T} (hled : Led latest h)
    {slot : Slot} {c : Connection} (hreading : h.reading = some (slot, c))
    (writes : List (Except IoError Nat)) :
    Led latest (h.stopReading.putBack P slot c writes) := by
  have hback : ∀ sockets, c.epoch ≠ none →
      Led latest { h.stopReading with connection := some c, sockets } := by
    intro sockets hepoch
    refine ⟨fun _ _ _ hc => absurd hc (by simp [stopReading]),
      fun _ hc => absurd hc (by simp [stopReading]), ?_, hled.pending, hled.backlog⟩
    intro c' hc'
    cases hc'
    obtain ⟨epoch, hsome⟩ := Option.ne_none_iff_exists'.mp hepoch
    obtain ⟨hle, hlatest⟩ := hled.reading slot c epoch hreading hsome
    exact ⟨epoch, hsome, hle, fun hcurrent => Or.inl (hlatest hcurrent)⟩
  rcases h.stopReading.putBack_cases (P := P) slot c writes with
    ⟨rfl, heq⟩ | ⟨rfl, hepoch, heq⟩ | ⟨rfl, hepoch, heq⟩
  · rw [heq]
    exact hback h.sockets (hled.readingInstalled c hreading).2
  · rw [heq]
    have hclosed : Led latest h.stopReading := by
      refine hled.closed rfl rfl rfl rfl rfl ?_
      intro c' installed epoch hc' hepoch'
      rw [hreading] at hc'
      cases hc'
      rw [hepoch] at hepoch'
      cases hepoch'
    refine ⟨hclosed.reading, hclosed.readingInstalled, hclosed.installed, ?_, hclosed.backlog⟩
    intro c' hc'
    cases hc'
    exact hepoch
  · obtain ⟨sockets, -, -, hrevoked⟩ := h.stopReading.revokePrevious_eq (P := P) writes
    rw [heq, hrevoked]
    exact hback sockets hepoch

theorem Led.endRead {latest : Option (Nat × UInt64)} {h : Holder T} (hled : Led latest h)
    {ending : ReadEnd} {writes : List (Except IoError Nat)}
    (hlost : ending ≠ .wouldBlock → ∀ c' installed epoch, h.reading = some (.pending, c') →
      c'.epoch = some epoch → h.connection = some installed → installed.epoch = some epoch →
      epoch = h.state.controllerEpoch → False) :
    Led latest (h.endRead P ending writes) := by
  unfold Holder.endRead
  cases hreading : h.reading with
  | none => exact hled
  | some place =>
    rw [hreading] at hlost
    have hclosed : ∀ h' : Holder T, h'.reading = none →
        h'.pendingConnection = h.pendingConnection → h'.backlog = h.backlog →
        h'.connection = h.connection → h'.state.controllerEpoch = h.state.controllerEpoch →
        ending ≠ .wouldBlock → Led latest h' := by
      intro h' hnone hpending hbacklog hconnection hepoch hending
      refine hled.closed hnone hpending hbacklog hconnection hepoch ?_
      rw [hreading]
      exact hlost hending
    cases ending with
    | wouldBlock => exact hled.putBack hreading writes
    | eof => exact hclosed _ rfl rfl rfl rfl rfl (by simp)
    | failed => exact hclosed _ rfl rfl rfl rfl rfl (by simp)
    | invalidFrame e written => exact hclosed _ rfl rfl rfl rfl rfl (by simp)

theorem Led.reread {latest : Option (Nat × UInt64)} {h h' : Holder T} (hled : Led latest h)
    {slot : Slot} {c c' : Connection} (hreading : h.reading = some (slot, c))
    (hkeeps : Keeps h h') (hslot : h'.connection = h.connection) (hid : c'.id = c.id)
    (hepoch : c'.epoch = c.epoch) : Led latest { h' with reading := some (slot, c') } where
  reading := by
    intro slot₀ c₀ epoch hc₀ hsome
    cases hc₀
    show epoch ≤ h'.state.controllerEpoch ∧ (epoch = h'.state.controllerEpoch → _)
    rw [hid, hkeeps.epoch]
    exact hled.reading slot c epoch hreading (hepoch.symm.trans hsome)
  readingInstalled := by
    intro c₀ hc₀
    cases hc₀
    obtain ⟨hnone, hsome⟩ := hled.readingInstalled c hreading
    exact ⟨hslot.trans hnone, by rw [hepoch]; exact hsome⟩
  installed := by
    intro c₀ hc₀
    obtain ⟨epoch, hsome, hle, hlatest⟩ := hled.installed c₀ (hslot.symm.trans hc₀)
    refine ⟨epoch, hsome, ?_, ?_⟩
    · show epoch ≤ h'.state.controllerEpoch
      rw [hkeeps.epoch]
      exact hle
    · show epoch = h'.state.controllerEpoch → _
      rw [hkeeps.epoch]
      intro hcurrent
      rcases hlatest hcurrent with hlatest | ⟨c'', hc'', hepoch''⟩
      · exact Or.inl hlatest
      · rw [hreading] at hc''
        cases hc''
        exact Or.inr ⟨c', rfl, hepoch.trans hepoch''⟩
  pending := by
    show ∀ c, h'.pendingConnection = some c → c.epoch = none
    rw [hkeeps.pending]
    exact hled.pending
  backlog := by
    show ∀ c ∈ h'.backlog, c.epoch = none
    rw [hkeeps.backlog]
    exact hled.backlog

theorem Led.welcomed {latest : Option (Nat × UInt64)} {h : Holder T} (hled : Led latest h)
    {c c' : Connection} (hid : c'.id = c.id)
    (hepoch : c'.epoch = some h.advanceEpoch.state.controllerEpoch) :
    Led (some (c.id, h.advanceEpoch.state.controllerEpoch))
      { h.welcomed with reading := some (.pending, c') } where
  reading := by
    intro slot₀ c₀ epoch hc₀ hsome
    cases hc₀
    have hsame : epoch = h.advanceEpoch.state.controllerEpoch :=
      Option.some.inj (hsome.symm.trans hepoch)
    subst hsame
    rw [hid]
    exact ⟨UInt64.le_refl _, fun _ => rfl⟩
  readingInstalled := fun _ hc => absurd hc (by simp)
  installed := by
    intro c₀ hc₀
    obtain ⟨epoch, hsome, hle, -⟩ := hled.installed c₀ hc₀
    refine ⟨epoch, hsome, UInt64.le_trans hle (le_saturatingSucc _), ?_⟩
    rintro rfl
    exact Or.inr ⟨c', rfl, hepoch⟩
  pending := hled.pending
  backlog := hled.backlog

theorem Led.readMessage {latest : Option (Nat × UInt64)} {h : Holder T} (hled : Led latest h)
    {slot : Slot} {c : Connection} (hreading : h.reading = some (slot, c))
    {message : RemoteMessage} {calls : Calls} {after : Holder T}
    (hleases : Leases P ⟨h, .message message calls, (), after⟩)
    (hreads : Reads P h slot c message calls after) :
    Led ((handshakeOf ⟨h, .message message calls, (), after⟩).or latest) after := by
  have hfirst : c.epoch = none → slot = .pending := by
    intro hnone
    cases slot with
    | pending => rfl
    | installed => exact absurd hnone (hled.readingInstalled c hreading).2
  -- without an epoch the connection cannot share that of the installed one
  have hfresh : c.epoch = none → ∀ c' (installed : Connection) epoch,
      h.reading = some (.pending, c') → c'.epoch = some epoch →
      h.connection = some installed → installed.epoch = some epoch →
      epoch = h.state.controllerEpoch → False := by
    intro hnone c' installed epoch hc' hepoch
    rw [hreading] at hc'
    cases hc'
    rw [hnone] at hepoch
    cases hepoch
  cases hreads with
  | refused e hnone =>
    rw [handshakeOf_eq_none (Or.inr rfl)]
    exact hled.closed rfl rfl rfl rfl rfl (hfresh hnone)
  | welcomed hello replayed hmessage hnone hrefusal hcan hreplay =>
    obtain rfl := hfirst hnone
    have hshake : handshakeOf (⟨h, .message message calls, (), { h.welcomed with
        reading := some (.pending, (c.admitted h.advanceEpoch.state.controllerEpoch).push
          (h.greeting P replayed)) }⟩ : Step (Holder T) HolderEvent Unit)
        = some (c.id, h.advanceEpoch.state.controllerEpoch) := by
      unfold handshakeOf
      rw [hreading]
      simp [hnone, Connection.push, Connection.admitted]
    rw [hshake]
    exact hled.welcomed rfl rfl
  | unwelcome hello e h' c' hmessage hnone hrefusal hcannot hid hstate =>
    -- the epoch did not move, it was saturated
    have hsame : h.advanceEpoch.state.controllerEpoch = h.state.controllerEpoch := by
      by_contra hne
      exact hcannot (hleases.hello slot c hello calls hreading hnone
        (congrArg (HolderEvent.message · calls) hmessage) hrefusal hne)
    obtain ⟨hpending, hbacklog, hconnection, hepoch, -⟩ := unwelcome_frame hstate
    rw [handshakeOf_eq_none (Or.inr rfl)]
    exact hled.closed rfl hpending hbacklog hconnection (hepoch.trans hsame) (hfresh hnone)
  | handled epoch h' c' hepoch heffect =>
    obtain ⟨hkeeps, hslot, hid, hepoch'⟩ := keeps_effect heffect
    have hshake : handshakeOf (⟨h, .message message calls, (), { h' with
        reading := some (slot, c') }⟩ : Step (Holder T) HolderEvent Unit) = none := by
      unfold handshakeOf
      rw [hreading]
      simp [hepoch]
    rw [hshake]
    exact hled.reread hreading hkeeps hslot hid hepoch'
  | closed epoch e h' c' hepoch hrefused heffect =>
    obtain ⟨hkeeps, hslot, -, -⟩ := keeps_effect heffect
    rw [handshakeOf_eq_none (Or.inr rfl)]
    refine hled.closed rfl hkeeps.pending hkeeps.backlog hslot hkeeps.epoch ?_
    intro c'' installed epoch' hc'' hepoch'' hinstalled hsame hcurrent
    rw [hreading] at hc''
    cases hc''
    have haccepts := hleases.message c installed epoch' message calls hreading hepoch''
      hinstalled hsame rfl
    have heq : epoch = epoch' := Option.some.inj (hepoch.symm.trans hepoch'')
    rw [← heq] at haccepts hcurrent
    exact hrefused hcurrent haccepts

theorem Led.step {history : List (Step (Holder T) HolderEvent Unit)} {h : Holder T}
    (hled : Led (latestHandshake history) h) {event : HolderEvent}
    (hleases : Leases P (take (Holder.step P) h event)) :
    Led (latestHandshake (history ++ [take (Holder.step P) h event]))
      (Holder.step P h event).1 := by
  rw [latestHandshake_concat]
  have hx : take (Holder.step P) h event = ⟨h, event, (), (Holder.step P h event).1⟩ := rfl
  rw [hx] at hleases ⊢
  rcases h.step_cases (P := P) event with
    heq | ⟨-, heq⟩ | ⟨message, calls, rfl, heq⟩ | ⟨ending, writes, rfl, heq⟩ | ⟨hreading, heq⟩
  · rw [heq, handshakeOf_eq_none (Or.inl rfl)]
    exact hled
  · rw [heq, handshakeOf_eq_none (Or.inl rfl)]
    exact hled.dial
  · rw [heq] at hleases ⊢
    cases hreading : h.reading with
    | none =>
      have hidle : h.readMessage P message calls = h := by
        unfold Holder.readMessage
        rw [hreading]
      rw [hidle, handshakeOf_eq_none (Or.inl rfl)]
      exact hled
    | some place => exact hled.readMessage hreading hleases (readMessage_reads hreading _ _)
  · have hreading : (h.endRead P ending writes).reading = none := by
      unfold Holder.endRead
      cases hreading : h.reading with
      | none => exact hreading
      | some place =>
        dsimp only
        cases ending with
        | wouldBlock =>
          rcases h.stopReading.putBack_cases (P := P) place.1 place.2 writes with
            ⟨-, heq⟩ | ⟨-, -, heq⟩ | ⟨-, -, heq⟩
          · rw [heq]
            rfl
          · rw [heq]
            rfl
          · obtain ⟨sockets, -, -, hrevoked⟩ := h.stopReading.revokePrevious_eq (P := P) writes
            rw [heq, hrevoked]
            rfl
        | eof | failed | invalidFrame => rfl
    rw [heq, handshakeOf_eq_none (Or.inr hreading)]
    refine hled.endRead ?_
    intro hending c' installed epoch hc' hepoch hinstalled hsame _
    exact hending (hleases.ending c' installed epoch ending writes hc' hepoch hinstalled hsame rfl)
  · rw [heq]
    rcases h.between_cases (P := P) event with ⟨result, rfl⟩ | ⟨slot, rfl⟩ | hkeeps
    · have hsame : (h.between P (.accept result)).reading = h.reading :=
        (keeps_settle (.refl (h.acceptConnection result).2)).reading
      rw [handshakeOf_eq_none (Or.inl hsame)]
      exact hled.accept result
    · have hshake : handshakeOf (⟨h, .beginRead slot, (), h.between P (.beginRead slot)⟩ :
          Step (Holder T) HolderEvent Unit) = none := by
        unfold handshakeOf
        rw [hreading]
      rw [hshake]
      exact hled.beginRead hreading slot
    · rw [handshakeOf_eq_none (Or.inl hkeeps.reading)]
      exact hled.keeps hkeeps

/-! ### What takes effect -/

theorem handleControl_revoked {h : Holder T} {c : Connection} {epoch : UInt64}
    (hne : epoch ≠ h.state.controllerEpoch) (message : RemoteMessage) (calls : Calls) :
    ∃ e, h.handleControl P c epoch message calls = (.error e, h, c) := by
  unfold handleControl
  dsimp only
  rw [if_pos hne]
  exact ⟨_, rfl⟩

theorem handleControl_foreign {h : Holder T} {c : Connection} {epoch : UInt64} {signal : Signal}
    (hne : signal.controllerEpoch ≠ epoch) (calls : Calls) :
    ∃ e, h.handleControl P c epoch (.signal signal) calls = (.error e, h, c) := by
  unfold handleControl
  dsimp only
  split
  · exact ⟨_, rfl⟩
  · rw [if_pos (Or.inl hne)]
    exact ⟨_, rfl⟩

theorem readMessage_refused {h : Holder T} {slot : Slot} {c : Connection}
    (hreading : h.reading = some (slot, c)) {message : RemoteMessage} {calls : Calls}
    (hrefused : ∃ e, h.handleMessage P c message calls = (.error e, h, c)) :
    (h.readMessage P message calls).terminal = h.terminal := by
  obtain ⟨e, heq⟩ := hrefused
  unfold readMessage
  rw [hreading]
  dsimp only
  rw [heq]
  rfl

theorem current_of_effect {h : Holder T} {slot : Slot} {c : Connection}
    (hreading : h.reading = some (slot, c)) {message : RemoteMessage} {calls : Calls}
    (heffect : (h.readMessage P message calls).terminal ≠ h.terminal) :
    c.epoch = some h.state.controllerEpoch ∧
      ∀ signal, message = .signal signal → signal.controllerEpoch = h.state.controllerEpoch := by
  cases hepoch : c.epoch with
  | none =>
    exfalso
    apply heffect
    have hreads := h.readMessage_reads (P := P) hreading message calls
    generalize h.readMessage P message calls = after at hreads
    cases hreads with
    | refused => rfl
    | welcomed => rfl
    | unwelcome hello e h' c' _ _ _ _ _ hstate =>
      obtain ⟨-, -, -, -, -, hpty, hinput, -⟩ := unwelcome_frame hstate
      show h'.terminal = h.terminal
      unfold terminal
      rw [hpty, hinput]
    | handled epoch h' c' hsome =>
      rw [hepoch] at hsome
      cases hsome
    | closed epoch e h' c' hsome =>
      rw [hepoch] at hsome
      cases hsome
  | some epoch =>
    have hcontrol := h.handleMessage_control (P := P) hepoch message calls
    have hcurrent : epoch = h.state.controllerEpoch := by
      by_contra hne
      refine heffect (readMessage_refused hreading ?_)
      rw [hcontrol]
      exact handleControl_revoked hne message calls
    refine ⟨congrArg some hcurrent, ?_⟩
    rintro signal rfl
    by_contra hne
    refine heffect (readMessage_refused hreading ?_)
    rw [hcontrol]
    exact handleControl_foreign (by rw [hcurrent]; exact hne) calls

theorem effect_reads {h : Holder T} {message : RemoteMessage} {calls : Calls}
    (heffect : (Holder.step P h (.message message calls)).1.terminal ≠ h.terminal) :
    ∃ slot c, h.reading = some (slot, c) ∧ c.epoch = some h.state.controllerEpoch ∧
      ∀ signal, message = .signal signal → signal.controllerEpoch = h.state.controllerEpoch := by
  have hstep : (Holder.step P h (.message message calls)).1 = h ∨
      (Holder.step P h (.message message calls)).1 = h.readMessage P message calls := by
    unfold Holder.step
    split
    · exact Or.inl rfl
    · exact Or.inr rfl
  rcases hstep with heq | heq
  · rw [heq] at heffect
    exact absurd rfl heffect
  · rw [heq] at heffect
    cases hreading : h.reading with
    | none =>
      unfold readMessage at heffect
      rw [hreading] at heffect
      exact absurd rfl heffect
    | some place => exact ⟨place.1, place.2, rfl, current_of_effect hreading heffect⟩

theorem unadmitted_frame {latest : Option (Nat × UInt64)} {h : Holder T} (hled : Led latest h)
    {event : HolderEvent} (hleases : Leases P (take (Holder.step P) h event))
    (hunadmitted : Unadmitted (take (Holder.step P) h event)) :
    (Holder.step P h event).1.state.controllerEpoch = h.state.controllerEpoch ∧
      (Holder.step P h event).1.terminal = h.terminal ∧
      (Holder.step P h event).1.connection = h.connection := by
  have hx : take (Holder.step P) h event = ⟨h, event, (), (Holder.step P h event).1⟩ := rfl
  rw [hx] at hleases hunadmitted
  rcases h.step_cases (P := P) event with
    heq | ⟨-, heq⟩ | ⟨message, calls, rfl, heq⟩ | ⟨ending, writes, rfl, heq⟩ | ⟨hreading, heq⟩
  · rw [heq]
    exact ⟨rfl, rfl, rfl⟩
  · rw [heq]
    exact ⟨rfl, rfl, rfl⟩
  · rcases hunadmitted with habs | ⟨_, habs⟩ | habs | ⟨⟨slot, c, hreading, hnone⟩, hshake, -⟩
    · cases habs
    · cases habs
    · cases habs
    · rw [heq] at hleases hshake ⊢
      have hreads := h.readMessage_reads (P := P) hreading message calls
      generalize h.readMessage P message calls = after at hreads hshake hleases
      cases hreads with
      | refused => exact ⟨rfl, rfl, rfl⟩
      | welcomed =>
        unfold handshakeOf at hshake
        rw [hreading] at hshake
        simp [hnone, Connection.push, Connection.admitted] at hshake
      | unwelcome hello e h' c' hmessage _ hrefusal hcannot _ hstate =>
        have hsame : h.advanceEpoch.state.controllerEpoch = h.state.controllerEpoch := by
          by_contra hne
          exact hcannot (hleases.hello slot c hello calls hreading hnone
            (congrArg (HolderEvent.message · calls) hmessage) hrefusal hne)
        obtain ⟨-, -, hconnection, hepoch, -, hpty, hinput, -⟩ := unwelcome_frame hstate
        refine ⟨hepoch.trans hsame, ?_, hconnection⟩
        show h'.terminal = h.terminal
        unfold terminal
        rw [hpty, hinput]
      | handled epoch h' c' hsome =>
        rw [hnone] at hsome
        cases hsome
      | closed epoch e h' c' hsome =>
        rw [hnone] at hsome
        cases hsome
  · rcases hunadmitted with habs | ⟨_, habs⟩ | habs | ⟨⟨slot, c, hreading, hnone⟩, -, -⟩
    · cases habs
    · cases habs
    · cases habs
    · have hslot : slot = .pending := by
        cases slot with
        | pending => rfl
        | installed => exact absurd hnone (hled.readingInstalled c hreading).2
      subst hslot
      rw [heq]
      unfold Holder.endRead
      rw [hreading]
      cases ending with
      | wouldBlock =>
        rcases h.stopReading.putBack_cases (P := P) .pending c writes with
          ⟨habs, -⟩ | ⟨-, -, hput⟩ | ⟨-, hsome, -⟩
        · cases habs
        · dsimp only
          rw [hput]
          exact ⟨rfl, rfl, rfl⟩
        · exact absurd hnone hsome
      | eof | failed | invalidFrame => exact ⟨rfl, rfl, rfl⟩
  · rw [heq]
    rcases hunadmitted with rfl | ⟨result, rfl⟩ | rfl | ⟨⟨_, _, hsome, _⟩, _⟩
    · exact ⟨rfl, rfl, rfl⟩
    · cases result with
      | ok => exact ⟨rfl, rfl, rfl⟩
      | error e => exact ⟨rfl, rfl, rfl⟩
    · simp only [between, Holder.beginRead]
      split
      · exact ⟨rfl, rfl, rfl⟩
      · exact ⟨rfl, rfl, rfl⟩
    · rw [hreading] at hsome
      cases hsome

/--
**Only the latest controller reaches the child.**

In every run in which each `Hello` past the checks that advances the epoch is answered in
full, a message that takes effect on the terminal arrived on the connection of the latest
successful handshake with its epoch, and a signal names that epoch; and a step of a
connection that has not completed its handshake changes neither the controller epoch, nor
the terminal, nor the installed controller and what is queued for it.
-/
theorem single_controller {sessionId incarnation : String} {pid : UInt32} {cols rows : UInt16}
    {events : List HolderEvent}
    (hleases : ∀ x ∈ trace (Holder.step P) (new P sessionId incarnation pid cols rows) events,
      Leases P x)
    {front back : List (Step (Holder T) HolderEvent Unit)} {x : Step (Holder T) HolderEvent Unit}
    (hsplit : trace (Holder.step P) (new P sessionId incarnation pid cols rows) events
      = front ++ x :: back) :
    (∀ message calls, x.event = .message message calls → x.after.terminal ≠ x.before.terminal →
      ∃ slot c epoch, x.before.reading = some (slot, c) ∧ c.epoch = some epoch ∧
        latestHandshake front = some (c.id, epoch) ∧
        ∀ signal, message = .signal signal → signal.controllerEpoch = epoch) ∧
    (Unadmitted x → x.after.state.controllerEpoch = x.before.state.controllerEpoch ∧
      x.after.terminal = x.before.terminal ∧ x.after.connection = x.before.connection) := by
  obtain ⟨earlier, event, later, rfl, rfl, -⟩ := trace_split (Holder.step P) hsplit
  have hled := trace_invariant_where (Holder.step P)
    (P := fun history h => Led (latestHandshake history) h)
    (fun y hy => hleases y (by rw [hsplit]; exact List.mem_append_left _ hy))
    (led_new sessionId incarnation pid cols rows)
    (fun _ _ _ hstep hled => hled.step hstep)
  refine ⟨?_, unadmitted_frame hled (hleases _ (by rw [hsplit]; simp))⟩
  rintro message calls rfl heffect
  obtain ⟨slot, c, hreading, hcurrent, hsignal⟩ := effect_reads heffect
  obtain ⟨-, hlatest⟩ := hled.reading slot c _ hreading hcurrent
  exact ⟨slot, c, _, hreading, hcurrent, hlatest rfl, hsignal⟩

set_option maxRecDepth 60000

/-- A controller attaches and is about to be read. -/
def attached : List HolderEvent := attach .quiet [] ++ [.beginRead .installed]

/-- A key pressed at the controller. -/
def keyPress : HolderEvent := .message (.terminal ⟨.input, [0x61]⟩) .quiet

/-- A key of the controller reaches the terminal. -/
theorem single_controller_key_press :
    ∃ slot c epoch,
      (run (Holder.step LineTerm.platform) sample attached).reading = some (slot, c) ∧
      c.epoch = some epoch ∧
      latestHandshake (trace (Holder.step LineTerm.platform) sample attached)
        = some (c.id, epoch) := by
  have hleases : ∀ x ∈ trace (Holder.step LineTerm.platform) sample (attached ++ [keyPress]),
      Leases LineTerm.platform x := by
    intro x hx
    obtain ⟨k, hget, hbefore⟩ := before_of_mem_trace _ hx
    have hk : k < 7 := (List.getElem?_eq_some_iff.mp hget).1
    have hmessages : ∀ message calls, x.event = .message message calls →
        (k = 3 ∧ message = .hello (sampleHello (some 0)) ∧ calls = .quiet) ∨
          (k = 6 ∧ message = .terminal ⟨.input, [0x61]⟩) := by
      intro message calls hevent
      rw [hevent] at hget
      interval_cases k <;> cases hget
      · exact Or.inl ⟨rfl, rfl, rfl⟩
      · exact Or.inr ⟨rfl, rfl⟩
    refine ⟨?_, ?_, ?_⟩
    · intro slot c hello calls _ _ hevent _ _
      rcases hmessages _ _ hevent with ⟨rfl, hhello, rfl⟩ | ⟨-, habs⟩
      · cases hhello
        rw [hbefore]
        exact sample_canWelcome (Or.inl rfl)
      · cases habs
    · -- no admitted connection is read out of the pending slot
      intro c installed epoch message calls hreading hepoch _ _ hevent
      have hplace : (run (Holder.step LineTerm.platform) sample
          ((attached ++ [keyPress]).take k)).reading.all
            (fun place => place.1 = .installed ∨ place.2.epoch = none) = true := by
        rcases hmessages _ _ hevent with ⟨rfl, -⟩ | ⟨rfl, -⟩ <;> with_unfolding_all decide
      rw [← hbefore, hreading, Option.all_some, hepoch] at hplace
      exact absurd hplace (by simp)
    · intro c installed epoch ending writes _ _ _ _ hevent
      rw [hevent] at hget
      interval_cases k <;> cases hget
      rfl
  have heffect : (Holder.step LineTerm.platform
      (run (Holder.step LineTerm.platform) sample attached) keyPress).1.terminal
        ≠ (run (Holder.step LineTerm.platform) sample attached).terminal := by
    with_unfolding_all decide
  obtain ⟨slot, c, epoch, hreading, hepoch, hlatest, -⟩ :=
    (single_controller hleases (trace_concat _ _ _ _)).1 _ _ rfl heffect
  exact ⟨slot, c, epoch, hreading, hepoch, hlatest⟩

/--
A `Hello` whose handshake fails at the state file: its connection is closed, but the
epoch has advanced.
-/
theorem failed_handshake_advances_epoch :
    ¬ ∀ (events : List HolderEvent) (front back : List (Step (Holder LineTerm) HolderEvent Unit))
      (x : Step (Holder LineTerm) HolderEvent Unit),
      trace (Holder.step LineTerm.platform) sample events = front ++ x :: back →
      Unadmitted x → x.after.state.controllerEpoch = x.before.state.controllerEpoch := by
  intro hall
  let before := run (Holder.step LineTerm.platform) sample ((takeover diskFull).take 8)
  let event : HolderEvent := .message (.hello (sampleHello (some 0))) diskFull
  have hplaces : before.reading.map (·.2.epoch) = some none ∧
      (Holder.step LineTerm.platform before event).1.reading = none ∧
      (Holder.step LineTerm.platform before event).1.state.controllerEpoch
        ≠ before.state.controllerEpoch := by
    with_unfolding_all decide
  obtain ⟨hfresh, hclosed, hepochs⟩ := hplaces
  obtain ⟨⟨slot, c⟩, hreading, hnone⟩ := Option.map_eq_some_iff.mp hfresh
  have hunadmitted : Unadmitted (take (Holder.step LineTerm.platform) before event) :=
    Or.inr (Or.inr (Or.inr ⟨⟨slot, c, hreading, hnone⟩, handshakeOf_eq_none (Or.inr hclosed),
      Or.inl ⟨_, _, rfl⟩⟩))
  exact hepochs (hall ((takeover diskFull).take 8 ++ [event]) _ [] _ (trace_concat _ _ _ _)
    hunadmitted)

end Holder

end Homie.Remote
