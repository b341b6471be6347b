/-
Connections, slots and sockets.

A connection waits in the backlog, is looked at in the pending slot, shakes hands while it
is read and is then installed.  Every connection has its own number and its own socket;
a handler moves connections between the slots or loses them, but the numbers stay
distinct, and only the connection in hand is written to.

Most handlers touch no slot but the installed one (`Keeps`).
-/
import Homie.Lib.Trace
import Homie.Proofs.HolderSteps

namespace Homie.Remote

open Trace

variable {T : Type} {P : Platform T}

namespace Holder

/-! ### Handlers that leave the epochs alone -/

/-- The epochs, the connections and the sockets. -/
def slots (h : Holder T) :=
  (h.state.controllerEpoch, h.stored.controllerEpoch, h.reading, h.pendingConnection, h.backlog,
    h.connection, h.dialed, h.sockets)

/-- Same epoch, same connections; the installed one may go and its buffer may change. -/
structure Keeps (h h' : Holder T) : Prop where
  epoch : h'.state.controllerEpoch = h.state.controllerEpoch
  stored : h'.stored.controllerEpoch = h.stored.controllerEpoch ∨
    h'.stored.controllerEpoch = h.state.controllerEpoch
  reading : h'.reading = h.reading
  pending : h'.pendingConnection = h.pendingConnection
  backlog : h'.backlog = h.backlog
  connection : ∀ c', h'.connection = some c' →
    ∃ c, h.connection = some c ∧ c'.id = c.id ∧ c'.epoch = c.epoch
  dialed : h'.dialed = h.dialed
  sockets : ∀ id, (∀ c, h.connection = some c → c.id ≠ id) → h'.sockets id = h.sockets id
  received : ∀ id, (h.sockets id).received <+: (h'.sockets id).received

theorem keeps_of_slots {h h' : Holder T} (hsame : h'.slots = h.slots) : Keeps h h' := by
  simp only [slots, Prod.mk.injEq] at hsame
  obtain ⟨hepoch, hstored, hreading, hpending, hbacklog, hconnection, hdialed, hsockets⟩ := hsame
  refine ⟨hepoch, Or.inl hstored, hreading, hpending, hbacklog, ?_, hdialed, ?_, ?_⟩
  · intro c hc
    exact ⟨c, hconnection.symm.trans hc, rfl, rfl⟩
  · intro id _
    rw [hsockets]
  · intro id
    rw [hsockets]

theorem Keeps.refl (h : Holder T) : Keeps h h :=
  keeps_of_slots rfl

theorem Keeps.trans {h h' h'' : Holder T} (first : Keeps h h') (second : Keeps h' h'') :
    Keeps h h'' := by
  refine ⟨second.epoch.trans first.epoch, ?_, second.reading.trans first.reading,
    second.pending.trans first.pending, second.backlog.trans first.backlog, ?_,
    second.dialed.trans first.dialed, ?_, fun id => (first.received id).trans (second.received id)⟩
  · rcases second.stored with hstored | hstored
    · rw [hstored]
      exact first.stored
    · exact Or.inr (hstored.trans first.epoch)
  · intro c'' hc''
    obtain ⟨c', hc', hid', hepoch'⟩ := second.connection c'' hc''
    obtain ⟨c, hc, hid, hepoch⟩ := first.connection c' hc'
    exact ⟨c, hc, hid'.trans hid, hepoch'.trans hepoch⟩
  · intro id hother
    refine (second.sockets id ?_).trans (first.sockets id hother)
    intro c' hc'
    obtain ⟨c, hc, hid, -⟩ := first.connection c' hc'
    rw [hid]
    exact hother c hc

theorem keeps_settle {h : Holder T} {r : IoResult × Holder T} (hkeeps : Keeps h r.2) :
    Keeps h (settle r) := by
  obtain ⟨result, h'⟩ := r
  cases result with
  | ok => exact hkeeps
  | error e => exact hkeeps.trans (keeps_of_slots rfl)

theorem keeps_queued {h : Holder T} {message : RemoteMessage} {r : IoResult × Holder T}
    (hqueued : Queued P h message r) : Keeps h r.2 := by
  have hgone : ∀ c' : Connection, (none : Option Connection) = some c' →
      ∃ c, h.connection = some c ∧ c'.id = c.id ∧ c'.epoch = c.epoch :=
    fun c' hc' => absurd hc' (by simp)
  cases hqueued with
  | absent => exact .refl h
  | lost => exact ⟨rfl, Or.inl rfl, rfl, rfl, rfl, hgone, rfl, fun _ _ => rfl, fun _ => List.prefix_rfl⟩
  | appended c hsome =>
    refine ⟨rfl, Or.inl rfl, rfl, rfl, rfl, fun c' hc' => ⟨c, hsome, ?_⟩, rfl, fun _ _ => rfl,
      fun _ => List.prefix_rfl⟩
    cases hc'
    exact ⟨rfl, rfl⟩
  | halfReseeded e h' c hsome heq =>
    rcases heq with rfl | rfl
    · exact ⟨rfl, Or.inl rfl, rfl, rfl, rfl, hgone, rfl, fun _ _ => rfl, fun _ => List.prefix_rfl⟩
    · exact ⟨rfl, Or.inl rfl, rfl, rfl, rfl, hgone, rfl, fun _ _ => rfl, fun _ => List.prefix_rfl⟩
  | reseeded c hsome =>
    refine ⟨rfl, Or.inl rfl, rfl, rfl, rfl, fun c' hc' => ⟨c, hsome, ?_⟩, rfl, fun _ _ => rfl,
      fun _ => List.prefix_rfl⟩
    cases hc'
    exact ⟨rfl, rfl⟩

theorem keeps_writeState (h : Holder T) (result : IoResult) :
    Keeps h (h.writeState result).2 := by
  cases result with
  | ok =>
    exact ⟨rfl, Or.inr rfl, rfl, rfl, rfl, fun c hc => ⟨c, hc, rfl, rfl⟩, rfl, fun _ _ => rfl,
      fun _ => List.prefix_rfl⟩
  | error e => exact .refl h

theorem keeps_persist (h : Holder T) (result : IoResult) : Keeps h (h.persist result).2 := by
  unfold persist
  split
  · cases result with
    | ok =>
      exact ⟨rfl, Or.inr rfl, rfl, rfl, rfl, fun c hc => ⟨c, hc, rfl, rfl⟩, rfl, fun _ _ => rfl,
        fun _ => List.prefix_rfl⟩
    | error e => exact .refl h
  · exact .refl h

theorem keeps_drainChunk (h : Holder T) (bytes : List UInt8) (append write : IoResult) :
    Keeps h (h.drainChunk P bytes append write).2 := by
  have hfed : Keeps h (h.fed P bytes) :=
    keeps_of_slots rfl
  rcases h.drainChunk_cases (P := P) bytes append write with ⟨e, heq⟩ | ⟨r, hr, hlast⟩
  · rw [heq]
    exact .refl h
  · have hqueued : Keeps h r.2 := by
      rcases hr with ⟨-, hqueued⟩ | ⟨-, rfl⟩
      · exact hfed.trans (keeps_queued hqueued)
      · exact hfed
    rcases hlast with ⟨e, heq⟩ | heq
    · rw [heq]
      exact hqueued
    · rw [heq]
      exact hqueued.trans (keeps_persist _ _)

theorem keeps_drainPty (h : Holder T) (read : PtyRead) (append write : IoResult) :
    Keeps h (h.drainPty P read append write).2 := by
  unfold drainPty
  split
  · exact .refl h
  · cases read with
    | bytes chunk => exact h.keeps_drainChunk chunk append write
    | eof => exact keeps_of_slots rfl
    | failed e => exact .refl h

theorem keeps_flushInput (h : Holder T) (writes : List (Except IoError Nat)) :
    Keeps h (h.flushInput writes).2 := by
  obtain ⟨written, pendingInput, -, heq⟩ := h.flushInput_eq writes
  rw [heq]
  exact keeps_of_slots rfl

theorem keeps_recordExit (h : Holder T) (finish : IoResult) (exit : Except IoError Exit)
    (flush write : IoResult) : Keeps h (h.recordExit P finish exit flush write).2 := by
  unfold recordExit
  split
  · exact .refl h
  · split
    · exact .refl h
    · exact .refl h
    · rename_i exit
      have hexited : Keeps h (h.exited exit.report) :=
        keeps_of_slots rfl
      dsimp only
      cases flush with
      | error e => exact hexited
      | ok =>
        cases write with
        | error e => exact hexited
        | ok =>
          simp only [writeState]
          have hwritten : Keeps h { h.exited exit.report with
              stored := (h.exited exit.report).state } :=
            hexited.trans (keeps_writeState _ (.ok ()))
          exact hwritten.trans (keeps_queued (queue_queued _ _))

theorem keeps_emitGridDelta (h : Holder T) : Keeps h (h.emitGridDelta P).2 := by
  unfold emitGridDelta
  dsimp only
  split
  · exact keeps_of_slots rfl
  · refine Keeps.trans ?_ (keeps_queued (queue_queued _ _))
    exact keeps_of_slots rfl

theorem keeps_flushConnection (h : Holder T) (writes : List (Except IoError Nat)) :
    Keeps h (h.flushConnection P writes).2 := by
  unfold flushConnection
  cases hsome : h.connection with
  | none => exact .refl h
  | some c =>
    obtain ⟨hid, hepoch⟩ := c.flush_frame (P := P) (h.sockets c.id) writes
    have hreceived := c.flush_received (P := P) (h.sockets c.id) writes
    dsimp only
    generalize c.flush P (h.sockets c.id) writes = r at hid hepoch hreceived
    obtain ⟨result, c', socket⟩ := r
    dsimp only at hid hepoch hreceived ⊢
    have hother : ∀ id, (∀ c₀, h.connection = some c₀ → c₀.id ≠ id) →
        (h.setSocket c'.id socket).sockets id = h.sockets id := by
      intro id hne
      refine if_neg fun heq => hne c hsome ?_
      rw [← hid, heq]
    have hmore : ∀ id, (h.sockets id).received
        <+: ((h.setSocket c'.id socket).sockets id).received := by
      refine setSocket_received ?_
      rw [hid]
      exact hreceived
    have hwritten : Keeps h { h.setSocket c'.id socket with connection := some c' } := by
      refine ⟨rfl, Or.inl rfl, rfl, rfl, rfl, fun c₀ hc₀ => ⟨c, hsome, ?_⟩, rfl, hother, hmore⟩
      cases hc₀
      exact ⟨hid, hepoch⟩
    cases result with
    | ok => exact hwritten
    | error e =>
      dsimp only
      split
      · exact ⟨rfl, Or.inl rfl, rfl, rfl, rfl, fun c₀ hc₀ => absurd hc₀ (by simp), rfl, hother,
          hmore⟩
      · exact hwritten

theorem between_cases (h : Holder T) (event : HolderEvent) :
    (∃ result, event = .accept result) ∨ (∃ slot, event = .beginRead slot) ∨
      Keeps h (h.between P event) := by
  cases event with
  | accept result => exact Or.inl ⟨result, rfl⟩
  | beginRead slot => exact Or.inr (Or.inl ⟨slot, rfl⟩)
  | dial | message | endRead => exact Or.inr (Or.inr (.refl h))
  | drain read append write =>
    exact Or.inr (Or.inr (keeps_settle (h.keeps_drainPty read append write)))
  | flushInput writes => exact Or.inr (Or.inr (keeps_settle (h.keeps_flushInput writes)))
  | recordExit finish exit flush write =>
    exact Or.inr (Or.inr (keeps_settle (h.keeps_recordExit finish exit flush write)))
  | guardExit status =>
    exact Or.inr (Or.inr (keeps_of_slots rfl))
  | flushConnection writes =>
    exact Or.inr (Or.inr (keeps_settle (h.keeps_flushConnection writes)))
  | emit due =>
    refine Or.inr (Or.inr ?_)
    simp only [between]
    split
    · exact keeps_settle h.keeps_emitGridDelta
    · exact .refl h

/-! ### Reading -/

theorem keeps_effect {h : Holder T} {c : Connection} {r : Handled T} (heffect : Effect P h c r) :
    Keeps h r.2.1 ∧ r.2.1.connection = h.connection ∧ r.2.2.id = c.id ∧
      r.2.2.epoch = c.epoch := by
  cases heffect with
  | typed => exact ⟨keeps_of_slots rfl, rfl, rfl, rfl⟩
  | replied => exact ⟨.refl h, rfl, rfl, rfl⟩
  | halfResized e cols rows stored hstored =>
    refine ⟨⟨rfl, ?_, rfl, rfl, rfl, fun c hc => ⟨c, hc, rfl, rfl⟩, rfl, fun _ _ => rfl,
      fun _ => List.prefix_rfl⟩, rfl, rfl, rfl⟩
    rcases hstored with rfl | rfl
    · exact Or.inl rfl
    · exact Or.inr rfl
  | resized =>
    exact ⟨⟨rfl, Or.inr rfl, rfl, rfl, rfl, fun c hc => ⟨c, hc, rfl, rfl⟩, rfl, fun _ _ => rfl,
      fun _ => List.prefix_rfl⟩, rfl, rfl, rfl⟩

theorem effect_sockets {h : Holder T} {c : Connection} {r : Handled T}
    (heffect : Effect P h c r) : r.2.1.sockets = h.sockets := by
  cases heffect <;> rfl

/-! ### Every connection -/

/-- The connections of a Holder, in any slot. -/
def connections (h : Holder T) : List Connection :=
  h.connection.toList ++ ((h.reading.map (·.2)).toList ++ (h.pendingConnection.toList ++ h.backlog))

def ids (h : Holder T) : List Nat := h.connections.map (·.id)

theorem mem_connections {h : Holder T} {c : Connection} :
    c ∈ h.connections ↔ h.connection = some c ∨ (∃ slot, h.reading = some (slot, c)) ∨
      h.pendingConnection = some c ∨ c ∈ h.backlog := by
  unfold connections
  simp only [List.mem_append, Option.mem_toList, Option.map_eq_some_iff, Prod.exists,
    exists_eq_right]

/--
The invariant of the slots: distinct numbers, sockets that nobody has dialed are fresh,
and a connection has an epoch exactly from its handshake on.
-/
structure Wired (h : Holder T) : Prop where
  nodup : h.ids.Nodup
  bound : ∀ id ∈ h.ids, id < h.dialed
  fresh : ∀ id, h.dialed ≤ id → h.sockets id = .fresh
  installed : ∀ c, h.connection = some c → c.epoch ≠ none
  readingInstalled : ∀ c, h.reading = some (.installed, c) → h.connection = none ∧ c.epoch ≠ none
  pending : ∀ c, h.pendingConnection = some c → c.epoch = none
  backlog : ∀ c ∈ h.backlog, c.epoch = none

theorem wired_new (sessionId incarnation : String) (pid : UInt32) (cols rows : UInt16) :
    (new P sessionId incarnation pid cols rows : Holder T).Wired where
  nodup := List.nodup_nil
  bound := fun _ hid => absurd hid List.not_mem_nil
  fresh := fun _ _ => rfl
  installed := fun _ hc => absurd hc (by simp [new])
  readingInstalled := fun _ hc => absurd hc (by simp [new])
  pending := fun _ hc => absurd hc (by simp [new])
  backlog := fun _ hc => absurd hc (by simp [new])

/-- Handlers lose connections and write to those they have; a number is never reused. -/
theorem Wired.of_sublist {h h' : Holder T} (hwired : h.Wired) (hids : h'.ids.Sublist h.ids)
    (hdialed : h'.dialed = h.dialed) (hsockets : ∀ id, id ∉ h.ids → h'.sockets id = h.sockets id)
    (hinstalled : ∀ c, h'.connection = some c → c.epoch ≠ none)
    (hreading : ∀ c, h'.reading = some (.installed, c) → h'.connection = none ∧ c.epoch ≠ none)
    (hpending : ∀ c, h'.pendingConnection = some c → c.epoch = none)
    (hbacklog : ∀ c ∈ h'.backlog, c.epoch = none) : h'.Wired where
  nodup := hwired.nodup.sublist hids
  bound := by
    intro id hid
    rw [hdialed]
    exact hwired.bound id (hids.subset hid)
  fresh := by
    intro id hle
    rw [hdialed] at hle
    rw [hsockets id fun hid => absurd (hwired.bound id hid) (by omega)]
    exact hwired.fresh id hle
  installed := hinstalled
  readingInstalled := hreading
  pending := hpending
  backlog := hbacklog

theorem Wired.reading_ne {h : Holder T} (hwired : h.Wired) {slot : Slot} {c : Connection}
    (hreading : h.reading = some (slot, c)) {c' : Connection}
    (hc' : h.connection = some c' ∨ h.pendingConnection = some c' ∨ c' ∈ h.backlog) :
    c'.id ≠ c.id := by
  have hnodup := hwired.nodup
  unfold ids connections at hnodup
  rw [hreading, Option.map_some, Option.toList_some, List.singleton_append, List.map_append,
    List.map_cons, List.nodup_append] at hnodup
  obtain ⟨-, hrest, hapart⟩ := hnodup
  rcases hc' with hc' | hc'
  · exact hapart c'.id (by simp [hc']) c.id List.mem_cons_self
  · intro heq
    refine (List.nodup_cons.mp hrest).1 ?_
    rw [← heq]
    refine List.mem_map_of_mem ?_
    simpa [List.mem_append, Option.mem_toList] using hc'

theorem Wired.installed_ne {h : Holder T} (hwired : h.Wired) {c : Connection}
    (hconnection : h.connection = some c) {c' : Connection}
    (hc' : (∃ slot, h.reading = some (slot, c')) ∨ h.pendingConnection = some c' ∨
      c' ∈ h.backlog) : c'.id ≠ c.id := by
  have hnodup := hwired.nodup
  unfold ids connections at hnodup
  rw [hconnection, Option.toList_some, List.singleton_append, List.map_cons] at hnodup
  intro heq
  refine (List.nodup_cons.mp hnodup).1 ?_
  rw [← heq]
  refine List.mem_map_of_mem ?_
  simpa [List.mem_append, Option.mem_toList] using hc'

theorem Wired.keeps {h h' : Holder T} (hwired : h.Wired) (hkeeps : Keeps h h') : h'.Wired := by
  refine hwired.of_sublist ?_ hkeeps.dialed ?_ ?_ ?_ ?_ ?_
  · simp only [ids, connections, hkeeps.reading, hkeeps.pending, hkeeps.backlog, List.map_append]
    refine List.Sublist.append ?_ (List.Sublist.refl _)
    cases hc' : h'.connection with
    | none => exact List.nil_sublist _
    | some c' =>
      obtain ⟨c, hc, hid, -⟩ := hkeeps.connection c' hc'
      simp [hc, hid]
  · intro id hid
    refine hkeeps.sockets id fun c hc heq => hid ?_
    rw [← heq]
    exact List.mem_map_of_mem (mem_connections.mpr (Or.inl hc))
  · intro c' hc'
    obtain ⟨c, hc, -, hepoch⟩ := hkeeps.connection c' hc'
    rw [hepoch]
    exact hwired.installed c hc
  · intro c hc
    rw [hkeeps.reading] at hc
    obtain ⟨hnone, hepoch⟩ := hwired.readingInstalled c hc
    refine ⟨?_, hepoch⟩
    cases hc' : h'.connection with
    | none => rfl
    | some c' =>
      obtain ⟨c, hsome, -⟩ := hkeeps.connection c' hc'
      rw [hnone] at hsome
      cases hsome
  · rw [hkeeps.pending]
    exact hwired.pending
  · rw [hkeeps.backlog]
    exact hwired.backlog

theorem Wired.dial {h : Holder T} (hwired : h.Wired) : h.dial.Wired := by
  have hids : h.dial.ids = h.ids ++ [h.dialed] := by
    simp [ids, connections, Holder.dial, Connection.new]
  refine ⟨?_, ?_, ?_, hwired.installed, hwired.readingInstalled, hwired.pending, ?_⟩
  · rw [hids]
    refine List.nodup_append.mpr ⟨hwired.nodup, List.pairwise_singleton _ _, ?_⟩
    intro id hid other hother
    rw [List.mem_singleton.mp hother]
    exact Nat.ne_of_lt (hwired.bound id hid)
  · intro id hid
    rw [hids] at hid
    show id < h.dialed + 1
    rcases List.mem_append.mp hid with hid | hid
    · exact Nat.lt_succ_of_lt (hwired.bound id hid)
    · rw [List.mem_singleton.mp hid]
      exact Nat.lt_succ_self _
  · intro id hle
    exact hwired.fresh id (Nat.le_of_succ_le hle)
  · intro c hc
    rcases List.mem_append.mp hc with hc | hc
    · exact hwired.backlog c hc
    · rw [List.mem_singleton.mp hc]
      rfl

theorem Wired.accept {h : Holder T} (hwired : h.Wired) (result : IoResult) :
    (settle (h.acceptConnection result)).Wired := by
  have haccepted : (h.acceptConnection result).2.Wired := by
    refine hwired.of_sublist ?_ rfl (fun _ _ => rfl) hwired.installed hwired.readingInstalled ?_
      (fun c hc => absurd hc List.not_mem_nil)
    · simp only [ids, connections, acceptConnection, List.map_append, List.append_nil]
      refine List.Sublist.append_left (List.Sublist.append_left ?_ _) _
      cases hlast : h.backlog.getLast? with
      | none =>
        rw [Option.none_or]
        exact List.sublist_append_left _ _
      | some c =>
        rw [Option.some_or]
        refine List.Sublist.trans ?_ (List.sublist_append_right _ _)
        exact (List.singleton_sublist.mpr (List.mem_of_getLast? hlast)).map _
    · intro c hc
      rcases Option.or_eq_some_iff.mp hc with hlast | ⟨-, hpending⟩
      · exact hwired.backlog c (List.mem_of_getLast? hlast)
      · exact hwired.pending c hpending
  exact haccepted.keeps (keeps_settle (.refl _))

theorem Wired.beginRead {h : Holder T} (hwired : h.Wired) (hreading : h.reading = none)
    (slot : Slot) : (h.beginRead slot).Wired := by
  cases slot with
  | installed =>
    simp only [Holder.beginRead]
    cases hsome : h.connection with
    | none => exact hwired
    | some c =>
      refine hwired.of_sublist ?_ rfl (fun _ _ => rfl) (fun _ hc => absurd hc (by simp)) ?_
        hwired.pending hwired.backlog
      · simp [ids, connections, hsome, hreading]
      · intro c' hc'
        cases hc'
        exact ⟨rfl, hwired.installed c hsome⟩
  | pending =>
    simp only [Holder.beginRead]
    cases hsome : h.pendingConnection with
    | none => exact hwired
    | some c =>
      refine hwired.of_sublist ?_ rfl (fun _ _ => rfl) hwired.installed
        (fun _ hc => absurd hc (by simp)) (fun _ hc => absurd hc (by simp)) hwired.backlog
      simp [ids, connections, hsome, hreading]

theorem Wired.released {h h' : Holder T} (hwired : h.Wired) {slot : Slot} {c : Connection}
    (hreading : h.reading = some (slot, c)) (hconnection : h'.connection = h.connection)
    (hpending : h'.pendingConnection = h.pendingConnection) (hbacklog : h'.backlog = h.backlog)
    (hdone : h'.reading = none) (hdialed : h'.dialed = h.dialed)
    (hsockets : ∀ id, id ≠ c.id → h'.sockets id = h.sockets id) : h'.Wired := by
  refine hwired.of_sublist ?_ hdialed ?_ ?_ ?_ ?_ ?_
  · simp only [ids, connections, hconnection, hpending, hbacklog, hdone, Option.map_none,
      Option.toList_none, List.nil_append, List.map_append]
    exact List.Sublist.append_left (List.sublist_append_right _ _) _
  · intro id hid
    refine hsockets id fun heq => hid ?_
    rw [heq]
    exact List.mem_map_of_mem (mem_connections.mpr (Or.inr (Or.inl ⟨slot, hreading⟩)))
  · rw [hconnection]
    exact hwired.installed
  · intro c' hc'
    rw [hdone] at hc'
    cases hc'
  · rw [hpending]
    exact hwired.pending
  · rw [hbacklog]
    exact hwired.backlog

theorem closeReading_sockets (h : Holder T) (c : Connection) (code message : String)
    (written : Bool) {id : Nat} (hne : id ≠ c.id) :
    (h.closeReading P c code message written).sockets id = h.sockets id :=
  if_neg hne

theorem Wired.reread {h : Holder T} (hwired : h.Wired) (h' : Holder T) {slot : Slot}
    {c c' : Connection} (hreading : h.reading = some (slot, c)) (hconnection : h'.connection = h.connection)
    (hpending : h'.pendingConnection = h.pendingConnection) (hbacklog : h'.backlog = h.backlog)
    (hdialed : h'.dialed = h.dialed) (hsockets : h'.sockets = h.sockets) (hid : c'.id = c.id)
    (hepoch : c.epoch ≠ none → c'.epoch ≠ none) :
    { h' with reading := some (slot, c') }.Wired := by
  refine hwired.of_sublist ?_ hdialed (fun id _ => congrFun hsockets id) ?_ ?_ ?_ ?_
  · simp [ids, connections, hconnection, hpending, hbacklog, hreading, hid]
  · intro c₀ hc₀
    exact hwired.installed c₀ (hconnection.symm.trans hc₀)
  · intro c₀ hc₀
    cases hc₀
    obtain ⟨hnone, hsome⟩ := hwired.readingInstalled c hreading
    exact ⟨hconnection.trans hnone, hepoch hsome⟩
  · intro c₀ hc₀
    exact hwired.pending c₀ (hpending.symm.trans hc₀)
  · intro c₀ hc₀
    exact hwired.backlog c₀ (hbacklog ▸ hc₀)

theorem Wired.readMessage {h : Holder T} (hwired : h.Wired) (message : RemoteMessage)
    (calls : Calls) : (h.readMessage P message calls).Wired := by
  cases hreading : h.reading with
  | none =>
    unfold Holder.readMessage
    rw [hreading]
    exact hwired
  | some place =>
    obtain ⟨slot, c⟩ := place
    have hreads := h.readMessage_reads (P := P) hreading message calls
    generalize h.readMessage P message calls = after at hreads
    cases hreads with
    | refused e hnone =>
      refine hwired.released hreading rfl rfl rfl rfl rfl ?_
      exact fun id hne => closeReading_sockets _ _ _ _ _ hne
    | welcomed hello replayed hmessage hnone hrefusal hcan hreplay =>
      exact hwired.reread h.welcomed hreading rfl rfl rfl rfl rfl rfl
        (fun hsome => absurd hnone hsome)
    | unwelcome hello e h' c' hmessage hnone hrefusal hcannot hid hstate =>
      obtain ⟨hpending, hbacklog, hconnection, -, -, -, -, hdialed, hsockets⟩ :=
        unwelcome_frame hstate
      refine hwired.released hreading hconnection hpending hbacklog rfl hdialed ?_
      intro id hne
      rw [closeReading_sockets _ _ _ _ _ (by rw [hid]; exact hne), hsockets]
    | handled epoch h' c' hepoch heffect =>
      obtain ⟨hkeeps, hslot, hid, hepoch'⟩ := keeps_effect heffect
      refine hwired.reread h' hreading hslot hkeeps.pending hkeeps.backlog hkeeps.dialed
        (effect_sockets heffect) hid ?_
      intro hsome
      rw [hepoch']
      exact hsome
    | closed epoch e h' c' hepoch hrefused heffect =>
      obtain ⟨hkeeps, hslot, hid, -⟩ := keeps_effect heffect
      refine hwired.released hreading hslot hkeeps.pending hkeeps.backlog rfl hkeeps.dialed ?_
      intro id hne
      have hsockets : h'.sockets = h.sockets := effect_sockets heffect
      have hid' : c'.id = c.id := hid
      rw [closeReading_sockets _ _ _ _ _ (by rw [hid']; exact hne), hsockets]

theorem Wired.putBack {h : Holder T} (hwired : h.Wired) {slot : Slot} {c : Connection}
    (hreading : h.reading = some (slot, c)) (writes : List (Except IoError Nat)) :
    (h.stopReading.putBack P slot c writes).Wired := by
  rcases h.stopReading.putBack_cases (P := P) slot c writes with
    ⟨rfl, heq⟩ | ⟨rfl, hepoch, heq⟩ | ⟨rfl, hepoch, heq⟩
  · obtain ⟨hnone, hsome⟩ := hwired.readingInstalled c hreading
    rw [heq]
    refine hwired.of_sublist ?_ rfl (fun _ _ => rfl) ?_ (fun _ hc => absurd hc (by simp [stopReading]))
      hwired.pending hwired.backlog
    · simp [ids, connections, stopReading, hnone, hreading]
    · intro c' hc'
      cases hc'
      exact hsome
  · rw [heq]
    refine hwired.of_sublist ?_ rfl (fun _ _ => rfl) hwired.installed
      (fun _ hc => absurd hc (by simp [stopReading])) ?_ hwired.backlog
    · simp [ids, connections, stopReading, hreading]
    · intro c' hc'
      cases hc'
      exact hepoch
  · obtain ⟨sockets, hsockets, -, hrevoked⟩ := h.stopReading.revokePrevious_eq (P := P) writes
    rw [heq, hrevoked]
    refine hwired.of_sublist ?_ rfl ?_ ?_ (fun _ hc => absurd hc (by simp [stopReading]))
      hwired.pending hwired.backlog
    · simp only [ids, connections, stopReading, hreading, List.map_append, Option.map_none,
        Option.map_some, Option.toList_none, List.nil_append]
      exact List.sublist_append_right _ _
    · intro id hid
      refine hsockets id fun c' hc' heq => hid ?_
      rw [← heq]
      exact List.mem_map_of_mem (mem_connections.mpr (Or.inl hc'))
    · intro c' hc'
      cases hc'
      exact hepoch

theorem Wired.endRead {h : Holder T} (hwired : h.Wired) (ending : ReadEnd)
    (writes : List (Except IoError Nat)) : (h.endRead P ending writes).Wired := by
  unfold Holder.endRead
  cases hreading : h.reading with
  | none => exact hwired
  | some place =>
    obtain ⟨slot, c⟩ := place
    cases ending with
    | wouldBlock => exact hwired.putBack hreading writes
    | eof => exact hwired.released hreading rfl rfl rfl rfl rfl (fun _ _ => rfl)
    | failed => exact hwired.released hreading rfl rfl rfl rfl rfl (fun _ _ => rfl)
    | invalidFrame e written =>
      refine hwired.released hreading rfl rfl rfl rfl rfl ?_
      exact fun id hne => closeReading_sockets _ _ _ _ _ hne

theorem Wired.step {h : Holder T} (hwired : h.Wired) (event : HolderEvent) :
    (Holder.step P h event).1.Wired := by
  rcases h.step_cases (P := P) event with
    heq | ⟨-, heq⟩ | ⟨message, calls, -, heq⟩ | ⟨ending, writes, -, heq⟩ | ⟨hreading, heq⟩
  · rw [heq]
    exact hwired
  · rw [heq]
    exact hwired.dial
  · rw [heq]
    exact hwired.readMessage message calls
  · rw [heq]
    exact hwired.endRead ending writes
  · rw [heq]
    rcases h.between_cases (P := P) event with ⟨result, rfl⟩ | ⟨slot, rfl⟩ | hkeeps
    · exact hwired.accept result
    · exact hwired.beginRead hreading slot
    · exact hwired.keeps hkeeps

end Holder

end Homie.Remote
