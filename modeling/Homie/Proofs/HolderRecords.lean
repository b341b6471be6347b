/-
What a Holder writes and what it keeps.

A peer gets the messages of its connection in the order they were queued, whatever the
sizes of the writes (`flush_stream`), and never loses what it has (`step_received`).

`Recorded` is what every handler keeps of the terminal and the log: the screen can be
diffed, the log is a window of everything the child wrote that reaches its end, and the
exit is recorded once.  `Numbered` says that a grid message is known by its number.
-/
import Homie.Lib.Window
import Homie.Proofs.GridDiff
import Homie.Proofs.HolderSlots

namespace Homie.Remote

open Trace

variable {T : Type} {P : Platform T}

/-! ### Writing -/

namespace Connection

/-- The messages the peer does not have yet. -/
def left (P : Platform T) (c : Connection) : List RemoteMessage :=
  Outbox.rest (frameBytes P.json) c.outbound c.sent

theorem left_push {c : Connection} (hsent : c.sent ≤ c.outboundBytes P) (message : RemoteMessage) :
    (c.push [message]).left P = c.left P ++ [message] :=
  Outbox.rest_concat frameBytes_pos hsent

theorem sent_push {c : Connection} (hsent : c.sent ≤ c.outboundBytes P)
    (messages : List RemoteMessage) : (c.push messages).sent ≤ (c.push messages).outboundBytes P := by
  have htotal : (c.push messages).outboundBytes P
      = c.outboundBytes P + Outbox.total (frameBytes P.json) messages := by
    simp [outboundBytes, push, Outbox.total]
  rw [htotal]
  exact Nat.le_add_right_of_le hsent

theorem left_of_unsent {c : Connection} (hsent : c.sent = 0) : c.left P = c.outbound := by
  unfold left
  rw [hsent]
  exact Outbox.rest_zero frameBytes_pos c.outbound

theorem advance_stream {c : Connection} (hsent : c.sent ≤ c.outboundBytes P) (socket : Socket)
    (count : Nat) :
    (c.advance P socket count).1.sent ≤ (c.advance P socket count).1.outboundBytes P ∧
      (c.advance P socket count).2.received ++ (c.advance P socket count).1.left P
        = socket.received ++ c.left P := by
  refine ⟨Nat.min_le_right _ _, ?_⟩
  show socket.received ++ Outbox.finished (frameBytes P.json) c.outbound c.sent
    (min (c.sent + count) (c.outboundBytes P)) ++ Outbox.rest (frameBytes P.json) c.outbound
      (min (c.sent + count) (c.outboundBytes P)) = _
  rw [List.append_assoc, Outbox.finished_append_rest _ _ (by omega)]
  rfl

theorem clear_stream {c : Connection} (hsent : c.sent ≤ c.outboundBytes P)
    (hdone : ¬ c.sent < c.outboundBytes P) : c.clear.left P = c.left P := by
  have hall : c.sent = Outbox.total (frameBytes P.json) c.outbound :=
    Nat.le_antisymm hsent (Nat.le_of_not_lt hdone)
  unfold left
  rw [hall, Outbox.rest_total]
  rfl

theorem flush_stream {c : Connection} (hsent : c.sent ≤ c.outboundBytes P) (socket : Socket)
    (writes : List (Except IoError Nat)) :
    (c.flush P socket writes).2.1.sent ≤ (c.flush P socket writes).2.1.outboundBytes P ∧
      (c.flush P socket writes).2.2.received ++ (c.flush P socket writes).2.1.left P
        = socket.received ++ c.left P := by
  induction writes generalizing c socket with
  | nil =>
    unfold flush
    dsimp only
    split
    · exact ⟨hsent, rfl⟩
    · rename_i hdone
      exact ⟨Nat.zero_le _, by rw [clear_stream hsent hdone]⟩
  | cons result writes ih =>
    unfold flush
    split
    · rcases result with e | _ | count
      · dsimp only
        split
        · exact ⟨hsent, rfl⟩
        · split
          · exact ih hsent socket
          · exact ⟨hsent, rfl⟩
      · exact ⟨hsent, rfl⟩
      · obtain ⟨hsent', hstream⟩ := advance_stream hsent socket (count + 1)
        obtain ⟨hdone, hrest⟩ := ih hsent' (c.advance P socket (count + 1)).2
        exact ⟨hdone, hrest.trans hstream⟩
    · rename_i hdone
      exact ⟨Nat.zero_le _, by rw [clear_stream hsent hdone]⟩

theorem sendFatal_received (c : Connection) (code message : String) (written : Bool)
    (socket : Socket) :
    (c.sendFatal P code message written socket).received = socket.received ∨
      (c.sendFatal P code message written socket).received
        = socket.received ++ [.error ⟨code, message, true⟩] := by
  unfold sendFatal
  split
  · exact Or.inl rfl
  · split
    · exact Or.inl rfl
    · split
      · exact Or.inr rfl
      · exact Or.inl rfl

end Connection

namespace Holder

theorem closeReading_received {h h₁ : Holder T} (hsockets : h₁.sockets = h.sockets)
    (c : Connection) (code message : String) (written : Bool) (id : Nat) :
    (h.sockets id).received <+: ((h₁.closeReading P c code message written).sockets id).received := by
  rw [← hsockets]
  refine setSocket_received ?_ id
  rcases c.sendFatal_received (P := P) code message written (h₁.sockets c.id) with heq | heq
  · rw [heq]
  · rw [heq]
    exact List.prefix_append _ _

theorem step_received (h : Holder T) (event : HolderEvent) (id : Nat) :
    (h.sockets id).received <+: ((Holder.step P h event).1.sockets id).received := by
  rcases h.step_cases (P := P) event with
    heq | ⟨-, heq⟩ | ⟨message, calls, -, heq⟩ | ⟨ending, writes, -, heq⟩ | ⟨-, heq⟩
  · rw [heq]
  · rw [heq]
    exact List.prefix_rfl
  · rw [heq]
    cases hreading : h.reading with
    | none =>
      unfold Holder.readMessage
      rw [hreading]
    | some place =>
      obtain ⟨slot, c⟩ := place
      have hreads := h.readMessage_reads (P := P) hreading message calls
      generalize h.readMessage P message calls = after at hreads
      cases hreads with
      | refused => exact closeReading_received rfl _ _ _ _ id
      | welcomed => exact List.prefix_rfl
      | unwelcome hello e h' c' _ _ _ _ _ hstate =>
        obtain ⟨-, -, -, -, -, -, -, -, hsockets⟩ := unwelcome_frame hstate
        exact closeReading_received hsockets _ _ _ _ id
      | handled epoch h' c' _ heffect =>
        have hsockets : h'.sockets = h.sockets := effect_sockets heffect
        show _ <+: (h'.sockets id).received
        rw [hsockets]
      | closed epoch e h' c' _ _ heffect =>
        exact closeReading_received (effect_sockets heffect) _ _ _ _ id
  · rw [heq]
    unfold Holder.endRead
    cases hreading : h.reading with
    | none => exact List.prefix_rfl
    | some place =>
      cases ending with
      | eof | failed => exact List.prefix_rfl
      | invalidFrame => exact closeReading_received rfl _ _ _ _ id
      | wouldBlock =>
        dsimp only
        rcases h.stopReading.putBack_cases (P := P) place.1 place.2 writes with
          ⟨-, heq⟩ | ⟨-, -, heq⟩ | ⟨-, -, heq⟩
        · rw [heq]
          exact List.prefix_rfl
        · rw [heq]
          exact List.prefix_rfl
        · obtain ⟨sockets, -, hmore, hrevoked⟩ :=
            h.stopReading.revokePrevious_eq (P := P) writes
          rw [heq, hrevoked]
          exact hmore id
  · rw [heq]
    rcases h.between_cases (P := P) event with ⟨result, rfl⟩ | ⟨slot, rfl⟩ | hkeeps
    · exact (keeps_settle (.refl (h.acceptConnection result).2)).received id
    · cases slot <;> simp only [Holder.between, Holder.beginRead] <;> split <;>
        exact List.prefix_rfl
    · exact hkeeps.received id

/-! ### The terminal, the log and the exit -/

/-- What the handlers keep of the terminal, the log and the exit watcher. -/
structure Recorded (h : Holder T) : Prop where
  screen : h.screen.Tracked
  log : Reaches h.ledger.history h.log.baseOffset h.log.payload
  watching : h.exitWatcher = true → h.ledger.exitScreen = none

/-- The fields this is about. -/
def record (h : Holder T) :=
  (h.screen, h.log, h.ledger.history, h.ledger.exitScreen, h.exitWatcher)

theorem Recorded.of_record {h h' : Holder T} (hrecorded : h.Recorded)
    (hsame : h'.record = h.record) : h'.Recorded := by
  simp only [record, Prod.mk.injEq] at hsame
  obtain ⟨hscreen, hlog, hhistory, hexit, hwatcher⟩ := hsame
  refine ⟨?_, ?_, ?_⟩
  · rw [hscreen]
    exact hrecorded.screen
  · rw [hlog, hhistory]
    exact hrecorded.log
  · rw [hexit, hwatcher]
    exact hrecorded.watching

theorem recorded_new (sessionId incarnation : String) (pid : UInt32) (cols rows : UInt16) :
    (new P sessionId incarnation pid cols rows : Holder T).Recorded where
  screen := HeadlessScreen.tracked_new cols rows
  log := Reaches.nil []
  watching := fun _ => rfl

theorem Recorded.tailOffset {h : Holder T} (hrecorded : h.Recorded) :
    h.log.tailOffset = h.ledger.history.length :=
  hrecorded.log.length_eq

theorem record_settle (r : IoResult × Holder T) : (settle r).record = r.2.record := by
  obtain ⟨result, h⟩ := r
  cases result <;> rfl

theorem record_queued {h : Holder T} {message : RemoteMessage} {r : IoResult × Holder T}
    (hqueued : Queued P h message r) : r.2.record = h.record := by
  cases hqueued with
  | absent | lost | appended | reseeded => rfl
  | halfReseeded e h' c hsome heq =>
    rcases heq with rfl | rfl
    · rfl
    · rfl

theorem record_persist (h : Holder T) (write : IoResult) : (h.persist write).2.record = h.record := by
  unfold persist
  split
  · cases write <;> rfl
  · rfl

theorem reaches_append {stream : List UInt8} {log : OutputLog}
    (h : Reaches stream log.baseOffset log.payload) (bytes : List UInt8) :
    Reaches (stream ++ bytes) (log.append bytes).2.baseOffset (log.append bytes).2.payload := by
  have happend := h.append bytes
  unfold OutputLog.append
  dsimp only
  split
  · unfold OutputLog.truncateToHalf
    dsimp only
    generalize diskCapacity / 2 = keep
    exact happend.drop (Nat.sub_le _ keep)
  · exact happend

theorem Recorded.fed {h : Holder T} (hrecorded : h.Recorded) (bytes : List UInt8) :
    (h.fed P bytes).Recorded where
  screen := hrecorded.screen.change (.feed bytes)
  log := reaches_append hrecorded.log bytes
  watching := hrecorded.watching

theorem Recorded.resized {h : Holder T} (hrecorded : h.Recorded) (cols rows : UInt16) :
    (h.resized P cols rows).Recorded where
  screen := hrecorded.screen.change (.resize cols rows)
  log := hrecorded.log
  watching := hrecorded.watching

theorem Recorded.exited {h : Holder T} (hrecorded : h.Recorded) (report : ProcessExit) :
    (h.exited report).Recorded where
  screen := hrecorded.screen
  log := hrecorded.log
  watching := fun hwatching => absurd hwatching (by simp [Holder.exited])

/-- The Holder when `emitGridDelta` queues its message. -/
def updated (P : Platform T) (h : Holder T) : Holder T :=
  { h with
    interactiveGridBudget := h.interactiveGridBudget - 1
    dirtySince := false
    screen := (h.screen.gridUpdate P.backend false).2 }.nextSequence.recordEmitted

theorem Recorded.updated {h : Holder T} (hrecorded : h.Recorded) : (h.updated P).Recorded where
  screen := hrecorded.screen.gridUpdate false
  log := hrecorded.log
  watching := hrecorded.watching

theorem drainPty_cases (h : Holder T) (read : PtyRead) (append write : IoResult) :
    ((∃ ptyReader, (h.drainPty P read append write).2 = { h with ptyReader }) ∨
    ∃ bytes, ∃ r : IoResult × Holder T,
      (((h.connection.any fun c => c.epoch.isSome) = true ∧ Queued P (h.fed P bytes)
          (.terminal (Frame.output (UInt64.ofNat h.log.tailOffset) bytes)) r) ∨
        ((h.connection.any fun c => c.epoch.isSome) = false ∧ r = (.ok (), h.fed P bytes))) ∧
      ((h.drainPty P read append write).2 = r.2 ∨
        (h.drainPty P read append write).2 = (r.2.persist write).2)) := by
  have hsame : ∃ ptyReader, h = { h with ptyReader } := ⟨h.ptyReader, rfl⟩
  unfold drainPty
  split
  · exact Or.inl hsame
  · cases read with
    | eof => exact Or.inl ⟨false, rfl⟩
    | failed e => exact Or.inl hsame
    | bytes chunk =>
      rcases h.drainChunk_cases (P := P) chunk append write with ⟨e, heq⟩ | ⟨r, hr, hlast⟩
      · dsimp only
        rw [heq]
        exact Or.inl hsame
      · refine Or.inr ⟨chunk, r, hr, ?_⟩
        dsimp only
        rcases hlast with ⟨e, heq⟩ | heq
        · exact Or.inl (by rw [heq])
        · exact Or.inr (by rw [heq])

theorem drain_of_queued {h h' : Holder T} {c : Connection} {bytes : List UInt8}
    (hfailed : h.failed = none) (hreading : h.reading = none) (hreader : h.ptyReader = true)
    (hsome : h.connection = some c) (hepoch : c.epoch ≠ none)
    (hqueue : (h.fed P bytes).queue P
      (.terminal (Frame.output (UInt64.ofNat h.log.tailOffset) bytes)) = (.ok (), h')) :
    ∃ stored last, (Holder.step P h (.drain (.bytes bytes) (.ok ()) (.ok ()))).1
      = { h' with stored, lastPersistedOffset := last } := by
  have hany : ((h.fed P bytes).connection.any fun c => c.epoch.isSome) = true := by
    show (h.connection.any fun c => c.epoch.isSome) = true
    rw [hsome, Option.any_some]
    exact Option.isSome_iff_ne_none.mpr hepoch
  have hdrain : h.drainPty P (.bytes bytes) (.ok ()) (.ok ()) = h'.persist (.ok ()) := by
    unfold drainPty drainChunk
    simp only [hreader, Bool.not_true, Bool.false_eq_true, if_false]
    rw [if_pos hany]
    have hoffset : (h.log.append bytes).1 = h.log.tailOffset := rfl
    rw [hoffset, hqueue]
  simp only [Holder.step, hfailed, Option.isSome_none, Bool.false_eq_true, if_false, hreading,
    between, hdrain, persist, writeState]
  split
  · exact ⟨_, _, rfl⟩
  · exact ⟨_, _, rfl⟩

theorem recordExit_cases (h : Holder T) (finish : IoResult) (exit : Except IoError Exit)
    (flush write : IoResult) :
    (h.recordExit P finish exit flush write).2 = h ∨
    ∃ code, exit = .ok code ∧ h.exitWatcher = true ∧
      ((h.recordExit P finish exit flush write).2 = h.exited code.report ∨
        (finish = .ok () ∧ flush = .ok () ∧ write = .ok ()) ∧ ∃ r, Queued P { h.exited code.report with stored := (h.exited code.report).state }
          (.processExit code.report) r ∧ (h.recordExit P finish exit flush write).2 = r.2) := by
  unfold recordExit
  split
  · exact Or.inl rfl
  · rename_i hwatcher
    have hwatching : h.exitWatcher = true := by simpa using hwatcher
    split
    · exact Or.inl rfl
    · exact Or.inl rfl
    · rename_i code
      refine Or.inr ⟨code, rfl, hwatching, ?_⟩
      cases flush with
      | error e => exact Or.inl rfl
      | ok =>
        cases write with
        | error e => exact Or.inl rfl
        | ok => exact Or.inr ⟨⟨rfl, rfl, rfl⟩, _, queue_queued _ _, rfl⟩

theorem emitGridDelta_cases (h : Holder T) :
    (h.emitGridDelta P).2 = { h with
      interactiveGridBudget := h.interactiveGridBudget - 1, dirtySince := false } ∨
    ∃ r, Queued P (h.updated P)
      ((h.updated P).gridMessage P (h.screen.gridUpdate P.backend false).1) r ∧
        (h.emitGridDelta P).2 = r.2 := by
  unfold emitGridDelta
  dsimp only
  split
  · exact Or.inl rfl
  · exact Or.inr ⟨_, queue_queued _ _, rfl⟩

theorem Recorded.readMessage {h : Holder T} (hrecorded : h.Recorded) (message : RemoteMessage)
    (calls : Calls) : (h.readMessage P message calls).Recorded := by
  cases hreading : h.reading with
  | none =>
    unfold Holder.readMessage
    rw [hreading]
    exact hrecorded
  | some place =>
    obtain ⟨slot, c⟩ := place
    have hreads := h.readMessage_reads (P := P) hreading message calls
    generalize h.readMessage P message calls = after at hreads
    cases hreads with
    | refused | welcomed => exact hrecorded.of_record rfl
    | unwelcome hello e h' c' hmessage hnone hrefusal hcannot hid hstate =>
      have hsame : h'.record = h.record := by
        rcases hstate with rfl | rfl | rfl <;> rfl
      exact hrecorded.of_record hsame
    | handled epoch h' c' hepoch heffect =>
      cases heffect with
      | typed | replied => exact hrecorded.of_record rfl
      | resized cols rows => exact (hrecorded.resized (P := P) cols rows).of_record rfl
    | closed epoch e h' c' hepoch hrefused heffect =>
      cases heffect with
      | typed => exact hrecorded.of_record rfl
      | halfResized _ cols rows => exact (hrecorded.resized (P := P) cols rows).of_record rfl

theorem record_endRead (h : Holder T) (ending : ReadEnd) (writes : List (Except IoError Nat)) :
    (h.endRead P ending writes).record = h.record := by
  unfold Holder.endRead
  cases hreading : h.reading with
  | none => rfl
  | some place =>
    cases ending with
    | eof | failed | invalidFrame => rfl
    | wouldBlock =>
      dsimp only
      rcases h.stopReading.putBack_cases (P := P) place.1 place.2 writes with
        ⟨-, heq⟩ | ⟨-, -, heq⟩ | ⟨-, -, heq⟩
      · rw [heq]
        rfl
      · rw [heq]
        rfl
      · obtain ⟨sockets, -, -, hrevoked⟩ := h.stopReading.revokePrevious_eq (P := P) writes
        rw [heq, hrevoked]
        rfl

theorem record_flushConnection (h : Holder T) (writes : List (Except IoError Nat)) :
    (h.flushConnection P writes).2.record = h.record := by
  unfold flushConnection
  split
  · rfl
  · dsimp only
    split
    · rfl
    · split <;> rfl

theorem Recorded.between {h : Holder T} (hrecorded : h.Recorded) (event : HolderEvent) :
    (h.between P event).Recorded := by
  cases event with
  | dial | message | endRead => exact hrecorded
  | accept result => exact hrecorded.of_record (record_settle _)
  | guardExit status => exact hrecorded.of_record rfl
  | beginRead slot =>
    refine hrecorded.of_record ?_
    cases slot with
    | installed =>
      simp only [Holder.between, Holder.beginRead]
      split <;> rfl
    | pending =>
      simp only [Holder.between, Holder.beginRead]
      split <;> rfl
  | flushInput writes =>
    obtain ⟨written, pendingInput, -, heq⟩ := h.flushInput_eq writes
    refine hrecorded.of_record ((record_settle _).trans ?_)
    rw [heq]
    rfl
  | flushConnection writes =>
    exact hrecorded.of_record ((record_settle _).trans (h.record_flushConnection writes))
  | drain read append write =>
    refine Recorded.of_record ?_ (record_settle _)
    rcases h.drainPty_cases (P := P) read append write with
      ⟨ptyReader, heq⟩ | ⟨bytes, r, hr, hlast⟩
    · rw [heq]
      exact hrecorded.of_record rfl
    · have hfed : r.2.Recorded := by
        rcases hr with ⟨-, hqueued⟩ | ⟨-, rfl⟩
        · exact (hrecorded.fed (P := P) bytes).of_record (record_queued hqueued)
        · exact hrecorded.fed bytes
      rcases hlast with heq | heq
      · rw [heq]
        exact hfed
      · rw [heq]
        exact hfed.of_record (record_persist _ _)
  | recordExit finish exit flush write =>
    refine Recorded.of_record ?_ (record_settle _)
    rcases h.recordExit_cases (P := P) finish exit flush write with
      heq | ⟨code, -, -, heq | ⟨-, r, hqueued, heq⟩⟩
    · rw [heq]
      exact hrecorded
    · rw [heq]
      exact hrecorded.exited code.report
    · have hsame := record_queued hqueued
      rw [heq]
      exact (hrecorded.exited code.report).of_record hsame
  | emit due =>
    simp only [Holder.between]
    split
    · refine Recorded.of_record ?_ (record_settle _)
      rcases h.emitGridDelta_cases (P := P) with heq | ⟨r, hqueued, heq⟩
      · rw [heq]
        exact hrecorded.of_record rfl
      · rw [heq]
        exact (hrecorded.updated (P := P)).of_record (record_queued hqueued)
    · exact hrecorded

theorem Recorded.step {h : Holder T} (hrecorded : h.Recorded) (event : HolderEvent) :
    (Holder.step P h event).1.Recorded := by
  rcases h.step_cases (P := P) event with
    heq | ⟨-, heq⟩ | ⟨message, calls, -, heq⟩ | ⟨ending, writes, -, heq⟩ | ⟨-, heq⟩
  · rw [heq]
    exact hrecorded
  · rw [heq]
    exact hrecorded.of_record rfl
  · rw [heq]
    exact hrecorded.readMessage message calls
  · rw [heq]
    exact hrecorded.of_record (h.record_endRead ending writes)
  · rw [heq]
    exact hrecorded.between event

theorem flush_all {c : Connection} (socket : Socket) {count : Nat} (hsent : c.sent = 0)
    (hpos : 0 < c.outboundBytes P) (hcount : c.outboundBytes P ≤ count) :
    (c.flush P socket [.ok count]).1 = .ok () ∧
      (c.flush P socket [.ok count]).2.2.received = socket.received ++ c.outbound := by
  obtain ⟨count, rfl⟩ : ∃ smaller, count = smaller + 1 := ⟨count - 1, by omega⟩
  have hmin : min (c.sent + (count + 1)) (c.outboundBytes P) = c.outboundBytes P := by omega
  have hfinished : Outbox.finished (frameBytes P.json) c.outbound 0 (c.outboundBytes P)
      = c.outbound := by
    unfold Outbox.finished Connection.outboundBytes
    rw [Outbox.complete_total, List.take_length]
    cases hfirst : c.outbound with
    | nil => rfl
    | cons message rest =>
      rw [Outbox.complete, if_neg (Nat.not_le.mpr (frameBytes_pos message))]
      rfl
  unfold Connection.flush
  rw [if_pos (by omega)]
  unfold Connection.advance Connection.flush
  dsimp only
  rw [hmin, hsent, hfinished]
  exact ⟨rfl, rfl⟩

theorem received_flush {h : Holder T} {c : Connection} (count : Nat) (hfailed : h.failed = none)
    (hreading : h.reading = none) (hsome : h.connection = some c) (hsent : c.sent = 0)
    (hpos : 0 < c.outboundBytes P) (hcount : c.outboundBytes P ≤ count) :
    ((Holder.step P h (.flushConnection [.ok count])).1.sockets c.id).received
      = (h.sockets c.id).received ++ c.outbound := by
  obtain ⟨hok, hreceived⟩ := flush_all (h.sockets c.id) hsent hpos hcount
  have hid := (c.flush_frame (P := P) (h.sockets c.id) [.ok count]).1
  simp only [Holder.step, hfailed, Option.isSome_none, Bool.false_eq_true, if_false, hreading,
    between, flushConnection, hsome]
  rw [hok]
  simp only [settle, setSocket, hid, if_true]
  exact hreceived

/-! ### The numbers of grid messages -/

/-- Two grid messages have different numbers until these saturate. -/
structure Numbered (h : Holder T) : Prop where
  bound : ∀ entry ∈ h.ledger.emitted, entry.1.toNat ≤ h.state.snapshotSequence.toNat
  distinct : h.ledger.emitted.Pairwise fun entry later =>
    entry.1 = later.1 → entry.1 = UInt64.ofNat (2 ^ 64 - 1)

theorem Numbered.unique {h : Holder T} (hnumbered : h.Numbered) {n : UInt64}
    {screen screen' : HeadlessScreen T} (hn : n ≠ UInt64.ofNat (2 ^ 64 - 1))
    (hmem : (n, screen) ∈ h.ledger.emitted) (hmem' : (n, screen') ∈ h.ledger.emitted) :
    screen' = screen := by
  by_contra hne
  have hsymm : Std.Symm fun entry later : UInt64 × HeadlessScreen T =>
      entry.1 = later.1 → entry.1 = UInt64.ofNat (2 ^ 64 - 1) :=
    ⟨fun entry later hlast heq => heq.trans (hlast heq.symm)⟩
  have hpair := hnumbered.distinct.forall hmem hmem' fun heq => hne (Prod.mk.inj heq).2.symm
  exact hn (hpair rfl)

/--
The ledger only grows, and the grid messages of a step come after the earlier ones, with
numbers of their own.
-/
structure Counts (h h' : Holder T) : Prop where
  emitted : h.ledger.emitted <+: h'.ledger.emitted
  numbered : h.Numbered → h'.Numbered
  history : h.ledger.history <+: h'.ledger.history
  discarded : h.ledger.discarded <+: h'.ledger.discarded

theorem Counts.trans {first second third : Holder T} (h : Counts first second)
    (h' : Counts second third) : Counts first third :=
  ⟨h.emitted.trans h'.emitted, h'.numbered ∘ h.numbered, h.history.trans h'.history,
    h.discarded.trans h'.discarded⟩

theorem Numbered.of_same {h h' : Holder T} (hnumbered : h.Numbered)
    (hemitted : h'.ledger.emitted = h.ledger.emitted)
    (hle : h.state.snapshotSequence.toNat ≤ h'.state.snapshotSequence.toNat) : h'.Numbered := by
  refine ⟨?_, ?_⟩
  · rw [hemitted]
    intro entry hentry
    exact (hnumbered.bound entry hentry).trans hle
  · rw [hemitted]
    exact hnumbered.distinct

theorem counts_of_same {h h' : Holder T} (hledger : h'.ledger = { h.ledger with
      exitScreen := h'.ledger.exitScreen })
    (hsequence : h'.state.snapshotSequence = h.state.snapshotSequence) : Counts h h' := by
  refine ⟨?_, fun hnumbered => hnumbered.of_same ?_ ?_, ?_, ?_⟩
  · rw [hledger]
  · rw [hledger]
  · rw [hsequence]
  · rw [hledger]
  · rw [hledger]

theorem counts_fed (h : Holder T) (bytes : List UInt8) : Counts h (h.fed P bytes) :=
  ⟨List.prefix_rfl, fun hnumbered => hnumbered.of_same rfl (Nat.le_refl _),
    List.prefix_append _ _, List.prefix_rfl⟩

theorem counts_throwAway (h : Holder T) (c : Connection) : Counts h (h.throwAway c) :=
  ⟨List.prefix_rfl, fun hnumbered => hnumbered.of_same rfl (Nat.le_refl _), List.prefix_rfl,
    List.prefix_append _ _⟩

theorem toNat_saturatingSucc (value : UInt64) :
    (saturatingSucc value).toNat = min (value.toNat + 1) (2 ^ 64 - 1) := by
  have hlt := value.toNat_lt
  unfold saturatingSucc
  split
  · rename_i hlast
    rw [hlast]
    rfl
  · rename_i hne
    have hsmall : value.toNat ≠ 2 ^ 64 - 1 := fun heq => hne (UInt64.toNat_inj.mp heq)
    have hone : (1 : UInt64).toNat = 1 := rfl
    rw [UInt64.toNat_add]
    omega

theorem counts_next {h h' : Holder T} (hledger : h'.ledger = h.ledger)
    (hsequence : h'.state.snapshotSequence = saturatingSucc h.state.snapshotSequence) :
    Counts h h' := by
  refine ⟨?_, fun hnumbered => hnumbered.of_same ?_ ?_, ?_, ?_⟩
  · rw [hledger]
  · rw [hledger]
  · have hlt := h.state.snapshotSequence.toNat_lt
    rw [hsequence, toNat_saturatingSucc]
    omega
  · rw [hledger]
  · rw [hledger]

theorem eq_saturatingSucc {value number : UInt64} (hle : number.toNat ≤ value.toNat)
    (heq : number = saturatingSucc value) : number = UInt64.ofNat (2 ^ 64 - 1) := by
  have hlast : (UInt64.ofNat (2 ^ 64 - 1)).toNat = 2 ^ 64 - 1 := rfl
  rw [heq, toNat_saturatingSucc] at hle
  rw [heq, ← UInt64.toNat_inj, toNat_saturatingSucc, hlast]
  omega

theorem counts_emit {h h' : Holder T} {screen : HeadlessScreen T}
    (hsequence : h'.state.snapshotSequence = saturatingSucc h.state.snapshotSequence)
    (hledger : h'.ledger = { h.ledger with
      emitted := h.ledger.emitted ++ [(h'.state.snapshotSequence, screen)] }) :
    Counts h h' := by
  have hemitted : h'.ledger.emitted
      = h.ledger.emitted ++ [(h'.state.snapshotSequence, screen)] := by rw [hledger]
  refine ⟨?_, ?_, ?_, ?_⟩
  · rw [hemitted]
    exact List.prefix_append _ _
  · intro hnumbered
    refine ⟨?_, ?_⟩
    · rw [hemitted, hsequence]
      intro entry hentry
      rcases List.mem_append.mp hentry with hold | hnew
      · have hbound := hnumbered.bound entry hold
        have hlt := h.state.snapshotSequence.toNat_lt
        rw [toNat_saturatingSucc]
        omega
      · rw [List.mem_singleton.mp hnew]
    · rw [hemitted, List.pairwise_append]
      refine ⟨hnumbered.distinct, List.pairwise_singleton _ _, ?_⟩
      intro entry hentry later hlater heq
      rw [List.mem_singleton.mp hlater, hsequence] at heq
      exact eq_saturatingSucc (hnumbered.bound entry hentry) heq
  · rw [hledger]
  · rw [hledger]

theorem numbered_new (sessionId incarnation : String) (pid : UInt32) (cols rows : UInt16) :
    (new P sessionId incarnation pid cols rows : Holder T).Numbered :=
  ⟨fun _ hentry => absurd hentry List.not_mem_nil, List.Pairwise.nil⟩

theorem counts_settle {h : Holder T} {r : IoResult × Holder T} (hcounts : Counts h r.2) :
    Counts h (settle r) := by
  obtain ⟨result, h'⟩ := r
  cases result with
  | ok => exact hcounts
  | error e => exact hcounts.trans (counts_of_same rfl rfl)

theorem counts_queued {h : Holder T} {message : RemoteMessage} {r : IoResult × Holder T}
    (hqueued : Queued P h message r) : Counts h r.2 := by
  cases hqueued with
  | absent | lost | appended => exact counts_of_same rfl rfl
  | halfReseeded e h' c hsome heq =>
    rcases heq with rfl | rfl
    · exact counts_throwAway h _
    · exact (counts_throwAway h _).trans (counts_next rfl rfl)
  | reseeded => exact (counts_throwAway h _).trans (counts_emit rfl rfl)

theorem counts_readMessage (h : Holder T) (message : RemoteMessage) (calls : Calls) :
    Counts h (h.readMessage P message calls) := by
  cases hreading : h.reading with
  | none =>
    unfold Holder.readMessage
    rw [hreading]
    exact counts_of_same rfl rfl
  | some place =>
    obtain ⟨slot, c⟩ := place
    have hreads := h.readMessage_reads (P := P) hreading message calls
    generalize h.readMessage P message calls = after at hreads
    cases hreads with
    | refused => exact counts_of_same rfl rfl
    | welcomed => exact counts_emit rfl rfl
    | unwelcome hello e h' c' hmessage hnone hrefusal hcannot hid hstate =>
      rcases hstate with rfl | rfl | rfl
      · exact counts_of_same rfl rfl
      · exact counts_next rfl rfl
      · exact counts_emit rfl rfl
    | handled epoch h' c' hepoch heffect =>
      cases heffect with
      | typed | replied => exact counts_of_same rfl rfl
      | resized cols rows => exact counts_emit rfl rfl
    | closed epoch e h' c' hepoch hrefused heffect =>
      cases heffect with
      | typed => exact counts_of_same rfl rfl
      | halfResized _ cols rows => exact counts_next rfl rfl

theorem counts_endRead (h : Holder T) (ending : ReadEnd) (writes : List (Except IoError Nat)) :
    Counts h (h.endRead P ending writes) := by
  unfold Holder.endRead
  cases hreading : h.reading with
  | none => exact counts_of_same rfl rfl
  | some place =>
    cases ending with
    | eof | failed | invalidFrame => exact counts_of_same rfl rfl
    | wouldBlock =>
      dsimp only
      rcases h.stopReading.putBack_cases (P := P) place.1 place.2 writes with
        ⟨-, heq⟩ | ⟨-, -, heq⟩ | ⟨-, -, heq⟩
      · rw [heq]
        exact counts_of_same rfl rfl
      · rw [heq]
        exact counts_of_same rfl rfl
      · obtain ⟨sockets, -, -, hrevoked⟩ := h.stopReading.revokePrevious_eq (P := P) writes
        rw [heq, hrevoked]
        exact counts_of_same rfl rfl

theorem counts_persist (h : Holder T) (write : IoResult) : Counts h (h.persist write).2 := by
  unfold persist
  split
  · cases write <;> exact counts_of_same rfl rfl
  · exact counts_of_same rfl rfl

theorem counts_between (h : Holder T) (event : HolderEvent) : Counts h (h.between P event) := by
  cases event with
  | dial | message | endRead => exact counts_of_same rfl rfl
  | accept result => exact counts_settle (counts_of_same rfl rfl)
  | guardExit status => exact counts_of_same rfl rfl
  | beginRead slot =>
    cases slot <;> simp only [Holder.between, Holder.beginRead] <;> split <;>
      exact counts_of_same rfl rfl
  | flushInput writes =>
    obtain ⟨written, pendingInput, -, heq⟩ := h.flushInput_eq writes
    refine counts_settle ?_
    rw [heq]
    exact counts_of_same rfl rfl
  | flushConnection writes =>
    refine counts_settle ?_
    unfold flushConnection
    split
    · exact counts_of_same rfl rfl
    · dsimp only
      split
      · exact counts_of_same rfl rfl
      · split <;> exact counts_of_same rfl rfl
  | drain read append write =>
    refine counts_settle ?_
    rcases h.drainPty_cases (P := P) read append write with
      ⟨ptyReader, heq⟩ | ⟨bytes, r, hr, hlast⟩
    · rw [heq]
      exact counts_of_same rfl rfl
    · have hfed := h.counts_fed (P := P) bytes
      have hcounts : Counts h r.2 := by
        rcases hr with ⟨-, hqueued⟩ | ⟨-, rfl⟩
        · exact hfed.trans (counts_queued hqueued)
        · exact hfed
      rcases hlast with heq | heq
      · rw [heq]
        exact hcounts
      · rw [heq]
        exact hcounts.trans (counts_persist _ _)
  | recordExit finish exit flush write =>
    refine counts_settle ?_
    rcases h.recordExit_cases (P := P) finish exit flush write with
      heq | ⟨code, -, -, heq | ⟨-, r, hqueued, heq⟩⟩
    · rw [heq]
      exact counts_of_same rfl rfl
    · rw [heq]
      exact counts_of_same rfl rfl
    · have hexited : Counts h { h.exited code.report with
          stored := (h.exited code.report).state } := counts_of_same rfl rfl
      rw [heq]
      exact hexited.trans (counts_queued hqueued)
  | emit due =>
    simp only [Holder.between]
    split
    · refine counts_settle ?_
      rcases h.emitGridDelta_cases (P := P) with heq | ⟨r, hqueued, heq⟩
      · rw [heq]
        exact counts_of_same rfl rfl
      · rw [heq]
        exact Counts.trans (counts_emit rfl rfl) (counts_queued hqueued)
    · exact counts_of_same rfl rfl

theorem counts_step (h : Holder T) (event : HolderEvent) :
    Counts h (Holder.step P h event).1 := by
  rcases h.step_cases (P := P) event with
    heq | ⟨-, heq⟩ | ⟨message, calls, -, heq⟩ | ⟨ending, writes, -, heq⟩ | ⟨-, heq⟩
  · rw [heq]
    exact counts_of_same rfl rfl
  · rw [heq]
    exact counts_of_same rfl rfl
  · rw [heq]
    exact h.counts_readMessage message calls
  · rw [heq]
    exact h.counts_endRead ending writes
  · rw [heq]
    exact h.counts_between event

end Holder

end Homie.Remote

namespace Homie.Remote.OutputLog

/-! ### The log by itself -/

/-- The log after appends to an empty one. -/
def written (chunks : List (List UInt8)) : OutputLog :=
  chunks.foldl (fun log bytes => (log.append bytes).2) empty

/-- The payload reaches the tail of the stream, within its capacity; half of that stays. -/
structure Keeps (stream : List UInt8) (log : OutputLog) : Prop where
  reaches : Reaches stream log.baseOffset log.payload
  fits : log.payload.length ≤ diskCapacity
  half : log.baseOffset = 0 ∨ diskCapacity / 2 ≤ log.payload.length

theorem Keeps.append {stream : List UInt8} {log : OutputLog} (h : Keeps stream log)
    (bytes : List UInt8) : Keeps (stream ++ bytes) (log.append bytes).2 := by
  refine ⟨Holder.reaches_append h.reaches bytes, ?_, ?_⟩
  · unfold OutputLog.append truncateToHalf
    dsimp only
    split
    · rw [List.length_drop]
      omega
    · next hfits => exact Nat.not_lt.mp hfits
  · unfold OutputLog.append truncateToHalf
    dsimp only
    split
    · refine Or.inr ?_
      rw [List.length_drop]
      omega
    · exact h.half.imp id fun hhalf => hhalf.trans (by simp)

theorem keeps_written (chunks : List (List UInt8)) : Keeps chunks.flatten (written chunks) := by
  induction chunks using List.reverseRecOn with
  | nil => exact ⟨Reaches.nil [], Nat.zero_le _, Or.inl rfl⟩
  | append_singleton chunks bytes ih =>
    rw [written, List.foldl_append, List.flatten_append, List.flatten_singleton]
    exact ih.append bytes

/-- **The Holder's log reads true.** After any appends the bytes of a read are those of the stream
at the offset it returns, which is the one asked for unless it is behind the tail or was cut off;
only what is older than half the capacity ever is. -/
theorem holder_log_reads_true (chunks : List (List UInt8)) (requested maximum : Nat) :
    ((written chunks).read requested maximum).2
        = (chunks.flatten.drop ((written chunks).read requested maximum).1).take maximum ∧
      (maximum ≠ 0 → ((written chunks).read requested maximum).1
        = min (max requested (written chunks).baseOffset) chunks.flatten.length) ∧
      (written chunks).payload.length ≤ diskCapacity ∧
      (chunks.flatten.length ≤ requested + diskCapacity / 2 →
        (written chunks).baseOffset ≤ requested) := by
  have hkeeps := keeps_written chunks
  have hlength := hkeeps.reaches.length_eq
  have htail : (written chunks).tailOffset = chunks.flatten.length := hlength
  unfold OutputLog.read
  rw [htail]
  dsimp only
  refine ⟨?_, ?_, hkeeps.fits, ?_⟩
  · split
    · next hnone =>
      rw [List.drop_length, List.take_nil]
    · next hsome =>
      rw [hkeeps.reaches.2, List.drop_drop]
      have hstart : (written chunks).baseOffset
          + (max requested (written chunks).baseOffset - (written chunks).baseOffset)
          = max requested (written chunks).baseOffset := by omega
      rw [hstart, List.take_eq_take_iff, List.length_drop]
      omega
  · intro hmaximum
    split
    · omega
    · omega
  · intro hrecent
    rcases hkeeps.half with hzero | hhalf
    · omega
    · omega

end Homie.Remote.OutputLog
