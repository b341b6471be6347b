/-
What the handlers of the Holder do, one lemma per handler.

Later proofs never unfold a handler: they read off here which fields it writes and which
messages it queues.  A queued message is appended to the connection (`push`), whatever is
in the buffer, so the replies of a handshake are one list (`welcomed`).  Typing into the
PTY touches three fields (`writeInput_eq`); every other message is answered by a reply,
resizes the screen, or is refused (`handleControl_cases`).
-/
import Homie.Remote.Holder

namespace Homie.Remote

variable {T : Type} {P : Platform T}

/-! ### Queueing -/

/-- The message can be put on the wire. -/
def Encodable (P : Platform T) (message : RemoteMessage) : Prop :=
  (RemoteCodec.encodeInto P.json message []).1 = .ok ()

namespace Connection

/-- The connection with more messages behind its buffer. -/
def push (c : Connection) (messages : List RemoteMessage) : Connection :=
  { c with outbound := c.outbound ++ messages }

theorem push_nil (c : Connection) : c.push [] = c := by
  simp [push]

theorem push_push (c : Connection) (first second : List RemoteMessage) :
    (c.push first).push second = c.push (first ++ second) := by
  simp [push]

theorem queue_of_encodable (c : Connection) {message : RemoteMessage} (h : Encodable P message) :
    c.queue P message = .ok (c.push [message]) := by
  unfold Encodable at h
  unfold queue
  rw [h]
  rfl

theorem queue_cases (c : Connection) (message : RemoteMessage) :
    (Encodable P message ∧ c.queue P message = .ok (c.push [message])) ∨
      (¬ Encodable P message ∧ ∃ e, c.queue P message = .error e) := by
  by_cases h : Encodable P message
  · exact Or.inl ⟨h, c.queue_of_encodable h⟩
  · refine Or.inr ⟨h, ?_⟩
    unfold Encodable at h
    unfold queue
    split
    · exact ⟨_, rfl⟩
    · rename_i hok
      exact absurd hok h

theorem flush_frame (c : Connection) (socket : Socket)
    (writes : List (Except IoError Nat)) :
    (c.flush P socket writes).2.1.id = c.id ∧ (c.flush P socket writes).2.1.epoch = c.epoch := by
  induction writes generalizing c socket with
  | nil =>
    unfold flush
    dsimp only
    split <;> exact ⟨rfl, rfl⟩
  | cons result writes ih =>
    unfold flush
    split
    · match result with
      | .ok 0 => exact ⟨rfl, rfl⟩
      | .ok (count + 1) => exact ih (c.advance P socket (count + 1)).1 _
      | .error e =>
        dsimp only
        split
        · exact ⟨rfl, rfl⟩
        · split
          · exact ih c socket
          · exact ⟨rfl, rfl⟩
    · exact ⟨rfl, rfl⟩

theorem flush_received (c : Connection) (socket : Socket)
    (writes : List (Except IoError Nat)) :
    socket.received <+: (c.flush P socket writes).2.2.received := by
  induction writes generalizing c socket with
  | nil => exact List.prefix_rfl
  | cons result writes ih =>
    unfold flush
    split
    · match result with
      | .ok 0 => exact List.prefix_rfl
      | .ok (count + 1) =>
        refine List.IsPrefix.trans ?_ (ih (c.advance P socket (count + 1)).1
          (c.advance P socket (count + 1)).2)
        exact List.prefix_append _ _
      | .error e =>
        dsimp only
        split
        · exact List.prefix_rfl
        · split
          · exact ih c socket
          · exact List.prefix_rfl
    · exact List.prefix_rfl

end Connection

theorem encodeInto_terminal (json : ControlJson) {frame : Frame}
    (h : frame.payload.length ≤ maxFrameBytes) :
    (RemoteCodec.encodeInto json (.terminal frame) []).1 = .ok () ∧
      frameBytes json (.terminal frame) = headerBytes + frame.payload.length := by
  have hcontrol : RemoteCodec.isControlKind frame.frameType.toU8 = false := by
    cases frame.frameType <;> rfl
  have hlength : (List.replicate headerBytes (0 : UInt8)).length = headerBytes :=
    List.length_replicate
  unfold frameBytes RemoteCodec.encodeInto RemoteCodec.encodeBody
  simp only [List.length_nil, List.nil_append, List.length_append, List.length_set, hlength]
  have hpayload : headerBytes + frame.payload.length - 0 - headerBytes = frame.payload.length := by
    omega
  have hkind : ((List.replicate headerBytes (0 : UInt8)).set 0 frame.frameType.toU8
      ++ frame.payload).getD 0 0 = frame.frameType.toU8 := rfl
  have hmax : maxFrameBytes < 2 ^ 32 := by decide
  rw [hpayload, hkind, hcontrol, if_neg (by omega)]
  simp only [Bool.false_and, Bool.false_eq_true, if_false]
  rw [if_neg (by omega)]
  exact ⟨rfl, by simp [headerBytes]⟩

theorem encodable_terminal {frame : Frame} (h : frame.payload.length ≤ maxFrameBytes) :
    Encodable P (.terminal frame) :=
  (encodeInto_terminal P.json h).1

theorem frameBytes_pos (message : RemoteMessage) : 0 < frameBytes P.json message := by
  unfold frameBytes headerBytes
  omega

/-! ### Replay -/

/-- The `Output` frames of a replay, or the first read that fails. -/
def pieces (log : OutputLog) (readLog : Nat → Option IoError) :
    Nat → Nat → Except IoError (List RemoteMessage)
  | 0, _ => .ok []
  | fuel + 1, offset =>
    if offset < log.tailOffset then
      match readLog offset with
      | some e => .error e
      | none =>
        let (actual, bytes) := log.read offset replayPieceBytes
        if bytes = [] then .ok []
        else
          (pieces log readLog fuel (actual + bytes.length)).map
            (.terminal (Frame.output (UInt64.ofNat actual) bytes) :: ·)
    else .ok []

/-- Everything a replay queues. -/
def Holder.replay (h : Holder T) (acknowledged : Option UInt64)
    (readLog : Nat → Option IoError) : Except IoError (List RemoteMessage) :=
  let tail := h.log.tailOffset
  let requested := (acknowledged.map UInt64.toNat).getD tail
  if requested ≥ tail then .ok []
  else
    let start := max requested (tail - replayBudgetBytes)
    (pieces h.log readLog (tail - start) start).map fun outputs =>
      .terminal (Frame.replayBegin (UInt64.ofNat start)) ::
        (outputs ++ [.terminal (Frame.replayEnd (UInt64.ofNat tail))])

theorem terminal_of_pieces {log : OutputLog} {readLog : Nat → Option IoError} {fuel offset : Nat}
    {outputs : List RemoteMessage} (h : pieces log readLog fuel offset = .ok outputs) :
    ∀ message ∈ outputs, ∃ frame, message = .terminal frame := by
  induction fuel generalizing offset outputs with
  | zero =>
    cases h
    exact fun _ hmem => absurd hmem List.not_mem_nil
  | succ fuel ih =>
    unfold pieces at h
    split at h
    · cases hread : readLog offset with
      | some e => simp [hread] at h
      | none =>
        simp only [hread] at h
        split at h
        · cases h
          exact fun _ hmem => absurd hmem List.not_mem_nil
        · cases hrest : pieces log readLog fuel ((log.read offset replayPieceBytes).1
              + (log.read offset replayPieceBytes).2.length) with
          | error e => simp [hrest, Except.map] at h
          | ok rest =>
            simp only [hrest, Except.map, Except.ok.injEq] at h
            subst h
            intro message hmem
            rcases List.mem_cons.mp hmem with rfl | hmem
            · exact ⟨_, rfl⟩
            · exact ih hrest message hmem
    · cases h
      exact fun _ hmem => absurd hmem List.not_mem_nil

/-- A replay has terminal frames only. -/
theorem terminal_of_replay {h : Holder T} {acknowledged : Option UInt64}
    {readLog : Nat → Option IoError} {replayed : List RemoteMessage}
    (hreplay : h.replay acknowledged readLog = .ok replayed) :
    ∀ message ∈ replayed, ∃ frame, message = .terminal frame := by
  unfold Holder.replay at hreplay
  dsimp only at hreplay
  split at hreplay
  · cases hreplay
    exact fun _ hmem => absurd hmem List.not_mem_nil
  · generalize hpieces : pieces h.log readLog _ _ = outputs at hreplay
    cases outputs with
    | error e => cases hreplay
    | ok outputs =>
      cases hreplay
      intro message hmem
      rcases List.mem_cons.mp hmem with rfl | hmem
      · exact ⟨_, rfl⟩
      · rcases List.mem_append.mp hmem with hmem | hmem
        · exact terminal_of_pieces hpieces message hmem
        · exact ⟨_, List.mem_singleton.mp hmem⟩

theorem OutputLog.read_length_le (log : OutputLog) (offset maximum : Nat) :
    (log.read offset maximum).2.length ≤ maximum := by
  unfold OutputLog.read
  dsimp only
  split
  · exact Nat.zero_le _
  · rw [List.length_take]
    omega

theorem encodable_output (offset : UInt64) {bytes : List UInt8}
    (h : bytes.length ≤ replayPieceBytes) :
    Encodable P (.terminal (Frame.output offset bytes)) := by
  refine encodable_terminal ?_
  have hsmall : 8 + replayPieceBytes ≤ maxFrameBytes := by decide
  show (Bytes.u64Be offset ++ bytes).length ≤ maxFrameBytes
  rw [List.length_append, Bytes.length_u64Be]
  omega

theorem encodable_offsetFrame (frameType : FrameType) (offset : UInt64) :
    Encodable P (.terminal (Frame.offsetFrame frameType offset)) := by
  refine encodable_terminal ?_
  show (Bytes.u64Be offset).length ≤ maxFrameBytes
  rw [Bytes.length_u64Be]
  decide

theorem queuePieces_eq (log : OutputLog) (readLog : Nat → Option IoError) (fuel offset : Nat)
    (c : Connection) :
    Holder.queuePieces P log readLog fuel offset c
      = (pieces log readLog fuel offset).map c.push := by
  induction fuel generalizing offset c with
  | zero => simp [Holder.queuePieces, pieces, Except.map, Connection.push_nil]
  | succ fuel ih =>
    unfold Holder.queuePieces pieces
    by_cases hlt : offset < log.tailOffset
    · rw [if_pos hlt, if_pos hlt]
      cases hread : readLog offset with
      | some e => rfl
      | none =>
        have hlength := log.read_length_le offset replayPieceBytes
        dsimp only
        by_cases hempty : (log.read offset replayPieceBytes).2 = []
        · rw [if_pos hempty, if_pos hempty, Except.map, Connection.push_nil]
        · rw [if_neg hempty, if_neg hempty,
            c.queue_of_encodable (encodable_output _ hlength)]
          dsimp only
          rw [ih]
          cases pieces log readLog fuel ((log.read offset replayPieceBytes).1
            + (log.read offset replayPieceBytes).2.length) with
          | error e => rfl
          | ok rest => simp [Except.map, Connection.push_push]
    · rw [if_neg hlt, if_neg hlt, Except.map, Connection.push_nil]

theorem Holder.queueReplay_eq (h : Holder T) (c : Connection) (acknowledged : Option UInt64)
    (readLog : Nat → Option IoError) :
    h.queueReplay P c acknowledged readLog = (h.replay acknowledged readLog).map c.push := by
  unfold Holder.queueReplay Holder.replay
  dsimp only
  by_cases hge : (acknowledged.map UInt64.toNat).getD h.log.tailOffset ≥ h.log.tailOffset
  · rw [if_pos hge, if_pos hge, Except.map, Connection.push_nil]
    rfl
  · have hbegin : Encodable P (.terminal (Frame.replayBegin (UInt64.ofNat (max
        ((acknowledged.map UInt64.toNat).getD h.log.tailOffset)
        (h.log.tailOffset - replayBudgetBytes))))) := encodable_offsetFrame _ _
    have hend : Encodable P (.terminal (Frame.replayEnd (UInt64.ofNat h.log.tailOffset))) :=
      encodable_offsetFrame _ _
    rw [if_neg hge, if_neg hge, c.queue_of_encodable hbegin]
    simp only [bind, Except.bind]
    rw [queuePieces_eq]
    cases pieces h.log readLog _ _ with
    | error e => rfl
    | ok outputs =>
      simp only [Except.map]
      rw [Connection.queue_of_encodable _ hend]
      simp [Connection.push_push]

/-! ### The handshake -/

namespace Holder

/-- The messages of a completed handshake. -/
def greeting (P : Platform T) (h : Holder T) (replayed : List RemoteMessage) :
    List RemoteMessage :=
  .helloAck (h.advanceEpoch.helloAck P) ::
    (replayed ++ [h.advanceEpoch.nextSequence.snapshotMessage P,
      .controlGranted ⟨h.advanceEpoch.state.controllerEpoch⟩])

/-- The Holder after a completed handshake. -/
def welcomed (h : Holder T) : Holder T :=
  { h.advanceEpoch.nextSequence.recordEmitted with stored := h.advanceEpoch.nextSequence.state }

/-- Nothing behind the checks of a handshake fails. -/
structure CanWelcome (P : Platform T) (h : Holder T) (acknowledged : Option UInt64)
    (calls : Calls) : Prop where
  ack : Encodable P (.helloAck (h.advanceEpoch.helloAck P))
  replay : ∃ replayed, h.replay acknowledged calls.readLog = .ok replayed
  snapshot : Encodable P (h.advanceEpoch.nextSequence.snapshotMessage P)
  granted : Encodable P (.controlGranted ⟨h.advanceEpoch.state.controllerEpoch⟩)
  stored : calls.writeState = .ok ()

theorem welcome_cases (h : Holder T) (c : Connection) (acknowledged : Option UInt64)
    (calls : Calls) :
    (h.CanWelcome P acknowledged calls ∧
      ∃ replayed, h.replay acknowledged calls.readLog = .ok replayed ∧
        h.welcome P c acknowledged calls = (.ok (), h.welcomed,
          (c.admitted h.advanceEpoch.state.controllerEpoch).push (h.greeting P replayed))) ∨
    (¬ h.CanWelcome P acknowledged calls ∧
      ∃ e h' c', h.welcome P c acknowledged calls = (.error e, h', c') ∧ c'.id = c.id ∧
        (h' = h.advanceEpoch ∨ h' = h.advanceEpoch.nextSequence ∨
          h' = h.advanceEpoch.nextSequence.recordEmitted)) := by
  have hreplay : h.advanceEpoch.replay acknowledged calls.readLog
      = h.replay acknowledged calls.readLog := rfl
  unfold welcome queueSnapshot
  dsimp only
  rcases (c.admitted h.advanceEpoch.state.controllerEpoch).queue_cases (P := P)
    (.helloAck (h.advanceEpoch.helloAck P)) with ⟨hack, hqueue⟩ | ⟨hack, e, hqueue⟩
  · rw [hqueue]
    dsimp only
    rw [queueReplay_eq, hreplay]
    cases hreplayed : h.replay acknowledged calls.readLog with
    | error e =>
      refine Or.inr ⟨?_, e, _, _, rfl, rfl, Or.inl rfl⟩
      rintro ⟨-, ⟨replayed, hok⟩, -⟩
      rw [hreplayed] at hok
      cases hok
    | ok replayed =>
      simp only [Except.map]
      rcases Connection.queue_cases (P := P)
        (((c.admitted h.advanceEpoch.state.controllerEpoch).push
          [.helloAck (h.advanceEpoch.helloAck P)]).push replayed)
        (h.advanceEpoch.nextSequence.snapshotMessage P) with
        ⟨hsnapshot, hqueue⟩ | ⟨hsnapshot, e, hqueue⟩
      · rw [hqueue]
        dsimp only
        rcases Connection.queue_cases (P := P)
          ((((c.admitted h.advanceEpoch.state.controllerEpoch).push
            [.helloAck (h.advanceEpoch.helloAck P)]).push replayed).push
              [h.advanceEpoch.nextSequence.snapshotMessage P])
          (.controlGranted ⟨h.advanceEpoch.state.controllerEpoch⟩) with
          ⟨hgranted, hqueue⟩ | ⟨hgranted, e, hqueue⟩
        · rw [hqueue]
          dsimp only
          cases hstored : calls.writeState with
          | error e =>
            refine Or.inr ⟨fun hcan => ?_, e, _, _, rfl, rfl, Or.inr (Or.inr rfl)⟩
            rw [hcan.stored] at hstored
            cases hstored
          | ok =>
            refine Or.inl ⟨⟨hack, ⟨replayed, hreplayed⟩, hsnapshot, hgranted, hstored⟩,
              replayed, rfl, ?_⟩
            simp only [Connection.push_push, greeting, List.cons_append, List.nil_append,
              List.append_assoc]
            rfl
        · rw [hqueue]
          exact Or.inr ⟨fun hcan => hgranted hcan.granted, e, _, _, rfl, rfl,
            Or.inr (Or.inr rfl)⟩
      · rw [hqueue]
        exact Or.inr ⟨fun hcan => hsnapshot hcan.snapshot, e, _, _, rfl, rfl, Or.inr (Or.inl rfl)⟩
  · rw [hqueue]
    exact Or.inr ⟨fun hcan => hack hcan.ack, e, _, _, rfl, rfl, Or.inl rfl⟩

theorem unwelcome_frame {h h' : Holder T}
    (hstate : h' = h.advanceEpoch ∨ h' = h.advanceEpoch.nextSequence ∨
      h' = h.advanceEpoch.nextSequence.recordEmitted) :
    h'.pendingConnection = h.pendingConnection ∧ h'.backlog = h.backlog ∧
      h'.connection = h.connection ∧
      h'.state.controllerEpoch = h.advanceEpoch.state.controllerEpoch ∧
      h'.stored = h.stored ∧ h'.pty = h.pty ∧ h'.pendingInput = h.pendingInput ∧
      h'.dialed = h.dialed ∧ h'.sockets = h.sockets := by
  rcases hstate with rfl | rfl | rfl <;> exact ⟨rfl, rfl, rfl, rfl, rfl, rfl, rfl, rfl, rfl⟩

/-! ### Messages of a controller -/

theorem flushInput_eq (h : Holder T) (writes : List (Except IoError Nat)) :
    ∃ written pendingInput, written ++ pendingInput = h.pty.written ++ h.pendingInput ∧
      (h.flushInput writes).2 = { h with pty := { h.pty with written }, pendingInput } := by
  induction writes generalizing h with
  | nil => exact ⟨h.pty.written, h.pendingInput, rfl, rfl⟩
  | cons result writes ih =>
    have hsame : ∃ written pendingInput, written ++ pendingInput
        = h.pty.written ++ h.pendingInput ∧
        h = { h with pty := { h.pty with written }, pendingInput } :=
      ⟨h.pty.written, h.pendingInput, rfl, rfl⟩
    unfold flushInput
    by_cases hempty : h.pendingInput = []
    · rw [if_pos hempty]
      exact hsame
    · rw [if_neg hempty]
      match result with
      | .ok 0 => exact hsame
      | .ok (count + 1) =>
        obtain ⟨written, pendingInput, hbytes, heq⟩ := ih { h with
          pendingInput := h.pendingInput.drop (count + 1)
          pty := { h.pty with written := h.pty.written ++ h.pendingInput.take (count + 1) } }
        refine ⟨written, pendingInput, ?_, heq⟩
        rw [hbytes]
        simp
      | .error e =>
        dsimp only
        split
        · exact hsame
        · split
          · exact ih h
          · exact hsame

theorem writeInput_eq (h : Holder T) (bytes : List UInt8) (writes : List (Except IoError Nat)) :
    ∃ written pendingInput budget, (h.writeInput bytes writes).2
      = { h with pty := { h.pty with written }, pendingInput, interactiveGridBudget := budget } := by
  unfold writeInput
  split
  · exact ⟨h.pty.written, h.pendingInput, h.interactiveGridBudget, rfl⟩
  · split
    · exact ⟨h.pty.written, h.pendingInput, h.interactiveGridBudget, rfl⟩
    · obtain ⟨written, pendingInput, -, heq⟩ := flushInput_eq { h with
        pendingInput := h.pendingInput ++ bytes
        interactiveGridBudget := Remote.interactiveGridBudget } writes
      exact ⟨written, pendingInput, _, heq⟩

/-- A message that carries neither output, nor a grid, nor an exit. -/
def Plain : RemoteMessage → Prop
  | .terminal frame => frame.frameType ≠ .output
  | .fullSnapshot _ | .gridDelta _ | .processExit _ => False
  | _ => True

/-- What a message of the current controller can do. -/
inductive Effect (P : Platform T) (h : Holder T) (c : Connection) : Handled T → Prop
  /-- Bytes typed, a signal sent, or nothing. -/
  | typed (result : IoResult) (pty : Pty) (pendingInput : List UInt8) (budget : Nat) :
      Effect P h c
        (result, { h with pty, pendingInput, interactiveGridBudget := budget }, c)
  /-- A reply. -/
  | replied (message : RemoteMessage) (hplain : Plain message) :
      Effect P h c (.ok (), h, c.push [message])
  /-- A resize whose state or snapshot could not be written. -/
  | halfResized (e : IoError) (cols rows : UInt16) (stored : SessionState)
      (hstored : stored = h.stored ∨ stored = (h.resized P cols rows).state) :
      Effect P h c (.error e, { h.resized P cols rows with stored }, c)
  /-- A resize and the snapshot that follows it. -/
  | resized (cols rows : UInt16) :
      Effect P h c (.ok (), { (h.resized P cols rows).recordEmitted with
        stored := (h.resized P cols rows).state }, c.push [(h.resized P cols rows).snapshotMessage P])

theorem Effect.refused (e : IoError) (h : Holder T) (c : Connection) :
    Effect P h c (.error e, h, c) :=
  .typed (.error e) h.pty h.pendingInput h.interactiveGridBudget

theorem Effect.reply {h : Holder T} {c : Connection} {message : RemoteMessage}
    (hplain : Plain message) :
    Effect P h c (match c.queue P message with
      | .error e => (.error e, h, c)
      | .ok c => (.ok (), h, c)) := by
  rcases c.queue_cases (P := P) message with ⟨-, hqueue⟩ | ⟨-, e, hqueue⟩
  · rw [hqueue]
    exact .replied message hplain
  · rw [hqueue]
    exact .refused e h c

theorem Effect.input (h : Holder T) (c : Connection) (bytes : List UInt8)
    (writes : List (Except IoError Nat)) :
    Effect P h c ((h.writeInput bytes writes).1, (h.writeInput bytes writes).2, c) := by
  obtain ⟨written, pendingInput, budget, heq⟩ := h.writeInput_eq bytes writes
  rw [heq]
  exact .typed _ _ _ _

theorem handleResize_effect (h : Holder T) (c : Connection) (frame : Frame) (calls : Calls) :
    Effect P h c (h.handleResize P c frame calls) := by
  unfold handleResize
  split
  · exact .refused _ h c
  · rename_i cols rows _
    split
    · exact .refused _ h c
    · split
      · exact .refused _ h c
      · dsimp only
        cases calls.writeState with
        | error e => exact .halfResized e cols rows h.stored (Or.inl rfl)
        | ok =>
          unfold queueSnapshot
          simp only [writeState]
          rcases c.queue_cases (P := P) ((h.resized P cols rows).snapshotMessage P) with
            ⟨-, hqueue⟩ | ⟨-, e, hqueue⟩
          · have hqueue' : c.queue P ({ h.resized P cols rows with
                stored := (h.resized P cols rows).state }.snapshotMessage P)
                  = .ok (c.push [(h.resized P cols rows).snapshotMessage P]) := hqueue
            rw [hqueue']
            exact .resized cols rows
          · have hqueue' : c.queue P ({ h.resized P cols rows with
                stored := (h.resized P cols rows).state }.snapshotMessage P) = .error e := hqueue
            rw [hqueue']
            exact .halfResized e cols rows _ (Or.inr rfl)

theorem handleFrame_effect (h : Holder T) (c : Connection) (frame : Frame) (calls : Calls) :
    Effect P h c (h.handleFrame P c frame calls) := by
  unfold handleFrame
  split
  · exact .input h c _ _
  · exact h.handleResize_effect c frame calls
  · have hplain : Plain (.terminal Frame.pong) := by simp [Plain, Frame.pong]
    exact .reply hplain
  · split
    · exact .refused _ h c
    · exact .input h c _ _
  · exact .refused _ h c

theorem handleControl_effect (h : Holder T) (c : Connection) (epoch : UInt64)
    (message : RemoteMessage) (calls : Calls) :
    Effect P h c (h.handleControl P c epoch message calls) := by
  unfold handleControl
  dsimp only
  split
  · exact .refused _ h c
  · split
    · exact h.handleFrame_effect c _ calls
    · split
      · exact .refused _ h c
      · split
        · exact .refused _ h c
        · exact .typed _ _ _ _
    · exact .reply trivial
    · exact .reply trivial
    · split
      · exact .refused _ h c
      · exact .refused _ h c
    · exact .refused _ h c

/-- The current controller may send this message, and nothing it asks for fails. -/
def Accepts (P : Platform T) (h : Holder T) (epoch : UInt64) (message : RemoteMessage)
    (calls : Calls) : Prop :=
  match message with
  | .terminal frame =>
    match frame.frameType with
    | .input => (h.writeInput frame.payload calls.ptyWrites).1 = .ok ()
    | .resize => ∃ cols rows, frame.resizePayload = some (cols, rows) ∧
        frame.payload.length = 4 ∧ validateTerminalDimensions cols rows = .ok () ∧
        calls.resize = .ok () ∧ calls.writeState = .ok () ∧
        Encodable P ((h.resized P cols rows).snapshotMessage P)
    | .ping => True
    | .scroll => ∃ direction lines col row,
        frame.scrollPayload = some (direction, lines, col, row) ∧
        (h.writeInput (h.screen.mouseWheel P.backend (P.sgrMouse h.screen.term) (direction == 0)
          lines.toNat col.toNat row.toNat) calls.ptyWrites).1 = .ok ()
    | _ => False
  | .signal signal => signal.controllerEpoch = epoch ∧ allowedSignal signal.signal = true ∧
      calls.killGroup = .ok ()
  | .acquireControl _ => Encodable P (.controlGranted ⟨epoch⟩)
  | .scrollbackRequest request => Encodable P (.scrollbackResponse ⟨request.requestId,
      h.screen.scrollbackCells P.backend request.firstRow request.maxRows⟩)
  | _ => False

theorem handleResize_ok {h : Holder T} {c : Connection} {frame : Frame} {calls : Calls}
    {cols rows : UInt16} (hpayload : frame.resizePayload = some (cols, rows))
    (hlength : frame.payload.length = 4)
    (hvalid : validateTerminalDimensions cols rows = .ok ()) (hresize : calls.resize = .ok ())
    (hstored : calls.writeState = .ok ())
    (hsnapshot : Encodable P ((h.resized P cols rows).snapshotMessage P)) :
    (h.handleResize P c frame calls).1 = .ok () := by
  have hqueue : c.queue P ({ h.resized P cols rows with
      stored := (h.resized P cols rows).state }.snapshotMessage P)
        = .ok (c.push [(h.resized P cols rows).snapshotMessage P]) :=
    c.queue_of_encodable hsnapshot
  unfold handleResize queueSnapshot
  rw [hpayload]
  dsimp only
  rw [if_neg (by simp [hlength, hvalid]), hresize, hstored]
  simp only [writeState]
  rw [hqueue]

/-- A message the current controller may send is not refused. -/
theorem handleControl_ok {h : Holder T} {c : Connection} {message : RemoteMessage}
    {calls : Calls} (haccepts : h.Accepts P h.state.controllerEpoch message calls) :
    (h.handleControl P c h.state.controllerEpoch message calls).1 = .ok () := by
  unfold handleControl
  dsimp only
  rw [if_neg (by simp)]
  cases message with
  | terminal frame =>
    unfold Accepts at haccepts
    show (h.handleFrame P c frame calls).1 = .ok ()
    unfold handleFrame
    cases htype : frame.frameType with
    | input =>
      simp only [htype] at haccepts
      exact haccepts
    | resize =>
      simp only [htype] at haccepts
      obtain ⟨cols, rows, hpayload, hlength, hvalid, hresize, hstored, hsnapshot⟩ := haccepts
      exact handleResize_ok hpayload hlength hvalid hresize hstored hsnapshot
    | ping =>
      have hpong : Encodable P (.terminal Frame.pong) :=
        encodable_terminal (Nat.zero_le _)
      dsimp only
      rw [c.queue_of_encodable hpong]
    | scroll =>
      simp only [htype] at haccepts
      obtain ⟨direction, lines, col, row, hpayload, hinput⟩ := haccepts
      dsimp only
      rw [hpayload]
      exact hinput
    | output => simp [htype] at haccepts
    | replayBegin => simp [htype] at haccepts
    | replayEnd => simp [htype] at haccepts
    | pong => simp [htype] at haccepts
    | grid => simp [htype] at haccepts
    | modes => simp [htype] at haccepts
  | signal signal =>
    obtain ⟨hepoch, hallowed, hkill⟩ := haccepts
    dsimp only
    rw [if_neg (by simp [hepoch, hallowed]), hkill]
  | acquireControl acquire =>
    dsimp only
    rw [c.queue_of_encodable haccepts]
  | scrollbackRequest request =>
    dsimp only
    rw [c.queue_of_encodable haccepts]
  | hello | helloAck | fullSnapshot | gridDelta | processExit | controlGranted | controlRevoked
  | releaseControl | scrollbackResponse | error => exact absurd haccepts id

/-! ### Queueing for the controller -/

/-- The error that announces a reseed. -/
def reseedError : RemoteMessage :=
  .error ⟨"slow_client_reseed",
    "incremental output was discarded; applying a fresh terminal snapshot", false⟩

/-- What queueing a message for the installed controller can do. -/
inductive Queued (P : Platform T) (h : Holder T) (message : RemoteMessage) :
    IoResult × Holder T → Prop
  | absent (hnone : h.connection = none) : Queued P h message (.ok (), h)
  /-- The connection is lost, with an error or without. -/
  | lost (result : IoResult) (c : Connection) (hsome : h.connection = some c) :
      Queued P h message (result, { h with connection := none })
  | appended (c : Connection) (hsome : h.connection = some c) :
      Queued P h message (.ok (), { h with connection := some (c.push [message]) })
  /-- A reseed that cannot be written. -/
  | halfReseeded (e : IoError) (h' : Holder T) (c : Connection) (hsome : h.connection = some c)
      (heq : h' = h.throwAway (c.push [message]) ∨
        h' = (h.throwAway (c.push [message])).nextSequence) :
      Queued P h message (.error e, h')
  | reseeded (c : Connection) (hsome : h.connection = some c) (hsent : c.sent = 0) :
      Queued P h message (.ok (), { (h.throwAway (c.push [message])).nextSequence.recordEmitted with
        connection := some (c.clear.push
          [reseedError, (h.throwAway (c.push [message])).nextSequence.snapshotMessage P]) })

theorem queue_queued (h : Holder T) (message : RemoteMessage) :
    Queued P h message (h.queue P message) := by
  unfold queue queueSnapshot Connection.queueError
  cases hsome : h.connection with
  | none => exact .absent hsome
  | some c =>
    dsimp only
    rcases c.queue_cases (P := P) message with ⟨-, hqueue⟩ | ⟨-, e, hqueue⟩
    · rw [hqueue]
      dsimp only
      split
      · split
        · exact .lost _ c hsome
        · rename_i hsent
          have hclear : (c.push [message]).clear = c.clear := rfl
          rw [hclear]
          rcases c.clear.queue_cases (P := P) reseedError with ⟨-, hqueue⟩ | ⟨-, e, hqueue⟩
          · unfold reseedError at hqueue
            rw [hqueue]
            dsimp only
            rcases Connection.queue_cases (P := P) (c.clear.push [reseedError])
              ((h.throwAway (c.push [message])).nextSequence.snapshotMessage P) with
              ⟨-, hqueue⟩ | ⟨-, e, hqueue⟩
            · unfold reseedError at hqueue
              rw [hqueue, Connection.push_push]
              exact .reseeded c hsome (not_not.mp hsent)
            · unfold reseedError at hqueue
              rw [hqueue]
              exact .halfReseeded e _ c hsome (Or.inr rfl)
          · unfold reseedError at hqueue
            rw [hqueue]
            exact .halfReseeded e _ c hsome (Or.inl rfl)
      · exact .appended c hsome
    · rw [hqueue]
      exact .lost _ c hsome

theorem queue_of_fits {h : Holder T} {c : Connection} {message : RemoteMessage}
    (hsome : h.connection = some c) (hencodable : Encodable P message)
    (hfits : c.outboundBytes P + frameBytes P.json message ≤ maxOutboundBytes) :
    h.queue P message = (.ok (), { h with connection := some (c.push [message]) }) := by
  have hbytes : ¬ (c.push [message]).outboundBytes P > maxOutboundBytes := by
    unfold Connection.outboundBytes Connection.push
    rw [Outbox.total_concat]
    unfold Connection.outboundBytes at hfits
    omega
  unfold queue
  rw [hsome]
  dsimp only
  rw [c.queue_of_encodable hencodable]
  dsimp only
  rw [if_neg hbytes]

/-- There is none, and no frame is half written. -/
theorem queue_of_full {h : Holder T} {c : Connection} {message : RemoteMessage}
    (hsome : h.connection = some c) (hencodable : Encodable P message) (hsent : c.sent = 0)
    (hfull : maxOutboundBytes < c.outboundBytes P + frameBytes P.json message)
    (herror : Encodable P reseedError)
    (hsnapshot : Encodable P ((h.throwAway (c.push [message])).nextSequence.snapshotMessage P)) :
    h.queue P message = (.ok (), { (h.throwAway (c.push [message])).nextSequence.recordEmitted with
      connection := some (c.clear.push
        [reseedError, (h.throwAway (c.push [message])).nextSequence.snapshotMessage P]) }) := by
  have hbytes : (c.push [message]).outboundBytes P > maxOutboundBytes := by
    unfold Connection.outboundBytes Connection.push
    rw [Outbox.total_concat]
    exact hfull
  have hclear : (c.push [message]).clear = c.clear := rfl
  unfold queue queueSnapshot Connection.queueError
  rw [hsome]
  dsimp only
  rw [c.queue_of_encodable hencodable]
  dsimp only
  rw [if_pos hbytes, if_neg (by simpa [Connection.push] using hsent), hclear]
  have hfirst := c.clear.queue_of_encodable herror
  unfold reseedError at hfirst
  rw [hfirst]
  dsimp only
  rw [Connection.queue_of_encodable _ hsnapshot, Connection.push_push]
  rfl

theorem drainChunk_cases (h : Holder T) (bytes : List UInt8) (append write : IoResult) :
    (∃ e, h.drainChunk P bytes append write = (.error e, h)) ∨
    ∃ r : IoResult × Holder T,
      (((h.connection.any fun c => c.epoch.isSome) = true ∧ Queued P (h.fed P bytes)
          (.terminal (Frame.output (UInt64.ofNat h.log.tailOffset) bytes)) r) ∨
        ((h.connection.any fun c => c.epoch.isSome) = false ∧ r = (.ok (), h.fed P bytes))) ∧
      ((∃ e, h.drainChunk P bytes append write = (.error e, r.2)) ∨
        h.drainChunk P bytes append write = r.2.persist write) := by
  unfold drainChunk
  cases append with
  | error e => exact Or.inl ⟨e, rfl⟩
  | ok =>
    right
    dsimp only
    have hconnection : (h.fed P bytes).connection = h.connection := rfl
    rw [hconnection]
    cases hany : h.connection.any fun c => c.epoch.isSome with
    | true =>
      have hqueued := (h.fed P bytes).queue_queued (P := P)
        (.terminal (Frame.output (UInt64.ofNat h.log.tailOffset) bytes))
      have hoffset : (h.log.append bytes).1 = h.log.tailOffset := rfl
      rw [if_pos rfl, hoffset]
      generalize (h.fed P bytes).queue P
        (.terminal (Frame.output (UInt64.ofNat h.log.tailOffset) bytes)) = r at hqueued
      refine ⟨r, Or.inl ⟨rfl, hqueued⟩, ?_⟩
      rcases r with ⟨result, h'⟩
      cases result with
      | error e => exact Or.inl ⟨e, rfl⟩
      | ok => exact Or.inr rfl
    | false =>
      rw [if_neg (by simp)]
      exact ⟨_, Or.inr ⟨rfl, rfl⟩, Or.inr rfl⟩

/-! ### The end of a read -/

theorem setSocket_received {h : Holder T} {written : Nat} {socket : Socket}
    (hmore : (h.sockets written).received <+: socket.received) (id : Nat) :
    (h.sockets id).received <+: ((h.setSocket written socket).sockets id).received := by
  unfold setSocket
  dsimp only
  split
  · rename_i heq
    rw [heq]
    exact hmore
  · exact List.prefix_rfl

theorem queued_id (previous : Connection) (message : RemoteMessage) :
    (match previous.queue P message with
      | .ok queued => queued
      | .error _ => previous).id = previous.id := by
  rcases previous.queue_cases (P := P) message with ⟨-, hqueue⟩ | ⟨-, e, hqueue⟩
  · rw [hqueue]
    rfl
  · rw [hqueue]

/-- The controller that is superseded goes; only its socket changes. -/
theorem revokePrevious_eq (h : Holder T) (writes : List (Except IoError Nat)) :
    ∃ sockets, (∀ id, (∀ c, h.connection = some c → c.id ≠ id) → sockets id = h.sockets id) ∧
      (∀ id, (h.sockets id).received <+: (sockets id).received) ∧
      h.revokePrevious P writes = { h with connection := none, sockets } := by
  unfold revokePrevious
  split
  · rename_i hnone
    refine ⟨h.sockets, fun _ _ => rfl, fun _ => List.prefix_rfl, ?_⟩
    rw [← hnone]
  · rename_i previous hsome
    refine ⟨_, ?_, ?_, rfl⟩
    · intro id hother
      refine if_neg fun heq => hother previous hsome ?_
      rw [heq]
      exact (queued_id previous _).symm
    · exact setSocket_received (Connection.flush_received _ _ _)

theorem putBack_cases (h : Holder T) (slot : Slot) (c : Connection)
    (writes : List (Except IoError Nat)) :
    (slot = .installed ∧ h.putBack P slot c writes = { h with connection := some c }) ∨
    (slot = .pending ∧ c.epoch = none ∧
      h.putBack P slot c writes = { h with pendingConnection := some c }) ∨
    (slot = .pending ∧ c.epoch ≠ none ∧
      h.putBack P slot c writes = { h.revokePrevious P writes with connection := some c }) := by
  cases slot with
  | installed => exact Or.inl ⟨rfl, rfl⟩
  | pending =>
    unfold putBack
    cases hepoch : c.epoch with
    | none => exact Or.inr (Or.inl ⟨rfl, rfl, rfl⟩)
    | some epoch => exact Or.inr (Or.inr ⟨rfl, by simp, rfl⟩)

/-! ### One message of a read -/

/-- A message on a connection without an epoch is refused, or it is a `Hello` past the checks. -/
theorem handleMessage_first (h : Holder T) {c : Connection} (hepoch : c.epoch = none)
    (message : RemoteMessage) (calls : Calls) :
    (∃ e, h.handleMessage P c message calls = (.error e, h, c)) ∨
    ∃ hello, message = .hello hello ∧ h.refusal hello calls.authenticate = none ∧
      h.handleMessage P c message calls
        = h.welcome P c hello.lastAcknowledgedOutputOffset calls := by
  unfold handleMessage
  rw [hepoch]
  dsimp only
  split
  · rename_i hello
    unfold handshake
    cases hrefusal : h.refusal hello calls.authenticate with
    | some e => exact Or.inl ⟨e, rfl⟩
    | none => exact Or.inr ⟨hello, rfl, hrefusal, rfl⟩
  · exact Or.inl ⟨_, rfl⟩

theorem handleMessage_control (h : Holder T) {c : Connection} {epoch : UInt64}
    (hepoch : c.epoch = some epoch) (message : RemoteMessage) (calls : Calls) :
    h.handleMessage P c message calls = h.handleControl P c epoch message calls := by
  unfold handleMessage
  rw [hepoch]

/-- What reading one message can do. -/
inductive Reads (P : Platform T) (h : Holder T) (slot : Slot) (c : Connection)
    (message : RemoteMessage) (calls : Calls) : Holder T → Prop
  /-- A connection without an epoch is refused before anything changes. -/
  | refused (e : IoError) (hnone : c.epoch = none) :
      Reads P h slot c message calls
        (h.closeReading P c "protocol_error" e.message calls.fatalWritten)
  | welcomed (hello : Hello) (replayed : List RemoteMessage) (hmessage : message = .hello hello)
      (hnone : c.epoch = none) (hrefusal : h.refusal hello calls.authenticate = none)
      (hcan : h.CanWelcome P hello.lastAcknowledgedOutputOffset calls)
      (hreplay : h.replay hello.lastAcknowledgedOutputOffset calls.readLog = .ok replayed) :
      Reads P h slot c message calls { h.welcomed with
        reading := some (slot, (c.admitted h.advanceEpoch.state.controllerEpoch).push
          (h.greeting P replayed)) }
  /-- The handshake fails behind its checks. -/
  | unwelcome (hello : Hello) (e : IoError) (h' : Holder T) (c' : Connection)
      (hmessage : message = .hello hello) (hnone : c.epoch = none)
      (hrefusal : h.refusal hello calls.authenticate = none)
      (hcannot : ¬ h.CanWelcome P hello.lastAcknowledgedOutputOffset calls)
      (hid : c'.id = c.id)
      (hstate : h' = h.advanceEpoch ∨ h' = h.advanceEpoch.nextSequence ∨
        h' = h.advanceEpoch.nextSequence.recordEmitted) :
      Reads P h slot c message calls
        (h'.closeReading P c' "protocol_error" e.message calls.fatalWritten)
  | handled (epoch : UInt64) (h' : Holder T) (c' : Connection) (hepoch : c.epoch = some epoch)
      (heffect : Effect P h c (.ok (), h', c')) :
      Reads P h slot c message calls { h' with reading := some (slot, c') }
  /-- A controller is refused. -/
  | closed (epoch : UInt64) (e : IoError) (h' : Holder T) (c' : Connection)
      (hepoch : c.epoch = some epoch)
      (hrefused : epoch = h.state.controllerEpoch → ¬ h.Accepts P epoch message calls)
      (heffect : Effect P h c (.error e, h', c')) :
      Reads P h slot c message calls
        (h'.closeReading P c' "protocol_error" e.message calls.fatalWritten)

theorem readMessage_reads {h : Holder T} {slot : Slot} {c : Connection}
    (hreading : h.reading = some (slot, c)) (message : RemoteMessage) (calls : Calls) :
    Reads P h slot c message calls (h.readMessage P message calls) := by
  unfold readMessage
  rw [hreading]
  dsimp only
  cases hepoch : c.epoch with
  | none =>
    rcases h.handleMessage_first (P := P) hepoch message calls with
      ⟨e, heq⟩ | ⟨hello, hmessage, hrefusal, heq⟩
    · rw [heq]
      exact .refused e hepoch
    · rw [heq]
      rcases h.welcome_cases (P := P) c hello.lastAcknowledgedOutputOffset calls with
        ⟨hcan, replayed, hreplay, hwelcome⟩ | ⟨hcannot, e, h', c', hwelcome, hid, hstate⟩
      · rw [hwelcome]
        exact .welcomed hello replayed hmessage hepoch hrefusal hcan hreplay
      · rw [hwelcome]
        exact .unwelcome hello e h' c' hmessage hepoch hrefusal hcannot hid hstate
  | some epoch =>
    rw [h.handleMessage_control hepoch message calls]
    have heffect := h.handleControl_effect (P := P) c epoch message calls
    have hok : epoch = h.state.controllerEpoch → h.Accepts P epoch message calls →
        (h.handleControl P c epoch message calls).1 = .ok () := by
      rintro rfl
      exact handleControl_ok
    generalize h.handleControl P c epoch message calls = r at heffect hok
    obtain ⟨result, h', c'⟩ := r
    cases result with
    | ok => exact .handled epoch h' c' hepoch heffect
    | error e =>
      refine .closed epoch e h' c' hepoch ?_ heffect
      intro hsame haccepts
      exact absurd (hok hsame haccepts) (by simp)

theorem step_cases (h : Holder T) (event : HolderEvent) :
    (step P h event).1 = h ∨ (event = .dial ∧ (step P h event).1 = h.dial) ∨
    (∃ message calls, event = .message message calls ∧
      (step P h event).1 = h.readMessage P message calls) ∨
    (∃ ending writes, event = .endRead ending writes ∧
      (step P h event).1 = h.endRead P ending writes) ∨
    (h.reading = none ∧ (step P h event).1 = h.between P event) := by
  unfold step
  split
  · exact Or.inl rfl
  · split
    · exact Or.inr (Or.inl ⟨rfl, rfl⟩)
    · exact Or.inr (Or.inr (Or.inl ⟨_, _, rfl, rfl⟩))
    · exact Or.inr (Or.inr (Or.inr (Or.inl ⟨_, _, rfl, rfl⟩)))
    · split
      · exact Or.inl rfl
      · rename_i hreading
        exact Or.inr (Or.inr (Or.inr (Or.inr ⟨by simpa using hreading, rfl⟩)))

end Holder

end Homie.Remote
