/-
Output over reconnects.

The engine asks for the output behind its offset at every `Hello`.  What the Holder then
sends on the connection are pieces of one stream, each beginning at or before the place
the ones before it reached: first the replay, then every chunk as it comes.  A reseed
throws queued pieces away, and the bytes in them are `Discarded`; nothing else is missing.

The offset of the engine is its place in the stream, and `Replay.Holds` says what it has
logged: the stream up to there but for discarded bytes, each byte once and in its order.
-/
import Homie.Lib.Replay
import Homie.Proofs.HolderStreams
import Homie.Proofs.RemoteSteps

set_option maxRecDepth 60000

namespace Homie.Remote

open Replay

variable {T : Type} {P : Platform T} {client : RemoteClient}

/-! ### Pieces of output -/

/-- The offset and the bytes of an `Output` message. -/
def piece : RemoteMessage → Option (Nat × List UInt8)
  | .terminal frame => frame.outputPayload.map fun payload => (payload.1.toNat, payload.2)
  | _ => none

/-- The pieces of output among some messages. -/
def outputs (messages : List RemoteMessage) : List (Nat × List UInt8) := messages.filterMap piece

/-- The byte at this place was in a message that a reseed threw away. -/
def Ledger.Discarded (ledger : Ledger T) (i : Nat) : Prop :=
  ∃ lost ∈ outputs ledger.discarded, lost.1 ≤ i ∧ i < lost.1 + lost.2.length

theorem piece_output (offset : Nat) (h : offset < 2 ^ 64) (bytes : List UInt8) :
    piece (.terminal (Frame.output (UInt64.ofNat offset) bytes)) = some (offset, bytes) := by
  have hlength : (Bytes.u64Be (UInt64.ofNat offset)).length = 8 := Bytes.length_u64Be _
  have htake : (Bytes.u64Be (UInt64.ofNat offset) ++ bytes).take 8
      = Bytes.u64Be (UInt64.ofNat offset) := List.take_left' hlength
  have hdrop : (Bytes.u64Be (UInt64.ofNat offset) ++ bytes).drop 8 = bytes :=
    List.drop_left' hlength
  have hpayload : (Frame.output (UInt64.ofNat offset) bytes).outputPayload
      = some (UInt64.ofNat offset, bytes) := by
    unfold Frame.outputPayload Frame.output
    rw [if_neg (by simp [hlength]), htake, hdrop, Bytes.readU64Be_u64Be]
  simp only [piece]
  rw [hpayload, Option.map_some, UInt64.toNat_ofNat_of_lt' h]

theorem piece_of_plain {message : RemoteMessage} (h : Holder.Plain message) :
    piece message = none := by
  cases message with
  | terminal frame =>
    have hother : frame.frameType ≠ .output := h
    simp only [piece, Frame.outputPayload]
    rw [if_pos (Or.inl hother)]
    rfl
  | _ => rfl

theorem outputs_append (front back : List RemoteMessage) :
    outputs (front ++ back) = outputs front ++ outputs back :=
  List.filterMap_append

theorem outputs_concat_none {message : RemoteMessage} (h : piece message = none)
    (messages : List RemoteMessage) : outputs (messages ++ [message]) = outputs messages := by
  rw [outputs_append]
  simp [outputs, h]

/-! ### Streams without gaps -/

/-- The pieces sent go on where `place` is. -/
def Sent (place : Nat) (ledger : Ledger T) (messages : List RemoteMessage) : Prop :=
  ledger.history.length < 2 ^ 64 → Gapless ledger.history ledger.Discarded place (outputs messages)

/-- The same, and nothing up to the end of the stream is missing. -/
def Sending (place : Nat) (ledger : Ledger T) (messages : List RemoteMessage) : Prop :=
  ledger.history.length < 2 ^ 64 → Gapless ledger.history ledger.Discarded place
    (outputs messages ++ [(ledger.history.length, [])])

variable {place : Nat} {ledger ledger' : Ledger T} {messages : List RemoteMessage}
  {message : RemoteMessage}

theorem Sending.sent (h : Sending place ledger messages) : Sent place ledger messages :=
  fun hsize => (gapless_append.mp (h hsize)).1

theorem Sent.take {more : List RemoteMessage} (h : Sent place ledger (messages ++ more)) :
    Sent place ledger messages := by
  intro hsize
  have hall := h hsize
  rw [outputs_append] at hall
  exact (gapless_append.mp hall).1

theorem Sent.concat (h : Sent place ledger messages) (hnone : piece message = none) :
    Sent place ledger (messages ++ [message]) := by
  unfold Sent
  rw [outputs_concat_none hnone]
  exact h

theorem Sending.concat (h : Sending place ledger messages) (hnone : piece message = none) :
    Sending place ledger (messages ++ [message]) := by
  unfold Sending
  rw [outputs_concat_none hnone]
  exact h

theorem Ledger.Discarded.mono {i : Nat} (h : ledger.Discarded i)
    (hsubset : ledger.discarded ⊆ ledger'.discarded) : ledger'.Discarded i := by
  obtain ⟨lost, hlost, hinside⟩ := h
  obtain ⟨message, hmem, hpiece⟩ := List.mem_filterMap.mp hlost
  exact ⟨lost, List.mem_filterMap.mpr ⟨message, hsubset hmem, hpiece⟩, hinside⟩

theorem Sent.grow (h : Sent place ledger messages) (hgrows : Ledger.Grows ledger ledger') :
    Sent place ledger' messages := by
  intro hsize
  have hlength := hgrows.history.length_le
  exact (h (by omega)).mono hgrows.history fun _ hlost => hlost.mono hgrows.discarded

theorem Sending.drain {h : Holder T} (hrecorded : h.Recorded) (bytes : List UInt8)
    (hsending : Sending place h.ledger messages) :
    Sending place (h.fed P bytes).ledger
      (messages ++ [.terminal (Frame.output (UInt64.ofNat h.log.tailOffset) bytes)]) := by
  intro hsize
  have htail := hrecorded.tailOffset
  have hhistory : (h.fed P bytes).ledger.history = h.ledger.history ++ bytes := rfl
  rw [hhistory, List.length_append] at hsize
  have hpiece := piece_output h.log.tailOffset (by omega) bytes
  have hold := gapless_append.mp (hsending (by omega))
  obtain ⟨-, hgap⟩ := gapless_singleton.mp hold.2
  have hsits : Sits (h.ledger.history ++ bytes) h.log.tailOffset bytes := by
    rw [htail]
    exact ⟨by simp, by simp⟩
  have houtputs : outputs (messages ++
      [.terminal (Frame.output (UInt64.ofNat h.log.tailOffset) bytes)])
        = outputs messages ++ [(h.log.tailOffset, bytes)] := by
    rw [outputs_append]
    simp [outputs, hpiece]
  rw [houtputs, List.append_assoc, hhistory, List.length_append]
  refine gapless_append.mpr ⟨hold.1.mono (List.prefix_append _ _) fun _ hlost => hlost, ?_⟩
  refine ⟨⟨hsits, ?_⟩, ⟨⟨by simp, by simp⟩, ?_⟩, trivial⟩
  · intro i hle hlt
    exact hgap i hle (by rw [← htail]; exact hlt)
  · intro i hle hlt
    have := hle.trans_lt hlt
    simp only [htail] at this
    omega

theorem Sending.discard {more : List RemoteMessage} (h : Sending place ledger (messages ++ more))
    (hhistory : ledger'.history = ledger.history)
    (hdiscarded : ledger'.discarded = ledger.discarded ++ more) :
    Sending place ledger' messages := by
  intro hsize
  rw [hhistory] at hsize ⊢
  have hall := h hsize
  rw [outputs_append, List.append_assoc] at hall
  obtain ⟨hfront, hback⟩ := gapless_append.mp hall
  have hkept : ∀ i, ledger.Discarded i → ledger'.Discarded i := by
    intro i hlost
    refine hlost.mono ?_
    rw [hdiscarded]
    exact List.subset_append_left _ _
  refine gapless_append.mpr ⟨hfront.mono List.prefix_rfl hkept, ?_⟩
  refine gapless_singleton.mpr ⟨⟨Nat.le_refl _, by simp⟩, ?_⟩
  intro i hle hlt
  have hreached : i < reached (reached place (outputs messages))
      (outputs more ++ [(ledger.history.length, [])]) := by
    rw [reached_append]
    exact hlt.trans_le (Nat.le_max_right _ _)
  rcases hback.covered hle hreached with hlost | ⟨lost, hmem, hinside⟩
  · exact hkept i hlost
  · rcases List.mem_append.mp hmem with hmem | hmem
    · refine ⟨lost, ?_, hinside⟩
      rw [hdiscarded, outputs_append]
      exact List.mem_append_right _ hmem
    · -- the end of the stream holds nothing
      rw [List.mem_singleton.mp hmem] at hinside
      simp at hinside
      omega

/-! ### Replay -/

theorem read_eq {h : Holder T} (hrecorded : h.Recorded) {offset : Nat}
    (hbase : h.log.baseOffset ≤ offset) (htail : offset < h.log.tailOffset) :
    (h.log.read offset replayPieceBytes).1 = offset ∧
      Sits h.ledger.history offset (h.log.read offset replayPieceBytes).2 ∧
      (h.log.read offset replayPieceBytes).2 ≠ [] := by
  have hmax : max offset h.log.baseOffset = offset := Nat.max_eq_left hbase
  have hpiece : replayPieceBytes ≠ 0 := by decide
  have hsits := hrecorded.log.sits
  unfold OutputLog.read
  dsimp only
  rw [hmax, if_neg (by omega)]
  generalize hcount : min (h.log.tailOffset - offset) replayPieceBytes = count
  have hlength : offset - h.log.baseOffset < h.log.payload.length := by
    unfold OutputLog.tailOffset at htail
    omega
  refine ⟨rfl, ?_, ?_⟩
  · have hdrop := sits_drop hsits (Nat.le_of_lt hlength)
    rw [show h.log.baseOffset + (offset - h.log.baseOffset) = offset by omega] at hdrop
    exact ⟨hdrop.1, (List.take_prefix _ _).trans hdrop.2⟩
  · have hpos : 0 < replayPieceBytes := by decide
    intro hnil
    have := congrArg List.length hnil
    rw [List.length_take, List.length_drop, List.length_nil] at this
    omega

theorem gapless_pieces {h : Holder T} (hrecorded : h.Recorded) {lost : Nat → Prop}
    (hsize : h.ledger.history.length < 2 ^ 64) {readLog : Nat → Option IoError} (fuel : Nat) :
    ∀ {offset : Nat} {replayed : List RemoteMessage}, h.log.baseOffset ≤ offset →
      h.log.tailOffset ≤ offset + fuel → pieces h.log readLog fuel offset = .ok replayed →
      Gapless h.ledger.history lost offset
        (outputs replayed ++ [(h.ledger.history.length, [])]) := by
  have htail := hrecorded.tailOffset
  have hend : ∀ offset, h.log.tailOffset ≤ offset → Gapless h.ledger.history lost offset
      (outputs [] ++ [(h.ledger.history.length, [])]) := by
    intro offset hle
    refine gapless_singleton.mpr ⟨⟨Nat.le_refl _, by simp⟩, ?_⟩
    intro i hi hlt
    omega
  induction fuel with
  | zero =>
    intro offset replayed _ hfuel hpieces
    cases hpieces
    exact hend offset (by omega)
  | succ fuel ih =>
    intro offset replayed hbase hfuel hpieces
    unfold pieces at hpieces
    by_cases hlt : offset < h.log.tailOffset
    · rw [if_pos hlt] at hpieces
      obtain ⟨hoffset, hsits, hne⟩ := read_eq hrecorded hbase hlt
      cases hread : readLog offset with
      | some e => simp [hread] at hpieces
      | none =>
        simp only [hread] at hpieces
        rw [if_neg hne, hoffset] at hpieces
        generalize (h.log.read offset replayPieceBytes).2 = bytes at hpieces hsits hne
        have hpos := List.length_pos_iff.mpr hne
        have hinside := hsits.length_le
        cases hrest : pieces h.log readLog fuel (offset + bytes.length) with
        | error e => simp [hrest, Except.map] at hpieces
        | ok rest =>
          simp only [hrest, Except.map, Except.ok.injEq] at hpieces
          subst hpieces
          have hpiece := piece_output offset (by omega) bytes
          have houtputs : outputs (.terminal (Frame.output (UInt64.ofNat offset) bytes) ::
              rest) = (offset, bytes) :: outputs rest := by
            simp [outputs, hpiece]
          rw [houtputs, List.cons_append]
          refine ⟨⟨hsits, fun i hle hlt => by omega⟩, ?_⟩
          have hplace : max offset (offset + bytes.length) = offset + bytes.length := by
            omega
          rw [hplace]
          exact ih (by omega) (by omega) hrest
    · rw [if_neg hlt] at hpieces
      cases hpieces
      exact hend offset (by omega)

namespace Holder

/--
The log still has everything from the offset a `Hello` on connection `id` asks for, and
that is no more than a replay may have.
-/
def Retains (id : Nat) (h : Holder T) (event : HolderEvent) : Prop :=
  ∀ slot c hello calls offset, event = .message (.hello hello) calls →
    h.reading = some (slot, c) → c.id = id → c.epoch = none →
    hello.lastAcknowledgedOutputOffset = some offset → offset.toNat < h.log.tailOffset →
    h.log.baseOffset ≤ offset.toNat ∧ h.log.tailOffset ≤ offset.toNat + replayBudgetBytes

/-- The first `Hello` on connection `id` asks for the output from `place` on. -/
def Asks (id place : Nat) (h : Holder T) (event : HolderEvent) : Prop :=
  ∀ slot c hello calls, event = .message (.hello hello) calls → h.reading = some (slot, c) →
    c.id = id → c.epoch = none →
    hello.lastAcknowledgedOutputOffset = some (UInt64.ofNat place)

theorem outputs_replay (start tail : UInt64) (sent : List RemoteMessage) :
    outputs (.terminal (Frame.replayBegin start) :: (sent ++ [.terminal (Frame.replayEnd tail)]))
      = outputs sent := by
  have hbegin : piece (.terminal (Frame.replayBegin start)) = none :=
    piece_of_plain (show FrameType.replayBegin ≠ .output by decide)
  have hend : piece (.terminal (Frame.replayEnd tail)) = none :=
    piece_of_plain (show FrameType.replayEnd ≠ .output by decide)
  exact (List.filterMap_cons_none hbegin).trans (outputs_concat_none hend sent)

theorem sending_replay {h : Holder T} (hrecorded : h.Recorded) (hplace : place < 2 ^ 64)
    (hretains : place < h.log.tailOffset →
      h.log.baseOffset ≤ place ∧ h.log.tailOffset ≤ place + replayBudgetBytes)
    {readLog : Nat → Option IoError} {replayed : List RemoteMessage}
    (hreplay : h.replay (some (UInt64.ofNat place)) readLog = .ok replayed) :
    Sending place h.ledger replayed := by
  intro hsize
  have htail := hrecorded.tailOffset
  unfold replay at hreplay
  dsimp only at hreplay
  rw [Option.map_some, Option.getD_some, UInt64.toNat_ofNat_of_lt' hplace] at hreplay
  by_cases hge : place ≥ h.log.tailOffset
  · rw [if_pos hge] at hreplay
    cases hreplay
    refine gapless_singleton.mpr ⟨⟨Nat.le_refl _, by simp⟩, ?_⟩
    intro i hle hlt
    omega
  · rw [if_neg hge] at hreplay
    obtain ⟨hbase, hbudget⟩ := hretains (by omega)
    have hstart : max place (h.log.tailOffset - replayBudgetBytes) = place := by omega
    rw [hstart] at hreplay
    cases hpieces : pieces h.log readLog (h.log.tailOffset - place) place with
    | error e =>
      rw [hpieces] at hreplay
      cases hreplay
    | ok sent =>
      rw [hpieces] at hreplay
      cases hreplay
      rw [outputs_replay]
      exact gapless_pieces hrecorded hsize _ hbase (by omega) hpieces

theorem piece_gridMessage (h : Holder T) (grid : GridUpdate) :
    piece (h.gridMessage P grid) = none := by
  unfold gridMessage
  split
  · rfl
  · rfl

theorem sending_greeting {h : Holder T} (hrecorded : h.Recorded) (hplace : place < 2 ^ 64)
    {id : Nat} {slot : Slot} {c : Connection} {hello : Hello} {calls : Calls}
    (hreading : h.reading = some (slot, c)) (hid : c.id = id) (hnone : c.epoch = none)
    (hretains : h.Retains id (.message (.hello hello) calls))
    (hasks : h.Asks id place (.message (.hello hello) calls)) {replayed : List RemoteMessage}
    (hreplay : h.replay hello.lastAcknowledgedOutputOffset calls.readLog = .ok replayed) :
    Sending place h.welcomed.ledger (h.greeting P replayed) := by
  have hoffset := hasks slot c hello calls rfl hreading hid hnone
  have hkept := hretains slot c hello calls _ rfl hreading hid hnone hoffset
  rw [UInt64.toNat_ofNat_of_lt' hplace] at hkept
  rw [hoffset] at hreplay
  have hsending := sending_replay hrecorded hplace hkept hreplay
  have houtputs : outputs (h.greeting P replayed) = outputs replayed := by
    unfold greeting
    rw [outputs, List.filterMap_cons_none rfl, List.filterMap_append]
    exact List.append_nil _
  intro hsize
  rw [houtputs]
  exact hsending hsize

/-- The messages for connection `id` bring everything from `place` on. -/
theorem carries_sending (id : Nat) (hplace : place < 2 ^ 64) :
    Carries P id (fun h event => h.Retains id event ∧ h.Asks id place event)
      (Sent (T := T) place) (Sending place) where
  nil := fun _ _ => trivial
  past := fun h => h.sent
  take := fun h => h.take
  pastPlain := fun hplain h => h.concat (piece_of_plain hplain)
  livePlain := fun hplain h => h.concat (piece_of_plain hplain)
  grow := fun hgrows h => h.grow hgrows
  emitted := fun _ h => h
  exited := fun _ _ h => h
  greet := fun hrecorded hreading hid hnone hok hreplay =>
    sending_greeting hrecorded hplace hreading hid hnone hok.1 hok.2 hreplay
  resize := fun _ _ _ h => h.concat rfl
  drain := fun bytes hrecorded h => h.drain hrecorded bytes
  emit := fun _ _ _ _ _ _ _ h => h.concat (piece_gridMessage _ _)
  exit := fun _ _ _ _ _ h => h.concat rfl
  reseed := by
    intro h c messages _ hsending
    have hkept : Sending place (h.throwAway c).nextSequence.recordEmitted.ledger messages :=
      hsending.discard rfl rfl
    have hboth : Sending place (h.throwAway c).nextSequence.recordEmitted.ledger
        (messages ++ [reseedError] ++ [(h.throwAway c).nextSequence.snapshotMessage P]) :=
      (hkept.concat rfl).concat rfl
    rw [List.append_assoc] at hboth
    exact hboth

end Holder

/-! ### The engine's log -/

namespace RemotePump

theorem log_applyRemoteSnapshot (pump : RemotePump T) (snapshot : FullSnapshot) :
    (pump.applyRemoteSnapshot P snapshot).2.outputOffset = pump.outputOffset ∧
      (pump.applyRemoteSnapshot P snapshot).2.log = pump.log := by
  unfold applyRemoteSnapshot
  split
  · exact ⟨rfl, rfl⟩
  · split <;> exact ⟨rfl, rfl⟩

theorem log_applyRemoteDelta (pump : RemotePump T) (delta : GridDelta) :
    (pump.applyRemoteDelta delta).2.outputOffset = pump.outputOffset ∧
      (pump.applyRemoteDelta delta).2.log = pump.log := by
  unfold applyRemoteDelta
  split
  · exact ⟨rfl, rfl⟩
  · split <;> exact ⟨rfl, rfl⟩

theorem log_of_piece_none (P : Platform T) (client : RemoteClient) (pump : RemotePump T)
    (link : Link) (hnone : piece message = none) (grant : IoResult) :
    let r := pump.handleRemoteMessage P client link message grant
    r.2.1.outputOffset = pump.outputOffset ∧ r.2.1.log = pump.log := by
  cases message with
  | helloAck ack =>
    simp only [handleRemoteMessage, acceptHello]
    split
    · exact ⟨rfl, rfl⟩
    · cases ack.processState <;> exact ⟨rfl, rfl⟩
  | terminal frame =>
    simp only [handleRemoteMessage, RemotePump.handleFrame]
    split
    · exact ⟨rfl, rfl⟩
    · cases frame.frameType with
      | output =>
        cases hpayload : frame.outputPayload with
        | none => exact ⟨rfl, rfl⟩
        | some payload =>
          simp only [piece, hpayload] at hnone
          cases hnone
      | _ => exact ⟨rfl, rfl⟩
  | fullSnapshot snapshot =>
    simp only [handleRemoteMessage]
    split
    · exact ⟨rfl, rfl⟩
    · exact pump.log_applyRemoteSnapshot snapshot
  | gridDelta delta =>
    simp only [handleRemoteMessage]
    split
    · exact ⟨rfl, rfl⟩
    · exact pump.log_applyRemoteDelta delta
  | controlGranted granted =>
    simp only [handleRemoteMessage]
    split
    · exact ⟨rfl, rfl⟩
    · split <;> exact ⟨rfl, rfl⟩
  | _ =>
    simp only [handleRemoteMessage]
    split <;> exact ⟨rfl, rfl⟩

theorem log_of_piece_some (P : Platform T) (client : RemoteClient) (pump : RemotePump T)
    (link : Link) {offset : Nat} {bytes : List UInt8} (hpiece : piece message = some (offset, bytes))
    (grant : IoResult) :
    let r := pump.handleRemoteMessage P client link message grant
    (r.1 ≠ .proceed ∧ r.2.1 = pump) ∨
      ∃ at64 : UInt64, at64.toNat = offset ∧ r.2.1 = pump.applyRemoteOutput P at64 bytes := by
  cases message with
  | terminal frame =>
    obtain ⟨payload, hpayload, heq⟩ := Option.map_eq_some_iff.mp hpiece
    obtain ⟨rfl, rfl⟩ := Prod.mk.inj heq
    have htype : frame.frameType = .output := by
      by_contra hother
      unfold Frame.outputPayload at hpayload
      rw [if_pos (Or.inl hother)] at hpayload
      cases hpayload
    simp only [handleRemoteMessage, RemotePump.handleFrame, htype, hpayload]
    split
    · exact Or.inl ⟨by simp, rfl⟩
    · exact Or.inr ⟨payload.1, rfl, rfl⟩
  | _ => cases hpiece

theorem applyRemoteOutput_eq (pump : RemotePump T) (offset : UInt64) (bytes : List UInt8)
    (hsize : offset.toNat + bytes.length < 2 ^ 64) :
    let pump' := pump.applyRemoteOutput P offset bytes
    (bytes = [] ∧ pump'.outputOffset = pump.outputOffset ∧ pump'.log = pump.log) ∨
      (pump'.outputOffset, pump'.log)
        = receive pump.outputOffset pump.log offset.toNat bytes := by
  have hend : outputEnd offset bytes = offset.toNat + bytes.length := by
    unfold outputEnd
    omega
  unfold applyRemoteOutput receive
  dsimp only
  rw [hend]
  by_cases hold : offset.toNat + bytes.length ≤ pump.outputOffset
  · rw [if_pos hold, if_pos hold]
    exact Or.inr rfl
  · rw [if_neg hold, if_neg hold]
    have hskip : min (pump.outputOffset - offset.toNat) bytes.length
        = pump.outputOffset - offset.toNat := by omega
    rw [hskip]
    split
    · rename_i hempty
      have hshort := List.drop_eq_nil_iff.mp hempty
      have hnil : bytes = [] := List.length_eq_zero_iff.mp (by omega)
      exact Or.inl ⟨hnil, rfl, rfl⟩
    · exact Or.inr rfl

end RemotePump

namespace RemoteSystem

/-- What the engine has logged, and that its connection goes on there. -/
structure Logged (P : Platform T) (start : Nat) (s : RemoteSystem T) : Prop where
  wired : s.holder.Wired
  recorded : s.holder.Recorded
  small : s.pump.outputOffset < 2 ^ 64
  holds : Replay.Holds s.holder.ledger.history s.holder.ledger.Discarded start s.pump.outputOffset
    s.pump.log
  linked : ∀ link, s.pump.link = some link → ∃ place < 2 ^ 64,
    link.hello.lastAcknowledgedOutputOffset = some (UInt64.ofNat place) ∧
    Holder.Carried P link.id (Sent place) (Sending place) s.holder ∧
    link.read ≤ (s.holder.sockets link.id).received.length ∧
    ∀ i, s.pump.outputOffset ≤ i → i < reached place (outputs (s.handled link)) →
      s.holder.ledger.Discarded i

theorem asks_of_hears {s : RemoteSystem T} {event : HolderEvent} (hhears : s.hears event = true)
    {link : Link} (hlink : s.pump.link = some link)
    (hplace : link.hello.lastAcknowledgedOutputOffset = some (UInt64.ofNat place)) :
    s.holder.Asks link.id place event := by
  rintro slot c hello calls rfl hreading hid hnone
  simp only [hears, hlink, hreading] at hhears
  rw [if_pos ⟨hid, hnone⟩] at hhears
  rw [of_decide_eq_true hhears]
  exact hplace

theorem Logged.holder {start : Nat} {s : RemoteSystem T} (h : Logged P start s)
    {event : HolderEvent} (hhears : s.hears event = true)
    (hretains : ∀ link, s.pump.link = some link → s.holder.Retains link.id event) :
    Logged P start { s with holder := (s.holder.step P event).1 } := by
  have hcounts := s.holder.counts_step (P := P) event
  have hdiscarded : ∀ i, s.holder.ledger.Discarded i →
      (s.holder.step P event).1.ledger.Discarded i :=
    fun i hlost => hlost.mono hcounts.discarded.subset
  refine ⟨h.wired.step event, h.recorded.step event, h.small,
    h.holds.mono hcounts.history hdiscarded, ?_⟩
  intro link hlink
  obtain ⟨place, hplace, hhello, hcarried, hread, hgap⟩ := h.linked link hlink
  have hreceived := s.holder.step_received (P := P) event link.id
  refine ⟨place, hplace, hhello, ?_, hread.trans hreceived.length_le, ?_⟩
  · exact hcarried.step (Holder.carries_sending link.id hplace) h.wired h.recorded
      ⟨hretains link hlink, asks_of_hears hhears hlink hhello⟩
  · rw [handled_holder hread]
    exact fun i hle hlt => hdiscarded i (hgap i hle hlt)

theorem Logged.connect {start : Nat} {s : RemoteSystem T} (h : Logged P start s) {link : Link}
    (hid : link.id = s.holder.dialed) (hread : link.read = 0)
    (hhello : link.hello.lastAcknowledgedOutputOffset
      = some (UInt64.ofNat s.pump.outputOffset)) :
    Logged P start { holder := s.holder.dial, pump := { s.pump with link := some link } } := by
  have hrule := Holder.carries_sending (P := P) link.id h.small
  have hfresh := Holder.carried_of_undialed hrule h.wired (Nat.le_of_eq hid.symm)
  refine ⟨h.wired.dial, h.recorded.of_record rfl, h.small, h.holds, ?_⟩
  intro link' hlink'
  cases hlink'
  refine ⟨s.pump.outputOffset, h.small, hhello, hfresh.dial h.wired, ?_, ?_⟩
  · rw [hread]
    exact Nat.zero_le _
  · intro i hle hlt
    unfold handled at hlt
    rw [hread] at hlt
    exact absurd hlt (Nat.not_lt.mpr hle)

theorem follows_message (P : Platform T) (client : RemoteClient) {pump : RemotePump T}
    {history : List UInt8} {lost : Nat → Prop} {start : Nat} {before : List RemoteMessage}
    (hsize : history.length < 2 ^ 64) (hsmall : pump.outputOffset < 2 ^ 64)
    (hfollows : Follows history lost start place (outputs before) pump.outputOffset pump.log)
    (hgapless : Gapless history lost place (outputs (before ++ [message]))) (link : Link)
    (grant : IoResult) :
    let r := pump.handleRemoteMessage P client link message grant
    r.2.1.outputOffset < 2 ^ 64 ∧ Replay.Holds history lost start r.2.1.outputOffset r.2.1.log ∧
      (r.1 = .proceed → Follows history lost start place (outputs (before ++ [message]))
        r.2.1.outputOffset r.2.1.log) := by
  intro r
  cases hpiece : piece message with
  | none =>
    obtain ⟨hoffset, hlog⟩ := RemotePump.log_of_piece_none P client pump link hpiece grant
    rw [show r.2.1.outputOffset = pump.outputOffset from hoffset,
      show r.2.1.log = pump.log from hlog, outputs_concat_none hpiece]
    exact ⟨hsmall, hfollows.holds, fun _ => hfollows⟩
  | some found =>
    obtain ⟨offset, bytes⟩ := found
    have houtputs : outputs (before ++ [message]) = outputs before ++ [(offset, bytes)] := by
      rw [outputs_append]
      simp [outputs, hpiece]
    rw [houtputs] at hgapless ⊢
    have hend := (hfollows.before hgapless).1.length_le
    rcases RemotePump.log_of_piece_some P client pump link hpiece grant with
      ⟨hended, hkept⟩ | ⟨at64, rfl, hkept⟩
    · rw [show r.2.1 = pump from hkept]
      exact ⟨hsmall, hfollows.holds, fun hproceed => absurd hproceed hended⟩
    · rw [show r.2.1 = pump.applyRemoteOutput P at64 bytes from hkept]
      rcases pump.applyRemoteOutput_eq (P := P) at64 bytes (by omega) with
        ⟨rfl, hoffset, hlog⟩ | hreceive
      · rw [hoffset, hlog]
        exact ⟨hsmall, hfollows.holds, fun _ => hfollows.skip hgapless⟩
      · have hoffset : (pump.applyRemoteOutput P at64 bytes).outputOffset
            = (Replay.receive pump.outputOffset pump.log at64.toNat bytes).1 :=
          congrArg Prod.fst hreceive
        have hlog : (pump.applyRemoteOutput P at64 bytes).log
            = (Replay.receive pump.outputOffset pump.log at64.toNat bytes).2 :=
          congrArg Prod.snd hreceive
        have hnext := hfollows.receive hgapless
        rw [hoffset, hlog]
        refine ⟨?_, hnext.holds, fun _ => hnext⟩
        rw [receive_fst]
        omega

theorem Logged.handle {start : Nat} {s : RemoteSystem T} (h : Logged P start s)
    (hsize : s.holder.ledger.history.length < 2 ^ 64) {link : Link}
    (hlink : s.pump.link = some link)
    (hmessage : (s.holder.sockets link.id).received[link.read]? = some message)
    (grant : IoResult) : Logged P start (s.handle P client link message grant) := by
  obtain ⟨place, hplace, hhello, hcarried, hread, hgap⟩ := h.linked link hlink
  have hmore : link.read + 1 ≤ (s.holder.sockets link.id).received.length :=
    (List.getElem?_eq_some_iff.mp hmessage).1
  have hgapless : Gapless s.holder.ledger.history s.holder.ledger.Discarded place
      (outputs (s.handled link ++ [message])) := by
    have hall := hcarried.past
    rw [← List.take_append_drop (link.read + 1) (s.holder.sockets link.id).received] at hall
    rw [← handled_next hmessage { link with read := link.read + 1 } rfl rfl]
    exact hall.take hsize
  have hlinks := s.pump.handleRemoteMessage_link P client link message grant
  have hlogged := follows_message P client hsize h.small ⟨h.holds, hgap⟩ hgapless link grant
  unfold RemoteSystem.handle
  generalize s.pump.handleRemoteMessage P client link message grant = r at hlinks hlogged
  obtain ⟨hid, hsaid, hsame⟩ := hlinks
  obtain ⟨hsmall, hholds, hfollows⟩ := hlogged
  rcases RemotePump.dispose_cases r with ⟨exit, heq⟩ | ⟨hgoes, heq⟩
  · rw [heq]
    exact ⟨h.wired, h.recorded, hsmall, hholds, fun _ hnone => absurd hnone (by simp)⟩
  · rw [heq]
    refine ⟨h.wired, h.recorded, hsmall, hholds, ?_⟩
    intro link' hlink'
    cases hlink'
    have hhandled := handled_next hmessage { r.2.2 with read := r.2.2.read + 1 } hid
      (congrArg (· + 1) hsame)
    refine ⟨place, hplace, ?_, ?_, ?_, ?_⟩
    · rw [← hhello, ← hsaid]
    · dsimp only
      rw [hid]
      exact hcarried
    · dsimp only
      rw [hid, hsame]
      exact hmore
    · intro i hle hlt
      have hhandled' : i < reached place (outputs (s.handled link ++ [message])) := by
        rw [← hhandled]
        exact hlt
      exact (hfollows hgoes).gap i hle hhandled'

theorem Logged.step {start : Nat} {s : RemoteSystem T} {event : SystemEvent}
    (hintact : Intact Holder.Retains (Trace.take (RemoteSystem.step P client) s event))
    (hsize : s.holder.ledger.history.length < 2 ^ 64) (h : Logged P start s) :
    Logged P start (RemoteSystem.step P client s event).1 := by
  have hmoves := s.step_moves P client event
  generalize (RemoteSystem.step P client s event).1 = after at hmoves
  cases hmoves with
  | idle => exact h
  | holder event hhears =>
    exact h.holder hhears fun link hlink => hintact.holder event link rfl hlink
  | connect nonce result link _ _ hid hread hhello =>
    exact h.connect hid hread (by rw [hhello]; rfl)
  | receive grant link message hlink hmessage => exact h.handle hsize hlink hmessage grant
  | garbled message grant link hlink htorn =>
    have hwhole : (s.holder.sockets link.id).torn = false :=
      hintact.whole message grant link rfl hlink
    rw [hwhole] at htorn
    cases htorn
  | lost exit stop =>
    exact ⟨h.wired, h.recorded, h.small, h.holds, fun _ hnone => absurd hnone (by simp)⟩
  | writerLost =>
    refine ⟨h.wired, h.recorded, h.small, h.holds, ?_⟩
    intro link hlink
    obtain ⟨link', hlink', hid, hhello, hread⟩ := link_writerLost hlink
    have hlinked := h.linked link' hlink'
    unfold handled at hlinked ⊢
    rw [hid, hread, hhello]
    exact hlinked

theorem logged_start (sessionId incarnation : String) (pid : UInt32)
    (cols rows cols' rows' : UInt16) (outputOffset : UInt64) :
    Logged P outputOffset.toNat
      (start P (Holder.new P sessionId incarnation pid cols rows) cols' rows'
        outputOffset.toNat) where
  wired := Holder.wired_new _ _ _ _ _
  recorded := Holder.recorded_new _ _ _ _ _
  small := outputOffset.toNat_lt
  holds := holds_nil _
  linked := fun _ hlink => absurd hlink (by simp [start, RemotePump.adopt])

/--
**Remote output is logged once.**

In every run of an engine, its Holder and any other clients in which each `Hello` of the
engine finds the output it asks for in the Holder's log, within the replay budget, and
nothing garbled is decoded: the engine's log is the Holder's stream from the starting
offset up to `remote_output_offset`, each byte at most once and in its order, and all of
them but for bytes in `Output` messages that a reseed discarded.  If none were, it is
exactly that slice of the stream.
-/
theorem remote_output_logged_once (P : Platform T) (client : RemoteClient)
    (sessionId incarnation : String) (pid : UInt32) (cols rows cols' rows' : UInt16)
    (outputOffset : UInt64) {events : List SystemEvent}
    (hintact : ∀ x ∈ Trace.trace (RemoteSystem.step P client)
      (start P (Holder.new P sessionId incarnation pid cols rows) cols' rows'
        outputOffset.toNat) events, Intact Holder.Retains x)
    (hsize : (Trace.run (RemoteSystem.step P client)
      (start P (Holder.new P sessionId incarnation pid cols rows) cols' rows'
        outputOffset.toNat) events).holder.ledger.history.length < 2 ^ 64) :
    let s := Trace.run (RemoteSystem.step P client)
      (start P (Holder.new P sessionId incarnation pid cols rows) cols' rows'
        outputOffset.toNat) events
    Replay.Holds s.holder.ledger.history s.holder.ledger.Discarded outputOffset.toNat
        s.pump.outputOffset s.pump.log ∧
      ((∀ i, outputOffset.toNat ≤ i → i < s.pump.outputOffset → ¬ s.holder.ledger.Discarded i) →
        s.pump.log = (s.holder.ledger.history.drop outputOffset.toNat).take
          (s.pump.outputOffset - outputOffset.toNat)) := by
  intro s
  have hlogged : s.holder.ledger.history.length < 2 ^ 64 → Logged P outputOffset.toNat s := by
    refine Trace.run_invariant_where (RemoteSystem.step P client)
      (C := Intact Holder.Retains) (P := fun s => s.holder.ledger.history.length < 2 ^ 64 →
        Logged P outputOffset.toNat s) hintact (fun _ => logged_start _ _ _ _ _ _ _ _) ?_
    intro s event hstep hlogged hsize
    have hgrows := s.step_history P client event
    exact (hlogged (by omega)).step hstep (by omega)
  have hholds := (hlogged hsize).holds
  exact ⟨hholds, fun hnone => hholds.exact hnone⟩

theorem retains_of_event {id : Nat} {h : Holder T} {event : HolderEvent}
    (hother : ∀ message calls, event ≠ .message message calls) : h.Retains id event :=
  fun _ _ _ _ _ hevent => absurd hevent (hother _ _)

theorem retains_of_small {id : Nat} {h : Holder T} {event : HolderEvent}
    (hbase : h.log.baseOffset = 0) (htail : h.log.tailOffset ≤ replayBudgetBytes) :
    h.Retains id event :=
  fun _ _ _ _ offset _ _ _ _ _ _ => ⟨by omega, by omega⟩

/-- `a` is logged, `b` is written while the connection drops, and `c` after the next `Hello`. -/
def dropsOnce : List SystemEvent :=
  attach 0 none ++ [feed [0x61]] ++ deliver 4 ++ [feed [0x62], .drop false]
    ++ attach 1 (some 1) ++ [feed [0x63]] ++ deliver 7

/-- `b` comes with the replay, once. -/
theorem remote_output_logged_once_replay :
    (Trace.run (RemoteSystem.step LineTerm.platform sampleClient) sample
      dropsOnce).pump.outputOffset = 3 ∧
    (Trace.run (RemoteSystem.step LineTerm.platform sampleClient) sample
      dropsOnce).pump.log = [0x61, 0x62, 0x63] := by
  have hintact : ∀ x ∈ Trace.trace (RemoteSystem.step LineTerm.platform sampleClient) sample
      dropsOnce, Intact Holder.Retains x := by
    intro x hx
    obtain ⟨k, hget, hbefore⟩ := Trace.before_of_mem_trace _ hx
    have hk : k < 27 := (List.getElem?_eq_some_iff.mp hget).1
    refine intact_of_event ?_ ?_
    · intro event hevent id slot c hello calls offset hmessage
      rw [hevent, hmessage] at hget
      refine retains_of_small ?_ ?_ slot c hello calls offset hmessage
      all_goals
        rw [hbefore]
        interval_cases k <;> cases hget <;> with_unfolding_all decide
    · intro message grant hevent
      rw [hevent] at hget
      interval_cases k <;> cases hget
  have hend : (Trace.run (RemoteSystem.step LineTerm.platform sampleClient) sample
        dropsOnce).holder.ledger.history = [0x61, 0x62, 0x63] ∧
      (Trace.run (RemoteSystem.step LineTerm.platform sampleClient) sample
        dropsOnce).holder.ledger.discarded = [] ∧
      (Trace.run (RemoteSystem.step LineTerm.platform sampleClient) sample
        dropsOnce).pump.outputOffset = 3 := by
    with_unfolding_all decide
  obtain ⟨hhistory, hdiscarded, hoffset⟩ := hend
  have hsize : (Trace.run (RemoteSystem.step LineTerm.platform sampleClient) sample
      dropsOnce).holder.ledger.history.length < 2 ^ 64 := by
    rw [hhistory]
    decide
  have hlogged := (remote_output_logged_once LineTerm.platform sampleClient "s1" "i1" 7 2 1 2 1 0
    hintact hsize).2
  have hstart : start LineTerm.platform (Holder.new LineTerm.platform "s1" "i1" 7 2 1) 2 1
      (UInt64.toNat 0) = sample := rfl
  rw [hstart, hhistory, hoffset] at hlogged
  refine ⟨hoffset, hlogged ?_⟩
  rintro i - - ⟨lost, hlost, -⟩
  rw [hdiscarded] at hlost
  cases hlost

end RemoteSystem

namespace Holder

/-! ### A controller that does not read -/

/-- A full chunk that leaves the terminal as it is. -/
@[irreducible] def flood : List UInt8 := List.replicate replayPieceBytes 0x0d

theorem advance_eq (term : LineTerm) (bytes : List UInt8) :
    (LineTerm.backend.advance term bytes).1 = bytes.foldl LineTerm.advanceByte term := rfl

theorem foldl_returns {term : LineTerm} (hstep : term.advanceByte 0x0d = term) (count : Nat) :
    (List.replicate count 0x0d).foldl LineTerm.advanceByte term = term := by
  induction count with
  | zero => rfl
  | succ count ih => rw [List.replicate_succ, List.foldl_cons, hstep, ih]

/-- The installed controller of the sample has `count` full chunks queued. -/
structure Flooded (count : Nat) (h : Holder LineTerm) : Prop where
  recorded : h.Recorded
  failed : h.failed = none
  reading : h.reading = none
  reader : h.ptyReader = true
  connection : ∃ c, h.connection = some c ∧ c.id = 0 ∧ c.epoch ≠ none ∧ c.sent = 0 ∧
    c.outboundBytes LineTerm.platform = count * (13 + replayPieceBytes)
  length : h.ledger.history.length = count * replayPieceBytes
  term : h.screen.term = sample.screen.term
  geometry : h.screen.geometry = sample.screen.geometry
  sequence : h.state.snapshotSequence = 1

theorem term_fed (h : Holder LineTerm) (bytes : List UInt8) :
    (h.fed LineTerm.platform bytes).screen.term = (LineTerm.backend.advance h.screen.term bytes).1 := by
  show (h.screen.feed LineTerm.backend bytes).term = _
  rw [HeadlessScreen.feed_eq]
  split <;> rfl

theorem length_output (offset : UInt64) (bytes : List UInt8) :
    (Frame.output offset bytes).payload.length = 8 + bytes.length := by
  show (Bytes.u64Be offset ++ bytes).length = _
  rw [List.length_append, Bytes.length_u64Be]

theorem frameBytes_output (offset : UInt64) {bytes : List UInt8}
    (h : bytes.length ≤ replayPieceBytes) :
    frameBytes LineTerm.platform.json (.terminal (Frame.output offset bytes)) = 13 + bytes.length := by
  have hsmall : 8 + replayPieceBytes ≤ maxFrameBytes := by decide
  have hheader : headerBytes = 5 := rfl
  rw [(encodeInto_terminal _ (by rw [length_output]; omega)).2, length_output]
  omega

theorem Flooded.term_fed {count : Nat} {h : Holder LineTerm} (hflooded : Flooded count h) :
    (h.fed LineTerm.platform flood).screen.term = sample.screen.term := by
  rw [Holder.term_fed, hflooded.term, advance_eq, flood]
  exact foldl_returns (by decide) _

theorem length_flood : flood.length = replayPieceBytes := by
  rw [flood, List.length_replicate]

theorem encodable_flood (offset : UInt64) :
    Encodable LineTerm.platform (.terminal (Frame.output offset flood)) :=
  encodable_output offset (Nat.le_of_eq length_flood)

theorem Flooded.drain {count : Nat} {h : Holder LineTerm} (hflooded : Flooded count h)
    (hfits : (count + 1) * (13 + replayPieceBytes) ≤ maxOutboundBytes) :
    Flooded (count + 1) (Holder.step LineTerm.platform h
      (.drain (.bytes flood) (.ok ()) (.ok ()))).1 ∧
    (Holder.step LineTerm.platform h
      (.drain (.bytes flood) (.ok ()) (.ok ()))).1.sockets = h.sockets := by
  obtain ⟨c, hsome, hid, hepoch, hsent, hbytes⟩ := hflooded.connection
  have hframe := frameBytes_output (UInt64.ofNat h.log.tailOffset) (Nat.le_of_eq length_flood)
  rw [length_flood] at hframe
  have hsomefed : (h.fed LineTerm.platform flood).connection = some c := hsome
  have hqueue := queue_of_fits hsomefed (encodable_flood (UInt64.ofNat h.log.tailOffset))
    (by rw [hbytes, hframe, ← Nat.add_one_mul]; exact hfits)
  obtain ⟨stored, last, heq⟩ := drain_of_queued hflooded.failed hflooded.reading hflooded.reader
    hsome hepoch hqueue
  have hrecorded := hflooded.recorded.step (P := LineTerm.platform)
    (.drain (.bytes flood) (.ok ()) (.ok ()))
  rw [heq] at hrecorded ⊢
  refine ⟨⟨hrecorded, hflooded.failed, hflooded.reading, hflooded.reader, ?_, ?_,
    hflooded.term_fed, ?_, hflooded.sequence⟩, rfl⟩
  · refine ⟨_, rfl, hid, hepoch, hsent, ?_⟩
    unfold Connection.outboundBytes Connection.push
    unfold Connection.outboundBytes at hbytes
    rw [Outbox.total_concat, hbytes, hframe, Nat.add_one_mul]
  · show (h.ledger.history ++ flood).length = _
    rw [List.length_append, hflooded.length, length_flood, Nat.add_one_mul]
  · exact (HeadlessScreen.feed_frame LineTerm.backend h.screen flood).1.trans hflooded.geometry

/-- The screen of the sample, as its second grid message. -/
def sampleSnapshot : RemoteMessage :=
  { sample with state := { sample.state with snapshotSequence := 2 } }.snapshotMessage
    LineTerm.platform

theorem snapshotMessage_eq {h : Holder LineTerm} (hterm : h.screen.term = sample.screen.term)
    (hgeometry : h.screen.geometry = sample.screen.geometry)
    (hsequence : h.state.snapshotSequence = 2) :
    h.snapshotMessage LineTerm.platform = sampleSnapshot := by
  simp only [sampleSnapshot, snapshotMessage, Holder.fullSnapshot, HeadlessScreen.fullSnapshot,
    HeadlessScreen.updateWith, HeadlessScreen.isAltScreen, HeadlessScreen.bracketedPaste,
    HeadlessScreen.mouseReporting, HeadlessScreen.cursor, HeadlessScreen.wireRow, hterm,
    hgeometry, hsequence]

/-- One more chunk is too much: the controller starts over. -/
structure Reseeded (count : Nat) (h : Holder LineTerm) : Prop where
  recorded : h.Recorded
  failed : h.failed = none
  reading : h.reading = none
  reader : h.ptyReader = true
  connection : ∃ c, h.connection = some c ∧ c.id = 0 ∧ c.epoch ≠ none ∧ c.sent = 0 ∧
    c.outbound = [reseedError, sampleSnapshot]
  length : h.ledger.history.length = count * replayPieceBytes

theorem Flooded.reseed {count : Nat} {h : Holder LineTerm} (hflooded : Flooded count h)
    (hfull : maxOutboundBytes < (count + 1) * (13 + replayPieceBytes)) :
    Reseeded (count + 1) (Holder.step LineTerm.platform h
      (.drain (.bytes flood) (.ok ()) (.ok ()))).1 ∧
    (Holder.step LineTerm.platform h
      (.drain (.bytes flood) (.ok ()) (.ok ()))).1.sockets = h.sockets := by
  obtain ⟨c, hsome, hid, hepoch, hsent, hbytes⟩ := hflooded.connection
  have hframe := frameBytes_output (UInt64.ofNat h.log.tailOffset) (Nat.le_of_eq length_flood)
  rw [length_flood] at hframe
  have hsomefed : (h.fed LineTerm.platform flood).connection = some c := hsome
  have hgeometry := (HeadlessScreen.feed_frame LineTerm.backend h.screen flood).1.trans
    hflooded.geometry
  have hsnapshot : ((h.fed LineTerm.platform flood).throwAway (c.push [.terminal (Frame.output
      (UInt64.ofNat h.log.tailOffset) flood)])).nextSequence.snapshotMessage LineTerm.platform
        = sampleSnapshot := by
    refine snapshotMessage_eq hflooded.term_fed hgeometry ?_
    show saturatingSucc h.state.snapshotSequence = 2
    rw [hflooded.sequence]
    decide
  have hencodable : Encodable LineTerm.platform reseedError ∧
      Encodable LineTerm.platform sampleSnapshot := by
    unfold Encodable
    with_unfolding_all decide
  have hqueue := queue_of_full hsomefed (encodable_flood (UInt64.ofNat h.log.tailOffset)) hsent
    (by rw [hbytes, hframe, ← Nat.add_one_mul]; exact hfull) hencodable.1
    (by rw [hsnapshot]; exact hencodable.2)
  rw [hsnapshot] at hqueue
  obtain ⟨stored, last, heq⟩ := drain_of_queued hflooded.failed hflooded.reading hflooded.reader
    hsome hepoch hqueue
  have hrecorded := hflooded.recorded.step (P := LineTerm.platform)
    (.drain (.bytes flood) (.ok ()) (.ok ()))
  rw [heq] at hrecorded ⊢
  refine ⟨⟨hrecorded, hflooded.failed, hflooded.reading, hflooded.reader,
    ⟨_, rfl, hid, hepoch, rfl, rfl⟩, ?_⟩, rfl⟩
  show (h.ledger.history ++ flood).length = _
  rw [List.length_append, hflooded.length, length_flood, Nat.add_one_mul]

/-- What the controller gets with the next byte. -/
def afterReseed (offset : UInt64) : List RemoteMessage :=
  [reseedError, sampleSnapshot, .terminal (Frame.output offset [0x61])]

theorem Reseeded.deliver {count : Nat} {h fed : Holder LineTerm} (hreseeded : Reseeded count h)
    (hfed : fed = (Holder.step LineTerm.platform h (.drain (.bytes [0x61]) (.ok ()) (.ok ()))).1) :
    ((Holder.step LineTerm.platform fed (.flushConnection [.ok 65536])).1.sockets 0).received
      = (h.sockets 0).received ++ afterReseed (UInt64.ofNat (count * replayPieceBytes)) := by
  obtain ⟨c, hsome, hid, hepoch, hsent, houtbound⟩ := hreseeded.connection
  have htail : h.log.tailOffset = count * replayPieceBytes :=
    hreseeded.recorded.tailOffset.trans hreseeded.length
  have hsmall : ([0x61] : List UInt8).length ≤ replayPieceBytes := by decide
  have hframe := frameBytes_output (UInt64.ofNat h.log.tailOffset) hsmall
  have hbytes : c.outboundBytes LineTerm.platform ≤ 1000 := by
    unfold Connection.outboundBytes
    rw [houtbound]
    with_unfolding_all decide
  have hsomefed : (h.fed LineTerm.platform [0x61]).connection = some c := hsome
  have hmax : 1014 ≤ maxOutboundBytes := by decide
  have hqueue := queue_of_fits (P := LineTerm.platform) hsomefed
    (encodable_output (UInt64.ofNat h.log.tailOffset) hsmall)
    (by rw [hframe]; exact (Nat.add_le_add_right hbytes 14).trans hmax)
  obtain ⟨stored, last, heq⟩ := drain_of_queued hreseeded.failed hreseeded.reading
    hreseeded.reader hsome hepoch hqueue
  have hconnection : fed.connection = some (c.push [.terminal (Frame.output
      (UInt64.ofNat h.log.tailOffset) [0x61])]) := by
    rw [hfed, heq]
  have hkept : fed.failed = none ∧ fed.reading = none ∧ fed.sockets = h.sockets := by
    rw [hfed, heq]
    exact ⟨hreseeded.failed, hreseeded.reading, rfl⟩
  have htotal : (c.push [.terminal (Frame.output (UInt64.ofNat h.log.tailOffset)
      [0x61])]).outboundBytes LineTerm.platform = c.outboundBytes LineTerm.platform + 14 := by
    unfold Connection.outboundBytes Connection.push
    rw [Outbox.total_concat, hframe]
    rfl
  have hreceived := received_flush (P := LineTerm.platform) 65536 hkept.1 hkept.2.1 hconnection
    hsent (by omega) (by omega)
  rw [hkept.2.2] at hreceived
  have hzero : (c.push [.terminal (Frame.output (UInt64.ofNat h.log.tailOffset) [0x61])]).id = 0 :=
    hid
  rw [hzero] at hreceived
  rw [hreceived, ← htail]
  unfold afterReseed Connection.push
  rw [houtbound]
  rfl

end Holder

namespace RemoteSystem

/-- The controller does not read while full chunks are written. -/
theorem flooded_run {s : RemoteSystem LineTerm} (hflooded : Holder.Flooded 0 s.holder) (count : Nat)
    (hfits : count * (13 + replayPieceBytes) ≤ maxOutboundBytes) :
    let s' := Trace.run (RemoteSystem.step LineTerm.platform sampleClient) s
      (List.replicate count (feed Holder.flood))
    Holder.Flooded count s'.holder ∧ s'.holder.sockets = s.holder.sockets ∧ s'.pump = s.pump := by
  induction count with
  | zero => exact ⟨hflooded, rfl, rfl⟩
  | succ count ih =>
    have hsmaller : count * (13 + replayPieceBytes) ≤ maxOutboundBytes :=
      (Nat.mul_le_mul_right _ (Nat.le_succ count)).trans hfits
    obtain ⟨hbefore, hsockets, hpump⟩ := ih hsmaller
    obtain ⟨hafter, hsame⟩ := hbefore.drain hfits
    rw [List.replicate_succ', Trace.run_concat]
    exact ⟨hafter, hsame.trans hsockets, hpump⟩

/-- The engine attaches, and nothing is left to read. -/
def attached : RemoteSystem LineTerm :=
  Trace.run (RemoteSystem.step LineTerm.platform sampleClient) sample (attach 0 none ++ deliver 3)

theorem attached_flooded : Holder.Flooded 0 attached.holder := by
  have hend : (attached.holder.failed = none ∧ attached.holder.reading.isNone = true ∧
      attached.holder.ptyReader = true) ∧
      (attached.holder.connection.any fun c => c.id = 0 ∧ c.epoch ≠ none ∧ c.sent = 0 ∧
        c.outbound = []) = true ∧
      attached.holder.ledger.history.length = 0 ∧
      attached.holder.screen.term = Holder.sample.screen.term ∧
      (attached.holder.screen.geometry.cols = 2 ∧ attached.holder.screen.geometry.rows = 1) ∧
      attached.holder.state.snapshotSequence = 1 := by
    with_unfolding_all decide
  obtain ⟨⟨hfailed, hreading, hreader⟩, hany, hlength, hterm, ⟨hcols, hrows⟩, hsequence⟩ := hend
  refine ⟨recorded_run "s1" "i1" 7 2 1 2 1 0 _, hfailed, Option.isNone_iff_eq_none.mp hreading,
    hreader, ?_, ?_, hterm, ?_, hsequence⟩
  · obtain ⟨c, hsome, hc⟩ := (Option.any_eq_true _ _).mp hany
    obtain ⟨hid, hepoch, hsent, hempty⟩ := of_decide_eq_true hc
    refine ⟨c, hsome, hid, hepoch, hsent, ?_⟩
    unfold Connection.outboundBytes
    rw [hempty]
    exact (Nat.zero_mul _).symm
  · rw [hlength]
    exact (Nat.zero_mul _).symm
  · generalize attached.holder.screen.geometry = geometry at hcols hrows
    cases geometry
    cases hcols
    cases hrows
    rfl

/-- The engine does not read while more is written than the Holder keeps for it. -/
def readsLate : List SystemEvent :=
  List.replicate 319 (feed Holder.flood) ++ [feed Holder.flood, feed [0x61]] ++ deliver 3

theorem length_after {holder : Holder LineTerm} {count : Nat}
    (h : Holder.Reseeded count holder) (pump : RemotePump LineTerm) (events : List SystemEvent) :
    count * replayPieceBytes ≤ (Trace.run (RemoteSystem.step LineTerm.platform sampleClient)
      ⟨holder, pump⟩ events).holder.ledger.history.length :=
  h.length.symm.le.trans (run_history ⟨holder, pump⟩ events)

theorem run_reseed {s : RemoteSystem LineTerm} {count : Nat}
    (hflooded : Holder.Flooded count s.holder)
    (hfull : maxOutboundBytes < (count + 1) * (13 + replayPieceBytes))
    (hlinks : (s.pump.link.all fun link =>
      link.id = 0 ∧ link.read = (s.holder.sockets 0).received.length) = true) :
    let s' := Trace.run (RemoteSystem.step LineTerm.platform sampleClient) s
      ([feed Holder.flood, feed [0x61]] ++ deliver 3)
    (count + 1) * replayPieceBytes ≤ s'.holder.ledger.history.length ∧
      s'.pump = (Holder.afterReseed (UInt64.ofNat ((count + 1) * replayPieceBytes))).foldl
        (RemotePump.next LineTerm.platform sampleClient) s.pump := by
  obtain ⟨hreseeded, hsame⟩ := hflooded.reseed hfull
  have hdelivered := hreseeded.deliver rfl
  rw [hsame] at hdelivered
  unfold deliver
  rw [List.cons_append, Trace.run, step_feed]
  constructor
  · exact length_after hreseeded _ _
  · rw [List.singleton_append, Trace.run, step_feed, Trace.run, step_flush]
    exact receive_rest hdelivered hlinks

theorem run_readsLate :
    320 * replayPieceBytes ≤ (Trace.run (RemoteSystem.step LineTerm.platform sampleClient) attached
      readsLate).holder.ledger.history.length ∧
    (Trace.run (RemoteSystem.step LineTerm.platform sampleClient) attached readsLate).pump
      = (Holder.afterReseed (UInt64.ofNat (320 * replayPieceBytes))).foldl
        (RemotePump.next LineTerm.platform sampleClient) attached.pump := by
  have hlinks : (attached.pump.link.all fun link =>
      link.id = 0 ∧ link.read = (attached.holder.sockets 0).received.length) = true := by
    with_unfolding_all decide
  obtain ⟨hflooded, hsockets, hpump⟩ := flooded_run attached_flooded 319 (by decide)
  unfold readsLate
  rw [List.append_assoc, Trace.run_append]
  rw [← hpump, ← hsockets] at hlinks
  have hrun := run_reseed hflooded (by decide) hlinks
  rw [hpump] at hrun
  exact hrun

theorem intact_attached : ∀ x ∈ Trace.trace (RemoteSystem.step LineTerm.platform sampleClient)
    sample (attach 0 none ++ deliver 3), Intact Holder.Retains x := by
  intro x hx
  obtain ⟨k, hget, hbefore⟩ := Trace.before_of_mem_trace _ hx
  have hk : k < 9 := (List.getElem?_eq_some_iff.mp hget).1
  refine intact_of_event ?_ ?_
  · intro event hevent id slot c hello calls offset hmessage
    rw [hevent, hmessage] at hget
    refine retains_of_small ?_ ?_ slot c hello calls offset hmessage
    all_goals
      rw [hbefore]
      interval_cases k <;> cases hget
      decide
  · intro message grant hevent
    rw [hevent] at hget
    interval_cases k <;> cases hget

theorem intact_readsLate {s : RemoteSystem LineTerm} :
    ∀ x ∈ Trace.trace (RemoteSystem.step LineTerm.platform sampleClient) s readsLate,
      Intact Holder.Retains x := by
  intro x hx
  have hmem : x.event ∈ readsLate := by
    rw [← Trace.trace_events (RemoteSystem.step LineTerm.platform sampleClient) s readsLate]
    exact List.mem_map_of_mem hx
  have hevents : (∃ bytes, x.event = feed bytes) ∨
      x.event = .holder (.flushConnection [.ok 65536]) ∨ x.event = .receive (.ok ()) := by
    unfold readsLate deliver at hmem
    rcases List.mem_append.mp hmem with hmem | hmem
    · rcases List.mem_append.mp hmem with hmem | hmem
      · exact Or.inl ⟨_, List.eq_of_mem_replicate hmem⟩
      · rcases List.mem_pair.mp hmem with heq | heq
        · exact Or.inl ⟨_, heq⟩
        · exact Or.inl ⟨_, heq⟩
    · rcases List.mem_cons.mp hmem with heq | hmem
      · exact Or.inr (Or.inl heq)
      · exact Or.inr (Or.inr (List.eq_of_mem_replicate hmem))
  refine intact_of_event ?_ ?_
  · intro event hevent id
    refine retains_of_event ?_
    rintro message calls rfl
    rcases hevents with ⟨bytes, heq⟩ | heq | heq <;> cases hevent.symm.trans heq
  · intro message grant hevent
    rcases hevents with ⟨bytes, heq⟩ | heq | heq <;> cases hevent.symm.trans heq

/-- The reseed discards twenty megabytes, and the next byte is logged behind nothing. -/
theorem reseed_skips_output :
    ¬ ∀ events : List SystemEvent,
      (∀ x ∈ Trace.trace (RemoteSystem.step LineTerm.platform sampleClient) sample events,
        Intact Holder.Retains x) →
      (Trace.run (RemoteSystem.step LineTerm.platform sampleClient) sample events).pump.log
        = (Trace.run (RemoteSystem.step LineTerm.platform sampleClient) sample
            events).holder.ledger.history.take
          (Trace.run (RemoteSystem.step LineTerm.platform sampleClient) sample
            events).pump.outputOffset := by
  intro hall
  have hintact : ∀ x ∈ Trace.trace (RemoteSystem.step LineTerm.platform sampleClient) sample
      ((attach 0 none ++ deliver 3) ++ readsLate), Intact Holder.Retains x := by
    intro x hx
    rw [Trace.trace_append] at hx
    rcases List.mem_append.mp hx with hx | hx
    · exact intact_attached x hx
    · exact intact_readsLate x hx
  have hlog := hall _ hintact
  have hend : ((Holder.afterReseed (UInt64.ofNat (320 * replayPieceBytes))).foldl
      (RemotePump.next LineTerm.platform sampleClient) attached.pump).log.length = 1 ∧
      ((Holder.afterReseed (UInt64.ofNat (320 * replayPieceBytes))).foldl
        (RemotePump.next LineTerm.platform sampleClient) attached.pump).outputOffset
          = 320 * replayPieceBytes + 1 := by
    with_unfolding_all decide
  obtain ⟨hlength, hpump⟩ := run_readsLate
  rw [← hpump] at hend
  unfold attached at hend hlength
  rw [← Trace.run_append] at hend hlength
  generalize Trace.run (RemoteSystem.step LineTerm.platform sampleClient) sample
    ((attach 0 none ++ deliver 3) ++ readsLate) = s at hlog hend hlength
  have hpiece : 2 ≤ 320 * replayPieceBytes := by decide
  generalize 320 * replayPieceBytes = size at hlength hend hpiece
  have hsize := congrArg List.length hlog
  rw [List.length_take, hend.1, hend.2] at hsize
  omega

end RemoteSystem

end Homie.Remote
