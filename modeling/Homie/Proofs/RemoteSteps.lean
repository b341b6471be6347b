/-
What a step of an engine and its Holder can do.

`Moves` is the inversion lemma of `RemoteSystem.step`: the Holder steps, or the pump gets
a connection, handles one message or loses its connection.  A handled message leaves the
connection where it was, one message further, or ends it.
-/
import Homie.Engine.RemotePump
import Homie.Proofs.HolderRecords

namespace Homie.Remote

variable {T : Type} {P : Platform T} {client : RemoteClient}

namespace RemotePump

/-- A message does not change which connection is read. -/
theorem handleRemoteMessage_link (P : Platform T) (client : RemoteClient) (pump : RemotePump T)
    (link : Link) (message : RemoteMessage) (grant : IoResult) :
    let link' := (pump.handleRemoteMessage P client link message grant).2.2
    link'.id = link.id ∧ link'.hello = link.hello ∧ link'.read = link.read := by
  cases message with
  | helloAck ack =>
    simp only [handleRemoteMessage, acceptHello]
    split
    · exact ⟨rfl, rfl, rfl⟩
    · cases ack.processState <;> exact ⟨rfl, rfl, rfl⟩
  | terminal frame =>
    simp only [handleRemoteMessage, handleFrame]
    split
    · exact ⟨rfl, rfl, rfl⟩
    · cases frame.frameType with
      | output => cases frame.outputPayload <;> exact ⟨rfl, rfl, rfl⟩
      | _ => exact ⟨rfl, rfl, rfl⟩
  | controlGranted granted =>
    simp only [handleRemoteMessage]
    split
    · exact ⟨rfl, rfl, rfl⟩
    · split <;> exact ⟨rfl, rfl, rfl⟩
  | _ =>
    simp only [handleRemoteMessage]
    split <;> exact ⟨rfl, rfl, rfl⟩

/-- What becomes of the connection: only a message that is proceeded from keeps it. -/
theorem dispose_cases (r : Disposition × RemotePump T × Link) :
    (∃ exit, dispose r = { r.2.1 with exit, link := none }) ∨
    (r.1 = .proceed ∧
      dispose r = { r.2.1 with link := some { r.2.2 with read := r.2.2.read + 1 } }) := by
  obtain ⟨disposition, pump, link⟩ := r
  cases disposition with
  | proceed => exact Or.inr ⟨rfl, rfl⟩
  | reconnect => exact Or.inl ⟨_, rfl⟩
  | exited => exact Or.inl ⟨_, rfl⟩
  | fatal => exact Or.inl ⟨_, rfl⟩

/-- The pump after the next message of its connection. -/
def next (P : Platform T) (client : RemoteClient) (pump : RemotePump T) (message : RemoteMessage) :
    RemotePump T :=
  match pump.link with
  | none => pump
  | some link => dispose (pump.handleRemoteMessage P client link message (.ok ()))

theorem mirror_dispose (r : Disposition × RemotePump T × Link) :
    (dispose r).mirror = r.2.1.mirror := by
  rcases dispose_cases r with ⟨exit, heq⟩ | ⟨-, heq⟩
  · rw [heq]
    rfl
  · rw [heq]
    rfl

end RemotePump

namespace RemoteSystem

/-- What a step can do. -/
inductive Moves (P : Platform T) (client : RemoteClient) (s : RemoteSystem T) :
    SystemEvent → RemoteSystem T → Prop
  | idle (event : SystemEvent) : Moves P client s event s
  | holder (event : HolderEvent) (hhears : s.hears event = true) :
      Moves P client s (.holder event) { s with holder := (s.holder.step P event).1 }
  | connect (nonce : String) (result : IoResult) (link : Link) (hnone : s.pump.link = none)
      (hfailed : s.holder.failed = none) (hid : link.id = s.holder.dialed) (hread : link.read = 0)
      (hhello : link.hello
        = client.hello nonce s.pump.outputOffset (s.pump.mirror.bind (·.sequence))) :
      Moves P client s (.connect nonce result)
        { holder := s.holder.dial, pump := { s.pump with link := some link } }
  | receive (grant : IoResult) (link : Link) (message : RemoteMessage)
      (hlink : s.pump.link = some link)
      (hmessage : (s.holder.sockets link.id).received[link.read]? = some message) :
      Moves P client s (.receive grant) (s.handle P client link message grant)
  | garbled (message : RemoteMessage) (grant : IoResult) (link : Link)
      (hlink : s.pump.link = some link) (htorn : (s.holder.sockets link.id).torn = true) :
      Moves P client s (.garbled message grant) (s.handle P client link message grant)
  /-- The connection is gone. -/
  | lost (event : SystemEvent) (exit : Option Exit) (stop : Bool) :
      Moves P client s event { s with pump := { s.pump with exit, stop, link := none } }
  | writerLost : Moves P client s .writerLost s.writerLost

theorem step_moves (P : Platform T) (client : RemoteClient) (s : RemoteSystem T)
    (event : SystemEvent) :
    Moves P client s event (RemoteSystem.step P client s event).1 := by
  cases event with
  | holder event =>
    simp only [RemoteSystem.step]
    split
    · rename_i hhears
      exact .holder event hhears
    · exact .idle _
  | connect nonce result =>
    simp only [RemoteSystem.step, RemoteSystem.connect]
    split
    · rename_i hcan
      exact .connect nonce result _ (Option.isNone_iff_eq_none.mp hcan.2.1)
        (Option.isNone_iff_eq_none.mp hcan.2.2.1) rfl rfl rfl
    · exact .idle _
  | receive grant =>
    simp only [RemoteSystem.step, RemoteSystem.receive]
    split
    · exact .idle _
    · rename_i link hlink
      split
      · exact .idle _
      · rename_i message hmessage
        exact .receive grant link message hlink hmessage
  | garbled message grant =>
    simp only [RemoteSystem.step, RemoteSystem.garbled]
    split
    · exact .idle _
    · rename_i link hlink
      split
      · rename_i htorn
        exact .garbled message grant link hlink htorn.1
      · exact .idle _
  | drop undecodable =>
    simp only [RemoteSystem.step, RemoteSystem.drop]
    split
    · exact .idle _
    · cases undecodable with
      | false => exact .lost _ s.pump.exit s.pump.stop
      | true => exact .lost _ (some (.code 126)) s.pump.stop
  | writerLost => exact .writerLost
  | stop => exact .lost _ s.pump.exit true

theorem step_receive (P : Platform T) (client : RemoteClient) {s : RemoteSystem T} {link : Link}
    {message : RemoteMessage} (hlink : s.pump.link = some link)
    (hmessage : (s.holder.sockets link.id).received[link.read]? = some message)
    (grant : IoResult) :
    (RemoteSystem.step P client s (.receive grant)).1 = s.handle P client link message grant := by
  simp only [RemoteSystem.step, RemoteSystem.receive, hlink, hmessage]

/-- The connection `writerLost` leaves. -/
theorem link_writerLost {s : RemoteSystem T} {link : Link} (h : s.writerLost.pump.link = some link) :
    ∃ link', s.pump.link = some link' ∧ link.id = link'.id ∧ link.hello = link'.hello ∧
      link.read = link'.read := by
  obtain ⟨link', hlink', rfl⟩ := Option.map_eq_some_iff.mp h
  exact ⟨link', hlink', rfl, rfl, rfl⟩

/-- The messages the pump has handled on its connection. -/
def handled (s : RemoteSystem T) (link : Link) : List RemoteMessage :=
  (s.holder.sockets link.id).received.take link.read

theorem handled_holder {s : RemoteSystem T} {link : Link}
    (hread : link.read ≤ (s.holder.sockets link.id).received.length) (event : HolderEvent) :
    handled { s with holder := (s.holder.step P event).1 } link = s.handled link := by
  obtain ⟨more, hmore⟩ := s.holder.step_received (P := P) event link.id
  unfold handled
  dsimp only
  rw [← hmore, List.take_append_of_le_length hread]

theorem handled_next {s : RemoteSystem T} {link : Link} {message : RemoteMessage}
    (hmessage : (s.holder.sockets link.id).received[link.read]? = some message) (link' : Link)
    (hid : link'.id = link.id) (hread : link'.read = link.read + 1) :
    s.handled link' = s.handled link ++ [message] := by
  unfold handled
  rw [hid, hread, List.take_add_one, hmessage]
  rfl

/-- Nothing garbled is decoded, and `Ok` holds of the Holder's steps. -/
structure Intact (Ok : Nat → Holder T → HolderEvent → Prop)
    (x : Trace.Step (RemoteSystem T) SystemEvent Unit) : Prop where
  holder : ∀ event link, x.event = .holder event → x.before.pump.link = some link →
    Ok link.id x.before.holder event
  whole : ∀ message grant link, x.event = .garbled message grant →
    x.before.pump.link = some link → (x.before.holder.sockets link.id).torn = false

/-- A step at which no `Hello` is read and nothing is garbled. -/
theorem intact_of_event {Ok : Nat → Holder T → HolderEvent → Prop}
    {x : Trace.Step (RemoteSystem T) SystemEvent Unit}
    (hholder : ∀ event, x.event = .holder event → ∀ id, Ok id x.before.holder event)
    (hwhole : ∀ message grant, x.event ≠ .garbled message grant) : Intact Ok x :=
  ⟨fun event link hevent _ => hholder event hevent link.id,
    fun message grant _ hevent => absurd hevent (hwhole message grant)⟩

/-! ### Parts of runs -/

theorem step_feed (s : RemoteSystem T) (bytes : List UInt8) :
    (RemoteSystem.step P client s (feed bytes)).1
      = { s with holder := (s.holder.step P (.drain (.bytes bytes) (.ok ()) (.ok ()))).1 } := rfl

theorem step_flush (s : RemoteSystem T) (writes : List (Except IoError Nat)) :
    (RemoteSystem.step P client s (.holder (.flushConnection writes))).1
      = { s with holder := (s.holder.step P (.flushConnection writes)).1 } := rfl

/-- The history of the Holder only grows. -/
theorem step_history (P : Platform T) (client : RemoteClient) (s : RemoteSystem T)
    (event : SystemEvent) :
    s.holder.ledger.history.length
      ≤ (RemoteSystem.step P client s event).1.holder.ledger.history.length := by
  have hmoves := s.step_moves P client event
  generalize (RemoteSystem.step P client s event).1 = after at hmoves
  cases hmoves with
  | holder event => exact (s.holder.counts_step (P := P) event).history.length_le
  | _ => exact Nat.le_refl _

theorem run_history (s : RemoteSystem T) (events : List SystemEvent) :
    s.holder.ledger.history.length
      ≤ (Trace.run (RemoteSystem.step P client) s events).holder.ledger.history.length :=
  Trace.run_invariant (RemoteSystem.step P client)
    (P := fun s' => s.holder.ledger.history.length ≤ s'.holder.ledger.history.length)
    (Nat.le_refl _) (fun s' event h => h.trans (s'.step_history P client event)) events

theorem recorded_run (sessionId incarnation : String) (pid : UInt32)
    (cols rows cols' rows' : UInt16) (outputOffset : Nat) (events : List SystemEvent) :
    (Trace.run (RemoteSystem.step P client) (start P (Holder.new P sessionId incarnation pid cols
      rows) cols' rows' outputOffset) events).holder.Recorded := by
  refine Trace.run_invariant (RemoteSystem.step P client) (P := fun s => s.holder.Recorded)
    (Holder.recorded_new _ _ _ _ _) ?_ events
  intro s event hrecorded
  have hmoves := s.step_moves P client event
  generalize (RemoteSystem.step P client s event).1 = after at hmoves
  cases hmoves with
  | holder event => exact hrecorded.step event
  | connect => exact hrecorded.of_record rfl
  | _ => exact hrecorded

theorem run_receive {messages : List RemoteMessage} {s : RemoteSystem T}
    (hleft : ∀ link, s.pump.link = some link →
      (s.holder.sockets link.id).received.drop link.read = messages) :
    (Trace.run (RemoteSystem.step P client) s
      (List.replicate messages.length (.receive (.ok ())))).pump
        = messages.foldl (RemotePump.next P client) s.pump := by
  induction messages generalizing s with
  | nil => rfl
  | cons message messages ih =>
    rw [List.length_cons, List.replicate_succ, Trace.run, List.foldl_cons]
    cases hlink : s.pump.link with
    | none =>
      have hidle : (RemoteSystem.step P client s (.receive (.ok ()))).1 = s := by
        simp [RemoteSystem.step, RemoteSystem.receive, hlink]
      have hnext : RemotePump.next P client s.pump message = s.pump := by
        simp [RemotePump.next, hlink]
      rw [hidle, hnext]
      exact ih fun link hsome => absurd (hlink.symm.trans hsome) (by simp)
    | some link =>
      have hdrop := hleft link hlink
      have hmessage : (s.holder.sockets link.id).received[link.read]? = some message := by
        rw [← Nat.add_zero link.read, ← List.getElem?_drop, hdrop]
        rfl
      have hrest : (s.holder.sockets link.id).received.drop (link.read + 1) = messages := by
        rw [← List.drop_drop, hdrop]
        rfl
      have hnext : RemotePump.next P client s.pump message
          = (s.handle P client link message (.ok ())).pump := by
        simp [RemotePump.next, hlink, RemoteSystem.handle]
      rw [step_receive P client hlink hmessage, hnext]
      refine ih ?_
      intro link' hlink'
      have hlinks := s.pump.handleRemoteMessage_link P client link message (.ok ())
      unfold RemoteSystem.handle at hlink' ⊢
      generalize s.pump.handleRemoteMessage P client link message (.ok ()) = r at hlinks hlink'
      rcases RemotePump.dispose_cases r with ⟨exit, heq⟩ | ⟨-, heq⟩
      · rw [heq] at hlink'
        cases hlink'
      · rw [heq] at hlink'
        cases hlink'
        dsimp only
        rw [hlinks.1, hlinks.2.2]
        exact hrest

theorem receive_rest {holder : Holder T} {pump : RemotePump T} {front messages : List RemoteMessage}
    (hreceived : (holder.sockets 0).received = front ++ messages)
    (hlinks : (pump.link.all fun link => link.id = 0 ∧ link.read = front.length) = true) :
    (Trace.run (RemoteSystem.step P client) ⟨holder, pump⟩
      (List.replicate messages.length (.receive (.ok ())))).pump
        = messages.foldl (RemotePump.next P client) pump := by
  refine run_receive ?_
  intro link hlink
  rw [show pump.link = some link from hlink, Option.all_some] at hlinks
  obtain ⟨hid, hread⟩ := of_decide_eq_true hlinks
  dsimp only
  rw [hid, hread, hreceived, List.drop_left]

end RemoteSystem

end Homie.Remote
