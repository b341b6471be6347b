/-
Input on its way to a Holder: what a `RemoteSessionClient` does with accepted bytes.

At any time the accepted bytes are those on the channels followed by those in the queue.
Two calls can break this, and only they: a `write` that goes straight to the channel while
older bytes still wait in the queue, which happens between `accept_hello` and
`grant_control`, and a `grant_control` whose flush fails, because the queue is already
taken.  `InOrder` excludes exactly these two.

Each method is described once by what it does to `delivered` and to the queue; the
invariant is then one case for each call.
-/
import Homie.Engine.RemoteWriter
import Homie.Proofs.HolderSteps

namespace Homie.Remote.RemoteWriter

open Trace

variable {json : ControlJson} {debug : String → String}

/-! ### What is on the channels -/

/-- The input bytes a message carries. -/
def messageInput (message : RemoteMessage) : List UInt8 := Put.input ⟨message, [], true⟩

theorem messageInput_input (bytes : List UInt8) :
    messageInput (.terminal (Frame.input bytes)) = bytes := rfl

theorem messageInput_resize (cols rows : UInt16) :
    messageInput (.terminal (Frame.resize cols rows)) = [] := rfl

theorem delivered_of_input {client : RemoteWriter} {channel : Channel}
    (h : client.writer.input = some channel) :
    client.delivered = client.closed.flatMap inputOf ++ inputOf channel := by
  simp [delivered, channels, h]

theorem inputOf_putOn (channel : Channel) (message : RemoteMessage) (encoded : List UInt8)
    (answer : PipeAnswer) :
    inputOf (putOn channel message encoded answer).2
      = inputOf channel ++ (if answer = .takes then messageInput message else []) := by
  cases answer with
  | takes => cases message <;> simp [putOn, inputOf, messageInput, Put.input]
  | fails taken error => cases message <;> simp [putOn, inputOf, Put.input]

/-- Letting go of a channel, and forgetting the epoch, moves no byte. -/
theorem delivered_lost (client : RemoteWriter) : client.lost.delivered = client.delivered := by
  simp [lost, setEpoch, terminateCurrent, delivered, channels]

theorem queuedInput_lost (client : RemoteWriter) :
    client.lost.writer.queuedInput = client.writer.queuedInput := rfl

/-! ### One message -/

/-- A message reaches the channel when it can be encoded, there is a channel and the pipe
takes it. -/
def Reaches (json : ControlJson) (client : RemoteWriter) (message : RemoteMessage)
    (answer : PipeAnswer) : Prop :=
  (RemoteCodec.encodeInto json message []).1 = .ok () ∧ client.writer.input.isSome ∧
    answer = .takes

variable (json debug) in
theorem writeMessage_ok_iff (client : RemoteWriter) (message : RemoteMessage)
    (answer : PipeAnswer) :
    (client.writeMessage json debug message answer).1 = .ok () ↔
      Reaches json client message answer := by
  unfold writeMessage Reaches
  rcases hencode : RemoteCodec.encodeInto json message [] with ⟨result, encoded⟩
  cases result with
  | error e => simp
  | ok u =>
    cases hinput : client.writer.input with
    | none => simp
    | some channel => cases answer <;> simp [putOn]

variable (json debug) in
theorem isSome_writeMessage (client : RemoteWriter) (message : RemoteMessage)
    (answer : PipeAnswer) :
    (client.writeMessage json debug message answer).2.writer.input.isSome
      = client.writer.input.isSome := by
  unfold writeMessage
  rcases hencode : RemoteCodec.encodeInto json message [] with ⟨result, encoded⟩
  cases result with
  | error e => rfl
  | ok u => cases hinput : client.writer.input <;> simp [hinput]

variable (json debug) in
/-- Only the channel changes, and it has the message's input when the write is `Ok`. -/
theorem writeMessage_spec (client : RemoteWriter) (message : RemoteMessage)
    (answer : PipeAnswer) :
    (client.writeMessage json debug message answer).2.writer.queuedInput
        = client.writer.queuedInput ∧
      (client.writeMessage json debug message answer).2.delivered
        = client.delivered ++
          (if (client.writeMessage json debug message answer).1 = .ok () then
            messageInput message else []) := by
  unfold writeMessage
  rcases hencode : RemoteCodec.encodeInto json message [] with ⟨result, encoded⟩
  cases result with
  | error e => simp
  | ok u =>
    cases hinput : client.writer.input with
    | none => simp
    | some channel =>
      refine ⟨rfl, ?_⟩
      have hchannel := inputOf_putOn channel message encoded answer
      dsimp only at hchannel ⊢
      rw [delivered_of_input hinput, delivered_of_input rfl, hchannel, List.append_assoc]
      cases answer <;> simp [putOn]

variable (json) in
theorem encodes_input_iff (bytes : List UInt8) :
    (RemoteCodec.encodeInto json (.terminal (Frame.input bytes)) []).1 = .ok () ↔
      bytes.length ≤ maxFrameBytes := by
  refine ⟨fun hok => ?_, fun h => (encodeInto_terminal json h).1⟩
  by_contra hlong
  unfold RemoteCodec.encodeInto RemoteCodec.encodeBody at hok
  have hpayload : ((([] : List UInt8) ++ List.replicate headerBytes 0).set ([] : List UInt8).length
      (Frame.input bytes).frameType.toU8 ++ (Frame.input bytes).payload).length
        - ([] : List UInt8).length - headerBytes = bytes.length := by
    simp [Frame.input]
  dsimp only at hok
  rw [hpayload, if_pos (by omega)] at hok
  cases hok

/-! ### The invariant -/

/-- Every accepted byte is on a channel or in the queue, and in order. -/
structure Kept (accepted : List UInt8) (client : RemoteWriter) : Prop where
  inOrder : client.delivered ++ client.writer.queuedInput = accepted
  /-- The queue fits in one frame, so that it can be flushed. -/
  bounded : client.writer.queuedInput.length ≤ maxQueuedInput

namespace Kept

variable {taken : List UInt8} {client : RemoteWriter}

/-- A step that moves no byte keeps the invariant. -/
theorem of_same {client' : RemoteWriter} (h : Kept taken client)
    (hdelivered : client'.delivered = client.delivered)
    (hqueue : client'.writer.queuedInput = client.writer.queuedInput) : Kept taken client' := by
  constructor
  · rw [hdelivered, hqueue]
    exact h.inOrder
  · rw [hqueue]
    exact h.bounded

theorem lost (h : Kept taken client) : Kept taken client.lost :=
  h.of_same (delivered_lost client) (queuedInput_lost client)

/-- A message without input moves no byte, sent or not. -/
theorem writeMessage (h : Kept taken client) {message : RemoteMessage}
    (hmessage : messageInput message = []) (answer : PipeAnswer) :
    Kept taken (client.writeMessage json debug message answer).2 := by
  obtain ⟨hqueue, hdelivered⟩ := client.writeMessage_spec json debug message answer
  refine h.of_same ?_ hqueue
  rw [hdelivered, hmessage, ite_self, List.append_nil]

theorem queueInput (h : Kept taken client) (bytes : List UInt8) :
    Kept (taken ++ if (client.queueInput bytes).1 = .ok () then bytes else [])
      (client.queueInput bytes).2 := by
  unfold RemoteWriter.queueInput
  split
  · simpa using h
  · rename_i hroom
    constructor
    · rw [if_pos rfl, ← h.inOrder, List.append_assoc]
      rfl
    · simp only [List.length_append]
      omega

end Kept

/-! ### Each call -/

/-- The bytes go straight to the channel, and the pipe takes them. -/
def SendsNow (client : RemoteWriter) (bytes : List UInt8) (answer : PipeAnswer) : Prop :=
  bytes ≠ [] ∧ bytes.length ≤ maxFrameBytes ∧ client.reconnecting = false ∧ answer = .takes

/-- `grant_control` gets as far as taking a queue that is not empty. -/
def TakesQueue (client : RemoteWriter) (generation epoch : UInt64) (resizeAnswer : PipeAnswer) :
    Prop :=
  client.requireGeneration generation = .ok () ∧ client.writer.controllerEpoch = some epoch ∧
    (client.writer.queuedResize = none ∨ resizeAnswer = .takes) ∧ client.writer.queuedInput ≠ []

/-- No bytes overtake the queue, and no queue is taken by a flush that fails. -/
def InOrder (s : Step RemoteWriter WriterCall IoResult) : Prop :=
  match s.event with
  | .write bytes answer => SendsNow s.before bytes answer → s.before.writer.queuedInput = []
  | .grantControl generation epoch resizeAnswer inputAnswer =>
    TakesQueue s.before generation epoch resizeAnswer → inputAnswer = .takes
  | _ => True

variable {taken : List UInt8} {client : RemoteWriter}

theorem Kept.connect (h : Kept taken client) (hello : Hello) (attached : IoResult)
    (answer : PipeAnswer) : Kept taken (client.connect json debug hello attached answer).2 := by
  unfold RemoteWriter.connect
  cases attached with
  | error e => exact h
  | ok u =>
    rcases hencode : RemoteCodec.encodeInto json (.hello hello) [] with ⟨result, encoded⟩
    cases result with
    | error e => exact h
    | ok u =>
      cases answer with
      | fails n error => exact h
      | takes =>
        refine h.of_same ?_ rfl
        -- the new channel has the `Hello` and no input
        simp [putOn, terminateCurrent, delivered, channels, inputOf, Put.input]

theorem Kept.acceptHello (h : Kept taken client) (generation epoch : UInt64) :
    Kept taken (client.acceptHello generation epoch).2 := by
  unfold RemoteWriter.acceptHello
  split
  · exact h
  · exact h.of_same rfl rfl

theorem Kept.flushResize (h : Kept taken client) (answer : PipeAnswer) :
    Kept taken (client.flushResize json debug answer).2 := by
  unfold RemoteWriter.flushResize
  split
  · exact h
  · rename_i cols rows hqueued
    have htaken : Kept taken
        { client with writer := { client.writer with queuedResize := none } } :=
      h.of_same rfl rfl
    exact htaken.writeMessage (messageInput_resize cols rows) answer

theorem Kept.flushInput (h : Kept taken client) (hinput : client.writer.input.isSome)
    {answer : PipeAnswer} (hanswer : client.writer.queuedInput ≠ [] → answer = .takes) :
    Kept taken (client.flushInput json debug answer).2 := by
  unfold RemoteWriter.flushInput
  by_cases hempty : client.writer.queuedInput = []
  · rw [if_pos (by rw [hempty]; rfl)]
    exact h
  · rw [if_neg (by simpa using hempty)]
    have hfits : client.writer.queuedInput.length ≤ maxFrameBytes :=
      Nat.le_trans h.bounded (by decide)
    have hok := (writeMessage_ok_iff json debug
      { client with writer := { client.writer with queuedInput := [] } } _ answer).mpr
      ⟨(encodes_input_iff json _).mpr hfits, hinput, hanswer hempty⟩
    obtain ⟨hqueue, hdelivered⟩ := writeMessage_spec json debug
      { client with writer := { client.writer with queuedInput := [] } }
      (.terminal (Frame.input client.writer.queuedInput)) answer
    constructor
    · rw [hqueue, hdelivered, if_pos hok, messageInput_input, ← h.inOrder, List.append_nil]
      rfl
    · rw [hqueue]
      exact Nat.zero_le _

theorem flushResize_ok {answer : PipeAnswer}
    (hok : (client.flushResize json debug answer).1 = .ok ()) :
    (client.writer.queuedResize = none ∨ answer = .takes) ∧
      (client.flushResize json debug answer).2.writer.input.isSome = client.writer.input.isSome ∧
      (client.flushResize json debug answer).2.writer.queuedInput
        = client.writer.queuedInput := by
  unfold RemoteWriter.flushResize at hok ⊢
  cases hqueued : client.writer.queuedResize with
  | none => exact ⟨Or.inl rfl, rfl, rfl⟩
  | some size =>
    rw [hqueued] at hok
    refine ⟨Or.inr ((writeMessage_ok_iff json debug _ _ answer).mp hok).2.2, ?_, ?_⟩
    · exact isSome_writeMessage json debug _ _ answer
    · exact (writeMessage_spec json debug _ _ answer).1

theorem requireGeneration_isSome {generation : UInt64}
    (h : client.requireGeneration generation = .ok ()) : client.writer.input.isSome := by
  unfold RemoteWriter.requireGeneration at h
  split at h
  · cases h
  · rename_i hcurrent
    cases hinput : client.writer.input with
    | none => simp [hinput] at hcurrent
    | some channel => rfl

theorem Kept.grantControl (h : Kept taken client) {generation epoch : UInt64}
    {resizeAnswer inputAnswer : PipeAnswer}
    (hflush : TakesQueue client generation epoch resizeAnswer → inputAnswer = .takes) :
    Kept taken
      (client.grantControl json debug generation epoch resizeAnswer inputAnswer).2 := by
  unfold RemoteWriter.grantControl
  cases hgeneration : client.requireGeneration generation with
  | error e => exact h
  | ok u =>
    by_cases hepoch : client.writer.controllerEpoch = some epoch
    · have hresized : Kept taken (client.flushResize json debug resizeAnswer).2 :=
        h.flushResize resizeAnswer
      dsimp only
      rw [if_neg (not_not_intro hepoch)]
      split
      · rename_i e client' hfailed
        rw [hfailed] at hresized
        exact hresized
      · rename_i client' hsent
        rw [hsent] at hresized
        obtain ⟨hout, hinput, hqueue⟩ := flushResize_ok (by rw [hsent])
        rw [hsent] at hinput hqueue
        refine hresized.flushInput ?_ fun hnonempty => ?_
        · exact hinput.trans (requireGeneration_isSome hgeneration)
        · exact hflush ⟨hgeneration, hepoch, hout, hqueue ▸ hnonempty⟩
    · dsimp only
      rw [if_pos hepoch]
      exact h

theorem write_reconnecting {bytes : List UInt8} (hbytes : bytes ≠ [])
    (hwaits : client.reconnecting = true) (answer : PipeAnswer) :
    client.write json debug bytes answer = client.queueInput bytes := by
  unfold RemoteWriter.write
  rw [if_neg (by simpa using hbytes), if_pos hwaits]

theorem write_sent {bytes : List UInt8} (hbytes : bytes ≠ [])
    (hopen : client.reconnecting = false) {answer : PipeAnswer}
    (hok : (client.writeMessage json debug (.terminal (Frame.input bytes)) answer).1 = .ok ()) :
    client.write json debug bytes answer
      = client.writeMessage json debug (.terminal (Frame.input bytes)) answer := by
  unfold RemoteWriter.write
  rw [if_neg (by simpa using hbytes), if_neg (by simp [hopen])]
  rcases hsent : client.writeMessage json debug (.terminal (Frame.input bytes)) answer with
    ⟨result, client'⟩
  rw [hsent] at hok
  cases hok
  rfl

theorem write_failed {bytes : List UInt8} (hbytes : bytes ≠ [])
    (hopen : client.reconnecting = false) {answer : PipeAnswer}
    (hfail : (client.writeMessage json debug (.terminal (Frame.input bytes)) answer).1 ≠ .ok ()) :
    let queued := ((client.writeMessage json debug (.terminal (Frame.input bytes))
      answer).2.queueInput bytes)
    client.write json debug bytes answer
      = (queued.1, if queued.1 = .ok () then queued.2.lost else queued.2) := by
  unfold RemoteWriter.write
  rw [if_neg (by simpa using hbytes), if_neg (by simp [hopen])]
  rcases hsent : client.writeMessage json debug (.terminal (Frame.input bytes)) answer with
    ⟨result, client'⟩
  rw [hsent] at hfail
  cases result with
  | ok u => exact absurd rfl hfail
  | error e =>
    dsimp only
    rcases hqueued : client'.queueInput bytes with ⟨result, client''⟩
    cases result <;> simp

theorem Kept.write (h : Kept taken client) {bytes : List UInt8} {answer : PipeAnswer}
    (hqueue : SendsNow client bytes answer → client.writer.queuedInput = []) :
    Kept (taken ++ if (client.write json debug bytes answer).1 = .ok () then bytes else [])
      (client.write json debug bytes answer).2 := by
  by_cases hempty : bytes = []
  · subst hempty
    simpa [RemoteWriter.write] using h
  by_cases hwaits : client.reconnecting = true
  · rw [write_reconnecting hempty hwaits]
    exact h.queueInput bytes
  have hopen := Bool.eq_false_iff.mpr hwaits
  obtain ⟨hsame, hdelivered⟩ := writeMessage_spec json debug client
    (.terminal (Frame.input bytes)) answer
  by_cases hok : (client.writeMessage json debug (.terminal (Frame.input bytes)) answer).1 = .ok ()
  · obtain ⟨hencodes, -, htakes⟩ := (writeMessage_ok_iff json debug client _ answer).mp hok
    have hnone : client.writer.queuedInput = [] :=
      hqueue ⟨hempty, (encodes_input_iff json bytes).mp hencodes, hopen, htakes⟩
    rw [write_sent hempty hopen hok, if_pos hok]
    constructor
    · rw [hsame, hdelivered, if_pos hok, messageInput_input, ← h.inOrder, hnone,
        List.append_nil, List.append_nil]
    · rw [hsame]
      exact h.bounded
  · rw [if_neg hok, List.append_nil] at hdelivered
    have hjoined := (h.of_same hdelivered hsame).queueInput bytes
    rw [write_failed hempty hopen hok]
    by_cases hroom : ((client.writeMessage json debug (.terminal (Frame.input bytes))
        answer).2.queueInput bytes).1 = .ok ()
    · rw [if_pos hroom] at hjoined ⊢
      rw [if_pos hroom]
      exact hjoined.lost
    · rw [if_neg hroom] at hjoined ⊢
      rw [if_neg hroom]
      exact hjoined

theorem Kept.resize (h : Kept taken client) (cols rows : UInt16) (answer : PipeAnswer) :
    Kept taken (client.resize json debug cols rows answer).2 := by
  unfold RemoteWriter.resize
  have hsent : Kept taken
      (client.writeMessage json debug (.terminal (Frame.resize cols rows)) answer).2 :=
    h.writeMessage (messageInput_resize cols rows) answer
  rcases hwrite : client.writeMessage json debug (.terminal (Frame.resize cols rows)) answer with
    ⟨result, client'⟩
  rw [hwrite] at hsent
  cases validateTerminalDimensions cols rows with
  | error e => exact h
  | ok u =>
    by_cases hwaits : client.reconnecting = true
    · dsimp only
      rw [if_pos hwaits]
      exact h.of_same rfl rfl
    · dsimp only
      rw [if_neg hwaits]
      cases result with
      | ok u => exact hsent
      | error e =>
        have hqueued : Kept taken (client'.queueResize cols rows) := hsent.of_same rfl rfl
        exact hqueued.lost

theorem Kept.signal (h : Kept taken client) (signal : Int32) (answer : PipeAnswer) :
    Kept taken (client.signal json debug signal answer).2 := by
  unfold RemoteWriter.signal
  split
  · exact h
  · exact h.writeMessage rfl answer

theorem Kept.requestScrollback (h : Kept taken client) (request : ScrollbackRequest)
    (answer : PipeAnswer) :
    Kept taken (client.requestScrollback json debug request answer).2 := by
  unfold RemoteWriter.requestScrollback
  split
  · exact h
  · exact h.writeMessage rfl answer

theorem Kept.disconnect (h : Kept taken client) (generation : UInt64) :
    Kept taken (client.disconnect generation) := by
  unfold RemoteWriter.disconnect
  split
  · exact h.lost
  · exact h

/-! ### Runs -/

theorem acceptedBy_write (client : RemoteWriter) (bytes : List UInt8) (answer : PipeAnswer) :
    acceptedBy (take (step json debug) client (.write bytes answer))
      = if (client.write json debug bytes answer).1 = .ok () then bytes else [] := by
  simp only [acceptedBy, take, step, call, Prod.snd_swap]
  cases (client.write json debug bytes answer).1 <;> simp

theorem Kept.step (h : Kept taken client) (event : WriterCall)
    (horder : InOrder (take (step json debug) client event)) :
    Kept (taken ++ acceptedBy (take (step json debug) client event))
      (step json debug client event).1 := by
  cases event with
  | write bytes answer =>
    rw [acceptedBy_write]
    exact h.write horder
  | connect hello attached answer =>
    exact (List.append_nil taken).symm ▸ h.connect hello attached answer
  | acceptHello generation epoch =>
    exact (List.append_nil taken).symm ▸ h.acceptHello generation epoch
  | grantControl generation epoch resizeAnswer inputAnswer =>
    exact (List.append_nil taken).symm ▸ h.grantControl horder
  | resize cols rows answer => exact (List.append_nil taken).symm ▸ h.resize cols rows answer
  | signal signal answer => exact (List.append_nil taken).symm ▸ h.signal signal answer
  | requestScrollback request answer =>
    exact (List.append_nil taken).symm ▸ h.requestScrollback request answer
  | disconnect generation => exact (List.append_nil taken).symm ▸ h.disconnect generation
  | close => exact (List.append_nil taken).symm ▸ h.lost

theorem Kept.new : Kept [] RemoteWriter.new := ⟨rfl, Nat.zero_le _⟩

/--
**Accepted input is kept, in order.**  In a run in which no write overtakes the queue and no
flush fails, the bytes of the accepted writes are those on the channels followed by those
still queued.
-/
theorem accepted_input_in_order (json : ControlJson) (debug : String → String)
    {events : List WriterCall}
    (horder : ∀ s ∈ trace (RemoteWriter.step json debug) RemoteWriter.new events, InOrder s) :
    (run (RemoteWriter.step json debug) RemoteWriter.new events).delivered ++
        (run (RemoteWriter.step json debug) RemoteWriter.new events).writer.queuedInput
      = accepted (trace (RemoteWriter.step json debug) RemoteWriter.new events) := by
  refine Kept.inOrder (trace_invariant_where (C := InOrder)
    (P := fun history client => Kept (accepted history) client) _ horder Kept.new ?_)
  intro history client event hstep hkept
  have haccepted : accepted (history ++ [take (RemoteWriter.step json debug) client event])
      = accepted history ++ acceptedBy (take (RemoteWriter.step json debug) client event) := by
    simp [accepted]
  rw [haccepted]
  exact hkept.step event hstep

/-! ### A client that reconnects -/

/-- A field that may be missing. -/
def jsonMaybe {α : Type} (text : α → List UInt8) (value : Option α) : List UInt8 :=
  (value.map text).getD (asciiBytes "null")

/-- The text `serde_json` writes for a `Hello`. -/
def helloText (hello : Hello) : List UInt8 :=
  jsonObject [
    ("protocol", jsonObject [("major", jsonNat hello.protocol.major.toNat),
      ("minor", jsonNat hello.protocol.minor.toNat)]),
    ("localBuildId", jsonString hello.localBuildId),
    ("sessionId", jsonString hello.sessionId),
    ("sessionToken", jsonString hello.sessionToken.value),
    ("expectedIncarnation", jsonMaybe jsonString hello.expectedIncarnation),
    ("requestedRole", jsonString "controller"),
    ("clientNonce", jsonString hello.clientNonce),
    ("requiredCapabilities",
      jsonList 0x5b 0x5d (hello.requiredCapabilities.map (jsonString ∘ wireName))),
    ("lastAcknowledgedOutputOffset",
      jsonMaybe (jsonNat ∘ UInt64.toNat) hello.lastAcknowledgedOutputOffset),
    ("lastAcknowledgedGridSequence",
      jsonMaybe (jsonNat ∘ UInt64.toNat) hello.lastAcknowledgedGridSequence)]

def engineJson : ControlJson := { LineTerm.json with hello := writes helloText }

def firstHello : Hello :=
  RemoteClient.hello ⟨"s1", ⟨"0123456789abcdef0123456789abcdef"⟩, "i1", "b1", "engine-1"⟩ "n1" 0 none

def quoted (text : String) : String := "\"" ++ text ++ "\""

/-- The client connects, and the Holder answers with epoch 1. -/
def greeted : List WriterCall := [.connect firstHello (.ok ()) .takes, .acceptHello 1 1]

def brokenPipe : PipeAnswer := .fails 3 ⟨.brokenPipe, "Broken pipe (os error 32)"⟩

/-- A computed form of `InOrder`. -/
def inOrder (s : Step RemoteWriter WriterCall IoResult) : Bool :=
  match s.event with
  | .write bytes answer =>
    !(!bytes.isEmpty && decide (bytes.length ≤ maxFrameBytes) && !s.before.reconnecting
      && decide (answer = .takes)) || s.before.writer.queuedInput.isEmpty
  | .grantControl _ _ _ inputAnswer => decide (inputAnswer = .takes)
  | _ => true

theorem inOrder_of_check {s : Step RemoteWriter WriterCall IoResult} (h : inOrder s = true) :
    InOrder s := by
  unfold inOrder at h
  unfold InOrder
  split at h
  · rintro ⟨hbytes, hfits, hopen, htakes⟩
    simpa [hbytes, hfits, hopen, htakes] using h
  · exact fun _ => of_decide_eq_true h
  · trivial

set_option maxRecDepth 60000

/-- Typed ahead, sent at the grant, and queued again when the pipe breaks. -/
def typedAhead : List WriterCall :=
  [.write [0x61] .takes] ++ greeted ++ [.grantControl 1 1 .takes .takes, .write [0x62] .takes,
    .write [0x63] brokenPipe]

theorem accepted_input_in_order_reconnect :
    (run (RemoteWriter.step engineJson quoted) RemoteWriter.new typedAhead).delivered ++
        (run (RemoteWriter.step engineJson quoted) RemoteWriter.new typedAhead).writer.queuedInput
      = [0x61, 0x62, 0x63] := by
  rw [accepted_input_in_order engineJson quoted fun s hs => inOrder_of_check ?_]
  · with_unfolding_all decide
  · revert s
    with_unfolding_all decide

/-- What is on the channels and in the queue is what was accepted. -/
def KeepsInput (events : List WriterCall) : Prop :=
  (run (RemoteWriter.step engineJson quoted) RemoteWriter.new events).delivered ++
      (run (RemoteWriter.step engineJson quoted) RemoteWriter.new events).writer.queuedInput
    = accepted (trace (RemoteWriter.step engineJson quoted) RemoteWriter.new events)

/-- `b` is typed between the acknowledgement and the grant, and is sent before the `a` that
waits; or the pipe breaks under the flush, and the `a` is gone. -/
theorem queued_input_overtaken_or_lost :
    ¬ KeepsInput ([.write [0x61] .takes] ++ greeted ++
        [.write [0x62] .takes, .grantControl 1 1 .takes .takes]) ∧
      ¬ KeepsInput ([.write [0x61] .takes] ++ greeted ++
        [.grantControl 1 1 .takes brokenPipe]) := by
  unfold KeepsInput
  constructor <;> with_unfolding_all decide

end Homie.Remote.RemoteWriter
