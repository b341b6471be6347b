/-
The Engine-Holder codec reads back what it wrote, and a refused message leaves the
shared output buffer alone.

The encoder and the decoder check a payload in two places that know nothing of each
other, so the round trip is one lemma for each kind of payload: what `encodeBody`
leaves behind the reserved header is read back by `decodeMessage` under the kind it
put in front.  The framing around it is the library's `headed`.

`serde_json` enters through `RoundTrips`: the text it writes for a value is read back
as that value.
-/
import Homie.Proofs.GridCodec
import Homie.Proto.RemotePty

namespace Homie

open Bytes

/-- What `serde_json` writes for a value it reads back as that value. -/
def Serde.RoundTrips {α : Type} (serde : Serde α) : Prop :=
  ∀ value bytes, serde.toWriter value = (bytes, .ok ()) → serde.fromSlice bytes = .ok value

/-- `serde_json` round-trips every control payload. -/
structure ControlJson.RoundTrips (json : ControlJson) : Prop where
  hello : json.hello.RoundTrips
  helloAck : json.helloAck.RoundTrips
  processExit : json.processExit.RoundTrips
  signal : json.signal.RoundTrips
  acquireControl : json.acquireControl.RoundTrips
  controlGranted : json.controlGranted.RoundTrips
  controlRevoked : json.controlRevoked.RoundTrips
  releaseControl : json.releaseControl.RoundTrips
  scrollbackRequest : json.scrollbackRequest.RoundTrips
  scrollbackResponse : json.scrollbackResponse.RoundTrips
  error : json.error.RoundTrips

namespace RemoteCodec

/-! ### One payload behind its reserved header -/

/-- The buffer with a header reserved at its end. -/
def reserved (output : List UInt8) : List UInt8 := output ++ List.replicate headerBytes 0

theorem take_reserved (output : List UInt8) : (reserved output).take output.length = output :=
  List.take_left

theorem set_reserved (output : List UInt8) (kind : UInt8) :
    (reserved output).set output.length kind = output ++ (kind :: List.replicate 4 0) := by
  rw [reserved, List.set_append_right _ _ (Nat.le_refl _), Nat.sub_self]
  rfl

/--
What one payload writer has to do: on success it has put a kind in the header's first
byte and a payload behind the header that decodes to the message; on failure it has at
most written behind the old end of the buffer.
-/
def Fills (json : ControlJson) (message : RemoteMessage) (output : List UInt8) :
    Written → Prop
  | (.ok (), written) => ∃ kind payload,
      written = output ++ (kind :: List.replicate 4 0) ++ payload ∧
        validateKind kind = .ok () ∧ decodeMessage json kind payload = .ok message
  | (.error _, written) => written.take output.length = output

theorem fills_json {json : ControlJson} {α : Type} {serde : Serde α} {kind : UInt8} {value : α}
    {message : RemoteMessage} (output : List UInt8) (hkind : validateKind kind = .ok ())
    (hread : ∀ bytes, serde.toWriter value = (bytes, .ok ()) →
      decodeMessage json kind bytes = .ok message) :
    Fills json message output
      (appendJson serde kind value (reserved output) output.length) := by
  simp only [appendJson, set_reserved]
  split
  · rename_i bytes hwrite
    exact ⟨kind, bytes, rfl, hkind, hread bytes hwrite⟩
  · rename_i bytes detail hwrite
    simp only [Fills, List.append_assoc, List.take_left]

theorem fills_checked {json : ControlJson} {validation : Except RemoteCodecError Unit}
    {message : RemoteMessage} {output : List UInt8} {step : List UInt8 → Written}
    (h : validation = .ok () → Fills json message output (step (reserved output))) :
    Fills json message output (checked validation (reserved output) step) := by
  cases hv : validation with
  | error e => exact take_reserved output
  | ok u => exact h hv

/-- A payload read by `decodeJson`. -/
theorem decodeJson_ok {α : Type} {serde : Serde α} {value : α} {bytes : List UInt8}
    (hserde : serde.RoundTrips) (hwrite : serde.toWriter value = (bytes, .ok ())) (kind : UInt8) :
    decodeJson serde kind bytes = .ok value := by
  rw [decodeJson, hserde value bytes hwrite]

theorem decodeChecked_ok {α : Type} {serde : Serde α} {value : α} {bytes : List UInt8}
    {validate : α → Except RemoteCodecError Unit} (hserde : serde.RoundTrips)
    (hwrite : serde.toWriter value = (bytes, .ok ())) (hvalid : validate value = .ok ())
    (kind : UInt8) : decodeChecked serde validate kind bytes = .ok value := by
  simp only [decodeChecked, decodeJson_ok hserde hwrite kind, bind, Except.bind, hvalid, pure,
    Except.pure]

theorem fills_plain {json : ControlJson} {α : Type} {serde : Serde α} {kind : UInt8}
    {wrap : α → RemoteMessage} {value : α} (hserde : serde.RoundTrips) (output : List UInt8)
    (hkind : validateKind kind = .ok ())
    (hread : ∀ bytes, decodeMessage json kind bytes = wrap <$> decodeJson serde kind bytes) :
    Fills json (wrap value) output
      (appendJson serde kind value (reserved output) output.length) := by
  refine fills_json output hkind ?_
  intro bytes hwrite
  rw [hread, decodeJson_ok hserde hwrite]
  rfl

theorem fills_validated {json : ControlJson} {α : Type} {serde : Serde α} {kind : UInt8}
    {wrap : α → RemoteMessage} {validate : α → Except RemoteCodecError Unit} {value : α}
    (hserde : serde.RoundTrips) (output : List UInt8) (hkind : validateKind kind = .ok ())
    (hread : ∀ bytes,
      decodeMessage json kind bytes = wrap <$> decodeChecked serde validate kind bytes) :
    Fills json (wrap value) output
      (checked (validate value) (reserved output) fun written =>
        appendJson serde kind value written output.length) := by
  refine fills_checked ?_
  intro hvalid
  refine fills_json output hkind ?_
  intro bytes hwrite
  rw [hread, decodeChecked_ok hserde hwrite hvalid]
  rfl

/-! ### Grid payloads -/

/-- The payload of a snapshot or a delta: the sequence, the modes, the grid. -/
def gridPayload (sequence : UInt64) (modes : UInt8) (bytes : List UInt8) : List UInt8 :=
  u64Be sequence ++ [modes] ++ bytes

theorem length_gridPayload (sequence : UInt64) (modes : UInt8) (bytes : List UInt8) :
    (gridPayload sequence modes bytes).length = 9 + bytes.length := by
  simp only [gridPayload, List.length_append, length_u64Be, List.length_singleton]

theorem decodeGrid_gridPayload {full : Bool} {mismatch : String} {sequence : UInt64} {modes : UInt8}
    {grid : GridUpdate} {bytes : List UInt8} (hvalid : validateGridUpdate grid = .ok ())
    (hfull : grid.isFullSnapshot = full) (hencode : grid.encode = .ok bytes) :
    decodeGrid full mismatch (gridPayload sequence modes bytes) = .ok (sequence, modes, grid) := by
  have hlen : (u64Be sequence ++ [modes]).length = fullSnapshotFixedBytes := by
    simp [fullSnapshotFixedBytes]
  have hdrop : (gridPayload sequence modes bytes).drop fullSnapshotFixedBytes = bytes :=
    List.drop_left' hlen
  have htake : (gridPayload sequence modes bytes).take 8 = u64Be sequence := by
    rw [gridPayload, List.append_assoc]
    exact List.take_left' (length_u64Be _)
  have hmodes : (gridPayload sequence modes bytes).getD 8 0 = modes := by
    have h8 : (u64Be sequence).length ≤ 8 := Nat.le_of_eq (length_u64Be sequence)
    rw [gridPayload, List.append_assoc, List.getD_eq_getElem?_getD,
      List.getElem?_append_right h8, length_u64Be]
    rfl
  have hdecode : GridUpdate.decode bytes = .ok grid := by
    rw [GridUpdate.decode, (GridUpdate.encode_reads hencode).run]
    rfl
  simp only [decodeGrid, hdrop, hdecode, hvalid, htake, hmodes, readU64Be_u64Be, bind, Except.bind]
  rw [if_neg (by rw [hfull]; exact fun h => h rfl)]
  rfl

theorem gridModes_bits (altScreen bracketedPaste mouseReporting : Bool) :
    (gridModes altScreen bracketedPaste mouseReporting &&& 1 != 0) = altScreen ∧
      (gridModes altScreen bracketedPaste mouseReporting &&& 2 != 0) = bracketedPaste ∧
      (gridModes altScreen bracketedPaste mouseReporting &&& 4 != 0) = mouseReporting := by
  cases altScreen <;> cases bracketedPaste <;> cases mouseReporting <;> decide

theorem fills_grid {json : ControlJson} {kind : UInt8} {full : Bool} {mismatch : String}
    {sequence : UInt64} {modes : UInt8} {grid : GridUpdate} {message : RemoteMessage}
    (output : List UInt8) (hkind : validateKind kind = .ok ())
    (hread : ∀ bytes, validateGridUpdate grid = .ok () → grid.isFullSnapshot = full →
      grid.encode = .ok bytes →
      decodeMessage json kind (gridPayload sequence modes bytes) = .ok message) :
    Fills json message output
      (appendGrid kind full mismatch sequence modes grid (reserved output) output.length) := by
  refine fills_checked ?_
  intro hvalid
  simp only [set_reserved]
  split
  · simp only [rollback, Fills, List.append_assoc, List.take_left, List.take_length]
  · rename_i hfull
    cases hencode : grid.encode with
    | error e => simp only [Fills, List.append_assoc, List.take_left]
    | ok bytes =>
      refine ⟨kind, gridPayload sequence modes bytes, ?_, hkind, ?_⟩
      · simp only [gridPayload, List.append_assoc]
      · exact hread bytes hvalid (Decidable.not_not.mp hfull) hencode

theorem decodeMessage_fullSnapshot {json : ControlJson} {value : FullSnapshot} {bytes : List UInt8}
    (hvalid : validateGridUpdate value.grid = .ok ()) (hfull : value.grid.isFullSnapshot = true)
    (hencode : value.grid.encode = .ok bytes) :
    decodeMessage json kindFullSnapshot (gridPayload value.sequence
        (gridModes value.altScreen value.bracketedPaste value.mouseReporting) bytes)
      = .ok (.fullSnapshot value) := by
  obtain ⟨halt, hpaste, hmouse⟩ :=
    gridModes_bits value.altScreen value.bracketedPaste value.mouseReporting
  generalize gridModes value.altScreen value.bracketedPaste value.mouseReporting = modes at *
  have hlong : ¬ ((gridPayload value.sequence modes bytes).length < 9) := by
    rw [length_gridPayload]
    omega
  show (if (gridPayload value.sequence modes bytes).length < 9 then
      Except.error (.invalidFullSnapshot ("need at least 9 bytes, got "
        ++ toString (gridPayload value.sequence modes bytes).length))
    else decodeGrid true notFullSnapshot (gridPayload value.sequence modes bytes) >>= fun read =>
      pure (RemoteMessage.fullSnapshot ⟨read.1, read.2.1 &&& 1 != 0, read.2.1 &&& 2 != 0, read.2.1 &&& 4 != 0,
        read.2.2⟩)) = _
  rw [if_neg hlong, decodeGrid_gridPayload hvalid hfull hencode]
  simp only [bind, Except.bind, pure, Except.pure, halt, hpaste, hmouse]

theorem decodeMessage_gridDelta {json : ControlJson} {value : GridDelta} {bytes : List UInt8}
    (hvalid : validateGridUpdate value.grid = .ok ()) (hfull : value.grid.isFullSnapshot = false)
    (hencode : value.grid.encode = .ok bytes) :
    decodeMessage json kindGridDelta (gridPayload value.sequence
        (gridModes value.altScreen value.bracketedPaste value.mouseReporting) bytes)
      = .ok (.gridDelta value) := by
  obtain ⟨halt, hpaste, hmouse⟩ :=
    gridModes_bits value.altScreen value.bracketedPaste value.mouseReporting
  generalize gridModes value.altScreen value.bracketedPaste value.mouseReporting = modes at *
  have hlong : ¬ ((gridPayload value.sequence modes bytes).length < 9) := by
    rw [length_gridPayload]
    omega
  show (if (gridPayload value.sequence modes bytes).length < 9 then
      Except.error (.invalidFullSnapshot ("grid delta needs at least 8 bytes, got "
        ++ toString (gridPayload value.sequence modes bytes).length))
    else decodeGrid false deltaIsFullSnapshot (gridPayload value.sequence modes bytes) >>= fun read =>
      pure (RemoteMessage.gridDelta ⟨read.1, read.2.1 &&& 1 != 0, read.2.1 &&& 2 != 0, read.2.1 &&& 4 != 0,
        read.2.2⟩)) = _
  rw [if_neg hlong, decodeGrid_gridPayload hvalid hfull hencode]
  simp only [bind, Except.bind, pure, Except.pure, halt, hpaste, hmouse]

/-! ### Every message -/

theorem decodeMessage_terminal (json : ControlJson) (frame : Frame) :
    decodeMessage json frame.frameType.toU8 frame.payload = .ok (.terminal frame) := by
  have hle : frame.frameType.toU8 ≤ FrameType.modes.toU8 := by
    cases frame.frameType <;> decide
  simp only [decodeMessage]
  rw [if_pos hle, FrameType.tryFrom_toU8]

theorem validateKind_frameType (frameType : FrameType) :
    validateKind frameType.toU8 = .ok () := by
  cases frameType <;> rfl

/-- Whatever the message, what `encodeBody` leaves behind the header is that message. -/
theorem encodeBody_fills {json : ControlJson} (hjson : json.RoundTrips) (message : RemoteMessage)
    (output : List UInt8) :
    Fills json message output (encodeBody json message (reserved output) output.length) := by
  cases message with
  | terminal frame =>
    simp only [encodeBody, set_reserved]
    exact ⟨frame.frameType.toU8, frame.payload, rfl, validateKind_frameType _,
      decodeMessage_terminal json frame⟩
  | hello value => exact fills_validated hjson.hello output rfl fun _ => rfl
  | helloAck value => exact fills_validated hjson.helloAck output rfl fun _ => rfl
  | fullSnapshot value => exact fills_grid output rfl fun bytes => decodeMessage_fullSnapshot
  | gridDelta value => exact fills_grid output rfl fun bytes => decodeMessage_gridDelta
  | processExit value => exact fills_plain hjson.processExit output rfl fun _ => rfl
  | signal value => exact fills_plain hjson.signal output rfl fun _ => rfl
  | acquireControl value => exact fills_validated hjson.acquireControl output rfl fun _ => rfl
  | controlGranted value => exact fills_plain hjson.controlGranted output rfl fun _ => rfl
  | controlRevoked value => exact fills_plain hjson.controlRevoked output rfl fun _ => rfl
  | releaseControl value => exact fills_plain hjson.releaseControl output rfl fun _ => rfl
  | scrollbackRequest value =>
    exact fills_validated hjson.scrollbackRequest output rfl fun _ => rfl
  | scrollbackResponse value =>
    exact fills_plain hjson.scrollbackResponse output rfl fun _ => rfl
  | error value => exact fills_plain hjson.error output rfl fun _ => rfl

/-! ### The header patched in -/

theorem accept_ok {kind : UInt8} {length : Nat} (hkind : validateKind kind = .ok ())
    (hmax : ¬ length > maxFrameBytes)
    (hcontrol : ¬ (isControlKind kind && length > maxControlFrameBytes) = true) :
    accept kind length = .ok kind := by
  simp only [accept, hkind, bind, Except.bind, if_neg hmax, if_neg hcontrol, pure, Except.pure]

theorem patch_header (output payload word : List UInt8) (kind : UInt8) :
    (output ++ (kind :: List.replicate 4 0) ++ payload).take (output.length + 1) ++ word
        ++ (output ++ (kind :: List.replicate 4 0) ++ payload).drop (output.length + headerBytes)
      = output ++ (kind :: (word ++ payload)) := by
  have htake : (output ++ (kind :: List.replicate 4 0) ++ payload).take (output.length + 1)
      = output ++ [kind] := by
    rw [List.append_assoc, List.take_length_add_append]
    rfl
  have hdrop : (output ++ (kind :: List.replicate 4 0) ++ payload).drop
      (output.length + headerBytes) = payload := by
    rw [List.append_assoc, List.drop_length_add_append]
    rfl
  rw [htake, hdrop]
  simp only [List.append_assoc, List.cons_append, List.nil_append]

/-- A payload behind its header is sent unless it is too long. -/
theorem encodeInto_of_ok {json : ControlJson} {message : RemoteMessage}
    {output payload : List UInt8} {kind : UInt8}
    (hbody : encodeBody json message (reserved output) output.length
      = (.ok (), output ++ (kind :: List.replicate 4 0) ++ payload)) :
    encodeInto json message output =
      if payload.length > maxFrameBytes then
        (.error (.frameTooLarge payload.length maxFrameBytes), output)
      else if isControlKind kind && payload.length > maxControlFrameBytes then
        (.error (.controlFrameTooLarge payload.length maxControlFrameBytes), output)
      else (.ok (), output ++ (kind :: (u32Be (UInt32.ofNat payload.length) ++ payload))) := by
  have hlen : (output ++ (kind :: List.replicate 4 0) ++ payload).length - output.length
      - headerBytes = payload.length := by
    simp only [List.length_append, List.length_cons, List.length_replicate, headerBytes]
    omega
  have hfirst : (output ++ (kind :: List.replicate 4 0) ++ payload).getD output.length 0
      = kind := by
    rw [List.append_assoc, List.getD_eq_getElem?_getD,
      List.getElem?_append_right (Nat.le_refl _), Nat.sub_self]
    rfl
  have hback : (output ++ (kind :: List.replicate 4 0) ++ payload).take output.length
      = output := by
    rw [List.append_assoc]
    exact List.take_left
  unfold reserved at hbody
  rw [encodeInto]
  simp only [hbody, hlen, hfirst, rollback, hback, patch_header]
  by_cases hmax : payload.length > maxFrameBytes
  · rw [if_pos hmax, if_pos hmax]
  · have hfits : ¬ payload.length ≥ 2 ^ 32 := by
      have : maxFrameBytes ≤ 2 ^ 31 := by decide
      omega
    rw [if_neg hmax, if_neg hmax, if_neg hfits]

theorem encodeInto_of_error {json : ControlJson} {message : RemoteMessage}
    {output written : List UInt8} {e : RemoteCodecError}
    (hbody : encodeBody json message (reserved output) output.length = (.error e, written))
    (hback : written.take output.length = output) :
    encodeInto json message output = (.error e, output) := by
  unfold reserved at hbody
  rw [encodeInto]
  simp only [hbody, hback]

/-- `encodeInto` appends one message of the stream, or leaves the buffer as it was. -/
theorem encodeInto_spec {json : ControlJson} (hjson : json.RoundTrips) (message : RemoteMessage)
    (output : List UInt8) :
    match encodeInto json message output with
    | (.ok (), written) => ∃ bytes, written = output ++ bytes ∧
        Framing.Encodes (next json) message bytes
    | (.error _, written) => written = output := by
  have hfills := encodeBody_fills hjson message output
  cases hbody : encodeBody json message (reserved output) output.length with
  | mk result written =>
    rw [hbody] at hfills
    cases result with
    | error e => rw [encodeInto_of_error hbody hfills]
    | ok _ =>
      obtain ⟨kind, payload, rfl, hkind, hdecode⟩ := hfills
      rw [encodeInto_of_ok hbody]
      by_cases hmax : payload.length > maxFrameBytes
      · simp only [if_pos hmax]
      · rw [if_neg hmax]
        by_cases hcontrol :
            (isControlKind kind && payload.length > maxControlFrameBytes) = true
        · simp only [if_pos hcontrol]
        · have hfits : payload.length < 2 ^ 32 := by
            have : maxFrameBytes ≤ 2 ^ 31 := by decide
            omega
          rw [if_neg hcontrol]
          refine ⟨_, rfl, ?_⟩
          exact Framing.headed_encodes hfits (accept_ok hkind hmax hcontrol) hdecode

theorem encodeAll_spec {json : ControlJson} (hjson : json.RoundTrips) :
    ∀ (messages : List RemoteMessage) (output written : List UInt8),
      encodeAll json messages output = (.ok (), written) →
        ∃ encodings, written = output ++ encodings.flatten ∧
          List.Forall₂ (Framing.Encodes (next json)) messages encodings := by
  intro messages
  induction messages with
  | nil =>
    intro output written h
    cases h
    exact ⟨[], by simp, List.Forall₂.nil⟩
  | cons message messages ih =>
    intro output written h
    rw [encodeAll] at h
    have hspec := encodeInto_spec hjson message output
    match hinto : encodeInto json message output with
    | (.error e, written') => rw [hinto] at h; cases h
    | (.ok (), written') =>
      rw [hinto] at h hspec
      obtain ⟨bytes, rfl, hbytes⟩ := hspec
      obtain ⟨encodings, rfl, hencodings⟩ := ih _ _ h
      exact ⟨bytes :: encodings, by simp, List.Forall₂.cons hbytes hencodings⟩

/-! ### Decoding in chunks -/

theorem next_lawful (json : ControlJson) : Framing.Lawful (next json) := Framing.headed_lawful _ _

/-- `feed` is the library's decoder over the buffered bytes. -/
theorem feedAll_eq (json : ControlJson) (codec : RemoteCodec) (chunks : List (List UInt8)) :
    codec.feedAll json chunks = match Framing.feedChunks (next json) codec.buffer chunks with
      | .error e => .error e
      | .ok (messages, residue) => .ok (messages, ⟨residue⟩) := by
  induction chunks generalizing codec with
  | nil => rfl
  | cons chunk chunks ih =>
    rw [feedAll, Framing.feedChunks, feed]
    cases Framing.decode (next json) (codec.buffer ++ chunk) with
    | error e => rfl
    | ok taken =>
      simp only
      rw [ih]
      cases Framing.feedChunks (next json) taken.2 chunks <;> rfl

end RemoteCodec

/--
**The Engine-Holder codec round-trips.**  Whatever messages `encode_into` accepts one
behind another, their bytes decode to exactly those messages however the stream is cut,
with nothing left over; and a message it refuses leaves the output buffer untouched.
-/
theorem remote_codec_round_trip (json : ControlJson) (hjson : json.RoundTrips) :
    (∀ (messages : List RemoteMessage) (stream : List UInt8),
      RemoteCodec.encodeAll json messages [] = (.ok (), stream) →
        ∀ chunks : List (List UInt8), chunks.flatten = stream →
          RemoteCodec.new.feedAll json chunks = .ok (messages, RemoteCodec.new)) ∧
    (∀ (message : RemoteMessage) (output written : List UInt8) (e : RemoteCodecError),
      RemoteCodec.encodeInto json message output = (.error e, written) → written = output) := by
  refine ⟨?_, ?_⟩
  · intro messages stream hencode chunks hchunks
    obtain ⟨encodings, hstream, hall⟩ := RemoteCodec.encodeAll_spec hjson messages [] stream hencode
    have hempty : RemoteCodec.next json RemoteCodec.new.buffer = .ok none := rfl
    have hdecode := Framing.decode_flatten (RemoteCodec.next_lawful json) hall
    rw [RemoteCodec.feedAll_eq, Framing.feedChunks_eq (RemoteCodec.next_lawful json) _ _ hempty,
      hchunks, hstream]
    simp only [RemoteCodec.new, List.nil_append, hdecode]
  · intro message output written e h
    have hspec := RemoteCodec.encodeInto_spec hjson message output
    rw [h] at hspec
    exact hspec

/-! ### A reading of `serde_json` on one value -/

/-- `serde_json` as far as one value's text: it writes and reads that value and no other. -/
def Serde.single {α : Type} [DecidableEq α] (value : α) (text : List UInt8) : Serde α where
  toWriter v := if v = value then (text, .ok ()) else ([], .error "unsupported value")
  fromSlice bytes := if bytes = text then .ok value else .error "expected value"

theorem Serde.single_roundTrips {α : Type} [DecidableEq α] (value : α) (text : List UInt8) :
    (Serde.single value text).RoundTrips := by
  intro v bytes h
  simp only [single] at h ⊢
  split at h
  · rename_i hv
    cases h
    rw [if_pos rfl, hv]
  · cases h

/-- A writer that refuses every value. -/
def Serde.refusing (α : Type) : Serde α where
  toWriter _ := ([], .error "unsupported value")
  fromSlice _ := .error "expected value"

theorem Serde.refusing_roundTrips (α : Type) : (Serde.refusing α).RoundTrips := by
  intro v bytes h
  cases h

/-- `{"controllerEpoch":7,"signal":15}` -/
def signalText : List UInt8 :=
  [123, 34, 99, 111, 110, 116, 114, 111, 108, 108, 101, 114, 69, 112, 111, 99, 104, 34, 58, 55,
    44, 34, 115, 105, 103, 110, 97, 108, 34, 58, 49, 53, 125]

/-- The one signal the example below sends. -/
def signalJson : ControlJson where
  hello := Serde.refusing _
  helloAck := Serde.refusing _
  processExit := Serde.refusing _
  signal := Serde.single ⟨7, 15⟩ signalText
  acquireControl := Serde.refusing _
  controlGranted := Serde.refusing _
  controlRevoked := Serde.refusing _
  releaseControl := Serde.refusing _
  scrollbackRequest := Serde.refusing _
  scrollbackResponse := Serde.refusing _
  error := Serde.refusing _

theorem signalJson_roundTrips : signalJson.RoundTrips where
  hello := Serde.refusing_roundTrips _
  helloAck := Serde.refusing_roundTrips _
  processExit := Serde.refusing_roundTrips _
  signal := Serde.single_roundTrips _ _
  acquireControl := Serde.refusing_roundTrips _
  controlGranted := Serde.refusing_roundTrips _
  controlRevoked := Serde.refusing_roundTrips _
  releaseControl := Serde.refusing_roundTrips _
  scrollbackRequest := Serde.refusing_roundTrips _
  scrollbackResponse := Serde.refusing_roundTrips _
  error := Serde.refusing_roundTrips _

/-- A ping and a `SIGTERM`, cut inside the second header. -/
theorem remote_codec_round_trip_signal :
    RemoteCodec.encodeAll signalJson [.terminal Frame.ping, .signal ⟨7, 15⟩] []
      = (.ok (), [6, 0, 0, 0, 0, 36, 0, 0, 0, 33] ++ signalText) ∧
    RemoteCodec.new.feedAll signalJson [[6, 0, 0, 0, 0, 36, 0], [0, 0, 33] ++ signalText]
      = .ok ([.terminal Frame.ping, .signal ⟨7, 15⟩], RemoteCodec.new) := by
  have hencode : RemoteCodec.encodeAll signalJson [.terminal Frame.ping, .signal ⟨7, 15⟩] []
      = (.ok (), [6, 0, 0, 0, 0, 36, 0, 0, 0, 33] ++ signalText) := by rfl
  exact ⟨hencode, (remote_codec_round_trip signalJson signalJson_roundTrips).1 _ _ hencode _ rfl⟩

end Homie

/-! ### How long a grid frame is

A row costs four bytes, and sixteen for each of its runs; a row has no more runs than cells.
Rows that differ in their index are no more than the grid has, so the screen with a run for
every cell is the worst there is: `maxTerminalCells` of them and `maxTerminalRows` rows stay
below `maxFrameBytes`, with the header of the update, the sequence, the modes and the header of
the frame.
-/

namespace Homie

open Bytes GridRowCodec

/-! ### What is checked -/

/-- What `validateGridUpdate` leaves of a grid. -/
structure GridUpdate.Valid (grid : GridUpdate) : Prop where
  rows_le : grid.rows.toNat ≤ maxTerminalRows.toNat
  cells_le : grid.cols.toNat * grid.rows.toNat ≤ maxTerminalCells
  row_inside : ∀ row ∈ grid.changedRows, row.y < grid.rows
  row_width : ∀ row ∈ grid.changedRows, row.cells.length = grid.cols.toNat

theorem validateGridUpdate_valid {grid : GridUpdate} (h : validateGridUpdate grid = .ok ()) :
    grid.Valid := by
  unfold validateGridUpdate at h
  cases hdims : validateTerminalDimensions grid.cols grid.rows with
  | error e =>
    rw [hdims] at h
    cases h
  | ok _ =>
    rw [hdims] at h
    dsimp only at h
    unfold validateTerminalDimensions at hdims
    split at hdims
    · cases hdims
    · rename_i hlimits
      simp only [Bool.or_eq_true, decide_eq_true_eq, not_or, gt_iff_lt] at hlimits
      split at h
      · cases h
      · split at h
        · cases h
        · rename_i hrows
          have hrow : ∀ row ∈ grid.changedRows,
              ¬ ((decide (row.y ≥ grid.rows) || row.cells.length != grid.cols.toNat) = true) :=
            fun row hmem hbad => hrows (List.any_eq_true.mpr ⟨row, hmem, hbad⟩)
          simp only [Bool.or_eq_true, decide_eq_true_eq, bne_iff_ne, ne_eq, not_or,
            Decidable.not_not] at hrow
          refine ⟨?_, Nat.le_of_not_lt hlimits.2, ?_, fun row hmem => (hrow row hmem).2⟩
          · exact UInt16.le_iff_toNat_le.mp (UInt16.not_lt.mp hlimits.1.2)
          · exact fun row hmem => UInt16.not_le.mp (hrow row hmem).1

/-! ### The bytes of an update -/

/-- Rows that differ in their index are no more than the grid has. -/
theorem changedRows_length_le {grid : GridUpdate} (hvalid : grid.Valid)
    (hdistinct : (grid.changedRows.map ChangedRow.y).Nodup) :
    grid.changedRows.length ≤ grid.rows.toNat := by
  have hnodup : ((grid.changedRows.map ChangedRow.y).map UInt16.toNat).Nodup :=
    List.Nodup.map (fun _ _ => UInt16.toNat_inj.mp) hdistinct
  have hsub : ((grid.changedRows.map ChangedRow.y).map UInt16.toNat)
      ⊆ List.range grid.rows.toNat := by
    intro y hy
    obtain ⟨index, hindex, rfl⟩ := List.mem_map.mp hy
    obtain ⟨row, hrow, rfl⟩ := List.mem_map.mp hindex
    exact List.mem_range.mpr (UInt16.lt_iff_toNat_lt.mp (hvalid.row_inside row hrow))
  have hle := (List.subperm_of_subset hnodup hsub).length_le
  rwa [List.length_map, List.length_map, List.length_range] at hle

theorem length_rowBytes_le (cells : List GridCell) :
    (rowBytes cells).length ≤ 2 + 16 * cells.length := by
  have hruns := length_rowRuns cells
  rw [length_rowBytes_runs]
  omega

theorem length_rows_le {cols : Nat} {rows : List ChangedRow}
    (hwidth : ∀ row ∈ rows, row.cells.length = cols) :
    (rows.flatMap fun row => u16Be row.y ++ rowBytes row.cells).length
      ≤ rows.length * (4 + 16 * cols) := by
  induction rows with
  | nil => exact Nat.zero_le _
  | cons row rows ih =>
    have hrest := ih fun other hother => hwidth other (List.mem_cons_of_mem _ hother)
    have hrow := length_rowBytes_le row.cells
    rw [hwidth row List.mem_cons_self] at hrow
    rw [List.flatMap_cons, List.length_append, List.length_append, Bytes.length_u16Be,
      List.length_cons, Nat.succ_mul]
    omega

theorem encode_length_le {grid : GridUpdate} (hvalid : grid.Valid)
    (hdistinct : (grid.changedRows.map ChangedRow.y).Nodup) :
    ∃ bytes, grid.encode = .ok bytes ∧
      bytes.length ≤ 11 + 4 * maxTerminalRows.toNat + 16 * maxTerminalCells := by
  have hcount := changedRows_length_le hvalid hdistinct
  have hmax : grid.rows.toNat ≤ u16Max := Nat.le_of_lt_succ grid.rows.toNat_lt
  have hwidth : ∀ row ∈ grid.changedRows, row.cells.length ≤ u16Max := by
    intro row hrow
    rw [hvalid.row_width row hrow]
    exact Nat.le_of_lt_succ grid.cols.toNat_lt
  have hrows := length_rows_le hvalid.row_width
  have hscreen : grid.changedRows.length * (4 + 16 * grid.cols.toNat)
      ≤ 4 * maxTerminalRows.toNat + 16 * maxTerminalCells := by
    calc grid.changedRows.length * (4 + 16 * grid.cols.toNat)
        ≤ grid.rows.toNat * (4 + 16 * grid.cols.toNat) := Nat.mul_le_mul_right _ hcount
      _ = 4 * grid.rows.toNat + 16 * (grid.cols.toNat * grid.rows.toNat) := by ring
      _ ≤ 4 * maxTerminalRows.toNat + 16 * maxTerminalCells := by
          have := hvalid.rows_le
          have := hvalid.cells_le
          omega
  refine ⟨_, (if_neg (by omega)).trans
    (foldlM_appendRow_ok (fun row : ChangedRow => u16Be row.y) ChangedRow.cells _ hwidth), ?_⟩
  simp only [List.length_append, Bytes.length_u16Be, List.length_cons, List.length_nil]
  omega

/-! ### The frame -/

namespace RemoteCodec

variable {json : ControlJson} {kind : UInt8} {full : Bool} {mismatch : String} {sequence : UInt64}
  {modes : UInt8} {grid : GridUpdate}

theorem appendGrid_cases (hvalid : validateGridUpdate grid = .ok ())
    (hdistinct : (grid.changedRows.map ChangedRow.y).Nodup) (output : List UInt8) :
    (grid.isFullSnapshot = full ∧ ∃ payload, headerBytes + payload.length ≤ maxFrameBytes ∧
      appendGrid kind full mismatch sequence modes grid (reserved output) output.length
        = (.ok (), output ++ (kind :: List.replicate 4 0) ++ payload)) ∨
    (grid.isFullSnapshot ≠ full ∧ ∃ written, written.take output.length = output ∧
      appendGrid kind full mismatch sequence modes grid (reserved output) output.length
        = (.error (.invalidFullSnapshot mismatch), written)) := by
  unfold appendGrid
  rw [hvalid]
  simp only [checked, set_reserved]
  by_cases hfull : grid.isFullSnapshot = full
  · obtain ⟨bytes, hencode, hlen⟩ := encode_length_le (validateGridUpdate_valid hvalid) hdistinct
    refine Or.inl ⟨hfull, gridPayload sequence modes bytes, ?_, ?_⟩
    · have hmax : headerBytes + (9 + (11 + 4 * maxTerminalRows.toNat + 16 * maxTerminalCells))
          ≤ maxFrameBytes := by decide
      rw [length_gridPayload]
      omega
    · rw [if_neg (not_not.mpr hfull), hencode]
      simp only [gridPayload, List.append_assoc]
  · refine Or.inr ⟨hfull, ?_⟩
    rw [if_pos hfull]
    refine ⟨_, ?_, rfl⟩
    simp only [List.append_assoc, List.take_left, List.take_length]

/-- The grid of the two messages that carry one, and whether it has to be a full one. -/
def gridOf : RemoteMessage → Option (GridUpdate × Bool)
  | .fullSnapshot value => some (value.grid, true)
  | .gridDelta value => some (value.grid, false)
  | _ => none

/-- Both go through `appendGrid`, with a kind that no control bound is for. -/
theorem encodeBody_grid (json : ControlJson) {message : RemoteMessage} {grid : GridUpdate}
    {full : Bool} (hgrid : gridOf message = some (grid, full)) :
    ∃ kind mismatch sequence modes, isControlKind kind = false ∧
      ∀ output, encodeBody json message (reserved output) output.length
        = appendGrid kind full mismatch sequence modes grid (reserved output) output.length := by
  cases message with
  | fullSnapshot value =>
    cases hgrid
    exact ⟨_, _, _, _, by decide, fun _ => rfl⟩
  | gridDelta value =>
    cases hgrid
    exact ⟨_, _, _, _, by decide, fun _ => rfl⟩
  | _ => cases hgrid

/--
**No grid is too large for a frame.**

A snapshot or a delta whose grid is valid, with rows that differ in their index, is never refused
for its size, and never for anything but a flag that does not match the message.  What it adds to
the buffer, header and all, is no longer than `maxFrameBytes`.
-/
theorem grid_frame_fits (json : ControlJson) {message : RemoteMessage} {grid : GridUpdate}
    {full : Bool} (hgrid : gridOf message = some (grid, full))
    (hvalid : validateGridUpdate grid = .ok ())
    (hdistinct : (grid.changedRows.map ChangedRow.y).Nodup) (output : List UInt8) :
    (∀ length max, (encodeInto json message output).1 ≠ .error (.frameTooLarge length max)) ∧
      ((encodeInto json message output).1 = .ok () ↔ grid.isFullSnapshot = full) ∧
      (encodeInto json message output).2.length ≤ output.length + maxFrameBytes := by
  obtain ⟨kind, mismatch, sequence, modes, hkind, hbody⟩ := encodeBody_grid json hgrid
  rcases appendGrid_cases hvalid hdistinct output with
    ⟨hfull, payload, hfits, hwritten⟩ | ⟨hfull, written, hback, hwritten⟩
  · rw [encodeInto_of_ok ((hbody output).trans hwritten), hkind, Bool.false_and,
      if_neg (by omega), if_neg Bool.false_ne_true]
    refine ⟨fun _ _ => nofun, iff_of_true rfl hfull, ?_⟩
    simp only [List.length_append, List.length_cons, Bytes.length_u32Be]
    unfold headerBytes at hfits
    omega
  · rw [encodeInto_of_error ((hbody output).trans hwritten) hback]
    exact ⟨fun _ _ => nofun, iff_of_false nofun hfull, Nat.le_add_right _ _⟩

/-- A screen of one cell. -/
def oneCell : GridUpdate := ⟨1, 1, 0, 0, true, true, [⟨0, [.blank]⟩]⟩

/-- It fits as a snapshot, behind what is in the buffer already. -/
theorem grid_frame_fits_one_cell :
    (∀ length max, (encodeInto signalJson (.fullSnapshot ⟨7, false, false, false, oneCell⟩)
        [0x2a]).1 ≠ .error (.frameTooLarge length max)) ∧
      ((encodeInto signalJson (.fullSnapshot ⟨7, false, false, false, oneCell⟩) [0x2a]).1 = .ok () ↔
        oneCell.isFullSnapshot = true) ∧
      (encodeInto signalJson (.fullSnapshot ⟨7, false, false, false, oneCell⟩) [0x2a]).2.length
        ≤ 1 + maxFrameBytes :=
  @grid_frame_fits signalJson (.fullSnapshot ⟨7, false, false, false, oneCell⟩) oneCell true rfl
    rfl (by decide) [0x2a]

end RemoteCodec

end Homie
