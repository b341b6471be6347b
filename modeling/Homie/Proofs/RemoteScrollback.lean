/-
Remote scrollback replies against the frame limit.

A Holder answers a scrollback request with the cells of up to 1024 lines, in base64 inside JSON,
as one frame.  A frame that is too large is an error of the handler, and the connection is
closed with a fatal error.  The number of lines and the number of columns are both bounded, but
not their product, so the reply is served exactly when the cells fit.
-/
import Homie.Proofs.HolderSteps
import Homie.Proofs.ReplySizes

namespace Homie.Remote

open JsonText HeadlessScreen

variable {T : Type}

/-- `serde_json` writes a scrollback response as its text. -/
def WritesScrollback (P : Platform T) : Prop :=
  ∀ response : ScrollbackResponse,
    P.json.scrollbackResponse.toWriter response = (response.text, .ok ())

/-- The reply of a Holder to a scrollback request. -/
def scrollbackReply (P : Platform T) (h : Holder T) (request : ScrollbackRequest) :
    ScrollbackResponse :=
  ⟨request.requestId, h.screen.scrollbackCells P.backend request.firstRow request.maxRows⟩

/-- The bytes of that reply, as the cells of the window have it. -/
def remoteReplyBytes (P : Platform T) (h : Holder T) (request : ScrollbackRequest) : Nat :=
  24 + (integer request.requestId.toNat).length
    + h.screen.cellsResultBytes P.backend request.firstRow request.maxRows

theorem length_text {P : Platform T} {h : Holder T} (hcols : h.screen.geometry.cols ≤ u16Max)
    (request : ScrollbackRequest) :
    (scrollbackReply P h request).text.length = remoteReplyBytes P h request := by
  have h₁ : (string "requestId".toList).length = 11 := by decide
  have h₂ : (string "result".toList).length = 8 := by decide
  have hresult := sum_cellsResult (E := P.backend) h.screen hcols request.firstRow request.maxRows
  unfold ScrollbackResponse.text remoteReplyBytes
  rw [length_object (by simp)]
  simp only [List.map_cons, List.map_nil, List.sum_cons, List.sum_nil, memberBytes]
  rw [h₁, h₂, length_object (by simp [ReadScrollbackCellsResult.fields])]
  change 1 + (11 + (integer request.requestId.toNat).length + 2
    + (8 + (1 + ((h.screen.scrollbackCells P.backend request.firstRow
      request.maxRows).fields.map memberBytes).sum) + 2 + 0)) = _
  omega

theorem encodeInto_scrollback {P : Platform T} (hjson : WritesScrollback P)
    (response : ScrollbackResponse) :
    (RemoteCodec.encodeInto P.json (.scrollbackResponse response) []).1 =
      if response.text.length ≤ maxFrameBytes then .ok ()
      else .error (.frameTooLarge response.text.length maxFrameBytes) := by
  have hlength : (List.replicate headerBytes (0 : UInt8)).length = headerBytes :=
    List.length_replicate
  have hkind : ((List.replicate headerBytes (0 : UInt8)).set 0 kindScrollbackResponse
      ++ response.text).getD 0 0 = kindScrollbackResponse := rfl
  have hcontrol : RemoteCodec.isControlKind kindScrollbackResponse = false := by decide
  have hmax : maxFrameBytes < 2 ^ 32 := by decide
  unfold RemoteCodec.encodeInto RemoteCodec.encodeBody RemoteCodec.appendJson
  simp only [hjson response, List.length_nil, List.nil_append, List.length_append,
    List.length_set, hlength]
  have hpayload : headerBytes + response.text.length - 0 - headerBytes = response.text.length := by
    omega
  rw [hpayload, hkind, hcontrol]
  by_cases hfits : response.text.length ≤ maxFrameBytes
  · rw [if_neg (by omega), if_pos hfits]
    simp only [Bool.false_and, Bool.false_eq_true, if_false]
    rw [if_neg (by omega)]
  · rw [if_pos (by omega), if_neg hfits]
    rfl

theorem handleMessage_scrollback {P : Platform T} {h : Holder T} {c : Connection}
    (hepoch : c.epoch = some h.state.controllerEpoch) (request : ScrollbackRequest)
    (calls : Calls) :
    h.handleMessage P c (.scrollbackRequest request) calls =
      match c.queue P (.scrollbackResponse (scrollbackReply P h request)) with
      | .error e => (.error e, h, c)
      | .ok queued => (.ok (), h, queued) := by
  unfold Holder.handleMessage
  rw [hepoch]
  dsimp only
  unfold Holder.handleControl
  rw [if_neg (not_not_intro rfl)]
  rfl

theorem readMessage_scrollback {P : Platform T} (hjson : WritesScrollback P) {h : Holder T}
    {slot : Slot} {c : Connection} (hreading : h.reading = some (slot, c))
    (hepoch : c.epoch = some h.state.controllerEpoch) (request : ScrollbackRequest)
    (calls : Calls) :
    h.readMessage P (.scrollbackRequest request) calls =
      if (scrollbackReply P h request).text.length ≤ maxFrameBytes then
        { h with reading := some (slot, { c with
            outbound := c.outbound ++ [.scrollbackResponse (scrollbackReply P h request)] }) }
      else h.closeReading P c "protocol_error"
        (codecErrorText P.debug
          (.frameTooLarge (scrollbackReply P h request).text.length maxFrameBytes))
        calls.fatalWritten := by
  have hqueue : c.queue P (.scrollbackResponse (scrollbackReply P h request)) =
      if (scrollbackReply P h request).text.length ≤ maxFrameBytes then
        .ok { c with outbound := c.outbound ++ [.scrollbackResponse (scrollbackReply P h request)] }
      else .error ⟨.other, codecErrorText P.debug
        (.frameTooLarge (scrollbackReply P h request).text.length maxFrameBytes)⟩ := by
    unfold Connection.queue
    rw [encodeInto_scrollback hjson]
    by_cases hfits : (scrollbackReply P h request).text.length ≤ maxFrameBytes
    · rw [if_pos hfits, if_pos hfits]
    · rw [if_neg hfits, if_neg hfits]
  unfold Holder.readMessage
  rw [hreading]
  dsimp only
  rw [handleMessage_scrollback hepoch, hqueue]
  by_cases hfits : (scrollbackReply P h request).text.length ≤ maxFrameBytes
  · rw [if_pos hfits, if_pos hfits]
  · rw [if_neg hfits, if_neg hfits]

/--
**A scrollback reply is served exactly when its cells fit a frame.**  A Holder that reads a
request of its controller, with any cells on a screen of any width, queues the reply and reads
on exactly when the cells of the window come to no more than the frame limit.  Otherwise it
closes the connection with a fatal error.
-/
theorem scrollback_served_iff (P : Platform T) (hjson : WritesScrollback P) (h : Holder T)
    (hcols : h.screen.geometry.cols ≤ u16Max) {slot : Slot} {c : Connection}
    (hreading : h.reading = some (slot, c)) (hepoch : c.epoch = some h.state.controllerEpoch)
    (request : ScrollbackRequest) (calls : Calls) :
    ((h.readMessage P (.scrollbackRequest request) calls).reading = some (slot, { c with
        outbound := c.outbound ++ [.scrollbackResponse (scrollbackReply P h request)] }) ↔
      remoteReplyBytes P h request ≤ maxFrameBytes) ∧
    (¬ remoteReplyBytes P h request ≤ maxFrameBytes →
      h.readMessage P (.scrollbackRequest request) calls =
        h.closeReading P c "protocol_error"
          (codecErrorText P.debug (.frameTooLarge (remoteReplyBytes P h request) maxFrameBytes))
          calls.fatalWritten) := by
  rw [readMessage_scrollback hjson hreading hepoch, length_text hcols]
  by_cases hfits : remoteReplyBytes P h request ≤ maxFrameBytes
  · rw [if_pos hfits]
    exact ⟨iff_of_true rfl hfits, fun hnot => absurd hfits hnot⟩
  · rw [if_neg hfits]
    refine ⟨iff_of_false ?_ hfits, fun _ => rfl⟩
    intro hread
    cases hread

/-! ### Two screens -/

/-- The platform that runs, with scrollback responses. -/
def scrollbackPlatform : Platform LineTerm :=
  { LineTerm.platform with
    json := { LineTerm.json with scrollbackResponse := writes ScrollbackResponse.text } }

/-- A Holder with this screen that is reading its controller. -/
def readingHolder (screen : HeadlessScreen LineTerm) : Holder LineTerm :=
  { Holder.sample with screen, reading := some (.installed, (Connection.new 0).admitted 0) }

def sampleRequest : ScrollbackRequest := ⟨1, 0, 1024⟩

/-- A blank screen of four cells is served. -/
theorem scrollback_served_blank :
    ((readingHolder (HeadlessScreen.new LineTerm.backend 2 2)).readMessage scrollbackPlatform
        (.scrollbackRequest sampleRequest) Calls.quiet).reading
      = some (.installed, { (Connection.new 0).admitted 0 with
          outbound := [.scrollbackResponse (scrollbackReply scrollbackPlatform
            (readingHolder (HeadlessScreen.new LineTerm.backend 2 2)) sampleRequest)] }) := by
  have hbytes : remoteReplyBytes scrollbackPlatform
      (readingHolder (HeadlessScreen.new LineTerm.backend 2 2)) sampleRequest ≤ maxFrameBytes := by
    decide
  exact (scrollback_served_iff scrollbackPlatform (fun _ => rfl)
    (readingHolder (HeadlessScreen.new LineTerm.backend 2 2)) (by decide) rfl rfl sampleRequest
    Calls.quiet).1.mpr hbytes

/-- Two letters by turns. -/
def checkerCell (x : Nat) : Cell :=
  LineTerm.plainCell (if x % 2 = 0 then Char.ofNat 0x61 else Char.ofNat 0x62)

/-- A screen on which every cell differs from its neighbours in the line. -/
def checkered (cols rows : Nat) : HeadlessScreen LineTerm :=
  { HeadlessScreen.new LineTerm.backend cols rows with
    term := { LineTerm.new 64 cols rows with
      lines := List.replicate rows ((List.range cols).map checkerCell) } }

theorem cellChanges_range' {f : Nat → GridCell} (hf : ∀ x, f (x + 1) ≠ f x) :
    ∀ n start, cellChanges ((List.range' start n).map f) = n - 1
  | 0, _ => rfl
  | 1, _ => rfl
  | n + 2, start => by
    have ih := cellChanges_range' hf (n + 1) (start + 1)
    rw [List.range'_succ, List.map_cons] at ih
    rw [List.range'_succ, List.range'_succ, List.map_cons, List.map_cons, cellChanges,
      if_neg (hf start), ih]
    omega

theorem checkerCell_succ (x : Nat) : wireCell (checkerCell (x + 1)) ≠ wireCell (checkerCell x) := by
  unfold checkerCell
  by_cases heven : x % 2 = 0
  · rw [if_pos heven, if_neg (by omega)]
    decide
  · rw [if_neg heven, if_pos (by omega)]
    decide

theorem window_checkered {cols rows : Nat} (hcols : 0 < cols) (hrows : 0 < rows)
    {maxRows : Int64} (hmax : (rows : Int) ≤ maxRows.toInt) :
    (checkered cols rows).window LineTerm.backend 0 maxRows
      = List.replicate rows ((List.range cols).map (wireCell ∘ checkerCell)) := by
  have hgeometry : (checkered cols rows).geometry.rows = rows := by
    change max rows 1 = rows
    omega
  have hwidth : (checkered cols rows).geometry.cols = cols := by
    change max cols 1 = cols
    omega
  have hhistory : LineTerm.backend.historySize (checkered cols rows).term = 0 := by
    change (List.replicate rows _).length - rows = 0
    rw [List.length_replicate]
    omega
  refine window_replicate ?_ ?_ hmax
  · rw [totalRows, hhistory, hgeometry, Nat.zero_add]
  · intro index hindex
    have hcell : ∀ x < cols, LineTerm.backend.cell (checkered cols rows).term index x
        = checkerCell x := by
      intro x hx
      have hline : (checkered cols rows).term.lineIndex index = index := by
        rw [LineTerm.lineIndex]
        change ((index : Int) + (LineTerm.backend.historySize (checkered cols rows).term : Nat)).toNat
          = index
        rw [hhistory]
        omega
      have hget : (checkered cols rows).term.lines.getD index []
          = (List.range cols).map checkerCell := by
        change (List.replicate rows ((List.range cols).map checkerCell)).getD index [] = _
        rw [List.getD_eq_getElem?_getD, List.getElem?_replicate, if_pos hindex]
        rfl
      change ((checkered cols rows).term.lines.getD
        ((checkered cols rows).term.lineIndex index) []).getD x Cell.default = checkerCell x
      rw [hline, hget, List.getD_eq_getElem?_getD, List.getElem?_map,
        List.getElem?_range hx]
      rfl
    have hline : (index : Int) - (0 : Nat) = index := by omega
    rw [hhistory, hline, wireRow, hwidth]
    refine List.map_congr_left fun x hx => ?_
    rw [hcell x (List.mem_range.mp hx)]
    rfl

theorem checkered_reply {cols rows : Nat} (hcols : 0 < cols) (hrows : 0 < rows)
    (hmax : (rows : Int) ≤ 1024) :
    4 * ((rows * (18 + 16 * (cols - 1)) + 2) / 3)
      ≤ remoteReplyBytes scrollbackPlatform (readingHolder (checkered cols rows))
        sampleRequest := by
  have hwindow : (checkered cols rows).window LineTerm.backend 0 1024
      = List.replicate rows ((List.range cols).map (wireCell ∘ checkerCell)) :=
    window_checkered hcols hrows hmax
  have hchanges : cellChanges ((List.range cols).map (wireCell ∘ checkerCell)) = cols - 1 := by
    rw [List.range_eq_range']
    exact cellChanges_range' checkerCell_succ cols 0
  have hbytes : rowsBytes (List.replicate rows ((List.range cols).map (wireCell ∘ checkerCell)))
      = rows * (18 + 16 * (cols - 1)) := by
    rw [rowsBytes, List.length_replicate, List.map_replicate, hchanges, List.sum_replicate_nat,
      Nat.mul_add]
    rw [Nat.mul_comm 18, Nat.mul_left_comm]
  have hresult : (checkered cols rows).cellsResultBytes LineTerm.backend 0 1024
      ≤ remoteReplyBytes scrollbackPlatform (readingHolder (checkered cols rows)) sampleRequest :=
    Nat.le_add_left _ _
  refine le_trans ?_ hresult
  simp only [cellsResultBytes, hwindow, hbytes]
  omega

/-- A size and a request that are accepted, and cells whose reply closes the connection. -/
theorem wide_scrollback_fatal :
    validateTerminalDimensions 4096 244 = .ok () ∧ sampleRequest.validate = .ok () ∧
    ((readingHolder (checkered 4096 244)).readMessage scrollbackPlatform
      (.scrollbackRequest sampleRequest) Calls.quiet).reading = none := by
  have hcols : (readingHolder (checkered 4096 244)).screen.geometry.cols ≤ u16Max := by
    change max 4096 1 ≤ u16Max
    decide
  have hbytes := checkered_reply (by decide : 0 < 4096) (by decide : 0 < 244) (by decide)
  rw [readMessage_scrollback (fun _ => rfl) rfl rfl, length_text hcols, if_neg]
  · exact ⟨by decide, by decide, rfl⟩
  · unfold maxFrameBytes
    omega

end Homie.Remote
