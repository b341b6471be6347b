/-
The engine's mirror of a remote screen.

Every numbered message of a Holder is made from its screen, but a delta says only which
rows differ from the last update made, to whomever that went.  A controller that joined
in between was sent the screen of its handshake.  So a delta is right for it when each
row that is back at its old value already stands in its copy (`Repaints`).

Taking a part of the messages of one connection leads to the screen of the last number
taken (`Faithful`): a stream begins with a full snapshot, so it does not matter what the
mirror held before.  The pump takes the messages of its socket one by one, and a
new connection starts over.
-/
import Homie.Proofs.HolderStreams
import Homie.Proofs.RemoteSteps

set_option maxRecDepth 60000

namespace Homie

variable {T : Type} {E : Backend T}

/-! ### Mirrors -/

namespace GridMirror

/-- The mirror has the screen's cells, geometry, cursor and modes. -/
structure Shows (E : Backend T) (mirror : GridMirror) (s : HeadlessScreen T) : Prop where
  cells : mirror.cells = s.cells E
  size : (mirror.cols.toNat, mirror.rows.toNat) = s.size
  cursor : mirror.cursor = s.cursor E
  modes : mirror.modes = (s.isAltScreen E, s.bracketedPaste E, s.mouseReporting E)

/-- A mirror takes grid messages and leaves the others alone. -/
def take (mirror : GridMirror) : RemoteMessage → Except MirrorError GridMirror
  | .fullSnapshot snapshot =>
    mirror.applySnapshot snapshot.sequence snapshot.grid snapshot.altScreen
      snapshot.bracketedPaste snapshot.mouseReporting
  | .gridDelta delta =>
    mirror.applyDelta delta.sequence delta.grid delta.altScreen delta.bracketedPaste
      delta.mouseReporting
  | _ => .ok mirror

/-- A mirror takes one message after another. -/
def follow (mirror : GridMirror) (messages : List RemoteMessage) : Except MirrorError GridMirror :=
  messages.foldlM take mirror

/-- The number of a grid message. -/
def number : RemoteMessage → Option UInt64
  | .fullSnapshot snapshot => some snapshot.sequence
  | .gridDelta delta => some delta.sequence
  | _ => none

def lastNumber (messages : List RemoteMessage) : Option UInt64 :=
  (messages.filterMap number).getLast?

theorem take_of_number_none (mirror : GridMirror) {message : RemoteMessage}
    (h : number message = none) : mirror.take message = .ok mirror := by
  cases message with
  | fullSnapshot => cases h
  | gridDelta => cases h
  | _ => rfl

theorem follow_append (mirror : GridMirror) (front back : List RemoteMessage) :
    mirror.follow (front ++ back) = (mirror.follow front).bind fun next => next.follow back :=
  List.foldlM_append

theorem follow_singleton (mirror : GridMirror) (message : RemoteMessage) :
    mirror.follow [message] = mirror.take message := by
  show (mirror.take message).bind (fun after => Except.ok after) = _
  cases mirror.take message <;> rfl

theorem follow_concat_ok {mirror after : GridMirror} {messages : List RemoteMessage}
    {message : RemoteMessage} :
    mirror.follow (messages ++ [message]) = .ok after ↔
      ∃ next, mirror.follow messages = .ok next ∧ next.take message = .ok after := by
  rw [follow_append]
  cases mirror.follow messages with
  | error e => simp [Except.bind]
  | ok next => simp [Except.bind, follow_singleton]

theorem lastNumber_concat (messages : List RemoteMessage) (message : RemoteMessage) :
    lastNumber (messages ++ [message]) = (number message).or (lastNumber messages) := by
  unfold lastNumber
  rw [List.filterMap_append, List.getLast?_append]
  cases hnumber : number message with
  | none => simp [hnumber]
  | some value => simp [hnumber]

theorem lastNumber_concat_ne_none {messages : List RemoteMessage} {message : RemoteMessage}
    (h : lastNumber messages ≠ none) : lastNumber (messages ++ [message]) ≠ none := by
  rw [lastNumber_concat]
  exact fun hnone => h (Option.or_eq_none_iff.mp hnone).2

theorem lastNumber_eq_none {messages : List RemoteMessage}
    (h : ∀ message ∈ messages, number message = none) : lastNumber messages = none := by
  unfold lastNumber
  rw [List.filterMap_eq_nil_iff.mpr h]
  rfl

/-- What does not carry a grid changes no mirror. -/
theorem follow_of_lastNumber_none {messages : List RemoteMessage}
    (h : lastNumber messages = none) (mirror : GridMirror) : mirror.follow messages = .ok mirror := by
  induction messages using List.reverseRecOn with
  | nil => rfl
  | append_singleton messages message ih =>
    rw [lastNumber_concat, Option.or_eq_none_iff] at h
    exact follow_concat_ok.mpr ⟨mirror, ih h.2, mirror.take_of_number_none h.1⟩

/-! ### What a mirror accepts -/

theorem applySnapshot_ok {mirror after : GridMirror} {sequence : UInt64} {grid : GridUpdate}
    {altScreen bracketedPaste mouseReporting : Bool}
    (h : mirror.applySnapshot sequence grid altScreen bracketedPaste mouseReporting = .ok after) :
    after = mirror.accept sequence grid altScreen bracketedPaste mouseReporting := by
  unfold applySnapshot at h
  cases hfull : grid.isFullSnapshot with
  | false => simp [hfull, bind, Except.bind, throw, throwThe, MonadExceptOf.throw] at h
  | true =>
    cases hvalid : validateGrid grid with
    | error e => simp [hfull, hvalid, bind, Except.bind] at h
    | ok => simpa [hfull, hvalid, bind, Except.bind, pure, Except.pure] using h.symm

theorem applyDelta_ok {mirror after : GridMirror} {sequence : UInt64} {grid : GridUpdate}
    {altScreen bracketedPaste mouseReporting : Bool}
    (h : mirror.applyDelta sequence grid altScreen bracketedPaste mouseReporting = .ok after) :
    after = mirror.accept sequence grid altScreen bracketedPaste mouseReporting := by
  unfold applyDelta at h
  cases hprevious : mirror.sequence with
  | none => simp [hprevious, throw, throwThe, MonadExceptOf.throw] at h
  | some previous =>
    simp only [hprevious, bind, Except.bind, throw, throwThe, MonadExceptOf.throw, pure,
      Except.pure] at h
    split at h
    · cases h
    · split at h
      · cases h
      · split at h
        · cases h
        · split at h
          · cases h
          · exact (Except.ok.inj h).symm

theorem apply_full {grid : GridUpdate} (h : grid.isFullSnapshot = true)
    (buffer buffer' : List GridCell) : grid.apply buffer = grid.apply buffer' := by
  unfold GridUpdate.apply
  simp [h]

theorem applySnapshot_any (mirror mirror' : GridMirror) (sequence : UInt64) (grid : GridUpdate)
    (altScreen bracketedPaste mouseReporting : Bool) :
    mirror.applySnapshot sequence grid altScreen bracketedPaste mouseReporting
      = mirror'.applySnapshot sequence grid altScreen bracketedPaste mouseReporting := by
  unfold applySnapshot
  cases hfull : grid.isFullSnapshot with
  | false => rfl
  | true =>
    unfold accept updateMetadata
    rw [apply_full hfull mirror.cells mirror'.cells]

theorem accept_shows {s : HeadlessScreen T} (htracked : s.Tracked) {mirror : GridMirror}
    (sequence : UInt64) {full : Bool} {rows : List ChangedRow}
    (hcells : (s.updateWith E full rows).apply mirror.cells = s.cells E) :
    (mirror.accept sequence (s.updateWith E full rows) (s.isAltScreen E) (s.bracketedPaste E)
      (s.mouseReporting E)).Shows E s where
  cells := hcells
  size := by
    have hcols : (UInt16.ofNat s.geometry.cols).toNat = s.geometry.cols :=
      UInt16.toNat_ofNat_of_lt' htracked.range.1
    have hrows : (UInt16.ofNat s.geometry.rows).toNat = s.geometry.rows :=
      UInt16.toNat_ofNat_of_lt' htracked.range.2
    exact Prod.ext hcols hrows
  cursor := rfl
  modes := rfl

/-- The mirror shows the screen of its number. -/
def Shown (E : Backend T) (emitted : List (UInt64 × HeadlessScreen T)) (mirror : GridMirror) :
    Prop :=
  ∃ n screen, mirror.sequence = some n ∧ (n, screen) ∈ emitted ∧ mirror.Shows E screen

end GridMirror

namespace Remote

open GridMirror

/-! ### Streams a mirror can follow -/

/-- Whatever part of the messages a mirror takes, it shows the screen of the last number. -/
structure Faithful (E : Backend T) (emitted : List (UInt64 × HeadlessScreen T))
    (messages : List RemoteMessage) : Prop where
  /-- What the mirror held before does not matter. -/
  anchored : ∀ front, front <+: messages → lastNumber front ≠ none →
    ∀ before before' : GridMirror, before.follow front = before'.follow front
  shows : ∀ front, front <+: messages → lastNumber front ≠ none →
    ∀ before after : GridMirror, before.follow front = .ok after →
      after.sequence = lastNumber front ∧ after.Shown E emitted

variable {emitted emitted' : List (UInt64 × HeadlessScreen T)} {messages : List RemoteMessage}
  {message : RemoteMessage}

theorem faithful_of_none (hnone : lastNumber messages = none) : Faithful E emitted messages := by
  have hfront : ∀ front, front <+: messages → lastNumber front = none := by
    rintro front ⟨back, rfl⟩
    unfold lastNumber at hnone ⊢
    rw [List.filterMap_append, List.getLast?_eq_none_iff, List.append_eq_nil_iff] at hnone
    rw [hnone.1]
    rfl
  exact ⟨fun front hpre hnumber => absurd (hfront front hpre) hnumber,
    fun front hpre hnumber => absurd (hfront front hpre) hnumber⟩

theorem Faithful.take {more : List RemoteMessage} (h : Faithful E emitted (messages ++ more)) :
    Faithful E emitted messages :=
  ⟨fun front hfront => h.anchored front (hfront.trans (List.prefix_append _ _)),
    fun front hfront => h.shows front (hfront.trans (List.prefix_append _ _))⟩

theorem Faithful.mono (h : Faithful E emitted messages) (hsubset : emitted ⊆ emitted') :
    Faithful E emitted' messages := by
  refine ⟨h.anchored, ?_⟩
  intro front hfront hnumber before after hfollow
  obtain ⟨hlast, n, screen, hsequence, hmem, hshows⟩ := h.shows front hfront hnumber before after hfollow
  exact ⟨hlast, n, screen, hsequence, hsubset hmem, hshows⟩

/-- A message that carries no grid. -/
theorem Faithful.plain (h : Faithful E emitted messages) (hnone : number message = none) :
    Faithful E emitted (messages ++ [message]) := by
  have hsame : ∀ before : GridMirror, before.follow (messages ++ [message])
      = before.follow messages := by
    intro before
    rw [follow_append]
    cases before.follow messages with
    | error e => rfl
    | ok next => exact follow_of_lastNumber_none (by simp [lastNumber, hnone]) next
  have hlast : lastNumber (messages ++ [message]) = lastNumber messages := by
    rw [lastNumber_concat, hnone, Option.none_or]
  constructor
  · intro front hfront hnumber before before'
    rcases List.prefix_concat_iff.mp hfront with rfl | hold
    · rw [hlast] at hnumber
      rw [hsame, hsame]
      exact h.anchored messages List.prefix_rfl hnumber before before'
    · exact h.anchored front hold hnumber before before'
  · intro front hfront hnumber before after hfollow
    rcases List.prefix_concat_iff.mp hfront with rfl | hold
    · rw [hlast] at hnumber ⊢
      rw [hsame] at hfollow
      exact h.shows messages List.prefix_rfl hnumber before after hfollow
    · exact h.shows front hold hnumber before after hfollow

theorem Faithful.grid (h : Faithful E emitted messages)
    (hstart : lastNumber messages ≠ none ∨
      ∀ before before' : GridMirror, before.take message = before'.take message)
    (hlast : ∀ before next after : GridMirror, before.follow messages = .ok next →
      next.take message = .ok after → after.sequence = number message ∧ after.Shown E emitted) :
    Faithful E emitted (messages ++ [message]) := by
  constructor
  · intro front hfront hnumber before before'
    rcases List.prefix_concat_iff.mp hfront with rfl | hold
    · rw [follow_append, follow_append]
      by_cases hnone : lastNumber messages = none
      · have hsame := hstart.resolve_left (not_not.mpr hnone) before before'
        rw [follow_of_lastNumber_none hnone, follow_of_lastNumber_none hnone]
        exact (follow_singleton before message).trans
          (hsame.trans (follow_singleton before' message).symm)
      · rw [h.anchored messages List.prefix_rfl hnone before before']
    · exact h.anchored front hold hnumber before before'
  · intro front hfront hnumber before after hfollow
    rcases List.prefix_concat_iff.mp hfront with rfl | hold
    · obtain ⟨next, hnext, htake⟩ := follow_concat_ok.mp hfollow
      obtain ⟨hsequence, n, screen, hn, hshown⟩ := hlast before next after hnext htake
      refine ⟨?_, n, screen, hn, hshown⟩
      rw [lastNumber_concat, ← hsequence, hn, Option.some_or]
    · exact h.shows front hold hnumber before after hfollow

/-! ### What a Holder puts into a stream -/

theorem number_of_plain (h : Holder.Plain message) : number message = none := by
  cases message with
  | fullSnapshot => exact h.elim
  | gridDelta => exact h.elim
  | _ => rfl

namespace Holder

variable {P : Platform T}

theorem take_snapshotMessage {h : Holder T} (htracked : h.screen.Tracked) {next after : GridMirror}
    (htake : next.take (h.snapshotMessage P) = .ok after) :
    after.sequence = some h.state.snapshotSequence ∧ after.Shows P.backend h.screen := by
  simp only [snapshotMessage, take] at htake
  have hafter := applySnapshot_ok htake
  subst hafter
  exact ⟨rfl, accept_shows htracked _ (HeadlessScreen.apply_fullSnapshot htracked.range _)⟩

theorem faithful_snapshot {h : Holder T} (htracked : h.screen.Tracked)
    (hfaithful : Faithful P.backend h.ledger.emitted messages) :
    Faithful P.backend h.recordEmitted.ledger.emitted (messages ++ [h.snapshotMessage P]) := by
  refine (hfaithful.mono (List.subset_append_left _ _)).grid (Or.inr ?_) ?_
  · intro before before'
    simp only [snapshotMessage, take]
    exact applySnapshot_any before before' _ _ _ _ _
  · intro before next after _ htake
    obtain ⟨hsequence, hshows⟩ := take_snapshotMessage htracked htake
    refine ⟨hsequence, _, h.screen, hsequence, ?_, hshows⟩
    exact List.mem_append_right _ List.mem_cons_self

theorem lastNumber_snapshot (h : Holder T) (messages : List RemoteMessage) :
    lastNumber (messages ++ [h.snapshotMessage P]) ≠ none := by
  rw [lastNumber_concat]
  exact fun hnone => absurd (Option.or_eq_none_iff.mp hnone).1 (by simp [snapshotMessage, number])

/--
The next grid message is right for the controller on connection `id`: every row that is
back at its value of the last update made stands in what the controller has been sent.
-/
def Repaints (P : Platform T) (id : Nat) (h : Holder T) (event : HolderEvent) : Prop :=
  ∀ due c mirror, event = .emit due → h.reading = none → h.dirtySince = true →
    (h.interactiveGridBudget > 0 ∨ due = true) → h.connection = some c → c.id = id →
    GridMirror.new.follow (h.stream P c) = .ok mirror →
    h.screen.Completes P.backend mirror.cells

theorem number_gridMessage (h : Holder T) (grid : GridUpdate) :
    number (h.gridMessage P grid) = some h.state.snapshotSequence := by
  unfold gridMessage
  split
  · rfl
  · rfl

theorem take_gridMessage {h : Holder T} (htracked : h.screen.Tracked) {next after : GridMirror}
    (hcompletes : h.screen.Completes P.backend next.cells)
    (htake : next.take
      ((h.updated P).gridMessage P (h.screen.gridUpdate P.backend false).1) = .ok after) :
    after.sequence = some (h.updated P).state.snapshotSequence ∧
      after.Shows P.backend (h.updated P).screen := by
  have hcells : (h.screen.gridUpdate P.backend false).1.apply next.cells
      = h.screen.cells P.backend := by
    rw [HeadlessScreen.apply_gridUpdate_iff htracked.range htracked.baseline]
    unfold HeadlessScreen.forcesFull
    rw [Bool.false_or, decide_eq_true_iff]
    exact hcompletes
  have hupdate := HeadlessScreen.gridUpdate_eq (E := P.backend) htracked.baseline false
  have hafter : after = next.accept (h.updated P).state.snapshotSequence
      (h.screen.gridUpdate P.backend false).1 ((h.updated P).screen.isAltScreen P.backend)
      ((h.updated P).screen.bracketedPaste P.backend)
      ((h.updated P).screen.mouseReporting P.backend) := by
    unfold gridMessage at htake
    split at htake
    · simp only [take] at htake
      exact applySnapshot_ok htake
    · simp only [take] at htake
      exact applyDelta_ok htake
  have hscreen : (h.updated P).screen = (h.screen.gridUpdate P.backend false).2 := rfl
  rw [hafter, hscreen, hupdate]
  rw [hupdate] at hcells
  obtain ⟨hc, hs, hcur, hm⟩ := accept_shows (E := P.backend) htracked
    (h.updated P).state.snapshotSequence hcells
  exact ⟨rfl, hc, hs, hcur, hm⟩

theorem faithful_update {h : Holder T} (htracked : h.screen.Tracked)
    (hcompletes : ∀ mirror : GridMirror, GridMirror.new.follow messages = .ok mirror →
      h.screen.Completes P.backend mirror.cells)
    (hstart : lastNumber messages ≠ none)
    (hfaithful : Faithful P.backend h.ledger.emitted messages) :
    Faithful P.backend (h.updated P).ledger.emitted
      (messages ++ [(h.updated P).gridMessage P (h.screen.gridUpdate P.backend false).1]) := by
  refine (hfaithful.mono (List.subset_append_left _ _)).grid (Or.inl hstart) ?_
  intro before next after hnext htake
  rw [hfaithful.anchored messages List.prefix_rfl hstart before .new] at hnext
  obtain ⟨hsequence, hshows⟩ := take_gridMessage htracked (hcompletes next hnext) htake
  refine ⟨?_, _, (h.updated P).screen, hsequence, ?_, hshows⟩
  · rw [hsequence, number_gridMessage]
  · exact List.mem_append_right _ List.mem_cons_self

theorem faithful_greeting {h : Holder T} (htracked : h.screen.Tracked)
    {acknowledged : Option UInt64} {readLog : Nat → Option IoError}
    {replayed : List RemoteMessage} (hreplay : h.replay acknowledged readLog = .ok replayed) :
    Faithful P.backend h.welcomed.ledger.emitted (h.greeting P replayed) ∧
      lastNumber (h.greeting P replayed) ≠ none := by
  have hnone : lastNumber (.helloAck (h.advanceEpoch.helloAck P) :: replayed) = none := by
    refine lastNumber_eq_none ?_
    intro message hmem
    rcases List.mem_cons.mp hmem with rfl | hmem
    · rfl
    · obtain ⟨frame, rfl⟩ := terminal_of_replay hreplay message hmem
      rfl
  have hgreeting : h.greeting P replayed
      = (.helloAck (h.advanceEpoch.helloAck P) :: replayed)
        ++ [h.advanceEpoch.nextSequence.snapshotMessage P]
        ++ [.controlGranted ⟨h.advanceEpoch.state.controllerEpoch⟩] := by
    simp [greeting]
  have hsnapshot := faithful_snapshot (P := P) (h := h.advanceEpoch.nextSequence) htracked
    (faithful_of_none hnone)
  rw [hgreeting]
  exact ⟨hsnapshot.plain rfl, lastNumber_concat_ne_none (lastNumber_snapshot _ _)⟩

theorem faithful_reseed {h : Holder T} (htracked : h.screen.Tracked)
    (hfaithful : Faithful P.backend h.ledger.emitted messages) :
    Faithful P.backend h.recordEmitted.ledger.emitted
        (messages ++ [reseedError, h.snapshotMessage P]) ∧
      lastNumber (messages ++ [reseedError, h.snapshotMessage P]) ≠ none := by
  have hsplit : messages ++ [reseedError, h.snapshotMessage P]
      = messages ++ [reseedError] ++ [h.snapshotMessage P] := by simp
  rw [hsplit]
  exact ⟨faithful_snapshot htracked (hfaithful.plain rfl), lastNumber_snapshot _ _⟩

theorem carries_faithful (id : Nat) :
    Carries P id (Repaints P id) (fun ledger => Faithful P.backend ledger.emitted)
      (fun ledger messages => Faithful P.backend ledger.emitted messages ∧
        lastNumber messages ≠ none) where
  nil := fun _ => faithful_of_none rfl
  past := fun h => h.1
  take := fun h => h.take
  pastPlain := fun hplain h => h.plain (number_of_plain hplain)
  livePlain := fun hplain h =>
    ⟨h.1.plain (number_of_plain hplain), lastNumber_concat_ne_none h.2⟩
  grow := fun hgrows h => h.mono hgrows.emitted
  emitted := fun _ h => ⟨h.1.mono (List.subset_append_left _ _), h.2⟩
  exited := fun _ _ h => h
  greet := fun hrecorded _ _ _ _ hreplay => faithful_greeting hrecorded.screen hreplay
  resize := fun cols rows hrecorded h =>
    ⟨faithful_snapshot (hrecorded.resized cols rows).screen h.1, lastNumber_snapshot _ _⟩
  drain := fun _ _ h => ⟨h.1.plain rfl, lastNumber_concat_ne_none h.2⟩
  emit := fun hrecorded hok hreading hdirty hdue hsome hid h =>
    ⟨faithful_update hrecorded.screen
      (fun mirror => hok _ _ mirror rfl hreading hdirty hdue hsome hid) h.2 h.1,
      lastNumber_concat_ne_none h.2⟩
  exit := fun _ _ _ _ _ h => ⟨h.1.plain rfl, lastNumber_concat_ne_none h.2⟩
  reseed := fun hrecorded h => faithful_reseed hrecorded.screen h.1.take

end Holder

/-! ### The pump -/

namespace RemotePump

variable {client : RemoteClient}

theorem mirror_applyRemoteOutput (pump : RemotePump T) (offset : UInt64) (bytes : List UInt8) :
    (pump.applyRemoteOutput P offset bytes).mirror = pump.mirror := by
  unfold applyRemoteOutput
  dsimp only
  split
  · rfl
  · split <;> rfl

theorem mirror_of_number_none (pump : RemotePump T) (link : Link) {message : RemoteMessage}
    (hnone : number message = none) (grant : IoResult) :
    (pump.handleRemoteMessage P client link message grant).2.1.mirror = pump.mirror := by
  cases message with
  | fullSnapshot => cases hnone
  | gridDelta => cases hnone
  | helloAck ack =>
    simp only [handleRemoteMessage, acceptHello]
    split
    · rfl
    · cases ack.processState <;> rfl
  | terminal frame =>
    simp only [handleRemoteMessage, RemotePump.handleFrame]
    split
    · rfl
    · cases frame.frameType with
      | output =>
        cases frame.outputPayload with
        | none => rfl
        | some payload => exact pump.mirror_applyRemoteOutput payload.1 payload.2
      | _ => rfl
  | controlGranted granted =>
    simp only [handleRemoteMessage]
    split
    · rfl
    · split <;> rfl
  | _ =>
    simp only [handleRemoteMessage]
    split <;> rfl

theorem handleRemoteMessage_mirror (P : Platform T) (client : RemoteClient) {pump : RemotePump T}
    {mirror : GridMirror} (hmirror : pump.mirror = some mirror) (link : Link) (message : RemoteMessage)
    (grant : IoResult) :
    let r := pump.handleRemoteMessage P client link message grant
    (r.1 ≠ .proceed ∧ r.2.1.mirror = some mirror) ∨
      ∃ mirror', mirror.take message = .ok mirror' ∧ r.2.1.mirror = some mirror' := by
  intro r
  obtain ⟨remote, hremote, rfl⟩ := Option.map_eq_some_iff.mp hmirror
  by_cases hnone : number message = none
  · refine Or.inr ⟨remote.mirror, remote.mirror.take_of_number_none hnone, ?_⟩
    exact (pump.mirror_of_number_none link hnone grant).trans hmirror
  · cases haccepted : link.helloAccepted with
    | false =>
      refine Or.inl ?_
      cases message with
      | fullSnapshot | gridDelta => simp [r, handleRemoteMessage, haccepted, hmirror]
      | _ => exact absurd rfl hnone
    | true =>
      cases htake : remote.mirror.take message with
      | error e =>
        refine Or.inl ?_
        cases message with
        | fullSnapshot snapshot =>
          simp only [take] at htake
          simp [r, handleRemoteMessage, haccepted, applyRemoteSnapshot, hremote, htake,
            hmirror]
        | gridDelta delta =>
          simp only [take] at htake
          simp [r, handleRemoteMessage, haccepted, applyRemoteDelta, hremote, htake, hmirror]
        | _ => exact absurd rfl hnone
      | ok mirror' =>
        refine Or.inr ⟨mirror', rfl, ?_⟩
        cases message with
        | fullSnapshot snapshot =>
          simp only [take] at htake
          simp [r, handleRemoteMessage, haccepted, applyRemoteSnapshot, hremote, htake,
            RemotePump.mirror]
        | gridDelta delta =>
          simp only [take] at htake
          simp [r, handleRemoteMessage, haccepted, applyRemoteDelta, hremote, htake,
            RemotePump.mirror]
        | _ => exact absurd rfl hnone

end RemotePump

/-! ### The engine's mirror along a run -/

namespace RemoteSystem

variable {client : RemoteClient} {Ok : Nat → Holder T → HolderEvent → Prop}
  {Past Live : Ledger T → List RemoteMessage → Prop}

/-- Nothing has been shown yet, or the screen of the mirror's number is. -/
def Sound (P : Platform T) (s : RemoteSystem T) (mirror : GridMirror) : Prop :=
  mirror.sequence = none ∨ mirror.Shown P.backend s.holder.ledger.emitted

/-- The mirror is where the messages of the connection have led it. -/
structure Mirrored (P : Platform T) (Past Live : Ledger T → List RemoteMessage → Prop)
    (s : RemoteSystem T) : Prop where
  wired : s.holder.Wired
  recorded : s.holder.Recorded
  numbered : s.holder.Numbered
  sound : ∃ mirror, s.pump.mirror = some mirror ∧ s.Sound P mirror
  linked : ∀ link, s.pump.link = some link →
    Holder.Carried P link.id Past Live s.holder ∧
    link.read ≤ (s.holder.sockets link.id).received.length ∧
    ∃ before mirror : GridMirror, s.Sound P before ∧ s.pump.mirror = some mirror ∧
      before.follow (s.handled link) = .ok mirror

theorem Mirrored.holder (rule : ∀ id, Holder.Carries P id (Ok id) Past Live)
    {s : RemoteSystem T} (h : Mirrored P Past Live s) {event : HolderEvent}
    (hok : ∀ link, s.pump.link = some link → Ok link.id s.holder event) :
    Mirrored P Past Live { s with holder := (s.holder.step P event).1 } := by
  have hcounts := s.holder.counts_step (P := P) event
  have hsound : ∀ mirror, s.Sound P mirror →
      Sound P { s with holder := (s.holder.step P event).1 } mirror := by
    rintro mirror (hnone | ⟨n, screen, hn, hmem, hshows⟩)
    · exact Or.inl hnone
    · exact Or.inr ⟨n, screen, hn, hcounts.emitted.subset hmem, hshows⟩
  refine ⟨h.wired.step event, h.recorded.step event, hcounts.numbered h.numbered, ?_, ?_⟩
  · obtain ⟨mirror, hmirror, hs⟩ := h.sound
    exact ⟨mirror, hmirror, hsound mirror hs⟩
  · intro link hlink
    obtain ⟨hcarried, hread, before, mirror, hbefore, hmirror, hfollow⟩ := h.linked link hlink
    have hreceived := s.holder.step_received (P := P) event link.id
    refine ⟨hcarried.step (rule link.id) h.wired h.recorded (hok link hlink),
      hread.trans hreceived.length_le, before, mirror, hsound before hbefore, hmirror, ?_⟩
    rw [handled_holder hread]
    exact hfollow

theorem sound_follow {s : RemoteSystem T} {received front : List RemoteMessage}
    (hfaithful : Faithful P.backend s.holder.ledger.emitted received) (hfront : front <+: received)
    {before after : GridMirror} (hbefore : s.Sound P before)
    (hfollow : before.follow front = .ok after) : s.Sound P after := by
  by_cases hnone : lastNumber front = none
  · rw [follow_of_lastNumber_none hnone] at hfollow
    cases hfollow
    exact hbefore
  · exact Or.inr (hfaithful.shows front hfront hnone before after hfollow).2

theorem Mirrored.handle
    (hfaithful : ∀ ledger messages, Past ledger messages →
      Faithful P.backend ledger.emitted messages)
    {s : RemoteSystem T} (h : Mirrored P Past Live s) {link : Link} {message : RemoteMessage}
    (hlink : s.pump.link = some link)
    (hmessage : (s.holder.sockets link.id).received[link.read]? = some message)
    (grant : IoResult) : Mirrored P Past Live (s.handle P client link message grant) := by
  obtain ⟨hcarried, hread, before, mirror, hbefore, hmirror, hfollow⟩ := h.linked link hlink
  have hmore : link.read + 1 ≤ (s.holder.sockets link.id).received.length :=
    (List.getElem?_eq_some_iff.mp hmessage).1
  have hfront : s.handled link ++ [message] <+: (s.holder.sockets link.id).received := by
    rw [← handled_next hmessage { link with read := link.read + 1 } rfl rfl]
    exact List.take_prefix _ _
  have hlinks := s.pump.handleRemoteMessage_link P client link message grant
  have htaken := RemotePump.handleRemoteMessage_mirror P client hmirror link message grant
  unfold RemoteSystem.handle
  generalize s.pump.handleRemoteMessage P client link message grant = r at hlinks htaken
  obtain ⟨hid, -, hsame⟩ := hlinks
  have hnext : ∃ mirror', r.2.1.mirror = some mirror' ∧ s.Sound P mirror' ∧
      (r.1 = .proceed → before.follow (s.handled link ++ [message]) = .ok mirror') := by
    rcases htaken with ⟨hended, hkept⟩ | ⟨mirror', htake, hkept⟩
    · obtain ⟨mirror', hmirror', hsound⟩ := h.sound
      rw [hmirror] at hmirror'
      cases hmirror'
      exact ⟨mirror, hkept, hsound, fun hproceed => absurd hproceed hended⟩
    · have hconcat := follow_concat_ok.mpr ⟨mirror, hfollow, htake⟩
      exact ⟨mirror', hkept, sound_follow (hfaithful _ _ hcarried.past) hfront hbefore hconcat, fun _ => hconcat⟩
  obtain ⟨mirror', hmirror', hsound, hproceed⟩ := hnext
  rcases RemotePump.dispose_cases r with ⟨exit, heq⟩ | ⟨hgoes, heq⟩
  · rw [heq]
    exact ⟨h.wired, h.recorded, h.numbered, ⟨mirror', hmirror', hsound⟩,
      fun _ hnone => absurd hnone (by simp)⟩
  · rw [heq]
    refine ⟨h.wired, h.recorded, h.numbered, ⟨mirror', hmirror', hsound⟩, ?_⟩
    intro link' hlink'
    cases hlink'
    refine ⟨?_, ?_, before, mirror', hbefore, hmirror', ?_⟩
    · dsimp only
      rw [hid]
      exact hcarried
    · dsimp only
      rw [hid, hsame]
      exact hmore
    · have hhandled := handled_next hmessage { r.2.2 with read := r.2.2.read + 1 } hid
        (congrArg (· + 1) hsame)
      exact (congrArg before.follow hhandled).trans (hproceed hgoes)

theorem Mirrored.connect (rule : ∀ id, Holder.Carries P id (Ok id) Past Live)
    {s : RemoteSystem T} (h : Mirrored P Past Live s) {link : Link}
    (hid : link.id = s.holder.dialed) (hread : link.read = 0) :
    Mirrored P Past Live
      { holder := s.holder.dial, pump := { s.pump with link := some link } } := by
  obtain ⟨mirror, hmirror, hsound⟩ := h.sound
  have hfresh := Holder.carried_of_undialed (rule link.id) h.wired (Nat.le_of_eq hid.symm)
  refine ⟨h.wired.dial, h.recorded.of_record rfl, ⟨h.numbered.bound, h.numbered.distinct⟩,
    ⟨mirror, hmirror, hsound⟩, ?_⟩
  intro link' hlink'
  cases hlink'
  refine ⟨hfresh.dial h.wired, ?_, mirror, mirror, hsound, hmirror, ?_⟩
  · rw [hread]
    exact Nat.zero_le _
  · unfold handled
    rw [hread]
    rfl

theorem Mirrored.step (rule : ∀ id, Holder.Carries P id (Ok id) Past Live)
    (hfaithful : ∀ ledger messages, Past ledger messages →
      Faithful P.backend ledger.emitted messages)
    {s : RemoteSystem T} {event : SystemEvent}
    (hintact : Intact Ok (Trace.take (RemoteSystem.step P client) s event))
    (h : Mirrored P Past Live s) :
    Mirrored P Past Live (RemoteSystem.step P client s event).1 := by
  have hmoves := s.step_moves P client event
  generalize (RemoteSystem.step P client s event).1 = after at hmoves
  cases hmoves with
  | idle => exact h
  | holder event _ => exact h.holder rule fun link hlink => hintact.holder event link rfl hlink
  | connect nonce result link _ _ hid hread _ => exact h.connect rule hid hread
  | receive grant link message hlink hmessage => exact h.handle hfaithful hlink hmessage grant
  | garbled message grant link hlink htorn =>
    have hwhole : (s.holder.sockets link.id).torn = false :=
      hintact.whole message grant link rfl hlink
    rw [hwhole] at htorn
    cases htorn
  | lost exit stop =>
    exact ⟨h.wired, h.recorded, h.numbered, h.sound, fun _ hnone => absurd hnone (by simp)⟩
  | writerLost =>
    refine ⟨h.wired, h.recorded, h.numbered, h.sound, ?_⟩
    intro link hlink
    obtain ⟨link', hlink', hid, -, hread⟩ := link_writerLost hlink
    have hlinked := h.linked link' hlink'
    unfold handled at hlinked ⊢
    rw [hid, hread]
    exact hlinked

theorem mirrored_start (sessionId incarnation : String) (pid : UInt32)
    (cols rows cols' rows' : UInt16) (outputOffset : Nat) :
    Mirrored P Past Live
      (start P (Holder.new P sessionId incarnation pid cols rows) cols' rows' outputOffset) where
  wired := Holder.wired_new _ _ _ _ _
  recorded := Holder.recorded_new _ _ _ _ _
  numbered := Holder.numbered_new _ _ _ _ _
  sound := ⟨GridMirror.new, rfl, Or.inl rfl⟩
  linked := fun _ hlink => absurd hlink (by simp [start, RemotePump.adopt])

/--
**The engine's mirror shows the screen of its number.**

In every run of an engine, its Holder and any other clients in which the grid messages
made for the engine's connection repaint what it holds and nothing garbled is decoded:
once the mirror has a number, it has the cells, geometry, cursor and modes of the screen
that the message with this number was made from.  Below `u64::MAX` there is one such
message.
-/
theorem mirror_shows_numbered_screen (P : Platform T) (client : RemoteClient)
    (sessionId incarnation : String) (pid : UInt32) (cols rows cols' rows' : UInt16)
    (outputOffset : Nat) {events : List SystemEvent}
    (hintact : ∀ x ∈ Trace.trace (RemoteSystem.step P client)
      (start P (Holder.new P sessionId incarnation pid cols rows) cols' rows' outputOffset) events,
      Intact (Holder.Repaints P) x) :
    let s := Trace.run (RemoteSystem.step P client)
      (start P (Holder.new P sessionId incarnation pid cols rows) cols' rows' outputOffset) events
    ∀ mirror n, s.pump.mirror = some mirror → mirror.sequence = some n →
      ∃ screen, (n, screen) ∈ s.holder.ledger.emitted ∧ mirror.Shows P.backend screen ∧
        (n ≠ UInt64.ofNat (2 ^ 64 - 1) →
          ∀ other, (n, other) ∈ s.holder.ledger.emitted → other = screen) := by
  intro s mirror n hmirror hn
  have hmirrored := Trace.run_invariant_where (RemoteSystem.step P client)
    (C := Intact (Holder.Repaints P)) hintact (mirrored_start _ _ _ _ _ _ _ _)
    fun s event hstep => Mirrored.step Holder.carries_faithful (fun _ _ h => h) hstep
  obtain ⟨mirror', hmirror', hsound⟩ := hmirrored.sound
  cases hmirror'.symm.trans hmirror
  rcases hsound with hnone | ⟨n', screen, hn', hmem, hshows⟩
  · rw [hn] at hnone
    cases hnone
  · cases hn'.symm.trans hn
    exact ⟨screen, hmem, hshows, fun hlast other hother =>
      hmirrored.numbered.unique hlast hmem hother⟩

/-- `a` and then `b` are written and sent, each as an update of its own. -/
def writesTwice : List SystemEvent :=
  attach 0 none ++ [feed [0x61, 0x0d], .holder (.emit true), feed [0x62, 0x0d],
    .holder (.emit true)] ++ deliver 7

/-- The delta of `b` is the third grid message. -/
theorem mirror_shows_numbered_screen_delta :
    ∃ mirror screen, (Trace.run (RemoteSystem.step LineTerm.platform sampleClient) sample
        writesTwice).pump.mirror = some mirror ∧
      mirror.sequence = some 3 ∧
      (3, screen) ∈ (Trace.run (RemoteSystem.step LineTerm.platform sampleClient) sample
        writesTwice).holder.ledger.emitted ∧ mirror.Shows LineTerm.backend screen := by
  have hintact : ∀ x ∈ Trace.trace (RemoteSystem.step LineTerm.platform sampleClient) sample
      writesTwice, Intact (Holder.Repaints LineTerm.platform) x := by
    intro x hx
    obtain ⟨k, hget, hbefore⟩ := Trace.before_of_mem_trace _ hx
    have hk : k < 17 := (List.getElem?_eq_some_iff.mp hget).1
    constructor
    · intro event link hevent _ due c mirror hemit _ _ _ _ _ _
      rw [hevent, hemit] at hget
      rw [hbefore]
      interval_cases k <;> cases hget
      · exact Or.inl (by with_unfolding_all decide)
      · refine Or.inr fun y hy hsame => absurd hsame ?_
        revert y
        with_unfolding_all decide
    · intro message grant link hevent _
      rw [hevent] at hget
      interval_cases k <;> cases hget
  have hend : (Trace.run (RemoteSystem.step LineTerm.platform sampleClient) sample
      writesTwice).pump.mirror.map (·.sequence) = some (some 3) := by
    with_unfolding_all decide
  obtain ⟨mirror, hmirror, hn⟩ := Option.map_eq_some_iff.mp hend
  obtain ⟨screen, hmem, hshows, -⟩ := mirror_shows_numbered_screen LineTerm.platform sampleClient
    "s1" "i1" 7 2 1 2 1 0 hintact mirror 3 hmirror hn
  exact ⟨mirror, screen, hmirror, hn, hmem, hshows⟩

/-- `a` is sent, `b` is written, the engine reconnects, and the row is `a` again. -/
def returnsToSent : List SystemEvent :=
  attach 0 none ++ [feed [0x61, 0x0d], .holder (.emit true), feed [0x62, 0x0d], .drop false]
    ++ attach 0 none ++ [feed [0x61, 0x0d], .holder (.emit true)] ++ deliver 8

/-- The row equals the last update made, so the new connection is not sent it. -/
theorem mirror_keeps_stale_row :
    ¬ ∀ (events : List SystemEvent) (mirror : GridMirror) (n : UInt64),
      (Trace.run (RemoteSystem.step LineTerm.platform sampleClient) sample
        events).pump.mirror = some mirror → mirror.sequence = some n →
      ∃ screen, (n, screen) ∈ (Trace.run (RemoteSystem.step LineTerm.platform sampleClient) sample
        events).holder.ledger.emitted ∧ mirror.Shows LineTerm.backend screen := by
  intro hall
  have hend : (Trace.run (RemoteSystem.step LineTerm.platform sampleClient) sample
      returnsToSent).pump.mirror.any (fun mirror => mirror.sequence = some 4 ∧
        (Trace.run (RemoteSystem.step LineTerm.platform sampleClient) sample
          returnsToSent).holder.ledger.emitted.all fun entry =>
            entry.1 ≠ 4 ∨ entry.2.cells LineTerm.backend ≠ mirror.cells) = true := by
    with_unfolding_all decide
  obtain ⟨mirror, hmirror, hstale⟩ := (Option.any_eq_true _ _).mp hend
  obtain ⟨hn, hstale⟩ := of_decide_eq_true hstale
  obtain ⟨screen, hmem, hshows⟩ := hall returnsToSent mirror 4 hmirror hn
  rcases of_decide_eq_true (List.all_eq_true.mp hstale _ hmem) with hne | hne
  · exact hne rfl
  · exact hne hshows.cells.symm

end RemoteSystem

end Remote

end Homie

/-! ### The screen behind an exit

An exit is a message too, queued when it is recorded.  Grid messages wait until the
coalescing interval has passed or input asks for them, so the exit can overtake the last
one, and the engine reads nothing behind it.  The mirror the exit finds is the one of the
last number queued before it: it is the final screen when the screen still looks as it did
then (`Settled`).
-/

namespace Homie

variable {T : Type} {E : Backend T}

/-- What a mirror can show of a screen. -/
def HeadlessScreen.view (E : Backend T) (s : HeadlessScreen T) :=
  (s.cells E, s.size, s.cursor E, s.isAltScreen E, s.bracketedPaste E, s.mouseReporting E)

theorem GridMirror.Shows.of_view {mirror : GridMirror} {s s' : HeadlessScreen T}
    (h : mirror.Shows E s) (hview : s.view E = s'.view E) : mirror.Shows E s' := by
  simp only [HeadlessScreen.view, Prod.mk.injEq] at hview
  obtain ⟨hcells, hsize, hcursor, halt, hpaste, hmouse⟩ := hview
  refine ⟨h.cells.trans hcells, h.size.trans hsize, h.cursor.trans hcursor, ?_⟩
  rw [← halt, ← hpaste, ← hmouse]
  exact h.modes

namespace Remote

open GridMirror

/-! ### Streams with an exit -/

/-- Whoever gets an exit has been shown the screen of the exit. -/
def Ends (E : Backend T) (ledger : Ledger T) (messages : List RemoteMessage) : Prop :=
  ∀ front exit, front ++ [.processExit exit] <+: messages →
    ∃ screen, ledger.exitScreen = some screen ∧
      ∀ before after : GridMirror, before.follow front = .ok after → after.Shows E screen

variable {ledger ledger' : Ledger T} {messages : List RemoteMessage} {message : RemoteMessage}

theorem ends_of_none (hnone : ∀ exit, .processExit exit ∉ messages) : Ends E ledger messages := by
  intro front exit hfront
  refine absurd (hfront.subset ?_) (hnone exit)
  exact List.mem_append_right _ List.mem_cons_self

theorem Ends.take {more : List RemoteMessage} (h : Ends E ledger (messages ++ more)) :
    Ends E ledger messages :=
  fun front exit hfront => h front exit (hfront.trans (List.prefix_append _ _))

theorem Ends.mono (h : Ends E ledger messages)
    (hexit : ledger.exitScreen = none ∨ ledger'.exitScreen = ledger.exitScreen) :
    Ends E ledger' messages := by
  intro front exit hfront
  obtain ⟨screen, hscreen, hshows⟩ := h front exit hfront
  rcases hexit with hnone | hsame
  · rw [hnone] at hscreen
    cases hscreen
  · exact ⟨screen, hsame.trans hscreen, hshows⟩

theorem Ends.concat (h : Ends E ledger messages) (hother : ∀ exit, message ≠ .processExit exit) :
    Ends E ledger (messages ++ [message]) := by
  intro front exit hfront
  rcases List.prefix_concat_iff.mp hfront with heq | hold
  · have hlast := List.append_inj_right' heq rfl
    exact absurd (List.cons.inj hlast).1.symm (hother exit)
  · exact h front exit hold

theorem not_processExit_of_plain (h : Holder.Plain message) :
    ∀ exit, message ≠ .processExit exit := by
  rintro exit rfl
  exact h

namespace Holder

variable {P : Platform T}

/--
When the exit is recorded, the screen looks as it did when the last grid message for the
controller on connection `id` was made.
-/
def Settled (P : Platform T) (id : Nat) (h : Holder T) (event : HolderEvent) : Prop :=
  ∀ code c n screen, event = .recordExit (.ok ()) (.ok code) (.ok ()) (.ok ()) →
    h.exitWatcher = true → h.connection = some c → c.id = id →
    lastNumber (h.stream P c) = some n → (n, screen) ∈ h.ledger.emitted →
    screen.view P.backend = h.screen.view P.backend

theorem not_processExit_gridMessage (h : Holder T) (grid : GridUpdate) :
    ∀ exit, h.gridMessage P grid ≠ .processExit exit := by
  intro exit
  unfold gridMessage
  split
  · simp
  · simp

theorem ends_greeting {h : Holder T} {acknowledged : Option UInt64}
    {readLog : Nat → Option IoError} {replayed : List RemoteMessage}
    (hreplay : h.replay acknowledged readLog = .ok replayed) :
    Ends E ledger (h.greeting P replayed) := by
  refine ends_of_none ?_
  intro exit hmem
  unfold greeting at hmem
  rcases List.mem_cons.mp hmem with heq | hmem
  · cases heq
  · rcases List.mem_append.mp hmem with hmem | hmem
    · obtain ⟨frame, hframe⟩ := terminal_of_replay hreplay _ hmem
      cases hframe
    · simp [snapshotMessage] at hmem

theorem ends_exit {h : Holder T} (report : ProcessExit) (hrunning : h.ledger.exitScreen = none)
    (hfaithful : Faithful P.backend h.ledger.emitted messages) (hstart : lastNumber messages ≠ none)
    (hsettled : ∀ n screen, lastNumber messages = some n → (n, screen) ∈ h.ledger.emitted →
      screen.view P.backend = h.screen.view P.backend)
    (hends : Ends P.backend h.ledger messages) :
    Ends P.backend (h.exited report).ledger (messages ++ [.processExit report]) := by
  intro front exit hfront
  rcases List.prefix_concat_iff.mp hfront with heq | hold
  · refine ⟨h.screen, rfl, ?_⟩
    intro before after hfollow
    have hall : front = messages := List.append_inj_left' heq rfl
    rw [hall] at hfollow
    obtain ⟨hlast, n, screen, hn, hmem, hshows⟩ :=
      hfaithful.shows messages List.prefix_rfl hstart before after hfollow
    exact hshows.of_view (hsettled n screen (hlast.symm.trans hn) hmem)
  · exact hends.mono (Or.inl hrunning) front exit hold

theorem carries_ends (id : Nat) :
    Carries P id (fun h event => h.Repaints P id event ∧ h.Settled P id event)
      (fun ledger messages => Faithful P.backend ledger.emitted messages ∧
        Ends P.backend ledger messages)
      (fun ledger messages => (Faithful P.backend ledger.emitted messages ∧
        lastNumber messages ≠ none) ∧ Ends P.backend ledger messages) := by
  have hgrids := carries_faithful (P := P) id
  constructor
  case nil => exact fun ledger => ⟨hgrids.nil ledger, ends_of_none (by simp)⟩
  case past => exact fun h => ⟨hgrids.past h.1, h.2⟩
  case take => exact fun h => ⟨hgrids.take h.1, h.2.take⟩
  case pastPlain =>
    exact fun hplain h =>
      ⟨hgrids.pastPlain hplain h.1, h.2.concat (not_processExit_of_plain hplain)⟩
  case livePlain =>
    exact fun hplain h =>
      ⟨hgrids.livePlain hplain h.1, h.2.concat (not_processExit_of_plain hplain)⟩
  case grow => exact fun hgrows h => ⟨hgrids.grow hgrows h.1, h.2.mono hgrows.exitScreen⟩
  case emitted => exact fun entry h => ⟨hgrids.emitted entry h.1, h.2.mono (Or.inr rfl)⟩
  case exited =>
    exact fun screen hnone h => ⟨hgrids.exited screen hnone h.1, h.2.mono (Or.inl hnone)⟩
  case greet =>
    exact fun hrecorded hreading hid hnone hok hreplay =>
      ⟨hgrids.greet hrecorded hreading hid hnone hok.1 hreplay, ends_greeting hreplay⟩
  case resize =>
    exact fun cols rows hrecorded h => ⟨hgrids.resize cols rows hrecorded h.1,
      (h.2.mono (Or.inr rfl)).concat (by simp [snapshotMessage])⟩
  case drain =>
    exact fun bytes hrecorded h =>
      ⟨hgrids.drain bytes hrecorded h.1, (h.2.mono (Or.inr rfl)).concat (by simp)⟩
  case emit =>
    exact fun hrecorded hok hreading hdirty hdue hsome hid h =>
      ⟨hgrids.emit hrecorded hok.1 hreading hdirty hdue hsome hid h.1,
        (h.2.mono (Or.inr rfl)).concat (not_processExit_gridMessage _ _)⟩
  case exit =>
    exact fun hrecorded hok hwatching hsome hid h =>
      ⟨hgrids.exit hrecorded hok.1 hwatching hsome hid h.1,
        ends_exit _ (hrecorded.watching hwatching) h.1.1 h.1.2
          (fun n screen => hok.2 _ _ n screen rfl hwatching hsome hid) h.2⟩
  case reseed =>
    intro h c messages hrecorded hlive
    have hkept : Ends P.backend (h.throwAway c).nextSequence.recordEmitted.ledger messages :=
      hlive.2.take.mono (Or.inr rfl)
    have hboth : Ends P.backend (h.throwAway c).nextSequence.recordEmitted.ledger
        (messages ++ [reseedError] ++ [(h.throwAway c).nextSequence.snapshotMessage P]) :=
      (hkept.concat (by simp [reseedError])).concat (by simp [snapshotMessage])
    rw [List.append_assoc] at hboth
    exact ⟨hgrids.reseed hrecorded hlive.1, hboth⟩

end Holder

/-! ### The exit the engine handles -/

namespace RemoteSystem

variable {P : Platform T}

/--
**The mirror an exit finds.**

In every run of an engine, its Holder and any other clients in which the grid messages
for the engine's connection repaint what it holds, the screen is settled when the exit is
recorded and nothing garbled is decoded: when the engine handles `ProcessExit`, its mirror
has the cells, geometry, cursor and modes that the Holder's screen had when it recorded
the exit.
-/
theorem final_screen_shown (P : Platform T) (client : RemoteClient)
    (sessionId incarnation : String) (pid : UInt32) (cols rows cols' rows' : UInt16)
    (outputOffset : Nat) {events : List SystemEvent}
    (hintact : ∀ x ∈ Trace.trace (RemoteSystem.step P client)
      (start P (Holder.new P sessionId incarnation pid cols rows) cols' rows' outputOffset) events,
      Intact (fun id h event => h.Repaints P id event ∧ h.Settled P id event) x) :
    let s := Trace.run (RemoteSystem.step P client)
      (start P (Holder.new P sessionId incarnation pid cols rows) cols' rows' outputOffset) events
    ∀ link exit grant, s.pump.link = some link →
      (s.holder.sockets link.id).received[link.read]? = some (.processExit exit) →
      ∃ mirror screen,
        (RemoteSystem.step P client s (.receive grant)).1.pump.mirror = some mirror ∧
        (RemoteSystem.step P client s (.receive grant)).1.holder.ledger.exitScreen = some screen ∧
        mirror.Shows P.backend screen := by
  intro s link exit grant hlink hmessage
  have hmirrored := Trace.run_invariant_where (RemoteSystem.step P client)
    (C := Intact fun id h event => h.Repaints P id event ∧ h.Settled P id event) hintact
    (mirrored_start _ _ _ _ _ _ _ _)
    fun s event hstep => Mirrored.step Holder.carries_ends (fun _ _ h => h.1) hstep
  obtain ⟨hcarried, -, before, mirror, -, hmirror, hfollow⟩ := hmirrored.linked link hlink
  have hfront : s.handled link ++ [.processExit exit]
      <+: (s.holder.sockets link.id).received := by
    rw [← handled_next hmessage { link with read := link.read + 1 } rfl rfl]
    exact List.take_prefix _ _
  obtain ⟨screen, hscreen, hshows⟩ := hcarried.past.2 _ exit hfront
  rw [step_receive P client hlink hmessage grant]
  refine ⟨mirror, screen, ?_, hscreen, hshows before mirror hfollow⟩
  exact (RemotePump.mirror_dispose _).trans
    ((s.pump.mirror_of_number_none link rfl grant).trans hmirror)

/-- The child writes `a` and exits once that is sent. -/
def exitsSettled : List SystemEvent :=
  attach 0 none ++ [feed [0x61, 0x0d], .holder (.emit true),
    .holder (.recordExit (.ok ()) (.ok (.code 0)) (.ok ()) (.ok ()))] ++ deliver 5

/-- The exit is the next message, and the mirror shows `a`. -/
theorem final_screen_shown_settled :
    ∃ link, (Trace.run (RemoteSystem.step LineTerm.platform sampleClient) sample
        exitsSettled).pump.link = some link ∧
      ((Trace.run (RemoteSystem.step LineTerm.platform sampleClient) sample
        exitsSettled).holder.sockets link.id).received[link.read]?
          = some (.processExit ⟨some 0, none⟩) ∧
      ∃ mirror screen, (Trace.run (RemoteSystem.step LineTerm.platform sampleClient) sample
          (exitsSettled ++ [.receive (.ok ())])).pump.mirror = some mirror ∧
        (Trace.run (RemoteSystem.step LineTerm.platform sampleClient) sample
          (exitsSettled ++ [.receive (.ok ())])).holder.ledger.exitScreen = some screen ∧
        mirror.Shows LineTerm.backend screen := by
  have hintact : ∀ x ∈ Trace.trace (RemoteSystem.step LineTerm.platform sampleClient) sample
      exitsSettled, Intact (fun id h event => h.Repaints LineTerm.platform id event ∧
        h.Settled LineTerm.platform id event) x := by
    intro x hx
    obtain ⟨k, hget, hbefore⟩ := Trace.before_of_mem_trace _ hx
    have hk : k < 14 := (List.getElem?_eq_some_iff.mp hget).1
    refine ⟨?_, ?_⟩
    · intro event link hevent _
      rw [hevent] at hget
      constructor
      · intro due c mirror hemit _ _ _ _ _ _
        rw [hemit] at hget
        rw [hbefore]
        interval_cases k <;> cases hget
        exact Or.inl (by with_unfolding_all decide)
      · intro code c n screen hexit _ hsome _ hlast hmem
        rw [hexit] at hget
        rw [hbefore] at hsome hlast hmem ⊢
        interval_cases k <;> cases hget
        have hsettled : (Trace.run (RemoteSystem.step LineTerm.platform sampleClient) sample
            (exitsSettled.take 7)).holder.connection.all (fun c =>
              (Trace.run (RemoteSystem.step LineTerm.platform sampleClient) sample
                (exitsSettled.take 7)).holder.ledger.emitted.all fun entry =>
                  lastNumber ((Trace.run (RemoteSystem.step LineTerm.platform sampleClient) sample
                    (exitsSettled.take 7)).holder.stream LineTerm.platform c) ≠ some entry.1 ∨
                  entry.2.view LineTerm.backend
                    = (Trace.run (RemoteSystem.step LineTerm.platform sampleClient) sample
                      (exitsSettled.take 7)).holder.screen.view LineTerm.backend) = true := by
          with_unfolding_all decide
        rw [hsome, Option.all_some] at hsettled
        have hentry := of_decide_eq_true (List.all_eq_true.mp hsettled _ hmem)
        exact hentry.resolve_left (not_not.mpr hlast)
    · intro message grant link hevent _
      rw [hevent] at hget
      interval_cases k <;> cases hget
  have hend : (Trace.run (RemoteSystem.step LineTerm.platform sampleClient) sample
      exitsSettled).pump.link.any (fun link =>
        ((Trace.run (RemoteSystem.step LineTerm.platform sampleClient) sample
          exitsSettled).holder.sockets link.id).received[link.read]?
            = some (.processExit ⟨some 0, none⟩)) = true := by
    with_unfolding_all decide
  obtain ⟨link, hlink, hmessage⟩ := (Option.any_eq_true _ _).mp hend
  have hnext := of_decide_eq_true hmessage
  refine ⟨link, hlink, hnext, ?_⟩
  rw [Trace.run_concat]
  exact final_screen_shown LineTerm.platform sampleClient "s1" "i1" 7 2 1 2 1 0 hintact link _
    (.ok ()) hlink hnext

/-- The child writes `a` and exits before a grid message is due. -/
def exitsDirty : List SystemEvent :=
  attach 0 none ++ [feed [0x61, 0x0d],
    .holder (.recordExit (.ok ()) (.ok (.code 0)) (.ok ()) (.ok ()))] ++ deliver 4

/-- The exit overtakes the update: the mirror is blank while the screen shows `a`. -/
theorem exit_overtakes_last_update :
    ¬ ∀ (events : List SystemEvent) (link : Link) (exit : ProcessExit) (grant : IoResult),
      (Trace.run (RemoteSystem.step LineTerm.platform sampleClient) sample
        events).pump.link = some link →
      ((Trace.run (RemoteSystem.step LineTerm.platform sampleClient) sample
        events).holder.sockets link.id).received[link.read]? = some (.processExit exit) →
      ∃ mirror screen, (RemoteSystem.step LineTerm.platform sampleClient
          (Trace.run (RemoteSystem.step LineTerm.platform sampleClient) sample events)
          (.receive grant)).1.pump.mirror = some mirror ∧
        (RemoteSystem.step LineTerm.platform sampleClient
          (Trace.run (RemoteSystem.step LineTerm.platform sampleClient) sample events)
          (.receive grant)).1.holder.ledger.exitScreen = some screen ∧
        mirror.Shows LineTerm.backend screen := by
  intro hall
  have hend : (Trace.run (RemoteSystem.step LineTerm.platform sampleClient) sample
      exitsDirty).pump.link.any (fun link =>
        ((Trace.run (RemoteSystem.step LineTerm.platform sampleClient) sample
          exitsDirty).holder.sockets link.id).received[link.read]?
            = some (.processExit ⟨some 0, none⟩)) = true ∧
      (RemoteSystem.step LineTerm.platform sampleClient
        (Trace.run (RemoteSystem.step LineTerm.platform sampleClient) sample exitsDirty)
        (.receive (.ok ()))).1.pump.mirror.map (·.cells)
      ≠ (RemoteSystem.step LineTerm.platform sampleClient
        (Trace.run (RemoteSystem.step LineTerm.platform sampleClient) sample exitsDirty)
        (.receive (.ok ()))).1.holder.ledger.exitScreen.map (·.cells LineTerm.backend) := by
    with_unfolding_all decide
  obtain ⟨hexit, hstale⟩ := hend
  obtain ⟨link, hlink, hmessage⟩ := (Option.any_eq_true _ _).mp hexit
  obtain ⟨mirror, screen, hmirror, hscreen, hshows⟩ :=
    hall exitsDirty link _ (.ok ()) hlink (of_decide_eq_true hmessage)
  rw [hmirror, hscreen, Option.map_some, Option.map_some, hshows.cells] at hstale
  exact hstale rfl

end RemoteSystem

end Remote

end Homie
