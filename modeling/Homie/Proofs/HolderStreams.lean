/-
What the peer of a connection is sent.

`stream` is what the peer has followed by what is still queued for it: queueing appends to
it, writing leaves it alone, and a reseed replaces its end.  A property of streams is
carried along every run if each way a message enters a stream keeps it.  There are few:
the greeting of a handshake, a reply, the snapshot behind a resize, output, a grid
message, the exit, and a reseed; `Carries` asks for each of them, and `Carried.step` is
the case analysis over the handlers, done once.

A stream that has lost its connection is a prefix of what it would have been.  So there
are two properties, one of streams that go on (`Live`) and one of everything a peer
may have got (`Past`).  Both speak of the ledger, which says what happened in the run.
-/
import Homie.Proofs.HolderRecords

namespace Homie.Remote

open Trace

variable {T : Type} {P : Platform T}

namespace Holder

/-! ### Streams -/

/-- What the peer of a connection has, followed by what is queued for it. -/
def stream (P : Platform T) (h : Holder T) (c : Connection) : List RemoteMessage :=
  (h.sockets c.id).received ++ c.left P

end Holder

/-- A ledger after some more steps. -/
structure Ledger.Grows (before after : Ledger T) : Prop where
  history : before.history <+: after.history
  emitted : before.emitted ⊆ after.emitted
  discarded : before.discarded ⊆ after.discarded
  exitScreen : before.exitScreen = none ∨ after.exitScreen = before.exitScreen

theorem Ledger.Grows.refl (ledger : Ledger T) : Ledger.Grows ledger ledger :=
  ⟨List.prefix_rfl, List.Subset.refl _, List.Subset.refl _, Or.inr rfl⟩

theorem Ledger.Grows.trans {first second third : Ledger T} (h : Ledger.Grows first second)
    (h' : Ledger.Grows second third) : Ledger.Grows first third := by
  refine ⟨h.history.trans h'.history, List.Subset.trans h.emitted h'.emitted,
    List.Subset.trans h.discarded h'.discarded, ?_⟩
  rcases h.exitScreen with hnone | hsame
  · exact Or.inl hnone
  · rcases h'.exitScreen with hnone | hsame'
    · exact Or.inl (hsame.symm.trans hnone)
    · exact Or.inr (hsame'.trans hsame)

/-- A grid message was made. -/
def Ledger.emit (ledger : Ledger T) (entry : UInt64 × HeadlessScreen T) : Ledger T :=
  { ledger with emitted := ledger.emitted ++ [entry] }

theorem Ledger.grows_emit (ledger : Ledger T) (entry : UInt64 × HeadlessScreen T) :
    Ledger.Grows ledger (ledger.emit entry) :=
  ⟨List.prefix_rfl, List.subset_append_left _ _, List.Subset.refl _, Or.inr rfl⟩

namespace Holder

/--
Each way the stream of connection `id` can change keeps `Live`, and what its peer has got
by then is `Past`.  `Ok` is what is assumed of a step.
-/
structure Carries (P : Platform T) (id : Nat) (Ok : Holder T → HolderEvent → Prop)
    (Past Live : Ledger T → List RemoteMessage → Prop) : Prop where
  nil : ∀ ledger, Past ledger []
  past : ∀ {ledger messages}, Live ledger messages → Past ledger messages
  take : ∀ {ledger messages more}, Past ledger (messages ++ more) → Past ledger messages
  pastPlain : ∀ {ledger messages message}, Plain message → Past ledger messages →
    Past ledger (messages ++ [message])
  livePlain : ∀ {ledger messages message}, Plain message → Live ledger messages →
    Live ledger (messages ++ [message])
  grow : ∀ {ledger ledger' messages}, Ledger.Grows ledger ledger' → Past ledger messages →
    Past ledger' messages
  /-- A grid message for another connection. -/
  emitted : ∀ {ledger messages} entry, Live ledger messages → Live (ledger.emit entry) messages
  /-- An exit that is not reported. -/
  exited : ∀ {ledger messages} screen, ledger.exitScreen = none → Live ledger messages →
    Live { ledger with exitScreen := some screen } messages
  greet : ∀ {h : Holder T} {slot c hello calls replayed}, h.Recorded → h.reading = some (slot, c) →
    c.id = id → c.epoch = none → Ok h (.message (.hello hello) calls) →
    h.replay hello.lastAcknowledgedOutputOffset calls.readLog = .ok replayed →
    Live h.welcomed.ledger (h.greeting P replayed)
  resize : ∀ {h : Holder T} {messages} cols rows, h.Recorded → Live h.ledger messages →
    Live (h.resized P cols rows).recordEmitted.ledger
      (messages ++ [(h.resized P cols rows).snapshotMessage P])
  drain : ∀ {h : Holder T} {messages} bytes, h.Recorded → Live h.ledger messages →
    Live (h.fed P bytes).ledger
      (messages ++ [.terminal (Frame.output (UInt64.ofNat h.log.tailOffset) bytes)])
  emit : ∀ {h : Holder T} {due c}, h.Recorded → Ok h (.emit due) → h.reading = none →
    h.dirtySince = true → (h.interactiveGridBudget > 0 ∨ due = true) → h.connection = some c →
    c.id = id → Live h.ledger (h.stream P c) → Live (h.updated P).ledger
      (h.stream P c ++ [(h.updated P).gridMessage P (h.screen.gridUpdate P.backend false).1])
  exit : ∀ {h : Holder T} {code : Exit} {c}, h.Recorded →
    Ok h (.recordExit (.ok ()) (.ok code) (.ok ()) (.ok ())) → h.exitWatcher = true →
    h.connection = some c → c.id = id → Live h.ledger (h.stream P c) →
    Live (h.exited code.report).ledger (h.stream P c ++ [.processExit code.report])
  reseed : ∀ {h : Holder T} {c : Connection} {messages}, h.Recorded → Live h.ledger (messages ++ c.outbound) →
    Live (h.throwAway c).nextSequence.recordEmitted.ledger
      (messages ++ [reseedError, (h.throwAway c).nextSequence.snapshotMessage P])

/-- The streams of connection `id` in a state. -/
structure Carried (P : Platform T) (id : Nat) (Past Live : Ledger T → List RemoteMessage → Prop)
    (h : Holder T) : Prop where
  past : Past h.ledger (h.sockets id).received
  live : ∀ c ∈ h.connections, c.id = id → c.epoch ≠ none →
    c.sent ≤ c.outboundBytes P ∧ Live h.ledger (h.stream P c)
  unheard : ∀ c ∈ h.connections, c.id = id → c.epoch = none →
    c.outbound = [] ∧ c.sent = 0 ∧ (h.sockets id).received = []

variable {id : Nat} {Ok : Holder T → HolderEvent → Prop}
  {Past Live : Ledger T → List RemoteMessage → Prop}

theorem carried_of_undialed (rule : Carries P id Ok Past Live) {h : Holder T} (hwired : h.Wired)
    (hid : h.dialed ≤ id) : Carried P id Past Live h := by
  have hnone : ∀ c ∈ h.connections, c.id = id → False := by
    intro c hc hsame
    have hbound := hwired.bound c.id (List.mem_map_of_mem hc)
    omega
  refine ⟨?_, fun c hc hsame => (hnone c hc hsame).elim, fun c hc hsame =>
    (hnone c hc hsame).elim⟩
  rw [hwired.fresh id hid]
  exact rule.nil _

theorem Carried.transport {h h' : Holder T} (hcarried : Carried P id Past Live h)
    (hconnections : ∀ c ∈ h'.connections, c ∈ h.connections)
    (hsocket : h'.sockets id = h.sockets id)
    (hpast : ∀ messages, Past h.ledger messages → Past h'.ledger messages)
    (hlive : ∀ messages, Live h.ledger messages → Live h'.ledger messages) :
    Carried P id Past Live h' where
  past := by
    rw [hsocket]
    exact hpast _ hcarried.past
  live := by
    intro c hc hid hepoch
    obtain ⟨hsent, hstream⟩ := hcarried.live c (hconnections c hc) hid hepoch
    have hsame : h'.stream P c = h.stream P c := by
      unfold stream
      rw [hid, hsocket]
    rw [hsame]
    exact ⟨hsent, hlive _ hstream⟩
  unheard := by
    intro c hc hid hepoch
    rw [hsocket]
    exact hcarried.unheard c (hconnections c hc) hid hepoch

theorem Carried.move {h h' : Holder T} (hcarried : Carried P id Past Live h)
    (hconnections : ∀ c ∈ h'.connections, c ∈ h.connections)
    (hsocket : h'.sockets id = h.sockets id) (hledger : h'.ledger = h.ledger) :
    Carried P id Past Live h' := by
  refine hcarried.transport hconnections hsocket ?_ ?_
  · rw [hledger]
    exact fun _ h => h
  · rw [hledger]
    exact fun _ h => h

theorem carried_of_gone {h : Holder T} (hgone : ∀ c ∈ h.connections, c.id ≠ id)
    (hpast : Past h.ledger (h.sockets id).received) : Carried P id Past Live h where
  past := hpast
  live := fun c hc hid => absurd hid (hgone c hc)
  unheard := fun c hc hid => absurd hid (hgone c hc)

/-! ### Between two reads -/

section

variable {h h' : Holder T} (hcarried : Carried P id Past Live h) (hwired : h.Wired)
  (hreading' : h'.reading = none)
  (hpending : h'.pendingConnection = h.pendingConnection) (hbacklog : h'.backlog = h.backlog)

include hwired hreading' hpending hbacklog in
/-- Behind the installed connection only new ones wait. -/
theorem waiting_of_mem {c : Connection} (hc : c ∈ h'.connections) :
    h'.connection = some c ∨ (c ∈ h.connections ∧ c.epoch = none ∧
      (h.pendingConnection = some c ∨ c ∈ h.backlog)) := by
  rcases mem_connections.mp hc with hc | ⟨slot, hc⟩ | hc | hc
  · exact Or.inl hc
  · rw [hreading'] at hc
    cases hc
  · rw [hpending] at hc
    exact Or.inr ⟨mem_connections.mpr (Or.inr (Or.inr (Or.inl hc))), hwired.pending c hc, Or.inl hc⟩
  · rw [hbacklog] at hc
    exact Or.inr ⟨mem_connections.mpr (Or.inr (Or.inr (Or.inr hc))), hwired.backlog c hc, Or.inr hc⟩

include hcarried hwired hreading' hpending hbacklog

theorem Carried.uninstalled (hnone : h'.connection = none)
    (hsockets : ∀ other, (∀ c, h.connection = some c → c.id ≠ other) →
      h'.sockets other = h.sockets other)
    (hpast : Past h'.ledger (h'.sockets id).received) : Carried P id Past Live h' where
  past := hpast
  live := by
    intro c hc _ hepoch
    rcases waiting_of_mem hwired hreading' hpending hbacklog hc with hsome | ⟨-, habs, -⟩
    · rw [hnone] at hsome
      cases hsome
    · exact absurd habs hepoch
  unheard := by
    intro c hc hid hepoch
    rcases waiting_of_mem hwired hreading' hpending hbacklog hc with hsome | ⟨hmem, -, hwaiting⟩
    · rw [hnone] at hsome
      cases hsome
    · have hsocket : h'.sockets id = h.sockets id := by
        refine hsockets id fun installed hinstalled hsame => ?_
        exact hwired.installed_ne hinstalled (Or.inr hwaiting) (hid.trans hsame.symm)
      rw [hsocket]
      exact hcarried.unheard c hmem hid hepoch

theorem Carried.reinstalled {c c' : Connection} (hsome : h.connection = some c)
    (hnew : h'.connection = some c') (hid : c'.id = c.id) (hepoch : c'.epoch = c.epoch)
    (hsockets : ∀ other, other ≠ c.id → h'.sockets other = h.sockets other)
    (hpast : Past h'.ledger (h'.sockets id).received)
    (hlive : c.id = id → c'.sent ≤ c'.outboundBytes P ∧ Live h'.ledger (h'.stream P c')) :
    Carried P id Past Live h' where
  past := hpast
  live := by
    intro c₀ hc₀ hid₀ hepoch₀
    rcases waiting_of_mem hwired hreading' hpending hbacklog hc₀ with hsome₀ | ⟨-, habs, -⟩
    · rw [hnew] at hsome₀
      cases hsome₀
      exact hlive (hid.symm.trans hid₀)
    · exact absurd habs hepoch₀
  unheard := by
    intro c₀ hc₀ hid₀ hepoch₀
    rcases waiting_of_mem hwired hreading' hpending hbacklog hc₀ with hsome₀ | ⟨hmem, -, hwaiting⟩
    · rw [hnew] at hsome₀
      cases hsome₀
      exact absurd (hepoch.symm.trans hepoch₀) (hwired.installed c hsome)
    · have hother : id ≠ c.id := by
        rw [← hid₀]
        exact hwired.installed_ne hsome (Or.inr hwaiting)
      rw [hsockets id hother]
      exact hcarried.unheard c₀ hmem hid₀ hepoch₀

end

/-- The fields that queueing for the installed connection does not touch. -/
def places (h : Holder T) :=
  (h.connection, h.reading, h.pendingConnection, h.backlog, h.sockets)

theorem mem_installed {h : Holder T} {c : Connection} (hsome : h.connection = some c) :
    c ∈ h.connections :=
  mem_connections.mpr (Or.inl hsome)

theorem Carried.queued (rule : Carries P id Ok Past Live) {h : Holder T} (h₁ : Holder T)
    (hcarried : Carried P id Past Live h) (hwired : h.Wired) (hreading : h.reading = none)
    (hplaces : h₁.places = h.places) (hgrows : Ledger.Grows h.ledger h₁.ledger)
    (hrecorded : h₁.Recorded) {message : RemoteMessage}
    (hpushed : ∀ c, h.connection = some c → c.id = id → Live h.ledger (h.stream P c) →
      Live h₁.ledger (h.stream P c ++ [message]))
    {r : IoResult × Holder T} (hqueued : Queued P h₁ message r) :
    Carried P id Past Live r.2 := by
  simp only [places, Prod.mk.injEq] at hplaces
  obtain ⟨hconnection, hsame, hpending, hbacklog, hsockets⟩ := hplaces
  have hreading₁ : h₁.reading = none := hsame.trans hreading
  have hpast : ∀ ledger, Ledger.Grows h₁.ledger ledger →
      Past ledger (h₁.sockets id).received := by
    intro ledger hmore
    rw [hsockets]
    exact rule.grow (hgrows.trans hmore) hcarried.past
  have hlost : ∀ h' : Holder T, h'.connection = none → h'.reading = h₁.reading →
      h'.pendingConnection = h₁.pendingConnection → h'.backlog = h₁.backlog →
      h'.sockets = h₁.sockets → Ledger.Grows h₁.ledger h'.ledger →
      Carried P id Past Live h' := by
    intro h' hnone hreading' hpending' hbacklog' hsockets' hmore
    refine hcarried.uninstalled hwired (hreading'.trans hreading₁) (hpending'.trans hpending)
      (hbacklog'.trans hbacklog) hnone ?_ ?_
    · intro other _
      rw [hsockets', hsockets]
    · rw [hsockets']
      exact hpast _ hmore
  cases hqueued with
  | absent hnone => exact hlost h₁ hnone rfl rfl rfl rfl (.refl _)
  | lost result c hsome => exact hlost _ rfl rfl rfl rfl rfl (.refl _)
  | appended c hsome =>
    have hsome' : h.connection = some c := hconnection.symm.trans hsome
    refine hcarried.reinstalled hwired hreading₁ hpending hbacklog hsome' rfl rfl rfl
      (fun other _ => congrFun hsockets other) (hpast _ (.refl _)) ?_
    intro hid
    obtain ⟨hsent, hlive⟩ :=
      hcarried.live c (mem_installed hsome') hid (hwired.installed c hsome')
    refine ⟨Connection.sent_push hsent [message], ?_⟩
    have hstream : stream P { h₁ with connection := some (c.push [message]) } (c.push [message])
        = h.stream P c ++ [message] := by
      show (h₁.sockets c.id).received ++ (c.push [message]).left P = _
      rw [Connection.left_push hsent, hsockets, ← List.append_assoc]
      rfl
    rw [hstream]
    exact hpushed c hsome' hid hlive
  | halfReseeded e h' c hsome heq =>
    have hdiscard : Ledger.Grows h₁.ledger (h₁.throwAway (c.push [message])).ledger :=
      ⟨List.prefix_rfl, List.Subset.refl _, List.subset_append_left _ _, Or.inr rfl⟩
    rcases heq with rfl | rfl
    · exact hlost _ rfl rfl rfl rfl rfl hdiscard
    · exact hlost _ rfl rfl rfl rfl rfl hdiscard
  | reseeded c hsome hsent =>
    have hsome' : h.connection = some c := hconnection.symm.trans hsome
    have hdiscard : Ledger.Grows h₁.ledger
        (h₁.throwAway (c.push [message])).nextSequence.recordEmitted.ledger :=
      ⟨List.prefix_rfl, List.subset_append_left _ _, List.subset_append_left _ _, Or.inr rfl⟩
    refine hcarried.reinstalled hwired hreading₁ hpending hbacklog hsome' rfl rfl rfl
      (fun other _ => congrFun hsockets other) (hpast _ hdiscard) ?_
    intro hid
    obtain ⟨-, hlive⟩ :=
      hcarried.live c (mem_installed hsome') hid (hwired.installed c hsome')
    refine ⟨Nat.zero_le _, ?_⟩
    have hall := hpushed c hsome' hid hlive
    have hunsent : h.stream P c ++ [message]
        = (h₁.sockets c.id).received ++ (c.push [message]).outbound := by
      unfold stream
      rw [Connection.left_of_unsent hsent, hsockets, List.append_assoc]
      rfl
    rw [hunsent] at hall
    have hreseeded := rule.reseed hrecorded hall
    have hleft : (c.clear.push [reseedError,
        (h₁.throwAway (c.push [message])).nextSequence.snapshotMessage P]).left P
        = [reseedError, (h₁.throwAway (c.push [message])).nextSequence.snapshotMessage P] :=
      Connection.left_of_unsent rfl
    show Live _ ((h₁.sockets c.id).received ++ _)
    rw [hleft]
    exact hreseeded

theorem Carried.flushConnection (rule : Carries P id Ok Past Live) {h : Holder T}
    (hcarried : Carried P id Past Live h) (hwired : h.Wired) (hreading : h.reading = none)
    (writes : List (Except IoError Nat)) :
    Carried P id Past Live (h.flushConnection P writes).2 := by
  unfold Holder.flushConnection
  cases hsome : h.connection with
  | none => exact hcarried
  | some c =>
    obtain ⟨hid, hepoch⟩ := c.flush_frame (P := P) (h.sockets c.id) writes
    have hwritten : c.id = id → c.sent ≤ c.outboundBytes P ∧ Live h.ledger (h.stream P c) :=
      fun hsame => hcarried.live c (mem_installed hsome) hsame (hwired.installed c hsome)
    have hflush := fun hsent : c.sent ≤ c.outboundBytes P =>
      Connection.flush_stream hsent (h.sockets c.id) writes
    dsimp only
    generalize c.flush P (h.sockets c.id) writes = r at hid hepoch hflush
    obtain ⟨result, c', socket⟩ := r
    dsimp only at hid hepoch hflush ⊢
    have hother : ∀ other, other ≠ c.id →
        (h.setSocket c'.id socket).sockets other = h.sockets other :=
      fun other hne => if_neg (by rw [hid]; exact hne)
    have hown : (h.setSocket c'.id socket).sockets c.id = socket := if_pos hid.symm
    have hpast : Past h.ledger ((h.setSocket c'.id socket).sockets id).received := by
      by_cases hsame : c.id = id
      · obtain ⟨hsent, hlive⟩ := hwritten hsame
        have hall : Past h.ledger (socket.received ++ c'.left P) := by
          rw [(hflush hsent).2]
          exact rule.past hlive
        rw [← hsame, hown]
        exact rule.take hall
      · rw [hother id fun heq => hsame heq.symm]
        exact hcarried.past
    have hkept : Carried P id Past Live { h.setSocket c'.id socket with
        connection := some c' } := by
      refine hcarried.reinstalled hwired hreading rfl rfl hsome rfl hid hepoch hother hpast ?_
      intro hsame
      obtain ⟨hsent, hlive⟩ := hwritten hsame
      refine ⟨(hflush hsent).1, ?_⟩
      have hstream : stream P { h.setSocket c'.id socket with connection := some c' } c'
          = h.stream P c := by
        have hsocket : (h.setSocket c'.id socket).sockets c'.id = socket := if_pos rfl
        show ((h.setSocket c'.id socket).sockets c'.id).received ++ c'.left P = _
        rw [hsocket]
        exact (hflush hsent).2
      rw [hstream]
      exact hlive
    cases result with
    | ok => exact hkept
    | error e =>
      dsimp only
      split
      · refine hcarried.uninstalled hwired hreading rfl rfl rfl ?_ hpast
        intro other hne
        exact hother other fun heq => hne c hsome heq.symm
      · exact hkept

/-! ### Reading -/

section

variable {h : Holder T} (h₁ : Holder T) {slot : Slot} {c c' : Connection}
  (hcarried : Carried P id Past Live h) (hwired : h.Wired)
  (hreading : h.reading = some (slot, c)) (hconnection : h₁.connection = h.connection)
  (hpending : h₁.pendingConnection = h.pendingConnection) (hbacklog : h₁.backlog = h.backlog)
  (hsockets : h₁.sockets = h.sockets)
  (hpast : ∀ messages, Past h.ledger messages → Past h₁.ledger messages)
  (hlive : ∀ messages, Live h.ledger messages → Live h₁.ledger messages)

include hwired hreading hconnection hpending hbacklog in
theorem other_of_mem {h' : Holder T} {c₀ : Connection} (hc₀ : c₀ ∈ h'.connections)
    (hconnection' : h'.connection = h₁.connection)
    (hpending' : h'.pendingConnection = h₁.pendingConnection)
    (hbacklog' : h'.backlog = h₁.backlog) :
    (∃ slot, h'.reading = some (slot, c₀)) ∨ (c₀ ∈ h.connections ∧ c₀.id ≠ c.id) := by
  have hplace : (∃ slot, h'.reading = some (slot, c₀)) ∨ h.connection = some c₀ ∨
      h.pendingConnection = some c₀ ∨ c₀ ∈ h.backlog := by
    have hmem := mem_connections.mp hc₀
    rw [hconnection', hconnection, hpending', hpending, hbacklog', hbacklog] at hmem
    tauto
  rcases hplace with hread | hother
  · exact Or.inl hread
  · exact Or.inr ⟨mem_connections.mpr (by tauto), hwired.reading_ne hreading hother⟩

include hcarried hwired hreading hconnection hpending hbacklog hsockets hpast hlive

theorem Carried.reread (hid : c'.id = c.id)
    (hnew : c.id = id → c'.epoch ≠ none ∧ c'.sent ≤ c'.outboundBytes P ∧
      Live h₁.ledger (h.stream P c')) :
    Carried P id Past Live { h₁ with reading := some (slot, c') } where
  past := by
    show Past h₁.ledger (h₁.sockets id).received
    rw [hsockets]
    exact hpast _ hcarried.past
  live := by
    intro c₀ hc₀ hid₀ hepoch₀
    have hstream : stream P { h₁ with reading := some (slot, c') } c₀ = h.stream P c₀ := by
      show (h₁.sockets c₀.id).received ++ c₀.left P = _
      rw [hsockets]
      rfl
    rw [hstream]
    rcases other_of_mem h₁ hwired hreading hconnection hpending hbacklog hc₀ rfl rfl rfl with
      ⟨slot₀, hread⟩ | ⟨hmem, -⟩
    · cases hread
      exact (hnew (hid.symm.trans hid₀)).2
    · obtain ⟨hsent, hstream₀⟩ := hcarried.live c₀ hmem hid₀ hepoch₀
      exact ⟨hsent, hlive _ hstream₀⟩
  unheard := by
    intro c₀ hc₀ hid₀ hepoch₀
    rcases other_of_mem h₁ hwired hreading hconnection hpending hbacklog hc₀ rfl rfl rfl with
      ⟨slot₀, hread⟩ | ⟨hmem, -⟩
    · cases hread
      exact absurd hepoch₀ (hnew (hid.symm.trans hid₀)).1
    · show _ ∧ _ ∧ (h₁.sockets id).received = []
      rw [hsockets]
      exact hcarried.unheard c₀ hmem hid₀ hepoch₀

theorem Carried.closed (rule : Carries P id Ok Past Live) (hid : c'.id = c.id)
    (code message : String) (written : Bool) :
    Carried P id Past Live (h₁.closeReading P c' code message written) := by
  have hpast₁ : Past h₁.ledger (h.sockets id).received := hpast _ hcarried.past
  by_cases hsame : c.id = id
  · -- its number is nobody else's, so only what its peer has is left
    refine carried_of_gone ?_ ?_
    · intro c₀ hc₀
      rcases other_of_mem h₁ hwired hreading hconnection hpending hbacklog hc₀ rfl rfl rfl with
        ⟨slot₀, hread⟩ | ⟨-, hne⟩
      · cases hread
      · rw [← hsame]
        exact hne
    · have hsocket : (h₁.closeReading P c' code message written).sockets id
          = c'.sendFatal P code message written (h.sockets id) := by
        have hown : c'.id = id := hid.trans hsame
        rw [← hsockets, ← hown]
        exact if_pos rfl
      rw [hsocket]
      show Past h₁.ledger _
      rcases c'.sendFatal_received (P := P) code message written (h.sockets id) with heq | heq
      · rw [heq]
        exact hpast₁
      · rw [heq]
        exact rule.pastPlain trivial hpast₁
  · refine hcarried.transport ?_ ?_ hpast hlive
    · intro c₀ hc₀
      rcases other_of_mem h₁ hwired hreading hconnection hpending hbacklog hc₀ rfl rfl rfl with
        ⟨slot₀, hread⟩ | ⟨hmem, -⟩
      · cases hread
      · exact hmem
    · rw [closeReading_sockets _ _ _ _ _ (by rw [hid]; exact fun heq => hsame heq.symm), hsockets]

end

theorem mem_reading {h : Holder T} {slot : Slot} {c : Connection}
    (hreading : h.reading = some (slot, c)) : c ∈ h.connections :=
  mem_connections.mpr (Or.inr (Or.inl ⟨slot, hreading⟩))

theorem stream_greeted {h : Holder T} {c : Connection} (epoch : UInt64)
    {messages : List RemoteMessage}
    (hunheard : c.outbound = [] ∧ c.sent = 0 ∧ (h.sockets c.id).received = []) :
    h.stream P ((c.admitted epoch).push messages) = messages := by
  obtain ⟨houtbound, hsent, hreceived⟩ := hunheard
  have hleft : ((c.admitted epoch).push messages).left P = c.outbound ++ messages :=
    Connection.left_of_unsent hsent
  show (h.sockets c.id).received ++ ((c.admitted epoch).push messages).left P = messages
  rw [hleft, hreceived, houtbound]
  rfl

theorem Carried.readMessage (rule : Carries P id Ok Past Live) {h : Holder T}
    (hcarried : Carried P id Past Live h) (hwired : h.Wired) (hrecorded : h.Recorded)
    {message : RemoteMessage} {calls : Calls} (hok : Ok h (.message message calls)) :
    Carried P id Past Live (h.readMessage P message calls) := by
  cases hreading : h.reading with
  | none =>
    unfold Holder.readMessage
    rw [hreading]
    exact hcarried
  | some place =>
    obtain ⟨slot, c⟩ := place
    have hmore : ∀ entry messages, Past h.ledger messages →
        Past (h.ledger.emit entry) messages :=
      fun entry _ hpast => rule.grow (h.ledger.grows_emit entry) hpast
    have hreads := h.readMessage_reads (P := P) hreading message calls
    generalize h.readMessage P message calls = after at hreads
    cases hreads with
    | refused e hnone =>
      exact hcarried.closed h hwired hreading rfl rfl rfl rfl (fun _ h => h) (fun _ h => h)
        rule rfl _ _ _
    | welcomed hello replayed hmessage hnone hrefusal hcan hreplay =>
      subst hmessage
      refine hcarried.reread h.welcomed hwired hreading rfl rfl rfl rfl (hmore _)
        (fun _ => rule.emitted _) rfl ?_
      intro hid
      have hunheard := hcarried.unheard c (mem_reading hreading) hid hnone
      refine ⟨by simp [Connection.push, Connection.admitted], ?_, ?_⟩
      · show c.sent ≤ _
        rw [hunheard.2.1]
        exact Nat.zero_le _
      · rw [stream_greeted _ (by rw [hid]; exact hunheard)]
        exact rule.greet hrecorded hreading hid hnone hok hreplay
    | unwelcome hello e h' c' hmessage hnone hrefusal hcannot hid hstate =>
      obtain ⟨hpending, hbacklog, hconnection, -, -, -, -, -, hsockets⟩ :=
        unwelcome_frame hstate
      have hledger : h'.ledger = h.ledger ∨ ∃ entry, h'.ledger = h.ledger.emit entry := by
        rcases hstate with rfl | rfl | rfl
        · exact Or.inl rfl
        · exact Or.inl rfl
        · exact Or.inr ⟨_, rfl⟩
      refine hcarried.closed h' hwired hreading hconnection hpending hbacklog hsockets ?_ ?_
        rule hid _ _ _
      · rcases hledger with heq | ⟨entry, heq⟩
        · rw [heq]
          exact fun _ h => h
        · rw [heq]
          exact hmore entry
      · rcases hledger with heq | ⟨entry, heq⟩
        · rw [heq]
          exact fun _ h => h
        · rw [heq]
          exact fun _ => rule.emitted entry
    | handled epoch h' c' hepoch heffect =>
      have hlive : c.id = id → c.sent ≤ c.outboundBytes P ∧ Live h.ledger (h.stream P c) :=
        fun hid => hcarried.live c (mem_reading hreading) hid (by rw [hepoch]; simp)
      cases heffect with
      | typed result pty pendingInput budget =>
        refine hcarried.reread { h with
          pty, pendingInput, interactiveGridBudget := budget } hwired hreading rfl rfl rfl
          rfl (fun _ h => h) (fun _ h => h) rfl ?_
        intro hid
        exact ⟨by rw [hepoch]; simp, hlive hid⟩
      | replied message hplain =>
        refine hcarried.reread h hwired hreading rfl rfl rfl rfl (fun _ h => h)
          (fun _ h => h) rfl ?_
        intro hid
        obtain ⟨hsent, hstream⟩ := hlive hid
        refine ⟨by simp [Connection.push, hepoch], Connection.sent_push hsent _, ?_⟩
        show Live h.ledger ((h.sockets c.id).received ++ (c.push [message]).left P)
        rw [Connection.left_push hsent, ← List.append_assoc]
        exact rule.livePlain hplain hstream
      | resized cols rows =>
        refine hcarried.reread { (h.resized P cols rows).recordEmitted with
          stored := (h.resized P cols rows).state } hwired hreading rfl rfl rfl rfl
          (hmore _) (fun _ => rule.emitted _) rfl ?_
        intro hid
        obtain ⟨hsent, hstream⟩ := hlive hid
        refine ⟨by simp [Connection.push, hepoch], Connection.sent_push hsent _, ?_⟩
        have hall := rule.resize cols rows hrecorded hstream
        show Live (h.resized P cols rows).recordEmitted.ledger
          ((h.sockets c.id).received ++ (c.push _).left P)
        rw [Connection.left_push hsent, ← List.append_assoc]
        exact hall
    | closed epoch e h' c' hepoch hrefused heffect =>
      obtain ⟨hkeeps, hslot, hid, -⟩ := keeps_effect heffect
      have hsockets : h'.sockets = h.sockets := effect_sockets heffect
      have hledger : h'.ledger = h.ledger := by
        cases heffect <;> rfl
      refine hcarried.closed h' hwired hreading hslot hkeeps.pending hkeeps.backlog hsockets ?_ ?_
        rule hid _ _ _
      · rw [hledger]
        exact fun _ h => h
      · rw [hledger]
        exact fun _ h => h

theorem revokePrevious_received {h : Holder T} {previous : Connection}
    (hsome : h.connection = some previous) (hsent : previous.sent ≤ previous.outboundBytes P)
    (writes : List (Except IoError Nat)) :
    ∃ message, Plain message ∧
      ((h.revokePrevious P writes).sockets previous.id).received
        <+: h.stream P previous ++ [message] := by
  have hflushed : ∀ c : Connection, c.id = previous.id → c.sent ≤ c.outboundBytes P →
      ((h.setSocket c.id (c.flush P (h.sockets c.id) writes).2.2).sockets previous.id).received
        <+: (h.sockets previous.id).received ++ c.left P := by
    intro c hid hsent
    have hsocket : (h.setSocket c.id (c.flush P (h.sockets c.id) writes).2.2).sockets previous.id
        = (c.flush P (h.sockets c.id) writes).2.2 := if_pos hid.symm
    rw [hsocket, ← hid]
    exact ⟨_, (Connection.flush_stream hsent (h.sockets c.id) writes).2⟩
  refine ⟨.controlRevoked ⟨previous.epoch.getD 0, "superseded by a newer authenticated attach"⟩,
    trivial, ?_⟩
  unfold revokePrevious
  rw [hsome]
  dsimp only
  generalize (RemoteMessage.controlRevoked ⟨previous.epoch.getD 0,
    "superseded by a newer authenticated attach"⟩) = message
  rcases previous.queue_cases (P := P) message with ⟨-, hqueue⟩ | ⟨-, e, hqueue⟩
  · have hpushed := hflushed (previous.push [message]) rfl (Connection.sent_push hsent [message])
    rw [Connection.left_push hsent, ← List.append_assoc] at hpushed
    rw [hqueue]
    exact hpushed
  · rw [hqueue]
    exact (hflushed previous rfl hsent).trans (List.prefix_append _ _)

theorem Carried.putBack (rule : Carries P id Ok Past Live) {h : Holder T}
    (hcarried : Carried P id Past Live h) (hwired : h.Wired) {slot : Slot} {c : Connection}
    (hreading : h.reading = some (slot, c)) (writes : List (Except IoError Nat)) :
    Carried P id Past Live (h.stopReading.putBack P slot c writes) := by
  have hmem := mem_reading hreading
  rcases h.stopReading.putBack_cases (P := P) slot c writes with
    ⟨-, heq⟩ | ⟨-, -, heq⟩ | ⟨-, -, heq⟩
  · rw [heq]
    refine hcarried.move ?_ rfl rfl
    intro c₀ hc₀
    rcases mem_connections.mp hc₀ with hc₀ | ⟨slot₀, hc₀⟩ | hc₀ | hc₀
    · cases hc₀
      exact hmem
    · cases hc₀
    · exact mem_connections.mpr (Or.inr (Or.inr (Or.inl hc₀)))
    · exact mem_connections.mpr (Or.inr (Or.inr (Or.inr hc₀)))
  · rw [heq]
    refine hcarried.move ?_ rfl rfl
    intro c₀ hc₀
    rcases mem_connections.mp hc₀ with hc₀ | ⟨slot₀, hc₀⟩ | hc₀ | hc₀
    · exact mem_connections.mpr (Or.inl hc₀)
    · cases hc₀
    · cases hc₀
      exact hmem
    · exact mem_connections.mpr (Or.inr (Or.inr (Or.inr hc₀)))
  · obtain ⟨sockets, hsockets, -, hrevoked⟩ := h.stopReading.revokePrevious_eq (P := P) writes
    have hplaces : ∀ c₀ ∈ (h.stopReading.putBack P slot c writes).connections,
        c₀ = c ∨ h.pendingConnection = some c₀ ∨ c₀ ∈ h.backlog := by
      rw [heq, hrevoked]
      intro c₀ hc₀
      rcases mem_connections.mp hc₀ with hc₀ | ⟨slot₀, hc₀⟩ | hc₀ | hc₀
      · exact Or.inl (Option.some.inj hc₀).symm
      · cases hc₀
      · exact Or.inr (Or.inl hc₀)
      · exact Or.inr (Or.inr hc₀)
    by_cases hown : ∃ previous, h.connection = some previous ∧ previous.id = id
    · -- the number was the superseded connection's, and it is gone
      obtain ⟨previous, hsome, hid⟩ := hown
      refine carried_of_gone ?_ ?_
      · intro c₀ hc₀
        rw [← hid]
        rcases hplaces c₀ hc₀ with rfl | hwaiting
        · exact hwired.installed_ne hsome (Or.inl ⟨slot, hreading⟩)
        · exact hwired.installed_ne hsome (Or.inr hwaiting)
      · obtain ⟨hsent, hlive⟩ :=
          hcarried.live previous (mem_installed hsome) hid (hwired.installed previous hsome)
        have hstop : h.stopReading.connection = some previous := hsome
        obtain ⟨message, hplain, more, hpre⟩ := revokePrevious_received hstop hsent writes
        have hall : Past h.ledger (h.stream P previous ++ [message]) :=
          rule.past (rule.livePlain hplain hlive)
        have hstream : h.stopReading.stream P previous = h.stream P previous := rfl
        rw [← hstream, ← hpre] at hall
        have hpast := rule.take hall
        rw [hid, hrevoked] at hpast
        rw [heq, hrevoked]
        exact hpast
    · refine hcarried.move ?_ ?_ ?_
      · intro c₀ hc₀
        rcases hplaces c₀ hc₀ with rfl | hc₀ | hc₀
        · exact hmem
        · exact mem_connections.mpr (Or.inr (Or.inr (Or.inl hc₀)))
        · exact mem_connections.mpr (Or.inr (Or.inr (Or.inr hc₀)))
      · rw [heq, hrevoked]
        exact hsockets id fun c₀ hc₀ hid => hown ⟨c₀, hc₀, hid⟩
      · rw [heq, hrevoked]
        rfl

theorem Carried.endRead (rule : Carries P id Ok Past Live) {h : Holder T}
    (hcarried : Carried P id Past Live h) (hwired : h.Wired) (ending : ReadEnd)
    (writes : List (Except IoError Nat)) :
    Carried P id Past Live (h.endRead P ending writes) := by
  unfold Holder.endRead
  cases hreading : h.reading with
  | none => exact hcarried
  | some place =>
    obtain ⟨slot, c⟩ := place
    have hstopped : Carried P id Past Live h.stopReading := by
      refine hcarried.move ?_ rfl rfl
      intro c₀ hc₀
      rcases other_of_mem h hwired hreading rfl rfl rfl hc₀ rfl rfl rfl with
        ⟨slot₀, hread⟩ | ⟨hmem, -⟩
      · cases hread
      · exact hmem
    cases ending with
    | wouldBlock => exact hcarried.putBack rule hwired hreading writes
    | eof => exact hstopped
    | failed => exact hstopped
    | invalidFrame e written =>
      exact hcarried.closed h hwired hreading rfl rfl rfl rfl (fun _ h => h) (fun _ h => h)
        rule rfl _ _ _

/-! ### Every step -/

theorem Carried.settle {r : IoResult × Holder T} (hcarried : Carried P id Past Live r.2) :
    Carried P id Past Live (settle r) := by
  obtain ⟨result, h⟩ := r
  cases result with
  | ok => exact hcarried
  | error e => exact hcarried.move (fun _ hc => hc) rfl rfl

theorem Carried.persist {h : Holder T} (hcarried : Carried P id Past Live h) (write : IoResult) :
    Carried P id Past Live (h.persist write).2 := by
  unfold Holder.persist
  split
  · cases write with
    | ok => exact hcarried.move (fun _ hc => hc) rfl rfl
    | error e => exact hcarried
  · exact hcarried

theorem Carried.drainPty (rule : Carries P id Ok Past Live) {h : Holder T}
    (hcarried : Carried P id Past Live h) (hwired : h.Wired) (hrecorded : h.Recorded)
    (hreading : h.reading = none) (read : PtyRead) (append write : IoResult) :
    Carried P id Past Live (h.drainPty P read append write).2 := by
  rcases h.drainPty_cases (P := P) read append write with ⟨ptyReader, heq⟩ | ⟨bytes, r, hr, hlast⟩
  · rw [heq]
    exact hcarried.move (fun _ hc => hc) rfl rfl
  · have hgrows : Ledger.Grows h.ledger (h.fed P bytes).ledger :=
      ⟨List.prefix_append _ _, List.Subset.refl _, List.Subset.refl _, Or.inr rfl⟩
    have hqueued : Carried P id Past Live r.2 := by
      rcases hr with ⟨-, hqueued⟩ | ⟨hnobody, rfl⟩
      · refine hcarried.queued rule (h.fed P bytes) hwired hreading rfl hgrows
          (hrecorded.fed bytes) ?_ hqueued
        intro c _ _ hlive
        exact rule.drain bytes hrecorded hlive
      · -- nobody is installed, so nobody misses the output
        have hnone : h.connection = none := by
          cases hsome : h.connection with
          | none => rfl
          | some c =>
            have hepoch := hwired.installed c hsome
            rw [hsome, Option.any_some] at hnobody
            cases hc : c.epoch with
            | none => exact absurd hc hepoch
            | some epoch => simp [hc] at hnobody
        exact hcarried.uninstalled hwired hreading rfl rfl hnone (fun _ _ => rfl)
          (rule.grow hgrows hcarried.past)
    rcases hlast with heq | heq
    · rw [heq]
      exact hqueued
    · rw [heq]
      exact hqueued.persist write

theorem Carried.recordExit (rule : Carries P id Ok Past Live) {h : Holder T}
    (hcarried : Carried P id Past Live h) (hwired : h.Wired) (hrecorded : h.Recorded)
    (hreading : h.reading = none) {finish : IoResult} {exit : Except IoError Exit}
    {flush write : IoResult} (hok : Ok h (.recordExit finish exit flush write)) :
    Carried P id Past Live (h.recordExit P finish exit flush write).2 := by
  rcases h.recordExit_cases (P := P) finish exit flush write with
    heq | ⟨code, hexit, hwatching, hleft⟩
  · rw [heq]
    exact hcarried
  · have hrunning := hrecorded.watching hwatching
    have hgrows : Ledger.Grows h.ledger (h.exited code.report).ledger :=
      ⟨List.prefix_rfl, List.Subset.refl _, List.Subset.refl _, Or.inl hrunning⟩
    rcases hleft with heq | ⟨⟨rfl, rfl, rfl⟩, r, hqueued, heq⟩
    · rw [heq]
      exact hcarried.transport (fun _ hc => hc) rfl (fun _ => rule.grow hgrows)
        (fun _ => rule.exited _ hrunning)
    · rw [heq]
      refine hcarried.queued rule { h.exited code.report with
        stored := (h.exited code.report).state } hwired hreading rfl hgrows
        ((hrecorded.exited code.report).of_record rfl) ?_ hqueued
      intro c hsome hid hlive
      subst hexit
      exact rule.exit hrecorded hok hwatching hsome hid hlive

theorem Carried.emitGridDelta (rule : Carries P id Ok Past Live) {h : Holder T}
    (hcarried : Carried P id Past Live h) (hwired : h.Wired) (hrecorded : h.Recorded)
    (hreading : h.reading = none) {due : Bool} (hok : Ok h (.emit due))
    (hdirty : h.dirtySince = true) (hdue : h.interactiveGridBudget > 0 ∨ due = true) :
    Carried P id Past Live (h.emitGridDelta P).2 := by
  rcases h.emitGridDelta_cases (P := P) with heq | ⟨r, hqueued, heq⟩
  · rw [heq]
    exact hcarried.move (fun _ hc => hc) rfl rfl
  · rw [heq]
    refine hcarried.queued rule (h.updated P) hwired hreading rfl (Ledger.grows_emit _ _)
      hrecorded.updated ?_ hqueued
    intro c hsome hid hlive
    exact rule.emit hrecorded hok hreading hdirty hdue hsome hid hlive

theorem Carried.between (rule : Carries P id Ok Past Live) {h : Holder T}
    (hcarried : Carried P id Past Live h) (hwired : h.Wired) (hrecorded : h.Recorded)
    (hreading : h.reading = none) {event : HolderEvent} (hok : Ok h event) :
    Carried P id Past Live (h.between P event) := by
  cases event with
  | dial | message | endRead => exact hcarried
  | accept result =>
    refine Carried.settle (hcarried.move ?_ rfl rfl)
    intro c hc
    rcases mem_connections.mp hc with hc | hc | hc | hc
    · exact mem_connections.mpr (Or.inl hc)
    · exact mem_connections.mpr (Or.inr (Or.inl hc))
    · rcases Option.or_eq_some_iff.mp hc with hlast | ⟨-, hc⟩
      · exact mem_connections.mpr (Or.inr (Or.inr (Or.inr (List.mem_of_getLast? hlast))))
      · exact mem_connections.mpr (Or.inr (Or.inr (Or.inl hc)))
    · exact absurd hc List.not_mem_nil
  | guardExit status => exact hcarried.move (fun _ hc => hc) rfl rfl
  | beginRead slot =>
    refine hcarried.move ?_ ?_ ?_
    · intro c hc
      cases slot with
      | installed =>
        simp only [Holder.between, Holder.beginRead] at hc
        cases hsome : h.connection with
        | none =>
          rw [hsome] at hc
          exact hc
        | some installed =>
          rw [hsome] at hc
          rcases mem_connections.mp hc with hc | ⟨slot, hc⟩ | hc | hc
          · cases hc
          · cases hc
            exact mem_installed hsome
          · exact mem_connections.mpr (Or.inr (Or.inr (Or.inl hc)))
          · exact mem_connections.mpr (Or.inr (Or.inr (Or.inr hc)))
      | pending =>
        simp only [Holder.between, Holder.beginRead] at hc
        cases hsome : h.pendingConnection with
        | none =>
          rw [hsome] at hc
          exact hc
        | some pending =>
          rw [hsome] at hc
          rcases mem_connections.mp hc with hc | ⟨slot, hc⟩ | hc | hc
          · exact mem_connections.mpr (Or.inl hc)
          · cases hc
            exact mem_connections.mpr (Or.inr (Or.inr (Or.inl hsome)))
          · cases hc
          · exact mem_connections.mpr (Or.inr (Or.inr (Or.inr hc)))
    · cases slot <;> simp only [Holder.between, Holder.beginRead] <;> split <;> rfl
    · cases slot <;> simp only [Holder.between, Holder.beginRead] <;> split <;> rfl
  | flushInput writes =>
    refine Carried.settle ?_
    obtain ⟨written, pendingInput, -, heq⟩ := h.flushInput_eq writes
    rw [heq]
    exact hcarried.move (fun _ hc => hc) rfl rfl
  | flushConnection writes => exact (hcarried.flushConnection rule hwired hreading writes).settle
  | drain read append write =>
    exact (hcarried.drainPty rule hwired hrecorded hreading read append write).settle
  | recordExit finish exit flush write =>
    exact (hcarried.recordExit rule hwired hrecorded hreading hok).settle
  | emit due =>
    simp only [Holder.between]
    split
    · rename_i hemits
      exact (hcarried.emitGridDelta rule hwired hrecorded hreading hok hemits.1 hemits.2).settle
    · exact hcarried

theorem Carried.dial {h : Holder T} (hcarried : Carried P id Past Live h) (hwired : h.Wired) :
    Carried P id Past Live h.dial := by
  have hmem : ∀ c ∈ h.dial.connections, c ∈ h.connections ∨ c = Connection.new h.dialed := by
    intro c hc
    rcases mem_connections.mp hc with hc | hc | hc | hc
    · exact Or.inl (mem_connections.mpr (Or.inl hc))
    · exact Or.inl (mem_connections.mpr (Or.inr (Or.inl hc)))
    · exact Or.inl (mem_connections.mpr (Or.inr (Or.inr (Or.inl hc))))
    · rcases List.mem_append.mp hc with hc | hc
      · exact Or.inl (mem_connections.mpr (Or.inr (Or.inr (Or.inr hc))))
      · exact Or.inr (List.mem_singleton.mp hc)
  refine ⟨hcarried.past, ?_, ?_⟩
  · intro c hc hid hepoch
    rcases hmem c hc with hold | rfl
    · exact hcarried.live c hold hid hepoch
    · exact absurd rfl hepoch
  · intro c hc hid hepoch
    rcases hmem c hc with hold | rfl
    · exact hcarried.unheard c hold hid hepoch
    · refine ⟨rfl, rfl, ?_⟩
      have hfresh := hwired.fresh id (Nat.le_of_eq hid)
      show (h.sockets id).received = []
      rw [hfresh]
      rfl

/-- **What every change of a stream keeps, every step keeps.** -/
theorem Carried.step (rule : Carries P id Ok Past Live) {h : Holder T}
    (hcarried : Carried P id Past Live h) (hwired : h.Wired) (hrecorded : h.Recorded)
    {event : HolderEvent} (hok : Ok h event) :
    Carried P id Past Live (Holder.step P h event).1 := by
  rcases h.step_cases (P := P) event with
    heq | ⟨-, heq⟩ | ⟨message, calls, rfl, heq⟩ | ⟨ending, writes, -, heq⟩ | ⟨hreading, heq⟩
  · rw [heq]
    exact hcarried
  · rw [heq]
    exact hcarried.dial hwired
  · rw [heq]
    exact hcarried.readMessage rule hwired hrecorded hok
  · rw [heq]
    exact hcarried.endRead rule hwired ending writes
  · rw [heq]
    exact hcarried.between rule hwired hrecorded hreading hok

end Holder

end Homie.Remote
