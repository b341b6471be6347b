/-
The client's event stream is gapless as long as its resume point is.

A reconnecting client asks for everything after the largest number it has routed.  That
loses an event in two ways: the client has routed an event past an earlier one that was
still on its way when the connection dropped, or it has routed nothing yet and its resume
point of zero is sent as none.  `Resumable` excludes exactly these two; then every event of
a subscribed kind since the first acknowledged subscription has been routed once or is
still on its way.

`Served` is the invariant of a connection: what has passed over it, what is in its socket
and what the forwarder holds are what its subscription has received, and all of that is
newer than anything routed before.
-/
import Homie.Client.EventStream
import Homie.Proofs.EventSeam

namespace Homie.Events

open Trace

/-! ### What a subscription sees -/

namespace BusSystem

variable {json : JsonCodec} {sys : BusSystem} {id count : Nat} {replayed : List Event}
  {filter : Filter} {stream : Stream}

theorem Seam.nodup_seen (hsys : WellFormed sys) (h : Seam count replayed filter id sys stream)
    (hreplayed : (replayed.map Event.seq).Nodup) : (stream.seen.map Event.seq).Nodup := by
  refine List.nodup_iff_count_le_one.mpr fun n => ?_
  show stream.arrivals n ≤ 1
  by_cases hearly : n ≤ count
  · rw [h.early n hearly]
    exact List.nodup_iff_count_le_one.mp hreplayed n
  · obtain ⟨j, rfl⟩ : ∃ j, n = j + 1 := ⟨n - 1, by omega⟩
    cases hp : sys.published[j]? with
    | none =>
      have hlen := List.getElem?_eq_none_iff.mp hp
      rw [h.later (j + 1) (by rw [hsys.nextSeq]; omega)]
      exact Nat.zero_le 1
    | some p =>
      rw [h.live j p (by omega) hp]
      split <;> omega

theorem Seam.seen_lt (h : Seam count replayed filter id sys stream) {n : Nat}
    (hn : n ∈ stream.seen.map Event.seq) : n < sys.inner.nextSeq := by
  by_contra hge
  have hnone : stream.arrivals n = 0 := h.later n (by omega)
  exact List.count_eq_zero.mp hnone hn

theorem Seam.lt_seen (hsys : WellFormed sys) (h : Seam count replayed filter id sys stream)
    {base : Nat} (hbase : base ≤ count) (hreplayed : ∀ n ∈ replayed.map Event.seq, base < n)
    {n : Nat} (hn : n ∈ stream.seen.map Event.seq) : base < n := by
  obtain ⟨event, hevent, rfl⟩ := List.mem_map.mp hn
  rcases h.origin event hevent with hreplay | ⟨j, p, hj, hp, rfl⟩
  · exact hreplayed _ (List.mem_map_of_mem hreplay)
  · rw [hsys.stamped j p hp]
    omega

/-- Only its receiver takes from a queue. -/
theorem received_step (hsys : WellFormed sys) (hid : id ∈ sys.inner.subscribers)
    (hstream : sys.streams id = some stream) {event : BusStep} (hrecv : event ≠ .tryRecv id)
    {next : Stream} (hnext : (sys.step json event).1.streams id = some next) :
    next.received = stream.received := by
  rcases streams_cases json sys event id with
    ⟨-, hsame⟩ | ⟨i, p, -, -, -, hpush⟩ | ⟨rfl, -⟩ | ⟨-, hclose⟩ | ⟨-, -, -, rfl, -⟩
  · rw [hsame, hstream] at hnext
    rw [Option.some.inj hnext]
  · rw [hpush, hstream] at hnext
    rw [← Option.some.inj hnext]
    rfl
  · exact absurd rfl hrecv
  · rw [hclose, hstream] at hnext
    rw [← Option.some.inj hnext]
    rfl
  · exact absurd (hsys.subscribers.2 _ hid) (Nat.lt_irrefl _)

/-- The publisher at a place taken before a step carried the same event. -/
theorem published_before (hsys : WellFormed sys) {event : BusStep} {j : Nat} {q : Publisher}
    (hj : j < sys.published.length)
    (hq : (sys.step json event).1.published[j]? = some q) :
    ∃ p, sys.published[j]? = some p ∧ q.event = p.event := by
  rcases published_cases hsys hq 0 with ⟨p, hp, hevent, -⟩ | ⟨rfl, -⟩
  · exact ⟨p, hp, hevent⟩
  · exact absurd hj (Nat.lt_irrefl _)

end BusSystem

end Homie.Events

namespace Homie.Client

open Homie.Events Homie.Events.BusSystem Trace

/-! ### What is promised -/

namespace ControlMessage

/-- The number of an event frame. -/
def seqs : ControlMessage → List Nat
  | .event _ seq _ => [seq]
  | .subscribed => []

end ControlMessage

/-- The numbers of the events written to the socket and not yet read. -/
def EventConnection.written (connection : EventConnection) : List Nat :=
  connection.socket.flatMap ControlMessage.seqs

namespace EventStream

/-- The numbers of the events the client has routed, in order. -/
def routedSeqs (sys : EventStream) : List Nat :=
  sys.routed.map EventEnvelope.seq

/-- What the connection has in its socket. -/
def inSocket (sys : EventStream) : List Nat :=
  (sys.connection.map EventConnection.written).getD []

/-- An event of a subscribed kind, published since the number `start`. -/
def Wanted (sys : EventStream) (start : Nat) (p : Publisher) : Prop :=
  p ∈ sys.bus.published ∧ start ≤ p.event.seq ∧ eventFilter.admits p.event = true

/-- The numbers in the queue of the subscription `id`. -/
def queued (sys : EventStream) (id : Nat) : List Nat :=
  ((sys.bus.streams id).map fun stream => stream.state.queue.map Event.seq).getD []

/-- The event `n` is in the socket, with the forwarder, in the queue, or still with its
publisher. -/
def OnItsWay (sys : EventStream) (connection : EventConnection) (id n : Nat) : Prop :=
  n ∈ connection.written ∨ n ∈ connection.taken.toList.map Event.seq ∨ n ∈ sys.queued id ∨
    ∃ p ∈ sys.bus.published, p.event.seq = n ∧ id ∈ p.remaining

/--
No event is routed twice; and over a connection with a subscription every event of a
subscribed kind since the first acknowledged one has been routed exactly once, unless it is
still on its way.
-/
structure Gapless (sys : EventStream) : Prop where
  atMostOnce : sys.routedSeqs.Nodup
  delivered : ∀ start connection id p, sys.firstSeq = some start →
    sys.connection = some connection → connection.subscription = some id → sys.Wanted start p →
      ¬ sys.OnItsWay connection id p.event.seq → sys.routedSeqs.count p.event.seq = 1

/-- The ring has kept the event of a publisher. -/
def Kept (inner : BusInner) (p : Publisher) : Prop :=
  ∃ encoded, ⟨p.event.name, p.event.seq, p.event.sessionId, encoded⟩ ∈ inner.ring

/-- The ring has evicted nothing and the connection's queue has not overflowed. -/
def Bounded (sys : EventStream) : Prop :=
  (∀ p ∈ sys.bus.published, Kept sys.bus.inner p) ∧
    ∀ id, sys.subscription = some id → ¬ sys.bus.Overflowing id

abbrev StreamTraceStep := Step EventStream StreamStep Unit

/--
The resume point is good.  A connection that drops has not routed an event past an earlier
one it has not routed, and a client that resubscribes has a resume point, or there is
nothing to resume.
-/
def Resumable (s : StreamTraceStep) : Prop :=
  ∀ start, s.before.firstSeq = some start →
    (s.event = .drop → ∀ p, s.before.Wanted start p → p.event.seq ∉ s.before.routedSeqs →
      s.before.lastSeq < p.event.seq) ∧
    (s.event = .subscribe → s.before.connection = none → s.before.lastSeq = 0 →
      ∀ p, ¬ s.before.Wanted start p)

/-! ### The invariant -/

/-- The connection's subscription, and what has come over it.  `earlier` was routed before,
and is at most `base`; `passed` was routed since. -/
structure Served (sys : EventStream) (connection : EventConnection) (id base : Nat)
    (earlier passed : List Nat) (replayed : List Event) (stream : Stream) : Prop where
  found : sys.bus.streams id = some stream
  seam : Seam (connection.startSeq - 1) replayed eventFilter id sys.bus stream
  split : sys.routedSeqs = earlier ++ passed
  received : stream.received.map Event.seq
    = passed ++ connection.written ++ connection.taken.toList.map Event.seq
  nodup : earlier.Nodup ∧ (replayed.map Event.seq).Nodup
  old : ∀ n ∈ earlier, n ≤ base
  started : base < connection.startSeq
  new : ∀ n ∈ replayed.map Event.seq, base < n
  /-- What was wanted when the subscription was made had been routed or was replayed. -/
  resumed : ∀ start, sys.firstSeq = some start → ∀ p, sys.Wanted start p →
    p.event.seq < connection.startSeq →
      p.event.seq ∈ earlier ∨ p.event.seq ∈ replayed.map Event.seq

structure Sound (sys : EventStream) : Prop where
  bus : WellFormed sys.bus
  fresh : (sys.routedSeqs ++ sys.inSocket).Nodup
  below : ∀ n ∈ sys.routedSeqs ++ sys.inSocket, n < sys.bus.inner.nextSeq
  last : (∀ n ∈ sys.routedSeqs, n ≤ sys.lastSeq) ∧ sys.lastSeq < sys.bus.inner.nextSeq
  served : ∀ connection id, sys.connection = some connection →
    connection.subscription = some id →
      ∃ base earlier passed replayed stream,
        Served sys connection id base earlier passed replayed stream
  /-- Between two connections everything not routed can still be replayed. -/
  resumable : sys.connection = none → ∀ start, sys.firstSeq = some start →
    ∀ p, sys.Wanted start p → p.event.seq ∉ sys.routedSeqs → sys.lastSeq < p.event.seq

/-! ### Steps of the bus -/

section

variable {json : JsonCodec} {sys : EventStream} {connection : EventConnection} {id base : Nat}
  {earlier passed : List Nat} {replayed : List Event} {stream : Stream}

/-- An event already numbered was already wanted. -/
theorem wanted_before (hsys : WellFormed sys.bus) {event : BusStep} {start : Nat} {p : Publisher}
    (h : Wanted { sys with bus := (sys.bus.step json event).1 } start p)
    (hseq : p.event.seq < sys.bus.inner.nextSeq) :
    ∃ q, sys.Wanted start q ∧ q.event = p.event := by
  obtain ⟨hp, hstart, hadmits⟩ := h
  obtain ⟨j, hj⟩ := List.getElem?_of_mem hp
  have hstamp := (hsys.step json event).stamped j p hj
  have hlen : j < sys.bus.published.length := by
    rw [hsys.nextSeq] at hseq
    omega
  obtain ⟨q, hq, hevent⟩ := published_before hsys hlen hj
  refine ⟨q, ⟨List.mem_of_getElem? hq, ?_, ?_⟩, hevent.symm⟩
  · rw [← hevent]
    exact hstart
  · rw [← hevent]
    exact hadmits

/-- Whatever was numbered before the subscription is in its books. -/
theorem Served.startSeq_le (hsys : WellFormed sys.bus)
    (h : Served sys connection id base earlier passed replayed stream) :
    connection.startSeq ≤ sys.bus.inner.nextSeq := by
  have := h.seam.grown
  rw [hsys.nextSeq]
  omega

theorem Served.step_bus (json : JsonCodec) (hsys : WellFormed sys.bus)
    (h : Served sys connection id base earlier passed replayed stream) (event : BusStep)
    (hclose : event ≠ .close id) (taken : Option Event)
    (hroom : ¬ (sys.bus.step json event).1.Overflowing id)
    (hreceived : ∀ next, (sys.bus.step json event).1.streams id = some next →
      next.received.map Event.seq = passed ++ connection.written ++ taken.toList.map Event.seq) :
    ∃ next, Served
      { sys with
        bus := (sys.bus.step json event).1
        connection := some { connection with taken := taken } }
      { connection with taken := taken } id base earlier passed replayed next := by
  obtain ⟨next, hnext, hseam⟩ := seam_step hsys h.found h.seam hclose hroom
  refine ⟨next,
    { found := hnext
      seam := hseam
      split := h.split
      received := hreceived next hnext
      nodup := h.nodup
      old := h.old
      started := h.started
      new := h.new
      resumed := ?_ }⟩
  intro start hfirst p hp hseq
  have hle := h.startSeq_le hsys
  obtain ⟨q, hq, hevent⟩ := wanted_before hsys hp (Nat.lt_of_lt_of_le hseq hle)
  rw [← hevent] at hseq ⊢
  exact h.resumed start hfirst q hq hseq

/-- A step of the bus that is not the connection's own. -/
theorem Sound.step_bus (h : Sound sys) {event : BusStep} (hown : ¬ sys.ownStep event = true)
    (hbounded : Bounded { sys with bus := (sys.bus.step json event).1 }) :
    Sound { sys with bus := (sys.bus.step json event).1 } := by
  have hnext := nextSeq_le_step json sys.bus event
  refine
    { bus := h.bus.step json event
      fresh := h.fresh
      below := fun n hn => Nat.lt_of_lt_of_le (h.below n hn) hnext
      last := ⟨h.last.1, Nat.lt_of_lt_of_le h.last.2 hnext⟩
      served := ?_
      resumable := ?_ }
  · intro connection id hconnection hid
    have hsubscription : sys.subscription = some id := by
      rw [subscription, show sys.connection = some connection from hconnection]
      exact hid
    obtain ⟨base, earlier, passed, replayed, stream, hserved⟩ := h.served connection id hconnection hid
    have hclose : event ≠ .close id := by
      rintro rfl
      exact hown (decide_eq_true hsubscription)
    have hrecv : event ≠ .tryRecv id := by
      rintro rfl
      exact hown (decide_eq_true hsubscription)
    obtain ⟨next, hkept⟩ := hserved.step_bus json h.bus event hclose connection.taken
      (hbounded.2 id hsubscription) (fun next hnext => by
        rw [received_step h.bus hserved.seam.registered hserved.found hrecv hnext]
        exact hserved.received)
    rw [show sys.connection = some connection from hconnection]
    exact ⟨base, earlier, passed, replayed, next, hkept⟩
  · intro hnone start hfirst p hp hnot
    by_cases hseq : p.event.seq < sys.bus.inner.nextSeq
    · obtain ⟨q, hq, hevent⟩ := wanted_before h.bus hp hseq
      rw [← hevent] at hnot ⊢
      exact h.resumable hnone start hfirst q hq hnot
    · -- a number just given out is beyond the resume point
      exact Nat.lt_of_lt_of_le h.last.2 (Nat.not_lt.mp hseq)

/-! ### Steps of the connection -/

theorem Served.fresh (hsys : WellFormed sys.bus)
    (h : Served sys connection id base earlier passed replayed stream) :
    (earlier ++ stream.seen.map Event.seq).Nodup := by
  refine List.nodup_append.mpr ⟨h.nodup.1, h.seam.nodup_seen hsys h.nodup.2, ?_⟩
  intro n hn m hm
  have hle : base ≤ connection.startSeq - 1 := by
    have := h.started
    omega
  have hold := h.old n hn
  have hnew := h.seam.lt_seen hsys hle h.new hm
  omega

theorem front_eq (hstream : sys.bus.streams id = some stream) :
    sys.front id = stream.state.tryRecv.1 := by
  rw [front, hstream]
  rfl

theorem Sound.receive (json : JsonCodec) (h : Sound sys) (hconnection : sys.connection = some connection)
    (hid : connection.subscription = some id) (htaken : connection.taken = none)
    (hbounded : Bounded
      { sys with
        bus := sys.bus.updateStream id Stream.tryRecv
        connection := some { connection with taken := sys.front id } }) :
    Sound
      { sys with
        bus := sys.bus.updateStream id Stream.tryRecv
        connection := some { connection with taken := sys.front id } } := by
  obtain ⟨base, earlier, passed, replayed, stream, hserved⟩ := h.served connection id hconnection hid
  have hfresh := h.fresh
  have hbelow := h.below
  rw [inSocket, hconnection] at hfresh hbelow
  refine
    { bus := h.bus.updateStream id Stream.tryRecv
      fresh := hfresh
      below := hbelow
      last := h.last
      served := ?_
      resumable := fun hnone => by cases hnone }
  intro connection' id' hconnection' hid'
  obtain rfl := Option.some.inj hconnection'
  obtain rfl : id = id' := Option.some.inj (hid.symm.trans hid')
  obtain ⟨next, hkept⟩ := hserved.step_bus json h.bus (.tryRecv id) (by simp) (sys.front id)
    (hbounded.2 id hid) (fun next hnext => by
      have hrecv : next = stream.tryRecv := by
        have hself := sys.bus.updateStream_self id Stream.tryRecv
        rw [hserved.found] at hself
        exact Option.some.inj (hnext.symm.trans hself)
      have hreceived := hserved.received
      rw [htaken] at hreceived
      rw [hrecv, Stream.tryRecv, hserved.seam.isOpen, front_eq hserved.found]
      simp only [Bool.false_eq_true, if_false, List.map_append, hreceived]
      simp)
  exact ⟨base, earlier, passed, replayed, next, hkept⟩

theorem written_append (connection : EventConnection) (message : ControlMessage) :
    { connection with socket := connection.socket ++ [message] }.written
      = connection.written ++ message.seqs := by
  simp [EventConnection.written]

/-- Frames move along the connection: the bus is left alone, and what has been routed and
written is as before, or longer by the event the forwarder held. -/
theorem Served.transport {next : EventStream} {connection' : EventConnection}
    {passed' : List Nat} (h : Served sys connection id base earlier passed replayed stream)
    (hbus : next.bus = sys.bus) (hstart : connection'.startSeq = connection.startSeq)
    (hsplit : next.routedSeqs = earlier ++ passed')
    (hfirst : ∀ start, next.firstSeq = some start →
      sys.firstSeq = some start ∨ start = connection.startSeq)
    (hreceived : passed' ++ connection'.written ++ connection'.taken.toList.map Event.seq
      = passed ++ connection.written ++ connection.taken.toList.map Event.seq) :
    Served next connection' id base earlier passed' replayed stream := by
  refine
    { found := by rw [hbus]; exact h.found
      seam := by rw [hbus, hstart]; exact h.seam
      split := hsplit
      received := by rw [hreceived]; exact h.received
      nodup := h.nodup
      old := h.old
      started := by rw [hstart]; exact h.started
      new := h.new
      resumed := ?_ }
  intro start hset p hp hseq
  rw [hstart] at hseq
  have hp' : sys.Wanted start p := by
    rw [Wanted, ← hbus]
    exact hp
  rcases hfirst start hset with hset | rfl
  · exact h.resumed start hset p hp' hseq
  · -- nothing wanted is older than the subscription just acknowledged
    exact absurd hp.2.1 (Nat.not_le.mpr hseq)

theorem Sound.write (h : Sound sys) (hconnection : sys.connection = some connection)
    (hid : connection.subscription = some id) {event : Event}
    (htaken : connection.taken = some event) :
    Sound
      { sys with
        connection := some
          { connection with
            taken := none
            socket := connection.socket ++ [eventFrame event] } } := by
  obtain ⟨base, earlier, passed, replayed, stream, hserved⟩ := h.served connection id hconnection hid
  have hreceived := hserved.received
  rw [htaken] at hreceived
  have hall : sys.routedSeqs ++ (connection.written ++ [event.seq])
      = earlier ++ stream.received.map Event.seq := by
    rw [hserved.split, hreceived]
    simp
  have hsocket : EventStream.inSocket
      { sys with
        connection := some
          { connection with
            taken := none
            socket := connection.socket ++ [eventFrame event] } }
      = connection.written ++ [event.seq] :=
    written_append { connection with taken := none } (eventFrame event)
  have hseen : stream.seen.map Event.seq
      = stream.received.map Event.seq ++ stream.state.queue.map Event.seq := by
    simp [Stream.seen]
  refine
    { bus := h.bus
      fresh := ?_
      below := ?_
      last := h.last
      served := ?_
      resumable := fun hnone => by cases hnone }
  · show (sys.routedSeqs ++ _).Nodup
    rw [hsocket, hall]
    refine (hserved.fresh h.bus).sublist ((List.Sublist.refl _).append ?_)
    rw [hseen]
    exact List.sublist_append_left _ _
  · intro n hn
    change n ∈ sys.routedSeqs ++ _ at hn
    rw [hsocket, ← List.append_assoc] at hn
    rcases List.mem_append.mp hn with hn | hn
    · exact h.below n (by rw [inSocket, hconnection]; exact hn)
    · refine hserved.seam.seen_lt ?_
      rw [hseen, hreceived]
      simp only [List.mem_append]
      exact Or.inl (Or.inr (by simpa using hn))
  · intro connection' id' hconnection' hid'
    obtain rfl := Option.some.inj hconnection'
    obtain rfl : id = id' := Option.some.inj (hid.symm.trans hid')
    refine ⟨base, earlier, passed, replayed, stream,
      hserved.transport rfl rfl hserved.split (fun _ hset => Or.inl hset) ?_⟩
    rw [show EventConnection.written _ = _ from hsocket, htaken]
    simp

/-- The answer is no event. -/
theorem Sound.answer (h : Sound sys) (hconnection : sys.connection = some connection) :
    Sound
      { sys with
        connection := some
          { connection with
            answered := true
            socket := connection.socket ++ [.subscribed] } } := by
  have hwritten : EventConnection.written
      { connection with answered := true, socket := connection.socket ++ [.subscribed] }
      = connection.written :=
    (written_append { connection with answered := true } .subscribed).trans (List.append_nil _)
  have hsocket : EventStream.inSocket
      { sys with
        connection := some
          { connection with
            answered := true
            socket := connection.socket ++ [.subscribed] } } = sys.inSocket := by
    rw [inSocket, inSocket, hconnection]
    exact hwritten
  refine
    { bus := h.bus
      fresh := by rw [hsocket]; exact h.fresh
      below := by rw [hsocket]; exact h.below
      last := h.last
      served := ?_
      resumable := fun hnone => by cases hnone }
  intro connection' id hconnection' hid
  obtain rfl := Option.some.inj hconnection'
  obtain ⟨base, earlier, passed, replayed, stream, hserved⟩ := h.served connection id hconnection hid
  refine ⟨base, earlier, passed, replayed, stream,
    hserved.transport rfl rfl hserved.split (fun _ hset => Or.inl hset) ?_⟩
  rw [hwritten]

theorem Sound.route (h : Sound sys) (hconnection : sys.connection = some connection)
    {message : ControlMessage} {rest : List ControlMessage}
    (hsocket : connection.socket = message :: rest) :
    Sound (routeMessage { sys with connection := some { connection with socket := rest } }
      connection.startSeq message) := by
  have hwritten : connection.written
      = message.seqs ++ EventConnection.written { connection with socket := rest } := by
    rw [EventConnection.written, hsocket]
    rfl
  have hfresh := h.fresh
  have hbelow := h.below
  rw [inSocket, hconnection] at hfresh hbelow
  change (sys.routedSeqs ++ connection.written).Nodup at hfresh
  change ∀ n ∈ sys.routedSeqs ++ connection.written, n < _ at hbelow
  rw [hwritten, ← List.append_assoc] at hfresh hbelow
  have hreceived : ∀ passed, passed ++ message.seqs
      ++ EventConnection.written { connection with socket := rest }
        ++ connection.taken.toList.map Event.seq
      = passed ++ connection.written ++ connection.taken.toList.map Event.seq := by
    intro passed
    rw [hwritten, List.append_assoc passed]
  cases message with
  | event name seq params =>
    have hrouted : EventStream.routedSeqs (routeMessage
        { sys with connection := some { connection with socket := rest } }
        connection.startSeq (.event name seq params)) = sys.routedSeqs ++ [seq] := by
      simp [EventStream.routedSeqs, routeMessage]
    refine
      { bus := h.bus
        fresh := by rw [hrouted]; exact hfresh
        below := by rw [hrouted]; exact hbelow
        last := ⟨?_, ?_⟩
        served := ?_
        resumable := fun hnone => by cases hnone }
    · intro n hn
      rw [hrouted] at hn
      rcases List.mem_append.mp hn with hn | hn
      · exact Nat.le_trans (h.last.1 n hn) (Nat.le_max_left _ _)
      · rw [List.mem_singleton.mp hn]
        exact Nat.le_max_right _ _
    · refine Nat.max_lt.mpr ⟨h.last.2, hbelow seq ?_⟩
      simp [ControlMessage.seqs]
    · intro connection' id hconnection' hid
      obtain rfl := Option.some.inj hconnection'
      obtain ⟨base, earlier, passed, replayed, stream, hserved⟩ :=
        h.served connection id hconnection hid
      refine ⟨base, earlier, passed ++ [seq], replayed, stream,
        hserved.transport rfl rfl ?_ (fun _ hset => Or.inl hset) (hreceived passed)⟩
      rw [hrouted, hserved.split, List.append_assoc]
  | subscribed =>
    rw [show ControlMessage.seqs .subscribed = [] from rfl, List.append_nil] at hfresh hbelow
    refine
      { bus := h.bus
        fresh := hfresh
        below := hbelow
        last := h.last
        served := ?_
        resumable := fun hnone => by cases hnone }
    intro connection' id hconnection' hid
    obtain rfl := Option.some.inj hconnection'
    obtain ⟨base, earlier, passed, replayed, stream, hserved⟩ :=
      h.served connection id hconnection hid
    refine ⟨base, earlier, passed, replayed, stream,
      hserved.transport rfl rfl hserved.split ?_ ?_⟩
    · intro start hset
      change sys.firstSeq.or (some connection.startSeq) = some start at hset
      cases hfirst : sys.firstSeq with
      | none =>
        rw [hfirst] at hset
        exact Or.inr (Option.some.inj hset).symm
      | some first =>
        rw [hfirst] at hset
        exact Or.inl hset
    · have := hreceived passed
      rwa [show ControlMessage.seqs .subscribed = [] from rfl, List.append_nil] at this

/-- A connection whose subscription has ended only has its socket left. -/
theorem Sound.hangUp (h : Sound sys) (hconnection : sys.connection = some connection) :
    Sound
      { sys with
        bus := sys.bus.updateStream id Stream.close
        connection := some { connection with subscription := none, taken := none } } := by
  have hfresh := h.fresh
  have hbelow := h.below
  rw [inSocket, hconnection] at hfresh hbelow
  refine
    { bus := h.bus.updateStream id Stream.close
      fresh := hfresh
      below := hbelow
      last := h.last
      served := ?_
      resumable := fun hnone => by cases hnone }
  intro connection' id' hconnection' hid'
  rw [← Option.some.inj hconnection'] at hid'
  cases hid'

theorem Sound.drop (h : Sound sys)
    (hresumable : ∀ start, sys.firstSeq = some start → ∀ p, sys.Wanted start p →
      p.event.seq ∉ sys.routedSeqs → sys.lastSeq < p.event.seq) :
    Sound { sys with connection := none } := by
  refine
    { bus := h.bus
      fresh := ?_
      below := ?_
      last := h.last
      served := fun _ _ hnone => by cases hnone
      resumable := fun _ => hresumable }
  · show (sys.routedSeqs ++ []).Nodup
    rw [List.append_nil]
    exact (List.nodup_append.mp h.fresh).1
  · intro n hn
    change n ∈ sys.routedSeqs ++ [] at hn
    rw [List.append_nil] at hn
    exact h.below n (List.mem_append_left _ hn)

/-! ### Resuming -/

/-- The replay after the resume point holds only newer events, each once. -/
theorem replay_after (json : JsonCodec) (hsys : WellFormed sys.bus) :
    (((EventBus.replay json sys.bus.inner sys.sinceSeq).filter eventFilter.admits).map
      Event.seq).Nodup ∧
    ∀ n ∈ ((EventBus.replay json sys.bus.inner sys.sinceSeq).filter eventFilter.admits).map
      Event.seq, sys.lastSeq < n := by
  refine ⟨?_, ?_⟩
  · exact (hsys.ring.imp (fun hlt => Nat.ne_of_lt hlt)).sublist
      ((List.filter_sublist.map Event.seq).trans (EventBus.replay_seqs json _ _))
  · intro n hn
    obtain ⟨event, hevent, rfl⟩ := List.mem_map.mp hn
    have hmem := (List.mem_filter.mp hevent).1
    by_cases hzero : sys.lastSeq ≠ 0
    · rw [sinceSeq, if_pos hzero] at hmem
      obtain ⟨archived, -, hlt, rfl⟩ := mem_replay.mp hmem
      exact hlt
    · rw [sinceSeq, if_neg hzero] at hmem
      exact absurd hmem List.not_mem_nil

/-- A kept event beyond the resume point is replayed. -/
theorem mem_replay_of_kept {p : Publisher} (hkept : Kept sys.bus.inner p)
    (hadmits : eventFilter.admits p.event = true) (hzero : sys.lastSeq ≠ 0)
    (hlast : sys.lastSeq < p.event.seq) :
    p.event.seq ∈ ((EventBus.replay json sys.bus.inner sys.sinceSeq).filter
      eventFilter.admits).map Event.seq := by
  obtain ⟨encoded, hring⟩ := hkept
  rw [sinceSeq, if_pos hzero]
  refine List.mem_map.mpr ⟨_, List.mem_filter.mpr ⟨mem_replay.mpr ⟨_, hring, hlast, rfl⟩, ?_⟩, rfl⟩
  exact hadmits

theorem Sound.subscribe (h : Sound sys) (hnone : sys.connection = none)
    (hbounded : Bounded (sys.subscribe json))
    (hzero : ∀ start, sys.firstSeq = some start → sys.lastSeq = 0 → ∀ p, ¬ sys.Wanted start p) :
    Sound (sys.subscribe json) := by
  have hsocket : sys.inSocket = [] := by
    rw [inSocket, hnone]
    rfl
  have hfresh := h.fresh
  have hbelow := h.below
  rw [hsocket] at hfresh hbelow
  refine
    { bus := h.bus.subscribe json sys.sinceSeq eventFilter
      fresh := hfresh
      below := hbelow
      last := h.last
      served := ?_
      resumable := fun hnone => by cases hnone }
  intro connection id hconnection hid
  obtain rfl := Option.some.inj hconnection
  obtain rfl : sys.bus.inner.nextSubscriber = id := Option.some.inj hid
  obtain ⟨stream, hstream, hseam⟩ := seam_subscribe h.bus
    (hbounded.2 sys.bus.inner.nextSubscriber rfl)
  have hlen : sys.bus.inner.nextSeq - 1 = sys.bus.published.length := by
    rw [h.bus.nextSeq]
    omega
  have hempty : stream.received = [] := by
    have hmade := hstream
    simp only [BusSystem.subscribe, Function.update_self, Option.some.injEq] at hmade
    rw [← hmade]
  obtain ⟨hnodup, hnew⟩ := replay_after json h.bus
  refine ⟨sys.lastSeq, sys.routedSeqs, [], _, stream,
    { found := hstream
      seam := by rw [hlen]; exact hseam
      split := (List.append_nil _).symm
      received := by rw [hempty]; rfl
      nodup := ⟨(List.nodup_append.mp hfresh).1, hnodup⟩
      old := h.last.1
      started := h.last.2
      new := hnew
      resumed := ?_ }⟩
  intro start hfirst p hp _
  by_cases hrouted : p.event.seq ∈ sys.routedSeqs
  · exact Or.inl hrouted
  · have hlast := h.resumable hnone start hfirst p hp hrouted
    refine Or.inr (mem_replay_of_kept (hbounded.1 p hp.1) hp.2.2 ?_ hlast)
    intro hz
    exact hzero start hfirst hz p hp

/-! ### Every step -/

theorem Sound.step_connection (h : Sound sys) (hconnection : sys.connection = some connection)
    (event : StreamStep) (hbounded : Bounded (sys.connectionStep json connection event))
    (hresumable : event = .drop → ∀ start, sys.firstSeq = some start → ∀ p,
      sys.Wanted start p → p.event.seq ∉ sys.routedSeqs → sys.lastSeq < p.event.seq) :
    Sound (sys.connectionStep json connection event) := by
  cases event with
  | bus step =>
    by_cases hown : sys.ownStep step = true
    · rw [connectionStep, if_pos hown]
      exact h
    · rw [connectionStep, if_neg hown] at hbounded ⊢
      exact h.step_bus hown hbounded
  | subscribe => exact h
  | receive =>
    rw [connectionStep] at hbounded ⊢
    split at hbounded
    · next id hid htaken => exact h.receive json hconnection hid htaken hbounded
    · exact h
  | write =>
    rw [connectionStep]
    split
    · next id event hid htaken => exact h.write hconnection hid htaken
    · exact h
  | answer =>
    rw [connectionStep]
    split
    · exact h
    · exact h.answer hconnection
  | route =>
    rw [connectionStep]
    split
    · exact h
    · next message rest hsocket => exact h.route hconnection hsocket
  | hangUp =>
    rw [connectionStep]
    split
    · exact h.hangUp hconnection
    · exact h
  | drop => exact h.drop (hresumable rfl)

theorem Sound.step (h : Sound sys) {event : StreamStep} (hbounded : Bounded (sys.step json event).1)
    (hresumable : Resumable (take (EventStream.step json) sys event)) :
    Sound (sys.step json event).1 := by
  cases hconnection : sys.connection with
  | some connection =>
    have hstep : sys.step json event = (sys.connectionStep json connection event, ()) := by
      simp only [EventStream.step, hconnection]
    rw [hstep] at hbounded ⊢
    exact h.step_connection hconnection event hbounded
      (fun hdrop start hfirst => (hresumable start hfirst).1 hdrop)
  | none =>
    cases event with
    | bus step =>
      have hstep : sys.step json (.bus step)
          = ({ sys with bus := (sys.bus.step json step).1 }, ()) := by
        simp only [EventStream.step, hconnection]
      have hown : ¬ sys.ownStep step = true := by
        have hnone : sys.subscription = none := by
          rw [subscription, hconnection]
          rfl
        cases step <;> simp [ownStep, hnone]
      rw [hstep] at hbounded ⊢
      exact h.step_bus hown hbounded
    | subscribe =>
      have hstep : sys.step json .subscribe = (sys.subscribe json, ()) := by
        simp only [EventStream.step, hconnection]
      rw [hstep] at hbounded ⊢
      exact h.subscribe hconnection hbounded
        (fun start hfirst hzero => (hresumable start hfirst).2 rfl hconnection hzero)
    | receive | write | answer | route | hangUp | drop =>
      simp only [EventStream.step, hconnection]
      exact h

theorem sound_new (bus : EventBus) : Sound (new bus) :=
  { bus := wellFormed_new bus
    fresh := List.nodup_nil
    below := fun _ hn => absurd hn List.not_mem_nil
    last := ⟨fun _ hn => absurd hn List.not_mem_nil, Nat.one_pos⟩
    served := fun _ _ hnone => by cases hnone
    resumable := fun _ _ hnone => by cases hnone }

/-- What the books of a connection say of every event. -/
theorem Served.delivered (hsys : WellFormed sys.bus)
    (h : Served sys connection id base earlier passed replayed stream) {start : Nat}
    {p : Publisher} (hfirst : sys.firstSeq = some start) (hp : sys.Wanted start p) :
    p.event.seq ∈ sys.routedSeqs ∨ sys.OnItsWay connection id p.event.seq := by
  -- routed before, or on its way, or come over this connection
  have harrived : p.event.seq ∈ stream.seen.map Event.seq →
      p.event.seq ∈ sys.routedSeqs ∨ sys.OnItsWay connection id p.event.seq := by
    intro hseen
    rw [Stream.seen, List.map_append, h.received] at hseen
    simp only [List.mem_append] at hseen
    rcases hseen with ((hpassed | hwritten) | htaken) | hqueue
    · refine Or.inl ?_
      rw [h.split]
      exact List.mem_append_right _ hpassed
    · exact Or.inr (Or.inl hwritten)
    · exact Or.inr (Or.inr (Or.inl htaken))
    · refine Or.inr (Or.inr (Or.inr (Or.inl ?_)))
      rw [queued, h.found]
      exact hqueue
  obtain ⟨j, hj⟩ := List.getElem?_of_mem hp.1
  have hstamp := hsys.stamped j p hj
  by_cases hearly : p.event.seq < connection.startSeq
  · rcases h.resumed start hfirst p hp hearly with hrouted | hreplayed
    · refine Or.inl ?_
      rw [h.split]
      exact List.mem_append_left _ hrouted
    · refine harrived (List.count_pos_iff.mp ?_)
      show 0 < stream.arrivals p.event.seq
      rw [h.seam.early _ (by omega)]
      exact List.count_pos_iff.mpr hreplayed
  · by_cases hheld : id ∈ p.remaining
    · exact Or.inr (Or.inr (Or.inr (Or.inr ⟨p, hp.1, rfl, hheld⟩)))
    · refine harrived (List.count_pos_iff.mp ?_)
      show 0 < stream.arrivals p.event.seq
      rw [hstamp, h.seam.live j p (by omega) hj, if_pos ⟨hp.2.2, hheld⟩]
      exact Nat.one_pos

theorem Sound.gapless (h : Sound sys) : Gapless sys := by
  have hnodup := (List.nodup_append.mp h.fresh).1
  refine ⟨hnodup, ?_⟩
  intro start connection id p hfirst hconnection hid hp hway
  obtain ⟨base, earlier, passed, replayed, stream, hserved⟩ := h.served connection id hconnection hid
  rcases hserved.delivered h.bus hfirst hp with hrouted | hon
  · exact List.count_eq_one_of_mem hnodup hrouted
  · exact absurd hon hway

end

/-- **A good resume point makes the stream gapless.** In every run whose steps neither evict
from the ring nor overflow the connection's queue, and whose drops and resubscriptions are
resumable, the client routes no event twice, and every event of a subscribed kind since its
first acknowledged subscription exactly once, across all reconnects. -/
theorem event_stream_gapless {json : JsonCodec} {bus : EventBus} {steps : List StreamStep}
    (hbounded : ∀ s ∈ trace (step json) (new bus) steps, s.after.Bounded)
    (hresumable : ∀ s ∈ trace (step json) (new bus) steps, Resumable s) :
    Gapless (after json bus steps) := by
  have hall : ∀ s ∈ trace (step json) (new bus) steps, s.after.Bounded ∧ Resumable s :=
    fun s hs => ⟨hbounded s hs, hresumable s hs⟩
  have hsound : Sound (after json bus steps) :=
    run_invariant_where (step json) hall (sound_new bus)
      (fun sys event hstep hsys => hsys.step hstep.1 hstep.2)
  exact hsound.gapless

/-! ### Runs -/

instance (inner : BusInner) (p : Publisher) : Decidable (Kept inner p) :=
  decidable_of_iff (∃ archived ∈ inner.ring, archived.name = p.event.name ∧
      archived.seq = p.event.seq ∧ archived.sessionId = p.event.sessionId) <| by
    constructor
    · rintro ⟨⟨name, seq, sessionId, encoded⟩, hring, rfl, rfl, rfl⟩
      exact ⟨encoded, hring⟩
    · rintro ⟨encoded, hring⟩
      exact ⟨_, hring, rfl, rfl, rfl⟩

instance (sys : BusSystem) (id : Nat) : Decidable (sys.Overflowing id) :=
  decidable_of_iff (∃ stream ∈ sys.streams id, stream.state.dropped ≠ 0) <| by
    simp [BusSystem.Overflowing]

instance (sys : EventStream) : Decidable (Bounded sys) :=
  decidable_of_iff ((∀ p ∈ sys.bus.published, Kept sys.bus.inner p) ∧
      ∀ id ∈ sys.subscription, ¬ sys.bus.Overflowing id) <| by
    simp [Bounded]

instance (event : StreamStep) : Decidable (event = .drop) :=
  match event with
  | .drop => isTrue rfl
  | .bus _ | .subscribe | .receive | .write | .answer | .route | .hangUp => isFalse (by simp)

instance (event : StreamStep) : Decidable (event = .subscribe) :=
  match event with
  | .subscribe => isTrue rfl
  | .bus _ | .drop | .receive | .write | .answer | .route | .hangUp => isFalse (by simp)

instance (sys : EventStream) (start : Nat) (P : Publisher → Prop) [DecidablePred P] :
    Decidable (∀ p, sys.Wanted start p → P p) :=
  decidable_of_iff (∀ p ∈ sys.bus.published, start ≤ p.event.seq →
      eventFilter.admits p.event = true → P p) <| by
    simp [Wanted]

instance (s : StreamTraceStep) : Decidable (Resumable s) :=
  decidable_of_iff (∀ start ∈ s.before.firstSeq,
      (s.event = .drop → ∀ p, s.before.Wanted start p →
        (p.event.seq ∉ s.before.routedSeqs → s.before.lastSeq < p.event.seq)) ∧
      (s.event = .subscribe → s.before.connection.isNone → s.before.lastSeq = 0 →
        ∀ p, s.before.Wanted start p → False)) <| by
    simp [Resumable]

/-- The run of a client that subscribes and reads the answer. -/
def opening : List StreamStep := [.subscribe, .answer, .route]

/-- A publisher stamps an event of a subscribed kind. -/
def published : StreamStep := .bus (.stamp "session.updated" (.object []) none)

/-- One event is routed and another published while the client is away. -/
theorem event_stream_gapless_reconnect :
    Gapless (after emptyObjectJson (EventBus.withCapacities 4096 (8 <<< 20) none)
      (opening ++ [published, .bus (.push 0 0), .receive, .write, .route, .drop, published,
        .subscribe, .receive, .write, .route])) :=
  event_stream_gapless (by decide) (by decide)

/-- Event 2 is pushed past event 1 and routed, and the connection drops. -/
def overtaken : List StreamStep :=
  opening ++ [published, published, .bus (.push 1 0), .receive, .write, .route, .drop, .subscribe]

/-- The connection drops before the first event has been routed. -/
def unread : List StreamStep :=
  opening ++ [published, .bus (.push 0 0), .drop, .subscribe]

instance (sys : EventStream) (connection : EventConnection) (id n : Nat) :
    Decidable (sys.OnItsWay connection id n) :=
  inferInstanceAs (Decidable (_ ∨ _))

/-- The steps stay within the bounds of the code, and an event is lost at their end. -/
def LosesEvent (steps : List StreamStep) : Prop :=
  (∀ s ∈ trace (step emptyObjectJson) (new (EventBus.withCapacities 4096 (8 <<< 20) none)) steps,
    s.after.Bounded) ∧
  ¬ Gapless (after emptyObjectJson (EventBus.withCapacities 4096 (8 <<< 20) none) steps)

/-- In both runs event 1 is neither routed nor on its way, and no later resume point asks
for it. -/
theorem resume_point_skips_event : LosesEvent overtaken ∧ LosesEvent unread := by
  have hadmits : eventFilter.admits ⟨"session.updated", 1, none, .object []⟩ = true := by
    decide
  constructor
  · refine ⟨by decide, fun h => ?_⟩
    have hrouted := h.delivered 1 ⟨some 1, 3, none, false, []⟩ 1
      ⟨⟨"session.updated", 1, none, .object []⟩, [0]⟩ rfl rfl rfl
      ⟨List.mem_cons_self, Nat.le_refl _, hadmits⟩ (by decide)
    revert hrouted
    decide
  · refine ⟨by decide, fun h => ?_⟩
    have hrouted := h.delivered 1 ⟨some 1, 2, none, false, []⟩ 1
      ⟨⟨"session.updated", 1, none, .object []⟩, []⟩ rfl rfl rfl
      ⟨List.mem_cons_self, Nat.le_refl _, hadmits⟩ (by decide)
    revert hrouted
    decide

end EventStream

end Homie.Client
