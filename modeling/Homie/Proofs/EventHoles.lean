/-
The accounting of a bounded subscriber queue.

Every event offered to a queue is delivered, queued, waiting in the drop counter for the
next marker, or in the hole of one marker.  `Ledger` names the numbers in the last two
places: `pending`, which the counter and the two remembered numbers describe, and one
hole for each marker seen.

A push into a full queue moves the front into `pending`.  The books balance as long as
that front is an event.  It can be a marker: announcing a hole puts two entries into the
queue where there was room for one, and a subscriber that falls behind again leaves the
marker at the front.
-/
import Homie.Proofs.EventBus

namespace Homie.Events

open Trace

/-- The hole markers of a list of events. -/
def markers (events : List Event) : List Event :=
  events.filter fun event => event.seq = 0

/-- `marker` announces the events numbered `hole`: how many, the first and the last. -/
def MarksHole (marker : Event) (hole : List Nat) : Prop :=
  ∃ fromSeq toSeq, hole.head? = some fromSeq ∧ hole.getLast? = some toSeq ∧
    hole.Pairwise (· < ·) ∧ marker = Event.marker hole.length fromSeq toSeq

/--
Each of the events numbered `offered` is in exactly one place: seen, in the drop counter,
or in the hole of one marker seen.
-/
def Accounted (offered : List Nat) (stream : Stream) : Prop :=
  offered.Nodup ∧ ∃ pending holes, pending.length = stream.state.dropped ∧
    List.Forall₂ MarksHole (markers stream.seen) holes ∧
    offered.Perm (numbers stream.seen ++ pending ++ holes.flatten)

/-- The accounts of a stream with what its queue remembers of the pending hole. -/
structure Ledger (offered : List Nat) (stream : Stream) (pending : List Nat)
    (holes : List (List Nat)) : Prop where
  counted : pending.length = stream.state.dropped
  first : stream.state.dropped ≠ 0 → pending.head? = some stream.state.firstDroppedSeq
  last : stream.state.dropped ≠ 0 → pending.getLast? = some stream.state.lastDroppedSeq
  /-- What was evicted was older than what is queued. -/
  ordered : (pending ++ numbers stream.state.queue).Pairwise (· < ·)
  marked : List.Forall₂ MarksHole (markers stream.seen) holes
  balanced : offered.Perm (numbers stream.seen ++ pending ++ holes.flatten)

theorem ledger_new (filter : Filter) (capacity : Nat) :
    Ledger [] ⟨QueueState.new filter capacity, []⟩ [] [] := by
  refine ⟨rfl, fun h => absurd rfl h, fun h => absurd rfl h, ?_, List.Forall₂.nil, ?_⟩
  · exact List.Pairwise.nil
  · exact List.Perm.refl _

namespace Ledger

variable {offered pending : List Nat} {holes : List (List Nat)} {stream : Stream} {event : Event}

/-- Pending and queued events were offered, so a newer event is later than all of them. -/
theorem lt_newer (h : Ledger offered stream pending holes)
    (hnew : ∀ n ∈ offered, n < event.seq) :
    ∀ n ∈ pending ++ numbers stream.state.queue, n < event.seq := by
  intro n hn
  refine hnew n (h.balanced.mem_iff.mpr ?_)
  simp only [Stream.seen, numbers_append, List.mem_append] at hn ⊢
  tauto

/-- A push that evicts the event at the front. -/
theorem evict {evicted : Event} {rest : List Event} (h : Ledger offered stream pending holes)
    (hqueue : stream.state.queue = evicted :: rest) (hevent : event.seq ≠ 0)
    (hnew : ∀ n ∈ offered, n < event.seq) (hfront : evicted.seq ≠ 0) :
    Ledger (offered ++ [event.seq])
      ⟨{ stream.state with
          queue := rest ++ [event]
          firstDroppedSeq :=
            if stream.state.dropped = 0 then evicted.seq else stream.state.firstDroppedSeq
          lastDroppedSeq := evicted.seq
          dropped := stream.state.dropped + 1 }, stream.received⟩
      (pending ++ [evicted.seq]) holes := by
  have hcons : numbers (evicted :: rest) = evicted.seq :: numbers rest := by
    simp [numbers, hfront]
  have hlt := h.lt_newer hnew
  have hord := h.ordered
  rw [hqueue, hcons] at hlt hord
  refine ⟨by simp [h.counted], fun _ => ?_, fun _ => by simp, ?_, ?_, ?_⟩
  · by_cases hzero : stream.state.dropped = 0
    · obtain rfl : pending = [] := List.length_eq_zero_iff.mp (h.counted.trans hzero)
      simp [hzero]
    · simp [hzero, h.first hzero]
  · show (pending ++ [evicted.seq] ++ numbers (rest ++ [event])).Pairwise (· < ·)
    rw [numbers_append, numbers_published hevent, ← List.append_assoc]
    have heq : pending ++ [evicted.seq] ++ numbers rest = pending ++ evicted.seq :: numbers rest := by
      simp
    rw [heq]
    refine List.pairwise_append.mpr ⟨hord, by simp, ?_⟩
    intro n hn m hm
    rw [List.mem_singleton.mp hm]
    exact hlt n hn
  · have heq : markers (stream.received ++ (rest ++ [event])) = markers stream.seen := by
      rw [Stream.seen, hqueue]
      simp [markers, hevent, hfront]
    exact heq ▸ h.marked
  · refine List.perm_iff_count.mpr fun n => ?_
    have hcount := List.perm_iff_count.mp h.balanced n
    rw [Stream.seen, hqueue] at hcount
    simp only [Stream.seen, numbers_append, hcons, numbers_published hevent, List.count_append,
      List.count_cons, List.count_nil] at hcount ⊢
    omega

/-- A push into a queue with room, after a hole: the marker takes the pending events over. -/
theorem announce (h : Ledger offered stream pending holes) (hpos : 0 < stream.state.dropped)
    (hevent : event.seq ≠ 0) (hnew : ∀ n ∈ offered, n < event.seq) :
    Ledger (offered ++ [event.seq])
      ⟨{ stream.state with
          queue := stream.state.queue ++
            [Event.marker stream.state.dropped stream.state.firstDroppedSeq
              stream.state.lastDroppedSeq] ++ [event]
          dropped := 0 }, stream.received⟩
      [] (holes ++ [pending]) := by
  have hne : stream.state.dropped ≠ 0 := by omega
  refine ⟨rfl, fun hzero => absurd rfl hzero, fun hzero => absurd rfl hzero, ?_, ?_, ?_⟩
  · show (numbers (stream.state.queue ++ [Event.marker _ _ _] ++ [event])).Pairwise (· < ·)
    rw [numbers_append, numbers_append, numbers_marker, List.append_nil,
      numbers_published hevent]
    refine List.pairwise_append.mpr ⟨(List.pairwise_append.mp h.ordered).2.1, by simp, ?_⟩
    intro n hn m hm
    rw [List.mem_singleton.mp hm]
    exact h.lt_newer hnew n (List.mem_append_right _ hn)
  · have heq : markers (Stream.seen
        ⟨{ stream.state with
            queue := stream.state.queue ++
              [Event.marker stream.state.dropped stream.state.firstDroppedSeq
                stream.state.lastDroppedSeq] ++ [event]
            dropped := 0 }, stream.received⟩)
        = markers stream.seen ++ [Event.marker stream.state.dropped stream.state.firstDroppedSeq
            stream.state.lastDroppedSeq] := by
      simp [Stream.seen, markers, hevent, Event.marker]
    rw [heq]
    refine List.rel_append h.marked (List.Forall₂.cons ?_ List.Forall₂.nil)
    refine ⟨_, _, h.first hne, h.last hne, (List.pairwise_append.mp h.ordered).1, ?_⟩
    rw [h.counted]
  · refine List.perm_iff_count.mpr fun n => ?_
    have hcount := List.perm_iff_count.mp h.balanced n
    simp only [Stream.seen, numbers_append, numbers_marker,
      numbers_published hevent, List.count_append, List.flatten_append, List.flatten_cons,
      List.flatten_nil, List.append_nil] at hcount ⊢
    omega

/-- A push that only appends. -/
theorem append (h : Ledger offered stream pending holes) (hevent : event.seq ≠ 0)
    (hnew : ∀ n ∈ offered, n < event.seq) :
    Ledger (offered ++ [event.seq])
      ⟨{ stream.state with queue := stream.state.queue ++ [event] }, stream.received⟩
      pending holes := by
  refine ⟨h.counted, h.first, h.last, ?_, ?_, ?_⟩
  · show (pending ++ numbers (stream.state.queue ++ [event])).Pairwise (· < ·)
    rw [numbers_append, numbers_published hevent, ← List.append_assoc]
    refine List.pairwise_append.mpr ⟨h.ordered, by simp, ?_⟩
    intro n hn m hm
    rw [List.mem_singleton.mp hm]
    exact h.lt_newer hnew n hn
  · have heq : markers (stream.received ++ (stream.state.queue ++ [event]))
        = markers stream.seen := by
      simp [Stream.seen, markers, hevent]
    exact heq ▸ h.marked
  · refine List.perm_iff_count.mpr fun n => ?_
    have hcount := List.perm_iff_count.mp h.balanced n
    simp only [Stream.seen, numbers_append, numbers_published hevent,
      List.count_append] at hcount ⊢
    omega

/-- A push keeps the books unless it evicts a marker. -/
theorem push (h : Ledger offered stream pending holes)
    (htakes : stream.state.takes event = true) (hevent : event.seq ≠ 0)
    (hnew : ∀ n ∈ offered, n < event.seq)
    (hfront : stream.state.capacity ≤ stream.state.queue.length →
      ∀ front ∈ stream.state.queue.head?, front.seq ≠ 0) :
    ∃ pending holes, Ledger (offered ++ [event.seq]) (stream.push event) pending holes := by
  rw [Stream.push, QueueState.push_takes htakes]
  rcases stream.state.makeRoom_cases with
    ⟨evicted, rest, hqueue, hfull, heq⟩ | ⟨-, hpos, heq⟩ | ⟨-, heq⟩
  · rw [heq]
    exact ⟨_, _, h.evict hqueue hevent hnew (hfront hfull evicted (by simp [hqueue]))⟩
  · rw [heq]
    exact ⟨_, _, h.announce hpos hevent hnew⟩
  · rw [heq]
    exact ⟨_, _, h.append hevent hnew⟩

theorem tryRecv (h : Ledger offered stream pending holes) :
    Ledger offered stream.tryRecv pending holes := by
  have hstate := stream.tryRecv_state
  refine ⟨?_, ?_, ?_, ?_, ?_, ?_⟩
  · rw [hstate]
    exact h.counted
  · rw [hstate]
    exact h.first
  · rw [hstate]
    exact h.last
  · exact h.ordered.sublist ((List.Sublist.refl _).append
      (numbers_sublist stream.tryRecv_queue_sublist))
  · rw [stream.tryRecv_seen]
    exact h.marked
  · rw [stream.tryRecv_seen]
    exact h.balanced

theorem accounted (h : Ledger offered stream pending holes) (hnodup : offered.Nodup) :
    Accounted offered stream :=
  ⟨hnodup, pending, holes, h.counted, h.marked, h.balanced⟩

end Ledger

/-! ### The replay

Nobody reads during a replay, so a queue that overflows stays full: no marker is queued
and none can be evicted.
-/

/-- A queue as a replay leaves it: without markers, and full once it has dropped. -/
structure Replaying (state : QueueState) : Prop where
  unmarked : ∀ event ∈ state.queue, event.seq ≠ 0
  full : state.dropped = 0 ∨ state.capacity ≤ state.queue.length

theorem Replaying.push {state : QueueState} (h : Replaying state) {event : Event}
    (hevent : event.seq ≠ 0) : Replaying (state.push event) := by
  by_cases htakes : state.takes event = true
  · rw [QueueState.push_takes htakes]
    rcases state.makeRoom_cases with ⟨evicted, rest, hqueue, hfull, heq⟩ | ⟨hroom, hpos, -⟩ | ⟨-, heq⟩
    · rw [heq]
      rw [hqueue] at hfull
      refine ⟨?_, Or.inr (by simpa using hfull)⟩
      intro e he
      rcases List.mem_append.mp he with he | he
      · exact h.unmarked e (by rw [hqueue]; exact List.mem_cons_of_mem _ he)
      · rwa [List.mem_singleton.mp he]
    · rcases h.full with hzero | hfull
      · omega
      · omega
    · rw [heq]
      refine ⟨?_, ?_⟩
      · intro e he
        rcases List.mem_append.mp he with he | he
        · exact h.unmarked e he
        · rwa [List.mem_singleton.mp he]
      · rcases h.full with hzero | hfull
        · exact Or.inl hzero
        · refine Or.inr ?_
          show state.capacity ≤ (state.queue ++ [event]).length
          rw [List.length_append]
          omega
  · rw [QueueState.push_refused htakes]
    exact h

theorem ledger_replay (events : List Event) {offered pending : List Nat}
    {holes : List (List Nat)} {state : QueueState} (hstate : Replaying state)
    (hopen : state.closed = false) (h : Ledger offered ⟨state, []⟩ pending holes)
    (hnonzero : ∀ event ∈ events, event.seq ≠ 0)
    (hincreasing : (offered ++ events.map Event.seq).Pairwise (· < ·)) :
    ∃ pending holes, Ledger (offered ++ (events.filter state.filter.admits).map Event.seq)
      ⟨events.foldl QueueState.push state, []⟩ pending holes := by
  induction events generalizing offered state pending holes with
  | nil => exact ⟨pending, holes, by simpa using h⟩
  | cons event events ih =>
    have hevent := hnonzero event List.mem_cons_self
    have hrest : ∀ e ∈ events, e.seq ≠ 0 := fun e he => hnonzero e (List.mem_cons_of_mem _ he)
    have hnext := hstate.push hevent
    have hopen' : (state.push event).closed = false := by rwa [QueueState.push_closed]
    rw [List.foldl_cons]
    by_cases hadmits : state.filter.admits event = true
    · have htakes : state.takes event = true := by simp [QueueState.takes, hopen, hadmits]
      have hnew : ∀ n ∈ offered, n < event.seq := by
        intro n hn
        exact (List.pairwise_append.mp hincreasing).2.2 n hn event.seq (by simp)
      obtain ⟨pending, holes, hpushed⟩ := h.push htakes hevent hnew fun _ front hfront =>
        hstate.unmarked front (List.mem_of_mem_head? hfront)
      obtain ⟨pending, holes, hdone⟩ := ih hnext hopen' hpushed hrest (by simpa using hincreasing)
      refine ⟨pending, holes, ?_⟩
      rw [QueueState.push_filter] at hdone
      simpa [hadmits] using hdone
    · have htakes : ¬ state.takes event = true := by simp [QueueState.takes, hadmits]
      rw [QueueState.push_refused htakes]
      have hless : (offered ++ events.map Event.seq).Pairwise (· < ·) :=
        hincreasing.sublist ((List.Sublist.refl _).append (List.sublist_cons_self _ _))
      obtain ⟨pending, holes, hdone⟩ := ih hstate hopen h hrest hless
      exact ⟨pending, holes, by simpa [hadmits] using hdone⟩

/-! ### A publish run to its end -/

namespace BusSystem

theorem push_all {earlier : List Publisher} {event : Event} {ids : List Nat} (hnodup : ids.Nodup)
    {sys : BusSystem} (hpub : sys.published = earlier ++ [⟨event, ids⟩]) :
    (ids.foldl (fun sys id => sys.push (sys.published.length - 1) id) sys).published
        = earlier ++ [⟨event, []⟩] ∧
      (ids.foldl (fun sys id => sys.push (sys.published.length - 1) id) sys).inner = sys.inner ∧
      ∀ id, (ids.foldl (fun sys id => sys.push (sys.published.length - 1) id) sys).streams id
        = if id ∈ ids then (sys.streams id).map (·.push event) else sys.streams id := by
  induction ids generalizing sys with
  | nil => exact ⟨hpub, rfl, fun id => rfl⟩
  | cons first ids ih =>
    obtain ⟨hfirst, hnodup'⟩ := List.nodup_cons.mp hnodup
    have hlast : sys.published[sys.published.length - 1]? = some ⟨event, first :: ids⟩ := by
      rw [hpub]
      simp
    have hpush := push_held hlast (List.mem_cons_self (a := first))
    have hnext : (sys.push (sys.published.length - 1) first).published
        = earlier ++ [⟨event, ids⟩] := by
      rw [hpush, hpub]
      simp
    obtain ⟨hdone, hinner, hstreams⟩ := ih hnodup' hnext
    refine ⟨hdone, hinner.trans (push_inner ..), fun id => ?_⟩
    rw [List.foldl_cons, hstreams id]
    by_cases hid : id = first
    · subst hid
      rw [if_neg hfirst, if_pos List.mem_cons_self, hpush]
      exact sys.updateStream_self id _
    · rw [push_streams_ne sys _ hid]
      simp [hid]

section

variable (json : JsonCodec) {sys : BusSystem} (hsys : WellFormed sys) (name : String)
  (params : JsonValue) (sessionId : Option String)

include hsys

theorem publish_spec :
    (sys.publish json name params sessionId).published
        = sys.published ++ [⟨⟨name, sys.inner.nextSeq, sessionId, params⟩, []⟩] ∧
      (sys.publish json name params sessionId).inner
        = (sys.stamp json name params sessionId).inner ∧
      ∀ id, (sys.publish json name params sessionId).streams id
        = if id ∈ sys.inner.subscribers then
            (sys.streams id).map (·.push ⟨name, sys.inner.nextSeq, sessionId, params⟩)
          else sys.streams id := by
  have hsubs := (sys.stamp_inner json name params sessionId).2.1
  simp only [publish, hsubs]
  exact push_all hsys.subscribers.1 (sys.stamp_published json name params sessionId)

theorem WellFormed.publish : WellFormed (sys.publish json name params sessionId) := by
  have hstamp := hsys.stamp json name params sessionId
  simp only [BusSystem.publish]
  generalize (sys.stamp json name params sessionId).inner.subscribers = ids
  generalize sys.stamp json name params sessionId = stamped at hstamp
  induction ids generalizing stamped with
  | nil => exact hstamp
  | cons id ids ih => exact ih _ (hstamp.push _ id)

end

theorem WellFormed.call (json : JsonCodec) {sys : BusSystem} (hsys : WellFormed sys) (call : Call) :
    WellFormed (sys.call json call).1 := by
  cases call with
  | publish name params sessionId => exact hsys.publish json name params sessionId
  | subscribe sinceSeq filter => exact hsys.subscribe json sinceSeq filter
  | tryRecv id => exact hsys.updateStream id _
  | dropStream id => exact (hsys.updateStream id _).unsubscribe id

/-! ### Every run of calls -/

abbrev CallTraceStep := Step BusSystem Call Unit

/-- The events a subscription made in the state `start` was offered and admits: the replay,
and everything published since. -/
def offered (json : JsonCodec) (start sys : BusSystem) (sinceSeq : Option Nat)
    (filter : Filter) : List Event :=
  (EventBus.replay json start.inner sinceSeq ++
    (sys.published.drop start.published.length).map Publisher.event).filter filter.admits

/-- A publish that finds the queue `id` full does not find a marker at its front. -/
def SparesMarkers (id : Nat) (s : CallTraceStep) : Prop :=
  ∀ name params sessionId stream, s.event = .publish name params sessionId →
    s.before.streams id = some stream →
    stream.state.takes ⟨name, s.before.inner.nextSeq, sessionId, params⟩ = true →
    stream.state.capacity ≤ stream.state.queue.length →
      ∀ front ∈ stream.state.queue.head?, front.seq ≠ 0

/-- The invariant of one open subscription. -/
structure Balanced (json : JsonCodec) (start : BusSystem) (sinceSeq : Option Nat)
    (filter : Filter) (id : Nat) (sys : BusSystem) (stream : Stream) : Prop where
  present : sys.streams id = some stream
  filtered : stream.state.filter = filter
  isOpen : stream.state.closed = false
  registered : id ∈ sys.inner.subscribers
  grown : start.published.length ≤ sys.published.length
  increasing : ((offered json start sys sinceSeq filter).map Event.seq).Pairwise (· < ·)
  below : ∀ n ∈ (offered json start sys sinceSeq filter).map Event.seq, n < sys.inner.nextSeq
  ledger : ∃ pending holes,
    Ledger ((offered json start sys sinceSeq filter).map Event.seq) stream pending holes

section

variable {json : JsonCodec} {start sys next : BusSystem} {sinceSeq : Option Nat}
  {filter : Filter} {id : Nat} {stream stream' : Stream}

theorem Balanced.quiet (h : Balanced json start sinceSeq filter id sys stream)
    (hpublished : next.published = sys.published)
    (hseq : next.inner.nextSeq = sys.inner.nextSeq) (hid : id ∈ next.inner.subscribers)
    (hpresent : next.streams id = some stream') (hfilter : stream'.state.filter = stream.state.filter)
    (hopen : stream'.state.closed = stream.state.closed)
    (hledger : ∀ {offered pending holes}, Ledger offered stream pending holes →
      Ledger offered stream' pending holes) :
    Balanced json start sinceSeq filter id next stream' := by
  have hoffered : offered json start next sinceSeq filter
      = offered json start sys sinceSeq filter := by
    rw [offered, hpublished, offered]
  obtain ⟨pending, holes, hold⟩ := h.ledger
  refine ⟨hpresent, hfilter.trans h.filtered, hopen.trans h.isOpen, hid, ?_, ?_, ?_, ?_⟩
  · rw [hpublished]
    exact h.grown
  · rw [hoffered]
    exact h.increasing
  · rw [hoffered, hseq]
    exact h.below
  · rw [hoffered]
    exact ⟨pending, holes, hledger hold⟩

/-- A publish offers its event, if the filter admits it. -/
theorem offered_publish (json : JsonCodec) (sinceSeq : Option Nat) (filter : Filter)
    (hsys : WellFormed sys)
    (hgrown : start.published.length ≤ sys.published.length) (name : String)
    (params : JsonValue) (sessionId : Option String) :
    offered json start (sys.publish json name params sessionId) sinceSeq filter
      = offered json start sys sinceSeq filter ++
        [⟨name, sys.inner.nextSeq, sessionId, params⟩].filter filter.admits := by
  rw [offered, (publish_spec json hsys name params sessionId).1,
    List.drop_append_of_le_length hgrown, List.map_append, ← List.append_assoc,
    List.filter_append, offered]
  rfl

theorem Balanced.publish (hsys : WellFormed sys)
    (h : Balanced json start sinceSeq filter id sys stream) {name : String} {params : JsonValue}
    {sessionId : Option String}
    (hspares : SparesMarkers id (take (call json) sys (.publish name params sessionId))) :
    Balanced json start sinceSeq filter id (sys.publish json name params sessionId)
      (stream.push ⟨name, sys.inner.nextSeq, sessionId, params⟩) := by
  obtain ⟨hpub, hinner, hstreams⟩ := publish_spec json hsys name params sessionId
  obtain ⟨hnext, hsubs, -⟩ := sys.stamp_inner json name params sessionId
  have hpresent := hstreams id
  rw [if_pos h.registered, h.present] at hpresent
  have hoffered := offered_publish json sinceSeq filter hsys h.grown name params sessionId
  have hid : id ∈ (sys.publish json name params sessionId).inner.subscribers := by
    rw [hinner, hsubs]
    exact h.registered
  have hgrown : start.published.length ≤ (sys.publish json name params sessionId).published.length := by
    rw [hpub, List.length_append]
    exact Nat.le_trans h.grown (Nat.le_add_right _ _)
  have hseq : (sys.publish json name params sessionId).inner.nextSeq = sys.inner.nextSeq + 1 := by
    rw [hinner, hnext]
  obtain ⟨pending, holes, hledger⟩ := h.ledger
  by_cases hadmits : filter.admits ⟨name, sys.inner.nextSeq, sessionId, params⟩ = true
  · have htakes : stream.state.takes ⟨name, sys.inner.nextSeq, sessionId, params⟩ = true := by
      simp [QueueState.takes, h.isOpen, h.filtered, hadmits]
    rw [List.filter_cons_of_pos hadmits, List.filter_nil] at hoffered
    have hnonzero : sys.inner.nextSeq ≠ 0 := by
      rw [hsys.nextSeq]
      omega
    have hpushed := hledger.push htakes hnonzero h.below
      (hspares name params sessionId stream rfl h.present htakes)
    refine ⟨hpresent, ?_, ?_, hid, hgrown, ?_, ?_, ?_⟩
    · exact (stream.state.push_filter _).trans h.filtered
    · exact (stream.state.push_closed _).trans h.isOpen
    · rw [hoffered, List.map_append]
      refine List.pairwise_append.mpr ⟨h.increasing, by simp, ?_⟩
      intro n hn m hm
      rw [List.mem_singleton.mp hm]
      exact h.below n hn
    · intro n hn
      rw [hoffered, List.map_append] at hn
      rw [hseq]
      rcases List.mem_append.mp hn with hn | hn
      · exact Nat.lt_succ_of_lt (h.below n hn)
      · rw [List.mem_singleton.mp hn]
        exact Nat.lt_succ_self _
    · rw [hoffered, List.map_append]
      exact hpushed
  · have htakes : ¬ stream.state.takes ⟨name, sys.inner.nextSeq, sessionId, params⟩ = true := by
      simp [QueueState.takes, h.filtered, hadmits]
    rw [List.filter_cons_of_neg hadmits, List.filter_nil, List.append_nil] at hoffered
    rw [Stream.push_refused htakes]
    rw [Option.map_some, Stream.push_refused htakes] at hpresent
    refine ⟨hpresent, h.filtered, h.isOpen, hid, hgrown, ?_, ?_, ?_⟩
    · rw [hoffered]
      exact h.increasing
    · rw [hoffered, hseq]
      exact fun n hn => Nat.lt_succ_of_lt (h.below n hn)
    · rw [hoffered]
      exact ⟨pending, holes, hledger⟩

/-- Every call but the drop of the stream itself, unless it evicts a marker. -/
theorem balanced_call (hsys : WellFormed sys)
    (h : Balanced json start sinceSeq filter id sys stream) {event : Call}
    (hdrop : event ≠ .dropStream id) (hspares : SparesMarkers id (take (call json) sys event)) :
    ∃ stream, Balanced json start sinceSeq filter id (sys.call json event).1 stream := by
  cases event with
  | publish name params sessionId => exact ⟨_, h.publish hsys hspares⟩
  | subscribe sinceSeq' filter' =>
    have hne : id ≠ sys.inner.nextSubscriber :=
      Nat.ne_of_lt (hsys.subscribers.2 id h.registered)
    refine ⟨stream, h.quiet rfl rfl (List.mem_append_left _ h.registered) ?_ rfl rfl fun hl => hl⟩
    exact (Function.update_of_ne hne ..).trans h.present
  | tryRecv other =>
    by_cases hother : id = other
    · subst hother
      have hstate := stream.tryRecv_state
      refine ⟨stream.tryRecv, h.quiet rfl rfl h.registered ?_ ?_ ?_ fun hl => hl.tryRecv⟩
      · exact (sys.updateStream_self id _).trans (by rw [h.present]; rfl)
      · rw [hstate]
      · rw [hstate]
    · refine ⟨stream, h.quiet rfl rfl h.registered ?_ rfl rfl fun hl => hl⟩
      exact (sys.updateStream_ne _ hother).trans h.present
  | dropStream other =>
    have hother : id ≠ other := by
      rintro rfl
      exact hdrop rfl
    have hunsub := (sys.updateStream other Stream.close).unsubscribe_streams other
    have hpresent : ((sys.updateStream other Stream.close).unsubscribe other).streams id
        = some stream := by
      rw [hunsub, sys.updateStream_ne _ hother]
      exact h.present
    refine ⟨stream, ?_⟩
    show Balanced json start sinceSeq filter id
      ((sys.updateStream other Stream.close).unsubscribe other) stream
    unfold unsubscribe at hpresent ⊢
    split
    · next hclosed =>
        rw [if_pos hclosed] at hpresent
        exact h.quiet rfl rfl ((List.mem_erase_of_ne hother).mpr h.registered) hpresent rfl rfl
          fun hl => hl
    · next hclosed =>
        rw [if_neg hclosed] at hpresent
        exact h.quiet rfl rfl h.registered hpresent rfl rfl fun hl => hl

end

theorem balanced_subscribe (json : JsonCodec) {start : BusSystem} (hstart : WellFormed start)
    (sinceSeq : Option Nat) (filter : Filter) :
    ∃ stream, Balanced json start sinceSeq filter start.inner.nextSubscriber
      (start.subscribe json sinceSeq filter) stream := by
  have hring := EventBus.replay_seqs json start.inner sinceSeq
  have hoffered : offered json start (start.subscribe json sinceSeq filter) sinceSeq filter
      = (EventBus.replay json start.inner sinceSeq).filter filter.admits := by
    have hnone : (start.subscribe json sinceSeq filter).published.drop start.published.length = [] :=
      List.drop_length
    rw [offered, hnone, List.map_nil, List.append_nil]
  have hsub := (List.filter_sublist (p := filter.admits)
    (l := EventBus.replay json start.inner sinceSeq)).map Event.seq
  have hnew : Replaying (QueueState.new filter start.bus.subscriberCapacity) :=
    ⟨fun event hevent => absurd hevent List.not_mem_nil, Or.inl rfl⟩
  have hledger := ledger_replay (EventBus.replay json start.inner sinceSeq) hnew rfl
    (ledger_new filter _) ?_ ?_
  · refine ⟨_, Function.update_self .., ?_, ?_, ?_, Nat.le_refl _, ?_, ?_, ?_⟩
    · exact QueueState.foldl_push_filter _ _
    · exact QueueState.foldl_push_closed _ _
    · exact List.mem_append_right _ (List.mem_singleton_self _)
    · rw [hoffered]
      exact hstart.ring.sublist (hsub.trans hring)
    · intro n hn
      rw [hoffered] at hn
      exact (hstart.ringBound n (hring.subset (hsub.subset hn))).2
    · rw [hoffered]
      exact hledger
  · intro event hevent
    have := (hstart.ringBound _ (hring.subset (List.mem_map_of_mem hevent))).1
    omega
  · exact hstart.ring.sublist hring

/-- **Every event is accounted for.** In every run of calls in which no publish evicts a hole
marker from the queue of an open subscription, each event it was offered is delivered, queued,
counted in its drop counter, or in the hole of one marker it was sent, which states the number
of events it stands for and the first and the last of them. -/
theorem accounted_of_sparesMarkers {json : JsonCodec} {bus : EventBus}
    (earlier : List Call) {later : List Call} {sinceSeq : Option Nat} {filter : Filter} {id : Nat}
    {start : BusSystem} (hstart : start = run (call json) (new bus) earlier)
    (hid : id = start.inner.nextSubscriber) (hopen : .dropStream id ∉ later)
    (hspares : ∀ s ∈ trace (call json) (start.subscribe json sinceSeq filter) later,
      SparesMarkers id s) :
    ∃ stream,
      (run (call json) (start.subscribe json sinceSeq filter) later).streams id = some stream ∧
        Accounted ((offered json start
          (run (call json) (start.subscribe json sinceSeq filter) later) sinceSeq filter).map
            Event.seq) stream := by
  have hwell : WellFormed start := by
    rw [hstart]
    exact run_invariant _ (wellFormed_new bus) (fun _ event h => h.call json event) earlier
  have hrun : WellFormed (run (call json) (start.subscribe json sinceSeq filter) later) ∧
      ∃ stream, Balanced json start sinceSeq filter id
        (run (call json) (start.subscribe json sinceSeq filter) later) stream := by
    refine run_invariant_where (call json)
      (C := fun s => s.event ≠ .dropStream id ∧ SparesMarkers id s)
      (P := fun sys => WellFormed sys ∧ ∃ stream, Balanced json start sinceSeq filter id sys stream)
      ?_ ?_ ?_
    · intro s hs
      refine ⟨fun hdrop => hopen ?_, hspares s hs⟩
      rw [← trace_events (call json) _ later, ← hdrop]
      exact List.mem_map_of_mem hs
    · rw [hid]
      exact ⟨hwell.subscribe json sinceSeq filter, balanced_subscribe json hwell sinceSeq filter⟩
    · rintro sys event ⟨hdrop, hspare⟩ ⟨hsys, stream, hbalanced⟩
      exact ⟨hsys.call json event, balanced_call hsys hbalanced hdrop hspare⟩
  obtain ⟨-, stream, hbalanced⟩ := hrun
  obtain ⟨pending, holes, hledger⟩ := hbalanced.ledger
  exact ⟨stream, hbalanced.present, hledger.accounted (hbalanced.increasing.imp Nat.ne_of_lt)⟩

/-- A bus whose subscribers have a queue of two. -/
def narrowBus : BusSystem := new (EventBus.withCapacities 64 (1 <<< 20) (some 2))

/-- A publish of an empty payload. -/
def burst : Call := .publish "burst" (.object []) none

/-- A queue of two that drops event 1, is read once and announces the hole. -/
theorem accounted_one_hole :
    ∃ stream,
      (run (call emptyObjectJson)
          (narrowBus.subscribe emptyObjectJson none .all)
          [burst, burst, burst, .tryRecv 0, burst]).streams 0 = some stream ∧
        Accounted ((offered emptyObjectJson narrowBus
          (run (call emptyObjectJson)
            (narrowBus.subscribe emptyObjectJson none .all)
            [burst, burst, burst, .tryRecv 0, burst]) none .all).map Event.seq) stream := by
  refine accounted_of_sparesMarkers [] rfl rfl (by simp [burst]) ?_
  intro s hs name params sessionId stream _ hstream _ hfull front hfront
  simp only [trace, List.mem_cons, List.not_mem_nil, or_false] at hs
  rcases hs with rfl | rfl | rfl | rfl | rfl <;> cases hstream <;> cases hfront <;> decide

/--
The same queue after a longer burst: the marker for events 1 and 2 is at the front when
event 7 arrives, it is evicted, and one of the seven events is nowhere.
-/
theorem evicted_marker_loses_events :
    ¬ ∃ stream,
      (run (call emptyObjectJson)
          (narrowBus.subscribe emptyObjectJson none .all)
          [burst, burst, burst, burst, .tryRecv 0, burst, burst, burst]).streams 0 = some stream ∧
        Accounted ((offered emptyObjectJson narrowBus
          (run (call emptyObjectJson)
            (narrowBus.subscribe emptyObjectJson none .all)
            [burst, burst, burst, burst, .tryRecv 0, burst, burst, burst]) none .all).map
          Event.seq) stream := by
  rintro ⟨stream, hstream, -, pending, holes, hpending, hmarks, hperm⟩
  cases hstream
  obtain rfl : holes = [] := List.forall₂_nil_left_iff.mp hmarks
  have hlength := hperm.length_eq
  rw [List.length_append, List.length_append, hpending] at hlength
  exact absurd hlength (by decide)

end BusSystem

end Homie.Events

/-! ### A replay says nothing about the events the ring has lost

`subscribe` replays what the ring holds and never compares the number it was given with
the oldest one retained.  Right after it no marker is in the stream, whatever is missing.
Later markers speak of events evicted from the subscriber's own queue: those were pushed
at the subscription or after it, so each is newer than every missing event.
-/

namespace Homie.Events

open Trace

namespace BusSystem

/-- Event `n`, after `since`, was published and the ring no longer holds it. -/
def Missing (sys : BusSystem) (since n : Nat) : Prop :=
  since < n ∧ (∃ p ∈ sys.published, p.event.seq = n) ∧ ∀ archived ∈ sys.inner.ring, archived.seq ≠ n

/-- A marker that covers event `n` has reached the subscription. -/
def Announced (stream : Stream) (n : Nat) : Prop :=
  ∃ dropped fromSeq toSeq, Event.marker dropped fromSeq toSeq ∈ stream.seen ∧
    fromSeq ≤ n ∧ n ≤ toSeq

end BusSystem

/-! ### What the ring keeps -/

namespace EventBus

theorem trimRing_suffix (bus : EventBus) (ring : List Archived) (bytes : Nat) :
    (bus.trimRing ring bytes).1 <:+ ring := by
  induction ring generalizing bytes with
  | nil => exact List.suffix_refl _
  | cons oldest rest ih =>
    rw [trimRing]
    split
    · exact (ih _).trans (List.suffix_cons oldest rest)
    · exact List.suffix_refl _

/-- An encoded event is archived behind a suffix of the ring, unless it is lost itself. -/
theorem archive_suffix (bus : EventBus) {json : JsonCodec} (inner : BusInner) (event : Event)
    (hjson : (json.toVec event.params).isSome)
    (hring : bus.ringCapacity > 0 ∧ bus.ringByteCapacity > 0) :
    (bus.archive json inner event).ring.map Archived.seq <:+
      inner.ring.map Archived.seq ++ [event.seq] := by
  obtain ⟨encoded, hencoded⟩ := Option.isSome_iff_exists.mp hjson
  rw [archive, if_pos hring, hencoded]
  have h := (bus.trimRing_suffix
    (inner.ring ++ [⟨event.name, event.seq, event.sessionId, encoded⟩])
    (inner.ringBytes
      + (⟨event.name, event.seq, event.sessionId, encoded⟩ : Archived).storageBytes)).map
    Archived.seq
  rwa [List.map_append] at h

end EventBus

theorem mem_suffix_of_le {xs ys : List Nat} (hsuffix : xs <:+ ys) (hsorted : ys.Pairwise (· < ·))
    {a b : Nat} (ha : a ∈ xs) (hab : a ≤ b) (hb : b ∈ ys) : b ∈ xs := by
  obtain ⟨front, rfl⟩ := hsuffix
  rcases List.mem_append.mp hb with hfront | hback
  · have := (List.pairwise_append.mp hsorted).2.2 b hfront a ha
    omega
  · exact hback

namespace BusSystem

variable {json : JsonCodec} {sys : BusSystem} {id n : Nat}

/-- The ring holds every number from its oldest one on; a bus without a ring holds none. -/
structure Contiguous (sys : BusSystem) : Prop where
  upward : ∀ a ∈ sys.inner.ring.map Archived.seq, ∀ m, a ≤ m → m < sys.inner.nextSeq →
    m ∈ sys.inner.ring.map Archived.seq
  ringless : ¬ (sys.bus.ringCapacity > 0 ∧ sys.bus.ringByteCapacity > 0) → sys.inner.ring = []

theorem Contiguous.stamp (h : Contiguous sys) (hsys : WellFormed sys)
    (hjson : ∀ params, (json.toVec params).isSome) (name : String) (params : JsonValue)
    (sessionId : Option String) : Contiguous (sys.stamp json name params sessionId) := by
  by_cases hring : sys.bus.ringCapacity > 0 ∧ sys.bus.ringByteCapacity > 0
  · refine ⟨?_, fun hnone => absurd hring hnone⟩
    intro a ha m ham hm
    rw [(sys.stamp_inner json name params sessionId).1] at hm
    have hsuffix : (sys.stamp json name params sessionId).inner.ring.map Archived.seq <:+
        sys.inner.ring.map Archived.seq ++ [sys.inner.nextSeq] :=
      sys.bus.archive_suffix _ ⟨name, sys.inner.nextSeq, sessionId, params⟩ (hjson params) hring
    have hsorted : (sys.inner.ring.map Archived.seq ++ [sys.inner.nextSeq]).Pairwise (· < ·) := by
      refine List.pairwise_append.mpr ⟨hsys.ring, List.pairwise_singleton _ _, ?_⟩
      intro b hb c hc
      rw [List.mem_singleton.mp hc]
      exact (hsys.ringBound b hb).2
    refine mem_suffix_of_le hsuffix hsorted ha ham ?_
    by_cases hlast : m = sys.inner.nextSeq
    · rw [hlast]
      exact List.mem_append_right _ List.mem_cons_self
    · rcases List.mem_append.mp (hsuffix.subset ha) with ha | ha
      · exact List.mem_append_left _ (h.upward a ha m ham (by omega))
      · rw [List.mem_singleton] at ha
        omega
  · have hempty : (sys.stamp json name params sessionId).inner.ring = [] := by
      show (sys.bus.archive json _ _).ring = _
      rw [EventBus.archive, if_neg hring]
      exact h.ringless hring
    refine ⟨?_, fun _ => hempty⟩
    intro a ha
    rw [hempty] at ha
    exact absurd ha List.not_mem_nil

/-- Only a stamp touches the ring. -/
theorem Contiguous.step (h : Contiguous sys) (hsys : WellFormed sys)
    (hjson : ∀ params, (json.toVec params).isSome) (event : BusStep) :
    Contiguous (sys.step json event).1 := by
  cases event with
  | stamp name params sessionId => exact h.stamp hsys hjson name params sessionId
  | push i id =>
    have hbus : (sys.push i id).bus = sys.bus := by
      unfold push
      split
      · rfl
      · split <;> rfl
    show Contiguous (sys.push i id)
    refine ⟨?_, ?_⟩
    · rw [push_inner]
      exact h.upward
    · rw [push_inner, hbus]
      exact h.ringless
  | subscribe sinceSeq filter => exact ⟨h.upward, h.ringless⟩
  | tryRecv id => exact ⟨h.upward, h.ringless⟩
  | close id => exact ⟨h.upward, h.ringless⟩
  | unsubscribe id =>
    show Contiguous (sys.unsubscribe id)
    unfold unsubscribe
    split <;> exact ⟨h.upward, h.ringless⟩

theorem contiguous_after (hjson : ∀ params, (json.toVec params).isSome) (bus : EventBus)
    (steps : List BusStep) : Contiguous (after json bus steps) := by
  refine (run_invariant (step json) (P := fun sys => WellFormed sys ∧ Contiguous sys)
    ⟨wellFormed_new bus, ?_⟩ ?_ steps).2
  · exact ⟨fun _ ha => absurd ha List.not_mem_nil, fun _ => rfl⟩
  · intro sys event h
    exact ⟨h.1.step json event, h.2.step h.1 hjson event⟩

theorem Missing.lt_ring {since : Nat} (hmissing : Missing sys since n) (hsys : WellFormed sys)
    (h : Contiguous sys) : ∀ archived ∈ sys.inner.ring, n < archived.seq := by
  intro archived hmem
  obtain ⟨-, ⟨p, hp, hseq⟩, hlost⟩ := hmissing
  by_contra hle
  obtain ⟨i, hi⟩ := List.mem_iff_getElem?.mp hp
  have hlt := hsys.seq_lt hi
  rw [hseq] at hlt
  have hheld := h.upward archived.seq (List.mem_map_of_mem hmem) n (by omega) hlt
  obtain ⟨held, hheld, heq⟩ := List.mem_map.mp hheld
  exact hlost held hheld heq

end BusSystem

/-! ### What a subscription is told -/

namespace BusSystem

theorem nextSubscriber_le_step (json : JsonCodec) (sys : BusSystem) (event : BusStep) :
    sys.inner.nextSubscriber ≤ (sys.step json event).1.inner.nextSubscriber := by
  cases event with
  | stamp name params sessionId =>
    show _ ≤ (sys.stamp json name params sessionId).inner.nextSubscriber
    rw [(sys.stamp_inner json name params sessionId).2.2]
  | push i id =>
    show _ ≤ (sys.push i id).inner.nextSubscriber
    rw [push_inner]
  | subscribe sinceSeq filter => exact Nat.le_succ _
  | tryRecv id => exact Nat.le_refl _
  | close id => exact Nat.le_refl _
  | unsubscribe id =>
    show _ ≤ (sys.unsubscribe id).inner.nextSubscriber
    unfold unsubscribe
    split <;> exact Nat.le_refl _

/-- A replay leaves no marker in the new queue. -/
theorem replaying_replay (json : JsonCodec) {sys : BusSystem} (hsys : WellFormed sys) (since : Nat)
    (filter : Filter) :
    Replaying ((EventBus.replay json sys.inner (some since)).foldl QueueState.push
      (QueueState.new filter sys.bus.subscriberCapacity)) := by
  have hnonzero : ∀ event ∈ EventBus.replay json sys.inner (some since), event.seq ≠ 0 := by
    intro event hevent
    rw [EventBus.replay, List.mem_map] at hevent
    obtain ⟨archived, harchived, rfl⟩ := hevent
    have hbound := hsys.ringBound archived.seq
      (List.mem_map_of_mem (List.mem_filter.mp harchived).1)
    exact Nat.ne_of_gt hbound.1
  have hstart : Replaying (QueueState.new filter sys.bus.subscriberCapacity) :=
    ⟨fun _ he => absurd he List.not_mem_nil, Or.inl rfl⟩
  generalize EventBus.replay json sys.inner (some since) = events at hnonzero
  induction events using List.reverseRecOn with
  | nil => exact hstart
  | append_singleton events event ih =>
    rw [List.foldl_append]
    refine (ih fun e he => hnonzero e (List.mem_append_left _ he)).push ?_
    exact hnonzero event (List.mem_append_right _ List.mem_cons_self)

end BusSystem

/-- The left edge of a marker: newer than `n`, or wiped by a marker that was evicted itself. -/
def NewerThan (n fromSeq : Nat) : Prop :=
  fromSeq = 0 ∨ n < fromSeq

theorem marker_inj {dropped dropped' fromSeq fromSeq' toSeq toSeq' : Nat}
    (h : Event.marker dropped fromSeq toSeq = Event.marker dropped' fromSeq' toSeq') :
    fromSeq = fromSeq' ∧ toSeq = toSeq' := by
  have hparams := congrArg Event.params h
  simp only [Event.marker, JsonValue.object.injEq, List.cons.injEq, Prod.mk.injEq, true_and,
    and_true, JsonValue.integer.injEq, Int.natCast_inj] at hparams
  exact hparams.2

/-- Everything a subscription knows is newer than event `n`. -/
structure Past (n : Nat) (stream : Stream) : Prop where
  seen : ∀ event ∈ stream.seen, NewerThan n event.seq
  markers : ∀ dropped fromSeq toSeq, Event.marker dropped fromSeq toSeq ∈ stream.seen →
    NewerThan n fromSeq
  hole : 0 < stream.state.dropped → NewerThan n stream.state.firstDroppedSeq

namespace Past

variable {n : Nat} {stream : Stream}

theorem makeRoom (h : Past n stream) : Past n { stream with state := stream.state.makeRoom } := by
  rcases stream.state.makeRoom_cases with ⟨evicted, rest, hqueue, -, heq⟩ | ⟨-, hpos, heq⟩ | ⟨-, heq⟩
  · rw [heq]
    have hsub : ∀ event ∈ stream.received ++ rest, event ∈ stream.seen := by
      intro event hevent
      rw [Stream.seen, hqueue]
      rcases List.mem_append.mp hevent with hevent | hevent
      · exact List.mem_append_left _ hevent
      · exact List.mem_append_right _ (List.mem_cons_of_mem _ hevent)
    have hevicted : evicted ∈ stream.seen := by
      rw [Stream.seen, hqueue]
      exact List.mem_append_right _ List.mem_cons_self
    refine ⟨fun event hevent => h.seen event (hsub event hevent),
      fun dropped fromSeq toSeq hmarker => h.markers _ _ _ (hsub _ hmarker), ?_⟩
    intro _
    show NewerThan n (if _ then _ else _)
    split
    · exact h.seen evicted hevicted
    · exact h.hole (by omega)
  · rw [heq]
    have hseen : ∀ event ∈ stream.received ++ (stream.state.queue ++
        [Event.marker stream.state.dropped stream.state.firstDroppedSeq
          stream.state.lastDroppedSeq]),
        event ∈ stream.seen ∨ event = Event.marker stream.state.dropped
          stream.state.firstDroppedSeq stream.state.lastDroppedSeq := by
      intro event hevent
      rw [← List.append_assoc] at hevent
      exact (List.mem_append.mp hevent).imp id List.mem_singleton.mp
    refine ⟨?_, ?_, fun hzero => absurd hzero (Nat.lt_irrefl 0)⟩
    · intro event hevent
      rcases hseen event hevent with hevent | rfl
      · exact h.seen event hevent
      · exact Or.inl rfl
    · intro dropped fromSeq toSeq hmarker
      rcases hseen _ hmarker with hmarker | heq
      · exact h.markers dropped fromSeq toSeq hmarker
      · rw [(marker_inj heq).1]
        exact h.hole hpos
  · rw [heq]
    exact h

theorem push (h : Past n stream) {event : Event} (hevent : n < event.seq) :
    Past n (stream.push event) := by
  by_cases htakes : stream.state.takes event = true
  · have hroom := h.makeRoom
    rw [Stream.push, QueueState.push_takes htakes]
    have hseen : ∀ e ∈ stream.received ++ (stream.state.makeRoom.queue ++ [event]),
        e ∈ stream.received ++ stream.state.makeRoom.queue ∨ e = event := by
      intro e he
      rw [← List.append_assoc] at he
      exact (List.mem_append.mp he).imp id List.mem_singleton.mp
    refine ⟨?_, ?_, hroom.hole⟩
    · intro e he
      rcases hseen e he with he | rfl
      · exact hroom.seen e he
      · exact Or.inr hevent
    · intro dropped fromSeq toSeq hmarker
      rcases hseen _ hmarker with hmarker | heq
      · exact hroom.markers dropped fromSeq toSeq hmarker
      · rw [← heq] at hevent
        exact absurd hevent (Nat.not_lt_zero n)
  · rwa [Stream.push_refused htakes]

theorem tryRecv (h : Past n stream) : Past n stream.tryRecv := by
  refine ⟨?_, ?_, ?_⟩
  · rw [Stream.tryRecv_seen]
    exact h.seen
  · rw [Stream.tryRecv_seen]
    exact h.markers
  · rw [Stream.tryRecv_state]
    exact h.hole

/-- A replay of newer events, into a new queue. -/
theorem replay {events : List Event} (hnewer : ∀ event ∈ events, n < event.seq)
    {state : QueueState} (h : Past n ⟨state, []⟩) :
    Past n ⟨events.foldl QueueState.push state, []⟩ := by
  induction events generalizing state with
  | nil => exact h
  | cons event events ih =>
    exact ih (fun e he => hnewer e (List.mem_cons_of_mem _ he))
      (h.push (hnewer event List.mem_cons_self))

end Past

namespace BusSystem

variable {json : JsonCodec} {sys : BusSystem} {id n : Nat}

/-- The subscription `id` knows, and will be sent, only what is newer than event `n`. -/
structure Oblivious (n id : Nat) (sys : BusSystem) : Prop where
  registered : id < sys.inner.nextSubscriber
  published : n < sys.inner.nextSeq
  coming : ∀ (j : Nat) (p : Publisher), sys.published[j]? = some p → id ∈ p.remaining → n < p.event.seq
  past : ∀ stream, sys.streams id = some stream → Past n stream

theorem Oblivious.step (h : Oblivious n id sys) (hsys : WellFormed sys) (event : BusStep) :
    Oblivious n id (sys.step json event).1 := by
  refine ⟨?_, Nat.lt_of_lt_of_le h.published (nextSeq_le_step json sys event), ?_, ?_⟩
  · exact Nat.lt_of_lt_of_le h.registered (nextSubscriber_le_step json sys event)
  · intro j q hq hid
    rcases published_cases hsys hq id with ⟨p, hp, hevent, hiff⟩ | ⟨-, hseq, -⟩
    · rw [hevent]
      exact h.coming j p hp (hiff.mp hid).1
    · rw [hseq]
      exact h.published
  · intro stream hstream
    rcases streams_cases json sys event id with ⟨-, heq⟩ | ⟨i, p, rfl, hp, hid, heq⟩ | ⟨rfl, heq⟩ |
      ⟨rfl, heq⟩ | ⟨since, filter, rfl, hnew, -⟩
    · rw [heq] at hstream
      exact h.past stream hstream
    · rw [heq] at hstream
      obtain ⟨before, hbefore, rfl⟩ := Option.map_eq_some_iff.mp hstream
      exact (h.past before hbefore).push (h.coming i p hp hid)
    · rw [heq] at hstream
      obtain ⟨before, hbefore, rfl⟩ := Option.map_eq_some_iff.mp hstream
      exact (h.past before hbefore).tryRecv
    · rw [heq] at hstream
      obtain ⟨before, hbefore, rfl⟩ := Option.map_eq_some_iff.mp hstream
      exact ⟨(h.past before hbefore).seen, (h.past before hbefore).markers,
        (h.past before hbefore).hole⟩
    · exact absurd h.registered (by omega)

/-- A subscription that asks for a lost event starts out without news of it. -/
theorem oblivious_subscribe (json : JsonCodec) {since : Nat} (hsys : WellFormed sys) (hring : Contiguous sys)
    (hmissing : Missing sys since n) (filter : Filter) :
    Oblivious n sys.inner.nextSubscriber (sys.subscribe json (some since) filter) := by
  have hnewer := hmissing.lt_ring hsys hring
  obtain ⟨-, ⟨p, hp, hseq⟩, -⟩ := hmissing
  refine ⟨Nat.lt_succ_self _, ?_, ?_, ?_⟩
  · obtain ⟨i, hi⟩ := List.mem_iff_getElem?.mp hp
    rw [← hseq]
    exact hsys.seq_lt hi
  · -- who was publishing before holds no queue of a later subscriber
    intro j q hq hid
    exact absurd ((hsys.remaining q (List.mem_of_getElem? hq)).2 _ hid) (Nat.lt_irrefl _)
  · intro stream hstream
    rw [show (sys.subscribe json (some since) filter).streams sys.inner.nextSubscriber = some _ from
      Function.update_self ..] at hstream
    rw [← Option.some.inj hstream]
    refine Past.replay ?_ ⟨?_, ?_, fun hzero => absurd hzero (Nat.lt_irrefl 0)⟩
    · intro event hevent
      rw [EventBus.replay, List.mem_map] at hevent
      obtain ⟨archived, harchived, rfl⟩ := hevent
      exact hnewer archived (List.mem_filter.mp harchived).1
    · intro event hevent
      exact absurd hevent List.not_mem_nil
    · intro dropped fromSeq toSeq hmarker
      exact absurd hmarker List.not_mem_nil

/-- Without a push, the stream holds what the replay queued: no marker. -/
theorem unmarked_of_no_push (hsys : WellFormed sys) (since : Nat) (filter : Filter)
    {later : List BusStep} (hquiet : ∀ i, BusStep.push i sys.inner.nextSubscriber ∉ later)
    {stream : Stream}
    (hstream : (run (step json) (sys.subscribe json (some since) filter) later).streams
      sys.inner.nextSubscriber = some stream) :
    ∀ event ∈ stream.seen, event.seq ≠ 0 := by
  have hrun : sys.inner.nextSubscriber
        < (run (step json) (sys.subscribe json (some since) filter) later).inner.nextSubscriber ∧
      ∀ stream, (run (step json) (sys.subscribe json (some since) filter) later).streams
        sys.inner.nextSubscriber = some stream → ∀ event ∈ stream.seen, event.seq ≠ 0 := by
    refine run_invariant_where (step json)
      (C := fun s => ∀ i, s.event ≠ .push i sys.inner.nextSubscriber)
      (P := fun s => sys.inner.nextSubscriber < s.inner.nextSubscriber ∧
        ∀ stream, s.streams sys.inner.nextSubscriber = some stream →
          ∀ event ∈ stream.seen, event.seq ≠ 0) ?_ ?_ ?_
    · intro s hs i hpush
      refine hquiet i ?_
      rw [← trace_events (step json) _ later, ← hpush]
      exact List.mem_map_of_mem hs
    · refine ⟨Nat.lt_succ_self _, ?_⟩
      intro stream hstream
      rw [show (sys.subscribe json (some since) filter).streams sys.inner.nextSubscriber = some _
        from Function.update_self ..] at hstream
      rw [← Option.some.inj hstream]
      exact (replaying_replay json hsys since filter).unmarked
    · rintro s event hpush ⟨hlt, h⟩
      refine ⟨Nat.lt_of_lt_of_le hlt (nextSubscriber_le_step json s event), ?_⟩
      intro stream hstream
      rcases streams_cases json s event sys.inner.nextSubscriber with ⟨-, heq⟩ |
        ⟨i, p, rfl, -⟩ | ⟨-, heq⟩ | ⟨-, heq⟩ | ⟨since, filter, -, hnew, -⟩
      · rw [heq] at hstream
        exact h stream hstream
      · exact absurd rfl (hpush i)
      · rw [heq] at hstream
        obtain ⟨before, hbefore, rfl⟩ := Option.map_eq_some_iff.mp hstream
        rw [Stream.tryRecv_seen]
        exact h before hbefore
      · rw [heq] at hstream
        obtain ⟨before, hbefore, rfl⟩ := Option.map_eq_some_iff.mp hstream
        exact h before hbefore
      · omega
  exact hrun.2 stream hstream

/--
**A replay never announces what the ring has lost.**  Whatever was published, a subscriber
that asks for events after `since`, one of which the ring no longer holds, has no marker
that covers it before something is pushed into its queue.  And whatever happens later, the
markers it gets are about newer events, or start at 0 because a marker was evicted itself.
-/
theorem replay_hole_unannounced {json : JsonCodec} {bus : EventBus} {steps later : List BusStep}
    {since n : Nat} {filter : Filter} {stream : Stream}
    (hmissing : Missing (after json bus steps) since n)
    (hstream : (run (step json) ((after json bus steps).subscribe json (some since) filter)
      later).streams (after json bus steps).inner.nextSubscriber = some stream) :
    ((∀ i, BusStep.push i (after json bus steps).inner.nextSubscriber ∉ later) →
      ¬ Announced stream n) ∧
    ((∀ params, (json.toVec params).isSome) → ∀ dropped fromSeq toSeq,
      Event.marker dropped fromSeq toSeq ∈ stream.seen → fromSeq = 0 ∨ n < fromSeq) := by
  have hsys := wellFormed_after json bus steps
  refine ⟨?_, ?_⟩
  · rintro hquiet ⟨dropped, fromSeq, toSeq, hmarker, -⟩
    exact unmarked_of_no_push hsys since filter hquiet hstream _ hmarker rfl
  · intro hjson
    have hstart := oblivious_subscribe json hsys (contiguous_after hjson bus steps)
      hmissing filter
    have hrun := run_invariant (step json)
      (P := fun s => WellFormed s ∧ Oblivious n (after json bus steps).inner.nextSubscriber s)
      ⟨hsys.subscribe json (some since) filter, hstart⟩
      (fun s event h => ⟨h.1.step json event, h.2.step h.1 event⟩) later
    exact (hrun.2.past stream hstream).markers

/-- Two events on a bus that retains one. -/
def forgetful : BusSystem :=
  after emptyObjectJson (EventBus.withCapacities 1 (1 <<< 20) none)
    [.stamp "session.updated" (.object []) none, .stamp "session.updated" (.object []) none]

theorem forgetful_missing : Missing forgetful 0 1 := by
  refine ⟨Nat.zero_lt_one, ⟨_, List.mem_cons_self, rfl⟩, ?_⟩
  intro archived harchived
  rw [show forgetful.inner.ring = [⟨"session.updated", 2, none, [0x7b, 0x7d]⟩] by rfl,
    List.mem_singleton] at harchived
  rw [harchived]
  decide

/-- The subscriber that asks for everything reads event 2, and nothing about event 1. -/
theorem replay_hole_unannounced_forgetful :
    ∃ stream, (run (step emptyObjectJson) (forgetful.subscribe emptyObjectJson (some 0) .all)
        [.tryRecv 0]).streams 0 = some stream ∧
      stream.received.map Event.seq = [2] ∧ ¬ Announced stream 1 := by
  obtain ⟨stream, hstream, hread⟩ : ∃ stream, (run (step emptyObjectJson)
      (forgetful.subscribe emptyObjectJson (some 0) .all) [.tryRecv 0]).streams 0 = some stream ∧
      stream.received.map Event.seq = [2] := ⟨_, rfl, rfl⟩
  exact ⟨stream, hstream, hread, (replay_hole_unannounced forgetful_missing hstream).1 (by simp)⟩

/-- Event 1 is gone, and the resumed subscriber is not told. -/
theorem lost_event_silent :
    Missing forgetful 0 1 ∧
    ¬ ∃ stream, (forgetful.subscribe emptyObjectJson (some 0) .all).streams 0 = some stream ∧
      Announced stream 1 := by
  refine ⟨forgetful_missing, ?_⟩
  rintro ⟨stream, hstream, dropped, fromSeq, toSeq, hmarker, -⟩
  cases hstream
  have hseq : ∀ event ∈ (⟨(EventBus.replay emptyObjectJson forgetful.inner (some 0)).foldl
      QueueState.push (QueueState.new .all 2), []⟩ : Stream).seen, event.seq = 2 := by
    intro event hevent
    rw [List.mem_singleton.mp hevent]
    rfl
  exact absurd (hseq _ hmarker) (Nat.ne_of_lt Nat.zero_lt_two)

end BusSystem

end Homie.Events
