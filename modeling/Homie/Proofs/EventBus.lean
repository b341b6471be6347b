/-
What the steps of the event bus do to one subscriber.

A step reaches a subscription in one of four ways: a publisher pushes into its queue,
its receiver takes the front, its stream is closed, or it is the subscription being
made.  `streams_cases` says so once and the invariants below go through it.

Stamping, archiving, collecting the queues and registering a new one share the bus
lock.  So publishers are numbered in the order of their stamps, and a publisher never
holds a queue that was registered after its stamp.
-/
import Homie.Engine.Events

namespace Homie.Events

open Trace

/-! ### Numbers -/

/-- The numbers of the published events in a list; a marker has none. -/
def numbers (events : List Event) : List Nat :=
  (events.map Event.seq).filter (· ≠ 0)

@[simp] theorem numbers_append (xs ys : List Event) :
    numbers (xs ++ ys) = numbers xs ++ numbers ys := by
  simp [numbers]

theorem numbers_published {event : Event} (h : event.seq ≠ 0) : numbers [event] = [event.seq] := by
  simp [numbers, h]

@[simp] theorem numbers_marker (dropped fromSeq toSeq : Nat) :
    numbers [Event.marker dropped fromSeq toSeq] = [] := rfl

theorem numbers_sublist {xs ys : List Event} (h : xs.Sublist ys) :
    (numbers xs).Sublist (numbers ys) :=
  (h.map Event.seq).filter _

/-! ### One queue -/

namespace QueueState

@[simp] theorem makeRoom_filter (state : QueueState) : state.makeRoom.filter = state.filter := by
  unfold makeRoom
  split
  · split <;> rfl
  · split <;> rfl

@[simp] theorem makeRoom_closed (state : QueueState) : state.makeRoom.closed = state.closed := by
  unfold makeRoom
  split
  · split <;> rfl
  · split <;> rfl

/-- A push that is not refused makes room and appends. -/
theorem push_takes {state : QueueState} {event : Event} (h : state.takes event = true) :
    state.push event = { state.makeRoom with queue := state.makeRoom.queue ++ [event] } := by
  rw [push, if_pos h]

theorem push_refused {state : QueueState} {event : Event} (h : ¬ state.takes event = true) :
    state.push event = state := by
  rw [push, if_neg h]

@[simp] theorem push_filter (state : QueueState) (event : Event) :
    (state.push event).filter = state.filter := by
  by_cases h : state.takes event = true
  · rw [push_takes h]
    exact makeRoom_filter state
  · rw [push_refused h]

@[simp] theorem push_closed (state : QueueState) (event : Event) :
    (state.push event).closed = state.closed := by
  by_cases h : state.takes event = true
  · rw [push_takes h]
    exact makeRoom_closed state
  · rw [push_refused h]

@[simp] theorem foldl_push_filter (events : List Event) (state : QueueState) :
    (events.foldl push state).filter = state.filter := by
  induction events generalizing state with
  | nil => rfl
  | cons event events ih => rw [List.foldl_cons, ih, push_filter]

@[simp] theorem foldl_push_closed (events : List Event) (state : QueueState) :
    (events.foldl push state).closed = state.closed := by
  induction events generalizing state with
  | nil => rfl
  | cons event events ih => rw [List.foldl_cons, ih, push_closed]

/--
Making room in a queue: it is full and its front goes into the hole, it has room and the
hole is announced, or nothing changes.
-/
theorem makeRoom_cases (state : QueueState) :
    (∃ evicted rest, state.queue = evicted :: rest ∧ state.capacity ≤ state.queue.length ∧
      state.makeRoom =
        { state with
          queue := rest
          firstDroppedSeq := if state.dropped = 0 then evicted.seq else state.firstDroppedSeq
          lastDroppedSeq := evicted.seq
          dropped := state.dropped + 1 }) ∨
    (state.queue.length < state.capacity ∧ 0 < state.dropped ∧
      state.makeRoom =
        { state with
          queue := state.queue ++
            [Event.marker state.dropped state.firstDroppedSeq state.lastDroppedSeq]
          dropped := 0 }) ∨
    ((state.dropped = 0 ∨ state.queue = []) ∧ state.makeRoom = state) := by
  unfold makeRoom
  by_cases hfull : state.queue.length ≥ state.capacity
  · rw [if_pos hfull]
    cases hqueue : state.queue with
    | nil => exact Or.inr (Or.inr ⟨Or.inr rfl, rfl⟩)
    | cons evicted rest =>
      rw [hqueue] at hfull
      exact Or.inl ⟨evicted, rest, rfl, hfull, rfl⟩
  · rw [if_neg hfull]
    by_cases hdropped : state.dropped > 0
    · rw [if_pos hdropped]
      exact Or.inr (Or.inl ⟨by omega, hdropped, rfl⟩)
    · rw [if_neg hdropped]
      exact Or.inr (Or.inr ⟨Or.inl (by omega), rfl⟩)

/-- Making room never adds a published event. -/
theorem numbers_makeRoom (state : QueueState) :
    (numbers state.makeRoom.queue).Sublist (numbers state.queue) := by
  rcases state.makeRoom_cases with ⟨evicted, rest, hqueue, -, heq⟩ | ⟨-, -, heq⟩ | ⟨-, heq⟩
  · rw [heq, hqueue]
    exact numbers_sublist (List.sublist_cons_self evicted rest)
  · rw [heq, numbers_append, numbers_marker, List.append_nil]
  · rw [heq]

/-- Receiving only moves the front of the queue to the receiver. -/
theorem tryRecv_queue (state : QueueState) :
    state.tryRecv.1.toList ++ state.tryRecv.2.queue = state.queue := by
  unfold tryRecv
  split
  · next h => simp [h]
  · next h => simp [h]

theorem tryRecv_state (state : QueueState) :
    state.tryRecv.2 = { state with queue := state.tryRecv.2.queue } := by
  unfold tryRecv
  split <;> rfl

end QueueState

/-! ### One subscription -/

namespace Stream

/-- What has reached a subscription: received, or waiting in its queue. -/
def seen (stream : Stream) : List Event :=
  stream.received ++ stream.state.queue

@[simp] theorem tryRecv_seen (stream : Stream) : stream.tryRecv.seen = stream.seen := by
  unfold tryRecv
  split
  · rfl
  · rw [seen, List.append_assoc, QueueState.tryRecv_queue, seen]

theorem tryRecv_state (stream : Stream) :
    stream.tryRecv.state = { stream.state with queue := stream.tryRecv.state.queue } := by
  unfold tryRecv
  split
  · rfl
  · exact QueueState.tryRecv_state stream.state

theorem tryRecv_queue_sublist (stream : Stream) :
    stream.tryRecv.state.queue.Sublist stream.state.queue := by
  unfold tryRecv
  split
  · exact List.Sublist.refl _
  · rw [← QueueState.tryRecv_queue stream.state]
    exact List.sublist_append_right _ _

@[simp] theorem close_seen (stream : Stream) : stream.close.seen = stream.seen := rfl

theorem push_refused {stream : Stream} {event : Event}
    (h : ¬ stream.state.takes event = true) : stream.push event = stream := by
  rw [push, QueueState.push_refused h]

/-- A push adds at most its own event. -/
theorem numbers_push_sublist (stream : Stream) {event : Event}
    (h : stream.state.takes event = true) (hseq : event.seq ≠ 0) :
    (numbers (stream.push event).seen).Sublist (numbers stream.seen ++ [event.seq]) := by
  rw [push, seen, seen, QueueState.push_takes h, numbers_append, numbers_append, numbers_append,
    numbers_published hseq, List.append_assoc]
  exact (List.Sublist.refl _).append ((QueueState.numbers_makeRoom _).append (List.Sublist.refl _))

end Stream

/-! ### The bus lock -/

namespace EventBus

theorem trimRing_sublist (bus : EventBus) (ring : List Archived) (bytes : Nat) :
    (bus.trimRing ring bytes).1.Sublist ring := by
  induction ring generalizing bytes with
  | nil => exact List.Sublist.refl _
  | cons oldest rest ih =>
    rw [trimRing]
    split
    · exact (ih _).cons oldest
    · exact List.Sublist.refl _

/-- Archiving touches the ring only. -/
theorem archive_frame (bus : EventBus) (json : JsonCodec) (inner : BusInner) (event : Event) :
    (bus.archive json inner event).nextSeq = inner.nextSeq ∧
      (bus.archive json inner event).subscribers = inner.subscribers ∧
      (bus.archive json inner event).nextSubscriber = inner.nextSubscriber := by
  unfold archive
  split
  · split <;> exact ⟨rfl, rfl, rfl⟩
  · exact ⟨rfl, rfl, rfl⟩

/-- Archiving adds the event at the back of the ring, at most. -/
theorem archive_ring (bus : EventBus) (json : JsonCodec) (inner : BusInner) (event : Event) :
    ((bus.archive json inner event).ring.map Archived.seq).Sublist
      (inner.ring.map Archived.seq ++ [event.seq]) := by
  unfold archive
  split
  · split
    · exact List.sublist_append_left _ _
    · next encoded _ =>
        have h := (bus.trimRing_sublist
          (inner.ring ++ [⟨event.name, event.seq, event.sessionId, encoded⟩])
          (inner.ringBytes
            + (⟨event.name, event.seq, event.sessionId, encoded⟩ : Archived).storageBytes)).map
          Archived.seq
        rwa [List.map_append] at h
  · exact List.sublist_append_left _ _

theorem replay_seqs (json : JsonCodec) (inner : BusInner) (sinceSeq : Option Nat) :
    ((replay json inner sinceSeq).map Event.seq).Sublist (inner.ring.map Archived.seq) := by
  cases sinceSeq with
  | none => exact List.nil_sublist _
  | some since =>
    rw [replay, List.map_map]
    exact List.filter_sublist.map Archived.seq

end EventBus

namespace BusSystem

/-- The bookkeeping shared by all subscribers. -/
structure WellFormed (sys : BusSystem) : Prop where
  nextSeq : sys.inner.nextSeq = sys.published.length + 1
  /-- Publishers stand in the order of their stamps. -/
  stamped : ∀ (i : Nat) (p : Publisher), sys.published[i]? = some p → p.event.seq = i + 1
  ring : (sys.inner.ring.map Archived.seq).Pairwise (· < ·)
  ringBound : ∀ n ∈ sys.inner.ring.map Archived.seq, 0 < n ∧ n < sys.inner.nextSeq
  subscribers : sys.inner.subscribers.Nodup ∧
    ∀ id ∈ sys.inner.subscribers, id < sys.inner.nextSubscriber
  /-- A publisher holds only queues that were registered at its stamp. -/
  remaining : ∀ p ∈ sys.published, p.remaining.Nodup ∧
    ∀ id ∈ p.remaining, id < sys.inner.nextSubscriber

theorem wellFormed_new (bus : EventBus) : WellFormed (new bus) := by
  refine ⟨rfl, ?_, List.Pairwise.nil, ?_, ⟨List.nodup_nil, ?_⟩, ?_⟩
  · intro i p h
    simp [new] at h
  all_goals simp [new]

@[simp] theorem stamp_published (json : JsonCodec) (sys : BusSystem) (name : String)
    (params : JsonValue) (sessionId : Option String) :
    (sys.stamp json name params sessionId).published
      = sys.published ++
        [⟨⟨name, sys.inner.nextSeq, sessionId, params⟩, sys.inner.subscribers⟩] := by
  unfold stamp
  have h := sys.bus.archive_frame json { sys.inner with nextSeq := sys.inner.nextSeq + 1 }
    ⟨name, sys.inner.nextSeq, sessionId, params⟩
  exact congrArg (fun ids => sys.published ++ [Publisher.mk _ ids]) h.2.1

theorem stamp_inner (json : JsonCodec) (sys : BusSystem) (name : String)
    (params : JsonValue) (sessionId : Option String) :
    (sys.stamp json name params sessionId).inner.nextSeq = sys.inner.nextSeq + 1 ∧
      (sys.stamp json name params sessionId).inner.subscribers = sys.inner.subscribers ∧
      (sys.stamp json name params sessionId).inner.nextSubscriber = sys.inner.nextSubscriber :=
  sys.bus.archive_frame json { sys.inner with nextSeq := sys.inner.nextSeq + 1 }
    ⟨name, sys.inner.nextSeq, sessionId, params⟩

theorem WellFormed.stamp {sys : BusSystem} (h : WellFormed sys) (json : JsonCodec)
    (name : String) (params : JsonValue) (sessionId : Option String) :
    WellFormed (sys.stamp json name params sessionId) := by
  obtain ⟨hnext, hsubs, hsub⟩ := sys.stamp_inner json name params sessionId
  have hring : ((sys.stamp json name params sessionId).inner.ring.map Archived.seq).Sublist
      (sys.inner.ring.map Archived.seq ++ [sys.inner.nextSeq]) :=
    sys.bus.archive_ring json { sys.inner with nextSeq := sys.inner.nextSeq + 1 }
      ⟨name, sys.inner.nextSeq, sessionId, params⟩
  refine ⟨?_, ?_, ?_, ?_, ?_, ?_⟩
  · rw [hnext, h.nextSeq, stamp_published, List.length_append]
    rfl
  · intro i p hp
    rw [stamp_published, List.getElem?_append] at hp
    by_cases hi : i < sys.published.length
    · rw [if_pos hi] at hp
      exact h.stamped i p hp
    · -- the new publisher stands at the end, and its number is the next one
      rw [if_neg hi] at hp
      have hzero : i - sys.published.length = 0 := by
        have := (List.getElem?_eq_some_iff.mp hp).1
        simpa using this
      rw [hzero] at hp
      have hevent : p.event.seq = sys.inner.nextSeq := by
        rw [← Option.some.inj hp]
      rw [hevent, h.nextSeq]
      omega
  · refine List.Pairwise.sublist hring (List.pairwise_append.mpr ⟨h.ring, by simp, ?_⟩)
    intro n hn m hm
    rw [List.mem_singleton.mp hm]
    exact (h.ringBound n hn).2
  · intro n hn
    rw [hnext]
    rcases List.mem_append.mp (hring.subset hn) with hn | hn
    · have := h.ringBound n hn
      omega
    · rw [List.mem_singleton.mp hn, h.nextSeq]
      omega
  · rw [hsubs, hsub]
    exact h.subscribers
  · intro p hp
    rw [hsub]
    rw [stamp_published] at hp
    rcases List.mem_append.mp hp with hp | hp
    · exact h.remaining p hp
    · rw [List.mem_singleton.mp hp]
      exact h.subscribers

theorem push_held {sys : BusSystem} {i id : Nat} {p : Publisher}
    (hp : sys.published[i]? = some p) (hid : id ∈ p.remaining) :
    sys.push i id =
      { sys.updateStream id (·.push p.event) with
        published := sys.published.set i { p with remaining := p.remaining.erase id } } := by
  rw [push, hp]
  exact if_pos hid

theorem push_cases (sys : BusSystem) (i id : Nat) :
    sys.push i id = sys ∨
      ∃ p, sys.published[i]? = some p ∧ id ∈ p.remaining ∧
        sys.push i id =
          { sys.updateStream id (·.push p.event) with
            published := sys.published.set i { p with remaining := p.remaining.erase id } } := by
  cases hp : sys.published[i]? with
  | none =>
    refine Or.inl ?_
    rw [push, hp]
  | some p =>
    by_cases hid : id ∈ p.remaining
    · exact Or.inr ⟨p, rfl, hid, push_held hp hid⟩
    · refine Or.inl ?_
      rw [push, hp]
      exact if_neg hid

theorem push_inner (sys : BusSystem) (i id : Nat) : (sys.push i id).inner = sys.inner := by
  rcases sys.push_cases i id with h | ⟨p, -, -, h⟩
  · rw [h]
  · rw [h]
    rfl

theorem push_published {sys : BusSystem} {i id j : Nat} {q : Publisher}
    (h : (sys.push i id).published[j]? = some q) :
    ∃ p, sys.published[j]? = some p ∧ q.event = p.event ∧ q.remaining.Sublist p.remaining ∧
      ∀ other, other ≠ id → (other ∈ q.remaining ↔ other ∈ p.remaining) := by
  rcases sys.push_cases i id with heq | ⟨p, hp, -, heq⟩
  · rw [heq] at h
    exact ⟨q, h, rfl, List.Sublist.refl _, fun _ _ => Iff.rfl⟩
  · rw [heq] at h
    by_cases hij : i = j
    · subst hij
      have hlt := (List.getElem?_eq_some_iff.mp hp).1
      have hq : q = { p with remaining := p.remaining.erase id } := by
        rw [List.getElem?_set_self hlt] at h
        exact (Option.some.inj h).symm
      subst hq
      exact ⟨p, hp, rfl, List.erase_sublist, fun other hne => List.mem_erase_of_ne hne⟩
    · rw [List.getElem?_set_ne hij] at h
      exact ⟨q, h, rfl, List.Sublist.refl _, fun _ _ => Iff.rfl⟩

theorem push_published_length (sys : BusSystem) (i id : Nat) :
    (sys.push i id).published.length = sys.published.length := by
  rcases sys.push_cases i id with h | ⟨p, -, -, h⟩
  · rw [h]
  · rw [h]
    exact List.length_set

theorem WellFormed.push {sys : BusSystem} (h : WellFormed sys) (i id : Nat) :
    WellFormed (sys.push i id) := by
  have hinner := sys.push_inner i id
  refine ⟨?_, ?_, ?_, ?_, ?_, ?_⟩
  · rw [hinner, push_published_length]
    exact h.nextSeq
  · intro j q hq
    obtain ⟨p, hp, hevent, -⟩ := push_published hq
    rw [hevent]
    exact h.stamped j p hp
  · rw [hinner]
    exact h.ring
  · rw [hinner]
    exact h.ringBound
  · rw [hinner]
    exact h.subscribers
  · intro q hq
    obtain ⟨j, hj⟩ := List.getElem?_of_mem hq
    obtain ⟨p, hp, -, hsub, -⟩ := push_published hj
    obtain ⟨hnodup, hbound⟩ := h.remaining p (List.mem_of_getElem? hp)
    rw [hinner]
    exact ⟨hnodup.sublist hsub, fun other ho => hbound other (hsub.subset ho)⟩

theorem WellFormed.subscribe {sys : BusSystem} (h : WellFormed sys) (json : JsonCodec)
    (sinceSeq : Option Nat) (filter : Filter) : WellFormed (sys.subscribe json sinceSeq filter) := by
  refine ⟨h.nextSeq, h.stamped, h.ring, h.ringBound, ⟨?_, ?_⟩, ?_⟩
  · -- the number given out is above every registered one
    show (sys.inner.subscribers ++ [sys.inner.nextSubscriber]).Nodup
    refine List.nodup_append.mpr ⟨h.subscribers.1, by simp, ?_⟩
    intro id hid other hother heq
    have := h.subscribers.2 id hid
    have := List.mem_singleton.mp hother
    omega
  · intro id hid
    show id < sys.inner.nextSubscriber + 1
    rcases List.mem_append.mp hid with hid | hid
    · have := h.subscribers.2 id hid
      omega
    · rw [List.mem_singleton.mp hid]
      omega
  · intro p hp
    refine ⟨(h.remaining p hp).1, fun id hid => ?_⟩
    show id < sys.inner.nextSubscriber + 1
    have := (h.remaining p hp).2 id hid
    omega

theorem WellFormed.updateStream {sys : BusSystem} (h : WellFormed sys) (id : Nat)
    (f : Stream → Stream) : WellFormed (sys.updateStream id f) :=
  ⟨h.nextSeq, h.stamped, h.ring, h.ringBound, h.subscribers, h.remaining⟩

theorem WellFormed.unsubscribe {sys : BusSystem} (h : WellFormed sys) (id : Nat) :
    WellFormed (sys.unsubscribe id) := by
  unfold BusSystem.unsubscribe
  split
  · refine ⟨h.nextSeq, h.stamped, h.ring, h.ringBound, ⟨h.subscribers.1.erase id, ?_⟩, h.remaining⟩
    exact fun other ho => h.subscribers.2 other (List.mem_of_mem_erase ho)
  · exact h

theorem WellFormed.step {sys : BusSystem} (h : WellFormed sys) (json : JsonCodec)
    (event : BusStep) : WellFormed (sys.step json event).1 := by
  cases event with
  | stamp name params sessionId => exact h.stamp json name params sessionId
  | push i id => exact h.push i id
  | subscribe sinceSeq filter => exact h.subscribe json sinceSeq filter
  | tryRecv id => exact h.updateStream id _
  | close id => exact h.updateStream id _
  | unsubscribe id => exact h.unsubscribe id

theorem wellFormed_after (json : JsonCodec) (bus : EventBus) (steps : List BusStep) :
    WellFormed (after json bus steps) :=
  run_invariant _ (wellFormed_new bus) (fun _ event h => h.step json event) steps

/-! ### One subscriber, step by step -/

theorem updateStream_self (sys : BusSystem) (id : Nat) (f : Stream → Stream) :
    (sys.updateStream id f).streams id = (sys.streams id).map f :=
  Function.update_self ..

theorem updateStream_ne (sys : BusSystem) {id other : Nat} (f : Stream → Stream)
    (h : id ≠ other) : (sys.updateStream other f).streams id = sys.streams id :=
  Function.update_of_ne h ..

theorem push_streams_ne (sys : BusSystem) {id other : Nat} (i : Nat) (h : id ≠ other) :
    (sys.push i other).streams id = sys.streams id := by
  rcases sys.push_cases i other with heq | ⟨p, -, -, heq⟩
  · rw [heq]
  · rw [heq]
    exact sys.updateStream_ne _ h

theorem unsubscribe_streams (sys : BusSystem) (id : Nat) :
    (sys.unsubscribe id).streams = sys.streams := by
  unfold unsubscribe
  split <;> rfl

/-- What a step can do to the subscription `id`. -/
theorem streams_cases (json : JsonCodec) (sys : BusSystem) (event : BusStep) (id : Nat) :
    ((∀ i p, event = .push i id → sys.published[i]? = some p → id ∉ p.remaining) ∧
      (sys.step json event).1.streams id = sys.streams id) ∨
    (∃ i p, event = .push i id ∧ sys.published[i]? = some p ∧ id ∈ p.remaining ∧
      (sys.step json event).1.streams id = (sys.streams id).map (·.push p.event)) ∨
    (event = .tryRecv id ∧
      (sys.step json event).1.streams id = (sys.streams id).map Stream.tryRecv) ∨
    (event = .close id ∧
      (sys.step json event).1.streams id = (sys.streams id).map Stream.close) ∨
    (∃ sinceSeq filter, event = .subscribe sinceSeq filter ∧ id = sys.inner.nextSubscriber ∧
      (sys.step json event).1.streams id =
        some ⟨(EventBus.replay json sys.inner sinceSeq).foldl QueueState.push
          (QueueState.new filter sys.bus.subscriberCapacity), []⟩) := by
  cases event with
  | stamp name params sessionId => exact Or.inl ⟨by simp, rfl⟩
  | push i other =>
    by_cases h : id = other
    · subst h
      by_cases hheld : ∃ p, sys.published[i]? = some p ∧ id ∈ p.remaining
      · obtain ⟨p, hp, hid⟩ := hheld
        refine Or.inr (Or.inl ⟨i, p, rfl, hp, hid, ?_⟩)
        show (sys.push i id).streams id = _
        rw [push_held hp hid]
        exact sys.updateStream_self id _
      · refine Or.inl ⟨?_, ?_⟩
        · intro i' p heq hp hid
          simp only [BusStep.push.injEq, and_true] at heq
          exact hheld ⟨p, heq ▸ hp, hid⟩
        · rcases sys.push_cases i id with heq | ⟨p, hp, hid, -⟩
          · exact congrArg (fun s => BusSystem.streams s id) heq
          · exact absurd ⟨p, hp, hid⟩ hheld
    · refine Or.inl ⟨?_, sys.push_streams_ne i h⟩
      intro i' p heq
      simp only [BusStep.push.injEq] at heq
      exact absurd heq.2.symm h
  | subscribe sinceSeq filter =>
    by_cases h : id = sys.inner.nextSubscriber
    · refine Or.inr (Or.inr (Or.inr (Or.inr ⟨sinceSeq, filter, rfl, h, ?_⟩)))
      subst h
      exact Function.update_self ..
    · exact Or.inl ⟨by simp, Function.update_of_ne h ..⟩
  | tryRecv other =>
    by_cases h : id = other
    · subst h
      exact Or.inr (Or.inr (Or.inl ⟨rfl, sys.updateStream_self id _⟩))
    · exact Or.inl ⟨by simp, sys.updateStream_ne _ h⟩
  | close other =>
    by_cases h : id = other
    · subst h
      exact Or.inr (Or.inr (Or.inr (Or.inl ⟨rfl, sys.updateStream_self id _⟩)))
    · exact Or.inl ⟨by simp, sys.updateStream_ne _ h⟩
  | unsubscribe other => exact Or.inl ⟨by simp, congrFun (sys.unsubscribe_streams other) id⟩

theorem nextSeq_le_step (json : JsonCodec) (sys : BusSystem) (event : BusStep) :
    sys.inner.nextSeq ≤ (sys.step json event).1.inner.nextSeq := by
  cases event with
  | stamp name params sessionId =>
    show _ ≤ (sys.stamp json name params sessionId).inner.nextSeq
    rw [(sys.stamp_inner json name params sessionId).1]
    omega
  | push i id =>
    show _ ≤ (sys.push i id).inner.nextSeq
    rw [push_inner]
  | subscribe sinceSeq filter => exact Nat.le_refl _
  | tryRecv id => exact Nat.le_refl _
  | close id => exact Nat.le_refl _
  | unsubscribe id =>
    show _ ≤ (sys.unsubscribe id).inner.nextSeq
    unfold unsubscribe
    split <;> exact Nat.le_refl _

theorem WellFormed.seq_lt {sys : BusSystem} (h : WellFormed sys) {j : Nat} {p : Publisher}
    (hp : sys.published[j]? = some p) : p.event.seq < sys.inner.nextSeq := by
  rw [h.stamped j p hp, h.nextSeq]
  have := (List.getElem?_eq_some_iff.mp hp).1
  omega

/--
What a step can do to the publishers, as the subscription `id` sees them: each holds the
queue as before, except one that has just pushed into it, and one just stamped holds every
registered queue.
-/
theorem published_cases {json : JsonCodec} {sys : BusSystem} {event : BusStep} {j : Nat}
    {q : Publisher} (hsys : WellFormed sys)
    (hq : (sys.step json event).1.published[j]? = some q) (id : Nat) :
    (∃ p, sys.published[j]? = some p ∧ q.event = p.event ∧
      (id ∈ q.remaining ↔ id ∈ p.remaining ∧ event ≠ .push j id)) ∨
    j = sys.published.length ∧ q.event.seq = sys.inner.nextSeq ∧
      q.remaining = sys.inner.subscribers := by
  cases event with
  | stamp name params sessionId =>
    change (sys.stamp json name params sessionId).published[j]? = some q at hq
    rw [stamp_published, List.getElem?_append] at hq
    by_cases hj : j < sys.published.length
    · rw [if_pos hj] at hq
      exact Or.inl ⟨q, hq, rfl, by simp⟩
    · rw [if_neg hj] at hq
      have hlt := (List.getElem?_eq_some_iff.mp hq).1
      have hj' : j = sys.published.length := by
        simp only [List.length_singleton] at hlt
        omega
      subst hj'
      rw [Nat.sub_self] at hq
      rw [← Option.some.inj hq]
      exact Or.inr ⟨rfl, rfl, rfl⟩
  | push i other =>
    change (sys.push i other).published[j]? = some q at hq
    obtain ⟨p, hp, hevent, hsub, hothers⟩ := push_published hq
    refine Or.inl ⟨p, hp, hevent, ?_⟩
    by_cases hsame : other = id ∧ i = j
    · obtain ⟨rfl, rfl⟩ := hsame
      simp only [ne_eq, not_true_eq_false, and_false, iff_false]
      intro hid
      -- a publisher holds a queue once, so it does not after its push
      rw [push_held hp (hsub.subset hid),
        List.getElem?_set_self (List.getElem?_eq_some_iff.mp hp).1] at hq
      rw [← Option.some.inj hq] at hid
      exact (hsys.remaining p (List.mem_of_getElem? hp)).1.not_mem_erase hid
    · have hne : BusStep.push i other ≠ .push j id := by
        intro h
        simp only [BusStep.push.injEq] at h
        exact hsame ⟨h.2, h.1⟩
      by_cases hid : id = other
      · -- another publisher pushed into the queue
        have hij : i ≠ j := fun h => hsame ⟨hid.symm, h⟩
        have hpq : p = q := by
          rcases sys.push_cases i other with heq | ⟨_, -, -, heq⟩
          · rw [heq, hp] at hq
            exact Option.some.inj hq
          · rw [heq, List.getElem?_set_ne hij, hp] at hq
            exact Option.some.inj hq
        rw [hpq]
        simp [hne]
      · rw [hothers id hid]
        simp [hne]
  | subscribe sinceSeq filter => exact Or.inl ⟨q, hq, rfl, by simp⟩
  | tryRecv other => exact Or.inl ⟨q, hq, rfl, by simp⟩
  | close other => exact Or.inl ⟨q, hq, rfl, by simp⟩
  | unsubscribe other =>
    have hpub : (sys.unsubscribe other).published = sys.published := by
      unfold unsubscribe
      split <;> rfl
    change (sys.unsubscribe other).published[j]? = some q at hq
    rw [hpub] at hq
    exact Or.inl ⟨q, hq, rfl, by simp⟩

end BusSystem

end Homie.Events

/-! ### The order in which a subscriber receives

`InOrder` is the invariant: what has reached a subscription is strictly increasing, and
everything its publishers still hold for it is later.  A push keeps it when no earlier
event is still on its way to the same queue.  The bus itself does not see to that: two
`publish` calls leave the bus lock in the order of their stamps and may then reach a
queue in either order.
-/

namespace Homie.Events

open Trace

abbrev BusTraceStep := Step BusSystem BusStep Unit

namespace BusSystem

/-- What the subscription `id` has received is strictly increasing in its sequence numbers. -/
def ReceivesInOrder (sys : BusSystem) (id : Nat) : Prop :=
  ∀ stream, sys.streams id = some stream → (numbers stream.received).Pairwise (· < ·)

/-- The publisher `i` still has an event for the queue `id` that the queue would take. -/
def Owes (sys : BusSystem) (id i : Nat) : Prop :=
  ∃ p stream, sys.published[i]? = some p ∧ id ∈ p.remaining ∧ sys.streams id = some stream ∧
    stream.state.takes p.event = true

/-- A step that pushes into the queue `id` finds no earlier event on its way there. -/
def InStampOrder (id : Nat) (s : BusTraceStep) : Prop :=
  ∀ i, s.event = .push i id → s.before.Owes id i → ∀ j < i, ¬ s.before.Owes id j

/-- The invariant of one subscription. -/
structure InOrder (sys : BusSystem) (id : Nat) (stream : Stream) : Prop where
  increasing : (numbers stream.seen).Pairwise (· < ·)
  below : ∀ n ∈ numbers stream.seen, n < sys.inner.nextSeq
  /-- What is still on its way is later than what has arrived. -/
  owed : ∀ (j : Nat) (p : Publisher), sys.published[j]? = some p → id ∈ p.remaining →
    stream.state.takes p.event = true → ∀ n ∈ numbers stream.seen, n < p.event.seq

/-! ### What a push does to it -/

theorem InOrder.push {sys : BusSystem} {id i : Nat} {stream : Stream} {p : Publisher}
    (hsys : WellFormed sys) (h : InOrder sys id stream) (hp : sys.published[i]? = some p)
    (hid : id ∈ p.remaining) (htakes : stream.state.takes p.event = true) :
    (numbers (stream.push p.event).seen).Pairwise (· < ·) ∧
      ∀ n ∈ numbers (stream.push p.event).seen, n ≤ p.event.seq := by
  have hpos : p.event.seq ≠ 0 := by
    rw [hsys.stamped i p hp]
    omega
  have hsub := stream.numbers_push_sublist htakes hpos
  refine ⟨List.Pairwise.sublist hsub (List.pairwise_append.mpr ⟨h.increasing, by simp, ?_⟩), ?_⟩
  · intro n hn m hm
    rw [List.mem_singleton.mp hm]
    exact h.owed i p hp hid htakes n hn
  · intro n hn
    rcases List.mem_append.mp (hsub.subset hn) with hn | hn
    · exact Nat.le_of_lt (h.owed i p hp hid htakes n hn)
    · rw [List.mem_singleton.mp hn]

theorem takes_push (state : QueueState) (event other : Event) :
    (state.push event).takes other = state.takes other := by
  simp [QueueState.takes]

theorem takes_tryRecv (stream : Stream) (event : Event) :
    stream.tryRecv.state.takes event = stream.state.takes event := by
  rw [stream.tryRecv_state]
  rfl

/-! ### A new subscription -/

theorem numbers_foldl_push (events : List Event) (state : QueueState) :
    (numbers (events.foldl QueueState.push state).queue).Sublist
      (numbers state.queue ++ numbers events) := by
  induction events generalizing state with
  | nil => simp
  | cons event events ih =>
    have hcons : numbers (event :: events) = numbers [event] ++ numbers events :=
      numbers_append [event] events
    rw [List.foldl_cons, hcons, ← List.append_assoc]
    refine (ih _).trans (List.Sublist.append ?_ (List.Sublist.refl _))
    by_cases h : state.takes event = true
    · rw [QueueState.push_takes h, numbers_append]
      exact (QueueState.numbers_makeRoom state).append (List.Sublist.refl _)
    · rw [QueueState.push_refused h]
      exact List.sublist_append_left _ _

theorem inOrder_subscribe {json : JsonCodec} {sys : BusSystem} (hsys : WellFormed sys)
    (sinceSeq : Option Nat) (filter : Filter) :
    InOrder (sys.subscribe json sinceSeq filter) sys.inner.nextSubscriber
      ⟨(EventBus.replay json sys.inner sinceSeq).foldl QueueState.push
        (QueueState.new filter sys.bus.subscriberCapacity), []⟩ := by
  have hsub : (numbers (Stream.seen ⟨(EventBus.replay json sys.inner sinceSeq).foldl
      QueueState.push (QueueState.new filter sys.bus.subscriberCapacity), []⟩)).Sublist
      (sys.inner.ring.map Archived.seq) :=
    (numbers_foldl_push _ _).trans
      (List.filter_sublist.trans (EventBus.replay_seqs json sys.inner sinceSeq))
  refine ⟨hsys.ring.sublist hsub, fun n hn => (hsys.ringBound n (hsub.subset hn)).2, ?_⟩
  intro j p hp hid
  -- no publisher can hold a queue that was not registered when it stamped
  have := (hsys.remaining p (List.mem_of_getElem? hp)).2 _ hid
  omega

/-! ### Every step -/

/-- A step that leaves the queue alone, or only takes from it, keeps the order. -/
theorem InOrder.keep {json : JsonCodec} {sys : BusSystem} {event : BusStep} {id : Nat}
    {stream next : Stream} (hsys : WellFormed sys) (h : InOrder sys id stream)
    (hseen : next.seen = stream.seen)
    (htakes : ∀ e, next.state.takes e = true → stream.state.takes e = true) :
    InOrder (sys.step json event).1 id next := by
  refine ⟨by rw [hseen]; exact h.increasing, ?_, ?_⟩
  · intro n hn
    rw [hseen] at hn
    exact Nat.lt_of_lt_of_le (h.below n hn) (nextSeq_le_step json sys event)
  · intro j q hq hid htake n hn
    rw [hseen] at hn
    rcases published_cases hsys hq id with ⟨p, hp, hevent, hheld⟩ | ⟨-, hseq, -⟩
    · rw [hevent] at htake ⊢
      exact h.owed j p hp (hheld.mp hid).1 (htakes _ htake) n hn
    · rw [hseq]
      exact h.below n hn

theorem inOrder_step {json : JsonCodec} {sys : BusSystem} {event : BusStep} {id : Nat}
    (hsys : WellFormed sys) (h : ∀ stream, sys.streams id = some stream → InOrder sys id stream)
    (horder : InStampOrder id (take (step json) sys event)) :
    ∀ stream, (sys.step json event).1.streams id = some stream →
      InOrder (sys.step json event).1 id stream := by
  intro next hnext
  rcases streams_cases json sys event id with
    ⟨-, hsame⟩ | ⟨i, p, rfl, hp, hid, hpush⟩ | ⟨-, hrecv⟩ | ⟨-, hclose⟩ | ⟨since, filter, rfl, rfl, hnew⟩
  · rw [hsame] at hnext
    exact (h next hnext).keep hsys rfl fun _ h => h
  · rw [hpush] at hnext
    obtain ⟨stream, hstream, rfl⟩ := Option.map_eq_some_iff.mp hnext
    have hs := h stream hstream
    by_cases htakes : stream.state.takes p.event = true
    · obtain ⟨hinc, hle⟩ := hs.push hsys hp hid htakes
      refine ⟨hinc, ?_, ?_⟩
      · intro n hn
        exact Nat.lt_of_lt_of_le (Nat.lt_of_le_of_lt (hle n hn) (hsys.seq_lt hp))
          (nextSeq_le_step json sys _)
      · intro j q hq hheld htake n hn
        refine Nat.lt_of_le_of_lt (hle n hn) ?_
        rcases published_cases hsys hq id with ⟨p', hp', hevent, hheld'⟩ | ⟨-, hseq, -⟩
        · -- a later publisher, or the push would have been out of order
          obtain ⟨hin, hne⟩ := hheld'.mp hheld
          have htake' : stream.state.takes p'.event = true := by
            rw [← hevent, ← takes_push stream.state p.event]
            exact htake
          have hij : i < j := by
            rcases Nat.lt_trichotomy i j with hlt | rfl | hgt
            · exact hlt
            · exact absurd rfl hne
            · exact absurd ⟨p', stream, hp', hin, hstream, htake'⟩
                (horder i rfl ⟨p, stream, hp, hid, hstream, htakes⟩ j hgt)
          rw [hevent, hsys.stamped i p hp, hsys.stamped j p' hp']
          omega
        · rw [hseq]
          exact hsys.seq_lt hp
    · rw [Stream.push_refused htakes]
      exact hs.keep hsys rfl fun _ h => h
  · rw [hrecv] at hnext
    obtain ⟨stream, hstream, rfl⟩ := Option.map_eq_some_iff.mp hnext
    refine (h stream hstream).keep hsys stream.tryRecv_seen fun e he => ?_
    rwa [takes_tryRecv] at he
  · rw [hclose] at hnext
    obtain ⟨stream, hstream, rfl⟩ := Option.map_eq_some_iff.mp hnext
    exact (h stream hstream).keep hsys stream.close_seen fun e he => by
      simp [QueueState.takes, Stream.close] at he
  · rw [hnew] at hnext
    rw [← Option.some.inj hnext]
    exact inOrder_subscribe hsys since filter

/-! ### The main result -/

/-- **Pushes in the order of the stamps deliver in order.** In every run in which no event is
pushed into a subscriber's queue past an earlier one still on its way there, the sequence
numbers the subscriber receives are strictly increasing. -/
theorem received_in_order {json : JsonCodec} {bus : EventBus} {steps : List BusStep} {id : Nat}
    (h : ∀ s ∈ trace (step json) (new bus) steps, InStampOrder id s) :
    ReceivesInOrder (after json bus steps) id := by
  have hrun : WellFormed (after json bus steps) ∧ ∀ stream,
      (after json bus steps).streams id = some stream → InOrder (after json bus steps) id stream := by
    refine run_invariant_where (step json)
      (P := fun sys => WellFormed sys ∧
        ∀ stream, sys.streams id = some stream → InOrder sys id stream) h ?_ ?_
    · exact ⟨wellFormed_new bus, fun stream hs => by simp [new] at hs⟩
    · intro sys event horder hsys
      exact ⟨hsys.1.step json event, inOrder_step hsys.1 hsys.2 horder⟩
  intro stream hstream
  exact (hrun.2 stream hstream).increasing.sublist
    (numbers_sublist (List.sublist_append_left _ _))

/-- Two publishers that push in the order of their stamps. -/
theorem received_in_order_two_publishers :
    ReceivesInOrder (after emptyObjectJson (EventBus.withCapacities 4096 (8 <<< 20) none)
      [.subscribe none .all, .stamp "a" (.object []) none, .stamp "b" (.object []) none,
        .push 0 0, .push 1 0, .tryRecv 0, .tryRecv 0]) 0 := by
  apply received_in_order
  intro s hs i hi _ j hj hearlier
  simp only [trace, List.mem_cons, List.not_mem_nil, or_false] at hs
  rcases hs with rfl | rfl | rfl | rfl | rfl | rfl | rfl <;> cases hi
  · exact absurd hj (Nat.not_lt_zero j)
  · -- the first publisher has already pushed
    obtain rfl : j = 0 := by omega
    obtain ⟨p, -, hp, hid, -⟩ := hearlier
    cases hp
    exact absurd hid (by decide)

/-- Two publishers leave the bus lock and push in the opposite order: 2 arrives before 1. -/
theorem received_out_of_order :
    ¬ ReceivesInOrder (after emptyObjectJson (EventBus.withCapacities 4096 (8 <<< 20) none)
      [.subscribe none .all, .stamp "a" (.object []) none, .stamp "b" (.object []) none,
        .push 1 0, .push 0 0, .tryRecv 0, .tryRecv 0]) 0 := by
  intro h
  have := h _ rfl
  revert this
  decide

end BusSystem

end Homie.Events
