/-
The replay ring, over every run of the bus.

What `subscribe(since)` replays is gapless only if the ring holds a stretch of the numbers that
ends at the newest.  An archive adds at the back and evicts at the front until both limits are
met; an entry that is larger than the byte limit evicts everything and itself.
-/
import Homie.Proofs.EventBus

namespace Homie.Events

open Trace

/-- The storage of the entries of a ring. -/
def storageOf (ring : List Archived) : Nat := (ring.map Archived.storageBytes).sum

/-- The numbers of the ring are a stretch that ends below `next`. -/
def EndsAt (ring : List Archived) (next : Nat) : Prop :=
  ∃ first, ring.map Archived.seq = List.range' first ring.length ∧ first + ring.length = next

theorem EndsAt.suffix {ring back : List Archived} {next : Nat} (h : EndsAt ring next)
    (hback : back <:+ ring) : EndsAt back next := by
  obtain ⟨first, hseqs, hnext⟩ := h
  obtain ⟨front, rfl⟩ := hback
  rw [List.length_append] at hseqs hnext
  refine ⟨first + front.length, ?_, by omega⟩
  rw [List.map_append, ← List.range'_append_1] at hseqs
  exact (List.append_inj hseqs (by simp)).2

theorem EndsAt.concat {ring : List Archived} {archived : Archived} {next : Nat}
    (h : EndsAt ring next) (hseq : archived.seq = next) : EndsAt (ring ++ [archived]) (next + 1) := by
  obtain ⟨first, hseqs, hnext⟩ := h
  refine ⟨first, ?_, by simp; omega⟩
  rw [List.map_append, hseqs, List.length_append, ← List.range'_append_1, hnext]
  simp [hseq]

theorem endsAt_nil (next : Nat) : EndsAt [] next :=
  ⟨next, rfl, rfl⟩

namespace EventBus

/-- Trimming an exact ring leaves the newest entries, within both limits, with their storage. -/
theorem trimRing_spec (bus : EventBus) (ring : List Archived) :
    (bus.trimRing ring (storageOf ring)).1 <:+ ring ∧
      (bus.trimRing ring (storageOf ring)).2
        = storageOf (bus.trimRing ring (storageOf ring)).1 ∧
      (bus.trimRing ring (storageOf ring)).1.length ≤ bus.ringCapacity ∧
      (bus.trimRing ring (storageOf ring)).2 ≤ bus.ringByteCapacity := by
  induction ring with
  | nil => exact ⟨List.suffix_rfl, rfl, Nat.zero_le _, Nat.zero_le _⟩
  | cons oldest rest ih =>
    have hrest : storageOf (oldest :: rest) - oldest.storageBytes = storageOf rest :=
      Nat.add_sub_cancel_left ..
    rw [trimRing, hrest]
    split
    · obtain ⟨hsuffix, hexact⟩ := ih
      exact ⟨hsuffix.trans (List.suffix_cons oldest rest), hexact⟩
    · next hfits =>
        rw [not_or, Nat.not_lt, Nat.not_lt] at hfits
        exact ⟨List.suffix_rfl, rfl, hfits.1, hfits.2⟩

/-- The ring's byte count is exact, both limits hold and the numbers end at the newest. -/
structure RingExact (bus : EventBus) (inner : BusInner) : Prop where
  bytes : inner.ringBytes = storageOf inner.ring
  count : inner.ring.length ≤ bus.ringCapacity
  size : inner.ringBytes ≤ bus.ringByteCapacity
  endsAt : EndsAt inner.ring inner.nextSeq

theorem RingExact.stamp {bus : EventBus} {json : JsonCodec} {inner : BusInner}
    (h : RingExact bus inner) {params : JsonValue} (hjson : (json.toVec params).isSome)
    (name : String) (sessionId : Option String) :
    RingExact bus (bus.stamp json inner name params sessionId).2 := by
  unfold EventBus.stamp archive
  obtain ⟨encoded, hencoded⟩ := Option.isSome_iff_exists.mp hjson
  by_cases hring : bus.ringCapacity > 0 ∧ bus.ringByteCapacity > 0
  · simp only [if_pos hring, hencoded]
    have hstorage : inner.ringBytes
          + (⟨name, inner.nextSeq, sessionId, encoded⟩ : Archived).storageBytes
        = storageOf (inner.ring ++ [⟨name, inner.nextSeq, sessionId, encoded⟩]) := by
      simp [h.bytes, storageOf]
    rw [hstorage]
    obtain ⟨hsuffix, hexact, hcount, hsize⟩ := bus.trimRing_spec
      (inner.ring ++ [⟨name, inner.nextSeq, sessionId, encoded⟩])
    exact ⟨hexact, hcount, hsize, (h.endsAt.concat rfl).suffix hsuffix⟩
  · -- Without a ring nothing is archived, and the ring has been empty all along.
    simp only [if_neg hring]
    have hempty : inner.ring = [] := by
      cases hcells : inner.ring with
      | nil => rfl
      | cons oldest rest =>
        have hcount := h.count
        have hsize := h.size
        rw [h.bytes] at hsize
        rw [hcells] at hcount hsize
        simp only [storageOf, List.map_cons, List.sum_cons, Archived.storageBytes,
          List.length_cons] at hcount hsize
        exact absurd ⟨by omega, by omega⟩ hring
    refine ⟨h.bytes, h.count, h.size, ?_⟩
    show EndsAt inner.ring _
    rw [hempty]
    exact endsAt_nil _

end EventBus

namespace BusSystem

open EventBus (RingExact)

/-- A step archives an event, or leaves the ring and the counter alone. -/
theorem ring_step (json : JsonCodec) (sys : BusSystem) (event : BusStep) :
    (∃ name params sessionId, event = .stamp name params sessionId) ∨
      (sys.step json event).1.inner.ring = sys.inner.ring ∧
        (sys.step json event).1.inner.ringBytes = sys.inner.ringBytes ∧
        (sys.step json event).1.inner.nextSeq = sys.inner.nextSeq := by
  cases event with
  | stamp name params sessionId => exact Or.inl ⟨name, params, sessionId, rfl⟩
  | push publisher id =>
    refine Or.inr ?_
    rw [show (sys.step json (.push publisher id)).1 = sys.push publisher id from rfl, push_inner]
    exact ⟨rfl, rfl, rfl⟩
  | subscribe sinceSeq filter => exact Or.inr ⟨rfl, rfl, rfl⟩
  | tryRecv id => exact Or.inr ⟨rfl, rfl, rfl⟩
  | close id => exact Or.inr ⟨rfl, rfl, rfl⟩
  | unsubscribe id =>
    refine Or.inr ?_
    rw [show (sys.step json (.unsubscribe id)).1 = sys.unsubscribe id from rfl, unsubscribe]
    split <;> exact ⟨rfl, rfl, rfl⟩

theorem bus_step (json : JsonCodec) (sys : BusSystem) (event : BusStep) :
    (sys.step json event).1.bus = sys.bus := by
  cases event with
  | stamp name params sessionId => rfl
  | push publisher id =>
    show (sys.push publisher id).bus = sys.bus
    rcases sys.push_cases publisher id with h | ⟨p, -, -, h⟩
    · rw [h]
    · rw [h]
      rfl
  | subscribe sinceSeq filter => rfl
  | tryRecv id => rfl
  | close id => rfl
  | unsubscribe id =>
    show (sys.unsubscribe id).bus = sys.bus
    unfold unsubscribe
    split <;> rfl

theorem ringExact_step {json : JsonCodec} {sys : BusSystem} {event : BusStep}
    (h : RingExact sys.bus sys.inner)
    (hjson : ∀ name params sessionId, event = .stamp name params sessionId →
      (json.toVec params).isSome) :
    RingExact sys.bus (sys.step json event).1.inner := by
  rcases ring_step json sys event with ⟨name, params, sessionId, rfl⟩ | ⟨hring, hbytes, hnext⟩
  · have hstamped := h.stamp (hjson name params sessionId rfl) name sessionId
    exact hstamped
  · refine ⟨?_, ?_, ?_, ?_⟩
    · rw [hbytes, hring]
      exact h.bytes
    · rw [hring]
      exact h.count
    · rw [hbytes]
      exact h.size
    · rw [hring, hnext]
      exact h.endsAt

theorem ringExact_after (json : JsonCodec) (bus : EventBus) (steps : List BusStep)
    (hjson : ∀ name params sessionId, BusStep.stamp name params sessionId ∈ steps →
      (json.toVec params).isSome) : RingExact bus (after json bus steps).inner := by
  have hencodes : ∀ x ∈ trace (step json) (new bus) steps, ∀ name params sessionId,
      x.event = .stamp name params sessionId → (json.toVec params).isSome := by
    intro x hx name params sessionId hevent
    refine hjson name params sessionId (hevent ▸ ?_)
    rw [← trace_events (step json) (new bus) steps]
    exact List.mem_map_of_mem hx
  have hrun : (after json bus steps).bus = bus ∧ RingExact bus (after json bus steps).inner := by
    refine run_invariant_where (step json)
      (P := fun sys => sys.bus = bus ∧ RingExact bus sys.inner) hencodes ?_ ?_
    · exact ⟨rfl, rfl, Nat.zero_le _, Nat.zero_le _, endsAt_nil 1⟩
    · rintro sys event hevent ⟨rfl, hexact⟩
      exact ⟨bus_step json sys event, ringExact_step hexact hevent⟩
  exact hrun.2

/-- **The ring is exact in every state.** Whatever is published, subscribed, received and dropped
in whatever order, the ring's byte count is the storage of its entries, neither limit is passed
and the numbers in it are a stretch that ends just below the next one. -/
theorem ring_exact (json : JsonCodec) (bus : EventBus) (steps : List BusStep)
    (hjson : ∀ name params sessionId, BusStep.stamp name params sessionId ∈ steps →
      (json.toVec params).isSome) :
    (after json bus steps).inner.ringBytes
        = ((after json bus steps).inner.ring.map Archived.storageBytes).sum ∧
      (after json bus steps).inner.ring.length ≤ bus.ringCapacity ∧
      (after json bus steps).inner.ringBytes ≤ bus.ringByteCapacity ∧
      ∃ first, (after json bus steps).inner.ring.map Archived.seq
          = List.range' first (after json bus steps).inner.ring.length ∧
        first + (after json bus steps).inner.ring.length = (after json bus steps).inner.nextSeq := by
  have hexact := ringExact_after json bus steps hjson
  exact ⟨hexact.bytes, hexact.count, hexact.size, hexact.endsAt⟩

/-- The second entry pushes the first out of a ring for one. -/
theorem ring_exact_two_stamps :
    ∃ first, (after emptyObjectJson (EventBus.withCapacities 1 64 none)
        [.stamp "a" .null none, .stamp "b" .null none]).inner.ring.map Archived.seq
          = List.range' first (after emptyObjectJson (EventBus.withCapacities 1 64 none)
            [.stamp "a" .null none, .stamp "b" .null none]).inner.ring.length ∧
      first + (after emptyObjectJson (EventBus.withCapacities 1 64 none)
            [.stamp "a" .null none, .stamp "b" .null none]).inner.ring.length = 3 :=
  (ring_exact emptyObjectJson (EventBus.withCapacities 1 64 none)
    [.stamp "a" .null none, .stamp "b" .null none] fun _ _ _ _ => rfl).2.2.2

/-! ### What a late subscriber is sent -/

theorem filter_range' (since first count : Nat) (h : first ≤ since + 1) :
    (List.range' first count).filter (since < ·)
      = List.range' (since + 1) (first + count - 1 - since) := by
  rcases Nat.le_total (first + count) (since + 1) with hall | hsome
  · have hzero : first + count - 1 - since = 0 := by omega
    rw [hzero, List.range'_zero, List.filter_eq_nil_iff]
    intro n hn
    have hbounds := List.mem_range'_1.mp hn
    simp only [decide_eq_true_eq]
    omega
  · have hsplit : count = (since + 1 - first) + (first + count - 1 - since) := by omega
    rw [hsplit, ← List.range'_append_1, List.filter_append]
    have hbefore : (List.range' first (since + 1 - first)).filter (since < ·) = [] := by
      rw [List.filter_eq_nil_iff]
      intro n hn
      have hbounds := List.mem_range'_1.mp hn
      simp only [decide_eq_true_eq]
      omega
    have hbehind : (List.range' (first + (since + 1 - first))
          (first + count - 1 - since)).filter (since < ·)
        = List.range' (first + (since + 1 - first)) (first + count - 1 - since) := by
      rw [List.filter_eq_self]
      intro n hn
      have hbounds := List.mem_range'_1.mp hn
      simp only [decide_eq_true_eq]
      omega
    rw [hbefore, hbehind, List.nil_append, ← hsplit]
    congr 1
    omega

/-- **A replay has no holes.** A subscriber that asks for what follows `since`, while the ring
still holds the number after it, is sent exactly the numbers from there to the newest, in order. -/
theorem replay_gapless (json : JsonCodec) (bus : EventBus) (steps : List BusStep) (since : Nat)
    (hjson : ∀ name params sessionId, BusStep.stamp name params sessionId ∈ steps →
      (json.toVec params).isSome)
    (hheld : (after json bus steps).inner.nextSeq
      ≤ since + 1 + (after json bus steps).inner.ring.length) :
    (EventBus.replay json (after json bus steps).inner (some since)).map Event.seq
      = List.range' (since + 1) ((after json bus steps).inner.nextSeq - 1 - since) := by
  obtain ⟨first, hseqs, hnext⟩ := (ringExact_after json bus steps hjson).endsAt
  have hmap : (EventBus.replay json (after json bus steps).inner (some since)).map Event.seq
      = ((after json bus steps).inner.ring.map Archived.seq).filter (since < ·) := by
    rw [EventBus.replay, List.map_map, List.filter_map]
    rfl
  rw [hmap, hseqs, filter_range' since first _ (by omega), hnext]

theorem replay_gapless_second :
    (EventBus.replay emptyObjectJson (after emptyObjectJson (EventBus.withCapacities 2 64 none)
        [.stamp "a" .null none, .stamp "b" .null none]).inner (some 1)).map Event.seq
      = List.range' 2 1 :=
  replay_gapless emptyObjectJson (EventBus.withCapacities 2 64 none)
    [.stamp "a" .null none, .stamp "b" .null none] 1 (fun _ _ _ _ => rfl) (by decide)

/-! ### What a slow subscriber can hold up -/

/-- A full queue and the marker of its hole. -/
def Bounded (capacity : Nat) (state : QueueState) : Prop :=
  state.capacity = capacity ∧ state.queue.length ≤ capacity + 1

theorem Bounded.push {capacity : Nat} {state : QueueState} (h : Bounded capacity state)
    (event : Event) : Bounded capacity (state.push event) := by
  obtain ⟨rfl, hlength⟩ := h
  by_cases htakes : state.takes event = true
  · rw [QueueState.push_takes htakes]
    rcases state.makeRoom_cases with
      ⟨evicted, rest, hqueue, -, heq⟩ | ⟨hroom, -, heq⟩ | ⟨hroom, heq⟩
    · rw [heq]
      rw [hqueue] at hlength
      exact ⟨rfl, by simpa using hlength⟩
    · rw [heq]
      refine ⟨rfl, ?_⟩
      simp only [List.length_append, List.length_singleton]
      omega
    · rw [heq]
      refine ⟨rfl, ?_⟩
      rw [List.length_append, List.length_singleton]
      by_cases hfull : state.capacity ≤ state.queue.length
      · rcases hroom with hdropped | hempty
        · -- A full queue is changed, unless nothing is in it.
          have hsame := congrArg QueueState.dropped heq
          unfold QueueState.makeRoom at hsame
          rw [if_pos hfull] at hsame
          cases hqueue : state.queue with
          | nil => simp
          | cons evicted rest =>
            rw [hqueue] at hsame
            simp at hsame
        · simp [hempty]
      · omega
  · rw [QueueState.push_refused htakes]
    exact ⟨rfl, hlength⟩

theorem Bounded.foldl {capacity : Nat} (events : List Event) {state : QueueState}
    (h : Bounded capacity state) : Bounded capacity (events.foldl QueueState.push state) := by
  induction events generalizing state with
  | nil => exact h
  | cons event events ih => exact ih (h.push event)

/-- **A slow subscriber holds up a bounded queue.** In every interleaving no queue ever holds more
events than its capacity and one marker. -/
theorem queues_bounded (json : JsonCodec) (bus : EventBus) (steps : List BusStep) (id : Nat) :
    ∀ stream, (after json bus steps).streams id = some stream →
      stream.state.queue.length ≤ bus.subscriberCapacity + 1 := by
  have hrun : (after json bus steps).bus = bus ∧ ∀ stream,
      (after json bus steps).streams id = some stream →
        Bounded bus.subscriberCapacity stream.state := by
    refine run_invariant (step json) (P := fun sys => sys.bus = bus ∧ ∀ stream,
      sys.streams id = some stream → Bounded bus.subscriberCapacity stream.state) ?_ ?_ steps
    · exact ⟨rfl, fun stream hstream => nomatch hstream⟩
    · rintro sys event ⟨rfl, hall⟩
      refine ⟨bus_step json sys event, ?_⟩
      intro stream hstream
      rcases sys.streams_cases json event id with ⟨-, heq⟩ | ⟨i, p, -, -, -, heq⟩ |
        ⟨-, heq⟩ | ⟨-, heq⟩ | ⟨since, filter, -, -, heq⟩
      · exact hall stream (heq ▸ hstream)
      · obtain ⟨before, hbefore, rfl⟩ := Option.map_eq_some_iff.mp (heq ▸ hstream)
        exact (hall before hbefore).push p.event
      · obtain ⟨before, hbefore, rfl⟩ := Option.map_eq_some_iff.mp (heq ▸ hstream)
        obtain ⟨hcapacity, hlength⟩ := hall before hbefore
        unfold Stream.tryRecv QueueState.tryRecv
        split
        · exact ⟨hcapacity, hlength⟩
        · split
          · exact ⟨hcapacity, hlength⟩
          · next hqueue =>
            rw [hqueue] at hlength
            exact ⟨hcapacity, Nat.le_of_succ_le hlength⟩
      · obtain ⟨before, hbefore, rfl⟩ := Option.map_eq_some_iff.mp (heq ▸ hstream)
        exact hall before hbefore
      · obtain rfl := Option.some.inj (heq ▸ hstream)
        exact Bounded.foldl _ ⟨rfl, Nat.zero_le _⟩
  exact fun stream hstream => (hrun.2 stream hstream).2

/-- Two events for a queue of one. -/
def overflowing : List BusStep :=
  [.subscribe none .all, .stamp "a" .null none, .stamp "b" .null none, .push 0 0, .push 1 0]

theorem queues_bounded_overflow : ∃ stream,
    (after emptyObjectJson (EventBus.withCapacities 1 64 (some 1)) overflowing).streams 0
      = some stream ∧ stream.state.queue.length ≤ 1 + 1 := by
  obtain ⟨stream, hstream⟩ := Option.isSome_iff_exists.mp (show ((after emptyObjectJson
    (EventBus.withCapacities 1 64 (some 1)) overflowing).streams 0).isSome = true by decide)
  exact ⟨stream, hstream, queues_bounded emptyObjectJson _ overflowing 0 stream hstream⟩

end BusSystem

end Homie.Events
