/-
The seam between replay and live delivery.

`subscribe` replays the ring and registers the queue under the lock that stamping,
archiving and collecting the queues also take.  A publisher that stamped before the
subscription therefore does not hold the new queue, and its event is in the ring if it
was kept; one that stamps after it does hold the queue, and its event was not in the
ring.  `Seam` states this per event, by counting arrivals.
-/
import Homie.Proofs.EventBus

namespace Homie.Events

open Trace

/-! ### A queue that never overflows -/

namespace QueueState

/-- A push without overflow only appends. -/
theorem push_fits {state : QueueState} {event : Event} (htakes : state.takes event = true)
    (hbefore : state.dropped = 0) (hafter : (state.push event).dropped = 0) :
    state.push event = { state with queue := state.queue ++ [event] } := by
  rw [push_takes htakes] at hafter ⊢
  rcases state.makeRoom_cases with ⟨evicted, rest, -, -, heq⟩ | ⟨-, hpos, -⟩ | ⟨-, heq⟩
  · rw [heq] at hafter
    exact absurd hafter (Nat.succ_ne_zero _)
  · omega
  · rw [heq]

/-- A queue that has overflowed and that nobody reads stays so. -/
def Overflowed (state : QueueState) : Prop :=
  0 < state.dropped ∧ state.capacity ≤ state.queue.length

theorem Overflowed.push {state : QueueState} (h : state.Overflowed) (event : Event) :
    (state.push event).Overflowed := by
  by_cases htakes : state.takes event = true
  · rw [push_takes htakes]
    rcases state.makeRoom_cases with ⟨evicted, rest, hqueue, hfull, heq⟩ | ⟨hroom, -, -⟩ | ⟨-, heq⟩
    · rw [heq]
      rw [hqueue] at hfull
      exact ⟨Nat.succ_pos _, by simpa using hfull⟩
    · have := h.2
      omega
    · rw [heq]
      refine ⟨h.1, ?_⟩
      have := h.2
      show state.capacity ≤ (state.queue ++ [event]).length
      rw [List.length_append]
      omega
  · rw [push_refused htakes]
    exact h

theorem Overflowed.foldl {state : QueueState} (h : state.Overflowed) (events : List Event) :
    (events.foldl QueueState.push state).Overflowed := by
  induction events generalizing state with
  | nil => exact h
  | cons event events ih => exact ih (h.push event)

/-- The push that drops the first event leaves the queue overflowed. -/
theorem push_overflowed {state : QueueState} {event : Event} (hbefore : state.dropped = 0)
    (hafter : (state.push event).dropped ≠ 0) : (state.push event).Overflowed := by
  by_cases htakes : state.takes event = true
  · rw [push_takes htakes] at hafter ⊢
    rcases state.makeRoom_cases with ⟨evicted, rest, hqueue, hfull, heq⟩ | ⟨-, hpos, -⟩ | ⟨-, heq⟩
    · rw [heq]
      rw [hqueue] at hfull
      exact ⟨Nat.succ_pos _, by simpa using hfull⟩
    · omega
    · rw [heq] at hafter
      exact absurd hbefore hafter
  · rw [push_refused htakes] at hafter
    exact absurd hbefore hafter

theorem foldl_push_fits {events : List Event} {state : QueueState} (hopen : state.closed = false)
    (hbefore : state.dropped = 0) (hafter : (events.foldl QueueState.push state).dropped = 0) :
    events.foldl QueueState.push state
      = { state with queue := state.queue ++ events.filter state.filter.admits } := by
  induction events generalizing state with
  | nil => simp
  | cons event events ih =>
    rw [List.foldl_cons] at hafter ⊢
    have hmid : (state.push event).dropped = 0 := by
      by_contra hpos
      have := ((push_overflowed hbefore hpos).foldl events).1
      omega
    rw [ih (by rw [push_closed]; exact hopen) hmid hafter]
    by_cases hadmits : state.filter.admits event = true
    · have htakes : state.takes event = true := by simp [takes, hopen, hadmits]
      rw [push_fits htakes hbefore hmid]
      simp [hadmits]
    · have htakes : ¬ state.takes event = true := by simp [takes, hadmits]
      rw [push_refused htakes]
      simp [hadmits]

end QueueState

/-! ### Arrivals -/

namespace Stream

/-- How often the event numbered `n` has reached a subscription. -/
def arrivals (stream : Stream) (n : Nat) : Nat :=
  (stream.seen.map Event.seq).count n

theorem seen_push {stream : Stream} {event : Event}
    (htakes : stream.state.takes event = true) (hbefore : stream.state.dropped = 0)
    (hafter : (stream.push event).state.dropped = 0) :
    (stream.push event).seen = stream.seen ++ [event] := by
  rw [push, seen, QueueState.push_fits htakes hbefore hafter, seen, List.append_assoc]

/-- A push that is refused or finds room counts its event, if the queue takes it. -/
theorem arrivals_push {stream : Stream} {event : Event} (hbefore : stream.state.dropped = 0)
    (hafter : (stream.push event).state.dropped = 0) (n : Nat) :
    (stream.push event).arrivals n
      = stream.arrivals n + if stream.state.takes event = true ∧ event.seq = n then 1 else 0 := by
  by_cases htakes : stream.state.takes event = true
  · rw [arrivals, seen_push htakes hbefore hafter, List.map_append, List.count_append, arrivals]
    by_cases hn : event.seq = n
    · simp [hn, htakes]
    · simp [hn]
  · rw [push_refused htakes]
    simp [htakes]

end Stream

namespace BusSystem

/-- The queue `id` has overflowed and the marker is still to come. -/
def Overflowing (sys : BusSystem) (id : Nat) : Prop :=
  ∃ stream, sys.streams id = some stream ∧ stream.state.dropped ≠ 0

/--
What a subscription made in the state `start` has seen in the state `sys`: every event it
admits that was in the ring after `since`, once; every event it admits stamped later, once
or, while its publisher still holds the queue, not yet; and nothing else.
-/
structure Seamless (json : JsonCodec) (start sys : BusSystem) (since : Nat) (filter : Filter)
    (id : Nat) (stream : Stream) : Prop where
  replayed : ∀ archived ∈ start.inner.ring, since < archived.seq →
    filter.admits (archived.event json) = true → stream.arrivals archived.seq = 1
  live : ∀ p ∈ sys.published, start.inner.nextSeq ≤ p.event.seq →
    filter.admits p.event = true →
      stream.arrivals p.event.seq = if id ∈ p.remaining then 0 else 1
  nothingElse : ∀ event ∈ stream.seen,
    (∃ archived ∈ start.inner.ring, since < archived.seq ∧ event = archived.event json) ∨
      ∃ p ∈ sys.published, start.inner.nextSeq ≤ p.event.seq ∧ event = p.event

/-- The invariant behind it; `count` places are taken by events stamped before the
subscription. -/
structure Seam (count : Nat) (replayed : List Event) (filter : Filter) (id : Nat)
    (sys : BusSystem) (stream : Stream) : Prop where
  filtered : stream.state.filter = filter
  isOpen : stream.state.closed = false
  room : stream.state.dropped = 0
  registered : id ∈ sys.inner.subscribers
  early : ∀ n ≤ count, stream.arrivals n = (replayed.map Event.seq).count n
  notHeld : ∀ (j : Nat) (p : Publisher), j < count → sys.published[j]? = some p →
    id ∉ p.remaining
  grown : count ≤ sys.published.length
  live : ∀ (j : Nat) (p : Publisher), count ≤ j → sys.published[j]? = some p →
    stream.arrivals (j + 1) = if filter.admits p.event = true ∧ id ∉ p.remaining then 1 else 0
  later : ∀ n, sys.inner.nextSeq ≤ n → stream.arrivals n = 0
  origin : ∀ event ∈ stream.seen, event ∈ replayed ∨
    ∃ j p, count ≤ j ∧ sys.published[j]? = some p ∧ event = p.event

/-! ### Steps -/

theorem registered_step (json : JsonCodec) {sys : BusSystem} {id : Nat} {stream : Stream}
    (hstream : sys.streams id = some stream) (hopen : stream.state.closed = false)
    (hid : id ∈ sys.inner.subscribers) (event : BusStep) :
    id ∈ (sys.step json event).1.inner.subscribers := by
  cases event with
  | stamp name params sessionId =>
    show id ∈ (sys.stamp json name params sessionId).inner.subscribers
    rwa [(sys.stamp_inner json name params sessionId).2.1]
  | push i other =>
    show id ∈ (sys.push i other).inner.subscribers
    rwa [push_inner]
  | subscribe sinceSeq filter => exact List.mem_append_left _ hid
  | tryRecv other => exact hid
  | close other => exact hid
  | unsubscribe other =>
    show id ∈ (sys.unsubscribe other).inner.subscribers
    unfold unsubscribe
    split
    · next hclosed =>
        have hne : id ≠ other := by
          rintro rfl
          simp [hstream, hopen] at hclosed
        exact (List.mem_erase_of_ne hne).mpr hid
    · exact hid

theorem published_length_le_step (json : JsonCodec) {sys : BusSystem} (hsys : WellFormed sys)
    (event : BusStep) :
    sys.published.length ≤ (sys.step json event).1.published.length := by
  have h := nextSeq_le_step json sys event
  rw [hsys.nextSeq, (hsys.step json event).nextSeq] at h
  omega

/-- A publisher stays at its place, with its event. -/
theorem published_step (json : JsonCodec) {sys : BusSystem} (hsys : WellFormed sys)
    (event : BusStep) {j : Nat} {p : Publisher} (hp : sys.published[j]? = some p) :
    ∃ q, (sys.step json event).1.published[j]? = some q ∧ q.event = p.event := by
  have hlt := (List.getElem?_eq_some_iff.mp hp).1
  have hlt' := Nat.lt_of_lt_of_le hlt (published_length_le_step json hsys event)
  refine ⟨_, List.getElem?_eq_getElem hlt', ?_⟩
  rcases published_cases hsys (List.getElem?_eq_getElem hlt') 0 with ⟨p', hp', hevent, -⟩ | ⟨h, -⟩
  · rw [hp] at hp'
    rw [hevent, Option.some.inj hp']
  · omega

section

variable {json : JsonCodec} {sys : BusSystem} {event : BusStep} {id count : Nat}
  {replayed : List Event} {filter : Filter} {stream next : Stream}

theorem Seam.keep (hsys : WellFormed sys) (hstream : sys.streams id = some stream)
    (h : Seam count replayed filter id sys stream) (hseen : next.seen = stream.seen)
    (hfilter : next.state.filter = stream.state.filter) (hopen : next.state.closed = false)
    (hroom : next.state.dropped = 0)
    (hnot : ∀ i p, event = .push i id → sys.published[i]? = some p → id ∉ p.remaining) :
    Seam count replayed filter id (sys.step json event).1 next := by
  have harrivals : ∀ n, next.arrivals n = stream.arrivals n := by
    intro n
    rw [Stream.arrivals, hseen, Stream.arrivals]
  refine
    { filtered := hfilter.trans h.filtered
      isOpen := hopen
      room := hroom
      registered := registered_step json hstream h.isOpen h.registered event
      early := fun n hn => (harrivals n).trans (h.early n hn)
      notHeld := ?_
      grown := Nat.le_trans h.grown (published_length_le_step json hsys event)
      live := ?_
      later := ?_
      origin := ?_ }
  · intro j q hj hq hid
    rcases published_cases hsys hq id with ⟨p, hp, -, hheld⟩ | ⟨rfl, -⟩
    · exact h.notHeld j p hj hp (hheld.mp hid).1
    · exact absurd h.grown (by omega)
  · intro j q hj hq
    rw [harrivals]
    rcases published_cases hsys hq id with ⟨p, hp, hevent, hheld⟩ | ⟨rfl, -, hall⟩
    · have hsame : id ∈ q.remaining ↔ id ∈ p.remaining := by
        refine hheld.trans ⟨fun hid => hid.1, fun hid => ⟨hid, fun heq => ?_⟩⟩
        exact hnot j p heq hp hid
      simp only [h.live j p hj hp, hevent, hsame]
    · -- a publisher just stamped holds the queue, and its number is new
      have hid : id ∈ q.remaining := by
        rw [hall]
        exact h.registered
      rw [if_neg (fun hand => hand.2 hid)]
      exact h.later _ (by rw [hsys.nextSeq])
  · intro n hn
    rw [harrivals]
    exact h.later n (Nat.le_trans (nextSeq_le_step json sys event) hn)
  · intro e he
    rw [hseen] at he
    rcases h.origin e he with he | ⟨j, p, hj, hp, rfl⟩
    · exact Or.inl he
    · obtain ⟨q, hq, hevent⟩ := published_step json hsys event hp
      exact Or.inr ⟨j, q, hj, hq, hevent.symm⟩

/-- A push into the queue keeps the seam: the event was owed, and is not any more. -/
theorem Seam.push {i : Nat} {p : Publisher} (hsys : WellFormed sys)
    (hstream : sys.streams id = some stream) (h : Seam count replayed filter id sys stream)
    (hp : sys.published[i]? = some p) (hid : id ∈ p.remaining)
    (hroom : (stream.push p.event).state.dropped = 0) :
    Seam count replayed filter id (sys.step json (.push i id)).1 (stream.push p.event) := by
  have hi : count ≤ i := by
    by_contra hlt
    exact h.notHeld i p (by omega) hp hid
  have htakes : stream.state.takes p.event = filter.admits p.event := by
    rw [QueueState.takes, h.isOpen, h.filtered]
    rfl
  have hseq := hsys.stamped i p hp
  have harrivals : ∀ n, (stream.push p.event).arrivals n
      = stream.arrivals n + if filter.admits p.event = true ∧ i + 1 = n then 1 else 0 := by
    intro n
    rw [Stream.arrivals_push h.room hroom, htakes, hseq]
  have hother : ∀ n, n ≠ i + 1 → (stream.push p.event).arrivals n = stream.arrivals n := by
    intro n hn
    rw [harrivals, if_neg (fun hand => hn hand.2.symm), Nat.add_zero]
  refine
    { filtered := (stream.state.push_filter p.event).trans h.filtered
      isOpen := (stream.state.push_closed p.event).trans h.isOpen
      room := hroom
      registered := registered_step json hstream h.isOpen h.registered _
      early := fun n hn => (hother n (by omega)).trans (h.early n hn)
      notHeld := ?_
      grown := Nat.le_trans h.grown (published_length_le_step json hsys _)
      live := ?_
      later := ?_
      origin := ?_ }
  · intro j q hj hq hin
    rcases published_cases hsys hq id with ⟨p', hp', -, hheld⟩ | ⟨rfl, -⟩
    · exact h.notHeld j p' hj hp' (hheld.mp hin).1
    · exact absurd h.grown (by omega)
  · intro j q hj hq
    rcases published_cases hsys hq id with ⟨p', hp', hevent, hheld⟩ | ⟨hlen, -⟩
    · by_cases hij : i = j
      · subst hij
        obtain rfl : p = p' := by
          rw [hp] at hp'
          exact Option.some.inj hp'
        have hnot : id ∉ q.remaining := fun hin => (hheld.mp hin).2 rfl
        have hnone : stream.arrivals (i + 1) = 0 := by
          rw [h.live i p hj hp, if_neg (fun hand => hand.2 hid)]
        simp [harrivals, hnone, hevent, hnot]
      · have hsame : id ∈ q.remaining ↔ id ∈ p'.remaining := by
          rw [hheld]
          simp [hij]
        rw [hother _ (by omega)]
        simp only [h.live j p' hj hp', hevent, hsame]
    · have hlt := (List.getElem?_eq_some_iff.mp hq).1
      have hlen' : (sys.step json (.push i id)).1.published.length = sys.published.length :=
        push_published_length sys i id
      omega
  · intro n hn
    have hn' := Nat.le_trans (nextSeq_le_step json sys _) hn
    have hlt := hsys.seq_lt hp
    rw [hother n (by omega)]
    exact h.later n hn'
  · intro e he
    by_cases htake : stream.state.takes p.event = true
    · rw [Stream.seen_push htake h.room hroom] at he
      rcases List.mem_append.mp he with he | he
      · rcases h.origin e he with he | ⟨j, p', hj, hp', rfl⟩
        · exact Or.inl he
        · obtain ⟨q, hq, hevent⟩ := published_step json hsys (.push i id) hp'
          exact Or.inr ⟨j, q, hj, hq, hevent.symm⟩
      · obtain ⟨q, hq, hevent⟩ := published_step json hsys (.push i id) hp
        refine Or.inr ⟨i, q, hi, hq, ?_⟩
        rw [List.mem_singleton.mp he, hevent]
    · rw [Stream.push_refused htake] at he
      rcases h.origin e he with he | ⟨j, p', hj, hp', rfl⟩
      · exact Or.inl he
      · obtain ⟨q, hq, hevent⟩ := published_step json hsys (.push i id) hp'
        exact Or.inr ⟨j, q, hj, hq, hevent.symm⟩

theorem seam_step (hsys : WellFormed sys) (hstream : sys.streams id = some stream)
    (h : Seam count replayed filter id sys stream) (hclose : event ≠ .close id)
    (hroom : ¬ (sys.step json event).1.Overflowing id) :
    ∃ next, (sys.step json event).1.streams id = some next ∧
      Seam count replayed filter id (sys.step json event).1 next := by
  have hdropped : ∀ next, (sys.step json event).1.streams id = some next →
      next.state.dropped = 0 := by
    intro next hnext
    by_contra hpos
    exact hroom ⟨next, hnext, hpos⟩
  rcases streams_cases json sys event id with
    ⟨hnot, hsame⟩ | ⟨i, p, rfl, hp, hid, hpush⟩ | ⟨rfl, hrecv⟩ | ⟨rfl, -⟩ |
      ⟨since, filter', rfl, rfl, -⟩
  · rw [hsame, hstream]
    exact ⟨stream, rfl, h.keep hsys hstream rfl rfl h.isOpen h.room hnot⟩
  · rw [hstream] at hpush
    exact ⟨_, hpush, h.push hsys hstream hp hid (hdropped _ hpush)⟩
  · rw [hstream] at hrecv
    have hstate := stream.tryRecv_state
    refine ⟨_, hrecv, h.keep hsys hstream stream.tryRecv_seen ?_ ?_ ?_ (by simp)⟩
    · rw [hstate]
    · rw [hstate]
      exact h.isOpen
    · rw [hstate]
      exact h.room
  · exact absurd rfl hclose
  · -- the number of a registered stream is not given out again
    exact absurd (hsys.subscribers.2 _ h.registered) (Nat.lt_irrefl _)

end

/-! ### The subscription itself -/

theorem mem_replay {json : JsonCodec} {inner : BusInner} {since : Nat} {event : Event} :
    event ∈ EventBus.replay json inner (some since) ↔
      ∃ archived ∈ inner.ring, since < archived.seq ∧ event = archived.event json := by
  simp only [EventBus.replay, List.mem_map, List.mem_filter, gt_iff_lt, decide_eq_true_eq]
  constructor
  · rintro ⟨archived, ⟨hring, hseq⟩, rfl⟩
    exact ⟨archived, hring, hseq, rfl⟩
  · rintro ⟨archived, hring, hseq, rfl⟩
    exact ⟨archived, ⟨hring, hseq⟩, rfl⟩

theorem seam_subscribe {json : JsonCodec} {start : BusSystem} (hstart : WellFormed start)
    {sinceSeq : Option Nat} {filter : Filter}
    (hroom : ¬ (start.subscribe json sinceSeq filter).Overflowing start.inner.nextSubscriber) :
    ∃ stream, (start.subscribe json sinceSeq filter).streams start.inner.nextSubscriber
        = some stream ∧
      Seam start.published.length
        ((EventBus.replay json start.inner sinceSeq).filter filter.admits) filter
        start.inner.nextSubscriber (start.subscribe json sinceSeq filter) stream := by
  have hstream : (start.subscribe json sinceSeq filter).streams start.inner.nextSubscriber
      = some ⟨(EventBus.replay json start.inner sinceSeq).foldl QueueState.push
        (QueueState.new filter start.bus.subscriberCapacity), []⟩ :=
    Function.update_self ..
  have hdropped : ((EventBus.replay json start.inner sinceSeq).foldl QueueState.push
      (QueueState.new filter start.bus.subscriberCapacity)).dropped = 0 := by
    by_contra hpos
    exact hroom ⟨_, hstream, hpos⟩
  rw [QueueState.foldl_push_fits rfl rfl hdropped] at hstream
  refine ⟨_, hstream,
    { filtered := rfl
      isOpen := rfl
      room := rfl
      registered := List.mem_append_right _ (List.mem_singleton_self _)
      early := fun n _ => rfl
      notHeld := ?_
      grown := Nat.le_refl _
      live := ?_
      later := ?_
      origin := fun event hevent => Or.inl hevent }⟩
  · intro j p _ hp hid
    have := (hstart.remaining p (List.mem_of_getElem? hp)).2 _ hid
    omega
  · intro j p hj hp
    have hlt : j < start.published.length := (List.getElem?_eq_some_iff.mp hp).1
    omega
  · intro n hn
    refine List.count_eq_zero.mpr fun hmem => ?_
    have hring := (EventBus.replay_seqs json start.inner sinceSeq).subset
      ((List.filter_sublist.map Event.seq).subset hmem)
    exact absurd (hstart.ringBound n hring).2 (Nat.not_lt.mpr hn)

/-- What the seam says of every event. -/
theorem Seam.seamless {json : JsonCodec} {start sys : BusSystem} {since id : Nat}
    {filter : Filter} {stream : Stream} (hstart : WellFormed start) (hsys : WellFormed sys)
    (h : Seam start.published.length
      ((EventBus.replay json start.inner (some since)).filter filter.admits) filter id sys stream) :
    Seamless json start sys since filter id stream := by
  have hnext := hstart.nextSeq
  refine ⟨?_, ?_, ?_⟩
  · intro archived hring hsince hadmits
    have hseq : archived.seq ∈ start.inner.ring.map Archived.seq := List.mem_map_of_mem hring
    have hbound := (hstart.ringBound _ hseq).2
    have hnodup : (((EventBus.replay json start.inner (some since)).filter filter.admits).map
        Event.seq).Nodup :=
      (hstart.ring.imp (fun hlt => Nat.ne_of_lt hlt)).sublist
        ((List.filter_sublist.map Event.seq).trans (EventBus.replay_seqs json start.inner (some since)))
    rw [h.early _ (by omega)]
    refine List.count_eq_one_of_mem hnodup (List.mem_map.mpr ⟨archived.event json, ?_, rfl⟩)
    exact List.mem_filter.mpr ⟨mem_replay.mpr ⟨archived, hring, hsince, rfl⟩, hadmits⟩
  · intro p hp hseq hadmits
    obtain ⟨j, hj⟩ := List.getElem?_of_mem hp
    have hstamp := hsys.stamped j p hj
    rw [hstamp, h.live j p (by omega) hj]
    by_cases hid : id ∈ p.remaining
    · simp [hid]
    · simp [hid, hadmits]
  · intro event hevent
    rcases h.origin event hevent with hreplay | ⟨j, p, hj, hp, rfl⟩
    · exact Or.inl (mem_replay.mp (List.mem_filter.mp hreplay).1)
    · refine Or.inr ⟨p, List.mem_of_getElem? hp, ?_, rfl⟩
      rw [hsys.stamped j p hp, hnext]
      omega

/-- **No event falls into the seam and none arrives twice.** In every run, a subscription
`subscribe(Some(since))` whose stream is not dropped and whose queue never overflows has each
event it admits that the ring kept after `since` exactly once, and each one stamped later
exactly once as soon as its publisher has pushed it. -/
theorem new_subscriber_sees_each_event_once {json : JsonCodec} {bus : EventBus}
    {earlier later : List BusStep} {since : Nat} {filter : Filter}
    (hopen : .close (after json bus earlier).inner.nextSubscriber ∉ later)
    (hroom : ∀ s ∈ trace (step json) (after json bus earlier) (.subscribe (some since) filter :: later),
      ¬ s.after.Overflowing (after json bus earlier).inner.nextSubscriber) :
    ∃ stream,
      (after json bus (earlier ++ .subscribe (some since) filter :: later)).streams
          (after json bus earlier).inner.nextSubscriber = some stream ∧
        Seamless json (after json bus earlier)
          (after json bus (earlier ++ .subscribe (some since) filter :: later)) since filter
          (after json bus earlier).inner.nextSubscriber stream := by
  have hstart := wellFormed_after json bus earlier
  have hrun : after json bus (earlier ++ .subscribe (some since) filter :: later)
      = run (step json) ((after json bus earlier).subscribe json (some since) filter) later :=
    run_append (step json) (new bus) earlier _
  generalize after json bus earlier = start at *
  rw [hrun]
  have hseam : WellFormed (run (step json) (start.subscribe json (some since) filter) later) ∧
      ∃ stream, (run (step json) (start.subscribe json (some since) filter) later).streams
          start.inner.nextSubscriber = some stream ∧
        Seam start.published.length
          ((EventBus.replay json start.inner (some since)).filter filter.admits) filter
          start.inner.nextSubscriber
          (run (step json) (start.subscribe json (some since) filter) later) stream := by
    refine run_invariant_where (step json)
      (C := fun s => s.event ≠ .close start.inner.nextSubscriber ∧
        ¬ s.after.Overflowing start.inner.nextSubscriber)
      (P := fun sys => WellFormed sys ∧ ∃ stream,
        sys.streams start.inner.nextSubscriber = some stream ∧ Seam _ _ _ _ sys stream) ?_ ?_ ?_
    · intro s hs
      refine ⟨fun hclose => hopen ?_, hroom s (List.mem_cons_of_mem _ hs)⟩
      rw [← trace_events (step json) _ later, ← hclose]
      exact List.mem_map_of_mem hs
    · exact ⟨hstart.subscribe json (some since) filter,
        seam_subscribe hstart (hroom _ List.mem_cons_self)⟩
    · rintro sys event ⟨hclose, hfits⟩ ⟨hsys, stream, hstream, hkept⟩
      exact ⟨hsys.step json event, seam_step hsys hstream hkept hclose hfits⟩
  obtain ⟨hsys, stream, hstream, hkept⟩ := hseam
  exact ⟨stream, hstream, hkept.seamless hstart hsys⟩

/-- Event 2 is replayed and event 3 delivered live; event 1 is not asked for. -/
theorem new_subscriber_sees_two_events :
    ∃ stream,
      (after emptyObjectJson (EventBus.withCapacities 4096 (8 <<< 20) none)
          ([.stamp "a" (.object []) none, .stamp "b" (.object []) none] ++
            .subscribe (some 1) .all :: [.stamp "c" (.object []) none, .push 2 0])).streams 0
        = some stream ∧
      Seamless emptyObjectJson
        (after emptyObjectJson (EventBus.withCapacities 4096 (8 <<< 20) none)
          [.stamp "a" (.object []) none, .stamp "b" (.object []) none])
        (after emptyObjectJson (EventBus.withCapacities 4096 (8 <<< 20) none)
          ([.stamp "a" (.object []) none, .stamp "b" (.object []) none] ++
            .subscribe (some 1) .all :: [.stamp "c" (.object []) none, .push 2 0]))
        1 .all 0 stream := by
  refine new_subscriber_sees_each_event_once (by simp) ?_
  intro s hs
  simp only [trace, List.mem_cons, List.not_mem_nil, or_false] at hs
  rintro ⟨stream, hstream, hdropped⟩
  rcases hs with rfl | rfl | rfl <;> cases hstream <;> exact hdropped rfl

end BusSystem

end Homie.Events
