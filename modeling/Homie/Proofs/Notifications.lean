/-
Attention across a reconnection.

A session came to need the user while the connection was down, and its record comes to the store in
a list response, in an event, or in both.  Whichever comes first is the entry: the event announces
it and the list does not, and after either the other one finds nothing new.
-/
import Homie.App.Notifications

namespace Homie.App.Notifications

open Trace

/-! ### The policy -/

section Policy

variable {around : Around} {session : SessionRecord}

def Noteworthy (level : AttentionLevel) : Prop := level = .needsInput ∨ level = .doneUnseen

/-- No change of attention, no transition. -/
theorem attentionTransition_same :
    attentionTransition around (some session.attention) session = none := by
  unfold attentionTransition
  dsimp only
  rw [if_neg]
  rintro (⟨hne, heq⟩ | ⟨hne, heq⟩)
  · exact hne (congrArg some heq)
  · exact hne (congrArg some heq)

/-- An entry is announced, whatever else the policy reads. -/
theorem exists_attentionTransition {previous : Option AttentionLevel}
    (hnote : Noteworthy session.attention) (hentry : previous ≠ some session.attention) :
    ∃ transition, attentionTransition around previous session = some transition := by
  unfold attentionTransition
  dsimp only
  rw [if_pos]
  · exact ⟨_, rfl⟩
  · rcases hnote with hlevel | hlevel
    · exact Or.inl ⟨hlevel ▸ hentry, hlevel⟩
    · exact Or.inr ⟨hlevel ▸ hentry, hlevel⟩

end Policy

/-! ### The store -/

namespace SessionStore

variable {store : SessionStore} {around : Around} {id : SessionId} {session : SessionRecord}

def attentionOf (store : SessionStore) (id : SessionId) : Option AttentionLevel :=
  (store.sessions.get id).map (·.attention)

theorem announcedOf_upsert :
    (store.upsertSession around session).announcedOf session.id =
      store.announcedOf session.id ++
        (attentionTransition around (store.attentionOf session.id) session).toList := by
  unfold announcedOf upsertSession attentionOf
  dsimp only
  rw [List.filter_append, List.map_append]
  congr 1
  cases attentionTransition around ((store.sessions.get session.id).map (·.attention)) session with
  | none => rfl
  | some transition => simp

theorem announcedOf_upsert_other (hid : id ≠ session.id) :
    (store.upsertSession around session).announcedOf id = store.announcedOf id := by
  unfold announcedOf upsertSession
  dsimp only
  rw [List.filter_append, List.map_append]
  have hnone : ∀ transitions : List StatusTransition,
      (transitions.map fun transition => (session.id, transition)).filter (·.1 = id) = [] := by
    intro transitions
    rw [List.filter_eq_nil_iff]
    intro entry hentry
    obtain ⟨_, _, rfl⟩ := List.mem_map.mp hentry
    simpa using Ne.symm hid
  rw [hnone, List.map_nil, List.append_nil]

theorem attentionOf_upsert :
    (store.upsertSession around session).attentionOf session.id = some session.attention := by
  unfold attentionOf upsertSession
  dsimp only
  rw [store.sessions.get_insert, if_pos rfl]
  rfl

theorem attentionOf_upsert_other (hid : id ≠ session.id) :
    (store.upsertSession around session).attentionOf id = store.attentionOf id := by
  unfold attentionOf upsertSession
  dsimp only
  rw [store.sessions.get_insert, if_neg hid]

/-- An event about another session. -/
theorem handleEvent_other {event : Event} (hid : event.about ≠ id) :
    (store.handleEvent around event).attentionOf id = store.attentionOf id ∧
      (store.handleEvent around event).announcedOf id = store.announcedOf id := by
  cases event with
  | sessionUpdated session =>
    unfold handleEvent
    dsimp only
    split
    · exact ⟨rfl, rfl⟩
    · exact ⟨attentionOf_upsert_other (Ne.symm hid), announcedOf_upsert_other (Ne.symm hid)⟩
  | sessionResources resources =>
    unfold handleEvent
    dsimp only
    split
    · next record hget =>
        have hkey : record.id = resources.id := store.sessions.key_of_get hget
        refine ⟨?_, rfl⟩
        unfold attentionOf
        dsimp only
        rw [store.sessions.get_insert, if_neg]
        exact fun heq => hid ((heq.trans hkey).symm)
    · exact ⟨rfl, rfl⟩
  | sessionRemoved gone =>
    refine ⟨?_, rfl⟩
    unfold handleEvent attentionOf
    dsimp only
    rw [store.sessions.get_erase, if_neg (show id ≠ gone from Ne.symm hid)]

/-- The event with the final record announces the entry, unless there is none. -/
theorem handleEvent_updated :
    (store.handleEvent around (.sessionUpdated session)).attentionOf session.id =
        some session.attention ∧
      (store.handleEvent around (.sessionUpdated session)).announcedOf session.id =
        store.announcedOf session.id ++
          (attentionTransition around (store.attentionOf session.id) session).toList := by
  unfold handleEvent
  dsimp only
  split
  · next hget =>
      have hlevel : store.attentionOf session.id = some session.attention := by
        unfold attentionOf
        rw [hget]
        rfl
      rw [hlevel, attentionTransition_same]
      exact ⟨rfl, (List.append_nil _).symm⟩
  · exact ⟨attentionOf_upsert, announcedOf_upsert⟩

theorem hydrate_listed {sessions : List SessionRecord}
    (hget : (KeyedMap.ofList sessions : SessionMap).get session.id = some session) :
    (store.hydrate sessions).attentionOf session.id = some session.attention ∧
      (store.hydrate sessions).announcedOf session.id = store.announcedOf session.id := by
  refine ⟨?_, rfl⟩
  unfold attentionOf hydrate
  dsimp only
  rw [hget]
  rfl

theorem modify_keeps {f : SessionRecord → SessionRecord} (hid : ∀ session, (f session).id = session.id)
    (hlevel : ∀ session, (f session).attention = session.attention) (target : SessionId) :
    (store.modify target f).attentionOf id = store.attentionOf id ∧
      (store.modify target f).announcedOf id = store.announcedOf id := by
  unfold modify
  split
  · next session hget =>
      have hkey : session.id = target := store.sessions.key_of_get hget
      refine ⟨?_, rfl⟩
      unfold attentionOf
      dsimp only
      rw [store.sessions.get_insert, hid]
      split
      · next hsame =>
          rw [hsame, hkey, hget, Option.map_some, Option.map_some, hlevel]
      · rfl
  · exact ⟨rfl, rfl⟩

end SessionStore

/-! ### Deliveries -/

namespace Link

variable {link : Link} {session : SessionRecord} {event : LinkEvent} {events : List LinkEvent}

inductive Delivery where
  | byEvent (around : Around)
  | byList

/-- How a step brings the store a record of a session: an event about it, or a list. -/
def delivery (link : Link) (id : SessionId) : LinkEvent → Option Delivery
  | .receive around =>
    match link.pending with
    | event :: _ => if event.about = id then some (.byEvent around) else none
    | [] => none
  | .hydrate => link.response.map fun _ => .byList
  | _ => none

/-- How the store first hears of a session. -/
def firstDelivery (id : SessionId) : Link → List LinkEvent → Option Delivery
  | _, [] => none
  | link, event :: events =>
    (link.delivery id event).or (firstDelivery id (link.step event).1 events)

/-- From here on the daemon's record of the session is final, and it is what every delivery
brings. -/
structure Settled (link : Link) (session : SessionRecord) (events : List LinkEvent) : Prop where
  final : link.daemon.get session.id = some session
  stays : ∀ change, LinkEvent.mutate change ∈ events → change.about = session.id →
    change = .sessionUpdated session
  pending : ∀ change ∈ link.pending, change.about = session.id → change = .sessionUpdated session
  response : ∀ sessions, link.response = some sessions →
    (KeyedMap.ofList sessions : SessionMap).get session.id = some session

theorem mutate_other {daemon : SessionMap} {id : SessionId} {change : Event}
    (hid : change.about ≠ id) : (mutate daemon change).get id = daemon.get id := by
  cases change with
  | sessionUpdated session =>
    unfold mutate
    dsimp only
    rw [daemon.get_insert, if_neg (show id ≠ session.id from Ne.symm hid)]
  | sessionResources resources =>
    unfold mutate
    dsimp only
    split
    · next record hget =>
        have hkey : record.id = resources.id := daemon.key_of_get hget
        rw [daemon.get_insert, if_neg]
        exact fun heq => hid (heq.trans hkey).symm
    · rfl
  | sessionRemoved gone =>
    unfold mutate
    dsimp only
    rw [daemon.get_erase, if_neg (show id ≠ gone from Ne.symm hid)]

theorem Settled.step (h : link.Settled session (event :: events)) :
    (link.step event).1.Settled session events := by
  have hstays : ∀ change, LinkEvent.mutate change ∈ events → change.about = session.id →
      change = .sessionUpdated session :=
    fun change hin => h.stays change (List.mem_cons_of_mem _ hin)
  cases event with
  | mutate change =>
    have hchange := h.stays change List.mem_cons_self
    refine ⟨?_, hstays, fun other hin habout => ?_, h.response⟩
    · change (mutate link.daemon change).get session.id = some session
      by_cases habout : change.about = session.id
      · rw [hchange habout]
        unfold mutate
        dsimp only
        rw [link.daemon.get_insert, if_pos rfl]
      · rw [mutate_other habout, h.final]
    · change other ∈ (if link.connected = true then link.pending ++ [change] else link.pending)
        at hin
      split at hin
      · rcases List.mem_append.mp hin with hold | hnew
        · exact h.pending other hold habout
        · rw [List.mem_singleton.mp hnew] at habout ⊢
          exact hchange habout
      · exact h.pending other hin habout
  | disconnect kept answered =>
    refine ⟨h.final, hstays, fun other hin => h.pending other (List.mem_of_mem_take hin), ?_⟩
    intro sessions hresponse
    cases answered with
    | false => cases hresponse
    | true => exact h.response sessions hresponse
  | reconnect => exact ⟨h.final, hstays, h.pending, h.response⟩
  | list =>
    unfold Link.step
    dsimp only
    split
    · refine ⟨h.final, hstays, h.pending, fun sessions hresponse => ?_⟩
      rw [← Option.some.inj hresponse, KeyedMap.get_ofList_values, h.final]
    · exact ⟨h.final, hstays, h.pending, h.response⟩
  | hydrate =>
    unfold Link.step
    dsimp only
    split
    · exact ⟨h.final, hstays, h.pending, fun sessions hresponse => by cases hresponse⟩
    · exact ⟨h.final, hstays, h.pending, h.response⟩
  | receive around =>
    unfold Link.step
    dsimp only
    split
    · next first rest hpending =>
        refine ⟨h.final, hstays, fun other hin => h.pending other ?_, h.response⟩
        rw [hpending]
        exact List.mem_cons_of_mem _ hin
    · exact ⟨h.final, hstays, h.pending, h.response⟩
  | lag count =>
    exact ⟨h.final, hstays, fun other hin => h.pending other (List.mem_of_mem_drop hin),
      h.response⟩
  | rename id title => exact ⟨h.final, hstays, h.pending, h.response⟩
  | archive id now => exact ⟨h.final, hstays, h.pending, h.response⟩
  | revive id => exact ⟨h.final, hstays, h.pending, h.response⟩

theorem step_quiet {id : SessionId} (h : link.delivery id event = none) :
    (link.step event).1.store.attentionOf id = link.store.attentionOf id ∧
      (link.step event).1.store.announcedOf id = link.store.announcedOf id := by
  cases event with
  | mutate change => exact ⟨rfl, rfl⟩
  | disconnect kept answered => exact ⟨rfl, rfl⟩
  | reconnect => exact ⟨rfl, rfl⟩
  | list =>
    unfold Link.step
    dsimp only
    split
    · exact ⟨rfl, rfl⟩
    · exact ⟨rfl, rfl⟩
  | hydrate =>
    have hnone : link.response = none := Option.map_eq_none_iff.mp h
    unfold Link.step
    dsimp only
    rw [hnone]
    exact ⟨rfl, rfl⟩
  | receive around =>
    unfold delivery at h
    unfold Link.step
    dsimp only at h ⊢
    cases hpending : link.pending with
    | nil => exact ⟨rfl, rfl⟩
    | cons first rest =>
      rw [hpending] at h
      have habout : first.about ≠ id := by
        intro habout
        dsimp only at h
        rw [if_pos habout] at h
        cases h
      exact SessionStore.handleEvent_other habout
  | lag count => exact ⟨rfl, rfl⟩
  | rename target title =>
    refine SessionStore.modify_keeps (fun session => ?_) (fun session => ?_) target
    · rfl
    · rfl
  | archive target now =>
    refine SessionStore.modify_keeps (fun session => ?_) (fun session => ?_) target
    · split
      · rfl
      · rfl
    · split
      · rfl
      · rfl
  | revive target =>
    refine SessionStore.modify_keeps (fun session => ?_) (fun session => ?_) target
    · rfl
    · rfl

/-- A step that delivers the final record: an event announces an entry, a list does not. -/
theorem step_delivers (h : link.Settled session (event :: events)) {route : Delivery}
    (hroute : link.delivery session.id event = some route) :
    (link.step event).1.store.attentionOf session.id = some session.attention ∧
      (link.step event).1.store.announcedOf session.id =
        link.store.announcedOf session.id ++
          match route with
          | .byEvent around =>
            (attentionTransition around (link.store.attentionOf session.id) session).toList
          | .byList => [] := by
  cases event with
  | hydrate =>
    obtain ⟨sessions, hresponse, rfl⟩ := Option.map_eq_some_iff.mp hroute
    obtain ⟨hlevel, hannounced⟩ := @SessionStore.hydrate_listed link.store _ _
      (h.response sessions hresponse)
    unfold Link.step
    dsimp only
    rw [hresponse, List.append_nil]
    exact ⟨hlevel, hannounced⟩
  | receive around =>
    unfold delivery at hroute
    dsimp only at hroute
    split at hroute
    · next first rest hpending =>
        by_cases habout : first.about = session.id
        · rw [if_pos habout, Option.some.injEq] at hroute
          subst hroute
          have hfirst := h.pending first (by rw [hpending]; exact List.mem_cons_self) habout
          unfold Link.step
          dsimp only
          rw [hpending, hfirst]
          exact SessionStore.handleEvent_updated
        · rw [if_neg habout] at hroute
          cases hroute
    · cases hroute
  | mutate change => cases hroute
  | disconnect kept answered => cases hroute
  | reconnect => cases hroute
  | list => cases hroute
  | lag count => cases hroute
  | rename target title => cases hroute
  | archive target now => cases hroute
  | revive target => cases hroute

/-! ### Runs -/

theorem run_cons (link : Link) (event : LinkEvent) (events : List LinkEvent) :
    run step link (event :: events) = run step (link.step event).1 events := rfl

theorem announced_after (h : link.Settled session events)
    (hlevel : link.store.attentionOf session.id = some session.attention) :
    (run step link events).store.announcedOf session.id = link.store.announcedOf session.id := by
  induction events generalizing link with
  | nil => rfl
  | cons event events ih =>
    rw [run_cons]
    cases hroute : link.delivery session.id event with
    | none =>
      obtain ⟨hlevel', hannounced⟩ := step_quiet hroute
      rw [ih h.step (hlevel'.trans hlevel), hannounced]
    | some route =>
      obtain ⟨hlevel', hannounced⟩ := step_delivers h hroute
      rw [ih h.step hlevel', hannounced]
      cases route with
      | byList => exact List.append_nil _
      | byEvent around =>
        dsimp only
        rw [hlevel, attentionTransition_same]
        exact List.append_nil _

/-- What is announced from where the record is final: the entry, if an event comes first. -/
theorem announced_run (h : link.Settled session events) :
    (run step link events).store.announcedOf session.id =
      link.store.announcedOf session.id ++
        match firstDelivery session.id link events with
        | some (.byEvent around) =>
          (attentionTransition around (link.store.attentionOf session.id) session).toList
        | _ => [] := by
  induction events generalizing link with
  | nil => exact (List.append_nil _).symm
  | cons event events ih =>
    rw [run_cons]
    unfold firstDelivery
    cases hroute : link.delivery session.id event with
    | none =>
      obtain ⟨hlevel, hannounced⟩ := step_quiet hroute
      rw [ih h.step, hannounced, hlevel, Option.none_or]
    | some route =>
      obtain ⟨hlevel, hannounced⟩ := step_delivers h hroute
      rw [announced_after h.step hlevel, hannounced, Option.some_or]
      cases route with
      | byList => rfl
      | byEvent around => rfl

end Link

/-! ### The entry -/

/-- Exactly one transition is announced for the session, the one that `upsert_session` announces of
its final record. -/
def AnnouncedOnce (link next : Link) (session : SessionRecord) : Prop :=
  ∃ around,
    (link.store.upsertSession around session).announcedOf session.id =
      next.store.announcedOf session.id ∧
    (next.store.announcedOf session.id).length = (link.store.announcedOf session.id).length + 1

def plainRecord (status : SessionStatus) : SessionRecord where
  id := "a"
  kind := ⟨"codex", none⟩
  cwd := "/work"
  projectId := "homie"
  worktreePath := none
  title := "Fix the build"
  titleSource := .placeholder
  status := status
  resumability := .live
  parent := none
  createdAt := 0
  archivedAt := none
  host := none
  memoryBytes := none
  artifacts := none
  listeningPorts := none
  needsInput := none
  lastTurnCompletedAt := none
  lastSeenAt := none
  remotePersistence := none
  hibernation := none
  foregroundAgent := none

def blocked : SessionRecord := plainRecord (.needsInput .question)

def plainAround : Around := ⟨none, true, true, [], 0, toString⟩

/-- The session is at work when the connection goes; it comes back. -/
def reconnected (meanwhile : List LinkEvent) : List LinkEvent :=
  [.reconnect, .list, .hydrate, .disconnect 0 false] ++ meanwhile ++ [.reconnect]

def working : SessionMap := .ofList [plainRecord .working]

/-- After the reconnection the daemon publishes that the session is blocked. -/
def published : List LinkEvent := reconnected [] ++ [.mutate (.sessionUpdated blocked)]

/-- The event task is first, the list comes after. -/
def eventFirst : List LinkEvent := [.receive plainAround, .list, .hydrate]

end Homie.App.Notifications
