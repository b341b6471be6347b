/-
When the app's store ends up with the daemon's records.

What a map holds under an id is a register, and an event is a change of registers: it sets one,
or patches one.  So a stretch of the log may be replayed over maps that already have it.  That is
what makes a list response and the events around it agree: a response that is at least as new as
what the event task has consumed is brought up to date by the events that are still to come.  One
that is older takes back what the store had, and nothing brings it again; neither does anything
bring back the events that a lagged receiver skips.
-/
import Homie.App.Runtime
import Homie.Lib.Registers

namespace Homie.App

open Registers Trace

/-! ### Events as changes of registers -/

/-- Samples patch a record. -/
def sampling : Patching SessionRecord SessionResourcesEvent where
  patch resources record := record.sampled resources
  nop := ⟨"", none, none, none⟩
  merge p q := ⟨q.id, q.memoryBytes.or p.memoryBytes, q.listeningPorts.or p.listeningPorts,
    q.artifacts.or p.artifacts⟩
  patch_nop record := rfl
  patch_merge p q record := by simp [SessionRecord.sampled, Option.or_assoc]
  patch_again p record := by
    simp only [SessionRecord.sampled, ← Option.or_assoc, Option.or_self]

/-- Projects are set and never patched. -/
def replacing : Patching Project Unit where
  patch _ project := project
  nop := ()
  merge _ _ := ()
  patch_nop _ := rfl
  patch_merge _ _ _ := rfl
  patch_again _ _ := rfl

/-- What an event does to the register of a session. -/
def sessionChange (id : SessionId) : Event → Change SessionRecord SessionResourcesEvent
  | .sessionUpdated session => if id = session.id then .set (some session) else .patch sampling.nop
  | .sessionResources resources =>
    if id = resources.id then .patch resources else .patch sampling.nop
  | .sessionRemoved removed => if id = removed then .set none else .patch sampling.nop
  | .projectUpdated _ => .patch sampling.nop

/-- What an event does to the register of a project. -/
def projectChange (id : ProjectId) : Event → Change Project Unit
  | .projectUpdated project => if id = project.id then .set (some project) else .patch ()
  | _ => .patch ()

/-- The registers of both maps. -/
@[ext] structure View where
  sessions : SessionId → Option SessionRecord
  projects : ProjectId → Option Project

namespace View

def apply (view : View) (event : Event) : View where
  sessions id := sampling.apply (view.sessions id) (sessionChange id event)
  projects id := replacing.apply (view.projects id) (projectChange id event)

def replay (events : List Event) (view : View) : View := events.foldl apply view

theorem replay_cons (event : Event) (events : List Event) (view : View) :
    replay (event :: events) view = replay events (view.apply event) := rfl

theorem replay_append (front back : List Event) (view : View) :
    replay (front ++ back) view = replay back (replay front view) := List.foldl_append

theorem replay_concat (events : List Event) (event : Event) (view : View) :
    replay (events ++ [event]) view = (replay events view).apply event :=
  replay_append events [event] view

theorem replay_sessions (events : List Event) (view : View) (id : SessionId) :
    (replay events view).sessions id =
      sampling.applyAll (events.map (sessionChange id)) (view.sessions id) := by
  induction events generalizing view with
  | nil => rfl
  | cons event events ih => exact ih (view.apply event)

theorem replay_projects (events : List Event) (view : View) (id : ProjectId) :
    (replay events view).projects id =
      replacing.applyAll (events.map (projectChange id)) (view.projects id) := by
  induction events generalizing view with
  | nil => rfl
  | cons event events ih => exact ih (view.apply event)

/-- Events may be replayed over maps that have them. -/
theorem replay_again (events : List Event) (view : View) :
    replay events (replay events view) = replay events view := by
  ext1
  · funext id
    rw [replay_sessions, replay_sessions, sampling.applyAll_again]
  · funext id
    rw [replay_projects, replay_projects, replacing.applyAll_again]

end View

def DaemonMaps.view (maps : DaemonMaps) : View := ⟨maps.sessions.get, maps.projects.get⟩

def SessionStore.view (store : SessionStore) : View := ⟨store.sessions.get, store.projects.get⟩

/-! ### The operations on registers -/

theorem apply_nop (value : Option SessionRecord) :
    sampling.apply value (.patch sampling.nop) = value := by
  cases value <;> rfl

theorem apply_unit (value : Option Project) : replacing.apply value (.patch ()) = value := by
  cases value <;> rfl

theorem view_insert_session (sessions : SessionMap) (projects : ProjectMap)
    (session : SessionRecord) :
    (⟨(sessions.insert session).get, projects.get⟩ : View) =
      (⟨sessions.get, projects.get⟩ : View).apply (.sessionUpdated session) := by
  ext1
  · funext id
    simp only [View.apply, sessionChange, KeyedMap.get_insert]
    by_cases hid : id = session.id
    · rw [if_pos hid, if_pos hid]
      rfl
    · rw [if_neg hid, if_neg hid, apply_nop]
  · funext id
    exact (apply_unit _).symm

theorem view_sample (sessions : SessionMap) (projects : ProjectMap)
    (resources : SessionResourcesEvent) {record : SessionRecord}
    (h : sessions.get resources.id = some record) :
    (⟨(sessions.insert (record.sampled resources)).get, projects.get⟩ : View) =
      (⟨sessions.get, projects.get⟩ : View).apply (.sessionResources resources) := by
  have hrecord : record.id = resources.id := sessions.key_of_get h
  have hkey : (record.sampled resources).id = resources.id := hrecord
  ext1
  · funext id
    simp only [View.apply, sessionChange, KeyedMap.get_insert, hkey]
    by_cases hid : id = resources.id
    · rw [if_pos hid, if_pos hid, hid, h]
      rfl
    · rw [if_neg hid, if_neg hid, apply_nop]
  · funext id
    exact (apply_unit _).symm

/-- A sample of a session that is not there changes nothing. -/
theorem view_sample_none (view : View) (resources : SessionResourcesEvent)
    (h : view.sessions resources.id = none) :
    view.apply (.sessionResources resources) = view := by
  ext1
  · funext id
    simp only [View.apply, sessionChange]
    by_cases hid : id = resources.id
    · rw [if_pos hid, hid, h]
      rfl
    · rw [if_neg hid, apply_nop]
  · funext id
    exact apply_unit _

theorem view_erase (sessions : SessionMap) (projects : ProjectMap) (id : SessionId) :
    (⟨(sessions.erase id).get, projects.get⟩ : View) =
      (⟨sessions.get, projects.get⟩ : View).apply (.sessionRemoved id) := by
  ext1
  · funext other
    simp only [View.apply, sessionChange, KeyedMap.get_erase]
    by_cases hid : other = id
    · rw [if_pos hid, if_pos hid]
      rfl
    · rw [if_neg hid, if_neg hid, apply_nop]
  · funext other
    exact (apply_unit _).symm

theorem view_insert_project (sessions : SessionMap) (projects : ProjectMap) (project : Project) :
    (⟨sessions.get, (projects.insert project).get⟩ : View) =
      (⟨sessions.get, projects.get⟩ : View).apply (.projectUpdated project) := by
  ext1
  · funext id
    exact (apply_nop _).symm
  · funext id
    simp only [View.apply, projectChange, KeyedMap.get_insert]
    by_cases hid : id = project.id
    · rw [if_pos hid, if_pos hid]
      rfl
    · rw [if_neg hid, if_neg hid, apply_unit]

theorem mutate_view (maps : DaemonMaps) (event : Event) :
    (maps.mutate event).view = maps.view.apply event := by
  cases event with
  | sessionUpdated session => exact view_insert_session _ _ _
  | sessionResources resources =>
    simp only [DaemonMaps.mutate]
    cases h : maps.sessions.get resources.id with
    | none => exact (view_sample_none maps.view resources h).symm
    | some record => exact view_sample _ _ _ h
  | sessionRemoved id => exact view_erase _ _ _
  | projectUpdated project => exact view_insert_project _ _ _

theorem view_removeSessions (order : HashOrder SessionRecord) (store : SessionStore)
    (ids : List SessionId) : (store.removeSessions order ids).view = store.view := by
  have hfold : ∀ (l : List SessionId) (store : SessionStore),
      (l.foldl SessionStore.close store).view = store.view := by
    intro l
    induction l with
    | nil => intro store; rfl
    | cons id l ih => intro store; exact ih (store.close id)
  exact hfold _ store

theorem view_upsertSession (order : HashOrder SessionRecord) (store : SessionStore)
    (session : SessionRecord) :
    (store.upsertSession order session).view = store.view.apply (.sessionUpdated session) := by
  have hinsert := view_insert_session store.sessions store.projects session
  unfold SessionStore.upsertSession
  by_cases hclose : store.shouldAutoClose session = true
  · rw [if_pos hclose, view_removeSessions]
    exact hinsert
  · rw [if_neg hclose]
    exact hinsert

/-- What an event does to the registers of the store is what it did to those of the daemon. -/
theorem handle_view (order : HashOrder SessionRecord) (store : SessionStore) (event : Event) :
    (store.handleEventChange order event).2.view = store.view.apply event := by
  cases event with
  | sessionUpdated session =>
    simp only [SessionStore.handleEventChange]
    by_cases hsame : store.sessions.get session.id = some session
    · rw [if_pos hsame]
      ext1
      · funext id
        simp only [View.apply, sessionChange]
        by_cases hid : id = session.id
        · rw [if_pos hid, hid]
          exact hsame
        · rw [if_neg hid, apply_nop]
      · funext id
        exact (apply_unit _).symm
    · rw [if_neg hsame]
      exact view_upsertSession order store session
  | sessionResources resources =>
    simp only [SessionStore.handleEventChange]
    cases h : store.sessions.get resources.id with
    | none => exact (view_sample_none store.view resources h).symm
    | some record =>
      simp only
      by_cases hsame : record.sampled resources = record
      · rw [if_pos hsame]
        ext1
        · funext id
          simp only [View.apply, sessionChange]
          by_cases hid : id = resources.id
          · rw [if_pos hid, hid]
            show store.sessions.get resources.id = _
            rw [show store.view.sessions resources.id = some record from h, h]
            exact congrArg some hsame.symm
          · rw [if_neg hid, apply_nop]
        · funext id
          exact (apply_unit _).symm
      · rw [if_neg hsame]
        exact view_sample _ _ _ h
  | sessionRemoved id =>
    simp only [SessionStore.handleEventChange]
    by_cases hin : (store.sessions.get id).isSome = true
    · rw [if_pos hin]
      exact view_erase _ _ _
    · rw [if_neg hin]
      have hnone : store.sessions.get id = none := by simpa using hin
      ext1
      · funext other
        simp only [View.apply, sessionChange]
        by_cases hid : other = id
        · rw [if_pos hid, hid]
          exact hnone
        · rw [if_neg hid, apply_nop]
      · funext other
        exact (apply_unit _).symm
  | projectUpdated project =>
    simp only [SessionStore.handleEventChange]
    by_cases hsame : store.projects.get project.id = some project
    · rw [if_pos hsame]
      ext1
      · funext id
        exact (apply_nop _).symm
      · funext id
        simp only [View.apply, projectChange]
        by_cases hid : id = project.id
        · rw [if_pos hid, hid]
          exact hsame
        · rw [if_neg hid, apply_unit]
    · rw [if_neg hsame]
      exact view_insert_project _ _ _

theorem hydrate_view (store : SessionStore) (maps : DaemonMaps) :
    (store.hydrate maps.list).view = maps.view := by
  ext1
  · funext id
    exact KeyedMap.get_ofList_values maps.sessions id
  · funext id
    exact KeyedMap.get_ofList_values maps.projects id

namespace Feed

variable {order : HashOrder SessionRecord} {feed : Feed}

/-! ### What the response and the events have in common -/

/-- The response at position `position` covers the events that are still to come up to there,
and the events after it lead from it to the daemon's maps. -/
def Covers (feed : Feed) (position : Nat) (maps : DaemonMaps) : Prop :=
  ∃ overlap since base, feed.pending = overlap ++ since ∧
    feed.published = position + since.length ∧ maps.view = View.replay overlap base ∧
    feed.daemon.view = View.replay since maps.view

/-- What holds of every feed: the events to come are part of the daemon's maps, and so is the
response, as long as the event task has not overtaken it. -/
structure Kept (feed : Feed) : Prop where
  bound : feed.pending.length ≤ feed.published
  past : ∃ base, feed.daemon.view = View.replay feed.pending base
  response : ∀ position result, feed.response = some (position, result) →
    ∃ maps : DaemonMaps, result = maps.list ∧
      (feed.consumed ≤ position → feed.Covers position maps)

/-- The store lacks nothing but the events that are still to come. -/
def Good (feed : Feed) : Prop := View.replay feed.pending feed.store.view = feed.daemon.view

theorem kept_new (daemon : DaemonMaps) : Kept (new daemon) := by
  refine ⟨Nat.le_refl _, ⟨daemon.view, rfl⟩, ?_⟩
  intro position result h
  cases h

/-- Dropping the next events, applied or not, keeps what holds of every feed. -/
theorem Kept.drop (h : Kept feed) (count : Nat) (hcount : count ≤ feed.pending.length)
    (store : SessionStore) :
    Kept { feed with pending := feed.pending.drop count, store := store } := by
  have hdrop : (feed.pending.drop count).length = feed.pending.length - count :=
    List.length_drop
  refine ⟨?_, ?_, ?_⟩
  · show (feed.pending.drop count).length ≤ feed.published
    have := h.bound
    omega
  · obtain ⟨base, hbase⟩ := h.past
    refine ⟨View.replay (feed.pending.take count) base, ?_⟩
    show feed.daemon.view = View.replay (feed.pending.drop count) _
    rw [← View.replay_append, List.take_append_drop, hbase]
  · intro position result hresponse
    obtain ⟨maps, hmaps, hcovers⟩ := h.response position result hresponse
    refine ⟨maps, hmaps, fun htimely => ?_⟩
    have htimely' : feed.published - (feed.pending.drop count).length ≤ position := htimely
    have hbound := h.bound
    obtain ⟨overlap, since, base, hpending, hposition, hview, hdaemon⟩ := hcovers (by
      show feed.published - feed.pending.length ≤ position
      omega)
    have hlen : feed.pending.length = overlap.length + since.length := by
      rw [hpending, List.length_append]
    have hinside : count ≤ overlap.length := by omega
    refine ⟨overlap.drop count, since, View.replay (overlap.take count) base, ?_, hposition, ?_,
      hdaemon⟩
    · show feed.pending.drop count = _
      rw [hpending, List.drop_append_of_le_length hinside]
    · rw [← View.replay_append, List.take_append_drop, hview]

theorem Kept.mutate (h : Kept feed) (event : Event) :
    Kept (step order feed (.mutate event)).1 := by
  have hconsumed : (step order feed (.mutate event)).1.consumed = feed.consumed := by
    show feed.published + 1 - (feed.pending ++ [event]).length =
      feed.published - feed.pending.length
    rw [List.length_append, List.length_singleton]
    omega
  refine ⟨?_, ?_, ?_⟩
  · show (feed.pending ++ [event]).length ≤ feed.published + 1
    rw [List.length_append, List.length_singleton]
    exact Nat.succ_le_succ h.bound
  · obtain ⟨base, hbase⟩ := h.past
    refine ⟨base, ?_⟩
    show (feed.daemon.mutate event).view = View.replay (feed.pending ++ [event]) base
    rw [mutate_view, View.replay_concat, hbase]
  · intro position result hresponse
    obtain ⟨maps, hmaps, hcovers⟩ := h.response position result hresponse
    refine ⟨maps, hmaps, fun htimely => ?_⟩
    rw [hconsumed] at htimely
    obtain ⟨overlap, since, base, hpending, hposition, hview, hdaemon⟩ := hcovers htimely
    refine ⟨overlap, since ++ [event], base, ?_, ?_, hview, ?_⟩
    · show feed.pending ++ [event] = overlap ++ (since ++ [event])
      rw [hpending, List.append_assoc]
    · show feed.published + 1 = position + (since ++ [event]).length
      rw [hposition, List.length_append, List.length_singleton, Nat.add_assoc]
    · show (feed.daemon.mutate event).view = _
      rw [mutate_view, View.replay_concat, hdaemon]

theorem Kept.step (h : Kept feed) (event : FeedEvent) : Kept (step order feed event).1 := by
  cases event with
  | mutate event => exact h.mutate event
  | receive =>
    cases hpending : feed.pending with
    | nil =>
      simp only [Feed.step, hpending]
      exact h
    | cons event rest =>
      have hdrop := h.drop 1 (by rw [hpending]; simp)
        (feed.store.handleEventChange order event).2
      rw [hpending, List.drop_one, List.tail_cons] at hdrop
      simp only [Feed.step, hpending]
      exact hdrop
  | lag count =>
    rcases Nat.le_total count feed.pending.length with hle | hge
    · exact h.drop count hle feed.store
    · have hall := h.drop _ (Nat.le_refl _) feed.store
      rw [List.drop_length] at hall
      simp only [Feed.step, List.drop_eq_nil_of_le hge]
      exact hall
  | list =>
    cases hresponse : feed.response with
    | some old =>
      simp only [Feed.step, hresponse]
      exact h
    | none =>
      simp only [Feed.step, hresponse]
      refine ⟨h.bound, h.past, ?_⟩
      intro position result hnew
      cases hnew
      obtain ⟨base, hbase⟩ := h.past
      exact ⟨feed.daemon, rfl, fun _ => ⟨feed.pending, [], base, (List.append_nil _).symm, rfl,
        hbase, rfl⟩⟩
  | hydrate =>
    cases hresponse : feed.response with
    | none =>
      simp only [Feed.step, hresponse]
      exact h
    | some answer =>
      obtain ⟨position, result⟩ := answer
      simp only [Feed.step, hresponse]
      refine ⟨h.bound, h.past, ?_⟩
      intro position result hnew
      cases hnew

/-! ### When nothing is lost -/

/-- A list response is applied that is at least as new as what the event task has consumed. -/
def Timely (x : Step Feed FeedEvent Unit) : Prop :=
  x.event = .hydrate ∧ ∃ position result, x.before.response = some (position, result) ∧
    x.before.consumed ≤ position

/-- The receiver does not lag, and a list response is applied before the event task overtakes
it. -/
def InOrder (x : Step Feed FeedEvent Unit) : Prop :=
  match x.event with
  | .lag count => count = 0 ∨ x.before.pending = []
  | .hydrate => ∀ position result, x.before.response = some (position, result) →
      x.before.consumed ≤ position
  | _ => True

/-- A timely response leaves the store with nothing but the events to come to wait for: those
that the response already has are replayed over it. -/
theorem Kept.good_hydrate (h : Kept feed) {position : Nat} {result : SessionListResult}
    (hresponse : feed.response = some (position, result)) (htimely : feed.consumed ≤ position) :
    Good (Feed.step order feed .hydrate).1 := by
  obtain ⟨maps, rfl, hcovers⟩ := h.response position result hresponse
  obtain ⟨overlap, since, base, hpending, _, hview, hdaemon⟩ := hcovers htimely
  simp only [Feed.step, hresponse]
  show View.replay feed.pending (feed.store.hydrate maps.list).view = feed.daemon.view
  rw [hydrate_view, hpending, View.replay_append, hview, View.replay_again, ← hview, hdaemon]

theorem Good.step (h : Good feed) (hkept : Kept feed) (event : FeedEvent)
    (horder : InOrder (take (Feed.step order) feed event)) :
    Good (Feed.step order feed event).1 := by
  cases event with
  | mutate event =>
    show View.replay (feed.pending ++ [event]) feed.store.view = (feed.daemon.mutate event).view
    rw [View.replay_concat, h, mutate_view]
  | receive =>
    cases hpending : feed.pending with
    | nil =>
      simp only [Feed.step, hpending]
      exact h
    | cons event rest =>
      simp only [Feed.step, hpending]
      show View.replay rest (feed.store.handleEventChange order event).2.view = _
      rw [handle_view, ← View.replay_cons, ← hpending]
      exact h
  | lag count =>
    have hsame : feed.pending.drop count = feed.pending := by
      rcases horder with hzero | hnone
      · rw [hzero, List.drop_zero]
      · have hnil : feed.pending = [] := hnone
        rw [hnil, List.drop_nil]
    simp only [Feed.step, hsame]
    exact h
  | list =>
    cases hresponse : feed.response <;> simp only [Feed.step, hresponse] <;> exact h
  | hydrate =>
    cases hresponse : feed.response with
    | none =>
      simp only [Feed.step, hresponse]
      exact h
    | some answer => exact hkept.good_hydrate hresponse (horder _ _ hresponse)

/-- **The store converges when nothing overtakes a list response.** If some list response was
applied in time, and since then the receiver has not lagged and every list response was applied
in time, then the store has the daemon's maps as soon as no event is left to apply. -/
theorem store_converges (order : HashOrder SessionRecord) (daemon : DaemonMaps)
    (events : List FeedEvent)
    (hsince : Since Timely InOrder (trace (step order) (new daemon) events))
    (hquiet : (run (step order) (new daemon) events).pending = []) :
    (∀ id, (run (step order) (new daemon) events).store.sessions.get id =
      (run (step order) (new daemon) events).daemon.sessions.get id) ∧
    ∀ id, (run (step order) (new daemon) events).store.projects.get id =
      (run (step order) (new daemon) events).daemon.projects.get id := by
  have hrun := trace_invariant (step order)
    (P := fun history feed => Kept feed ∧ (Since Timely InOrder history → Good feed))
    (s := new daemon) ⟨kept_new daemon, fun h => by
      obtain ⟨earlier, x, later, hnil, _⟩ := h
      cases earlier <;> cases hnil⟩
    (fun history feed event ⟨hkept, hgood⟩ => by
      refine ⟨hkept.step event, fun h => ?_⟩
      rcases h.of_concat with hnow | ⟨hbefore, hin⟩
      · obtain ⟨hevent, position, result, hresponse, htimely⟩ := hnow
        have hhydrate : event = .hydrate := hevent
        subst hhydrate
        exact hkept.good_hydrate hresponse htimely
      · exact (hgood hbefore).step hkept event hin) events
  have hgood := hrun.2 hsince
  unfold Good at hgood
  rw [hquiet] at hgood
  exact ⟨fun id => congrFun (congrArg View.sessions hgood) id,
    fun id => congrFun (congrArg View.projects hgood) id⟩

/-! ### An overtaken response -/

/-- A session with nothing about it but its title. -/
def titled (title : String) : SessionRecord where
  id := "s1"
  kind := ⟨"claude-code", none⟩
  cwd := "/work"
  projectId := "p1"
  worktreePath := none
  title := title
  titleSource := .placeholder
  status := .idle
  resumability := .live
  parent := none
  createdAt := 0
  archivedAt := none
  host := none
  memoryBytes := none
  artifacts := none
  listeningPorts := none

/-- A daemon with one session. -/
def oneSession : DaemonMaps := ⟨KeyedMap.empty.insert (titled "old"), .empty⟩

def asIs : HashOrder SessionRecord := ⟨id, List.Perm.refl⟩

theorem store_converges_rename :
    (run (step asIs) (new oneSession)
      [.list, .mutate (.sessionUpdated (titled "new")), .hydrate, .receive]).store.sessions.get "s1"
      = (run (step asIs) (new oneSession)
        [.list, .mutate (.sessionUpdated (titled "new")), .hydrate,
          .receive]).daemon.sessions.get "s1" := by
  refine (store_converges asIs oneSession _ ?_ rfl).1 "s1"
  refine ⟨trace (step asIs) (new oneSession) [.list, .mutate (.sessionUpdated (titled "new"))],
    take (step asIs) (run (step asIs) (new oneSession)
      [.list, .mutate (.sessionUpdated (titled "new"))]) .hydrate,
    trace (step asIs) (run (step asIs) (new oneSession)
      [.list, .mutate (.sessionUpdated (titled "new")), .hydrate]) [.receive], rfl,
    ⟨rfl, 0, _, rfl, Nat.le_refl 0⟩, ?_⟩
  intro x hx
  rw [trace, trace, List.mem_singleton] at hx
  rw [hx]
  trivial

/-- The daemon answers a list request and removes the session; the event task applies the
removal before the state task applies the answer.  Nothing is left to apply, and the store has
the session that the daemon removed. -/
theorem overtaken_list_revives :
    ∃ feed, feed = run (step asIs) (new oneSession)
        [.list, .mutate (.sessionRemoved "s1"), .receive, .hydrate] ∧
      feed.pending = [] ∧ feed.response = none ∧
      feed.daemon.sessions.get "s1" = none ∧
      feed.store.sessions.get "s1" = some (titled "old") := by
  refine ⟨_, rfl, rfl, rfl, ?_, ?_⟩
  · decide
  · decide

end Feed

end Homie.App
