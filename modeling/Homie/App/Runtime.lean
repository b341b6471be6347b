/-
The tasks around the session store: `StoreRuntime::start_with_store` and `run_effects` of
`homie-app/src/store/runtime.rs`, with the daemon they talk to.

The daemon is its maps and the log of changes to them; every change is published as one event,
and a list response is the maps at one position of the log.

`Feed` has the two tasks that write the daemon's records into the store: one applies the events
in the order they arrive, and goes on when the receiver lagged; the other applies list
responses.  `Actions` has the task that carries out the effects of the store one after the
other, with the answers of `control/handlers/session.rs` and `control/handlers/resume.rs` of
`homie-engine`.
-/
import Homie.App.Store
import Homie.Lib.Trace

namespace Homie.App

/-! ### The daemon -/

structure DaemonMaps where
  sessions : SessionMap
  projects : ProjectMap

namespace DaemonMaps

/-- The change that an event publishes. -/
def mutate (maps : DaemonMaps) : Event → DaemonMaps
  | .sessionUpdated session => { maps with sessions := maps.sessions.insert session }
  | .sessionResources resources =>
    match maps.sessions.get resources.id with
    | some record => { maps with sessions := maps.sessions.insert (record.sampled resources) }
    | none => maps
  | .sessionRemoved id => { maps with sessions := maps.sessions.erase id }
  | .projectUpdated project => { maps with projects := maps.projects.insert project }

/-- `session.list`. -/
def list (maps : DaemonMaps) : SessionListResult := ⟨maps.sessions.values, maps.projects.values⟩

end DaemonMaps

/-! ### Events and list responses -/

structure Feed where
  daemon : DaemonMaps
  /-- How many events the daemon has published on this connection. -/
  published : Nat
  /-- Those the event task has not consumed. -/
  pending : List Event
  /-- The list response that is not applied yet, with the position it was taken at. -/
  response : Option (Nat × SessionListResult)
  store : SessionStore

inductive FeedEvent where
  /-- The daemon changes its maps. -/
  | mutate (event : Event)
  /-- The event task applies the next event. -/
  | receive
  /-- `RecvError::Lagged`: the next events are gone. -/
  | lag (count : Nat)
  /-- The daemon answers `session.list`. -/
  | list
  /-- The state task applies the answer. -/
  | hydrate

namespace Feed

def new (daemon : DaemonMaps) : Feed := ⟨daemon, 0, [], none, .new⟩

/-- How many events the event task has consumed or missed. -/
def consumed (feed : Feed) : Nat := feed.published - feed.pending.length

variable (order : HashOrder SessionRecord)

def step (feed : Feed) : FeedEvent → Feed × Unit
  | .mutate event =>
    ({ feed with
      daemon := feed.daemon.mutate event
      published := feed.published + 1
      pending := feed.pending ++ [event] }, ())
  | .receive =>
    match feed.pending with
    | event :: rest =>
      ({ feed with
        pending := rest
        store := (feed.store.handleEventChange order event).2 }, ())
    | [] => (feed, ())
  | .lag count => ({ feed with pending := feed.pending.drop count }, ())
  | .list =>
    match feed.response with
    | none => ({ feed with response := some (feed.published, feed.daemon.list) }, ())
    | some _ => (feed, ())
  | .hydrate =>
    match feed.response with
    | some (_, result) =>
      ({ feed with response := none, store := feed.store.hydrate result }, ())
    | none => (feed, ())

end Feed

/-! ### Effects -/

/-- The session an effect is about. -/
def StoreEffect.id : StoreEffect → SessionId
  | .remove id => id
  | .resume id _ => id
  | .archive id => id
  | .unarchive id => id
  | .rename id _ => id

/-- What decides how a request ends, besides the record it is about. -/
structure Circumstances where
  /-- The request comes to the daemon. -/
  reaches : Bool
  /-- Its answer comes back. -/
  returns : Bool
  error : String
  now : DateMillis
  /-- A session runs under the record. -/
  live : Bool
  /-- How ending it ended, if it did. -/
  exit : Option ExitInfo
  /-- A new session can be started under the record. -/
  respawns : Bool
  /-- What publishing folds into the record from the live session. -/
  fold : SessionRecord → SessionRecord

namespace DaemonMaps

/-- `publish_updated`: the record as it stands is kept and published. -/
def publishUpdated (maps : DaemonMaps) (around : Circumstances) (record : SessionRecord) :
    DaemonMaps × List Event × Option String :=
  let published := { around.fold record with id := record.id }
  ({ maps with sessions := maps.sessions.insert published }, [.sessionUpdated published], none)

/-- The handlers of the requests that the effects make: the maps, the events and the error. -/
def handle (maps : DaemonMaps) (around : Circumstances) (effect : StoreEffect) :
    DaemonMaps × List Event × Option String :=
  match maps.sessions.get effect.id with
  | none => (maps, [], some around.error)
  | some record =>
    match effect with
    | .remove id =>
      ({ maps with sessions := maps.sessions.erase id }, [.sessionRemoved id], none)
    | .rename _ title =>
      maps.publishUpdated around { record with title := title, titleSource := .userRename }
    | .archive _ =>
      let status := match around.exit with
        | some info => .exited info
        | none => if SessionStore.isExited record then record.status
            else .exited ⟨.archived, none, none⟩
      maps.publishUpdated around
        { record with archivedAt := some around.now, status := status }
    | .unarchive _ => maps.publishUpdated around { record with archivedAt := none }
    | .resume _ _ =>
      -- genuinely live: resuming is a no-op, not an error
      if around.live && !SessionStore.isExited record then (maps, [], none)
      else if around.respawns then
        maps.publishUpdated around { record with status := .starting }
      else (maps, [], some around.error)

end DaemonMaps

structure Actions where
  daemon : DaemonMaps
  /-- The events the store has not applied. -/
  pending : List Event
  store : SessionStore

inductive Action where
  | removeSessions (ids : List SessionId)
  | archiveSessions (now : SessionId → DateMillis) (ids : List SessionId)
  | reviveSessions (ids : List SessionId)
  | rename (id : SessionId) (title : String)
  /-- `auto_resume_if_needed`. -/
  | autoResume (id : SessionId)
  /-- The daemon changes its maps on its own. -/
  | mutate (event : Event)
  /-- The event task applies the next event. -/
  | receive
  /-- `run_effects` carries out the next effect. -/
  | runEffect (around : Circumstances)

namespace Actions

/-- The store has just been hydrated. -/
def start (daemon : DaemonMaps) : Actions := ⟨daemon, [], SessionStore.new.hydrate daemon.list⟩

/-- One round of `run_effects`. -/
def runEffect (sys : Actions) (around : Circumstances) (effect : StoreEffect)
    (rest : List StoreEffect) : Actions :=
  let (daemon, events, error) :=
    if around.reaches then sys.daemon.handle around effect
    else (sys.daemon, [], some around.error)
  let result := if around.returns then error else some around.error
  { daemon := daemon
    pending := sys.pending ++ events
    store := { sys.store with effects := rest, lastActionError := result } }

variable (order : HashOrder SessionRecord)

def step (sys : Actions) : Action → Actions × Unit
  | .removeSessions ids => ({ sys with store := sys.store.removeSessions order ids }, ())
  | .archiveSessions now ids => ({ sys with store := sys.store.archiveSessions now ids }, ())
  | .reviveSessions ids => ({ sys with store := sys.store.reviveSessions ids }, ())
  | .rename id title => ({ sys with store := sys.store.rename id title }, ())
  | .autoResume id => ({ sys with store := sys.store.emit (.resume id true) }, ())
  | .mutate event =>
    ({ sys with daemon := sys.daemon.mutate event, pending := sys.pending ++ [event] }, ())
  | .receive =>
    match sys.pending with
    | event :: rest =>
      ({ sys with
        pending := rest
        store := (sys.store.handleEventChange order event).2 }, ())
    | [] => (sys, ())
  | .runEffect around =>
    match sys.store.effects with
    | effect :: rest => (sys.runEffect around effect rest, ())
    | [] => (sys, ())

end Actions

end Homie.App
