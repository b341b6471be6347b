/-
The session store of the app: `homie-app/src/store/events.rs` and `store/sessions.rs`.

The part of the store that the daemon's records reach: the two maps, the set of sessions that
are closing, and the channel of effects that `run_effects` empties.  Selection, terminal
residency, the sidebar order and the notifications read these and write none of them; of the
effects, those that ask the daemon for a change to a record are kept.
-/
import Homie.App.Projection

namespace Homie.App

/-- The effects that change a record of the daemon. -/
inductive StoreEffect where
  | remove (id : SessionId)
  | resume (id : SessionId) (automatic : Bool)
  | archive (id : SessionId)
  | unarchive (id : SessionId)
  | rename (id : SessionId) (title : String)
deriving DecidableEq, Repr

structure SessionStore where
  sessions : SessionMap
  projects : ProjectMap
  closing : List SessionId
  effects : List StoreEffect
  lastActionError : Option String

structure SessionListResult where
  sessions : List SessionRecord
  projects : List Project

structure SessionResourcesEvent where
  id : SessionId
  memoryBytes : Option Nat
  listeningPorts : Option (List PortInfo)
  artifacts : Option (List SessionArtifact)

/-- The events about sessions and projects. -/
inductive Event where
  | sessionUpdated (session : SessionRecord)
  | sessionResources (resources : SessionResourcesEvent)
  | sessionRemoved (id : SessionId)
  | projectUpdated (project : Project)

inductive StoreEventChange where
  | none
  | resources
  | model
deriving DecidableEq, Repr

/-- The facets of a sample that are there replace those of the record. -/
def SessionRecord.sampled (record : SessionRecord) (resources : SessionResourcesEvent) :
    SessionRecord :=
  { record with
    memoryBytes := resources.memoryBytes.or record.memoryBytes
    listeningPorts := resources.listeningPorts.or record.listeningPorts
    artifacts := resources.artifacts.or record.artifacts }

namespace SessionStore

def new : SessionStore := ⟨.empty, .empty, [], [], none⟩

def emit (store : SessionStore) (effect : StoreEffect) : SessionStore :=
  { store with effects := store.effects ++ [effect] }

/-- A full resync is the authority. -/
def hydrate (store : SessionStore) (result : SessionListResult) : SessionStore :=
  { store with
    closing := []
    sessions := .ofList result.sessions
    projects := .ofList result.projects }

/-! ### Actions -/

/-- One row of `remove_sessions`: hidden now; `session.removed` settles the record. -/
def close (store : SessionStore) (id : SessionId) : SessionStore :=
  { store with closing := id :: store.closing }.emit (.remove id)

/-- The sessions go with the auxiliary terminals of their workbenches. -/
def removeSessions (order : HashOrder SessionRecord) (store : SessionStore)
    (ids : List SessionId) : SessionStore :=
  let auxiliary := (order.visit store.sessions.values).filter fun session =>
    session.parent.any ids.contains && isAuxiliaryTerminal session
  (ids ++ auxiliary.map (·.id)).eraseDups.foldl close store

/-- `get_mut` and a change that keeps the id. -/
def modify (store : SessionStore) (id : SessionId) (f : SessionRecord → SessionRecord) :
    SessionStore :=
  match store.sessions.get id with
  | some session => { store with sessions := store.sessions.insert (f session) }
  | none => store

/-- `now` is the reading of the clock for each session. -/
def archiveSessions (store : SessionStore) (now : SessionId → DateMillis)
    (ids : List SessionId) : SessionStore :=
  let targets := ids.filter fun id => (store.sessions.get id).any (!·.isArchived)
  targets.foldl (fun store id =>
    (store.modify id fun session => { session with archivedAt := some (now id) }).emit
      (.archive id)) store

def reviveSession (store : SessionStore) (id : SessionId) : SessionStore :=
  match store.sessions.get id with
  | some session =>
    if session.isArchived then
      (store.modify id fun session => { session with archivedAt := none }).emit
        (if session.resumability = .resumable then .resume id false else .unarchive id)
    else store
  | none => store

def reviveSessions (store : SessionStore) (ids : List SessionId) : SessionStore :=
  ids.foldl reviveSession store

def rename (store : SessionStore) (id : SessionId) (title : String) : SessionStore :=
  (store.modify id fun session =>
    { session with title := title, titleSource := .userRename }).emit (.rename id title)

/-! ### Events -/

def isExited (session : SessionRecord) : Bool :=
  match session.status with
  | .exited _ => true
  | _ => false

/-- A clean `exit 0` from something with no conversation to return to. -/
def exitedClean (session : SessionRecord) : Bool :=
  match session.status with
  | .exited info =>
    info.reason == .exited && info.code == some 0 && session.resumability != .resumable
  | _ => false

def shouldAutoClose (store : SessionStore) (session : SessionRecord) : Bool :=
  !store.closing.contains session.id && exitedClean session &&
    (store.sessions.get session.id).all fun previous => !isExited previous

def upsertSession (order : HashOrder SessionRecord) (store : SessionStore)
    (session : SessionRecord) : SessionStore :=
  let next := { store with sessions := store.sessions.insert session }
  if store.shouldAutoClose session then removeSessions order next [session.id] else next

def removeSessionRecord (store : SessionStore) (id : SessionId) : SessionStore :=
  { store with
    sessions := store.sessions.erase id
    closing := store.closing.filter (· ≠ id) }

def handleEventChange (order : HashOrder SessionRecord) (store : SessionStore) :
    Event → StoreEventChange × SessionStore
  | .sessionUpdated session =>
    if store.sessions.get session.id = some session then (.none, store)
    else (.model, store.upsertSession order session)
  | .sessionResources resources =>
    match store.sessions.get resources.id with
    | some record =>
      if record.sampled resources = record then (.none, store)
      else (.resources,
        { store with sessions := store.sessions.insert (record.sampled resources) })
    | none => (.none, store)
  | .sessionRemoved id =>
    if (store.sessions.get id).isSome then (.model, store.removeSessionRecord id)
    else (.none, store)
  | .projectUpdated project =>
    if store.projects.get project.id = some project then (.none, store)
    else (.model, { store with projects := store.projects.insert project })

end SessionStore

end Homie.App
