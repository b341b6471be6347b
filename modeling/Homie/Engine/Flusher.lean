/-
The state file of the registry: `load` and the deferred writes of
`homie-engine/src/registry/flusher.rs`, with the snapshot and the repairs of
`registry/persisted.rs` and the project identity of `registry.rs`.

Of a record the fields that are read or written here stand on their own, the rest is carried along
in `fields`.  Of a live session only its view is looked at.  The state file holds what the JSON codec
of the store (`registry/store.rs`) writes and reads; the temporary file next to it is written first.
-/
import Homie.Engine.Events
import Homie.Engine.Registry
import Homie.Lib.Fallible
import Homie.Lib.FileTree
import Homie.Lib.KeyedMap
import Homie.Lib.Trace

namespace Homie.Stores

open Events (JsonValue)

/-- `serde_json::to_vec` and `from_slice` at one type. -/
structure Codec (α β : Type) where
  encode : α → β
  decode : β → Option α
  decode_encode : ∀ value, decode (encode value) = some value

/-- The `id` of a project, when it is a string. -/
def projectId : JsonValue → Option String
  | .object fields =>
    match fields.find? (·.1 = "id") with
    | some (_, .string id) => some id
    | _ => none
  | _ => none

end Homie.Stores

namespace Homie.Flusher

open Events (JsonValue)
open Stores (Codec projectId)
open Watch (SessionView normalizeAgentTitle isGenericTerminalTitle)

variable {Fields β : Type}

/-! ### Records and projects -/

structure SessionRecord (Fields : Type) extends Watch.SessionRecord where
  id : String
  projectId : String
  host : Option String
  fields : Fields
deriving DecidableEq

structure PersistedState (Fields : Type) where
  version : Int
  projects : List JsonValue
  sessions : List (SessionRecord Fields)

def PersistedState.current (sessions : List (SessionRecord Fields)) (projects : List JsonValue) :
    PersistedState Fields := ⟨1, projects, sessions⟩

/-- The `root` of a project, when it is a string. -/
def projectRoot : JsonValue → Option String
  | .object fields =>
    match fields.find? (·.1 = "root") with
    | some (_, .string root) => some root
    | _ => none
  | _ => none

/-- `project_id`: forty-eight bits of a hash over the bytes of the location. -/
def locationId (location : String) : String :=
  let bytes := location.toList.flatMap String.utf8EncodeChar
  let hash := bytes.foldl (fun hash byte => (hash ^^^ byte.toUInt64) * 0x0000_1000_0000_01B3)
    (0xcbf2_9ce4_8422_2325 : UInt64)
  let digits := Nat.toDigits 16 (hash &&& 0xFFFF_FFFF_FFFF).toNat
  "p_" ++ String.ofList (List.replicate (12 - digits.length) '0' ++ digits)

/-- Remote ids are namespaced by the host. -/
def sessionProjectId (root : String) (host : Option String) : String :=
  locationId (host.elim root fun host => "ssh\x00" ++ host ++ "\x00" ++ root)

/-- `Path::file_name`. -/
def fileName (path : String) : Option String :=
  match (components path).getLast? with
  | some (.normal name) => some name
  | _ => none

def newProject (root : String) (host : Option String) : JsonValue :=
  .object [("id", .string (sessionProjectId root host)),
    ("name", .string ((fileName root).getD root)), ("root", .string root)]

/-- The project of a location, and the projects with it. -/
def ensureSessionProject (projects : List JsonValue) (root : String) (host : Option String) :
    JsonValue × List JsonValue :=
  match projects.find? fun project => projectId project = some (sessionProjectId root host) with
  | some existing => (existing, projects)
  | none => (newProject root host, projects ++ [newProject root host])

/-! ### The registry -/

structure Registry (Fields : Type) where
  /-- What the live sessions show. -/
  sessions : String → Option SessionView
  records : KeyedMap (SessionRecord.id : SessionRecord Fields → String)
  projects : List JsonValue
  dirty : Bool
  /-- In milliseconds. -/
  lastPersist : Option Nat

structure Disk (β : Type) where
  stateFile : Option β
  temp : Option β
  corrupt : Option β

namespace Registry

def new : Registry Fields := ⟨fun _ => none, .empty, [], false, none⟩

/-! ### Loading -/

section Load

variable (isAlphanumeric : Char → Bool)

/-- Whether the title was repaired, and the record. -/
def repairPersistedAgentTitle (record : SessionRecord Fields) : Bool × SessionRecord Fields :=
  if record.titleSource ≠ .agentProvided then (false, record)
  else
    match (normalizeAgentTitle isAlphanumeric record.title).filter fun title =>
        !isGenericTerminalTitle isAlphanumeric title record.toSessionRecord with
    | some title =>
      if title ≠ record.title then (true, { record with title := title }) else (false, record)
    | none => (true, { record with title := record.kind, titleSource := .placeholder })

/-- The roots by id, as they are collected: a later project takes the place of an earlier one. -/
def projectRoots (projects : List JsonValue) (id : String) : Option String :=
  ((projects.filterMap fun project => do
      return (← projectId project, ← projectRoot project)).reverse.find? (·.1 = id)).map (·.2)

/-- The first-level root that a record is under. -/
def ownerRoot (projects : List JsonValue) (record : SessionRecord Fields) : String :=
  (projectRoots projects record.projectId).getD record.cwd

def loadRecord (projects : List JsonValue) (record : SessionRecord Fields) :
    SessionRecord Fields :=
  let record := (repairPersistedAgentTitle isAlphanumeric record).2
  { record with projectId := sessionProjectId (ownerRoot projects record) record.host }

/-- `load` of a file that parses. -/
def loadState (registry : Registry Fields) (state : PersistedState Fields) : Registry Fields :=
  { registry with
    records := state.sessions.foldl (fun records record =>
      records.insert (loadRecord isAlphanumeric state.projects record)) registry.records
    projects := state.sessions.foldl (fun projects record =>
      (ensureSessionProject projects (ownerRoot state.projects record) record.host).2)
      state.projects }

/-- The number of records; a file that does not parse is put aside. -/
def load (codec : Codec (PersistedState Fields) β) (registry : Registry Fields) (disk : Disk β)
    (readable : Bool) : Except IoError Nat × Registry Fields × Disk β :=
  match disk.stateFile with
  | none => (.ok 0, registry, disk)
  | some bytes =>
    if !readable then (.error .other, registry, disk)
    else
      match codec.decode bytes with
      | some state =>
        let registry := registry.loadState isAlphanumeric state
        (.ok registry.records.values.length, registry, disk)
      | none => (.error .other, registry, { disk with stateFile := none, corrupt := some bytes })

end Load

/-! ### Writing -/

/-- What goes wrong in a write; the temporary file may be left with anything. -/
inductive WriteFault (β : Type) where
  | serialize
  | createDir
  | write (left : Option β)
  | rename

def persistDebounce : Nat := 500

/-- The records with the status of their live sessions, by id. -/
def recordsForPersistence (registry : Registry Fields) : List (SessionRecord Fields) :=
  (registry.records.values.map fun record =>
    match registry.sessions record.id with
    | some view =>
      { record with toSessionRecord := Watch.foldSessionStatus record.toSessionRecord view }
    | none => record).mergeSort fun a b => a.id ≤ b.id

def persisted (registry : Registry Fields) : PersistedState Fields :=
  .current registry.recordsForPersistence registry.projects

variable (codec : Codec (PersistedState Fields) β)

def persistNow (registry : Registry Fields) (disk : Disk β) (now : Nat)
    (fault : Option (WriteFault β)) : Except IoError Unit × Registry Fields × Disk β :=
  let bytes := codec.encode registry.persisted
  match fault with
  | some .serialize => (.error .other, registry, disk)
  | some .createDir => (.error .other, registry, disk)
  | some (.write left) => (.error .other, registry, { disk with temp := left })
  | some .rename => (.error .other, registry, { disk with temp := some bytes })
  | none =>
    (.ok (), { registry with dirty := false, lastPersist := some now },
      { disk with stateFile := some bytes, temp := none })

/-- The last write is not older than the debounce window. -/
def debounced (registry : Registry Fields) (now : Nat) : Bool :=
  registry.lastPersist.any fun last => now - last < persistDebounce

def persist (registry : Registry Fields) (disk : Disk β) (now : Nat)
    (fault : Option (WriteFault β)) : Except IoError Unit × Registry Fields × Disk β :=
  if registry.debounced now then (.ok (), { registry with dirty := true }, disk)
  else registry.persistNow codec disk now fault

def flushDirty (registry : Registry Fields) (disk : Disk β) (now : Nat)
    (fault : Option (WriteFault β)) : Except IoError Unit × Registry Fields × Disk β :=
  if !registry.dirty then (.ok (), registry, disk) else registry.persistNow codec disk now fault

end Registry

/-! ### Runs -/

/-- A registry and the disk it writes to. -/
structure Persistence (Fields β : Type) where
  registry : Registry Fields
  disk : Disk β

inductive Event (Fields β : Type) where
  /-- Anything happens to what is in memory; the mutation may mark the registry dirty. -/
  | mutate (sessions : String → Option SessionView)
      (records : KeyedMap (SessionRecord.id : SessionRecord Fields → String))
      (projects : List JsonValue) (marks : Bool)
  | persist (now : Nat) (fault : Option (Registry.WriteFault β))
  | flushDirty (now : Nat) (fault : Option (Registry.WriteFault β))

/-- The answer is whether the call went through. -/
def step (codec : Codec (PersistedState Fields) β) (sys : Persistence Fields β) :
    Event Fields β → Persistence Fields β × Bool
  | .mutate sessions records projects marks =>
    (⟨{ sys.registry with sessions, records, projects, dirty := marks || sys.registry.dirty },
      sys.disk⟩, true)
  | .persist now fault =>
    let (result, registry, disk) := sys.registry.persist codec sys.disk now fault
    (⟨registry, disk⟩, result.isOk)
  | .flushDirty now fault =>
    let (result, registry, disk) := sys.registry.flushDirty codec sys.disk now fault
    (⟨registry, disk⟩, result.isOk)

end Homie.Flusher
