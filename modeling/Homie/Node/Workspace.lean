/-
Preparing a checkpoint: `prepare`, `walk_workspace` and `store_file` of
`homie-node/src/checkpoint.rs`.

The walk goes through a workspace depth first, leaves out what the policy names, and
stores every other regular file as a blob.  A directory has no order of its own and the
walk sorts what it reads, so a `Directory` lists its entries by name.

What `find_provider_state` finds in the provider's home is an argument of `prepare`, and so
are the identifier it draws and the clock.
-/
import Homie.Node.Checkpoint

namespace Homie.Node

/-- The entries of a directory, by name. -/
inductive Directory where
  | nil
  | file (name : String) (file : RegularFile) (rest : Directory)
  | directory (name : String) (inner rest : Directory)
  | symlink (name : String) (rest : Directory)
  /-- A socket, a device, a pipe. -/
  | other (name : String) (rest : Directory)
deriving DecidableEq, Repr

namespace Directory

def names : Directory → List String
  | nil => []
  | file name _ rest | directory name _ rest | symlink name rest | other name rest =>
    name :: rest.names

/-- Names a directory can hold, each once and in order. -/
def Proper : Directory → Prop
  | nil => True
  | directory name inner rest =>
    ProperName name ∧ (∀ later ∈ rest.names, name < later) ∧ inner.Proper ∧ rest.Proper
  | file name _ rest | symlink name rest | other name rest =>
    ProperName name ∧ (∀ later ∈ rest.names, name < later) ∧ rest.Proper

/-- Every regular file below the directory, by its path from it. -/
def files : Directory → List (List String × RegularFile)
  | nil => []
  | file name f rest => ([name], f) :: rest.files
  | directory name inner rest =>
    inner.files.map (fun (path, f) => (name :: path, f)) ++ rest.files
  | symlink _ rest | other _ rest => rest.files

end Directory

/-- The secret and derived data a checkpoint leaves out, by file name. -/
def shouldExclude (name : String) (directory : Bool) : Bool :=
  (directory &&
    [".git", ".ssh", ".codex", ".claude", "node_modules", "target", ".build"].contains name) ||
  name == ".env" || ".env.".toList.isPrefixOf name.toList ||
  ["auth.json", ".credentials.json", "credentials.json", "id_rsa", "id_ed25519"].contains name

/-- What a walk has gathered. -/
structure Walk where
  files : List CheckpointFile
  excluded : List String
  total : Nat
  disk : NodeDisk

namespace CheckpointStore

variable (store : CheckpointStore)

/-- A blob that is there is not looked at. -/
def storeFile (disk : NodeDisk) (source : RegularFile) (relative : String) :
    NodeResult CheckpointFile × NodeDisk :=
  match validateRelativePath relative with
  | .error e => (.error e, disk)
  | .ok () =>
    let digest := store.sha256File source.bytes
    let stored : NodeDisk :=
      if (disk.blobs digest).isSome then disk
      else { disk with blobs := Function.update disk.blobs digest (some source) }
    (.ok ⟨relative, digest, source.bytes.length, some (source.mode &&& 0o777)⟩, stored)

def exclude (walk : Walk) (relative : List String) : Walk :=
  { walk with excluded := walk.excluded ++ [pathText relative] }

/-- What the walk does with a regular file the policy lets through. -/
def walkFile (source : RegularFile) (relative : List String) (walk : Walk) :
    NodeResult Unit × Walk :=
  if walk.files.length ≥ maxFiles then
    (.error (.badRequest s!"workspace exceeds {maxFiles} files"), walk)
  else
    let size := source.bytes.length
    if size > maxFileBytes then (.ok (), exclude walk relative)
    else
      let walk := { walk with total := walk.total + size }
      if walk.total > maxTotalBytes then
        (.error (.badRequest "workspace checkpoint exceeds 8 GiB"), walk)
      else
        match store.storeFile walk.disk source (pathText relative) with
        | (.error e, disk) => (.error e, { walk with disk })
        | (.ok entry, disk) => (.ok (), { walk with files := walk.files ++ [entry], disk })

/-- The walk of a directory whose path from the root is `directory`. -/
def walkWorkspace : Directory → List String → Walk → NodeResult Unit × Walk
  | .nil, _, walk => (.ok (), walk)
  | .file name source rest, directory, walk =>
    let relative := directory ++ [name]
    if shouldExclude name false then walkWorkspace rest directory (exclude walk relative)
    else
      match store.walkFile source relative walk with
      | (.error e, walk) => (.error e, walk)
      | (.ok (), walk) => walkWorkspace rest directory walk
  | .directory name inner rest, directory, walk =>
    let relative := directory ++ [name]
    if shouldExclude name true then walkWorkspace rest directory (exclude walk relative)
    else
      match walkWorkspace inner relative walk with
      | (.error e, walk) => (.error e, walk)
      | (.ok (), walk) => walkWorkspace rest directory walk
  | .symlink name rest, directory, walk =>
    walkWorkspace rest directory (exclude walk (directory ++ [name]))
  | .other name rest, directory, walk =>
    walkWorkspace rest directory (exclude walk (directory ++ [name]))

structure CheckpointPrepareParams where
  sessionId : String
  provider : ProviderKind
  profileId : String
  workspaceRoot : String
  providerSessionId : Option String
  mode : TransferMode
deriving DecidableEq, Repr

/-- The workspace behind `workspace_root`, and what was found of the provider's session. -/
structure Prepared where
  workspace : Directory
  providerFile : Option RegularFile
  /-- The sixteen random bytes of the checkpoint's identifier. -/
  random : List UInt8

/-- The provider's state is stored when it is found; that it cannot be is no error. -/
def storeProviderState (disk : NodeDisk) (providerFile : Option RegularFile) :
    Option CheckpointFile × NodeDisk :=
  match providerFile with
  | none => (none, disk)
  | some source =>
    match store.storeFile disk source "provider/session.jsonl" with
    | (.ok entry, disk) => (some entry, disk)
    | (.error _, disk) => (none, disk)

def prepare (disk : NodeDisk) (now : Int) (params : CheckpointPrepareParams)
    (found : Prepared) : NodeResult CheckpointManifest × NodeDisk :=
  let checkpointId := "cp-" ++ hexEncode found.random
  match store.walkWorkspace found.workspace [] ⟨[], [], 0, disk⟩ with
  | (.error e, walk) => (.error e, walk.disk)
  | (.ok (), walk) =>
    -- The provider is only asked for a session that has an identifier.
    let providerFile := params.providerSessionId.bind fun _ => found.providerFile
    let (providerState, disk) := store.storeProviderState walk.disk providerFile
    let manifest : CheckpointManifest :=
      { version := checkpointVersion
        checkpointId
        sourceNodeId := store.nodeId
        sessionId := params.sessionId
        provider := params.provider
        profileId := params.profileId
        workspaceRoot := params.workspaceRoot
        providerSessionId := params.providerSessionId
        mode := params.mode
        createdAt := now
        files := walk.files
        providerState
        excluded := walk.excluded }
    match saveManifest disk manifest with
    | .error e => (.error e, disk)
    | .ok disk =>
      (.ok manifest, saveMove disk
        { checkpointId
          sessionId := params.sessionId
          sourceNodeId := store.nodeId
          targetNodeId := none
          phase := .prepared
          leaseId := none
          reason := none
          updatedAt := now })

end CheckpointStore

end Homie.Node
