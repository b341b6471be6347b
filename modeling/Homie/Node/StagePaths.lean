/-
`stage` of `homie-node/src/checkpoint.rs` by the paths it writes, with `NodePaths` and
`atomic_json` of `homie-node/src/config.rs`.

Here the paths are put together as the code does, with `Path::join` of whatever the manifest holds,
and the file system is any function of what has been done so far.  `CheckpointStore.stage` says
what the same steps make of the disk.
-/
import Homie.Lib.Effects
import Homie.Lib.FileTree
import Homie.Node.Checkpoint

namespace Homie.Node

open Effects (Program)

/-- What is done to files, and to directories on the way. -/
inductive FileOp where
  | createDirAll (path : PathBuf)
  | setPermissions (path : PathBuf) (mode : Nat)
  | copy (source destination : PathBuf)
  | write (path : PathBuf)
  | rename (source destination : PathBuf)
  | removeFile (path : PathBuf)
deriving DecidableEq

/-- The file that is created or overwritten, or the directory that is given its name. -/
def FileOp.written : FileOp → Option PathBuf
  | .copy _ destination | .rename _ destination => some destination
  | .write path => some path
  | .createDirAll _ | .setPermissions _ _ | .removeFile _ => none

structure NodePaths where
  checkpoints : PathBuf
  blobs : PathBuf
  restores : PathBuf
  moves : PathBuf

namespace NodePaths

def forRoot (root : PathBuf) : NodePaths where
  checkpoints := root.join "checkpoints"
  blobs := root.join "blobs/sha256"
  restores := root.join "restores"
  moves := root.join "moves"

variable (paths : NodePaths)

def blobPath (digest : String) : PathBuf := paths.blobs.join digest

def manifestPath (checkpointId : String) : PathBuf :=
  paths.checkpoints.join (checkpointId ++ ".json")

def movePath (checkpointId : String) : PathBuf := paths.moves.join (checkpointId ++ ".json")

end NodePaths

/-- What the file system answers after what has been done.  A file that cannot be read is none,
and one that holds no value of its kind is an error. -/
structure Files (paths : NodePaths) where
  pathExists : List FileOp → PathBuf → Bool
  isFile : List FileOp → PathBuf → Bool
  sha256File : List FileOp → PathBuf → NodeResult String
  readManifest : List FileOp → PathBuf → Option (NodeResult CheckpointManifest)
  readMove : List FileOp → PathBuf → Option (NodeResult MoveRecord)
  outcome : List FileOp → FileOp → NodeResult Unit
  /-- A move record is written under the checkpoint it names. -/
  moves_named : ∀ done checkpointId movement, validateCheckpointId checkpointId = .ok () →
    readMove done (paths.movePath checkpointId) = some (.ok movement) →
      movement.checkpointId = checkpointId

abbrev Script (paths : NodePaths) := Program (Files paths) FileOp NodeError

namespace NodePaths

variable {paths : NodePaths}

def act (op : FileOp) : Script paths Unit := Program.act Files.outcome op

def setOwnerDirectory (path : PathBuf) : Script paths Unit := act (.setPermissions path 0o700)

def setOwnerFile (path : PathBuf) : Script paths Unit := act (.setPermissions path 0o600)

/-- `atomic_json`; the values that are written always have their JSON. -/
def atomicJson (pid : Nat) (path : PathBuf) : Script paths Unit :=
  match path.parent with
  | none => .fail .io
  | some parent => do
    act (.createDirAll parent)
    setOwnerDirectory parent
    let name := path.fileName.getD "data"
    let temporary := parent.join ("." ++ name ++ ".tmp-" ++ toString pid)
    Program.onFailure (do
        act (.write temporary)
        setOwnerFile temporary
        act (.rename temporary path))
      (act (.removeFile temporary))

def loadManifest (checkpointId : String) : Script paths CheckpointManifest := do
  Program.lift (validateCheckpointId checkpointId)
  let manifest ← Program.tryAsk fun files done =>
    (files.readManifest done (paths.manifestPath checkpointId)).getD
      (.error (.notFound s!"checkpoint `{checkpointId}`"))
  Program.lift (validateManifest manifest)
  pure manifest

def loadMove (checkpointId : String) : Script paths MoveRecord := do
  Program.lift (validateCheckpointId checkpointId)
  Program.tryAsk fun files done =>
    (files.readMove done (paths.movePath checkpointId)).getD
      (.error (.notFound s!"move `{checkpointId}`"))

def saveMove (pid : Nat) (movement : MoveRecord) : Script paths Unit :=
  atomicJson pid (paths.movePath movement.checkpointId)

/-! ### Staging -/

def restoreFile (root : PathBuf) (entry : CheckpointFile) : Script paths Unit := do
  Program.lift (validateRelativePath entry.path)
  Program.lift (validateDigest entry.digest)
  let source := paths.blobPath entry.digest
  let missing : NodeError := .conflict s!"checkpoint blob `{entry.digest}` is missing or corrupt"
  let there ← Program.ask fun files done => files.isFile done source
  if !there then .fail missing
  else
    let digest ← Program.tryAsk fun files done => files.sha256File done source
    if digest ≠ entry.digest then .fail missing
    else
      let destination := root.join entry.path
      destination.parent.forM fun parent => act (.createDirAll parent)
      act (.copy source destination)
      entry.unixMode.forM fun mode => act (.setPermissions destination mode)

/-- The loop over the manifest's files. -/
def restoreFiles (root : PathBuf) : List CheckpointFile → Script paths Unit
  | [] => pure ()
  | entry :: rest => do
    restoreFile root entry
    restoreFiles root rest

def providerStateDestination (manifest : CheckpointManifest) (configHome : PathBuf) :
    NodeResult (Option PathBuf) :=
  match manifest.providerSessionId with
  | none => .ok none
  | some sessionId =>
    if sessionId = "" ∨ sessionId.toList.contains '/' ∨ sessionId.toList.contains '\\' then
      .error (.badRequest "invalid provider session id")
    else
      .ok (some (match manifest.provider with
        | .claude => (configHome.join "projects/-homie-imports").join (sessionId ++ ".jsonl")
        | .codex =>
          (configHome.join "sessions/homie-imports").join
            ("rollout-homie-" ++ sessionId ++ ".jsonl")))

def activateProviderState (pid : Nat) (manifest : CheckpointManifest) (configHome : PathBuf) :
    Script paths Unit :=
  match manifest.providerState with
  | none => pure ()
  | some state => do
    let destination ← Program.lift (providerStateDestination manifest configHome)
    match destination with
    | none => .fail (.protocol "provider state has no provider session id")
    | some destination =>
      let sessionId := manifest.providerSessionId.getD ""
      let there ← Program.ask fun files done => files.pathExists done destination
      if there then
        let digest ← Program.tryAsk fun files done => files.sha256File done destination
        if digest = state.digest then pure ()
        else
          .fail (.conflict
            s!"provider session `{sessionId}` already exists with different contents")
      else
        match destination.parent with
        | none => .fail .io
        | some parent =>
          act (.createDirAll parent)
          setOwnerDirectory parent
          let temporary :=
            parent.join ("." ++ sessionId ++ ".staging-" ++ toString pid)
          act (.copy (paths.blobPath state.digest) temporary)
          let digest ← Program.tryAsk fun files done => files.sha256File done temporary
          if digest ≠ state.digest then
            .fail (.conflict "provider state blob is missing or corrupt")
          else act (.rename temporary destination)

/-- What is staged of a manifest that is loaded. -/
def stageManifest (pid : Nat) (now : Int) (checkpointId : String) (configHome : PathBuf)
    (manifest : CheckpointManifest) : Script paths Unit := do
  let destination := paths.restores.join checkpointId
  let there ← Program.ask fun files done => files.pathExists done destination
  if there then activateProviderState pid manifest configHome
  else
    let temporary := paths.restores.join ("." ++ checkpointId ++ ".staging")
    let staging ← Program.ask fun files done => files.pathExists done temporary
    if staging then .fail (.conflict "checkpoint already has a staging operation")
    else
      act (.createDirAll temporary)
      setOwnerDirectory temporary
      restoreFiles temporary manifest.files
      manifest.providerState.forM (restoreFile (temporary.join ".homie"))
      act (.rename temporary destination)
      activateProviderState pid manifest configHome
      let movement ← loadMove checkpointId
      saveMove pid { movement with phase := .staged, updatedAt := now }

def stage (pid : Nat) (now : Int) (checkpointId : String) (configHome : PathBuf) :
    Script paths CheckpointStageResult := do
  let manifest ← loadManifest checkpointId
  stageManifest pid now checkpointId configHome manifest
  pure (CheckpointStore.stageResult checkpointId)

end NodePaths

end Homie.Node
