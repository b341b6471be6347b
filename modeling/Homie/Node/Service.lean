/-
A node serving its checkpoint methods: the part of `homie-node/src/service.rs` that goes to
the checkpoint store.

Every request is handled by itself; the service takes no lock around the store.  The
accounts say which provider a profile belongs to, and thereby which home is its own.
-/
import Homie.Lib.Inodes
import Homie.Lib.Trace
import Homie.Node.Checkpoint
import Homie.Node.Workspace

namespace Homie.Node

structure NodeService extends CheckpointStore where
  /-- `accounts.profile(id)`. -/
  profile : String → Option ProviderKind

inductive NodeRequest where
  | prepare (params : CheckpointStore.CheckpointPrepareParams) (found : CheckpointStore.Prepared)
  | manifestPut (manifest : CheckpointManifest)
  | blobHas (digests : List String)
  | blobRead (params : BlobReadParams)
  | blobPut (params : BlobPutParams)
  | stage (checkpointId : String)
  | commit (params : MoveCommitParams)
  | abort (params : MoveAbortParams)

inductive NodeResponse where
  | manifest (manifest : CheckpointManifest)
  | ok
  | missing (digests : List String)
  | chunk (chunk : BlobChunk)
  | complete (complete : Bool)
  | staged (staged : CheckpointStageResult)
  | movement (movement : MoveRecord)
deriving DecidableEq, Repr

namespace NodeService

variable (service : NodeService)

/-- An answer of the store as an answer of the service. -/
def answer {α : Type} (respond : α → NodeResponse) (result : NodeResult α × NodeDisk) :
    NodeResult NodeResponse × NodeDisk :=
  (result.1.map respond, result.2)

def dispatchPrepare (disk : NodeDisk) (now : Int) (params : CheckpointStore.CheckpointPrepareParams)
    (found : CheckpointStore.Prepared) : NodeResult NodeResponse × NodeDisk :=
  match service.profile params.profileId with
  | none => (.error (.notFound s!"account profile `{params.profileId}`"), disk)
  | some provider =>
    if provider ≠ params.provider then
      (.error (.badRequest "checkpoint provider does not match its account profile"), disk)
    else answer .manifest (service.prepare disk now params found)

def dispatchStage (disk : NodeDisk) (now : Int) (checkpointId : String) :
    NodeResult NodeResponse × NodeDisk :=
  match CheckpointStore.loadManifest disk checkpointId with
  | .error e => (.error e, disk)
  | .ok manifest =>
    match service.profile manifest.profileId with
    | none => (.error (.notFound s!"account profile `{manifest.profileId}`"), disk)
    | some provider =>
      if provider ≠ manifest.provider then
        (.error (.conflict "target account profile has the wrong provider"), disk)
      else
        answer .staged (service.stage disk now checkpointId (provider, manifest.profileId))

def dispatchAbort (disk : NodeDisk) (now : Int) (params : MoveAbortParams) :
    NodeResult NodeResponse × NodeDisk :=
  match CheckpointStore.loadManifest disk params.checkpointId with
  | .error e => (.error e, disk)
  | .ok manifest =>
    match CheckpointStore.abort disk now params with
    | (.error e, disk) => (.error e, disk)
    | (.ok movement, disk) =>
      if manifest.sourceNodeId = service.nodeId then (.ok (.movement movement), disk)
      else
        match service.profile manifest.profileId with
        | none => (.ok (.movement movement), disk)
        | some provider =>
          match service.rollbackProviderState disk manifest (provider, manifest.profileId) with
          | (.error e, disk) => (.error e, disk)
          | (.ok (), disk) => (.ok (.movement movement), disk)

def dispatch (disk : NodeDisk) (now : Int) : NodeRequest → NodeResult NodeResponse × NodeDisk
  | .prepare params found => service.dispatchPrepare disk now params found
  | .manifestPut manifest => answer (fun _ => .ok) (service.putManifest disk now manifest)
  | .blobHas digests => answer .missing (CheckpointStore.missingBlobs disk digests, disk)
  | .blobRead params => answer .chunk (CheckpointStore.readBlob disk params, disk)
  | .blobPut params => answer .complete (service.putBlob disk params)
  | .stage checkpointId => service.dispatchStage disk now checkpointId
  | .commit params => answer .movement (CheckpointStore.commit disk now params)
  | .abort params => service.dispatchAbort disk now params

/-- One request after another, each at its time. -/
def step (disk : NodeDisk) (event : Int × NodeRequest) : NodeDisk × NodeResult NodeResponse :=
  (service.dispatch disk event.1 event.2).swap

end NodeService

/-! ### A small node -/

/-- SHA-256 of `a`, `b` and `ab`, of one, one and two bytes. -/
def shaOfA : List UInt8 :=
  [202, 151, 129, 18, 202, 27, 189, 202, 250, 194, 49, 179, 154, 35, 220, 77,
    167, 134, 239, 248, 20, 124, 78, 114, 185, 128, 119, 133, 175, 238, 72, 187]

def shaOfB : List UInt8 :=
  [62, 35, 232, 22, 0, 57, 89, 74, 51, 137, 79, 101, 100, 225, 177, 52,
    139, 189, 122, 0, 136, 212, 44, 74, 203, 115, 238, 174, 213, 156, 0, 157]

def shaOfAb : List UInt8 :=
  [251, 142, 32, 252, 46, 76, 63, 36, 140, 96, 195, 155, 214, 82, 243, 193,
    52, 114, 152, 187, 151, 123, 139, 77, 89, 3, 184, 80, 85, 98, 6, 3]

/-- The hasher on these inputs; no other input has one of these digests. -/
def sampleHasher : Hasher where
  sha256 bytes :=
    if bytes = [0x61] then shaOfA
    else if bytes = [0x62] then shaOfB
    else if bytes = [0x61, 0x62] then shaOfAb
    else List.replicate 32 0
  length_sha256 bytes := by
    repeat' first | rfl | split

/-- A node that has a profile for each of the two providers. -/
def sampleService : NodeService where
  nodeId := "node-b"
  hasher := sampleHasher
  pid := 7
  privileged := false
  profile id := if id = "work" then some .claude else if id = "spare" then some .codex else none

/-- A checkpoint of another node with nothing in it. -/
def sampleManifest : CheckpointManifest where
  version := 1
  checkpointId := "cp-00112233445566778899aabbccddeeff"
  sourceNodeId := "node-a"
  sessionId := "session"
  provider := .claude
  profileId := "work"
  workspaceRoot := "/work"
  providerSessionId := some "conversation"
  mode := .move
  createdAt := 0
  files := []
  providerState := none
  excluded := []

end Homie.Node

/-! ### `put_blob` file operation by file operation, for calls that run beside one another

The service takes no lock around the checkpoint store, and each connection has its own
task.  A call looks for the blob, measures the partial upload, opens it, appends to it
through its handle, hashes what stands under the partial's name, and renames that; between
any two of these any other call may have its turn.

A call that nothing comes between is `putBlob`.
-/

namespace Homie.Node

/-- The names below `blobs`. -/
inductive BlobName where
  | partialUpload (digest : String)
  | blob (digest : String)
deriving DecidableEq, Repr

abbrev BlobFiles := Inodes BlobName RegularFile

/-- What a call does next. -/
inductive UploadStage where
  | checking
  | measuring (bytes : List UInt8)
  | opening (bytes : List UInt8)
  | writing (bytes : List UInt8) (handle : Nat)
  | hashing
  | finishing
  | returned (result : NodeResult Bool)

/-- A call of `put_blob` under way. -/
structure Upload where
  params : BlobPutParams
  stage : UploadStage

def RegularFile.append (bytes : List UInt8) (file : RegularFile) : RegularFile :=
  { file with bytes := file.bytes ++ bytes }

namespace CheckpointStore

variable (store : CheckpointStore)

/-- The next file operation of a call, and what it does after it. -/
def advance (files : BlobFiles) (params : BlobPutParams) : UploadStage → UploadStage × BlobFiles
  | .checking =>
    match validateDigest params.digest with
    | .error e => (.returned (.error e), files)
    | .ok () =>
      match hexDecode params.hex with
      | .error e => (.returned (.error e), files)
      | .ok bytes =>
        if bytes.length > maxChunkBytes then
          (.returned (.error (.badRequest "blob chunk is too large")), files)
        else if (files.read (.blob params.digest)).isSome then (.returned (.ok true), files)
        else (.measuring bytes, files)
  | .measuring bytes =>
    let current := (bytesOf (files.read (.partialUpload params.digest))).length
    if current ≠ params.offset then
      (.returned (.error (.conflict
        s!"blob offset mismatch: expected {current}, got {params.offset}")), files)
    else (.opening bytes, files)
  | .opening bytes =>
    match files.link (.partialUpload params.digest) with
    | some handle => (.writing bytes handle, files)
    | none =>
      (.writing bytes files.next, files.create (.partialUpload params.digest) ⟨[], 0o600⟩)
  | .writing bytes handle =>
    (if params.eof then .hashing else .returned (.ok false),
      files.modify handle (RegularFile.append bytes))
  | .hashing =>
    match files.read (.partialUpload params.digest) with
    | none => (.returned (.error .io), files)
    | some file =>
      let actual := store.sha256File file.bytes
      if actual ≠ params.digest then
        (.returned (.error (.badRequest
          s!"blob digest mismatch: expected {params.digest}, received {actual}")), files)
      else (.finishing, files)
  | .finishing =>
    if (files.link (.partialUpload params.digest)).isNone then (.returned (.error .io), files)
    else
      (.returned (.ok true), files.rename (.partialUpload params.digest) (.blob params.digest))
  | .returned result => (.returned result, files)

end CheckpointStore

/-- The files below `blobs` and the calls that were made. -/
structure UploadSystem where
  files : BlobFiles
  uploads : List Upload

inductive UploadEvent where
  /-- A connection calls `put_blob`. -/
  | call (params : BlobPutParams)
  /-- A call has its turn. -/
  | turn (index : Nat)
deriving DecidableEq, Repr

namespace UploadSystem

variable (store : CheckpointStore)

def step (s : UploadSystem) : UploadEvent → UploadSystem × Unit
  | .call params => ({ s with uploads := s.uploads ++ [⟨params, .checking⟩] }, ())
  | .turn index =>
    match s.uploads[index]? with
    | none => (s, ())
    | some upload =>
      let (stage, files) := store.advance s.files upload.params upload.stage
      (⟨files, s.uploads.set index { upload with stage }⟩, ())

end UploadSystem

end Homie.Node
