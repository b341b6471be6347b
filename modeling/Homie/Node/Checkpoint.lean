/-
A node's checkpoint store: `homie-node/src/checkpoint.rs`, and the messages of
`homie-proto/src/node.rs` it serves.

A checkpoint is a manifest that lists files by digest; the bytes are blobs named by their
digest.  A move record says how far the move of a checkpoint has come.  Staging restores
the listed files into a quarantine directory and activates the provider's session file in
the configuration home of the account.

A method that can fail returns what it answered next to the disk it left.  Disk operations
succeed unless the names already there forbid them, and the JSON files hold what was last
written.  SHA-256 is a parameter, and `now` is the clock.
-/
import Homie.Lib.FileTree
import Homie.Lib.Text

namespace Homie.Node

/-! ### Messages -/

inductive NodeError where
  | badRequest (message : String)
  | notFound (message : String)
  | conflict (message : String)
  | io
  | protocol (message : String)
deriving DecidableEq, Repr

abbrev NodeResult := Except NodeError

inductive ProviderKind where
  | claude
  | codex
deriving DecidableEq, Repr

inductive TransferMode where
  | move
  | fork
deriving DecidableEq, Repr

inductive MovePhase where
  | prepared
  | transferring
  | staged
  | targetReady
  | committed
  | aborted
deriving DecidableEq, Repr

structure MoveRecord where
  checkpointId : String
  sessionId : String
  sourceNodeId : String
  targetNodeId : Option String
  phase : MovePhase
  leaseId : Option String
  reason : Option String
  updatedAt : Int
deriving DecidableEq, Repr

structure CheckpointFile where
  path : String
  digest : String
  size : Nat
  unixMode : Option Nat
deriving DecidableEq, Repr

structure CheckpointManifest where
  version : Nat
  checkpointId : String
  sourceNodeId : String
  sessionId : String
  provider : ProviderKind
  profileId : String
  workspaceRoot : String
  providerSessionId : Option String
  mode : TransferMode
  createdAt : Int
  files : List CheckpointFile
  providerState : Option CheckpointFile
  excluded : List String
deriving DecidableEq, Repr

structure BlobReadParams where
  digest : String
  offset : Nat
  maxBytes : Nat
deriving DecidableEq, Repr

structure BlobChunk where
  digest : String
  offset : Nat
  hex : String
  eof : Bool
deriving DecidableEq, Repr

structure BlobPutParams where
  digest : String
  offset : Nat
  hex : String
  eof : Bool
deriving DecidableEq, Repr

structure CheckpointStageResult where
  checkpointId : String
  /-- The name of the quarantine below `restores`. -/
  quarantinePath : String
  ready : Bool
deriving DecidableEq, Repr

structure MoveCommitParams where
  checkpointId : String
  targetNodeId : String
  leaseId : String
deriving DecidableEq, Repr

structure MoveAbortParams where
  checkpointId : String
  reason : String
deriving DecidableEq, Repr

/-! ### Hex -/

def hexChars : List Char := "0123456789abcdef".toList

def hexEncode (bytes : List UInt8) : String :=
  String.ofList (bytes.flatMap fun byte : UInt8 =>
    [hexChars.getD (byte >>> 4).toNat '0', hexChars.getD (byte &&& 0x0f).toNat '0'])

def hexDigit (c : Char) : NodeResult UInt8 :=
  if '0' ≤ c ∧ c ≤ '9' then .ok (UInt8.ofNat (c.toNat - '0'.toNat))
  else if 'a' ≤ c ∧ c ≤ 'f' then .ok (UInt8.ofNat (c.toNat - 'a'.toNat + 10))
  else if 'A' ≤ c ∧ c ≤ 'F' then .ok (UInt8.ofNat (c.toNat - 'A'.toNat + 10))
  else .error (.badRequest "invalid hex payload")

def hexPairs : List Char → NodeResult (List UInt8)
  | high :: low :: rest => do
    let high ← hexDigit high
    let low ← hexDigit low
    let rest ← hexPairs rest
    pure (((high <<< 4) ||| low) :: rest)
  | _ => .ok []

/-- A character outside ASCII is no hex digit, so the length can be counted in characters. -/
def hexDecode (value : String) : NodeResult (List UInt8) :=
  if value.utf8ByteSize % 2 ≠ 0 then .error (.badRequest "hex payload has odd length")
  else hexPairs value.toList

/-! ### Validation -/

def checkpointVersion : Nat := 1
def maxFiles : Nat := 100000
def maxFileBytes : Nat := 256 * 1024 * 1024
def maxTotalBytes : Nat := 8 * 1024 * 1024 * 1024
def defaultChunkBytes : Nat := 512 * 1024
def maxChunkBytes : Nat := 1024 * 1024

def isAsciiHexdigit (c : Char) : Bool :=
  ('0' ≤ c && c ≤ '9') || ('a' ≤ c && c ≤ 'f') || ('A' ≤ c && c ≤ 'F')

/-- `cp-` and thirty-two hex digits. -/
def validateCheckpointId (id : String) : NodeResult Unit :=
  match id.toList with
  | 'c' :: 'p' :: '-' :: rest =>
    if rest.length = 32 ∧ rest.all isAsciiHexdigit then .ok ()
    else .error (.badRequest "invalid checkpoint id")
  | _ => .error (.badRequest "invalid checkpoint id")

def validateDigest (digest : String) : NodeResult Unit :=
  if digest.toList.length ≠ 64 ∨ !digest.toList.all isAsciiHexdigit then
    .error (.badRequest "invalid SHA-256 digest")
  else .ok ()

def Component.isNormal : Component → Bool
  | .normal _ => true
  | _ => false

def validateRelativePath (path : String) : NodeResult Unit :=
  if path = "" ∨ !(components path).all Component.isNormal then
    .error (.badRequest s!"unsafe checkpoint path `{path}`")
  else .ok ()

/-- What is checked of every listed file, and the sum of their sizes. -/
def validateFiles : List CheckpointFile → Nat → NodeResult Nat
  | [], total => .ok total
  | entry :: rest, total => do
    validateRelativePath entry.path
    validateDigest entry.digest
    if entry.size > maxFileBytes then .error (.badRequest "checkpoint file is too large")
    else validateFiles rest (total + entry.size)

def validateManifest (manifest : CheckpointManifest) : NodeResult Unit := do
  if manifest.version ≠ checkpointVersion then
    throw (.protocol s!"unsupported checkpoint version {manifest.version}")
  validateCheckpointId manifest.checkpointId
  if manifest.files.length > maxFiles then throw (.badRequest "checkpoint has too many files")
  let total ← validateFiles (manifest.files ++ manifest.providerState.toList) 0
  if total > maxTotalBytes then throw (.badRequest "checkpoint is too large")

/-! ### The store -/

/-- SHA-256, as far as its type says. -/
structure Hasher where
  sha256 : List UInt8 → List UInt8
  length_sha256 : ∀ bytes, (sha256 bytes).length = 32

structure CheckpointStore where
  nodeId : String
  hasher : Hasher
  /-- `std::process::id()`. -/
  pid : Nat
  /-- The process may write files whose mode forbids it. -/
  privileged : Bool

/--
What the store keeps on disk, and the provider homes beside it.  A manifest and a move
record are written under the checkpoint they name.
-/
structure NodeDisk where
  /-- `checkpoints/<id>.json`. -/
  manifests : String → Option CheckpointManifest
  manifests_named : ∀ id manifest, manifests id = some manifest → manifest.checkpointId = id
  /-- `moves/<id>.json`. -/
  moves : String → Option MoveRecord
  moves_named : ∀ id movement, moves id = some movement → movement.checkpointId = id
  /-- `blobs/<digest>`. -/
  blobs : String → Option RegularFile
  /-- `blobs/.<digest>.partial`. -/
  partials : String → Option RegularFile
  /-- `restores/<id>`. -/
  restores : String → Option FileTree
  /-- Whether `restores/.<id>.staging` exists; nothing reads what is in it. -/
  staging : String → Bool
  /-- The configuration home of a profile: `accounts_root/<provider>/<profile>`. -/
  homes : ProviderKind × String → FileTree

def NodeDisk.empty : NodeDisk where
  manifests := fun _ => none
  manifests_named := fun _ _ h => nomatch h
  moves := fun _ => none
  moves_named := fun _ _ h => nomatch h
  blobs := fun _ => none
  partials := fun _ => none
  restores := fun _ => none
  staging := fun _ => false
  homes := fun _ => .empty

/-- A value written under its own name is the only one with that name. -/
theorem named_update {α : Type} {name : α → String} {values : String → Option α}
    (h : ∀ id value, values id = some value → name value = id) (new : α) :
    ∀ id value, Function.update values (name new) (some new) id = some value → name value = id := by
  intro id value hvalue
  by_cases hid : id = name new
  · rw [hid, Function.update_self] at hvalue
    rw [hid, ← Option.some.inj hvalue]
  · rw [Function.update_of_ne hid] at hvalue
    exact h id value hvalue

namespace CheckpointStore

variable (store : CheckpointStore)

/-- `sha256_file` of a file with these bytes. -/
def sha256File (bytes : List UInt8) : String := hexEncode (store.hasher.sha256 bytes)

def saveMove (disk : NodeDisk) (movement : MoveRecord) : NodeDisk :=
  { disk with
    moves := Function.update disk.moves movement.checkpointId (some movement)
    moves_named := named_update disk.moves_named movement }

def loadMove (disk : NodeDisk) (checkpointId : String) : NodeResult MoveRecord := do
  validateCheckpointId checkpointId
  match disk.moves checkpointId with
  | some movement => .ok movement
  | none => .error (.notFound s!"move `{checkpointId}`")

def saveManifest (disk : NodeDisk) (manifest : CheckpointManifest) : NodeResult NodeDisk := do
  validateManifest manifest
  pure { disk with
    manifests := Function.update disk.manifests manifest.checkpointId (some manifest)
    manifests_named := named_update disk.manifests_named manifest }

def loadManifest (disk : NodeDisk) (checkpointId : String) : NodeResult CheckpointManifest := do
  validateCheckpointId checkpointId
  match disk.manifests checkpointId with
  | some manifest => do
    validateManifest manifest
    pure manifest
  | none => .error (.notFound s!"checkpoint `{checkpointId}`")

def putManifest (disk : NodeDisk) (now : Int) (manifest : CheckpointManifest) :
    NodeResult Unit × NodeDisk :=
  match validateManifest manifest with
  | .error e => (.error e, disk)
  | .ok () =>
    if manifest.sourceNodeId = store.nodeId then
      (.error (.conflict "source manifest already belongs to this node"), disk)
    else
      match saveManifest disk manifest with
      | .error e => (.error e, disk)
      | .ok disk =>
        (.ok (), saveMove disk
          { checkpointId := manifest.checkpointId
            sessionId := manifest.sessionId
            sourceNodeId := manifest.sourceNodeId
            targetNodeId := some store.nodeId
            phase := .transferring
            leaseId := none
            reason := none
            updatedAt := now })

/-! ### Blobs -/

def missingBlobs (disk : NodeDisk) : List String → NodeResult (List String)
  | [] => .ok []
  | digest :: rest => do
    validateDigest digest
    let missing ← missingBlobs disk rest
    pure (if (disk.blobs digest).isNone then digest :: missing else missing)

def readBlob (disk : NodeDisk) (params : BlobReadParams) : NodeResult BlobChunk := do
  validateDigest params.digest
  match disk.blobs params.digest with
  | none => .error (.notFound s!"blob `{params.digest}`")
  | some file =>
    let size := file.bytes.length
    if params.offset > size then .error (.badRequest "blob offset exceeds its size")
    else
      let requested :=
        if params.maxBytes = 0 then defaultChunkBytes else min params.maxBytes maxChunkBytes
      let count := min requested (size - params.offset)
      .ok
        { digest := params.digest
          offset := params.offset
          hex := hexEncode ((file.bytes.drop params.offset).take count)
          eof := params.offset + count = size }

/-- The bytes behind a path, and none if there is no file. -/
def bytesOf (file : Option RegularFile) : List UInt8 := file.elim [] RegularFile.bytes

def putBlob (disk : NodeDisk) (params : BlobPutParams) : NodeResult Bool × NodeDisk :=
  match validateDigest params.digest with
  | .error e => (.error e, disk)
  | .ok () =>
    match hexDecode params.hex with
    | .error e => (.error e, disk)
    | .ok bytes =>
      if bytes.length > maxChunkBytes then
        (.error (.badRequest "blob chunk is too large"), disk)
      else if (disk.blobs params.digest).isSome then (.ok true, disk)
      else
        let current := (bytesOf (disk.partials params.digest)).length
        if current ≠ params.offset then
          (.error (.conflict
            s!"blob offset mismatch: expected {current}, got {params.offset}"), disk)
        else
          -- A file that is not there is created for its owner only.
          let mode := (disk.partials params.digest).elim 0o600 RegularFile.mode
          let file : RegularFile := ⟨bytesOf (disk.partials params.digest) ++ bytes, mode⟩
          let written : NodeDisk :=
            { disk with partials := Function.update disk.partials params.digest (some file) }
          if !params.eof then (.ok false, written)
          else
            let actual := store.sha256File file.bytes
            if actual ≠ params.digest then
              (.error (.badRequest
                s!"blob digest mismatch: expected {params.digest}, received {actual}"), written)
            else
              (.ok true,
                { disk with
                  partials := Function.update disk.partials params.digest none
                  blobs := Function.update disk.blobs params.digest (some file) })

/-! ### Staging -/

def restoreFile (disk : NodeDisk) (tree : FileTree) (root : List String)
    (entry : CheckpointFile) : NodeResult FileTree := do
  validateRelativePath entry.path
  validateDigest entry.digest
  let some source := disk.blobs entry.digest
    | throw (.conflict s!"checkpoint blob `{entry.digest}` is missing or corrupt")
  if store.sha256File source.bytes ≠ entry.digest then
    throw (.conflict s!"checkpoint blob `{entry.digest}` is missing or corrupt")
  let destination := root ++ pathNames entry.path
  let some tree := tree.createDirAll destination.dropLast | throw .io
  let some tree := tree.copy store.privileged destination source | throw .io
  pure (entry.unixMode.elim tree fun mode => tree.setMode destination mode)

/-- The loop over the manifest's files, into the quarantine being staged. -/
def restoreFiles (disk : NodeDisk) (tree : FileTree) (files : List CheckpointFile) :
    NodeResult FileTree :=
  files.foldlM (fun tree entry => store.restoreFile disk tree [] entry) tree

/-- Everything that is restored before the quarantine gets its name. -/
def restoreAll (disk : NodeDisk) (manifest : CheckpointManifest) : NodeResult FileTree := do
  let tree ← store.restoreFiles disk .empty manifest.files
  match manifest.providerState with
  | some providerState => store.restoreFile disk tree [".homie"] providerState
  | none => pure tree

/-- Where the provider looks for an imported session, below its home. -/
def providerStateDestination (manifest : CheckpointManifest) :
    NodeResult (Option (List String)) :=
  match manifest.providerSessionId with
  | none => .ok none
  | some sessionId =>
    if sessionId = "" ∨ sessionId.toList.contains '/' ∨ sessionId.toList.contains '\\' then
      .error (.badRequest "invalid provider session id")
    else
      .ok (some (match manifest.provider with
        | .claude => ["projects", "-homie-imports", sessionId ++ ".jsonl"]
        | .codex => ["sessions", "homie-imports", "rollout-homie-" ++ sessionId ++ ".jsonl"]))

/-- The provider's session file is put in its place, or found there. -/
def activateProviderState (disk : NodeDisk) (manifest : CheckpointManifest)
    (home : ProviderKind × String) : NodeResult Unit × NodeDisk :=
  match manifest.providerState with
  | none => (.ok (), disk)
  | some state =>
    match providerStateDestination manifest with
    | .error e => (.error e, disk)
    | .ok none => (.error (.protocol "provider state has no provider session id"), disk)
    | .ok (some destination) =>
      let sessionId := manifest.providerSessionId.getD ""
      let tree := disk.homes home
      match tree.get destination with
      | some .directory => (.error .io, disk)
      | some (.file old) =>
        if store.sha256File old.bytes = state.digest then (.ok (), disk)
        else
          (.error (.conflict
            s!"provider session `{sessionId}` already exists with different contents"), disk)
      | none =>
        match tree.createDirAll destination.dropLast with
        | none => (.error .io, disk)
        | some tree =>
          let made := { disk with homes := Function.update disk.homes home tree }
          let temporary := destination.dropLast ++
            ["." ++ sessionId ++ ".staging-" ++ toString store.pid]
          match disk.blobs state.digest with
          | none => (.error .io, made)
          | some blob =>
            match tree.copy store.privileged temporary blob with
            | none => (.error .io, made)
            | some copied =>
              if store.sha256File blob.bytes ≠ state.digest then
                (.error (.conflict "provider state blob is missing or corrupt"),
                  { disk with homes := Function.update disk.homes home copied })
              else
                let renamed := (copied.remove temporary).set destination
                  (some (.file blob))
                (.ok (), { disk with
                  homes := Function.update disk.homes home renamed })

def stageResult (checkpointId : String) : CheckpointStageResult :=
  ⟨checkpointId, checkpointId, true⟩

/-- The end of `stage`: the quarantine has its name. -/
def finishStage (disk : NodeDisk) (now : Int) (manifest : CheckpointManifest)
    (checkpointId : String) (home : ProviderKind × String) :
    NodeResult CheckpointStageResult × NodeDisk :=
  match store.activateProviderState disk manifest home with
  | (.error e, disk) => (.error e, disk)
  | (.ok (), disk) =>
    match loadMove disk checkpointId with
    | .error e => (.error e, disk)
    | .ok movement =>
      (.ok (stageResult checkpointId),
        saveMove disk { movement with phase := .staged, updatedAt := now })

def stage (disk : NodeDisk) (now : Int) (checkpointId : String) (home : ProviderKind × String) :
    NodeResult CheckpointStageResult × NodeDisk :=
  match loadManifest disk checkpointId with
  | .error e => (.error e, disk)
  | .ok manifest =>
    if (disk.restores checkpointId).isSome then
      match store.activateProviderState disk manifest home with
      | (.error e, disk) => (.error e, disk)
      | (.ok (), disk) => (.ok (stageResult checkpointId), disk)
    else if disk.staging checkpointId then
      (.error (.conflict "checkpoint already has a staging operation"), disk)
    else
      match store.restoreAll disk manifest with
      | .error e =>
        -- The quarantine is left for inspection.
        (.error e, { disk with staging := Function.update disk.staging checkpointId true })
      | .ok tree =>
        store.finishStage
          { disk with restores := Function.update disk.restores checkpointId (some tree) }
          now manifest checkpointId home

/-! ### Commit and abort -/

/-- `lease_id.trim().is_empty()`. -/
def blank (text : String) : Bool := (trimText text.toList).isEmpty

def commit (disk : NodeDisk) (now : Int) (params : MoveCommitParams) :
    NodeResult MoveRecord × NodeDisk :=
  if blank params.leaseId then (.error (.badRequest "move lease cannot be empty"), disk)
  else
    match loadMove disk params.checkpointId with
    | .error e => (.error e, disk)
    | .ok movement =>
      if movement.phase = .aborted then
        (.error (.conflict "an aborted move cannot commit"), disk)
      else if movement.phase = .committed then
        if movement.leaseId = some params.leaseId then (.ok movement, disk)
        else (.error (.conflict "checkpoint already committed under another lease"), disk)
      else
        let movement := { movement with
          phase := .committed
          targetNodeId := some params.targetNodeId
          leaseId := some params.leaseId
          updatedAt := now }
        (.ok movement, saveMove disk movement)

def abort (disk : NodeDisk) (now : Int) (params : MoveAbortParams) :
    NodeResult MoveRecord × NodeDisk :=
  match loadMove disk params.checkpointId with
  | .error e => (.error e, disk)
  | .ok movement =>
    if movement.phase = .committed then
      (.error (.conflict "a committed move needs a new reverse move, not abort"), disk)
    else
      let movement := { movement with
        phase := .aborted
        reason := some params.reason
        updatedAt := now }
      (.ok movement, saveMove disk movement)

def rollbackProviderState (disk : NodeDisk) (manifest : CheckpointManifest)
    (home : ProviderKind × String) : NodeResult Unit × NodeDisk :=
  match manifest.providerState with
  | none => (.ok (), disk)
  | some state =>
    match providerStateDestination manifest with
    | .error e => (.error e, disk)
    | .ok none => (.ok (), disk)
    | .ok (some destination) =>
      match (disk.homes home).fileAt destination with
      | none => (.ok (), disk)
      | some file =>
        if store.sha256File file.bytes = state.digest then
          (.ok (), { disk with
            homes := Function.update disk.homes home
              ((disk.homes home).remove destination) })
        else (.ok (), disk)

end CheckpointStore

end Homie.Node
