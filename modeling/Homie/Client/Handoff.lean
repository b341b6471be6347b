/-
Moving a session between two nodes: `handoff`, `transfer_blob` and `abort_best_effort` of
`homie-client/src/node_client.rs`.

The client drives two nodes through the move: it prepares a checkpoint on the source, puts
it on the target with the blobs that are missing, stages it, resumes the provider there,
and commits the target and then the source.  From the prepared checkpoint on, anything
that goes wrong makes it send an abort to both and look at neither answer.

`HandoffSystem` is the client, the two nodes and what is under way between them.  The client
waits for one call at a time.  A request can be lost, and so can a response; a client that
has given up on a call leaves its request under way, and the node may still handle it.  What
`hello`, the account's status and the provider answer is not the nodes' checkpoint store's
business, so these calls go well or not.
-/
import Homie.Node.Service

namespace Homie.Client

open Homie.Node CheckpointStore

/-! ### One blob -/

/-- The chunk `transfer_blob` asks for. -/
def chunkBytes : Nat := 512 * 1024

/-- What a transfer came to. -/
inductive TransferResult where
  | finished
  | refused (error : NodeError)
  | unfinalized
deriving DecidableEq, Repr

/--
`transfer_blob`: chunk by chunk from the source to the target.  The loop has no bound of its
own; out of fuel it has not returned.
-/
def transferBlob (store : CheckpointStore) (source : NodeDisk) (digest : String) :
    Nat → Nat → NodeDisk → Option (TransferResult × NodeDisk)
  | 0, _, _ => none
  | fuel + 1, offset, target =>
    match readBlob source ⟨digest, offset, chunkBytes⟩ with
    | .error e => some (.refused e, target)
    | .ok chunk =>
      match store.putBlob target ⟨digest, offset, chunk.hex, chunk.eof⟩ with
      | (.error e, target) => some (.refused e, target)
      | (.ok complete, target) =>
        if chunk.eof then
          some (if complete then .finished else .unfinalized, target)
        else
          transferBlob store source digest fuel (offset + chunk.hex.utf8ByteSize / 2) target

/-! ### The handoff -/

inductive Side where
  | source
  | target
deriving DecidableEq, Repr

/-- The call the client waits for. -/
inductive Phase where
  | hello
  | account
  | prepare
  | put (checkpoint : CheckpointManifest)
  | has (checkpoint : CheckpointManifest)
  | read (checkpoint : CheckpointManifest) (digest : String) (offset : Nat) (rest : List String)
  | write (checkpoint : CheckpointManifest) (digest : String) (offset : Nat) (chunk : BlobChunk)
      (rest : List String)
  | stage (checkpoint : CheckpointManifest)
  | provider (checkpoint : CheckpointManifest)
  | commitTarget (checkpoint : CheckpointManifest)
  | commitSource (checkpoint : CheckpointManifest)
  | abortTarget (checkpoint : CheckpointManifest) (reason : String)
  | abortSource (checkpoint : CheckpointManifest) (reason : String)
  /-- The handoff has returned. -/
  | done (committed : Bool)
deriving DecidableEq, Repr

/-- The parties and the arguments of one handoff. -/
structure Handoff where
  source : NodeService
  target : NodeService
  params : CheckpointPrepareParams
  /-- What `prepare` finds, the drawn identifier included. -/
  found : Prepared
  /-- `random_lease_id()`. -/
  leaseId : String

namespace Handoff

variable (handoff : Handoff)

def checkpointId : String := "cp-" ++ hexEncode handoff.found.random

def service : Side → NodeService
  | .source => handoff.source
  | .target => handoff.target

def commitParams (checkpoint : CheckpointManifest) : MoveCommitParams :=
  ⟨checkpoint.checkpointId, handoff.target.nodeId, handoff.leaseId⟩

/-- The request of a call, if it goes to a checkpoint store. -/
def request : Phase → Option (Side × NodeRequest)
  | .prepare => some (.source, .prepare handoff.params handoff.found)
  | .put checkpoint => some (.target, .manifestPut checkpoint)
  | .has checkpoint =>
    some (.target, .blobHas (checkpoint.files.map CheckpointFile.digest ++
      (checkpoint.providerState.map CheckpointFile.digest).toList))
  | .read _ digest offset _ => some (.source, .blobRead ⟨digest, offset, chunkBytes⟩)
  | .write _ digest offset chunk _ =>
    some (.target, .blobPut ⟨digest, offset, chunk.hex, chunk.eof⟩)
  | .stage checkpoint => some (.target, .stage checkpoint.checkpointId)
  | .commitTarget checkpoint => some (.target, .commit (handoff.commitParams checkpoint))
  | .commitSource checkpoint => some (.source, .commit (handoff.commitParams checkpoint))
  | .abortTarget checkpoint reason => some (.target, .abort ⟨checkpoint.checkpointId, reason⟩)
  | .abortSource checkpoint reason => some (.source, .abort ⟨checkpoint.checkpointId, reason⟩)
  | .hello | .account | .provider _ | .done _ => none

/-- Where a failed call leads: to the aborts, once there is a checkpoint. -/
def failed (reason : String) : Phase → Phase
  | .hello | .account | .prepare => .done false
  | .put checkpoint | .has checkpoint | .read checkpoint _ _ _ | .write checkpoint _ _ _ _
  | .stage checkpoint | .provider checkpoint | .commitTarget checkpoint
  | .commitSource checkpoint => .abortTarget checkpoint reason
  | .abortTarget checkpoint reason => .abortSource checkpoint reason
  | .abortSource _ _ => .done false
  | .done committed => .done committed

/-- The next blob to transfer, or the staging. -/
def nextBlob (checkpoint : CheckpointManifest) : List String → Phase
  | [] => .stage checkpoint
  | digest :: rest => .read checkpoint digest 0 rest

/-- Where the answer of a call leads. -/
def answered (reason : String) : Phase → NodeResult NodeResponse → Phase
  | .prepare, .ok (.manifest checkpoint) =>
    if checkpoint.providerSessionId.isNone then .done false else .put checkpoint
  | .put checkpoint, .ok _ => .has checkpoint
  | .has checkpoint, .ok (.missing digests) => nextBlob checkpoint digests
  | .read checkpoint digest offset rest, .ok (.chunk chunk) =>
    .write checkpoint digest offset chunk rest
  | .write checkpoint digest offset chunk rest, .ok (.complete complete) =>
    if chunk.eof then
      if complete then nextBlob checkpoint rest else .abortTarget checkpoint reason
    else .read checkpoint digest (offset + chunk.hex.utf8ByteSize / 2) rest
  | .stage checkpoint, .ok (.staged _) => .provider checkpoint
  | .commitTarget checkpoint, .ok (.movement _) => .commitSource checkpoint
  | .commitSource _, .ok (.movement _) => .done true
  | phase, _ => failed reason phase

/-- Where a call that went well leads, of those that go to no checkpoint store. -/
def confirmed : Phase → Phase
  | .hello => .account
  | .account => .prepare
  | .provider checkpoint => .commitTarget checkpoint
  | phase => phase

end Handoff

/-- How far the call the client waits for has come. -/
inductive Call where
  | sent
  | answered (result : NodeResult NodeResponse)
  | lost

/-- The client, the nodes, and the requests it has given up on that are still under way. -/
structure HandoffSystem where
  source : NodeDisk
  target : NodeDisk
  phase : Phase
  call : Call
  strays : List (Side × NodeRequest)

inductive HandoffEvent where
  /-- The node handles the request the client waits for. -/
  | serve (now : Int)
  /-- The node handles a request the client has given up on. -/
  | serveStray (index : Nat) (now : Int)
  /-- The request or the response is lost. -/
  | lose
  | loseStray (index : Nat)
  /-- The response arrives. -/
  | receive (reason : String)
  /-- A call that goes to no checkpoint store is answered. -/
  | external (ok : Bool) (reason : String)
  /-- The client gives up: the call or the whole operation has timed out, or the connection broke. -/
  | giveUp (reason : String)

namespace HandoffSystem

variable (handoff : Handoff)

def start (source target : NodeDisk) : HandoffSystem :=
  ⟨source, target, .hello, .sent, []⟩

def disk (s : HandoffSystem) : Side → NodeDisk
  | .source => s.source
  | .target => s.target

def setDisk (s : HandoffSystem) (disk : NodeDisk) : Side → HandoffSystem
  | .source => { s with source := disk }
  | .target => { s with target := disk }

/-- A node handles a request. -/
def handle (s : HandoffSystem) (now : Int) (side : Side) (request : NodeRequest) :
    NodeResult NodeResponse × HandoffSystem :=
  let (result, disk) := (handoff.service side).dispatch (s.disk side) now request
  (result, s.setDisk disk side)

/-- The client goes on to a call. -/
def goOn (s : HandoffSystem) (phase : Phase) : HandoffSystem := { s with phase, call := .sent }

def giveUp (s : HandoffSystem) (reason : String) : HandoffSystem :=
  let strays :=
    match s.call with
    | .sent => s.strays ++ (handoff.request s.phase).toList
    | _ => s.strays
  { s with strays }.goOn (Handoff.failed reason s.phase)

def step (s : HandoffSystem) : HandoffEvent → HandoffSystem × Unit
  | .serve now =>
    match s.call, handoff.request s.phase with
    | .sent, some (side, request) =>
      let (result, s) := s.handle handoff now side request
      ({ s with call := .answered result }, ())
    | _, _ => (s, ())
  | .serveStray index now =>
    match s.strays[index]? with
    | some (side, request) =>
      let left := { s with strays := s.strays.eraseIdx index }
      ((left.handle handoff now side request).2, ())
    | none => (s, ())
  | .lose => ({ s with call := .lost }, ())
  | .loseStray index => ({ s with strays := s.strays.eraseIdx index }, ())
  | .receive reason =>
    match s.call, handoff.request s.phase with
    | .answered result, some _ => (s.goOn (Handoff.answered reason s.phase result), ())
    | _, _ => (s, ())
  | .external ok reason =>
    match s.call, handoff.request s.phase with
    | .sent, none =>
      (s.goOn (if ok then Handoff.confirmed s.phase else Handoff.failed reason s.phase), ())
    | _, _ => (s, ())
  | .giveUp reason => (s.giveUp handoff reason, ())

end HandoffSystem

end Homie.Client
