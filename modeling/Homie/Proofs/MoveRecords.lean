/-
What a node's requests do to its move records.

Only five methods write a record, and each writes one.  `dispatch_moves` lists what a
request can leave; the invariants of whole runs are read off that list.  Commit and abort
look at the phase first, so a record that is committed or aborted is safe from both.
Putting a manifest and staging do not look, so a decided record stays as long as no
manifest is put for it again and it is not staged anew.
-/
import Homie.Lib.Trace
import Homie.Node.Service

namespace Homie.Node

namespace CheckpointStore

variable (store : CheckpointStore)

/-! ### What each method touches -/

/-- Storing a file touches the blobs only. -/
theorem storeFile_touches (disk : NodeDisk) (source : RegularFile) (relative : String) :
    ∃ blobs, (store.storeFile disk source relative).2 = { disk with blobs } := by
  unfold storeFile
  split
  · exact ⟨_, rfl⟩
  · dsimp only
    split
    · exact ⟨_, rfl⟩
    · exact ⟨_, rfl⟩

theorem walkFile_touches (source : RegularFile) (relative : List String) (walk : Walk) :
    ∃ blobs, (store.walkFile source relative walk).2.disk = { walk.disk with blobs } := by
  unfold walkFile
  split
  · exact ⟨_, rfl⟩
  · dsimp only
    split
    · exact ⟨_, rfl⟩
    · split
      · exact ⟨_, rfl⟩
      · obtain ⟨blobs, hstored⟩ :=
          store.storeFile_touches walk.disk source (pathText relative)
        split
        · rename_i hstore
          rw [hstore] at hstored
          exact ⟨blobs, hstored⟩
        · rename_i hstore
          rw [hstore] at hstored
          exact ⟨blobs, hstored⟩

theorem walkWorkspace_touches (directory : Directory) (path : List String) (walk : Walk) :
    ∃ blobs, (store.walkWorkspace directory path walk).2.disk = { walk.disk with blobs } := by
  induction directory generalizing path walk with
  | nil => exact ⟨_, rfl⟩
  | file name source rest ih =>
    unfold walkWorkspace
    dsimp only
    split
    · exact ih _ _
    · obtain ⟨blobs, hfile⟩ := store.walkFile_touches source (path ++ [name]) walk
      split
      · rename_i hwalk
        rw [hwalk] at hfile
        exact ⟨blobs, hfile⟩
      · rename_i next hwalk
        rw [hwalk] at hfile
        obtain ⟨blobs', hrest⟩ := ih path next
        exact ⟨blobs', by rw [hrest, hfile]⟩
  | directory name inner rest ihInner ihRest =>
    unfold walkWorkspace
    dsimp only
    split
    · exact ihRest _ _
    · obtain ⟨blobs, hinner⟩ := ihInner (path ++ [name]) walk
      split
      · rename_i hwalk
        rw [hwalk] at hinner
        exact ⟨blobs, hinner⟩
      · rename_i next hwalk
        rw [hwalk] at hinner
        obtain ⟨blobs', hrest⟩ := ihRest path next
        exact ⟨blobs', by rw [hrest, hinner]⟩
  | symlink name rest ih => exact ih _ _
  | other name rest ih => exact ih _ _

theorem storeProviderState_touches (disk : NodeDisk) (providerFile : Option RegularFile) :
    ∃ blobs, (store.storeProviderState disk providerFile).2 = { disk with blobs } := by
  unfold storeProviderState
  split
  · exact ⟨_, rfl⟩
  · rename_i source
    obtain ⟨blobs, hstored⟩ :=
      store.storeFile_touches disk source "provider/session.jsonl"
    split
    · rename_i hstore
      rw [hstore] at hstored
      exact ⟨blobs, hstored⟩
    · rename_i hstore
      rw [hstore] at hstored
      exact ⟨blobs, hstored⟩

/-- An upload touches the blobs and the partial uploads only. -/
theorem putBlob_touches (disk : NodeDisk) (params : BlobPutParams) :
    ∃ blobs partials, (store.putBlob disk params).2 = { disk with blobs, partials } := by
  unfold putBlob
  dsimp only
  repeat' first | exact ⟨_, _, rfl⟩ | split

/-- Activating the provider's state touches its home only. -/
theorem activateProviderState_touches (disk : NodeDisk) (manifest : CheckpointManifest)
    (home : ProviderKind × String) :
    ∃ homes, (store.activateProviderState disk manifest home).2 = { disk with homes } := by
  unfold activateProviderState
  dsimp only
  repeat' first | exact ⟨_, rfl⟩ | split

theorem rollbackProviderState_touches (disk : NodeDisk) (manifest : CheckpointManifest)
    (home : ProviderKind × String) :
    ∃ homes, (store.rollbackProviderState disk manifest home).2 = { disk with homes } := by
  unfold rollbackProviderState
  repeat' first | exact ⟨_, rfl⟩ | split

theorem activateProviderState_moves (disk : NodeDisk) (manifest : CheckpointManifest)
    (home : ProviderKind × String) :
    (store.activateProviderState disk manifest home).2.moves = disk.moves := by
  obtain ⟨homes, heq⟩ := store.activateProviderState_touches disk manifest home
  rw [heq]

/-! ### The methods that write a record -/

theorem saveManifest_ok {disk disk' : NodeDisk} {manifest : CheckpointManifest}
    (h : saveManifest disk manifest = .ok disk') :
    validateManifest manifest = .ok () ∧ disk'.moves = disk.moves := by
  unfold saveManifest at h
  cases hvalid : validateManifest manifest with
  | error e =>
    rw [hvalid] at h
    cases h
  | ok =>
    rw [hvalid] at h
    cases h
    exact ⟨rfl, rfl⟩

/-- A manifest is taken when it is valid and another node's. -/
def Accepts (store : CheckpointStore) (manifest : CheckpointManifest) : Prop :=
  validateManifest manifest = .ok () ∧ manifest.sourceNodeId ≠ store.nodeId

instance (store : CheckpointStore) (manifest : CheckpointManifest) :
    Decidable (store.Accepts manifest) :=
  inferInstanceAs (Decidable (_ ∧ _))

/-- The record a put manifest starts with. -/
def transferring (store : CheckpointStore) (now : Int) (manifest : CheckpointManifest) :
    MoveRecord where
  checkpointId := manifest.checkpointId
  sessionId := manifest.sessionId
  sourceNodeId := manifest.sourceNodeId
  targetNodeId := some store.nodeId
  phase := .transferring
  leaseId := none
  reason := none
  updatedAt := now

theorem putManifest_moves (disk : NodeDisk) (now : Int) (manifest : CheckpointManifest) :
    (store.putManifest disk now manifest).2.moves = disk.moves ∨
    (store.Accepts manifest ∧ (store.putManifest disk now manifest).2.moves
      = Function.update disk.moves manifest.checkpointId
        (some (store.transferring now manifest))) := by
  unfold putManifest
  split
  · exact Or.inl rfl
  · rename_i hvalid
    split
    · exact Or.inl rfl
    · rename_i hsource
      split
      · exact Or.inl rfl
      · rename_i saved hsave
        refine Or.inr ⟨⟨hvalid, hsource⟩, ?_⟩
        show Function.update saved.moves _ _ = _
        rw [(saveManifest_ok hsave).2]
        rfl

/-- The record a prepared checkpoint starts with. -/
def prepared (store : CheckpointStore) (now : Int) (params : CheckpointPrepareParams)
    (found : Prepared) : MoveRecord where
  checkpointId := "cp-" ++ hexEncode found.random
  sessionId := params.sessionId
  sourceNodeId := store.nodeId
  targetNodeId := none
  phase := .prepared
  leaseId := none
  reason := none
  updatedAt := now

theorem prepare_moves (disk : NodeDisk) (now : Int) (params : CheckpointPrepareParams)
    (found : Prepared) :
    (store.prepare disk now params found).2.moves = disk.moves ∨
    (store.prepare disk now params found).2.moves
      = Function.update disk.moves ("cp-" ++ hexEncode found.random)
        (some (store.prepared now params found)) := by
  unfold prepare
  obtain ⟨blobs, hwalk⟩ := store.walkWorkspace_touches found.workspace []
    ⟨[], [], 0, disk⟩
  dsimp only
  split
  · rename_i walked hresult
    rw [hresult] at hwalk
    exact Or.inl (by rw [show walked.disk = _ from hwalk])
  · rename_i walked hresult
    rw [hresult] at hwalk
    obtain ⟨blobs', hstate⟩ := store.storeProviderState_touches walked.disk
      (params.providerSessionId.bind fun _ => found.providerFile)
    generalize store.storeProviderState walked.disk
      (params.providerSessionId.bind fun _ => found.providerFile) = stored at hstate ⊢
    have hsame : stored.2.moves = disk.moves := by
      rw [hstate, show walked.disk = _ from hwalk]
    split
    · exact Or.inl hsame
    · rename_i saved hsave
      refine Or.inr ?_
      show Function.update saved.moves _ _ = _
      rw [(saveManifest_ok hsave).2, hsame]
      rfl

theorem loadMove_ok {disk : NodeDisk} {id : String} {movement : MoveRecord}
    (h : loadMove disk id = .ok movement) :
    disk.moves id = some movement ∧ movement.checkpointId = id := by
  unfold loadMove at h
  cases hvalid : validateCheckpointId id with
  | error e =>
    rw [hvalid] at h
    cases h
  | ok =>
    rw [hvalid] at h
    cases hmove : disk.moves id with
    | none => simp [hmove, bind, Except.bind] at h
    | some stored =>
      simp only [hmove, bind, Except.bind, Except.ok.injEq] at h
      subst h
      exact ⟨rfl, disk.moves_named id stored hmove⟩

/--
Staging gets to its last write: the quarantine is not there, everything is restored and
the provider's state is in place.
-/
def StagesAnew (store : CheckpointStore) (disk : NodeDisk) (id : String)
    (home : ProviderKind × String) : Prop :=
  ∃ manifest tree, loadManifest disk id = .ok manifest ∧ disk.restores id = none ∧
    disk.staging id = false ∧ store.restoreAll disk manifest = .ok tree ∧
    (store.activateProviderState
      { disk with restores := Function.update disk.restores id (some tree) } manifest home).1 = .ok ()

theorem stage_moves (disk : NodeDisk) (now : Int) (id : String) (home : ProviderKind × String) :
    (store.stage disk now id home).2.moves = disk.moves ∨
    (store.StagesAnew disk id home ∧ ∃ movement, disk.moves id = some movement ∧
      (store.stage disk now id home).2.moves = Function.update disk.moves id
        (some { movement with phase := .staged, updatedAt := now })) := by
  unfold stage
  split
  · exact Or.inl rfl
  · rename_i manifest hload
    split
    · have hactive := store.activateProviderState_moves disk manifest home
      split
      · rename_i hresult
        rw [hresult] at hactive
        exact Or.inl hactive
      · rename_i hresult
        rw [hresult] at hactive
        exact Or.inl hactive
    · rename_i hrestores
      split
      · exact Or.inl rfl
      · rename_i hstaging
        split
        · exact Or.inl rfl
        · rename_i tree hrestore
          unfold finishStage
          have hactive := store.activateProviderState_moves
            { disk with restores := Function.update disk.restores id (some tree) } manifest home
          split
          · rename_i hresult
            rw [hresult] at hactive
            exact Or.inl hactive
          · rename_i active hresult
            rw [hresult] at hactive
            have hsame : active.moves = disk.moves := hactive
            split
            · exact Or.inl hsame
            · rename_i movement hmove
              obtain ⟨hstored, hid⟩ := loadMove_ok hmove
              refine Or.inr ⟨⟨manifest, tree, hload, ?_, ?_, hrestore, ?_⟩, movement, ?_, ?_⟩
              · simpa using hrestores
              · simpa using hstaging
              · rw [hresult]
              · rw [← hsame]
                exact hstored
              · show Function.update active.moves movement.checkpointId _ = _
                rw [hid, hsame]

theorem commit_cases (disk : NodeDisk) (now : Int) (params : MoveCommitParams) :
    (∃ e, commit disk now params = (.error e, disk)) ∨
    (∃ movement, disk.moves params.checkpointId = some movement ∧ movement.phase = .committed ∧
      movement.leaseId = some params.leaseId ∧ commit disk now params = (.ok movement, disk)) ∨
    ∃ movement, disk.moves params.checkpointId = some movement ∧ movement.phase ≠ .aborted ∧
      movement.phase ≠ .committed ∧
      let committed := { movement with
        phase := .committed
        targetNodeId := some params.targetNodeId
        leaseId := some params.leaseId
        updatedAt := now }
      (commit disk now params).1 = .ok committed ∧
      (commit disk now params).2.moves
        = Function.update disk.moves params.checkpointId (some committed) := by
  unfold commit
  split
  · exact Or.inl ⟨_, rfl⟩
  · split
    · exact Or.inl ⟨_, rfl⟩
    · rename_i movement hmove
      obtain ⟨hstored, hid⟩ := loadMove_ok hmove
      split
      · exact Or.inl ⟨_, rfl⟩
      · rename_i haborted
        split
        · rename_i hcommitted
          split
          · rename_i hlease
            exact Or.inr (Or.inl ⟨movement, hstored, hcommitted, hlease, rfl⟩)
          · exact Or.inl ⟨_, rfl⟩
        · rename_i hcommitted
          refine Or.inr (Or.inr ⟨movement, hstored, haborted, hcommitted, rfl, ?_⟩)
          show Function.update disk.moves movement.checkpointId _ = _
          rw [hid]

/-- An abort is refused, or aborts a record that is not committed. -/
theorem abort_cases (disk : NodeDisk) (now : Int) (params : MoveAbortParams) :
    (∃ e, abort disk now params = (.error e, disk)) ∨
    ∃ movement, disk.moves params.checkpointId = some movement ∧ movement.phase ≠ .committed ∧
      let aborted := { movement with
        phase := .aborted
        reason := some params.reason
        updatedAt := now }
      abort disk now params = (.ok aborted, saveMove disk aborted) ∧
      (abort disk now params).2.moves
        = Function.update disk.moves params.checkpointId (some aborted) := by
  unfold abort
  split
  · exact Or.inl ⟨_, rfl⟩
  · rename_i movement hmove
    obtain ⟨hstored, hid⟩ := loadMove_ok hmove
    split
    · exact Or.inl ⟨_, rfl⟩
    · rename_i hcommitted
      refine Or.inr ⟨movement, hstored, hcommitted, rfl, ?_⟩
      show Function.update disk.moves movement.checkpointId _ = _
      rw [hid]

end CheckpointStore

namespace NodeService

open CheckpointStore

variable (service : NodeService)

/-! ### What a request can leave -/

/-- The records after a request: as they were, or with the one the request wrote. -/
inductive MoveChange (service : NodeService) (disk : NodeDisk) (now : Int) :
    NodeRequest → (String → Option MoveRecord) → Prop
  | same (request : NodeRequest) : MoveChange service disk now request disk.moves
  | prepared (params : CheckpointPrepareParams) (found : Prepared) :
      MoveChange service disk now (.prepare params found)
        (Function.update disk.moves ("cp-" ++ hexEncode found.random)
          (some (service.prepared now params found)))
  | put (manifest : CheckpointManifest) (haccepts : service.Accepts manifest) :
      MoveChange service disk now (.manifestPut manifest)
        (Function.update disk.moves manifest.checkpointId
          (some (service.transferring now manifest)))
  | staged (id : String) (home : ProviderKind × String) (movement : MoveRecord)
      (hanew : service.StagesAnew disk id home) (hmove : disk.moves id = some movement) :
      MoveChange service disk now (.stage id)
        (Function.update disk.moves id
          (some { movement with phase := .staged, updatedAt := now }))
  | committed (params : MoveCommitParams) (movement : MoveRecord)
      (hmove : disk.moves params.checkpointId = some movement)
      (haborted : movement.phase ≠ .aborted) (hcommitted : movement.phase ≠ .committed) :
      MoveChange service disk now (.commit params)
        (Function.update disk.moves params.checkpointId
          (some { movement with
            phase := .committed
            targetNodeId := some params.targetNodeId
            leaseId := some params.leaseId
            updatedAt := now }))
  | aborted (params : MoveAbortParams) (movement : MoveRecord)
      (hmove : disk.moves params.checkpointId = some movement)
      (hcommitted : movement.phase ≠ .committed) :
      MoveChange service disk now (.abort params)
        (Function.update disk.moves params.checkpointId
          (some { movement with
            phase := .aborted
            reason := some params.reason
            updatedAt := now }))

theorem dispatchStage_moves (disk : NodeDisk) (now : Int) (id : String) :
    MoveChange service disk now (.stage id) (service.dispatchStage disk now id).2.moves := by
  unfold dispatchStage
  split
  · exact .same _
  · rename_i manifest hload
    split
    · exact .same _
    · rename_i provider hprofile
      split
      · exact .same _
      · rcases service.stage_moves disk now id (provider, manifest.profileId) with
          hsame | ⟨hanew, movement, hmove, hstaged⟩
        · show MoveChange service disk now (.stage id) (service.stage disk now id _).2.moves
          rw [hsame]
          exact .same _
        · show MoveChange service disk now (.stage id) (service.stage disk now id _).2.moves
          rw [hstaged]
          exact .staged id _ movement hanew hmove

theorem dispatchAbort_moves (disk : NodeDisk) (now : Int) (params : MoveAbortParams) :
    MoveChange service disk now (.abort params) (service.dispatchAbort disk now params).2.moves := by
  unfold dispatchAbort
  split
  · exact .same _
  · rename_i manifest hload
    rcases CheckpointStore.abort_cases disk now params with
      ⟨e, hrefused⟩ | ⟨movement, hmove, hcommitted, habort, hmoves⟩
    · rw [hrefused]
      exact .same _
    · have hchange : MoveChange service disk now (.abort params) _ :=
        .aborted params movement hmove hcommitted
      rw [← hmoves, habort] at hchange
      rw [habort]
      dsimp only
      split
      · exact hchange
      · split
        · exact hchange
        · rename_i provider hprofile
          obtain ⟨homes, htouches⟩ := service.rollbackProviderState_touches
            (saveMove disk { movement with
              phase := .aborted, reason := some params.reason, updatedAt := now })
            manifest (provider, manifest.profileId)
          split
          · rename_i hrollback
            rw [hrollback] at htouches
            rw [show _ = _ from htouches]
            exact hchange
          · rename_i hrollback
            rw [hrollback] at htouches
            rw [show _ = _ from htouches]
            exact hchange

theorem dispatch_moves (disk : NodeDisk) (now : Int) (request : NodeRequest) :
    MoveChange service disk now request (service.dispatch disk now request).2.moves := by
  cases request with
  | prepare params found =>
    show MoveChange service disk now _ (service.dispatchPrepare disk now params found).2.moves
    unfold dispatchPrepare
    split
    · exact .same _
    · split
      · exact .same _
      · show MoveChange service disk now _ (service.prepare disk now params found).2.moves
        rcases service.prepare_moves disk now params found with hsame | hprepared
        · rw [hsame]
          exact .same _
        · rw [hprepared]
          exact .prepared params found
  | manifestPut manifest =>
    show MoveChange service disk now _ (service.putManifest disk now manifest).2.moves
    rcases service.putManifest_moves disk now manifest with hsame | ⟨haccepts, hput⟩
    · rw [hsame]
      exact .same _
    · rw [hput]
      exact .put manifest haccepts
  | blobHas digests => exact .same _
  | blobRead params => exact .same _
  | blobPut params =>
    show MoveChange service disk now _ (service.putBlob disk params).2.moves
    obtain ⟨blobs, partials, htouches⟩ := service.putBlob_touches disk params
    rw [htouches]
    exact .same _
  | stage id => exact service.dispatchStage_moves disk now id
  | commit params =>
    show MoveChange service disk now _ (CheckpointStore.commit disk now params).2.moves
    rcases CheckpointStore.commit_cases disk now params with
      ⟨e, heq⟩ | ⟨movement, -, -, -, heq⟩ | ⟨movement, hmove, haborted, hcommitted, -, heq⟩
    · rw [heq]
      exact .same _
    · rw [heq]
      exact .same _
    · rw [heq]
      exact .committed params movement hmove haborted hcommitted
  | abort params => exact service.dispatchAbort_moves disk now params

/-! ### Decided records -/

def Decided (movement : MoveRecord) : Prop :=
  movement.phase = .committed ∨ movement.phase = .aborted

/-- The record of a checkpoint is committed or aborted. -/
def DecidedAt (disk : NodeDisk) (id : String) : Prop :=
  ∃ movement, disk.moves id = some movement ∧ Decided movement

/-- Phase, target and lease are as they were. -/
structure Kept (movement later : MoveRecord) : Prop where
  phase : later.phase = movement.phase
  target : later.targetNodeId = movement.targetNodeId
  lease : later.leaseId = movement.leaseId

theorem Kept.refl (movement : MoveRecord) : Kept movement movement := ⟨rfl, rfl, rfl⟩

theorem Kept.trans {first second third : MoveRecord} (h : Kept first second)
    (h' : Kept second third) : Kept first third :=
  ⟨h'.phase.trans h.phase, h'.target.trans h.target, h'.lease.trans h.lease⟩

theorem Kept.decided {movement later : MoveRecord} (h : Kept movement later)
    (hdecided : Decided movement) : Decided later := by
  unfold Decided
  rw [h.phase]
  exact hdecided

/--
The request writes no decided record anew: no manifest that is taken is put for it, it is
not staged to the end, and no new checkpoint draws its identifier.
-/
def Respects (service : NodeService) (disk : NodeDisk) : NodeRequest → Prop
  | .prepare _ found => ¬ DecidedAt disk ("cp-" ++ hexEncode found.random)
  | .manifestPut manifest => service.Accepts manifest → ¬ DecidedAt disk manifest.checkpointId
  | .stage id => ∀ home, service.StagesAnew disk id home → ¬ DecidedAt disk id
  | _ => True

theorem decided_kept {disk : NodeDisk} {now : Int} {request : NodeRequest}
    (hrespects : Respects service disk request) {id : String} {movement : MoveRecord}
    (hmove : disk.moves id = some movement) (hdecided : Decided movement) :
    ∃ later, (service.dispatch disk now request).2.moves id = some later ∧ Kept movement later := by
  have hat : DecidedAt disk id := ⟨movement, hmove, hdecided⟩
  have hchange := service.dispatch_moves disk now request
  generalize (service.dispatch disk now request).2.moves = moves at hchange
  -- A record written under another identifier is no concern.
  have hother : ∀ {other : String} {record : Option MoveRecord}, other ≠ id →
      Function.update disk.moves other record id = some movement := by
    intro other record hne
    rw [Function.update_of_ne hne.symm]
    exact hmove
  cases hchange with
  | same => exact ⟨movement, hmove, Kept.refl movement⟩
  | prepared params found =>
    by_cases hid : "cp-" ++ hexEncode found.random = id
    · exact absurd hat (hid ▸ hrespects)
    · exact ⟨movement, hother hid, Kept.refl movement⟩
  | put manifest haccepts =>
    by_cases hid : manifest.checkpointId = id
    · exact absurd hat (hid ▸ hrespects haccepts)
    · exact ⟨movement, hother hid, Kept.refl movement⟩
  | staged other home record hanew hrecord =>
    by_cases hid : other = id
    · exact absurd hat (hid ▸ hrespects home hanew)
    · exact ⟨movement, hother hid, Kept.refl movement⟩
  | committed params record hrecord haborted hcommitted =>
    by_cases hid : params.checkpointId = id
    · rw [hid, hmove] at hrecord
      cases hrecord
      rcases hdecided with hphase | hphase
      · exact absurd hphase hcommitted
      · exact absurd hphase haborted
    · exact ⟨movement, hother hid, Kept.refl movement⟩
  | aborted params record hrecord hcommitted =>
    by_cases hid : params.checkpointId = id
    · rw [hid, hmove] at hrecord
      cases hrecord
      have hphase : movement.phase = .aborted := hdecided.resolve_left hcommitted
      rw [hid, Function.update_self]
      exact ⟨_, rfl, hphase.symm, rfl, rfl⟩
    · exact ⟨movement, hother hid, Kept.refl movement⟩

theorem decided_run {disk : NodeDisk} {events : List (Int × NodeRequest)}
    (hall : ∀ x ∈ Trace.trace service.step disk events, Respects service x.before x.event.2)
    {id : String} {movement : MoveRecord} (hmove : disk.moves id = some movement)
    (hdecided : Decided movement) :
    ∃ later, (Trace.run service.step disk events).moves id = some later ∧ Kept movement later := by
  refine Trace.run_invariant_where service.step
    (P := fun disk => ∃ later, disk.moves id = some later ∧ Kept movement later) hall
    ⟨movement, hmove, Kept.refl movement⟩ ?_
  rintro disk' event hrespects ⟨record, hrecord, hkept⟩
  obtain ⟨later, hlater, hnext⟩ :=
    service.decided_kept hrespects hrecord (hkept.decided hdecided)
  exact ⟨later, hlater, hkept.trans hnext⟩

/-- An aborted record is not committed. -/
theorem commit_of_aborted {disk : NodeDisk} {params : MoveCommitParams} {movement : MoveRecord}
    (hmove : disk.moves params.checkpointId = some movement) (haborted : movement.phase = .aborted)
    (now : Int) : ∃ e, (service.dispatch disk now (.commit params)).1 = .error e := by
  rcases CheckpointStore.commit_cases disk now params with
    ⟨e, heq⟩ | ⟨record, hrecord, hphase, -, -⟩ | ⟨record, hrecord, hphase, -, -, -⟩
  · exact ⟨e, by simp [dispatch, answer, heq, Except.map]⟩
  · rw [hmove] at hrecord
    cases hrecord
    rw [haborted] at hphase
    cases hphase
  · rw [hmove] at hrecord
    cases hrecord
    exact absurd haborted hphase

/--
**Decided records are final while nobody starts the move again.**  In every run of
requests that put no taken manifest and stage nothing anew for a checkpoint whose record
is aborted or committed: after an abort no commit succeeds, and after a commit phase,
target and lease stay as they are.
-/
theorem move_records_terminal (disk : NodeDisk) (front back : List (Int × NodeRequest))
    (hall : ∀ x ∈ Trace.trace service.step disk (front ++ back),
      Respects service x.before x.event.2)
    (id : String) (movement : MoveRecord)
    (hmove : (Trace.run service.step disk front).moves id = some movement) :
    (movement.phase = .aborted →
      ∀ x ∈ Trace.trace service.step (Trace.run service.step disk front) back,
        ∀ params, x.event.2 = .commit params → params.checkpointId = id →
          ∃ e, x.outcome = .error e) ∧
    (movement.phase = .committed →
      ∃ later, (Trace.run service.step disk (front ++ back)).moves id = some later ∧
        later.phase = .committed ∧ later.targetNodeId = movement.targetNodeId ∧
        later.leaseId = movement.leaseId) := by
  have hback : ∀ x ∈ Trace.trace service.step (Trace.run service.step disk front) back,
      Respects service x.before x.event.2 := by
    intro x hx
    refine hall x ?_
    rw [Trace.trace_append]
    exact List.mem_append_right _ hx
  refine ⟨?_, ?_⟩
  · intro haborted x hx params hevent hid
    obtain ⟨earlier, later, hsplit⟩ := List.append_of_mem hx
    obtain ⟨events, event, -, hfront, htake, -⟩ := Trace.trace_split service.step hsplit
    -- Up to this commit the record is the aborted one.
    have hsofar : ∀ y ∈ Trace.trace service.step (Trace.run service.step disk front) events,
        Respects service y.before y.event.2 := by
      intro y hy
      refine hback y ?_
      rw [hsplit, hfront]
      exact List.mem_append_left _ hy
    obtain ⟨record, hrecord, hkept⟩ := service.decided_run hsofar hmove (Or.inr haborted)
    rw [htake] at hevent ⊢
    subst hid
    obtain ⟨e, herror⟩ := service.commit_of_aborted hrecord (hkept.phase.trans haborted) event.1
    refine ⟨e, ?_⟩
    show (service.dispatch _ event.1 event.2).1 = .error e
    rw [show event.2 = .commit params from hevent]
    exact herror
  · intro hcommitted
    obtain ⟨later, hlater, hkept⟩ := service.decided_run hback hmove (Or.inl hcommitted)
    rw [Trace.run_append]
    exact ⟨later, hlater, hkept.phase.trans hcommitted, hkept.target, hkept.lease⟩

/-- The sample checkpoint is put and the move decided. -/
def decidedBy (request : NodeRequest) : List (Int × NodeRequest) :=
  [(1, .manifestPut sampleManifest), (2, request)]

def sampleAbort : NodeRequest := .abort ⟨sampleManifest.checkpointId, "node handoff timed out"⟩

def sampleCommit : NodeRequest := .commit ⟨sampleManifest.checkpointId, "node-b", "lease-1"⟩

theorem move_records_terminal_abort :
    (∃ movement, (Trace.run sampleService.step .empty (decidedBy sampleAbort)).moves
      sampleManifest.checkpointId = some movement ∧ movement.phase = .aborted) ∧
    ∀ x ∈ Trace.trace sampleService.step
        (Trace.run sampleService.step .empty (decidedBy sampleAbort)) [(3, sampleCommit)],
      ∀ params, x.event.2 = .commit params → params.checkpointId = sampleManifest.checkpointId →
        ∃ e, x.outcome = .error e := by
  have hphase : ((Trace.run sampleService.step .empty (decidedBy sampleAbort)).moves
      sampleManifest.checkpointId).map MoveRecord.phase = some .aborted := by rfl
  obtain ⟨movement, hmove, haborted⟩ := Option.map_eq_some_iff.mp hphase
  have hall : ∀ x ∈ Trace.trace sampleService.step .empty
      (decidedBy sampleAbort ++ [(3, sampleCommit)]), Respects sampleService x.before x.event.2 := by
    intro x hx
    -- Only the first request writes a record without looking, and there is none yet.
    obtain ⟨k, hget, hbefore⟩ := Trace.before_of_mem_trace _ hx
    have hk : k < 3 := (List.getElem?_eq_some_iff.mp hget).1
    interval_cases k
    · rw [← Option.some.inj hget, hbefore]
      rintro - ⟨record, hrecord, -⟩
      cases hrecord
    · rw [← Option.some.inj hget]
      trivial
    · rw [← Option.some.inj hget]
      trivial
  exact ⟨⟨movement, hmove, haborted⟩,
    (move_records_terminal sampleService .empty _ _ hall _ movement hmove).1 haborted⟩

/--
A manifest that is put again makes a decided move start over: an aborted one then
commits, and a committed one has neither phase nor lease any more.
-/
theorem put_again_reopens :
    ((Trace.run sampleService.step .empty (decidedBy sampleAbort)).moves
      sampleManifest.checkpointId).map MoveRecord.phase = some .aborted ∧
    (sampleService.step (Trace.run sampleService.step .empty
      (decidedBy sampleAbort ++ [(3, .manifestPut sampleManifest)])) (4, sampleCommit)).2.isOk
        = true ∧
    ((Trace.run sampleService.step .empty (decidedBy sampleCommit)).moves
      sampleManifest.checkpointId).map (fun movement => (movement.phase, movement.leaseId))
        = some (.committed, some "lease-1") ∧
    ((Trace.run sampleService.step .empty
      (decidedBy sampleCommit ++ [(3, .manifestPut sampleManifest)])).moves
      sampleManifest.checkpointId).map (fun movement => (movement.phase, movement.leaseId))
        = some (.transferring, none) := by
  refine ⟨?_, ?_, ?_, ?_⟩ <;> rfl

end NodeService

end Homie.Node
