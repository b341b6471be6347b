/-
What a move that is aborted leaves of the provider's sessions.

Staging puts the session file of a checkpoint into the configuration home of the account,
or finds an identical one there.  Aborting takes it away by its content, whoever put it
there.  So put, stage and abort leave the session files as they were exactly when the home
had no identical one before.
-/
import Homie.Proofs.Fidelity

namespace Homie.Node

/-! ### Session files -/

/-- Where a provider's session may be: a file that is named so. -/
def SessionPath (path : List String) : Prop :=
  path.getLast?.bind extension = some "jsonl".toList

instance (path : List String) : Decidable (SessionPath path) :=
  inferInstanceAs (Decidable (_ = _))

/-- The content of a session file. -/
def sessionFile (tree : FileTree) (path : List String) : Option (List UInt8) :=
  if SessionPath path then (tree.fileAt path).map RegularFile.bytes else none

theorem sessionFile_congr {tree tree' : FileTree} {path : List String}
    (h : SessionPath path → tree'.fileAt path = tree.fileAt path) :
    sessionFile tree' path = sessionFile tree path := by
  unfold sessionFile
  split
  · rename_i hpath
    rw [h hpath]
  · rfl

/-- A change of a path that is no session's leaves all sessions. -/
theorem sessionFile_set_of_not {tree : FileTree} {path : List String} (hne : path ≠ [])
    (hpath : ¬ SessionPath path) (entry : Option FileEntry) (other : List String) :
    sessionFile (tree.set path entry) other = sessionFile tree other := by
  refine sessionFile_congr fun hother => ?_
  rw [FileTree.fileAt_set hne, if_neg]
  rintro rfl
  exact hpath hother

theorem sessionFile_set {tree : FileTree} {path : List String} (hne : path ≠ [])
    (hpath : SessionPath path) (entry : Option FileEntry) (other : List String) :
    sessionFile (tree.set path entry) other = if other = path then (match entry with
      | some (.file file) => some file.bytes
      | _ => none) else sessionFile tree other := by
  by_cases hother : other = path
  · rw [if_pos hother, hother]
    unfold sessionFile
    rw [if_pos hpath, FileTree.fileAt_set hne, if_pos rfl]
    cases entry with
    | none => rfl
    | some entry => cases entry <;> rfl
  · rw [if_neg hother]
    refine sessionFile_congr fun _ => ?_
    rw [FileTree.fileAt_set hne, if_neg hother]

theorem sessionPath_of_stem {path : List String} {stem : String}
    (hlast : path.getLast? = some (stem ++ ".jsonl")) (hne : stem ≠ "") : SessionPath path := by
  unfold SessionPath
  rw [hlast]
  refine extension_eq_some stem.toList ?_ ?_ (by decide) ?_
  · rw [String.toList_append]
    rfl
  · exact fun hempty => hne (String.toList_eq_nil_iff.mp hempty)
  · intro hdots
    have hlength := congrArg (fun name => name.toList.length) hdots
    simp [String.toList_append] at hlength

/-- The name a session file is copied under first is no session's. -/
theorem not_sessionPath_temporary (front : List String) (sessionId : String) (pid : Nat) :
    ¬ SessionPath (front ++ ["." ++ sessionId ++ ".staging-" ++ toString pid]) := by
  have hextension : extension ("." ++ sessionId ++ ".staging-" ++ toString pid)
      = some ("staging-".toList ++ Nat.toDigits 10 pid) := by
    refine extension_eq_some ('.' :: sessionId.toList) ?_ (List.cons_ne_nil _ _) ?_ ?_
    · simp [String.toList_append]
    · intro hdot
      rcases List.mem_append.mp hdot with hstaging | hdigit
      · exact absurd hstaging (by decide)
      · exact absurd (Nat.isDigit_of_mem_toDigits (by decide) (by decide) hdigit) (by decide)
    · intro hdots
      have hlength := congrArg (fun name => name.toList.length) hdots
      simp [String.toList_append] at hlength
      omega
  unfold SessionPath
  rw [List.getLast?_concat, Option.bind_some, hextension]
  intro hjsonl
  have hfirst := congrArg List.head? (Option.some.inj hjsonl)
  simp at hfirst

namespace CheckpointStore

variable (store : CheckpointStore)

theorem sessionPath_destination {manifest : CheckpointManifest} {destination : List String}
    (h : providerStateDestination manifest = .ok (some destination)) :
    SessionPath destination := by
  unfold providerStateDestination at h
  split at h
  · cases h
  · rename_i sessionId hid
    split at h
    · cases h
    · rename_i hvalid
      cases h
      cases manifest.provider with
      | claude =>
        exact sessionPath_of_stem rfl fun hempty => hvalid (Or.inl hempty)
      | codex =>
        refine sessionPath_of_stem rfl fun hempty => ?_
        have hlength := congrArg (fun name => name.toList.length) hempty
        simp [String.toList_append] at hlength

/-! ### Activating -/

theorem destination_ne_nil {manifest : CheckpointManifest} {destination : List String}
    (h : providerStateDestination manifest = .ok (some destination)) : destination ≠ [] := by
  intro hnil
  have hpath := sessionPath_destination h
  rw [hnil] at hpath
  cases hpath

/-- What activating the provider's state does to the sessions of its home. -/
inductive Activated (manifest : CheckpointManifest) (before after : FileTree) : Prop
  | kept (hsame : ∀ path, sessionFile after path = sessionFile before path)
  | placed (state : CheckpointFile) (destination : List String) (bytes : List UInt8)
      (hstate : manifest.providerState = some state)
      (hdestination : providerStateDestination manifest = .ok (some destination))
      (hsha : store.sha256File bytes = state.digest)
      (hfree : sessionFile before destination = none)
      (hafter : ∀ path, sessionFile after path
        = if path = destination then some bytes else sessionFile before path)

theorem activated_renamed {manifest : CheckpointManifest} {tree made copied : FileTree}
    {destination : List String} {state : CheckpointFile} {blob : RegularFile}
    (temporary : List String) (hne : temporary ≠ []) (htemporary : ¬ SessionPath temporary)
    (hstate : manifest.providerState = some state)
    (hdestination : providerStateDestination manifest = .ok (some destination))
    (hget : tree.get destination = none)
    (hmade : tree.createDirAll destination.dropLast = some made)
    (hcopied : made.copy store.privileged temporary blob = some copied) :
    store.Activated manifest tree copied ∧
    (store.sha256File blob.bytes = state.digest →
      store.Activated manifest tree
        ((copied.remove temporary).set destination (some (.file blob)))) := by
  have hsame : ∀ path, sessionFile copied path = sessionFile tree path := by
    intro path
    rw [FileTree.eq_set_of_copy hcopied, sessionFile_set_of_not hne htemporary]
    exact sessionFile_congr fun _ => FileTree.fileAt_createDirAll hmade path
  refine ⟨.kept hsame, fun hsha => ?_⟩
  refine .placed state destination blob.bytes hstate hdestination hsha ?_ fun path => ?_
  · unfold sessionFile FileTree.fileAt
    rw [hget]
    split <;> rfl
  · rw [sessionFile_set (destination_ne_nil hdestination) (sessionPath_destination hdestination),
      FileTree.remove, sessionFile_set_of_not hne htemporary, hsame]

theorem activate_sessions (disk : NodeDisk) (manifest : CheckpointManifest)
    (home : ProviderKind × String) :
    (∀ other, other ≠ home →
      (store.activateProviderState disk manifest home).2.homes other = disk.homes other) ∧
    store.Activated manifest (disk.homes home)
      ((store.activateProviderState disk manifest home).2.homes home) := by
  have hsame : store.Activated manifest (disk.homes home) (disk.homes home) := .kept fun _ => rfl
  have hhome : ∀ tree, store.Activated manifest (disk.homes home) tree →
      (∀ other, other ≠ home →
        Function.update disk.homes home tree other = disk.homes other) ∧
      store.Activated manifest (disk.homes home) (Function.update disk.homes home tree home) := by
    intro tree htree
    rw [Function.update_self]
    exact ⟨fun other hother => Function.update_of_ne hother _ _, htree⟩
  unfold activateProviderState
  split
  · exact ⟨fun _ _ => rfl, hsame⟩
  rename_i state hstate
  split
  · exact ⟨fun _ _ => rfl, hsame⟩
  · exact ⟨fun _ _ => rfl, hsame⟩
  rename_i destination hdestination
  dsimp only
  split
  · exact ⟨fun _ _ => rfl, hsame⟩
  · split
    · exact ⟨fun _ _ => rfl, hsame⟩
    · exact ⟨fun _ _ => rfl, hsame⟩
  rename_i hget
  split
  · exact ⟨fun _ _ => rfl, hsame⟩
  rename_i made hmade
  have hdirectories : store.Activated manifest (disk.homes home) made :=
    .kept fun path => sessionFile_congr fun _ => FileTree.fileAt_createDirAll hmade path
  split
  · exact hhome made hdirectories
  rename_i blob hblob
  split
  · exact hhome made hdirectories
  rename_i copied hcopied
  obtain ⟨hcopy, hrename⟩ := store.activated_renamed _ (by simp)
    (not_sessionPath_temporary _ _ _) hstate hdestination hget hmade hcopied
  split
  · exact hhome copied hcopy
  · rename_i hsha
    exact hhome _ (hrename (not_ne_iff.mp hsha))

theorem stage_sessions {disk : NodeDisk} {id : String} {manifest : CheckpointManifest}
    (hload : loadManifest disk id = .ok manifest) (now : Int) (home : ProviderKind × String) :
    (∀ other, other ≠ home → (store.stage disk now id home).2.homes other = disk.homes other) ∧
    store.Activated manifest (disk.homes home)
      ((store.stage disk now id home).2.homes home) := by
  have hsame : store.Activated manifest (disk.homes home) (disk.homes home) := .kept fun _ => rfl
  unfold stage
  rw [hload]
  dsimp only
  split
  · have hactivate := store.activate_sessions disk manifest home
    split
    · rename_i hresult
      rw [hresult] at hactivate
      exact hactivate
    · rename_i hresult
      rw [hresult] at hactivate
      exact hactivate
  · split
    · exact ⟨fun _ _ => rfl, hsame⟩
    · split
      · exact ⟨fun _ _ => rfl, hsame⟩
      · rename_i tree hrestore
        unfold finishStage
        have hactivate := store.activate_sessions { disk with
          restores := Function.update disk.restores id (some tree) } manifest home
        split
        · rename_i hresult
          rw [hresult] at hactivate
          exact hactivate
        · rename_i hresult
          rw [hresult] at hactivate
          split
          · exact hactivate
          · exact hactivate

/-! ### Rolling back -/

/-- The session of a checkpoint is in a home, with the checkpoint's content. -/
def Identical (manifest : CheckpointManifest) (tree : FileTree) (path : List String) : Prop :=
  ∃ state bytes, manifest.providerState = some state ∧
    providerStateDestination manifest = .ok (some path) ∧ sessionFile tree path = some bytes ∧
    store.sha256File bytes = state.digest

/-- Only the destination can be identical, and it is by the content found there. -/
theorem identical_iff {manifest : CheckpointManifest} {state : CheckpointFile}
    {destination : List String} (hstate : manifest.providerState = some state)
    (hdestination : providerStateDestination manifest = .ok (some destination))
    (tree : FileTree) (path : List String) :
    store.Identical manifest tree path ↔
      path = destination ∧ ∃ file, tree.fileAt destination = some file ∧
        store.sha256File file.bytes = state.digest := by
  have hsession : sessionFile tree destination
      = (tree.fileAt destination).map RegularFile.bytes :=
    if_pos (sessionPath_destination hdestination)
  constructor
  · rintro ⟨state', bytes, hstate', hpath, hbytes, hsha⟩
    cases hstate.symm.trans hstate'
    cases hdestination.symm.trans hpath
    rw [hsession] at hbytes
    obtain ⟨file, hfile, rfl⟩ := Option.map_eq_some_iff.mp hbytes
    exact ⟨rfl, file, hfile, hsha⟩
  · rintro ⟨rfl, file, hfile, hsha⟩
    refine ⟨state, file.bytes, hstate, hdestination, ?_, hsha⟩
    rw [hsession, hfile]
    rfl

/-- What rolling back does to the sessions of its home. -/
def RolledBack (manifest : CheckpointManifest) (before after : FileTree) : Prop :=
  ∀ path, (store.Identical manifest before path → sessionFile after path = none) ∧
    (¬ store.Identical manifest before path → sessionFile after path = sessionFile before path)

theorem rolledBack_self {manifest : CheckpointManifest} {tree : FileTree}
    (h : ∀ path, ¬ store.Identical manifest tree path) : store.RolledBack manifest tree tree :=
  fun path => ⟨fun hidentical => absurd hidentical (h path), fun _ => rfl⟩

theorem rollback_sessions (disk : NodeDisk) (manifest : CheckpointManifest)
    (home : ProviderKind × String) :
    (∀ other, other ≠ home →
      (store.rollbackProviderState disk manifest home).2.homes other = disk.homes other) ∧
    store.RolledBack manifest (disk.homes home)
      ((store.rollbackProviderState disk manifest home).2.homes home) := by
  unfold rollbackProviderState
  cases hstate : manifest.providerState with
  | none =>
    refine ⟨fun _ _ => rfl, store.rolledBack_self ?_⟩
    rintro path ⟨state, -, hsome, -⟩
    cases hstate.symm.trans hsome
  | some state =>
    cases hdestination : providerStateDestination manifest with
    | error e =>
      refine ⟨fun _ _ => rfl, store.rolledBack_self ?_⟩
      rintro path ⟨-, -, -, hok, -⟩
      cases hdestination.symm.trans hok
    | ok found =>
      cases found with
      | none =>
        refine ⟨fun _ _ => rfl, store.rolledBack_self ?_⟩
        rintro path ⟨-, -, -, hok, -⟩
        cases hdestination.symm.trans hok
      | some destination =>
        have hiff := store.identical_iff hstate hdestination (disk.homes home)
        dsimp only
        split
        · rename_i hnone
          refine ⟨fun _ _ => rfl, store.rolledBack_self fun path hidentical => ?_⟩
          obtain ⟨-, file, hfile, -⟩ := (hiff path).mp hidentical
          cases hnone.symm.trans hfile
        · rename_i file hfile
          split
          · rename_i hsha
            refine ⟨fun other hother => Function.update_of_ne hother _ _, fun path => ?_⟩
            dsimp only
            rw [Function.update_self, FileTree.remove,
              sessionFile_set (destination_ne_nil hdestination)
                (sessionPath_destination hdestination)]
            constructor
            · intro hidentical
              exact if_pos ((hiff path).mp hidentical).1
            · intro hother
              exact if_neg fun heq => hother ((hiff path).mpr ⟨heq, file, hfile, hsha⟩)
          · rename_i hsha
            refine ⟨fun _ _ => rfl, store.rolledBack_self fun path hidentical => ?_⟩
            obtain ⟨-, found, hfound, hsame⟩ := (hiff path).mp hidentical
            cases hfile.symm.trans hfound
            exact hsha hsame

theorem rolledBack_activated_iff {manifest : CheckpointManifest} {first second third : FileTree}
    (hactivated : store.Activated manifest first second)
    (hback : store.RolledBack manifest second third) :
    (∀ path, sessionFile third path = sessionFile first path) ↔
      ∀ path, ¬ store.Identical manifest first path := by
  cases hactivated with
  | kept hsame =>
    have hidentical : ∀ path, store.Identical manifest second path ↔
        store.Identical manifest first path := by
      intro path
      unfold Identical
      rw [hsame]
    constructor
    · intro hall path hpath
      have hnone := (hback path).1 ((hidentical path).mpr hpath)
      rw [hall] at hnone
      obtain ⟨-, bytes, -, -, hbytes, -⟩ := hpath
      cases hnone.symm.trans hbytes
    · intro hnone path
      exact ((hback path).2 fun hpath => hnone path ((hidentical path).mp hpath)).trans
        (hsame path)
  | placed state destination bytes hstate hdestination hsha hfree hafter =>
    have hpath : ∀ {tree path}, store.Identical manifest tree path → path = destination := by
      rintro tree path ⟨-, -, -, hok, -⟩
      cases hdestination.symm.trans hok
      rfl
    refine ⟨fun _ path hidentical => ?_, fun _ path => ?_⟩
    · have heq := hpath hidentical
      obtain ⟨-, found, -, -, hfound, -⟩ := hidentical
      rw [heq, hfree] at hfound
      cases hfound
    · by_cases heq : path = destination
      · rw [heq, hfree]
        refine (hback destination).1 ⟨state, bytes, hstate, hdestination, ?_, hsha⟩
        rw [hafter, if_pos rfl]
      · rw [(hback path).2 fun hidentical => heq (hpath hidentical), hafter, if_neg heq]

theorem putManifest_of_accepts {manifest : CheckpointManifest} (h : store.Accepts manifest)
    (disk : NodeDisk) (now : Int) :
    (store.putManifest disk now manifest).2.manifests manifest.checkpointId = some manifest ∧
    (store.putManifest disk now manifest).2.moves manifest.checkpointId
      = some (store.transferring now manifest) ∧
    (store.putManifest disk now manifest).2.homes = disk.homes := by
  obtain ⟨hvalid, hsource⟩ := h
  unfold putManifest saveManifest
  rw [hvalid]
  dsimp only
  rw [if_neg hsource]
  exact ⟨Function.update_self _ _ _, Function.update_self _ _ _, rfl⟩

end CheckpointStore

/-! ### Put, stage, abort -/

namespace NodeService

open CheckpointStore

variable (service : NodeService)

/-- The home of the account a checkpoint names, if there is one. -/
def homeOf (manifest : CheckpointManifest) : Option (ProviderKind × String) :=
  (service.profile manifest.profileId).map fun provider => (provider, manifest.profileId)

/-- What staging a checkpoint leaves, whether it goes well or not. -/
theorem dispatchStage_sessions {disk : NodeDisk} {manifest : CheckpointManifest}
    (hknown : disk.manifests manifest.checkpointId = some manifest)
    (hvalid : validateManifest manifest = .ok ()) (now : Int) :
    (service.dispatchStage disk now manifest.checkpointId).2.manifests = disk.manifests ∧
    (∀ home, service.homeOf manifest ≠ some home →
      (service.dispatchStage disk now manifest.checkpointId).2.homes home = disk.homes home) ∧
    ∀ home, service.homeOf manifest = some home →
      service.Activated manifest (disk.homes home)
        ((service.dispatchStage disk now manifest.checkpointId).2.homes home) := by
  have hload := loadManifest_of_known hknown hvalid
  unfold dispatchStage homeOf
  rw [hload]
  dsimp only
  split
  · rename_i hnone
    rw [hnone]
    exact ⟨rfl, fun _ _ => rfl, nofun⟩
  · rename_i provider hprofile
    rw [hprofile]
    split
    · exact ⟨rfl, fun _ _ => rfl, fun _ _ => .kept fun _ => rfl⟩
    · obtain ⟨hothers, hactivated⟩ := service.stage_sessions hload now (provider, manifest.profileId)
      refine ⟨(service.stage_keeps disk now manifest.checkpointId _).2, ?_, ?_⟩
      · intro home hother
        exact hothers home fun heq => hother (congrArg some heq.symm)
      · intro home hhome
        cases hhome
        exact hactivated

/-- A record that is not committed is not so after staging. -/
theorem dispatchStage_undecided {disk : NodeDisk} {id : String} {movement : MoveRecord}
    (hmove : disk.moves id = some movement) (hphase : movement.phase ≠ .committed) (now : Int) :
    ∃ later, (service.dispatchStage disk now id).2.moves id = some later ∧
      later.phase ≠ .committed := by
  have hchange := service.dispatch_moves disk now (.stage id)
  change MoveChange service disk now (.stage id) (service.dispatchStage disk now id).2.moves
    at hchange
  generalize (service.dispatchStage disk now id).2.moves = moves at hchange
  cases hchange with
  | same => exact ⟨movement, hmove, hphase⟩
  | staged _ home found hanew hfound =>
    exact ⟨_, Function.update_self _ _ _, nofun⟩

theorem dispatchAbort_sessions {disk : NodeDisk} {manifest : CheckpointManifest}
    {movement : MoveRecord}
    (hknown : disk.manifests manifest.checkpointId = some manifest)
    (haccepts : service.Accepts manifest)
    (hmove : disk.moves manifest.checkpointId = some movement)
    (hphase : movement.phase ≠ .committed) (now : Int) (reason : String) :
    (∀ home, service.homeOf manifest ≠ some home →
      (service.dispatchAbort disk now ⟨manifest.checkpointId, reason⟩).2.homes home
        = disk.homes home) ∧
    ∀ home, service.homeOf manifest = some home →
      service.RolledBack manifest (disk.homes home)
        ((service.dispatchAbort disk now ⟨manifest.checkpointId, reason⟩).2.homes home) := by
  obtain ⟨hvalid, hsource⟩ := haccepts
  have hload : loadMove disk manifest.checkpointId = .ok movement := by
    unfold loadMove
    rw [validateManifest_id hvalid, hmove]
    rfl
  unfold dispatchAbort homeOf abort
  rw [loadManifest_of_known hknown hvalid]
  dsimp only
  rw [hload]
  dsimp only
  rw [if_neg hphase]
  dsimp only
  rw [if_neg hsource]
  split
  · rename_i hnone
    rw [hnone]
    exact ⟨fun _ _ => rfl, nofun⟩
  · rename_i provider hprofile
    rw [hprofile]
    have hback := service.rollback_sessions (saveMove disk { movement with
      phase := .aborted
      reason := some reason
      updatedAt := now }) manifest (provider, manifest.profileId)
    generalize service.rollbackProviderState (saveMove disk { movement with
      phase := .aborted
      reason := some reason
      updatedAt := now }) manifest (provider, manifest.profileId) = result at hback ⊢
    obtain ⟨answer, rolled⟩ := result
    obtain ⟨hothers, hhome⟩ := hback
    have hrolled : (∀ home, some (provider, manifest.profileId) ≠ some home →
          rolled.homes home = disk.homes home) ∧
        ∀ home, some (provider, manifest.profileId) = some home →
          service.RolledBack manifest (disk.homes home) (rolled.homes home) := by
      refine ⟨fun home hother => hothers home fun heq => hother (congrArg some heq.symm), ?_⟩
      intro home hsome
      cases hsome
      exact hhome
    cases answer with
    | error e => exact hrolled
    | ok => exact hrolled

/--
**Put, stage and abort give the sessions back exactly when none was identical before.**  For any
homes and any checkpoint the node takes: afterwards every home has the session files it had,
with the same contents, if and only if the home of the checkpoint's account had no file
with the content of the provider's state where an import of its session goes.
-/
theorem abort_restores_sessions_iff (service : NodeService) (disk : NodeDisk)
    (manifest : CheckpointManifest) (haccepts : service.Accepts manifest)
    (putAt stageAt abortAt : Int) (reason : String) :
    (∀ home path, sessionFile ((Trace.run service.step disk
        [(putAt, .manifestPut manifest), (stageAt, .stage manifest.checkpointId),
          (abortAt, .abort ⟨manifest.checkpointId, reason⟩)]).homes home) path
      = sessionFile (disk.homes home) path) ↔
    ∀ home, service.homeOf manifest = some home →
      ∀ path, ¬ service.Identical manifest (disk.homes home) path := by
  obtain ⟨hknown, hmove, hhomes⟩ := service.putManifest_of_accepts haccepts disk putAt
  obtain ⟨hkept, hothers, hactivated⟩ :=
    service.dispatchStage_sessions hknown haccepts.1 stageAt
  obtain ⟨movement, hlater, hphase⟩ := service.dispatchStage_undecided hmove nofun stageAt
  obtain ⟨hothers', hback⟩ := service.dispatchAbort_sessions (hkept ▸ hknown) haccepts hlater
    hphase abortAt reason
  rw [hhomes] at hothers hactivated
  show (∀ home path, sessionFile ((service.dispatchAbort _ abortAt _).2.homes home) path = _) ↔ _
  constructor
  · intro hall home hhome
    exact (service.rolledBack_activated_iff (hactivated home hhome) (hback home hhome)).mp
      (hall home)
  · intro hnone home
    by_cases hhome : service.homeOf manifest = some home
    · exact (service.rolledBack_activated_iff (hactivated home hhome) (hback home hhome)).mpr
        (hnone home hhome)
    · intro path
      exact congrArg (sessionFile · path) ((hothers' home hhome).trans (hothers home hhome))

/-- A checkpoint of no files whose provider's state is one letter. -/
def sampleMove : CheckpointManifest := sampleCheckpoint [] []

/-- Where the letter is imported. -/
def sampleImport : List String := ["projects", "-homie-imports", "conversation.jsonl"]

/-- A node that has been sent the letter. -/
def sampleNode : NodeDisk :=
  Trace.run sampleService.step .empty
    [(1, .blobPut ⟨sampleService.sha256File [0x62], 0, "62", true⟩)]

theorem abort_restores_sessions_first :
    sessionFile ((Trace.run sampleService.step sampleNode
        [(2, .manifestPut sampleMove), (3, .stage sampleMove.checkpointId)]).homes
      (.claude, "work")) sampleImport = some [0x62] ∧
    ∀ home path, sessionFile ((Trace.run sampleService.step sampleNode
        [(2, .manifestPut sampleMove), (3, .stage sampleMove.checkpointId),
          (4, .abort ⟨sampleMove.checkpointId, "changed my mind"⟩)]).homes home) path
      = sessionFile (sampleNode.homes home) path := by
  refine ⟨by decide, (abort_restores_sessions_iff sampleService sampleNode sampleMove
    (by decide) 2 3 4 "changed my mind").mpr ?_⟩
  rintro home hhome path ⟨state, bytes, -, hdestination, hbytes, -⟩
  have hempty : sessionFile (sampleNode.homes (.claude, "work")) sampleImport = none := by
    decide
  have hpath : providerStateDestination sampleMove = .ok (some sampleImport) := by decide
  have hsome : sampleService.homeOf sampleMove = some (.claude, "work") := by decide
  cases hpath.symm.trans hdestination
  cases hsome.symm.trans hhome
  cases hempty.symm.trans hbytes

/-- The node after another move of the same session was committed. -/
def sampleNodeMoved : NodeDisk :=
  Trace.run sampleService.step sampleNode
    [(2, .manifestPut { sampleMove with checkpointId := "cp-ffeeddccbbaa99887766554433221100" }),
      (3, .stage "cp-ffeeddccbbaa99887766554433221100"),
      (4, .commit ⟨"cp-ffeeddccbbaa99887766554433221100", "node-b", "lease-1"⟩)]

/--
**An abort takes away a session that an earlier move had brought.**  The first move of the
session is committed; a second one with the same content is staged, finds the file there,
and is aborted.
-/
theorem abort_removes_earlier_import :
    ¬ ∀ home path, sessionFile ((Trace.run sampleService.step sampleNodeMoved
        [(5, .manifestPut sampleMove), (6, .stage sampleMove.checkpointId),
          (7, .abort ⟨sampleMove.checkpointId, "changed my mind"⟩)]).homes home) path
      = sessionFile (sampleNodeMoved.homes home) path := by
  intro hall
  exact absurd (hall (.claude, "work") sampleImport) (by decide)

end NodeService

end Homie.Node
