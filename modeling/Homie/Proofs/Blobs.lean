/-
Blobs: what a node keeps under a digest, and what a transfer comes to.

A blob is only ever added, under the digest of its bytes, so on a node that handles one
request after another every blob is what its name says.  A transfer reads the source from
the beginning.  The target takes a chunk only at the end of what it has of the blob, so a
transfer gets through exactly when the target has the whole blob or nothing of it: what an
upload that broke off or failed its check leaves behind refuses every later one.
-/
import Homie.Client.Handoff
import Homie.Proofs.MoveRecords

namespace Homie.Node

/-! ### Hex -/

theorem hexDigit_hexChars {n : Nat} (h : n < 16) :
    hexDigit (hexChars.getD n '0') = .ok (UInt8.ofNat n) ∧
      isAsciiHexdigit (hexChars.getD n '0') = true ∧ (hexChars.getD n '0').utf8Size = 1 := by
  have hall : ∀ n : Fin 16, hexDigit (hexChars.getD n.1 '0') = .ok (UInt8.ofNat n.1) ∧
      isAsciiHexdigit (hexChars.getD n.1 '0') = true ∧
      (hexChars.getD n.1 '0').utf8Size = 1 := by
    decide
  exact hall ⟨n, h⟩

theorem byte_halves (byte : UInt8) :
    (byte >>> 4).toNat < 16 ∧ (byte &&& 0x0f).toNat < 16 ∧
      ((byte >>> 4) <<< 4) ||| (byte &&& 0x0f) = byte := by
  have hall : ∀ n : Fin 256, (UInt8.ofNat n.1 >>> 4).toNat < 16 ∧
      (UInt8.ofNat n.1 &&& 0x0f).toNat < 16 ∧
      ((UInt8.ofNat n.1 >>> 4) <<< 4) ||| (UInt8.ofNat n.1 &&& 0x0f) = UInt8.ofNat n.1 := by
    decide +kernel
  simpa using hall ⟨byte.toNat, byte.toNat_lt⟩

theorem toList_hexEncode_cons (byte : UInt8) (bytes : List UInt8) :
    (hexEncode (byte :: bytes)).toList
      = hexChars.getD (byte >>> 4).toNat '0' :: hexChars.getD (byte &&& 0x0f).toNat '0' ::
        (hexEncode bytes).toList := by
  simp [hexEncode]

theorem hexPairs_hexEncode (bytes : List UInt8) :
    hexPairs (hexEncode bytes).toList = .ok bytes := by
  induction bytes with
  | nil => simp [hexEncode, hexPairs]
  | cons byte bytes ih =>
    obtain ⟨hhigh, hlow, hbyte⟩ := byte_halves byte
    rw [toList_hexEncode_cons, hexPairs, (hexDigit_hexChars hhigh).1, (hexDigit_hexChars hlow).1,
      ih, UInt8.ofNat_toNat, UInt8.ofNat_toNat]
    show Except.ok (_ :: bytes) = _
    rw [hbyte]

theorem utf8ByteSize_hexEncode (bytes : List UInt8) :
    (hexEncode bytes).utf8ByteSize = 2 * bytes.length := by
  unfold hexEncode
  rw [String.utf8ByteSize_ofList]
  induction bytes with
  | nil => rfl
  | cons byte bytes ih =>
    obtain ⟨hhigh, hlow, -⟩ := byte_halves byte
    rw [List.flatMap_cons, List.cons_append, List.cons_append, List.nil_append,
      String.utf8Len_cons, String.utf8Len_cons, ih, (hexDigit_hexChars hhigh).2.2,
      (hexDigit_hexChars hlow).2.2, List.length_cons]
    omega

theorem hexDecode_hexEncode (bytes : List UInt8) : hexDecode (hexEncode bytes) = .ok bytes := by
  unfold hexDecode
  rw [utf8ByteSize_hexEncode, if_neg (by omega), hexPairs_hexEncode]

theorem hexEncode_inj {bytes bytes' : List UInt8} (h : hexEncode bytes = hexEncode bytes') :
    bytes = bytes' := by
  have hdecode := hexDecode_hexEncode bytes
  rw [h, hexDecode_hexEncode] at hdecode
  exact (Except.ok.inj hdecode).symm

/-- No other bytes share a digest with these. -/
theorem sampleHasher_inj {letters : List UInt8}
    (hletters : letters ∈ ([[0x61], [0x62], [0x61, 0x62]] : List (List UInt8)))
    {bytes : List UInt8} (h : sampleHasher.sha256 bytes = sampleHasher.sha256 letters) :
    bytes = letters := by
  by_cases ha : bytes = [0x61]
  · subst ha
    revert letters
    decide
  by_cases hb : bytes = [0x62]
  · subst hb
    revert letters
    decide
  by_cases hab : bytes = [0x61, 0x62]
  · subst hab
    revert letters
    decide
  · have hother : sampleHasher.sha256 bytes = List.replicate 32 0 := by
      show (if bytes = [0x61] then _ else _) = _
      rw [if_neg ha, if_neg hb, if_neg hab]
    have hne : ∀ letters ∈ ([[0x61], [0x62], [0x61, 0x62]] : List (List UInt8)),
        List.replicate 32 0 ≠ sampleHasher.sha256 letters := by decide
    exact absurd (hother.symm.trans h) (hne letters hletters)

theorem length_toList_hexEncode (bytes : List UInt8) :
    (hexEncode bytes).toList.length = 2 * bytes.length := by
  induction bytes with
  | nil => simp [hexEncode]
  | cons byte bytes ih =>
    rw [toList_hexEncode_cons]
    simp only [List.length_cons, ih]
    omega

theorem all_isAsciiHexdigit_hexEncode (bytes : List UInt8) :
    (hexEncode bytes).toList.all isAsciiHexdigit = true := by
  induction bytes with
  | nil => simp [hexEncode]
  | cons byte bytes ih =>
    obtain ⟨hhigh, hlow, -⟩ := byte_halves byte
    rw [toList_hexEncode_cons, List.all_cons, List.all_cons, ih, (hexDigit_hexChars hhigh).2.1,
      (hexDigit_hexChars hlow).2.1]
    rfl

namespace CheckpointStore

variable (store : CheckpointStore)

theorem validateDigest_sha256File (bytes : List UInt8) :
    validateDigest (store.sha256File bytes) = .ok () := by
  unfold validateDigest sha256File
  rw [length_toList_hexEncode, store.hasher.length_sha256, all_isAsciiHexdigit_hexEncode]
  rfl

/-! ### Blobs are added, never changed -/

/-- Every blob is what its name says. -/
def Addressed (disk : NodeDisk) : Prop :=
  ∀ digest file, disk.blobs digest = some file → store.sha256File file.bytes = digest

/-- The blobs of a disk are still there on another, and what is new there has its own name. -/
structure Grown (disk disk' : NodeDisk) : Prop where
  kept : ∀ digest file, disk.blobs digest = some file → disk'.blobs digest = some file
  named : ∀ digest file, disk'.blobs digest = some file →
    disk.blobs digest = some file ∨ store.sha256File file.bytes = digest

variable {store}

theorem Grown.of_eq {disk disk' : NodeDisk} (h : disk'.blobs = disk.blobs) :
    store.Grown disk disk' := by
  constructor
  · intro digest file hfile
    rw [h]
    exact hfile
  · intro digest file hfile
    rw [h] at hfile
    exact Or.inl hfile

theorem Grown.trans {first second third : NodeDisk} (h : store.Grown first second)
    (h' : store.Grown second third) : store.Grown first third where
  kept digest file hfile := h'.kept digest file (h.kept digest file hfile)
  named digest file hfile := by
    rcases h'.named digest file hfile with hsecond | hsha
    · exact h.named digest file hsecond
    · exact Or.inr hsha

theorem Grown.addressed {disk disk' : NodeDisk} (h : store.Grown disk disk')
    (haddressed : store.Addressed disk) : store.Addressed disk' := by
  intro digest file hfile
  rcases h.named digest file hfile with hold | hsha
  · exact haddressed digest file hold
  · exact hsha

theorem Grown.of_update {disk disk' : NodeDisk} {digest : String} {file : RegularFile}
    (hfree : disk.blobs digest = none) (hsha : store.sha256File file.bytes = digest)
    (h : disk'.blobs = Function.update disk.blobs digest (some file)) : store.Grown disk disk' := by
  constructor
  · intro other old hold
    have hne : other ≠ digest := by
      rintro rfl
      rw [hfree] at hold
      cases hold
    rw [h, Function.update_of_ne hne]
    exact hold
  · intro other new hnew
    rw [h] at hnew
    by_cases hother : other = digest
    · rw [hother, Function.update_self] at hnew
      rw [hother, ← Option.some.inj hnew]
      exact Or.inr hsha
    · rw [Function.update_of_ne hother] at hnew
      exact Or.inl hnew

variable (store)

theorem storeFile_grown (disk : NodeDisk) (source : RegularFile) (relative : String) :
    store.Grown disk (store.storeFile disk source relative).2 := by
  unfold storeFile
  split
  · exact .of_eq rfl
  · dsimp only
    split
    · exact .of_eq rfl
    · rename_i hfree
      exact .of_update (Option.not_isSome_iff_eq_none.mp hfree) rfl rfl

theorem walkFile_grown (source : RegularFile) (relative : List String) (walk : Walk) :
    store.Grown walk.disk (store.walkFile source relative walk).2.disk := by
  unfold walkFile
  split
  · exact .of_eq rfl
  · dsimp only
    split
    · exact .of_eq rfl
    · split
      · exact .of_eq rfl
      · have hstored := store.storeFile_grown walk.disk source (pathText relative)
        split
        · rename_i hstore
          rw [hstore] at hstored
          exact hstored
        · rename_i hstore
          rw [hstore] at hstored
          exact hstored

theorem walkWorkspace_grown (directory : Directory) (path : List String) (walk : Walk) :
    store.Grown walk.disk (store.walkWorkspace directory path walk).2.disk := by
  induction directory generalizing path walk with
  | nil => exact .of_eq rfl
  | file name source rest ih =>
    unfold walkWorkspace
    dsimp only
    split
    · exact ih path (exclude walk (path ++ [name]))
    · have hfile := store.walkFile_grown source (path ++ [name]) walk
      split
      · rename_i hwalk
        rw [hwalk] at hfile
        exact hfile
      · rename_i next hwalk
        rw [hwalk] at hfile
        exact hfile.trans (ih path next)
  | directory name inner rest ihInner ihRest =>
    unfold walkWorkspace
    dsimp only
    split
    · exact ihRest path (exclude walk (path ++ [name]))
    · have hinner := ihInner (path ++ [name]) walk
      split
      · rename_i hwalk
        rw [hwalk] at hinner
        exact hinner
      · rename_i next hwalk
        rw [hwalk] at hinner
        exact hinner.trans (ihRest path next)
  | symlink name rest ih => exact ih path (exclude walk (path ++ [name]))
  | other name rest ih => exact ih path (exclude walk (path ++ [name]))

theorem storeProviderState_grown (disk : NodeDisk) (providerFile : Option RegularFile) :
    store.Grown disk (store.storeProviderState disk providerFile).2 := by
  unfold storeProviderState
  split
  · exact .of_eq rfl
  · rename_i source
    have hstored := store.storeFile_grown disk source "provider/session.jsonl"
    split
    · rename_i hstore
      rw [hstore] at hstored
      exact hstored
    · rename_i hstore
      rw [hstore] at hstored
      exact hstored

theorem saveManifest_blobs {disk disk' : NodeDisk} {manifest : CheckpointManifest}
    (h : saveManifest disk manifest = .ok disk') : disk'.blobs = disk.blobs := by
  unfold saveManifest at h
  cases hvalid : validateManifest manifest with
  | error e =>
    rw [hvalid] at h
    cases h
  | ok =>
    rw [hvalid] at h
    cases h
    rfl

theorem prepare_grown (disk : NodeDisk) (now : Int) (params : CheckpointPrepareParams)
    (found : Prepared) : store.Grown disk (store.prepare disk now params found).2 := by
  unfold prepare
  have hwalk := store.walkWorkspace_grown found.workspace [] ⟨[], [], 0, disk⟩
  dsimp only
  split
  · rename_i walked hresult
    rw [hresult] at hwalk
    exact hwalk
  · rename_i walked hresult
    rw [hresult] at hwalk
    have hstate := store.storeProviderState_grown walked.disk
      (params.providerSessionId.bind fun _ => found.providerFile)
    generalize store.storeProviderState walked.disk
      (params.providerSessionId.bind fun _ => found.providerFile) = stored at hstate ⊢
    split
    · exact hwalk.trans hstate
    · rename_i saved hsave
      exact (hwalk.trans hstate).trans (.of_eq (show saved.blobs = _ from saveManifest_blobs hsave))

theorem putManifest_blobs (disk : NodeDisk) (now : Int) (manifest : CheckpointManifest) :
    (store.putManifest disk now manifest).2.blobs = disk.blobs := by
  unfold putManifest
  split
  · rfl
  · split
    · rfl
    · split
      · rfl
      · rename_i saved hsave
        show saved.blobs = _
        exact saveManifest_blobs hsave

theorem putBlob_grown (disk : NodeDisk) (params : BlobPutParams) :
    store.Grown disk (store.putBlob disk params).2 := by
  unfold putBlob
  split
  · exact .of_eq rfl
  split
  · exact .of_eq rfl
  split
  · exact .of_eq rfl
  split
  · exact .of_eq rfl
  rename_i hfree
  dsimp only
  split
  · exact .of_eq rfl
  split
  · exact .of_eq rfl
  split
  · exact .of_eq rfl
  · rename_i hsha
    exact .of_update (Option.not_isSome_iff_eq_none.mp hfree) (not_ne_iff.mp hsha) rfl

/-- The end of `stage` leaves the blobs, the manifests and the quarantines as they are. -/
theorem finishStage_keeps (disk : NodeDisk) (now : Int) (manifest : CheckpointManifest)
    (checkpointId : String) (home : ProviderKind × String) :
    (store.finishStage disk now manifest checkpointId home).2.blobs = disk.blobs ∧
    (store.finishStage disk now manifest checkpointId home).2.manifests = disk.manifests ∧
    (store.finishStage disk now manifest checkpointId home).2.restores = disk.restores := by
  have hactivate : (store.activateProviderState disk manifest home).2.blobs = disk.blobs ∧
      (store.activateProviderState disk manifest home).2.manifests = disk.manifests ∧
      (store.activateProviderState disk manifest home).2.restores = disk.restores := by
    obtain ⟨homes, heq⟩ := store.activateProviderState_touches disk manifest home
    rw [heq]
    exact ⟨rfl, rfl, rfl⟩
  unfold finishStage
  split
  · rename_i hresult
    rw [hresult] at hactivate
    exact hactivate
  · rename_i hresult
    rw [hresult] at hactivate
    split
    · exact hactivate
    · exact hactivate

theorem stage_keeps (disk : NodeDisk) (now : Int) (checkpointId : String)
    (home : ProviderKind × String) :
    (store.stage disk now checkpointId home).2.blobs = disk.blobs ∧
    (store.stage disk now checkpointId home).2.manifests = disk.manifests := by
  unfold stage
  split
  · exact ⟨rfl, rfl⟩
  · rename_i manifest hmanifest
    split
    · obtain ⟨homes, hactivate⟩ := store.activateProviderState_touches disk manifest home
      split
      · rename_i hresult
        rw [hresult] at hactivate
        rw [show _ = _ from hactivate]
        exact ⟨rfl, rfl⟩
      · rename_i hresult
        rw [hresult] at hactivate
        rw [show _ = _ from hactivate]
        exact ⟨rfl, rfl⟩
    · split
      · exact ⟨rfl, rfl⟩
      · split
        · exact ⟨rfl, rfl⟩
        · rename_i tree hrestore
          obtain ⟨hblobs, hmanifests, -⟩ := store.finishStage_keeps { disk with
            restores := Function.update disk.restores checkpointId (some tree) }
            now manifest checkpointId home
          exact ⟨hblobs, hmanifests⟩

theorem commit_blobs (disk : NodeDisk) (now : Int) (params : MoveCommitParams) :
    (commit disk now params).2.blobs = disk.blobs := by
  unfold commit
  repeat' first | rfl | split

theorem abort_blobs (disk : NodeDisk) (now : Int) (params : MoveAbortParams) :
    (abort disk now params).2.blobs = disk.blobs := by
  unfold abort
  repeat' first | rfl | split

end CheckpointStore

namespace NodeService

open CheckpointStore

variable (service : NodeService)

theorem dispatchAbort_blobs (disk : NodeDisk) (now : Int) (params : MoveAbortParams) :
    (service.dispatchAbort disk now params).2.blobs = disk.blobs := by
  have habort := abort_blobs disk now params
  unfold dispatchAbort
  split
  · rfl
  · rename_i manifest hmanifest
    split
    · rename_i hresult
      rw [hresult] at habort
      exact habort
    · rename_i movement aborted hresult
      rw [hresult] at habort
      split
      · exact habort
      · split
        · exact habort
        · rename_i provider hprofile
          obtain ⟨homes, hrollback⟩ := service.rollbackProviderState_touches aborted manifest
            (provider, manifest.profileId)
          split
          · rename_i hresult
            rw [hresult] at hrollback
            rw [show _ = _ from hrollback]
            exact habort
          · rename_i hresult
            rw [hresult] at hrollback
            rw [show _ = _ from hrollback]
            exact habort

/-- Whatever is asked of a node, its blobs only grow. -/
theorem dispatch_grown (disk : NodeDisk) (now : Int) (request : NodeRequest) :
    service.Grown disk (service.dispatch disk now request).2 := by
  cases request with
  | prepare params found =>
    show service.Grown disk (service.dispatchPrepare disk now params found).2
    unfold dispatchPrepare
    split
    · exact .of_eq rfl
    · split
      · exact .of_eq rfl
      · exact service.prepare_grown disk now params found
  | manifestPut manifest => exact .of_eq (service.putManifest_blobs disk now manifest)
  | blobHas digests => exact .of_eq rfl
  | blobRead params => exact .of_eq rfl
  | blobPut params => exact service.putBlob_grown disk params
  | stage checkpointId =>
    show service.Grown disk (service.dispatchStage disk now checkpointId).2
    unfold dispatchStage
    split
    · exact .of_eq rfl
    · split
      · exact .of_eq rfl
      · split
        · exact .of_eq rfl
        · exact .of_eq (service.stage_keeps disk now checkpointId _).1
  | commit params => exact .of_eq (commit_blobs disk now params)
  | abort params => exact .of_eq (service.dispatchAbort_blobs disk now params)

theorem addressed_run {disk : NodeDisk} (h : service.Addressed disk)
    (events : List (Int × NodeRequest)) : service.Addressed (Trace.run service.step disk events) := by
  induction events generalizing disk with
  | nil => exact h
  | cons event events ih => exact ih ((service.dispatch_grown disk event.1 event.2).addressed h)

theorem addressed_empty : service.Addressed .empty := nofun

end NodeService

/-! ### One chunk -/

namespace CheckpointStore

variable (store : CheckpointStore) {disk : NodeDisk} {digest : String} {offset : Nat}
  {bytes : List UInt8}

theorem putBlob_of_blob (hdigest : validateDigest digest = .ok ())
    (hlength : bytes.length ≤ maxChunkBytes) (hblob : (disk.blobs digest).isSome = true)
    (eof : Bool) : store.putBlob disk ⟨digest, offset, hexEncode bytes, eof⟩ = (.ok true, disk) := by
  unfold putBlob
  simp only [hdigest, hexDecode_hexEncode, hblob, if_true]
  rw [if_neg (by omega)]

/-- A chunk that does not go on where the partial upload ends is refused. -/
theorem putBlob_of_offset_ne (hdigest : validateDigest digest = .ok ())
    (hlength : bytes.length ≤ maxChunkBytes) (hblob : disk.blobs digest = none)
    (hoffset : (bytesOf (disk.partials digest)).length ≠ offset) (eof : Bool) :
    ∃ e, store.putBlob disk ⟨digest, offset, hexEncode bytes, eof⟩ = (.error e, disk) := by
  unfold putBlob
  simp only [hdigest, hexDecode_hexEncode, hblob]
  rw [if_neg (by omega), if_neg (by simp), if_pos hoffset]
  exact ⟨_, rfl⟩

theorem putBlob_of_more (hdigest : validateDigest digest = .ok ())
    (hlength : bytes.length ≤ maxChunkBytes) (hblob : disk.blobs digest = none)
    (hoffset : (bytesOf (disk.partials digest)).length = offset) :
    ∃ file : RegularFile, file.bytes = bytesOf (disk.partials digest) ++ bytes ∧
      store.putBlob disk ⟨digest, offset, hexEncode bytes, false⟩
        = (.ok false, { disk with partials := Function.update disk.partials digest (some file) }) := by
  unfold putBlob
  simp only [hdigest, hexDecode_hexEncode, hblob]
  rw [if_neg (by omega), if_neg (by simp), if_neg (not_not_intro hoffset)]
  exact ⟨_, rfl, rfl⟩

theorem putBlob_of_last (hdigest : validateDigest digest = .ok ())
    (hlength : bytes.length ≤ maxChunkBytes) (hblob : disk.blobs digest = none)
    (hoffset : (bytesOf (disk.partials digest)).length = offset)
    (hsha : store.sha256File (bytesOf (disk.partials digest) ++ bytes) = digest) :
    ∃ file : RegularFile, file.bytes = bytesOf (disk.partials digest) ++ bytes ∧
      (store.putBlob disk ⟨digest, offset, hexEncode bytes, true⟩).1 = .ok true ∧
      (store.putBlob disk ⟨digest, offset, hexEncode bytes, true⟩).2.blobs digest = some file := by
  unfold putBlob
  simp only [hdigest, hexDecode_hexEncode, hblob]
  rw [if_neg (by omega), if_neg (by simp), if_neg (not_not_intro hoffset), if_neg (by simp),
    if_neg (not_not_intro hsha)]
  exact ⟨_, rfl, rfl, Function.update_self _ _ _⟩

end CheckpointStore

end Homie.Node

namespace Homie.Client

open Homie.Node CheckpointStore

/-! ### A whole transfer -/

/-- The bytes a transfer reads at an offset. -/
def chunkAt (bytes : List UInt8) (offset : Nat) : List UInt8 :=
  (bytes.drop offset).take chunkBytes

section

variable (store : CheckpointStore) {source target : NodeDisk} {file : RegularFile} {offset : Nat}

theorem length_chunkAt (bytes : List UInt8) (offset : Nat) :
    (chunkAt bytes offset).length = min chunkBytes (bytes.length - offset) := by
  unfold chunkAt
  rw [List.length_take, List.length_drop]

theorem length_chunkAt_le (bytes : List UInt8) (offset : Nat) :
    (chunkAt bytes offset).length ≤ maxChunkBytes := by
  rw [length_chunkAt]
  exact (Nat.min_le_left _ _).trans (by decide)

theorem readBlob_of_blob {digest : String} (hdigest : validateDigest digest = .ok ())
    (hfile : source.blobs digest = some file) (hoffset : offset ≤ file.bytes.length) :
    readBlob source ⟨digest, offset, chunkBytes⟩
      = .ok ⟨digest, offset, hexEncode (chunkAt file.bytes offset),
          offset + (chunkAt file.bytes offset).length = file.bytes.length⟩ := by
  have hcount : (chunkAt file.bytes offset).length
      = min chunkBytes (file.bytes.length - offset) := length_chunkAt _ _
  have htake : (file.bytes.drop offset).take (min chunkBytes (file.bytes.length - offset))
      = chunkAt file.bytes offset := by
    unfold chunkAt
    rw [← List.length_drop, List.take_eq_take_min, Nat.min_assoc, Nat.min_self,
      ← List.take_eq_take_min]
  unfold readBlob
  simp only [hdigest, hfile]
  show (if offset > file.bytes.length then _ else _) = _
  rw [if_neg (by omega), show (if chunkBytes = 0 then defaultChunkBytes
    else min chunkBytes maxChunkBytes) = chunkBytes from rfl, htake, hcount]

theorem transferBlob_turn {digest : String} (hdigest : validateDigest digest = .ok ())
    (hfile : source.blobs digest = some file) (hoffset : offset ≤ file.bytes.length) (fuel : Nat) :
    transferBlob store source digest (fuel + 1) offset target =
      match store.putBlob target ⟨digest, offset, hexEncode (chunkAt file.bytes offset),
        offset + (chunkAt file.bytes offset).length = file.bytes.length⟩ with
      | (.error e, target) => some (.refused e, target)
      | (.ok complete, target) =>
        if offset + (chunkAt file.bytes offset).length = file.bytes.length then
          some (if complete then .finished else .unfinalized, target)
        else
          transferBlob store source digest fuel
            (offset + (chunkAt file.bytes offset).length) target := by
  rw [transferBlob]
  have hhalf : 2 * (chunkAt file.bytes offset).length / 2 = (chunkAt file.bytes offset).length :=
    Nat.mul_div_cancel_left _ (by decide)
  simp only [readBlob_of_blob hdigest hfile hoffset, utf8ByteSize_hexEncode, decide_eq_true_eq,
    hhalf]
  -- what is left, if anything, is the same `match` under another name
  all_goals rfl

/-- Unless it was the last, a turn goes on further into the blob. -/
theorem chunkAt_progress {bytes : List UInt8} (hoffset : offset ≤ bytes.length)
    (hmore : offset + (chunkAt bytes offset).length ≠ bytes.length) :
    offset + (chunkAt bytes offset).length < bytes.length ∧ 0 < (chunkAt bytes offset).length := by
  rw [length_chunkAt] at hmore ⊢
  have hchunk : 0 < chunkBytes := by decide
  omega

theorem transferBlob_of_blob {digest : String} (hdigest : validateDigest digest = .ok ())
    (hfile : source.blobs digest = some file) (hblob : (target.blobs digest).isSome = true)
    (left : Nat) (offset : Nat) (hoffset : offset ≤ file.bytes.length)
    (hleft : file.bytes.length - offset < left) :
    ∃ fuel, transferBlob store source digest fuel offset target = some (.finished, target) := by
  induction left generalizing offset with
  | zero => exact absurd hleft (Nat.not_lt_zero _)
  | succ left ih =>
    have hput : ∀ eof, store.putBlob target
        ⟨digest, offset, hexEncode (chunkAt file.bytes offset), eof⟩ = (.ok true, target) :=
      store.putBlob_of_blob hdigest (length_chunkAt_le _ _) hblob
    by_cases hlast : offset + (chunkAt file.bytes offset).length = file.bytes.length
    · refine ⟨1, ?_⟩
      rw [transferBlob_turn store hdigest hfile hoffset, hput]
      simp only [if_pos hlast, if_true]
    · obtain ⟨hlt, hpos⟩ := chunkAt_progress hoffset hlast
      obtain ⟨fuel, hrest⟩ := ih (offset + (chunkAt file.bytes offset).length) hlt.le (by omega)
      refine ⟨fuel + 1, ?_⟩
      rw [transferBlob_turn store hdigest hfile hoffset, hput]
      simp only [if_neg hlast, hrest]

theorem take_append_chunkAt (bytes : List UInt8) (offset : Nat) :
    bytes.take offset ++ chunkAt bytes offset
      = bytes.take (offset + (chunkAt bytes offset).length) := by
  have htake : chunkAt bytes offset = (bytes.drop offset).take (chunkAt bytes offset).length := by
    unfold chunkAt
    rw [List.length_take, ← List.take_eq_take_min]
  conv_lhs => rw [htake]
  rw [List.take_add]

theorem transferBlob_of_partial {digest : String} (hdigest : validateDigest digest = .ok ())
    (hfile : source.blobs digest = some file) (hsha : store.sha256File file.bytes = digest)
    (left : Nat) (offset : Nat) (target : NodeDisk) (hoffset : offset ≤ file.bytes.length)
    (hleft : file.bytes.length - offset < left) (hblob : target.blobs digest = none)
    (hpart : bytesOf (target.partials digest) = file.bytes.take offset) :
    ∃ fuel target' blob, transferBlob store source digest fuel offset target
        = some (.finished, target') ∧
      target'.blobs digest = some blob ∧ blob.bytes = file.bytes := by
  induction left generalizing offset target with
  | zero => exact absurd hleft (Nat.not_lt_zero _)
  | succ left ih =>
    have hlength : (bytesOf (target.partials digest)).length = offset := by
      rw [hpart, List.length_take]
      omega
    have happend : bytesOf (target.partials digest) ++ chunkAt file.bytes offset
        = file.bytes.take (offset + (chunkAt file.bytes offset).length) := by
      rw [hpart, take_append_chunkAt]
    by_cases hlast : offset + (chunkAt file.bytes offset).length = file.bytes.length
    · rw [hlast, List.take_length] at happend
      obtain ⟨blob, hbytes, hresult, hput⟩ := store.putBlob_of_last hdigest
        (length_chunkAt_le _ _) hblob hlength (hsha ▸ congrArg store.sha256File happend)
      refine ⟨1, _, blob, ?_, hput, hbytes.trans happend⟩
      rw [transferBlob_turn store hdigest hfile hoffset, decide_eq_true hlast,
        ← Prod.mk.eta (p := store.putBlob target _), hresult]
      simp only [if_pos hlast, if_true]
    · obtain ⟨hlt, hpos⟩ := chunkAt_progress hoffset hlast
      obtain ⟨next, hbytes, hput⟩ := store.putBlob_of_more hdigest
        (length_chunkAt_le file.bytes offset) hblob hlength
      have hnext : bytesOf (Function.update target.partials digest (some next) digest)
          = file.bytes.take (offset + (chunkAt file.bytes offset).length) := by
        rw [Function.update_self]
        exact hbytes.trans happend
      obtain ⟨fuel, target', blob, hrest, hblob'⟩ := ih
        (offset + (chunkAt file.bytes offset).length)
        { target with partials := Function.update target.partials digest (some next) }
        hlt.le (by omega) hblob hnext
      refine ⟨fuel + 1, target', blob, ?_, hblob'⟩
      rw [transferBlob_turn store hdigest hfile hoffset, decide_eq_false hlast, hput]
      simp only [if_neg hlast, hrest]

theorem transferBlob_refused {digest : String} (hdigest : validateDigest digest = .ok ())
    (hfile : source.blobs digest = some file) (hblob : target.blobs digest = none)
    (hpart : bytesOf (target.partials digest) ≠ []) (fuel : Nat) (target' : NodeDisk) :
    transferBlob store source digest fuel 0 target ≠ some (.finished, target') := by
  cases fuel with
  | zero => exact nofun
  | succ fuel =>
    obtain ⟨e, hput⟩ := store.putBlob_of_offset_ne hdigest (length_chunkAt_le file.bytes 0) hblob
      (fun hzero => hpart (List.length_eq_zero_iff.mp hzero))
      (0 + (chunkAt file.bytes 0).length = file.bytes.length)
    rw [transferBlob_turn store hdigest hfile (Nat.zero_le _), hput]
    exact nofun

end

/--
**A transfer gets through exactly when the target has the whole blob or nothing of it.**  After
any history of requests the target has handled, the transfer of bytes that no others share
the digest with ends with exactly these bytes at the target, if and only if the blob is
there or its partial upload is missing or empty.
-/
theorem transfer_after_any_history (service : NodeService) (source : NodeDisk)
    (file : RegularFile)
    (hsource : source.blobs (service.sha256File file.bytes) = some file)
    (hcollision : ∀ bytes, service.sha256File bytes = service.sha256File file.bytes →
      bytes = file.bytes)
    (history : List (Int × NodeRequest)) :
    (∃ fuel target blob,
      transferBlob service.toCheckpointStore source (service.sha256File file.bytes) fuel 0
        (Trace.run service.step .empty history) = some (.finished, target) ∧
      target.blobs (service.sha256File file.bytes) = some blob ∧ blob.bytes = file.bytes) ↔
    ((Trace.run service.step .empty history).blobs (service.sha256File file.bytes)).isSome = true ∨
      bytesOf ((Trace.run service.step .empty history).partials (service.sha256File file.bytes))
        = [] := by
  have haddressed := service.addressed_run service.addressed_empty history
  generalize Trace.run service.step .empty history = target at haddressed ⊢
  have hdigest := service.validateDigest_sha256File file.bytes
  constructor
  · rintro ⟨fuel, target', blob, htransfer, -⟩
    by_contra hpoisoned
    obtain ⟨hblob, hpart⟩ := not_or.mp hpoisoned
    exact transferBlob_refused _ hdigest hsource (Option.not_isSome_iff_eq_none.mp hblob) hpart
      fuel target' htransfer
  · intro hclear
    by_cases hblob : (target.blobs (service.sha256File file.bytes)).isSome = true
    · obtain ⟨fuel, htransfer⟩ := transferBlob_of_blob service.toCheckpointStore hdigest hsource
        hblob (file.bytes.length + 1) 0 (Nat.zero_le _) (by omega)
      obtain ⟨blob, hblob⟩ := Option.isSome_iff_exists.mp hblob
      exact ⟨fuel, target, blob, htransfer, hblob, hcollision _ (haddressed _ _ hblob)⟩
    · exact transferBlob_of_partial _ hdigest hsource rfl (file.bytes.length + 1) 0 target
        (Nat.zero_le _) (by omega) (Option.not_isSome_iff_eq_none.mp hblob)
        (hclear.resolve_left hblob)

/-- A file with the two letters. -/
def sampleFile : RegularFile := ⟨[0x61, 0x62], 0o644⟩

/-- A source that has it. -/
def sampleSource : NodeDisk := (sampleService.storeFile .empty sampleFile "notes").2

/-- An upload in two chunks leaves the blob, and a transfer after it goes through. -/
theorem transfer_after_upload :
    ∃ fuel target blob,
      transferBlob sampleService.toCheckpointStore sampleSource
        (sampleService.sha256File sampleFile.bytes) fuel 0
        (Trace.run sampleService.step .empty
          [(1, .blobPut ⟨sampleService.sha256File sampleFile.bytes, 0, "61", false⟩),
            (2, .blobPut ⟨sampleService.sha256File sampleFile.bytes, 1, "62", true⟩)])
        = some (.finished, target) ∧
      target.blobs (sampleService.sha256File sampleFile.bytes) = some blob ∧
      blob.bytes = sampleFile.bytes := by
  refine (transfer_after_any_history sampleService sampleSource sampleFile ?_ ?_ _).mpr
    (Or.inl ?_)
  · decide
  · exact fun bytes hsha => sampleHasher_inj (by decide) (hexEncode_inj hsha)
  · decide

/--
**What a failed upload leaves behind refuses the transfer.**  The first upload breaks off after
one letter, or ends with the wrong one; either way no later transfer of the blob finishes.
-/
theorem failed_upload_poisons :
    ¬ ∃ chunk ∈ [("61", false), ("62", true)], ∃ fuel target,
      transferBlob sampleService.toCheckpointStore sampleSource
        (sampleService.sha256File sampleFile.bytes) fuel 0
        (Trace.run sampleService.step .empty
          [(1, .blobPut ⟨sampleService.sha256File sampleFile.bytes, 0, chunk.1, chunk.2⟩)])
        = some (.finished, target) := by
  rintro ⟨chunk, hchunk, fuel, target, hfinished⟩
  have hsource : sampleSource.blobs (sampleService.sha256File sampleFile.bytes)
      = some sampleFile := by decide
  have hleft : ∀ chunk ∈ [("61", false), ("62", true)],
      (Trace.run sampleService.step .empty
        [(1, .blobPut ⟨sampleService.sha256File sampleFile.bytes, 0, chunk.1, chunk.2⟩)]).blobs
          (sampleService.sha256File sampleFile.bytes) = none ∧
      bytesOf ((Trace.run sampleService.step .empty
        [(1, .blobPut ⟨sampleService.sha256File sampleFile.bytes, 0, chunk.1, chunk.2⟩)]).partials
          (sampleService.sha256File sampleFile.bytes)) ≠ [] := by decide
  obtain ⟨hblob, hpart⟩ := hleft chunk hchunk
  exact transferBlob_refused _ (sampleService.validateDigest_sha256File _) hsource hblob hpart
    fuel target hfinished

end Homie.Client
