/-
Uploads beside one another, and when the blobs stay what their names say.

A call alone is `putBlob`.  Beside others it hashes and renames by name what others append
to through handles.  Two things must not happen: that something is put behind the
partial upload of a digest, or appended to it, while another call has hashed it and not yet
renamed it; and that a call appends to a file that has become a blob.  As long as they do
not, every blob has its own digest in every state.
-/
import Homie.Node.Service

namespace Homie.Node

/-! ### A call alone -/

namespace CheckpointStore

variable (store : CheckpointStore)

end CheckpointStore

/-! ### What a turn can do -/

namespace CheckpointStore

/-- Everything a call can do in its turn. -/
inductive Turned (store : CheckpointStore) (files : BlobFiles) (upload : Upload) :
    UploadStage → BlobFiles → Prop
  | quiet (stage : UploadStage) (hfinishing : stage ≠ .finishing)
      (hwriting : ∀ bytes handle, stage ≠ .writing bytes handle) :
      Turned store files upload stage files
  | opened (bytes : List UInt8) (handle : Nat) (hstage : upload.stage = .opening bytes)
      (hlink : files.link (.partialUpload upload.params.digest) = some handle) :
      Turned store files upload (.writing bytes handle) files
  | created (bytes : List UInt8) (hstage : upload.stage = .opening bytes)
      (hlink : files.link (.partialUpload upload.params.digest) = none) :
      Turned store files upload (.writing bytes files.next)
        (files.create (.partialUpload upload.params.digest) ⟨[], 0o600⟩)
  | appended (bytes : List UInt8) (handle : Nat) (stage : UploadStage)
      (hstage : upload.stage = .writing bytes handle) (hfinishing : stage ≠ .finishing)
      (hwriting : ∀ bytes handle, stage ≠ .writing bytes handle) :
      Turned store files upload stage (files.modify handle (RegularFile.append bytes))
  | hashed (file : RegularFile)
      (hread : files.read (.partialUpload upload.params.digest) = some file)
      (hsha : store.sha256File file.bytes = upload.params.digest) :
      Turned store files upload .finishing files
  | renamed (hstage : upload.stage = .finishing) :
      Turned store files upload (.returned (.ok true))
        (files.rename (.partialUpload upload.params.digest) (.blob upload.params.digest))

theorem advance_turned (store : CheckpointStore) (files : BlobFiles) (upload : Upload) :
    Turned store files upload (store.advance files upload.params upload.stage).1
      (store.advance files upload.params upload.stage).2 := by
  cases hstage : upload.stage with
  | checking =>
    simp only [advance]
    repeat' first | exact .quiet _ nofun nofun | split
  | measuring bytes =>
    simp only [advance]
    split
    · exact .quiet _ nofun nofun
    · exact .quiet _ nofun nofun
  | opening bytes =>
    simp only [advance]
    split
    · rename_i handle hlink
      exact .opened bytes handle hstage hlink
    · rename_i hlink
      exact .created bytes hstage hlink
  | writing bytes handle =>
    simp only [advance]
    split
    · exact .appended bytes handle _ hstage nofun nofun
    · exact .appended bytes handle _ hstage nofun nofun
  | hashing =>
    simp only [advance]
    split
    · exact .quiet _ nofun nofun
    · rename_i file hread
      split
      · exact .quiet _ nofun nofun
      · rename_i hsha
        exact .hashed file hread (not_ne_iff.mp hsha)
  | finishing =>
    simp only [advance]
    split
    · exact .quiet _ nofun nofun
    · exact .renamed hstage
  | returned result => exact .quiet _ nofun nofun

end CheckpointStore

/-! ### Calls beside one another -/

theorem RegularFile.append_nil : RegularFile.append [] = id := by
  funext file
  show RegularFile.mk (file.bytes ++ []) file.mode = file
  rw [List.append_nil]

namespace UploadSystem

variable (store : CheckpointStore)

/-- Some call has hashed the partial upload of a digest and is about to rename it. -/
def Hashed (s : UploadSystem) (digest : String) : Prop :=
  ∃ upload ∈ s.uploads, upload.params.digest = digest ∧ upload.stage = .finishing

/--
A turn that leaves alone what another call has hashed, and what has become a blob: no partial
upload is created or appended to between a hash and a rename of the same digest, and
nothing is appended to a blob.
-/
def Orderly (s : UploadSystem) (upload : Upload) : Prop :=
  match upload.stage with
  | .opening _ =>
    s.files.link (.partialUpload upload.params.digest) = none →
      ¬ s.Hashed upload.params.digest
  | .writing bytes handle =>
    bytes ≠ [] → (∀ digest, s.files.link (.blob digest) ≠ some handle) ∧
      (s.files.link (.partialUpload upload.params.digest) = some handle →
        ¬ s.Hashed upload.params.digest)
  | _ => True

/-- A step whose turn, if it is one, is orderly. -/
def OrderlyStep (x : Trace.Step UploadSystem UploadEvent Unit) : Prop :=
  ∀ index upload, x.event = .turn index → x.before.uploads[index]? = some upload →
    x.before.Orderly upload

/-- What a stage promises about the files. -/
structure Upload.Fits (files : BlobFiles) (upload : Upload) : Prop where
  hashed : upload.stage = .finishing → ∀ file,
    files.read (.partialUpload upload.params.digest) = some file →
      store.sha256File file.bytes = upload.params.digest
  handle : ∀ bytes handle, upload.stage = .writing bytes handle → handle < files.next ∧
    ∀ name, files.link name = some handle →
      name = .partialUpload upload.params.digest ∨ name = .blob upload.params.digest

/-- Every blob has its own digest. -/
def AddressedFiles (files : BlobFiles) : Prop :=
  ∀ digest file, files.read (.blob digest) = some file → store.sha256File file.bytes = digest

structure Sound (s : UploadSystem) : Prop where
  blobs : AddressedFiles store s.files
  uploads : ∀ upload ∈ s.uploads, Upload.Fits store s.files upload

variable {store} {s : UploadSystem} {upload : Upload}

theorem Upload.Fits.of_stage {files : BlobFiles} (hfinishing : upload.stage ≠ .finishing)
    (hwriting : ∀ bytes handle, upload.stage ≠ .writing bytes handle) :
    Upload.Fits store files upload where
  hashed h := absurd h hfinishing
  handle bytes handle h := absurd h (hwriting bytes handle)

theorem sound_turn {index : Nat} {files : BlobFiles} {stage : UploadStage}
    (hblobs : AddressedFiles store files)
    (hothers : ∀ other ∈ s.uploads, Upload.Fits store files other)
    (hown : Upload.Fits store files { upload with stage }) :
    Sound store ⟨files, s.uploads.set index { upload with stage }⟩ where
  blobs := hblobs
  uploads other hother := by
    rcases List.mem_or_eq_of_mem_set hother with hold | rfl
    · exact hothers other hold
    · exact hown

/-- A new partial upload disturbs no call, when none has hashed the one before it. -/
theorem Sound.create (h : Sound store s) {digest : String} {file : RegularFile}
    (hhashed : ¬ s.Hashed digest) :
    AddressedFiles store (s.files.create (.partialUpload digest) file) ∧
    ∀ other ∈ s.uploads,
      Upload.Fits store (s.files.create (.partialUpload digest) file) other := by
  constructor
  · intro name blob hblob
    rw [Inodes.read_create, if_neg nofun] at hblob
    exact h.blobs name blob hblob
  · intro other hother
    constructor
    · intro hfinishing found hfound
      have hne : other.params.digest ≠ digest := fun heq => hhashed ⟨other, hother, heq, hfinishing⟩
      rw [Inodes.read_create, if_neg (fun heq => hne (BlobName.partialUpload.inj heq))] at hfound
      exact (h.uploads other hother).hashed hfinishing found hfound
    · intro bytes handle hwriting
      obtain ⟨hlt, hnames⟩ := (h.uploads other hother).handle bytes handle hwriting
      refine ⟨Nat.lt_succ_of_lt hlt, fun name hname => ?_⟩
      rw [Inodes.link_create] at hname
      split at hname
      · exact absurd (Option.some.inj hname) (Nat.ne_of_gt hlt)
      · exact hnames name hname

/-- Appending disturbs no call and no blob, when the handle leads to neither. -/
theorem Sound.modify (h : Sound store s) {digest : String} {bytes : List UInt8} {handle : Nat}
    (hnames : ∀ name, s.files.link name = some handle →
      name = .partialUpload digest ∨ name = .blob digest)
    (horderly : bytes ≠ [] → (∀ digest, s.files.link (.blob digest) ≠ some handle) ∧
      (s.files.link (.partialUpload digest) = some handle → ¬ s.Hashed digest)) :
    AddressedFiles store (s.files.modify handle (RegularFile.append bytes)) ∧
    ∀ other ∈ s.uploads,
      Upload.Fits store (s.files.modify handle (RegularFile.append bytes)) other := by
  -- A name that is not the handle's, or no bytes: nothing changes under the name.
  have hsame : ∀ name, (bytes ≠ [] → s.files.link name ≠ some handle) →
      (s.files.modify handle (RegularFile.append bytes)).read name = s.files.read name := by
    intro name hname
    rw [Inodes.read_modify]
    split
    · rename_i hlink
      have hnil : bytes = [] := by
        by_contra hbytes
        exact hname hbytes hlink
      rw [hnil, RegularFile.append_nil, Option.map_id]
      rfl
    · rfl
  constructor
  · intro name blob hblob
    rw [hsame _ fun hbytes => (horderly hbytes).1 name] at hblob
    exact h.blobs name blob hblob
  · intro other hother
    constructor
    · intro hfinishing found hfound
      rw [hsame] at hfound
      · exact (h.uploads other hother).hashed hfinishing found hfound
      · intro hbytes hlink
        rcases hnames _ hlink with heq | heq
        · rw [heq] at hlink
          exact (horderly hbytes).2 hlink
            ⟨other, hother, BlobName.partialUpload.inj heq, hfinishing⟩
        · cases heq
    · exact (h.uploads other hother).handle

/-- Renaming what was hashed disturbs no call, and makes a blob with its own digest. -/
theorem Sound.rename (h : Sound store s) {digest : String}
    (hsha : ∀ file, s.files.read (.partialUpload digest) = some file →
      store.sha256File file.bytes = digest) :
    AddressedFiles store (s.files.rename (.partialUpload digest) (.blob digest)) ∧
    ∀ other ∈ s.uploads,
      Upload.Fits store (s.files.rename (.partialUpload digest) (.blob digest)) other := by
  constructor
  · intro name blob hblob
    rw [Inodes.read_rename, if_neg nofun] at hblob
    split at hblob
    · rename_i heq
      rw [BlobName.blob.inj heq]
      exact hsha blob hblob
    · exact h.blobs name blob hblob
  · intro other hother
    constructor
    · intro hfinishing found hfound
      rw [Inodes.read_rename] at hfound
      split at hfound
      · cases hfound
      · rw [if_neg nofun] at hfound
        exact (h.uploads other hother).hashed hfinishing found hfound
    · intro bytes handle hwriting
      obtain ⟨hlt, hnames⟩ := (h.uploads other hother).handle bytes handle hwriting
      refine ⟨hlt, fun name hname => ?_⟩
      rw [Inodes.link_rename] at hname
      split at hname
      · cases hname
      · split at hname
        · rename_i hblob
          rcases hnames _ hname with heq | heq
          · rw [hblob, BlobName.partialUpload.inj heq]
            exact Or.inr rfl
          · cases heq
        · exact hnames name hname

theorem Sound.advance (h : Sound store s) (hupload : upload ∈ s.uploads)
    (horderly : s.Orderly upload) (index : Nat) {stage : UploadStage} {files : BlobFiles}
    (hturned : CheckpointStore.Turned store s.files upload stage files) :
    Sound store ⟨files, s.uploads.set index { upload with stage }⟩ := by
  have hfits := h.uploads upload hupload
  unfold Orderly at horderly
  cases hturned with
  | quiet _ hfinishing hwriting =>
    exact sound_turn h.blobs h.uploads (.of_stage hfinishing hwriting)
  | opened bytes handle hstage hlink =>
    refine sound_turn h.blobs h.uploads ⟨nofun, ?_⟩
    intro bytes' handle' heq
    cases heq
    exact ⟨s.files.link_lt _ _ hlink,
      fun name hname => Or.inl (s.files.link_inj _ _ _ hname hlink)⟩
  | created bytes hstage hlink =>
    rw [hstage] at horderly
    obtain ⟨hblobs, hothers⟩ := h.create (horderly hlink)
    refine sound_turn hblobs hothers ⟨nofun, ?_⟩
    intro bytes' handle' heq
    cases heq
    refine ⟨Nat.lt_succ_self _, fun name hname => Or.inl ?_⟩
    exact Inodes.link_inj _ _ _ _ hname ((Inodes.link_create ..).trans (if_pos rfl))
  | appended bytes handle _ hstage hfinishing hwriting =>
    rw [hstage] at horderly
    obtain ⟨hblobs, hothers⟩ := h.modify (hfits.handle bytes handle hstage).2 horderly
    exact sound_turn hblobs hothers (.of_stage hfinishing hwriting)
  | hashed file hread hsha =>
    refine sound_turn h.blobs h.uploads ⟨fun _ found hfound => ?_, nofun⟩
    rw [← Option.some.inj (hread.symm.trans hfound)]
    exact hsha
  | renamed hstage =>
    obtain ⟨hblobs, hothers⟩ := h.rename (hfits.hashed hstage)
    exact sound_turn hblobs hothers (.of_stage nofun nofun)

theorem Sound.step (h : Sound store s) (event : UploadEvent)
    (horderly : OrderlyStep (Trace.take (UploadSystem.step store) s event)) :
    Sound store (UploadSystem.step store s event).1 := by
  cases event with
  | call params =>
    refine ⟨h.blobs, fun upload hupload => ?_⟩
    rcases List.mem_append.mp hupload with hold | hnew
    · exact h.uploads upload hold
    · rw [List.mem_singleton.mp hnew]
      exact .of_stage nofun nofun
  | turn index =>
    cases hget : s.uploads[index]? with
    | none =>
      simp only [UploadSystem.step, hget]
      exact h
    | some upload =>
      simp only [UploadSystem.step, hget]
      exact h.advance (List.mem_of_getElem? hget) (horderly index upload rfl hget) index
        (store.advance_turned s.files upload)

/-- Blobs that were there, and no calls. -/
def start (files : BlobFiles) : UploadSystem := ⟨files, []⟩

/--
**Every blob is what its name says, as long as every turn is orderly.**  However any number of
calls for any digests and offsets take their turns.
-/
theorem uploads_content_addressed (store : CheckpointStore) (files : BlobFiles)
    (hfiles : AddressedFiles store files) (events : List UploadEvent)
    (horderly : ∀ x ∈ Trace.trace (UploadSystem.step store) (start files) events, OrderlyStep x) :
    AddressedFiles store (Trace.run (UploadSystem.step store) (start files) events).files := by
  suffices hsound : (∀ x ∈ Trace.trace (UploadSystem.step store) (start files) events,
      OrderlyStep x) → Sound store (Trace.run (UploadSystem.step store) (start files) events) from
    (hsound horderly).blobs
  refine Trace.trace_invariant (UploadSystem.step store)
    (P := fun history s => (∀ x ∈ history, OrderlyStep x) → Sound store s)
    (fun _ => ⟨hfiles, fun _ hupload => absurd hupload List.not_mem_nil⟩) ?_ events
  intro history s' event ih hall
  exact (ih fun x hx => hall x (List.mem_append_left _ hx)).step event
    (hall _ (List.mem_append_right _ (List.mem_singleton_self _)))

/-- One letter, uploaded whole. -/
def sampleUpload : BlobPutParams := ⟨sampleService.sha256File [0x61], 0, "61", true⟩

/-- The first call has all its turns between two turns of the second, which makes the blob anew. -/
def overlapping : List UploadEvent :=
  [.call sampleUpload, .call sampleUpload, .turn 1, .turn 0, .turn 0, .turn 0, .turn 0, .turn 0,
    .turn 0, .turn 1, .turn 1, .turn 1, .turn 1, .turn 1]

/-- Whether some call is about to rename. -/
def finishing (s : UploadSystem) : Bool :=
  s.uploads.any fun other =>
    match other.stage with
    | .finishing => true
    | _ => false

/-- Whether a call is about to open or to write while another is about to rename. -/
def disturbs (s : UploadSystem) (upload : Upload) : Bool :=
  match upload.stage with
  | .opening _ => s.finishing
  | .writing _ handle =>
    s.files.link (.partialUpload upload.params.digest) != some handle || s.finishing
  | _ => false

theorem not_hashed_of_finishing (h : s.finishing = false) (digest : String) :
    ¬ s.Hashed digest := by
  rintro ⟨other, hother, -, hfinishing⟩
  have hfalse := List.any_eq_false.mp h other hother
  rw [hfinishing] at hfalse
  exact hfalse rfl

theorem orderly_of_not_disturbs (h : s.disturbs upload = false) : s.Orderly upload := by
  unfold disturbs at h
  unfold Orderly
  cases hstage : upload.stage with
  | opening bytes =>
    rw [hstage] at h
    exact fun _ => not_hashed_of_finishing h _
  | writing bytes handle =>
    rw [hstage] at h
    obtain ⟨hlink, hfinishing⟩ := Bool.or_eq_false_iff.mp h
    have hlink := bne_eq_false_iff_eq.mp hlink
    refine fun _ => ⟨fun digest hblob => ?_, fun _ => not_hashed_of_finishing hfinishing _⟩
    cases s.files.link_inj _ _ _ hblob hlink
  | _ => trivial

theorem addressedFiles_empty (store : CheckpointStore) (filler : RegularFile) :
    AddressedFiles store (.empty filler) := by
  intro digest file hfile
  cases hfile

theorem uploads_content_addressed_overlapping :
    ((Trace.run (UploadSystem.step sampleService.toCheckpointStore) (start (.empty ⟨[], 0⟩))
      overlapping).files.read (.blob sampleUpload.digest)).map RegularFile.bytes = some [0x61] ∧
    AddressedFiles sampleService.toCheckpointStore
      (Trace.run (UploadSystem.step sampleService.toCheckpointStore) (start (.empty ⟨[], 0⟩))
        overlapping).files := by
  have hcheck : (Trace.trace (UploadSystem.step sampleService.toCheckpointStore)
      (start (.empty ⟨[], 0⟩)) overlapping).all (fun x =>
        match x.event with
        | .turn index => (x.before.uploads[index]?).all fun upload => !x.before.disturbs upload
        | .call _ => true) = true := by decide
  refine ⟨by decide, uploads_content_addressed _ _ (addressedFiles_empty _ _)
    overlapping ?_⟩
  intro x hx index upload hevent hget
  have hturn := List.all_eq_true.mp hcheck x hx
  simp only [hevent, hget, Option.all_some] at hturn
  exact orderly_of_not_disturbs (by simpa using hturn)

/--
**An append between a hash and a rename makes a blob of something else.**  Two calls measure
the partial upload before either has opened it; the second appends its letter when the
first has hashed the file.
-/
theorem append_before_rename_corrupts :
    ¬ AddressedFiles sampleService.toCheckpointStore
      (Trace.run (UploadSystem.step sampleService.toCheckpointStore) (start (.empty ⟨[], 0⟩))
        [.call sampleUpload, .call { sampleUpload with hex := "62", eof := false },
          .turn 0, .turn 0, .turn 1, .turn 1, .turn 0, .turn 0, .turn 1, .turn 0, .turn 1,
          .turn 0]).files := by
  intro haddressed
  have hread : (Trace.run (UploadSystem.step sampleService.toCheckpointStore)
      (start (.empty ⟨[], 0⟩))
      [.call sampleUpload, .call { sampleUpload with hex := "62", eof := false },
        .turn 0, .turn 0, .turn 1, .turn 1, .turn 0, .turn 0, .turn 1, .turn 0, .turn 1,
        .turn 0]).files.read (.blob sampleUpload.digest) = some ⟨[0x61, 0x62], 0o600⟩ := by
    decide
  exact absurd (haddressed _ _ hread) (by decide)

end UploadSystem

end Homie.Node
