/-
What a checkpoint keeps of a workspace, and what staging makes of it.

The walk lists every regular file once, unless the policy leaves it out, and then the file
or a directory above it is listed as left out.  The paths listed are apart from one
another, so the restore of one entry never touches another's, and the quarantine holds
every file with its content and mode.

The provider's state is restored into the same quarantine, below `.homie`.  A workspace that
has a file of its own there loses it, or cannot be staged at all.
-/
import Homie.Proofs.Blobs

namespace Homie.Node

/-! ### What the policy keeps -/

namespace Directory

/-- The files the walk stores, by path. -/
def kept : Directory → List (List String × RegularFile)
  | nil => []
  | file name f rest =>
    if shouldExclude name false ∨ f.bytes.length > maxFileBytes then rest.kept
    else ([name], f) :: rest.kept
  | directory name inner rest =>
    if shouldExclude name true then rest.kept
    else inner.kept.map (fun entry => (name :: entry.1, entry.2)) ++ rest.kept
  | symlink _ rest | other _ rest => rest.kept

/-- The paths the walk lists as left out. -/
def left : Directory → List (List String)
  | nil => []
  | file name f rest =>
    if shouldExclude name false ∨ f.bytes.length > maxFileBytes then [name] :: rest.left
    else rest.left
  | directory name inner rest =>
    if shouldExclude name true then [name] :: rest.left
    else inner.left.map (name :: ·) ++ rest.left
  | symlink name rest | other name rest => [name] :: rest.left

theorem kept_sublist_files (directory : Directory) :
    directory.kept.Sublist directory.files := by
  induction directory with
  | nil => exact List.Sublist.refl _
  | file name f rest ih =>
    unfold kept files
    split
    · exact ih.cons _
    · exact ih.cons_cons _
  | directory name inner rest ihInner ihRest =>
    unfold kept files
    split
    · exact ihRest.trans (List.sublist_append_right _ _)
    · exact (ihInner.map _).append ihRest
  | symlink name rest ih => exact ih
  | other name rest ih => exact ih

theorem kept_or_left (directory : Directory) {entry : List String × RegularFile}
    (h : entry ∈ directory.files) :
    entry ∈ directory.kept ∨ ∃ front ∈ directory.left, front <+: entry.1 := by
  induction directory generalizing entry with
  | nil => exact absurd h List.not_mem_nil
  | file name f rest ih =>
    unfold kept left
    rcases List.mem_cons.mp h with rfl | hrest
    · split
      · exact Or.inr ⟨_, List.mem_cons_self, List.prefix_refl _⟩
      · exact Or.inl List.mem_cons_self
    · rcases ih hrest with hkept | ⟨front, hfront, hpre⟩
      · refine Or.inl ?_
        split
        · exact hkept
        · exact List.mem_cons_of_mem _ hkept
      · refine Or.inr ⟨front, ?_, hpre⟩
        split
        · exact List.mem_cons_of_mem _ hfront
        · exact hfront
  | directory name inner rest ihInner ihRest =>
    unfold kept left
    rcases List.mem_append.mp h with hinner | hrest
    · obtain ⟨below, hbelow, rfl⟩ := List.mem_map.mp hinner
      split
      · exact Or.inr ⟨_, List.mem_cons_self, ⟨below.1, rfl⟩⟩
      · rcases ihInner hbelow with hkept | ⟨front, hfront, hpre⟩
        · exact Or.inl (List.mem_append_left _ (List.mem_map.mpr ⟨below, hkept, rfl⟩))
        · refine Or.inr ⟨name :: front, ?_, List.cons_prefix_cons.mpr ⟨rfl, hpre⟩⟩
          exact List.mem_append_left _ (List.mem_map.mpr ⟨front, hfront, rfl⟩)
    · rcases ihRest hrest with hkept | ⟨front, hfront, hpre⟩
      · refine Or.inl ?_
        split
        · exact hkept
        · exact List.mem_append_right _ hkept
      · refine Or.inr ⟨front, ?_, hpre⟩
        split
        · exact List.mem_cons_of_mem _ hfront
        · exact List.mem_append_right _ hfront
  | symlink name rest ih =>
    rcases ih h with hkept | ⟨front, hfront, hpre⟩
    · exact Or.inl hkept
    · exact Or.inr ⟨front, List.mem_cons_of_mem _ hfront, hpre⟩
  | other name rest ih =>
    rcases ih h with hkept | ⟨front, hfront, hpre⟩
    · exact Or.inl hkept
    · exact Or.inr ⟨front, List.mem_cons_of_mem _ hfront, hpre⟩

/-- A path begins with a name of the directory, and has proper names only. -/
theorem files_path {directory : Directory} (hproper : directory.Proper)
    {entry : List String × RegularFile} (h : entry ∈ directory.files) :
    (∃ name ∈ directory.names, ∃ rest, entry.1 = name :: rest) ∧
      ∀ name ∈ entry.1, ProperName name := by
  induction directory generalizing entry with
  | nil => exact absurd h List.not_mem_nil
  | file name f rest ih =>
    obtain ⟨hname, -, hrest⟩ := hproper
    rcases List.mem_cons.mp h with rfl | hentry
    · refine ⟨⟨name, List.mem_cons_self, [], rfl⟩, fun other hother => ?_⟩
      rw [List.mem_singleton.mp hother]
      exact hname
    · obtain ⟨⟨first, hfirst, htail⟩, hall⟩ := ih hrest hentry
      exact ⟨⟨first, List.mem_cons_of_mem _ hfirst, htail⟩, hall⟩
  | directory name inner rest ihInner ihRest =>
    obtain ⟨hname, -, hinner, hrest⟩ := hproper
    rcases List.mem_append.mp h with hentry | hentry
    · obtain ⟨below, hbelow, rfl⟩ := List.mem_map.mp hentry
      refine ⟨⟨name, List.mem_cons_self, below.1, rfl⟩, fun other hother => ?_⟩
      rcases List.mem_cons.mp hother with rfl | hother
      · exact hname
      · exact (ihInner hinner hbelow).2 other hother
    · obtain ⟨⟨first, hfirst, htail⟩, hall⟩ := ihRest hrest hentry
      exact ⟨⟨first, List.mem_cons_of_mem _ hfirst, htail⟩, hall⟩
  | symlink name rest ih =>
    obtain ⟨⟨first, hfirst, htail⟩, hall⟩ := ih hproper.2.2 h
    exact ⟨⟨first, List.mem_cons_of_mem _ hfirst, htail⟩, hall⟩
  | other name rest ih =>
    obtain ⟨⟨first, hfirst, htail⟩, hall⟩ := ih hproper.2.2 h
    exact ⟨⟨first, List.mem_cons_of_mem _ hfirst, htail⟩, hall⟩

theorem apart_of_ne {first second : String} (h : first ≠ second) (rest rest' : List String) :
    FileTree.Apart (first :: rest) (second :: rest') := by
  constructor
  · intro hpre
    exact h (List.cons_prefix_cons.mp hpre).1
  · intro hpre
    exact h (List.cons_prefix_cons.mp hpre).1.symm

theorem apart_of_names {rest : Directory} {name : String} (hproper : rest.Proper)
    (hnames : ∀ later ∈ rest.names, name < later) (below : List String)
    {entry : List String × RegularFile} (h : entry ∈ rest.files) :
    FileTree.Apart (name :: below) entry.1 := by
  obtain ⟨⟨first, hfirst, tail, heq⟩, -⟩ := files_path hproper h
  rw [heq]
  refine apart_of_ne ?_ below tail
  rintro rfl
  exact absurd (hnames name hfirst) (lt_irrefl name)

theorem pairwise_apart_files {directory : Directory} (hproper : directory.Proper) :
    directory.files.Pairwise fun first second => FileTree.Apart first.1 second.1 := by
  induction directory with
  | nil => exact List.Pairwise.nil
  | file name f rest ih =>
    obtain ⟨-, hnames, hrest⟩ := hproper
    exact List.pairwise_cons.mpr
      ⟨fun entry hentry => apart_of_names hrest hnames [] hentry, ih hrest⟩
  | directory name inner rest ihInner ihRest =>
    obtain ⟨-, hnames, hinner, hrest⟩ := hproper
    refine List.pairwise_append.mpr ⟨?_, ihRest hrest, ?_⟩
    · refine List.pairwise_map.mpr ((ihInner hinner).imp ?_)
      rintro first second ⟨hfirst, hsecond⟩
      exact ⟨fun hpre => hfirst (List.cons_prefix_cons.mp hpre).2,
        fun hpre => hsecond (List.cons_prefix_cons.mp hpre).2⟩
    · intro first hfirst second hsecond
      obtain ⟨below, -, rfl⟩ := List.mem_map.mp hfirst
      exact apart_of_names hrest hnames below.1 hsecond
  | symlink name rest ih => exact ih hproper.2.2
  | other name rest ih => exact ih hproper.2.2

end Directory

/-! ### The walk -/

namespace CheckpointStore

variable (store : CheckpointStore)

/-- The entry a file gets in the manifest. -/
def listed (entry : List String × RegularFile) : CheckpointFile :=
  ⟨pathText entry.1, store.sha256File entry.2.bytes, entry.2.bytes.length,
    some (entry.2.mode &&& 0o777)⟩

theorem walkFile_ok {source : RegularFile} {relative : List String} {walk walk' : Walk}
    (h : store.walkFile source relative walk = (.ok (), walk')) :
    if source.bytes.length > maxFileBytes then
      walk'.files = walk.files ∧ walk'.excluded = walk.excluded ++ [pathText relative]
    else
      walk'.files = walk.files ++ [store.listed (relative, source)] ∧
        walk'.excluded = walk.excluded := by
  unfold walkFile at h
  split at h
  · cases h
  · dsimp only at h
    split at h
    · rename_i hlarge
      cases h
      rw [if_pos hlarge]
      exact ⟨rfl, rfl⟩
    · rename_i hsmall
      rw [if_neg hsmall]
      split at h
      · cases h
      · unfold storeFile at h
        cases hpath : validateRelativePath (pathText relative) with
        | error e =>
          rw [hpath] at h
          cases h
        | ok =>
          rw [hpath] at h
          cases h
          exact ⟨rfl, rfl⟩

theorem walkWorkspace_ok (directory : Directory) (path : List String) {walk walk' : Walk}
    (h : store.walkWorkspace directory path walk = (.ok (), walk')) :
    walk'.files = walk.files
        ++ directory.kept.map (fun entry => store.listed (path ++ entry.1, entry.2)) ∧
      walk'.excluded = walk.excluded
        ++ directory.left.map (fun front => pathText (path ++ front)) := by
  induction directory generalizing path walk walk' with
  | nil =>
    cases h
    exact ⟨(List.append_nil _).symm, (List.append_nil _).symm⟩
  | file name source rest ih =>
    unfold walkWorkspace at h
    unfold Directory.kept Directory.left
    dsimp only at h
    split at h
    · rename_i hexcluded
      obtain ⟨hfiles, hleft⟩ := ih path h
      rw [if_pos (Or.inl hexcluded), if_pos (Or.inl hexcluded)]
      exact ⟨hfiles, hleft.trans (List.append_assoc _ _ _)⟩
    · rename_i hincluded
      split at h
      · cases h
      · rename_i next hwalk
        obtain ⟨hfiles, hleft⟩ := ih path h
        have hfile := store.walkFile_ok hwalk
        by_cases hlarge : source.bytes.length > maxFileBytes
        · rw [if_pos hlarge] at hfile
          rw [if_pos (Or.inr hlarge), if_pos (Or.inr hlarge), hfiles, hleft, hfile.1, hfile.2]
          exact ⟨rfl, List.append_assoc _ _ _⟩
        · rw [if_neg hlarge] at hfile
          rw [if_neg (not_or.mpr ⟨hincluded, hlarge⟩), if_neg (not_or.mpr ⟨hincluded, hlarge⟩),
            hfiles, hleft, hfile.1, hfile.2]
          exact ⟨List.append_assoc _ _ _, rfl⟩
  | directory name inner rest ihInner ihRest =>
    unfold walkWorkspace at h
    unfold Directory.kept Directory.left
    dsimp only at h
    split at h
    · rename_i hexcluded
      obtain ⟨hfiles, hleft⟩ := ihRest path h
      rw [if_pos hexcluded, if_pos hexcluded]
      exact ⟨hfiles, hleft.trans (List.append_assoc _ _ _)⟩
    · rename_i hincluded
      split at h
      · cases h
      · rename_i next hwalk
        obtain ⟨hfiles, hleft⟩ := ihRest path h
        obtain ⟨hinnerFiles, hinnerLeft⟩ := ihInner (path ++ [name]) hwalk
        rw [if_neg hincluded, if_neg hincluded, hfiles, hleft, hinnerFiles, hinnerLeft]
        simp only [List.map_append, List.map_map, List.append_assoc, Function.comp_def,
          List.singleton_append, and_self]
  | symlink name rest ih =>
    obtain ⟨hfiles, hleft⟩ := ih path h
    exact ⟨hfiles, hleft.trans (List.append_assoc _ _ _)⟩
  | other name rest ih =>
    obtain ⟨hfiles, hleft⟩ := ih path h
    exact ⟨hfiles, hleft.trans (List.append_assoc _ _ _)⟩

/-- The provider's file, if the session has an identifier and it was found. -/
def providerSource (params : CheckpointPrepareParams) (found : Prepared) : Option RegularFile :=
  params.providerSessionId.bind fun _ => found.providerFile

/-- The entry the provider's state gets in the manifest. -/
def listedState (state : RegularFile) : CheckpointFile :=
  ⟨"provider/session.jsonl", store.sha256File state.bytes, state.bytes.length,
    some (state.mode &&& 0o777)⟩

theorem storeProviderState_fst (disk : NodeDisk) (providerFile : Option RegularFile) :
    (store.storeProviderState disk providerFile).1 = providerFile.map store.listedState := by
  unfold storeProviderState
  cases providerFile with
  | none => rfl
  | some state =>
    unfold storeFile
    rw [show validateRelativePath "provider/session.jsonl" = .ok () by decide]
    rfl

theorem prepare_ok {disk disk' : NodeDisk} {now : Int} {params : CheckpointPrepareParams}
    {found : Prepared} {manifest : CheckpointManifest}
    (h : store.prepare disk now params found = (.ok manifest, disk')) :
    manifest.files = found.workspace.kept.map store.listed ∧
      manifest.excluded = found.workspace.left.map pathText ∧
      manifest.providerState = (providerSource params found).map store.listedState ∧
      validateManifest manifest = .ok () := by
  unfold prepare at h
  split at h
  · cases h
  · rename_i walked hwalk
    dsimp only at h
    have hstate := store.storeProviderState_fst walked.disk (providerSource params found)
    split at h
    · cases h
    · rename_i saved hsave
      obtain ⟨hfiles, hleft⟩ := store.walkWorkspace_ok found.workspace [] hwalk
      cases h
      exact ⟨hfiles, hleft, hstate, (saveManifest_ok hsave).1⟩

/-! ### Every file is listed once, or left out -/

/-- The paths a manifest can list. -/
def ProperPath (path : List String) : Prop := path ≠ [] ∧ ∀ name ∈ path, ProperName name

theorem properPath_of_files {workspace : Directory} (hproper : workspace.Proper)
    {entry : List String × RegularFile} (h : entry ∈ workspace.files) : ProperPath entry.1 := by
  obtain ⟨⟨name, -, rest, heq⟩, hall⟩ := Directory.files_path hproper h
  exact ⟨by rw [heq]; exact List.cons_ne_nil _ _, hall⟩

theorem pathText_inj {path other : List String} (h : ProperPath path) (h' : ProperPath other)
    (heq : pathText path = pathText other) : path = other := by
  rw [← pathNames_pathText h.1 h.2, heq, pathNames_pathText h'.1 h'.2]

theorem validateRelativePath_pathText {path : List String} (h : ProperPath path) :
    validateRelativePath (pathText path) = .ok () := by
  have hcomponents := components_pathText h.1 h.2
  have hne : pathText path ≠ "" := by
    intro hempty
    rw [hempty] at hcomponents
    exact h.1 (List.map_eq_nil_iff.mp hcomponents.symm)
  unfold validateRelativePath
  rw [hcomponents, if_neg]
  rintro (hempty | hnormal)
  · exact hne hempty
  · simp [Component.isNormal] at hnormal

/-- One file at a path, and no other. -/
theorem filter_listed {entries : List (List String × RegularFile)}
    (hproper : ∀ entry ∈ entries, ProperPath entry.1)
    (hapart : entries.Pairwise fun first second => FileTree.Apart first.1 second.1)
    {entry : List String × RegularFile} (h : entry ∈ entries) :
    (entries.map store.listed).filter (fun file => file.path = pathText entry.1)
      = [store.listed entry] := by
  -- Two entries whose paths are apart have different texts.
  have hother : ∀ first ∈ entries, ∀ second ∈ entries, FileTree.Apart first.1 second.1 →
      pathText first.1 ≠ pathText second.1 := by
    intro first hfirst second hsecond hapart htext
    have heq := pathText_inj (hproper first hfirst) (hproper second hsecond) htext
    exact hapart.1 (heq ▸ List.prefix_refl _)
  induction entries with
  | nil => exact absurd h List.not_mem_nil
  | cons first rest ih =>
    obtain ⟨hfirst, hrest⟩ := List.pairwise_cons.mp hapart
    rcases List.mem_cons.mp h with rfl | hentry
    · have hnone : (rest.map store.listed).filter (fun file => file.path = pathText entry.1)
          = [] := by
        rw [List.filter_eq_nil_iff]
        intro file hfile
        obtain ⟨second, hsecond, rfl⟩ := List.mem_map.mp hfile
        have hne := hother entry List.mem_cons_self second (List.mem_cons_of_mem _ hsecond)
          (hfirst second hsecond)
        exact fun heq => hne (of_decide_eq_true heq).symm
      rw [List.map_cons, List.filter_cons_of_pos (by simp [listed]), hnone]
    · have hne := hother first List.mem_cons_self entry (List.mem_cons_of_mem _ hentry)
        (hfirst entry hentry)
      have hfalse : ¬ decide ((store.listed first).path = pathText entry.1) = true :=
        fun heq => hne (of_decide_eq_true heq)
      rw [List.map_cons, List.filter_cons, if_neg hfalse]
      exact ih (fun other hmem => hproper other (List.mem_cons_of_mem _ hmem)) hrest hentry
        fun first' hmem second hmem' => hother first' (List.mem_cons_of_mem _ hmem) second
          (List.mem_cons_of_mem _ hmem')

/-- Every regular file is listed once, as it is, or it or something above it is left out. -/
def Covers (manifest : CheckpointManifest) (workspace : Directory) : Prop :=
  ∀ entry ∈ workspace.files,
    manifest.files.filter (fun file => file.path = pathText entry.1) = [store.listed entry] ∨
      ∃ front, front <+: entry.1 ∧ pathText front ∈ manifest.excluded

theorem covers_of_prepare {workspace : Directory} (hproper : workspace.Proper)
    {manifest : CheckpointManifest} (hfiles : manifest.files = workspace.kept.map store.listed)
    (hleft : manifest.excluded = workspace.left.map pathText) :
    store.Covers manifest workspace := by
  intro entry hentry
  rcases workspace.kept_or_left hentry with hkept | ⟨front, hfront, hpre⟩
  · refine Or.inl ?_
    rw [hfiles]
    have hsublist := workspace.kept_sublist_files
    exact store.filter_listed
      (fun other hother => properPath_of_files hproper (hsublist.subset hother))
      ((Directory.pairwise_apart_files hproper).sublist hsublist) hkept
  · refine Or.inr ⟨front, hpre, ?_⟩
    rw [hleft]
    exact List.mem_map_of_mem hfront

/-! ### Restoring the files -/

/-- A file as it is restored. -/
def restored (entry : List String × RegularFile) : List String × RegularFile :=
  (entry.1, ⟨entry.2.bytes, entry.2.mode &&& 0o777⟩)

theorem restoreFile_eq (entry : CheckpointFile) {disk : NodeDisk} {source : RegularFile}
    {mode : Nat} {root destination : List String}
    (hpath : validateRelativePath entry.path = .ok ())
    (hdigest : validateDigest entry.digest = .ok ())
    (hblob : disk.blobs entry.digest = some source)
    (hsha : store.sha256File source.bytes = entry.digest) (hmode : entry.unixMode = some mode)
    (hdestination : root ++ pathNames entry.path = destination) (tree : FileTree) :
    store.restoreFile disk tree root entry
      = match tree.createDirAll destination.dropLast with
        | none => .error .io
        | some made =>
          match made.copy store.privileged destination source with
          | none => .error .io
          | some copied => .ok (copied.setMode destination mode) := by
  subst hdestination
  unfold restoreFile
  rw [hpath, hdigest, hblob, hmode]
  simp only [bind, Except.bind, pure, Except.pure, throw, throwThe, MonadExceptOf.throw]
  rw [if_neg (not_not_intro hsha)]
  cases tree.createDirAll (root ++ pathNames entry.path).dropLast with
  | none => rfl
  | some made =>
    cases hcopy : made.copy store.privileged (root ++ pathNames entry.path) source with
    | none => simp only [hcopy]
    | some copied => simp only [hcopy, Option.elim]

/-- The blobs of these files are there, and are these files. -/
def Holds (disk : NodeDisk) (file : RegularFile) : Prop :=
  ∃ blob, disk.blobs (store.sha256File file.bytes) = some blob ∧ blob.bytes = file.bytes

theorem restoreFile_listed {disk : NodeDisk} {entry : List String × RegularFile}
    (hpath : ProperPath entry.1) (hblob : store.Holds disk entry.2) {tree : FileTree}
    {files : List (List String × RegularFile)} (hlaid : tree.Laid files)
    (hapart : ∀ other ∈ files, FileTree.Apart other.1 entry.1) :
    ∃ tree', store.restoreFile disk tree [] (store.listed entry) = .ok tree' ∧
      tree'.Laid (files ++ [restored entry]) := by
  obtain ⟨blob, hblob, hbytes⟩ := hblob
  obtain ⟨made, copied, hmade, hcopied, hlaid'⟩ := hlaid.add hpath.1 hapart store.privileged blob
    (entry.2.mode &&& 0o777)
  refine ⟨_, ?_, hbytes ▸ hlaid'⟩
  rw [store.restoreFile_eq (store.listed entry) (validateRelativePath_pathText hpath)
    (store.validateDigest_sha256File _) hblob (congrArg store.sha256File hbytes) rfl
    (pathNames_pathText hpath.1 hpath.2), hmade]
  simp only [hcopied]

theorem restoreFiles_listed {disk : NodeDisk} (entries : List (List String × RegularFile))
    (hpaths : ∀ entry ∈ entries, ProperPath entry.1)
    (hblobs : ∀ entry ∈ entries, store.Holds disk entry.2)
    (hpairwise : entries.Pairwise fun first second => FileTree.Apart first.1 second.1)
    {tree : FileTree} {files : List (List String × RegularFile)} (hlaid : tree.Laid files)
    (hapart : ∀ file ∈ files, ∀ entry ∈ entries, FileTree.Apart file.1 entry.1) :
    ∃ tree', store.restoreFiles disk tree (entries.map store.listed) = .ok tree' ∧
      tree'.Laid (files ++ entries.map restored) := by
  induction entries generalizing tree files with
  | nil => exact ⟨tree, rfl, by rwa [List.map_nil, List.append_nil]⟩
  | cons entry rest ih =>
    obtain ⟨hfirst, hrest⟩ := List.pairwise_cons.mp hpairwise
    obtain ⟨next, hnext, hnextLaid⟩ := store.restoreFile_listed (hpaths entry List.mem_cons_self)
      (hblobs entry List.mem_cons_self) hlaid
      (fun file hfile => hapart file hfile entry List.mem_cons_self)
    obtain ⟨tree', htree, hlaid'⟩ := ih
      (fun other hother => hpaths other (List.mem_cons_of_mem _ hother))
      (fun other hother => hblobs other (List.mem_cons_of_mem _ hother)) hrest hnextLaid
      (by
        intro file hfile other hother
        rcases List.mem_append.mp hfile with hold | hnew
        · exact hapart file hold other (List.mem_cons_of_mem _ hother)
        · rw [List.mem_singleton.mp hnew]
          exact hfirst other hother)
    refine ⟨tree', ?_, ?_⟩
    · unfold restoreFiles at htree ⊢
      rw [List.map_cons, List.foldlM_cons, hnext]
      exact htree
    · rw [List.append_assoc] at hlaid'
      exact hlaid'

/-! ### The provider's state in the same quarantine -/

/-- Where the provider's state is restored. -/
def statePath : List String := [".homie", "provider", "session.jsonl"]

/--
What a file of the workspace must not do: stand where the provider's state goes, or where a
directory of it goes, or below it.  One that stands there is no harm if it is the same
file and can be written.
-/
def Yields (privileged : Bool) (state : RegularFile) (entry : List String × RegularFile) : Prop :=
  entry.1 <+: statePath ∨ statePath <+: entry.1 →
    entry.1 = statePath ∧ (restored entry).2 = ⟨state.bytes, state.mode &&& 0o777⟩ ∧
      FileTree.writable privileged (restored entry).2 = true

section

variable {disk : NodeDisk} {tree : FileTree} {entries : List (List String × RegularFile)}
  {state : RegularFile}

theorem restoreFile_state (hblob : store.Holds disk state) :
    ∃ blob : RegularFile, blob.bytes = state.bytes ∧ ∀ tree : FileTree,
      store.restoreFile disk tree [".homie"] (store.listedState state)
        = match tree.createDirAll statePath.dropLast with
          | none => .error .io
          | some made =>
            match made.copy store.privileged statePath blob with
            | none => .error .io
            | some copied => .ok (copied.setMode statePath (state.mode &&& 0o777)) := by
  obtain ⟨blob, hblob, hbytes⟩ := hblob
  refine ⟨blob, hbytes, fun tree => ?_⟩
  exact store.restoreFile_eq (store.listedState state)
    (show validateRelativePath "provider/session.jsonl" = .ok () by decide)
    (store.validateDigest_sha256File _) hblob (congrArg store.sha256File hbytes) rfl
    (show [".homie"] ++ pathNames "provider/session.jsonl" = statePath by decide) tree

theorem statePath_ne_nil : statePath ≠ [] := List.cons_ne_nil _ _

theorem restoreFile_state_onto (hblob : store.Holds disk state)
    (hlaid : tree.Laid (entries.map restored))
    (hclear : ∀ entry ∈ entries, entry.1 <+: statePath → entry.1 = statePath)
    {entry : List String × RegularFile} (hentry : entry ∈ entries) (hpath : entry.1 = statePath) :
    if FileTree.writable store.privileged (restored entry).2 then
      ∃ tree', store.restoreFile disk tree [".homie"] (store.listedState state) = .ok tree' ∧
        ∀ path, tree'.get path = if path = statePath
          then some (.file ⟨state.bytes, state.mode &&& 0o777⟩) else tree.get path
    else store.restoreFile disk tree [".homie"] (store.listedState state) = .error .io := by
  obtain ⟨blob, hbytes, hrestore⟩ := store.restoreFile_state hblob
  have hold : (statePath, (restored entry).2) ∈ entries.map restored := by
    rw [← hpath]
    exact List.mem_map_of_mem hentry
  obtain ⟨made, hmade, hcopy, hsame⟩ := hlaid.copy_onto_file statePath_ne_nil
    (by
      intro file hfile hpre
      obtain ⟨other, hother, rfl⟩ := List.mem_map.mp hfile
      exact hclear other hother hpre)
    hold store.privileged blob
  rw [hrestore, hmade]
  simp only [hcopy]
  split
  · refine ⟨_, rfl, fun path => ?_⟩
    rw [FileTree.get_copied statePath_ne_nil, hbytes, hsame]
  · rfl

theorem restoreFile_state_of_yields (hblob : store.Holds disk state)
    (hlaid : tree.Laid (entries.map restored))
    (hyields : ∀ entry ∈ entries, Yields store.privileged state entry) :
    ∃ tree', store.restoreFile disk tree [".homie"] (store.listedState state) = .ok tree' ∧
      ∀ entry ∈ entries, tree'.get entry.1 = some (.file (restored entry).2) := by
  have hget : ∀ entry ∈ entries, tree.get entry.1 = some (.file (restored entry).2) :=
    fun entry hentry => (hlaid.file _ _).mpr (List.mem_map_of_mem hentry)
  by_cases hthere : ∃ entry ∈ entries, entry.1 <+: statePath ∨ statePath <+: entry.1
  · obtain ⟨entry, hentry, hmeets⟩ := hthere
    obtain ⟨hpath, -, hwritable⟩ := hyields entry hentry hmeets
    have honto := store.restoreFile_state_onto hblob hlaid
      (fun other hother hpre => (hyields other hother (Or.inl hpre)).1) hentry hpath
    rw [if_pos hwritable] at honto
    obtain ⟨tree', htree, hafter⟩ := honto
    refine ⟨tree', htree, fun other hother => ?_⟩
    rw [hafter]
    split
    · rename_i hstate
      rw [(hyields other hother (Or.inl (hstate ▸ List.prefix_refl _))).2.1]
    · exact hget other hother
  · obtain ⟨blob, hbytes, hrestore⟩ := store.restoreFile_state hblob
    obtain ⟨made, copied, hmade, hcopied, hlaid'⟩ := hlaid.add statePath_ne_nil
      (by
        intro file hfile
        obtain ⟨other, hother, rfl⟩ := List.mem_map.mp hfile
        exact ⟨fun hpre => hthere ⟨other, hother, Or.inl hpre⟩,
          fun hpre => hthere ⟨other, hother, Or.inr hpre⟩⟩)
      store.privileged blob (state.mode &&& 0o777)
    refine ⟨copied.setMode statePath (state.mode &&& 0o777), ?_, fun entry hentry => ?_⟩
    · rw [hrestore, hmade]
      simp only [hcopied]
    · exact (hlaid'.file _ _).mpr (List.mem_append_left _ (List.mem_map_of_mem hentry))

theorem eq_or_apart (hpairwise : entries.Pairwise fun first second =>
      FileTree.Apart first.1 second.1) {first second : List String × RegularFile}
    (hfirst : first ∈ entries) (hsecond : second ∈ entries) (hpre : first.1 <+: second.1) :
    first = second := by
  by_contra hne
  have hsymm : Std.Symm fun first second : List String × RegularFile =>
      FileTree.Apart first.1 second.1 := ⟨fun _ _ hapart => ⟨hapart.2, hapart.1⟩⟩
  exact (hpairwise.forall hfirst hsecond hne).1 hpre

/-- A file that does not yield is lost, or stops the staging. -/
theorem yields_of_restoreFile_state (hblob : store.Holds disk state)
    (hlaid : tree.Laid (entries.map restored))
    (hpairwise : entries.Pairwise fun first second => FileTree.Apart first.1 second.1)
    {tree' : FileTree}
    (hstate : store.restoreFile disk tree [".homie"] (store.listedState state) = .ok tree')
    {entry : List String × RegularFile} (hentry : entry ∈ entries)
    (hkept : tree'.get entry.1 = some (.file (restored entry).2)) :
    Yields store.privileged state entry := by
  obtain ⟨blob, hbytes, hrestore⟩ := store.restoreFile_state hblob
  have hmem : restored entry ∈ entries.map restored := List.mem_map_of_mem hentry
  have hfalse : ∀ {result : NodeResult FileTree}, result = .ok tree' → result = .error .io →
      False := by
    rintro result hok herror
    rw [hok] at herror
    cases herror
  intro hmeets
  by_cases hpath : entry.1 = statePath
  · have honto := store.restoreFile_state_onto hblob hlaid
      (fun other hother hpre => by
        rw [eq_or_apart hpairwise hother hentry (hpath ▸ hpre)]
        exact hpath) hentry hpath
    split at honto
    · rename_i hwritable
      obtain ⟨tree'', htree, hafter⟩ := honto
      rw [hstate] at htree
      cases htree
      rw [hafter, if_pos hpath] at hkept
      exact ⟨hpath, (FileEntry.file.inj (Option.some.inj hkept)).symm, hwritable⟩
    · exact (hfalse hstate honto).elim
  · refine (hfalse hstate ?_).elim
    rw [hrestore]
    rcases hmeets with habove | hbelow
    · rw [hlaid.createDirAll_blocked statePath_ne_nil hmem habove hpath]
    · cases hmade : tree.createDirAll statePath.dropLast with
      | none => rfl
      | some made =>
        simp only [hlaid.copy_onto_directory hmade hmem hbelow (Ne.symm hpath)]

end

/-! ### From the source's workspace to the target's quarantine -/

/-- The target has the manifest and the blobs it names, and has not staged it. -/
structure Transferred (manifest : CheckpointManifest) (disk : NodeDisk) : Prop where
  known : disk.manifests manifest.checkpointId = some manifest
  restores : disk.restores manifest.checkpointId = none
  staging : disk.staging manifest.checkpointId = false
  blobs : ∀ entry ∈ manifest.files ++ manifest.providerState.toList,
    (disk.blobs entry.digest).isSome = true
  addressed : store.Addressed disk

theorem validateManifest_id {manifest : CheckpointManifest}
    (h : validateManifest manifest = .ok ()) :
    validateCheckpointId manifest.checkpointId = .ok () := by
  unfold validateManifest at h
  cases hid : validateCheckpointId manifest.checkpointId with
  | ok => rfl
  | error e =>
    rw [hid] at h
    by_cases hversion : manifest.version ≠ checkpointVersion
    · rw [if_pos hversion] at h
      cases h
    · rw [if_neg hversion] at h
      cases h

theorem loadManifest_of_known {manifest : CheckpointManifest} {disk : NodeDisk}
    (hknown : disk.manifests manifest.checkpointId = some manifest)
    (hvalid : validateManifest manifest = .ok ()) :
    loadManifest disk manifest.checkpointId = .ok manifest := by
  unfold loadManifest
  rw [validateManifest_id hvalid, hknown]
  show (do validateManifest manifest; pure manifest) = Except.ok manifest
  rw [hvalid]
  rfl

theorem stage_restores {manifest : CheckpointManifest} {disk : NodeDisk}
    (htransferred : store.Transferred manifest disk) (hvalid : validateManifest manifest = .ok ())
    (now : Int) (home : ProviderKind × String) :
    (store.stage disk now manifest.checkpointId home).2.restores manifest.checkpointId
      = match store.restoreAll disk manifest with
        | .error _ => none
        | .ok tree => some tree := by
  unfold stage
  rw [loadManifest_of_known htransferred.known hvalid]
  simp only [htransferred.restores, htransferred.staging]
  cases hrestore : store.restoreAll disk manifest with
  | error e => exact htransferred.restores
  | ok tree =>
    have hkeeps := (store.finishStage_keeps { disk with
      restores := Function.update disk.restores manifest.checkpointId (some tree) }
      now manifest manifest.checkpointId home).2.2
    exact (congrFun hkeeps _).trans (Function.update_self _ _ _)

/--
Every entry stands in the quarantine as the file it was, and every regular file of the
workspace is listed once or left out.
-/
def Faithful (manifest : CheckpointManifest) (workspace : Directory)
    (quarantine : Option FileTree) : Prop :=
  (∀ entry ∈ manifest.files, ∃ file tree, (pathNames entry.path, file) ∈ workspace.files ∧
    quarantine = some tree ∧
    tree.fileAt (pathNames entry.path) = some ⟨file.bytes, file.mode &&& 0o777⟩) ∧
  store.Covers manifest workspace

theorem restoreAll_prepared {manifest : CheckpointManifest} {disk : NodeDisk}
    {entries : List (List String × RegularFile)} {state : Option RegularFile}
    (hfiles : manifest.files = entries.map store.listed)
    (hstate : manifest.providerState = state.map store.listedState)
    (hpaths : ∀ entry ∈ entries, ProperPath entry.1)
    (hpairwise : entries.Pairwise fun first second => FileTree.Apart first.1 second.1)
    (hblobs : ∀ entry ∈ entries, store.Holds disk entry.2) :
    ∃ tree : FileTree, tree.Laid (entries.map restored) ∧
      store.restoreAll disk manifest = match state with
        | none => .ok tree
        | some state => store.restoreFile disk tree [".homie"] (store.listedState state) := by
  obtain ⟨tree, htree, hlaid⟩ := store.restoreFiles_listed entries hpaths hblobs hpairwise
    FileTree.laid_empty nofun
  refine ⟨tree, hlaid, ?_⟩
  unfold restoreAll
  rw [hfiles, htree, hstate]
  cases state with
  | none => rfl
  | some state => rfl

/-- What was transferred holds the files, where no others share their digests. -/
theorem Transferred.holds {manifest : CheckpointManifest} {disk : NodeDisk}
    (htransferred : store.Transferred manifest disk) (entry : CheckpointFile)
    (hentry : entry ∈ manifest.files ++ manifest.providerState.toList) {file : RegularFile}
    (hdigest : entry.digest = store.sha256File file.bytes)
    (hcollision : ∀ bytes, store.sha256File bytes = store.sha256File file.bytes →
      bytes = file.bytes) : store.Holds disk file := by
  obtain ⟨blob, hblob⟩ := Option.isSome_iff_exists.mp (htransferred.blobs entry hentry)
  rw [hdigest] at hblob
  exact ⟨blob, hblob, hcollision _ (htransferred.addressed _ _ hblob)⟩

theorem restored_iff {manifest : CheckpointManifest} {disk : NodeDisk}
    {entries : List (List String × RegularFile)} {state : Option RegularFile}
    (hfiles : manifest.files = entries.map store.listed)
    (hstate : manifest.providerState = state.map store.listedState)
    (hpaths : ∀ entry ∈ entries, ProperPath entry.1)
    (hpairwise : entries.Pairwise fun first second => FileTree.Apart first.1 second.1)
    (hblobs : ∀ entry ∈ entries, store.Holds disk entry.2)
    (hstateBlob : ∀ file, state = some file → store.Holds disk file) :
    (∀ entry ∈ entries, ∃ tree, store.restoreAll disk manifest = .ok tree ∧
      tree.get entry.1 = some (.file (restored entry).2)) ↔
    ∀ file, state = some file → ∀ entry ∈ entries, Yields store.privileged file entry := by
  obtain ⟨tree, hlaid, hall⟩ :=
    store.restoreAll_prepared hfiles hstate hpaths hpairwise hblobs
  constructor
  · rintro hkept file rfl entry hentry
    obtain ⟨tree', htree, hget⟩ := hkept entry hentry
    rw [hall] at htree
    exact store.yields_of_restoreFile_state (hstateBlob file rfl) hlaid hpairwise htree hentry hget
  · intro hyields entry hentry
    cases state with
    | none => exact ⟨tree, hall, (hlaid.file _ _).mpr (List.mem_map_of_mem hentry)⟩
    | some file =>
      obtain ⟨tree', htree, hget⟩ := store.restoreFile_state_of_yields (hstateBlob file rfl) hlaid
        (hyields file rfl)
      exact ⟨tree', hall.trans htree, hget entry hentry⟩

/--
**Staging gives back what was prepared, exactly where the workspace yields to the provider's
state.**  After a checkpoint of any workspace was prepared, transferred and staged, every
entry stands in the quarantine with its content and mode and every regular file is listed
once or left out, if and only if no file of the workspace stands in the way of the
provider's state.
-/
theorem checkpoint_faithful_iff (source target : CheckpointStore)
    (hhasher : target.hasher = source.hasher) (sourceDisk sourceDisk' targetDisk : NodeDisk)
    (now now' : Int) (params : CheckpointPrepareParams) (found : Prepared)
    (hproper : found.workspace.Proper)
    (hcollision : ∀ file : RegularFile, (∃ path, (path, file) ∈ found.workspace.files) ∨
      found.providerFile = some file → ∀ bytes,
        source.sha256File bytes = source.sha256File file.bytes → bytes = file.bytes)
    (manifest : CheckpointManifest)
    (hprepare : source.prepare sourceDisk now params found = (.ok manifest, sourceDisk'))
    (htransferred : target.Transferred manifest targetDisk) (home : ProviderKind × String) :
    source.Faithful manifest found.workspace
        ((target.stage targetDisk now' manifest.checkpointId home).2.restores
          manifest.checkpointId) ↔
      ∀ state, providerSource params found = some state →
        ∀ entry ∈ found.workspace.kept, Yields target.privileged state entry := by
  have hsha : target.sha256File = source.sha256File := by
    funext bytes
    unfold sha256File
    rw [hhasher]
  obtain ⟨hfiles, hleft, hstate, hvalid⟩ := source.prepare_ok hprepare
  have hsublist := found.workspace.kept_sublist_files
  have hpaths : ∀ entry ∈ found.workspace.kept, ProperPath entry.1 :=
    fun entry hentry => properPath_of_files hproper (hsublist.subset hentry)
  have hpairwise := (Directory.pairwise_apart_files hproper).sublist hsublist
  have hlisted : target.listed = source.listed := by
    funext entry
    unfold listed
    rw [hsha]
  have hlistedState : target.listedState = source.listedState := by
    funext state
    unfold listedState
    rw [hsha]
  -- The blobs at the target are the files of the source.
  have hblobs : ∀ entry ∈ found.workspace.kept, target.Holds targetDisk entry.2 := by
    intro entry hentry
    refine htransferred.holds _ (source.listed entry) (List.mem_append_left _ ?_)
      (congrFun hsha _).symm ?_
    · rw [hfiles]
      exact List.mem_map_of_mem hentry
    · rw [hsha]
      exact hcollision entry.2 (Or.inl ⟨entry.1, hsublist.subset hentry⟩)
  have hstateBlob : ∀ file, providerSource params found = some file →
      target.Holds targetDisk file := by
    intro file hfile
    refine htransferred.holds _ (source.listedState file) (List.mem_append_right _ ?_)
      (congrFun hsha _).symm ?_
    · rw [hstate, hfile]
      exact List.mem_singleton_self _
    · rw [hsha]
      obtain ⟨id, -, hfound⟩ := Option.bind_eq_some_iff.mp hfile
      exact hcollision file (Or.inr hfound)
  rw [← target.restored_iff (hlisted ▸ hfiles) (hlistedState ▸ hstate) hpaths hpairwise hblobs
    hstateBlob, target.stage_restores htransferred hvalid]
  constructor
  · rintro ⟨hrestored, -⟩ entry hentry
    have hmem : source.listed entry ∈ manifest.files := by
      rw [hfiles]
      exact List.mem_map_of_mem hentry
    obtain ⟨file, tree, hfile, htree, hget⟩ := hrestored _ hmem
    have hnames : pathNames (source.listed entry).path = entry.1 :=
      pathNames_pathText (hpaths entry hentry).1 (hpaths entry hentry).2
    rw [hnames] at hfile hget
    -- The file the claim speaks of is the one that was walked.
    have hsame : (entry.1, file) = entry := eq_or_apart (Directory.pairwise_apart_files hproper)
      hfile (hsublist.subset hentry) (List.prefix_refl _)
    refine ⟨tree, ?_, ?_⟩
    · split at htree
      · cases htree
      · rename_i hrestore
        rw [hrestore, Option.some.inj htree]
    · rw [FileTree.fileAt_eq_some.mp hget, ← hsame]
      rfl
  · intro hkept
    refine ⟨?_, source.covers_of_prepare hproper hfiles hleft⟩
    intro listed hlisted
    rw [hfiles] at hlisted
    obtain ⟨entry, hentry, rfl⟩ := List.mem_map.mp hlisted
    obtain ⟨tree, htree, hget⟩ := hkept entry hentry
    have hnames : pathNames (source.listed entry).path = entry.1 :=
      pathNames_pathText (hpaths entry hentry).1 (hpaths entry hentry).2
    rw [hnames, htree]
    exact ⟨entry.2, tree, hsublist.subset hentry, rfl, FileTree.fileAt_eq_some.mpr hget⟩

/-- The node the sample checkpoints come from. -/
def sampleSender : CheckpointStore := { sampleService.toCheckpointStore with nodeId := "node-a" }

/-- A workspace whose provider's session holds one letter. -/
def sampleFound (workspace : Directory) : Prepared where
  workspace
  providerFile := some ⟨[0x62], 0o600⟩
  random := [0x00, 0x11, 0x22, 0x33, 0x44, 0x55, 0x66, 0x77,
    0x88, 0x99, 0xaa, 0xbb, 0xcc, 0xdd, 0xee, 0xff]

def sampleParams : CheckpointPrepareParams :=
  ⟨"session", .claude, "work", "/work", some "conversation", .move⟩

/-- The manifest of a sample checkpoint, whatever it holds of the workspace. -/
def sampleCheckpoint (files : List CheckpointFile) (excluded : List String) :
    CheckpointManifest :=
  { sampleManifest with
    files
    excluded
    providerState := some ⟨"provider/session.jsonl", sampleService.sha256File [0x62], 1,
      some 0o600⟩ }

/-- The target after the manifest and the blobs of both letters were put there. -/
def sampleTarget (manifest : CheckpointManifest) : NodeDisk :=
  Trace.run sampleService.step .empty
    [(1, .manifestPut manifest),
      (2, .blobPut ⟨sampleService.sha256File [0x61], 0, "61", true⟩),
      (3, .blobPut ⟨sampleService.sha256File [0x62], 0, "62", true⟩)]

/-- A secret, and a file in a directory. -/
def sampleWorkspace : Directory :=
  .file ".env" ⟨[0x61, 0x62], 0o600⟩
    (.directory "docs" (.file "notes" ⟨[0x61], 0o640⟩ .nil) .nil)

def sampleListed : List CheckpointFile :=
  [⟨"docs/notes", sampleService.sha256File [0x61], 1, some 0o640⟩]

/-- The secret and the notes are listed as they should be, and restored beside the session. -/
theorem checkpoint_faithful_notes :
    sampleSender.Faithful (sampleCheckpoint sampleListed [".env"]) sampleWorkspace
      ((sampleService.stage (sampleTarget (sampleCheckpoint sampleListed [".env"])) 4
        sampleManifest.checkpointId (.claude, "work")).2.restores sampleManifest.checkpointId) := by
  refine (checkpoint_faithful_iff sampleSender sampleService.toCheckpointStore rfl .empty
    (sampleSender.prepare .empty 0 sampleParams (sampleFound sampleWorkspace)).2
    (sampleTarget (sampleCheckpoint sampleListed [".env"])) 0 4 sampleParams
    (sampleFound sampleWorkspace) ?_ ?_ (sampleCheckpoint sampleListed [".env"]) ?_ ?_
    (.claude, "work")).mpr ?_
  · exact ⟨by decide, by decide, by decide, nofun, ⟨by decide, nofun, trivial⟩, trivial⟩
  · intro file hfile bytes hsha
    have hletters : file.bytes ∈ [[0x61], [0x62], [0x61, 0x62]] := by
      rcases hfile with ⟨path, hfile⟩ | hfile
      · have hall : ∀ entry ∈ sampleWorkspace.files,
            entry.2.bytes ∈ ([[0x61], [0x62], [0x61, 0x62]] : List (List UInt8)) := by decide
        exact hall _ hfile
      · cases hfile
        decide
    exact sampleHasher_inj hletters (hexEncode_inj hsha)
  · exact Prod.ext (by decide) rfl
  · refine ⟨by decide, by decide, by decide, by decide, ?_⟩
    exact sampleService.addressed_run sampleService.addressed_empty _
  · intro state _ entry hentry hmeets
    have hapart : ∀ entry ∈ sampleWorkspace.kept,
        ¬ (entry.1 <+: statePath ∨ statePath <+: entry.1) := by decide
    exact absurd hmeets (hapart entry hentry)

/-- A workspace with a file of its own where the provider's session goes. -/
def occupiedWorkspace : Directory :=
  .directory ".homie"
    (.directory "provider" (.file "session.jsonl" ⟨[0x61], 0o644⟩ .nil) .nil) .nil

def occupiedListed : List CheckpointFile :=
  [⟨".homie/provider/session.jsonl", sampleService.sha256File [0x61], 1, some 0o644⟩]

/--
**The provider's state replaces a file of the workspace.**  The checkpoint lists the file with
its letter; staged, it holds the provider's.
-/
theorem provider_state_overwrites :
    (sampleSender.prepare .empty 0 sampleParams (sampleFound occupiedWorkspace)).1
      = .ok (sampleCheckpoint occupiedListed []) ∧
    (sampleService.stage (sampleTarget (sampleCheckpoint occupiedListed [])) 4
      sampleManifest.checkpointId (.claude, "work")).1
      = .ok ⟨sampleManifest.checkpointId, sampleManifest.checkpointId, true⟩ ∧
    ¬ sampleSender.Faithful (sampleCheckpoint occupiedListed []) occupiedWorkspace
      ((sampleService.stage (sampleTarget (sampleCheckpoint occupiedListed [])) 4
        sampleManifest.checkpointId (.claude, "work")).2.restores
          sampleManifest.checkpointId) := by
  refine ⟨by decide, by decide, ?_⟩
  rintro ⟨hrestored, -⟩
  obtain ⟨file, tree, hfile, htree, hget⟩ := hrestored _ List.mem_cons_self
  have hletter : ((sampleService.stage (sampleTarget (sampleCheckpoint occupiedListed [])) 4
      sampleManifest.checkpointId (.claude, "work")).2.restores
        sampleManifest.checkpointId).bind (fun tree => tree.fileAt statePath)
      = some ⟨[0x62], 0o600⟩ := by decide
  have hwas : ∀ entry ∈ occupiedWorkspace.files, entry.2.bytes = [0x61] := by decide
  have hnames : pathNames ".homie/provider/session.jsonl" = statePath := by decide
  rw [htree] at hletter
  have hbytes : file.bytes = [0x62] := by
    have hsame : some (⟨file.bytes, file.mode &&& 0o777⟩ : RegularFile) = some ⟨[0x62], 0o600⟩ := by
      rw [← hletter, ← hget]
      exact congrArg tree.fileAt hnames
    exact congrArg RegularFile.bytes (Option.some.inj hsame)
  have hletter' := hwas _ hfile
  rw [hbytes] at hletter'
  exact absurd hletter' (by decide)

end CheckpointStore

end Homie.Node
