/-
Paths as text, and a directory with what is under it.

`components` cuts a path as `std::path::Path::components` does: repeated separators and
inner dots are dropped, a leading dot, a parent or a root is kept as what it is.  The text
of a list of proper names is cut back into these names (`components_pathText`).

A `FileTree` is one directory seen from inside: what stands at each path below it.
Directories are made on the way, a copy lands in an existing directory, and neither can
pass through a regular file.  `Laid` describes a tree that a list of files was laid out
in; `Laid.add` says when one more fits.
-/
import Mathlib

namespace Homie

/-! ### Paths -/

/-- `std::path::Component`. -/
inductive Component where
  | rootDir
  | curDir
  | parentDir
  | normal (name : String)
deriving DecidableEq, Repr

/-- One piece between separators; an empty one and a dot are nothing. -/
def pathPiece (piece : List Char) : Option Component :=
  if piece = [] ∨ piece = ['.'] then none
  else if piece = ['.', '.'] then some .parentDir
  else some (.normal (String.ofList piece))

/-- `Path::new(path).components()`. -/
def components (path : String) : List Component :=
  match path.toList.splitOn '/' with
  | [] => []
  | first :: rest =>
    if first = [] ∧ rest ≠ [] then .rootDir :: rest.filterMap pathPiece
    else if first = ['.'] then .curDir :: rest.filterMap pathPiece
    else (first :: rest).filterMap pathPiece

/-- The names of a path's `Normal` components. -/
def pathNames (path : String) : List String :=
  (components path).filterMap fun
    | .normal name => some name
    | _ => none

/-- The text of the path with these names. -/
def pathText (names : List String) : String :=
  String.ofList (List.intercalate ['/'] (names.map String.toList))

/-- A name a directory can hold. -/
def ProperName (name : String) : Prop :=
  name.toList ≠ [] ∧ name.toList ≠ ['.'] ∧ name.toList ≠ ['.', '.'] ∧ '/' ∉ name.toList

instance (name : String) : Decidable (ProperName name) :=
  inferInstanceAs (Decidable (_ ∧ _ ∧ _ ∧ _))

theorem pathPiece_of_proper {name : String} (h : ProperName name) :
    pathPiece name.toList = some (.normal name) := by
  obtain ⟨hempty, hdot, hdots, -⟩ := h
  unfold pathPiece
  rw [if_neg (not_or.mpr ⟨hempty, hdot⟩), if_neg hdots, String.ofList_toList]

theorem filterMap_pathPiece {names : List String} (h : ∀ name ∈ names, ProperName name) :
    (names.map String.toList).filterMap pathPiece = names.map .normal := by
  induction names with
  | nil => rfl
  | cons name names ih =>
    rw [List.map_cons, List.filterMap_cons_some (pathPiece_of_proper (h name List.mem_cons_self)),
      ih fun other hother => h other (List.mem_cons_of_mem name hother)]
    rfl

/-- The text of proper names is cut back into them. -/
theorem components_pathText {names : List String} (hne : names ≠ [])
    (h : ∀ name ∈ names, ProperName name) : components (pathText names) = names.map .normal := by
  cases names with
  | nil => exact absurd rfl hne
  | cons name names =>
    have hsplit : (pathText (name :: names)).toList.splitOn '/'
        = (name :: names).map String.toList := by
      unfold pathText
      rw [String.toList_ofList]
      refine List.splitOn_intercalate '/' ?_ (by simp)
      intro piece hpiece
      obtain ⟨other, hother, rfl⟩ := List.mem_map.mp hpiece
      exact (h other hother).2.2.2
    have hname := h name List.mem_cons_self
    unfold components
    rw [hsplit]
    simp only [List.map_cons]
    rw [if_neg (fun hcon => hname.1 hcon.1), if_neg hname.2.1]
    exact filterMap_pathPiece h

theorem filterMap_normal (names : List String) :
    (names.map Component.normal).filterMap (fun
      | .normal name => some name
      | _ => none) = names := by
  induction names with
  | nil => rfl
  | cons name names ih => exact congrArg (name :: ·) ih

theorem pathNames_pathText {names : List String} (hne : names ≠ [])
    (h : ∀ name ∈ names, ProperName name) : pathNames (pathText names) = names := by
  unfold pathNames
  rw [components_pathText hne h]
  exact filterMap_normal names

/-- `Path::extension` of a path with this last name. -/
def extension (name : String) : Option (List Char) :=
  let after := (name.toList.reverse.takeWhile (· ≠ '.')).reverse
  let stem := name.toList.take (name.toList.length - after.length - 1)
  if '.' ∉ name.toList ∨ stem = [] ∨ name = ".." then none else some after

/-- What follows the last dot, if something comes before it. -/
theorem extension_eq_some {name : String} (stem : List Char) {after : List Char}
    (hname : name.toList = stem ++ '.' :: after) (hstem : stem ≠ []) (hafter : '.' ∉ after)
    (hparent : name ≠ "..") : extension name = some after := by
  have htake : (name.toList.reverse.takeWhile (· ≠ '.')).reverse = after := by
    rw [hname, List.reverse_append, List.reverse_cons, List.append_assoc,
      List.takeWhile_append_of_pos]
    · simp
    · intro c hc
      rw [decide_eq_true_eq]
      rintro rfl
      exact hafter (List.mem_reverse.mp hc)
  have hlength : name.toList.length - after.length - 1 = stem.length := by
    rw [hname, List.length_append, List.length_cons]
    omega
  have hdot : '.' ∈ name.toList := by
    rw [hname]
    exact List.mem_append_right _ List.mem_cons_self
  unfold extension
  dsimp only
  rw [htake, hlength, if_neg]
  rintro (hnone | hempty | hdots)
  · exact hnone hdot
  · rw [hname, List.take_left] at hempty
    exact hstem hempty
  · exact hparent hdots

/-! ### A directory from inside -/

structure RegularFile where
  bytes : List UInt8
  /-- The permission bits. -/
  mode : Nat
deriving DecidableEq, Repr

inductive FileEntry where
  | file (file : RegularFile)
  | directory
deriving DecidableEq, Repr

/-- What stands at each path below a directory. -/
structure FileTree where
  entries : List String → Option FileEntry

namespace FileTree

def empty : FileTree := ⟨fun _ => none⟩

/-- What is at a path; the tree itself is a directory. -/
def get (tree : FileTree) (path : List String) : Option FileEntry :=
  if path = [] then some .directory else tree.entries path

def fileAt (tree : FileTree) (path : List String) : Option RegularFile :=
  match tree.get path with
  | some (.file file) => some file
  | _ => none

def set (tree : FileTree) (path : List String) (entry : Option FileEntry) : FileTree :=
  ⟨Function.update tree.entries path entry⟩

/-- `fs::create_dir_all`: nothing on the way may be a file. -/
def createDirAll (tree : FileTree) (path : List String) : Option FileTree :=
  if path.inits.any fun front => (tree.fileAt front).isSome then none
  else some ⟨fun other =>
    if other <+: path ∧ tree.get other = none then some .directory else tree.entries other⟩

/-- Whether the owner of the file may write it. -/
def writable (privileged : Bool) (file : RegularFile) : Bool :=
  privileged || file.mode &&& 0o200 != 0

/-- `fs::copy` onto a path: its directory is there, and what it replaces is a writable file. -/
def copy (privileged : Bool) (tree : FileTree) (path : List String) (file : RegularFile) :
    Option FileTree :=
  if tree.get path.dropLast ≠ some .directory then none
  else
    match tree.get path with
    | some .directory => none
    | some (.file old) =>
      if writable privileged old then some (tree.set path (some (.file file))) else none
    | none => some (tree.set path (some (.file file)))

/-- `fs::set_permissions` of a file. -/
def setMode (tree : FileTree) (path : List String) (mode : Nat) : FileTree :=
  match tree.fileAt path with
  | some file => tree.set path (some (.file { file with mode }))
  | none => tree

/-- `fs::remove_file`. -/
def remove (tree : FileTree) (path : List String) : FileTree := tree.set path none

theorem get_set {tree : FileTree} {path : List String} (hne : path ≠ [])
    (entry : Option FileEntry) (other : List String) :
    (tree.set path entry).get other = if other = path then entry else tree.get other := by
  unfold get set
  by_cases hroot : other = []
  · rw [if_pos hroot, if_neg (by rw [hroot]; exact hne.symm), if_pos hroot]
  · rw [if_neg hroot]
    by_cases hsame : other = path
    · rw [if_pos hsame, hsame]
      exact Function.update_self ..
    · rw [if_neg hsame, if_neg hroot]
      exact Function.update_of_ne hsame ..

theorem fileAt_eq_some {tree : FileTree} {path : List String} {file : RegularFile} :
    tree.fileAt path = some file ↔ tree.get path = some (.file file) := by
  unfold fileAt
  cases tree.get path with
  | none => simp
  | some entry => cases entry <;> simp

theorem get_setMode {tree : FileTree} {path : List String} {file : RegularFile} (hne : path ≠ [])
    (h : tree.get path = some (.file file)) (mode : Nat) (other : List String) :
    (tree.setMode path mode).get other
      = if other = path then some (.file { file with mode }) else tree.get other := by
  unfold setMode
  rw [fileAt_eq_some.mpr h]
  exact get_set hne _ other

theorem get_createDirAll {tree made : FileTree} {path : List String}
    (h : tree.createDirAll path = some made) (other : List String) :
    made.get other
      = if other <+: path ∧ tree.get other = none then some .directory else tree.get other := by
  unfold createDirAll at h
  split at h
  · cases h
  · cases h
    by_cases hroot : other = []
    · rw [hroot, if_neg (fun hcon => by simp [get] at hcon)]
      rfl
    · show (if other = [] then some FileEntry.directory
        else if other <+: path ∧ tree.get other = none then some .directory
        else tree.entries other) = _
      rw [if_neg hroot]
      split
      · rfl
      · exact (if_neg hroot).symm

theorem fileAt_set {tree : FileTree} {path : List String} (hne : path ≠ [])
    (entry : Option FileEntry) (other : List String) :
    (tree.set path entry).fileAt other = if other = path then (match entry with
      | some (.file file) => some file
      | _ => none) else tree.fileAt other := by
  unfold fileAt
  rw [get_set hne]
  by_cases hother : other = path
  · rw [if_pos hother, if_pos hother]
  · rw [if_neg hother, if_neg hother]

/-- Making directories makes no files. -/
theorem fileAt_createDirAll {tree made : FileTree} {path : List String}
    (h : tree.createDirAll path = some made) (other : List String) :
    made.fileAt other = tree.fileAt other := by
  unfold fileAt
  rw [get_createDirAll h]
  by_cases hnew : other <+: path ∧ tree.get other = none
  · rw [if_pos hnew, hnew.2]
  · rw [if_neg hnew]

/-- A copy that goes well puts the file in its place. -/
theorem eq_set_of_copy {tree copied : FileTree} {path : List String} {privileged : Bool}
    {file : RegularFile} (h : tree.copy privileged path file = some copied) :
    copied = tree.set path (some (.file file)) := by
  unfold copy at h
  split at h
  · cases h
  · split at h
    · cases h
    · split at h
      · exact (Option.some.inj h).symm
      · cases h
    · exact (Option.some.inj h).symm

/-- Directories can be made down a path exactly where no file is on the way. -/
theorem createDirAll_eq_none {tree : FileTree} {path : List String} :
    tree.createDirAll path = none ↔
      ∃ front file, front <+: path ∧ tree.get front = some (.file file) := by
  have hany : (path.inits.any fun front => (tree.fileAt front).isSome) = true ↔
      ∃ front file, front <+: path ∧ tree.get front = some (.file file) := by
    simp only [List.any_eq_true, List.mem_inits, Option.isSome_iff_exists, fileAt_eq_some]
    constructor
    · rintro ⟨front, hfront, file, hfile⟩
      exact ⟨front, file, hfront, hfile⟩
    · rintro ⟨front, file, hfront, hfile⟩
      exact ⟨front, hfront, file, hfile⟩
  rw [← hany]
  unfold createDirAll
  split
  · rename_i hblocked
    exact ⟨fun _ => hblocked, fun _ => rfl⟩
  · rename_i hclear
    exact ⟨nofun, fun hblocked => absurd hblocked hclear⟩

/-! ### Files laid out in a tree -/

/-- The tree holds these files, and the directories they need. -/
structure Laid (tree : FileTree) (files : List (List String × RegularFile)) : Prop where
  file : ∀ path file, tree.get path = some (.file file) ↔ (path, file) ∈ files
  directory : ∀ path, tree.get path = some .directory ↔
    path = [] ∨ ∃ entry ∈ files, path <+: entry.1 ∧ path ≠ entry.1

/-- Neither path leads to the other, or through it. -/
def Apart (path other : List String) : Prop := ¬ path <+: other ∧ ¬ other <+: path

theorem laid_empty : Laid empty [] where
  file path file := by
    unfold get empty
    split <;> simp
  directory path := by
    unfold get empty
    split
    · rename_i hroot
      simp [hroot]
    · rename_i hroot
      simp [hroot]

/-- The proper prefixes of a path are the prefixes of its parent. -/
theorem prefix_dropLast_iff {path other : List String} (hne : path ≠ []) :
    other <+: path.dropLast ↔ other <+: path ∧ other ≠ path := by
  conv_rhs => rw [← List.dropLast_append_getLast hne]
  rw [List.prefix_concat_iff]
  constructor
  · intro h
    refine ⟨Or.inr h, ?_⟩
    rintro rfl
    have hlength := h.length_le
    rw [List.length_append, List.length_singleton] at hlength
    omega
  · rintro ⟨heq | h, hother⟩
    · exact absurd heq hother
    · exact h

/-- What stands on the way to a path that is apart from all files is a directory or nothing. -/
theorem Laid.not_file {tree : FileTree} {files : List (List String × RegularFile)}
    (h : Laid tree files) {path front : List String} (hfront : front <+: path)
    (hapart : ∀ entry ∈ files, Apart entry.1 path) (file : RegularFile) :
    tree.get front ≠ some (.file file) := by
  intro hfile
  exact (hapart _ ((h.file front file).mp hfile)).1 hfront

variable {tree : FileTree} {files : List (List String × RegularFile)} {path : List String}

/-- A path apart from all files has nothing on it yet. -/
theorem Laid.get_eq_none (h : Laid tree files) (hne : path ≠ [])
    (hapart : ∀ entry ∈ files, Apart entry.1 path) : tree.get path = none := by
  cases hget : tree.get path with
  | none => rfl
  | some entry =>
    cases entry with
    | file file => exact absurd hget (h.not_file (List.prefix_refl path) hapart file)
    | directory =>
      rcases (h.directory path).mp hget with hroot | ⟨entry, hentry, hbelow, -⟩
      · exact absurd hroot hne
      · exact absurd hbelow (hapart entry hentry).2

/-- What a tree is with one more file, apart from all others, and the directories it needs. -/
theorem Laid.of_get (h : Laid tree files) (hne : path ≠ [])
    (hapart : ∀ entry ∈ files, Apart entry.1 path) {file : RegularFile} {later : FileTree}
    (hget : ∀ other, later.get other = if other = path then some (.file file)
      else if other <+: path.dropLast ∧ tree.get other = none then some .directory
      else tree.get other) : Laid later (files ++ [(path, file)]) := by
  constructor
  · intro other found
    rw [hget, List.mem_append, List.mem_singleton]
    by_cases hother : other = path
    · rw [if_pos hother, hother]
      constructor
      · intro hfile
        cases hfile
        exact Or.inr rfl
      · rintro (hold | hnew)
        · exact absurd (List.prefix_refl path) (hapart _ hold).1
        · cases hnew
          rfl
    · rw [if_neg hother, ← h.file]
      constructor
      · intro hfile
        split at hfile
        · cases hfile
        · exact Or.inl hfile
      · rintro (hold | hnew)
        · rw [if_neg (fun hcon => by rw [hcon.2] at hold; cases hold)]
          exact hold
        · exact absurd (Prod.mk.inj hnew).1 hother
  · intro other
    rw [hget]
    by_cases hother : other = path
    · rw [if_pos hother, hother]
      constructor
      · nofun
      · rintro (hroot | ⟨entry, hentry, hbelow, hproper⟩)
        · exact absurd hroot hne
        · rcases List.mem_append.mp hentry with hold | hnew
          · exact absurd hbelow (hapart entry hold).2
          · rw [List.mem_singleton.mp hnew] at hproper
            exact absurd rfl hproper
    · rw [if_neg hother]
      constructor
      · intro hdirectory
        split at hdirectory
        · rename_i hnew
          obtain ⟨hpre, hproper⟩ := (prefix_dropLast_iff hne).mp hnew.1
          exact Or.inr ⟨_, List.mem_append_right _ (List.mem_singleton_self _), hpre, hproper⟩
        · rcases (h.directory other).mp hdirectory with hroot | ⟨entry, hentry, hbelow⟩
          · exact Or.inl hroot
          · exact Or.inr ⟨entry, List.mem_append_left _ hentry, hbelow⟩
      · intro hneeded
        split
        · rfl
        · rename_i hthere
          rcases hneeded with hroot | ⟨entry, hentry, hpre, hproper⟩
          · exact (h.directory other).mpr (Or.inl hroot)
          · rcases List.mem_append.mp hentry with hold | hnew
            · exact (h.directory other).mpr (Or.inr ⟨entry, hold, hpre, hproper⟩)
            · rw [List.mem_singleton.mp hnew] at hpre hproper
              cases hold : tree.get other with
              | none =>
                exact absurd ⟨(prefix_dropLast_iff hne).mpr ⟨hpre, hproper⟩, hold⟩ hthere
              | some entry =>
                cases entry with
                | directory => rfl
                | file file => exact absurd hold (h.not_file hpre hapart file)

/-- The directories on the way to a file can be made when no other file is on the way. -/
theorem Laid.made (h : Laid tree files) (hne : path ≠ [])
    (hclear : ∀ entry ∈ files, entry.1 <+: path → entry.1 = path) :
    ∃ made, tree.createDirAll path.dropLast = some made ∧
      made.get path.dropLast = some .directory ∧ made.get path = tree.get path := by
  have hfree : ∀ front, front <+: path.dropLast → ∀ file, tree.get front ≠ some (.file file) := by
    intro front hfront file hfile
    obtain ⟨hpre, hproper⟩ := (prefix_dropLast_iff hne).mp hfront
    exact hproper (hclear _ ((h.file front file).mp hfile) hpre)
  have hsome : tree.createDirAll path.dropLast ≠ none := by
    rw [Ne, createDirAll_eq_none]
    rintro ⟨front, file, hfront, hfile⟩
    exact hfree front hfront file hfile
  obtain ⟨made, hmade⟩ := Option.ne_none_iff_exists'.mp hsome
  refine ⟨made, hmade, ?_, ?_⟩
  · rw [get_createDirAll hmade]
    cases hold : tree.get path.dropLast with
    | none => exact if_pos ⟨List.prefix_refl _, rfl⟩
    | some entry =>
      cases entry with
      | directory => exact if_neg (fun hcon => nomatch hcon.2)
      | file file => exact absurd hold (hfree _ (List.prefix_refl _) file)
  · rw [get_createDirAll hmade, if_neg (fun hcon => ((prefix_dropLast_iff hne).mp hcon.1).2 rfl)]

/-- What a tree holds once a file was copied into it and given its mode. -/
theorem get_copied {made : FileTree} (hne : path ≠ []) (source : RegularFile) (mode : Nat)
    (other : List String) :
    ((made.set path (some (.file source))).setMode path mode).get other
      = if other = path then some (.file ⟨source.bytes, mode⟩) else made.get other := by
  rw [get_setMode hne ((get_set hne _ _).trans (if_pos rfl)), get_set hne]
  split <;> rfl

/-- One more file that is apart from all others fits. -/
theorem Laid.add (h : Laid tree files) (hne : path ≠ [])
    (hapart : ∀ entry ∈ files, Apart entry.1 path) (privileged : Bool) (source : RegularFile)
    (mode : Nat) :
    ∃ made copied, tree.createDirAll path.dropLast = some made ∧
      made.copy privileged path source = some copied ∧
      Laid (copied.setMode path mode) (files ++ [(path, ⟨source.bytes, mode⟩)]) := by
  obtain ⟨made, hmade, hparent, hself⟩ :=
    h.made hne fun entry hentry hpre => absurd hpre (hapart entry hentry).1
  refine ⟨made, made.set path (some (.file source)), hmade, ?_, ?_⟩
  · unfold copy
    rw [if_neg (not_not_intro hparent), hself, h.get_eq_none hne hapart]
  · refine h.of_get hne hapart fun other => ?_
    rw [get_copied hne, get_createDirAll hmade]

/-- A file on the way stops the directories. -/
theorem Laid.createDirAll_blocked (h : Laid tree files) (hne : path ≠ [])
    {entry : List String × RegularFile} (hentry : entry ∈ files) (hpre : entry.1 <+: path)
    (hproper : entry.1 ≠ path) : tree.createDirAll path.dropLast = none :=
  createDirAll_eq_none.mpr ⟨entry.1, entry.2, (prefix_dropLast_iff hne).mpr ⟨hpre, hproper⟩,
    (h.file _ _).mpr hentry⟩

/-- A file below makes the path a directory, and nothing is copied onto it. -/
theorem Laid.copy_onto_directory (h : Laid tree files) {made : FileTree}
    (hmade : tree.createDirAll path.dropLast = some made)
    {entry : List String × RegularFile} (hentry : entry ∈ files) (hpre : path <+: entry.1)
    (hproper : path ≠ entry.1) (privileged : Bool) (source : RegularFile) :
    made.copy privileged path source = none := by
  have hdirectory : made.get path = some .directory := by
    have hold := (h.directory path).mpr (Or.inr ⟨entry, hentry, hpre, hproper⟩)
    rw [get_createDirAll hmade, if_neg (fun hcon => by rw [hold] at hcon; cases hcon.2), hold]
  unfold copy
  rw [hdirectory]
  split <;> rfl

/-- A file in the place itself is replaced if it can be written. -/
theorem Laid.copy_onto_file (h : Laid tree files) (hne : path ≠ [])
    (hclear : ∀ entry ∈ files, entry.1 <+: path → entry.1 = path) {old : RegularFile}
    (hold : (path, old) ∈ files) (privileged : Bool) (source : RegularFile) :
    ∃ made, tree.createDirAll path.dropLast = some made ∧
      made.copy privileged path source = (if writable privileged old
        then some (made.set path (some (.file source))) else none) ∧
      ∀ other, made.get other = tree.get other := by
  obtain ⟨made, hmade, hparent, hself⟩ := h.made hne hclear
  refine ⟨made, hmade, ?_, ?_⟩
  · unfold copy
    rw [if_neg (not_not_intro hparent), hself, (h.file path old).mpr hold]
  · intro other
    rw [get_createDirAll hmade]
    split
    · rename_i hnew
      obtain ⟨hpre, hproper⟩ := (prefix_dropLast_iff hne).mp hnew.1
      rw [(h.directory other).mpr (Or.inr ⟨_, hold, hpre, hproper⟩)]
    · rfl

end FileTree

end Homie

/-! ### Paths as their components

`std::path::Path` compares, joins and climbs by components, so a path is the list of them.  A text
that is joined may replace what it is joined to, or climb out of it; one whose components are all
names goes down from it (`resolve_join`).
-/

namespace Homie

/-- `std::path::PathBuf`. -/
abbrev PathBuf := List Component

namespace PathBuf

/-- `Path::join`: a path from the root replaces what it is joined to. -/
def join (base : PathBuf) (text : String) : PathBuf :=
  match components text with
  | .rootDir :: rest => .rootDir :: rest
  | .curDir :: rest => if base = [] then .curDir :: rest else base ++ rest
  | rest => base ++ rest

/-- `Path::parent`. -/
def parent (path : PathBuf) : Option PathBuf :=
  match path.getLast? with
  | none | some .rootDir => none
  | some _ => some path.dropLast

/-- `Path::file_name`. -/
def fileName (path : PathBuf) : Option String :=
  match path.getLast? with
  | some (.normal name) => some name
  | _ => none

/-- One component further, in a tree without links. -/
def go (place : List String) : Component → List String
  | .rootDir => []
  | .curDir => place
  | .parentDir => place.dropLast
  | .normal name => place ++ [name]

/-- The names that lead from the root to where a path leads from a place. -/
def resolve (place : List String) (path : PathBuf) : List String := path.foldl go place

/-- The path leads to the directory or into it. -/
def Inside (place : List String) (dir path : PathBuf) : Prop :=
  resolve place dir <+: resolve place path

instance (place : List String) (dir path : PathBuf) : Decidable (Inside place dir path) :=
  inferInstanceAs (Decidable (_ <+: _))

theorem components_of_proper {name : String} (h : ProperName name) :
    components name = [.normal name] := by
  have hnames : ∀ other ∈ [name], ProperName other := by
    intro other hother
    rw [List.mem_singleton.mp hother]
    exact h
  have htext := components_pathText (List.cons_ne_nil name []) hnames
  have hname : pathText [name] = name := by simp [pathText]
  rwa [hname] at htext

theorem join_of_normal {text : String} {names : List String}
    (h : components text = names.map .normal) (base : PathBuf) :
    base.join text = base ++ names.map .normal := by
  unfold join
  rw [h]
  cases names <;> rfl

theorem join_of_proper {name : String} (h : ProperName name) (base : PathBuf) :
    base.join name = base ++ [.normal name] := by
  have hone : components name = [name].map Component.normal := components_of_proper h
  exact join_of_normal hone base

theorem resolve_append (place : List String) (front back : PathBuf) :
    resolve place (front ++ back) = resolve (resolve place front) back :=
  List.foldl_append

theorem resolve_normal (place names : List String) :
    resolve place (names.map .normal) = place ++ names := by
  induction names generalizing place with
  | nil => exact (List.append_nil place).symm
  | cons name names ih =>
    have hrest := ih (place ++ [name])
    rw [List.append_assoc, List.singleton_append] at hrest
    exact hrest

/-- A text of names leads down from where it is joined. -/
theorem resolve_join {text : String} {names : List String}
    (h : components text = names.map .normal) (place : List String) (base : PathBuf) :
    resolve place (base.join text) = resolve place base ++ names := by
  rw [join_of_normal h, resolve_append, resolve_normal]

theorem resolve_join_proper {name : String} (h : ProperName name) (place : List String)
    (base : PathBuf) : resolve place (base.join name) = resolve place base ++ [name] := by
  have hone : components name = [name].map Component.normal := components_of_proper h
  exact resolve_join hone place base

theorem parent_join_proper {name : String} (h : ProperName name) (base : PathBuf) :
    (base.join name).parent = some base := by
  rw [join_of_proper h]
  simp [parent]

theorem fileName_join_proper {name : String} (h : ProperName name) (base : PathBuf) :
    (base.join name).fileName = some name := by
  rw [join_of_proper h]
  simp [fileName]

end PathBuf

end Homie
