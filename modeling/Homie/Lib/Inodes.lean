/-
Names for files, with the files apart from the names.

A handle that was opened under a name stays with the file when the name moves on, so a
name leads to a number and the number to what the file holds.  No two names lead to one
file: there is `create` and `rename`, and no hard link.

`read_create`, `read_modify` and `read_rename` say what each operation does to what stands
under each name.
-/
import Mathlib

namespace Homie

/-- Files by number, and the names that lead to them. -/
structure Inodes (κ α : Type) where
  link : κ → Option Nat
  file : Nat → α
  /-- The numbers below it have been given out. -/
  next : Nat
  link_inj : ∀ name name' inode, link name = some inode → link name' = some inode → name = name'
  link_lt : ∀ name inode, link name = some inode → inode < next

namespace Inodes

variable {κ α : Type}

/-- What stands under a name. -/
def read (files : Inodes κ α) (name : κ) : Option α := (files.link name).map files.file

def empty (filler : α) : Inodes κ α where
  link := fun _ => none
  file := fun _ => filler
  next := 0
  link_inj := nofun
  link_lt := nofun

/-- What is done through a handle. -/
def modify (files : Inodes κ α) (handle : Nat) (f : α → α) : Inodes κ α :=
  { files with file := Function.update files.file handle (f (files.file handle)) }

theorem read_modify (files : Inodes κ α) (handle : Nat) (f : α → α) (name : κ) :
    (files.modify handle f).read name
      = if files.link name = some handle then (files.read name).map f else files.read name := by
  unfold read modify
  cases hlink : files.link name with
  | none => rfl
  | some inode =>
    by_cases h : inode = handle
    · rw [if_pos (congrArg some h), h]
      simp only [Option.map_some, Function.update_self]
    · rw [if_neg (fun heq => h (Option.some.inj heq))]
      simp only [Option.map_some, Function.update_of_ne h]

variable [DecidableEq κ]

/-- A new file under a name; whatever had the name has none. -/
def create (files : Inodes κ α) (name : κ) (value : α) : Inodes κ α where
  link := Function.update files.link name (some files.next)
  file := Function.update files.file files.next value
  next := files.next + 1
  link_inj := by
    have hne : ∀ other inode, files.link other = some inode → inode ≠ files.next :=
      fun other inode h => Nat.ne_of_lt (files.link_lt other inode h)
    intro first second inode hfirst hsecond
    by_cases h : first = name <;> by_cases h' : second = name
    · rw [h, h']
    · rw [h, Function.update_self] at hfirst
      rw [Function.update_of_ne h'] at hsecond
      exact absurd (Option.some.inj hfirst).symm (hne second inode hsecond)
    · rw [h', Function.update_self] at hsecond
      rw [Function.update_of_ne h] at hfirst
      exact absurd (Option.some.inj hsecond).symm (hne first inode hfirst)
    · rw [Function.update_of_ne h] at hfirst
      rw [Function.update_of_ne h'] at hsecond
      exact files.link_inj first second inode hfirst hsecond
  link_lt := by
    intro other inode hother
    by_cases h : other = name
    · rw [h, Function.update_self] at hother
      rw [← Option.some.inj hother]
      exact Nat.lt_succ_self _
    · rw [Function.update_of_ne h] at hother
      exact Nat.lt_succ_of_lt (files.link_lt other inode hother)

/-- A name takes the place of another. -/
def rename (files : Inodes κ α) (source target : κ) : Inodes κ α where
  link := Function.update (Function.update files.link target (files.link source)) source none
  file := files.file
  next := files.next
  link_inj := by
    -- Only the source can lead where the target now leads, and it leads nowhere.
    have hback : ∀ name inode,
        Function.update (Function.update files.link target (files.link source)) source none name
          = some inode →
        (name = target ∧ files.link source = some inode) ∨
          (name ≠ target ∧ name ≠ source ∧ files.link name = some inode) := by
      intro name inode h
      by_cases hsource : name = source
      · rw [hsource, Function.update_self] at h
        cases h
      · rw [Function.update_of_ne hsource] at h
        by_cases htarget : name = target
        · rw [htarget, Function.update_self] at h
          exact Or.inl ⟨htarget, h⟩
        · rw [Function.update_of_ne htarget] at h
          exact Or.inr ⟨htarget, hsource, h⟩
    intro first second inode hfirst hsecond
    rcases hback first inode hfirst with ⟨h, hlink⟩ | ⟨-, hne, hlink⟩ <;>
      rcases hback second inode hsecond with ⟨h', hlink'⟩ | ⟨-, hne', hlink'⟩
    · rw [h, h']
    · exact absurd (files.link_inj _ _ _ hlink' hlink) hne'
    · exact absurd (files.link_inj _ _ _ hlink hlink') hne
    · exact files.link_inj _ _ _ hlink hlink'
  link_lt := by
    intro name inode h
    by_cases hsource : name = source
    · rw [hsource, Function.update_self] at h
      cases h
    · rw [Function.update_of_ne hsource] at h
      by_cases htarget : name = target
      · rw [htarget, Function.update_self] at h
        exact files.link_lt source inode h
      · rw [Function.update_of_ne htarget] at h
        exact files.link_lt name inode h

theorem link_create (files : Inodes κ α) (name : κ) (value : α) (other : κ) :
    (files.create name value).link other
      = if other = name then some files.next else files.link other :=
  Function.update_apply ..

theorem link_rename (files : Inodes κ α) (source target name : κ) :
    (files.rename source target).link name
      = if name = source then none
        else if name = target then files.link source else files.link name := by
  show Function.update (Function.update files.link target (files.link source)) source none name = _
  rw [Function.update_apply, Function.update_apply]

theorem read_create (files : Inodes κ α) (name : κ) (value : α) (other : κ) :
    (files.create name value).read other
      = if other = name then some value else files.read other := by
  unfold read create
  by_cases h : other = name
  · rw [if_pos h, h]
    simp only [Function.update_self, Option.map_some]
  · rw [if_neg h]
    simp only [Function.update_of_ne h]
    cases hlink : files.link other with
    | none => rfl
    | some inode =>
      simp only [Option.map_some]
      rw [Function.update_of_ne (Nat.ne_of_lt (files.link_lt other inode hlink))]

theorem read_rename (files : Inodes κ α) (source target name : κ) :
    (files.rename source target).read name
      = if name = source then none
        else if name = target then files.read source else files.read name := by
  unfold read rename
  by_cases hsource : name = source
  · rw [if_pos hsource, hsource]
    simp only [Function.update_self, Option.map_none]
  · rw [if_neg hsource]
    simp only [Function.update_of_ne hsource]
    by_cases htarget : name = target
    · rw [if_pos htarget, htarget]
      simp only [Function.update_self]
    · rw [if_neg htarget]
      simp only [Function.update_of_ne htarget]

end Inodes

end Homie

/-! ### One path on a disk, as far as rename and open handles go

A file is an inode: a number under which its bytes are kept.  The path names at most
one of them.  Renaming another file over the path makes it name a new inode, while a
handle opened before goes on reading the old one.  Every operation here succeeds.
-/

namespace Homie

/-- The files that were ever created, by inode, and the one behind the path. -/
structure Disk where
  files : List (List UInt8)
  path : Option Nat
deriving DecidableEq, Repr

namespace Disk

def empty : Disk := ⟨[], none⟩

def contents (disk : Disk) (inode : Nat) : List UInt8 := disk.files.getD inode []

/-- A new file with these bytes takes the path, whatever it named before. -/
def replace (disk : Disk) (bytes : List UInt8) : Disk :=
  ⟨disk.files ++ [bytes], some disk.files.length⟩

/-- Opens for writing, creating or truncating, and writes these bytes. -/
def rewrite (disk : Disk) (bytes : List UInt8) : Disk :=
  match disk.path with
  | some inode => ⟨disk.files.set inode bytes, disk.path⟩
  | none => disk.replace bytes

/-- Writes at a position of an open file; a gap behind its end reads as zeros. -/
def writeAt (disk : Disk) (inode pos : Nat) (bytes : List UInt8) : Disk :=
  let file := disk.contents inode
  let head := file.take pos ++ List.replicate (pos - file.length) 0
  ⟨disk.files.set inode (head ++ bytes ++ file.drop (pos + bytes.length)), disk.path⟩

/-- Up to `count` bytes from a position of an open file. -/
def readAt (disk : Disk) (inode pos count : Nat) : List UInt8 :=
  ((disk.contents inode).drop pos).take count

/-- The path, if it names anything, names a file there is. -/
def Linked (disk : Disk) : Prop := ∀ inode, disk.path = some inode → inode < disk.files.length

theorem linked_empty : empty.Linked := nofun

theorem contents_replace_new (disk : Disk) (bytes : List UInt8) :
    (disk.replace bytes).contents disk.files.length = bytes := by
  simp [replace, contents, List.getD_eq_getElem?_getD]

theorem contents_replace_old (disk : Disk) (bytes : List UInt8) {inode : Nat}
    (h : inode < disk.files.length) :
    (disk.replace bytes).contents inode = disk.contents inode := by
  simp [replace, contents, List.getD_eq_getElem?_getD, List.getElem?_append_left h]

theorem contents_writeAt_end (disk : Disk) {inode pos : Nat} (h : inode < disk.files.length)
    (hpos : pos = (disk.contents inode).length) (bytes : List UInt8) :
    (disk.writeAt inode pos bytes).contents inode = disk.contents inode ++ bytes := by
  subst hpos
  unfold writeAt
  generalize hfile : disk.contents inode = file
  simp [contents, List.getD_eq_getElem?_getD, h]

theorem contents_writeAt_ne (disk : Disk) {inode other : Nat} (h : other ≠ inode) (pos : Nat)
    (bytes : List UInt8) : (disk.writeAt inode pos bytes).contents other = disk.contents other := by
  simp [writeAt, contents, List.getD_eq_getElem?_getD, List.getElem?_set_ne h.symm]

@[simp] theorem length_files_writeAt (disk : Disk) (inode pos : Nat) (bytes : List UInt8) :
    (disk.writeAt inode pos bytes).files.length = disk.files.length :=
  List.length_set

@[simp] theorem length_files_replace (disk : Disk) (bytes : List UInt8) :
    (disk.replace bytes).files.length = disk.files.length + 1 := by
  simp [replace]

/-- A file written from the start is the one behind the path. -/
theorem Linked.rewrite {disk : Disk} (h : disk.Linked) (bytes : List UInt8) :
    ∃ inode, (disk.rewrite bytes).path = some inode ∧
      inode < (disk.rewrite bytes).files.length ∧ (disk.rewrite bytes).contents inode = bytes := by
  unfold Disk.rewrite
  cases hpath : disk.path with
  | none =>
    refine ⟨disk.files.length, rfl, ?_, contents_replace_new disk bytes⟩
    rw [length_files_replace]
    omega
  | some inode =>
    have hbound := h inode hpath
    refine ⟨inode, rfl, by simpa using hbound, ?_⟩
    simp [contents, List.getD_eq_getElem?_getD, hbound]

end Disk

end Homie
