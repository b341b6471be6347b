/-
The process tree under a held child: `enumerate` of `homie-engine/src/holder/process_tree.rs`.

A snapshot of all processes is walked with a stack: a process adds its children, and the first
member of a process group adds the others.  What the platform answers is an argument: the
snapshot, and the start times that are looked up afresh when the walk is over.  Sets are lists
without repetition, so the order of the result is the code's up to the order of a hash set.
-/
import Mathlib

namespace Homie.ProcessTree

/-- A process's identity and tree-relevant relations at one observation. -/
structure Observed where
  pid : Int32
  ppid : Int32
  pgid : Int32
deriving DecidableEq, Repr

structure HolderProcessSample where
  pid : Int32
  startSec : Int64
deriving DecidableEq, Repr

structure Walk where
  seen : List Int32
  scannedGroups : List Int32
  /-- The top of the stack first. -/
  frontier : List Int32

def children (all : List Observed) (pid : Int32) : List Int32 :=
  (all.filter fun process => process.ppid = pid).map Observed.pid

def members (all : List Observed) (pgid : Int32) : List Int32 :=
  (all.filter fun process => process.pgid = pgid).map Observed.pid

/-- What a process that has not been seen adds to the walk. -/
def visit (all : List Observed) (walk : Walk) (pid : Int32) : Walk :=
  let walk := { walk with
    seen := pid :: walk.seen
    frontier := (children all pid).reverse ++ walk.frontier }
  match all.find? fun process => process.pid = pid with
  | none => walk
  | some process =>
    if 1 < process.pgid ∧ process.pgid ∉ walk.scannedGroups then
      { walk with
        scannedGroups := process.pgid :: walk.scannedGroups
        frontier := (members all process.pgid).reverse ++ walk.frontier }
    else walk

/-! ### The walk ends -/

/-- The stack, and what may still be put on it. -/
def pending (all : List Observed) (walk : Walk) : Nat :=
  walk.frontier.length + all.countP (fun process => process.ppid ∉ walk.seen)
    + all.countP fun process => process.pgid ∉ walk.scannedGroups

theorem countP_notMem_cons (all : List Observed) (key : Observed → Int32) {value : Int32}
    {values : List Int32} (h : value ∉ values) :
    ((all.filter fun process => key process = value).map Observed.pid).length
        + all.countP (fun process => key process ∉ value :: values)
      = all.countP fun process => key process ∉ values := by
  rw [List.length_map, ← List.countP_eq_length_filter]
  induction all with
  | nil => rfl
  | cons process all ih =>
    simp only [List.countP_cons]
    rw [← ih]
    by_cases hkey : key process = value
    · simp [hkey, h]
      omega
    · simp [hkey]
      omega

theorem pending_visit (all : List Observed) (walk : Walk) {pid : Int32} (h : pid ∉ walk.seen) :
    pending all (visit all walk pid) = pending all walk := by
  have hchildren := countP_notMem_cons all Observed.ppid h
  unfold visit
  dsimp only
  cases all.find? fun process => process.pid = pid with
  | none =>
    simp only [pending, children, List.length_append, List.length_reverse]
    omega
  | some process =>
    dsimp only
    split
    · next hgroup =>
        have hmembers := countP_notMem_cons all Observed.pgid hgroup.2
        simp only [pending, children, members, List.length_append, List.length_reverse]
        omega
    · simp only [pending, children, List.length_append, List.length_reverse]
      omega

/-- The `while` loop of `enumerate`: the pids it has seen when the stack is empty. -/
def walkFrom (all : List Observed) (holderPid : Int32) (walk : Walk) : List Int32 :=
  match _hfrontier : walk.frontier with
  | [] => walk.seen
  | pid :: frontier =>
    if _hskip : pid ≤ 1 ∨ pid = holderPid ∨ pid ∈ walk.seen then
      walkFrom all holderPid { walk with frontier }
    else walkFrom all holderPid (visit all { walk with frontier } pid)
termination_by pending all walk
decreasing_by
  · simp only [pending, _hfrontier, List.length_cons]
    omega
  · rw [pending_visit all { walk with frontier } fun hseen => _hskip (.inr (.inr hseen))]
    simp only [pending, _hfrontier, List.length_cons]
    omega

theorem walkFrom_done {all : List Observed} {holderPid : Int32} {walk : Walk}
    (h : walk.frontier = []) : walkFrom all holderPid walk = walk.seen := by
  rw [walkFrom]
  split
  · rfl
  · next hcons => rw [h] at hcons; cases hcons

theorem walkFrom_cons {all : List Observed} {holderPid : Int32} {walk : Walk} {pid : Int32}
    {frontier : List Int32} (h : walk.frontier = pid :: frontier) :
    walkFrom all holderPid walk =
      if pid ≤ 1 ∨ pid = holderPid ∨ pid ∈ walk.seen then
        walkFrom all holderPid { walk with frontier }
      else walkFrom all holderPid (visit all { walk with frontier } pid) := by
  rw [walkFrom]
  split
  · next hnil => rw [h] at hnil; cases hnil
  · next hcons =>
      obtain ⟨rfl, rfl⟩ := List.cons.inj (h.symm.trans hcons)
      rw [dite_eq_ite]

/-- Walks the tree under `root`. -/
def enumerate (all : List Observed) (holderPid : Int32) (startTime : Int32 → Option Int64)
    (root : Int32) : List HolderProcessSample :=
  if root ≤ 1 then []
  else
    (walkFrom all holderPid ⟨[], [], [root]⟩).filterMap fun pid =>
      (startTime pid).map fun startSec => ⟨pid, startSec⟩

end Homie.ProcessTree
