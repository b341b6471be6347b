/-
The spawn graph around a session, and the tool that releases an agent:
`homie-engine/src/mcp/host/lineage.rs`, `Registry::terminate` of `registry.rs`, and the
`release_agent` arm of `mcp/host/registry.rs`.

The tool reads the graph under one lock of the registry and terminates under another.  What the
registry does in between is not bounded, so the two are two registries here.  A poisoned lock and
a missing argument end the call before it does anything and are left out.
-/
import Homie.Engine.Status
import Homie.Remote.Holder

namespace Homie

/-! ### The spawn graph -/

namespace Lineage

/-- The fields of a record that the spawn graph and a termination read or write. -/
structure SessionRecord where
  id : String
  parent : Option String
  status : SessionStatus
deriving DecidableEq

inductive Relation where
  | caller
  | parent
  | child
  | ancestor
  | descendant
  | sibling
  | unrelated
deriving DecidableEq, Repr

end Lineage

open Lineage (SessionRecord Relation)

structure Lineage where
  records : List SessionRecord
  caller : Option String

namespace Lineage

def record (lineage : Lineage) (id : String) : Option SessionRecord :=
  lineage.records.find? fun r => r.id = id

/-- `self.record(id).and_then(|r| r.parent.as_ref())`. -/
def parentOf (lineage : Lineage) (id : String) : Option String :=
  (lineage.record id).bind (·.parent)

def childrenOf (lineage : Lineage) (id : String) : List SessionRecord :=
  lineage.records.filter fun r => r.parent = some id

theorem record_eq_some {lineage : Lineage} {id : String} {record : SessionRecord}
    (h : lineage.record id = some record) : record ∈ lineage.records ∧ record.id = id :=
  ⟨List.mem_of_find?_eq_some h, by simpa using List.find?_some h⟩

/-- The records a walk that has seen `seen` has not come to. -/
def unseen (lineage : Lineage) (seen : List String) : Nat :=
  lineage.records.countP fun r => r.id ∉ seen

/-- The records whose parent has not been seen. -/
def unqueued (lineage : Lineage) (seen : List String) : Nat :=
  lineage.records.countP fun r => ∃ parent ∈ r.parent, parent ∉ seen

theorem unseen_lt {lineage : Lineage} {seen : List String} {id : String} {record : SessionRecord}
    (hseen : id ∉ seen) (h : lineage.record id = some record) :
    lineage.unseen (id :: seen) < lineage.unseen seen := by
  obtain ⟨hmem, hid⟩ := record_eq_some h
  obtain ⟨front, back, hrecords⟩ := List.append_of_mem hmem
  have hle : ∀ records : List SessionRecord,
      records.countP (fun r => r.id ∉ id :: seen) ≤ records.countP fun r => r.id ∉ seen := by
    intro records
    refine List.countP_mono_left ?_
    intro r _ hr
    simp only [List.mem_cons, not_or, decide_eq_true_eq] at hr ⊢
    exact hr.2
  have hfront := hle front
  have hback := hle back
  unfold unseen
  rw [hrecords, List.countP_append, List.countP_append, List.countP_cons_of_neg (by simp [hid]),
    List.countP_cons_of_pos (by simp [hid, hseen])]
  omega

/-- Seeing a node takes its children out of those still to queue. -/
theorem unqueued_cons {lineage : Lineage} {seen : List String} {id : String} (hseen : id ∉ seen) :
    (lineage.childrenOf id).length + lineage.unqueued (id :: seen) = lineage.unqueued seen := by
  unfold childrenOf unqueued
  rw [← List.countP_eq_length_filter]
  induction lineage.records with
  | nil => rfl
  | cons r records ih =>
    simp only [List.countP_cons]
    rw [← ih]
    cases hparent : r.parent with
    | none => simp
    | some parent =>
      by_cases hid : parent = id
      · simp [hid, hseen]
        omega
      · simp [hid]
        omega

def descendantsLoop (lineage : Lineage) (seen : List String) :
    List SessionRecord → List SessionRecord
  | [] => []
  | next :: queue =>
    if next.id ∈ seen then lineage.descendantsLoop seen queue
    else next :: lineage.descendantsLoop (next.id :: seen) (queue ++ lineage.childrenOf next.id)
termination_by queue => queue.length + lineage.unqueued seen
decreasing_by
  · simp
  · have h := @unqueued_cons lineage _ _ ‹next.id ∉ seen›
    simp only [List.length_append, List.length_cons]
    omega

/-- Breadth first, with the ids seen kept against cycles. -/
def descendantsOf (lineage : Lineage) (id : String) : List SessionRecord :=
  lineage.descendantsLoop [id] (lineage.childrenOf id)

def ancestorsLoop (lineage : Lineage) (seen : List String) (cursor : Option String) :
    List SessionRecord :=
  match cursor with
  | none => []
  | some current =>
    if current ∈ seen then []
    else
      match _h : lineage.record current with
      | none => []
      | some record => record :: lineage.ancestorsLoop (current :: seen) record.parent
termination_by lineage.unseen seen
decreasing_by exact unseen_lt ‹current ∉ seen› _h

/-- To the root, nearest first, with the ids seen kept against cycles. -/
def ancestorsOf (lineage : Lineage) (id : String) : List SessionRecord :=
  lineage.ancestorsLoop [id] (lineage.parentOf id)

def relationTo (lineage : Lineage) (target : String) : Relation :=
  match lineage.caller with
  | none => .unrelated
  | some caller =>
    if caller = target then .caller
    else if lineage.parentOf caller = some target then .parent
    else if lineage.parentOf target = some caller then .child
    else if (lineage.ancestorsOf caller).any (·.id = target) then .ancestor
    else if (lineage.descendantsOf caller).any (·.id = target) then .descendant
    else
      let mine := lineage.parentOf caller
      let theirs := lineage.parentOf target
      if mine.isSome ∧ mine = theirs then .sibling else .unrelated

/-! ### Release -/

/-- The records, and the ids of the live sessions. -/
structure Registry where
  records : List SessionRecord
  sessions : Finset String

/-- The graph around a caller. -/
def Registry.lineage (registry : Registry) (caller : Option String) : Lineage :=
  ⟨registry.records, caller⟩

/-- The exit a termination leaves in the record. -/
def exitInfo : Remote.Exit → ExitInfo
  | .code code => ⟨.exited, some code, none⟩
  | .signal signal => ⟨.signaled, none, some signal⟩

/-- `outcome` is what ending the session's process answers. -/
def Registry.terminate (registry : Registry) (id : String) (outcome : Except String Remote.Exit) :
    Registry × Except String (Option Remote.Exit) :=
  if id ∈ registry.sessions then
    let registry := { registry with sessions := registry.sessions.erase id }
    match outcome with
    | .error error => (registry, .error error)
    | .ok exit =>
      let records := registry.records.map fun record =>
        if record.id = id then { record with status := .exited (exitInfo exit) } else record
      ({ registry with records := records }, .ok (some exit))
  else (registry, .ok none)

/-- The tool: the relation is read from `checked`, and `registry` is what the second lock finds. -/
def releaseAgent (caller : Option String) (checked registry : Registry) (id : String)
    (outcome : Except String Remote.Exit) : Registry × Except String String :=
  match (checked.lineage caller).relationTo id with
  | .caller | .ancestor =>
    (registry, .error "release_agent refuses to kill you or any of your ancestors")
  | _ =>
    match registry.terminate id outcome with
    | (registry, .error error) => (registry, .error error)
    | (registry, .ok none) => (registry, .error s!"no session {id}")
    | (registry, .ok (some _)) => (registry, .ok id)

end Lineage

end Homie
