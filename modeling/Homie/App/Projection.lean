/-
The sidebar of the app: `homie-app/src/store/projection.rs`.

A hash set is its membership test and a hash map its lookup; where the code walks a hash map,
the order it is walked in is an argument.  The vectors that `build_tree` indexes have the length
of `active` and hold indices into it, so they are functions on those indices.

The two loops of the code take fuel and answer `none` when it does not suffice.  Depths are
16-bit and wrap, as in a release build.
-/
import Mathlib
import Homie.App.Record
import Homie.Lib.Sorting

namespace Homie.App

/-- A hash map hands its entries out in some order. -/
structure HashOrder (α : Type) where
  visit : List α → List α
  perm : ∀ l, (visit l).Perm l

structure Prefs where
  sidebarProjectOrder : List ProjectId
  sidebarSessionOrder : List SessionId
  sidebarPinnedProjects : List ProjectId
  sidebarPinnedSessions : List SessionId
  sidebarCollapsedProjects : List ProjectId
  sidebarCollapsedSessions : List SessionId

structure SidebarRow where
  session : SessionRecord
  depth : UInt16
  hasChildren : Bool
  collapsed : Bool
  pinned : Bool
  rails : UInt32
deriving DecidableEq

structure SidebarProject where
  project : Project
  host : Option String
  /-- Visible rows in tree order. -/
  sessions : List SidebarRow
  /-- Every active session in the group, in the same tree order. -/
  active : List SessionRecord
  archived : List SessionRecord
  pinned : Bool
deriving DecidableEq

structure SidebarProjection where
  projects : List SidebarProject
  orderedSessions : List SessionRecord
  displayOrder : List SessionId
deriving DecidableEq

/-! ### Order among siblings -/

def UNRANKED : Nat := 2 ^ 64 - 1

/-- A later entry replaces an earlier one for the same id. -/
def rankMap (order : List String) (id : String) : Option Nat :=
  (order.zipIdx.reverse.find? (·.1 == id)).map (·.2)

def rankOf (ranks : String → Option Nat) (id : String) : Nat := (ranks id).getD UNRANKED

/-- Pinned first, then the manual order, then arrival. -/
def siblingCmp (left right : SessionRecord) (ranks : SessionId → Option Nat)
    (pinned : SessionId → Bool) : Ordering :=
  (compare (pinned right.id) (pinned left.id)).then <|
  (compare (rankOf ranks left.id) (rankOf ranks right.id)).then <|
  (compare left.createdAt right.createdAt).then <|
  compare left.id right.id

/-! ### Parents -/

section Parents

variable {n : Nat}

/-- The map from ids to positions; a later position replaces an earlier one. -/
def indexOf (active : List SessionRecord) (id : SessionId) : Option (Fin active.length) :=
  (List.finRange active.length).reverse.find? fun index => (active.get index).id == id

/-- The parents before cycles are broken. -/
def namedParents (active : List SessionRecord) (position : Fin active.length) :
    Option (Fin active.length) :=
  ((active.get position).parent.bind (indexOf active)).filter (· ≠ position)

/-- The walk up from a node: whether it comes to a node it has `seen`. -/
def climb (parents : Fin n → Option (Fin n)) :
    Nat → List (Fin n) → Option (Fin n) → Option Bool
  | _, _, none => some false
  | 0, _, some _ => none
  | fuel + 1, seen, some node =>
    if node ∈ seen then some true else climb parents fuel (node :: seen) (parents node)

/-- One round of the cycle breaker. -/
def breakFrom (fuel : Nat) (parents : Fin n → Option (Fin n)) (start : Fin n) :
    Option (Fin n → Option (Fin n)) :=
  (climb parents fuel [start] (parents start)).map fun looped =>
    if looped then Function.update parents start none else parents

def resolveParents (fuel : Nat) (active : List SessionRecord) :
    Option (Fin active.length → Option (Fin active.length)) :=
  (List.finRange active.length).foldlM (breakFrom fuel) (namedParents active)

end Parents

/-! ### The tree of a project -/

section Tree

variable {active : List SessionRecord}

/-- What the stack holds about a node. -/
structure Entry (active : List SessionRecord) where
  index : Fin active.length
  depth : UInt16
  visible : Bool
  rails : UInt32

variable (children : Fin active.length → List (Fin active.length))
variable (pinned collapsed : SessionId → Bool)

def Entry.session (entry : Entry active) : SessionRecord := active.get entry.index

def Entry.isCollapsed (entry : Entry active) : Bool :=
  !(children entry.index).isEmpty && collapsed entry.session.id

def Entry.row (entry : Entry active) : SidebarRow where
  session := entry.session
  depth := entry.depth
  hasChildren := !(children entry.index).isEmpty
  collapsed := entry.isCollapsed children collapsed
  pinned := pinned entry.session.id
  rails := entry.rails

/-- The entries pushed for the children of a node, the first child on top. -/
def Entry.expand (entry : Entry active) : List (Entry active) :=
  let childrenVisible := entry.visible && !entry.isCollapsed children collapsed
  let count := (children entry.index).length
  let inherited := entry.rails ||| ((1 : UInt32) <<< (min entry.depth 31).toUInt32)
  (children entry.index).zipIdx.map fun (child, position) =>
    let childRails := if position + 1 = count then entry.rails else inherited
    ⟨child, entry.depth + 1, childrenVisible, childRails⟩

/-- The loop over the stack; the head of the list is its top. -/
def flatten : Nat → List (Entry active) → List SidebarRow → List SessionRecord →
    Option (List SidebarRow × List SessionRecord)
  | _, [], rows, treeOrder => some (rows, treeOrder)
  | 0, _ :: _, _, _ => none
  | fuel + 1, entry :: stack, rows, treeOrder =>
    flatten fuel (entry.expand children collapsed ++ stack)
      (if entry.visible then rows ++ [entry.row children pinned collapsed] else rows)
      (treeOrder ++ [entry.session])

end Tree

/-- The nodes whose parent is `parent`, in the order of `sibling_cmp`. -/
def siblings (active : List SessionRecord) (sessionRank : SessionId → Option Nat)
    (pinned : SessionId → Bool) (parents : Fin active.length → Option (Fin active.length))
    (parent : Option (Fin active.length)) : List (Fin active.length) :=
  ((List.finRange active.length).filter fun index => parents index = parent).mergeSort
    fun left right => (siblingCmp (active.get left) (active.get right) sessionRank pinned).isLE

/-- `(visible rows, every session in tree order)`. -/
def buildTree (fuel : Nat) (active : List SessionRecord) (sessionRank : SessionId → Option Nat)
    (pinned collapsed : SessionId → Bool) (projectExpanded : Bool) :
    Option (List SidebarRow × List SessionRecord) := do
  let parents ← resolveParents fuel active
  let children := fun parent => siblings active sessionRank pinned parents (some parent)
  let roots := siblings active sessionRank pinned parents none
  flatten children pinned collapsed fuel (roots.map fun index => ⟨index, 0, projectExpanded, 0⟩)
    [] []

/-! ### The projection -/

/-- `Path::file_name`. -/
def fileName (path : String) : Option String :=
  match ((path.splitOn "/").filter fun part => part ≠ "" ∧ part ≠ ".").getLast? with
  | some name => if name = ".." then none else some name
  | none => none

/-- `max_by`: of several newest sessions the last one. -/
def newest (sessions : List SessionRecord) : Option SessionRecord :=
  sessions.foldl (fun best session => match best with
    | none => some session
    | some best => if best.createdAt ≤ session.createdAt then some session else some best) none

def syntheticProject (id : ProjectId) (sessions : List SessionRecord) : Project :=
  let root := ((newest sessions).map fun session => session.worktreePath.getD session.cwd).getD id
  let name := ((fileName root).filter fun name => !name.isEmpty).getD root
  ⟨id, root, name, none⟩

/-- Closing rows and the shells of a workbench are not listed. -/
def listed (closing : List SessionId) (session : SessionRecord) : Bool :=
  !(closing.contains session.id || isAuxiliaryTerminal session)

/-- `entry(project_id).or_default().push(session)`. -/
def pushGroup (groups : List (ProjectId × List SessionRecord)) (session : SessionRecord) :
    List (ProjectId × List SessionRecord) :=
  if groups.any (·.1 == session.projectId) then
    groups.map fun (id, group) =>
      if id == session.projectId then (id, group ++ [session]) else (id, group)
  else groups ++ [(session.projectId, [session])]

def grouped (sessions : SessionMap) (closing : List SessionId) :
    List (ProjectId × List SessionRecord) :=
  (sessions.values.filter (listed closing)).foldl pushGroup []

/-- Most recently archived first. -/
def archivedCmp (left right : SessionRecord) : Ordering :=
  (compare right.archivedAt left.archivedAt).then (compare left.id right.id)

/-- One group of sessions, with the time its oldest session came. -/
def buildGroup (fuel : Nat) (projects : ProjectId → Option Project) (prefs : Prefs)
    (entry : ProjectId × List SessionRecord) : Option (Option DateMillis × SidebarProject) := do
  let (projectId, group) := entry
  let project := (projects projectId).getD (syntheticProject projectId group)
  let host := group.head?.bind (·.host)
  let arrival := (group.map (·.createdAt)).min?
  let archived := (group.filter (·.isArchived)).mergeSort fun left right =>
    (archivedCmp left right).isLE
  let (sessions, active) ← buildTree fuel (group.filter (!·.isArchived))
    (rankMap prefs.sidebarSessionOrder) prefs.sidebarPinnedSessions.contains
    prefs.sidebarCollapsedSessions.contains (!prefs.sidebarCollapsedProjects.contains projectId)
  some (arrival, {
    project := project
    host := host
    sessions := sessions
    active := active
    archived := archived
    pinned := prefs.sidebarPinnedProjects.contains project.id })

/-- Pinned projects lead, then the manual order, then arrival. -/
def projectCmp (ranks : ProjectId → Option Nat)
    (left right : Option DateMillis × SidebarProject) : Ordering :=
  (compare right.2.pinned left.2.pinned).then <|
  (compare (rankOf ranks left.2.project.id) (rankOf ranks right.2.project.id)).then <|
  (compare left.1 right.1).then <|
  compare left.2.project.id right.2.project.id

def buildProjection (order : HashOrder (ProjectId × List SessionRecord)) (fuel : Nat)
    (sessions : SessionMap) (projects : ProjectId → Option Project) (prefs : Prefs)
    (selected : Option SessionId) (closing : List SessionId) : Option SidebarProjection := do
  let ranked ← (order.visit (grouped sessions closing)).mapM (buildGroup fuel projects prefs)
  let result := (ranked.mergeSort fun left right =>
    (projectCmp (rankMap prefs.sidebarProjectOrder) left right).isLE).map (·.2)
  some {
    projects := result
    orderedSessions := result.flatMap fun group =>
      group.sessions.map (·.session) ++
        group.archived.filter fun session => selected == some session.id
    displayOrder := result.flatMap fun group =>
      (group.active ++ group.archived).map (·.id) }

end Homie.App

/-! ### The manual order of the sidebar: `reconcile_order` and `retain_live` of `homie-
app/src/store/mod.rs`, and `reconcile_sidebar_order` of `store/ordering.rs`

An arrival of infinity, of a project without sessions, is `none` and sorts last.
-/

namespace Homie.App

open Sorting

/-- Drops ids that no longer exist and appends those that the order has not seen; `none` when the
order already agreed. -/
def reconcileOrder (order : List String) (live : String → Bool) (arriving : List String) :
    Option (List String) :=
  let next := order.filter live
  let appended := arriving.filter fun id => !order.contains id
  if next.length = order.length ∧ appended = [] then none else some (next ++ appended)

/-- Prunes ids that no longer exist, or `none` when there was nothing to prune. -/
def retainLive (values : List String) (live : String → Bool) : Option (List String) :=
  let kept := values.filter live
  if kept.length ≠ values.length then some kept else none

/-- Earliest first. -/
def sessionArrivalCmp (left right : SessionRecord) : Ordering :=
  (compare left.createdAt right.createdAt).then (compare left.id right.id)

/-- A project arrives with its oldest session, of whatever kind. -/
def projectArrival (sessions : SessionMap) (id : ProjectId) : Option DateMillis :=
  ((sessions.values.filter (·.projectId == id)).map (·.createdAt)).min?

def projectArrivalCmp (left right : Option DateMillis × ProjectId) : Ordering :=
  (compare left.1.isNone right.1.isNone).then <|
  (compare left.1 right.1).then <|
  compare left.2 right.2

/-- The preferences with the order of everything that has arrived, and whether they changed. -/
def reconcileSidebarOrder (sessions : SessionMap) (projects : ProjectMap) (prefs : Prefs) :
    Prefs × Bool :=
  let liveSession := fun id => (sessions.get id).isSome
  let liveProject := fun id => (projects.get id).isSome
  let arrivals := sortBy sessionArrivalCmp sessions.values
  let projectArrivals := sortBy projectArrivalCmp
    (projects.values.map fun project => (projectArrival sessions project.id, project.id))
  let order := reconcileOrder prefs.sidebarSessionOrder liveSession (arrivals.map (·.id))
  let orderedProjects := reconcileOrder prefs.sidebarProjectOrder liveProject
    (projectArrivals.map (·.2))
  let collapsed := retainLive prefs.sidebarCollapsedSessions liveSession
  let pinned := retainLive prefs.sidebarPinnedSessions liveSession
  ({ prefs with
      sidebarSessionOrder := order.getD prefs.sidebarSessionOrder
      sidebarProjectOrder := orderedProjects.getD prefs.sidebarProjectOrder
      sidebarCollapsedSessions := collapsed.getD prefs.sidebarCollapsedSessions
      sidebarPinnedSessions := pinned.getD prefs.sidebarPinnedSessions },
    order.isSome || orderedProjects.isSome || collapsed.isSome || pinned.isSome)

end Homie.App
