/-
The sidebar and the order in which a hash map hands its sessions out.

Sorting hides that order wherever the comparison ends in an id.  It shows in three places, which
read the list of a group as it comes: the first session of a group gives the host, the last of the
newest gives a project without a record its root, and the first node of a parent cycle loses its
link.  Where these places find one answer whatever they read first, the sidebar is a function of
the set of sessions; elsewhere two orders tell two sidebars apart.
-/
import Homie.Proofs.ManualOrder

namespace Homie.App

open Forest Sorting

/-! ### Parents by session -/

section Parents

variable {active active' : List SessionRecord}

/-- The session that a session names as its parent, itself excluded. -/
def parentOf (l : List SessionRecord) (session : SessionRecord) : Option SessionRecord :=
  (session.parent.bind fun id => l.find? (·.id == id)).filter (· ≠ session)

theorem find_id_eq_some (hids : (active.map (·.id)).Nodup) {id : SessionId}
    {session : SessionRecord} :
    active.find? (·.id == id) = some session ↔ session ∈ active ∧ session.id = id := by
  constructor
  · intro h
    exact ⟨List.mem_of_find?_eq_some h, by simpa using List.find?_some h⟩
  · rintro ⟨hin, rfl⟩
    cases hfind : active.find? (·.id == session.id) with
    | none => exact absurd (List.find?_eq_none.mp hfind session hin) (by simp)
    | some other =>
      have hid : other.id = session.id := by simpa using List.find?_some hfind
      rw [List.inj_on_of_nodup_map hids (List.mem_of_find?_eq_some hfind) hin hid]

theorem indexOf_eq_some (hids : (active.map (·.id)).Nodup) {id : SessionId}
    {index : Fin active.length} :
    indexOf active id = some index ↔ (active.get index).id = id := by
  unfold indexOf
  constructor
  · intro h
    simpa using List.find?_some h
  · rintro rfl
    cases hfind : (List.finRange active.length).reverse.find?
        fun i => (active.get i).id == (active.get index).id with
    | none =>
      have hnot := List.find?_eq_none.mp hfind index (by simp)
      exact absurd hnot (by simp)
    | some i =>
      have hid : (active.get i).id = (active.get index).id := by
        simpa using List.find?_some hfind
      have hsame := List.inj_on_of_nodup_map hids (List.get_mem _ _) (List.get_mem _ _) hid
      rw [hids.of_map.get_inj_iff.mp hsame]

theorem namedParents_map (hids : (active.map (·.id)).Nodup) (i : Fin active.length) :
    (namedParents active i).map active.get = parentOf active (active.get i) := by
  have hfind : ∀ id, (indexOf active id).map active.get = active.find? (·.id == id) := by
    intro id
    ext session
    rw [find_id_eq_some hids, Option.map_eq_some_iff]
    constructor
    · rintro ⟨index, hindex, rfl⟩
      exact ⟨List.get_mem _ _, (indexOf_eq_some hids).mp hindex⟩
    · rintro ⟨hin, rfl⟩
      obtain ⟨index, rfl⟩ := List.get_of_mem hin
      exact ⟨index, (indexOf_eq_some hids).mpr rfl, rfl⟩
  unfold namedParents parentOf
  cases hparent : (active.get i).parent with
  | none => rfl
  | some id =>
    rw [Option.bind_some, Option.bind_some, ← hfind]
    cases indexOf active id with
    | none => rfl
    | some index =>
      by_cases heq : index = i
      · simp [Option.filter, heq]
      · have hne : active.get index ≠ active.get i :=
          fun h => heq (hids.of_map.get_inj_iff.mp h)
        simp only [List.get_eq_getElem] at hne
        simp [Option.filter, heq, hne]

theorem namedParents_eq_iff (hids : (active.map (·.id)).Nodup) {i : Fin active.length}
    {parent : Option (Fin active.length)} :
    namedParents active i = parent ↔
      parentOf active (active.get i) = parent.map active.get := by
  rw [← namedParents_map hids]
  exact (Option.map_injective hids.of_map.injective_get).eq_iff.symm

/-- Parents do not depend on the order of the sessions. -/
theorem parentOf_perm (hids : (active.map (·.id)).Nodup) (hperm : active.Perm active') :
    parentOf active = parentOf active' := by
  have hids' := (hperm.map (·.id)).nodup_iff.mp hids
  have hfind : ∀ id, active.find? (·.id == id) = active'.find? (·.id == id) := by
    intro id
    ext session
    rw [find_id_eq_some hids, find_id_eq_some hids', hperm.mem_iff]
  funext session
  unfold parentOf
  simp only [hfind]

theorem ancestor_get (hids : (active.map (·.id)).Nodup) {i j : Fin active.length}
    (h : Ancestor (namedParents active) i j) :
    Ancestor (parentOf active) (active.get i) (active.get j) := by
  induction h with
  | single hi => exact .single ((namedParents_eq_iff hids).mp hi)
  | tail _ hj ih => exact .tail ih ((namedParents_eq_iff hids).mp hj)

theorem exists_ancestor_get (hids : (active.map (·.id)).Nodup) {i : Fin active.length}
    {session : SessionRecord} (h : Ancestor (parentOf active) (active.get i) session) :
    ∃ j, session = active.get j ∧ Ancestor (namedParents active) i j := by
  have hstep : ∀ {i : Fin active.length} {t : SessionRecord},
      parentOf active (active.get i) = some t →
        ∃ j, t = active.get j ∧ namedParents active i = some j := by
    intro i t ht
    rw [← namedParents_map hids, Option.map_eq_some_iff] at ht
    obtain ⟨j, hj, rfl⟩ := ht
    exact ⟨j, rfl, hj⟩
  induction h with
  | single hi =>
    obtain ⟨j, rfl, hj⟩ := hstep hi
    exact ⟨j, rfl, .single hj⟩
  | tail _ hj ih =>
    obtain ⟨j, rfl, hup⟩ := ih
    obtain ⟨k, rfl, hk⟩ := hstep hj
    exact ⟨k, rfl, .tail hup hk⟩

/-- No session of the list is above itself. -/
def Acyclic (l : List SessionRecord) : Prop :=
  ∀ session ∈ l, ¬Ancestor (parentOf l) session session

theorem resolveParents_of_acyclic (hids : (active.map (·.id)).Nodup) (hacyclic : Acyclic active)
    {fuel : Nat} (hfuel : active.length ≤ fuel) :
    resolveParents fuel active = some (namedParents active) := by
  obtain ⟨parents, hparents, _⟩ := resolveParents_forest active
  rw [hparents fuel hfuel]
  congr 1
  funext i
  obtain ⟨k, hk⟩ := exists_level_of_acyclic
    (fun i h => hacyclic _ (List.get_mem _ _) (ancestor_get hids h)) i
  exact foldlM_breakFrom_keeps (hparents fuel hfuel) hk

end Parents

/-! ### The tree by session -/

section Tree

variable {active active' : List SessionRecord}
variable {ranks : SessionId → Option Nat} {pinned collapsed : SessionId → Bool}

theorem siblingCmp_separates (ranks : SessionId → Option Nat) (pinned : SessionId → Bool)
    {l : List SessionRecord} (hids : (l.map (·.id)).Nodup) :
    Separates (fun left right => siblingCmp left right ranks pinned) l := by
  intro a ha b hb hcmp
  unfold siblingCmp at hcmp
  simp only [Ordering.then_eq_eq] at hcmp
  exact List.inj_on_of_nodup_map hids ha hb (Std.LawfulEqOrd.eq_of_compare hcmp.2.2.2)

theorem siblings_map (hids : (active.map (·.id)).Nodup) (parent : Option (Fin active.length)) :
    (siblings active ranks pinned (namedParents active) parent).map active.get =
      sortBy (fun left right => siblingCmp left right ranks pinned)
        (active.filter fun session => parentOf active session = parent.map active.get) := by
  have hfilter : ((List.finRange active.length).filter
      fun index => namedParents active index = parent).map active.get =
      active.filter fun session => parentOf active session = parent.map active.get := by
    have hall : ∀ p : SessionRecord → Bool, active.filter p =
        ((List.finRange active.length).filter fun index => p (active.get index)).map active.get := by
      intro p
      calc active.filter p = ((List.finRange active.length).map active.get).filter p := by
            rw [List.map_get_finRange]
        _ = _ := List.filter_map
    rw [hall]
    refine congrArg _ (List.filter_congr fun index _ => ?_)
    rw [decide_eq_decide, namedParents_eq_iff hids]
  rw [← hfilter]
  exact map_sortBy fun _ _ _ _ => rfl

theorem siblings_perm (hids : (active.map (·.id)).Nodup) (hperm : active.Perm active')
    {parent : Option (Fin active.length)} {parent' : Option (Fin active'.length)}
    (hparent : parent.map active.get = parent'.map active'.get) :
    (siblings active ranks pinned (namedParents active) parent).map active.get =
      (siblings active' ranks pinned (namedParents active') parent').map active'.get := by
  have hids' := (hperm.map (·.id)).nodup_iff.mp hids
  rw [siblings_map hids, siblings_map hids', ← parentOf_perm hids hperm, hparent]
  have _ : Std.TransCmp fun left right => siblingCmp left right ranks pinned :=
    siblingCmp_trans ranks pinned
  exact sortBy_eq_of_perm
    (siblingCmp_separates ranks pinned (hids.sublist (List.filter_sublist.map _)))
    (hperm.filter _)

/-- What an entry says, without the position of its session. -/
def Entry.facts (entry : Entry active) : SessionRecord × UInt16 × Bool × UInt32 :=
  (entry.session, entry.depth, entry.visible, entry.rails)

variable {children : Fin active.length → List (Fin active.length)}
variable {children' : Fin active'.length → List (Fin active'.length)}

theorem expand_facts (hchildren : ∀ i j, active.get i = active'.get j →
      (children i).map active.get = (children' j).map active'.get)
    {entry : Entry active} {entry' : Entry active'} (h : entry.facts = entry'.facts) :
    (entry.expand children collapsed).map Entry.facts =
        (entry'.expand children' collapsed).map Entry.facts ∧
      entry.row children pinned collapsed = entry'.row children' pinned collapsed := by
  obtain ⟨index, depth, visible, rails⟩ := entry
  obtain ⟨index', depth', visible', rails'⟩ := entry'
  simp only [Entry.facts, Entry.session, Prod.mk.injEq] at h
  obtain ⟨hsession, rfl, rfl, rfl⟩ := h
  have hlists := hchildren index index' hsession
  have hlen : (children index).length = (children' index').length := by
    have hlen := congrArg List.length hlists
    rwa [List.length_map, List.length_map] at hlen
  have hempty : (children index).isEmpty = (children' index').isEmpty := by
    rw [Bool.eq_iff_iff, List.isEmpty_iff_length_eq_zero, List.isEmpty_iff_length_eq_zero, hlen]
  constructor
  · let say : SessionRecord × Nat → SessionRecord × UInt16 × Bool × UInt32 :=
      fun child => (child.1, depth + 1,
        visible && !(!(children' index').isEmpty && collapsed (active'.get index').id),
        if child.2 + 1 = (children' index').length then rails
          else rails ||| ((1 : UInt32) <<< (min depth 31).toUInt32))
    have hleft : (Entry.expand children collapsed ⟨index, depth, visible, rails⟩).map Entry.facts =
        ((children index).map active.get).zipIdx.map say := by
      rw [List.zipIdx_map, Entry.expand, List.map_map, List.map_map]
      refine List.map_congr_left fun pair _ => ?_
      simp only [Function.comp_apply, Entry.facts, Entry.session, Entry.isCollapsed, hlen, hempty,
        hsession, say, Prod.map, id]
    have hright : (Entry.expand children' collapsed ⟨index', depth, visible, rails⟩).map
        Entry.facts = ((children' index').map active'.get).zipIdx.map say := by
      rw [List.zipIdx_map, Entry.expand, List.map_map, List.map_map]
      refine List.map_congr_left fun pair _ => ?_
      simp only [Function.comp_apply, Entry.facts, Entry.session, Entry.isCollapsed, say, Prod.map,
        id]
    rw [hleft, hright, hlists]
  · unfold Entry.row Entry.isCollapsed Entry.session
    simp only [hsession, hempty]

theorem flatten_facts (hchildren : ∀ i j, active.get i = active'.get j →
      (children i).map active.get = (children' j).map active'.get) (fuel : Nat)
    (stack : List (Entry active)) (stack' : List (Entry active'))
    (h : stack.map Entry.facts = stack'.map Entry.facts) (rows : List SidebarRow)
    (treeOrder : List SessionRecord) :
    flatten children pinned collapsed fuel stack rows treeOrder =
      flatten children' pinned collapsed fuel stack' rows treeOrder := by
  induction fuel generalizing stack stack' rows treeOrder with
  | zero =>
    cases stack with
    | nil =>
      cases stack' with
      | nil => rfl
      | cons entry' stack' => cases h
    | cons entry stack =>
      cases stack' with
      | nil => cases h
      | cons entry' stack' => rfl
  | succ fuel ih =>
    cases stack with
    | nil =>
      cases stack' with
      | nil => rfl
      | cons entry' stack' => cases h
    | cons entry stack =>
      cases stack' with
      | nil => cases h
      | cons entry' stack' =>
        rw [List.map_cons, List.map_cons, List.cons.injEq] at h
        obtain ⟨hentry, hrest⟩ := h
        obtain ⟨hexpand, hrow⟩ := @expand_facts _ _ pinned collapsed _ _ hchildren
          _ _ hentry
        have hfacts := hentry
        unfold Entry.facts at hfacts
        simp only [Prod.mk.injEq] at hfacts
        rw [flatten, flatten, hrow, hfacts.1, hfacts.2.2.1]
        refine ih _ _ ?_ _ _
        rw [List.map_append, List.map_append, hexpand, hrest]

theorem buildTree_perm (hids : (active.map (·.id)).Nodup) (hperm : active.Perm active')
    (hacyclic : Acyclic active) {fuel : Nat} (hfuel : active.length ≤ fuel) (expanded : Bool) :
    buildTree fuel active ranks pinned collapsed expanded =
      buildTree fuel active' ranks pinned collapsed expanded := by
  have hids' := (hperm.map (·.id)).nodup_iff.mp hids
  have hacyclic' : Acyclic active' := by
    unfold Acyclic
    rw [← parentOf_perm hids hperm]
    exact fun session hsession => hacyclic session (hperm.mem_iff.mpr hsession)
  unfold buildTree
  rw [resolveParents_of_acyclic hids hacyclic hfuel,
    resolveParents_of_acyclic hids' hacyclic' (hperm.length_eq ▸ hfuel)]
  refine flatten_facts (fun i j hij => ?_) fuel _ _ ?_ _ _
  · exact siblings_perm hids hperm (by rw [Option.map_some, Option.map_some, hij])
  · have hroots : ∀ (l : List SessionRecord) (indices : List (Fin l.length)),
        (indices.map fun index => (⟨index, 0, expanded, 0⟩ : Entry l)).map Entry.facts =
          (indices.map l.get).map fun session => (session, 0, expanded, 0) := by
      intro l indices
      rw [List.map_map, List.map_map]
      rfl
    have hlists := @siblings_perm _ _ ranks pinned hids hperm _ _
      (show (none : Option (Fin active.length)).map active.get =
        (none : Option (Fin active'.length)).map active'.get from rfl)
    rw [hroots, hroots, hlists]

theorem first_of_cycle {first session : SessionRecord} {rest : List SessionRecord}
    (hids : ((first :: rest).map (·.id)).Nodup)
    (hcycle : Ancestor (parentOf (first :: rest)) first first)
    (habove : Ancestor (parentOf (first :: rest)) session first) (hne : session ≠ first)
    (hin : session ∈ first :: rest) {fuel : Nat} (hfuel : (first :: rest).length ≤ fuel)
    {expanded : Bool} {rows : List SidebarRow} {treeOrder : List SessionRecord}
    (hbuild : buildTree fuel (first :: rest) ranks pinned collapsed expanded =
      some (rows, treeOrder)) :
    treeOrder.idxOf first < treeOrder.idxOf session := by
  obtain ⟨parents, lvl, out, hlvl, hwalk, hall⟩ :=
    buildTree_walk (first :: rest) ranks pinned collapsed expanded
  obtain ⟨hresolve, hbuilt⟩ := hall fuel hfuel
  rw [hbuild, Option.some.injEq, Prod.mk.injEq] at hbuilt
  let top : Fin (first :: rest).length := ⟨0, Nat.succ_pos _⟩
  -- the round of the first node cuts its link, and the cycle below it is a forest from then on
  obtain ⟨mid, hmid, hrounds⟩ : ∃ mid, breakFrom fuel (namedParents (first :: rest)) top =
      some mid ∧ ((List.finRange rest.length).map Fin.succ).foldlM (breakFrom fuel) mid =
        some parents := by
    unfold resolveParents at hresolve
    have hrange : List.finRange (first :: rest).length =
        top :: (List.finRange rest.length).map Fin.succ := List.finRange_succ
    rw [hrange, List.foldlM_cons] at hresolve
    exact Option.bind_eq_some_iff.mp hresolve
  have hself : Ancestor (namedParents (first :: rest)) top top := by
    obtain ⟨j, hj, hup⟩ := exists_ancestor_get (i := top) hids hcycle
    have hjtop : j = top := (hids.of_map.get_inj_iff (i := top) (j := j)).mp hj |>.symm
    rwa [hjtop] at hup
  rw [breakFrom_of_cycle hmid hself] at hrounds
  have hbelow : ∀ j, Ancestor (namedParents (first :: rest)) j top → j ≠ top →
      (∃ k, Level (Function.update (namedParents (first :: rest)) top none) j k) ∧
        Ancestor parents j top := by
    have hkeep : ∀ {j k}, Level (Function.update (namedParents (first :: rest)) top none) j k →
        j ≠ top → parents j = namedParents (first :: rest) j := by
      intro j k hj hjtop
      rw [foldlM_breakFrom_keeps hrounds hj, Function.update_of_ne hjtop]
    have hroot : Level (Function.update (namedParents (first :: rest)) top none) top 0 :=
      .root (Function.update_self ..)
    intro j hj
    induction hj using Relation.TransGen.head_induction_on with
    | @single j hj =>
      intro hjtop
      have hlevel := Level.child ((Function.update_of_ne hjtop _ _).trans hj) hroot
      exact ⟨⟨_, hlevel⟩, .single ((hkeep hlevel hjtop).trans hj)⟩
    | @head j k hj _ ih =>
      intro hjtop
      by_cases hktop : k = top
      · rw [hktop] at hj
        have hlevel := Level.child ((Function.update_of_ne hjtop _ _).trans hj) hroot
        exact ⟨⟨_, hlevel⟩, .single ((hkeep hlevel hjtop).trans hj)⟩
      · obtain ⟨⟨n, hn⟩, hup⟩ := ih hktop
        have hlevel := Level.child ((Function.update_of_ne hjtop _ _).trans hj) hn
        exact ⟨⟨_, hlevel⟩, .head ((hkeep hlevel hjtop).trans hj) hup⟩
  have hfirst : ∀ {i j}, Ancestor parents i j →
      treeOrder.idxOf ((first :: rest).get j) < treeOrder.idxOf ((first :: rest).get i) := by
    intro i j hij
    rw [hbuilt.2]
    induction hij with
    | single hi => exact hwalk.parent_first hlvl hids hi
    | tail _ hj ih => exact (hwalk.parent_first hlvl hids hj).trans ih
  obtain ⟨i, rfl⟩ := List.get_of_mem hin
  obtain ⟨j, hj, hup⟩ := exists_ancestor_get hids habove
  have hjtop : j = top := (hids.of_map.get_inj_iff (i := top) (j := j)).mp hj |>.symm
  rw [hjtop] at hup
  exact hfirst (hbelow i hup fun h => hne (h ▸ rfl)).2

end Tree

/-! ### One group -/

section Group

variable {group group' : List SessionRecord} {session : SessionRecord}

/-- Nobody in the group is newer. -/
def Newest (group : List SessionRecord) (session : SessionRecord) : Prop :=
  ∀ other ∈ group, other.createdAt ≤ session.createdAt

theorem newest_concat (group : List SessionRecord) (session : SessionRecord) :
    newest (group ++ [session]) = match newest group with
      | none => some session
      | some best => if best.createdAt ≤ session.createdAt then some session else some best := by
  unfold newest
  rw [List.foldl_append]
  rfl

theorem newest_spec (h : newest group = some session) : session ∈ group ∧ Newest group session := by
  induction group using List.reverseRecOn generalizing session with
  | nil => cases h
  | append_singleton group last ih =>
    rw [newest_concat] at h
    cases hbest : newest group with
    | none =>
      rw [hbest, Option.some.injEq] at h
      have hnil : group = [] := by
        cases group using List.reverseRecOn with
        | nil => rfl
        | append_singleton group x =>
          rw [newest_concat] at hbest
          split at hbest
          · cases hbest
          · split at hbest <;> cases hbest
      subst hnil h
      simp [Newest]
    | some best =>
      obtain ⟨hin, hnewest⟩ := ih hbest
      simp only [hbest] at h
      by_cases hle : best.createdAt ≤ last.createdAt
      · rw [if_pos hle, Option.some.injEq] at h
        subst h
        refine ⟨by simp, fun other hother => ?_⟩
        rcases List.mem_append.mp hother with hother | hother
        · exact (hnewest other hother).trans hle
        · rw [List.mem_singleton.mp hother]
      · rw [if_neg hle, Option.some.injEq] at h
        subst h
        refine ⟨List.mem_append_left _ hin, fun other hother => ?_⟩
        rcases List.mem_append.mp hother with hother | hother
        · exact hnewest other hother
        · rw [List.mem_singleton.mp hother]
          exact (not_le.mp hle).le

theorem newest_last (h : Newest (group ++ [session]) session) :
    newest (group ++ [session]) = some session := by
  rw [newest_concat]
  cases hbest : newest group with
  | none => rfl
  | some best =>
    have hle := h best (List.mem_append_left _ (newest_spec hbest).1)
    simp only [if_pos hle]

theorem exists_newest (h : group ≠ []) : ∃ session, newest group = some session := by
  cases group using List.reverseRecOn with
  | nil => exact absurd rfl h
  | append_singleton group last =>
    rw [newest_concat]
    split
    · exact ⟨_, rfl⟩
    · split
      · exact ⟨_, rfl⟩
      · exact ⟨_, rfl⟩

def SessionRecord.root (session : SessionRecord) : String :=
  session.worktreePath.getD session.cwd

/-- The places that read a group as it comes find one answer, whatever they read first. -/
structure OneAnswer (projects : ProjectMap) (id : ProjectId) (group : List SessionRecord) :
    Prop where
  /-- All sessions of the group are on one host. -/
  host : ∀ left ∈ group, ∀ right ∈ group, left.host = right.host
  /-- Where the project has no record, its newest sessions have one root. -/
  root : projects.get id = none → ∀ left ∈ group, ∀ right ∈ group,
    Newest group left → Newest group right → left.root = right.root
  /-- No active session is above itself. -/
  acyclic : Acyclic (group.filter (!·.isArchived))

theorem syntheticProject_perm {projects : ProjectMap} {id : ProjectId}
    (hanswer : OneAnswer projects id group) (hrecord : projects.get id = none)
    (hperm : group.Perm group') : syntheticProject id group = syntheticProject id group' := by
  have hroot : (newest group).map SessionRecord.root = (newest group').map SessionRecord.root := by
    by_cases hnil : group = []
    · rw [hnil] at hperm ⊢
      rw [hperm.nil_eq]
    · have hnil' : group' ≠ [] := fun h => hnil (List.perm_nil.mp (h ▸ hperm))
      obtain ⟨session, hsession⟩ := exists_newest hnil
      obtain ⟨session', hsession'⟩ := exists_newest hnil'
      obtain ⟨hin, hnewest⟩ := newest_spec hsession
      obtain ⟨hin', hnewest'⟩ := newest_spec hsession'
      rw [hsession, hsession', Option.map_some, Option.map_some,
        hanswer.root hrecord session hin session' (hperm.mem_iff.mpr hin') hnewest
          fun other hother => hnewest' other (hperm.mem_iff.mp hother)]
  unfold syntheticProject
  unfold SessionRecord.root at hroot
  rw [hroot]

theorem archivedCmp_eq :
    archivedCmp = compareLex (fun a b => compareOn SessionRecord.archivedAt b a)
      (compareOn SessionRecord.id) := rfl

instance : Std.TransCmp archivedCmp := by
  rw [archivedCmp_eq]
  infer_instance

theorem buildGroup_perm {projects : ProjectMap} {prefs : Prefs} {id : ProjectId}
    (hanswer : OneAnswer projects id group) (hids : (group.map (·.id)).Nodup)
    (hperm : group.Perm group') {fuel : Nat} (hfuel : group.length ≤ fuel) :
    buildGroup fuel projects.get prefs (id, group) =
      buildGroup fuel projects.get prefs (id, group') := by
  have hproject : (projects.get id).getD (syntheticProject id group) =
      (projects.get id).getD (syntheticProject id group') := by
    cases hrecord : projects.get id with
    | none => exact syntheticProject_perm hanswer hrecord hperm
    | some project => rfl
  have hhost : group.head?.bind (·.host) = group'.head?.bind (·.host) := by
    cases group with
    | nil => rw [hperm.nil_eq]
    | cons first rest =>
      cases group' with
      | nil => exact absurd hperm.symm.nil_eq (by simp)
      | cons first' rest' =>
        exact hanswer.host first List.mem_cons_self first'
          (hperm.mem_iff.mpr List.mem_cons_self)
  have harrival : (group.map (·.createdAt)).min? = (group'.map (·.createdAt)).min? := by
    ext arrival
    simp only [List.min?_eq_some_iff, (hperm.map (·.createdAt)).mem_iff]
  have harchived : sortBy archivedCmp (group.filter (·.isArchived)) =
      sortBy archivedCmp (group'.filter (·.isArchived)) := by
    refine sortBy_eq_of_perm (fun a ha b hb hcmp => ?_) (hperm.filter _)
    unfold archivedCmp at hcmp
    rw [Ordering.then_eq_eq] at hcmp
    exact List.inj_on_of_nodup_map hids (List.mem_filter.mp ha).1 (List.mem_filter.mp hb).1
      (Std.LawfulEqOrd.eq_of_compare hcmp.2)
  have htree := fun expanded => @buildTree_perm _ _
    (rankMap prefs.sidebarSessionOrder) prefs.sidebarPinnedSessions.contains
    prefs.sidebarCollapsedSessions.contains
    (hids.sublist (List.filter_sublist.map _)) (hperm.filter (!·.isArchived)) hanswer.acyclic
    _ ((List.length_filter_le _ _).trans hfuel) expanded
  unfold buildGroup
  dsimp only
  unfold sortBy at harchived
  rw [hproject, hhost, harrival, harchived, htree]

end Group

/-! ### All enumerations -/

section Enumerations

variable {sessions enumerated : SessionMap} {projects : ProjectMap} {prefs : Prefs}
variable {selected : Option SessionId} {closing : List SessionId} {id : ProjectId}

/-- The listed sessions of a project, as the map hands them out. -/
def groupOf (sessions : SessionMap) (closing : List SessionId) (id : ProjectId) :
    List SessionRecord :=
  (listedSessions sessions closing).filter (·.projectId == id)

/-- One sidebar for all orders in which the hash maps hand out their entries. -/
def OneSidebar (sessions : SessionMap) (projects : ProjectMap) (prefs : Prefs)
    (selected : Option SessionId) (closing : List SessionId) : Prop :=
  ∃ projection, ∀ enumerated : SessionMap, enumerated.values.Perm sessions.values →
    ∀ order fuel, sessions.values.length ≤ fuel →
      buildProjection order fuel enumerated projects.get prefs selected closing = some projection

theorem groupOf_perm (hperm : enumerated.values.Perm sessions.values) :
    (groupOf enumerated closing id).Perm (groupOf sessions closing id) :=
  (hperm.filter _).filter _

theorem groupOf_sublist : (groupOf sessions closing id).Sublist sessions.values :=
  List.filter_sublist.trans List.filter_sublist

theorem groupOf_nodup : ((groupOf sessions closing id).map (·.id)).Nodup :=
  sessions.keyed.sublist (groupOf_sublist.map _)

theorem grouped_eq : grouped sessions closing =
    ((grouped sessions closing).map (·.1)).map fun id => (id, groupOf sessions closing id) := by
  rw [List.map_map]
  conv_lhs => rw [← List.map_id (grouped sessions closing)]
  refine List.map_congr_left fun entry hentry => ?_
  exact Prod.ext rfl ((grouped_groups sessions closing).members entry hentry)

/-- Groups with one answer are built the same, whatever the enumeration is. -/
theorem built_perm (hanswer : ∀ id, OneAnswer projects id (groupOf sessions closing id))
    (hperm : enumerated.values.Perm sessions.values) {fuel : Nat}
    (hfuel : sessions.values.length ≤ fuel) :
    ((grouped enumerated closing).filterMap (buildGroup fuel projects.get prefs)).Perm
      ((grouped sessions closing).filterMap (buildGroup fuel projects.get prefs)) := by
  have hkeys : ((grouped enumerated closing).map (·.1)).Perm
      ((grouped sessions closing).map (·.1)) := by
    refine (List.perm_ext_iff_of_nodup (grouped_groups enumerated closing).nodup
      (grouped_groups sessions closing).nodup).mpr fun id => ?_
    rw [(grouped_groups enumerated closing).keys, (grouped_groups sessions closing).keys]
    simp only [(hperm.filter (listed closing)).mem_iff]
  have hsame : ∀ id, buildGroup fuel projects.get prefs (id, groupOf enumerated closing id) =
      buildGroup fuel projects.get prefs (id, groupOf sessions closing id) := by
    intro id
    exact (buildGroup_perm (hanswer id) groupOf_nodup (groupOf_perm hperm).symm
      (groupOf_sublist.length_le.trans hfuel)).symm
  have hof : ∀ map : SessionMap,
      (grouped map closing).filterMap (buildGroup fuel projects.get prefs) =
        ((grouped map closing).map (·.1)).filterMap fun id =>
          buildGroup fuel projects.get prefs (id, groupOf map closing id) := by
    intro map
    conv_lhs => rw [grouped_eq]
    rw [List.filterMap_map]
    rfl
  rw [hof, hof]
  simp only [hsame]
  exact hkeys.filterMap _

theorem oneSidebar_of_answers (selected : Option SessionId)
    (hanswer : ∀ id, OneAnswer projects id (groupOf sessions closing id)) :
    OneSidebar sessions projects prefs selected closing := by
  obtain ⟨base, _, hbase, _⟩ := exists_projection asWalked sessions projects.get prefs selected
    closing
  refine ⟨base, fun enumerated hperm order fuel hfuel => ?_⟩
  obtain ⟨projection, _, hprojection, _⟩ := exists_projection order enumerated projects.get prefs
    selected closing
  have hbuilt := hprojection fuel (hperm.length_eq.symm ▸ hfuel)
  rw [hbuilt, projection_of_groups hbuilt, projection_of_groups (hbase fuel hfuel)]
  have hvisit := order.perm (grouped enumerated closing)
  have hnodup := (hvisit.map (·.1)).nodup_iff.mpr (grouped_groups enumerated closing).nodup
  have hsorted := sortBy_eq_of_perm
    (projectCmp_separates (rankMap prefs.sidebarProjectOrder)
      (@built_nodup prefs fuel projects _ hnodup))
    ((hvisit.filterMap _).trans (built_perm hanswer hperm hfuel))
  rw [hsorted]
  rfl

/-- The same sessions, handed out in the order of the list. -/
def handedOut (sessions : SessionMap) (l : List SessionRecord) (h : l.Perm sessions.values) :
    SessionMap :=
  ⟨l, (h.map _).nodup_iff.mpr sessions.keyed⟩

theorem group_unique (h : OneSidebar sessions projects prefs selected closing) :
    ∃ shown : ProjectId → SidebarProject, ∀ id, (∃ s, s ∈ groupOf sessions closing id) →
      ∀ enumerated : SessionMap, enumerated.values.Perm sessions.values →
        ∃ arrival, buildGroup sessions.values.length projects.get prefs
          (id, groupOf enumerated closing id) = some (arrival, shown id) := by
  obtain ⟨projection, hprojection⟩ := h
  have hgroup : ∀ id, (∃ s, s ∈ groupOf sessions closing id) →
      ∀ enumerated : SessionMap, enumerated.values.Perm sessions.values →
        ∃ group, buildGroup sessions.values.length projects.get prefs
            (id, groupOf enumerated closing id) = some group ∧
          group.2 ∈ projection.projects ∧ group.2.project.id = id := by
    intro id hid enumerated hperm
    obtain ⟨s, hs⟩ := hid
    obtain ⟨hlisted, hproject⟩ := List.mem_filter.mp ((groupOf_perm hperm).mem_iff.mpr hs)
    obtain ⟨entry, hentry, group, hbuilt, hgroupId⟩ := @exists_group _ projects
      prefs _ _ hperm.length_eq.le _ ⟨s, hlisted, by simpa using hproject⟩
    have hkey : entry = (id, groupOf enumerated closing id) := by
      have hid' : entry.1 = id := (buildGroup_projectId hbuilt).symm.trans hgroupId
      refine Prod.ext hid' ?_
      rw [(grouped_groups enumerated closing).members entry hentry, hid']
      rfl
    rw [hkey] at hbuilt hentry
    refine ⟨group, hbuilt, ?_, hgroupId⟩
    rw [projection_of_groups (hprojection enumerated hperm asWalked _ (Nat.le_refl _))]
    exact List.mem_map_of_mem (mem_sortBy.mpr (List.mem_filterMap.mpr ⟨_, hentry, hbuilt⟩))
  have hids : (projection.projects.map (·.project.id)).Nodup := by
    rw [projection_of_groups (hprojection sessions (List.Perm.refl _) asWalked _ (Nat.le_refl _))]
    unfold ofGroups
    rw [List.map_map]
    exact ((perm_sortBy _ _).map _).nodup_iff.mpr
      (built_nodup (grouped_groups sessions closing).nodup)
  have hshown : ∀ id, ∃ shown, (∃ s, s ∈ groupOf sessions closing id) →
      shown ∈ projection.projects ∧ shown.project.id = id := by
    intro id
    by_cases hid : ∃ s, s ∈ groupOf sessions closing id
    · obtain ⟨group, _, hin, hgroupId⟩ := hgroup id hid sessions (List.Perm.refl _)
      exact ⟨group.2, fun _ => ⟨hin, hgroupId⟩⟩
    · exact ⟨⟨⟨"", "", "", none⟩, none, [], [], [], false⟩, fun h => absurd h hid⟩
  choose shown hshown using hshown
  refine ⟨shown, fun id hid enumerated hperm => ?_⟩
  obtain ⟨group, hbuilt, hin, hgroupId⟩ := hgroup id hid enumerated hperm
  obtain ⟨hin', hshownId⟩ := hshown id hid
  refine ⟨group.1, hbuilt.trans ?_⟩
  rw [List.inj_on_of_nodup_map hids hin' hin (hshownId.trans hgroupId.symm)]

theorem exists_first {session : SessionRecord} (h : session ∈ groupOf sessions closing id) :
    ∃ enumerated : SessionMap, enumerated.values.Perm sessions.values ∧
      ∃ rest, groupOf enumerated closing id = session :: rest := by
  have hperm := (List.perm_cons_erase (groupOf_sublist.subset h)).symm
  refine ⟨handedOut sessions _ hperm, hperm,
    ((sessions.values.erase session).filter (listed closing)).filter (·.projectId == id), ?_⟩
  obtain ⟨hlisted, hproject⟩ := List.mem_filter.mp h
  change ((session :: sessions.values.erase session).filter (listed closing)).filter
    (·.projectId == id) = _
  rw [List.filter_cons_of_pos (List.mem_filter.mp hlisted).2]
  exact List.filter_cons_of_pos hproject

theorem exists_last {session : SessionRecord} (h : session ∈ groupOf sessions closing id) :
    ∃ enumerated : SessionMap, enumerated.values.Perm sessions.values ∧
      ∃ rest, groupOf enumerated closing id = rest ++ [session] := by
  have hperm : (sessions.values.erase session ++ [session]).Perm sessions.values :=
    List.perm_append_comm.trans (List.perm_cons_erase (groupOf_sublist.subset h)).symm
  refine ⟨handedOut sessions _ hperm, hperm,
    ((sessions.values.erase session).filter (listed closing)).filter (·.projectId == id), ?_⟩
  obtain ⟨hlisted, hproject⟩ := List.mem_filter.mp h
  change ((sessions.values.erase session ++ [session]).filter (listed closing)).filter
    (·.projectId == id) = _
  rw [List.filter_append, List.filter_append, List.filter_singleton,
    (List.mem_filter.mp hlisted).2, cond_true, List.filter_singleton, hproject, cond_true]

theorem answers_of_oneSidebar (h : OneSidebar sessions projects prefs selected closing)
    (id : ProjectId) : OneAnswer projects id (groupOf sessions closing id) := by
  obtain ⟨shown, hshown⟩ := group_unique h
  refine ⟨?_, ?_, ?_⟩
  · have hhost : ∀ session ∈ groupOf sessions closing id, (shown id).host = session.host := by
      intro session hsession
      obtain ⟨enumerated, hperm, rest, hgroup⟩ := exists_first hsession
      obtain ⟨arrival, hbuilt⟩ := hshown id ⟨session, hsession⟩ enumerated hperm
      rw [(buildGroup_project hbuilt).2.2.1, hgroup]
      rfl
    intro left hleft right hright
    rw [← hhost left hleft, hhost right hright]
  · intro hrecord
    have hroot : ∀ session ∈ groupOf sessions closing id,
        Newest (groupOf sessions closing id) session → (shown id).project.root = session.root := by
      intro session hsession hnewest
      obtain ⟨enumerated, hperm, rest, hgroup⟩ := exists_last hsession
      obtain ⟨arrival, hbuilt⟩ := hshown id ⟨session, hsession⟩ enumerated hperm
      have hlast : newest (rest ++ [session]) = some session := by
        refine newest_last fun other hother => hnewest other ?_
        rw [← hgroup] at hother
        exact (groupOf_perm hperm).mem_iff.mp hother
      rw [(buildGroup_project hbuilt).2.1, hrecord, Option.getD_none, hgroup]
      unfold syntheticProject
      rw [hlast]
      rfl
    intro left hleft right hright hnewestLeft hnewestRight
    rw [← hroot left hleft hnewestLeft, hroot right hright hnewestRight]
  · intro session hsession hcycle
    let active := (groupOf sessions closing id).filter (!·.isArchived)
    -- of a cycle whoever comes first stands above the others
    have hfirst : ∀ x ∈ active, ∀ y ∈ active, Ancestor (parentOf active) x x →
        Ancestor (parentOf active) y x → y ≠ x →
          (shown id).active.idxOf x < (shown id).active.idxOf y := by
      intro x hx y hy hself habove hne
      obtain ⟨hxgroup, hxactive⟩ := List.mem_filter.mp hx
      obtain ⟨enumerated, hperm, rest, hgroup⟩ := exists_first hxgroup
      obtain ⟨arrival, hbuilt⟩ := hshown id ⟨x, hxgroup⟩ enumerated hperm
      have hactive : (groupOf enumerated closing id).filter (!·.isArchived) =
          x :: rest.filter (!·.isArchived) := by
        rw [hgroup]
        exact List.filter_cons_of_pos hxactive
      have hsame : (x :: rest.filter (!·.isArchived)).Perm active :=
        hactive ▸ (groupOf_perm hperm).filter _
      have hids : (active.map (·.id)).Nodup :=
        groupOf_nodup.sublist (List.filter_sublist.map _)
      have hids' := (hsame.map (·.id)).nodup_iff.mpr hids
      have hparents := parentOf_perm hids' hsame
      have hlen : (x :: rest.filter (!·.isArchived)).length ≤ sessions.values.length := by
        rw [hsame.length_eq]
        exact (List.length_filter_le _ _).trans groupOf_sublist.length_le
      unfold buildGroup at hbuilt
      obtain ⟨tree, htree, hbuilt⟩ := Option.bind_eq_some_iff.mp hbuilt
      rw [hactive] at htree
      have horder : (shown id).active = tree.2 := by
        rw [Option.some.injEq, Prod.mk.injEq] at hbuilt
        rw [← hbuilt.2]
      rw [horder]
      exact first_of_cycle hids' (hparents ▸ hself) (hparents ▸ habove) hne
        (hsame.mem_iff.mpr hy) hlen htree
    obtain ⟨parent, hparent, _⟩ := Relation.TransGen.head'_iff.mp hcycle
    have hparent' := hparent
    unfold parentOf at hparent
    obtain ⟨hfind, hne⟩ := Option.filter_eq_some_iff.mp hparent
    obtain ⟨name, _, hfind⟩ := Option.bind_eq_some_iff.mp hfind
    have hne' : parent ≠ session := by simpa using hne
    have hin : parent ∈ active := List.mem_of_find?_eq_some hfind
    have hback : Ancestor (parentOf active) parent session := by
      rcases (ancestor_iff hparent').mp hcycle with heq | hup
      · exact absurd heq.symm hne'
      · exact hup
    have hdown := hfirst session hsession parent hin hcycle hback hne'
    have hup := hfirst parent hin session hsession (.tail hback hparent') (.single hparent')
      hne'.symm
    omega

/-- **When the sidebar depends on the state alone.** All orders in which the hash maps can hand
out the same sessions give one projection, exactly when in every project the listed sessions are
on one host, the newest of them have one root unless the project has a record, and no active one
is above itself by the parent links. -/
theorem one_sidebar_iff (sessions : SessionMap) (projects : ProjectMap) (prefs : Prefs)
    (selected : Option SessionId) (closing : List SessionId) :
    OneSidebar sessions projects prefs selected closing ↔
      ∀ id, OneAnswer projects id (groupOf sessions closing id) :=
  ⟨answers_of_oneSidebar, oneSidebar_of_answers selected⟩

end Enumerations

/-- A project with a session here and one on another machine. -/
def onTwoHosts : SessionMap :=
  ⟨[plainSession "s1" "homie" 1, { plainSession "s2" "homie" 2 with host := some "studio" }],
    by decide⟩

/-- Whichever session comes first decides the host of the group. -/
theorem host_depends_on_enumeration : ¬OneSidebar onTwoHosts homieOnly noPrefs none [] := by
  intro h
  have hhost := (answers_of_oneSidebar h "homie").host
  revert hhost
  decide

end Homie.App
