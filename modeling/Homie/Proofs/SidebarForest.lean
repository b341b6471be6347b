/-
The tree of one project in the sidebar.

Breaking cycles leaves a forest: after the round of a node the way up from it ends, and a later
round only cuts.  The loop over the stack is then a walk over a forest, and everything the
sidebar shows about a node follows from its entry, whose depth is the level of the node and
whose visibility is decided by what lies above it.
-/
import Homie.App.Projection
import Homie.Lib.Forest

namespace Homie.App

open Forest

/-! ### Breaking cycles -/

section Climb

variable {n : Nat} {parents : Fin n → Option (Fin n)} {fuel : Nat} {seen : List (Fin n)}
variable {cursor : Option (Fin n)}

/-- The walk up takes every node once, so fuel for the unseen nodes suffices, and more fuel
changes nothing. -/
theorem climb_enough (parents : Fin n → Option (Fin n)) (cursor : Option (Fin n))
    (hseen : seen.Nodup) (hfuel : n < seen.length + fuel) :
    ∃ looped, ∀ extra, climb parents (fuel + extra) seen cursor = some looped := by
  induction fuel generalizing seen cursor with
  | zero =>
    have hlen := hseen.length_le_card
    rw [Fintype.card_fin] at hlen
    omega
  | succ fuel ih =>
    cases cursor with
    | none => exact ⟨false, fun extra => by rw [climb]⟩
    | some node =>
      by_cases hnode : node ∈ seen
      · refine ⟨true, fun extra => ?_⟩
        rw [Nat.succ_add, climb, if_pos hnode]
      · obtain ⟨looped, hlooped⟩ := ih (parents node)
          (List.nodup_cons.mpr ⟨hnode, hseen⟩) (by rw [List.length_cons]; omega)
        refine ⟨looped, fun extra => ?_⟩
        rw [Nat.succ_add, climb, if_neg hnode]
        exact hlooped extra

/-- A walk up that never meets a node again ends at a root. -/
theorem climb_ends (h : climb parents fuel seen cursor = some false) :
    ∀ node, cursor = some node → ∃ k, Level parents node k := by
  induction fuel generalizing seen cursor with
  | zero =>
    intro node hnode
    rw [hnode, climb] at h
    cases h
  | succ fuel ih =>
    intro node hnode
    rw [hnode, climb] at h
    by_cases hseen : node ∈ seen
    · rw [if_pos hseen] at h
      cases h
    · rw [if_neg hseen] at h
      cases hparent : parents node with
      | none => exact ⟨0, .root hparent⟩
      | some up =>
        obtain ⟨k, hk⟩ := ih h up hparent
        exact ⟨k + 1, .child hparent hk⟩

theorem breakFrom_spec (parents : Fin n → Option (Fin n)) (hfuel : n ≤ fuel) (start : Fin n) :
    ∃ parents', breakFrom fuel parents start = some parents' ∧
      breakFrom n parents start = some parents' ∧ (∃ k, Level parents' start k) ∧
      ∀ x k, Level parents x k → ∃ j, Level parents' x j := by
  obtain ⟨looped, hlooped⟩ := climb_enough parents (parents start)
    (List.nodup_singleton start) (show n < [start].length + n by simp)
  obtain ⟨extra, rfl⟩ := Nat.exists_eq_add_of_le hfuel
  unfold breakFrom
  rw [hlooped extra]
  have hzero := hlooped 0
  rw [Nat.add_zero] at hzero
  rw [hzero]
  refine ⟨_, rfl, rfl, ?_⟩
  cases looped with
  | true =>
    exact ⟨⟨0, .root (Function.update_self ..)⟩, fun x k hx => hx.cut start⟩
  | false =>
    refine ⟨?_, fun x k hx => ⟨k, hx⟩⟩
    cases hstart : parents start with
    | none => exact ⟨0, .root hstart⟩
    | some up =>
      obtain ⟨k, hk⟩ := climb_ends hzero up hstart
      exact ⟨k + 1, .child hstart hk⟩

theorem climb_of_level (h : ∀ up, cursor = some up → ∃ k, Level parents up k ∧
    ∀ s ∈ seen, ∀ j, Level parents s j → k < j) : climb parents fuel seen cursor ≠ some true := by
  induction fuel generalizing seen cursor with
  | zero => cases cursor <;> exact fun hloop => nomatch hloop
  | succ fuel ih =>
    cases cursor with
    | none => exact fun hloop => nomatch hloop
    | some node =>
      obtain ⟨k, hk, hbelow⟩ := h node rfl
      have hnew : node ∉ seen := fun hmem => Nat.lt_irrefl k (hbelow node hmem k hk)
      rw [climb, if_neg hnew]
      refine ih fun up hup => ?_
      cases hk with
      | root hroot => rw [hroot] at hup; cases hup
      | @child _ z j hz hj =>
        rw [hz, Option.some.injEq] at hup
        refine ⟨j, hup ▸ hj, fun s hs i hi => ?_⟩
        rcases List.mem_cons.mp hs with rfl | hs
        · rw [hi.unique (.child hz hj)]
          exact Nat.lt_succ_self j
        · have hlt := hbelow s hs i hi
          omega

theorem breakFrom_keeps {parents' : Fin n → Option (Fin n)} {start x : Fin n} {k : Nat}
    (h : breakFrom fuel parents start = some parents') (hx : Level parents x k) :
    parents' x = parents x := by
  obtain ⟨looped, hlooped, rfl⟩ := Option.map_eq_some_iff.mp h
  cases looped with
  | false => rfl
  | true =>
    refine Function.update_of_ne ?_ _ _
    rintro rfl
    refine climb_of_level (fun up hup => ?_) hlooped
    cases hx with
    | root hroot => rw [hroot] at hup; cases hup
    | @child _ z j hz hj =>
      rw [hz, Option.some.injEq] at hup
      refine ⟨j, hup ▸ hj, fun s hs i hi => ?_⟩
      rw [List.mem_singleton.mp hs] at hi
      rw [hi.unique (.child hz hj)]
      exact Nat.lt_succ_self j

theorem foldlM_breakFrom_keeps {parents' : Fin n → Option (Fin n)} {starts : List (Fin n)}
    (h : starts.foldlM (breakFrom fuel) parents = some parents') {x : Fin n} {k : Nat}
    (hx : Level parents x k) : parents' x = parents x := by
  induction starts generalizing parents k with
  | nil =>
    rw [List.foldlM_nil] at h
    rw [Option.some.inj h]
  | cons start starts ih =>
    rw [List.foldlM_cons] at h
    obtain ⟨mid, hmid, hrest⟩ := Option.bind_eq_some_iff.mp h
    rw [ih hrest (hx.congr fun y j hy => breakFrom_keeps hmid hy), breakFrom_keeps hmid hx]

theorem breakFrom_of_cycle {parents' : Fin n → Option (Fin n)} {start : Fin n}
    (h : breakFrom fuel parents start = some parents') (hcycle : Ancestor parents start start) :
    parents' = Function.update parents start none := by
  obtain ⟨looped, hlooped, rfl⟩ := Option.map_eq_some_iff.mp h
  cases looped with
  | true => rfl
  | false =>
    cases hstart : parents start with
    | none => exact absurd hcycle (not_ancestor_of_root hstart)
    | some up =>
      obtain ⟨k, hk⟩ := climb_ends hlooped up hstart
      exact absurd hcycle (Level.child hstart hk).not_ancestor_self

theorem foldlM_breakFrom (parents : Fin n → Option (Fin n)) (hfuel : n ≤ fuel) (starts : List (Fin n)) :
    ∃ parents', starts.foldlM (breakFrom fuel) parents = some parents' ∧
      starts.foldlM (breakFrom n) parents = some parents' ∧
      (∀ s ∈ starts, ∃ k, Level parents' s k) ∧
      ∀ x k, Level parents x k → ∃ j, Level parents' x j := by
  induction starts generalizing parents with
  | nil => exact ⟨parents, rfl, rfl, by simp, fun x k hx => ⟨k, hx⟩⟩
  | cons start starts ih =>
    obtain ⟨mid, hmid, hmid', ⟨k, hk⟩, hkeep⟩ := breakFrom_spec parents hfuel start
    obtain ⟨last, hlast, hlast', hdone, hkeep'⟩ := ih mid
    refine ⟨last, ?_, ?_, ?_, ?_⟩
    · rw [List.foldlM_cons, hmid]
      exact hlast
    · rw [List.foldlM_cons, hmid']
      exact hlast'
    · intro s hs
      rcases List.mem_cons.mp hs with rfl | hs
      · exact hkeep' _ k hk
      · exact hdone s hs
    · intro x k hx
      obtain ⟨j, hj⟩ := hkeep x k hx
      exact hkeep' x j hj

end Climb

theorem resolveParents_forest (active : List SessionRecord) :
    ∃ parents, (∀ fuel, active.length ≤ fuel → resolveParents fuel active = some parents) ∧
      ∀ x, ∃ k, Level parents x k := by
  obtain ⟨parents, _, hparents, hdone, _⟩ :=
    foldlM_breakFrom (namedParents active) (le_refl _) (List.finRange active.length)
  refine ⟨parents, ?_, fun x => hdone x (List.mem_finRange x)⟩
  intro fuel hfuel
  obtain ⟨parents', hparents', hsame, _, _⟩ :=
    foldlM_breakFrom (namedParents active) hfuel (List.finRange active.length)
  rw [hparents] at hsame
  unfold resolveParents
  rw [hparents', Option.some.inj hsame]

/-! ### The order among siblings -/

section Siblings

variable (ranks : SessionId → Option Nat) (pinned : SessionId → Bool)

theorem siblingCmp_eq (left right : SessionRecord) :
    siblingCmp left right ranks pinned =
      compareLex (fun a b => compareOn (fun s : SessionRecord => pinned s.id) b a)
        (compareLex (compareOn fun s => rankOf ranks s.id)
          (compareLex (compareOn SessionRecord.createdAt) (compareOn SessionRecord.id)))
        left right := rfl

instance siblingCmp_trans : Std.TransCmp fun left right : SessionRecord =>
    siblingCmp left right ranks pinned := by
  simp only [siblingCmp_eq]
  infer_instance

variable {active : List SessionRecord}
variable (parents : Fin active.length → Option (Fin active.length))

theorem siblings_lists : Lists parents
    (fun parent => siblings active ranks pinned parents (some parent))
    (siblings active ranks pinned parents none) := by
  have hnodup : ∀ parent, (siblings active ranks pinned parents parent).Nodup := by
    intro parent
    exact (List.mergeSort_perm _ _).nodup_iff.mpr ((List.nodup_finRange _).filter _)
  have hmem : ∀ parent c,
      c ∈ siblings active ranks pinned parents parent ↔ parents c = parent := by
    intro parent c
    simp [siblings]
  exact ⟨fun a => hnodup _, fun a c => hmem _ c, hnodup _, fun c => hmem _ c⟩

/-- Sibling lists are sorted, strictly: no two sessions have one id. -/
theorem siblings_pairwise (hids : (active.map (·.id)).Nodup)
    (parent : Option (Fin active.length)) :
    (siblings active ranks pinned parents parent).Pairwise fun i j =>
      siblingCmp (active.get i) (active.get j) ranks pinned = .lt := by
  have hsorted : (siblings active ranks pinned parents parent).Pairwise fun i j =>
      (siblingCmp (active.get i) (active.get j) ranks pinned).isLE := by
    refine List.pairwise_mergeSort ?_ ?_ _
    · intro a b c hab hbc
      exact (siblingCmp_trans ranks pinned).isLE_trans hab hbc
    · intro a b
      have hswap := (siblingCmp_trans ranks pinned).eq_swap (a := active.get a) (b := active.get b)
      rw [hswap]
      cases siblingCmp (active.get b) (active.get a) ranks pinned <;> rfl
  have hnodup : (siblings active ranks pinned parents parent).Nodup :=
    (List.mergeSort_perm _ _).nodup_iff.mpr ((List.nodup_finRange _).filter _)
  refine (hsorted.and hnodup).imp ?_
  intro i j hij
  obtain ⟨hle, hne⟩ := hij
  cases hcmp : siblingCmp (active.get i) (active.get j) ranks pinned with
  | lt => rfl
  | gt => rw [hcmp] at hle; cases hle
  | eq =>
    have hid : compare (active.get i).id (active.get j).id = .eq := by
      unfold siblingCmp at hcmp
      simp only [Ordering.then_eq_eq] at hcmp
      exact hcmp.2.2.2
    have hsame : (active.get i).id = (active.get j).id := Std.LawfulEqOrd.eq_of_compare hid
    refine absurd (Fin.ext ?_) hne
    have hi : i.val < (active.map (·.id)).length := by simp
    have hj : j.val < (active.map (·.id)).length := by simp
    have hget : (active.map (·.id))[i.val] = (active.map (·.id))[j.val] := by simpa using hsame
    exact hids.getElem_inj_iff.mp hget

end Siblings

/-! ### The loop over the stack -/

section Stack

variable {active : List SessionRecord} {children : Fin active.length → List (Fin active.length)}
variable {pinned collapsed : SessionId → Bool}

theorem flatten_visits (pinned : SessionId → Bool) {stack out : List (Entry active)}
    (h : Visits (Entry.expand children collapsed) stack out) :
    ∀ fuel rest rows treeOrder,
      flatten children pinned collapsed (out.length + fuel) (stack ++ rest) rows treeOrder =
        flatten children pinned collapsed fuel rest
          (rows ++ (out.filter (·.visible)).map (Entry.row children pinned collapsed))
          (treeOrder ++ out.map Entry.session) := by
  induction h with
  | done => intro fuel rest rows treeOrder; simp
  | @pop s rest' sub out _ _ ihsub ihrest =>
    intro fuel rest rows treeOrder
    have hfuel : (s :: (sub ++ out)).length + fuel = sub.length + (out.length + fuel) + 1 := by
      simp only [List.length_cons, List.length_append]
      omega
    rw [hfuel, List.cons_append, flatten, ihsub, ihrest]
    cases hs : s.visible <;> simp [hs]

theorem expand_index (entry : Entry active) :
    (entry.expand children collapsed).map Entry.index = children entry.index := by
  unfold Entry.expand
  rw [List.map_map]
  exact List.zipIdx_map_fst 0 _

theorem mem_expand {entry child : Entry active} (h : child ∈ entry.expand children collapsed) :
    child.index ∈ children entry.index ∧ child.depth = entry.depth + 1 ∧
      child.visible = (entry.visible && !collapsed entry.session.id) := by
  have hmem : child.index ∈ children entry.index := by
    have hmap := List.mem_map_of_mem (f := Entry.index) h
    rwa [expand_index] at hmap
  have hsome : (children entry.index).isEmpty = false := by
    rw [List.isEmpty_eq_false_iff]
    exact List.ne_nil_of_mem hmem
  refine ⟨hmem, ?_⟩
  unfold Entry.expand at h
  obtain ⟨⟨c, position⟩, _, rfl⟩ := List.mem_map.mp h
  simp [Entry.isCollapsed, hsome]

end Stack

/-! ### What the tree shows -/

/-- The rows and the tree order of one project, for the resolved parents `parents`. -/
structure TreeLaw (active : List SessionRecord)
    (parents : Fin active.length → Option (Fin active.length)) (ranks : SessionId → Option Nat)
    (pinned collapsed : SessionId → Bool) (expanded : Bool) (rows : List SidebarRow)
    (treeOrder : List SessionRecord) : Prop where
  /-- Nobody is lost and nobody comes twice. -/
  once : treeOrder.Perm active
  /-- Rows keep the order of the tree. -/
  ordered : (rows.map (·.session)).Sublist treeOrder
  /-- A session is a row unless something above it is folded. -/
  shown : ∀ i, active.get i ∈ rows.map (·.session) ↔
    expanded = true ∧ ∀ a, Ancestor parents i a → collapsed (active.get a).id = false
  /-- A row comes in the subtree of its parent. -/
  nested : active.length < 65536 → ∀ before row after, rows = before ++ row :: after →
    0 < row.depth → ∃ i parent, row.session = active.get i ∧ parents i = some parent ∧
      ∃ first parentRow between, before = first ++ parentRow :: between ∧
        parentRow.session = active.get parent ∧
        parentRow.depth.toNat + 1 = row.depth.toNat ∧ ∀ other ∈ between, row.depth ≤ other.depth
  /-- Siblings come in their order. -/
  siblings : rows.Pairwise fun left right => ∀ i j, left.session = active.get i →
    right.session = active.get j → parents i = parents j →
    siblingCmp left.session right.session ranks pinned = .lt

section Law

variable {active : List SessionRecord} {parents : Fin active.length → Option (Fin active.length)}
variable {ranks : SessionId → Option Nat} {pinned collapsed : SessionId → Bool}
variable {expanded : Bool} {lvl : Fin active.length → Nat} {out : List (Entry active)}

/-- What an entry says about its node. -/
structure Tells (parents : Fin active.length → Option (Fin active.length))
    (lvl : Fin active.length → Nat) (collapsed : SessionId → Bool) (expanded : Bool)
    (entry : Entry active) : Prop where
  depth : entry.depth = UInt16.ofNat (lvl entry.index)
  visible : entry.visible = true ↔
    expanded = true ∧ ∀ a, Ancestor parents entry.index a → collapsed (active.get a).id = false

theorem level_child (hlvl : ∀ x, Level parents x (lvl x)) {x y : Fin active.length}
    (h : parents x = some y) : lvl x = lvl y + 1 :=
  (hlvl x).unique (.child h (hlvl y))

theorem parent_of_expand {entry child : Entry active}
    (h : child ∈ entry.expand
      (fun parent => siblings active ranks pinned parents (some parent)) collapsed) :
    parents child.index = some entry.index :=
  ((siblings_lists ranks pinned parents).memChildren _ _).mp (mem_expand h).1

theorem tells_root (hlvl : ∀ x, Level parents x (lvl x)) {index : Fin active.length}
    (h : parents index = none) :
    Tells parents lvl collapsed expanded ⟨index, 0, expanded, 0⟩ := by
  refine ⟨?_, ?_⟩
  · rw [(hlvl index).unique (.root h)]
    rfl
  · exact ⟨fun hexp => ⟨hexp, fun a ha => absurd ha (not_ancestor_of_root h)⟩, fun hexp => hexp.1⟩

theorem tells_expand (hlvl : ∀ x, Level parents x (lvl x)) {entry : Entry active}
    (h : Tells parents lvl collapsed expanded entry) :
    ∀ child ∈ entry.expand
      (fun parent => siblings active ranks pinned parents (some parent)) collapsed,
      Tells parents lvl collapsed expanded child := by
  intro child hchild
  have hparent := parent_of_expand hchild
  obtain ⟨_, hdepth, hvisible⟩ := mem_expand hchild
  refine ⟨?_, ?_⟩
  · rw [hdepth, h.depth, level_child hlvl hparent, UInt16.ofNat_add]
    rfl
  · rw [hvisible, Bool.and_eq_true, Bool.not_eq_true', h.visible]
    constructor
    · rintro ⟨⟨hexp, hup⟩, hfold⟩
      refine ⟨hexp, fun a ha => ?_⟩
      rcases (ancestor_iff hparent).mp ha with rfl | ha
      · exact hfold
      · exact hup a ha
    · rintro ⟨hexp, hup⟩
      refine ⟨⟨hexp, fun a ha => hup a ((ancestor_iff hparent).mpr (Or.inr ha))⟩, ?_⟩
      exact hup entry.index ((ancestor_iff hparent).mpr (Or.inl rfl))

/-- The stack before the loop. -/
def rootEntries (active : List SessionRecord) (ranks : SessionId → Option Nat)
    (pinned : SessionId → Bool) (parents : Fin active.length → Option (Fin active.length))
    (expanded : Bool) : List (Entry active) :=
  (siblings active ranks pinned parents none).map fun index => ⟨index, 0, expanded, 0⟩

theorem rootEntries_index :
    (rootEntries active ranks pinned parents expanded).map Entry.index =
      siblings active ranks pinned parents none := by
  unfold rootEntries
  rw [List.map_map]
  exact List.map_id _

/-- The walk over the tree of a project. -/
def TreeWalk (parents : Fin active.length → Option (Fin active.length))
    (ranks : SessionId → Option Nat) (pinned collapsed : SessionId → Bool) (expanded : Bool)
    (out : List (Entry active)) : Prop :=
  Visits (Entry.expand (fun parent => siblings active ranks pinned parents (some parent)) collapsed)
    (rootEntries active ranks pinned parents expanded) out

/-- The walk ends: levels rise from a node to its children and stay below the number of
sessions. -/
theorem exists_treeWalk (hlvl : ∀ x, Level parents x (lvl x)) :
    ∃ out, TreeWalk parents ranks pinned collapsed expanded out := by
  refine exists_visits (fun entry => active.length - lvl entry.index) ?_ _
  intro entry child hchild
  have hrise := level_child hlvl (parent_of_expand hchild)
  have hbound := (hlvl child.index).lt_card
  rw [Fintype.card_fin] at hbound
  omega

namespace TreeWalk

variable (hwalk : TreeWalk parents ranks pinned collapsed expanded out)
variable (hlvl : ∀ x, Level parents x (lvl x))
include hwalk hlvl

theorem tells : ∀ entry ∈ out, Tells parents lvl collapsed expanded entry := by
  refine hwalk.forall_mem (fun entry h => tells_expand hlvl h) ?_
  intro entry hentry
  obtain ⟨index, hindex, rfl⟩ := List.mem_map.mp hentry
  exact tells_root hlvl (((siblings_lists ranks pinned parents).memRoots index).mp hindex)

theorem index_perm : (out.map Entry.index).Perm (List.finRange active.length) := by
  rw [List.perm_iff_count]
  intro x
  rw [hwalk.count_key (siblings_lists ranks pinned parents) expand_index rootEntries_index (hlvl x),
    List.count_eq_one_of_mem (List.nodup_finRange _) (List.mem_finRange x)]

theorem session_perm : (out.map Entry.session).Perm active := by
  have hmap := (index_perm hwalk hlvl).map active.get
  rw [List.map_map] at hmap
  rwa [List.map_get_finRange] at hmap

theorem exists_entry (i : Fin active.length) : ∃ entry ∈ out, entry.index = i := by
  have hmem : i ∈ out.map Entry.index :=
    (index_perm hwalk hlvl).mem_iff.mpr (List.mem_finRange i)
  exact List.mem_map.mp hmem

theorem shown (hids : (active.map (·.id)).Nodup) (i : Fin active.length) :
    active.get i ∈ (out.filter (·.visible)).map Entry.session ↔
      expanded = true ∧ ∀ a, Ancestor parents i a → collapsed (active.get a).id = false := by
  constructor
  · intro hmem
    obtain ⟨entry, hentry, heq⟩ := List.mem_map.mp hmem
    obtain ⟨hout, hvisible⟩ := List.mem_filter.mp hentry
    have hindex : entry.index = i := hids.of_map.get_inj_iff.mp heq
    rw [← hindex]
    exact (tells hwalk hlvl entry hout).visible.mp hvisible
  · intro h
    obtain ⟨entry, hout, rfl⟩ := exists_entry hwalk hlvl i
    exact List.mem_map.mpr
      ⟨entry, List.mem_filter.mpr ⟨hout, (tells hwalk hlvl entry hout).visible.mpr h⟩, rfl⟩

theorem siblings_pairwise (hids : (active.map (·.id)).Nodup) :
    out.Pairwise fun left right => parents left.index = parents right.index →
      siblingCmp left.session right.session ranks pinned = .lt := by
  have horder := hwalk.siblings_in_order (siblings_lists ranks pinned parents) expand_index
    rootEntries_index (fun x => ⟨_, hlvl x⟩)
    (fun a => App.siblings_pairwise ranks pinned parents hids (some a))
    (App.siblings_pairwise ranks pinned parents hids none)
  exact List.pairwise_map.mp horder

/-- A visible entry below the roots comes after its visible parent, with only entries as deep
as itself between them. -/
theorem parent_visible {before after : List (Entry active)} {entry : Entry active}
    (heq : out = before ++ entry :: after) (hvisible : entry.visible = true)
    (hdeep : 0 < lvl entry.index) :
    ∃ first parent between, before = first ++ parent :: between ∧
      parents entry.index = some parent.index ∧ parent.visible = true ∧
      lvl entry.index = lvl parent.index + 1 ∧ ∀ u ∈ between, lvl entry.index ≤ lvl u.index := by
  have hroots : ∀ root ∈ rootEntries active ranks pinned parents expanded,
      lvl root.index = 0 := by
    intro root hroot
    obtain ⟨index, hindex, rfl⟩ := List.mem_map.mp hroot
    exact (hlvl index).unique
      (.root (((siblings_lists ranks pinned parents).memRoots index).mp hindex))
  rcases hwalk.parent_before (fun entry => lvl entry.index)
      (fun s t ht => level_child hlvl (parent_of_expand ht)) hroots heq with hroot | hbelow
  · rw [hroots entry hroot] at hdeep
    exact absurd hdeep (Nat.lt_irrefl 0)
  · obtain ⟨first, parent, between, hbefore, hchild, hbetween⟩ := hbelow
    have hparent := parent_of_expand hchild
    obtain ⟨_, _, hvis⟩ := mem_expand hchild
    rw [hvis, Bool.and_eq_true] at hvisible
    exact ⟨first, parent, between, hbefore, hparent, hvisible.1, level_child hlvl hparent, hbetween⟩

theorem parent_first (hids : (active.map (·.id)).Nodup) {i j : Fin active.length}
    (hparent : parents i = some j) :
    (out.map Entry.session).idxOf (active.get j) < (out.map Entry.session).idxOf (active.get i) := by
  have hnodup : (out.map Entry.session).Nodup :=
    (session_perm hwalk hlvl).nodup_iff.mpr hids.of_map
  obtain ⟨entry, hout, rfl⟩ := exists_entry hwalk hlvl i
  obtain ⟨before, after, rfl⟩ := List.mem_iff_append.mp hout
  have hroots : ∀ root ∈ rootEntries active ranks pinned parents expanded,
      parents root.index = none := by
    intro root hroot
    obtain ⟨index, hindex, rfl⟩ := List.mem_map.mp hroot
    exact ((siblings_lists ranks pinned parents).memRoots index).mp hindex
  rcases hwalk.parent_before (fun entry => lvl entry.index)
      (fun s t ht => level_child hlvl (parent_of_expand ht))
      (fun s hs => (hlvl s.index).unique (.root (hroots s hs))) rfl with hroot | hbelow
  · rw [hroots entry hroot] at hparent
    cases hparent
  · obtain ⟨first, parent, between, rfl, hchild, _⟩ := hbelow
    have hindex : parent.index = j := by
      have hup := parent_of_expand hchild
      rw [hparent] at hup
      exact (Option.some.inj hup).symm
    change _ < List.idxOf entry.session _
    rw [show active.get j = parent.session from hindex ▸ rfl]
    have hlast : ∀ (u v : List SessionRecord) (a : SessionRecord), (u ++ a :: v).Nodup →
        (u ++ a :: v).idxOf a = u.length := by
      intro u v a h
      have hnot : a ∉ u := fun hmem =>
        (List.nodup_append.mp h).2.2 a hmem a List.mem_cons_self rfl
      rw [List.idxOf_append_of_notMem hnot, List.idxOf_cons_self, Nat.add_zero]
    have hchildAt := hlast ((first ++ parent :: between).map Entry.session)
      (after.map Entry.session) entry.session (by simpa using hnodup)
    have hparentAt := hlast (first.map Entry.session)
      ((between ++ entry :: after).map Entry.session) parent.session (by simpa using hnodup)
    have hsplit : (first ++ parent :: between ++ entry :: after).map Entry.session =
        (first.map Entry.session) ++ parent.session ::
          (between ++ entry :: after).map Entry.session := by simp
    have hsplit' : (first ++ parent :: between ++ entry :: after).map Entry.session =
        (first ++ parent :: between).map Entry.session ++ entry.session ::
          after.map Entry.session := by simp
    calc ((first ++ parent :: between ++ entry :: after).map Entry.session).idxOf parent.session
        = first.length := by rw [hsplit, hparentAt, List.length_map]
      _ < (first ++ parent :: between).length := by simp
      _ = ((first ++ parent :: between ++ entry :: after).map Entry.session).idxOf
            entry.session := by rw [hsplit', hchildAt, List.length_map]

theorem treeLaw (hids : (active.map (·.id)).Nodup) :
    TreeLaw active parents ranks pinned collapsed expanded
      ((out.filter (·.visible)).map (Entry.row
        (fun parent => siblings active ranks pinned parents (some parent)) pinned collapsed))
      (out.map Entry.session) where
  once := session_perm hwalk hlvl
  ordered := by
    rw [List.map_map]
    exact List.filter_sublist.map _
  shown := by
    intro i
    rw [List.map_map]
    exact shown hwalk hlvl hids i
  nested := by
    intro hsize before row after hrows hdepth
    -- the walk split at the entry of the row
    obtain ⟨shownBefore, shownAfter, hfilter, rfl, hafter⟩ := List.map_eq_append_iff.mp hrows
    obtain ⟨entry, shownRest, rfl, rfl, rfl⟩ := List.map_eq_cons_iff.mp hafter
    obtain ⟨outBefore, outAfter, rfl, rfl, hcons⟩ := List.filter_eq_append_iff.mp hfilter
    obtain ⟨hidden, rest, rfl, hhidden, hvisible, rfl⟩ := List.filter_eq_cons_iff.mp hcons
    have hsplit : outBefore ++ (hidden ++ entry :: rest) =
        (outBefore ++ hidden) ++ entry :: rest := (List.append_assoc ..).symm
    have htells := tells hwalk hlvl
    have hlevel : ∀ u ∈ outBefore ++ (hidden ++ entry :: rest),
        u.depth.toNat = lvl u.index := by
      intro u hu
      have hbound := (hlvl u.index).lt_card
      rw [Fintype.card_fin] at hbound
      rw [(htells u hu).depth, UInt16.toNat_ofNat', Nat.mod_eq_of_lt (by omega)]
    have hentry : entry ∈ outBefore ++ (hidden ++ entry :: rest) := by simp
    have hdeep : 0 < lvl entry.index := by
      rw [← hlevel entry hentry]
      exact UInt16.lt_iff_toNat_lt.mp hdepth
    obtain ⟨first, parent, between, hbefore, hparent, hparentVisible, hrise, hbetween⟩ :=
      parent_visible hwalk hlvl hsplit hvisible hdeep
    have hshown : outBefore.filter (·.visible) =
        first.filter (·.visible) ++ parent :: between.filter (·.visible) := by
      have hnone : hidden.filter (·.visible) = [] := by
        rw [List.filter_eq_nil_iff]
        exact hhidden
      have hall := congrArg (List.filter (·.visible)) hbefore
      rw [List.filter_append, hnone, List.append_nil, List.filter_append,
        List.filter_cons_of_pos hparentVisible] at hall
      exact hall
    have hin : ∀ u ∈ first ++ parent :: between,
        u ∈ outBefore ++ (hidden ++ entry :: rest) := by
      intro u hu
      rw [hsplit, hbefore]
      exact List.mem_append_left _ hu
    have hrowsBefore := congrArg (List.map (Entry.row
      (fun parent => siblings active ranks pinned parents (some parent)) pinned collapsed)) hshown
    rw [List.map_append, List.map_cons] at hrowsBefore
    refine ⟨entry.index, parent.index, rfl, hparent, _, _, _, hrowsBefore, rfl, ?_, ?_⟩
    · show parent.depth.toNat + 1 = entry.depth.toNat
      rw [hlevel entry hentry, hlevel parent (hin parent (by simp)), hrise]
    · intro other hother
      obtain ⟨u, hu, rfl⟩ := List.mem_map.mp hother
      have hmem := (List.mem_filter.mp hu).1
      show entry.depth ≤ u.depth
      rw [UInt16.le_iff_toNat_le, hlevel entry hentry, hlevel u (hin u (by simp [hmem]))]
      exact hbetween u hmem
  siblings := by
    rw [List.pairwise_map]
    refine ((siblings_pairwise hwalk hlvl hids).sublist List.filter_sublist).imp ?_
    intro left right hcmp i j hi hj hij
    refine hcmp ?_
    have hleft : left.index = i := hids.of_map.get_inj_iff.mp hi
    have hright : right.index = j := hids.of_map.get_inj_iff.mp hj
    rw [hleft, hright, hij]

end TreeWalk

end Law

/-- With fuel for its sessions `build_tree` ends, and returns what the walk over the tree of the
resolved parents finds. -/
theorem buildTree_walk (active : List SessionRecord) (ranks : SessionId → Option Nat)
    (pinned collapsed : SessionId → Bool) (expanded : Bool) :
    ∃ parents, ∃ lvl : Fin active.length → Nat, ∃ out : List (Entry active),
      (∀ x, Level parents x (lvl x)) ∧
      TreeWalk parents ranks pinned collapsed expanded out ∧
      ∀ fuel, active.length ≤ fuel → resolveParents fuel active = some parents ∧
        buildTree fuel active ranks pinned collapsed expanded =
          some ((out.filter (·.visible)).map (Entry.row
            (fun parent => siblings active ranks pinned parents (some parent)) pinned collapsed),
            out.map Entry.session) := by
  obtain ⟨parents, hparents, hforest⟩ := resolveParents_forest active
  choose lvl hlvl using hforest
  obtain ⟨out, hwalk⟩ : ∃ out, TreeWalk parents ranks pinned collapsed expanded out :=
    exists_treeWalk hlvl
  have hlen : out.length = active.length := by
    have hperm := (hwalk.session_perm hlvl).length_eq
    rwa [List.length_map] at hperm
  refine ⟨parents, lvl, out, hlvl, hwalk, ?_⟩
  intro fuel hfuel
  refine ⟨hparents fuel hfuel, ?_⟩
  obtain ⟨extra, rfl⟩ := Nat.exists_eq_add_of_le (hlen ▸ hfuel)
  unfold buildTree
  rw [hparents _ hfuel]
  have hflat := flatten_visits pinned hwalk extra [] [] []
  rw [List.append_nil, List.nil_append, List.nil_append] at hflat
  refine hflat.trans ?_
  cases extra <;> rfl

/-- **The tree of a project loses nobody.** With fuel for its sessions `build_tree` ends, and
what it returns obeys the law of the resolved parents. -/
theorem buildTree_law (active : List SessionRecord) (ranks : SessionId → Option Nat)
    (pinned collapsed : SessionId → Bool) (expanded : Bool)
    (hids : (active.map (·.id)).Nodup) :
    ∃ parents rows treeOrder,
      (∀ fuel, active.length ≤ fuel → resolveParents fuel active = some parents ∧
        buildTree fuel active ranks pinned collapsed expanded = some (rows, treeOrder)) ∧
      TreeLaw active parents ranks pinned collapsed expanded rows treeOrder := by
  obtain ⟨parents, lvl, out, hlvl, hwalk, hbuild⟩ :=
    buildTree_walk active ranks pinned collapsed expanded
  exact ⟨parents, _, _, hbuild, hwalk.treeLaw hlvl hids⟩

end Homie.App
