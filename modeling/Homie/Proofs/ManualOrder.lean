/-
What materialising the manual order does to the sidebar.

A rank in the reconciled order is a rank in the old one, and where that has none the place among
the arrivals.  So no session moves within its project.  A project moves exactly where the two
notions of arrival part: the sidebar knows the sessions it lists, and groups without a record.
-/
import Homie.App.Projection
import Homie.Proofs.Sidebar

namespace Homie.App

open Sorting

/-! ### Ranks -/

section Ranks

variable {order : List String} {id i j : String}

@[simp] theorem rankMap_nil : rankMap [] id = none := rfl

theorem rankMap_concat (order : List String) (x id : String) :
    rankMap (order ++ [x]) id = if x = id then some order.length else rankMap order id := by
  unfold rankMap
  rw [List.zipIdx_append, List.reverse_append]
  by_cases hx : x = id
  · simp [hx]
  · simp [hx]

theorem rankMap_append (front back : List String) (id : String) :
    rankMap (front ++ back) id =
      ((rankMap back id).map (front.length + ·)).or (rankMap front id) := by
  induction back using List.reverseRecOn with
  | nil => simp
  | append_singleton back x ih =>
    rw [← List.append_assoc, rankMap_concat, rankMap_concat, ih]
    by_cases hx : x = id
    · simp [hx]
    · simp [hx]

theorem getElem?_of_rankMap {n : Nat} (h : rankMap order id = some n) : order[n]? = some id := by
  induction order using List.reverseRecOn with
  | nil => cases h
  | append_singleton order x ih =>
    rw [rankMap_concat] at h
    by_cases hx : x = id
    · rw [if_pos hx, Option.some.injEq] at h
      rw [← h, hx]
      simp
    · rw [if_neg hx] at h
      have hprev := ih h
      have hlt := (List.getElem?_eq_some_iff.mp hprev).1
      rw [List.getElem?_append_left hlt]
      exact hprev

theorem rankMap_lt {n : Nat} (h : rankMap order id = some n) : n < order.length :=
  (List.getElem?_eq_some_iff.mp (getElem?_of_rankMap h)).1

theorem rankMap_isSome : (rankMap order id).isSome = true ↔ id ∈ order := by
  induction order using List.reverseRecOn with
  | nil => simp
  | append_singleton order x ih =>
    rw [rankMap_concat, List.mem_append, List.mem_singleton]
    by_cases hx : x = id
    · simp [hx]
    · rw [if_neg hx, ih]
      simp [Ne.symm hx]

theorem rankMap_eq_none : rankMap order id = none ↔ id ∉ order := by
  rw [← @rankMap_isSome order id]
  simp

theorem rankMap_inj {n : Nat} (hi : rankMap order i = some n) (hj : rankMap order j = some n) :
    i = j := by
  have h := (getElem?_of_rankMap hi).symm.trans (getElem?_of_rankMap hj)
  exact Option.some.inj h

theorem rankOf_some {ranks : String → Option Nat} {n : Nat} (h : ranks id = some n) :
    rankOf ranks id = n := by
  rw [rankOf, h, Option.getD_some]

theorem rankOf_none {ranks : String → Option Nat} (h : ranks id = none) :
    rankOf ranks id = UNRANKED := by
  rw [rankOf, h, Option.getD_none]

theorem compare_rankMap_filter (order : List String) {live : String → Bool}
    (hi : live i = true) (hj : live j = true) :
    compare (rankMap (order.filter live) i) (rankMap (order.filter live) j) =
      compare (rankMap order i) (rankMap order j) := by
  have hlast : ∀ (l : List String) (k : String),
      compare (some l.length) (rankMap l k) = .gt ∧ compare (rankMap l k) (some l.length) = .lt := by
    intro l k
    cases hk : rankMap l k with
    | none => exact ⟨rfl, rfl⟩
    | some n =>
      have hlt := rankMap_lt hk
      exact ⟨Nat.compare_eq_gt.mpr hlt, Nat.compare_eq_lt.mpr hlt⟩
  induction order using List.reverseRecOn with
  | nil => rfl
  | append_singleton order x ih =>
    rw [List.filter_append, List.filter_singleton, rankMap_concat, rankMap_concat]
    by_cases hx : live x = true
    · rw [hx, cond_true, rankMap_concat, rankMap_concat]
      by_cases hxi : x = i
      · by_cases hxj : x = j
        · rw [if_pos hxi, if_pos hxj, if_pos hxi, if_pos hxj]
          simp
        · rw [if_pos hxi, if_neg hxj, if_pos hxi, if_neg hxj, (hlast _ j).1, (hlast _ j).1]
      · by_cases hxj : x = j
        · rw [if_neg hxi, if_pos hxj, if_neg hxi, if_pos hxj, (hlast _ i).2, (hlast _ i).2]
        · rw [if_neg hxi, if_neg hxj, if_neg hxi, if_neg hxj, ih]
    · have hxi : x ≠ i := by
        intro heq
        rw [heq] at hx
        exact hx hi
      have hxj : x ≠ j := by
        intro heq
        rw [heq] at hx
        exact hx hj
      rw [Bool.not_eq_true] at hx
      rw [hx, cond_false, List.append_nil, if_neg hxi, if_neg hxj, ih]

end Ranks

/-! ### The reconciled order -/

section Reconcile

variable {order : List String} {live : String → Bool} {arriving : List String}

theorem reconcileOrder_getD :
    (reconcileOrder order live arriving).getD order =
      order.filter live ++ arriving.filter fun id => !order.contains id := by
  unfold reconcileOrder
  dsimp only
  split
  · next h =>
      rw [h.2, List.append_nil, Option.getD_none]
      exact (List.filter_sublist.eq_of_length h.1).symm
  · rfl

theorem reconcileOrder_again (hlive : ∀ id ∈ arriving, live id = true) :
    reconcileOrder ((reconcileOrder order live arriving).getD order) live arriving = none := by
  rw [reconcileOrder_getD]
  have hall : ∀ id ∈ order.filter live ++ arriving.filter fun id => !order.contains id,
      live id = true := by
    intro id hid
    rcases List.mem_append.mp hid with hid | hid
    · exact (List.mem_filter.mp hid).2
    · exact hlive id (List.mem_filter.mp hid).1
  unfold reconcileOrder
  dsimp only
  rw [List.filter_eq_self.mpr hall]
  refine if_pos ⟨rfl, ?_⟩
  rw [List.filter_eq_nil_iff]
  intro id hid
  by_cases hin : id ∈ order
  · simp [hin, hlive id hid]
  · simp [hin, hid]

theorem retainLive_getD (values : List String) :
    (retainLive values live).getD values = values.filter live := by
  unfold retainLive
  dsimp only
  split
  · rfl
  · next h =>
      rw [not_not] at h
      exact (List.filter_sublist.eq_of_length h).symm

theorem retainLive_again (values : List String) :
    retainLive ((retainLive values live).getD values) live = none := by
  rw [retainLive_getD]
  unfold retainLive
  simp

theorem compare_rankMap_sorted {α : Type} {cmp : α → α → Ordering} [Std.TransCmp cmp]
    {key : α → String} {l : List α} (hsorted : l.Pairwise fun x y => cmp x y = .lt)
    (hkeys : (l.map key).Nodup) {x y : α} (hx : x ∈ l) (hy : y ∈ l) {n m : Nat}
    (hn : rankMap (l.map key) (key x) = some n) (hm : rankMap (l.map key) (key y) = some m) :
    compare n m = cmp x y := by
  have hplace : ∀ {z : α} {k : Nat}, z ∈ l → rankMap (l.map key) (key z) = some k →
      ∃ hk : k < l.length, l[k] = z := by
    intro z k hz hk
    have hget := getElem?_of_rankMap hk
    rw [List.getElem?_map, Option.map_eq_some_iff] at hget
    obtain ⟨w, hw, hkey⟩ := hget
    obtain ⟨hlt, hwk⟩ := List.getElem?_eq_some_iff.mp hw
    refine ⟨hlt, ?_⟩
    rw [hwk]
    exact List.inj_on_of_nodup_map hkeys (hwk ▸ List.getElem_mem hlt) hz hkey
  obtain ⟨hnlt, hnx⟩ := hplace hx hn
  obtain ⟨hmlt, hmy⟩ := hplace hy hm
  rcases Nat.lt_trichotomy n m with hlt | heq | hgt
  · have h := List.pairwise_iff_getElem.mp hsorted n m hnlt hmlt hlt
    rw [hnx, hmy] at h
    rw [h, Nat.compare_eq_lt.mpr hlt]
  · subst heq
    rw [← hnx, ← hmy, @Std.ReflCmp.compare_self _ cmp, Nat.compare_eq_eq.mpr rfl]
  · have h := List.pairwise_iff_getElem.mp hsorted m n hmlt hnlt hgt
    rw [hnx, hmy] at h
    rw [@Std.OrientedCmp.eq_swap _ cmp, h, Nat.compare_eq_gt.mpr hgt]
    rfl

theorem rankMap_reconciled_of_mem (hi : i ∈ order) :
    rankMap (order.filter live ++ arriving.filter fun id => !order.contains id) i =
      rankMap (order.filter live) i := by
  rw [rankMap_append, rankMap_eq_none.mpr (by simp [hi])]
  simp

theorem rankMap_reconciled_of_notMem (hi : i ∉ order) (hin : i ∈ arriving) :
    ∃ n, rankMap (arriving.filter fun id => !order.contains id) i = some n ∧
      rankMap (order.filter live ++ arriving.filter fun id => !order.contains id) i =
        some ((order.filter live).length + n) := by
  have hmem : i ∈ arriving.filter fun id => !order.contains id := by simp [hi, hin]
  obtain ⟨n, hn⟩ := Option.isSome_iff_exists.mp (rankMap_isSome.mpr hmem)
  refine ⟨n, hn, ?_⟩
  rw [rankMap_append, hn]
  rfl

theorem compare_reconciled {α : Type} {cmp : α → α → Ordering} [Std.TransCmp cmp] {key : α → String}
    {arrivals : List α} (hsorted : arrivals.Pairwise fun x y => cmp x y = .lt)
    (hkeys : (arrivals.map key).Nodup) (hlive : ∀ x ∈ arrivals, live (key x) = true)
    (hsize : order.length ≤ UNRANKED) {x y : α} (hx : x ∈ arrivals) (hy : y ∈ arrivals) :
    compare
        (rankOf (rankMap (order.filter live ++
          (arrivals.map key).filter fun id => !order.contains id)) (key x))
        (rankOf (rankMap (order.filter live ++
          (arrivals.map key).filter fun id => !order.contains id)) (key y)) =
      (compare (rankOf (rankMap order) (key x)) (rankOf (rankMap order) (key y))).then
        (cmp x y) := by
  have hinj := List.inj_on_of_nodup_map hkeys hx hy
  have hin : ∀ {z : α}, z ∈ arrivals → key z ∈ order →
      ∃ n m, rankMap order (key z) = some n ∧ rankMap (order.filter live) (key z) = some m := by
    intro z hz hmem
    obtain ⟨n, hn⟩ := Option.isSome_iff_exists.mp (rankMap_isSome.mpr hmem)
    obtain ⟨m, hm⟩ := Option.isSome_iff_exists.mp
      (rankMap_isSome.mpr (List.mem_filter.mpr ⟨hmem, hlive z hz⟩))
    exact ⟨n, m, hn, hm⟩
  by_cases hxo : key x ∈ order
  · obtain ⟨nx, mx, hnx, hmx⟩ := hin hx hxo
    rw [rankOf_some hnx, rankOf_some ((rankMap_reconciled_of_mem hxo).trans hmx)]
    by_cases hyo : key y ∈ order
    · obtain ⟨ny, my, hny, hmy⟩ := hin hy hyo
      rw [rankOf_some hny, rankOf_some ((rankMap_reconciled_of_mem hyo).trans hmy)]
      have hcmp := compare_rankMap_filter order (hlive x hx) (hlive y hy)
      rw [hmx, hmy, hnx, hny] at hcmp
      change compare mx my = compare nx ny at hcmp
      rw [hcmp]
      by_cases hne : nx = ny
      · have heq : x = y := hinj (rankMap_inj hnx (hne ▸ hny))
        rw [hne, heq, Nat.compare_eq_eq.mpr rfl, @Std.ReflCmp.compare_self _ cmp]
        rfl
      · cases hord : compare nx ny with
        | eq => exact absurd (Nat.compare_eq_eq.mp hord) hne
        | lt => rfl
        | gt => rfl
    · obtain ⟨my, _, hmy⟩ := @rankMap_reconciled_of_notMem _ live _ _ hyo
        (List.mem_map_of_mem (f := key) hy)
      have hold := rankMap_lt hnx
      have hnew := rankMap_lt hmx
      rw [rankOf_none (rankMap_eq_none.mpr hyo), rankOf_some hmy, Nat.compare_eq_lt.mpr (by omega),
        Nat.compare_eq_lt.mpr (by omega)]
      rfl
  · obtain ⟨mx, hmx', hmx⟩ := @rankMap_reconciled_of_notMem _ live _ _ hxo
      (List.mem_map_of_mem (f := key) hx)
    rw [rankOf_none (rankMap_eq_none.mpr hxo), rankOf_some hmx]
    by_cases hyo : key y ∈ order
    · obtain ⟨ny, my, hny, hmy⟩ := hin hy hyo
      have hold := rankMap_lt hny
      have hnew := rankMap_lt hmy
      rw [rankOf_some hny, rankOf_some ((rankMap_reconciled_of_mem hyo).trans hmy),
        Nat.compare_eq_gt.mpr (by omega), Nat.compare_eq_gt.mpr (by omega)]
      rfl
    · obtain ⟨my, hmy', hmy⟩ := @rankMap_reconciled_of_notMem _ live _ _ hyo
        (List.mem_map_of_mem (f := key) hy)
      rw [List.filter_map] at hmx' hmy'
      have hcmp := compare_rankMap_sorted (hsorted.sublist List.filter_sublist)
        (hkeys.sublist (List.filter_sublist.map key)) (List.mem_filter.mpr ⟨hx, by simp [hxo]⟩)
        (List.mem_filter.mpr ⟨hy, by simp [hyo]⟩) hmx' hmy'
      have hshift : compare ((order.filter live).length + mx) ((order.filter live).length + my) =
          compare mx my := by
        rw [Nat.compare_eq_ite_lt, Nat.compare_eq_ite_lt]
        simp
      rw [rankOf_none (rankMap_eq_none.mpr hyo), rankOf_some hmy, Nat.compare_eq_eq.mpr rfl,
        hshift, hcmp]
      rfl

end Reconcile

/-! ### Preferences after the manual order is materialised -/

section Prefs

variable (sessions : SessionMap) (projects : ProjectMap) (prefs : Prefs)

theorem sessionArrivalCmp_eq :
    sessionArrivalCmp = compareLex (compareOn SessionRecord.createdAt) (compareOn (·.id)) := rfl

instance : Std.TransCmp sessionArrivalCmp := by
  rw [sessionArrivalCmp_eq]
  infer_instance

theorem projectArrivalCmp_eq :
    projectArrivalCmp = compareLex (compareOn fun entry => entry.1.isNone)
      (compareLex (compareOn Prod.fst) (compareOn Prod.snd)) := rfl

instance : Std.TransCmp projectArrivalCmp := by
  rw [projectArrivalCmp_eq]
  infer_instance

theorem sessionArrivalCmp_separates (l : List SessionRecord) (hids : (l.map (·.id)).Nodup) :
    Separates sessionArrivalCmp l := by
  intro a ha b hb hcmp
  unfold sessionArrivalCmp at hcmp
  rw [Ordering.then_eq_eq] at hcmp
  exact List.inj_on_of_nodup_map hids ha hb (Std.LawfulEqOrd.eq_of_compare hcmp.2)

theorem projectArrivalCmp_eq_eq {left right : Option DateMillis × ProjectId}
    (h : projectArrivalCmp left right = .eq) : left = right := by
  unfold projectArrivalCmp at h
  simp only [Ordering.then_eq_eq] at h
  exact Prod.ext (Std.LawfulEqOrd.eq_of_compare h.2.1) (Std.LawfulEqOrd.eq_of_compare h.2.2)

theorem mem_of_arrival {id : SessionId}
    (h : id ∈ (sortBy sessionArrivalCmp sessions.values).map (·.id)) :
    (sessions.get id).isSome = true := by
  obtain ⟨session, hsession, rfl⟩ := List.mem_map.mp h
  rw [sessions.get_eq_some.mpr ⟨mem_sortBy.mp hsession, rfl⟩]
  rfl

theorem mem_of_projectArrival {id : ProjectId}
    (h : id ∈ (sortBy projectArrivalCmp (projects.values.map fun project =>
      (projectArrival sessions project.id, project.id))).map (·.2)) :
    (projects.get id).isSome = true := by
  obtain ⟨entry, hentry, rfl⟩ := List.mem_map.mp h
  obtain ⟨project, hproject, rfl⟩ := List.mem_map.mp (mem_sortBy.mp hentry)
  rw [projects.get_eq_some.mpr ⟨hproject, rfl⟩]
  rfl

theorem reconcileSidebarOrder_again :
    reconcileSidebarOrder sessions projects (reconcileSidebarOrder sessions projects prefs).1 =
      ((reconcileSidebarOrder sessions projects prefs).1, false) := by
  have hsessions := @reconcileOrder_again prefs.sidebarSessionOrder _ _
    fun _ => mem_of_arrival sessions
  have hprojects := @reconcileOrder_again prefs.sidebarProjectOrder _ _
    fun _ => mem_of_projectArrival sessions projects
  have hcollapsed := @retainLive_again (fun id => (sessions.get id).isSome)
    prefs.sidebarCollapsedSessions
  have hpinned := @retainLive_again (fun id => (sessions.get id).isSome)
    prefs.sidebarPinnedSessions
  unfold reconcileSidebarOrder
  dsimp only
  rw [hsessions, hprojects, hcollapsed, hpinned]
  rfl

/-- Pruning forgets only ids without a session. -/
theorem contains_retained {values : List SessionId} {session : SessionRecord}
    (h : session ∈ sessions.values) :
    ((retainLive values fun id => (sessions.get id).isSome).getD values).contains session.id =
      values.contains session.id := by
  have hlive : (sessions.get session.id).isSome = true := by
    rw [sessions.get_eq_some.mpr ⟨h, rfl⟩]
    rfl
  rw [retainLive_getD, Bool.eq_iff_iff]
  simp [hlive]

theorem siblingCmp_reconciled (hfits : prefs.sidebarSessionOrder.length ≤ UNRANKED)
    {left right : SessionRecord} (hleft : left ∈ sessions.values)
    (hright : right ∈ sessions.values) (pinned pinned' : SessionId → Bool)
    (hpinned : ∀ session ∈ sessions.values, pinned' session.id = pinned session.id) :
    siblingCmp left right
        (rankMap (reconcileSidebarOrder sessions projects prefs).1.sidebarSessionOrder) pinned' =
      siblingCmp left right (rankMap prefs.sidebarSessionOrder) pinned := by
  have hids := sessions.keyed
  have hranks := @compare_reconciled _ (fun id => (sessions.get id).isSome) _ _ _ _ _
    (pairwise_lt_sortBy (sessionArrivalCmp_separates _ hids) hids.of_map)
    (((perm_sortBy sessionArrivalCmp sessions.values).map _).nodup_iff.mpr hids)
    (fun x hx => mem_of_arrival sessions (List.mem_map_of_mem hx)) hfits
    _ _ (mem_sortBy.mpr hleft) (mem_sortBy.mpr hright)
  rw [← reconcileOrder_getD] at hranks
  unfold siblingCmp
  rw [hpinned left hleft, hpinned right hright]
  change Ordering.then _ (Ordering.then (compare
    (rankOf (rankMap ((reconcileOrder prefs.sidebarSessionOrder _ _).getD _)) left.id)
    (rankOf (rankMap ((reconcileOrder prefs.sidebarSessionOrder _ _).getD _)) right.id)) _) = _
  rw [hranks]
  unfold sessionArrivalCmp
  rw [Ordering.then_assoc]
  congr 2
  generalize (compare left.createdAt right.createdAt).then (compare left.id right.id) = o
  cases o <;> rfl

end Prefs

/-! ### Rows keep their places -/

section Rows

variable {ranks ranks' : SessionId → Option Nat}
variable {pinned pinned' collapsed collapsed' : SessionId → Bool}

/-- The tree of a project depends on how its sessions compare, and on which of them are pinned
and collapsed. -/
theorem buildTree_congr {active : List SessionRecord}
    (hcmp : ∀ left ∈ active, ∀ right ∈ active,
      siblingCmp left right ranks' pinned' = siblingCmp left right ranks pinned)
    (hpinned : ∀ session ∈ active, pinned' session.id = pinned session.id)
    (hcollapsed : ∀ session ∈ active, collapsed' session.id = collapsed session.id)
    (fuel : Nat) (expanded : Bool) :
    buildTree fuel active ranks' pinned' collapsed' expanded =
      buildTree fuel active ranks pinned collapsed expanded := by
  have hsiblings : ∀ parents parent, siblings active ranks' pinned' parents parent =
      siblings active ranks pinned parents parent := by
    intro parents parent
    refine sortBy_congr fun left _ right _ => ?_
    exact hcmp _ (List.get_mem _ _) _ (List.get_mem _ _)
  have hflatten : ∀ children fuel stack rows treeOrder,
      @flatten active children pinned' collapsed' fuel stack rows treeOrder =
        flatten children pinned collapsed fuel stack rows treeOrder := by
    intro children fuel
    have hentry : ∀ entry : Entry active,
        entry.expand children collapsed' = entry.expand children collapsed ∧
          entry.row children pinned' collapsed' = entry.row children pinned collapsed := by
      intro entry
      have hmem : entry.session ∈ active := List.get_mem _ _
      unfold Entry.expand Entry.row Entry.isCollapsed
      rw [hcollapsed _ hmem, hpinned _ hmem]
      exact ⟨rfl, rfl⟩
    induction fuel with
    | zero =>
      intro stack rows treeOrder
      cases stack <;> rfl
    | succ fuel ih =>
      intro stack rows treeOrder
      cases stack with
      | nil => rfl
      | cons entry stack => rw [flatten, flatten, (hentry entry).1, (hentry entry).2, ih]
  unfold buildTree
  simp only [hsiblings, hflatten]

variable {sessions : SessionMap} {projects : ProjectMap} {prefs : Prefs}
variable {closing : List SessionId}

theorem buildGroup_reconciled (hfits : prefs.sidebarSessionOrder.length ≤ UNRANKED) (fuel : Nat)
    (lookup : ProjectId → Option Project) {entry : ProjectId × List SessionRecord}
    (hentry : entry ∈ grouped sessions closing) :
    buildGroup fuel lookup (reconcileSidebarOrder sessions projects prefs).1 entry =
      buildGroup fuel lookup prefs entry := by
  have hmem : ∀ session ∈ entry.2.filter (!·.isArchived), session ∈ sessions.values := by
    intro session hsession
    rw [(grouped_groups sessions closing).members entry hentry] at hsession
    exact (List.filter_sublist.trans (List.filter_sublist.trans List.filter_sublist)).subset
      hsession
  let after := (reconcileSidebarOrder sessions projects prefs).1
  have htree : ∀ expanded,
      buildTree fuel (entry.2.filter (!·.isArchived)) (rankMap after.sidebarSessionOrder)
          after.sidebarPinnedSessions.contains after.sidebarCollapsedSessions.contains expanded =
        buildTree fuel (entry.2.filter (!·.isArchived)) (rankMap prefs.sidebarSessionOrder)
          prefs.sidebarPinnedSessions.contains prefs.sidebarCollapsedSessions.contains expanded :=
    buildTree_congr
      (fun left hleft right hright => siblingCmp_reconciled sessions projects prefs hfits
        (hmem left hleft) (hmem right hright) _ _ fun _ hs => contains_retained sessions hs)
      (fun session hs => contains_retained sessions (hmem session hs))
      (fun session hs => contains_retained sessions (hmem session hs)) fuel
  unfold buildGroup
  dsimp only
  rw [← htree]
  rfl

end Rows

/-! ### Projects and their places -/

section Places

/-- When the first of these sessions of a project came. -/
def firstArrival (l : List SessionRecord) (id : ProjectId) : Option DateMillis :=
  ((l.filter (·.projectId == id)).map (·.createdAt)).min?

/-- Two projects by their arrival among these sessions. -/
def arrivalCmp (l : List SessionRecord) (left right : ProjectId) : Ordering :=
  (compare (firstArrival l left) (firstArrival l right)).then (compare left right)

def listedSessions (sessions : SessionMap) (closing : List SessionId) : List SessionRecord :=
  sessions.values.filter (listed closing)

/-- Two projects with one pin state, as the sidebar has them for a manual order. -/
def placeCmp (order : List ProjectId) (l : List SessionRecord) (left right : ProjectId) :
    Ordering :=
  (compare (rankOf (rankMap order) left) (rankOf (rankMap order) right)).then
    (arrivalCmp l left right)

/-- When materialising the manual order moves no project. -/
structure KeepsProjects (sessions : SessionMap) (projects : ProjectMap) (prefs : Prefs)
    (closing : List SessionId) (left right : ProjectId) : Prop where
  /-- Two projects with a record that the manual order does not have: the sessions that are not
  listed do not change which of them came first. -/
  recorded : (projects.get left).isSome = true → (projects.get right).isSome = true →
    left ∉ prefs.sidebarProjectOrder → right ∉ prefs.sidebarProjectOrder →
      arrivalCmp (listedSessions sessions closing) left right =
        arrivalCmp sessions.values left right
  /-- A project without a record stands below those with one. -/
  first : (projects.get left).isSome = true → projects.get right = none →
    placeCmp prefs.sidebarProjectOrder (listedSessions sessions closing) left right = .lt
  /-- Projects without a record stand in the order of arrival. -/
  unrecorded : projects.get left = none → projects.get right = none →
    placeCmp prefs.sidebarProjectOrder (listedSessions sessions closing) left right =
      arrivalCmp (listedSessions sessions closing) left right

variable {sessions : SessionMap} {projects : ProjectMap} {prefs : Prefs}
variable {closing : List SessionId} {left right id : ProjectId}

theorem arrivalCmp_self (l : List SessionRecord) : arrivalCmp l id id = .eq := by
  unfold arrivalCmp
  rw [Std.ReflOrd.compare_self, Std.ReflOrd.compare_self]
  rfl

theorem eq_of_arrivalCmp {l : List SessionRecord} (h : arrivalCmp l left right = .eq) :
    left = right := by
  unfold arrivalCmp at h
  rw [Ordering.then_eq_eq] at h
  exact Std.LawfulEqOrd.eq_of_compare h.2

theorem arrivalCmp_swap (l : List SessionRecord) :
    arrivalCmp l left right = (arrivalCmp l right left).swap := by
  unfold arrivalCmp
  rw [Ordering.swap_then, ← Std.OrientedOrd.eq_swap, ← Std.OrientedOrd.eq_swap]

theorem placeCmp_swap (order : List ProjectId) (l : List SessionRecord) :
    placeCmp order l left right = (placeCmp order l right left).swap := by
  unfold placeCmp
  rw [Ordering.swap_then, ← Std.OrientedOrd.eq_swap, ← arrivalCmp_swap]

theorem projectArrivalCmp_of_sessions (hleft : ∃ s ∈ sessions.values, s.projectId = left)
    (hright : ∃ s ∈ sessions.values, s.projectId = right) :
    projectArrivalCmp (projectArrival sessions left, left) (projectArrival sessions right, right) =
      arrivalCmp sessions.values left right := by
  have hsome : ∀ id, (∃ s ∈ sessions.values, s.projectId = id) →
      (projectArrival sessions id).isNone = false := by
    intro id hid
    obtain ⟨session, hsession, rfl⟩ := hid
    rw [Option.isNone_eq_false_iff, projectArrival, List.isSome_min?_iff]
    exact List.ne_nil_of_mem (List.mem_map_of_mem
      (List.mem_filter.mpr ⟨hsession, beq_self_eq_true _⟩))
  unfold projectArrivalCmp
  rw [hsome left hleft, hsome right hright]
  rfl

theorem compare_projectRank (hfits : prefs.sidebarProjectOrder.length ≤ UNRANKED)
    (hleft : (projects.get left).isSome = true) (hright : (projects.get right).isSome = true) :
    compare
        (rankOf (rankMap (reconcileSidebarOrder sessions projects prefs).1.sidebarProjectOrder)
          left)
        (rankOf (rankMap (reconcileSidebarOrder sessions projects prefs).1.sidebarProjectOrder)
          right) =
      (compare (rankOf (rankMap prefs.sidebarProjectOrder) left)
        (rankOf (rankMap prefs.sidebarProjectOrder) right)).then
          (projectArrivalCmp (projectArrival sessions left, left)
            (projectArrival sessions right, right)) := by
  let entries := projects.values.map fun project =>
    (projectArrival sessions project.id, project.id)
  have hkeys : (entries.map (·.2)).Nodup := by
    rw [List.map_map]
    exact projects.keyed
  have hmem : ∀ {id : ProjectId}, (projects.get id).isSome = true →
      (projectArrival sessions id, id) ∈ sortBy projectArrivalCmp entries := by
    intro id hid
    obtain ⟨project, hproject⟩ := Option.isSome_iff_exists.mp hid
    obtain ⟨hin, rfl⟩ := projects.get_eq_some.mp hproject
    exact mem_sortBy.mpr (List.mem_map_of_mem hin)
  have hranks := @compare_reconciled _ (fun id => (projects.get id).isSome) _ _ _ _ _
    (pairwise_lt_sortBy (fun a _ b _ h => projectArrivalCmp_eq_eq h) hkeys.of_map)
    (((perm_sortBy projectArrivalCmp entries).map _).nodup_iff.mpr hkeys)
    (fun x hx => mem_of_projectArrival sessions projects (List.mem_map_of_mem hx)) hfits
    _ _ (hmem hleft) (hmem hright)
  rw [← reconcileOrder_getD] at hranks
  exact hranks

/-- A project without a record has no rank. -/
theorem projectRank_unrecorded (h : projects.get id = none) :
    rankOf (rankMap (reconcileSidebarOrder sessions projects prefs).1.sidebarProjectOrder) id =
      UNRANKED := by
  refine rankOf_none (rankMap_eq_none.mpr ?_)
  change id ∉ (reconcileOrder prefs.sidebarProjectOrder _ _).getD _
  rw [reconcileOrder_getD]
  intro hmem
  rcases List.mem_append.mp hmem with hmem | hmem
  · have hlive := (List.mem_filter.mp hmem).2
    rw [h] at hlive
    cases hlive
  · have hlive := mem_of_projectArrival sessions projects (List.mem_filter.mp hmem).1
    rw [h] at hlive
    cases hlive

theorem projectRank_lt
    (hfits : prefs.sidebarProjectOrder.length + projects.values.length ≤ UNRANKED)
    (h : (projects.get id).isSome = true) :
    rankOf (rankMap (reconcileSidebarOrder sessions projects prefs).1.sidebarProjectOrder) id <
      UNRANKED := by
  have hmem : id ∈ (reconcileSidebarOrder sessions projects prefs).1.sidebarProjectOrder := by
    change id ∈ (reconcileOrder prefs.sidebarProjectOrder _ _).getD _
    rw [reconcileOrder_getD]
    by_cases hold : id ∈ prefs.sidebarProjectOrder
    · exact List.mem_append_left _ (List.mem_filter.mpr ⟨hold, h⟩)
    · obtain ⟨project, hproject⟩ := Option.isSome_iff_exists.mp h
      obtain ⟨hin, rfl⟩ := projects.get_eq_some.mp hproject
      refine List.mem_append_right _ (List.mem_filter.mpr ⟨?_, by simp [hold]⟩)
      exact List.mem_map_of_mem (f := Prod.snd) (mem_sortBy.mpr (List.mem_map_of_mem hin))
  obtain ⟨n, hn⟩ := Option.isSome_iff_exists.mp (rankMap_isSome.mpr hmem)
  rw [rankOf_some hn]
  have hlt := rankMap_lt hn
  have hlen : (reconcileSidebarOrder sessions projects prefs).1.sidebarProjectOrder.length ≤
      prefs.sidebarProjectOrder.length + projects.values.length := by
    change ((reconcileOrder prefs.sidebarProjectOrder _ _).getD _).length ≤ _
    rw [reconcileOrder_getD, List.length_append]
    refine Nat.add_le_add (List.length_filter_le _ _) ((List.length_filter_le _ _).trans ?_)
    rw [List.length_map, (perm_sortBy _ _).length_eq, List.length_map]
  omega

/-- Two ids that the order ranks alike are one, unless it ranks neither. -/
theorem eq_of_compare_rank {order : List String} (hfits : order.length ≤ UNRANKED)
    (hin : left ∈ order ∨ right ∈ order)
    (h : compare (rankOf (rankMap order) left) (rankOf (rankMap order) right) = .eq) :
    left = right := by
  have heq := Nat.compare_eq_eq.mp h
  cases hl : rankMap order left with
  | none =>
    cases hr : rankMap order right with
    | none =>
      rw [rankMap_eq_none] at hl hr
      exact absurd hin (not_or.mpr ⟨hl, hr⟩)
    | some m =>
      rw [rankOf_none hl, rankOf_some hr] at heq
      have hlt := rankMap_lt hr
      omega
  | some n =>
    cases hr : rankMap order right with
    | none =>
      rw [rankOf_some hl, rankOf_none hr] at heq
      have hlt := rankMap_lt hl
      omega
    | some m =>
      rw [rankOf_some hl, rankOf_some hr] at heq
      subst heq
      exact rankMap_inj hl hr

theorem place_recorded_iff (hfits : prefs.sidebarProjectOrder.length ≤ UNRANKED)
    (hleft : ∃ s ∈ sessions.values, s.projectId = left)
    (hright : ∃ s ∈ sessions.values, s.projectId = right)
    (hl : (projects.get left).isSome = true) (hr : (projects.get right).isSome = true) :
    placeCmp (reconcileSidebarOrder sessions projects prefs).1.sidebarProjectOrder
        (listedSessions sessions closing) left right =
      placeCmp prefs.sidebarProjectOrder (listedSessions sessions closing) left right ↔
    (left ∉ prefs.sidebarProjectOrder → right ∉ prefs.sidebarProjectOrder →
      arrivalCmp (listedSessions sessions closing) left right =
        arrivalCmp sessions.values left right) := by
  unfold placeCmp
  rw [compare_projectRank hfits hl hr, projectArrivalCmp_of_sessions hleft hright,
    Ordering.then_assoc]
  by_cases heq : left = right
  · subst heq
    simp [arrivalCmp_self]
  · have hall : ∀ l, arrivalCmp l left right ≠ .eq := fun l h => heq (eq_of_arrivalCmp h)
    have hskip : (arrivalCmp sessions.values left right).then
        (arrivalCmp (listedSessions sessions closing) left right) =
        arrivalCmp sessions.values left right := by
      cases hcmp : arrivalCmp sessions.values left right with
      | eq => exact absurd hcmp (hall _)
      | lt => rfl
      | gt => rfl
    rw [hskip]
    by_cases hin : left ∈ prefs.sidebarProjectOrder ∨ right ∈ prefs.sidebarProjectOrder
    · have hrank := fun h => heq (eq_of_compare_rank hfits hin h)
      have hvacuous : (left ∉ prefs.sidebarProjectOrder → right ∉ prefs.sidebarProjectOrder →
          arrivalCmp (listedSessions sessions closing) left right =
            arrivalCmp sessions.values left right) :=
        fun h h' => absurd hin (not_or.mpr ⟨h, h'⟩)
      refine iff_of_true ?_ hvacuous
      cases hcmp : compare (rankOf (rankMap prefs.sidebarProjectOrder) left)
          (rankOf (rankMap prefs.sidebarProjectOrder) right) with
      | eq => exact absurd hcmp hrank
      | lt => rfl
      | gt => rfl
    · obtain ⟨hnl, hnr⟩ := not_or.mp hin
      rw [rankOf_none (rankMap_eq_none.mpr hnl), rankOf_none (rankMap_eq_none.mpr hnr),
        Nat.compare_eq_eq.mpr rfl]
      exact ⟨fun h _ _ => h.symm, fun h => (h hnl hnr).symm⟩

theorem place_first_iff
    (hfits : prefs.sidebarProjectOrder.length + projects.values.length ≤ UNRANKED)
    (hl : (projects.get left).isSome = true) (hr : projects.get right = none) :
    placeCmp (reconcileSidebarOrder sessions projects prefs).1.sidebarProjectOrder
        (listedSessions sessions closing) left right =
      placeCmp prefs.sidebarProjectOrder (listedSessions sessions closing) left right ↔
    placeCmp prefs.sidebarProjectOrder (listedSessions sessions closing) left right = .lt := by
  have hafter : placeCmp (reconcileSidebarOrder sessions projects prefs).1.sidebarProjectOrder
      (listedSessions sessions closing) left right = .lt := by
    unfold placeCmp
    rw [projectRank_unrecorded hr, Nat.compare_eq_lt.mpr (projectRank_lt hfits hl)]
    rfl
  rw [hafter, eq_comm]

theorem place_unrecorded (hl : projects.get left = none) (hr : projects.get right = none) :
    placeCmp (reconcileSidebarOrder sessions projects prefs).1.sidebarProjectOrder
        (listedSessions sessions closing) left right =
      arrivalCmp (listedSessions sessions closing) left right := by
  unfold placeCmp
  rw [projectRank_unrecorded hl, projectRank_unrecorded hr, Nat.compare_eq_eq.mpr rfl]
  rfl

theorem place_kept_iff
    (hfits : prefs.sidebarProjectOrder.length + projects.values.length ≤ UNRANKED)
    (hleft : ∃ s ∈ sessions.values, s.projectId = left)
    (hright : ∃ s ∈ sessions.values, s.projectId = right) :
    placeCmp (reconcileSidebarOrder sessions projects prefs).1.sidebarProjectOrder
        (listedSessions sessions closing) left right =
      placeCmp prefs.sidebarProjectOrder (listedSessions sessions closing) left right ↔
    KeepsProjects sessions projects prefs closing left right ∧
      KeepsProjects sessions projects prefs closing right left := by
  have hfits' : prefs.sidebarProjectOrder.length ≤ UNRANKED := by omega
  by_cases hl : (projects.get left).isSome = true
  · have hl' : projects.get left ≠ none := Option.isSome_iff_ne_none.mp hl
    by_cases hr : (projects.get right).isSome = true
    · have hr' : projects.get right ≠ none := Option.isSome_iff_ne_none.mp hr
      rw [place_recorded_iff hfits' hleft hright hl hr]
      constructor
      · intro h
        refine ⟨⟨fun _ _ => h, fun _ h' => absurd h' hr', fun h' => absurd h' hl'⟩,
          ⟨fun _ _ hnr hnl => ?_, fun _ h' => absurd h' hl', fun h' => absurd h' hr'⟩⟩
        rw [arrivalCmp_swap, h hnl hnr, ← arrivalCmp_swap]
      · intro h
        exact h.1.recorded hl hr
    · rw [Option.not_isSome_iff_eq_none] at hr
      rw [place_first_iff hfits hl hr]
      constructor
      · intro h
        have hr' : ¬(projects.get right).isSome = true := by simp [hr]
        exact ⟨⟨fun _ h' => absurd h' hr', fun _ _ => h, fun h' => absurd h' hl'⟩,
          ⟨fun h' => absurd h' hr', fun h' => absurd h' hr', fun _ h' => absurd h' hl'⟩⟩
      · intro h
        exact h.1.first hl hr
  · rw [Option.not_isSome_iff_eq_none] at hl
    have hl' : ¬(projects.get left).isSome = true := by simp [hl]
    by_cases hr : (projects.get right).isSome = true
    · have hr' : projects.get right ≠ none := Option.isSome_iff_ne_none.mp hr
      have hturned := @place_first_iff sessions _ _ closing _ _ hfits hr hl
      rw [placeCmp_swap, placeCmp_swap prefs.sidebarProjectOrder, Ordering.swap_inj, hturned]
      constructor
      · intro h
        exact ⟨⟨fun h' => absurd h' hl', fun h' => absurd h' hl', fun _ h' => absurd h' hr'⟩,
          ⟨fun _ h' => absurd h' hl', fun _ _ => h, fun h' => absurd h' hr'⟩⟩
      · intro h
        exact h.2.first hr hl
    · rw [Option.not_isSome_iff_eq_none] at hr
      have hr' : ¬(projects.get right).isSome = true := by simp [hr]
      rw [place_unrecorded hl hr]
      constructor
      · intro h
        refine ⟨⟨fun h' => absurd h' hl', fun h' => absurd h' hl', fun _ _ => h.symm⟩,
          ⟨fun h' => absurd h' hr', fun h' => absurd h' hr', fun _ _ => ?_⟩⟩
        rw [placeCmp_swap, ← h, ← arrivalCmp_swap]
      · intro h
        exact (h.1.unrecorded hl hr).symm

end Places

/-! ### The projection after the manual order is materialised -/

section Materialised

variable {sessions : SessionMap} {projects : ProjectMap} {prefs : Prefs}
variable {closing : List SessionId} {fuel : Nat}

theorem group_tells {group : Option DateMillis × SidebarProject}
    {entry : ProjectId × List SessionRecord} (hentry : entry ∈ grouped sessions closing)
    (hgroup : buildGroup fuel projects.get prefs entry = some group) :
    group.1 = firstArrival (listedSessions sessions closing) group.2.project.id ∧
      group.2.pinned = prefs.sidebarPinnedProjects.contains group.2.project.id ∧
      ∃ s ∈ listedSessions sessions closing, s.projectId = group.2.project.id := by
  obtain ⟨harrival, _, _, hpinned⟩ := buildGroup_project hgroup
  have hgroups := grouped_groups sessions closing
  rw [buildGroup_projectId hgroup] at hpinned ⊢
  refine ⟨?_, hpinned, (hgroups.keys _).mp (List.mem_map_of_mem hentry)⟩
  rw [harrival, hgroups.members entry hentry]
  rfl

theorem exists_group (hfuel : sessions.values.length ≤ fuel) {id : ProjectId}
    (hid : ∃ s ∈ listedSessions sessions closing, s.projectId = id) :
    ∃ entry ∈ grouped sessions closing, ∃ group,
      buildGroup fuel projects.get prefs entry = some group ∧ group.2.project.id = id := by
  obtain ⟨entry, hentry, rfl⟩ := List.mem_map.mp (((grouped_groups sessions closing).keys id).mpr hid)
  obtain ⟨group, hgroup, _⟩ := @buildGroup_built _ _ prefs projects.get _ hentry
  exact ⟨entry, hentry, group, hgroup fuel hfuel, buildGroup_projectId (hgroup fuel hfuel)⟩

theorem projectCmp_place {left right : Option DateMillis × SidebarProject} (order : List ProjectId)
    (hleft : left.1 = firstArrival (listedSessions sessions closing) left.2.project.id)
    (hright : right.1 = firstArrival (listedSessions sessions closing) right.2.project.id) :
    projectCmp (rankMap order) left right = (compare right.2.pinned left.2.pinned).then
      (placeCmp order (listedSessions sessions closing) left.2.project.id right.2.project.id) := by
  unfold projectCmp placeCmp arrivalCmp
  rw [hleft, hright]

theorem eq_of_map_eq {α β : Type} {f : α → β} {l l' : List α}
    (hinj : ∀ a ∈ l, ∀ b ∈ l', f a = f b → a = b) (h : l.map f = l'.map f) : l = l' := by
  induction l generalizing l' with
  | nil =>
    rw [List.map_nil, eq_comm, List.map_eq_nil_iff] at h
    exact h.symm
  | cons a l ih =>
    cases l' with
    | nil => cases h
    | cons b l' =>
      rw [List.map_cons, List.map_cons, List.cons.injEq] at h
      rw [hinj a List.mem_cons_self b List.mem_cons_self h.1,
        ih (fun x hx y hy => hinj x (List.mem_cons_of_mem _ hx) y (List.mem_cons_of_mem _ hy))
          h.2]

/-- The groups, in the order in which they are built. -/
abbrev builtGroups (order : HashOrder (ProjectId × List SessionRecord)) (fuel : Nat)
    (sessions : SessionMap) (projects : ProjectMap) (prefs : Prefs) (closing : List SessionId) :
    List (Option DateMillis × SidebarProject) :=
  (order.visit (grouped sessions closing)).filterMap (buildGroup fuel projects.get prefs)

/-- The projects stand as before exactly when no two of one pin state trade places. -/
theorem sorted_reconciled_iff (before : HashOrder (ProjectId × List SessionRecord))
    (hfuel : sessions.values.length ≤ fuel)
    (hfits : prefs.sidebarProjectOrder.length + projects.values.length ≤ UNRANKED) :
    sortBy (projectCmp (rankMap prefs.sidebarProjectOrder))
        (builtGroups before fuel sessions projects prefs closing) =
      sortBy (projectCmp (rankMap
          (reconcileSidebarOrder sessions projects prefs).1.sidebarProjectOrder))
        (builtGroups before fuel sessions projects prefs closing) ↔
    ∀ left right, (∃ s ∈ listedSessions sessions closing, s.projectId = left) →
      (∃ s ∈ listedSessions sessions closing, s.projectId = right) →
      prefs.sidebarPinnedProjects.contains left = prefs.sidebarPinnedProjects.contains right →
        KeepsProjects sessions projects prefs closing left right := by
  have hvisit := before.perm (grouped sessions closing)
  have hnodup := (hvisit.map (·.1)).nodup_iff.mpr (grouped_groups sessions closing).nodup
  have hsep := fun ranks => projectCmp_separates ranks
    (@built_nodup prefs fuel projects _ hnodup)
  have htells : ∀ group ∈ builtGroups before fuel sessions projects prefs closing,
      group.1 = firstArrival (listedSessions sessions closing) group.2.project.id ∧
        group.2.pinned = prefs.sidebarPinnedProjects.contains group.2.project.id ∧
        ∃ s ∈ listedSessions sessions closing, s.projectId = group.2.project.id := by
    intro group hgroup
    obtain ⟨entry, hentry, hbuilt⟩ := List.mem_filterMap.mp hgroup
    exact group_tells (hvisit.mem_iff.mp hentry) hbuilt
  have hweaken : ∀ {id}, (∃ s ∈ listedSessions sessions closing, s.projectId = id) →
      ∃ s ∈ sessions.values, s.projectId = id := by
    intro id hid
    obtain ⟨s, hs, hid⟩ := hid
    exact ⟨s, (List.mem_filter.mp hs).1, hid⟩
  rw [sortBy_eq_iff (hsep _) (hsep _)]
  constructor
  · intro hagree left right hleft hright hpins
    obtain ⟨leftEntry, hleftEntry, leftGroup, hleftBuilt, hleftId⟩ :=
      @exists_group _ projects prefs _ _ hfuel _ hleft
    obtain ⟨rightEntry, hrightEntry, rightGroup, hrightBuilt, hrightId⟩ :=
      @exists_group _ projects prefs _ _ hfuel _ hright
    have hl := List.mem_filterMap.mpr ⟨leftEntry, hvisit.mem_iff.mpr hleftEntry, hleftBuilt⟩
    have hr := List.mem_filterMap.mpr ⟨rightEntry, hvisit.mem_iff.mpr hrightEntry, hrightBuilt⟩
    have hcmp := hagree leftGroup hl rightGroup hr
    have hsame : compare rightGroup.2.pinned leftGroup.2.pinned = .eq := by
      rw [(htells _ hl).2.1, (htells _ hr).2.1, hleftId, hrightId, hpins]
      exact Std.ReflOrd.compare_self
    rw [projectCmp_place _ (htells _ hl).1 (htells _ hr).1,
      projectCmp_place _ (htells _ hl).1 (htells _ hr).1, hsame, hleftId, hrightId] at hcmp
    exact ((place_kept_iff hfits (hweaken hleft) (hweaken hright)).mp hcmp.symm).1
  · intro hkeeps leftGroup hl rightGroup hr
    obtain ⟨hleftArrival, hleftPin, hleftShown⟩ := htells _ hl
    obtain ⟨hrightArrival, hrightPin, hrightShown⟩ := htells _ hr
    rw [projectCmp_place _ hleftArrival hrightArrival,
      projectCmp_place _ hleftArrival hrightArrival]
    by_cases hpins : leftGroup.2.pinned = rightGroup.2.pinned
    · have hpins' : prefs.sidebarPinnedProjects.contains leftGroup.2.project.id =
          prefs.sidebarPinnedProjects.contains rightGroup.2.project.id := by
        rw [← hleftPin, ← hrightPin, hpins]
      rw [(place_kept_iff hfits (hweaken hleftShown) (hweaken hrightShown)).mpr
        ⟨hkeeps _ _ hleftShown hrightShown hpins', hkeeps _ _ hrightShown hleftShown hpins'.symm⟩]
    · have hne : compare rightGroup.2.pinned leftGroup.2.pinned ≠ .eq :=
        fun h => hpins (Std.LawfulEqOrd.eq_of_compare h).symm
      cases hcmp : compare rightGroup.2.pinned leftGroup.2.pinned with
      | eq => exact absurd hcmp hne
      | lt => rfl
      | gt => rfl

/-- Two sidebars with the same projects and the same rows, in the same order. -/
def SamePlaces (left right : SidebarProjection) : Prop :=
  left.projects.map (·.project.id) = right.projects.map (·.project.id) ∧
    left.projects.map (fun group => group.sessions.map (·.session.id)) =
      right.projects.map fun group => group.sessions.map (·.session.id)

theorem samePlaces_iff (before after : HashOrder (ProjectId × List SessionRecord))
    (selected : Option SessionId) (hfuel : sessions.values.length ≤ fuel)
    (hsessions : prefs.sidebarSessionOrder.length ≤ UNRANKED)
    (hprojects : prefs.sidebarProjectOrder.length + projects.values.length ≤ UNRANKED) :
    ∃ left right,
      buildProjection before fuel sessions projects.get prefs selected closing = some left ∧
      buildProjection after fuel sessions projects.get
        (reconcileSidebarOrder sessions projects prefs).1 selected closing = some right ∧
      (SamePlaces left right ↔
        ∀ left right, (∃ s ∈ listedSessions sessions closing, s.projectId = left) →
          (∃ s ∈ listedSessions sessions closing, s.projectId = right) →
          prefs.sidebarPinnedProjects.contains left =
            prefs.sidebarPinnedProjects.contains right →
              KeepsProjects sessions projects prefs closing left right) := by
  obtain ⟨left, _, hleft, _⟩ := exists_projection before sessions projects.get prefs selected
    closing
  obtain ⟨right, _, hright, _⟩ := exists_projection after sessions projects.get
    (reconcileSidebarOrder sessions projects prefs).1 selected closing
  refine ⟨left, right, hleft fuel hfuel, hright fuel hfuel, ?_⟩
  have hnodup := ((before.perm (grouped sessions closing)).map (·.1)).nodup_iff.mpr
    (grouped_groups sessions closing).nodup
  -- both projections sort the groups that were built before
  have hsame : (after.visit (grouped sessions closing)).filterMap
      (buildGroup fuel projects.get (reconcileSidebarOrder sessions projects prefs).1) =
      (after.visit (grouped sessions closing)).filterMap (buildGroup fuel projects.get prefs) := by
    refine List.filterMap_congr fun entry hentry => ?_
    exact buildGroup_reconciled hsessions fuel projects.get
      ((after.perm _).mem_iff.mp hentry)
  have hl := projection_of_groups (hleft fuel hfuel)
  have hr := projection_of_groups (hright fuel hfuel)
  rw [hsame, ← sorted_built _ ((before.perm _).trans (after.perm _).symm) hnodup] at hr
  rw [← sorted_reconciled_iff before hfuel hprojects, hl, hr]
  constructor
  · intro hplaces
    have hids := hplaces.1
    unfold ofGroups at hids
    rw [List.map_map, List.map_map] at hids
    refine eq_of_map_eq ?_ hids
    intro a ha b hb hid
    exact List.inj_on_of_nodup_map (built_nodup hnodup) (mem_sortBy.mp ha) (mem_sortBy.mp hb) hid
  · intro hsorted
    rw [hsorted]
    exact ⟨rfl, rfl⟩

/-- **When materialising the manual order moves nothing.** Rows never move within their project,
and a second pass changes nothing and says so.  Projects stand as before exactly when every two of
one pin state keep their places: two with a record that the manual order does not have came in the
same order whether or not hidden sessions count, a project without a record stands below those
with one, and those without one stand by arrival.  A vector has fewer elements than `UNRANKED`. -/
theorem materialising_keeps_places_iff
    (before after : HashOrder (ProjectId × List SessionRecord)) (fuel : Nat)
    (sessions : SessionMap) (projects : ProjectMap) (prefs : Prefs)
    (selected : Option SessionId) (closing : List SessionId)
    (hfuel : sessions.values.length ≤ fuel)
    (hsessions : prefs.sidebarSessionOrder.length ≤ UNRANKED)
    (hprojects : prefs.sidebarProjectOrder.length + projects.values.length ≤ UNRANKED) :
    ((∃ left right,
        buildProjection before fuel sessions projects.get prefs selected closing = some left ∧
        buildProjection after fuel sessions projects.get
          (reconcileSidebarOrder sessions projects prefs).1 selected closing = some right ∧
        SamePlaces left right) ∧
      reconcileSidebarOrder sessions projects (reconcileSidebarOrder sessions projects prefs).1 =
        ((reconcileSidebarOrder sessions projects prefs).1, false)) ↔
    ∀ left right, (∃ s ∈ listedSessions sessions closing, s.projectId = left) →
      (∃ s ∈ listedSessions sessions closing, s.projectId = right) →
      prefs.sidebarPinnedProjects.contains left = prefs.sidebarPinnedProjects.contains right →
        KeepsProjects sessions projects prefs closing left right := by
  obtain ⟨left, right, hleft, hright, hiff⟩ := @samePlaces_iff _ _ _ closing _ before after
    selected hfuel hsessions hprojects
  constructor
  · intro h
    obtain ⟨⟨left', right', hleft', hright', hplaces⟩, _⟩ := h
    rw [hleft, Option.some.injEq] at hleft'
    rw [hright, Option.some.injEq] at hright'
    rw [← hleft', ← hright'] at hplaces
    exact hiff.mp hplaces
  · intro h
    exact ⟨⟨left, right, hleft, hright, hiff.mpr h⟩,
      reconcileSidebarOrder_again sessions projects prefs⟩

/-- Two sessions, the older of which has no project record. -/
def scratchAndHomie : SessionMap :=
  ⟨[plainSession "s1" "scratch" 1, plainSession "s2" "homie" 2], by decide⟩

def homieOnly : ProjectMap := ⟨[⟨"homie", "/homie", "homie", none⟩], by decide⟩

def noPrefs : Prefs := ⟨[], [], [], [], [], []⟩

theorem walked_perm (groups : List (ProjectId × List SessionRecord)) :
    (id groups).Perm groups := List.Perm.refl groups

def asWalked : HashOrder (ProjectId × List SessionRecord) := ⟨id, walked_perm⟩

def bothProjects : ProjectMap :=
  ⟨[⟨"homie", "/homie", "homie", none⟩, ⟨"scratch", "/tmp", "tmp", none⟩], by decide⟩

/-- With a record for both projects, both keep their places. -/
theorem materialising_keeps_both :
    (∃ left right,
        buildProjection asWalked 2 scratchAndHomie bothProjects.get noPrefs none [] = some left ∧
        buildProjection asWalked 2 scratchAndHomie bothProjects.get
          (reconcileSidebarOrder scratchAndHomie bothProjects noPrefs).1 none [] = some right ∧
        SamePlaces left right) := by
  refine ((materialising_keeps_places_iff asWalked asWalked 2 scratchAndHomie bothProjects
    noPrefs none [] (by decide) (by decide) (by decide)).mpr ?_).1
  intro left right hleft hright _
  have hrecord : ∀ {id}, (∃ s ∈ listedSessions scratchAndHomie [], s.projectId = id) →
      bothProjects.get id ≠ none := by
    intro id hid
    obtain ⟨s, hs, rfl⟩ := hid
    revert s
    decide
  exact ⟨fun _ _ _ _ => rfl, fun _ h => absurd h (hrecord hright),
    fun h => absurd h (hrecord hleft)⟩

/-- The project without a record came first and stood first; afterwards it stands last. -/
theorem scratch_project_moves :
    ∃ left right,
      buildProjection asWalked 2 scratchAndHomie homieOnly.get noPrefs none [] = some left ∧
      buildProjection asWalked 2 scratchAndHomie homieOnly.get
        (reconcileSidebarOrder scratchAndHomie homieOnly noPrefs).1 none [] = some right ∧
      ¬SamePlaces left right := by
  obtain ⟨left, right, hleft, hright, hiff⟩ := @samePlaces_iff scratchAndHomie
    homieOnly noPrefs [] 2 asWalked asWalked none
    (by decide) (by decide) (by decide)
  refine ⟨left, right, hleft, hright, ?_⟩
  intro hplaces
  have hkeeps := hiff.mp hplaces "homie" "scratch"
    ⟨plainSession "s2" "homie" 2, by decide, rfl⟩ ⟨plainSession "s1" "scratch" 1, by decide, rfl⟩
    rfl
  have hcmp := hkeeps.first (by decide) (by decide)
  revert hcmp
  decide

end Materialised

end Homie.App
