/-
The sidebar as a whole: the sessions that are listed fall into one group for each project, every
group is arranged as a tree, and the groups are sorted.  So the display order has everybody who
is listed exactly once, whatever the parent links are.
-/
import Homie.Lib.Sorting
import Homie.Proofs.SidebarForest

namespace Homie.App

open Forest Sorting

/-! ### Groups -/

theorem flatMap_filter_perm {α β : Type} [DecidableEq α] [DecidableEq β] (key : α → β)
    {keys : List β} (hkeys : keys.Nodup) {l : List α} (hl : ∀ x ∈ l, key x ∈ keys) :
    (keys.flatMap fun k => l.filter fun x => key x == k).Perm l := by
  rw [List.perm_iff_count]
  intro x
  by_cases hx : x ∈ l
  · obtain ⟨first, rest, rfl⟩ := List.mem_iff_append.mp (hl x hx)
    have hother : ∀ ks : List β, key x ∉ ks →
        (ks.flatMap fun k => l.filter fun x => key x == k).count x = 0 := by
      intro ks hks
      rw [List.count_eq_zero, List.mem_flatMap]
      rintro ⟨k, hk, hmem⟩
      have hkey : key x = k := by simpa using (List.mem_filter.mp hmem).2
      exact hks (hkey ▸ hk)
    obtain ⟨hfirst, hrest⟩ : key x ∉ first ∧ key x ∉ rest := by
      have hcons := List.nodup_middle.mp hkeys
      have hnot := (List.nodup_cons.mp hcons).1
      exact ⟨fun h => hnot (List.mem_append_left _ h), fun h => hnot (List.mem_append_right _ h)⟩
    rw [List.flatMap_append, List.flatMap_cons, List.count_append, List.count_append,
      hother first hfirst, hother rest hrest, List.count_filter (by simp)]
    omega
  · rw [List.count_eq_zero.mpr hx, List.count_eq_zero, List.mem_flatMap]
    rintro ⟨k, _, hmem⟩
    exact hx (List.mem_filter.mp hmem).1

/-- `groups` holds the sessions of `l` by project. -/
structure Groups (l : List SessionRecord) (groups : List (ProjectId × List SessionRecord)) :
    Prop where
  nodup : (groups.map (·.1)).Nodup
  members : ∀ entry ∈ groups, entry.2 = l.filter (·.projectId == entry.1)
  keys : ∀ id, id ∈ groups.map (·.1) ↔ ∃ session ∈ l, session.projectId = id

theorem map_fst_push (groups : List (ProjectId × List SessionRecord)) (session : SessionRecord) :
    (groups.map fun (id, group) =>
      if id == session.projectId then (id, group ++ [session]) else (id, group)).map (·.1) =
      groups.map (·.1) := by
  rw [List.map_map]
  refine List.map_congr_left fun entry _ => ?_
  by_cases hid : entry.1 = session.projectId
  · simp [hid]
  · simp [hid]

theorem Groups.push {l : List SessionRecord} {groups : List (ProjectId × List SessionRecord)}
    (h : Groups l groups) (session : SessionRecord) :
    Groups (l ++ [session]) (pushGroup groups session) := by
  have hkey : ∀ id, (∃ s ∈ l ++ [session], s.projectId = id) ↔
      (∃ s ∈ l, s.projectId = id) ∨ session.projectId = id := by
    intro id
    simp only [List.mem_append, List.mem_singleton]
    constructor
    · rintro ⟨s, hs | rfl, hid⟩
      · exact Or.inl ⟨s, hs, hid⟩
      · exact Or.inr hid
    · rintro (⟨s, hs, hid⟩ | hid)
      · exact ⟨s, Or.inl hs, hid⟩
      · exact ⟨session, Or.inr rfl, hid⟩
  unfold pushGroup
  by_cases hany : groups.any (·.1 == session.projectId) = true
  · rw [if_pos hany]
    have hin : session.projectId ∈ groups.map (·.1) := by
      obtain ⟨entry, hentry, heq⟩ := List.any_eq_true.mp hany
      exact List.mem_map.mpr ⟨entry, hentry, by simpa using heq⟩
    have hkeys := map_fst_push groups session
    refine ⟨by rw [hkeys]; exact h.nodup, ?_, ?_⟩
    · intro entry hentry
      obtain ⟨old, hold, rfl⟩ := List.mem_map.mp hentry
      have hmembers := h.members old hold
      by_cases hid : old.1 = session.projectId
      · simp [hid, hmembers, List.filter_append]
      · simp [hid, Ne.symm hid, hmembers, List.filter_append]
    · intro id
      rw [hkeys, hkey, h.keys]
      refine ⟨Or.inl, ?_⟩
      rintro (hold | rfl)
      · exact hold
      · exact (h.keys _).mp hin
  · rw [if_neg hany]
    have hnot : session.projectId ∉ groups.map (·.1) := by
      intro hin
      obtain ⟨entry, hentry, heq⟩ := List.mem_map.mp hin
      exact hany (List.any_eq_true.mpr ⟨entry, hentry, by simpa using heq⟩)
    refine ⟨?_, ?_, ?_⟩
    · rw [List.map_append]
      refine List.nodup_append.mpr ⟨h.nodup, List.nodup_singleton _, ?_⟩
      intro a ha b hb
      rw [List.map_singleton, List.mem_singleton] at hb
      rintro rfl
      rw [hb] at ha
      exact hnot ha
    · intro entry hentry
      rcases List.mem_append.mp hentry with hold | hnew
      · have hne : session.projectId ≠ entry.1 := by
          rintro heq
          exact hnot (heq ▸ List.mem_map_of_mem hold)
        simp [h.members entry hold, List.filter_append, hne]
      · rw [List.mem_singleton.mp hnew]
        have hnone : l.filter (·.projectId == session.projectId) = [] := by
          rw [List.filter_eq_nil_iff]
          intro s hs heq
          exact hnot ((h.keys _).mpr ⟨s, hs, by simpa using heq⟩)
        simp [List.filter_append, hnone]
    · intro id
      rw [List.map_append, List.mem_append, h.keys, hkey, List.map_singleton,
        List.mem_singleton, eq_comm]

theorem groups_foldl (l : List SessionRecord) : Groups l (l.foldl pushGroup []) := by
  have hgrow : ∀ (done rest : List SessionRecord) (groups : List (ProjectId × List SessionRecord)),
      Groups done groups → Groups (done ++ rest) (rest.foldl pushGroup groups) := by
    intro done rest
    induction rest generalizing done with
    | nil =>
      intro groups h
      rwa [List.append_nil]
    | cons session rest ih =>
      intro groups h
      have hnext := ih (done ++ [session]) _ (h.push session)
      rwa [List.append_assoc] at hnext
  exact hgrow [] l [] ⟨List.nodup_nil, by simp, by simp⟩

theorem grouped_groups (sessions : SessionMap) (closing : List SessionId) :
    Groups (sessions.values.filter (listed closing)) (grouped sessions closing) :=
  groups_foldl _

/-! ### One group -/

/-- The active sessions of a project that are listed, in the order of the map. -/
def activeOf (sessions : SessionMap) (closing : List SessionId) (projectId : ProjectId) :
    List SessionRecord :=
  ((sessions.values.filter (listed closing)).filter (·.projectId == projectId)).filter
    (!·.isArchived)

/-- A group of the sidebar is arranged by the resolved parents of its active sessions. -/
def GroupLaw (sessions : SessionMap) (closing : List SessionId) (prefs : Prefs)
    (projectId : ProjectId) (group : SidebarProject) : Prop :=
  ∃ parents, (∀ fuel, sessions.values.length ≤ fuel →
      resolveParents fuel (activeOf sessions closing projectId) = some parents) ∧
    TreeLaw (activeOf sessions closing projectId) parents (rankMap prefs.sidebarSessionOrder)
      prefs.sidebarPinnedSessions.contains prefs.sidebarCollapsedSessions.contains
      (!prefs.sidebarCollapsedProjects.contains projectId) group.sessions group.active

section Group

variable {sessions : SessionMap} {closing : List SessionId} {prefs : Prefs}
variable {projects : ProjectId → Option Project}

theorem activeOf_sublist (projectId : ProjectId) :
    (activeOf sessions closing projectId).Sublist sessions.values :=
  List.filter_sublist.trans (List.filter_sublist.trans List.filter_sublist)

/-- What `build_group` makes of the group of a project. -/
def Built (sessions : SessionMap) (closing : List SessionId) (prefs : Prefs)
    (entry : ProjectId × List SessionRecord) (group : Option DateMillis × SidebarProject) : Prop :=
  GroupLaw sessions closing prefs entry.1 group.2 ∧
    (group.2.active ++ group.2.archived).Perm entry.2

theorem buildGroup_built {entry : ProjectId × List SessionRecord}
    (hentry : entry ∈ grouped sessions closing) :
    ∃ group, (∀ fuel, sessions.values.length ≤ fuel →
        buildGroup fuel projects prefs entry = some group) ∧
      Built sessions closing prefs entry group := by
  obtain ⟨projectId, members⟩ := entry
  have hmembers : members = (sessions.values.filter (listed closing)).filter
      (·.projectId == projectId) := (grouped_groups sessions closing).members _ hentry
  have hactive : members.filter (!·.isArchived) = activeOf sessions closing projectId := by
    rw [hmembers]
    rfl
  have hids : ((activeOf sessions closing projectId).map (·.id)).Nodup :=
    sessions.keyed.sublist ((activeOf_sublist projectId).map _)
  have hlen : (activeOf sessions closing projectId).length ≤ sessions.values.length :=
    (activeOf_sublist projectId).length_le
  obtain ⟨parents, rows, treeOrder, hbuild, hlaw⟩ := buildTree_law
    (activeOf sessions closing projectId) (rankMap prefs.sidebarSessionOrder)
    prefs.sidebarPinnedSessions.contains prefs.sidebarCollapsedSessions.contains
    (!prefs.sidebarCollapsedProjects.contains projectId) hids
  refine ⟨⟨(members.map (·.createdAt)).min?,
    { project := (projects projectId).getD (syntheticProject projectId members)
      host := members.head?.bind (·.host)
      sessions := rows
      active := treeOrder
      archived := (members.filter (·.isArchived)).mergeSort fun left right =>
        (archivedCmp left right).isLE
      pinned := prefs.sidebarPinnedProjects.contains
        ((projects projectId).getD (syntheticProject projectId members)).id }⟩, ?_,
    ⟨parents, fun fuel hfuel => (hbuild fuel (by omega)).1, hlaw⟩, ?_⟩
  · intro fuel hfuel
    simp only [buildGroup, hactive]
    rw [(hbuild fuel (by omega)).2]
    rfl
  · have hperm := hlaw.once.append (List.mergeSort_perm (members.filter (·.isArchived))
      fun left right => (archivedCmp left right).isLE)
    refine hperm.trans ?_
    rw [← hactive]
    exact List.perm_append_comm.trans (List.filter_append_perm _ members)

end Group

/-! ### All groups -/

theorem mapM_enough {α β : Type} {f : Nat → α → Option β} {r : α → β → Prop} {bound : Nat}
    {l : List α} (h : ∀ a ∈ l, ∃ b, (∀ fuel, bound ≤ fuel → f fuel a = some b) ∧ r a b) :
    ∃ bs, (∀ fuel, bound ≤ fuel → l.mapM (f fuel) = some bs) ∧ List.Forall₂ r l bs := by
  induction l with
  | nil => exact ⟨[], fun fuel _ => rfl, .nil⟩
  | cons a l ih =>
    obtain ⟨b, hb, hab⟩ := h a List.mem_cons_self
    obtain ⟨bs, hbs, hall⟩ := ih fun x hx => h x (List.mem_cons_of_mem _ hx)
    refine ⟨b :: bs, fun fuel hfuel => ?_, .cons hab hall⟩
    rw [List.mapM_cons, hb fuel hfuel, hbs fuel hfuel]
    rfl

section Projection

variable {sessions : SessionMap} {closing : List SessionId} {prefs : Prefs}

theorem flatMap_perm_of_forall₂ {entries : List (ProjectId × List SessionRecord)}
    {groups : List (Option DateMillis × SidebarProject)}
    (h : List.Forall₂ (Built sessions closing prefs) entries groups) :
    (groups.flatMap fun group => group.2.active ++ group.2.archived).Perm
      (entries.flatMap (·.2)) := by
  induction h with
  | nil => exact List.Perm.refl _
  | cons hbuilt _ ih =>
    rw [List.flatMap_cons, List.flatMap_cons]
    exact hbuilt.2.append ih

/-- The projection is built; its display order has everybody who is listed, and its groups are
those of the listed sessions in some order. -/
theorem exists_projection (order : HashOrder (ProjectId × List SessionRecord))
    (sessions : SessionMap) (projects : ProjectId → Option Project) (prefs : Prefs)
    (selected : Option SessionId) (closing : List SessionId) :
    ∃ projection entries,
      (∀ fuel, sessions.values.length ≤ fuel →
        buildProjection order fuel sessions projects prefs selected closing = some projection) ∧
      projection.displayOrder.Perm ((sessions.values.filter (listed closing)).map (·.id)) ∧
      entries.Perm (grouped sessions closing) ∧
      List.Forall₂ (fun entry => GroupLaw sessions closing prefs entry.1) entries
        projection.projects := by
  have hgroups := grouped_groups sessions closing
  have hvisit := order.perm (grouped sessions closing)
  obtain ⟨ranked, hranked, hbuilt⟩ := mapM_enough
    (f := fun fuel => buildGroup fuel projects prefs) (r := Built sessions closing prefs)
    (fun entry hentry => buildGroup_built (hvisit.mem_iff.mp hentry))
  -- the sorted groups, with the entries put in the same order
  let sorted := ranked.mergeSort fun left right =>
    (projectCmp (rankMap prefs.sidebarProjectOrder) left right).isLE
  have hsorted : sorted.Perm ranked := List.mergeSort_perm _ _
  obtain ⟨entries, hall, hentries⟩ := List.perm_comp_forall₂ hsorted hbuilt.flip
  have hperm := hentries.trans hvisit
  obtain ⟨projection, hprojection, hprojects, hdisplay⟩ : ∃ projection,
      (∀ fuel, sessions.values.length ≤ fuel →
        buildProjection order fuel sessions projects prefs selected closing = some projection) ∧
      projection.projects = sorted.map (·.2) ∧
      projection.displayOrder =
        (sorted.flatMap fun group => group.2.active ++ group.2.archived).map (·.id) := by
    refine ⟨{
      projects := sorted.map (·.2)
      orderedSessions := (sorted.map (·.2)).flatMap fun group =>
        group.sessions.map (·.session) ++
          group.archived.filter fun session => selected == some session.id
      displayOrder := (sorted.map (·.2)).flatMap fun group =>
        (group.active ++ group.archived).map (·.id) }, fun fuel hfuel => ?_, rfl, ?_⟩
    · unfold buildProjection
      rw [hranked fuel hfuel]
      rfl
    · rw [List.map_flatMap]
      exact List.flatMap_map ..
  have hshown : projection.displayOrder.Perm
      ((sessions.values.filter (listed closing)).map (·.id)) := by
    rw [hdisplay]
    refine List.Perm.map _ ((flatMap_perm_of_forall₂ hall.flip).trans ?_)
    have hfilter : (grouped sessions closing).flatMap (·.2) =
        ((grouped sessions closing).map (·.1)).flatMap fun k =>
          (sessions.values.filter (listed closing)).filter fun s => s.projectId == k := by
      rw [List.flatMap_map]
      exact List.flatMap_congr fun entry hentry => hgroups.members entry hentry
    refine (hperm.flatMap_right _).trans ?_
    rw [hfilter]
    exact flatMap_filter_perm _ hgroups.nodup fun s hs => (hgroups.keys _).mpr ⟨s, hs, rfl⟩
  refine ⟨projection, entries, hprojection, hshown, hperm, ?_⟩
  rw [hprojects, List.forall₂_map_right_iff]
  exact hall.flip.imp fun _ _ h => h.1

/-! ### The sorted groups -/

theorem eq_filterMap_of_mapM {α β : Type} {f : α → Option β} {l : List α} {bs : List β}
    (h : l.mapM f = some bs) : bs = l.filterMap f := by
  induction l generalizing bs with
  | nil =>
    rw [List.mapM_nil] at h
    exact (Option.some.inj h).symm
  | cons a l ih =>
    rw [List.mapM_cons] at h
    obtain ⟨b, hb, h⟩ := Option.bind_eq_some_iff.mp h
    obtain ⟨rest, hrest, h⟩ := Option.bind_eq_some_iff.mp h
    rw [List.filterMap_cons_some hb, ← ih hrest]
    exact (Option.some.inj h).symm

def ofGroups (selected : Option SessionId) (groups : List SidebarProject) : SidebarProjection where
  projects := groups
  orderedSessions := groups.flatMap fun group =>
    group.sessions.map (·.session) ++
      group.archived.filter fun session => selected == some session.id
  displayOrder := groups.flatMap fun group => (group.active ++ group.archived).map (·.id)

theorem projection_of_groups {order : HashOrder (ProjectId × List SessionRecord)} {fuel : Nat}
    {projects : ProjectId → Option Project} {selected : Option SessionId}
    {projection : SidebarProjection}
    (h : buildProjection order fuel sessions projects prefs selected closing = some projection) :
    projection = ofGroups selected ((sortBy (projectCmp (rankMap prefs.sidebarProjectOrder))
      ((order.visit (grouped sessions closing)).filterMap (buildGroup fuel projects prefs))).map
        (·.2)) := by
  unfold buildProjection at h
  obtain ⟨ranked, hranked, h⟩ := Option.bind_eq_some_iff.mp h
  rw [eq_filterMap_of_mapM hranked] at h
  exact (Option.some.inj h).symm

theorem projectCmp_eq (ranks : ProjectId → Option Nat) :
    projectCmp ranks =
      compareLex (fun a b => compareOn (fun entry => entry.2.pinned) b a)
        (compareLex (compareOn fun entry => rankOf ranks entry.2.project.id)
          (compareLex (compareOn Prod.fst) (compareOn fun entry => entry.2.project.id))) := rfl

instance projectCmp_trans (ranks : ProjectId → Option Nat) : Std.TransCmp (projectCmp ranks) := by
  rw [projectCmp_eq]
  infer_instance

theorem projectCmp_separates (ranks : ProjectId → Option Nat)
    {l : List (Option DateMillis × SidebarProject)} (hids : (l.map (·.2.project.id)).Nodup) :
    Separates (projectCmp ranks) l := by
  intro a ha b hb hcmp
  unfold projectCmp at hcmp
  simp only [Ordering.then_eq_eq] at hcmp
  exact List.inj_on_of_nodup_map hids ha hb (Std.LawfulEqOrd.eq_of_compare hcmp.2.2.2)

theorem buildGroup_project {fuel : Nat} {projects : ProjectId → Option Project}
    {entry : ProjectId × List SessionRecord} {group : Option DateMillis × SidebarProject}
    (h : buildGroup fuel projects prefs entry = some group) :
    group.1 = (entry.2.map (·.createdAt)).min? ∧
      group.2.project = (projects entry.1).getD (syntheticProject entry.1 entry.2) ∧
      group.2.host = entry.2.head?.bind (·.host) ∧
      group.2.pinned = prefs.sidebarPinnedProjects.contains group.2.project.id := by
  unfold buildGroup at h
  obtain ⟨tree, _, h⟩ := Option.bind_eq_some_iff.mp h
  rw [← Option.some.inj h]
  exact ⟨rfl, rfl, rfl, rfl⟩

theorem buildGroup_projectId {fuel : Nat} {projects : ProjectMap}
    {entry : ProjectId × List SessionRecord} {group : Option DateMillis × SidebarProject}
    (h : buildGroup fuel projects.get prefs entry = some group) :
    group.2.project.id = entry.1 := by
  rw [(buildGroup_project h).2.1]
  cases hproject : projects.get entry.1 with
  | none => rfl
  | some project => exact projects.key_of_get hproject

/-- No two groups are of one project. -/
theorem built_nodup {fuel : Nat} {projects : ProjectMap}
    {entries : List (ProjectId × List SessionRecord)} (h : (entries.map (·.1)).Nodup) :
    ((entries.filterMap (buildGroup fuel projects.get prefs)).map (·.2.project.id)).Nodup := by
  have hsub : ∀ l : List (ProjectId × List SessionRecord),
      ((l.filterMap (buildGroup fuel projects.get prefs)).map (·.2.project.id)).Sublist
        (l.map (·.1)) := by
    intro l
    induction l with
    | nil => exact List.Sublist.refl _
    | cons entry l ih =>
      cases hentry : buildGroup fuel projects.get prefs entry with
      | none =>
        rw [List.filterMap_cons_none hentry]
        exact ih.cons _
      | some group =>
        rw [List.filterMap_cons_some hentry, List.map_cons, List.map_cons,
          buildGroup_projectId hentry]
        exact ih.cons_cons _
  exact h.sublist (hsub entries)

/-- The order in which the groups are built does not matter. -/
theorem sorted_built {fuel : Nat} {projects : ProjectMap} (ranks : ProjectId → Option Nat)
    {entries entries' : List (ProjectId × List SessionRecord)} (hperm : entries.Perm entries')
    (hnodup : (entries.map (·.1)).Nodup) :
    sortBy (projectCmp ranks) (entries.filterMap (buildGroup fuel projects.get prefs)) =
      sortBy (projectCmp ranks) (entries'.filterMap (buildGroup fuel projects.get prefs)) :=
  sortBy_eq_of_perm (projectCmp_separates ranks (built_nodup hnodup)) (hperm.filterMap _)

/-! ### What the sidebar shows -/

theorem mem_listed {sessions : SessionMap} {closing : List SessionId} {session : SessionRecord} :
    session ∈ sessions.values.filter (listed closing) ↔
      session ∈ sessions.values ∧ session.id ∉ closing ∧ isAuxiliaryTerminal session = false := by
  simp [listed]

/-- **The sidebar forest loses nobody.** Whatever the parent links, the projects, the preferences
and the closing set are, the projection is built, and

* the display order has every session that is neither closing nor an auxiliary terminal exactly
  once, and nothing else;
* there is one group for each project of such a session, and it obeys `TreeLaw` for the parents
  that `resolve_parents` gives its active sessions: rows come in the order of `active`, a session
  is a row iff neither its project nor an ancestor is collapsed, a row of depth `d` comes after
  its parent's row of depth `d - 1` with only rows of depth `d` or more between, and siblings come
  in the order of `sibling_cmp`. -/
theorem projection_loses_nobody (order : HashOrder (ProjectId × List SessionRecord))
    (sessions : SessionMap) (projects : ProjectId → Option Project) (prefs : Prefs)
    (selected : Option SessionId) (closing : List SessionId) :
    ∃ projection ids,
      (∀ fuel, sessions.values.length ≤ fuel →
        buildProjection order fuel sessions projects prefs selected closing = some projection) ∧
      projection.displayOrder.Nodup ∧
      (∀ id, id ∈ projection.displayOrder ↔ ∃ session ∈ sessions.values,
        session.id = id ∧ id ∉ closing ∧ isAuxiliaryTerminal session = false) ∧
      ids.Nodup ∧
      (∀ projectId, projectId ∈ ids ↔ ∃ session ∈ sessions.values,
        session.id ∉ closing ∧ isAuxiliaryTerminal session = false ∧
          session.projectId = projectId) ∧
      List.Forall₂ (GroupLaw sessions closing prefs) ids projection.projects := by
  have hgroups := grouped_groups sessions closing
  obtain ⟨projection, entries, hprojection, hshown, hperm, hall⟩ :=
    exists_projection order sessions projects prefs selected closing
  refine ⟨projection, entries.map (·.1), hprojection, ?_, ?_, ?_, ?_, ?_⟩
  · exact hshown.nodup_iff.mpr (sessions.keyed.sublist (List.filter_sublist.map _))
  · intro id
    rw [hshown.mem_iff, List.mem_map]
    constructor
    · rintro ⟨session, hsession, rfl⟩
      obtain ⟨hin, hopen, haux⟩ := mem_listed.mp hsession
      exact ⟨session, hin, rfl, hopen, haux⟩
    · rintro ⟨session, hin, rfl, hopen, haux⟩
      exact ⟨session, mem_listed.mpr ⟨hin, hopen, haux⟩, rfl⟩
  · exact (hperm.map _).nodup_iff.mpr hgroups.nodup
  · intro projectId
    rw [(hperm.map _).mem_iff, hgroups.keys]
    constructor
    · rintro ⟨session, hsession, hid⟩
      obtain ⟨hin, hopen, haux⟩ := mem_listed.mp hsession
      exact ⟨session, hin, hopen, haux, hid⟩
    · rintro ⟨session, hin, hopen, haux, hid⟩
      exact ⟨session, mem_listed.mpr ⟨hin, hopen, haux⟩, hid⟩
  · rw [List.forall₂_map_left_iff]
    exact hall

end Projection

/-- An agent at work, of no further interest. -/
def plainSession (id : SessionId) (projectId : ProjectId) (createdAt : DateMillis) :
    SessionRecord where
  id := id
  kind := ⟨"claude", none⟩
  cwd := "/work"
  projectId := projectId
  worktreePath := none
  title := id
  titleSource := .placeholder
  status := .idle
  resumability := .live
  parent := none
  createdAt := createdAt
  archivedAt := none
  host := none
  memoryBytes := none
  artifacts := none
  listeningPorts := none

end Homie.App
