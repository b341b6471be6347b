/-
What the operations of the window do to its desk.

The desk is the part of the store that says which sessions there are, which of them are on their
way out, and which the window holds on to: the selected one, those focused lately, those picked in
the sidebar and those with a resident terminal.  Every operation is a few changes of the desk; the
sessions that an operation chooses by itself are taken from the sidebar, and so are listed.
-/
import Homie.Proofs.SidebarCache

namespace Homie.App

open Sorting

/-! ### What the sidebar shows is listed -/

section Shown

variable {order : HashOrder (ProjectId × List SessionRecord)} {fuel : Nat} {sessions : SessionMap}
variable {projects : ProjectMap} {prefs : Prefs} {selected : Option SessionId}
variable {closing : List SessionId} {projection : SidebarProjection}

/-- A group of the projection has its rows among its active sessions, and lists what the map has
of its project. -/
theorem group_of_projection (hfuel : sessions.values.length ≤ fuel)
    (h : buildProjection order fuel sessions projects.get prefs selected closing = some projection)
    {group : SidebarProject} (hgroup : group ∈ projection.projects) :
    (group.sessions.map (·.session)).Subset group.active ∧
      ∃ entry ∈ grouped sessions closing, (group.active ++ group.archived).Perm entry.2 := by
  rw [projection_of_groups h] at hgroup
  obtain ⟨built, hbuilt, rfl⟩ := List.mem_map.mp hgroup
  obtain ⟨entry, hentry, hbuild⟩ := List.mem_filterMap.mp (mem_sortBy.mp hbuilt)
  have hentry' := (order.perm _).mem_iff.mp hentry
  obtain ⟨expected, hexpected, hlaw, hperm⟩ :=
    @buildGroup_built _ _ prefs projects.get _ hentry'
  rw [hexpected fuel hfuel, Option.some.injEq] at hbuild
  subst hbuild
  obtain ⟨parents, _, htree⟩ := hlaw
  exact ⟨htree.ordered.subset, entry, hentry', hperm⟩

theorem listed_of_group (hfuel : sessions.values.length ≤ fuel)
    (h : buildProjection order fuel sessions projects.get prefs selected closing = some projection)
    {group : SidebarProject} (hgroup : group ∈ projection.projects) {session : SessionRecord}
    (hsession : session ∈ group.active ++ group.archived) :
    session ∈ sessions.values ∧ session.id ∉ closing := by
  obtain ⟨_, entry, hentry, hperm⟩ := group_of_projection hfuel h hgroup
  have hin := hperm.mem_iff.mp hsession
  rw [(grouped_groups sessions closing).members entry hentry] at hin
  obtain ⟨hvalues, hopen, _⟩ := mem_listed.mp (List.mem_filter.mp hin).1
  exact ⟨hvalues, hopen⟩

theorem listed_of_row (hfuel : sessions.values.length ≤ fuel)
    (h : buildProjection order fuel sessions projects.get prefs selected closing = some projection)
    {group : SidebarProject} (hgroup : group ∈ projection.projects) {row : SidebarRow}
    (hrow : row ∈ group.sessions) :
    row.session ∈ sessions.values ∧ row.session.id ∉ closing := by
  have hactive := (group_of_projection hfuel h hgroup).1 (List.mem_map_of_mem hrow)
  exact listed_of_group hfuel h hgroup (List.mem_append_left _ hactive)

theorem listed_of_ordered (hfuel : sessions.values.length ≤ fuel)
    (h : buildProjection order fuel sessions projects.get prefs selected closing = some projection)
    {session : SessionRecord} (hsession : session ∈ projection.orderedSessions) :
    session ∈ sessions.values ∧ session.id ∉ closing := by
  have hprojection := projection_of_groups h
  have hsession' := hsession
  rw [hprojection] at hsession'
  obtain ⟨group, hgroup, hin⟩ := List.mem_flatMap.mp hsession'
  have hgroup' : group ∈ projection.projects := by
    rw [hprojection]
    exact hgroup
  rcases List.mem_append.mp hin with hrow | harchived
  · obtain ⟨row, hmem, rfl⟩ := List.mem_map.mp hrow
    exact listed_of_row hfuel h hgroup' hmem
  · exact listed_of_group hfuel h hgroup'
      (List.mem_append_right _ (List.mem_filter.mp harchived).1)

theorem listed_of_displayed (hfuel : sessions.values.length ≤ fuel)
    (h : buildProjection order fuel sessions projects.get prefs selected closing = some projection)
    {id : SessionId} (hid : id ∈ projection.displayOrder) :
    ∃ session ∈ sessions.values, session.id = id ∧ id ∉ closing := by
  have hprojection := projection_of_groups h
  have hid' := hid
  rw [hprojection] at hid'
  obtain ⟨group, hgroup, hin⟩ := List.mem_flatMap.mp hid'
  have hgroup' : group ∈ projection.projects := by
    rw [hprojection]
    exact hgroup
  obtain ⟨session, hsession, rfl⟩ := List.mem_map.mp hin
  obtain ⟨hvalues, hopen⟩ := listed_of_group hfuel h hgroup' hsession
  exact ⟨session, hvalues, rfl, hopen⟩

/-- The active sessions of a group are not archived. -/
theorem active_of_group (hfuel : sessions.values.length ≤ fuel)
    (h : buildProjection order fuel sessions projects.get prefs selected closing = some projection)
    {group : SidebarProject} (hgroup : group ∈ projection.projects) {session : SessionRecord}
    (hsession : session ∈ group.active) : session.isArchived = false := by
  rw [projection_of_groups h] at hgroup
  obtain ⟨built, hbuilt, rfl⟩ := List.mem_map.mp hgroup
  obtain ⟨entry, hentry, hbuild⟩ := List.mem_filterMap.mp (mem_sortBy.mp hbuilt)
  have hentry' := (order.perm _).mem_iff.mp hentry
  obtain ⟨expected, hexpected, ⟨_, _, htree⟩, _⟩ :=
    @buildGroup_built _ _ prefs projects.get _ hentry'
  rw [hexpected fuel hfuel, Option.some.injEq] at hbuild
  subst hbuild
  have hin := htree.once.mem_iff.mp hsession
  simpa using (List.mem_filter.mp hin).2

/-- A listed session that is not archived is active in its group. -/
theorem exists_active_group (hfuel : sessions.values.length ≤ fuel)
    (h : buildProjection order fuel sessions projects.get prefs selected closing = some projection)
    {session : SessionRecord} (hin : session ∈ sessions.values) (hopen : session.id ∉ closing)
    (haux : isAuxiliaryTerminal session = false) (hactive : session.isArchived = false) :
    ∃ group ∈ projection.projects, session ∈ group.active := by
  have hlisted : session ∈ listedSessions sessions closing :=
    mem_listed.mpr ⟨hin, hopen, haux⟩
  obtain ⟨entry, hentry, group, hbuild, hid⟩ := @exists_group _ projects
    prefs _ _ hfuel _ ⟨session, hlisted, rfl⟩
  obtain ⟨expected, hexpected, ⟨_, _, htree⟩, _⟩ :=
    @buildGroup_built _ _ prefs projects.get _ hentry
  rw [hexpected fuel hfuel, Option.some.injEq] at hbuild
  subst hbuild
  refine ⟨expected.2, ?_, htree.once.mem_iff.mpr ?_⟩
  · rw [projection_of_groups h]
    exact List.mem_map_of_mem (mem_sortBy.mpr
      (List.mem_filterMap.mpr ⟨entry, (order.perm _).mem_iff.mpr hentry, hexpected fuel hfuel⟩))
  · have hkey : entry.1 = session.projectId :=
      (buildGroup_projectId (hexpected fuel hfuel)).symm.trans hid
    exact List.mem_filter.mpr ⟨List.mem_filter.mpr ⟨hlisted, by simp [hkey]⟩, by simp [hactive]⟩

end Shown

namespace Navigation

/-! ### The walks up the spawn chain end -/

section Walks

variable {sessions : SessionMap} {seen : List SessionId} {id : SessionId} {session : SessionRecord}

/-- The records that a walk has not seen. -/
def unseen (sessions : SessionMap) (seen : List SessionId) : List SessionRecord :=
  sessions.values.filter fun session => session.id ∉ seen

theorem unseen_lt (hget : sessions.get id = some session) (hid : id ∉ seen) :
    (unseen sessions (id :: seen)).length < (unseen sessions seen).length := by
  obtain ⟨hin, hkey⟩ := sessions.get_eq_some.mp hget
  have hstep : unseen sessions (id :: seen) =
      (unseen sessions seen).filter fun session => session.id ≠ id := by
    unfold unseen
    rw [List.filter_filter]
    refine List.filter_congr fun other _ => ?_
    simp [List.mem_cons, not_or]
  rw [hstep]
  refine List.length_filter_lt_length_iff_exists.mpr ⟨session, ?_, by simp [hkey]⟩
  exact List.mem_filter.mpr ⟨hin, by simpa [hkey] using hid⟩

theorem spawnChain_none (sessions : SessionMap) (fuel : Nat) (seen : List SessionId) :
    SessionStore.spawnChain sessions fuel seen none = [] := by
  unfold SessionStore.spawnChain
  rfl

end Walks

/-! ### The desk -/

structure Desk where
  sessions : SessionMap
  closing : List SessionId
  selected : Option SessionId
  recent : List SessionId
  picked : List SessionId
  resident : TerminalResidency

namespace Desk

variable (desk : Desk)

def isActive (id : SessionId) : Bool := (desk.sessions.get id).any (!·.isArchived)

/-- There is a record, and it is not on its way out. -/
def Listed (id : SessionId) : Prop := (desk.sessions.get id).isSome = true ∧ id ∉ desk.closing

def touch (id : SessionId) : Desk := { desk with resident := (desk.resident.touch id).1 }

def drop (id : SessionId) : Desk := { desk with resident := (desk.resident.remove id).1 }

def focus (id : SessionId) : Desk :=
  let desk := { desk with selected := some id, recent := id :: desk.recent.filter (· ≠ id) }
  if desk.isActive id then desk.touch id else desk

def choose : Option SessionId → Desk
  | some id => desk.focus id
  | none => { desk with selected := none }

def close (id : SessionId) : Desk :=
  { desk.drop id with
    picked := desk.picked.filter (· ≠ id)
    closing := desk.closing.insert id }

def archive (now : SessionId → DateMillis) (id : SessionId) : Desk :=
  { desk.drop id with
    picked := desk.picked.filter (· ≠ id)
    sessions := match desk.sessions.get id with
      | some session => desk.sessions.insert { session with archivedAt := some (now id) }
      | none => desk.sessions }

theorem focus_eq (id : SessionId) : ∃ resident, desk.focus id =
    { desk with
      selected := some id
      recent := id :: desk.recent.filter (· ≠ id)
      resident := resident } := by
  unfold focus
  dsimp only
  split
  · exact ⟨_, rfl⟩
  · exact ⟨_, rfl⟩

/-- A survivor that is listed and not excluded, or nobody. -/
def Survives (excluded : List SessionId) (next : Option SessionId) : Prop :=
  ∀ id, next = some id → desk.Listed id ∧ id ∉ excluded

/-- What the selection is before the excluded go: it stays if it is not among them, or a survivor
takes it. -/
def Handed (excluded : List SessionId) (base : Desk) : Prop :=
  (base = desk ∧ ∀ id ∈ excluded, desk.selected ≠ some id) ∨
    ∃ next, base = desk.choose next ∧ desk.Survives excluded next

end Desk

/-- What a change of the sessions must keep of them: who there is, and who is active. -/
structure Keeps (sessions sessions' : SessionMap) : Prop where
  recorded : ∀ id, (sessions'.get id).isSome = (sessions.get id).isSome
  active : ∀ id, (sessions.get id).any (!·.isArchived) = true →
    (sessions'.get id).any (!·.isArchived) = true

theorem Keeps.refl (sessions : SessionMap) : Keeps sessions sessions := ⟨fun _ => rfl, fun _ => id⟩

theorem Keeps.trans {sessions sessions' sessions'' : SessionMap} (h : Keeps sessions sessions')
    (h' : Keeps sessions' sessions'') : Keeps sessions sessions'' where
  recorded id := (h'.recorded id).trans (h.recorded id)
  active id hactive := h'.active id (h.active id hactive)

namespace SessionStore

variable {store : SessionStore} {walk : HashOrder SessionRecord} {id : SessionId}

def desk (store : SessionStore) : Desk where
  sessions := store.sessions
  closing := store.closing
  selected := store.selectedSessionId
  recent := store.mruOrder
  picked := store.sidebarSelection
  resident := store.terminalResidency

/-! ### Small changes -/

@[simp] theorem desk_emit (store : SessionStore) (effect : StoreEffect) :
    (store.emit effect).desk = store.desk := rfl

@[simp] theorem desk_invalidateProjection (store : SessionStore) :
    store.invalidateProjection.desk = store.desk := rfl

@[simp] theorem desk_sidebarProjection (store : SessionStore) :
    store.sidebarProjection.2.desk = store.desk := by
  unfold sidebarProjection
  dsimp only
  split
  · split
    · rfl
    · rfl
  · rfl

@[simp] theorem desk_touchTerminal (store : SessionStore) (id : SessionId) :
    (store.touchTerminal id).desk = store.desk.touch id := by
  unfold touchTerminal
  dsimp only
  split
  · rfl
  · rfl

@[simp] theorem desk_dropTerminal (store : SessionStore) (id : SessionId) :
    (store.dropTerminal id).desk = store.desk.drop id := by
  unfold dropTerminal
  dsimp only
  split
  · rfl
  · rfl

@[simp] theorem desk_autoResumeIfNeeded (store : SessionStore) (id : SessionId) :
    (store.autoResumeIfNeeded id).desk = store.desk := by
  unfold autoResumeIfNeeded
  dsimp only
  split
  · rfl
  · rfl

@[simp] theorem desk_autoResumeSelectedIfNeeded (store : SessionStore) :
    store.autoResumeSelectedIfNeeded.desk = store.desk := by
  unfold autoResumeSelectedIfNeeded
  split
  · exact desk_autoResumeIfNeeded store _
  · rfl

@[simp] theorem desk_reveal (store : SessionStore) (id : SessionId) :
    (store.reveal id).1.desk = store.desk := by
  unfold reveal
  split
  · rfl
  · dsimp only
    split
    · rfl
    · rfl

@[simp] theorem desk_syncSidebarOrder (store : SessionStore) :
    store.syncSidebarOrder.desk = store.desk := by
  unfold syncSidebarOrder
  dsimp only
  split
  · rfl
  · rfl

@[simp] theorem desk_withOverview (store : SessionStore)
    (f : SessionOverviewState → List SessionRecord → SessionOverviewState) :
    (store.withOverview f).desk = store.desk := desk_sidebarProjection store

@[simp] theorem desk_reconcileNavigation (store : SessionStore) :
    store.reconcileNavigation.desk = store.desk :=
  desk_sidebarProjection { store with
    switcher := store.switcher.reconcile fun id => (store.sessions.get id).isSome }

theorem desk_markSelected (store : SessionStore) (id : SessionId) :
    (store.markSelected id).desk =
      { store.desk with selected := some id, recent := id :: store.mruOrder.filter (· ≠ id) } := by
  have hkeep : ∀ (remember : Bool) (next : SessionStore) (prefs : Preferences),
      (if remember = true then { next with prefs := prefs } else next).desk = next.desk := by
    intro remember next prefs
    cases remember with
    | false => rfl
    | true => rfl
  have hrecent : ∀ next : SessionStore, next.desk = { store.desk with selected := some id } →
      SessionStore.desk ({ next with
        mruOrder := id :: next.mruOrder.filter (· ≠ id) }.invalidateProjection) =
      { store.desk with selected := some id, recent := id :: store.mruOrder.filter (· ≠ id) } := by
    intro next hnext
    calc SessionStore.desk ({ next with
            mruOrder := id :: next.mruOrder.filter (· ≠ id) }.invalidateProjection)
        = { next.desk with recent := id :: next.desk.recent.filter (· ≠ id) } := rfl
      _ = _ := by rw [hnext]; rfl
  exact hrecent _ ((hkeep _ _ _).trans (desk_reveal { store with selectedSessionId := some id } id))

@[simp] theorem desk_focusSession (store : SessionStore) (id : SessionId) :
    (store.focusSession id).desk = store.desk.focus id := by
  unfold focusSession attachFocused
  rw [desk_emit, desk_autoResumeIfNeeded]
  have hmarked := desk_markSelected store id
  have hactive : (store.markSelected id).isActive id = store.desk.isActive id := by
    have hsessions := congrArg Desk.sessions hmarked
    change (store.markSelected id).sessions = store.sessions at hsessions
    unfold isActive Desk.isActive
    rw [hsessions]
    rfl
  rw [hactive]
  unfold Desk.focus
  dsimp only
  by_cases h : store.desk.isActive id = true
  · rw [if_pos h, desk_emit, desk_touchTerminal, hmarked]
    exact (if_pos h).symm
  · rw [if_neg h, hmarked]
    exact (if_neg h).symm

@[simp] theorem desk_setSelectedSurvivor (store : SessionStore) (survivor : Option SessionId) :
    (store.setSelectedSurvivor survivor).desk = store.desk.choose survivor := by
  cases survivor with
  | none => rfl
  | some id => exact desk_focusSession store id

/-! ### Choices of the store -/

theorem currentProjection_built (store : SessionStore) :
    buildProjection asGrouped store.sessions.values.length store.sessions store.projects.get
      store.prefs.toPrefs store.selectedSessionId store.closing = some store.currentProjection :=
  store.currentProjection_eq asGrouped (Nat.le_refl _)

theorem listed_of_mem {session : SessionRecord} (hin : session ∈ store.sessions.values)
    (hopen : session.id ∉ store.closing) : store.desk.Listed session.id := by
  refine ⟨?_, hopen⟩
  change (store.sessions.get session.id).isSome = true
  rw [store.sessions.get_eq_some.mpr ⟨hin, rfl⟩]
  rfl

theorem listed_ordered {id : SessionId}
    (h : id ∈ store.currentProjection.orderedSessions.map (·.id)) : store.desk.Listed id := by
  obtain ⟨session, hsession, rfl⟩ := List.mem_map.mp h
  obtain ⟨hin, hopen⟩ := listed_of_ordered (Nat.le_refl _) store.currentProjection_built hsession
  exact listed_of_mem hin hopen

theorem listed_displayed {id : SessionId} (h : id ∈ store.currentProjection.displayOrder) :
    store.desk.Listed id := by
  obtain ⟨session, hin, rfl, hopen⟩ :=
    listed_of_displayed (Nat.le_refl _) store.currentProjection_built h
  exact listed_of_mem hin hopen

/-- The neighbour is one of the order, and not excluded. -/
theorem neighbor_survives {order excluded : List SessionId} {next : SessionId}
    (h : store.neighbor order excluded = some next) : next ∈ order ∧ next ∉ excluded := by
  have hfirst : ∀ {id}, (order.filter fun id => !excluded.contains id).head? = some id →
      id ∈ order ∧ id ∉ excluded := by
    intro id hid
    have hmem := List.mem_of_mem_head? hid
    simpa using List.mem_filter.mp hmem
  have hfind : ∀ {l : List SessionId} {p : SessionId → Bool} {id},
      (∀ x ∈ l, x ∈ order) → (∀ x, p x = true → (!excluded.contains x) = true) →
        l.find? p = some id → id ∈ order ∧ id ∉ excluded := by
    intro l p id hl hp hid
    refine ⟨hl id (List.mem_of_find?_eq_some hid), ?_⟩
    simpa using hp id (List.find?_some hid)
  unfold neighbor at h
  dsimp only at h
  split at h
  · exact hfirst h
  · split at h
    · exact hfirst h
    · next index _ =>
        have hahead : ∀ x ∈ order.drop index, x ∈ order := fun x => List.mem_of_mem_drop
        have hbehind : ∀ x ∈ (order.take index).reverse, x ∈ order :=
          fun x hx => List.mem_of_mem_take (List.mem_reverse.mp hx)
        have hsame : ∀ (p : SessionId → Bool) x, (!excluded.contains x && p x) = true →
            (!excluded.contains x) = true := fun p x hx => (Bool.and_eq_true_iff.mp hx).1
        rcases Option.or_eq_some_iff.mp h with h | ⟨_, h⟩
        · exact hfind hahead (hsame _) h
        rcases Option.or_eq_some_iff.mp h with h | ⟨_, h⟩
        · exact hfind hbehind (hsame _) h
        rcases Option.or_eq_some_iff.mp h with h | ⟨_, h⟩
        · exact hfind hahead (fun _ => id) h
        rcases Option.or_eq_some_iff.mp h with h | ⟨_, h⟩
        · exact hfind hbehind (fun _ => id) h
        · exact hfirst h

/-- `focus_neighbor` focuses somebody who is listed and not excluded, or clears the selection. -/
theorem Fresh.focusNeighbor (h : store.Fresh) (excluded : List SessionId) :
    ∃ next, (store.focusNeighbor excluded).desk = store.desk.choose next ∧
      store.desk.Survives excluded next := by
  obtain ⟨cache, hread, _⟩ := h.sidebarProjection
  unfold SessionStore.focusNeighbor
  rw [hread]
  dsimp only
  rw [desk_setSelectedSurvivor]
  refine ⟨_, rfl, fun id hid => ?_⟩
  obtain ⟨hin, hnot⟩ := neighbor_survives hid
  exact ⟨listed_ordered hin, hnot⟩

theorem Fresh.autoSelect (h : store.Fresh) (hnone : store.selectedSessionId = none) :
    ∃ next, store.autoSelectIfNeeded.desk = store.desk.choose next ∧
      (∀ id, next = some id → store.desk.Listed id ∧ store.desk.isActive id = true) ∧
      (next = none → ∀ session ∈ store.sessions.values, session.id ∉ store.closing →
        isAuxiliaryTerminal session = false → session.isArchived = true) := by
  obtain ⟨cache, hread, _⟩ := h.sidebarProjection
  unfold SessionStore.autoSelectIfNeeded
  rw [hnone]
  dsimp only
  rw [hread]
  dsimp only
  rw [desk_setSelectedSurvivor]
  refine ⟨_, rfl, ?_, ?_⟩
  · intro id hid
    obtain ⟨session, hsession, rfl⟩ := Option.map_eq_some_iff.mp hid
    obtain ⟨group, hgroup, hhead⟩ := List.exists_of_findSome?_eq_some hsession
    have hin := List.mem_of_mem_head? hhead
    obtain ⟨hvalues, hopen⟩ := listed_of_group (Nat.le_refl _) store.currentProjection_built
      hgroup (List.mem_append_left _ hin)
    refine ⟨listed_of_mem hvalues hopen, ?_⟩
    change (store.sessions.get session.id).any (!·.isArchived) = true
    rw [store.sessions.get_eq_some.mpr ⟨hvalues, rfl⟩, Option.any_some,
      active_of_group (Nat.le_refl _) store.currentProjection_built hgroup hin]
    rfl
  · intro hnobody session hin hopen haux
    rw [Option.map_eq_none_iff] at hnobody
    by_contra hactive
    obtain ⟨group, hgroup, hmem⟩ := exists_active_group (Nat.le_refl _)
      store.currentProjection_built hin hopen haux (Bool.not_eq_true _ ▸ hactive)
    have hhead := List.findSome?_eq_none_iff.mp hnobody group hgroup
    rw [List.head?_eq_none_iff.mp hhead] at hmem
    cases hmem

theorem desk_autoSelect_of_some (h : store.selectedSessionId = some id) :
    store.autoSelectIfNeeded.desk = store.desk := by
  unfold autoSelectIfNeeded
  rw [h]

/-! ### Selecting -/

theorem desk_select (store : SessionStore) (id : SessionId) :
    (store.select id).desk =
      if (store.sessions.get id).isSome then { store.desk with picked := [] }.focus id
      else store.desk := by
  unfold select
  split
  · exact desk_focusSession _ id
  · rfl

theorem Fresh.desk_selectRange (h : store.Fresh) (id : SessionId) :
    ∃ picked, (store.selectRange id).desk = { store.desk with picked := picked } ∧
      ∀ x ∈ picked, x ∈ store.sidebarSelection ∨ store.desk.Listed x := by
  obtain ⟨cache, hread, _⟩ := h.sidebarProjection
  unfold SessionStore.selectRange sidebarVisibleOrder
  rw [hread]
  dsimp only
  split
  · exact ⟨store.sidebarSelection, rfl, fun x hx => Or.inl hx⟩
  · refine ⟨_, rfl, fun x hx => Or.inr ?_⟩
    obtain ⟨group, hgroup, hin⟩ := List.mem_flatMap.mp (List.mem_of_mem_drop (List.mem_of_mem_take hx))
    rcases List.mem_append.mp hin with hrow | harchived
    · obtain ⟨row, hmem, rfl⟩ := List.mem_map.mp hrow
      obtain ⟨hvalues, hopen⟩ := listed_of_row (Nat.le_refl _) store.currentProjection_built
        hgroup hmem
      exact listed_of_mem hvalues hopen
    · split at harchived
      · obtain ⟨session, hmem, rfl⟩ := List.mem_map.mp harchived
        obtain ⟨hvalues, hopen⟩ := listed_of_group (Nat.le_refl _) store.currentProjection_built
          hgroup (List.mem_append_right _ hmem)
        exact listed_of_mem hvalues hopen
      · cases harchived

theorem desk_withFocused (store : SessionStore) (id : SessionId) :
    ∃ picked, (store.withFocused id).desk = { store.desk with picked := picked } ∧
      ∀ x ∈ picked, x ∈ store.sidebarSelection ∨
        store.selectedSessionId = some x ∧ (store.sessions.get x).isSome = true := by
  have hsame : ∃ picked, store.desk = { store.desk with picked := picked } ∧
      ∀ x ∈ picked, x ∈ store.sidebarSelection ∨
        store.selectedSessionId = some x ∧ (store.sessions.get x).isSome = true :=
    ⟨store.sidebarSelection, rfl, fun x hx => Or.inl hx⟩
  unfold withFocused
  split
  · next focused hselected =>
      split
      · next hcond =>
          refine ⟨[focused], rfl, fun x hx => Or.inr ?_⟩
          rw [List.mem_singleton.mp hx]
          exact ⟨hselected, (Bool.and_eq_true_iff.mp hcond).2⟩
      · exact hsame
  · exact hsame

theorem Fresh.desk_dropRow (h : store.Fresh) (id : SessionId) :
    (store.dropRow id).desk = { store.desk with picked := store.sidebarSelection.filter (· ≠ id) } ∨
      ∃ next, store.desk.Listed next ∧ (store.dropRow id).desk =
        { store.desk with picked := store.sidebarSelection.filter (· ≠ id) }.focus next := by
  have hkept : Fresh { store with sidebarSelection := store.sidebarSelection.filter (· ≠ id) } := h
  obtain ⟨cache, hread, _⟩ := hkept.sidebarSelectionOrdered
  unfold SessionStore.dropRow
  dsimp only
  rw [hread]
  split
  · split
    · next next hhead =>
        refine Or.inr ⟨next, ?_, desk_focusSession _ next⟩
        exact listed_displayed (List.mem_filter.mp (List.mem_of_mem_head? hhead)).1
    · exact Or.inl rfl
  · exact Or.inl rfl

theorem Fresh.desk_toggleRow (h : store.Fresh) (id : SessionId) :
    ∃ picked, (∀ x ∈ picked, x ∈ store.sidebarSelection ∨ x = id ∨
        store.selectedSessionId = some x ∧ (store.sessions.get x).isSome = true) ∧
      ((store.toggleRow id).desk = { store.desk with picked := picked } ∨
        ∃ next, store.desk.Listed next ∧
          (store.toggleRow id).desk = { store.desk with picked := picked }.focus next) := by
  obtain ⟨picked, hfocused, hpicked⟩ := desk_withFocused store id
  have hselection : (store.withFocused id).sidebarSelection = picked := congrArg Desk.picked hfocused
  have hwiden : ∀ x ∈ picked, x ∈ store.sidebarSelection ∨ x = id ∨
      store.selectedSessionId = some x ∧ (store.sessions.get x).isSome = true := by
    intro x hx
    rcases hpicked x hx with hold | hselected
    · exact Or.inl hold
    · exact Or.inr (Or.inr hselected)
  unfold SessionStore.toggleRow
  dsimp only
  split
  · refine ⟨picked.filter (· ≠ id), fun x hx => hwiden x (List.mem_filter.mp hx).1, ?_⟩
    have hdrop := (h.withFocused id).desk_dropRow id
    rw [hfocused, hselection] at hdrop
    exact hdrop
  · refine ⟨id :: picked, fun x hx => ?_, Or.inl ?_⟩
    · rcases List.mem_cons.mp hx with rfl | hx
      · exact Or.inr (Or.inl rfl)
      · exact hwiden x hx
    · calc SessionStore.desk { store.withFocused id with
              sidebarSelection := id :: (store.withFocused id).sidebarSelection
              sidebarSelectionAnchor := some id }
          = { (store.withFocused id).desk with
              picked := id :: (store.withFocused id).sidebarSelection } := rfl
        _ = _ := by rw [hfocused, hselection]

/-! ### Closing, archiving, reviving -/

theorem desk_closeRow (store : SessionStore) (id : SessionId) :
    (store.closeRow id).desk = store.desk.close id := by
  have hdrop := desk_dropTerminal { store with
    sidebarSelection := store.sidebarSelection.filter (· ≠ id) } id
  have hclosing := congrArg Desk.closing hdrop
  unfold closeRow
  dsimp only
  calc SessionStore.desk (SessionStore.emit { dropTerminal { store with
            sidebarSelection := store.sidebarSelection.filter (· ≠ id) } id with
            closing := (dropTerminal { store with
              sidebarSelection := store.sidebarSelection.filter (· ≠ id) } id).closing.insert id }
          (.remove id))
      = { (dropTerminal { store with
            sidebarSelection := store.sidebarSelection.filter (· ≠ id) } id).desk with
            closing := (dropTerminal { store with
              sidebarSelection := store.sidebarSelection.filter (· ≠ id) } id).desk.closing.insert
                id } := rfl
    _ = _ := by rw [hdrop]; rfl

theorem desk_closeRows (store : SessionStore) (ids : List SessionId) :
    (ids.foldl closeRow store).desk = ids.foldl Desk.close store.desk := by
  induction ids generalizing store with
  | nil => rfl
  | cons id ids ih => rw [List.foldl_cons, List.foldl_cons, ih, desk_closeRow]

theorem Fresh.handOver (h : store.Fresh) (ids : List SessionId) :
    store.desk.Handed ids
      (if store.selectedSessionId.any ids.contains then store.focusNeighbor ids else store).desk := by
  split
  · obtain ⟨next, hdesk, hsurvives⟩ := h.focusNeighbor ids
    exact Or.inr ⟨next, hdesk, hsurvives⟩
  · next hstays =>
      refine Or.inl ⟨rfl, fun id hid hselected => hstays ?_⟩
      change store.selectedSessionId = some id at hselected
      rw [hselected, Option.any_some]
      exact List.contains_iff_mem.mpr hid

theorem Fresh.desk_removeSessions (h : store.Fresh) (walk : HashOrder SessionRecord)
    (ids : List SessionId) :
    ∃ base, store.desk.Handed (store.withAuxiliary walk ids) base ∧
      (store.removeSessions walk ids).desk =
        (store.withAuxiliary walk ids).foldl Desk.close base := by
  unfold SessionStore.removeSessions
  dsimp only
  rw [desk_reconcileNavigation, desk_invalidateProjection, desk_closeRows]
  exact ⟨_, h.handOver _, rfl⟩

theorem desk_modify (store : SessionStore) (id : SessionId) (f : SessionRecord → SessionRecord) :
    (store.modify id f).desk =
      { store.desk with
        sessions := match store.sessions.get id with
          | some session => store.sessions.insert (f session)
          | none => store.sessions } := by
  unfold modify
  split
  · next hget => simp only [hget]; rfl
  · next hget => simp only [hget]; rfl

theorem desk_archiveRow (now : SessionId → DateMillis) (store : SessionStore) (id : SessionId) :
    (archiveRow now store id).desk = store.desk.archive now id := by
  unfold archiveRow
  dsimp only
  rw [desk_emit, desk_dropTerminal, desk_modify]
  rfl

theorem desk_archiveRows (now : SessionId → DateMillis) (store : SessionStore)
    (ids : List SessionId) :
    (ids.foldl (archiveRow now) store).desk =
      ids.foldl (fun desk id => desk.archive now id) store.desk := by
  induction ids generalizing store with
  | nil => rfl
  | cons id ids ih => rw [List.foldl_cons, List.foldl_cons, ih, desk_archiveRow]

theorem Fresh.desk_archiveSessions (h : store.Fresh) (now : SessionId → DateMillis)
    (ids : List SessionId) :
    ∃ base, store.desk.Handed (ids.filter store.isActive) base ∧
      (store.archiveSessions now ids).desk =
        (ids.filter store.isActive).foldl (fun desk id => desk.archive now id) base := by
  unfold SessionStore.archiveSessions
  dsimp only
  rw [desk_invalidateProjection, desk_archiveRows]
  exact ⟨_, h.handOver _, rfl⟩

end SessionStore

end Navigation

end Homie.App
