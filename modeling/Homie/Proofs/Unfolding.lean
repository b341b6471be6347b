/-
Selecting a session unfolds what hides it, and folding a row takes the selection along.

A row is hidden by its project and by the rows above it in the tree, which hangs together by the
links that `resolve_parents` keeps.  `reveal` and `is_descendant_of` follow the links of the records
instead, through any project and through archived sessions.  What is above a row in the tree is
always further up by the links, so `reveal` unfolds enough; it is not the other way round, so a fold
can take the selection to a session that has no row.
-/
import Homie.Proofs.DeskSteps
import Homie.Proofs.SidebarEnumeration

namespace Homie.App

open Forest Sorting

/-! ### The links that are kept -/

section Cuts

variable {n fuel : Nat} {parents parents' : Fin n → Option (Fin n)}

/-- The cycle breaker only cuts. -/
theorem breakFrom_cuts {start x y : Fin n} (h : breakFrom fuel parents start = some parents')
    (hx : parents' x = some y) : parents x = some y := by
  obtain ⟨looped, _, rfl⟩ := Option.map_eq_some_iff.mp h
  cases looped with
  | false => exact hx
  | true =>
    by_cases hstart : x = start
    · rw [hstart, if_pos rfl, Function.update_self] at hx
      cases hx
    · rwa [if_pos rfl, Function.update_of_ne hstart] at hx

theorem foldlM_breakFrom_cuts {starts : List (Fin n)} {x y : Fin n}
    (h : starts.foldlM (breakFrom fuel) parents = some parents') (hx : parents' x = some y) :
    parents x = some y := by
  induction starts generalizing parents with
  | nil =>
    rw [List.foldlM_nil] at h
    rwa [Option.some.inj h]
  | cons start starts ih =>
    rw [List.foldlM_cons] at h
    obtain ⟨mid, hmid, hrest⟩ := Option.bind_eq_some_iff.mp h
    exact breakFrom_cuts hmid (ih hrest)

end Cuts

theorem parent_of_resolved {active : List SessionRecord} (hids : (active.map (·.id)).Nodup)
    {fuel : Nat} {parents : Fin active.length → Option (Fin active.length)}
    (h : resolveParents fuel active = some parents) {i j : Fin active.length}
    (hij : parents i = some j) : (active.get i).parent = some (active.get j).id := by
  have hnamed : namedParents active i = some j := foldlM_breakFrom_cuts h hij
  unfold namedParents at hnamed
  obtain ⟨id, hparent, hindex⟩ := Option.bind_eq_some_iff.mp (Option.filter_eq_some_iff.mp hnamed).1
  rw [hparent, (indexOf_eq_some hids).mp hindex]

/-! ### What is above a row -/

section Above

variable {sessions : SessionMap} {closing : List SessionId} {session above : SessionRecord}

/-- The session that the record of a session names as its parent. -/
def link (sessions : SessionMap) (id : SessionId) : Option SessionId :=
  (sessions.get id).bind (·.parent)

/-- `above` is further up than `session` in the tree of its project. -/
def Above (sessions : SessionMap) (closing : List SessionId) (session above : SessionRecord) :
    Prop :=
  ∃ parents i j, resolveParents sessions.values.length
      (activeOf sessions closing session.projectId) = some parents ∧
    (activeOf sessions closing session.projectId).get i = session ∧
    (activeOf sessions closing session.projectId).get j = above ∧ Ancestor parents i j

theorem activeOf_nodup (id : ProjectId) : ((activeOf sessions closing id).map (·.id)).Nodup :=
  sessions.keyed.sublist ((activeOf_sublist id).map _)

theorem get_activeOf {id : ProjectId} (i : Fin (activeOf sessions closing id).length) :
    sessions.get ((activeOf sessions closing id).get i).id =
      some ((activeOf sessions closing id).get i) :=
  sessions.get_eq_some.mpr ⟨(activeOf_sublist id).subset (List.get_mem _ i), rfl⟩

theorem Above.recorded (h : Above sessions closing session above) :
    sessions.get above.id = some above := by
  obtain ⟨_, _, j, _, _, rfl, _⟩ := h
  exact get_activeOf j

theorem Above.links (h : Above sessions closing session above) :
    Ancestor (link sessions) session.id above.id := by
  obtain ⟨parents, i, j, hparents, hi, hj, hup⟩ := h
  have hlink : ∀ {x y}, parents x = some y →
      link sessions ((activeOf sessions closing session.projectId).get x).id =
        some ((activeOf sessions closing session.projectId).get y).id := by
    intro x y hxy
    unfold link
    rw [get_activeOf, Option.bind_some]
    exact parent_of_resolved (activeOf_nodup _) hparents hxy
  have hwalk : ∀ {y}, Ancestor parents i y → Ancestor (link sessions)
      ((activeOf sessions closing session.projectId).get i).id
      ((activeOf sessions closing session.projectId).get y).id := by
    intro y hy
    induction hy with
    | single hstep => exact .single (hlink hstep)
    | tail _ hstep ih => exact .tail ih (hlink hstep)
  have hids := hwalk hup
  rwa [hi, hj] at hids

/-- No row is above itself. -/
theorem Above.ne (h : Above sessions closing session above) : above.id ≠ session.id := by
  obtain ⟨parents, i, j, hparents, hi, hj, hup⟩ := h
  intro hid
  rw [← hj] at hid
  have hsame : (activeOf sessions closing session.projectId).get j =
      (activeOf sessions closing session.projectId).get i := by
    rw [hi]
    exact Option.some.inj ((get_activeOf j).symm.trans (hid ▸ hi ▸ get_activeOf i))
  have hij : j = i := (activeOf_nodup (session.projectId)).of_map.get_inj_iff.mp hsame
  obtain ⟨parents', hresolved, hforest⟩ :=
    resolveParents_forest (activeOf sessions closing session.projectId)
  have hparents' := hresolved _ (activeOf_sublist session.projectId).length_le
  rw [hparents, Option.some.injEq] at hparents'
  obtain ⟨k, hk⟩ := hforest i
  rw [← hparents'] at hk
  exact hk.not_ancestor_self (hij ▸ hup)

end Above

/-! ### What is in the order -/

section Ordered

variable {order : HashOrder (ProjectId × List SessionRecord)} {fuel : Nat} {sessions : SessionMap}
variable {projects : ProjectMap} {prefs : Prefs} {selected : Option SessionId}
variable {closing : List SessionId} {projection : SidebarProjection} {session : SessionRecord}

/-- Neither the project nor anything above the session in its tree is folded. -/
def Unfolded (sessions : SessionMap) (closing : List SessionId) (prefs : Prefs)
    (session : SessionRecord) : Prop :=
  session.projectId ∉ prefs.sidebarCollapsedProjects ∧
    ∀ above, Above sessions closing session above → above.id ∉ prefs.sidebarCollapsedSessions

theorem mem_activeOf : session ∈ activeOf sessions closing session.projectId ↔
    session ∈ listedSessions sessions closing ∧ session.isArchived = false := by
  simp only [activeOf, listedSessions, List.mem_filter, beq_self_eq_true, and_true,
    Bool.not_eq_true']

theorem GroupLaw.row_iff {group : SidebarProject}
    (h : GroupLaw sessions closing prefs session.projectId group)
    (hin : session ∈ activeOf sessions closing session.projectId) :
    session ∈ group.sessions.map (·.session) ↔ Unfolded sessions closing prefs session := by
  obtain ⟨parents, hparents, htree⟩ := h
  obtain ⟨i, hi⟩ := List.get_of_mem hin
  have hshown := htree.shown i
  rw [hi] at hshown
  rw [hshown]
  unfold Unfolded
  refine and_congr (by simp) ⟨?_, ?_⟩
  · intro hup above habove
    obtain ⟨parents', i', j, hparents', hi', rfl, hij⟩ := habove
    rw [hparents _ (Nat.le_refl _), Option.some.injEq] at hparents'
    have hsame : i' = i := (activeOf_nodup _).of_map.get_inj_iff.mp (hi'.trans hi.symm)
    subst hparents' hsame
    simpa using hup j hij
  · intro hup a ha
    simpa using hup _ ⟨parents, i, a, hparents _ (Nat.le_refl _), hi, rfl, ha⟩

/-- A group of the projection is of one project: it has its rows by the law of its tree, and its
archived sessions. -/
theorem law_of_group (hfuel : sessions.values.length ≤ fuel)
    (h : buildProjection order fuel sessions projects.get prefs selected closing = some projection)
    {group : SidebarProject} (hgroup : group ∈ projection.projects) :
    GroupLaw sessions closing prefs group.project.id group ∧
      ∀ session, session ∈ group.archived ↔ session ∈ listedSessions sessions closing ∧
        session.projectId = group.project.id ∧ session.isArchived = true := by
  rw [projection_of_groups h] at hgroup
  obtain ⟨built, hbuilt, rfl⟩ := List.mem_map.mp hgroup
  obtain ⟨entry, hentry, hbuild⟩ := List.mem_filterMap.mp (mem_sortBy.mp hbuilt)
  have hentry' := (order.perm _).mem_iff.mp hentry
  obtain ⟨expected, hexpected, hlaw, hperm⟩ :=
    @buildGroup_built _ _ prefs projects.get _ hentry'
  have hid := buildGroup_projectId hbuild
  rw [hexpected fuel hfuel, Option.some.injEq] at hbuild
  subst hbuild
  rw [hid]
  refine ⟨hlaw, fun session => ?_⟩
  have hmembers := (grouped_groups sessions closing).members entry hentry'
  have harchived : expected.2.archived = (entry.2.filter (·.isArchived)).mergeSort
      fun left right => (archivedCmp left right).isLE := by
    have hbuild := hexpected fuel hfuel
    unfold buildGroup at hbuild
    obtain ⟨tree, _, hbuild⟩ := Option.bind_eq_some_iff.mp hbuild
    rw [← Option.some.inj hbuild]
  rw [harchived, List.mem_mergeSort, hmembers]
  simp only [listedSessions, List.mem_filter, beq_iff_eq, and_assoc]

/-- **What the window can step to.** The order has the active sessions that nothing hides, and of
the archived sessions the selected one. -/
theorem mem_orderedSessions (hfuel : sessions.values.length ≤ fuel)
    (h : buildProjection order fuel sessions projects.get prefs selected closing = some projection) :
    session ∈ projection.orderedSessions ↔ session ∈ listedSessions sessions closing ∧
      (session.isArchived = true ∧ selected = some session.id ∨
        session.isArchived = false ∧ Unfolded sessions closing prefs session) := by
  have hordered : projection.orderedSessions = projection.projects.flatMap fun group =>
      group.sessions.map (·.session) ++
        group.archived.filter fun session => selected == some session.id := by
    rw [projection_of_groups h]
    rfl
  rw [hordered, List.mem_flatMap]
  constructor
  · intro hin
    obtain ⟨group, hgroup, hin⟩ := hin
    obtain ⟨hlaw, harchived⟩ := law_of_group hfuel h hgroup
    rcases List.mem_append.mp hin with hrow | hput
    · obtain ⟨parents, _, htree⟩ := id hlaw
      have hactive := htree.once.mem_iff.mp (htree.ordered.subset hrow)
      have hproject : group.project.id = session.projectId :=
        (beq_iff_eq.mp (List.mem_filter.mp (List.mem_filter.mp hactive).1).2).symm
      rw [hproject] at hlaw hactive
      obtain ⟨hlisted, hopen⟩ := mem_activeOf.mp hactive
      exact ⟨hlisted, Or.inr ⟨hopen, (hlaw.row_iff hactive).mp hrow⟩⟩
    · obtain ⟨hmem, hselected⟩ := List.mem_filter.mp hput
      obtain ⟨hlisted, _, hput⟩ := (harchived session).mp hmem
      exact ⟨hlisted, Or.inl ⟨hput, by simpa using hselected⟩⟩
  · intro hin
    obtain ⟨hlisted, hshown⟩ := hin
    obtain ⟨entry, hentry, group, hbuild, hid⟩ :=
      @exists_group _ projects prefs _ _ hfuel _ ⟨session, hlisted, rfl⟩
    have hgroup : group.2 ∈ projection.projects := by
      rw [projection_of_groups h]
      exact List.mem_map_of_mem (mem_sortBy.mpr
        (List.mem_filterMap.mpr ⟨entry, (order.perm _).mem_iff.mpr hentry, hbuild⟩))
    obtain ⟨hlaw, harchived⟩ := law_of_group hfuel h hgroup
    refine ⟨group.2, hgroup, ?_⟩
    rcases hshown with ⟨hput, hselected⟩ | ⟨hopen, hunfolded⟩
    · refine List.mem_append_right _ (List.mem_filter.mpr ⟨?_, by simpa using hselected⟩)
      exact (harchived session).mpr ⟨hlisted, hid.symm, hput⟩
    · rw [hid] at hlaw
      exact List.mem_append_left _
        ((hlaw.row_iff (mem_activeOf.mpr ⟨hlisted, hopen⟩)).mpr hunfolded)

end Ordered

namespace Navigation

/-! ### The walks up the links -/

section Walks

variable {sessions : SessionMap} {fuel : Nat} {seen : List SessionId} {next : Option SessionId}

/-- The walk of `reveal` takes every session once, and none that it has seen. -/
theorem spawnChain_nodup (sessions : SessionMap) (fuel : Nat) (seen : List SessionId)
    (next : Option SessionId) :
    (SessionStore.spawnChain sessions fuel seen next).Nodup ∧
      ∀ id ∈ SessionStore.spawnChain sessions fuel seen next, id ∉ seen := by
  induction fuel generalizing seen next with
  | zero =>
    cases next with
    | none => rw [spawnChain_none]; simp
    | some up => simp [SessionStore.spawnChain]
  | succ fuel ih =>
    cases next with
    | none => rw [spawnChain_none]; simp
    | some up =>
      unfold SessionStore.spawnChain
      by_cases hup : up ∈ seen
      · rw [if_pos hup]
        simp
      · rw [if_neg hup]
        obtain ⟨hnodup, hnew⟩ := ih (up :: seen) ((sessions.get up).bind (·.parent))
        refine ⟨List.nodup_cons.mpr ⟨fun hin => hnew up hin List.mem_cons_self, hnodup⟩, ?_⟩
        intro id hid
        rcases List.mem_cons.mp hid with rfl | hid
        · exact hup
        · exact fun hin => hnew id hid (List.mem_cons_of_mem _ hin)

/-- What the walk has seen and takes is closed under the links, if what it had seen was closed up
to where it starts. -/
theorem spawnChain_closed (hfuel : (unseen sessions seen).length < fuel)
    (hseen : ∀ id ∈ seen, ∀ up, link sessions id = some up → up ∈ seen ∨ next = some up) :
    ∀ id, id ∈ seen ∨ id ∈ SessionStore.spawnChain sessions fuel seen next →
      ∀ up, link sessions id = some up →
        up ∈ seen ∨ up ∈ SessionStore.spawnChain sessions fuel seen next := by
  induction fuel generalizing seen next with
  | zero => exact absurd hfuel (Nat.not_lt_zero _)
  | succ fuel ih =>
    cases next with
    | none =>
      intro id hid up hup
      rw [spawnChain_none, or_iff_left List.not_mem_nil] at hid
      exact Or.inl ((hseen id hid up hup).resolve_right (by rintro ⟨⟩))
    | some start =>
      unfold SessionStore.spawnChain
      by_cases hstart : start ∈ seen
      · rw [if_pos hstart]
        intro id hid up hup
        rw [or_iff_left List.not_mem_nil] at hid
        rcases hseen id hid up hup with hin | hnext
        · exact Or.inl hin
        · exact Or.inl (Option.some.inj hnext ▸ hstart)
      · rw [if_neg hstart]
        have hseen' : ∀ id ∈ start :: seen, ∀ up, link sessions id = some up →
            up ∈ start :: seen ∨ (sessions.get start).bind (·.parent) = some up := by
          intro id hid up hup
          rcases List.mem_cons.mp hid with rfl | hid
          · exact Or.inr hup
          · rcases hseen id hid up hup with hin | hnext
            · exact Or.inl (List.mem_cons_of_mem _ hin)
            · rw [Option.some.inj hnext]
              exact Or.inl List.mem_cons_self
        -- a session without a record has no link, so that the walk ends there
        cases hget : sessions.get start with
        | none =>
          rw [hget] at hseen'
          rw [Option.bind_none, spawnChain_none]
          intro id hid up hup
          have hid' : id ∈ start :: seen := by simpa [or_comm] using hid
          have hup' := (hseen' id hid' up hup).resolve_right (by rintro ⟨⟩)
          simpa [or_comm] using hup'
        | some session =>
          have hless := unseen_lt hget hstart
          rw [hget] at hseen'
          intro id hid up hup
          have hclosed := ih (by omega) hseen' id
            (by simpa only [List.mem_cons, or_assoc, or_left_comm] using hid) up hup
          simpa only [List.mem_cons, or_assoc, or_left_comm] using hclosed

/-- `is_descendant_of` finds whom the walk of `reveal` takes. -/
theorem reaches_of_mem {ancestor : SessionId}
    (h : ancestor ∈ SessionStore.spawnChain sessions fuel seen next) :
    SessionStore.reaches sessions ancestor fuel seen next = true := by
  induction fuel generalizing seen next with
  | zero =>
    cases next with
    | none => rw [spawnChain_none] at h; cases h
    | some up => simp [SessionStore.spawnChain] at h
  | succ fuel ih =>
    cases next with
    | none => rw [spawnChain_none] at h; cases h
    | some up =>
      unfold SessionStore.spawnChain at h
      unfold SessionStore.reaches
      by_cases hfound : up = ancestor
      · rw [if_pos hfound]
      · by_cases hup : up ∈ seen
        · rw [if_pos hup] at h
          cases h
        · rw [if_neg hup] at h
          rw [if_neg hfound, if_neg hup]
          exact ih ((List.mem_cons.mp h).resolve_left (Ne.symm hfound))

end Walks

/-! ### What a selection unfolds -/

namespace SessionStore

variable {store : SessionStore} {id up : SessionId} {session : SessionRecord}

/-- Whom `reveal` unfolds for a session. -/
def ancestors (store : SessionStore) (id : SessionId) : List SessionId :=
  spawnChain store.sessions (store.sessions.values.length + 1) [id]
    ((store.sessions.get id).bind (·.parent))

theorem mem_ancestors (h : Ancestor (link store.sessions) id up) (hne : up ≠ id) :
    up ∈ store.ancestors id := by
  have hfuel : (unseen store.sessions [id]).length < store.sessions.values.length + 1 :=
    Nat.lt_succ_of_le (List.length_filter_le _ _)
  have hstart : ∀ x ∈ [id], ∀ y, link store.sessions x = some y →
      y ∈ [id] ∨ (store.sessions.get id).bind (·.parent) = some y := by
    intro x hx y hy
    rw [List.mem_singleton.mp hx] at hy
    exact Or.inr hy
  have hclosed := spawnChain_closed hfuel hstart
  have hin : up ∈ [id] ∨ up ∈ store.ancestors id := by
    induction h with
    | single hstep => exact hclosed id (Or.inl (List.mem_singleton_self id)) _ hstep
    | @tail mid up hmid hstep ih =>
      by_cases hback : mid = id
      · exact hclosed mid (Or.inl (List.mem_singleton.mpr hback)) _ hstep
      · exact hclosed mid (ih hback) _ hstep
  exact hin.resolve_left fun h => hne (List.mem_singleton.mp h)

theorem isDescendantOf_of_mem (h : up ∈ store.ancestors id) :
    store.isDescendantOf id up = true := reaches_of_mem h

theorem attachFocused_prefs (store : SessionStore) (id : SessionId) :
    (store.attachFocused id).prefs = store.prefs := by
  unfold attachFocused
  split
  · unfold touchTerminal
    dsimp only
    split
    · rfl
    · rfl
  · rfl

theorem autoResumeIfNeeded_prefs (store : SessionStore) (id : SessionId) :
    (store.autoResumeIfNeeded id).prefs = store.prefs := by
  unfold autoResumeIfNeeded
  dsimp only
  split
  · rfl
  · rfl

/-- `reveal` takes the project and the ancestors of the session from the collapsed lists, once
each. -/
theorem reveal_prefs (h : store.sessions.get id = some session) :
    (store.reveal id).1.prefs.toPrefs =
      { store.prefs.toPrefs with
        sidebarCollapsedProjects := store.prefs.sidebarCollapsedProjects.erase session.projectId
        sidebarCollapsedSessions :=
          store.prefs.sidebarCollapsedSessions.diff (store.ancestors id) } := by
  have hchanged : ∀ (changed : Bool) (next : SessionStore),
      (if changed = true then next.invalidateProjection else next).prefs = next.prefs := by
    intro changed next
    cases changed with
    | false => rfl
    | true => rfl
  unfold reveal ancestors
  rw [List.diff_eq_foldl, h]
  dsimp only
  rw [hchanged]
  rfl

/-- Of what the sidebar reads of the preferences, a selection changes what `reveal` changes. -/
theorem focusSession_prefs (store : SessionStore) (id : SessionId) :
    (store.focusSession id).prefs.toPrefs = (store.reveal id).1.prefs.toPrefs := by
  have hkeep : ∀ (remember : Bool) (next : SessionStore),
      (if remember = true then
        { next with prefs := { next.prefs with lastSelectedSession := some id } }
      else next).prefs.toPrefs = next.prefs.toPrefs := by
    intro remember next
    cases remember with
    | false => rfl
    | true => rfl
  have hreveal : ({ store with selectedSessionId := some id }.reveal id).1.prefs.toPrefs =
      (store.reveal id).1.prefs.toPrefs := by
    cases hget : store.sessions.get id with
    | none =>
      unfold reveal
      dsimp only
      rw [hget]
    | some session =>
      rw [reveal_prefs hget]
      exact @reveal_prefs { store with selectedSessionId := some id } id session hget
  unfold focusSession
  change ((_ : SessionStore).autoResumeIfNeeded id).prefs.toPrefs = _
  rw [autoResumeIfNeeded_prefs, attachFocused_prefs]
  exact (hkeep _ _).trans hreveal

/-- What `select` does to what the sidebar reads. -/
structure Picks (store : SessionStore) (id : SessionId) (next : SessionStore) : Prop where
  sessions : next.sessions = store.sessions
  closing : next.closing = store.closing
  selected : next.selectedSessionId = some id
  prefs : next.prefs.toPrefs = (store.reveal id).1.prefs.toPrefs

theorem select_picks (h : store.sessions.get id = some session) :
    store.Picks id (store.select id) := by
  have hselect : store.select id =
      { store with sidebarSelection := [], sidebarSelectionAnchor := some id }.focusSession id := by
    unfold select
    rw [h]
    rfl
  have hdesk : (store.select id).desk = { store.desk with picked := [] }.focus id := by
    rw [hselect]
    exact desk_focusSession _ id
  obtain ⟨resident, hfocus⟩ := Desk.focus_eq { store.desk with picked := [] } id
  rw [hfocus] at hdesk
  refine ⟨congrArg Desk.sessions hdesk, congrArg Desk.closing hdesk, congrArg Desk.selected hdesk, ?_⟩
  rw [hselect, focusSession_prefs, reveal_prefs h]
  exact @reveal_prefs { store with sidebarSelection := [], sidebarSelectionAnchor := some id } id
    session h

/-- Nothing that hides the session is twice in a collapsed list. -/
def FoldedOnce (store : SessionStore) (session : SessionRecord) : Prop :=
  store.prefs.sidebarCollapsedProjects.count session.projectId ≤ 1 ∧
    ∀ above, Above store.sessions store.closing session above →
      store.prefs.sidebarCollapsedSessions.count above.id ≤ 1

/-- After `reveal` nothing hides the session that was not there twice. -/
theorem unfolded_iff_once {prefs : Prefs} (hget : store.sessions.get session.id = some session)
    (hprojects : prefs.sidebarCollapsedProjects =
      (store.reveal session.id).1.prefs.sidebarCollapsedProjects)
    (hsessions : ∀ up, up ≠ session.id → (up ∈ prefs.sidebarCollapsedSessions ↔
      up ∈ (store.reveal session.id).1.prefs.sidebarCollapsedSessions)) :
    Unfolded store.sessions store.closing prefs session ↔ store.FoldedOnce session := by
  have hreveal := reveal_prefs hget
  have hproject : session.projectId ∉ prefs.sidebarCollapsedProjects ↔
      store.prefs.sidebarCollapsedProjects.count session.projectId ≤ 1 := by
    rw [hprojects, congrArg Prefs.sidebarCollapsedProjects hreveal, ← List.count_eq_zero,
      List.count_erase_self]
    omega
  have habove : ∀ above, Above store.sessions store.closing session above →
      (above.id ∉ prefs.sidebarCollapsedSessions ↔
        store.prefs.sidebarCollapsedSessions.count above.id ≤ 1) := by
    intro above h
    have hin : above.id ∈ store.ancestors session.id := mem_ancestors h.links h.ne
    have honce : (store.ancestors session.id).count above.id = 1 :=
      List.count_eq_one_of_mem (spawnChain_nodup _ _ _ _).1 hin
    rw [hsessions _ h.ne, congrArg Prefs.sidebarCollapsedSessions hreveal, ← List.count_eq_zero,
      List.count_diff, honce]
    omega
  unfold Unfolded FoldedOnce
  rw [hproject]
  exact and_congr_right fun _ => forall₂_congr habove

theorem mem_sidebar (h : store.Fresh) :
    session ∈ store.sidebarProjection.1.orderedSessions ↔
      session ∈ listedSessions store.sessions store.closing ∧
      (session.isArchived = true ∧ store.selectedSessionId = some session.id ∨
        session.isArchived = false ∧
          Unfolded store.sessions store.closing store.prefs.toPrefs session) := by
  obtain ⟨cache, hread, _⟩ := h.sidebarProjection
  rw [hread]
  exact mem_orderedSessions (Nat.le_refl _) store.currentProjection_built

/-- **A selected session is shown.** -/
theorem select_shown (hget : store.sessions.get id = some session)
    (hlisted : session ∈ listedSessions store.sessions store.closing)
    (honce : session.isArchived = false → store.FoldedOnce session) :
    session ∈ (store.select id).sidebarProjection.1.orderedSessions := by
  obtain rfl := store.sessions.key_of_get hget
  obtain ⟨hsessions, hclosing, hselected, hprefs⟩ := select_picks hget
  have hfresh : (store.select session.id).Fresh := by
    unfold select
    rw [hget]
    exact fresh_focusSession _ _
  rw [mem_sidebar hfresh, hsessions, hclosing, hselected, hprefs]
  refine ⟨hlisted, ?_⟩
  cases hopen : session.isArchived with
  | true => exact Or.inl ⟨rfl, rfl⟩
  | false =>
    exact Or.inr ⟨rfl, (unfolded_iff_once hget rfl fun up _ => Iff.rfl).mpr (honce hopen)⟩

/-! ### Folding a row -/

variable {x : SessionId}

theorem mem_toggleVecMember {values : List String} {value other : String} (h : other ≠ value) :
    other ∈ toggleVecMember values value ↔ other ∈ values := by
  unfold toggleVecMember
  split
  · exact List.mem_erase_of_ne h
  · simp [h]

/-- A fold that takes the selection along. -/
def TakesAlong (store : SessionStore) (selected x : SessionId) : Prop :=
  x ∉ store.prefs.sidebarCollapsedSessions ∧ store.isDescendantOf selected x = true ∧
    (store.sessions.get x).isSome = true

theorem fresh_updatePreferences (store : SessionStore) (update : Preferences → Preferences) :
    (store.updatePreferences update).Fresh := fresh_invalidate _

/-- A fold toggles one entry of the collapsed sessions, of the store or of what a selection makes of
it. -/
theorem toggleSessionCollapsed_eq (hselected : store.selectedSessionId = some id) (x : SessionId) :
    ∃ base, store.toggleSessionCollapsed x = base.updatePreferences (fun prefs =>
        { prefs with
          sidebarCollapsedSessions := toggleVecMember prefs.sidebarCollapsedSessions x }) ∧
      (store.TakesAlong id x → base = store.select x) ∧
      (¬store.TakesAlong id x → base = store) := by
  unfold toggleSessionCollapsed
  dsimp only
  rw [hselected, Option.any_some]
  by_cases hasked : (!store.prefs.sidebarCollapsedSessions.contains x &&
      store.isDescendantOf id x) = true
  · refine ⟨store.select x, ?_, fun _ => rfl, fun hnot => ?_⟩
    · rw [if_pos hasked]
    · unfold select
      refine if_neg fun hthere => hnot ⟨?_, ?_, hthere⟩
      · simpa using (Bool.and_eq_true_iff.mp hasked).1
      · exact (Bool.and_eq_true_iff.mp hasked).2
  · refine ⟨store, ?_, fun htakes => ?_, fun _ => rfl⟩
    · rw [if_neg hasked]
    · refine absurd ?_ hasked
      obtain ⟨hopen, hdescends, _⟩ := htakes
      simp [hopen, hdescends]

/-- A fold that leaves the selection where it is does not hide it. -/
theorem toggle_stays (hshown : session ∈ store.currentProjection.orderedSessions)
    (hselected : store.selectedSessionId = some session.id)
    (hstays : ¬store.TakesAlong session.id x) :
    (store.toggleSessionCollapsed x).selectedSessionId = some session.id ∧
      session ∈ (store.toggleSessionCollapsed x).sidebarProjection.1.orderedSessions := by
  obtain ⟨base, htoggle, _, hbase⟩ := toggleSessionCollapsed_eq hselected x
  rw [hbase hstays] at htoggle
  rw [htoggle]
  refine ⟨hselected, ?_⟩
  obtain ⟨hlisted, hway⟩ :=
    (mem_orderedSessions (Nat.le_refl _) store.currentProjection_built).mp hshown
  rw [mem_sidebar (fresh_updatePreferences _ _)]
  refine ⟨hlisted, hway.imp id ?_⟩
  intro hopen
  obtain ⟨hopen, hproject, hup⟩ := hopen
  refine ⟨hopen, hproject, fun above habove hfolded => ?_⟩
  by_cases hid : above.id = x
  · refine hstays ⟨hid ▸ hup above habove, ?_, ?_⟩
    · exact isDescendantOf_of_mem (mem_ancestors (hid ▸ habove.links) (hid ▸ habove.ne))
    · have hrecorded : store.sessions.get above.id = some above := habove.recorded
      rw [← hid, hrecorded]
      rfl
  · exact hup above habove ((mem_toggleVecMember hid).mp hfolded)

/-- A fold that takes the selection along shows it iff the folded session is listed and, unless it
is archived, nothing that hides it is folded twice. -/
theorem toggle_takes (hselected : store.selectedSessionId = some id)
    (hget : store.sessions.get x = some session) (htakes : store.TakesAlong id x) :
    (store.toggleSessionCollapsed x).sessions = store.sessions ∧
      (store.toggleSessionCollapsed x).selectedSessionId = some session.id ∧
      (session ∈ (store.toggleSessionCollapsed x).sidebarProjection.1.orderedSessions ↔
        session ∈ listedSessions store.sessions store.closing ∧
          (session.isArchived = true ∨ store.FoldedOnce session)) := by
  obtain rfl := store.sessions.key_of_get hget
  obtain ⟨base, htoggle, hbase, _⟩ := toggleSessionCollapsed_eq hselected session.id
  obtain ⟨hsessions, hclosing, hpicked, hprefs⟩ := select_picks hget
  rw [← hbase htakes] at hsessions hclosing hpicked hprefs
  rw [htoggle]
  refine ⟨hsessions, hpicked, ?_⟩
  rw [mem_sidebar (fresh_updatePreferences _ _)]
  have hprojects := congrArg Prefs.sidebarCollapsedProjects hprefs
  have hfolds := congrArg Prefs.sidebarCollapsedSessions hprefs
  have honce := @unfolded_iff_once store session { base.prefs.toPrefs with
    sidebarCollapsedSessions := toggleVecMember base.prefs.sidebarCollapsedSessions session.id }
    hget hprojects fun up hup => by rw [← hfolds]; exact mem_toggleVecMember hup
  change session ∈ listedSessions base.sessions base.closing ∧
    (session.isArchived = true ∧ base.selectedSessionId = some session.id ∨
      session.isArchived = false ∧ Unfolded base.sessions base.closing _ session) ↔ _
  rw [hsessions, hclosing, hpicked]
  refine and_congr_right fun _ => ?_
  cases session.isArchived with
  | true => simp
  | false =>
    rw [or_iff_right (by simp), and_iff_right rfl, or_iff_right (by simp)]
    exact honce

/-! ### The selection in sight -/

/-- The selection is one of the ordered sessions. -/
def SelectionShown (store : SessionStore) : Prop :=
  ∃ session ∈ store.sidebarProjection.1.orderedSessions,
    store.selectedSessionId = some session.id

theorem selectionShown_iff (hfresh : store.Fresh) (hget : store.sessions.get id = some session)
    (hselected : store.selectedSessionId = some id) :
    store.SelectionShown ↔ session ∈ store.sidebarProjection.1.orderedSessions := by
  obtain rfl := store.sessions.key_of_get hget
  constructor
  · intro hshown
    obtain ⟨other, hother, hid⟩ := hshown
    have hin := (List.mem_filter.mp ((mem_sidebar hfresh).mp hother).1).1
    have hsame : store.sessions.get session.id = some other :=
      store.sessions.get_eq_some.mpr ⟨hin, Option.some.inj (hid.symm.trans hselected)⟩
    rw [hget, Option.some.injEq] at hsame
    rwa [hsame]
  · exact fun hin => ⟨session, hin, hselected⟩

/-- If folding `x` takes the selection along, `x` is neither closing nor an auxiliary terminal and,
unless it is archived, nothing that hides it is folded twice. -/
def FoldsInSight (store : SessionStore) (selected x : SessionId) : Prop :=
  store.TakesAlong selected x → ∀ session, store.sessions.get x = some session →
    App.listed store.closing session = true ∧ (session.isArchived = true ∨ store.FoldedOnce session)

end SessionStore

/-- **A selected session is shown, and so is the selection after a fold**, iff the folded session
can be shown when it takes the selection along.  `currentProjection` is what the sidebar shows
before the fold in every state with a fresh cache, and so in every state that is reached. -/
theorem selection_shown_iff (store : SessionStore) :
    (store.prefs.sidebarCollapsedProjects.Nodup → store.prefs.sidebarCollapsedSessions.Nodup →
      ∀ id session, store.sessions.get id = some session → session.isArchived = false →
        App.listed store.closing session = true →
        session ∈ (store.select id).sidebarProjection.1.orderedSessions) ∧
    ∀ session ∈ store.currentProjection.orderedSessions,
      store.selectedSessionId = some session.id → ∀ x,
        ((store.toggleSessionCollapsed x).SelectionShown ↔ store.FoldsInSight session.id x) := by
  constructor
  · intro hprojects hsessions id session hget _ hlisted
    have hin := (store.sessions.get_eq_some.mp hget).1
    refine SessionStore.select_shown hget (List.mem_filter.mpr ⟨hin, hlisted⟩) fun _ => ⟨?_, ?_⟩
    · exact List.nodup_iff_count_le_one.mp hprojects _
    · exact fun above _ => List.nodup_iff_count_le_one.mp hsessions _
  · intro session hshown hselected x
    by_cases htakes : store.TakesAlong session.id x
    · obtain ⟨folded, hget⟩ := Option.isSome_iff_exists.mp htakes.2.2
      obtain ⟨hsessions, hmoved, hiff⟩ := SessionStore.toggle_takes hselected hget htakes
      have hid := store.sessions.key_of_get hget
      have hin := (store.sessions.get_eq_some.mp hget).1
      have hlisted : folded ∈ listedSessions store.sessions store.closing ↔
          App.listed store.closing folded = true := by
        rw [listedSessions, List.mem_filter, and_iff_right hin]
      have hfresh : (store.toggleSessionCollapsed x).Fresh :=
        SessionStore.fresh_updatePreferences _ _
      rw [SessionStore.selectionShown_iff hfresh (hsessions ▸ hid ▸ hget) hmoved, hiff, hlisted]
      unfold SessionStore.FoldsInSight
      simp [htakes, hget]
    · refine ⟨fun _ htakes' => absurd htakes' htakes, fun _ => ?_⟩
      obtain ⟨hstays, hsight⟩ := SessionStore.toggle_stays hshown hselected htakes
      exact ⟨session, hsight, hstays⟩

/-! ### A parent that closes -/

/-- A session that `parent` has spawned. -/
def spawned (id parent : SessionId) : SessionRecord :=
  { plainSession id "homie" 1 with parent := some parent }

/-- A child is selected, and its parent is `closing` or not. -/
def childSelected (closing : List SessionId) : SessionStore :=
  { SessionStore.headless plainReading (lastShowing "child") with
    sessions := .ofList [plainSession "root" "homie" 0, spawned "child" "root"]
    closing := closing }

theorem childSelected_shown (closing : List SessionId) (h : "child" ∉ closing) :
    spawned "child" "root" ∈ (childSelected closing).currentProjection.orderedSessions := by
  refine (mem_orderedSessions (Nat.le_refl _)
    (SessionStore.currentProjection_built (childSelected closing))).mpr ⟨?_, Or.inr ⟨rfl, ?_, ?_⟩⟩
  · exact mem_listed.mpr ⟨List.mem_cons_of_mem _ List.mem_cons_self, h, rfl⟩
  · exact List.not_mem_nil
  · exact fun above _ => List.not_mem_nil

/-- The child is shown when it is selected, and folding its parent takes the selection along. -/
theorem selection_shown_root :
    spawned "child" "root" ∈
        ((childSelected []).select "child").sidebarProjection.1.orderedSessions ∧
      ((childSelected []).toggleSessionCollapsed "root").SelectionShown := by
  refine ⟨(selection_shown_iff (childSelected [])).1 List.nodup_nil List.nodup_nil "child" _ rfl rfl
    rfl, ((selection_shown_iff (childSelected [])).2 (spawned "child" "root")
      (childSelected_shown [] List.not_mem_nil) rfl "root").mpr ?_⟩
  intro _ session hget
  rw [show (childSelected []).sessions.get "root" = some (plainSession "root" "homie" 0) from rfl,
    Option.some.injEq] at hget
  subst hget
  refine ⟨rfl, Or.inr ⟨?_, ?_⟩⟩
  · exact Nat.zero_le _
  · exact fun above _ => Nat.zero_le _

/-- The parent is closing, and its child is selected and shown.  Folding the parent selects what has
no row. -/
theorem fold_selects_hidden :
    spawned "child" "root" ∈ (childSelected ["root"]).currentProjection.orderedSessions ∧
      (childSelected ["root"]).selectedSessionId = some "child" ∧
      ¬((childSelected ["root"]).toggleSessionCollapsed "root").SelectionShown := by
  refine ⟨childSelected_shown _ (by decide), rfl, ?_⟩
  have hget : (childSelected ["root"]).sessions.get "root" =
      some (plainSession "root" "homie" 0) := rfl
  obtain ⟨hsessions, hmoved, hiff⟩ := @SessionStore.toggle_takes (childSelected ["root"]) "child"
    (plainSession "root" "homie" 0) "root" rfl hget ⟨List.not_mem_nil, by decide, rfl⟩
  have hfresh : ((childSelected ["root"]).toggleSessionCollapsed "root").Fresh :=
    SessionStore.fresh_updatePreferences _ _
  rw [SessionStore.selectionShown_iff hfresh (hsessions ▸ hget) hmoved, hiff]
  intro hshown
  exact absurd (List.mem_filter.mp hshown.1).2 (by decide)

end Navigation

end Homie.App
