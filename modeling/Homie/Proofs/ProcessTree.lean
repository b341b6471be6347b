/-
The walk finds the process tree, the whole of it and nothing else.

`Tree` says what a set has to hold: the root, the children of its members, and the other members
of a process group that has one in it.  The walk stays inside every such set, because all it
stacks is there by one of the three rules; and what it has seen when the stack is empty is such a
set, because a rule whose premise has been seen has its conclusion seen, stacked or excluded all
along (`Met`).

Process groups up to 1 hold nothing together, and a process that is gone when the walk is over is
not in the result: both differ from the tree that one would expect.
-/
import Homie.Engine.ProcessTree

namespace Homie.ProcessTree

variable {all : List Observed} {holderPid root : Int32}

/-- The pids that the walk may report. -/
def Allowed (holderPid pid : Int32) : Prop := 1 < pid ∧ pid ≠ holderPid

instance (holderPid pid : Int32) : Decidable (Allowed holderPid pid) :=
  inferInstanceAs (Decidable (_ ∧ _))

/-- `tree` holds the root and is closed under children and under the process groups of `joins`. -/
structure Tree (all : List Observed) (holderPid root : Int32) (joins : Int32 → Prop)
    (tree : Int32 → Prop) : Prop where
  root : Allowed holderPid root → tree root
  child : ∀ process ∈ all, Allowed holderPid process.pid → tree process.ppid → tree process.pid
  group : ∀ process ∈ all, ∀ other ∈ all, Allowed holderPid other.pid → tree process.pid →
    joins process.pgid → other.pgid = process.pgid → tree other.pid

/-- The least such set. -/
def InTree (all : List Observed) (holderPid root : Int32) (joins : Int32 → Prop) (pid : Int32) :
    Prop :=
  ∀ tree : Int32 → Prop, Tree all holderPid root joins tree → tree pid

/-! ### What one visit changes -/

theorem mem_children {pid child : Int32} :
    child ∈ children all pid ↔ ∃ process ∈ all, process.ppid = pid ∧ process.pid = child := by
  simp [children, and_assoc]

theorem mem_members {pgid member : Int32} :
    member ∈ members all pgid ↔ ∃ process ∈ all, process.pgid = pgid ∧ process.pid = member := by
  simp [members, and_assoc]

/-- The group that a visit scans. -/
def newGroup (all : List Observed) (walk : Walk) (pid : Int32) : Option Int32 :=
  ((all.find? fun process => process.pid = pid).map Observed.pgid).filter fun pgid =>
    1 < pgid ∧ pgid ∉ walk.scannedGroups

theorem visit_eq (walk : Walk) (pid : Int32) :
    visit all walk pid =
      { seen := pid :: walk.seen
        scannedGroups := (newGroup all walk pid).toList ++ walk.scannedGroups
        frontier := (newGroup all walk pid).elim [] (fun pgid => (members all pgid).reverse)
          ++ ((children all pid).reverse ++ walk.frontier) } := by
  unfold visit newGroup
  cases all.find? fun process => process.pid = pid with
  | none => rfl
  | some process =>
    by_cases hgroup : 1 < process.pgid ∧ process.pgid ∉ walk.scannedGroups
    · simp [hgroup, Option.filter_some]
    · simp only [Option.map_some, Option.filter_some, decide_eq_true_eq, if_neg hgroup]
      rfl

@[simp] theorem seen_visit (walk : Walk) (pid : Int32) :
    (visit all walk pid).seen = pid :: walk.seen := by
  rw [visit_eq]

theorem mem_scanned_visit {walk : Walk} {pid pgid : Int32} :
    pgid ∈ (visit all walk pid).scannedGroups ↔
      newGroup all walk pid = some pgid ∨ pgid ∈ walk.scannedGroups := by
  rw [visit_eq]
  simp

theorem mem_frontier_visit {walk : Walk} {pid other : Int32} :
    other ∈ (visit all walk pid).frontier ↔
      (∃ pgid, newGroup all walk pid = some pgid ∧ other ∈ members all pgid)
        ∨ other ∈ children all pid ∨ other ∈ walk.frontier := by
  rw [visit_eq]
  cases newGroup all walk pid with
  | none => simp
  | some pgid => simp

theorem find_pid (hpids : (all.map Observed.pid).Nodup) {process : Observed}
    (hprocess : process ∈ all) :
    all.find? (fun other => other.pid = process.pid) = some process := by
  cases hfind : all.find? fun other => other.pid = process.pid with
  | none => simpa using List.find?_eq_none.mp hfind process hprocess
  | some other =>
    have hmem := List.mem_of_find?_eq_some hfind
    have hpid : other.pid = process.pid := by simpa using List.find?_some hfind
    rw [List.inj_on_of_nodup_map hpids hmem hprocess hpid]

theorem newGroup_eq_some {walk : Walk} {pid pgid : Int32} (h : newGroup all walk pid = some pgid) :
    ∃ process ∈ all, process.pid = pid ∧ process.pgid = pgid ∧ 1 < pgid := by
  unfold newGroup at h
  rw [Option.filter_eq_some_iff, Option.map_eq_some_iff] at h
  obtain ⟨⟨process, hfind, hpgid⟩, hgroup⟩ := h
  have hpid := List.find?_some hfind
  simp only [decide_eq_true_eq] at hpid hgroup
  exact ⟨process, List.mem_of_find?_eq_some hfind, hpid, hpgid, hgroup.1⟩

/-! ### The walk stays inside -/

/-- Everything seen is in the tree, and so is everything stacked that may be reported. -/
structure Inside (holderPid : Int32) (tree : Int32 → Prop) (walk : Walk) : Prop where
  seen : ∀ pid ∈ walk.seen, tree pid
  stacked : ∀ pid ∈ walk.frontier, Allowed holderPid pid → tree pid

theorem Inside.visit {tree : Int32 → Prop} {walk : Walk} {pid : Int32}
    (htree : Tree all holderPid root (1 < ·) tree) (h : Inside holderPid tree walk)
    (hpid : tree pid) : Inside holderPid tree (visit all walk pid) := by
  refine ⟨?_, ?_⟩
  · intro other hother
    rw [seen_visit, List.mem_cons] at hother
    rcases hother with heq | hseen
    · rw [heq]
      exact hpid
    · exact h.seen other hseen
  · intro other hother hallowed
    rw [mem_frontier_visit] at hother
    rcases hother with ⟨pgid, hnew, hmember⟩ | hchild | hstacked
    · obtain ⟨process, hprocess, hself, hpgid, hlarge⟩ := newGroup_eq_some hnew
      obtain ⟨member, hmem, hgroup, heq⟩ := mem_members.mp hmember
      rw [← heq] at hallowed ⊢
      refine htree.group process hprocess member hmem hallowed ?_ ?_ ?_
      · rw [hself]
        exact hpid
      · rw [hpgid]
        exact hlarge
      · rw [hgroup, hpgid]
    · obtain ⟨process, hprocess, hparent, heq⟩ := mem_children.mp hchild
      rw [← heq] at hallowed ⊢
      refine htree.child process hprocess hallowed ?_
      rw [hparent]
      exact hpid
    · exact h.stacked other hstacked hallowed

/-- **The walk sees nothing outside a tree.** -/
theorem walkFrom_least {tree : Int32 → Prop} (htree : Tree all holderPid root (1 < ·) tree)
    (walk : Walk) (h : Inside holderPid tree walk) :
    ∀ pid ∈ walkFrom all holderPid walk, tree pid := by
  induction walk using walkFrom.induct all holderPid with
  | case1 walk hfrontier =>
    rw [walkFrom_done hfrontier]
    exact h.seen
  | case2 walk pid frontier hfrontier hskip ih =>
    rw [walkFrom_cons hfrontier, if_pos hskip]
    refine ih ⟨h.seen, fun other hother => h.stacked other ?_⟩
    rw [hfrontier]
    exact List.mem_cons_of_mem pid hother
  | case3 walk pid frontier hfrontier hskip ih =>
    rw [walkFrom_cons hfrontier, if_neg hskip]
    have hallowed : Allowed holderPid pid :=
      ⟨Int32.not_le.mp fun hsmall => hskip (.inl hsmall), fun hholder => hskip (.inr (.inl hholder))⟩
    have htop : pid ∈ walk.frontier := by
      rw [hfrontier]
      exact List.mem_cons_self
    refine ih (Inside.visit htree ⟨h.seen, fun other hother => h.stacked other ?_⟩
      (h.stacked pid htop hallowed))
    rw [hfrontier]
    exact List.mem_cons_of_mem pid hother

/-! ### The walk leaves nothing out -/

/-- A pid that the walk has dealt with, or is going to. -/
def Met (holderPid : Int32) (walk : Walk) (pid : Int32) : Prop :=
  pid ∈ walk.seen ∨ pid ∈ walk.frontier ∨ ¬ Allowed holderPid pid

/-- Where the walk stands: every rule whose premise has been seen has its conclusion met. -/
structure Underway (all : List Observed) (holderPid root : Int32) (walk : Walk) : Prop where
  nodup : walk.seen.Nodup
  allowed : ∀ pid ∈ walk.seen, Allowed holderPid pid
  root : Met holderPid walk root
  child : ∀ process ∈ all, process.ppid ∈ walk.seen → Met holderPid walk process.pid
  scanned : ∀ process ∈ all, process.pid ∈ walk.seen → 1 < process.pgid →
    process.pgid ∈ walk.scannedGroups
  group : ∀ process ∈ all, process.pgid ∈ walk.scannedGroups → Met holderPid walk process.pid

theorem Met.mono {walk walk' : Walk} {pid : Int32} (h : Met holderPid walk pid)
    (hseen : ∀ other ∈ walk.seen, other ∈ walk'.seen)
    (hstacked : ∀ other ∈ walk.frontier,
      other ∈ walk'.seen ∨ other ∈ walk'.frontier ∨ ¬ Allowed holderPid other) :
    Met holderPid walk' pid := by
  rcases h with hin | hin | hout
  · exact .inl (hseen pid hin)
  · exact hstacked pid hin
  · exact .inr (.inr hout)

/-- A pid that is skipped needs no visit. -/
theorem Underway.skip {walk : Walk} {pid : Int32} {frontier : List Int32}
    (h : Underway all holderPid root walk) (hfrontier : walk.frontier = pid :: frontier)
    (hskip : pid ≤ 1 ∨ pid = holderPid ∨ pid ∈ walk.seen) :
    Underway all holderPid root { walk with frontier } := by
  have hmet : ∀ other, Met holderPid walk other → Met holderPid { walk with frontier } other := by
    intro other hother
    refine hother.mono (fun _ hseen => hseen) fun stacked hstacked => ?_
    rw [hfrontier, List.mem_cons] at hstacked
    rcases hstacked with heq | hstacked
    · subst heq
      rcases hskip with hsmall | hholder | hseen
      · exact .inr (.inr fun hallowed => absurd hsmall (Int32.not_le.mpr hallowed.1))
      · exact .inr (.inr fun hallowed => hallowed.2 hholder)
      · exact .inl hseen
    · exact .inr (.inl hstacked)
  exact ⟨h.nodup, h.allowed, hmet root h.root,
    fun process hprocess hparent => hmet _ (h.child process hprocess hparent), h.scanned,
    fun process hprocess hgroup => hmet _ (h.group process hprocess hgroup)⟩

theorem Underway.visit {walk : Walk} {pid : Int32} {frontier : List Int32}
    (hpids : (all.map Observed.pid).Nodup) (h : Underway all holderPid root walk)
    (hfrontier : walk.frontier = pid :: frontier) (hallowed : Allowed holderPid pid)
    (hnew : pid ∉ walk.seen) :
    Underway all holderPid root (visit all { walk with frontier } pid) := by
  have hmet : ∀ other, Met holderPid walk other →
      Met holderPid (ProcessTree.visit all { walk with frontier } pid) other := by
    intro other hother
    refine hother.mono (fun seen hseen => ?_) fun stacked hstacked => ?_
    · rw [seen_visit]
      exact List.mem_cons_of_mem pid hseen
    · rw [hfrontier, List.mem_cons] at hstacked
      rcases hstacked with heq | hstacked
      · left
        rw [seen_visit, heq]
        exact List.mem_cons_self
      · exact .inr (.inl (mem_frontier_visit.mpr (.inr (.inr hstacked))))
  refine ⟨?_, ?_, hmet root h.root, ?_, ?_, ?_⟩
  · rw [seen_visit]
    exact List.nodup_cons.mpr ⟨hnew, h.nodup⟩
  · intro other hother
    rw [seen_visit, List.mem_cons] at hother
    rcases hother with heq | hseen
    · rw [heq]
      exact hallowed
    · exact h.allowed other hseen
  · intro process hprocess hparent
    rw [seen_visit, List.mem_cons] at hparent
    rcases hparent with heq | hseen
    · exact .inr (.inl (mem_frontier_visit.mpr
        (.inr (.inl (mem_children.mpr ⟨process, hprocess, heq, rfl⟩)))))
    · exact hmet _ (h.child process hprocess hseen)
  · intro process hprocess hself hlarge
    rw [seen_visit, List.mem_cons] at hself
    rw [mem_scanned_visit]
    by_cases hscanned : process.pgid ∈ walk.scannedGroups
    · exact .inr hscanned
    rcases hself with heq | hseen
    · -- the lookup by pid finds this process, since pids are unique
      left
      have hfind := find_pid hpids hprocess
      rw [heq] at hfind
      unfold newGroup
      rw [hfind]
      simp [hlarge, hscanned]
    · exact .inr (h.scanned process hprocess hseen hlarge)
  · intro process hprocess hgroup
    rw [mem_scanned_visit] at hgroup
    rcases hgroup with hscans | hscanned
    · exact .inr (.inl (mem_frontier_visit.mpr
        (.inl ⟨_, hscans, mem_members.mpr ⟨process, hprocess, rfl, rfl⟩⟩)))
    · exact hmet _ (h.group process hprocess hscanned)

theorem walkFrom_underway (hpids : (all.map Observed.pid).Nodup) (walk : Walk)
    (h : Underway all holderPid root walk) :
    ∃ scannedGroups, Underway all holderPid root
      ⟨walkFrom all holderPid walk, scannedGroups, []⟩ := by
  induction walk using walkFrom.induct all holderPid with
  | case1 walk hfrontier =>
    refine ⟨walk.scannedGroups, ?_⟩
    rw [walkFrom_done hfrontier, ← hfrontier]
    exact h
  | case2 walk pid frontier hfrontier hskip ih =>
    rw [walkFrom_cons hfrontier, if_pos hskip]
    exact ih (h.skip hfrontier hskip)
  | case3 walk pid frontier hfrontier hskip ih =>
    rw [walkFrom_cons hfrontier, if_neg hskip]
    have hallowed : Allowed holderPid pid :=
      ⟨Int32.not_le.mp fun hsmall => hskip (.inl hsmall), fun hholder => hskip (.inr (.inl hholder))⟩
    exact ih (h.visit hpids hfrontier hallowed fun hseen => hskip (.inr (.inr hseen)))

theorem underway_start (root : Int32) : Underway all holderPid root ⟨[], [], [root]⟩ where
  nodup := List.nodup_nil
  allowed := fun _ h => absurd h List.not_mem_nil
  root := .inr (.inl List.mem_cons_self)
  child := fun _ _ h => absurd h List.not_mem_nil
  scanned := fun _ _ h => absurd h List.not_mem_nil
  group := fun _ _ h => absurd h List.not_mem_nil

theorem nodup_samples (startTime : Int32 → Option Int64) {pids : List Int32} (h : pids.Nodup) :
    ((pids.filterMap fun pid =>
      (startTime pid).map fun startSec => (⟨pid, startSec⟩ : HolderProcessSample)).map
        HolderProcessSample.pid).Nodup := by
  rw [List.map_filterMap]
  refine List.Nodup.filterMap ?_ h
  intro pid pid' sample hsample hsample'
  simp only [Option.mem_def, Option.map_eq_some_iff] at hsample hsample'
  obtain ⟨_, ⟨_, _, rfl⟩, rfl⟩ := hsample
  obtain ⟨_, ⟨_, _, rfl⟩, heq⟩ := hsample'
  exact heq.symm

/-! ### The result -/

theorem mem_walkFrom (hpids : (all.map Observed.pid).Nodup) (root pid : Int32) :
    pid ∈ walkFrom all holderPid ⟨[], [], [root]⟩ ↔ InTree all holderPid root (1 < ·) pid := by
  constructor
  · intro hpid tree htree
    refine walkFrom_least htree ⟨[], [], [root]⟩ ⟨?_, ?_⟩ pid hpid
    · intro other hother
      exact absurd hother List.not_mem_nil
    · intro other hother hallowed
      rw [List.mem_singleton.mp hother] at hallowed ⊢
      exact htree.root hallowed
  · intro hpid
    obtain ⟨scannedGroups, hdone⟩ := walkFrom_underway hpids ⟨[], [], [root]⟩
      (underway_start root)
    have hmet : ∀ other, Allowed holderPid other →
        Met holderPid ⟨walkFrom all holderPid ⟨[], [], [root]⟩, scannedGroups, []⟩ other →
          other ∈ walkFrom all holderPid ⟨[], [], [root]⟩ := by
      intro other hallowed hmet
      rcases hmet with hseen | hstacked | hout
      · exact hseen
      · exact absurd hstacked List.not_mem_nil
      · exact absurd hallowed hout
    refine hpid (· ∈ walkFrom all holderPid ⟨[], [], [root]⟩) ⟨?_, ?_, ?_⟩
    · intro hallowed
      exact hmet root hallowed hdone.root
    · intro process hprocess hallowed hparent
      exact hmet _ hallowed (hdone.child process hprocess hparent)
    · intro process hprocess other hother hallowed hself hlarge hsame
      refine hmet _ hallowed (hdone.group other hother ?_)
      rw [hsame]
      exact hdone.scanned process hprocess hself hlarge

/--
**The process tree is enumerated exactly.**  The result has, once each, the pids of the least set
that holds the root and is closed under children and under process groups from 2 on, without the
pids up to 1 and without the holder itself; of these, the ones that a fresh lookup still finds,
with the start time it gives.
-/
theorem enumerate_exact (all : List Observed) (holderPid root : Int32)
    (startTime : Int32 → Option Int64) (hpids : (all.map Observed.pid).Nodup) :
    (∀ sample, sample ∈ enumerate all holderPid startTime root ↔
      InTree all holderPid root (1 < ·) sample.pid ∧
        startTime sample.pid = some sample.startSec) ∧
      ((enumerate all holderPid startTime root).map HolderProcessSample.pid).Nodup := by
  unfold enumerate
  by_cases hroot : root ≤ 1
  · rw [if_pos hroot]
    refine ⟨fun sample => ⟨fun h => absurd h List.not_mem_nil, fun h => ?_⟩, List.nodup_nil⟩
    -- without a root nothing has to be in the tree
    refine (h.1 (fun _ => False) ⟨?_, ?_, ?_⟩).elim
    · intro hallowed
      exact absurd hroot (Int32.not_le.mpr hallowed.1)
    · intro process _ _ hparent
      exact hparent
    · intro process _ other _ _ hself _ _
      exact hself
  · rw [if_neg hroot]
    have htree := @mem_walkFrom all holderPid hpids root
    refine ⟨fun sample => ?_, ?_⟩
    · simp only [List.mem_filterMap, Option.map_eq_some_iff]
      constructor
      · rintro ⟨pid, hpid, startSec, hstart, rfl⟩
        exact ⟨(htree pid).mp hpid, hstart⟩
      · intro h
        exact ⟨sample.pid, (htree sample.pid).mpr h.1, sample.startSec, h.2, rfl⟩
    · obtain ⟨scannedGroups, hdone⟩ := walkFrom_underway hpids ⟨[], [], [root]⟩
        (underway_start root)
      exact nodup_samples startTime hdone.nodup

/-- A shell, its job in a group of its own, and the job's helper. -/
def jobs : List Observed := [⟨20, 10, 20⟩, ⟨30, 20, 30⟩, ⟨31, 1, 30⟩]

theorem enumerate_exact_jobs :
    InTree jobs 10 20 (1 < ·) 31 ∧
      (⟨31, 7⟩ : HolderProcessSample) ∈ enumerate jobs 10 (fun _ => some 7) 20 := by
  have htree : InTree jobs 10 20 (1 < ·) 31 := by
    intro tree htree
    have hshell : tree 20 := htree.root (by decide)
    have hjob : tree 30 := htree.child ⟨30, 20, 30⟩ (by decide) (by decide) hshell
    exact htree.group ⟨30, 20, 30⟩ (by decide) ⟨31, 1, 30⟩ (by decide) (by decide) hjob (by decide)
      rfl
  exact ⟨htree, ((enumerate_exact jobs 10 20 (fun _ => some 7) (by decide)).1 ⟨31, 7⟩).mpr
    ⟨htree, rfl⟩⟩

/--
Two processes of the process group of init, and a root that has exited: the group's other member
is left out, and so is the root.
-/
theorem small_group_left_out :
    (InTree [⟨20, 1, 1⟩, ⟨21, 1, 1⟩] 10 20 (fun _ => True) 21 ∧
      ∀ sample ∈ enumerate [⟨20, 1, 1⟩, ⟨21, 1, 1⟩] 10 (fun _ => some 7) 20,
        sample.pid ≠ 21) ∧
    (InTree [] 10 20 (fun _ => True) 20 ∧ enumerate [] 10 (fun _ => none) 20 = []) := by
  refine ⟨⟨?_, ?_⟩, ?_, ?_⟩
  · intro tree htree
    exact htree.group ⟨20, 1, 1⟩ (by decide) ⟨21, 1, 1⟩ (by decide) (by decide)
      (htree.root (by decide)) trivial rfl
  · intro sample hsample hpid
    have hexact := enumerate_exact [⟨20, 1, 1⟩, ⟨21, 1, 1⟩] 10 20 (fun _ => some 7) (by decide)
    have htree := ((hexact.1 sample).mp hsample).1
    rw [hpid] at htree
    have halone : Tree [⟨20, 1, 1⟩, ⟨21, 1, 1⟩] 10 20 (1 < ·) (· = 20) := by
      refine ⟨fun _ => rfl, ?_, ?_⟩
      · decide
      · intro process hprocess other _ _ _ hlarge _
        simp only [List.mem_cons, List.not_mem_nil, or_false] at hprocess
        rcases hprocess with rfl | rfl
        · exact absurd hlarge (by decide)
        · exact absurd hlarge (by decide)
    exact absurd (htree (· = 20) halone) (by decide)
  · intro tree htree
    exact htree.root (by decide)
  · refine List.eq_nil_iff_forall_not_mem.mpr fun sample hsample => ?_
    have hexact := enumerate_exact [] 10 20 (fun _ => none) (by decide)
    cases ((hexact.1 sample).mp hsample).2

end Homie.ProcessTree
