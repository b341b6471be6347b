/-
What the release tool spares.

A relation is one word, and the guard of the tool reads that word.  The walk up from the caller
finds exactly the ancestors that have a record, but two of them carry another word: the direct
parent, and an ancestor that is at the same time a child.  The guard knows neither, so the line
above the caller is safe only as long as the target is none of them, and was in the line already
when the guard looked.
-/
import Homie.Engine.Lineage
import Homie.Lib.Forest

namespace Homie.Lineage

open Forest (Ancestor)

variable {lineage : Lineage} {seen : List String} {cursor : Option String} {x y : String}

/-! ### The walk up -/

theorem record_isSome_of_parentOf (h : lineage.parentOf x = some y) :
    (lineage.record x).isSome = true := by
  obtain ⟨record, hrecord, _⟩ := Option.bind_eq_some_iff.mp h
  rw [hrecord]
  rfl

/-- What the walk emits has a record, was not seen before, and lies on the way up. -/
theorem ancestorsLoop_sound {r : SessionRecord} (h : r ∈ lineage.ancestorsLoop seen cursor) :
    r.id ∉ seen ∧ (lineage.record r.id).isSome = true ∧
      ∃ start, cursor = some start ∧ (r.id = start ∨ Ancestor lineage.parentOf start r.id) := by
  induction seen, cursor using ancestorsLoop.induct lineage with
  | case1 seen =>
    rw [ancestorsLoop] at h
    cases h
  | case2 seen current hseen =>
    rw [ancestorsLoop, if_pos hseen] at h
    cases h
  | case3 seen current hseen hnone =>
    rw [ancestorsLoop, if_neg hseen] at h
    split at h
    · cases h
    · next record hsome => rw [hnone] at hsome; cases hsome
  | case4 seen current hseen record hrecord ih =>
    rw [ancestorsLoop, if_neg hseen] at h
    split at h
    · cases h
    · next record' hrecord' =>
        rw [hrecord] at hrecord'
        cases hrecord'
        obtain ⟨_, hid⟩ := record_eq_some hrecord
        rcases List.mem_cons.mp h with rfl | h
        · rw [hid]
          exact ⟨hseen, by rw [hrecord]; rfl, current, rfl, Or.inl rfl⟩
        · obtain ⟨hnew, hsome, start, hstart, hup⟩ := ih h
          have hparent : lineage.parentOf current = some start := by
            rw [parentOf, hrecord, Option.bind_some, hstart]
          have habove := (Forest.ancestor_iff (z := r.id) hparent).mpr hup
          exact ⟨fun hin => hnew (List.mem_cons_of_mem _ hin), hsome, current, rfl,
            Or.inr habove⟩

/-- Whatever the walk has come to, it has come to the parent too, unless that has no record. -/
theorem ancestorsLoop_closed
    (hclosed : ∀ x ∈ seen, ∀ y, lineage.parentOf x = some y → y ∈ seen ∨ cursor = some y) :
    ∀ x, (x ∈ seen ∨ ∃ r ∈ lineage.ancestorsLoop seen cursor, r.id = x) →
      ∀ y, lineage.parentOf x = some y →
        y ∈ seen ∨ (∃ r ∈ lineage.ancestorsLoop seen cursor, r.id = y) ∨
          lineage.record y = none := by
  induction seen, cursor using ancestorsLoop.induct lineage with
  | case1 seen =>
    rw [ancestorsLoop]
    intro x hx y hy
    rcases hx with hx | ⟨r, hr, _⟩
    · rcases hclosed x hx y hy with hin | hnone
      · exact Or.inl hin
      · cases hnone
    · cases hr
  | case2 seen current hseen =>
    rw [ancestorsLoop, if_pos hseen]
    intro x hx y hy
    rcases hx with hx | ⟨r, hr, _⟩
    · rcases hclosed x hx y hy with hin | hcurrent
      · exact Or.inl hin
      · rw [← Option.some.inj hcurrent]
        exact Or.inl hseen
    · cases hr
  | case3 seen current hseen hnone =>
    intro x hx y hy
    have hempty : lineage.ancestorsLoop seen (some current) = [] := by
      rw [ancestorsLoop, if_neg hseen]
      split
      · rfl
      · next record hsome => rw [hnone] at hsome; cases hsome
    rw [hempty] at hx ⊢
    rcases hx with hx | ⟨r, hr, _⟩
    · rcases hclosed x hx y hy with hin | hcurrent
      · exact Or.inl hin
      · rw [← Option.some.inj hcurrent]
        exact Or.inr (Or.inr hnone)
    · cases hr
  | case4 seen current hseen record hrecord ih =>
    have hloop : lineage.ancestorsLoop seen (some current) =
        record :: lineage.ancestorsLoop (current :: seen) record.parent := by
      rw [ancestorsLoop, if_neg hseen]
      split
      · next hnone => rw [hrecord] at hnone; cases hnone
      · next record' hrecord' => rw [hrecord] at hrecord'; cases hrecord'; rfl
    obtain ⟨_, hid⟩ := record_eq_some hrecord
    have hparent : lineage.parentOf current = record.parent := by
      rw [parentOf, hrecord, Option.bind_some]
    have hnext : ∀ x ∈ current :: seen, ∀ y, lineage.parentOf x = some y →
        y ∈ current :: seen ∨ record.parent = some y := by
      intro x hx y hy
      rcases List.mem_cons.mp hx with rfl | hx
      · exact Or.inr (hparent.symm.trans hy)
      · rcases hclosed x hx y hy with hin | hcurrent
        · exact Or.inl (List.mem_cons_of_mem _ hin)
        · rw [← Option.some.inj hcurrent]
          exact Or.inl List.mem_cons_self
    rw [hloop]
    intro x hx y hy
    have hx' : x ∈ current :: seen ∨
        ∃ r ∈ lineage.ancestorsLoop (current :: seen) record.parent, r.id = x := by
      rcases hx with hx | ⟨r, hr, hrx⟩
      · exact Or.inl (List.mem_cons_of_mem _ hx)
      · rcases List.mem_cons.mp hr with rfl | hr
        · rw [← hrx, hid]
          exact Or.inl List.mem_cons_self
        · exact Or.inr ⟨r, hr, hrx⟩
    rcases ih hnext x hx' y hy with hin | ⟨r, hr, hry⟩ | hnone
    · rcases List.mem_cons.mp hin with rfl | hin
      · exact Or.inr (Or.inl ⟨record, List.mem_cons_self, hid⟩)
      · exact Or.inl hin
    · exact Or.inr (Or.inl ⟨r, List.mem_cons_of_mem _ hr, hry⟩)
    · exact Or.inr (Or.inr hnone)

theorem mem_ancestorsOf {caller target : String} :
    (∃ r ∈ lineage.ancestorsOf caller, r.id = target) ↔
      caller ≠ target ∧ Ancestor lineage.parentOf caller target ∧
        (lineage.record target).isSome = true := by
  unfold ancestorsOf
  constructor
  · intro h
    obtain ⟨r, hr, rfl⟩ := h
    obtain ⟨hnew, hsome, start, hstart, hup⟩ := ancestorsLoop_sound hr
    exact ⟨fun heq => hnew (by rw [← heq]; exact List.mem_cons_self),
      (Forest.ancestor_iff hstart).mpr hup, hsome⟩
  · intro ⟨hne, hup, hsome⟩
    have hstart : ∀ x ∈ [caller], ∀ y, lineage.parentOf x = some y →
        y ∈ [caller] ∨ lineage.parentOf caller = some y := by
      intro x hx y hy
      rw [List.mem_singleton.mp hx] at hy
      exact Or.inr hy
    have hclosed := ancestorsLoop_closed hstart
    -- every ancestor with a record is seen or emitted, from the caller upwards
    have hall : ∀ z, Ancestor lineage.parentOf caller z → (lineage.record z).isSome = true →
        z ∈ [caller] ∨
          ∃ r ∈ lineage.ancestorsLoop [caller] (lineage.parentOf caller), r.id = z := by
      intro z hz
      induction hz with
      | single hlink =>
        intro hz
        rcases hclosed caller (Or.inl List.mem_cons_self) _ hlink with hin | hin | hnone
        · exact Or.inl hin
        · exact Or.inr hin
        · rw [hnone] at hz; cases hz
      | tail _ hlink ih =>
        intro hz
        rcases hclosed _ (ih (record_isSome_of_parentOf hlink)) _ hlink with hin | hin | hnone
        · exact Or.inl hin
        · exact Or.inr hin
        · rw [hnone] at hz; cases hz
    rcases hall target hup hsome with hin | hin
    · exact absurd (List.mem_singleton.mp hin).symm hne
    · exact hin

/-! ### The word for a relation -/

section Words

variable {caller target : String} (hcaller : lineage.caller = some caller)

include hcaller

theorem relationTo_eq_caller_iff : lineage.relationTo target = .caller ↔ caller = target := by
  simp only [relationTo, hcaller]
  split_ifs <;> simp_all

theorem relationTo_eq_parent_iff :
    lineage.relationTo target = .parent ↔
      caller ≠ target ∧ lineage.parentOf caller = some target := by
  simp only [relationTo, hcaller]
  split_ifs <;> simp_all

theorem relationTo_eq_ancestor_iff :
    lineage.relationTo target = .ancestor ↔
      caller ≠ target ∧ lineage.parentOf caller ≠ some target ∧
        lineage.parentOf target ≠ some caller ∧ Ancestor lineage.parentOf caller target ∧
          (lineage.record target).isSome = true := by
  have hwalk := @mem_ancestorsOf lineage caller target
  have hany : (lineage.ancestorsOf caller).any (·.id = target) = true ↔
      ∃ r ∈ lineage.ancestorsOf caller, r.id = target := by
    simp
  rw [← hany] at hwalk
  simp only [relationTo, hcaller]
  split_ifs <;> simp_all

end Words

/-! ### The release -/

section Release

variable {caller : Option String} {checked registry : Registry} {id : String}
variable {outcome : Except String Remote.Exit}

theorem releaseAgent_ends_iff :
    x ∈ registry.sessions ∧ x ∉ (releaseAgent caller checked registry id outcome).1.sessions ↔
      x = id ∧ id ∈ registry.sessions ∧ (checked.lineage caller).relationTo id ≠ .caller ∧
        (checked.lineage caller).relationTo id ≠ .ancestor := by
  have hterminate : (registry.terminate id outcome).1.sessions = registry.sessions.erase id := by
    unfold Registry.terminate
    split
    · cases outcome <;> rfl
    · next hgone => rw [Finset.erase_eq_of_notMem hgone]
  have hsessions : (releaseAgent caller checked registry id outcome).1.sessions =
      if (checked.lineage caller).relationTo id = .caller ∨
          (checked.lineage caller).relationTo id = .ancestor
      then registry.sessions else registry.sessions.erase id := by
    rw [← hterminate]
    unfold releaseAgent
    cases hword : (checked.lineage caller).relationTo id <;> simp <;> split <;> simp_all
  rw [hsessions]
  split
  · next hguard =>
      constructor
      · intro ⟨hin, hout⟩
        exact absurd hin hout
      · intro ⟨_, _, hcaller, hancestor⟩
        rcases hguard with hword | hword
        · exact absurd hword hcaller
        · exact absurd hword hancestor
  · next hguard =>
      rw [not_or] at hguard
      constructor
      · intro ⟨hin, hout⟩
        have heq : x = id := by
          by_contra hne
          exact hout (Finset.mem_erase.mpr ⟨hne, hin⟩)
        rw [heq] at hin
        exact ⟨heq, hin, hguard⟩
      · intro ⟨heq, hlive, _⟩
        rw [heq]
        exact ⟨hlive, Finset.notMem_erase id _⟩

/-- The session is the caller, or above it. -/
def InLine (lineage : Lineage) (id : String) : Prop :=
  ∃ caller, lineage.caller = some caller ∧
    (caller = id ∨ Ancestor lineage.parentOf caller id)

/-- The session is the caller, or an ancestor with a record that is neither the direct parent nor
a direct child. -/
def Sheltered (lineage : Lineage) (id : String) : Prop :=
  ∃ caller, lineage.caller = some caller ∧
    (caller = id ∨ Ancestor lineage.parentOf caller id ∧ (lineage.record id).isSome = true ∧
      lineage.parentOf caller ≠ some id ∧ lineage.parentOf id ≠ some caller)

/-- No link above the caller's own leads to an id without a record. -/
def Linked (lineage : Lineage) : Prop :=
  ∀ caller x y, lineage.caller = some caller → Ancestor lineage.parentOf caller x →
    lineage.parentOf x = some y → (lineage.record y).isSome = true

/-- A call ends no session that is in the line of the caller. -/
def SparesLine (caller : Option String) (checked registry : Registry) (id : String)
    (outcome : Except String Remote.Exit) : Prop :=
  ∀ x, x ∈ registry.sessions →
    x ∉ (releaseAgent caller checked registry id outcome).1.sessions →
      ¬(registry.lineage caller).InLine x

/-- The ancestors of the caller, apart from itself and its children, are called so. -/
def NamesLine (lineage : Lineage) : Prop :=
  ∀ caller target, lineage.caller = some caller → Ancestor lineage.parentOf caller target →
    caller ≠ target → lineage.parentOf target ≠ some caller →
      lineage.relationTo target = .parent ∨ lineage.relationTo target = .ancestor

theorem refused_iff : lineage.relationTo x = .caller ∨ lineage.relationTo x = .ancestor ↔
    lineage.Sheltered x := by
  cases hcaller : lineage.caller with
  | none =>
    constructor
    · intro h
      simp [relationTo, hcaller] at h
    · intro ⟨caller, hsome, _⟩
      rw [hcaller] at hsome
      cases hsome
  | some caller =>
    rw [relationTo_eq_caller_iff hcaller, relationTo_eq_ancestor_iff hcaller]
    constructor
    · intro h
      refine ⟨caller, hcaller, ?_⟩
      rcases h with heq | ⟨_, hparent, hchild, hup, hrecord⟩
      · exact Or.inl heq
      · exact Or.inr ⟨hup, hrecord, hparent, hchild⟩
    · intro ⟨c, hc, h⟩
      rw [hcaller] at hc
      cases hc
      by_cases heq : caller = x
      · exact Or.inl heq
      · rcases h with h | ⟨hup, hrecord, hparent, hchild⟩
        · exact absurd h heq
        · exact Or.inr ⟨heq, hparent, hchild, hup, hrecord⟩

theorem sparesLine_iff : SparesLine caller checked registry id outcome ↔
    (id ∈ registry.sessions → (registry.lineage caller).InLine id →
      (checked.lineage caller).Sheltered id) := by
  rw [← refused_iff]
  constructor
  · intro hspares hlive hline
    by_contra hpass
    rw [not_or] at hpass
    have hends := (@releaseAgent_ends_iff _ _ _ _ _ outcome).mpr ⟨rfl, hlive, hpass⟩
    exact hspares id hends.1 hends.2 hline
  · intro hguard x hin hout hline
    obtain ⟨heq, hlive, hcaller, hancestor⟩ := releaseAgent_ends_iff.mp ⟨hin, hout⟩
    rw [heq] at hline
    rcases hguard hlive hline with hword | hword
    · exact hcaller hword
    · exact hancestor hword

theorem namesLine_iff : lineage.NamesLine ↔ lineage.Linked := by
  constructor
  · intro hnames caller x y hcaller hx hy
    by_contra hnone
    rw [Bool.not_eq_true, Option.isSome_eq_false_iff, Option.isNone_iff_eq_none] at hnone
    have hroot : lineage.parentOf y = none := by rw [parentOf, hnone, Option.bind_none]
    have hup := hx.tail hy
    have hself : caller ≠ y := by
      intro heq
      exact Forest.not_ancestor_of_root (heq ▸ hroot) hup
    have hchild : lineage.parentOf y ≠ some caller := by
      rw [hroot]
      exact nofun
    rcases hnames caller y hcaller hup hself hchild with hword | hword
    · -- the direct parent has no ancestor `x` with a link back to it
      obtain ⟨_, hdirect⟩ := (relationTo_eq_parent_iff hcaller).mp hword
      rcases (Forest.ancestor_iff hdirect).mp hx with heq | hxup
      · rw [heq, hroot] at hy
        cases hy
      · exact Forest.not_ancestor_of_root hroot hxup
    · obtain ⟨_, _, _, _, hsome⟩ := (relationTo_eq_ancestor_iff hcaller).mp hword
      rw [hnone] at hsome
      cases hsome
  · intro hlinked caller target hcaller hup hself hchild
    by_cases hparent : lineage.parentOf caller = some target
    · exact Or.inl ((relationTo_eq_parent_iff hcaller).mpr ⟨hself, hparent⟩)
    · refine Or.inr ((relationTo_eq_ancestor_iff hcaller).mpr
        ⟨hself, hparent, hchild, hup, ?_⟩)
      rcases Relation.TransGen.tail'_iff.mp hup with ⟨x, hx, hlink⟩
      rcases Relation.reflTransGen_iff_eq_or_transGen.mp hx with heq | hx
      · rw [heq] at hlink
        exact absurd hlink hparent
      · exact hlinked caller x target hcaller hx hlink

/-- **When the line above the caller is safe.**  A release ends no session in the line of the
caller, and every ancestor is called a parent or an ancestor, exactly when a live target that is in
the line at the termination was sheltered at the check, and no link above the caller's own leads to
an id without a record. -/
theorem releaseAgent_spares_line_iff (caller : Option String) (checked registry : Registry)
    (id : String) (outcome : Except String Remote.Exit) :
    SparesLine caller checked registry id outcome ∧ (checked.lineage caller).NamesLine ↔
      (id ∈ registry.sessions → (registry.lineage caller).InLine id →
        (checked.lineage caller).Sheltered id) ∧ (checked.lineage caller).Linked := by
  rw [sparesLine_iff, namesLine_iff]

/-- A session and the one that spawned it. -/
def family : Registry :=
  ⟨[⟨"lead", none, .working⟩, ⟨"worker", some "lead", .working⟩], {"lead", "worker"}⟩

/-- The direct parent carries a word of its own, which the guard does not list. -/
theorem worker_releases_lead :
    ¬SparesLine (some "worker") family family "lead" (.ok (.code 0)) := by
  intro hspares
  have hline : (family.lineage (some "worker")).InLine "lead" :=
    ⟨"worker", rfl, Or.inr (Relation.TransGen.single (by decide))⟩
  exact hspares "lead" (by decide) (by decide) hline

end Release

end Homie.Lineage
