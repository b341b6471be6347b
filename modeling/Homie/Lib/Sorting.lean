/-
Sorting by a comparison that may tell any two elements apart.

A comparison is a function to `Ordering`, and a list is sorted by it with the library's merge sort.
Where the comparison takes no two different elements for equal, the sorted list depends on the
elements alone, and two comparisons sort a list alike exactly when they agree on it.
-/
import Mathlib

namespace Homie.Sorting

variable {α : Type} {l l' : List α}

def sortBy (cmp : α → α → Ordering) (l : List α) : List α :=
  l.mergeSort fun left right => (cmp left right).isLE

theorem perm_sortBy (cmp : α → α → Ordering) (l : List α) : (sortBy cmp l).Perm l :=
  List.mergeSort_perm l _

theorem mem_sortBy {cmp : α → α → Ordering} {a : α} : a ∈ sortBy cmp l ↔ a ∈ l :=
  (perm_sortBy cmp l).mem_iff

/-- The comparison takes no two different elements of the list for equal. -/
def Separates (cmp : α → α → Ordering) (l : List α) : Prop :=
  ∀ a ∈ l, ∀ b ∈ l, cmp a b = .eq → a = b

theorem lt_of_isLE {cmp : α → α → Ordering} {a b : α} (hsep : Separates cmp l) (ha : a ∈ l)
    (hb : b ∈ l) (hne : a ≠ b) (h : (cmp a b).isLE = true) : cmp a b = .lt := by
  cases hcmp : cmp a b with
  | lt => rfl
  | eq => exact absurd (hsep a ha b hb hcmp) hne
  | gt => rw [hcmp] at h; cases h

section OneOrder

variable {cmp : α → α → Ordering} [Std.TransCmp cmp]

theorem pairwise_sortBy (cmp : α → α → Ordering) [Std.TransCmp cmp] (l : List α) :
    (sortBy cmp l).Pairwise fun left right => (cmp left right).isLE := by
  refine List.pairwise_mergeSort ?_ ?_ l
  · intro a b c hab hbc
    exact Std.TransCmp.isLE_trans hab hbc
  · intro a b
    rw [@Std.OrientedCmp.eq_swap _ cmp _ b a]
    cases cmp a b <;> rfl

/-- The sorted list depends on the elements alone. -/
theorem sortBy_eq_of_perm (hsep : Separates cmp l) (hperm : l.Perm l') :
    sortBy cmp l = sortBy cmp l' := by
  refine List.Perm.eq_of_pairwise ?_ (pairwise_sortBy cmp l) (pairwise_sortBy cmp l') ?_
  · intro a b ha hb hab hba
    have ha' : a ∈ l := mem_sortBy.mp ha
    have hb' : b ∈ l := hperm.mem_iff.mpr (mem_sortBy.mp hb)
    by_contra hne
    have hlt := lt_of_isLE hsep ha' hb' hne hab
    have hgt := lt_of_isLE hsep hb' ha' (Ne.symm hne) hba
    rw [@Std.OrientedCmp.eq_swap _ cmp, hgt] at hlt
    cases hlt
  · exact (perm_sortBy cmp l).trans (hperm.trans (perm_sortBy cmp l').symm)

/-- In a list without repetition the sorted list is sorted strictly. -/
theorem pairwise_lt_sortBy (hsep : Separates cmp l) (hnodup : l.Nodup) :
    (sortBy cmp l).Pairwise fun left right => cmp left right = .lt := by
  have hnodup' := (perm_sortBy cmp l).nodup_iff.mpr hnodup
  refine List.Pairwise.imp_of_mem ?_ ((pairwise_sortBy cmp l).and hnodup')
  intro a b ha hb hab
  exact lt_of_isLE hsep (mem_sortBy.mp ha) (mem_sortBy.mp hb) hab.2 hab.1

end OneOrder

/-- Comparisons that agree on a list sort it alike. -/
theorem sortBy_congr {cmp cmp' : α → α → Ordering}
    (h : ∀ a ∈ l, ∀ b ∈ l, cmp a b = cmp' a b) : sortBy cmp l = sortBy cmp' l := by
  have hmap := List.map_mergeSort (r := fun a b => (cmp a b).isLE)
    (s := fun a b => (cmp' a b).isLE) (f := id) (l := l) fun a ha b hb => by
      rw [h a ha b hb]
      rfl
  rwa [List.map_id, List.map_id] at hmap

/-- Sorting commutes with a function that the comparisons respect. -/
theorem map_sortBy {β : Type} {cmp : α → α → Ordering} {cmp' : β → β → Ordering} {f : α → β}
    (h : ∀ a ∈ l, ∀ b ∈ l, cmp a b = cmp' (f a) (f b)) :
    (sortBy cmp l).map f = sortBy cmp' (l.map f) :=
  List.map_mergeSort fun a ha b hb => by rw [h a ha b hb]

/-- Two comparisons that separate a list sort it alike exactly when they agree on it. -/
theorem sortBy_eq_iff {cmp cmp' : α → α → Ordering} [Std.TransCmp cmp] [Std.TransCmp cmp']
    (hsep : Separates cmp l) (hsep' : Separates cmp' l) :
    sortBy cmp l = sortBy cmp' l ↔ ∀ a ∈ l, ∀ b ∈ l, cmp a b = cmp' a b := by
  refine ⟨?_, sortBy_congr⟩
  intro heq
  have hpair := pairwise_sortBy cmp l
  have hpair' := pairwise_sortBy cmp' l
  rw [← heq] at hpair'
  have hagree : ∀ {a b : α}, a ∈ sortBy cmp l → b ∈ sortBy cmp l →
      (cmp a b).isLE = true ∧ (cmp' a b).isLE = true → cmp a b = cmp' a b := by
    intro a b ha hb hab
    by_cases heq : a = b
    · rw [heq, @Std.ReflCmp.compare_self _ cmp, @Std.ReflCmp.compare_self _ cmp']
    · rw [lt_of_isLE hsep (mem_sortBy.mp ha) (mem_sortBy.mp hb) heq hab.1,
        lt_of_isLE hsep' (mem_sortBy.mp ha) (mem_sortBy.mp hb) heq hab.2]
  intro a ha b hb
  have ha' : a ∈ sortBy cmp l := mem_sortBy.mpr ha
  have hb' : b ∈ sortBy cmp l := mem_sortBy.mpr hb
  refine List.Pairwise.forall_of_forall_of_flip (R := fun a b => cmp a b = cmp' a b) ?_ ?_ ?_
    ha' hb'
  · intro x _
    rw [@Std.ReflCmp.compare_self _ cmp, @Std.ReflCmp.compare_self _ cmp']
  · exact List.Pairwise.imp_of_mem hagree (hpair.and hpair')
  · refine List.Pairwise.imp_of_mem ?_ (hpair.and hpair')
    intro x y hx hy hxy
    have h := hagree hx hy hxy
    change cmp y x = cmp' y x
    rw [@Std.OrientedCmp.eq_swap _ cmp, h, ← @Std.OrientedCmp.eq_swap _ cmp']

end Homie.Sorting
