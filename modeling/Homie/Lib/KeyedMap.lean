/-
Finite maps whose values carry their own key.

The map is the list of its values, in the order it hands them out; no key comes twice.
-/
import Mathlib

namespace Homie

structure KeyedMap {α κ : Type} (key : α → κ) where
  values : List α
  keyed : (values.map key).Nodup

namespace KeyedMap

variable {α κ : Type} [DecidableEq κ] {key : α → κ}

def empty : KeyedMap key := ⟨[], List.nodup_nil⟩

def get (m : KeyedMap key) (k : κ) : Option α := m.values.find? (key · = k)

def erase (m : KeyedMap key) (k : κ) : KeyedMap key where
  values := m.values.filter (key · ≠ k)
  keyed := m.keyed.sublist (List.filter_sublist.map key)

/-- The value takes the place of the one with its key. -/
def insert (m : KeyedMap key) (a : α) : KeyedMap key where
  values := (m.erase (key a)).values ++ [a]
  keyed := by
    rw [List.map_append, List.map_singleton]
    refine List.nodup_append.mpr ⟨(m.erase (key a)).keyed, List.nodup_singleton _, ?_⟩
    intro k hk j hj
    obtain ⟨b, hb, rfl⟩ := List.mem_map.mp hk
    rw [List.mem_singleton.mp hj]
    simpa using (List.mem_filter.mp hb).2

/-- A later value takes the place of an earlier one with its key. -/
def ofList (l : List α) : KeyedMap key := l.foldl insert empty

variable (m : KeyedMap key)

theorem get_eq_some {k : κ} {a : α} : m.get k = some a ↔ a ∈ m.values ∧ key a = k := by
  unfold get
  constructor
  · intro h
    exact ⟨List.mem_of_find?_eq_some h, by simpa using List.find?_some h⟩
  · rintro ⟨ha, rfl⟩
    cases hfind : m.values.find? (key · = key a) with
    | none => simpa using List.find?_eq_none.mp hfind a ha
    | some b =>
      have hb := List.mem_of_find?_eq_some hfind
      have hkey : key b = key a := by simpa using List.find?_some hfind
      rw [List.inj_on_of_nodup_map m.keyed hb ha hkey]

theorem get_eq_none {k : κ} : m.get k = none ↔ ∀ a ∈ m.values, key a ≠ k := by
  unfold get
  simp

theorem key_of_get {k : κ} {a : α} (h : m.get k = some a) : key a = k :=
  (m.get_eq_some.mp h).2

@[simp] theorem get_empty (k : κ) : (empty : KeyedMap key).get k = none := rfl

theorem get_erase (k j : κ) : (m.erase k).get j = if j = k then none else m.get j := by
  by_cases hjk : j = k
  · rw [if_pos hjk, get_eq_none]
    intro a ha
    rw [hjk]
    simpa using (List.mem_filter.mp ha).2
  · rw [if_neg hjk]
    cases hj : m.get j with
    | none =>
      rw [get_eq_none] at hj ⊢
      exact fun a ha => hj a (List.mem_filter.mp ha).1
    | some a =>
      rw [get_eq_some] at hj ⊢
      refine ⟨List.mem_filter.mpr ⟨hj.1, ?_⟩, hj.2⟩
      simpa [hj.2] using hjk

theorem get_insert (a : α) (j : κ) :
    (m.insert a).get j = if j = key a then some a else m.get j := by
  by_cases hj : j = key a
  · rw [if_pos hj, get_eq_some]
    exact ⟨List.mem_append_right _ (List.mem_singleton.mpr rfl), hj.symm⟩
  · rw [if_neg hj]
    have herase := m.get_erase (key a) j
    rw [if_neg hj] at herase
    rw [← herase]
    unfold get insert
    rw [List.find?_append, List.find?_singleton, if_neg (by simpa using Ne.symm hj),
      Option.or_none]

/-- Collecting values whose keys are different finds each of them. -/
theorem get_ofList {l : List α} (hl : (l.map key).Nodup) (k : κ) :
    (ofList l : KeyedMap key).get k = l.find? (key · = k) := by
  have hfold : ∀ (l : List α) (start : KeyedMap key), (l.map key).Nodup →
      (l.foldl insert start).get k = (l.find? (key · = k)).or (start.get k) := by
    intro l
    induction l with
    | nil => intro start _; rfl
    | cons a l ih =>
      intro start hnodup
      obtain ⟨hnew, hrest⟩ := List.nodup_cons.mp hnodup
      rw [List.foldl_cons, ih _ hrest, get_insert, List.find?_cons]
      by_cases hk : key a = k
      · have hnone : l.find? (key · = k) = none := by
          rw [List.find?_eq_none]
          intro b hb
          simp only [decide_eq_true_eq]
          rintro rfl
          exact hnew (hk ▸ List.mem_map_of_mem hb)
        simp [hk, hnone]
      · simp [hk, Ne.symm hk]
  have h := hfold l empty hl
  rw [get_empty, Option.or_none] at h
  exact h

/-- Collecting the values of a map gives the map back. -/
theorem get_ofList_values (k : κ) : (ofList m.values : KeyedMap key).get k = m.get k :=
  get_ofList m.keyed k

/-- Collecting them in another order does, too. -/
theorem get_ofList_of_perm {l : List α} (h : l.Perm m.values) (k : κ) :
    (ofList l : KeyedMap key).get k = m.get k := by
  have hkeys : (l.map key).Nodup := (h.map key).nodup_iff.mpr m.keyed
  rw [get_ofList hkeys k]
  refine Option.ext fun a => ?_
  have hl := (⟨l, hkeys⟩ : KeyedMap key).get_eq_some (k := k) (a := a)
  exact hl.trans (((and_congr_left' h.mem_iff)).trans m.get_eq_some.symm)

/-- What was collected was in the list. -/
theorem mem_of_mem_ofList {l : List α} {a : α} (h : a ∈ (ofList l : KeyedMap key).values) :
    a ∈ l := by
  have hfold : ∀ (l : List α) (start : KeyedMap key), a ∈ (l.foldl insert start).values →
      a ∈ start.values ∨ a ∈ l := by
    intro l
    induction l with
    | nil => exact fun start h => Or.inl h
    | cons b l ih =>
      intro start h
      rcases ih (start.insert b) h with hstart | hl
      · rcases List.mem_append.mp hstart with hold | hnew
        · exact Or.inl (List.mem_filter.mp hold).1
        · exact Or.inr (List.mem_cons.mpr (Or.inl (List.mem_singleton.mp hnew)))
      · exact Or.inr (List.mem_cons_of_mem b hl)
  exact (hfold l empty h).resolve_left List.not_mem_nil

/-- Collecting the images of values, under a function that keeps their keys. -/
theorem get_foldl_insert_map {f : α → α} (hf : ∀ a, key (f a) = key a) {k : κ} (l : List α)
    {start start' : KeyedMap key} (h : start.get k = (start'.get k).map f) :
    (l.foldl (fun collected a => collected.insert (f a)) start).get k
      = ((l.foldl insert start').get k).map f := by
  induction l generalizing start start' with
  | nil => exact h
  | cons a l ih =>
    refine ih ?_
    rw [get_insert, get_insert, hf]
    by_cases hk : k = key a
    · rw [if_pos hk, if_pos hk, Option.map_some]
    · rw [if_neg hk, if_neg hk, h]

end KeyedMap

end Homie
