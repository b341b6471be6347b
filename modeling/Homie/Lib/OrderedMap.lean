/-
Finite maps in the order of their keys.

The map is the list of its entries, sorted by key, and a key comes once; so the first and the last
key are the ends of the list and taking them away leaves a map.
-/
import Mathlib

namespace Homie

structure OrderedMap (κ ν : Type) [LinearOrder κ] where
  entries : List (κ × ν)
  sorted : entries.Pairwise (·.1 < ·.1)

namespace OrderedMap

variable {κ ν : Type} [LinearOrder κ]

def empty : OrderedMap κ ν := ⟨[], List.Pairwise.nil⟩

def keys (m : OrderedMap κ ν) : List κ := m.entries.map (·.1)

def size (m : OrderedMap κ ν) : Nat := m.entries.length

def get (m : OrderedMap κ ν) (k : κ) : Option ν := (m.entries.find? (·.1 = k)).map (·.2)

/-- The entry takes the place of the one with its key. -/
def insertEntry (k : κ) (v : ν) : List (κ × ν) → List (κ × ν)
  | [] => [(k, v)]
  | entry :: rest =>
    if k < entry.1 then (k, v) :: entry :: rest
    else if k = entry.1 then (k, v) :: rest
    else entry :: insertEntry k v rest

theorem mem_insertEntry {k : κ} {v : ν} {entries : List (κ × ν)} {entry : κ × ν}
    (h : entry ∈ insertEntry k v entries) : entry = (k, v) ∨ entry ∈ entries := by
  induction entries with
  | nil => exact .inl (List.mem_singleton.mp h)
  | cons first rest ih =>
    unfold insertEntry at h
    split at h
    · exact List.mem_cons.mp h
    · split at h
      · exact (List.mem_cons.mp h).imp_right (List.mem_cons_of_mem first)
      · rcases List.mem_cons.mp h with rfl | hrest
        · exact .inr List.mem_cons_self
        · exact (ih hrest).imp_right (List.mem_cons_of_mem first)

theorem sorted_insertEntry (k : κ) (v : ν) {entries : List (κ × ν)}
    (h : entries.Pairwise (·.1 < ·.1)) : (insertEntry k v entries).Pairwise (·.1 < ·.1) := by
  induction entries with
  | nil => exact List.pairwise_singleton _ _
  | cons first rest ih =>
    obtain ⟨hfirst, hrest⟩ := List.pairwise_cons.mp h
    unfold insertEntry
    split
    · rename_i hlt
      refine List.pairwise_cons.mpr ⟨?_, h⟩
      intro entry hentry
      rcases List.mem_cons.mp hentry with rfl | hlater
      · exact hlt
      · exact lt_trans hlt (hfirst entry hlater)
    · split
      · rename_i heq
        subst heq
        exact List.pairwise_cons.mpr ⟨hfirst, hrest⟩
      · rename_i hnot hne
        refine List.pairwise_cons.mpr ⟨?_, ih hrest⟩
        intro entry hentry
        rcases mem_insertEntry hentry with rfl | hlater
        · exact lt_of_le_of_ne (not_lt.mp hnot) (Ne.symm hne)
        · exact hfirst entry hlater

def insert (m : OrderedMap κ ν) (k : κ) (v : ν) : OrderedMap κ ν :=
  ⟨insertEntry k v m.entries, sorted_insertEntry k v m.sorted⟩

def popFirst (m : OrderedMap κ ν) : OrderedMap κ ν :=
  ⟨m.entries.tail, m.sorted.sublist (List.tail_sublist _)⟩

def popLast (m : OrderedMap κ ν) : OrderedMap κ ν :=
  ⟨m.entries.dropLast, m.sorted.sublist (List.dropLast_sublist _)⟩

variable {m : OrderedMap κ ν} {k j : κ} {v : ν}

@[simp] theorem keys_empty : (empty : OrderedMap κ ν).keys = [] := rfl
@[simp] theorem size_empty : (empty : OrderedMap κ ν).size = 0 := rfl
@[simp] theorem get_empty : (empty : OrderedMap κ ν).get k = none := rfl

theorem length_keys (m : OrderedMap κ ν) : m.keys.length = m.size := List.length_map _

theorem sorted_keys (m : OrderedMap κ ν) : m.keys.Pairwise (· < ·) :=
  List.pairwise_map.mpr m.sorted

theorem nodup_keys (m : OrderedMap κ ν) : m.keys.Nodup :=
  (sorted_keys m).imp fun hlt => ne_of_lt hlt

theorem get_eq_some : m.get k = some v ↔ (k, v) ∈ m.entries := by
  unfold get
  rw [Option.map_eq_some_iff]
  constructor
  · rintro ⟨entry, hfind, rfl⟩
    have hkey : entry.1 = k := by simpa using List.find?_some hfind
    rw [← hkey]
    exact List.mem_of_find?_eq_some hfind
  · intro hmem
    cases hfind : m.entries.find? (·.1 = k) with
    | none => simpa using List.find?_eq_none.mp hfind _ hmem
    | some entry =>
      have hkey : entry.1 = k := by simpa using List.find?_some hfind
      have hsame := List.inj_on_of_nodup_map (nodup_keys m) (List.mem_of_find?_eq_some hfind)
        hmem hkey
      exact ⟨entry, rfl, by rw [hsame]⟩

theorem get_isSome : (m.get k).isSome ↔ k ∈ m.keys := by
  rw [Option.isSome_iff_exists]
  constructor
  · rintro ⟨v, hget⟩
    exact List.mem_map.mpr ⟨(k, v), get_eq_some.mp hget, rfl⟩
  · intro hkey
    obtain ⟨entry, hmem, rfl⟩ := List.mem_map.mp hkey
    exact ⟨entry.2, get_eq_some.mpr hmem⟩

theorem get_insert : (m.insert k v).get j = if j = k then some v else m.get j := by
  have hfind : ∀ entries : List (κ × ν), ((insertEntry k v entries).find? (·.1 = j)).map (·.2)
      = if j = k then some v else (entries.find? (·.1 = j)).map (·.2) := by
    intro entries
    induction entries with
    | nil => grind [insertEntry]
    | cons first rest ih => grind [insertEntry]
  exact hfind m.entries

theorem mem_keys_insert : j ∈ (m.insert k v).keys ↔ j = k ∨ j ∈ m.keys := by
  rw [← get_isSome, ← get_isSome, get_insert]
  split
  · rename_i heq
    simp [heq]
  · rename_i hne
    simp [hne]

/-! ### The ends -/

theorem keys_popFirst (m : OrderedMap κ ν) : m.popFirst.keys = m.keys.tail := by
  unfold keys popFirst
  rw [List.map_tail]

theorem keys_popLast (m : OrderedMap κ ν) : m.popLast.keys = m.keys.dropLast := by
  unfold keys popLast
  rw [List.map_dropLast]

theorem size_popFirst (m : OrderedMap κ ν) : m.popFirst.size = m.size - 1 := List.length_tail

theorem size_popLast (m : OrderedMap κ ν) : m.popLast.size = m.size - 1 := List.length_dropLast

theorem get_popFirst (h : m.popFirst.get k = some v) : m.get k = some v :=
  get_eq_some.mpr (List.mem_of_mem_tail (get_eq_some.mp h))

theorem get_popLast (h : m.popLast.get k = some v) : m.get k = some v :=
  get_eq_some.mpr ((List.dropLast_sublist _).mem (get_eq_some.mp h))

/-- A key stays when it is not the first one. -/
theorem mem_keys_popFirst {first : κ} (hfirst : m.keys.head? = some first) :
    j ∈ m.popFirst.keys ↔ j ∈ m.keys ∧ j ≠ first := by
  rw [keys_popFirst]
  have hnodup := nodup_keys m
  cases hkeys : m.keys with
  | nil => simp [hkeys] at hfirst
  | cons key rest =>
    rw [hkeys] at hfirst hnodup
    obtain rfl : key = first := by simpa using hfirst
    have hnot := (List.nodup_cons.mp hnodup).1
    simp only [List.tail_cons, List.mem_cons]
    constructor
    · intro hmem
      exact ⟨.inr hmem, fun heq => hnot (heq ▸ hmem)⟩
    · rintro ⟨heq | hmem, hne⟩
      · exact absurd heq hne
      · exact hmem

theorem mem_keys_popLast {last : κ} (hlast : m.keys.getLast? = some last) :
    j ∈ m.popLast.keys ↔ j ∈ m.keys ∧ j ≠ last := by
  rw [keys_popLast]
  have hnodup := nodup_keys m
  rcases List.eq_nil_or_concat m.keys with hnil | ⟨front, key, hkeys⟩
  · simp [hnil] at hlast
  · rw [hkeys, List.concat_eq_append] at hlast hnodup
    obtain rfl : key = last := by simpa using hlast
    have hnot : key ∉ front := fun hmem =>
      (List.nodup_append.mp hnodup).2.2 key hmem key List.mem_cons_self rfl
    rw [hkeys, List.concat_eq_append, List.dropLast_concat, List.mem_append, List.mem_singleton]
    constructor
    · intro hmem
      exact ⟨.inl hmem, fun heq => hnot (heq ▸ hmem)⟩
    · rintro ⟨hmem | heq, hne⟩
      · exact hmem
      · exact absurd heq hne

/-- The first key is the least. -/
theorem le_of_head {first : κ} (hfirst : m.keys.head? = some first) (hj : j ∈ m.keys) :
    first ≤ j := by
  have hsorted := sorted_keys m
  cases hkeys : m.keys with
  | nil => simp [hkeys] at hfirst
  | cons key rest =>
    rw [hkeys] at hfirst hsorted hj
    obtain rfl : key = first := by simpa using hfirst
    rcases List.mem_cons.mp hj with rfl | hrest
    · exact le_refl _
    · exact le_of_lt ((List.pairwise_cons.mp hsorted).1 j hrest)

theorem le_getLast {last : κ} (hlast : m.keys.getLast? = some last) (hj : j ∈ m.keys) :
    j ≤ last := by
  have hsorted := sorted_keys m
  rcases List.eq_nil_or_concat m.keys with hnil | ⟨front, key, hkeys⟩
  · simp [hnil] at hlast
  · rw [hkeys, List.concat_eq_append] at hlast hsorted hj
    obtain rfl : key = last := by simpa using hlast
    rcases List.mem_append.mp hj with hfront | heq
    · exact le_of_lt ((List.pairwise_append.mp hsorted).2.2 j hfront key (by simp))
    · exact le_of_eq (List.mem_singleton.mp heq)

end OrderedMap

end Homie
