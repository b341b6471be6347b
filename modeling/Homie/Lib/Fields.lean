/-
A line of fields: what `split`, `splitn` and `strip_prefix` of the standard library's slices make
of it.

A list is written as fields with a separator behind each, and read by cutting at the separator.
What is read is what was written as long as no field holds the separator; the last of a counted
number of fields may (`splitn_fields`).
-/
import Mathlib

namespace Homie.Fields

variable {α : Type}

/-- Each field with the separator behind it. -/
def terminated (separator : α) (fields : List (List α)) : List α :=
  fields.flatMap (· ++ [separator])

variable [DecidableEq α]

/-- `slice::split_inclusive`: pieces that each end with the separator, but for the last. -/
def splitInclusive (separator : α) : List α → List (List α)
  | [] => []
  | x :: xs =>
    if x = separator then [x] :: splitInclusive separator xs
    else
      match splitInclusive separator xs with
      | [] => [[x]]
      | piece :: pieces => (x :: piece) :: pieces

/-- `str::rsplit_once`: what stands before and behind the last of a pattern that is not empty. -/
def rsplitOnce (pattern : List α) : List α → Option (List α × List α)
  | [] => none
  | x :: xs =>
    match rsplitOnce pattern xs with
    | some (front, back) => some (x :: front, back)
    | none => (pattern.isPrefixOf? (x :: xs)).map fun back => ([], back)

/-- The front up to the first separator, and what follows it. -/
def splitOnce (separator : α) : List α → Option (List α × List α)
  | [] => none
  | x :: xs =>
    if x = separator then some ([], xs)
    else (splitOnce separator xs).map fun (front, back) => (x :: front, back)

/-- `slice::splitn`: as many fields as counted at most, and no cut in the last of them. -/
def splitn (separator : α) : Nat → List α → List (List α)
  | 0, _ => []
  | 1, xs => [xs]
  | count + 2, xs =>
    match splitOnce separator xs with
    | none => [xs]
    | some (field, rest) => field :: splitn separator (count + 1) rest

theorem splitOnce_of_notMem {separator : α} {field : List α} (h : separator ∉ field)
    (rest : List α) :
    splitOnce separator (field ++ separator :: rest) = some (field, rest) := by
  induction field with
  | nil => simp [splitOnce]
  | cons x field ih =>
    have hx : x ≠ separator := fun heq => h (heq ▸ List.mem_cons_self)
    have hrest := ih fun hmem => h (List.mem_cons_of_mem _ hmem)
    simp [splitOnce, hx, hrest]

/-- Counted fields are read as they were written. -/
theorem splitn_fields {separator : α} {fields : List (List α)}
    (h : ∀ field ∈ fields, separator ∉ field) (last : List α) :
    splitn separator (fields.length + 1) (terminated separator fields ++ last)
      = fields ++ [last] := by
  induction fields with
  | nil => rfl
  | cons field fields ih =>
    have hrest := ih fun other hother => h other (List.mem_cons_of_mem _ hother)
    have hcut := splitOnce_of_notMem (h field List.mem_cons_self)
      (terminated separator fields ++ last)
    have hline : terminated separator (field :: fields) ++ last
        = field ++ separator :: (terminated separator fields ++ last) := by
      simp [terminated]
    rw [hline, List.length_cons, splitn, hcut]
    simp only [hrest, List.cons_append]

/-- Records are read as they were written, in front of whatever follows. -/
theorem splitOn_terminated_append {separator : α} {fields : List (List α)}
    (h : ∀ field ∈ fields, separator ∉ field) (rest : List α) :
    (terminated separator fields ++ rest).splitOn separator = fields ++ rest.splitOn separator := by
  induction fields with
  | nil => rfl
  | cons field fields ih =>
    have hrest := ih fun other hother => h other (List.mem_cons_of_mem _ hother)
    have hline : terminated separator (field :: fields) ++ rest
        = field ++ separator :: (terminated separator fields ++ rest) := by
      simp [terminated]
    rw [hline, List.splitOn_append_cons_self_of_not_mem (h field List.mem_cons_self), hrest,
      List.cons_append]

/-- Records are read as they were written, and the empty piece behind the last separator. -/
theorem splitOn_terminated {separator : α} {fields : List (List α)}
    (h : ∀ field ∈ fields, separator ∉ field) :
    (terminated separator fields).splitOn separator = fields ++ [[]] := by
  have hfields := splitOn_terminated_append h []
  rwa [List.append_nil, List.splitOn_nil] at hfields

/-! ### The pieces of `split` -/

theorem splitOn_cons_of_ne {separator x : α} (h : x ≠ separator) (xs : List α) :
    (x :: xs).splitOn separator = (xs.splitOn separator).modifyHead (x :: ·) := by
  rw [List.splitOn_cons_eq_if_modifyHead, if_neg (by simpa using h)]

theorem splitOn_cons_self (separator : α) (xs : List α) :
    (separator :: xs).splitOn separator = [] :: xs.splitOn separator := by
  rw [List.splitOn_cons_eq_if_modifyHead, if_pos (beq_self_eq_true separator)]

/-- A piece stands at the beginning, or right behind a separator. -/
theorem front_of_mem_splitOn {separator : α} {xs piece : List α}
    (h : piece ∈ xs.splitOn separator) : piece <+: xs ∨ separator :: piece <:+: xs := by
  suffices hpieces : ∀ first others, xs.splitOn separator = first :: others →
      first <+: xs ∧ ∀ other ∈ others, separator :: other <:+: xs by
    obtain ⟨first, others, hsplit⟩ := List.exists_cons_of_ne_nil (List.splitOn_ne_nil separator xs)
    obtain ⟨hfirst, hothers⟩ := hpieces first others hsplit
    rw [hsplit] at h
    cases List.mem_cons.mp h with
    | inl heq => exact .inl (heq ▸ hfirst)
    | inr hmem => exact .inr (hothers piece hmem)
  clear h
  induction xs with
  | nil =>
    intro first others hsplit
    rw [List.splitOn_nil] at hsplit
    obtain ⟨rfl, rfl⟩ := List.cons.inj hsplit
    exact ⟨List.nil_prefix, fun other hother => absurd hother List.not_mem_nil⟩
  | cons x xs ih =>
    intro first others hsplit
    obtain ⟨next, rest, hnext⟩ := List.exists_cons_of_ne_nil (List.splitOn_ne_nil separator xs)
    obtain ⟨hfirst, hothers⟩ := ih next rest hnext
    by_cases hx : x = separator
    · rw [hx, splitOn_cons_self, hnext] at hsplit
      obtain ⟨rfl, rfl⟩ := List.cons.inj hsplit
      refine ⟨List.nil_prefix, fun other hother => ?_⟩
      cases List.mem_cons.mp hother with
      | inl heq =>
        rw [heq, hx]
        exact (List.cons_prefix_cons.mpr ⟨rfl, hfirst⟩).isInfix
      | inr hmem => exact List.infix_cons (hothers other hmem)
    · rw [splitOn_cons_of_ne hx, hnext, List.modifyHead_cons] at hsplit
      obtain ⟨rfl, rfl⟩ := List.cons.inj hsplit
      refine ⟨List.cons_prefix_cons.mpr ⟨rfl, hfirst⟩, fun other hother => ?_⟩
      exact List.infix_cons (hothers other hother)

theorem splitOn_append_of_notMem {separator : α} {front : List α} (h : separator ∉ front)
    (xs : List α) :
    (front ++ xs).splitOn separator = (xs.splitOn separator).modifyHead (front ++ ·) := by
  induction front with
  | nil =>
    obtain ⟨piece, pieces, hsplit⟩ := List.exists_cons_of_ne_nil (List.splitOn_ne_nil separator xs)
    rw [List.nil_append, hsplit]
    rfl
  | cons x front ih =>
    have hx : x ≠ separator := fun heq => h (heq ▸ List.mem_cons_self)
    have hrest := ih fun hmem => h (List.mem_cons_of_mem _ hmem)
    obtain ⟨piece, pieces, hsplit⟩ := List.exists_cons_of_ne_nil (List.splitOn_ne_nil separator xs)
    rw [List.cons_append, splitOn_cons_of_ne hx, hrest, hsplit]
    rfl

/-- A pattern without a separator is in a list just when it is in one of its pieces. -/
theorem infix_splitOn {separator : α} {pattern : List α} (h : separator ∉ pattern)
    (xs : List α) : pattern <:+: xs ↔ ∃ piece ∈ xs.splitOn separator, pattern <:+: piece := by
  constructor
  · intro hinside
    obtain ⟨front, back, rfl⟩ := hinside
    rw [List.append_assoc]
    induction front with
    | nil =>
      obtain ⟨piece, pieces, hsplit⟩ :=
        List.exists_cons_of_ne_nil (List.splitOn_ne_nil separator back)
      rw [List.nil_append, splitOn_append_of_notMem h, hsplit]
      exact ⟨pattern ++ piece, List.mem_cons_self, (List.prefix_append _ _).isInfix⟩
    | cons x front ih =>
      obtain ⟨found, hfound, hinside⟩ := ih
      rw [List.cons_append]
      by_cases hx : x = separator
      · rw [hx, splitOn_cons_self]
        exact ⟨found, List.mem_cons_of_mem _ hfound, hinside⟩
      · obtain ⟨piece, pieces, hsplit⟩ := List.exists_cons_of_ne_nil
          (List.splitOn_ne_nil separator (front ++ (pattern ++ back)))
        rw [hsplit] at hfound
        rw [splitOn_cons_of_ne hx, hsplit, List.modifyHead_cons]
        cases List.mem_cons.mp hfound with
        | inl heq =>
          exact ⟨x :: piece, List.mem_cons_self, List.infix_cons (heq ▸ hinside)⟩
        | inr hmem => exact ⟨found, List.mem_cons_of_mem _ hmem, hinside⟩
  · intro hpiece
    obtain ⟨piece, hpiece, hinside⟩ := hpiece
    refine hinside.trans ?_
    cases front_of_mem_splitOn hpiece with
    | inl hleads => exact hleads.isInfix
    | inr hbehind => exact (List.suffix_cons separator piece).isInfix.trans hbehind

/-! ### `strip_prefix` -/

theorem isPrefixOf?_append (front back : List α) : front.isPrefixOf? (front ++ back) = some back := by
  induction front with
  | nil => rfl
  | cons x front ih => simp [List.isPrefixOf?, ih]

theorem isPrefixOf?_eq_some {front xs back : List α} :
    front.isPrefixOf? xs = some back ↔ xs = front ++ back := by
  constructor
  · intro h
    induction front generalizing xs with
    | nil => simpa [List.isPrefixOf?] using h
    | cons x front ih =>
      cases xs with
      | nil => simp [List.isPrefixOf?] at h
      | cons y xs =>
        simp only [List.isPrefixOf?] at h
        split at h
        · rename_i heq
          rw [ih h, eq_of_beq heq, List.cons_append]
        · exact absurd h (by simp)
  · intro h
    rw [h]
    exact isPrefixOf?_append front back

theorem isPrefixOf?_eq_none {front xs : List α} (h : ¬ front <+: xs) :
    front.isPrefixOf? xs = none := by
  cases hleads : front.isPrefixOf? xs with
  | none => rfl
  | some rest => exact absurd ⟨rest, (isPrefixOf?_eq_some.mp hleads).symm⟩ h

/-- Of two names neither of which begins the other, one never stands in front of the other's
value. -/
theorem isPrefixOf?_other {front other : List α} (h : ¬ front <+: other) (h' : ¬ other <+: front)
    (back : List α) : front.isPrefixOf? (other ++ back) = none := by
  refine isPrefixOf?_eq_none fun hfront => ?_
  rcases List.prefix_or_prefix_of_prefix hfront (List.prefix_append other back) with hp | hp
  · exact h hp
  · exact h' hp

/-! ### `rsplit_once` -/

theorem rsplitOnce_eq_none {pattern xs : List α} (hne : pattern ≠ []) :
    rsplitOnce pattern xs = none ↔ ¬ pattern <:+: xs := by
  induction xs with
  | nil => simpa [rsplitOnce] using hne
  | cons x xs ih =>
    rw [rsplitOnce, List.infix_cons_iff]
    cases hrest : rsplitOnce pattern xs with
    | some cut =>
      have hinside : pattern <:+: xs := not_not.mp fun h => by simp [ih.mpr h] at hrest
      simp [hinside]
    | none =>
      have hnot := ih.mp hrest
      cases hleads : pattern.isPrefixOf? (x :: xs) with
      | none =>
        have hother : ¬ pattern <+: x :: xs := by
          rintro ⟨back, hback⟩
          rw [← hback, isPrefixOf?_append] at hleads
          exact absurd hleads (by simp)
        simp [hother, hnot]
      | some back =>
        have hfront : pattern <+: x :: xs := ⟨back, (isPrefixOf?_eq_some.mp hleads).symm⟩
        simp [hfront]

/-- What is behind the cut holds the pattern no more. -/
theorem rsplitOnce_eq_some {pattern xs front back : List α} (hne : pattern ≠ [])
    (h : rsplitOnce pattern xs = some (front, back)) :
    xs = front ++ pattern ++ back ∧ ¬ pattern <:+: back := by
  induction xs generalizing front with
  | nil => simp [rsplitOnce] at h
  | cons x xs ih =>
    rw [rsplitOnce] at h
    cases hrest : rsplitOnce pattern xs with
    | some cut =>
      rw [hrest] at h
      obtain ⟨rfl, rfl⟩ := Prod.mk.inj (Option.some.inj h)
      obtain ⟨hxs, hlast⟩ := ih hrest
      exact ⟨by rw [hxs, List.cons_append, List.cons_append], hlast⟩
    | none =>
      rw [hrest] at h
      obtain ⟨back', hleads, heq⟩ := Option.map_eq_some_iff.mp h
      obtain ⟨rfl, rfl⟩ := Prod.mk.inj heq
      have hxs := isPrefixOf?_eq_some.mp hleads
      refine ⟨hxs, fun hinside => (rsplitOnce_eq_none hne).mp hrest ?_⟩
      obtain ⟨first, pattern, rfl⟩ := List.exists_cons_of_ne_nil hne
      have hsuffix : back' <:+: xs := by
        rw [(List.cons.inj hxs).2]
        exact (List.suffix_append pattern back').isInfix
      exact hinside.trans hsuffix

theorem rsplitOnce_append {pattern xs front back : List α}
    (h : rsplitOnce pattern xs = some (front, back)) (more : List α) :
    rsplitOnce pattern (more ++ xs) = some (more ++ front, back) := by
  induction more with
  | nil => exact h
  | cons x more ih => rw [List.cons_append, rsplitOnce, ih, List.cons_append]

end Homie.Fields
