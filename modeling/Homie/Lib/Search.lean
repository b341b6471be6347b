/-
Searching from the left for places that do not overlap.

`occurs` says where a thing of some width is.  A search from the left takes the first place, goes on
after it, and so on until there is none; `Leftmost` says that a list is what such a search finds,
and it finds one list only.  `leftmostFrom` finds it where the places are bounded.
-/
import Mathlib

namespace Homie.Search

/-- The places that a search from `origin` on finds. -/
inductive Leftmost (occurs : Nat → Prop) (width : Nat) : Nat → List Nat → Prop
  | done {origin : Nat} : (∀ place ≥ origin, ¬occurs place) → Leftmost occurs width origin []
  | found {origin start : Nat} {rest : List Nat} : origin ≤ start → occurs start →
      (∀ place, origin ≤ place → place < start → ¬occurs place) →
      Leftmost occurs width (start + width) rest → Leftmost occurs width origin (start :: rest)

variable {occurs : Nat → Prop} {width origin : Nat} {starts others : List Nat}

theorem Leftmost.skip (h : Leftmost occurs width (origin + 1) starts) (hnot : ¬occurs origin) :
    Leftmost occurs width origin starts := by
  cases h with
  | done hnone =>
    refine .done fun place hplace => ?_
    rcases Nat.eq_or_lt_of_le hplace with rfl | hlater
    · exact hnot
    · exact hnone place hlater
  | found hle hoccurs hnone hrest =>
    refine .found (by omega) hoccurs (fun place hplace hlt => ?_) hrest
    rcases Nat.eq_or_lt_of_le hplace with rfl | hlater
    · exact hnot
    · exact hnone place hlater hlt

theorem Leftmost.unique (h : Leftmost occurs width origin starts)
    (h' : Leftmost occurs width origin others) : starts = others := by
  induction h generalizing others with
  | done hnone =>
    cases h' with
    | done _ => rfl
    | found hle hoccurs _ _ => exact absurd hoccurs (hnone _ hle)
  | @found _ start rest hle hoccurs hnone _ ih =>
    cases h' with
    | done hnone' => exact absurd hoccurs (hnone' _ hle)
    | @found _ start' rest' hle' hoccurs' hnone' hrest' =>
      have hsame : start = start' := by
        rcases Nat.lt_trichotomy start start' with hlt | heq | hlt
        · exact absurd hoccurs (hnone' start hle hlt)
        · exact heq
        · exact absurd hoccurs' (hnone start' hle' hlt)
      subst hsame
      rw [ih hrest']

theorem Leftmost.ge (h : Leftmost occurs width origin starts) : ∀ start ∈ starts, origin ≤ start := by
  induction h with
  | done _ => exact fun _ hmem => absurd hmem List.not_mem_nil
  | found hle _ _ _ ih =>
    intro start hmem
    rcases List.mem_cons.mp hmem with rfl | hrest
    · exact hle
    · have hafter := ih start hrest
      omega

theorem Leftmost.sound (h : Leftmost occurs width origin starts) :
    ∀ start ∈ starts, occurs start := by
  induction h with
  | done _ => exact fun _ hmem => absurd hmem List.not_mem_nil
  | found _ hoccurs _ _ ih =>
    intro start hmem
    rcases List.mem_cons.mp hmem with rfl | hrest
    · exact hoccurs
    · exact ih start hrest

/-- The places do not overlap. -/
theorem Leftmost.pairwise (h : Leftmost occurs width origin starts) :
    starts.Pairwise fun earlier later => earlier + width ≤ later := by
  induction h with
  | done _ => exact List.Pairwise.nil
  | found _ _ _ hrest ih => exact List.pairwise_cons.mpr ⟨hrest.ge, ih⟩

/-- The search, for as many steps. -/
def leftmostFrom (occurs : Nat → Bool) (width : Nat) : Nat → Nat → List Nat
  | 0, _ => []
  | fuel + 1, place =>
    if occurs place then place :: leftmostFrom occurs width fuel (place + width)
    else leftmostFrom occurs width fuel (place + 1)

theorem leftmostFrom_eq_nil {occurs : Nat → Bool} (fuel : Nat)
    (hnone : ∀ place ≥ origin, occurs place = false) : leftmostFrom occurs width fuel origin = [] := by
  induction fuel generalizing origin with
  | zero => rfl
  | succ fuel ih =>
    unfold leftmostFrom
    rw [hnone origin (Nat.le_refl origin)]
    exact ih fun place hplace => hnone place (by omega)

theorem leftmost_leftmostFrom {occurs : Nat → Bool} {bound fuel : Nat} (hwidth : 0 < width)
    (hbound : ∀ place, occurs place = true → place < bound) (hfuel : bound ≤ fuel + origin) :
    Leftmost (fun place => occurs place = true) width origin
      (leftmostFrom occurs width fuel origin) := by
  induction fuel generalizing origin with
  | zero =>
    refine .done fun place hplace hoccurs => ?_
    have hlt := hbound place hoccurs
    omega
  | succ fuel ih =>
    unfold leftmostFrom
    split
    · rename_i hoccurs
      exact .found (Nat.le_refl origin) hoccurs (fun place _ _ => by omega) (ih (by omega))
    · rename_i hnot
      exact (ih (by omega)).skip hnot

end Homie.Search
