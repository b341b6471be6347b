/-
A receiver of an offset-addressed stream.

Pieces of one stream arrive in order, each with the offset of its first element.  A
sender that starts over repeats elements, and one that gives up loses some.  The receiver
keeps the offset it has reached and takes from a piece what lies behind it.

`Holds` says what it has then: elements of the stream in their order, each at most once,
and all of them but for lost positions.  That is kept as long as every piece begins
at or before the place the ones before it reached, or what lies between is lost
(`Gapless`).  An empty piece at the end of the stream says that nothing is missing
up to there.
-/
import Mathlib
import Homie.Lib.Window

namespace Homie.Replay

variable {α : Type}

/-- The place reached and the elements taken after one more piece. -/
def receive (expected : Nat) (taken : List α) (offset : Nat) (piece : List α) : Nat × List α :=
  if offset + piece.length ≤ expected then (expected, taken)
  else (offset + piece.length, taken ++ piece.drop (expected - offset))

theorem receive_fst (expected : Nat) (taken : List α) (offset : Nat) (piece : List α) :
    (receive expected taken offset piece).1 = max expected (offset + piece.length) := by
  unfold receive
  split
  · exact (Nat.max_eq_left ‹_›).symm
  · exact (Nat.max_eq_right (by omega)).symm

/-! ### What the receiver has -/

/-- `taken` is the stream from `start` to `stop`, but for lost positions. -/
def Holds (stream : List α) (lost : Nat → Prop) (start stop : Nat) (taken : List α) : Prop :=
  start ≤ stop ∧ ∃ kept : List Nat, kept.Pairwise (· < ·) ∧ (∀ i ∈ kept, start ≤ i ∧ i < stop) ∧
    taken.map some = kept.map (stream[·]?) ∧ ∀ i, start ≤ i → i < stop → i ∉ kept → lost i

variable {stream : List α} {lost : Nat → Prop}

theorem holds_nil (start : Nat) : Holds stream lost start start [] := by
  refine ⟨Nat.le_refl _, [], List.Pairwise.nil, ?_, rfl, ?_⟩
  · intro i hi
    exact absurd hi List.not_mem_nil
  · intro i hle hlt
    omega

/-- A piece names the positions it covers. -/
theorem map_some_of_sits {offset : Nat} {piece : List α} (h : Sits stream offset piece) :
    piece.map some = (List.range' offset piece.length).map (stream[·]?) := by
  obtain ⟨rest, hrest⟩ := h.2
  apply List.ext_getElem?
  intro k
  rw [List.getElem?_map, List.getElem?_map]
  by_cases hk : k < piece.length
  · have hat : stream[offset + k]? = piece[k]? := by
      rw [← List.getElem?_drop, ← hrest, List.getElem?_append_left hk]
    rw [List.getElem?_range' hk, Option.map_some, Nat.one_mul, hat,
      List.getElem?_eq_getElem hk]
    rfl
  · rw [List.getElem?_eq_none (by omega), List.getElem?_eq_none (by simp; omega)]
    rfl

theorem sits_drop {offset : Nat} {piece : List α} (h : Sits stream offset piece) {count : Nat}
    (hcount : count ≤ piece.length) : Sits stream (offset + count) (piece.drop count) := by
  have hlength := h.length_le
  obtain ⟨rest, hrest⟩ := h.2
  refine ⟨by omega, rest, ?_⟩
  rw [← List.drop_drop, ← hrest, List.drop_append_of_le_length hcount]

/-- Taking from a piece that leaves no gap. -/
theorem Holds.receive {start expected : Nat} {taken : List α}
    (h : Holds stream lost start expected taken) {offset : Nat} {piece : List α}
    (hsits : Sits stream offset piece) (hgap : ∀ i, expected ≤ i → i < offset → lost i) :
    Holds stream lost start (Replay.receive expected taken offset piece).1
      (Replay.receive expected taken offset piece).2 := by
  unfold Replay.receive
  by_cases hold : offset + piece.length ≤ expected
  · rw [if_pos hold]
    exact h
  · rw [if_neg hold]
    obtain ⟨hstart, kept, hsorted, hinside, hitems, hlost⟩ := h
    have hskip : expected - offset ≤ piece.length := by omega
    have hfresh := map_some_of_sits (sits_drop hsits hskip)
    rw [List.length_drop] at hfresh
    have hmem : ∀ i, i ∈ List.range' (offset + (expected - offset))
        (piece.length - (expected - offset)) ↔
        expected ≤ i ∧ offset ≤ i ∧ i < offset + piece.length := by
      intro i
      rw [List.mem_range'_1]
      omega
    refine ⟨by omega, kept ++ List.range' (offset + (expected - offset))
      (piece.length - (expected - offset)), ?_, ?_, ?_, ?_⟩
    · refine List.pairwise_append.mpr ⟨hsorted, List.pairwise_lt_range', ?_⟩
      intro i hi j hj
      have hbefore := (hinside i hi).2
      have hafter := ((hmem j).mp hj).1
      omega
    · intro i hi
      rcases List.mem_append.mp hi with hi | hi
      · have := hinside i hi
        omega
      · have := (hmem i).mp hi
        omega
    · rw [List.map_append, List.map_append, hitems, hfresh]
    · intro i hle hlt hnot
      rw [List.mem_append, not_or, hmem] at hnot
      by_cases hreached : i < expected
      · exact hlost i hle hreached hnot.1
      · exact hgap i (by omega) (by omega)

/-- More of the stream and more losses change nothing. -/
theorem Holds.mono {stream' : List α} {lost' : Nat → Prop} {start stop : Nat} {taken : List α}
    (h : Holds stream lost start stop taken) (hstream : stream <+: stream')
    (hlost : ∀ i, lost i → lost' i) : Holds stream' lost' start stop taken := by
  obtain ⟨hstart, kept, hsorted, hinside, hitems, hmissing⟩ := h
  refine ⟨hstart, kept, hsorted, hinside, ?_, ?_⟩
  · rw [hitems]
    apply List.map_congr_left
    intro i hi
    have hsome : stream[i]? ∈ taken.map some := by
      rw [hitems]
      exact List.mem_map_of_mem hi
    obtain ⟨item, -, hitem⟩ := List.mem_map.mp hsome
    obtain ⟨hlt, -⟩ := List.getElem?_eq_some_iff.mp hitem.symm
    obtain ⟨more, rfl⟩ := hstream
    rw [List.getElem?_append_left hlt]
  · intro i hle hlt hnot
    exact hlost i (hmissing i hle hlt hnot)

/-- Without losses it is the stream, exactly. -/
theorem Holds.exact {start stop : Nat} {taken : List α} (h : Holds stream lost start stop taken)
    (hnone : ∀ i, start ≤ i → i < stop → ¬ lost i) :
    taken = (stream.drop start).take (stop - start) := by
  obtain ⟨hstart, kept, hsorted, hinside, hitems, hmissing⟩ := h
  have hkept : kept = List.range' start (stop - start) := by
    refine List.Perm.eq_of_pairwise (fun a b _ _ hab hba => absurd hab (by omega)) hsorted
      List.pairwise_lt_range' ?_
    refine (List.perm_ext_iff_of_nodup ?_ ?_).mpr ?_
    · exact hsorted.imp (fun h => Nat.ne_of_lt h)
    · exact List.nodup_range'
    · intro i
      rw [List.mem_range'_1]
      constructor
      · intro hi
        have := hinside i hi
        omega
      · intro hi
        by_contra hnot
        exact hnone i (by omega) (by omega) (hmissing i (by omega) (by omega) hnot)
  have hsome : taken.map some = ((stream.drop start).take (stop - start)).map some := by
    rw [hitems, hkept]
    apply List.ext_getElem?
    intro k
    have hlength : taken.length = stop - start := by
      have := congrArg List.length hitems
      rwa [List.length_map, List.length_map, hkept, List.length_range'] at this
    rw [List.getElem?_map, List.getElem?_map]
    by_cases hk : k < stop - start
    · have hat := congrArg (·[k]?) hitems
      simp only [List.getElem?_map] at hat
      rw [hkept, List.getElem?_range' hk, Option.map_some, Nat.one_mul,
        List.getElem?_eq_getElem (by omega), Option.map_some] at hat
      have hin : stream[start + k]? = some (taken[k]) := (Option.some.inj hat).symm
      rw [List.getElem?_range' hk, Option.map_some, Nat.one_mul, hin, List.getElem?_take,
        if_pos hk, List.getElem?_drop, hin, Option.map_some]
    · rw [List.getElem?_eq_none (by simp; omega), List.getElem?_take, if_neg hk]
      rfl
  exact List.map_injective_iff.mpr (Option.some_injective α) hsome

/-! ### Pieces in order -/

/-- How far the pieces reach, from `place` on. -/
def reached (place : Nat) (pieces : List (Nat × List α)) : Nat :=
  pieces.foldl (fun place piece => max place (piece.1 + piece.2.length)) place

/-- Each piece is one of the stream, and what lies between it and the place reached is lost. -/
def Gapless (stream : List α) (lost : Nat → Prop) : Nat → List (Nat × List α) → Prop
  | _, [] => True
  | place, piece :: pieces =>
    (Sits stream piece.1 piece.2 ∧ ∀ i, place ≤ i → i < piece.1 → lost i) ∧
      Gapless stream lost (max place (piece.1 + piece.2.length)) pieces

theorem gapless_append {place : Nat} {front back : List (Nat × List α)} :
    Gapless stream lost place (front ++ back) ↔
      Gapless stream lost place front ∧ Gapless stream lost (reached place front) back := by
  induction front generalizing place with
  | nil => simp [Gapless, reached]
  | cons piece front ih =>
    rw [List.cons_append, Gapless, ih, Gapless]
    exact and_assoc.symm

theorem gapless_singleton {place offset : Nat} {piece : List α} :
    Gapless stream lost place [(offset, piece)] ↔
      Sits stream offset piece ∧ ∀ i, place ≤ i → i < offset → lost i := by
  simp [Gapless]

theorem reached_append (place : Nat) (front back : List (Nat × List α)) :
    reached place (front ++ back) = reached (reached place front) back :=
  List.foldl_append

theorem Gapless.mono {stream' : List α} {lost' : Nat → Prop} {place : Nat}
    {pieces : List (Nat × List α)} (h : Gapless stream lost place pieces)
    (hstream : stream <+: stream') (hlost : ∀ i, lost i → lost' i) :
    Gapless stream' lost' place pieces := by
  induction pieces generalizing place with
  | nil => exact trivial
  | cons piece pieces ih =>
    obtain ⟨more, rfl⟩ := hstream
    obtain ⟨⟨hsits, hgap⟩, hrest⟩ := h
    exact ⟨⟨hsits.append more, fun i hle hlt => hlost i (hgap i hle hlt)⟩, ih hrest⟩

/-- Up to the place reached, every position is in a piece or lost. -/
theorem Gapless.covered {place : Nat} {pieces : List (Nat × List α)}
    (h : Gapless stream lost place pieces) {i : Nat} (hle : place ≤ i)
    (hlt : i < reached place pieces) :
    lost i ∨ ∃ piece ∈ pieces, piece.1 ≤ i ∧ i < piece.1 + piece.2.length := by
  induction pieces generalizing place with
  | nil =>
    have : i < place := hlt
    omega
  | cons piece pieces ih =>
    obtain ⟨⟨-, hgap⟩, hrest⟩ := h
    by_cases hbefore : i < piece.1
    · exact Or.inl (hgap i hle hbefore)
    · by_cases hinside : i < piece.1 + piece.2.length
      · exact Or.inr ⟨piece, List.mem_cons_self, by omega, hinside⟩
      · rcases ih hrest (by omega) hlt with hlost | ⟨other, hother, hin⟩
        · exact Or.inl hlost
        · exact Or.inr ⟨other, List.mem_cons_of_mem _ hother, hin⟩

/-! ### A receiver that is given pieces in order -/

/-- What the receiver has, and that it is behind the pieces by lost positions only. -/
structure Follows (stream : List α) (lost : Nat → Prop) (start place : Nat)
    (pieces : List (Nat × List α)) (expected : Nat) (taken : List α) : Prop where
  holds : Holds stream lost start expected taken
  gap : ∀ i, expected ≤ i → i < reached place pieces → lost i

theorem Follows.before {start place expected : Nat} {pieces : List (Nat × List α)}
    {taken : List α} (h : Follows stream lost start place pieces expected taken) {offset : Nat}
    {piece : List α} (hgapless : Gapless stream lost place (pieces ++ [(offset, piece)])) :
    Sits stream offset piece ∧ ∀ i, expected ≤ i → i < offset → lost i := by
  obtain ⟨hsits, hbetween⟩ := gapless_singleton.mp (gapless_append.mp hgapless).2
  refine ⟨hsits, ?_⟩
  intro i hle hlt
  by_cases hreached : i < reached place pieces
  · exact h.gap i hle hreached
  · exact hbetween i (by omega) hlt

theorem Follows.receive {start place expected : Nat} {pieces : List (Nat × List α)}
    {taken : List α} (h : Follows stream lost start place pieces expected taken) {offset : Nat}
    {piece : List α} (hgapless : Gapless stream lost place (pieces ++ [(offset, piece)])) :
    Follows stream lost start place (pieces ++ [(offset, piece)])
      (Replay.receive expected taken offset piece).1
      (Replay.receive expected taken offset piece).2 := by
  obtain ⟨hsits, hbefore⟩ := h.before hgapless
  refine ⟨h.holds.receive hsits hbefore, ?_⟩
  intro i hle hlt
  rw [receive_fst] at hle
  have hreached : i < max (reached place pieces) (offset + piece.length) := by
    rw [reached_append] at hlt
    exact hlt
  exact h.gap i (by omega) (by omega)

/-- A piece without elements can be left out. -/
theorem Follows.skip {start place expected : Nat} {pieces : List (Nat × List α)}
    {taken : List α} (h : Follows stream lost start place pieces expected taken) {offset : Nat}
    (hgapless : Gapless stream lost place (pieces ++ [(offset, [])])) :
    Follows stream lost start place (pieces ++ [(offset, [])]) expected taken := by
  refine ⟨h.holds, ?_⟩
  intro i hle hlt
  have hreached : i < max (reached place pieces) offset := by
    rw [reached_append] at hlt
    exact hlt
  by_cases hcovered : i < reached place pieces
  · exact h.gap i hle hcovered
  · exact (h.before hgapless).2 i hle (by omega)

end Homie.Replay

/-! ### The newest elements of a list that grows at its end

`newest n` keeps the last `n`.  Keeping as one goes keeps the same as keeping in the end
(`newest_append`), and taking out the oldest elements commutes with it (`filter_newest`).
-/

namespace Homie

variable {α : Type}

/-- The last `n` elements. -/
def newest (n : Nat) (xs : List α) : List α := xs.drop (xs.length - n)

theorem newest_sublist (n : Nat) (xs : List α) : (newest n xs).Sublist xs := List.drop_sublist _ _

/-- What was let go before does not matter later. -/
theorem newest_append (n : Nat) (xs ys : List α) :
    newest n (newest n xs ++ ys) = newest n (xs ++ ys) := by
  have hdrop : newest n xs ++ ys = (xs ++ ys).drop (xs.length - n) :=
    (List.drop_append_of_le_length (Nat.sub_le _ _)).symm
  rw [hdrop, newest, newest, List.drop_drop, List.length_drop, List.length_append]
  congr 1
  omega

theorem getLast?_newest {n : Nat} (hn : 0 < n) (xs : List α) :
    (newest n xs).getLast? = xs.getLast? := by
  rw [newest, List.getLast?_drop]
  split
  · rename_i hle
    have hempty : xs = [] := List.length_eq_zero_iff.mp (by omega)
    rw [hempty]
    rfl
  · rfl

/-- Where the elements that satisfy `p` come first, they can be split off. -/
theorem filter_append_filter_not {p : α → Bool} {xs : List α}
    (h : xs.Pairwise fun a b => p b = true → p a = true) :
    xs.filter p ++ xs.filter (fun a => !p a) = xs := by
  induction xs with
  | nil => rfl
  | cons a xs ih =>
    obtain ⟨hfirst, hrest⟩ := List.pairwise_cons.mp h
    cases ha : p a with
    | true =>
      rw [List.filter_cons_of_pos ha, List.filter_cons_of_neg (by rw [ha]; exact Bool.false_ne_true),
        List.cons_append, ih hrest]
    | false =>
      have hnone : ∀ b ∈ xs, p b = false := by
        intro b hb
        cases hpb : p b with
        | false => rfl
        | true => exact absurd (hfirst b hb hpb) (by rw [ha]; exact Bool.false_ne_true)
      have hnot : ∀ b ∈ a :: xs, (!p b) = true := by
        intro b hb
        rcases List.mem_cons.mp hb with rfl | hb
        · rw [ha]
          rfl
        · rw [hnone b hb]
          rfl
      have hleft : (a :: xs).filter p = [] := by
        rw [List.filter_eq_nil_iff]
        intro b hb hpb
        have := hnot b hb
        rw [hpb] at this
        exact Bool.false_ne_true this
      rw [hleft, List.filter_eq_self.mpr hnot, List.nil_append]

/-- Where the elements that satisfy `p` come last, the newest of them are among the newest. -/
theorem filter_newest {p : α → Bool} {xs : List α} (n : Nat)
    (h : xs.Pairwise fun a b => p a = true → p b = true) :
    (newest n xs).filter p = newest n (xs.filter p) := by
  have hsplit : xs.filter (fun a => !p a) ++ xs.filter p = xs := by
    have hnot := @filter_append_filter_not α (fun a => !p a) xs
      (h.imp fun hab hb => by simp_all)
    simpa using hnot
  have hpos : ∀ {ys : List α}, ys.Sublist (xs.filter p) → ys.filter p = ys := by
    intro ys hys
    rw [List.filter_eq_self]
    intro a ha
    exact (List.mem_filter.mp (hys.subset ha)).2
  have hneg : ∀ {ys : List α}, ys.Sublist (xs.filter fun a => !p a) → ys.filter p = [] := by
    intro ys hys
    rw [List.filter_eq_nil_iff]
    intro a ha
    have hna := (List.mem_filter.mp (hys.subset ha)).2
    simpa using hna
  have hlen := congrArg List.length hsplit
  rw [List.length_append] at hlen
  conv_lhs => rw [newest, ← hsplit, List.drop_append, List.filter_append,
    hneg (List.drop_sublist _ _), hpos (List.drop_sublist _ _), List.nil_append]
  rw [newest, List.length_append]
  congr 1
  omega

end Homie
