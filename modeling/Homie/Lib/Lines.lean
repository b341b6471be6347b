/-
Lines of a byte stream that only grows.

`split` cuts a stream into its complete lines, each ended by a line feed, and the rest behind the
last line feed.  There is only one way to do so (`split_eq`), so a prefix that ends at a line
feed is a number of complete lines for ever, and what is appended only finishes the rest.
Nothing in this file knows what the lines are.
-/
import Mathlib

namespace Homie.Lines

abbrev Bytes := List UInt8

/-- A byte list inside one line. -/
def Plain (bytes : Bytes) : Prop := (0x0a : UInt8) ∉ bytes

instance (bytes : Bytes) : Decidable (Plain bytes) :=
  inferInstanceAs (Decidable ((0x0a : UInt8) ∉ bytes))

/-- The bytes of these lines, with their line feeds. -/
def join (lines : List Bytes) : Bytes := lines.flatMap (· ++ [0x0a])

/-- The complete lines, and the rest. -/
def split : Bytes → List Bytes × Bytes
  | [] => ([], [])
  | byte :: bytes =>
    if byte = 0x0a then ([] :: (split bytes).1, (split bytes).2)
    else
      match (split bytes).1 with
      | [] => ([], byte :: (split bytes).2)
      | line :: lines => ((byte :: line) :: lines, (split bytes).2)

/-- A line without the carriage return before its line feed. -/
def stripCr (line : Bytes) : Bytes :=
  if line.getLast? = some 0x0d then line.dropLast else line

/-- `BufRead::lines`: what follows the last line feed is a line too. -/
def bufLines (bytes : Bytes) : List Bytes :=
  (split bytes).1.map stripCr ++ (if (split bytes).2.isEmpty then [] else [(split bytes).2])

@[simp] theorem join_nil : join [] = [] := rfl

theorem join_cons (line : Bytes) (lines : List Bytes) :
    join (line :: lines) = line ++ 0x0a :: join lines := by
  simp [join]

theorem join_append (front back : List Bytes) : join (front ++ back) = join front ++ join back := by
  simp [join]

/-! ### One way to split -/

theorem split_plain {rest : Bytes} (h : Plain rest) : split rest = ([], rest) := by
  induction rest with
  | nil => rfl
  | cons byte rest ih =>
    have hbyte : byte ≠ 0x0a := by
      rintro rfl
      exact h List.mem_cons_self
    have hrest := ih fun hmem => h (List.mem_cons_of_mem _ hmem)
    simp only [split, hrest, if_neg hbyte]

theorem split_line {line : Bytes} (h : Plain line) (bytes : Bytes) :
    split (line ++ 0x0a :: bytes) = (line :: (split bytes).1, (split bytes).2) := by
  induction line with
  | nil => simp only [List.nil_append, split, if_true]
  | cons byte line ih =>
    have hbyte : byte ≠ 0x0a := by
      rintro rfl
      exact h List.mem_cons_self
    have hline := ih fun hmem => h (List.mem_cons_of_mem _ hmem)
    simp only [List.cons_append, split, hline, if_neg hbyte]

/-- A stream that is lines and a rest is split into these. -/
theorem split_eq {lines : List Bytes} {rest : Bytes} (hlines : ∀ line ∈ lines, Plain line)
    (hrest : Plain rest) : split (join lines ++ rest) = (lines, rest) := by
  induction lines with
  | nil => exact split_plain hrest
  | cons line lines ih =>
    have hmore := ih fun other hother => hlines other (List.mem_cons_of_mem _ hother)
    rw [join_cons, List.append_assoc, List.cons_append,
      split_line (hlines line List.mem_cons_self), hmore]

/-- Every stream is lines and a rest. -/
theorem join_split (bytes : Bytes) :
    join (split bytes).1 ++ (split bytes).2 = bytes ∧
      (∀ line ∈ (split bytes).1, Plain line) ∧ Plain (split bytes).2 := by
  induction bytes with
  | nil => exact ⟨rfl, fun line h => absurd h List.not_mem_nil, List.not_mem_nil⟩
  | cons byte bytes ih =>
    obtain ⟨hjoin, hplain, hrest⟩ := ih
    by_cases hbyte : byte = 0x0a
    · subst hbyte
      simp only [split, if_true]
      refine ⟨?_, ?_, hrest⟩
      · rw [join_cons, List.nil_append, List.cons_append, hjoin]
      · intro line hline
        rcases List.mem_cons.mp hline with rfl | hmem
        · exact List.not_mem_nil
        · exact hplain line hmem
    · have hcons : ∀ {line : Bytes}, Plain line → Plain (byte :: line) := by
        intro line hline hmem
        rcases List.mem_cons.mp hmem with heq | hmem
        · exact hbyte heq.symm
        · exact hline hmem
      simp only [split, if_neg hbyte]
      cases hsplit : (split bytes).1 with
      | nil =>
        rw [hsplit] at hjoin
        refine ⟨?_, fun line h => absurd h List.not_mem_nil, hcons hrest⟩
        rw [join_nil, List.nil_append] at hjoin ⊢
        rw [hjoin]
      | cons line lines =>
        rw [hsplit] at hjoin hplain
        refine ⟨?_, ?_, hrest⟩
        · dsimp only at hjoin ⊢
          rw [join_cons] at hjoin ⊢
          exact congrArg (byte :: ·) hjoin
        · intro other hother
          rcases List.mem_cons.mp hother with rfl | hmem
          · exact hcons (hplain line List.mem_cons_self)
          · exact hplain other (List.mem_cons_of_mem _ hmem)

theorem join_split_fst (bytes : Bytes) : join (split bytes).1 ++ (split bytes).2 = bytes :=
  (join_split bytes).1

theorem plain_of_mem_split {bytes line : Bytes} (h : line ∈ (split bytes).1) : Plain line :=
  (join_split bytes).2.1 line h

/-! ### Growth -/

/-- What is appended finishes the rest. -/
theorem split_append (bytes more : Bytes) :
    split (bytes ++ more)
      = ((split bytes).1 ++ (split ((split bytes).2 ++ more)).1,
        (split ((split bytes).2 ++ more)).2) := by
  have hmore := join_split ((split bytes).2 ++ more)
  have hbytes : bytes ++ more = join ((split bytes).1 ++ (split ((split bytes).2 ++ more)).1)
      ++ (split ((split bytes).2 ++ more)).2 := by
    rw [join_append, List.append_assoc, hmore.1, ← List.append_assoc, join_split_fst]
  rw [hbytes]
  refine split_eq ?_ hmore.2.2
  intro line hline
  rcases List.mem_append.mp hline with hfront | hback
  · exact plain_of_mem_split hfront
  · exact hmore.2.1 line hback

/-- Lines at the start of a stream are its first complete lines. -/
theorem prefix_split {lines : List Bytes} (hlines : ∀ line ∈ lines, Plain line) {bytes : Bytes}
    (h : join lines <+: bytes) : lines <+: (split bytes).1 := by
  obtain ⟨more, rfl⟩ := h
  have hjoin : split (join lines) = (lines, []) := by
    have hsplit := split_eq hlines (List.not_mem_nil : Plain [])
    rwa [List.append_nil] at hsplit
  rw [split_append, hjoin]
  exact List.prefix_append lines _

/-! ### Lines as they are read -/

theorem stripCr_isPrefix (line : Bytes) : stripCr line <+: line := by
  unfold stripCr
  split
  · exact List.dropLast_prefix line
  · exact List.prefix_refl line

/-- Complete lines at the start of a stream, with what the next one holds. -/
theorem join_stripCr_isPrefix {bytes line : Bytes} {lines back : List Bytes}
    (h : (split bytes).1 = lines ++ line :: back) : join lines ++ stripCr line <+: bytes := by
  have hjoin := join_split_fst bytes
  rw [h, join_append, join_cons] at hjoin
  rw [← hjoin, List.append_assoc, List.append_assoc]
  refine (List.prefix_append_right_inj _).mpr ((stripCr_isPrefix line).trans ?_)
  exact List.prefix_append line _

/-- A complete line is read behind the lines before it. -/
theorem bufLines_of_split {bytes line : Bytes} {lines back : List Bytes}
    (h : (split bytes).1 = lines ++ line :: back) :
    ∃ back, bufLines bytes = lines.map stripCr ++ stripCr line :: back := by
  refine ⟨back.map stripCr ++ (if (split bytes).2.isEmpty then [] else [(split bytes).2]), ?_⟩
  unfold bufLines
  rw [h, List.map_append, List.map_cons, List.append_assoc, List.cons_append]

/-- What is read stands in the stream behind lines of it. -/
theorem of_bufLines {bytes text : Bytes} {front back : List Bytes}
    (h : bufLines bytes = front ++ text :: back) :
    ∃ lines, (∀ line ∈ lines, Plain line) ∧ front = lines.map stripCr ∧
      join lines ++ text <+: bytes := by
  unfold bufLines at h
  rcases List.append_eq_append_iff.mp h with ⟨more, hfront, hrest⟩ | ⟨more, hlines, htail⟩
  · -- The text is the rest.
    have hmore : more = [] ∧ text = (split bytes).2 := by
      split at hrest
      · exact absurd hrest.symm (by simp)
      · cases more with
        | nil => exact ⟨rfl, (List.cons.inj hrest).1.symm⟩
        | cons first more => simp at hrest
    refine ⟨(split bytes).1, fun line => plain_of_mem_split, ?_, ?_⟩
    · rw [hfront, hmore.1, List.append_nil]
    · rw [hmore.2, join_split_fst]
  · cases more with
    | nil =>
      have htext : text = (split bytes).2 := by
        split at htail
        · simp at htail
        · exact (List.cons.inj htail).1
      refine ⟨(split bytes).1, fun line => plain_of_mem_split, ?_, ?_⟩
      · rw [hlines, List.append_nil]
      · rw [htext, join_split_fst]
    | cons first more =>
      -- The text is a complete line.
      obtain ⟨rfl, -⟩ := List.cons.inj htail
      obtain ⟨lines, rest, hsplit, rfl, hmore⟩ := List.map_eq_append_iff.mp hlines
      obtain ⟨line, rest, rfl, rfl, -⟩ := List.map_eq_cons_iff.mp hmore
      refine ⟨lines, ?_, rfl, join_stripCr_isPrefix hsplit⟩
      intro other hother
      have hmem : other ∈ (split bytes).1 := by
        rw [hsplit]
        exact List.mem_append_left _ hother
      exact plain_of_mem_split hmem

end Homie.Lines
