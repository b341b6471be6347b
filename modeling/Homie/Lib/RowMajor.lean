/-
Rectangles of cells kept as one list, row after row.

`rowAt` cuts a row out and `setRow` puts one back.  A buffer of `cols * rows` cells is
determined by its rows, so a patch is understood one row at a time: `rowAt_setRows`
says what every row is after any number of rows were written, and `eq_of_rows` goes
back from the rows to the buffer.
-/
import Mathlib

namespace Homie.RowMajor

variable {α : Type}

def rowAt (cols : Nat) (buffer : List α) (y : Nat) : List α := (buffer.drop (y * cols)).take cols

def setRow (cols : Nat) (buffer : List α) (y : Nat) (row : List α) : List α :=
  buffer.take (y * cols) ++ row ++ buffer.drop (y * cols + cols)

/-- The buffer whose rows are `row 0`, ..., `row (rows - 1)`. -/
def ofRows (rows : Nat) (row : Nat → List α) : List α := (List.range rows).flatMap row

/-- A row inside the rectangle ends inside the buffer. -/
theorem row_end_le (cols : Nat) {rows y : Nat} (hy : y < rows) :
    y * cols + cols ≤ cols * rows := by
  have h : (y + 1) * cols ≤ rows * cols := Nat.mul_le_mul_right cols hy
  rw [Nat.mul_comm rows, Nat.succ_mul] at h
  exact h

section

variable {cols rows y z : Nat} {buffer row : List α}

theorem length_setRow (hy : y < rows) (hlen : buffer.length = cols * rows)
    (hrow : row.length = cols) : (setRow cols buffer y row).length = cols * rows := by
  have hend := row_end_le cols hy
  unfold setRow
  rw [List.length_append, List.length_append, List.length_take, List.length_drop]
  omega

theorem length_rowAt (hy : y < rows) (hlen : buffer.length = cols * rows) :
    (rowAt cols buffer y).length = cols := by
  have hend := row_end_le cols hy
  unfold rowAt
  rw [List.length_take, List.length_drop]
  omega

/-- A row ends where its buffer does or where the next row starts. -/
theorem getElem?_rowAt (x : Nat) :
    (rowAt cols buffer y)[x]? = if x < cols then buffer[y * cols + x]? else none := by
  unfold rowAt
  by_cases hx : x < cols
  · rw [List.getElem?_take_of_lt hx, List.getElem?_drop, if_pos hx]
  · rw [if_neg hx]
    exact List.getElem?_eq_none (by rw [List.length_take]; omega)

theorem rowAt_setRow_same (hy : y < rows) (hlen : buffer.length = cols * rows)
    (hrow : row.length = cols) : rowAt cols (setRow cols buffer y row) y = row := by
  have hend := row_end_le cols hy
  have hstart : (buffer.take (y * cols)).length = y * cols := by
    rw [List.length_take]
    omega
  unfold rowAt setRow
  rw [List.append_assoc, List.drop_left' hstart]
  exact List.take_left' hrow

theorem rowAt_setRow_ne (hy : y < rows) (hne : z ≠ y) (hlen : buffer.length = cols * rows)
    (hrow : row.length = cols) : rowAt cols (setRow cols buffer y row) z = rowAt cols buffer z := by
  have hend := row_end_le cols hy
  have hstart : (buffer.take (y * cols)).length = y * cols := by
    rw [List.length_take]
    omega
  apply List.ext_getElem?
  intro x
  rw [getElem?_rowAt, getElem?_rowAt]
  by_cases hx : x < cols
  · rw [if_pos hx, if_pos hx]
    unfold setRow
    rcases Nat.lt_or_gt_of_ne hne with hz | hz
    · -- The row ends before the one that was written.
      have hbefore := row_end_le cols hz
      rw [Nat.mul_comm cols] at hbefore
      rw [List.append_assoc, List.getElem?_append_left (by omega)]
      exact List.getElem?_take_of_lt (by omega)
    · have hafter := row_end_le cols hz
      rw [Nat.mul_comm cols] at hafter
      rw [List.getElem?_append_right (by rw [List.length_append]; omega), List.getElem?_drop]
      congr 1
      rw [List.length_append]
      omega
  · rw [if_neg hx, if_neg hx]

/-- Buffers with the same rows are the same buffer. -/
theorem eq_of_rows {other : List α} (hlen : buffer.length = cols * rows)
    (hother : other.length = cols * rows)
    (h : ∀ y < rows, rowAt cols buffer y = rowAt cols other y) : buffer = other := by
  apply List.ext_getElem?
  intro i
  by_cases hi : i < cols * rows
  · have hcols : 0 < cols := Nat.pos_of_mul_pos_right (by omega : 0 < cols * rows)
    have hrow : i / cols < rows := Nat.div_lt_of_lt_mul hi
    have hcol : i % cols < cols := Nat.mod_lt i hcols
    have hsplit : i / cols * cols + i % cols = i := Nat.div_add_mod' i cols
    have hcell := congrArg (fun row => row[i % cols]?) (h (i / cols) hrow)
    simp only [getElem?_rowAt, if_pos hcol, hsplit] at hcell
    exact hcell
  · rw [List.getElem?_eq_none (by omega), List.getElem?_eq_none (by omega)]

end

/-! ### Buffers written row by row -/

section

variable {cols rows : Nat} {row : Nat → List α}

theorem length_ofRows (hrow : ∀ y < rows, (row y).length = cols) :
    (ofRows rows row).length = cols * rows := by
  induction rows with
  | zero => simp [ofRows]
  | succ rows ih =>
    have hlast := hrow rows (Nat.lt_succ_self rows)
    have hrest := ih fun y hy => hrow y (by omega)
    unfold ofRows at hrest ⊢
    rw [List.range_succ, List.flatMap_append, List.length_append, hrest]
    simp [hlast, Nat.mul_succ]

theorem rowAt_ofRows (hrow : ∀ y < rows, (row y).length = cols) {y : Nat} (hy : y < rows) :
    rowAt cols (ofRows rows row) y = row y := by
  induction rows with
  | zero => omega
  | succ rows ih =>
    have hlast := hrow rows (Nat.lt_succ_self rows)
    have hlen := length_ofRows fun y (hy : y < rows) => hrow y (by omega)
    have hsplit : ofRows (rows + 1) row = ofRows rows row ++ row rows := by
      unfold ofRows
      rw [List.range_succ, List.flatMap_append]
      simp
    rw [hsplit]
    by_cases hlt : y < rows
    · have hend := row_end_le cols hlt
      rw [← ih (fun y hy => hrow y (by omega)) hlt]
      unfold rowAt
      rw [List.drop_append_of_le_length (by omega)]
      exact List.take_append_of_le_length (by rw [List.length_drop]; omega)
    · have hyr : y = rows := by omega
      subst hyr
      unfold rowAt
      rw [List.drop_left' (by rw [hlen, Nat.mul_comm])]
      exact List.take_of_length_le (by omega)

/-- The rows `ys` of a buffer are replaced, one after the other. -/
def setRows (cols : Nat) (row : Nat → List α) (ys : List Nat) (buffer : List α) : List α :=
  ys.foldl (fun buffer y => setRow cols buffer y (row y)) buffer

theorem length_setRows (hrow : ∀ y < rows, (row y).length = cols) {ys : List Nat}
    (hys : ∀ y ∈ ys, y < rows) {buffer : List α} (hlen : buffer.length = cols * rows) :
    (setRows cols row ys buffer).length = cols * rows := by
  induction ys generalizing buffer with
  | nil => exact hlen
  | cons y ys ih =>
    have hy := hys y List.mem_cons_self
    exact ih (fun z hz => hys z (List.mem_cons_of_mem y hz))
      (length_setRow hy hlen (hrow y hy))

/-- A row that was written is the row written, every other row is as before. -/
theorem rowAt_setRows (hrow : ∀ y < rows, (row y).length = cols) {ys : List Nat}
    (hys : ∀ y ∈ ys, y < rows) {buffer : List α} (hlen : buffer.length = cols * rows) (z : Nat) :
    rowAt cols (setRows cols row ys buffer) z = if z ∈ ys then row z else rowAt cols buffer z := by
  induction ys generalizing buffer with
  | nil => simp [setRows]
  | cons y ys ih =>
    have hy := hys y List.mem_cons_self
    have hset := length_setRow hy hlen (hrow y hy)
    have hrest := ih (fun z hz => hys z (List.mem_cons_of_mem y hz)) hset
    have hcons : setRows cols row (y :: ys) buffer
        = setRows cols row ys (setRow cols buffer y (row y)) := rfl
    rw [hcons, hrest]
    by_cases hz : z ∈ ys
    · rw [if_pos hz, if_pos (List.mem_cons_of_mem y hz)]
    · rw [if_neg hz]
      by_cases hzy : z = y
      · subst hzy
        rw [if_pos List.mem_cons_self]
        exact rowAt_setRow_same hy hlen (hrow z hy)
      · rw [if_neg (by simp [hz, hzy])]
        exact rowAt_setRow_ne hy hzy hlen (hrow y hy)

end

end Homie.RowMajor
