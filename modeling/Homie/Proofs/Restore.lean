/-
What a screen relies on when it writes into the emulator's grid.

A grid has a size, keeps a limited number of lines of history, and takes in blank lines at the
bottom when it scrolls up; a cell that is written is the only one that changes.  `TerminalGrid` is
that list for an emulator, `LineTerm.grid` shows it for the small one.
-/
import Homie.Proofs.Checkpoints
import Homie.Proofs.ScreenSteps
import Homie.TerminalState.Screen

namespace Homie

variable {T : Type}

/-- A cell of the screen or of the history above it. -/
structure Emulator.OnGrid (E : Emulator T) (t : T) (cols rows : Nat) (line : Int) (column : Nat) :
    Prop where
  first : -(E.historySize t : Int) ≤ line
  last : line < rows
  column : column < cols

structure TerminalGrid (E : Emulator T) where
  /-- The grid has these columns and lines. -/
  Sized : T → (cols rows : Nat) → Prop
  /-- How many lines of history the grid in use keeps. -/
  limit : T → Nat
  /-- The cell of a line that comes in. -/
  fill : T → Cell
  sized_new (limit : Nat) {cols rows : Nat} : 0 < cols → 0 < rows →
    Sized (E.new limit cols rows) cols rows
  sized_advance {t : T} {cols rows : Nat} (bytes : List UInt8) : Sized t cols rows →
    Sized (E.advance t bytes).1 cols rows
  sized_damage {t : T} {cols rows : Nat} : Sized t cols rows → Sized (E.damage t).2 cols rows
  sized_resetDamage {t : T} {cols rows : Nat} : Sized t cols rows →
    Sized (E.resetDamage t) cols rows
  sized_resize {t : T} {cols rows newCols newRows : Nat} : Sized t cols rows → 0 < newCols →
    0 < newRows → Sized (E.resize t newCols newRows) newCols newRows
  historySize_le {t : T} {cols rows : Nat} : Sized t cols rows → E.historySize t ≤ limit t
  sized_scrollUp {t : T} {cols rows : Nat} (count : Nat) : Sized t cols rows →
    Sized (E.scrollUp t 0 rows count) cols rows
  historySize_scrollUp {t : T} {cols rows : Nat} (count : Nat) : Sized t cols rows →
    E.historySize (E.scrollUp t 0 rows count) = min (E.historySize t + count) (limit t)
  /-- Every line moves up. -/
  cell_scrollUp {t : T} {cols rows : Nat} (count : Nat) {line : Int} {column : Nat} :
    Sized t cols rows → E.OnGrid (E.scrollUp t 0 rows count) cols rows line column →
    E.cell (E.scrollUp t 0 rows count) line column =
      if line + count < rows then E.cell t (line + count) column else fill t
  sized_setCell {t : T} {cols rows : Nat} {line : Int} {column : Nat} (cell : Cell) :
    Sized t cols rows → E.OnGrid t cols rows line column →
    Sized (E.setCell t line column cell) cols rows
  historySize_setCell {t : T} {cols rows : Nat} {line : Int} {column : Nat} (cell : Cell) :
    Sized t cols rows → E.OnGrid t cols rows line column →
    E.historySize (E.setCell t line column cell) = E.historySize t
  /-- No other cell changes. -/
  cell_setCell {t : T} {cols rows : Nat} {line other : Int} {column otherColumn : Nat}
    (cell : Cell) : Sized t cols rows → E.OnGrid t cols rows line column →
    E.OnGrid t cols rows other otherColumn →
    E.cell (E.setCell t line column cell) other otherColumn =
      if other = line ∧ otherColumn = column then cell else E.cell t other otherColumn

/-! ### The small emulator -/

namespace LineTerm

/-- The lines are as wide as the screen; there are enough of them, and not too many. -/
structure Sized (t : LineTerm) (cols rows : Nat) : Prop where
  across : t.cols = cols
  down : t.rows = rows
  filled : rows ≤ t.lines.length
  bounded : t.lines.length ≤ t.scrollingHistory + rows
  width : ∀ line ∈ t.lines, line.length = cols

variable {t : LineTerm} {cols rows : Nat}

theorem sized_new (limit cols rows : Nat) : (new limit cols rows).Sized cols rows where
  across := rfl
  down := rfl
  filled := by simp [new]
  bounded := by simp [new]
  width line hline := by
    rw [List.eq_of_mem_replicate hline]
    exact List.length_replicate

theorem Sized.scrollUp (h : t.Sized cols rows) (count : Nat) :
    (t.scrollUp count).Sized cols rows where
  across := h.across
  down := h.down
  filled := by
    have := h.filled
    simp only [LineTerm.scrollUp, List.length_drop, List.length_append, List.length_replicate,
      h.down]
    omega
  bounded := by
    simp only [LineTerm.scrollUp, List.length_drop, h.down]
    omega
  width line hline := by
    rcases List.mem_append.mp (List.mem_of_mem_drop hline) with hold | hnew
    · exact h.width line hold
    · rw [List.eq_of_mem_replicate hnew, ← h.across]
      exact List.length_replicate

theorem Sized.setCell (h : t.Sized cols rows) (line : Int) (column : Nat) (cell : Cell) :
    (t.setCell line column cell).Sized cols rows where
  across := h.across
  down := h.down
  filled := by
    rw [LineTerm.setCell, List.length_modify]
    exact h.filled
  bounded := by
    rw [LineTerm.setCell, List.length_modify]
    exact h.bounded
  width changed hchanged := by
    obtain ⟨i, hi, rfl⟩ := List.mem_iff_getElem.mp hchanged
    have hi' : i < t.lines.length := by
      rw [LineTerm.setCell, List.length_modify] at hi
      exact hi
    have hwidth := h.width _ (List.getElem_mem hi')
    simp only [LineTerm.setCell, List.getElem_modify]
    split
    · rw [List.length_set, hwidth]
    · exact hwidth

theorem Sized.lineFeed (h : t.Sized cols rows) : t.lineFeed.Sized cols rows := by
  unfold LineTerm.lineFeed
  split
  · exact ⟨h.across, h.down, h.filled, h.bounded, h.width⟩
  · exact h.scrollUp 1

theorem Sized.input (h : t.Sized cols rows) (c : Char) : (t.input c).Sized cols rows := by
  have hput : ∀ u : LineTerm, u.Sized cols rows →
      (let u := u.setCell u.line u.column ⟨c, u.fg, .named .background, .empty⟩
        if u.column + 1 < u.cols then { u with column := u.column + 1 }
        else { u with wrapNext := true }).Sized cols rows := by
    intro u hu
    have hwritten := hu.setCell u.line u.column ⟨c, u.fg, .named .background, .empty⟩
    dsimp only
    split
    · exact ⟨hwritten.across, hwritten.down, hwritten.filled, hwritten.bounded, hwritten.width⟩
    · exact ⟨hwritten.across, hwritten.down, hwritten.filled, hwritten.bounded, hwritten.width⟩
  refine hput (if t.wrapNext then { t.lineFeed with column := 0, wrapNext := false } else t) ?_
  split
  · have hfeed := h.lineFeed
    exact ⟨hfeed.across, hfeed.down, hfeed.filled, hfeed.bounded, hfeed.width⟩
  · exact h

theorem Sized.selectColor (h : t.Sized cols rows) (code : List UInt8) :
    (t.selectColor code).Sized cols rows := by
  unfold LineTerm.selectColor
  split
  · exact ⟨h.across, h.down, h.filled, h.bounded, h.width⟩
  · exact ⟨h.across, h.down, h.filled, h.bounded, h.width⟩
  · split
    · exact h
    · rename_i digit _
      cases ansiColors[digit.toNat - 0x30]? with
      | none => exact h
      | some color => exact ⟨h.across, h.down, h.filled, h.bounded, h.width⟩
  · exact h

theorem Sized.advanceByte (h : t.Sized cols rows) (byte : UInt8) :
    (t.advanceByte byte).Sized cols rows := by
  unfold LineTerm.advanceByte
  cases t.escape with
  | some sequence =>
    dsimp only
    split
    · exact ⟨h.across, h.down, h.filled, h.bounded, h.width⟩
    · split
      · have hcolor := h.selectColor sequence.tail
        exact ⟨hcolor.across, hcolor.down, hcolor.filled, hcolor.bounded, hcolor.width⟩
      · exact ⟨h.across, h.down, h.filled, h.bounded, h.width⟩
  | none =>
    dsimp only
    split
    · exact ⟨h.across, h.down, h.filled, h.bounded, h.width⟩
    · split
      · exact ⟨h.across, h.down, h.filled, h.bounded, h.width⟩
      · split
        · exact h.lineFeed
        · split
          · exact h.input _
          · exact h

theorem Sized.advance (h : t.Sized cols rows) (bytes : List UInt8) :
    (bytes.foldl LineTerm.advanceByte t).Sized cols rows := by
  induction bytes generalizing t with
  | nil => exact h
  | cons byte bytes ih => exact ih (h.advanceByte byte)

theorem historySize_scrollUp (h : t.Sized cols rows) (count : Nat) :
    (t.scrollUp count).historySize = min (t.historySize + count) t.scrollingHistory := by
  have hfilled := h.filled
  have hbounded := h.bounded
  simp only [historySize, scrollUp, List.length_drop, List.length_append, List.length_replicate,
    h.down]
  omega

/-- The line that ends up at `line` was `count` lines below, or has come in. -/
theorem cell_scrollUp (h : t.Sized cols rows) (count : Nat) {line : Int} {column : Nat}
    (hfirst : -((t.scrollUp count).historySize : Int) ≤ line) (hlast : line < rows)
    (hcolumn : column < cols) :
    (t.scrollUp count).cell line column =
      if line + count < rows then t.cell (line + count) column else Cell.default := by
  have hfilled := h.filled
  have hbounded := h.bounded
  have hsize := historySize_scrollUp h count
  have hhistory : t.historySize = t.lines.length - rows := by rw [historySize, h.down]
  have hindex : (t.lines ++ List.replicate count (blankLine t.cols)).length
      - (t.scrollingHistory + t.rows) + (t.scrollUp count).lineIndex line
      = (line + count + t.historySize).toNat := by
    simp only [lineIndex, List.length_append, List.length_replicate, h.down]
    omega
  have hline : (t.scrollUp count).lines.getD ((t.scrollUp count).lineIndex line) []
      = ((t.lines ++ List.replicate count (blankLine t.cols))[
          (line + count + t.historySize).toNat]?).getD [] := by
    rw [List.getD_eq_getElem?_getD, ← hindex, ← List.getElem?_drop]
    rfl
  unfold cell
  rw [hline]
  by_cases hinside : line + count < rows
  · rw [if_pos hinside, List.getElem?_append_left (by omega), ← List.getD_eq_getElem?_getD]
    rfl
  · have hblank : (line + count + t.historySize).toNat - t.lines.length < count := by omega
    rw [if_neg hinside, List.getElem?_append_right (by omega), List.getElem?_replicate,
      if_pos hblank, Option.getD_some, blankLine, List.getD_eq_getElem?_getD,
      List.getElem?_replicate, h.across, if_pos hcolumn, Option.getD_some]

theorem cell_setCell (h : t.Sized cols rows) {line other : Int} {column otherColumn : Nat}
    (cell : Cell) (hline : -(t.historySize : Int) ≤ line ∧ line < rows)
    (hother : -(t.historySize : Int) ≤ other ∧ other < rows) (hcolumn : column < cols) :
    (t.setCell line column cell).cell other otherColumn =
      if other = line ∧ otherColumn = column then cell else t.cell other otherColumn := by
  have hfilled := h.filled
  have hhistory : t.historySize = t.lines.length - rows := by rw [historySize, h.down]
  have hsize : (t.setCell line column cell).historySize = t.historySize := by
    simp only [historySize, setCell, List.length_modify]
  have hsame : (t.setCell line column cell).lineIndex other = t.lineIndex other := by
    rw [lineIndex, hsize, lineIndex]
  have hbound : t.lineIndex other < t.lines.length := by
    rw [lineIndex]
    omega
  have hget : (t.setCell line column cell).lines.getD (t.lineIndex other) []
      = if t.lineIndex line = t.lineIndex other then t.lines[t.lineIndex other].set column cell
        else t.lines[t.lineIndex other] := by
    rw [setCell, List.getD_eq_getElem?_getD, List.getElem?_modify,
      List.getElem?_eq_getElem hbound]
    rfl
  have hold : t.lines.getD (t.lineIndex other) [] = t.lines[t.lineIndex other] := by
    rw [List.getD_eq_getElem?_getD, List.getElem?_eq_getElem hbound, Option.getD_some]
  have hwidth := h.width _ (List.getElem_mem hbound)
  have hindex : t.lineIndex line = t.lineIndex other ↔ other = line := by
    rw [lineIndex, lineIndex]
    omega
  unfold LineTerm.cell
  rw [hsame, hget, hold]
  by_cases heq : other = line
  · rw [if_pos (hindex.mpr heq), List.getD_eq_getElem?_getD, List.getElem?_set]
    by_cases hcol : otherColumn = column
    · subst hcol
      rw [if_pos rfl, if_pos (by omega), Option.getD_some, if_pos ⟨heq, rfl⟩]
    · rw [if_neg (Ne.symm hcol), if_neg (fun hboth => hcol hboth.2), List.getD_eq_getElem?_getD]
  · rw [if_neg (fun hi => heq (hindex.mp hi)), if_neg (fun hboth => heq hboth.1)]

def grid : TerminalGrid backend.toEmulator where
  Sized := Sized
  limit := scrollingHistory
  fill _ := Cell.default
  sized_new limit _ _ _ _ := sized_new limit _ _
  sized_advance bytes h := h.advance bytes
  sized_damage h := h
  sized_resetDamage h := h
  sized_resize _ _ _ := by
    rename_i t cols rows newCols newRows _ _ _
    have hnew := sized_new t.scrollingHistory newCols newRows
    exact ⟨hnew.across, hnew.down, hnew.filled, hnew.bounded, hnew.width⟩
  historySize_le h := by
    have hbounded := h.bounded
    simp only [backend, emulator, historySize, h.down]
    omega
  sized_scrollUp count h := h.scrollUp count
  historySize_scrollUp count h := historySize_scrollUp h count
  cell_scrollUp count _ _ h hgrid := cell_scrollUp h count hgrid.first hgrid.last hgrid.column
  sized_setCell cell h _ := h.setCell _ _ cell
  historySize_setCell cell _ _ := by
    simp only [backend, emulator, historySize, setCell, List.length_modify]
  cell_setCell cell h hgrid hother :=
    cell_setCell h cell ⟨hgrid.first, hgrid.last⟩ ⟨hother.first, hother.last⟩ hgrid.column

end LineTerm

/-! ### Screens -/

namespace HeadlessScreen

variable {E : Backend T} (grid : TerminalGrid E.toEmulator)

/-- The grid of the emulator is as large as the screen says. -/
def Sized (s : HeadlessScreen T) : Prop := grid.Sized s.term s.geometry.cols s.geometry.rows

end HeadlessScreen

end Homie

/-! ### What a restore leaves behind when it gives up

The header of a checkpoint is checked before anything is written.  The room for its history and
the rows of its grid are checked after the screen has scrolled, so a screen that is refused then
has lost its lines to the history, or has the history of the checkpoint.  It shows no trace of
that only where the history was full and what scrolled away was blank (`Unseen`).
-/

namespace Homie

open RowMajor

namespace HeadlessScreen

variable {T : Type} {E : Backend T} (grid : TerminalGrid E.toEmulator)

/-! ### Writing history -/

section

variable {t : T} {cols rows : Nat}

/-- The cells of a line are written from column `first` on. -/
theorem writeRow_spec (h : grid.Sized t cols rows) {line : Int}
    (hfirst : -(E.historySize t : Int) ≤ line) (hlast : line < rows) (cells : List GridCell)
    (first : Nat) (hwidth : first + cells.length ≤ cols) :
    let written := (cells.zipIdx first).foldl
      (fun term cell => E.setCell term line cell.2 (emulatorCell cell.1)) t
    grid.Sized written cols rows ∧ E.historySize written = E.historySize t ∧
      ∀ other column, E.OnGrid t cols rows other column → E.cell written other column =
        if other = line ∧ first ≤ column then
          (cells[column - first]?.map emulatorCell).getD (E.cell t other column)
        else E.cell t other column := by
  induction cells generalizing t first with
  | nil =>
    refine ⟨h, rfl, fun other column _ => ?_⟩
    simp
  | cons cell cells ih =>
    rw [List.length_cons] at hwidth
    have hgrid : E.OnGrid t cols rows line first := ⟨hfirst, hlast, by omega⟩
    have hset := grid.sized_setCell (emulatorCell cell) h hgrid
    have hsize := grid.historySize_setCell (emulatorCell cell) h hgrid
    obtain ⟨hsized, hkept, hcells⟩ := ih hset (by rw [hsize]; exact hfirst) (first + 1) (by omega)
    refine ⟨hsized, hkept.trans hsize, fun other column hother => ?_⟩
    refine (hcells other column ⟨by rw [hsize]; exact hother.first, hother.last,
      hother.column⟩).trans ?_
    rw [grid.cell_setCell (emulatorCell cell) h hgrid hother]
    by_cases hline : other = line
    · rcases Nat.lt_trichotomy column first with hlt | heq | hgt
      · rw [if_neg (by omega), if_neg (by omega), if_neg (by omega)]
      · subst heq
        rw [if_neg (by omega), if_pos ⟨hline, rfl⟩, if_pos ⟨hline, Nat.le_refl _⟩, Nat.sub_self]
        rfl
      · have hnext : column - first = column - (first + 1) + 1 := by omega
        rw [if_pos ⟨hline, hgt⟩, if_neg (by omega), if_pos ⟨hline, by omega⟩, hnext,
          List.getElem?_cons_succ]
    · rw [if_neg (fun hboth => hline hboth.1), if_neg (fun hboth => hline hboth.1),
        if_neg (fun hboth => hline hboth.1)]

/-- Rows are written to the lines from `first` on, counted from the first of `total`. -/
theorem writeRows_spec (h : grid.Sized t cols rows) {total : Nat}
    (htotal : total ≤ E.historySize t) (history : List (List GridCell)) (first : Nat)
    (hroom : first + history.length ≤ total) (hwidth : ∀ row ∈ history, row.length = cols) :
    let written := (history.zipIdx first).foldl (fun term row =>
      row.1.zipIdx.foldl (fun term cell =>
        E.setCell term (row.2 - total) cell.2 (emulatorCell cell.1)) term) t
    grid.Sized written cols rows ∧ E.historySize written = E.historySize t ∧
      ∀ other column, E.OnGrid t cols rows other column → E.cell written other column =
        if first ≤ other + total then
          ((history[(other + total - first).toNat]?.bind fun row => row[column]?).map
            emulatorCell).getD (E.cell t other column)
        else E.cell t other column := by
  induction history generalizing t first with
  | nil =>
    refine ⟨h, rfl, fun other column _ => ?_⟩
    simp
  | cons row history ih =>
    rw [List.length_cons] at hroom
    have hlength := hwidth row List.mem_cons_self
    have hbelow : (first : Int) - total < rows := by omega
    obtain ⟨hrow, hrowSize, hrowCells⟩ :=
      @writeRow_spec T E grid t cols rows h ((first : Int) - total) (by omega) hbelow row 0
        (by omega)
    obtain ⟨hsized, hkept, hcells⟩ := ih hrow (by rw [hrowSize]; exact htotal) (first + 1)
      (by omega) (fun row hrow => hwidth row (List.mem_cons_of_mem _ hrow))
    refine ⟨hsized, hkept.trans hrowSize, fun other column hother => ?_⟩
    refine (hcells other column ⟨by rw [hrowSize]; exact hother.first, hother.last,
      hother.column⟩).trans ?_
    rw [hrowCells other column hother]
    rcases Int.lt_trichotomy (other + total) (first : Int) with hlt | heq | hgt
    · rw [if_neg (by omega), if_neg (by omega), if_neg (by omega)]
    · have hzero : (other + total - first).toNat = 0 := by omega
      rw [if_neg (by omega), if_pos ⟨by omega, Nat.zero_le _⟩, if_pos (by omega), hzero]
      rfl
    · have hnext : (other + total - first).toNat
          = (other + total - (first + 1 : Nat)).toNat + 1 := by omega
      rw [if_pos (by omega), if_neg (by omega), if_pos (by omega), hnext,
        List.getElem?_cons_succ]

theorem writeHistory_spec (h : grid.Sized t cols rows) {history : List (List GridCell)}
    (hsize : E.historySize t = history.length) (hwidth : ∀ row ∈ history, row.length = cols) :
    grid.Sized (writeHistory E t history) cols rows ∧
      E.historySize (writeHistory E t history) = history.length ∧
      ∀ other column, E.OnGrid t cols rows other column →
        E.cell (writeHistory E t history) other column =
          ((history[(other + history.length).toNat]?.bind fun row => row[column]?).map
            emulatorCell).getD (E.cell t other column) := by
  obtain ⟨hsized, hkept, hcells⟩ := writeRows_spec grid h (Nat.le_of_eq hsize.symm) history 0
    (by omega) hwidth
  refine ⟨hsized, hkept.trans hsize, fun other column hother => ?_⟩
  have hfirst := hother.first
  refine (hcells other column hother).trans ?_
  rw [if_pos (by omega)]
  simp

end

/-! ### No trace -/

/-- What is seen of the screen, its history and the diff baseline is as before. -/
structure Untouched (E : Backend T) (s s' : HeadlessScreen T) : Prop where
  cells : s'.cells E = s.cells E
  history : s'.historySnapshot E = s.historySnapshot E
  lastCells : s'.lastCells = s.lastCells
  lastGridCols : s'.lastGridCols = s.lastGridCols
  lastGridRows : s'.lastGridRows = s.lastGridRows

variable {s : HeadlessScreen T}

/-- The line and column are on the grid of the screen. -/
def OnGrid (E : Backend T) (s : HeadlessScreen T) (line : Int) (column : Nat) : Prop :=
  E.OnGrid s.term s.geometry.cols s.geometry.rows line column

theorem wireRow_eq_iff (s : HeadlessScreen T) (term : T) (line : Int) :
    ({ s with term } : HeadlessScreen T).wireRow E line = s.wireRow E line ↔
      ∀ column < s.geometry.cols,
        wireCell (E.cell term line column) = wireCell (E.cell s.term line column) := by
  unfold wireRow
  rw [List.map_inj_left]
  constructor
  · exact fun h x hx => h x (List.mem_range.mpr hx)
  · exact fun h x hx => h x (List.mem_range.mp hx)

theorem cells_eq_iff (s : HeadlessScreen T) (term : T) :
    ({ s with term } : HeadlessScreen T).cells E = s.cells E ↔
      ∀ (line : Int) column, 0 ≤ line → line < s.geometry.rows → column < s.geometry.cols →
        wireCell (E.cell term line column) = wireCell (E.cell s.term line column) := by
  have hwidth : ∀ s : HeadlessScreen T, ∀ line, (s.wireRow E line).length = s.geometry.cols := by
    intro s line
    simp [wireRow]
  unfold cells
  constructor
  · intro h line column hline hlast hcolumn
    have hy : line.toNat < s.geometry.rows := by omega
    have hnat : ((line.toNat : Nat) : Int) = line := by omega
    have hrow : ({ s with term } : HeadlessScreen T).wireRow E line.toNat
        = s.wireRow E line.toNat := by
      rw [← rowAt_ofRows (fun y _ => hwidth s y) hy, ← h]
      exact (rowAt_ofRows (fun y _ => hwidth { s with term } y) hy).symm
    rw [hnat] at hrow
    exact (wireRow_eq_iff s term line).mp hrow column hcolumn
  · intro h
    unfold ofRows
    refine List.flatMap_congr fun y hy => (wireRow_eq_iff s term y).mpr fun column hcolumn => ?_
    have hlast : y < s.geometry.rows := List.mem_range.mp hy
    exact h y column (by omega) (by omega) hcolumn

theorem historySnapshot_eq (s : HeadlessScreen T) :
    s.historySnapshot E = (List.range (E.historySize s.term)).map fun i : Nat =>
      s.wireRow E (i - E.historySize s.term) := by
  unfold historySnapshot
  simp [← List.map_eq_flatMap]

theorem historySnapshot_eq_iff (s : HeadlessScreen T) (term : T) :
    ({ s with term } : HeadlessScreen T).historySnapshot E = s.historySnapshot E ↔
      E.historySize term = E.historySize s.term ∧
        ∀ (line : Int) column, -(E.historySize s.term : Int) ≤ line → line < 0 →
          column < s.geometry.cols →
          wireCell (E.cell term line column) = wireCell (E.cell s.term line column) := by
  rw [historySnapshot_eq, historySnapshot_eq]
  dsimp only
  constructor
  · intro h
    have hsize : E.historySize term = E.historySize s.term := by
      have hlength := congrArg List.length h
      simpa using hlength
    rw [hsize, List.map_inj_left] at h
    refine ⟨hsize, fun line column hfirst hlast hcolumn => ?_⟩
    have hline : ((line + E.historySize s.term).toNat : Int) - E.historySize s.term = line := by
      omega
    have hrow := h (line + E.historySize s.term).toNat (List.mem_range.mpr (by omega))
    rw [hline] at hrow
    exact (wireRow_eq_iff s term line).mp hrow column hcolumn
  · rintro ⟨hsize, h⟩
    rw [hsize, List.map_inj_left]
    intro i hi
    have := List.mem_range.mp hi
    exact (wireRow_eq_iff s term _).mpr fun column hcolumn =>
      h _ column (by omega) (by omega) hcolumn

/-- Only the emulator has changed: the same history, cell by cell, and the same screen. -/
theorem untouched_iff {term : T} :
    s.Untouched E { s with term } ↔
      E.historySize term = E.historySize s.term ∧
        ∀ line column, s.OnGrid E line column →
          wireCell (E.cell term line column) = wireCell (E.cell s.term line column) := by
  constructor
  · intro h
    obtain ⟨hsize, hhistory⟩ := (historySnapshot_eq_iff s term).mp h.history
    have hcells := (cells_eq_iff s term).mp h.cells
    refine ⟨hsize, fun line column hgrid => ?_⟩
    by_cases habove : line < 0
    · exact hhistory line column hgrid.first habove hgrid.column
    · exact hcells line column (by omega) hgrid.last hgrid.column
  · rintro ⟨hsize, h⟩
    refine ⟨(cells_eq_iff s term).mpr fun line column hline hlast hcolumn => ?_,
      (historySnapshot_eq_iff s term).mpr ⟨hsize, fun line column hfirst hlast hcolumn => ?_⟩,
      rfl, rfl, rfl⟩
    · exact h line column ⟨by omega, hlast, hcolumn⟩
    · exact h line column ⟨hfirst, by omega, hcolumn⟩

/-! ### What a failed restore has done -/

/-- The header of the checkpoint is not that of a checkpoint for this screen. -/
def Refuses (E : Backend T) (s : HeadlessScreen T) (history : List (List GridCell))
    (update : GridUpdate) : Prop :=
  !update.isFullSnapshot ∨ update.cols.toNat ≠ s.geometry.cols ∨
    update.rows.toNat ≠ s.geometry.rows ∨ update.changedRows.length ≠ s.geometry.rows ∨
    history.length > historyLineLimit E s.geometry.cols ∨
    history.any fun row => row.length != s.geometry.cols

instance (history : List (List GridCell)) (update : GridUpdate) :
    Decidable (s.Refuses E history update) := inferInstanceAs (Decidable (_ ∨ _))

/-- Every row of the update is one of the screen, and as wide. -/
def Fits (s : HeadlessScreen T) (update : GridUpdate) : Prop :=
  ∀ row ∈ update.changedRows, row.y.toNat < s.geometry.rows ∧ row.cells.length = s.geometry.cols

instance (update : GridUpdate) : Decidable (s.Fits update) :=
  inferInstanceAs (Decidable (∀ row ∈ update.changedRows, _))

/-- The history of a checkpoint, as it is shown once it is written. -/
def shown (history : List (List GridCell)) : List (List GridCell) :=
  history.map fun row => row.map fun cell => wireCell (emulatorCell cell)

/-- Nothing is seen of a scroll and the history that is written over it: the history is full, what
moves is blank, and the history of the checkpoint is the one that is there. -/
structure Unseen (s : HeadlessScreen T) (history : List (List GridCell)) : Prop where
  full : E.historySize s.term = grid.limit s.term
  blank : ∀ line column, s.OnGrid E line column →
    (history.length = grid.limit s.term → 0 ≤ line) →
    wireCell (E.cell s.term line column) = wireCell (grid.fill s.term)
  same : history.length = grid.limit s.term → s.historySnapshot E = shown history

/-- Lines from `first` on are as before a scroll exactly when they are blank. -/
theorem scrolled_iff (hs : s.Sized grid) {count : Nat}
    (hcount : 0 < count) {first : Int}
    (hfirst : -(E.historySize (E.scrollUp s.term 0 s.geometry.rows count) : Int) ≤ first) :
    (∀ line column, first ≤ line → line < s.geometry.rows → column < s.geometry.cols →
      wireCell (E.cell (E.scrollUp s.term 0 s.geometry.rows count) line column)
        = wireCell (E.cell s.term line column)) ↔
    ∀ line column, first ≤ line → line < s.geometry.rows → column < s.geometry.cols →
      wireCell (E.cell s.term line column) = wireCell (grid.fill s.term) := by
  constructor
  · intro h line column hline hlast hcolumn
    -- from the last line up, each line is the one that came in or equals one below
    induction hdepth : (s.geometry.rows - line).toNat using Nat.strongRecOn generalizing line with
    | _ depth ih =>
      rw [← h line column hline hlast hcolumn,
        grid.cell_scrollUp count hs ⟨by omega, hlast, hcolumn⟩]
      by_cases hinside : line + count < s.geometry.rows
      · rw [if_pos hinside]
        exact ih _ (by omega) (line + count) (by omega) hinside rfl
      · rw [if_neg hinside]
  · intro h line column hline hlast hcolumn
    rw [grid.cell_scrollUp count hs ⟨by omega, hlast, hcolumn⟩]
    by_cases hinside : line + count < s.geometry.rows
    · rw [if_pos hinside, h line column hline hlast hcolumn]
      exact h (line + count) column (by omega) hinside hcolumn
    · rw [if_neg hinside, h line column hline hlast hcolumn]

/-- There was no room for the history: the screen has scrolled. -/
theorem untouched_scrolled_iff (hs : s.Sized grid)
    {history : List (List GridCell)} (hhistory : 0 < history.length)
    (hroom : E.historySize (E.scrollUp s.term 0 s.geometry.rows history.length)
      ≠ history.length) :
    s.Untouched E { s with term := E.scrollUp s.term 0 s.geometry.rows history.length } ↔
      s.Unseen grid history := by
  have hsize := grid.historySize_scrollUp history.length hs
  have hle := grid.historySize_le hs
  rw [untouched_iff]
  constructor
  · rintro ⟨hsame, hcells⟩
    have hlimit : history.length ≠ grid.limit s.term := by omega
    have hblank := (scrolled_iff grid hs hhistory (by omega)).mp
      fun line column hline hlast hcolumn => hcells line column ⟨hline, hlast, hcolumn⟩
    exact ⟨by omega, fun line column hgrid _ =>
      hblank line column hgrid.first hgrid.last hgrid.column, fun h => absurd h hlimit⟩
  · intro h
    have hfull := h.full
    have hlimit : history.length ≠ grid.limit s.term := by omega
    have hsame : E.historySize (E.scrollUp s.term 0 s.geometry.rows history.length)
        = E.historySize s.term := by omega
    refine ⟨hsame, fun line column hgrid => ?_⟩
    refine (scrolled_iff grid hs hhistory (by omega)).mpr ?_ line column
      hgrid.first hgrid.last hgrid.column
    exact fun line column hline hlast hcolumn =>
      h.blank line column ⟨hline, hlast, hcolumn⟩ fun h => absurd h hlimit

theorem historySnapshot_written {term : T} {history : List (List GridCell)}
    (hterm : grid.Sized term s.geometry.cols s.geometry.rows)
    (hsize : E.historySize term = history.length)
    (hwidth : ∀ row ∈ history, row.length = s.geometry.cols) :
    ({ s with term := writeHistory E term history } : HeadlessScreen T).historySnapshot E
      = shown history := by
  obtain ⟨-, hwritten, hcells⟩ := writeHistory_spec grid hterm hsize hwidth
  rw [historySnapshot_eq]
  dsimp only
  rw [hwritten]
  refine List.ext_getElem (by simp [shown]) fun i hi hi' => ?_
  have hlt : i < history.length := by simpa using hi
  have hrow := hwidth _ (List.getElem_mem hlt)
  have hline : ((i : Int) - history.length + history.length).toNat = i := by omega
  refine List.ext_getElem (by simp [wireRow, shown, hrow]) fun x hx hx' => ?_
  have hcolumn : x < s.geometry.cols := by simpa [wireRow] using hx
  have hcell := hcells (i - history.length) x ⟨by omega, by omega, hcolumn⟩
  rw [hline, List.getElem?_eq_getElem hlt, Option.bind_some,
    List.getElem?_eq_getElem (by omega)] at hcell
  simp only [shown, wireRow, List.getElem_map, List.getElem_range]
  rw [hcell]
  rfl

/-- The history has been written, and a row of the grid did not fit. -/
theorem untouched_written_iff (hs : s.Sized grid)
    {history : List (List GridCell)} (hhistory : 0 < history.length)
    (hroom : E.historySize (E.scrollUp s.term 0 s.geometry.rows history.length)
      = history.length)
    (hwidth : ∀ row ∈ history, row.length = s.geometry.cols) :
    s.Untouched E { s with
        term := writeHistory E (E.scrollUp s.term 0 s.geometry.rows history.length) history } ↔
      s.Unseen grid history := by
  have hscrolled := grid.sized_scrollUp history.length hs
  have hsize := grid.historySize_scrollUp history.length hs
  have hle := grid.historySize_le hs
  have hsnapshot := historySnapshot_written grid (s := s) hscrolled hroom hwidth
  obtain ⟨-, -, hcells⟩ := writeHistory_spec grid hscrolled hroom hwidth
  -- the rows of the screen are not written to
  have hscreen : ∀ (line : Int) column, 0 ≤ line → line < s.geometry.rows → column < s.geometry.cols →
      E.cell (writeHistory E (E.scrollUp s.term 0 s.geometry.rows history.length) history) line
        column = E.cell (E.scrollUp s.term 0 s.geometry.rows history.length) line column := by
    intro line column hline hlast hcolumn
    rw [hcells line column ⟨by omega, hlast, hcolumn⟩, List.getElem?_eq_none (by omega)]
    rfl
  have hvisible : ({ s with
        term := writeHistory E (E.scrollUp s.term 0 s.geometry.rows history.length) history } :
        HeadlessScreen T).cells E = s.cells E ↔
      ∀ (line : Int) column, 0 ≤ line → line < s.geometry.rows → column < s.geometry.cols →
        wireCell (E.cell s.term line column) = wireCell (grid.fill s.term) := by
    have hscroll := @scrolled_iff T E grid s hs history.length hhistory 0 (by omega)
    rw [← hscroll, cells_eq_iff]
    constructor
    · intro h line column hline hlast hcolumn
      rw [← hscreen line column hline hlast hcolumn]
      exact h line column hline hlast hcolumn
    · intro h line column hline hlast hcolumn
      rw [hscreen line column hline hlast hcolumn]
      exact h line column hline hlast hcolumn
  constructor
  · intro h
    have hsame : s.historySnapshot E = shown history := h.history.symm.trans hsnapshot
    have hlength : E.historySize s.term = history.length := by
      have := congrArg List.length hsame
      simpa [historySnapshot_eq, shown] using this
    have hblank := hvisible.mp h.cells
    have hfull : E.historySize s.term = grid.limit s.term := by omega
    exact ⟨hfull, fun line column hgrid hline =>
      hblank line column (hline (by omega)) hgrid.last hgrid.column, fun _ => hsame⟩
  · intro h
    have hfull := h.full
    have hlimit : history.length = grid.limit s.term := by omega
    refine ⟨hvisible.mpr fun line column hline hlast hcolumn =>
      h.blank line column ⟨by omega, hlast, hcolumn⟩ fun _ => hline,
      hsnapshot.trans (h.same hlimit).symm, rfl, rfl, rfl⟩

/-! ### When a failed restore leaves no trace -/

theorem paintBytes_isSome (s : HeadlessScreen T) (update : GridUpdate)
    (altScreen bracketedPaste mouseReporting : Bool) :
    (paintBytes s.geometry.cols s.geometry.rows update altScreen bracketedPaste
      mouseReporting).isSome ↔ s.Fits update := by
  have hrow : ∀ row : ChangedRow, (paintRow s.geometry.cols s.geometry.rows row).isSome ↔
      row.y.toNat < s.geometry.rows ∧ row.cells.length = s.geometry.cols := by
    intro row
    unfold paintRow
    split
    · rename_i h
      simp only [Option.isSome_none, Bool.false_eq_true, false_iff]
      omega
    · rename_i h
      simp only [Option.isSome_some, true_iff]
      omega
  have hsorted : ((update.changedRows.mergeSort fun a b => a.y ≤ b.y).mapM
      (paintRow s.geometry.cols s.geometry.rows)).isSome ↔ s.Fits update := by
    unfold Fits
    rw [mapM_isSome]
    constructor
    · exact fun h row hmem => (hrow row).mp (h row (List.mem_mergeSort.mpr hmem))
    · exact fun h row hmem => (hrow row).mpr (h row (List.mem_mergeSort.mp hmem))
  rw [← hsorted]
  unfold paintBytes
  dsimp only
  cases (update.changedRows.mergeSort fun a b => a.y ≤ b.y).mapM
    (paintRow s.geometry.cols s.geometry.rows) <;> rfl

section

variable {history : List (List GridCell)} {update : GridUpdate}
  {altScreen bracketedPaste mouseReporting : Bool}

theorem restore_of_refuses (h : s.Refuses E history update) :
    s.restore E history update altScreen bracketedPaste mouseReporting = (false, s) := if_pos h

theorem restore_of_not_refuses (h : ¬ s.Refuses E history update) :
    s.restore E history update altScreen bracketedPaste mouseReporting =
      match s.restoreHistory E history with
      | (false, s') => (false, s')
      | (true, s') =>
        match paintBytes s.geometry.cols s.geometry.rows update altScreen bracketedPaste
          mouseReporting with
        | none => (false, s')
        | some bytes => (true, { s'.feed E bytes with lastGridCols := 0, lastGridRows := 0 }) :=
  if_neg h

theorem width_of_not_refuses (h : ¬ s.Refuses E history update) :
    ∀ row ∈ history, row.length = s.geometry.cols := by
  simp only [Refuses, not_or, Bool.not_eq_true, List.any_eq_false, bne_iff_ne, ne_eq,
    not_not] at h
  exact h.2.2.2.2.2

/-- A row that does not fit is found when the history has been written. -/
theorem restore_of_unfit (h : ¬ s.Refuses E history update)
    (hwritten : (s.restoreHistory E history).1 = true) (hfits : ¬ s.Fits update) :
    s.restore E history update altScreen bracketedPaste mouseReporting
      = (false, (s.restoreHistory E history).2) := by
  have hnone : paintBytes s.geometry.cols s.geometry.rows update altScreen bracketedPaste
      mouseReporting = none := by
    rw [← s.paintBytes_isSome update altScreen bracketedPaste mouseReporting] at hfits
    simpa using hfits
  rw [restore_of_not_refuses h, hnone]
  rcases hrestored : s.restoreHistory E history with ⟨written, s'⟩
  rw [hrestored] at hwritten
  cases hwritten
  rfl

end

/-- **A failed restore leaves no trace exactly when it fails at the header, has no history to
write, or cannot fail after that.**  It cannot when the emulator makes as many lines as the
checkpoint has and every row fits.  Else the screen has scrolled, and that is not seen only of a
full history and blank lines. -/
theorem restore_traceless_iff (hs : s.Sized grid)
    (history : List (List GridCell)) (update : GridUpdate)
    (altScreen bracketedPaste mouseReporting : Bool) :
    ((s.restore E history update altScreen bracketedPaste mouseReporting).1 = false →
      s.Untouched E (s.restore E history update altScreen bracketedPaste mouseReporting).2) ↔
    s.Refuses E history update ∨ history = [] ∨
      (min (E.historySize s.term + history.length) (grid.limit s.term) = history.length ∧
        s.Fits update) ∨
      s.Unseen grid history := by
  have hself : s.Untouched E s := ⟨rfl, rfl, rfl, rfl, rfl⟩
  have hpaint := s.paintBytes_isSome update altScreen bracketedPaste mouseReporting
  have hscroll := grid.historySize_scrollUp history.length hs
  by_cases hrefuses : s.Refuses E history update
  · rw [restore_of_refuses hrefuses]
    exact iff_of_true (fun _ => hself) (Or.inl hrefuses)
  have hwidth := width_of_not_refuses hrefuses
  rw [restore_of_not_refuses hrefuses]
  by_cases hempty : history = []
  · refine iff_of_true ?_ (Or.inr (Or.inl hempty))
    subst hempty
    intro hfalse
    cases hbytes : paintBytes s.geometry.cols s.geometry.rows update altScreen bracketedPaste
      mouseReporting with
    | none =>
      rw [hbytes] at hfalse
      exact hself
    | some bytes =>
      rw [hbytes] at hfalse
      cases hfalse
  have hlength : 0 < history.length := List.length_pos_iff.mpr hempty
  have hnonempty : history.isEmpty = false := by simpa using hempty
  by_cases hroom : E.historySize (E.scrollUp s.term 0 s.geometry.rows history.length)
      = history.length
  · have hwritten : s.restoreHistory E history = (true, { s with
        term := writeHistory E (E.scrollUp s.term 0 s.geometry.rows history.length) history }) := by
      simp [restoreHistory, hnonempty, hroom]
    have hiff := untouched_written_iff grid hs hlength hroom hwidth
    rw [hwritten]
    cases hbytes : paintBytes s.geometry.cols s.geometry.rows update altScreen bracketedPaste
      mouseReporting with
    | none =>
      have hfits : ¬ s.Fits update := by
        rw [← hpaint, hbytes]
        exact Bool.false_ne_true
      constructor
      · exact fun h => Or.inr (Or.inr (Or.inr (hiff.mp (h rfl))))
      · rintro (h | h | ⟨-, h⟩ | h)
        · exact absurd h hrefuses
        · exact absurd h hempty
        · exact absurd h hfits
        · exact fun _ => hiff.mpr h
    | some bytes =>
      have hfits : s.Fits update := hpaint.mp (by rw [hbytes]; rfl)
      exact iff_of_true nofun (Or.inr (Or.inr (Or.inl ⟨hscroll.symm.trans hroom, hfits⟩)))
  · have hscrolled : s.restoreHistory E history = (false, { s with
        term := E.scrollUp s.term 0 s.geometry.rows history.length }) := by
      simp [restoreHistory, hnonempty, hroom]
    have hiff := untouched_scrolled_iff grid hs hlength hroom
    rw [hscrolled]
    constructor
    · exact fun h => Or.inr (Or.inr (Or.inr (hiff.mp (h rfl))))
    · rintro (h | h | ⟨h, -⟩ | h)
      · exact absurd h hrefuses
      · exact absurd h hempty
      · exact absurd (hscroll.trans h) hroom
      · exact fun _ => hiff.mpr h

/-- A line stands on the screen, and the checkpoint has one line of history. -/
def typed : HeadlessScreen LineTerm := (new LineTerm.backend 2 1).feed LineTerm.backend [0x61]

/-- The one row of the grid has one cell of the two that its header announces. -/
def shortRow : GridUpdate :=
  ⟨2, 1, 0, 0, true, true, [⟨0, [GridCell.blank]⟩]⟩

def oneLine : List (List GridCell) := [[GridCell.blank, GridCell.blank]]

theorem sized_typed : typed.Sized LineTerm.grid := by
  rw [Sized, typed, feed_term]
  exact (LineTerm.sized_new _ 2 1).advance _

/-- Without history to write, the short row is found before anything has changed. -/
theorem restore_traceless_no_history :
    (typed.restore LineTerm.backend [] shortRow false false false).1 = false ∧
      typed.Untouched LineTerm.backend
        (typed.restore LineTerm.backend [] shortRow false false false).2 := by
  have hfalse : (typed.restore LineTerm.backend [] shortRow false false false).1 = false := by
    rw [restore_of_unfit (by decide) (by decide) (by decide)]
  exact ⟨hfalse, (restore_traceless_iff LineTerm.grid sized_typed [] shortRow false false false).mpr
    (Or.inr (Or.inl rfl)) hfalse⟩

/-- With a line of history the restore fails at the same row, and the screen is blank below the
line of the checkpoint. -/
theorem short_row_scrolls :
    (typed.restore LineTerm.backend oneLine shortRow false false false).1 = false ∧
      (typed.restore LineTerm.backend oneLine shortRow false false false).2.historySnapshot
        LineTerm.backend ≠ typed.historySnapshot LineTerm.backend ∧
      (typed.restore LineTerm.backend oneLine shortRow false false false).2.cells
        LineTerm.backend ≠ typed.cells LineTerm.backend := by
  rw [restore_of_unfit (by decide) (by decide) (by decide)]
  decide

/-! ### Every screen has its size -/

end HeadlessScreen

end Homie
