/-
A renderer that follows the damage of a buffer.

A row keeps its generation only where its cells stay, and every other row takes a generation that no
renderer has seen (`apply_row`).  So where the generation a renderer knows is the one the row has,
what it drew is what the row holds (`Synced`), and the rows it is given are all it lacks.  That needs
generations that do not come around, and that never reach the one that stands for none.

The cells are patched row by row like the wire format's own helper does it; the two differ in when
they clear the buffer first.
-/
import Homie.Lib.Trace
import Homie.Proofs.GridMirror
import Homie.Term.Buffer

namespace Homie.Term

open RowMajor

namespace GridBuffer

/-! ### Patches -/

section

variable {cols rows : Nat} {patch : Patch} {changedRow : ChangedRow}

theorem Patch.apply_cells (hlength : patch.cells.length = cols * rows) :
    (patch.apply cols rows changedRow).cells = changedRow.applyTo cols rows patch.cells := by
  unfold Patch.apply
  dsimp only
  split
  · rename_i hout
    rw [ChangedRow.applyTo, if_pos hout]
  · rename_i hin
    have hrow : changedRow.y.toNat < rows := Nat.lt_of_not_le hin
    split
    · rfl
    · rename_i hsame
      obtain ⟨hfront, hrest⟩ := not_or.mp hsame
      have hwidth := length_rowAt hrow hlength
      have hfitted : changedRow.fitted cols = rowAt cols patch.cells changedRow.y.toNat := by
        rw [ChangedRow.fitted, ← not_not.mp hfront]
        conv_rhs => rw [← List.take_append_drop (min changedRow.cells.length cols)
          (rowAt cols patch.cells changedRow.y.toNat)]
        congr 1
        refine (List.eq_replicate_iff.mpr ⟨?_, ?_⟩).symm
        · rw [List.length_drop, hwidth]
        · intro cell hcell
          by_contra hother
          exact hrest (List.any_eq_true.mpr ⟨cell, hcell, by simpa using hother⟩)
      rw [changedRow.applyTo_eq hrow, hfitted]
      refine eq_of_rows hlength (length_setRow hrow hlength hwidth) fun y hy => ?_
      by_cases hy' : y = changedRow.y.toNat
      · subst hy'
        rw [rowAt_setRow_same hrow hlength hwidth]
      · rw [rowAt_setRow_ne hrow hy' hlength hwidth]

/-- What patching keeps: a row that changed is marked, and so is the whole patch. -/
structure Marks (cols rows : Nat) (start patch : Patch) : Prop where
  cells : patch.cells.length = cols * rows
  dirtyRows : patch.dirtyRows.length = start.dirtyRows.length
  stays : ∀ row : Nat, start.dirtyRows[row]? = some true → patch.dirtyRows[row]? = some true
  marked : ∀ row : Nat, row < rows → patch.dirtyRows[row]? = some true ∨
    rowAt cols patch.cells row = rowAt cols start.cells row
  changed : start.changed = true → patch.changed = true
  unchanged : patch.changed = false → patch.cells = start.cells

theorem Marks.apply {start : Patch} (h : Marks cols rows start patch)
    (hrows : start.dirtyRows.length = rows) (changedRow : ChangedRow) :
    Marks cols rows start (patch.apply cols rows changedRow) := by
  unfold Patch.apply
  dsimp only
  split
  · exact h
  · rename_i hin
    have hrow : changedRow.y.toNat < rows := Nat.lt_of_not_le hin
    split
    · refine ⟨changedRow.length_applyTo h.cells, ?_, ?_, ?_, fun _ => rfl, nofun⟩
      · rw [List.length_set, h.dirtyRows]
      · intro row hdirty
        rw [List.getElem?_set]
        split
        · rename_i hsame
          rw [if_pos (by rw [h.dirtyRows]; omega)]
        · exact h.stays row hdirty
      · intro row hlt
        by_cases hsame : changedRow.y.toNat = row
        · refine .inl ?_
          rw [List.getElem?_set, if_pos hsame, if_pos (by rw [h.dirtyRows]; omega)]
        · rcases h.marked row hlt with hdirty | hrowAt
          · exact .inl (by rw [List.getElem?_set, if_neg hsame, hdirty])
          · refine .inr ?_
            rw [changedRow.applyTo_eq hrow, rowAt_setRow_ne hrow (Ne.symm hsame) h.cells
              (changedRow.length_fitted cols), hrowAt]
    · exact h

theorem marks_foldl (changedRows : List ChangedRow) {start : Patch}
    (hlength : start.cells.length = cols * rows) (hrows : start.dirtyRows.length = rows) :
    Marks cols rows start (changedRows.foldl (Patch.apply cols rows) start) ∧
      (changedRows.foldl (Patch.apply cols rows) start).cells
        = changedRows.foldl (ChangedRow.applyTo cols rows) start.cells := by
  induction changedRows using List.reverseRecOn with
  | nil =>
    exact ⟨⟨hlength, rfl, fun _ h => h, fun _ _ => .inr rfl, fun h => h, fun _ => rfl⟩, rfl⟩
  | append_singleton changedRows changedRow ih =>
    obtain ⟨hmarks, hcells⟩ := ih
    rw [List.foldl_append, List.foldl_append]
    refine ⟨hmarks.apply hrows changedRow, ?_⟩
    rw [← hcells]
    exact Patch.apply_cells hmarks.cells

end

/-! ### Updates -/

/-- The lists of a buffer have the lengths of its geometry. -/
structure WellFormed (buffer : GridBuffer) : Prop where
  cells : buffer.cells.length = buffer.cols.toNat * buffer.rows.toNat
  rowGenerations : buffer.rowGenerations.length = buffer.rows.toNat
  dirtyRows : buffer.dirtyRows.length = buffer.rows.toNat

theorem wellFormed_new (cols rows : UInt16) : WellFormed (new cols rows) :=
  ⟨List.length_replicate, List.length_replicate, List.length_replicate⟩

section

variable {buffer : GridBuffer} {update : GridUpdate}

/-- The update replaces what the buffer holds. -/
def Replaces (buffer : GridBuffer) (update : GridUpdate) : Prop :=
  update.isFullSnapshot ∨ buffer.cols ≠ update.cols ∨ buffer.rows ≠ update.rows

instance (buffer : GridBuffer) (update : GridUpdate) : Decidable (Replaces buffer update) :=
  inferInstanceAs (Decidable (_ ∨ _ ∨ _))

/-- What the loop over the changed rows starts from. -/
def startPatch (buffer : GridBuffer) (update : GridUpdate) : Patch :=
  if Replaces buffer update then
    ⟨List.replicate (update.cols.toNat * update.rows.toNat) GridCell.blank,
      List.replicate update.rows.toNat true, true⟩
  else
    ⟨buffer.cells, resize (buffer.dirtyRows.map fun _ => false) update.rows.toNat false, false⟩

def patched (buffer : GridBuffer) (update : GridUpdate) : Patch :=
  update.changedRows.foldl (Patch.apply update.cols.toNat update.rows.toNat)
    (startPatch buffer update)

theorem length_resize {α : Type} (list : List α) (length : Nat) (value : α) :
    (resize list length value).length = length := by
  unfold resize
  rw [List.length_append, List.length_take, List.length_replicate]
  omega

theorem marks_patched (h : WellFormed buffer) :
    Marks update.cols.toNat update.rows.toNat (startPatch buffer update) (patched buffer update) ∧
      (patched buffer update).cells
        = update.changedRows.foldl (ChangedRow.applyTo update.cols.toNat update.rows.toNat)
            (startPatch buffer update).cells := by
  refine marks_foldl update.changedRows ?_ ?_
  · unfold startPatch
    split
    · exact List.length_replicate
    · rename_i hsame
      obtain ⟨_, hgeometry⟩ := not_or.mp hsame
      obtain ⟨hcols, hrows⟩ := not_or.mp hgeometry
      rw [← not_not.mp hcols, ← not_not.mp hrows]
      exact h.cells
  · unfold startPatch
    split
    · exact List.length_replicate
    · exact length_resize _ _ _

/-- The rows that are dirty once the cursor has moved. -/
def dirtied (buffer : GridBuffer) (update : GridUpdate) (patch : Patch) : List Bool :=
  if buffer.cursor ≠ ⟨update.cursorCol, update.cursorRow, update.cursorVisible⟩ then
    (patch.dirtyRows.set buffer.cursor.row.toNat true).set update.cursorRow.toNat true
  else patch.dirtyRows

theorem length_dirtied (buffer : GridBuffer) (update : GridUpdate) (patch : Patch) :
    (dirtied buffer update patch).length = patch.dirtyRows.length := by
  unfold dirtied
  split
  · rw [List.length_set, List.length_set]
  · rfl

theorem dirtied_of_dirty {patch : Patch} {row : Nat} (h : patch.dirtyRows[row]? = some true) :
    (dirtied buffer update patch)[row]? = some true := by
  have hset : ∀ {dirtyRows : List Bool} (index : Nat), dirtyRows[row]? = some true →
      (dirtyRows.set index true)[row]? = some true := by
    intro dirtyRows index hdirty
    obtain ⟨hlt, _⟩ := List.getElem?_eq_some_iff.mp hdirty
    rw [List.getElem?_set]
    split
    · rename_i hsame
      rw [if_pos (by omega)]
    · exact hdirty
  unfold dirtied
  split
  · exact hset _ (hset _ h)
  · exact h

/-- Something changed, so the update has a generation of its own. -/
def Changes (buffer : GridBuffer) (update : GridUpdate) : Prop :=
  (patched buffer update).changed ∨
    buffer.cursor ≠ ⟨update.cursorCol, update.cursorRow, update.cursorVisible⟩

instance (buffer : GridBuffer) (update : GridUpdate) : Decidable (Changes buffer update) :=
  inferInstanceAs (Decidable (_ ∨ _))

/-- The generations before the update gives its own. -/
def keptGenerations (buffer : GridBuffer) (update : GridUpdate) : List UInt64 :=
  if Replaces buffer update ∨ buffer.dirtyRows.length ≠ update.rows.toNat then
    resize buffer.rowGenerations update.rows.toNat 0
  else buffer.rowGenerations

theorem apply_eq (buffer : GridBuffer) (update : GridUpdate) :
    (buffer.apply update).1
      = { cols := update.cols
          rows := update.rows
          cells := (patched buffer update).cells
          cursor := ⟨update.cursorCol, update.cursorRow, update.cursorVisible⟩
          generation :=
            if Changes buffer update then buffer.generation + 1 else buffer.generation
          rowGenerations :=
            if Changes buffer update then
              List.zipWith (fun known dirty =>
                  if dirty then
                    if Changes buffer update then buffer.generation + 1 else buffer.generation
                  else known)
                (keptGenerations buffer update) (dirtied buffer update (patched buffer update))
            else keptGenerations buffer update
          dirtyRows := dirtied buffer update (patched buffer update) } := rfl

theorem length_keptGenerations (h : WellFormed buffer) :
    (keptGenerations buffer update).length = update.rows.toNat := by
  unfold keptGenerations
  split
  · exact length_resize _ _ _
  · rename_i hsame
    rw [h.rowGenerations, ← h.dirtyRows]
    exact not_not.mp (not_or.mp hsame).2

theorem wellFormed_apply (h : WellFormed buffer) (update : GridUpdate) :
    WellFormed (buffer.apply update).1 := by
  have hmarks := (@marks_patched buffer update h).1
  have hkept := @length_keptGenerations buffer update h
  have hdirty : (dirtied buffer update (patched buffer update)).length = update.rows.toNat := by
    rw [length_dirtied, hmarks.dirtyRows, startPatch]
    split
    · exact List.length_replicate
    · exact length_resize _ _ _
  rw [apply_eq]
  refine ⟨hmarks.cells, ?_, hdirty⟩
  dsimp only
  split
  · rw [List.length_zipWith, hkept, hdirty, Nat.min_self]
  · exact hkept

theorem apply_row (h : WellFormed buffer) (update : GridUpdate) {row : Nat}
    (hrow : row < update.rows.toNat) :
    ((buffer.apply update).1.generation = buffer.generation + 1 ∧
        (buffer.apply update).1.rowGenerations[row]? = some (buffer.generation + 1)) ∨
      buffer.cols = update.cols ∧ buffer.rows = update.rows ∧
        (buffer.apply update).1.rowGenerations[row]? = buffer.rowGenerations[row]? ∧
        rowAt update.cols.toNat (buffer.apply update).1.cells row
          = rowAt update.cols.toNat buffer.cells row := by
  have hmarks := (@marks_patched buffer update h).1
  have hkept := @length_keptGenerations buffer update h
  have hformed := wellFormed_apply h update
  rw [apply_eq] at hformed ⊢
  have hlength := hformed.dirtyRows
  dsimp only at hlength ⊢
  by_cases hreplaces : Replaces buffer update
  · -- every row starts dirty
    have hchanged : (patched buffer update).changed = true :=
      hmarks.changed (by rw [startPatch, if_pos hreplaces])
    have hdirty : (dirtied buffer update (patched buffer update))[row]? = some true := by
      refine dirtied_of_dirty (hmarks.stays row ?_)
      rw [startPatch, if_pos hreplaces, List.getElem?_replicate, if_pos hrow]
    have hchanges : Changes buffer update := .inl hchanged
    refine .inl ⟨if_pos hchanges, ?_⟩
    rw [if_pos hchanges, List.getElem?_zipWith, hdirty,
      List.getElem?_eq_getElem (by rw [hkept]; exact hrow)]
    simp [hchanges]
  · obtain ⟨_, hgeometry⟩ := not_or.mp hreplaces
    obtain ⟨hcols, hrows⟩ := not_or.mp hgeometry
    have hstart : (startPatch buffer update).cells = buffer.cells := by
      rw [startPatch, if_neg hreplaces]
    have hgenerations : keptGenerations buffer update = buffer.rowGenerations := by
      rw [keptGenerations, if_neg]
      rw [h.dirtyRows, not_or]
      exact ⟨hreplaces, by rw [not_not.mp hrows]; simp⟩
    by_cases hchanges : Changes buffer update
    · rw [if_pos hchanges, if_pos hchanges, List.getElem?_zipWith, hgenerations]
      have hknown : row < buffer.rowGenerations.length := by
        rw [h.rowGenerations, not_not.mp hrows]
        exact hrow
      have hin : row < (dirtied buffer update (patched buffer update)).length := by
        rw [hlength]
        exact hrow
      cases hdirty : (dirtied buffer update (patched buffer update))[row] with
      | true =>
        refine .inl ⟨rfl, ?_⟩
        rw [List.getElem?_eq_getElem hknown, List.getElem?_eq_getElem hin, hdirty]
        rfl
      | false =>
        refine .inr ⟨not_not.mp hcols, not_not.mp hrows, ?_, ?_⟩
        · rw [List.getElem?_eq_getElem hknown, List.getElem?_eq_getElem hin, hdirty]
          rfl
        · rcases hmarks.marked row hrow with hmarked | hstays
          · have hset := @dirtied_of_dirty buffer update _ _ hmarked
            rw [List.getElem?_eq_getElem hin, hdirty] at hset
            cases hset
          · rw [hstays, hstart]
    · have hunchanged : (patched buffer update).changed = false := by
        rw [← Bool.not_eq_true]
        exact (not_or.mp hchanges).1
      rw [if_neg hchanges, if_neg hchanges, hgenerations, hmarks.unchanged hunchanged, hstart]
      exact .inr ⟨not_not.mp hcols, not_not.mp hrows, rfl, rfl⟩

theorem apply_generation (buffer : GridBuffer) (update : GridUpdate) :
    (buffer.apply update).1.generation = buffer.generation ∨
      (buffer.apply update).1.generation = buffer.generation + 1 := by
  rw [apply_eq]
  dsimp only
  split
  · exact .inr rfl
  · exact .inl rfl

theorem apply_cells (h : WellFormed buffer) (update : GridUpdate) :
    (buffer.apply update).1.cells
      = update.changedRows.foldl (ChangedRow.applyTo update.cols.toNat update.rows.toNat)
          (if Replaces buffer update then
            List.replicate (update.cols.toNat * update.rows.toNat) GridCell.blank
          else buffer.cells) := by
  rw [apply_eq]
  dsimp only
  rw [(marks_patched h).2, startPatch]
  split
  · rfl
  · rfl

/-- Where the update has another geometry with as many cells, the rows it does not have are blank
already. -/
def PatchesAlike (buffer : GridBuffer) (update : GridUpdate) : Prop :=
  update.isFullSnapshot = true ∨ (buffer.cols = update.cols ∧ buffer.rows = update.rows) ∨
    buffer.cells.length ≠ update.cols.toNat * update.rows.toNat ∨
    ∀ y < update.rows.toNat, (∀ changed ∈ update.changedRows, changed.y.toNat ≠ y) →
      rowAt update.cols.toNat buffer.cells y = List.replicate update.cols.toNat GridCell.blank

theorem rowAt_blank {cols rows y : Nat} (hy : y < rows) :
    rowAt cols (List.replicate (cols * rows) GridCell.blank) y
      = List.replicate cols GridCell.blank := by
  refine List.eq_replicate_iff.mpr ⟨length_rowAt hy List.length_replicate, ?_⟩
  intro cell hcell
  exact List.eq_of_mem_replicate (List.mem_of_mem_drop (List.mem_of_mem_take hcell))

theorem apply_cells_iff (h : WellFormed buffer) (update : GridUpdate) :
    (buffer.apply update).1.cells = update.apply buffer.cells ↔ PatchesAlike buffer update := by
  rw [apply_cells h, GridUpdate.apply_eq]
  unfold GridUpdate.cleared PatchesAlike
  by_cases hfull : update.isFullSnapshot = true
  · refine iff_of_true ?_ (.inl hfull)
    rw [if_pos (.inl hfull), if_pos (.inl hfull)]
  by_cases hgeometry : buffer.cols = update.cols ∧ buffer.rows = update.rows
  · refine iff_of_true ?_ (.inr (.inl hgeometry))
    have hlength := h.cells
    rw [hgeometry.1, hgeometry.2] at hlength
    rw [if_neg (by simp [Replaces, hfull, hgeometry]), if_neg (by simp [hfull, hlength])]
  have hreplaces : Replaces buffer update :=
    .inr (Decidable.not_and_iff_or_not.mp hgeometry)
  by_cases hlength : buffer.cells.length = update.cols.toNat * update.rows.toNat
  · rw [if_pos hreplaces, if_neg (by simp [hfull, hlength]), or_iff_right hfull,
      or_iff_right hgeometry, or_iff_right (not_not.mpr hlength)]
    have hstart : (List.replicate (update.cols.toNat * update.rows.toNat) GridCell.blank).length
        = update.cols.toNat * update.rows.toNat := List.length_replicate
    obtain ⟨hblank, hrows⟩ := GridUpdate.foldl_applyTo update.changedRows hstart
    obtain ⟨hold, hrows'⟩ := GridUpdate.foldl_applyTo update.changedRows hlength
    have hwritten : ∀ y, ((update.changedRows.reverse.find? fun changed => changed.y.toNat = y).map
          (·.fitted update.cols.toNat)) = none ↔
        ∀ changed ∈ update.changedRows, changed.y.toNat ≠ y := by
      intro y
      simp
    constructor
    · intro heq y hy hnone
      have hrow := (hrows y hy).symm.trans ((congrArg (rowAt update.cols.toNat · y) heq).trans
        (hrows' y hy))
      rw [(hwritten y).mpr hnone, Option.getD_none, Option.getD_none, rowAt_blank hy] at hrow
      exact hrow.symm
    · intro hblanks
      refine eq_of_rows hblank hold fun y hy => ?_
      rw [hrows y hy, hrows' y hy]
      cases hfound : (update.changedRows.reverse.find? fun changed => changed.y.toNat = y).map
          (·.fitted update.cols.toNat) with
      | none =>
        rw [Option.getD_none, Option.getD_none, rowAt_blank hy,
          hblanks y hy ((hwritten y).mp hfound)]
      | some row => rfl
  · refine iff_of_true ?_ (.inr (.inr (.inl hlength)))
    rw [if_pos hreplaces, if_pos (.inr hlength)]

end

/-! ### The renderer -/

/-- A renderer of a window of one size: the buffer it watches, the generations it knows and the
rows it drew. -/
structure Renderer where
  buffer : GridBuffer
  known : List UInt64
  drawn : Nat → List GridCell

inductive RenderCall where
  | apply (update : GridUpdate)
  | snapshotDamage (force : Bool)

/-- Only the rows that are given are drawn again. -/
def redraw (drawn : Nat → List GridCell) (changedRows : List ChangedRenderRow) :
    Nat → List GridCell :=
  changedRows.foldl (fun drawn changed row => if row = changed.row then changed.cells else drawn row)
    drawn

def Renderer.step (visibleRows visibleCols : Nat) (renderer : Renderer) :
    RenderCall → Renderer × Unit
  | .apply update => ({ renderer with buffer := (renderer.buffer.apply update).1 }, ())
  | .snapshotDamage force =>
    let (known, damage) :=
      renderer.buffer.snapshotDamage renderer.known visibleRows visibleCols force
    ({ renderer with known := known, drawn := redraw renderer.drawn damage.changedRows }, ())

section

variable {renderer : Renderer} {visibleRows visibleCols : Nat}

/-- What a window of that many columns shows of a row. -/
def shownRow (buffer : GridBuffer) (visibleCols row : Nat) : List GridCell :=
  (rowAt buffer.cols.toNat buffer.cells row).take (min visibleCols buffer.cols.toNat)

/-- The renderer drew the rows of the buffer. -/
def Shows (visibleRows visibleCols : Nat) (renderer : Renderer) : Prop :=
  ∀ row < min visibleRows renderer.buffer.rows.toNat,
    renderer.drawn row = shownRow renderer.buffer visibleCols row

theorem redraw_eq (given : UInt64 → Nat → Prop) [∀ generation row, Decidable (given generation row)]
    (drawRow : Nat → ChangedRenderRow) (hrow : ∀ row, (drawRow row).row = row)
    (known : List UInt64) (drawn : Nat → List GridCell) (row : Nat) :
    redraw drawn (known.zipIdx.filterMap fun (generation, row) =>
        if given generation row then some (drawRow row) else none) row
      = match known[row]? with
        | some generation => if given generation row then (drawRow row).cells else drawn row
        | none => drawn row := by
  unfold redraw
  induction known using List.reverseRecOn with
  | nil => rfl
  | append_singleton known last ih =>
    have hsplit : (known ++ [last]).zipIdx.filterMap (fun (generation, row) =>
          if given generation row then some (drawRow row) else none)
        = known.zipIdx.filterMap (fun (generation, row) =>
            if given generation row then some (drawRow row) else none)
          ++ if given last known.length then [drawRow known.length] else [] := by
      rw [List.zipIdx_append, List.filterMap_append, Nat.zero_add]
      by_cases hgiven : given last known.length
      · simp [hgiven]
      · simp [hgiven]
    rw [hsplit, List.foldl_append]
    rcases Nat.lt_trichotomy row known.length with hlt | rfl | hgt
    · rw [List.getElem?_append_left hlt, ← ih]
      split
      · simp only [List.foldl_cons, List.foldl_nil, hrow]
        rw [if_neg (by omega)]
      · rfl
    · rw [List.getElem?_eq_none (Nat.le_refl _)] at ih
      rw [List.getElem?_append_right (Nat.le_refl _), Nat.sub_self, List.getElem?_cons_zero]
      dsimp only at ih ⊢
      rw [← ih]
      split
      · simp only [List.foldl_cons, List.foldl_nil, hrow, if_true]
      · rfl
    · rw [List.getElem?_eq_none (by omega)] at ih
      rw [List.getElem?_eq_none (by simp; omega), ← ih]
      split
      · simp only [List.foldl_cons, List.foldl_nil, hrow]
        rw [if_neg (by omega)]
      · rfl

theorem getElem?_resize {α : Type} (list : List α) {length index : Nat} (value : α)
    (h : index < length) :
    (resize list length value)[index]?
      = if index < list.length then list[index]? else some value := by
  unfold resize
  split
  · rename_i hin
    rw [List.getElem?_append_left (by rw [List.length_take]; omega), List.getElem?_take_of_lt h]
  · rename_i hout
    rw [List.getElem?_append_right (by rw [List.length_take]; omega), List.getElem?_replicate,
      if_pos (by rw [List.length_take]; omega)]

/-- What the renderer drew of a row is still there while the row has the generation it knows. -/
structure Synced (visibleCols : Nat) (renderer : Renderer) : Prop where
  formed : WellFormed renderer.buffer
  small : renderer.buffer.generation.toNat < 2 ^ 64 - 1
  generations : ∀ (row : Nat) generation, renderer.buffer.rowGenerations[row]? = some generation →
    generation.toNat ≤ renderer.buffer.generation.toNat
  known : ∀ (row : Nat) generation, renderer.known[row]? = some generation →
    generation.toNat ≤ renderer.buffer.generation.toNat
  drawn : ∀ row < renderer.buffer.rows.toNat, ∀ generation,
    renderer.known[row]? = some generation →
    renderer.buffer.rowGenerations[row]? = some generation →
    renderer.drawn row = shownRow renderer.buffer visibleCols row

/-- An update comes while there is a generation left for it. -/
def InTime (call : Trace.Step Renderer RenderCall Unit) : Prop :=
  match call.event with
  | .apply _ => call.before.buffer.generation.toNat + 2 < 2 ^ 64
  | .snapshotDamage _ => True

theorem Synced.apply (h : Synced visibleCols renderer)
    (htime : renderer.buffer.generation.toNat + 2 < 2 ^ 64) (update : GridUpdate) :
    Synced visibleCols (renderer.step visibleRows visibleCols (.apply update)).1 := by
  have hnext : (renderer.buffer.generation + 1).toNat = renderer.buffer.generation.toNat + 1 := by
    rw [UInt64.toNat_add, UInt64.toNat_one]
    omega
  have hformed := wellFormed_apply h.formed update
  have hle : renderer.buffer.generation.toNat ≤ (renderer.buffer.apply update).1.generation.toNat ∧
      (renderer.buffer.apply update).1.generation.toNat ≤ renderer.buffer.generation.toNat + 1 := by
    rcases apply_generation renderer.buffer update with heq | heq
    · rw [heq]
      omega
    · rw [heq, hnext]
      omega
  refine ⟨hformed, ?_, ?_, ?_, ?_⟩
  · change (renderer.buffer.apply update).1.generation.toNat < _
    omega
  · intro row generation hgeneration
    change generation.toNat ≤ (renderer.buffer.apply update).1.generation.toNat
    have hrow : row < update.rows.toNat := by
      have hlength := hformed.rowGenerations
      have hin := (List.getElem?_eq_some_iff.mp hgeneration).1
      exact hlength ▸ hin
    rcases apply_row h.formed update hrow with ⟨htaken, hnew⟩ | ⟨_, _, hsame, _⟩
    · obtain rfl := Option.some.inj (hnew.symm.trans hgeneration)
      rw [htaken]
    · have hold := h.generations row generation (hsame.symm.trans hgeneration)
      omega
  · intro row generation hgeneration
    have hold := h.known row generation hgeneration
    change generation.toNat ≤ (renderer.buffer.apply update).1.generation.toNat
    omega
  · intro row hrow generation hknown hgeneration
    change renderer.drawn row = shownRow (renderer.buffer.apply update).1 visibleCols row
    rcases apply_row h.formed update hrow with ⟨_, hnew⟩ | ⟨hcols, hrows, hsame, hcells⟩
    · -- the row's generation is too new to be known
      obtain rfl := Option.some.inj (hnew.symm.trans hgeneration)
      have hold := h.known row _ hknown
      omega
    · rw [h.drawn row (by rw [hrows]; exact hrow) generation hknown
        (hsame.symm.trans hgeneration)]
      unfold shownRow
      rw [hcols]
      exact congrArg (List.take _) hcells.symm

theorem Synced.shows (h : Synced visibleCols renderer) (visibleRows : Nat) (force : Bool) :
    Shows visibleRows visibleCols
      (renderer.step visibleRows visibleCols (.snapshotDamage force)).1 := by
  intro row hrow
  change row < min visibleRows renderer.buffer.rows.toNat at hrow
  have hin : row < renderer.buffer.rowGenerations.length := by
    rw [h.formed.rowGenerations]
    omega
  have hgeneration : renderer.buffer.rowGenerations[row]?
      = some (renderer.buffer.rowGenerations.getD row 0) := by
    rw [List.getD_eq_getElem?_getD, List.getElem?_eq_getElem hin, Option.getD_some]
  have hcontent : ((renderer.buffer.row row).getD []).take
      (min visibleCols renderer.buffer.cols.toNat) = shownRow renderer.buffer visibleCols row := by
    rw [GridBuffer.row, if_neg (by omega), Option.getD_some, shownRow]
  refine (redraw_eq (fun known row => force ∨ known ≠ renderer.buffer.rowGenerations.getD row 0)
    (fun row => ⟨row, renderer.buffer.rowGenerations.getD row 0,
      ((renderer.buffer.row row).getD []).take (min visibleCols renderer.buffer.cols.toNat)⟩)
    (fun _ => rfl) _ renderer.drawn row).trans ?_
  rw [getElem?_resize _ _ hrow]
  by_cases hknown : row < renderer.known.length
  · rw [if_pos hknown, List.getElem?_eq_getElem hknown]
    dsimp only
    split
    · exact hcontent
    · rename_i hkept
      have hsame : renderer.known[row] = renderer.buffer.rowGenerations.getD row 0 :=
        not_not.mp (not_or.mp hkept).2
      exact h.drawn row (by omega) _ (by rw [List.getElem?_eq_getElem hknown, hsame]) hgeneration
  · -- no row has the generation that stands for none
    rw [if_neg hknown]
    dsimp only
    split
    · exact hcontent
    · rename_i hkept
      have hnone : UInt64.ofNat (2 ^ 64 - 1) = renderer.buffer.rowGenerations.getD row 0 :=
        not_not.mp (not_or.mp hkept).2
      have hle := h.generations row _ hgeneration
      have hsmall := h.small
      rw [← hnone, UInt64.toNat_ofNat_of_lt' (by decide)] at hle
      omega

theorem getElem?_known (h : Synced visibleCols renderer) (force : Bool) {row : Nat}
    {generation : UInt64}
    (hknown : (renderer.buffer.snapshotDamage renderer.known visibleRows visibleCols force).1[row]?
      = some generation) :
    row < min visibleRows renderer.buffer.rows.toNat ∧
      renderer.buffer.rowGenerations[row]? = some generation := by
  unfold snapshotDamage at hknown
  dsimp only at hknown
  rw [List.getElem?_map] at hknown
  obtain ⟨⟨value, index⟩, hentry, heq⟩ := Option.map_eq_some_iff.mp hknown
  rw [List.getElem?_zipIdx] at hentry
  obtain ⟨_, hvalue, hindex⟩ := Option.map_eq_some_iff.mp hentry
  have hrow := (List.getElem?_eq_some_iff.mp hvalue).1
  rw [length_resize] at hrow
  obtain ⟨_, rfl⟩ := Prod.mk.inj hindex
  have hin : row < renderer.buffer.rowGenerations.length := by
    rw [h.formed.rowGenerations]
    omega
  refine ⟨hrow, ?_⟩
  dsimp only at heq
  rw [← heq, Nat.zero_add, List.getD_eq_getElem?_getD, List.getElem?_eq_getElem hin,
    Option.getD_some]

theorem Synced.snapshotDamage (h : Synced visibleCols renderer) (force : Bool) :
    Synced visibleCols (renderer.step visibleRows visibleCols (.snapshotDamage force)).1 := by
  refine ⟨h.formed, h.small, h.generations, ?_, ?_⟩
  · intro row generation hknown
    exact h.generations row generation (getElem?_known h force hknown).2
  · intro row _ generation hknown _
    exact h.shows visibleRows force row (getElem?_known h force hknown).1

theorem Synced.step (h : Synced visibleCols renderer) (call : RenderCall)
    (htime : InTime (Trace.take (Renderer.step visibleRows visibleCols) renderer call)) :
    Synced visibleCols (renderer.step visibleRows visibleCols call).1 := by
  cases call with
  | apply update => exact h.apply htime update
  | snapshotDamage force => exact h.snapshotDamage force

/-- A renderer that has drawn nothing yet. -/
def Renderer.new (cols rows : UInt16) : Renderer := ⟨GridBuffer.new cols rows, [], fun _ => []⟩

theorem synced_new (cols rows : UInt16) (visibleCols : Nat) :
    Synced visibleCols (Renderer.new cols rows) := by
  refine ⟨wellFormed_new cols rows, Nat.succ_pos _, ?_, nofun, nofun⟩
  intro row generation hgeneration
  rw [List.eq_of_mem_replicate (List.mem_of_getElem? hgeneration)]
  exact Nat.le_refl _

theorem wellFormed_step (h : WellFormed renderer.buffer) (call : RenderCall) :
    WellFormed (renderer.step visibleRows visibleCols call).1.buffer := by
  cases call with
  | apply update => exact wellFormed_apply h update
  | snapshotDamage force => exact h

/-- The view after some calls. -/
def rendered (cols rows : UInt16) (visibleRows visibleCols : Nat) (calls : List RenderCall) :
    Renderer :=
  Trace.run (Renderer.step visibleRows visibleCols) (Renderer.new cols rows) calls

/-- A renderer that draws the rows it is given holds the rows of the buffer as long as generations
last, and an update of the buffer is the one of the wire format exactly where both start alike. -/
theorem renderer_holds_rows (cols rows : UInt16) (visibleRows visibleCols : Nat)
    (calls : List RenderCall) :
    ((∀ call ∈ Trace.trace (Renderer.step visibleRows visibleCols) (Renderer.new cols rows) calls,
        InTime call) → ∀ force,
      Shows visibleRows visibleCols ((rendered cols rows visibleRows visibleCols calls).step
        visibleRows visibleCols (.snapshotDamage force)).1) ∧
      ∀ update,
        ((rendered cols rows visibleRows visibleCols calls).buffer.apply update).1.cells
            = update.apply (rendered cols rows visibleRows visibleCols calls).buffer.cells ↔
          PatchesAlike (rendered cols rows visibleRows visibleCols calls).buffer update := by
  constructor
  · intro htime
    have hsynced : Synced visibleCols (rendered cols rows visibleRows visibleCols calls) :=
      Trace.run_invariant_where _ htime (synced_new cols rows visibleCols)
        fun renderer call hcall h => h.step call hcall
    exact hsynced.shows visibleRows
  · have hformed : WellFormed (rendered cols rows visibleRows visibleCols calls).buffer :=
      Trace.run_invariant _ (P := fun renderer : Renderer => WellFormed renderer.buffer)
        (wellFormed_new cols rows) (fun renderer call h => wellFormed_step h call) calls
    exact apply_cells_iff hformed

/-- A letter on a screen of two columns. -/
def letterCalls : List RenderCall :=
  [.snapshotDamage false,
    .apply ⟨2, 1, 0, 0, true, false, [⟨0, [{ GridCell.blank with scalar := 97 }]⟩]⟩]

theorem renderer_holds_rows_letter :
    Shows 24 80 ((rendered 2 1 24 80 letterCalls).step 24 80 (.snapshotDamage false)).1 := by
  refine (renderer_holds_rows 2 1 24 80 letterCalls).1 ?_ false
  intro call hcall
  simp only [letterCalls, Trace.trace, List.mem_cons, List.not_mem_nil, or_false] at hcall
  rcases hcall with rfl | rfl
  · exact trivial
  · change _ < _
    decide

/-- A diff that turns a row of two cells into two rows of one clears the buffer, and not the cells
of the wire format's helper. -/
theorem transposing_diff_clears :
    let letter : GridCell := { GridCell.blank with scalar := 97 }
    let view := rendered 2 1 24 80 [.apply ⟨2, 1, 0, 0, true, true, [⟨0, [letter, letter]⟩]⟩]
    let update : GridUpdate := ⟨1, 2, 0, 0, true, false, []⟩
    (view.buffer.apply update).1.cells = [.blank, .blank] ∧
      update.apply view.buffer.cells = [letter, letter] := by
  decide

end

end GridBuffer

end Homie.Term
