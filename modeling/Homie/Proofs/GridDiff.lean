/-
A consumer of the update stream holds the screen.

An update is relative to the cells the screen handed out last.  `gridUpdate_patches`
says what it does to any buffer: the rows that differ from that baseline are replaced,
the others stay.  So a buffer that equals the baseline becomes the screen, and after
every update the baseline is the screen itself.

A sink that joins late starts from the screen, not from the baseline.  Its buffer is
right after the next update exactly when no row has gone back to its baseline value in
between, which is what `seeded_sink_exact` says.
-/
import Homie.Lib.Trace
import Homie.Proofs.ScreenSteps

namespace Homie

open RowMajor Trace

variable {T : Type} {E : Backend T}

namespace HeadlessScreen

/-! ### Rows -/

/-- The geometry fits the wire. -/
def InRange (s : HeadlessScreen T) : Prop := s.geometry.cols < 2 ^ 16 ∧ s.geometry.rows < 2 ^ 16

@[simp] theorem length_wireRow (s : HeadlessScreen T) (line : Int) :
    (s.wireRow E line).length = s.geometry.cols := by
  simp [wireRow]

theorem length_cells (s : HeadlessScreen T) :
    (s.cells E).length = s.geometry.cols * s.geometry.rows :=
  length_ofRows fun y _ => s.length_wireRow y

theorem rowAt_cells (s : HeadlessScreen T) {y : Nat} (hy : y < s.geometry.rows) :
    rowAt s.geometry.cols (s.cells E) y = s.wireRow E y :=
  rowAt_ofRows (fun z _ => s.length_wireRow z) hy

theorem rowDiffers_iff {cols : Nat} {lastCells row : List GridCell} {y : Nat}
    (hrow : row.length = cols) :
    rowDiffers cols lastCells row y = true ↔ rowAt cols lastCells y ≠ row := by
  have hsame : rowAt cols lastCells y = row ↔
      ∀ x < cols, lastCells[y * cols + x]? = row[x]? := by
    constructor
    · intro h x hx
      rw [← h, getElem?_rowAt, if_pos hx]
    · intro h
      apply List.ext_getElem?
      intro x
      rw [getElem?_rowAt]
      by_cases hx : x < cols
      · rw [if_pos hx]
        exact h x hx
      · rw [if_neg hx, List.getElem?_eq_none (by omega)]
  rw [Ne, hsame]
  simp [rowDiffers]

/-! ### What one update sends -/

/-- Whether an update of `s` is a full frame. -/
def forcesFull (s : HeadlessScreen T) (full : Bool) : Bool :=
  full || decide (s.lastGridCols ≠ s.geometry.cols ∨ s.lastGridRows ≠ s.geometry.rows)

/-- The rows an update sends when the baseline is `lastCells`. -/
def sentRows (E : Backend T) (s : HeadlessScreen T) (forceFull : Bool) (lastCells : List GridCell)
    (ys : List Nat) : List Nat :=
  ys.filter fun y => forceFull || rowDiffers s.geometry.cols lastCells (s.wireRow E y) y

/-- The row as an update carries it. -/
def changedRow (E : Backend T) (s : HeadlessScreen T) (y : Nat) : ChangedRow :=
  ⟨UInt16.ofNat y, s.wireRow E y⟩

/-- Writing one row does not change which of the others are sent. -/
theorem sentRows_setRow (s : HeadlessScreen T) (forceFull : Bool) {lastCells : List GridCell}
    {y : Nat} {ys : List Nat} (hy : y < s.geometry.rows) (hnot : y ∉ ys)
    (hlen : lastCells.length = s.geometry.cols * s.geometry.rows) :
    sentRows E s forceFull (setRow s.geometry.cols lastCells y (s.wireRow E y)) ys
      = sentRows E s forceFull lastCells ys := by
  unfold sentRows
  apply List.filter_congr
  intro z hz
  have hne : z ≠ y := fun h => hnot (h ▸ hz)
  have hrow := s.length_wireRow (E := E) z
  have hsame := rowAt_setRow_ne hy hne hlen (s.length_wireRow (E := E) y)
  congr 1
  rw [Bool.eq_iff_iff, rowDiffers_iff hrow, rowDiffers_iff hrow, hsame]

theorem foldl_diffRow (s : HeadlessScreen T) (forceFull : Bool) {ys : List Nat} (hnodup : ys.Nodup)
    (hys : ∀ y ∈ ys, y < s.geometry.rows) {lastCells : List GridCell} (changed : List ChangedRow)
    (hlen : lastCells.length = s.geometry.cols * s.geometry.rows) :
    ys.foldl (s.diffRow E forceFull) (lastCells, changed)
      = (setRows s.geometry.cols (fun y => s.wireRow E y) (sentRows E s forceFull lastCells ys)
          lastCells,
        changed ++ (sentRows E s forceFull lastCells ys).map (changedRow E s)) := by
  induction ys generalizing lastCells changed with
  | nil => simp [sentRows, setRows]
  | cons y ys ih =>
    have hy := hys y List.mem_cons_self
    have hrest : ∀ z ∈ ys, z < s.geometry.rows := fun z hz => hys z (List.mem_cons_of_mem y hz)
    obtain ⟨hnot, hnodup⟩ := List.nodup_cons.mp hnodup
    by_cases hsent : (forceFull || rowDiffers s.geometry.cols lastCells (s.wireRow E y) y) = true
    · have hstep : s.diffRow E forceFull (lastCells, changed) y
          = (setRow s.geometry.cols lastCells y (s.wireRow E y),
            changed ++ [changedRow E s y]) := by
        unfold diffRow
        exact if_pos hsent
      have hset := length_setRow hy hlen (s.length_wireRow (E := E) y)
      have hcons : sentRows E s forceFull lastCells (y :: ys)
          = y :: sentRows E s forceFull lastCells ys := List.filter_cons_of_pos hsent
      rw [List.foldl_cons, hstep, ih hnodup hrest _ hset,
        sentRows_setRow s forceFull hy hnot hlen, hcons]
      simp [setRows]
    · have hstep : s.diffRow E forceFull (lastCells, changed) y = (lastCells, changed) := by
        unfold diffRow
        exact if_neg hsent
      have hcons : sentRows E s forceFull lastCells (y :: ys)
          = sentRows E s forceFull lastCells ys := List.filter_cons_of_neg hsent
      rw [List.foldl_cons, hstep, ih hnodup hrest _ hlen, hcons]

theorem mem_sentRows {s : HeadlessScreen T} {forceFull : Bool} {lastCells : List GridCell}
    {y : Nat} (hy : y < s.geometry.rows) :
    y ∈ sentRows E s forceFull lastCells (List.range s.geometry.rows) ↔
      forceFull = true ∨ rowAt s.geometry.cols lastCells y ≠ s.wireRow E y := by
  unfold sentRows
  rw [List.mem_filter, Bool.or_eq_true, rowDiffers_iff (s.length_wireRow y), List.mem_range]
  exact ⟨fun h => h.2, fun h => ⟨hy, h⟩⟩

theorem sentRows_lt {s : HeadlessScreen T} {forceFull : Bool} {lastCells : List GridCell} :
    ∀ y ∈ sentRows E s forceFull lastCells (List.range s.geometry.rows), y < s.geometry.rows := by
  intro y hy
  exact List.mem_range.mp (List.mem_filter.mp hy).1

theorem setRows_eq_cells_iff (s : HeadlessScreen T) {ys : List Nat}
    (hys : ∀ y ∈ ys, y < s.geometry.rows) {buffer : List GridCell}
    (hlen : buffer.length = s.geometry.cols * s.geometry.rows) :
    setRows s.geometry.cols (fun y => s.wireRow E y) ys buffer = s.cells E ↔
      ∀ y < s.geometry.rows, y ∉ ys → rowAt s.geometry.cols buffer y = s.wireRow E y := by
  have hrow : ∀ y < s.geometry.rows, (s.wireRow E (y : Nat)).length = s.geometry.cols :=
    fun y _ => s.length_wireRow y
  have hrows := rowAt_setRows hrow hys hlen
  constructor
  · intro h y hy hnot
    have hy' := hrows y
    rw [h, rowAt_cells s hy, if_neg hnot] at hy'
    exact hy'.symm
  · intro h
    apply eq_of_rows (length_setRows hrow hys hlen) s.length_cells
    intro y hy
    rw [hrows, rowAt_cells s hy]
    by_cases hmem : y ∈ ys
    · rw [if_pos hmem]
    · rw [if_neg hmem]
      exact h y hy hmem

/-! ### What one update does to a buffer -/

/-- The buffer `GridUpdate::apply` writes rows into. -/
def cleared (s : HeadlessScreen T) (isFullSnapshot : Bool) (buffer : List GridCell) :
    List GridCell :=
  if isFullSnapshot = true ∨ buffer.length ≠ s.geometry.cols * s.geometry.rows then
    List.replicate (s.geometry.cols * s.geometry.rows) GridCell.blank
  else buffer

theorem length_cleared (s : HeadlessScreen T) (isFullSnapshot : Bool) (buffer : List GridCell) :
    (s.cleared isFullSnapshot buffer).length = s.geometry.cols * s.geometry.rows := by
  unfold cleared
  by_cases h : isFullSnapshot = true ∨ buffer.length ≠ s.geometry.cols * s.geometry.rows
  · rw [if_pos h, List.length_replicate]
  · rw [if_neg h]
    exact not_not.mp fun hne => h (Or.inr hne)

theorem applyTo_changedRow {s : HeadlessScreen T} (hrange : s.InRange) {y : Nat}
    (hy : y < s.geometry.rows) (buffer : List GridCell) :
    (changedRow E s y).applyTo s.geometry.cols s.geometry.rows buffer
      = setRow s.geometry.cols buffer y (s.wireRow E y) := by
  have hy16 : (UInt16.ofNat y).toNat = y := UInt16.toNat_ofNat_of_lt' (hy.trans hrange.2)
  have hwhole : (s.wireRow E y).take s.geometry.cols = s.wireRow E y :=
    List.take_of_length_le (by simp)
  unfold ChangedRow.applyTo changedRow setRow
  simp only [hy16, length_wireRow, Nat.min_self, Nat.sub_self, List.replicate_zero,
    List.append_nil]
  rw [if_neg (by omega), hwhole]

theorem apply_updateWith {s : HeadlessScreen T} (hrange : s.InRange) (isFullSnapshot : Bool)
    {ys : List Nat} (hys : ∀ y ∈ ys, y < s.geometry.rows) (buffer : List GridCell) :
    (s.updateWith E isFullSnapshot (ys.map (changedRow E s))).apply buffer
      = setRows s.geometry.cols (fun y => s.wireRow E y) ys (s.cleared isFullSnapshot buffer) := by
  have hcols : (UInt16.ofNat s.geometry.cols).toNat = s.geometry.cols :=
    UInt16.toNat_ofNat_of_lt' hrange.1
  have hrows : (UInt16.ofNat s.geometry.rows).toNat = s.geometry.rows :=
    UInt16.toNat_ofNat_of_lt' hrange.2
  have hfold : ∀ buffer : List GridCell,
      (ys.map (changedRow E s)).foldl (ChangedRow.applyTo s.geometry.cols s.geometry.rows) buffer
        = setRows s.geometry.cols (fun y => s.wireRow E y) ys buffer := by
    intro buffer
    unfold setRows
    rw [List.foldl_map]
    apply List.foldl_ext
    intro acc y hy
    exact applyTo_changedRow hrange (hys y hy) acc
  unfold GridUpdate.apply updateWith
  simp only [hcols, hrows, hfold]
  rfl

theorem apply_fullSnapshot {s : HeadlessScreen T} (hrange : s.InRange) (buffer : List GridCell) :
    (s.fullSnapshot E).apply buffer = s.cells E := by
  have hys : ∀ y ∈ List.range s.geometry.rows, y < s.geometry.rows :=
    fun y hy => List.mem_range.mp hy
  have happly := apply_updateWith (E := E) hrange true hys buffer
  refine happly.trans ((setRows_eq_cells_iff s hys (s.length_cleared true buffer)).mpr ?_)
  intro y hy hnot
  exact absurd (List.mem_range.mpr hy) hnot

/--
The baseline fills the geometry it was taken at.  A screen that has none yet, or that
dropped it on a restore, has zero columns recorded, which no geometry has.
-/
def HasBaseline (s : HeadlessScreen T) : Prop :=
  s.lastGridCols = 0 ∨ s.lastCells.length = s.lastGridCols * s.lastGridRows

/-- The cells an update is compared with. -/
def baseline (s : HeadlessScreen T) : List GridCell :=
  if decide (s.lastGridCols ≠ s.geometry.cols ∨ s.lastGridRows ≠ s.geometry.rows) = true then
    List.replicate (s.geometry.cols * s.geometry.rows) GridCell.blank
  else s.lastCells

theorem not_forcesFull {s : HeadlessScreen T} {full : Bool} (h : ¬ s.forcesFull full = true) :
    s.lastGridCols = s.geometry.cols ∧ s.lastGridRows = s.geometry.rows ∧
      s.baseline = s.lastCells := by
  unfold forcesFull at h
  rw [Bool.or_eq_true, not_or] at h
  unfold baseline
  rw [if_neg h.2]
  simpa using h.2

/-- No index of the update loop is out of range. -/
theorem HasBaseline.length {s : HeadlessScreen T} (h : s.HasBaseline) :
    s.baseline.length = s.geometry.cols * s.geometry.rows := by
  have hpos := s.geometry.cols_pos
  unfold baseline
  by_cases hchanged :
      decide (s.lastGridCols ≠ s.geometry.cols ∨ s.lastGridRows ≠ s.geometry.rows) = true
  · rw [if_pos hchanged, List.length_replicate]
  · rw [if_neg hchanged]
    have hsame : s.lastGridCols = s.geometry.cols ∧ s.lastGridRows = s.geometry.rows := by
      simpa using hchanged
    rcases h with hzero | hlen
    · omega
    · rw [hlen, hsame.1, hsame.2]

theorem gridUpdate_eq {s : HeadlessScreen T} (h : s.HasBaseline) (full : Bool) :
    let sent := sentRows E s (s.forcesFull full) s.baseline (List.range s.geometry.rows)
    s.gridUpdate E full = (s.updateWith E (s.forcesFull full) (sent.map (changedRow E s)),
      { s with
        lastCells := setRows s.geometry.cols (fun y => s.wireRow E y) sent s.baseline
        lastGridCols := s.geometry.cols
        lastGridRows := s.geometry.rows }) := by
  have hloop := foldl_diffRow (E := E) s (s.forcesFull full) List.nodup_range
    (fun y hy => List.mem_range.mp hy) [] h.length
  rw [List.nil_append] at hloop
  unfold gridUpdate
  simp only
  unfold forcesFull baseline at hloop ⊢
  rw [hloop]

theorem gridUpdate_lastCells {s : HeadlessScreen T} (h : s.HasBaseline) (full : Bool) :
    (s.gridUpdate E full).2.lastCells = s.cells E := by
  rw [gridUpdate_eq h]
  refine (setRows_eq_cells_iff s sentRows_lt h.length).mpr ?_
  intro y hy hnot
  rw [mem_sentRows hy, not_or] at hnot
  exact not_not.mp hnot.2

/--
What an update does to any buffer.  It becomes the screen when the update is a full
frame, or when each row that is not sent, because it equals the baseline's, already
stands in the buffer.
-/
theorem apply_gridUpdate_iff {s : HeadlessScreen T} (hrange : s.InRange) (h : s.HasBaseline)
    (full : Bool) (buffer : List GridCell) :
    (s.gridUpdate E full).1.apply buffer = s.cells E ↔
      s.forcesFull full = true ∨ ∀ y < s.geometry.rows,
        rowAt s.geometry.cols s.lastCells y = s.wireRow E y →
          rowAt s.geometry.cols (s.cleared false buffer) y = s.wireRow E y := by
  rw [gridUpdate_eq h, apply_updateWith hrange _ sentRows_lt,
    setRows_eq_cells_iff s sentRows_lt (s.length_cleared _ buffer)]
  by_cases hfull : s.forcesFull full = true
  · refine ⟨fun _ => Or.inl hfull, fun _ y hy hnot => ?_⟩
    exact absurd ((mem_sentRows hy).mpr (Or.inl hfull)) hnot
  · have hbase := (not_forcesFull hfull).2.2
    have hfalse : s.forcesFull full = false := by simpa using hfull
    rw [hbase, hfalse]
    constructor
    · intro hrows
      refine Or.inr fun y hy hsame => hrows y hy ?_
      rw [mem_sentRows hy]
      simp [hsame]
    · rintro (habs | hrows)
      · exact absurd habs (by simp)
      · intro y hy hnot
        rw [mem_sentRows hy, not_or] at hnot
        exact hrows y hy (not_not.mp hnot.2)

theorem apply_gridUpdate_lastCells {s : HeadlessScreen T} (hrange : s.InRange)
    (h : s.HasBaseline) (full : Bool) :
    (s.gridUpdate E full).1.apply s.lastCells = s.cells E := by
  rw [apply_gridUpdate_iff hrange h]
  by_cases hfull : s.forcesFull full = true
  · exact Or.inl hfull
  · have hlen := h.length
    rw [(not_forcesFull hfull).2.2] at hlen
    refine Or.inr fun y _ hsame => ?_
    unfold cleared
    rw [if_neg (by simp [hlen])]
    exact hsame

theorem apply_gridUpdate_of_zero {s : HeadlessScreen T} (hrange : s.InRange)
    (hzero : s.lastGridCols = 0) (full : Bool) (buffer : List GridCell) :
    (s.gridUpdate E full).1.apply buffer = s.cells E := by
  have hpos := s.geometry.cols_pos
  rw [apply_gridUpdate_iff hrange (Or.inl hzero)]
  refine Or.inl ?_
  unfold forcesFull
  rw [hzero, Bool.or_eq_true]
  exact Or.inr (decide_eq_true (Or.inl (by omega)))

/-! ### Between updates -/

/-- What every run keeps of a screen. -/
structure Tracked (s : HeadlessScreen T) : Prop where
  range : s.InRange
  baseline : s.HasBaseline

theorem clamp_inRange (cols rows : UInt16) :
    (Geometry.clamp cols.toNat rows.toNat).cols < 2 ^ 16 ∧
      (Geometry.clamp cols.toNat rows.toNat).rows < 2 ^ 16 := by
  have hcols := cols.toNat_lt
  have hrows := rows.toNat_lt
  simp only [Geometry.clamp]
  omega

theorem tracked_new (cols rows : UInt16) : (new E cols.toNat rows.toNat).Tracked :=
  ⟨clamp_inRange cols rows, Or.inl rfl⟩

theorem Tracked.change {s : HeadlessScreen T} (h : s.Tracked) (c : ScreenChange) :
    (s.change E c).Tracked := by
  obtain ⟨hcells, hdims⟩ := s.change_baseline E c
  refine ⟨?_, ?_⟩
  · unfold InRange
    rcases s.change_geometry E c with hsame | ⟨cols, rows, hclamp⟩
    · rw [hsame]
      exact h.range
    · rw [hclamp]
      exact clamp_inRange cols rows
  · rcases hdims with ⟨hcols, hrows⟩ | hzero
    · unfold HasBaseline
      rw [hcells, hcols, hrows]
      exact h.baseline
    · exact Or.inl hzero

theorem Tracked.gridUpdate {s : HeadlessScreen T} (h : s.Tracked) (full : Bool) :
    (s.gridUpdate E full).2.Tracked := by
  refine ⟨h.range, Or.inr ?_⟩
  rw [gridUpdate_lastCells h.baseline]
  exact s.length_cells

end HeadlessScreen

namespace GridStream

open HeadlessScreen

/-! ### A consumer from the start -/

/-- The consumer holds the baseline, or the next update is a full frame. -/
structure InSync (s : GridStream T) : Prop where
  tracked : s.screen.Tracked
  cells : s.screen.lastGridCols = 0 ∨ s.consumer.cells = s.screen.lastCells

theorem inSync_start (cols rows : UInt16) : (start E cols rows).InSync :=
  ⟨tracked_new cols rows, Or.inl rfl⟩

theorem InSync.patched {s : GridStream T} (h : s.InSync) (full : Bool) :
    (s.screen.gridUpdate E full).1.apply s.consumer.cells = s.screen.cells E := by
  rcases h.cells with hzero | hcells
  · exact apply_gridUpdate_of_zero h.tracked.range hzero full _
  · rw [hcells]
    exact apply_gridUpdate_lastCells h.tracked.range h.tracked.baseline full

theorem inSync_update {s : GridStream T} (h : s.screen.Tracked) {full : Bool}
    (hpatched : (s.screen.gridUpdate E full).1.apply s.consumer.cells = s.screen.cells E) :
    (step E s (.gridUpdate full)).1.InSync := by
  refine ⟨h.gridUpdate full, Or.inr ?_⟩
  exact hpatched.trans (gridUpdate_lastCells h.baseline full).symm

theorem InSync.step {s : GridStream T} (h : s.InSync) (op : StreamOp) :
    (GridStream.step E s op).1.InSync := by
  cases op with
  | gridUpdate full => exact inSync_update h.tracked (h.patched full)
  | change c =>
    obtain ⟨hcells, hdims⟩ := s.screen.change_baseline E c
    refine ⟨h.tracked.change c, ?_⟩
    rcases hdims with ⟨hcols, -⟩ | hzero
    · rcases h.cells with hzero | hsame
      · exact Or.inl (hcols.trans hzero)
      · exact Or.inr (hsame.trans hcells.symm)
    · exact Or.inl hzero

theorem InSync.run {s : GridStream T} (h : s.InSync) (ops : List StreamOp) :
    (Trace.run (GridStream.step E) s ops).InSync :=
  run_invariant (GridStream.step E) h (fun _ op hs => hs.step op) ops

theorem shows_update {s : GridStream T} (h : s.screen.Tracked) {full : Bool}
    (hpatched : (s.screen.gridUpdate E full).1.apply s.consumer.cells = s.screen.cells E) :
    (GridStream.step E s (.gridUpdate full)).1.consumer.Shows E
      (GridStream.step E s (.gridUpdate full)).1.screen := by
  have hcols : (UInt16.ofNat s.screen.geometry.cols).toNat = s.screen.geometry.cols :=
    UInt16.toNat_ofNat_of_lt' h.range.1
  have hrows : (UInt16.ofNat s.screen.geometry.rows).toNat = s.screen.geometry.rows :=
    UInt16.toNat_ofNat_of_lt' h.range.2
  refine ⟨hpatched, ?_, rfl⟩
  exact Prod.ext hcols hrows

end GridStream

/--
**A consumer that starts empty and applies every update holds the screen.**

Whatever the screen is fed, resized to or restored from between the calls, and whether
a call asks for a full frame or not, after every `grid_update` the consumer's cells,
geometry and cursor are the screen's.
-/
theorem grid_stream_exact (E : Backend T) (cols rows : UInt16) (ops : List StreamOp)
    (full : Bool) :
    let s := run (GridStream.step E) (GridStream.start E cols rows) (ops ++ [.gridUpdate full])
    s.consumer.Shows E s.screen := by
  have hsync := (GridStream.inSync_start (E := E) cols rows).run (E := E) ops
  simp only [run_concat]
  exact GridStream.shows_update hsync.tracked (hsync.patched full)

/-! ### A sink that joins late -/

/--
The next update completes a sink that holds `buffer`: the geometry is not the
baseline's any more, or every row that is at its baseline value already stands in the
buffer, which counts as blank when it has another number of cells.
-/
def HeadlessScreen.Completes (E : Backend T) (s : HeadlessScreen T) (buffer : List GridCell) :
    Prop :=
  (s.lastGridCols ≠ s.geometry.cols ∨ s.lastGridRows ≠ s.geometry.rows) ∨
    ∀ y < s.geometry.rows, rowAt s.geometry.cols s.lastCells y = s.wireRow E y →
      rowAt s.geometry.cols (s.cleared false buffer) y = s.wireRow E y

instance (s : HeadlessScreen T) (buffer : List GridCell) : Decidable (s.Completes E buffer) :=
  inferInstanceAs (Decidable (_ ∨ _))

namespace GridStream

open HeadlessScreen

theorem patched_iff_completes {s : GridStream T} (h : s.screen.Tracked) :
    (s.screen.gridUpdate E false).1.apply s.consumer.cells = s.screen.cells E ↔
      s.screen.Completes E s.consumer.cells := by
  rw [apply_gridUpdate_iff h.range h.baseline]
  unfold Completes forcesFull
  rw [Bool.false_or, decide_eq_true_iff]

theorem InSync.cells_after_update {s : GridStream T} (h : s.InSync) {ops : List StreamOp}
    {full : Bool} {x : Step (GridStream T) StreamOp (Option GridUpdate)}
    (hx : x ∈ trace (GridStream.step E) s ops) (hevent : x.event = .gridUpdate full) :
    x.after.consumer.cells = x.after.screen.cells E := by
  obtain ⟨front, back, hsplit⟩ := List.append_of_mem hx
  obtain ⟨earlier, event, later, -, rfl, -⟩ := trace_split (GridStream.step E) hsplit
  have hop : event = .gridUpdate full := hevent
  rw [hop]
  exact (h.run (E := E) earlier).patched full

theorem cells_after_updates_iff {s : GridStream T} (h : s.screen.Tracked) {ops : List StreamOp}
    (hops : .gridUpdate true ∉ ops) :
    (∀ x ∈ trace (GridStream.step E) s ops, x.event = .gridUpdate false →
      x.after.consumer.cells = x.after.screen.cells E) ↔
    ∀ changes ∈ changesBeforeUpdate ops,
      (changes.foldl (HeadlessScreen.change E) s.screen).Completes E s.consumer.cells := by
  induction ops generalizing s with
  | nil => simp [trace, changesBeforeUpdate]
  | cons op ops ih =>
    rw [List.mem_cons, not_or] at hops
    cases op with
    | change c =>
      -- The sink does not see the change; only the screen moves on.
      have hrest := ih (s := (GridStream.step E s (.change c)).1) (h.change c) hops.2
      simp only [trace, changesBeforeUpdate, List.forall_mem_cons, hrest]
      simp [take, GridStream.step]
    | gridUpdate full =>
      have hfalse : full = false := by simpa using hops.1
      subst hfalse
      have hfirst : changesBeforeUpdate (.gridUpdate false :: ops) = some [] := rfl
      rw [hfirst, trace, List.forall_mem_cons]
      constructor
      · intro hall changes hchanges
        cases hchanges
        exact (patched_iff_completes h).mp (hall.1 rfl)
      · intro hcompletes
        have hpatched := (patched_iff_completes h).mpr (hcompletes [] rfl)
        have hsync := inSync_update h hpatched
        exact ⟨fun _ => hpatched, fun x hx hevent => hsync.cells_after_update hx hevent⟩

end GridStream

/--
**When a sink seeded with a full snapshot follows the shared diffs.**

The sink is seeded at any moment of any run of the stream and then applies every later
update.  It holds the screen after each of them exactly when the first one completes
its seed: a row that has returned to the value last broadcast is not sent again, so the
seed must have had it.
-/
theorem seeded_sink_exact (E : Backend T) (cols rows : UInt16) (earlier later : List StreamOp)
    (hlater : .gridUpdate true ∉ later) :
    let s := (run (GridStream.step E) (GridStream.start E cols rows) earlier).screen
    (∀ x ∈ trace (GridStream.step E) (GridStream.seed E s) later, x.event = .gridUpdate false →
      x.after.consumer.cells = x.after.screen.cells E) ↔
    ∀ changes ∈ GridStream.changesBeforeUpdate later,
      (changes.foldl (HeadlessScreen.change E) s).Completes E (s.cells E) := by
  intro s
  have htracked : s.Tracked :=
    ((GridStream.inSync_start (E := E) cols rows).run (E := E) earlier).tracked
  have hseed : (GridStream.seed E s).consumer.cells = s.cells E :=
    HeadlessScreen.apply_fullSnapshot htracked.range []
  have hiff :=
    GridStream.cells_after_updates_iff (E := E) (s := GridStream.seed E s) htracked hlater
  rw [hseed] at hiff
  exact hiff

/-- `a` is broadcast, then `b` is written. -/
def writtenOver : List StreamOp :=
  [.change (.feed [0x61, 0x0d]), .gridUpdate false, .change (.feed [0x62, 0x0d])]

/-- A sink joins there. -/
def joinedSink : GridStream LineTerm :=
  GridStream.seed LineTerm.backend
    (run (GridStream.step LineTerm.backend) (GridStream.start LineTerm.backend 2 1)
      writtenOver).screen

/-- With `c` next the row is not the baseline's: it is sent. -/
theorem seeded_sink_exact_new_row :
    (run (GridStream.step LineTerm.backend) joinedSink
        [.change (.feed [0x63, 0x0d]), .gridUpdate false]).consumer.cells
      = (run (GridStream.step LineTerm.backend) joinedSink
        [.change (.feed [0x63, 0x0d]), .gridUpdate false]).screen.cells LineTerm.backend := by
  have hcompletes := (seeded_sink_exact LineTerm.backend 2 1 writtenOver
    [.change (.feed [0x63, 0x0d]), .gridUpdate false] (by decide)).mpr (by decide)
  exact hcompletes _ (List.mem_cons_of_mem _ List.mem_cons_self) rfl

/--
With `a` next the row equals the last broadcast: nothing is sent, and the sink keeps `b`.
-/
theorem seeded_sink_keeps_stale_row :
    (run (GridStream.step LineTerm.backend) joinedSink
        [.change (.feed [0x61, 0x0d]), .gridUpdate false]).consumer.cells
      ≠ (run (GridStream.step LineTerm.backend) joinedSink
        [.change (.feed [0x61, 0x0d]), .gridUpdate false]).screen.cells LineTerm.backend := by
  decide

end Homie
