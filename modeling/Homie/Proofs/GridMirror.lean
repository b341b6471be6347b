/-
A mirror is well formed after every call, and a failed call leaves it alone.

An update writes whole rows: whatever the buffer was, the result has the geometry's
number of cells, and a row is the last one the update has for it or what stood there
(`rowAt_apply`).  So an accepted message leaves a full rectangle with the cursor inside
(`Formed`), and the rows of such a mirror paint it on any buffer.

The methods run their checks before their first assignment.  `step_snapshot` and
`step_delta` say so: run statement by statement they either assign everything or nothing.
-/
import Homie.Lib.Trace
import Homie.TerminalState.Mirror

namespace Homie

open RowMajor

/-! ### What an update does to a buffer -/

/-- The row as it stands in a buffer of `cols` columns. -/
def ChangedRow.fitted (cols : Nat) (changed : ChangedRow) : List GridCell :=
  changed.cells.take (min changed.cells.length cols) ++
    List.replicate (cols - min changed.cells.length cols) GridCell.blank

theorem ChangedRow.length_fitted (cols : Nat) (changed : ChangedRow) :
    (changed.fitted cols).length = cols := by
  unfold ChangedRow.fitted
  rw [List.length_append, List.length_take, List.length_replicate]
  omega

theorem ChangedRow.fitted_of_length {cols : Nat} {changed : ChangedRow}
    (h : changed.cells.length = cols) : changed.fitted cols = changed.cells := by
  unfold ChangedRow.fitted
  rw [h, Nat.min_self, Nat.sub_self, ← h, List.take_length]
  exact List.append_nil _

theorem ChangedRow.applyTo_eq {cols rows : Nat} {changed : ChangedRow}
    (h : changed.y.toNat < rows) (buffer : List GridCell) :
    changed.applyTo cols rows buffer
      = setRow cols buffer changed.y.toNat (changed.fitted cols) := by
  unfold ChangedRow.applyTo setRow ChangedRow.fitted
  rw [if_neg (by omega)]

theorem ChangedRow.length_applyTo {cols rows : Nat} (changed : ChangedRow)
    {buffer : List GridCell} (hlen : buffer.length = cols * rows) :
    (changed.applyTo cols rows buffer).length = cols * rows := by
  by_cases h : changed.y.toNat < rows
  · rw [changed.applyTo_eq h]
    exact length_setRow h hlen (changed.length_fitted cols)
  · unfold ChangedRow.applyTo
    rw [if_pos (by omega)]
    exact hlen

namespace GridUpdate

/-- The buffer the rows are written into. -/
def cleared (u : GridUpdate) (buffer : List GridCell) : List GridCell :=
  if u.isFullSnapshot ∨ buffer.length ≠ u.cols.toNat * u.rows.toNat then
    List.replicate (u.cols.toNat * u.rows.toNat) GridCell.blank
  else buffer

/-- The row an update leaves at `y`, if it writes one: the last it has. -/
def written (u : GridUpdate) (y : Nat) : Option (List GridCell) :=
  (u.changedRows.reverse.find? fun changed => changed.y.toNat = y).map (·.fitted u.cols.toNat)

theorem apply_eq (u : GridUpdate) (buffer : List GridCell) :
    u.apply buffer
      = u.changedRows.foldl (ChangedRow.applyTo u.cols.toNat u.rows.toNat) (u.cleared buffer) :=
  rfl

theorem length_cleared (u : GridUpdate) (buffer : List GridCell) :
    (u.cleared buffer).length = u.cols.toNat * u.rows.toNat := by
  unfold cleared
  by_cases h : u.isFullSnapshot ∨ buffer.length ≠ u.cols.toNat * u.rows.toNat
  · rw [if_pos h, List.length_replicate]
  · rw [if_neg h]
    exact not_not.mp fun hne => h (Or.inr hne)

/-- A buffer of the right length is not cleared by a diff. -/
theorem cleared_of_length {u : GridUpdate} (hdiff : u.isFullSnapshot = false)
    {buffer : List GridCell} (hlen : buffer.length = u.cols.toNat * u.rows.toNat) :
    u.cleared buffer = buffer := by
  unfold cleared
  rw [if_neg]
  simp [hdiff, hlen]

theorem foldl_applyTo {cols rows : Nat} (changedRows : List ChangedRow) {buffer : List GridCell}
    (hlen : buffer.length = cols * rows) :
    (changedRows.foldl (ChangedRow.applyTo cols rows) buffer).length = cols * rows ∧
      ∀ y < rows, rowAt cols (changedRows.foldl (ChangedRow.applyTo cols rows) buffer) y
        = ((changedRows.reverse.find? fun changed => changed.y.toNat = y).map
            (·.fitted cols)).getD (rowAt cols buffer y) := by
  induction changedRows using List.reverseRecOn with
  | nil => exact ⟨hlen, fun _ _ => rfl⟩
  | append_singleton changedRows changed ih =>
    obtain ⟨hwritten, hrows⟩ := ih
    rw [List.foldl_append, List.reverse_append]
    refine ⟨changed.length_applyTo hwritten, ?_⟩
    intro y hy
    simp only [List.foldl_cons, List.foldl_nil, List.reverse_cons, List.reverse_nil,
      List.nil_append, List.singleton_append, List.find?_cons]
    by_cases hsame : changed.y.toNat = y
    · subst hsame
      rw [changed.applyTo_eq hy, rowAt_setRow_same hy hwritten (changed.length_fitted cols)]
      simp
    · rw [decide_eq_false hsame]
      by_cases hin : changed.y.toNat < rows
      · rw [changed.applyTo_eq hin,
          rowAt_setRow_ne hin (Ne.symm hsame) hwritten (changed.length_fitted cols)]
        exact hrows y hy
      · -- A row outside the grid is skipped.
        unfold ChangedRow.applyTo
        rw [if_pos (by omega)]
        exact hrows y hy

theorem length_apply (u : GridUpdate) (buffer : List GridCell) :
    (u.apply buffer).length = u.cols.toNat * u.rows.toNat :=
  (foldl_applyTo u.changedRows (u.length_cleared buffer)).1

theorem rowAt_apply (u : GridUpdate) (buffer : List GridCell) {y : Nat} (hy : y < u.rows.toNat) :
    rowAt u.cols.toNat (u.apply buffer) y
      = (u.written y).getD (rowAt u.cols.toNat (u.cleared buffer) y) :=
  (foldl_applyTo u.changedRows (u.length_cleared buffer)).2 y hy

/-- A full snapshot does not look at the buffer. -/
theorem apply_of_full {u : GridUpdate} (h : u.isFullSnapshot = true)
    (buffer buffer' : List GridCell) : u.apply buffer = u.apply buffer' := by
  rw [apply_eq, apply_eq]
  unfold cleared
  rw [if_pos (Or.inl h), if_pos (Or.inl h)]

theorem apply_apply (u : GridUpdate) (buffer : List GridCell) :
    u.apply (u.apply buffer) = u.apply buffer := by
  cases hfull : u.isFullSnapshot with
  | true => exact apply_of_full hfull _ _
  | false =>
    apply eq_of_rows (u.length_apply _) (u.length_apply buffer)
    intro y hy
    rw [u.rowAt_apply _ hy, cleared_of_length hfull (u.length_apply buffer),
      u.rowAt_apply buffer hy]
    cases u.written y with
    | none => rfl
    | some row => rfl

end GridUpdate

theorem validateGrid_ok {grid : GridUpdate} (h : validateGrid grid = .ok ()) :
    grid.cursorCol < grid.cols ∧ grid.cursorRow < grid.rows := by
  unfold validateGrid at h
  split at h
  · cases h
  · split at h
    · cases h
    · rename_i hcursor
      rw [not_or, UInt16.not_le, UInt16.not_le] at hcursor
      exact hcursor

namespace GridMirror

/-! ### What a call can do -/

variable {mirror after : GridMirror} {sequence : UInt64} {grid : GridUpdate}
  {altScreen bracketedPaste mouseReporting : Bool}

theorem applySnapshot_ok_iff :
    mirror.applySnapshot sequence grid altScreen bracketedPaste mouseReporting = .ok after ↔
      grid.isFullSnapshot = true ∧ validateGrid grid = .ok () ∧
        after = mirror.accept sequence grid altScreen bracketedPaste mouseReporting := by
  unfold applySnapshot
  cases hfull : grid.isFullSnapshot with
  | false => simp [bind, Except.bind, throw, throwThe, MonadExceptOf.throw]
  | true =>
    cases hvalid : validateGrid grid with
    | error e => simp [bind, Except.bind]
    | ok => simp [bind, Except.bind, pure, Except.pure, eq_comm]

theorem applyDelta_ok_iff :
    mirror.applyDelta sequence grid altScreen bracketedPaste mouseReporting = .ok after ↔
      ∃ previous, mirror.sequence = some previous ∧ previous.toNat + 1 < 2 ^ 64 ∧
        sequence = previous + 1 ∧ grid.isFullSnapshot = false ∧ grid.cols = mirror.cols ∧
        grid.rows = mirror.rows ∧ validateGrid grid = .ok () ∧
        after = mirror.accept sequence grid altScreen bracketedPaste mouseReporting := by
  unfold applyDelta
  cases hprevious : mirror.sequence with
  | none => simp [throw, throwThe, MonadExceptOf.throw]
  | some previous =>
    simp only [bind, Except.bind, throw, throwThe, MonadExceptOf.throw, pure, Except.pure,
      Option.some.injEq, exists_eq_left']
    by_cases hmax : previous.toNat + 1 ≥ 2 ^ 64
    · rw [if_pos hmax]
      simp only [reduceCtorEq, false_iff]
      omega
    by_cases hnext : sequence = previous + 1
    swap
    · rw [if_neg hmax]
      simp [hnext]
    by_cases hshape : grid.isFullSnapshot ∨ grid.cols ≠ mirror.cols ∨ grid.rows ≠ mirror.rows
    · simp only [if_neg hmax, if_pos hshape, hnext, ne_eq, not_true, if_false, reduceCtorEq,
        false_iff]
      rintro ⟨-, -, hdiff, hcols, hrows, -⟩
      simp [hdiff, hcols, hrows] at hshape
    · have hsame := hshape
      simp only [not_or, Bool.not_eq_true, not_not] at hsame
      obtain ⟨hdiff, hcols, hrows⟩ := hsame
      cases hvalid : validateGrid grid with
      | error e =>
        rw [if_neg hmax]
        simp [hnext, hdiff, hcols, hrows]
      | ok =>
        have hlt : previous.toNat + 1 < 2 ^ 64 := by omega
        rw [if_neg hmax, if_neg hshape]
        simp only [hnext, ne_eq, not_true, if_false, Except.ok.injEq, hlt, hdiff, hcols, hrows,
          true_and]
        exact eq_comm

theorem run_get_bind (f : GridMirror → Method Unit) :
    (get >>= f : Method Unit).run.run mirror = (f mirror).run.run mirror := rfl

/-- A snapshot is assigned whole or not at all. -/
theorem step_snapshot :
    mirror.step (.snapshot sequence grid altScreen bracketedPaste mouseReporting)
      = match mirror.applySnapshot sequence grid altScreen bracketedPaste mouseReporting with
        | .ok after => (after, .ok ())
        | .error e => (mirror, .error e) := by
  show Prod.swap ((runSnapshot _ _ _ _ _).run.run mirror) = _
  unfold runSnapshot applySnapshot
  cases grid.isFullSnapshot with
  | false => rfl
  | true =>
    cases validateGrid grid with
    | error e => rfl
    | ok => rfl

/-- A delta is assigned whole or not at all. -/
theorem step_delta :
    mirror.step (.delta sequence grid altScreen bracketedPaste mouseReporting)
      = match mirror.applyDelta sequence grid altScreen bracketedPaste mouseReporting with
        | .ok after => (after, .ok ())
        | .error e => (mirror, .error e) := by
  show Prod.swap ((runDelta _ _ _ _ _).run.run mirror) = _
  unfold runDelta applyDelta
  rw [run_get_bind]
  cases mirror.sequence with
  | none => rfl
  | some previous =>
    dsimp only
    by_cases hmax : previous.toNat + 1 ≥ 2 ^ 64
    · rw [if_pos hmax, if_pos hmax]
      rfl
    rw [if_neg hmax, if_neg hmax]
    by_cases hgap : sequence ≠ previous + 1
    · rw [if_pos hgap, if_pos hgap]
      rfl
    rw [if_neg hgap, if_neg hgap]
    by_cases hshape : grid.isFullSnapshot ∨ grid.cols ≠ mirror.cols ∨ grid.rows ≠ mirror.rows
    · rw [if_pos hshape, if_pos hshape]
      rfl
    rw [if_neg hshape, if_neg hshape]
    cases validateGrid grid with
    | error e => rfl
    | ok => rfl

/-! ### Well-formed mirrors -/

/-- What an accepted message leaves: a full rectangle with the cursor inside. -/
structure Formed (mirror : GridMirror) : Prop where
  length : mirror.cells.length = mirror.cols.toNat * mirror.rows.toNat
  cursorCol : mirror.cursorCol < mirror.cols
  cursorRow : mirror.cursorRow < mirror.rows

theorem formed_accept (mirror : GridMirror) (sequence : UInt64)
    (altScreen bracketedPaste mouseReporting : Bool) (hvalid : validateGrid grid = .ok ()) :
    (mirror.accept sequence grid altScreen bracketedPaste mouseReporting).Formed :=
  ⟨grid.length_apply mirror.cells, (validateGrid_ok hvalid).1, (validateGrid_ok hvalid).2⟩

/-- The sequence a delta was accepted on, and the one it left. -/
def Advances (before after : GridMirror) : Call → Prop
  | .snapshot .. => True
  | .delta .. => ∃ previous next, before.sequence = some previous ∧ after.sequence = some next ∧
      next.toNat = previous.toNat + 1

theorem step_cases (mirror : GridMirror) (call : Call) :
    ((mirror.step call).2 = .ok () ∧ (mirror.step call).1.Formed ∧
      (mirror.step call).1.sequence.isSome = true ∧
      Advances mirror (mirror.step call).1 call) ∨
    ∃ e, mirror.step call = (mirror, .error e) := by
  cases call with
  | snapshot sequence grid altScreen bracketedPaste mouseReporting =>
    rw [step_snapshot]
    cases happly : mirror.applySnapshot sequence grid altScreen bracketedPaste
      mouseReporting with
    | error e => exact Or.inr ⟨e, rfl⟩
    | ok after =>
      obtain ⟨-, hvalid, rfl⟩ := applySnapshot_ok_iff.mp happly
      exact Or.inl ⟨rfl, formed_accept _ _ _ _ _ hvalid, rfl, trivial⟩
  | delta sequence grid altScreen bracketedPaste mouseReporting =>
    rw [step_delta]
    cases happly : mirror.applyDelta sequence grid altScreen bracketedPaste mouseReporting with
    | error e => exact Or.inr ⟨e, rfl⟩
    | ok after =>
      obtain ⟨previous, hprevious, hlt, rfl, -, -, -, hvalid, rfl⟩ :=
        applyDelta_ok_iff.mp happly
      refine Or.inl ⟨rfl, formed_accept _ _ _ _ _ hvalid, rfl, previous, _, hprevious, rfl, ?_⟩
      rw [UInt64.toNat_add]
      exact Nat.mod_eq_of_lt hlt

theorem Formed.fullUpdate (h : mirror.Formed) (hsequence : mirror.sequence.isSome = true) :
    ∃ update, mirror.fullUpdate = some update ∧ update.isFullSnapshot = true ∧
      ∀ buffer, update.apply buffer = mirror.cells := by
  have hrange : ∀ y < mirror.rows.toNat, (UInt16.ofNat y).toNat = y := by
    intro y hy
    exact UInt16.toNat_ofNat_of_lt' (hy.trans mirror.rows.toNat_lt)
  refine ⟨_, if_neg ?_, rfl, ?_⟩
  · rw [not_or, not_not, Option.isNone_iff_eq_none, ← ne_eq, Option.ne_none_iff_isSome]
    exact ⟨hsequence, h.length⟩
  intro buffer
  apply eq_of_rows (GridUpdate.length_apply _ buffer) h.length
  intro y hy
  rw [GridUpdate.rowAt_apply _ buffer hy]
  -- Every row is in the update, and the one found for `y` can only be the row `y`.
  unfold GridUpdate.written
  dsimp only
  cases hfind : List.find? _ _ with
  | none =>
    have hmem := List.mem_map_of_mem
      (f := fun row => (⟨UInt16.ofNat row, rowAt mirror.cols.toNat mirror.cells row⟩ : ChangedRow))
      (List.mem_range.mpr hy)
    exact absurd (hrange y hy) (by simpa using List.find?_eq_none.mp hfind _ (List.mem_reverse.mpr hmem))
  | some changed =>
    have hmem := List.mem_reverse.mp (List.mem_of_find?_eq_some hfind)
    have hsame := List.find?_some hfind
    obtain ⟨z, hz, rfl⟩ := List.mem_map.mp hmem
    have hzy : z = y := (hrange z (List.mem_range.mp hz)).symm.trans (by simpa using hsame)
    subst hzy
    exact ChangedRow.fitted_of_length (length_rowAt hy h.length)

theorem formed_run (calls : List Call)
    (h : (Trace.run step new calls).sequence.isSome = true) : (Trace.run step new calls).Formed := by
  revert h
  refine Trace.run_invariant step (P := fun m => m.sequence.isSome = true → m.Formed) ?_ ?_ calls
  · intro h
    exact absurd h (by decide)
  · intro mirror call ih hsequence
    rcases mirror.step_cases call with ⟨-, hformed, -⟩ | ⟨e, heq⟩
    · exact hformed
    · rw [heq] at hsequence ⊢
      exact ih hsequence

/--
**A mirror is replaced whole or not at all.**  After every call of every sequence of calls,
the call was accepted and left a full rectangle with the cursor inside, a delta one
number further; or it returned an error and left the mirror as it was.  Either way the
full update of a mirror that has a sequence paints its cells on any buffer.
-/
theorem mirror_calls_atomic (calls : List Call) (call : Call) :
    let before := Trace.run step new calls
    let after := (before.step call).1
    (((before.step call).2 = .ok () ∧
        after.cells.length = after.cols.toNat * after.rows.toNat ∧
        after.cursorCol < after.cols ∧ after.cursorRow < after.rows ∧
        Advances before after call) ∨
      ∃ e, (before.step call).2 = .error e ∧ after = before) ∧
    (after.sequence = none ∨ ∃ update, after.fullUpdate = some update ∧
      ∀ buffer, update.apply buffer = after.cells) := by
  intro before after
  refine ⟨?_, ?_⟩
  · rcases before.step_cases call with ⟨hok, hformed, -, hadvances⟩ | ⟨e, heq⟩
    · exact Or.inl ⟨hok, hformed.length, hformed.cursorCol, hformed.cursorRow, hadvances⟩
    · exact Or.inr ⟨e, congrArg Prod.snd heq, congrArg Prod.fst heq⟩
  · have hrun : after = Trace.run step new (calls ++ [call]) :=
      (Trace.run_concat step new calls call).symm
    cases hsequence : after.sequence with
    | none => exact Or.inl rfl
    | some n =>
      have hsome : after.sequence.isSome = true := by rw [hsequence]; rfl
      have hformed : after.Formed := by
        rw [hrun] at hsome ⊢
        exact formed_run _ hsome
      obtain ⟨update, hupdate, -, hpaints⟩ := hformed.fullUpdate hsome
      exact Or.inr ⟨update, hupdate, hpaints⟩

end GridMirror

end Homie
