/-
Whether a screen's checkpoint can be restored.

A screen keeps as many lines of history as fit the budget at the width it was built with,
and keeps that number when it is resized.  `restore` checks the number for the width of the
screen it restores into.  So a checkpoint of a screen that has become wider is refused when
it has more history than a screen built at the new width would keep, and accepted otherwise.
-/
import Homie.Proofs.GridDiff

namespace Homie.HeadlessScreen

variable {T : Type} {E : Backend T}

/-! ### Runs -/

/-- A call of a screen's owner. -/
inductive ScreenCall where
  | feed (bytes : List UInt8)
  | resize (cols rows : Nat)

variable (E) in
def call (s : HeadlessScreen T) : ScreenCall → HeadlessScreen T
  | .feed bytes => s.feed E bytes
  | .resize cols rows => s.resize E cols rows

variable (E) in
/-- A screen built with this geometry, after these calls. -/
def after (cols rows : Nat) (calls : List ScreenCall) : HeadlessScreen T :=
  calls.foldl (call E) (new E cols rows)

variable (E) in
/-- Whether a fresh screen with the geometry of `s` takes the checkpoint of `s`. -/
def checkpointAccepted (s : HeadlessScreen T) : Bool :=
  ((new E s.geometry.cols s.geometry.rows).restore E (s.historySnapshot E) (s.fullSnapshot E)
    (s.isAltScreen E) (s.bracketedPaste E) (s.mouseReporting E)).1

/-- A fresh emulator makes as much history as it is asked for, up to its limit. -/
def Emulator.GrowsHistory (E : Backend T) : Prop :=
  ∀ limit cols rows count, count ≤ limit →
    E.historySize (E.scrollUp (E.new limit cols rows) 0 rows count) = count

/-! ### The checks -/

theorem geometry_new (cols rows : Nat) :
    (new E cols rows).geometry = Geometry.clamp cols rows := rfl

theorem clamp_geometry (geometry : Geometry) :
    Geometry.clamp geometry.cols geometry.rows = geometry := by
  have hcols := geometry.cols_pos
  have hrows := geometry.rows_pos
  cases geometry with
  | mk cols rows hcols hrows =>
    simp only [Geometry.clamp, Geometry.mk.injEq]
    omega

theorem ofNat_toNat_eq_iff (n : Nat) : (UInt16.ofNat n).toNat = n ↔ n < 2 ^ 16 := by
  rw [UInt16.toNat_ofNat']
  constructor
  · intro h
    rw [← h]
    exact Nat.mod_lt _ (by decide)
  · exact Nat.mod_eq_of_lt

theorem mapM_isSome {α β : Type} {f : α → Option β} {list : List α} :
    (list.mapM f).isSome ↔ ∀ x ∈ list, (f x).isSome := by
  induction list with
  | nil => simp
  | cons x rest ih =>
    rw [List.mapM_cons, List.forall_mem_cons, ← ih]
    cases f x with
    | none => simp
    | some y => cases rest.mapM f <;> simp

theorem paintBytes_fullSnapshot (s : HeadlessScreen T) (hrows : s.geometry.rows < 2 ^ 16)
    (altScreen bracketedPaste mouseReporting : Bool) :
    (paintBytes s.geometry.cols s.geometry.rows (s.fullSnapshot E) altScreen bracketedPaste
      mouseReporting).isSome := by
  have hpainted : (((s.fullSnapshot E).changedRows.mergeSort fun a b => a.y ≤ b.y).mapM
      (paintRow s.geometry.cols s.geometry.rows)).isSome := by
    refine mapM_isSome.mpr fun row hrow => ?_
    obtain ⟨y, hy, rfl⟩ := List.mem_map.mp (List.mem_mergeSort.mp hrow)
    have hlt := List.mem_range.mp hy
    have hvalue : (UInt16.ofNat y).toNat = y := (ofNat_toNat_eq_iff y).mpr (by omega)
    unfold paintRow
    rw [if_neg (by simp [hvalue]; omega)]
    rfl
  obtain ⟨bytes, hbytes⟩ := Option.isSome_iff_exists.mp hpainted
  unfold paintBytes
  dsimp only
  rw [hbytes]
  rfl

theorem length_historySnapshot (s : HeadlessScreen T) :
    (s.historySnapshot E).length = E.historySize s.term := by
  simp [historySnapshot]

theorem historySnapshot_width (s : HeadlessScreen T) :
    ((s.historySnapshot E).any fun row => row.length != s.geometry.cols) = false := by
  simp [historySnapshot]

theorem restoreHistory_new (hgrows : Emulator.GrowsHistory E) (geometry : Geometry)
    (history : List (List GridCell))
    (hlimit : history.length ≤ historyLineLimit E geometry.cols) :
    ((new E geometry.cols geometry.rows).restoreHistory E history).1 = true := by
  unfold restoreHistory
  split
  · rfl
  · have hsize : E.historySize (E.scrollUp (new E geometry.cols geometry.rows).term 0
        (new E geometry.cols geometry.rows).geometry.rows history.length) = history.length := by
      rw [geometry_new, clamp_geometry]
      have hterm : (new E geometry.cols geometry.rows).term
          = E.new (historyLineLimit E geometry.cols) geometry.cols geometry.rows := by
        unfold new
        rw [clamp_geometry]
      rw [hterm]
      exact hgrows _ _ _ _ hlimit
    dsimp only
    rw [if_neg (not_not_intro hsize)]

/-- The checks of `restore` on a checkpoint of `s`, for a fresh screen with its geometry. -/
theorem checkpointAccepted_iff (hgrows : Emulator.GrowsHistory E) (s : HeadlessScreen T) :
    s.checkpointAccepted E = true ↔
      s.geometry.cols < 2 ^ 16 ∧ s.geometry.rows < 2 ^ 16 ∧
        E.historySize s.term ≤ historyLineLimit E s.geometry.cols := by
  have hgeometry : (new E s.geometry.cols s.geometry.rows).geometry = s.geometry :=
    clamp_geometry s.geometry
  have hfull : (s.fullSnapshot E).isFullSnapshot = true := rfl
  have hcols : (s.fullSnapshot E).cols.toNat = s.geometry.cols ↔ s.geometry.cols < 2 ^ 16 :=
    ofNat_toNat_eq_iff s.geometry.cols
  have hrows : (s.fullSnapshot E).rows.toNat = s.geometry.rows ↔ s.geometry.rows < 2 ^ 16 :=
    ofNat_toNat_eq_iff s.geometry.rows
  have hcount : (s.fullSnapshot E).changedRows.length = s.geometry.rows := by
    simp [fullSnapshot, updateWith]
  unfold checkpointAccepted restore
  rw [hgeometry]
  dsimp only
  split
  · rename_i hrefused
    simp only [hfull, Bool.not_true, Bool.false_eq_true, false_or, ne_eq, hcols, hrows, hcount,
      not_true_eq_false, length_historySnapshot, historySnapshot_width, or_false] at hrefused
    constructor
    · intro h
      cases h
    · rintro ⟨h₁, h₂, h₃⟩
      omega
  · rename_i hpassed
    simp only [hfull, Bool.not_true, Bool.false_eq_true, false_or, ne_eq, hcols, hrows, hcount,
      not_true_eq_false, length_historySnapshot, historySnapshot_width, or_false, not_or,
      not_not] at hpassed
    obtain ⟨hcols, hrows, hlimit⟩ := hpassed
    have hallocated := restoreHistory_new hgrows s.geometry (s.historySnapshot E)
      (by rw [length_historySnapshot]; omega)
    obtain ⟨bytes, hbytes⟩ := Option.isSome_iff_exists.mp
      (s.paintBytes_fullSnapshot hrows (s.isAltScreen E) (s.bracketedPaste E) (s.mouseReporting E))
    refine iff_of_true ?_ ⟨hcols, hrows, by omega⟩
    rcases hrestored : (new E s.geometry.cols s.geometry.rows).restoreHistory E
      (s.historySnapshot E) with ⟨allocated, restored⟩
    rw [hrestored] at hallocated
    cases hallocated
    dsimp only
    rw [hbytes]

/--
**Checkpoints of screens that kept within the new limit are usable.**  After any calls, a fresh
screen with the final geometry takes the checkpoint exactly when the geometry fits the wire and
the history has no more lines than a screen of that width keeps.
-/
theorem checkpoint_usable_iff (E : Backend T) (hgrows : Emulator.GrowsHistory E) (cols rows : Nat)
    (calls : List ScreenCall) :
    (after E cols rows calls).checkpointAccepted E = true ↔
      (after E cols rows calls).geometry.cols < 2 ^ 16 ∧
      (after E cols rows calls).geometry.rows < 2 ^ 16 ∧
      E.historySize (after E cols rows calls).term
        ≤ historyLineLimit E (after E cols rows calls).geometry.cols :=
  checkpointAccepted_iff hgrows _

/-! ### A screen that becomes wider -/

theorem LineTerm.growsHistory : Emulator.GrowsHistory LineTerm.backend := by
  intro limit cols rows count hcount
  change (LineTerm.scrollUp (LineTerm.new limit cols rows) count).lines.length - rows = count
  simp only [LineTerm.scrollUp, LineTerm.new, List.length_drop, List.length_append,
    List.length_replicate]
  omega

/-- What the emulator and the geometry are after a feed does not depend on the digest. -/
theorem feed_term (s : HeadlessScreen T) (bytes : List UInt8) :
    (s.feed E bytes).term = E.resetDamage (E.damage (E.advance s.term bytes).1).2 := by
  rw [feed_eq]
  by_cases h : s.Refreshes E bytes
  · rw [if_pos h]
    rfl
  · rw [if_neg h]
    rfl

theorem feed_lineTerm (s : HeadlessScreen LineTerm) (bytes : List UInt8) :
    (s.feed LineTerm.backend bytes).term = bytes.foldl LineTerm.advanceByte s.term :=
  feed_term s bytes

theorem LineTerm.lineFeeds (n : Nat) : ∀ {t : LineTerm}, t.escape = none → t.rows ≤ t.line + 1 →
    t.lines.length ≤ t.scrollingHistory + t.rows →
    ((List.replicate n 0x0a).foldl LineTerm.advanceByte t).rows = t.rows ∧
      ((List.replicate n 0x0a).foldl LineTerm.advanceByte t).lines.length
        = min (t.lines.length + n) (t.scrollingHistory + t.rows) := by
  induction n with
  | zero =>
    intro t _ _ hlimit
    exact ⟨rfl, (min_eq_left hlimit).symm⟩
  | succ n ih =>
    intro t hescape hline hlimit
    have hfeed : t.advanceByte 0x0a = t.scrollUp 1 := by
      unfold LineTerm.advanceByte LineTerm.lineFeed
      simp only [hescape]
      rw [if_neg (by decide), if_neg (by decide), if_pos trivial, if_neg (by omega)]
    have hlength : (t.scrollUp 1).lines.length
        = min (t.lines.length + 1) (t.scrollingHistory + t.rows) := by
      simp only [LineTerm.scrollUp, List.length_drop, List.length_append,
        List.length_replicate]
      omega
    rw [List.replicate_succ, List.foldl_cons, hfeed]
    obtain ⟨hrows, hlines⟩ := ih (t := t.scrollUp 1) hescape hline
      (by rw [hlength]; exact min_le_right _ _)
    refine ⟨hrows, hlines.trans ?_⟩
    rw [hlength]
    change min (min (t.lines.length + 1) (t.scrollingHistory + t.rows) + n)
      (t.scrollingHistory + t.rows) = _
    omega

theorem LineTerm.historySize_lineFeeds (limit cols n : Nat) :
    LineTerm.historySize ((List.replicate n 0x0a).foldl LineTerm.advanceByte
      (LineTerm.new limit cols 1)) = min n limit := by
  obtain ⟨hrows, hlines⟩ := LineTerm.lineFeeds n (t := LineTerm.new limit cols 1) rfl
    (Nat.le_refl 1) (by simp [LineTerm.new])
  unfold LineTerm.historySize
  rw [hrows, hlines]
  simp only [LineTerm.new, List.length_replicate]
  omega

theorem historySize_feed_lineFeeds {s : HeadlessScreen LineTerm} {limit cols : Nat}
    (hterm : s.term = LineTerm.new limit cols 1) (n : Nat) :
    LineTerm.backend.historySize (s.feed LineTerm.backend (List.replicate n 0x0a)).term
      = min n limit := by
  rw [feed_lineTerm, hterm]
  exact LineTerm.historySize_lineFeeds limit cols n

/-- At eighty columns the three lines that have scrolled away are restored. -/
theorem checkpoint_usable_narrow :
    (after LineTerm.backend 80 1 [.feed (List.replicate 3 0x0a)]).checkpointAccepted
      LineTerm.backend = true := by
  rw [checkpoint_usable_iff LineTerm.backend LineTerm.growsHistory]
  simp only [after, call, List.foldl_cons, List.foldl_nil, (feed_frame _ _ _).1]
  have hterm : (new LineTerm.backend 80 1).term
      = LineTerm.new (historyLineLimit LineTerm.backend 80) 80 1 := rfl
  have hcols : (new LineTerm.backend 80 1).geometry.cols = 80 := rfl
  have hrows : (new LineTerm.backend 80 1).geometry.rows = 1 := rfl
  rw [hcols, hrows, historySize_feed_lineFeeds hterm]
  exact ⟨by decide, by decide, min_le_right _ _⟩

theorem after_resize_feed (cols rows newCols newRows : Nat) (bytes : List UInt8) :
    after E cols rows [.resize newCols newRows, .feed bytes]
      = ((new E cols rows).resize E newCols newRows).feed E bytes := rfl

/-- A screen is built with eighty columns, made 3000 columns wide, and 65 lines scroll away: a
fresh screen of that width keeps 64 and refuses them. -/
theorem wide_checkpoint_refused :
    (after LineTerm.backend 80 1
      [.resize 3000 1, .feed (List.replicate 65 0x0a)]).checkpointAccepted LineTerm.backend
      = false := by
  have hterm : ((new LineTerm.backend 80 1).resize LineTerm.backend 3000 1).term
      = LineTerm.new (historyLineLimit LineTerm.backend 80) 3000 1 := rfl
  have hcols : ((new LineTerm.backend 80 1).resize LineTerm.backend 3000 1).geometry.cols = 3000 :=
    rfl
  rw [Bool.eq_false_iff, Ne, checkpointAccepted_iff LineTerm.growsHistory, after_resize_feed,
    (feed_frame _ _ _).1, hcols, historySize_feed_lineFeeds hterm]
  intro hfits
  have hkept : ¬ (min 65 (historyLineLimit LineTerm.backend 80)
      ≤ historyLineLimit LineTerm.backend 3000) := by decide
  exact hkept hfits.2.2

end Homie.HeadlessScreen
