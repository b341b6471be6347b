/-
A fetch settles when the window and what lies before it fit in the cache.

A fetch asks for more than the window shows, and what came is then capped, farthest from the
window's top first and the older row first of two.  So the last row of the window stays exactly
when it and the rows that are nearer fit (`mem_evict_iff`), and the rows before the window compete
with the window's own: a window that is tall enough loses its last rows to them, and asks again.
-/
import Homie.Proofs.GridCodec
import Homie.Proofs.Viewport

namespace Homie

namespace OrderedMap

variable {κ ν : Type} [LinearOrder κ] {m : OrderedMap κ ν} {first last : κ} {p : κ → Bool}

theorem length_filter_popFirst (hfirst : m.keys.head? = some first) (hp : p first = false) :
    (m.popFirst.keys.filter p).length = (m.keys.filter p).length := by
  obtain ⟨rest, hkeys⟩ := List.head?_eq_some_iff.mp hfirst
  rw [keys_popFirst, hkeys, List.tail_cons, List.filter_cons_of_neg (by simp [hp])]

theorem length_filter_popLast (hlast : m.keys.getLast? = some last) (hp : p last = false) :
    (m.popLast.keys.filter p).length = (m.keys.filter p).length := by
  obtain ⟨front, hkeys⟩ := List.getLast?_eq_some_iff.mp hlast
  rw [keys_popLast, hkeys, List.dropLast_concat, List.filter_append,
    List.filter_cons_of_neg (by simp [hp]), List.filter_nil, List.append_nil]

end OrderedMap

namespace Term

open Trace (run)

namespace ScrollbackViewport

/-! ### What the cap leaves -/

section

variable {cache : RowCache} {anchor row other first last : Int} {excess : Nat}

/-- `row`, which is not before the anchor, and the rows that go after it. -/
def nearer (anchor row other : Int) : Bool :=
  other = row ∨ anchor - (row - anchor) < other ∧ other < row

theorem evict_ends (hfirst : cache.keys.head? = some first) (hlast : cache.keys.getLast? = some last)
    (anchor : Int) (excess : Nat) :
    evict anchor (excess + 1) cache
      = if (first - anchor).natAbs ≥ (last - anchor).natAbs then evict anchor excess cache.popFirst
        else evict anchor excess cache.popLast := by
  rw [evict, hfirst, hlast]

theorem ends_of_mem (h : row ∈ cache.keys) :
    ∃ first last, cache.keys.head? = some first ∧ cache.keys.getLast? = some last := by
  have hne : cache.keys ≠ [] := List.ne_nil_of_mem h
  exact ⟨_, _, List.head?_eq_some_head hne, List.getLast?_eq_some_getLast hne⟩

/-- With both ends all rows go after `row`. -/
theorem length_filter_nearer (hfirst : cache.keys.head? = some first)
    (hlast : cache.keys.getLast? = some last) (hboth : nearer anchor row first = true)
    (hother : nearer anchor row last = true) :
    (cache.keys.filter (nearer anchor row)).length = cache.size := by
  rw [List.filter_eq_self.mpr, OrderedMap.length_keys]
  intro key hkey
  have hlow := OrderedMap.le_of_head hfirst hkey
  have hhigh := OrderedMap.le_getLast hlast hkey
  simp only [nearer, decide_eq_true_eq] at hboth hother ⊢
  omega

/-- The cap takes no nearer row while the nearer rows fit. -/
theorem evict_keeps (hrow : anchor ≤ row)
    (hfit : (cache.keys.filter (nearer anchor row)).length ≤ cache.size - excess)
    (hother : other ∈ cache.keys) (hnear : nearer anchor row other = true) :
    other ∈ (evict anchor excess cache).keys := by
  induction excess generalizing cache with
  | zero => exact hother
  | succ excess ih =>
    obtain ⟨first, last, hfirst, hlast⟩ := ends_of_mem hother
    have hsize : 0 < cache.size := by
      rw [← OrderedMap.length_keys]
      exact List.length_pos_of_mem hother
    have hle := OrderedMap.le_of_head hfirst (List.mem_of_getLast? hlast)
    rw [evict_ends hfirst hlast]
    -- the row that goes is not a nearer one, or all rows were
    split
    · rename_i hfar
      have hgone : nearer anchor row first = false := by
        rw [← Bool.not_eq_true]
        intro hclose
        have hall := length_filter_nearer hfirst hlast hclose (by
          simp only [nearer, decide_eq_true_eq] at hclose ⊢
          omega)
        omega
      refine ih ?_ ((OrderedMap.mem_keys_popFirst hfirst).mpr ⟨hother, ?_⟩)
      · rw [OrderedMap.length_filter_popFirst hfirst hgone, OrderedMap.size_popFirst]
        omega
      · rintro rfl
        rw [hnear] at hgone
        cases hgone
    · rename_i hfar
      have hgone : nearer anchor row last = false := by
        rw [← Bool.not_eq_true]
        intro hclose
        have hall := length_filter_nearer hfirst hlast (by
          simp only [nearer, decide_eq_true_eq] at hclose ⊢
          omega) hclose
        omega
      refine ih ?_ ((OrderedMap.mem_keys_popLast hlast).mpr ⟨hother, ?_⟩)
      · rw [OrderedMap.length_filter_popLast hlast hgone, OrderedMap.size_popLast]
        omega
      · rintro rfl
        rw [hnear] at hgone
        cases hgone

theorem mem_of_mem_evict (h : row ∈ (evict anchor excess cache).keys) : row ∈ cache.keys := by
  obtain ⟨cells, hcells⟩ := Option.isSome_iff_exists.mp (OrderedMap.get_isSome.mpr h)
  exact OrderedMap.get_isSome.mp (by rw [get_evict hcells]; rfl)

theorem evict_order (hstays : row ∈ (evict anchor excess cache).keys) (hrow : anchor ≤ row)
    (hother : other ∈ cache.keys) (hnear : nearer anchor row other = true) :
    other ∈ (evict anchor excess cache).keys := by
  induction excess generalizing cache with
  | zero => exact hother
  | succ excess ih =>
    obtain ⟨first, last, hfirst, hlast⟩ := ends_of_mem hother
    rw [evict_ends hfirst hlast] at hstays ⊢
    simp only [nearer, decide_eq_true_eq] at hnear
    split at hstays
    · rename_i hfar
      rw [if_pos hfar]
      obtain ⟨hmem, hne⟩ := (OrderedMap.mem_keys_popFirst hfirst).mp (mem_of_mem_evict hstays)
      have hle := OrderedMap.le_getLast hlast hmem
      refine ih hstays ((OrderedMap.mem_keys_popFirst hfirst).mpr ⟨hother, ?_⟩)
      rintro rfl
      omega
    · rename_i hfar
      rw [if_neg hfar]
      obtain ⟨hmem, hne⟩ := (OrderedMap.mem_keys_popLast hlast).mp (mem_of_mem_evict hstays)
      have hle := OrderedMap.le_getLast hlast hmem
      refine ih hstays ((OrderedMap.mem_keys_popLast hlast).mpr ⟨hother, ?_⟩)
      rintro rfl
      omega

theorem mem_evict_iff (hmem : row ∈ cache.keys) (hrow : anchor ≤ row) :
    row ∈ (evict anchor excess cache).keys ↔
      (cache.keys.filter (nearer anchor row)).length ≤ cache.size - excess := by
  have hself : nearer anchor row row = true := decide_eq_true (.inl rfl)
  constructor
  · intro hstays
    have hsub : cache.keys.filter (nearer anchor row) ⊆ (evict anchor excess cache).keys := by
      intro other hother
      obtain ⟨hkey, hnear⟩ := List.mem_filter.mp hother
      exact evict_order hstays hrow hkey hnear
    have hnodup := (OrderedMap.nodup_keys cache).filter (nearer anchor row)
    have hlength := (List.subperm_of_subset hnodup hsub).length_le
    rwa [OrderedMap.length_keys, size_evict] at hlength
  · intro hfit
    exact evict_keeps hrow hfit hmem hself

end

/-! ### What is missing -/

section

variable {viewport asked : ScrollbackViewport} {visibleRows : Nat} {request : ScrollbackRequest}

/-- The window shows no row of the history that is not in the cache. -/
def Complete (viewport : ScrollbackViewport) (visibleRows : Nat) : Prop :=
  (viewport.viewOffset ≤ 0 ∨ visibleRows = 0) ∨
    (viewport.neededRows visibleRows).start ≥ (viewport.neededRows visibleRows).stop ∨
    viewport.cachesAll (viewport.neededRows visibleRows) = true

/-- What is asked for when the window is not complete. -/
def asks (viewport : ScrollbackViewport) (visibleRows : Nat) : Range :=
  ⟨max (saturate ((viewport.neededRows visibleRows).start - rowsToI64 visibleRows)) 0,
    saturate ((viewport.neededRows visibleRows).stop + rowsToI64 visibleRows)⟩

theorem queueMissingWindow_complete (h : Complete viewport visibleRows) :
    viewport.queueMissingWindow visibleRows = viewport := by
  unfold queueMissingWindow
  split
  · rfl
  · rename_i hshows
    rw [if_pos (h.resolve_left hshows)]

theorem queueMissingWindow_asked (h : viewport.queued = some (viewport.asks visibleRows)) :
    viewport.queueMissingWindow visibleRows = viewport := by
  unfold queueMissingWindow
  dsimp only
  split
  · rfl
  · split
    · rfl
    · exact if_pos (.inr h)

theorem queueMissingWindow_missing (h : ¬Complete viewport visibleRows)
    (hflight : viewport.inFlight = none) :
    (viewport.queueMissingWindow visibleRows).queued
      = if viewport.queued = some (viewport.asks visibleRows) then viewport.queued
        else mergeRange viewport.queued (viewport.asks visibleRows) := by
  obtain ⟨hshows, hneeds⟩ := not_or.mp h
  unfold queueMissingWindow
  rw [if_neg hshows]
  dsimp only
  rw [if_neg hneeds, hflight]
  simp only [reduceCtorEq, false_or]
  split
  · rename_i hsame
    exact (if_pos hsame).symm
  · rename_i hother
    exact (if_neg hother).symm

theorem mergeRange_covers {range : Range} (target : Option Range) (h : range.start < range.stop) :
    ∃ merged, mergeRange target range = some merged ∧ merged.start ≤ range.start ∧
      range.stop ≤ merged.stop := by
  unfold mergeRange
  rw [if_neg (by omega)]
  cases target with
  | none => exact ⟨range, rfl, le_refl _, le_refl _⟩
  | some existing => exact ⟨_, rfl, min_le_right _ _, le_max_right _ _⟩

theorem neededRows_eq (h : Pinned viewport) (hknown : viewport.geometryKnown = true)
    (hoffset : 0 < viewport.viewOffset) (visibleRows : Nat) :
    viewport.neededRows visibleRows
      = ⟨viewport.liveStartRow - viewport.viewOffset,
          viewport.liveStartRow - viewport.viewOffset + min viewport.viewOffset visibleRows⟩ := by
  have hwithin := h.within hknown
  have hhigh := h.live.2
  have htop : saturate (viewport.liveStartRow - viewport.viewOffset)
      = viewport.liveStartRow - viewport.viewOffset := saturate_of_mem ⟨by omega, by omega⟩
  simp only [neededRows, htop, Range.mk.injEq, true_and]
  unfold saturate rowsToI64
  omega

theorem asks_covers (h : Pinned viewport) (hknown : viewport.geometryKnown = true)
    (hmissing : ¬Complete viewport visibleRows) :
    0 < viewport.viewOffset ∧
      (viewport.asks visibleRows).start ≤ viewport.liveStartRow - viewport.viewOffset ∧
      viewport.liveStartRow - viewport.viewOffset + min viewport.viewOffset visibleRows
        ≤ (viewport.asks visibleRows).stop ∧
      (viewport.asks visibleRows).start < (viewport.asks visibleRows).stop := by
  obtain ⟨hshows, hneeds⟩ := not_or.mp hmissing
  have hoffset : 0 < viewport.viewOffset := by omega
  have hwithin := h.within hknown
  have hhigh := h.live.2
  have hrows := rowsToI64_nonneg visibleRows
  simp only [asks, neededRows_eq h hknown hoffset]
  unfold saturate
  omega

theorem complete_iff (h : Pinned viewport) (hknown : viewport.geometryKnown = true) :
    Complete viewport visibleRows ↔
      ∀ i < (min viewport.viewOffset visibleRows).toNat,
        viewport.liveStartRow - viewport.viewOffset + i ∈ viewport.cache.keys := by
  unfold Complete
  by_cases hshows : viewport.viewOffset ≤ 0 ∨ visibleRows = 0
  · refine iff_of_true (.inl hshows) fun i hi => ?_
    omega
  · have hoffset : 0 < viewport.viewOffset := by omega
    have hsome : ¬viewport.liveStartRow - viewport.viewOffset
        ≥ viewport.liveStartRow - viewport.viewOffset + min viewport.viewOffset visibleRows := by
      omega
    have hlength : viewport.liveStartRow - viewport.viewOffset + min viewport.viewOffset visibleRows
        - (viewport.liveStartRow - viewport.viewOffset) = min viewport.viewOffset visibleRows := by
      omega
    rw [neededRows_eq h hknown hoffset, or_iff_right hshows, or_iff_right hsome]
    simp only [cachesAll, hlength, List.all_eq_true, List.mem_range, OrderedMap.get_isSome]

/-- With nothing asked for, a fetch begins exactly where the window is not complete. -/
theorem beginFetch_eq_none (h : Pinned viewport) (hknown : viewport.geometryKnown = true)
    (hflight : viewport.inFlight = none) (hqueued : viewport.queued = none) :
    ((viewport.queueMissingWindow visibleRows).beginFetch visibleRows).1 = none ↔
      Complete viewport visibleRows := by
  by_cases hcomplete : Complete viewport visibleRows
  · refine iff_of_true ?_ hcomplete
    rw [queueMissingWindow_complete hcomplete, beginFetch, queueMissingWindow_complete hcomplete]
    dsimp only
    rw [hflight, hqueued]
    rfl
  · refine iff_of_false ?_ hcomplete
    obtain ⟨_, _, _, hnonempty⟩ := asks_covers h hknown hcomplete
    have hasked : viewport.queueMissingWindow visibleRows
        = { viewport with queued := some (viewport.asks visibleRows) } := by
      rw [queueMissingWindow_eq, queueMissingWindow_missing hcomplete hflight, hqueued]
      simp only [reduceCtorEq, if_false, mergeRange]
      rw [if_neg (by omega)]
    have hagain : ({ viewport with queued := some (viewport.asks visibleRows) } :
          ScrollbackViewport).queueMissingWindow visibleRows
        = { viewport with queued := some (viewport.asks visibleRows) } :=
      queueMissingWindow_asked rfl
    rw [hasked, beginFetch, hagain]
    dsimp only
    rw [hflight]
    simp only [Option.isSome_none, Bool.false_eq_true, if_false]
    rw [if_neg (by omega)]
    simp

/-- A fetch that begins where the window is not complete asks for what is missing. -/
theorem beginFetch_covers (h : Pinned viewport) (hknown : viewport.geometryKnown = true)
    (hbegin : viewport.beginFetch visibleRows = (some request, asked))
    (hmissing : ¬Complete viewport visibleRows) :
    request.firstRow ≤ viewport.liveStartRow - viewport.viewOffset ∧
      viewport.liveStartRow - viewport.viewOffset + min viewport.viewOffset visibleRows
        ≤ request.firstRow + request.maxRows := by
  obtain ⟨_, hstart, hstop, hnonempty⟩ := asks_covers h hknown hmissing
  unfold beginFetch at hbegin
  dsimp only at hbegin
  rw [queueMissingWindow_inFlight] at hbegin
  split at hbegin
  · cases hbegin
  · rename_i hflight
    have hnone : viewport.inFlight = none := by simpa using hflight
    have hqueued : ∃ range, (viewport.queueMissingWindow visibleRows).queued = some range ∧
        range.start ≤ (viewport.asks visibleRows).start ∧
        (viewport.asks visibleRows).stop ≤ range.stop := by
      rw [queueMissingWindow_missing hmissing hnone]
      split
      · rename_i hsame
        exact ⟨_, hsame, le_refl _, le_refl _⟩
      · exact mergeRange_covers viewport.queued hnonempty
    obtain ⟨range, hrange, hlow, hhigh⟩ := hqueued
    rw [hrange] at hbegin
    dsimp only at hbegin
    rw [if_neg (by omega)] at hbegin
    obtain ⟨hrequest, _⟩ := Prod.mk.inj hbegin
    obtain rfl := Option.some.inj hrequest
    exact ⟨by dsimp only; omega, by dsimp only; omega⟩

end

/-! ### Rows that fit -/

section

variable {cache : RowCache} {top : Int} {height : Nat}

/-- The rows that go after the last of `height` rows from `top` on: these rows, and the ones
nearer to `top` on its other side. -/
theorem length_filter_window (hheight : 0 < height)
    (hwindow : ∀ i < height, top + i ∈ cache.keys) :
    (cache.keys.filter (nearer top (top + (height - 1 : Nat)))).length
      = height + (List.range (height - 2)).countP fun i : Nat => top - 1 - i ∈ cache.keys := by
  have hinjUp : Function.Injective fun i : Nat => top + i := fun i j h => by
    have : top + i = top + j := h
    omega
  have hinjDown : Function.Injective fun i : Nat => top - 1 - i := fun i j h => by
    have : top - 1 - i = top - 1 - j := h
    omega
  have hperm : (cache.keys.filter (nearer top (top + (height - 1 : Nat)))).Perm
      ((List.range height).map (fun i : Nat => top + i) ++
        ((List.range (height - 2)).filter fun i : Nat => top - 1 - i ∈ cache.keys).map
          fun i : Nat => top - 1 - i) := by
    refine (List.perm_ext_iff_of_nodup ((OrderedMap.nodup_keys cache).filter _) ?_).mpr ?_
    · refine List.nodup_append.mpr ⟨List.nodup_range.map hinjUp,
        (List.nodup_range.filter _).map hinjDown, ?_⟩
      rintro row hup other hdown rfl
      obtain ⟨i, _, rfl⟩ := List.mem_map.mp hup
      obtain ⟨j, _, hj⟩ := List.mem_map.mp hdown
      omega
    · intro row
      simp only [List.mem_filter, List.mem_append, List.mem_map, List.mem_range, nearer,
        decide_eq_true_eq]
      constructor
      · rintro ⟨hkey, hnear⟩
        rcases lt_or_ge row top with hlt | hge
        · refine .inr ⟨(top - 1 - row).toNat, ⟨by omega, ?_⟩, by omega⟩
          rwa [show top - 1 - ((top - 1 - row).toNat : Int) = row by omega]
        · exact .inl ⟨(row - top).toNat, by omega, by omega⟩
      · rintro (⟨i, hi, rfl⟩ | ⟨i, ⟨hi, hkey⟩, rfl⟩)
        · exact ⟨hwindow i hi, by omega⟩
        · exact ⟨hkey, by omega⟩
  rw [hperm.length_eq, List.length_append, List.length_map, List.length_range, List.length_map,
    List.countP_eq_length_filter]

theorem evict_window_iff :
    (∀ i < height, top + i ∈ (evict top (cache.size - maxScrollbackCacheRows) cache).keys) ↔
      (∀ i < height, top + i ∈ cache.keys) ∧
        height + (List.range (height - 2)).countP (fun i : Nat => top - 1 - i ∈ cache.keys)
          ≤ maxScrollbackCacheRows := by
  rcases Nat.eq_zero_or_pos height with rfl | hheight
  · exact iff_of_true (fun i hi => absurd hi (Nat.not_lt_zero i))
      ⟨fun i hi => absurd hi (Nat.not_lt_zero i), Nat.zero_le _⟩
  · have hsome : ∀ {fits : Nat}, fits ≤ cache.size →
        (fits ≤ cache.size - (cache.size - maxScrollbackCacheRows) ↔
          fits ≤ maxScrollbackCacheRows) := by
      intro fits hfits
      omega
    have hle : (cache.keys.filter (nearer top (top + (height - 1 : Nat)))).length ≤ cache.size := by
      rw [← OrderedMap.length_keys]
      exact List.length_filter_le _ _
    constructor
    · intro hstays
      have hwindow : ∀ i < height, top + i ∈ cache.keys := fun i hi =>
        mem_of_mem_evict (hstays i hi)
      have hlast := (mem_evict_iff (hwindow (height - 1) (by omega)) (by omega)).mp
        (hstays (height - 1) (by omega))
      rw [hsome hle, length_filter_window hheight hwindow] at hlast
      exact ⟨hwindow, hlast⟩
    · rintro ⟨hwindow, hfits⟩ i hi
      rw [← length_filter_window hheight hwindow, ← hsome hle] at hfits
      refine evict_keeps (by omega) hfits (hwindow i hi) ?_
      simp only [nearer, decide_eq_true_eq]
      omega

end

/-! ### One answer -/

section

variable {viewport asked : ScrollbackViewport} {visibleRows : Nat} {request : ScrollbackRequest}
  {result : ReadScrollbackCellsResult} {rows : List (List GridCell)}

/-- The answer has every row of the history that was asked for. -/
def Covers (request : ScrollbackRequest) (result : ReadScrollbackCellsResult)
    (rows : List (List GridCell)) : Prop :=
  ∀ absolute, request.firstRow ≤ absolute → absolute < request.firstRow + request.maxRows →
    absolute < result.liveStartRow.toInt → ∃ row, Gives rows result.firstRow.toInt absolute row

/-- The answer is about the content that the viewport knows. -/
def Quiet (viewport : ScrollbackViewport) (result : ReadScrollbackCellsResult) : Prop :=
  viewport.geometryKnown = true → viewport.liveStartRow = result.liveStartRow.toInt ∧
    viewport.cacheSeq = some result.contentSeq

/-- The row at the top of the window: the anchor, or the oldest row of the history where the
anchor was set before the history was known. -/
def topRow (viewport : ScrollbackViewport) (liveStartRow : Int) : Int :=
  match viewport.anchor with
  | some anchor => max anchor 0
  | none => liveStartRow

/-- The row is in the cache or in the answer. -/
def holds (viewport : ScrollbackViewport) (result : ReadScrollbackCellsResult)
    (rows : List (List GridCell)) (absolute : Int) : Bool :=
  (viewport.cache.get absolute).isSome ∨
    ∃ index < rows.length, saturate (result.firstRow.toInt + rowsToI64 index) = absolute

/-- The history that the window shows, and the `height - 2` rows before it as far as they are held,
fit in the cache. -/
def Fits (viewport : ScrollbackViewport) (result : ReadScrollbackCellsResult)
    (rows : List (List GridCell)) (visibleRows : Nat) : Prop :=
  let top := viewport.topRow result.liveStartRow.toInt
  let height := (min (result.liveStartRow.toInt - top) visibleRows).toNat
  (viewport.geometryKnown = false → ∀ i < height, viewport.holds result rows (top + i)) ∧
    height + (List.range (height - 2)).countP (fun i : Nat => viewport.holds result rows (top - 1 - i))
      ≤ maxScrollbackCacheRows

theorem mem_keys_insertRows {cache : RowCache} {firstRow absolute : Int} :
    absolute ∈ (insertRows cache firstRow rows).keys ↔
      absolute ∈ cache.keys ∨
        ∃ index < rows.length, saturate (firstRow + rowsToI64 index) = absolute := by
  induction rows using List.reverseRecOn with
  | nil => simp [insertRows]
  | append_singleton rows row ih =>
    rw [insertRows_concat, OrderedMap.mem_keys_insert, ih]
    constructor
    · rintro (rfl | hcached | ⟨index, hindex, heq⟩)
      · exact .inr ⟨rows.length, by simp, rfl⟩
      · exact .inl hcached
      · exact .inr ⟨index, by simp only [List.length_append]; omega, heq⟩
    · rintro (hcached | ⟨index, hindex, heq⟩)
      · exact .inr (.inl hcached)
      · simp only [List.length_append, List.length_singleton] at hindex
        rcases Nat.lt_succ_iff_lt_or_eq.mp hindex with hlt | rfl
        · exact .inr (.inr ⟨index, hlt, heq⟩)
        · exact .inl heq.symm

/-- Before rows came in the viewport knows nothing of the history. -/
def Blank (viewport : ScrollbackViewport) : Prop :=
  viewport.geometryKnown = false → viewport.liveStartRow = 0 ∧ viewport.cacheSeq = none

theorem run_blank (ops : List ScrollbackOp) : Blank (run step default ops) := by
  refine Trace.run_invariant step (P := Blank) (fun _ => ⟨rfl, rfl⟩) ?_ ops
  intro viewport op h hunknown
  cases hdelivery : op.delivery with
  | none =>
    have hmoves := step_moves viewport hdelivery
    rw [hmoves.geometryKnown] at hunknown
    rw [hmoves.liveStartRow, hmoves.cacheSeq]
    exact h hunknown
  | some delivery =>
    obtain ⟨inFlight, totalRows, visibleRows, heq⟩ := step_delivery viewport hdelivery
    rw [heq, applyRows_geometryKnown] at hunknown
    cases hunknown

/-- Where rows come in, the window goes to `topRow`. -/
theorem landedOffset_eq (hpinned : Pinned viewport) (hblank : Blank viewport)
    (hquiet : Quiet viewport result) :
    viewport.landedOffset result.liveStartRow.toInt
      = max 0 (result.liveStartRow.toInt - viewport.topRow result.liveStartRow.toInt) := by
  have hlive := inI64_toInt result.liveStartRow
  have hhigh := hlive.2
  have hnonneg := hpinned.nonneg
  have hbounded := hpinned.bounded
  unfold landedOffset topRow
  rw [hpinned.anchored]
  by_cases hoffset : viewport.viewOffset > 0
  · rw [if_pos hoffset]
    dsimp only
    cases hknown : viewport.geometryKnown with
    | true =>
      have hwithin := hpinned.within hknown
      obtain ⟨hsame, _⟩ := hquiet hknown
      rw [saturate_of_mem (n := viewport.liveStartRow - viewport.viewOffset)
        ⟨by omega, by omega⟩]
      unfold saturate
      omega
    | false =>
      obtain ⟨hzero, _⟩ := hblank hknown
      rw [saturate_of_mem (n := viewport.liveStartRow - viewport.viewOffset)
        ⟨by omega, by omega⟩]
      unfold saturate
      omega
  · rw [if_neg hoffset]
    dsimp only
    omega

theorem mem_filled (hfed : ∀ absolute, (viewport.cache.get absolute).isSome →
      ∃ contentSeq, viewport.cacheSeq = some contentSeq)
    (hblank : Blank viewport) (hquiet : Quiet viewport result) (absolute : Int) :
    absolute ∈ (viewport.filled rows result.firstRow.toInt result.contentSeq).keys ↔
      viewport.holds result rows absolute = true := by
  unfold filled
  rw [mem_keys_insertRows, holds, decide_eq_true_eq]
  refine or_congr_left ?_
  rw [← OrderedMap.get_isSome]
  split
  · rename_i hother
    refine iff_of_false (by simp) fun hcached => ?_
    obtain ⟨contentSeq, hseq⟩ := hfed absolute hcached
    cases hknown : viewport.geometryKnown with
    | true => exact hother (hquiet hknown).2
    | false =>
      rw [(hblank hknown).2] at hseq
      cases hseq
  · exact Iff.rfl

theorem holds_window (hpinned : Pinned viewport) (hknown : viewport.geometryKnown = true)
    (hquiet : Quiet viewport result)
    (hbegin : viewport.beginFetch visibleRows = (some request, asked))
    (hcovers : Covers request result rows) {i : Nat}
    (hi : i < (min viewport.viewOffset visibleRows).toNat) :
    viewport.holds result rows (viewport.liveStartRow - viewport.viewOffset + i) = true := by
  rw [holds, decide_eq_true_eq]
  by_cases hcomplete : Complete viewport visibleRows
  · exact .inl (OrderedMap.get_isSome.mpr ((complete_iff hpinned hknown).mp hcomplete i hi))
  · obtain ⟨hstart, hstop⟩ := beginFetch_covers hpinned hknown hbegin hcomplete
    have hlive := (hquiet hknown).1
    obtain ⟨row, index, hrow, hindex⟩ := hcovers
      (viewport.liveStartRow - viewport.viewOffset + i) (by omega) (by omega) (by omega)
    exact .inr ⟨index, (List.getElem?_eq_some_iff.mp hrow).1, hindex.symm⟩

theorem completeFetch_settles (hdecode : decodeResult result = .ok rows) :
    ((viewport.completeFetch result visibleRows).2.beginFetch visibleRows).1 = none ↔
      ∀ i < (min (viewport.landedOffset result.liveStartRow.toInt) visibleRows).toNat,
        result.liveStartRow.toInt - viewport.landedOffset result.liveStartRow.toInt + i ∈
          (evict (saturate (result.liveStartRow.toInt
              - viewport.landedOffset result.liveStartRow.toInt))
            ((viewport.filled rows result.firstRow.toInt result.contentSeq).size
              - maxScrollbackCacheRows)
            (viewport.filled rows result.firstRow.toInt result.contentSeq)).keys := by
  have hpinned := pinned_applyRows (inI64_toInt result.liveStartRow)
    { viewport with inFlight := none } rows result.firstRow.toInt result.totalRows.toInt
    result.contentSeq visibleRows
  have hoffset := applyRows_viewOffset { viewport with inFlight := none } rows
    result.firstRow.toInt result.liveStartRow.toInt result.totalRows.toInt result.contentSeq
    visibleRows
  have hlive := applyRows_liveStartRow { viewport with inFlight := none } rows
    result.firstRow.toInt result.liveStartRow.toInt result.totalRows.toInt result.contentSeq
    visibleRows
  have hknown := applyRows_geometryKnown { viewport with inFlight := none } rows
    result.firstRow.toInt result.liveStartRow.toInt result.totalRows.toInt result.contentSeq
    visibleRows
  have hcache := applyRows_cache { viewport with inFlight := none } rows
    result.firstRow.toInt result.liveStartRow.toInt result.totalRows.toInt result.contentSeq
    visibleRows
  have hflight := applyRows_inFlight { viewport with inFlight := none } rows
    result.firstRow.toInt result.liveStartRow.toInt result.totalRows.toInt result.contentSeq
    visibleRows
  obtain ⟨settled, hqueued, heq⟩ := applyRows_asks { viewport with inFlight := none } rows
    result.firstRow.toInt result.liveStartRow.toInt result.totalRows.toInt result.contentSeq
    visibleRows
  rw [heq] at hpinned hoffset hlive hknown hcache hflight
  simp only [queueMissingWindow_viewOffset, queueMissingWindow_liveStartRow,
    queueMissingWindow_geometryKnown, queueMissingWindow_cache, queueMissingWindow_inFlight]
    at hoffset hlive hknown hcache hflight
  have hsettled : Pinned settled := hpinned.moves ⟨by simp, by simp, by simp, by simp, .inl (by simp)⟩
  simp only [completeFetch, hdecode, heq]
  rw [beginFetch_eq_none hsettled hknown hflight hqueued, complete_iff hsettled hknown, hoffset,
    hlive, hcache]
  rfl

theorem viewOffset_eq (hpinned : Pinned viewport) (hknown : viewport.geometryKnown = true)
    {liveStartRow : Int} (hlive : viewport.liveStartRow = liveStartRow) :
    viewport.viewOffset = liveStartRow - viewport.topRow liveStartRow := by
  have hwithin := hpinned.within hknown
  have hnonneg := hpinned.nonneg
  have hhigh := hpinned.live.2
  unfold topRow
  rw [hpinned.anchored]
  by_cases hscrolled : viewport.viewOffset > 0
  · rw [if_pos hscrolled, saturate_of_mem ⟨by omega, by omega⟩]
    dsimp only
    omega
  · rw [if_neg hscrolled]
    dsimp only
    omega

theorem settles_iff (hpinned : Pinned viewport) (hblank : Blank viewport)
    (hfed : ∀ absolute, (viewport.cache.get absolute).isSome →
      ∃ contentSeq, viewport.cacheSeq = some contentSeq)
    (hbegin : viewport.beginFetch visibleRows = (some request, asked))
    (hdecode : decodeResult result = .ok rows) (hcovers : Covers request result rows)
    (hquiet : Quiet viewport result) :
    ((asked.completeFetch result visibleRows).2.beginFetch visibleRows).1 = none ↔
      Fits viewport result rows visibleRows := by
  have hheld : ∀ absolute,
      absolute ∈ (viewport.filled rows result.firstRow.toInt result.contentSeq).keys ↔
        viewport.holds result rows absolute = true := mem_filled hfed hblank hquiet
  have hlanded := landedOffset_eq hpinned hblank hquiet
  obtain ⟨inFlight, queued, heq⟩ := beginFetch_eq viewport visibleRows
  have hasked : asked = { viewport with inFlight := inFlight, queued := queued } := by
    rw [hbegin] at heq
    exact heq
  have hfilled : asked.filled rows result.firstRow.toInt result.contentSeq
      = viewport.filled rows result.firstRow.toInt result.contentSeq := by rw [hasked]; rfl
  have hsame : asked.landedOffset result.liveStartRow.toInt
      = viewport.landedOffset result.liveStartRow.toInt := by rw [hasked]; rfl
  rw [completeFetch_settles hdecode, hfilled, hsame, hlanded, Fits]
  generalize htop : viewport.topRow result.liveStartRow.toInt = top
  rcases Int.lt_or_le top result.liveStartRow.toInt with hlt | hge
  · have hnonneg : 0 ≤ top := by
      unfold topRow at htop
      split at htop <;> omega
    have hhigh := (inI64_toInt result.liveStartRow).2
    have hdistance : max 0 (result.liveStartRow.toInt - top) = result.liveStartRow.toInt - top := by
      omega
    rw [hdistance, Int.sub_sub_self, saturate_of_mem ⟨by omega, by omega⟩, evict_window_iff]
    refine and_congr ?_ ?_
    · constructor
      · intro hwindow _ i hi
        exact (hheld _).mp (hwindow i hi)
      · intro hunknown i hi
        refine (hheld _).mpr ?_
        cases hknown : viewport.geometryKnown with
        | false => exact hunknown hknown i hi
        | true =>
          have hlive := (hquiet hknown).1
          have hoffset : viewport.viewOffset = result.liveStartRow.toInt - top := by
            rw [← htop, viewOffset_eq hpinned hknown hlive]
          have hrow := holds_window hpinned hknown hquiet hbegin hcovers (i := i) (by omega)
          rwa [hlive, hoffset, Int.sub_sub_self] at hrow
    · rw [List.countP_congr fun i _ => ?_]
      rw [decide_eq_true_eq]
      exact hheld _
  · have hzero : (min (max 0 (result.liveStartRow.toInt - top)) (visibleRows : Int)).toNat = 0 := by
      omega
    have hnone : (min (result.liveStartRow.toInt - top) (visibleRows : Int)).toNat = 0 := by
      omega
    rw [hzero, hnone]
    exact iff_of_true (fun i hi => absurd hi (Nat.not_lt_zero i))
      ⟨fun _ i hi => absurd hi (Nat.not_lt_zero i), Nat.zero_le _⟩

theorem Fits.height_le (h : Fits viewport result rows visibleRows) :
    (min (result.liveStartRow.toInt - viewport.topRow result.liveStartRow.toInt)
      (visibleRows : Int)).toNat ≤ maxScrollbackCacheRows :=
  (Nat.le_add_right _ _).trans h.2

theorem fits_of_le (hknown : viewport.geometryKnown = true) (h : visibleRows ≤ 257) :
    Fits viewport result rows visibleRows := by
  unfold Fits
  dsimp only
  generalize hheight : (min (result.liveStartRow.toInt
    - viewport.topRow result.liveStartRow.toInt) (visibleRows : Int)).toNat = height
  have hcount := List.countP_le_length (l := List.range (height - 2)) (p := fun i : Nat =>
    viewport.holds result rows (viewport.topRow result.liveStartRow.toInt - 1 - i))
  rw [List.length_range] at hcount
  refine ⟨fun hunknown => absurd (hknown.symm.trans hunknown) (by simp), ?_⟩
  unfold maxScrollbackCacheRows
  omega

end

/-! ### Runs -/

section

variable {visibleRows : Nat} {request : ScrollbackRequest} {asked : ScrollbackViewport}
  {result : ReadScrollbackCellsResult} {rows : List (List GridCell)}

theorem run_cached (ops : List ScrollbackOp) (absolute : Int)
    (h : ((run step default ops).cache.get absolute).isSome) :
    ∃ contentSeq, (run step default ops).cacheSeq = some contentSeq := by
  obtain ⟨row, hrow⟩ := Option.isSome_iff_exists.mp h
  obtain ⟨contentSeq, hseq, _⟩ := run_fed ops absolute row hrow
  exact ⟨contentSeq, hseq⟩

/-- An answer settles the fetch exactly when the window fits with what lies before it. -/
theorem fetch_settles_iff (ops : List ScrollbackOp)
    (hbegin : (run step default ops).beginFetch visibleRows = (some request, asked))
    (hdecode : decodeResult result = .ok rows) (hcovers : Covers request result rows)
    (hquiet : Quiet (run step default ops) result) :
    ((asked.completeFetch result visibleRows).2.beginFetch visibleRows).1 = none ↔
      Fits (run step default ops) result rows visibleRows :=
  settles_iff (run_pinned ops) (run_blank ops) (run_cached ops) hbegin hdecode hcovers hquiet

theorem decodeRows_rowBytes {rows : List (List GridCell)} (h : ∀ row ∈ rows, row.length ≤ u16Max) :
    GridRowCodec.decodeRows (rows.flatMap GridRowCodec.rowBytes) rows.length = .ok rows := by
  have hreads : Reader.Reads (Reader.times GridRowCodec.readRowFromCursor rows.length)
      (rows.flatMap GridRowCodec.rowBytes) rows :=
    Reader.Reads.times fun row hrow => GridRowCodec.readRow_reads (h row hrow)
  rw [GridRowCodec.decodeRows, hreads.run]
  rfl

/-- `count` empty rows from row 0 on, of a history that ends at `liveStartRow`. -/
def emptyRows (count : Nat) (rowCount liveStartRow totalRows : Int64) :
    ReadScrollbackCellsResult where
  payload := (List.replicate count []).flatMap GridRowCodec.rowBytes
  firstRow := 0
  rowCount := rowCount
  totalRows := totalRows
  liveStartRow := liveStartRow
  cols := 8
  contentSeq := 1

theorem decodeResult_emptyRows {count : Nat} {rowCount : Int64} (hcount : rowCount.toInt = count)
    (liveStartRow totalRows : Int64) :
    decodeResult (emptyRows count rowCount liveStartRow totalRows)
      = .ok (List.replicate count []) := by
  have hnarrow : ∀ row ∈ (List.replicate count [] : List (List GridCell)), row.length ≤ u16Max := by
    intro row hrow
    rw [List.eq_of_mem_replicate hrow]
    exact Nat.zero_le _
  have hdecoded := decodeRows_rowBytes hnarrow
  rw [List.length_replicate] at hdecoded
  simp [decodeResult, emptyRows, hcount, hdecoded]

theorem covers_emptyRows {count : Nat} {rowCount liveStartRow totalRows : Int64}
    {request : ScrollbackRequest} (hfirst : 0 ≤ request.firstRow)
    (hlive : liveStartRow.toInt ≤ count) :
    Covers request (emptyRows count rowCount liveStartRow totalRows)
      (List.replicate count []) := by
  intro absolute hlow _ hhigh
  have hend : absolute < liveStartRow.toInt := hhigh
  have hfits := liveStartRow.toInt_lt
  refine ⟨[], absolute.toNat, ?_, ?_⟩
  · rw [List.getElem?_replicate, if_pos (by omega)]
  · have hzero : (emptyRows count rowCount liveStartRow totalRows).firstRow.toInt = 0 := rfl
    rw [hzero]
    unfold saturate rowsToI64
    omega

set_option maxRecDepth 60000

/-- A window of 513 rows at the top of as much history. -/
def tallWindow : List ScrollbackOp := [.applyGeometry 513 1026 1 513, .setViewOffset 513 513]

/-- An answer with all rows there are does not settle its fetch. -/
theorem tall_window_asks_again :
    ∃ asked, (run step default tallWindow).beginFetch 513 = (some ⟨0, 1026⟩, asked) ∧
      decodeResult (emptyRows 1026 1026 513 1026) = .ok (List.replicate 1026 []) ∧
      Covers ⟨0, 1026⟩ (emptyRows 1026 1026 513 1026) (List.replicate 1026 []) ∧
      Quiet (run step default tallWindow) (emptyRows 1026 1026 513 1026) ∧
      ((asked.completeFetch (emptyRows 1026 1026 513 1026) 513).2.beginFetch 513).1 ≠ none := by
  have hrequest : ((run step default tallWindow).beginFetch 513).1 = some ⟨0, 1026⟩ := by
    decide
  have hbegin : (run step default tallWindow).beginFetch 513
      = (some ⟨0, 1026⟩, ((run step default tallWindow).beginFetch 513).2) := by
    rw [← hrequest]
  have hdecode : decodeResult (emptyRows 1026 1026 513 1026) = .ok (List.replicate 1026 []) :=
    decodeResult_emptyRows rfl 513 1026
  have hcovers : Covers ⟨0, 1026⟩ (emptyRows 1026 1026 513 1026) (List.replicate 1026 []) :=
    covers_emptyRows (le_refl 0) (by decide)
  have hquiet : Quiet (run step default tallWindow) (emptyRows 1026 1026 513 1026) :=
    fun _ => ⟨by decide, by decide⟩
  refine ⟨_, hbegin, hdecode, hcovers, hquiet, fun hnone => ?_⟩
  have hfits := (settles_iff (run_pinned tallWindow) (run_blank tallWindow)
    (run_cached tallWindow) hbegin hdecode hcovers hquiet).mp hnone
  have htall : 512 < (min ((emptyRows 1026 1026 513 1026).liveStartRow.toInt
      - (run step default tallWindow).topRow (emptyRows 1026 1026 513 1026).liveStartRow.toInt)
      (513 : Nat)).toNat := by decide
  exact absurd (hfits.height_le) (Nat.not_le.mpr htall)

/-- Three rows back in a history of ten. -/
def threeRowsBack : List ScrollbackOp := [.applyGeometry 10 13 1 3, .setViewOffset 3 3]

theorem fetch_settles_iff_three_rows :
    ((((run step default threeRowsBack).beginFetch 3).2.completeFetch (emptyRows 13 13 10 13)
      3).2.beginFetch 3).1 = none := by
  have hrequest : ((run step default threeRowsBack).beginFetch 3).1 = some ⟨4, 9⟩ := by
    decide
  have hbegin : (run step default threeRowsBack).beginFetch 3
      = (some ⟨4, 9⟩, ((run step default threeRowsBack).beginFetch 3).2) := by
    rw [← hrequest]
  exact (fetch_settles_iff threeRowsBack hbegin (decodeResult_emptyRows rfl 10 13)
    (covers_emptyRows (by decide) (by decide))
    (fun _ => ⟨by decide, by decide⟩)).mpr
    (fits_of_le (by decide) (by decide))

end

end ScrollbackViewport

end Term

end Homie
