/-
The window over the history keeps its place.

Every call either takes rows in (`step_delivery`) or leaves them, and then it leaves the offset
alone or sets it inside its bounds and pins the anchor to what the window shows (`Moves`).  So the
anchor and the offset always spell the same row (`Pinned`), and rows that come in move the live
edge and not the row at the top of the window, as long as the history still has that row.

The cache forgets everything with the content sequence and drops rows from its two ends, so what
it holds was delivered under the sequence it names (`Fed`).
-/
import Homie.Term.Scrollback

namespace Homie.Term

open Trace (run)

/-- A number that an `i64` can hold. -/
def InI64 (n : Int) : Prop := -2 ^ 63 ≤ n ∧ n < 2 ^ 63

theorem saturate_of_mem {n : Int} (h : InI64 n) : saturate n = n := by
  obtain ⟨hlow, hhigh⟩ := h
  unfold saturate
  omega

theorem inI64_saturate (n : Int) : InI64 (saturate n) := by
  unfold InI64 saturate
  omega

theorem inI64_toInt (n : Int64) : InI64 n.toInt := ⟨n.le_toInt, n.toInt_lt⟩

theorem rowsToI64_nonneg (n : Nat) : 0 ≤ rowsToI64 n := by
  unfold rowsToI64
  omega

namespace ScrollbackViewport

variable {viewport : ScrollbackViewport}

/-! ### What a call can do -/

/-- What is missing only changes what is asked for. -/
theorem queueMissingWindow_eq (viewport : ScrollbackViewport) (visibleRows : Nat) :
    viewport.queueMissingWindow visibleRows
      = { viewport with queued := (viewport.queueMissingWindow visibleRows).queued } := by
  unfold queueMissingWindow
  split
  · rfl
  · dsimp only
    split
    · rfl
    · split
      · rfl
      · rfl

section

variable (viewport : ScrollbackViewport) (visibleRows : Nat)

@[simp] theorem queueMissingWindow_viewOffset :
    (viewport.queueMissingWindow visibleRows).viewOffset = viewport.viewOffset := by
  rw [queueMissingWindow_eq]

@[simp] theorem queueMissingWindow_anchor :
    (viewport.queueMissingWindow visibleRows).anchor = viewport.anchor := by
  rw [queueMissingWindow_eq]

@[simp] theorem queueMissingWindow_liveStartRow :
    (viewport.queueMissingWindow visibleRows).liveStartRow = viewport.liveStartRow := by
  rw [queueMissingWindow_eq]

@[simp] theorem queueMissingWindow_geometryKnown :
    (viewport.queueMissingWindow visibleRows).geometryKnown = viewport.geometryKnown := by
  rw [queueMissingWindow_eq]

@[simp] theorem queueMissingWindow_cacheSeq :
    (viewport.queueMissingWindow visibleRows).cacheSeq = viewport.cacheSeq := by
  rw [queueMissingWindow_eq]

@[simp] theorem queueMissingWindow_cache :
    (viewport.queueMissingWindow visibleRows).cache = viewport.cache := by
  rw [queueMissingWindow_eq]

@[simp] theorem queueMissingWindow_inFlight :
    (viewport.queueMissingWindow visibleRows).inFlight = viewport.inFlight := by
  rw [queueMissingWindow_eq]

end

theorem beginFetch_eq (viewport : ScrollbackViewport) (visibleRows : Nat) :
    ∃ inFlight queued, (viewport.beginFetch visibleRows).2
      = { viewport with inFlight := inFlight, queued := queued } := by
  unfold beginFetch
  rw [queueMissingWindow_eq]
  dsimp only
  split
  · exact ⟨viewport.inFlight, _, rfl⟩
  · split
    · exact ⟨viewport.inFlight, _, rfl⟩
    · split
      · exact ⟨viewport.inFlight, none, rfl⟩
      · exact ⟨_, none, rfl⟩

theorem setViewOffset_eq (viewport : ScrollbackViewport) (offset : Int) (visibleRows : Nat) :
    (viewport.setViewOffset offset visibleRows).2 = viewport ∨
      ∃ clamped queued, 0 ≤ clamped ∧ clamped ≤ max 0 (viewport.maxOffset visibleRows) ∧
        (viewport.setViewOffset offset visibleRows).2
          = { ({ viewport with viewOffset := clamped }).syncAnchor with queued := queued } := by
  unfold setViewOffset
  dsimp only
  split
  · exact .inl rfl
  · rw [queueMissingWindow_eq]
    exact .inr ⟨_, _, by omega, by omega, rfl⟩

/-- Where the window stands after rows came in: at its anchor, as far as the history reaches. -/
def landedOffset (viewport : ScrollbackViewport) (liveStartRow : Int) : Int :=
  max 0 (min (match viewport.anchor with
    | some anchor => saturate (liveStartRow - anchor)
    | none => viewport.viewOffset) (max liveStartRow 0))

section

variable (viewport : ScrollbackViewport) (rows : List (List GridCell))
  (firstRow liveStartRow totalRows : Int) (contentSeq : UInt64) (visibleRows : Nat)

@[simp] theorem applyRows_viewOffset :
    (viewport.applyRows rows firstRow liveStartRow totalRows contentSeq visibleRows).viewOffset
      = viewport.landedOffset liveStartRow := by
  simp only [applyRows, queueMissingWindow_viewOffset]
  rfl

@[simp] theorem applyRows_anchor :
    (viewport.applyRows rows firstRow liveStartRow totalRows contentSeq visibleRows).anchor
      = if viewport.landedOffset liveStartRow > 0 then
          some (saturate (liveStartRow - viewport.landedOffset liveStartRow))
        else none := by
  simp only [applyRows, queueMissingWindow_anchor]
  rfl

@[simp] theorem applyRows_liveStartRow :
    (viewport.applyRows rows firstRow liveStartRow totalRows contentSeq visibleRows).liveStartRow
      = liveStartRow := by
  simp only [applyRows, queueMissingWindow_liveStartRow]
  rfl

@[simp] theorem applyRows_geometryKnown :
    (viewport.applyRows rows firstRow liveStartRow totalRows contentSeq visibleRows).geometryKnown
      = true := by
  simp only [applyRows, queueMissingWindow_geometryKnown]
  rfl

@[simp] theorem applyRows_cacheSeq :
    (viewport.applyRows rows firstRow liveStartRow totalRows contentSeq visibleRows).cacheSeq
      = some contentSeq := by
  simp only [applyRows, queueMissingWindow_cacheSeq]
  rfl

@[simp] theorem applyRows_inFlight :
    (viewport.applyRows rows firstRow liveStartRow totalRows contentSeq visibleRows).inFlight
      = viewport.inFlight := by
  simp only [applyRows, queueMissingWindow_inFlight]
  rfl

/-- Only at its end does it ask for what is missing. -/
theorem applyRows_asks : ∃ settled : ScrollbackViewport, settled.queued = none ∧
    viewport.applyRows rows firstRow liveStartRow totalRows contentSeq visibleRows
      = settled.queueMissingWindow visibleRows := ⟨_, rfl, rfl⟩

/-- The rows that are there before the cache is capped. -/
def filled (viewport : ScrollbackViewport) (rows : List (List GridCell)) (firstRow : Int)
    (contentSeq : UInt64) : RowCache :=
  insertRows (if viewport.cacheSeq ≠ some contentSeq then .empty else viewport.cache) firstRow rows

@[simp] theorem applyRows_cache :
    (viewport.applyRows rows firstRow liveStartRow totalRows contentSeq visibleRows).cache
      = evict (saturate (liveStartRow - viewport.landedOffset liveStartRow))
          ((viewport.filled rows firstRow contentSeq).size - maxScrollbackCacheRows)
          (viewport.filled rows firstRow contentSeq) := by
  simp only [applyRows, queueMissingWindow_cache, capCacheNearViewport, syncAnchor]
  congr 1

end

/-! ### The cache -/

section

variable {cache : RowCache} {firstRow absolute anchor : Int} {rows : List (List GridCell)}
  {row : List GridCell} {excess : Nat}

theorem insertRows_concat (cache : RowCache) (firstRow : Int) (rows : List (List GridCell))
    (row : List GridCell) :
    insertRows cache firstRow (rows ++ [row])
      = (insertRows cache firstRow rows).insert (saturate (firstRow + rowsToI64 rows.length))
          row := by
  unfold insertRows
  rw [List.zipIdx_append, List.foldl_append, Nat.zero_add]
  rfl

/-- The rows have this one, under its number. -/
def Gives (rows : List (List GridCell)) (firstRow absolute : Int) (row : List GridCell) : Prop :=
  ∃ index, rows[index]? = some row ∧ absolute = saturate (firstRow + rowsToI64 index)

theorem Gives.concat {last : List GridCell} (h : Gives rows firstRow absolute row) :
    Gives (rows ++ [last]) firstRow absolute row := by
  obtain ⟨index, hrow, habsolute⟩ := h
  have hindex := (List.getElem?_eq_some_iff.mp hrow).1
  exact ⟨index, by rw [List.getElem?_append_left hindex, hrow], habsolute⟩

theorem Gives.last : Gives (rows ++ [row]) firstRow
    (saturate (firstRow + rowsToI64 rows.length)) row :=
  ⟨rows.length, by simp, rfl⟩

theorem Gives.of_concat {last : List GridCell} (h : Gives (rows ++ [last]) firstRow absolute row) :
    Gives rows firstRow absolute row ∨
      row = last ∧ absolute = saturate (firstRow + rowsToI64 rows.length) := by
  obtain ⟨index, hrow, habsolute⟩ := h
  rcases Nat.lt_or_ge index rows.length with hlt | hge
  · rw [List.getElem?_append_left hlt] at hrow
    exact .inl ⟨index, hrow, habsolute⟩
  · rw [List.getElem?_append_right hge] at hrow
    obtain ⟨hzero, hlast⟩ := List.getElem?_eq_some_iff.mp hrow
    have hindex : index = rows.length := by
      have : index - rows.length < 1 := hzero
      omega
    subst hindex
    exact .inr ⟨by simpa using hlast.symm, habsolute⟩

/-- What is in the cache came with the rows, or was there and they have no row of its number. -/
theorem get_insertRows (h : (insertRows cache firstRow rows).get absolute = some row) :
    Gives rows firstRow absolute row ∨
      cache.get absolute = some row ∧ ∀ other, ¬Gives rows firstRow absolute other := by
  induction rows using List.reverseRecOn with
  | nil => exact .inr ⟨h, fun _ ⟨_, hnone, _⟩ => by simp at hnone⟩
  | append_singleton rows last ih =>
    rw [insertRows_concat, OrderedMap.get_insert] at h
    split at h
    · rename_i habsolute
      obtain rfl := Option.some.inj h
      exact .inl (habsolute ▸ Gives.last)
    · rename_i habsolute
      rcases ih h with hgives | ⟨hcached, hnone⟩
      · exact .inl hgives.concat
      · refine .inr ⟨hcached, fun other hother => ?_⟩
        rcases hother.of_concat with hgives | ⟨_, hlast⟩
        · exact hnone other hgives
        · exact habsolute hlast

theorem evict_succ (cache : RowCache) (anchor : Int) (excess : Nat) :
    evict anchor (excess + 1) cache = evict anchor excess cache.popFirst ∨
      evict anchor (excess + 1) cache = evict anchor excess cache.popLast ∨
      cache.size = 0 ∧ evict anchor (excess + 1) cache = cache := by
  rw [evict]
  split
  · split
    · exact .inl rfl
    · exact .inr (.inl rfl)
  · rename_i hnone
    refine .inr (.inr ⟨?_, rfl⟩)
    rw [← OrderedMap.length_keys]
    cases hkeys : cache.keys with
    | nil => rfl
    | cons first rest =>
      rw [hkeys] at hnone
      exact absurd (List.getLast?_eq_getLast_of_ne_nil (List.cons_ne_nil first rest))
        (hnone _ _ rfl)

theorem get_evict (h : (evict anchor excess cache).get absolute = some row) :
    cache.get absolute = some row := by
  induction excess generalizing cache with
  | zero => exact h
  | succ excess ih =>
    rcases evict_succ cache anchor excess with heq | heq | ⟨_, heq⟩
    · exact OrderedMap.get_popFirst (ih (heq ▸ h))
    · exact OrderedMap.get_popLast (ih (heq ▸ h))
    · exact heq ▸ h

theorem size_evict (cache : RowCache) (anchor : Int) (excess : Nat) :
    (evict anchor excess cache).size = cache.size - excess := by
  induction excess generalizing cache with
  | zero => rfl
  | succ excess ih =>
    rcases evict_succ cache anchor excess with heq | heq | ⟨hempty, heq⟩
    · rw [heq, ih, OrderedMap.size_popFirst]
      omega
    · rw [heq, ih, OrderedMap.size_popLast]
      omega
    · rw [heq]
      omega

end

end ScrollbackViewport

/-! ### Calls -/

open ScrollbackViewport

/-- What a call takes in. -/
structure Delivery where
  rows : List (List GridCell)
  firstRow : Int
  liveStartRow : Int
  contentSeq : UInt64

def ScrollbackOp.delivery : ScrollbackOp → Option Delivery
  | .applyRows rows firstRow liveStartRow _ contentSeq _ =>
    some ⟨rows, firstRow.toInt, liveStartRow.toInt, contentSeq⟩
  | .applyGeometry liveStartRow _ contentSeq _ =>
    some ⟨[], liveStartRow.toInt, liveStartRow.toInt, contentSeq⟩
  | .completeFetch result _ =>
    match decodeResult result with
    | .ok rows => some ⟨rows, result.firstRow.toInt, result.liveStartRow.toInt, result.contentSeq⟩
    | .error _ => none
  | _ => none

theorem ScrollbackOp.inI64_delivery {op : ScrollbackOp} {delivery : Delivery}
    (h : op.delivery = some delivery) : InI64 delivery.liveStartRow := by
  cases op with
  | applyRows rows firstRow liveStartRow totalRows contentSeq visibleRows =>
    obtain rfl := Option.some.inj h
    exact inI64_toInt liveStartRow
  | applyGeometry liveStartRow totalRows contentSeq visibleRows =>
    obtain rfl := Option.some.inj h
    exact inI64_toInt liveStartRow
  | completeFetch result visibleRows =>
    simp only [ScrollbackOp.delivery] at h
    split at h
    · obtain rfl := Option.some.inj h
      exact inI64_toInt result.liveStartRow
    · cases h
  | _ => cases h

namespace ScrollbackViewport

variable {viewport : ScrollbackViewport} {op : ScrollbackOp} {delivery : Delivery}

/-- A call that takes rows in ends in `applyRows`; it may have ended a fetch first. -/
theorem step_delivery (viewport : ScrollbackViewport) (h : op.delivery = some delivery) :
    ∃ inFlight totalRows visibleRows,
      (viewport.step op).1 = { viewport with inFlight := inFlight }.applyRows delivery.rows
        delivery.firstRow delivery.liveStartRow totalRows delivery.contentSeq visibleRows := by
  cases op with
  | applyRows rows firstRow liveStartRow totalRows contentSeq visibleRows =>
    obtain rfl := Option.some.inj h
    exact ⟨viewport.inFlight, totalRows.toInt, visibleRows, rfl⟩
  | applyGeometry liveStartRow totalRows contentSeq visibleRows =>
    obtain rfl := Option.some.inj h
    exact ⟨viewport.inFlight, totalRows.toInt, visibleRows, rfl⟩
  | completeFetch result visibleRows =>
    simp only [ScrollbackOp.delivery] at h
    simp only [step, completeFetch]
    split at h
    · rename_i rows hrows
      obtain rfl := Option.some.inj h
      rw [hrows]
      exact ⟨none, result.totalRows.toInt, visibleRows, rfl⟩
    · cases h
  | _ => cases h

/-- Nothing came in: the window stayed, or went to an offset in its bounds and was pinned there. -/
structure Moves (before after : ScrollbackViewport) : Prop where
  liveStartRow : after.liveStartRow = before.liveStartRow
  geometryKnown : after.geometryKnown = before.geometryKnown
  cacheSeq : after.cacheSeq = before.cacheSeq
  cache : after.cache = before.cache
  place : after.viewOffset = before.viewOffset ∧ after.anchor = before.anchor ∨
    0 ≤ after.viewOffset ∧ (∃ visibleRows, after.viewOffset ≤ max 0 (before.maxOffset visibleRows)) ∧
      after.anchor = if after.viewOffset > 0 then
        some (saturate (after.liveStartRow - after.viewOffset)) else none

theorem moves_setViewOffset (viewport : ScrollbackViewport) (offset : Int) (visibleRows : Nat) :
    Moves viewport (viewport.setViewOffset offset visibleRows).2 := by
  rcases setViewOffset_eq viewport offset visibleRows with heq | ⟨clamped, queued, hnonneg, hle, heq⟩
  · rw [heq]
    exact ⟨rfl, rfl, rfl, rfl, .inl ⟨rfl, rfl⟩⟩
  · rw [heq]
    exact ⟨rfl, rfl, rfl, rfl, .inr ⟨hnonneg, ⟨visibleRows, hle⟩, rfl⟩⟩

theorem moves_enterAltScreen (viewport : ScrollbackViewport) :
    Moves viewport viewport.enterAltScreen.2 := by
  unfold enterAltScreen
  split
  · exact ⟨rfl, rfl, rfl, rfl, .inl ⟨rfl, rfl⟩⟩
  · exact ⟨rfl, rfl, rfl, rfl, .inr ⟨le_refl 0, ⟨0, le_max_left 0 _⟩, rfl⟩⟩

theorem moves_beginFetch (viewport : ScrollbackViewport) (visibleRows : Nat) :
    Moves viewport (viewport.beginFetch visibleRows).2 := by
  obtain ⟨inFlight, queued, heq⟩ := beginFetch_eq viewport visibleRows
  rw [heq]
  exact ⟨rfl, rfl, rfl, rfl, .inl ⟨rfl, rfl⟩⟩

theorem step_moves (viewport : ScrollbackViewport) (h : op.delivery = none) :
    Moves viewport (viewport.step op).1 := by
  cases op with
  | setViewOffset offset visibleRows => exact moves_setViewOffset viewport _ visibleRows
  | scrollBy lines visibleRows => exact moves_setViewOffset viewport _ visibleRows
  | scrollToLive visibleRows => exact moves_setViewOffset viewport _ visibleRows
  | scrollToAbsolute absoluteRow windowRow visibleRows =>
    exact moves_setViewOffset viewport _ visibleRows
  | enterAltScreen => exact moves_enterAltScreen viewport
  | beginFetch visibleRows => exact moves_beginFetch viewport visibleRows
  | completeFetch result visibleRows =>
    simp only [ScrollbackOp.delivery] at h
    split at h
    · cases h
    · rename_i error herror
      simp only [step, completeFetch, herror]
      exact ⟨rfl, rfl, rfl, rfl, .inl ⟨rfl, rfl⟩⟩
  | failFetch =>
    simp only [step, failFetch]
    split
    · exact ⟨rfl, rfl, rfl, rfl, .inl ⟨rfl, rfl⟩⟩
    · exact ⟨rfl, rfl, rfl, rfl, .inl ⟨rfl, rfl⟩⟩
  | applyRows => cases h
  | applyGeometry => cases h

/-! ### The place of the window -/

/-- The offset is in its bounds, and the anchor is the row it leads to. -/
structure Pinned (viewport : ScrollbackViewport) : Prop where
  live : InI64 viewport.liveStartRow
  nonneg : 0 ≤ viewport.viewOffset
  bounded : viewport.viewOffset < 2 ^ 63
  within : viewport.geometryKnown = true → viewport.viewOffset ≤ max viewport.liveStartRow 0
  anchored : viewport.anchor = if viewport.viewOffset > 0 then
    some (saturate (viewport.liveStartRow - viewport.viewOffset)) else none

theorem pinned_default : Pinned default :=
  ⟨⟨by decide, by decide⟩, le_refl 0, by decide, nofun, rfl⟩

theorem maxOffset_lt (h : InI64 viewport.liveStartRow) (visibleRows : Nat) :
    viewport.maxOffset visibleRows < 2 ^ 63 := by
  have hhigh := h.2
  have hother := (inI64_saturate (viewport.viewOffset + rowsToI64 visibleRows)).2
  unfold maxOffset
  split <;> omega

theorem Pinned.moves {after : ScrollbackViewport} (h : Pinned viewport)
    (hmoves : Moves viewport after) : Pinned after := by
  have hlive : InI64 after.liveStartRow := by
    rw [hmoves.liveStartRow]
    exact h.live
  rcases hmoves.place with ⟨hoffset, hanchor⟩ | ⟨hnonneg, ⟨visibleRows, hle⟩, hanchor⟩
  · refine ⟨hlive, by rw [hoffset]; exact h.nonneg, by rw [hoffset]; exact h.bounded, ?_, ?_⟩
    · rw [hoffset, hmoves.liveStartRow, hmoves.geometryKnown]
      exact h.within
    · rw [hanchor, hoffset, hmoves.liveStartRow]
      exact h.anchored
  · have hmax := maxOffset_lt h.live visibleRows
    refine ⟨hlive, hnonneg, by omega, ?_, hanchor⟩
    intro hknown
    rw [hmoves.geometryKnown] at hknown
    rw [hmoves.liveStartRow]
    rw [maxOffset, if_pos hknown] at hle
    omega

theorem landedOffset_nonneg (viewport : ScrollbackViewport) (liveStartRow : Int) :
    0 ≤ viewport.landedOffset liveStartRow := le_max_left 0 _

theorem landedOffset_le (viewport : ScrollbackViewport) (liveStartRow : Int) :
    viewport.landedOffset liveStartRow ≤ max liveStartRow 0 := by
  unfold landedOffset
  omega

theorem pinned_applyRows {liveStartRow : Int} (h : InI64 liveStartRow)
    (viewport : ScrollbackViewport) (rows : List (List GridCell)) (firstRow totalRows : Int)
    (contentSeq : UInt64) (visibleRows : Nat) :
    Pinned (viewport.applyRows rows firstRow liveStartRow totalRows contentSeq visibleRows) := by
  have hle := landedOffset_le viewport liveStartRow
  have hhigh := h.2
  refine ⟨?_, ?_, ?_, ?_, ?_⟩
  · rw [applyRows_liveStartRow]
    exact h
  · rw [applyRows_viewOffset]
    exact landedOffset_nonneg _ _
  · rw [applyRows_viewOffset]
    omega
  · intro _
    rw [applyRows_viewOffset, applyRows_liveStartRow]
    exact hle
  · rw [applyRows_anchor, applyRows_viewOffset, applyRows_liveStartRow]

theorem Pinned.step (h : Pinned viewport) (op : ScrollbackOp) : Pinned (viewport.step op).1 := by
  cases hdelivery : op.delivery with
  | none => exact h.moves (step_moves viewport hdelivery)
  | some delivery =>
    obtain ⟨inFlight, totalRows, visibleRows, heq⟩ := step_delivery viewport hdelivery
    rw [heq]
    exact pinned_applyRows (ScrollbackOp.inI64_delivery hdelivery) _ _ _ _ _ _

theorem Pinned.holds (h : Pinned viewport) (hdelivery : op.delivery = some delivery)
    {anchor : Int} (hanchor : viewport.anchor = some anchor) (hnonneg : 0 ≤ anchor)
    (hle : anchor ≤ delivery.liveStartRow) :
    viewport.absoluteRow 0 = anchor ∧ (viewport.step op).1.absoluteRow 0 = anchor := by
  have hlive := (ScrollbackOp.inI64_delivery hdelivery).2
  have hzero : rowsToI64 0 = 0 := rfl
  constructor
  · have hpinned := h.anchored
    rw [hanchor] at hpinned
    split at hpinned
    · rw [absoluteRow, ← Option.some.inj hpinned, hzero, Int.add_zero]
      exact saturate_of_mem ⟨by omega, by omega⟩
    · cases hpinned
  · obtain ⟨inFlight, totalRows, visibleRows, heq⟩ := step_delivery viewport hdelivery
    have hlanded : ({ viewport with inFlight := inFlight } : ScrollbackViewport).landedOffset
        delivery.liveStartRow = delivery.liveStartRow - anchor := by
      have hsub : saturate (delivery.liveStartRow - anchor) = delivery.liveStartRow - anchor :=
        saturate_of_mem ⟨by omega, by omega⟩
      simp only [landedOffset, hanchor, hsub]
      omega
    rw [heq, absoluteRow, applyRows_viewOffset, applyRows_liveStartRow, hlanded, hzero,
      Int.sub_sub_self, Int.add_zero]
    have hfits : InI64 anchor := ⟨by omega, by omega⟩
    rw [saturate_of_mem hfits, saturate_of_mem hfits]

/-! ### The rows of the cache -/

/-- The call brings the row, under this number and sequence. -/
def Delivers (contentSeq : UInt64) (absolute : Int) (row : List GridCell) (op : ScrollbackOp) :
    Prop :=
  ∃ delivery, op.delivery = some delivery ∧ delivery.contentSeq = contentSeq ∧
    Gives delivery.rows delivery.firstRow absolute row

/-- The call brings no other sequence and nothing in the row's place. -/
def Leaves (contentSeq : UInt64) (absolute : Int) (op : ScrollbackOp) : Prop :=
  ∀ delivery, op.delivery = some delivery → delivery.contentSeq = contentSeq ∧
    ∀ other, ¬Gives delivery.rows delivery.firstRow absolute other

/-- What is in the cache was the last to be delivered in its place, under the cached sequence, and
no other sequence came in since. -/
def Fed (ops : List ScrollbackOp) (viewport : ScrollbackViewport) : Prop :=
  ∀ absolute row, viewport.cache.get absolute = some row → ∃ contentSeq,
    viewport.cacheSeq = some contentSeq ∧
      Trace.Since (Delivers contentSeq absolute row) (Leaves contentSeq absolute) ops

theorem Fed.step {ops : List ScrollbackOp} (h : Fed ops viewport) (op : ScrollbackOp) :
    Fed (ops ++ [op]) (viewport.step op).1 := by
  intro absolute row hrow
  cases hdelivery : op.delivery with
  | none =>
    have hmoves := step_moves viewport hdelivery
    rw [hmoves.cache] at hrow
    obtain ⟨contentSeq, hseq, hsince⟩ := h absolute row hrow
    refine ⟨contentSeq, by rw [hmoves.cacheSeq, hseq], hsince.concat ?_⟩
    intro delivery hsome
    rw [hdelivery] at hsome
    cases hsome
  | some delivery =>
    obtain ⟨inFlight, totalRows, visibleRows, heq⟩ := step_delivery viewport hdelivery
    rw [heq, applyRows_cache] at hrow
    rw [heq, applyRows_cacheSeq]
    refine ⟨delivery.contentSeq, rfl, ?_⟩
    rcases get_insertRows (get_evict hrow) with hgives | ⟨hcached, hnone⟩
    · exact Trace.since_now ⟨delivery, hdelivery, rfl, hgives⟩
    · -- the row was there before, so the sequence did not change
      split at hcached
      · simp at hcached
      · rename_i hsame
        obtain ⟨contentSeq, hseq, hsince⟩ := h absolute row hcached
        have hboth : contentSeq = delivery.contentSeq :=
          Option.some.inj (hseq.symm.trans (not_not.mp hsame))
        rw [hboth] at hsince
        refine hsince.concat fun other hother => ?_
        obtain rfl := Option.some.inj (hdelivery.symm.trans hother)
        exact ⟨rfl, hnone⟩

theorem size_step (h : viewport.cache.size ≤ maxScrollbackCacheRows) (op : ScrollbackOp) :
    (viewport.step op).1.cache.size ≤ maxScrollbackCacheRows := by
  cases hdelivery : op.delivery with
  | none =>
    rw [(step_moves viewport hdelivery).cache]
    exact h
  | some delivery =>
    obtain ⟨inFlight, totalRows, visibleRows, heq⟩ := step_delivery viewport hdelivery
    rw [heq, applyRows_cache, size_evict]
    omega

/-! ### Runs -/

theorem run_pinned (ops : List ScrollbackOp) : Pinned (run step default ops) :=
  Trace.run_invariant step pinned_default (fun _ op h => h.step op) ops

theorem run_fed (ops : List ScrollbackOp) : Fed ops (run step default ops) := by
  induction ops using List.reverseRecOn with
  | nil => exact fun _ _ h => by cases h
  | append_singleton ops op ih =>
    rw [Trace.run_concat]
    exact ih.step op

theorem run_capped (ops : List ScrollbackOp) :
    (run step default ops).cache.size ≤ maxScrollbackCacheRows :=
  Trace.run_invariant step (P := fun v => v.cache.size ≤ maxScrollbackCacheRows)
    (Nat.zero_le _) (fun _ op h => size_step h op) ops

/-- The coordinates of the window agree, and its cache is of one sequence. -/
structure Coherent (ops : List ScrollbackOp) (viewport : ScrollbackViewport) : Prop where
  placed : viewport.geometryKnown = true → 0 ≤ viewport.viewOffset ∧
    ∀ visibleRows, viewport.viewOffset ≤ viewport.maxOffset visibleRows
  anchored : viewport.geometryKnown = true → viewport.anchor =
    if viewport.viewOffset > 0 then some (viewport.liveStartRow - viewport.viewOffset) else none
  capped : viewport.cache.size ≤ maxScrollbackCacheRows
  fed : Fed ops viewport
  /-- An anchor is retained as long as the history reaches from row zero to it. -/
  held : ∀ op delivery anchor, op.delivery = some delivery → viewport.anchor = some anchor →
    0 ≤ anchor → anchor ≤ delivery.liveStartRow →
    viewport.absoluteRow 0 = anchor ∧ (viewport.step op).1.absoluteRow 0 = anchor

/-- After any calls the window is where its anchor says, and stays there when rows come in. -/
theorem window_keeps_place (ops : List ScrollbackOp) : Coherent ops (run step default ops) := by
  have hpinned := run_pinned ops
  have hnonneg := hpinned.nonneg
  refine ⟨?_, ?_, run_capped ops, run_fed ops,
    fun op delivery anchor hdelivery hanchor hlow hhigh =>
      hpinned.holds hdelivery hanchor hlow hhigh⟩
  · intro hknown
    have hwithin := hpinned.within hknown
    refine ⟨hnonneg, fun visibleRows => ?_⟩
    rw [maxOffset, if_pos hknown]
    exact hwithin
  · intro hknown
    have hwithin := hpinned.within hknown
    have hhigh := hpinned.live.2
    rw [hpinned.anchored]
    split
    · rw [saturate_of_mem ⟨by omega, by omega⟩]
    · rfl

end ScrollbackViewport

end Homie.Term
