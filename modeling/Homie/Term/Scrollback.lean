/-
The window over a terminal's history: `ScrollbackViewport` of `homie-term/src/scrollback.rs`.

Rows have absolute numbers that scrolling does not change; the live grid starts at
`liveStartRow`, and the window shows the rows from `liveStartRow - viewOffset` on.  Rows of the
history are fetched and kept in a cache.  While the window is scrolled back the row at its top is
the anchor: history that grows moves the live edge away from it.

An `i64` is an integer, and what the code saturates is saturated here.  `ScrollbackOp` is every call
that changes the viewport.  The row of the window that a match is put on is computed in floating
point and enters as it is.
-/
import Mathlib
import Homie.Lib.OrderedMap
import Homie.Lib.Trace
import Homie.Proto.RemotePty
import Homie.Term.Buffer

namespace Homie.Term

/-- The nearest `i64`. -/
def saturate (n : Int) : Int := max (-2 ^ 63) (min n (2 ^ 63 - 1))

/-- `i64::try_from(n).unwrap_or(i64::MAX)` -/
def rowsToI64 (n : Nat) : Int := min n (2 ^ 63 - 1)

def maxScrollbackCacheRows : Nat := 512

structure Range where
  start : Int
  stop : Int
deriving DecidableEq, Repr

structure ScrollbackRequest where
  firstRow : Int
  maxRows : Int
deriving DecidableEq, Repr

inductive ScrollbackApplyError where
  | negativeRowCount (count : Int)
  | rowCountMismatch (declared decoded : Nat)
  | codec (error : GridCodecError)
deriving DecidableEq, Repr

def mergeRange (target : Option Range) (incoming : Range) : Option Range :=
  if incoming.start ≥ incoming.stop then target
  else
    match target with
    | some existing =>
      some ⟨min existing.start incoming.start, max existing.stop incoming.stop⟩
    | none => some incoming

abbrev RowCache := OrderedMap Int (List GridCell)

structure ScrollbackViewport where
  viewOffset : Int
  /-- The absolute row pinned to the top of the window while scrolled back. -/
  anchor : Option Int
  liveStartRow : Int
  totalRows : Int
  geometryKnown : Bool
  cacheSeq : Option UInt64
  cache : RowCache
  inFlight : Option Range
  queued : Option Range

namespace ScrollbackViewport

def default : ScrollbackViewport := ⟨0, none, 0, 0, false, none, .empty, none, none⟩

variable (viewport : ScrollbackViewport)

def maxOffset (visibleRows : Nat) : Int :=
  if viewport.geometryKnown then max viewport.liveStartRow 0
  else max (saturate (viewport.viewOffset + rowsToI64 visibleRows)) 0

def absoluteRow (windowRow : Nat) : Int :=
  saturate (saturate (viewport.liveStartRow - viewport.viewOffset) + rowsToI64 windowRow)

/-- `checked_sub` -/
def windowRowForAbsolute (absoluteRow : Int) : Option Int :=
  let row := absoluteRow - viewport.absoluteRow 0
  if -2 ^ 63 ≤ row ∧ row < 2 ^ 63 then some row else none

/-! ### What is missing -/

/-- The rows of the history that the window shows: from its top to the live edge, or to its end. -/
def neededRows (visibleRows : Nat) : Range :=
  let top := saturate (viewport.liveStartRow - viewport.viewOffset)
  ⟨top, min viewport.liveStartRow (saturate (top + rowsToI64 visibleRows))⟩

/-- Every row of the range is in the cache. -/
def cachesAll (range : Range) : Bool :=
  (List.range (range.stop - range.start).toNat).all fun i =>
    (viewport.cache.get (range.start + i)).isSome

def queueMissingWindow (visibleRows : Nat) : ScrollbackViewport :=
  if viewport.viewOffset ≤ 0 ∨ visibleRows = 0 then viewport
  else
    let needed := viewport.neededRows visibleRows
    if needed.start ≥ needed.stop ∨ viewport.cachesAll needed then viewport
    else
      let request : Range :=
        ⟨max (saturate (needed.start - rowsToI64 visibleRows)) 0,
          saturate (needed.stop + rowsToI64 visibleRows)⟩
      if viewport.inFlight = some request ∨ viewport.queued = some request then viewport
      else { viewport with queued := mergeRange viewport.queued request }

/-! ### Scrolling -/

def syncAnchor : ScrollbackViewport :=
  { viewport with
    anchor :=
      if viewport.viewOffset > 0 then some (saturate (viewport.liveStartRow - viewport.viewOffset))
      else none }

/-- Whether the window shows something else, and the viewport. -/
def setViewOffset (offset : Int) (visibleRows : Nat) : Bool × ScrollbackViewport :=
  let clamped := max 0 (min offset (viewport.maxOffset visibleRows))
  if clamped = viewport.viewOffset then (false, viewport)
  else (true, ({ viewport with viewOffset := clamped }.syncAnchor).queueMissingWindow visibleRows)

def scrollBy (lines : Int) (visibleRows : Nat) : Bool × ScrollbackViewport :=
  viewport.setViewOffset (saturate (viewport.viewOffset + lines)) visibleRows

def scrollToLive (visibleRows : Nat) : Bool × ScrollbackViewport :=
  viewport.setViewOffset 0 visibleRows

/-- `windowRow` is the row of the window that the anchor fraction comes to. -/
def scrollToAbsolute (absoluteRow windowRow : Int) (visibleRows : Nat) :
    Bool × ScrollbackViewport :=
  viewport.setViewOffset (saturate (saturate (viewport.liveStartRow + windowRow) - absoluteRow))
    visibleRows

def enterAltScreen : Bool × ScrollbackViewport :=
  if viewport.viewOffset = 0 then (false, viewport)
  else (true, { viewport with viewOffset := 0, anchor := none, queued := none })

/-! ### Rows -/

/-- The loop of `cap_cache_near_viewport`, for as many rows as are too many. -/
def evict (anchor : Int) : Nat → RowCache → RowCache
  | 0, cache => cache
  | excess + 1, cache =>
    match cache.keys.head?, cache.keys.getLast? with
    | some first, some last =>
      if (first - anchor).natAbs ≥ (last - anchor).natAbs then evict anchor excess cache.popFirst
      else evict anchor excess cache.popLast
    | _, _ => cache

def capCacheNearViewport : ScrollbackViewport :=
  { viewport with
    cache := evict (saturate (viewport.liveStartRow - viewport.viewOffset))
      (viewport.cache.size - maxScrollbackCacheRows) viewport.cache }

def insertRows (cache : RowCache) (firstRow : Int) (rows : List (List GridCell)) : RowCache :=
  rows.zipIdx.foldl (fun cache (row, index) =>
    cache.insert (saturate (firstRow + rowsToI64 index)) row) cache

def applyRows (rows : List (List GridCell)) (firstRow liveStartRow totalRows : Int)
    (contentSeq : UInt64) (visibleRows : Nat) : ScrollbackViewport :=
  let cache := if viewport.cacheSeq ≠ some contentSeq then .empty else viewport.cache
  let viewport := { viewport with
    cache := insertRows cache firstRow rows
    cacheSeq := some contentSeq
    liveStartRow := liveStartRow
    totalRows := max totalRows 0
    geometryKnown := true }
  let offset := match viewport.anchor with
    | some anchor => saturate (liveStartRow - anchor)
    | none => viewport.viewOffset
  let viewport := { viewport with
    viewOffset := max 0 (min offset (viewport.maxOffset visibleRows)) }
  { viewport.syncAnchor.capCacheNearViewport with queued := none }.queueMissingWindow visibleRows

def applyGeometry (liveStartRow totalRows : Int) (contentSeq : UInt64) (visibleRows : Nat) :
    ScrollbackViewport :=
  viewport.applyRows [] liveStartRow liveStartRow totalRows contentSeq visibleRows

/-! ### Fetches -/

def beginFetch (visibleRows : Nat) : Option ScrollbackRequest × ScrollbackViewport :=
  let viewport := viewport.queueMissingWindow visibleRows
  if viewport.inFlight.isSome then (none, viewport)
  else
    match viewport.queued with
    | none => (none, viewport)
    | some range =>
      let viewport := { viewport with queued := none }
      if range.start ≥ range.stop then (none, viewport)
      else
        (some ⟨range.start, range.stop - range.start⟩, { viewport with inFlight := some range })

/-- The rows of a response. -/
def decodeResult (result : ReadScrollbackCellsResult) :
    Except ScrollbackApplyError (List (List GridCell)) :=
  if result.rowCount.toInt < 0 then .error (.negativeRowCount result.rowCount.toInt)
  else
    match GridRowCodec.decodeRows result.payload result.rowCount.toInt.toNat with
    | .error error => .error (.codec error)
    | .ok decoded =>
      if decoded.length ≠ result.rowCount.toInt.toNat then
        .error (.rowCountMismatch result.rowCount.toInt.toNat decoded.length)
      else .ok decoded

def completeFetch (result : ReadScrollbackCellsResult) (visibleRows : Nat) :
    Except ScrollbackApplyError Unit × ScrollbackViewport :=
  let viewport := { viewport with inFlight := none }
  match decodeResult result with
  | .error error => (.error error, viewport)
  | .ok decoded =>
    (.ok (), viewport.applyRows decoded result.firstRow.toInt result.liveStartRow.toInt
      result.totalRows.toInt result.contentSeq visibleRows)

def failFetch : ScrollbackViewport :=
  match viewport.inFlight with
  | some range =>
    { viewport with inFlight := none, queued := mergeRange viewport.queued range }
  | none => viewport

end ScrollbackViewport

/-! ### Calls -/

inductive ScrollbackOp where
  | setViewOffset (offset : Int64) (visibleRows : Nat)
  | scrollBy (lines : Int64) (visibleRows : Nat)
  | scrollToLive (visibleRows : Nat)
  | scrollToAbsolute (absoluteRow windowRow : Int64) (visibleRows : Nat)
  | enterAltScreen
  | applyRows (rows : List (List GridCell)) (firstRow liveStartRow totalRows : Int64)
      (contentSeq : UInt64) (visibleRows : Nat)
  | applyGeometry (liveStartRow totalRows : Int64) (contentSeq : UInt64) (visibleRows : Nat)
  | beginFetch (visibleRows : Nat)
  | completeFetch (result : ReadScrollbackCellsResult) (visibleRows : Nat)
  | failFetch

def ScrollbackViewport.step (viewport : ScrollbackViewport) :
    ScrollbackOp → ScrollbackViewport × Unit
  | .setViewOffset offset visibleRows => ((viewport.setViewOffset offset.toInt visibleRows).2, ())
  | .scrollBy lines visibleRows => ((viewport.scrollBy lines.toInt visibleRows).2, ())
  | .scrollToLive visibleRows => ((viewport.scrollToLive visibleRows).2, ())
  | .scrollToAbsolute absoluteRow windowRow visibleRows =>
    ((viewport.scrollToAbsolute absoluteRow.toInt windowRow.toInt visibleRows).2, ())
  | .enterAltScreen => (viewport.enterAltScreen.2, ())
  | .applyRows rows firstRow liveStartRow totalRows contentSeq visibleRows =>
    (viewport.applyRows rows firstRow.toInt liveStartRow.toInt totalRows.toInt contentSeq
      visibleRows, ())
  | .applyGeometry liveStartRow totalRows contentSeq visibleRows =>
    (viewport.applyGeometry liveStartRow.toInt totalRows.toInt contentSeq visibleRows, ())
  | .beginFetch visibleRows => ((viewport.beginFetch visibleRows).2, ())
  | .completeFetch result visibleRows => ((viewport.completeFetch result visibleRows).2, ())
  | .failFetch => (viewport.failFetch, ())

end Homie.Term
