/-
What a held session's pump makes of the log is a matter of the bytes from the floor on.

`drain` is the scan of `Lib/Markers` (`drain_eq`), so where a read ends does not matter.
The buffer is emptied where a chunk crosses the floor or a rotation skips bytes.  That
leaves one way past the floor for what lies below it: a checkpoint taken exactly there is
restored with its buffer, and no chunk crosses the floor any more.
-/
import Homie.Engine.HeldPump
import Homie.Lib.Markers
import Homie.Lib.Trace
import Homie.Proto.Control

namespace Homie

open Scanned

namespace HolderExitMarker

variable {decode : List UInt8 → Option HolderExitStatus} {buffer : List UInt8}

/-- The abstract scan for this marker. -/
def scanned (decode : List UInt8 → Option HolderExitStatus) (buffer : List UInt8) :
    Scanned UInt8 HolderExitStatus :=
  scan opening terminator decode buffer

/-! ### `drain` scans -/

theorem take_eq_iff_opens (haystack needle : List UInt8) :
    haystack.take needle.length = needle ↔ needle <+: haystack := by
  rw [List.prefix_iff_eq_take]
  exact eq_comm

theorem find_some {i : Nat} (h : find buffer opening = some i) :
    opening <+: buffer.drop i ∧ ∀ j < i, ¬ opening <+: buffer.drop j := by
  obtain ⟨hi, -, hfirst⟩ := List.find?_range_eq_some.mp h
  refine ⟨(take_eq_iff_opens _ _).mp (eq_of_beq hi), ?_⟩
  intro j hj hopen
  have hnot := hfirst j hj
  rw [(take_eq_iff_opens _ _).mpr hopen] at hnot
  simp at hnot

theorem find_none (h : find buffer opening = none) (j : Nat) : ¬ opening <+: buffer.drop j := by
  intro hopen
  have hlen := hopen.length_le
  rw [List.length_drop] at hlen
  have hpos : 0 < opening.length := by decide
  have hnot := List.find?_range_eq_none.mp h j (by omega)
  rw [(take_eq_iff_opens _ _).mpr hopen] at hnot
  simp at hnot

theorem longestSuffix_le (data : List UInt8) :
    longestSuffix data ≤ data.length ∧ longestSuffix data < opening.length := by
  have hpos : 0 < opening.length := by decide
  unfold longestSuffix
  dsimp only
  cases h : (List.range' 1 (min data.length (opening.length - 1))).reverse.find? (fun length =>
      data.drop (data.length - length) == opening.take length) with
  | none => exact ⟨Nat.zero_le _, hpos⟩
  | some length =>
    have hmem := List.mem_reverse.mp (List.mem_of_find?_eq_some h)
    rw [List.mem_range'_1] at hmem
    show length ≤ _ ∧ length < _
    omega

theorem longestSuffix_opens (data : List UInt8) :
    data.drop (data.length - longestSuffix data) <+: opening := by
  unfold longestSuffix
  dsimp only
  cases h : (List.range' 1 (min data.length (opening.length - 1))).reverse.find? (fun length =>
      data.drop (data.length - length) == opening.take length) with
  | none =>
    show data.drop data.length <+: opening
    rw [List.drop_length]
    exact List.nil_prefix
  | some length =>
    have heq := List.find?_some h
    show data.drop (data.length - length) <+: opening
    rw [eq_of_beq heq]
    exact List.take_prefix _ _

theorem find_reverse_largest {count k l : Nat} {p : Nat → Bool}
    (h : ((List.range' 1 count).reverse.find? p).getD 0 = k) (hkl : k < l) (hl : l ≤ count) :
    p l = false := by
  have hmem : l ∈ (List.range' 1 count).reverse := by
    rw [List.mem_reverse, List.mem_range'_1]
    omega
  have hdown : (List.range' 1 count).reverse.Pairwise (fun a b => b < a) :=
    List.pairwise_reverse.mpr List.pairwise_lt_range'
  cases hfind : (List.range' 1 count).reverse.find? p with
  | none =>
    have hnot := List.find?_eq_none.mp hfind l hmem
    simpa using hnot
  | some found =>
    rw [hfind] at h
    have hk : found = k := h
    obtain ⟨-, above, below, hsplit, habove⟩ := List.find?_eq_some_iff_append.mp hfind
    rw [hsplit] at hmem hdown
    rcases List.mem_append.mp hmem with hin | hin
    · simpa using habove l hin
    · rcases List.mem_cons.mp hin with rfl | hin
      · omega
      · -- what comes after the one found is smaller
        have := (List.pairwise_cons.mp (List.pairwise_append.mp hdown).2.1).1 l hin
        omega

/-- No longer tail is. -/
theorem longestSuffix_longest (data : List UInt8) {j : Nat}
    (hj : j < data.length - longestSuffix data) (hopen : ¬ opening <+: data.drop j) :
    ¬ data.drop j <+: opening := by
  intro htail
  have hlen := htail.length_le
  rw [List.length_drop] at hlen
  have hne : data.length - j ≠ opening.length := by
    intro heq
    have hfull : data.drop j = opening := htail.eq_of_length (by rw [List.length_drop]; exact heq)
    exact hopen (hfull ▸ List.prefix_refl _)
  have hmatch : data.drop (data.length - (data.length - j)) = opening.take (data.length - j) := by
    have htake := List.prefix_iff_eq_take.mp htail
    rw [List.length_drop] at htake
    rw [Nat.sub_sub_self (by omega)]
    exact htake
  have hlonger := find_reverse_largest (k := longestSuffix data) (l := data.length - j) rfl
    (by omega) (by omega)
  rw [hmatch] at hlonger
  simp at hlonger

theorem scanned_none (h : find buffer opening = none) :
    scanned decode buffer
      = ⟨buffer.take (buffer.length - longestSuffix buffer), none,
          buffer.drop (buffer.length - longestSuffix buffer)⟩ := by
  have hle := longestSuffix_le buffer
  have hrest : buffer.drop (buffer.length - longestSuffix buffer) ≠ opening := by
    intro heq
    have hlen := congrArg List.length heq
    rw [List.length_drop] at hlen
    omega
  have hplain : ∀ j < buffer.length - longestSuffix buffer,
      ¬ opening <+: buffer.drop j ∧ ¬ buffer.drop j <+: opening :=
    fun j hj => ⟨find_none h j, longestSuffix_longest buffer hj (find_none h j)⟩
  rw [scanned, scan_skip (Nat.sub_le _ _) hplain, scan_held (longestSuffix_opens buffer) hrest]
  simp [held, andThen]

theorem scanned_some {i : Nat} (h : find buffer opening = some i) :
    scanned decode buffer
      = (Scanned.mk (buffer.take i) none []).andThen (scanned decode (buffer.drop i)) := by
  obtain ⟨hopen, hfirst⟩ := find_some h
  have hlen := hopen.length_le
  rw [List.length_drop] at hlen
  have hpos : 0 < opening.length := by decide
  refine scan_skip (by omega) ?_
  intro j hj
  refine ⟨hfirst j hj, ?_⟩
  intro htail
  have hshort := htail.length_le
  rw [List.length_drop] at hshort
  omega

/-- What a drain has found so far, with the scan of what is left. -/
def Drained.finish (decode : List UInt8 → Option HolderExitStatus) (state : Drained) : Drained :=
  ⟨state.output ++ (scanned decode state.buffer).output,
    (scanned decode state.buffer).status.or state.exitStatus, (scanned decode state.buffer).rest⟩

theorem finish_of_held {state : Drained} (h : scanned decode state.buffer = held state.buffer) :
    state.finish decode = state := by
  rw [Drained.finish, h]
  simp [held]

/-- A round that goes on shortens the buffer and keeps what the scan will find. -/
def GoesOn (decode : List UInt8 → Option HolderExitStatus) (state : Drained)
    (round : Drained × Bool) : Prop :=
  round.2 = true ∧ round.1.finish decode = state.finish decode ∧
    round.1.buffer.length < state.buffer.length

/-- The last round leaves what the scan finds. -/
def Ends (decode : List UInt8 → Option HolderExitStatus) (state : Drained)
    (round : Drained × Bool) : Prop :=
  round.2 = false ∧ round.1 = state.finish decode

theorem drainRound_cases (decode : List UInt8 → Option HolderExitStatus) {state : Drained} (hne : state.buffer ≠ []) :
    GoesOn decode state (drainRound decode state) ∨ Ends decode state (drainRound decode state) := by
  have hlen := List.length_pos_iff.mpr hne
  unfold drainRound
  cases hfind : find state.buffer opening with
  | none =>
    refine Or.inr ⟨rfl, ?_⟩
    rw [Drained.finish, scanned_none hfind]
    rfl
  | some i =>
    have hopen := (find_some hfind).1
    dsimp only
    by_cases hpos : i > 0
    · rw [if_pos hpos]
      refine Or.inl ⟨rfl, ?_, ?_⟩
      · rw [Drained.finish, Drained.finish, scanned_some hfind]
        simp [andThen]
      · show (state.buffer.drop i).length < _
        rw [List.length_drop]
        omega
    · have hzero : i = 0 := by omega
      subst hzero
      rw [List.drop_zero] at hopen
      rw [if_neg hpos]
      cases hclosed : state.buffer.findIdx? (· == terminator) with
      | none => exact Or.inr ⟨rfl, (finish_of_held (scan_open hopen hclosed)).symm⟩
      | some stop =>
        refine Or.inl ⟨rfl, ?_, ?_⟩
        · have hscan : scanned decode state.buffer = _ := scan_closed hopen hclosed
          rw [Drained.finish, Drained.finish, hscan]
          simp [andThen, Option.or_assoc, scanned]
        · show (state.buffer.drop (stop + 1)).length < _
          rw [List.length_drop]
          omega

theorem drainLoop_eq (fuel : Nat) (state : Drained) (hfuel : state.buffer.length ≤ fuel) :
    drainLoop decode fuel state = state.finish decode := by
  have hempty : ∀ {state : Drained}, state.buffer = [] → state = state.finish decode := by
    intro state hnil
    refine (finish_of_held ?_).symm
    rw [hnil, scanned, scan_nil]
  induction fuel generalizing state with
  | zero => exact hempty (List.length_eq_zero_iff.mp (Nat.le_zero.mp hfuel))
  | succ fuel ih =>
    rw [drainLoop]
    split
    · rename_i hnil
      exact hempty (List.isEmpty_iff.mp hnil)
    · rename_i hne
      dsimp only
      rcases drainRound_cases decode (fun hnil => hne (List.isEmpty_iff.mpr hnil)) with
        ⟨hmore, hsame, hshorter⟩ | ⟨hdone, hresult⟩
      · rw [if_pos hmore, ih _ (by omega), hsame]
      · rw [if_neg (by rw [hdone]; exact Bool.false_ne_true), hresult]

/-- **The drain loop is the scan.** -/
theorem drain_eq (buffer : List UInt8) :
    drain decode buffer = ⟨(scanned decode buffer).output, (scanned decode buffer).status,
      (scanned decode buffer).rest⟩ := by
  rw [drain, drainLoop_eq buffer.length ⟨[], none, buffer⟩ (Nat.le_refl _), Drained.finish]
  simp

end HolderExitMarker

namespace HeldPump

open HolderExitMarker Trace

/-! ### What there is to read from the floor on -/

/-- The part of a chunk from the floor on, with the offset it starts at. -/
def livePart (floor : Nat) (read : Nat × List UInt8) : Nat × List UInt8 :=
  (max read.1 floor, read.2.drop (floor - read.1))

/-- What has been read of the log: stretches without a gap, the last of them still open. -/
structure Stretches where
  closed : List (List UInt8)
  current : List UInt8
  stop : Nat

namespace Stretches

/-- A read goes on where the last one stopped, or starts a stretch of its own. -/
def add (stretches : Stretches) (read : Nat × List UInt8) : Stretches :=
  if read.2 = [] then stretches
  else if read.1 = stretches.stop then
    { stretches with
      current := stretches.current ++ read.2
      stop := read.1 + read.2.length }
  else ⟨stretches.closed ++ [stretches.current], read.2, read.1 + read.2.length⟩

/-- Every stretch scanned on its own, one after the other. -/
def summary (decode : List UInt8 → Option HolderExitStatus) (stretches : Stretches) :
    Scanned UInt8 HolderExitStatus :=
  (stretches.closed.foldl (fun found bytes => found.andThen (scanned decode bytes)) (held [])).andThen
    (scanned decode stretches.current)

variable {stretches : Stretches}

/-- Only what an open stretch keeps back has a say in what follows. -/
theorem summary_add (stretches : Stretches) (decode : List UInt8 → Option HolderExitStatus)
    (start : Nat) {bytes : List UInt8} (hbytes : bytes ≠ []) :
    (stretches.add (start, bytes)).summary decode
      = (stretches.summary decode).andThen (scanned decode
          ((if start = stretches.stop then (stretches.summary decode).rest else []) ++ bytes)) := by
  unfold add
  rw [if_neg hbytes]
  dsimp only
  by_cases hnext : start = stretches.stop
  · rw [if_pos hnext, if_pos hnext, summary, summary, andThen_assoc]
    exact congrArg _ (scan_append _ _)
  · rw [if_neg hnext, if_neg hnext, summary, summary, List.foldl_append]
    rfl

theorem add_nil (start : Nat) : stretches.add (start, []) = stretches :=
  if_pos rfl

theorem stop_add {start : Nat} {bytes : List UInt8} (hbytes : bytes ≠ []) :
    (stretches.add (start, bytes)).stop = start + bytes.length := by
  unfold add
  rw [if_neg hbytes]
  dsimp only
  split <;> rfl

end Stretches

/-! ### One chunk -/

variable {decode : List UInt8 → Option HolderExitStatus} {pump : HeldPump} {stretches : Stretches}

/-- The pump has found what is in the stretches it read from the floor on. -/
structure Follows (decode : List UInt8 → Option HolderExitStatus) (pump : HeldPump)
    (stretches : Stretches) : Prop where
  live : pump.live = (stretches.summary decode).output
  exit : pump.exitStatus = (stretches.summary decode).status
  stop : stretches.stop = max pump.offset pump.exitMarkerFloor
  buffer : pump.exitMarkerFloor ≤ pump.offset →
    pump.markerBuffer = (stretches.summary decode).rest
  below : pump.offset < pump.exitMarkerFloor → (stretches.summary decode).rest = []

theorem takeLive_found (decode : List UInt8 → Option HolderExitStatus) (pump : HeldPump)
    {bytes : List UInt8} (hbytes : bytes ≠ []) :
    (pump.takeLive decode bytes).live
        = pump.live ++ (scanned decode (pump.markerBuffer ++ bytes)).output ∧
      (pump.takeLive decode bytes).exitStatus
        = (scanned decode (pump.markerBuffer ++ bytes)).status.or pump.exitStatus ∧
      (pump.takeLive decode bytes).markerBuffer
        = (scanned decode (pump.markerBuffer ++ bytes)).rest := by
  unfold takeLive
  rw [if_neg (by simpa using hbytes), drain_eq]
  exact ⟨rfl, rfl, rfl⟩

theorem takeLive_place (decode : List UInt8 → Option HolderExitStatus) (pump : HeldPump)
    (bytes : List UInt8) :
    (pump.takeLive decode bytes).offset = pump.offset ∧
      (pump.takeLive decode bytes).exitMarkerFloor = pump.exitMarkerFloor := by
  unfold takeLive
  split <;> exact ⟨rfl, rfl⟩

theorem takeStale_frame (decode : List UInt8 → Option HolderExitStatus) (pump : HeldPump)
    (start : Nat) (stale : List UInt8) :
    (pump.takeStale decode start stale).live = pump.live ∧
      (pump.takeStale decode start stale).exitStatus = pump.exitStatus ∧
      (pump.takeStale decode start stale).offset = pump.offset ∧
      (pump.takeStale decode start stale).exitMarkerFloor = pump.exitMarkerFloor := by
  unfold takeStale
  split <;> exact ⟨rfl, rfl, rfl, rfl⟩

theorem takeStale_cleared {start : Nat} {stale : List UInt8} (hne : stale ≠ [])
    (hfloor : pump.exitMarkerFloor ≤ start + stale.length) :
    (pump.takeStale decode start stale).markerBuffer = [] := by
  unfold takeStale
  rw [if_neg (by simpa using hne)]
  exact if_pos hfloor

theorem follows_takeLive (pump : HeldPump) (hlive : pump.live = (stretches.summary decode).output)
    (hexit : pump.exitStatus = (stretches.summary decode).status) {start : Nat}
    {bytes : List UInt8} (hbytes : bytes ≠ []) (hoffset : pump.offset = start + bytes.length)
    (hfloor : pump.exitMarkerFloor ≤ start)
    (hbuffer : pump.markerBuffer
      = if start = stretches.stop then (stretches.summary decode).rest else []) :
    Follows decode (pump.takeLive decode bytes) (stretches.add (start, bytes)) := by
  obtain ⟨hfound, hstatus, hrest⟩ := takeLive_found decode pump hbytes
  obtain ⟨hplace, hsame⟩ := takeLive_place decode pump bytes
  have hsummary := stretches.summary_add decode start hbytes
  rw [← hbuffer] at hsummary
  refine ⟨?_, ?_, ?_, ?_, ?_⟩
  · rw [hfound, hsummary, hlive]
    rfl
  · rw [hstatus, hsummary, hexit]
    rfl
  · rw [Stretches.stop_add hbytes, hplace, hsame]
    omega
  · intro _
    rw [hrest, hsummary]
    rfl
  · intro hbelow
    rw [hplace, hsame] at hbelow
    omega

theorem takeChunk_eq (decode : List UInt8 → Option HolderExitStatus) (pump : HeldPump) (start : Nat)
    (chunk : List UInt8) :
    pump.takeChunk decode start chunk
      = (({ pump with
            offset := start + chunk.length
            markerBuffer := if pump.offset < start then [] else pump.markerBuffer }).takeStale
          decode start (chunk.take (min (pump.exitMarkerFloor - start) chunk.length))).takeLive decode
            (chunk.drop (min (pump.exitMarkerFloor - start) chunk.length)) := by
  unfold takeChunk
  dsimp only
  by_cases hgap : start > pump.offset
  · cases hbuffer : pump.markerBuffer with
    | nil => simp [hgap, hbuffer]
    | cons byte rest => simp [hgap]
  · simp [hgap]

theorem Follows.takeChunk (h : Follows decode pump stretches) {start : Nat} {chunk : List UInt8}
    (hstart : pump.offset ≤ start) (hchunk : chunk ≠ []) :
    Follows decode (pump.takeChunk decode start chunk)
      (stretches.add (livePart pump.exitMarkerFloor (start, chunk))) := by
  have hlen := List.length_pos_iff.mpr hchunk
  have hstop := h.stop
  rw [takeChunk_eq]
  by_cases hfloor : pump.exitMarkerFloor ≤ start
  · -- the whole chunk is live
    have hlive : livePart pump.exitMarkerFloor (start, chunk) = (start, chunk) := by
      unfold livePart
      dsimp only
      rw [Nat.max_eq_left hfloor, Nat.sub_eq_zero_of_le hfloor, List.drop_zero]
    rw [hlive, Nat.sub_eq_zero_of_le hfloor, Nat.zero_min]
    refine follows_takeLive { pump with
      offset := start + chunk.length
      markerBuffer := if pump.offset < start then [] else pump.markerBuffer }
      h.live h.exit hchunk rfl hfloor ?_
    show (if pump.offset < start then [] else pump.markerBuffer) = _
    by_cases hgap : pump.offset < start
    · rw [if_pos hgap]
      split
      · rw [h.below (by omega)]
      · rfl
    · rw [if_neg hgap, if_pos (by omega)]
      exact h.buffer (by omega)
  · have hbelow := h.below (by omega)
    by_cases hend : start + chunk.length ≤ pump.exitMarkerFloor
    · -- the whole chunk is stale
      have hlive : livePart pump.exitMarkerFloor (start, chunk) = (pump.exitMarkerFloor, []) := by
        unfold livePart
        dsimp only
        rw [Nat.max_eq_right (by omega), List.drop_eq_nil_of_le (by omega)]
      rw [hlive, Stretches.add_nil, Nat.min_eq_right (by omega), List.take_length, List.drop_length]
      obtain ⟨hsame, hexit, hplace, hmark⟩ := takeStale_frame decode ({ pump with
        offset := start + chunk.length
        markerBuffer := if pump.offset < start then [] else pump.markerBuffer }) start chunk
      refine ⟨hsame.trans h.live, hexit.trans h.exit, ?_, ?_, fun _ => hbelow⟩
      · show _ = max (HeldPump.takeStale _ _ _ _).offset (HeldPump.takeStale _ _ _ _).exitMarkerFloor
        rw [hplace, hmark, hstop]
        show max pump.offset pump.exitMarkerFloor
          = max (start + chunk.length) pump.exitMarkerFloor
        omega
      · intro hreached
        have hreached : (HeldPump.takeStale _ _ _ _).exitMarkerFloor
          ≤ (HeldPump.takeStale _ _ _ _).offset := hreached
        rw [hplace, hmark] at hreached
        rw [hbelow]
        exact takeStale_cleared hchunk hreached
    · -- the floor is inside the chunk
      have hsplit : (chunk.take (pump.exitMarkerFloor - start)).length
          = pump.exitMarkerFloor - start := by
        rw [List.length_take]
        omega
      have hstale : chunk.take (pump.exitMarkerFloor - start) ≠ [] := by
        intro hnil
        rw [hnil] at hsplit
        simp only [List.length_nil] at hsplit
        omega
      have hbytes : chunk.drop (pump.exitMarkerFloor - start) ≠ [] := by
        intro hnil
        have := List.drop_eq_nil_iff.mp hnil
        omega
      rw [livePart, Nat.max_eq_right (by omega), Nat.min_eq_left (by omega)]
      obtain ⟨hsame, hexit, hplace, hmark⟩ := takeStale_frame decode ({ pump with
        offset := start + chunk.length
        markerBuffer := if pump.offset < start then [] else pump.markerBuffer }) start
        (chunk.take (pump.exitMarkerFloor - start))
      refine follows_takeLive _ (hsame.trans h.live) (hexit.trans h.exit) hbytes ?_
        (Nat.le_of_eq hmark) ?_
      · rw [hplace, List.length_drop]
        show start + chunk.length = _
        omega
      · rw [hbelow, ite_self]
        refine takeStale_cleared hstale ?_
        rw [hsplit]
        show pump.exitMarkerFloor ≤ _
        omega

/-! ### Runs -/

theorem le_of_read {disk : Disk} {log log' : OutputLog} {offset maxBytes start : Nat}
    {chunk : List UInt8}
    (h : OutputLog.read disk log offset maxBytes = some ((start, chunk), log')) (hne : chunk ≠ []) :
    offset ≤ start := by
  unfold OutputLog.read at h
  dsimp only at h
  split at h
  · cases h
    exact absurd rfl hne
  · split at h
    · exact nomatch h
    · split at h
      · cases h
        exact Nat.le_max_left _ _
      · unfold OutputLog.readFromDisk at h
        dsimp only at h
        split at h
        · cases h
          exact absurd rfl hne
        · split at h
          · exact nomatch h
          · cases h
            exact Nat.le_trans (Nat.le_max_left _ _) (Nat.le_max_left _ _)

/-- The chunks a run took. -/
def chunks (history : List (Step HeldPump (Disk × OutputLog) (Option (Nat × List UInt8)))) :
    List (Nat × List UInt8) :=
  history.filterMap (·.outcome)

theorem chunks_concat (history : List (Step HeldPump (Disk × OutputLog) (Option (Nat × List UInt8))))
    (s : Step HeldPump (Disk × OutputLog) (Option (Nat × List UInt8))) :
    chunks (history ++ [s]) = chunks history ++ s.outcome.toList := by
  rw [chunks, List.filterMap_append]
  cases h : s.outcome <;> simp [chunks, h]

/-- The bytes of the log between the floor and the place a pump stands. -/
def behind (pump : HeldPump) (stream : List UInt8) : List UInt8 :=
  (stream.drop pump.exitMarkerFloor).take (pump.offset - pump.exitMarkerFloor)

/--
The pump starts below the floor or with an empty buffer, or its buffer is what the bytes
between the floor and the pump leave open.
-/
def Clean (decode : List UInt8 → Option HolderExitStatus) (pump : HeldPump) (stream : List UInt8) :
    Prop :=
  pump.offset < pump.exitMarkerFloor ∨ pump.markerBuffer = [] ∨
    pump.markerBuffer = (scanned decode (pump.behind stream)).rest

/-- What a pump carries over from the bytes between the floor and itself. -/
def carried (decode : List UInt8 → Option HolderExitStatus) (pump : HeldPump)
    (stream : List UInt8) : List UInt8 :=
  if pump.offset < pump.exitMarkerFloor ∨ pump.markerBuffer = [] then []
  else (scanned decode (pump.behind stream)).rest

/-- What a run reads from the floor on, after what the pump carries over. -/
def stretchesRead (decode : List UInt8 → Option HolderExitStatus) (pump : HeldPump)
    (stream : List UInt8) (reads : List (Nat × List UInt8)) : Stretches :=
  (reads.map (livePart pump.exitMarkerFloor)).foldl Stretches.add
    ⟨[], carried decode pump stream, max pump.offset pump.exitMarkerFloor⟩

theorem follows_step (h : Follows decode pump stretches) (poll : Disk × OutputLog) :
    Follows decode (pump.step decode poll).1
      (((pump.step decode poll).2.toList.map (livePart pump.exitMarkerFloor)).foldl Stretches.add
        stretches) := by
  unfold step
  split
  · exact h
  · split
    · exact h
    · rename_i start chunk log' hread
      split
      · exact h
      · rename_i hne
        have hne : chunk ≠ [] := fun hnil => hne (List.isEmpty_iff.mpr hnil)
        exact h.takeChunk (le_of_read hread hne) hne

theorem step_floor (decode : List UInt8 → Option HolderExitStatus) (pump : HeldPump)
    (poll : Disk × OutputLog) : (pump.step decode poll).1.exitMarkerFloor = pump.exitMarkerFloor := by
  unfold step
  split
  · rfl
  · split
    · rfl
    · split
      · rfl
      · rw [takeChunk_eq, (takeLive_place decode _ _).2, (takeStale_frame decode _ _ _).2.2.2]

theorem follows_start (decode : List UInt8 → Option HolderExitStatus) {stream : List UInt8}
    (hclean : Clean decode pump stream) (hlive : pump.live = []) (hexit : pump.exitStatus = none) :
    Follows decode pump (stretchesRead decode pump stream []) := by
  have hheld : scanned decode (carried decode pump stream) = held (carried decode pump stream) := by
    unfold carried
    split
    · exact scan_nil _ _ _
    · exact scan_rest _
  have hsummary : (stretchesRead decode pump stream []).summary decode
      = held (carried decode pump stream) := by
    show (held []).andThen (scanned decode (carried decode pump stream)) = _
    rw [hheld]
    exact held_andThen _ _
  refine ⟨?_, ?_, rfl, ?_, ?_⟩
  · rw [hsummary, hlive]
    rfl
  · rw [hsummary, hexit]
    rfl
  · intro hfloor
    rw [hsummary]
    show pump.markerBuffer = carried decode pump stream
    rcases hclean with hbelow | hempty | hrest
    · omega
    · rw [carried, if_pos (Or.inr hempty), hempty]
    · unfold carried
      split
      · rename_i hnone
        exact hnone.resolve_left (by omega)
      · exact hrest
  · intro hbelow
    rw [hsummary]
    exact if_pos (Or.inl hbelow)

/--
**The floor isolates incarnations.**  Whatever the log, the floor and the polls, a pump that
starts clean has output, of the bytes from the floor on, what their stretches scan to, and
honours the exit status that they hold.  Neither bytes below the floor nor where the reads
were cut have a say in it.
-/
theorem held_pump_isolated (decode : List UInt8 → Option HolderExitStatus) {log : OutputLog}
    {replayBudget floor : Nat} {checkpoint : Option LogCheckpoint} {stream : List UInt8}
    (hclean : Clean decode (start log replayBudget floor checkpoint) stream)
    (polls : List (Disk × OutputLog)) :
    (run (step decode) (start log replayBudget floor checkpoint) polls).live
        = ((stretchesRead decode (start log replayBudget floor checkpoint) stream
            (chunks (trace (step decode) (start log replayBudget floor checkpoint) polls))).summary
              decode).output ∧
      (run (step decode) (start log replayBudget floor checkpoint) polls).exitStatus
        = ((stretchesRead decode (start log replayBudget floor checkpoint) stream
            (chunks (trace (step decode) (start log replayBudget floor checkpoint) polls))).summary
              decode).status := by
  have hstart : (start log replayBudget floor checkpoint).live = [] ∧
      (start log replayBudget floor checkpoint).exitStatus = none := by
    unfold start
    split <;> exact ⟨rfl, rfl⟩
  generalize start log replayBudget floor checkpoint = first at *
  have hrun := trace_invariant (step decode)
    (P := fun history pump => pump.exitMarkerFloor = first.exitMarkerFloor ∧
      Follows decode pump (stretchesRead decode first stream (chunks history)))
    ⟨rfl, follows_start decode hclean hstart.1 hstart.2⟩ ?_ polls
  · exact ⟨hrun.2.live, hrun.2.exit⟩
  · rintro history pump poll ⟨hfloor, hfollows⟩
    refine ⟨(step_floor decode pump poll).trans hfloor, ?_⟩
    rw [chunks_concat, stretchesRead, List.map_append, List.foldl_append]
    have hstep := follows_step hfollows poll
    rw [hfloor] at hstep
    exact hstep

/-! ### At the floor exactly -/

/-- An exit without a code. -/
def bareExit : HolderExitStatus := ⟨.exited, none, none⟩

/-- The decoder, as far as one payload goes. -/
def decodeBare (bytes : List UInt8) : Option HolderExitStatus :=
  if bytes = payload bareExit then some bareExit else none

/-- Three bytes of a prior incarnation, and a bell of this one. -/
def bellDisk : Disk := ⟨[logHeader 0 ++ [0x61, 0x62, 0x63, 0x07]], some 0⟩

def bellLog : OutputLog := (OutputLog.openLog bellDisk 4 64 true).2

/-- A checkpoint below the floor, with a marker that was never closed. -/
theorem held_pump_isolated_bell :
    (run (step decodeBare) (start bellLog 64 3 (some ⟨2, opening ++ payload bareExit⟩))
        [(bellDisk, bellLog)]).live
      = ((stretchesRead decodeBare (start bellLog 64 3 (some ⟨2, opening ++ payload bareExit⟩))
          [0x61, 0x62, 0x63, 0x07] (chunks (trace (step decodeBare)
            (start bellLog 64 3 (some ⟨2, opening ++ payload bareExit⟩)) [(bellDisk, bellLog)]))).summary
              decodeBare).output :=
  (held_pump_isolated decodeBare (Or.inl (by decide)) [(bellDisk, bellLog)]).1

/--
The same marker in a checkpoint at the floor: the bell of the new incarnation closes it and
the session ends, while without the stale buffer the bell is output.
-/
theorem stale_marker_honoured :
    (run (step decodeBare) (start bellLog 64 3 (some ⟨3, opening ++ payload bareExit⟩))
        [(bellDisk, bellLog)]).exitStatus = some bareExit ∧
      (run (step decodeBare) (start bellLog 64 3 (some ⟨3, opening ++ payload bareExit⟩))
        [(bellDisk, bellLog)]).live = [] ∧
      (run (step decodeBare) (start bellLog 64 3 (some ⟨3, []⟩))
        [(bellDisk, bellLog)]).exitStatus = none ∧
      (run (step decodeBare) (start bellLog 64 3 (some ⟨3, []⟩))
        [(bellDisk, bellLog)]).live = [0x07] := by
  decide

end HeldPump

end Homie

/-! ### Exit markers in a stream that arrives in pieces

What draining piece by piece has found is, after every piece, what one drain of everything so
far finds: this is `scan_append`, with the residue of one drain in front of the next piece.

A marker is found where it was written.  Its opening starts with `ESC` and has no other, so no
opening lies across its left edge (`scanned_before`); base64 has no `BEL`, so the first one is
its own (`scanned_marker`).
-/

namespace Homie

open Scanned

namespace HolderExitMarker

variable {decode : List UInt8 → Option HolderExitStatus}

/-! ### Pieces -/

/-- The next piece, behind what the last drain kept back. -/
def drainMore (decode : List UInt8 → Option HolderExitStatus) (found : Drained)
    (piece : List UInt8) : Drained :=
  let drained := drain decode (found.buffer ++ piece)
  { output := found.output ++ drained.output
    exitStatus := drained.exitStatus.or found.exitStatus
    buffer := drained.buffer }

def drainPieces (decode : List UInt8 → Option HolderExitStatus) (pieces : List (List UInt8)) :
    Drained :=
  pieces.foldl (drainMore decode) ⟨[], none, []⟩

theorem drainMore_drain (decode : List UInt8 → Option HolderExitStatus) (bytes piece : List UInt8) :
    drainMore decode (drain decode bytes) piece = drain decode (bytes ++ piece) := by
  have happend : scanned decode (bytes ++ piece) = _ := scan_append bytes piece
  rw [drainMore, drain_eq, drain_eq, drain_eq, happend]
  rfl

theorem foldl_drainMore (decode : List UInt8 → Option HolderExitStatus)
    (pieces : List (List UInt8)) (bytes : List UInt8) :
    pieces.foldl (drainMore decode) (drain decode bytes) = drain decode (bytes ++ pieces.flatten) := by
  induction pieces generalizing bytes with
  | nil => rw [List.foldl_nil, List.flatten_nil, List.append_nil]
  | cons piece pieces ih =>
    rw [List.foldl_cons, drainMore_drain, ih, List.flatten_cons, List.append_assoc]

theorem drainPieces_eq (decode : List UInt8 → Option HolderExitStatus)
    (pieces : List (List UInt8)) : drainPieces decode pieces = drain decode pieces.flatten :=
  foldl_drainMore decode pieces []

/-! ### Where a marker stands -/

/-- The opening starts with its only `ESC`. -/
theorem opening_unbordered {part : List UInt8} (hsuffix : part <:+ opening)
    (hleads : part <+: opening) : part = [] ∨ part = opening := by
  have hall : ∀ part ∈ opening.tails, part <+: opening → part = [] ∨ part = opening := by decide
  exact hall part ((List.mem_tails part opening).mpr hsuffix) hleads

/-- No opening lies across the start of another. -/
theorem not_opens_before {before rest : List UInt8} (hbefore : ¬ opening <:+: before)
    (hrest : opening <+: rest) {i : Nat} (hi : i < before.length) :
    ¬ opening <+: (before ++ rest).drop i := by
  rw [List.drop_append_of_le_length (Nat.le_of_lt hi)]
  intro hopen
  rcases List.prefix_or_prefix_of_prefix hopen (List.prefix_append (before.drop i) rest)
    with hinside | hacross
  · exact hbefore (hinside.isInfix.trans (List.drop_suffix i before).isInfix)
  · -- what is left of this opening is where the other one starts
    obtain ⟨part, hpart⟩ := hacross
    rw [← hpart, List.prefix_append_right_inj] at hopen
    have hsuffix : part <:+ opening := ⟨_, hpart⟩
    have hleads : part <+: opening :=
      List.prefix_of_prefix_length_le hopen hrest hsuffix.length_le
    have hlen := congrArg List.length hpart
    rw [List.length_append, List.length_drop] at hlen
    rcases opening_unbordered hsuffix hleads with rfl | rfl
    · rw [List.append_nil] at hpart
      exact hbefore (hpart ▸ (List.drop_suffix i before).isInfix)
    · omega

theorem scanned_before {before rest : List UInt8} (hbefore : ¬ opening <:+: before)
    (hrest : opening <+: rest) :
    scanned decode (before ++ rest)
      = (Scanned.mk before none []).andThen (scanned decode rest) := by
  have hplain : ∀ i < before.length, ¬ opening <+: (before ++ rest).drop i ∧
      ¬ (before ++ rest).drop i <+: opening := by
    intro i hi
    refine ⟨not_opens_before hbefore hrest hi, ?_⟩
    intro htail
    have hshort := htail.length_le
    have hlen := hrest.length_le
    rw [List.length_drop, List.length_append] at hshort
    omega
  rw [scanned, scan_skip (by rw [List.length_append]; omega) hplain, List.take_left, List.drop_left]
  rfl

/-! ### The marker itself -/

/-- A payload does not end a marker. -/
theorem terminator_not_mem (status : HolderExitStatus) :
    terminator ∉ opening ++ payload status := by
  intro hmem
  rcases List.mem_append.mp hmem with hopening | hpayload
  · exact absurd hopening (by decide)
  · obtain ⟨c, hc, hbyte⟩ := List.mem_flatMap.mp hpayload
    have hall : Base64.characters.all
        (fun c => !(String.utf8EncodeChar c).contains terminator) = true := by decide
    have hnone := List.all_eq_true.mp hall c (Base64.encode_mem _ c hc)
    simp [hbyte] at hnone

theorem scanned_marker {status : HolderExitStatus} (hdecode : decode (payload status) = some status)
    (rest : List UInt8) :
    scanned decode (encode status ++ rest)
      = (Scanned.mk [] (some status) []).andThen (scanned decode rest) := by
  have hstop : (encode status ++ rest).findIdx? (· == terminator)
      = some (opening ++ payload status).length := by
    have hnone : (opening ++ payload status).findIdx? (· == terminator) = none := by
      rw [List.findIdx?_eq_none_iff]
      intro byte hbyte
      rw [beq_eq_false_iff_ne]
      rintro rfl
      exact terminator_not_mem status hbyte
    rw [encode, List.append_assoc, List.findIdx?_append, hnone]
    simp [List.findIdx?_cons]
  have hopen : opening <+: encode status ++ rest := by
    rw [encode, List.append_assoc, List.append_assoc]
    exact List.prefix_append _ _
  have hpayload : ((encode status ++ rest).take (opening ++ payload status).length).drop
      opening.length = payload status := by
    rw [encode, List.append_assoc, List.take_left, List.drop_left]
  have hrest : (encode status ++ rest).drop ((opening ++ payload status).length + 1) = rest := by
    have hlen : (opening ++ payload status).length + 1 = (encode status).length := by
      rw [encode, @List.length_append _ (opening ++ payload status), List.length_singleton]
    rw [hlen, List.drop_left]
  rw [scanned, scan_closed hopen hstop, hpayload, hdecode, hrest]
  rfl

/-- What holds no marker is output, up to a tail that may start one. -/
theorem scanned_after (decode : List UInt8 → Option HolderExitStatus) {bytes : List UInt8}
    (hbytes : ¬ opening <:+: bytes) :
    ∃ shown kept, bytes = shown ++ kept ∧ kept <+: opening ∧ kept ≠ opening ∧
      scanned decode bytes = ⟨shown, none, kept⟩ := by
  have hfind : find bytes opening = none := by
    cases h : find bytes opening with
    | none => rfl
    | some i =>
      have hopen := (find_some h).1
      exact absurd (hopen.isInfix.trans (List.drop_suffix i bytes).isInfix) hbytes
  have hle := longestSuffix_le bytes
  refine ⟨_, _, (List.take_append_drop (bytes.length - longestSuffix bytes) bytes).symm,
    longestSuffix_opens bytes, ?_, scanned_none hfind⟩
  intro heq
  have hlen := congrArg List.length heq
  rw [List.length_drop] at hlen
  omega

/--
**The framing does not depend on the pieces, and a marker gives what was written.**

Two ways to cut a stream leave the same output, the same residue and the same last status.  A
status whose payload decodes is found between bytes without an opening; they are the output,
but for a tail of them that is a proper start of an opening.
-/
theorem exit_marker_framing (decode : List UInt8 → Option HolderExitStatus) :
    (∀ pieces pieces' : List (List UInt8), pieces.flatten = pieces'.flatten →
      drainPieces decode pieces = drainPieces decode pieces') ∧
    ∀ (status : HolderExitStatus) (before after : List UInt8),
      decode (payload status) = some status →
      ¬ opening <:+: before → ¬ opening <:+: after →
      ∃ shown kept, after = shown ++ kept ∧ kept <+: opening ∧ kept ≠ opening ∧
        drain decode (before ++ encode status ++ after)
          = ⟨before ++ shown, some status, kept⟩ := by
  constructor
  · intro pieces pieces' hsame
    rw [drainPieces_eq, drainPieces_eq, hsame]
  · intro status before after hdecode hbefore hafter
    obtain ⟨shown, kept, hsplit, hstart, hproper, hscan⟩ := scanned_after decode hafter
    refine ⟨shown, kept, hsplit, hstart, hproper, ?_⟩
    have hopen : opening <+: encode status ++ after := by
      rw [encode, List.append_assoc, List.append_assoc]
      exact List.prefix_append _ _
    rw [drain_eq, List.append_assoc, scanned_before hbefore hopen, scanned_marker hdecode, hscan]
    rfl

/-- An exit between two lines, the second of which ends like a marker starts. -/
theorem exit_marker_framing_bare :
    ∃ shown kept, ([0x62, 0x1b, 0x5d] : List UInt8) = shown ++ kept ∧ kept <+: opening ∧
      kept ≠ opening ∧
      drain HeldPump.decodeBare ([0x61, 0x1b] ++ encode HeldPump.bareExit ++ [0x62, 0x1b, 0x5d])
        = ⟨[0x61, 0x1b] ++ shown, some HeldPump.bareExit, kept⟩ :=
  (exit_marker_framing HeldPump.decodeBare).2 HeldPump.bareExit [0x61, 0x1b] [0x62, 0x1b, 0x5d] (if_pos rfl)
    (by decide) (by decide)

end HolderExitMarker

end Homie
