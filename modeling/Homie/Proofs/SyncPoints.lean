/-
The sync points of a log are the resets of the stream.

No two resets overlap, so those that are complete come before those that are not
(`resets_append`), and a scan over the last three bytes and a chunk finds what the chunk
completes, behind at most the last one found before (`resets_carried`).  Seen again, that one is
the newest sync point and is not taken twice, unless a rotation has dropped it in between.  It
drops it where it keeps fewer than three bytes, and then a sync point below the file comes back:
this is the case for a disk capacity from one to five.  A capacity of zero keeps nothing, not
even that.
-/
import Homie.Lib.Replay
import Homie.Proofs.OutputLog

namespace Homie

open OutputLog

/-! ### Resets of a stream -/

/-- `ESC c` or `CSI 2 J` at `i`. -/
def ResetAt (stream : List UInt8) (i : Nat) : Prop :=
  stream[i]? = some 0x1B ∧
    (stream[i + 1]? = some 0x63 ∨
      (stream[i + 1]? = some 0x5B ∧ stream[i + 2]? = some 0x32 ∧ stream[i + 3]? = some 0x4A))

instance (stream : List UInt8) (i : Nat) : Decidable (ResetAt stream i) :=
  inferInstanceAs (Decidable (_ ∧ _))

def resets (stream : List UInt8) : List Nat := (List.range stream.length).filter (ResetAt stream ·)

variable {stream front rest data : List UInt8} {i j : Nat}

theorem mem_resets : i ∈ resets stream ↔ ResetAt stream i := by
  rw [resets, List.mem_filter, List.mem_range, decide_eq_true_iff]
  refine ⟨And.right, fun h => ⟨?_, h⟩⟩
  exact (List.getElem?_eq_some_iff.mp h.1).1

theorem resets_increasing (stream : List UInt8) : (resets stream).Pairwise (· < ·) :=
  List.pairwise_lt_range.filter _

theorem ResetAt.two_le (h : ResetAt stream i) : i + 2 ≤ stream.length := by
  rcases h.2 with h | ⟨h, -⟩
  · exact (List.getElem?_eq_some_iff.mp h).1
  · exact (List.getElem?_eq_some_iff.mp h).1

theorem ResetAt.append (h : ResetAt front i) (rest : List UInt8) : ResetAt (front ++ rest) i := by
  have hkeep : ∀ {k : Nat} {byte : UInt8}, front[k]? = some byte → (front ++ rest)[k]? = some byte := by
    intro k byte hbyte
    rw [List.getElem?_append_left (List.getElem?_eq_some_iff.mp hbyte).1, hbyte]
  refine ⟨hkeep h.1, ?_⟩
  rcases h.2 with h | ⟨h1, h2, h3⟩
  · exact Or.inl (hkeep h)
  · exact Or.inr ⟨hkeep h1, hkeep h2, hkeep h3⟩

theorem ResetAt.of_append (h : ResetAt (front ++ rest) i) (hroom : i + 4 ≤ front.length) :
    ResetAt front i := by
  unfold ResetAt at *
  rwa [List.getElem?_append_left (by omega), List.getElem?_append_left (by omega),
    List.getElem?_append_left (by omega), List.getElem?_append_left (by omega)] at h

/-- Resets do not overlap. -/
theorem ResetAt.apart (h : ResetAt stream i) (hj : stream[j]? = some 0x1B) (hij : i < j) :
    i + 2 ≤ j ∧ (stream[i + 1]? ≠ some 0x63 → i + 4 ≤ j) := by
  have hesc : ∀ {k : Nat} {byte : UInt8}, stream[k]? = some byte → byte ≠ 0x1B → k ≠ j := by
    rintro k byte hk hne rfl
    exact hne (Option.some.inj (hk.symm.trans hj))
  rcases h.2 with h | ⟨h1, h2, h3⟩
  · have := hesc h (by decide)
    exact ⟨by omega, fun hne => absurd h hne⟩
  · have := hesc h1 (by decide)
    have := hesc h2 (by decide)
    have := hesc h3 (by decide)
    exact ⟨by omega, fun _ => by omega⟩

theorem ResetAt.complete_before (h : ResetAt (front ++ rest) i) (hj : ResetAt front j)
    (hij : i < j) : ResetAt front i := by
  have hlen := hj.two_le
  have happ := hj.append rest
  obtain ⟨htwo, hfour⟩ := h.apart happ.1 hij
  by_cases hshort : (front ++ rest)[i + 1]? = some 0x63
  · have h0 := h.1
    rw [List.getElem?_append_left (by omega)] at h0 hshort
    exact ⟨h0, Or.inl hshort⟩
  · exact h.of_append (by have := hfour hshort; omega)

theorem resets_append (front rest : List UInt8) :
    ∃ fresh, resets (front ++ rest) = resets front ++ fresh ∧
      ∀ i ∈ fresh, front.length ≤ i + 3 ∧ i < (front ++ rest).length := by
  have hdown : (resets (front ++ rest)).Pairwise fun a b =>
      decide (ResetAt front b) = true → decide (ResetAt front a) = true := by
    rw [List.pairwise_iff_forall_sublist]
    intro a b hsub hb
    have ha := mem_resets.mp (hsub.subset List.mem_cons_self)
    have hlt := List.pairwise_iff_forall_sublist.mp (resets_increasing (front ++ rest)) hsub
    rw [decide_eq_true_iff] at hb ⊢
    exact ha.complete_before hb hlt
  have hsplit := filter_append_filter_not hdown
  have hleft : (resets (front ++ rest)).filter (fun i => decide (ResetAt front i))
      = resets front := by
    rw [resets, List.filter_filter, List.length_append, List.range_add, List.filter_append]
    have hin : (List.range front.length).filter
        (fun i => decide (ResetAt front i) && decide (ResetAt (front ++ rest) i)) = resets front := by
      refine List.filter_congr fun i _ => ?_
      by_cases hi : ResetAt front i
      · simp [hi, hi.append rest]
      · simp [hi]
    have hout : ((List.range rest.length).map (front.length + ·)).filter
        (fun i => decide (ResetAt front i) && decide (ResetAt (front ++ rest) i)) = [] := by
      rw [List.filter_eq_nil_iff]
      intro i hi hreset
      obtain ⟨k, -, rfl⟩ := List.mem_map.mp hi
      simp only [Bool.and_eq_true, decide_eq_true_eq] at hreset
      have := hreset.1.two_le
      omega
    rw [hin, hout, List.append_nil]
  rw [hleft] at hsplit
  refine ⟨_, hsplit.symm, ?_⟩
  intro i hi
  obtain ⟨hmem, hnot⟩ := List.mem_filter.mp hi
  have hreset := mem_resets.mp hmem
  have htwo := hreset.two_le
  refine ⟨?_, by omega⟩
  by_contra hfar
  exact absurd (hreset.of_append (by omega)) (by simpa using hnot)

theorem resets_from (front rest : List UInt8) :
    (resets (front ++ rest)).filter (front.length ≤ ·) = (resets rest).map (front.length + ·) := by
  have hshift : ∀ i, ResetAt (front ++ rest) (front.length + i) ↔ ResetAt rest i := by
    intro i
    unfold ResetAt
    simp only [Nat.add_assoc, List.getElem?_append_right (Nat.le_add_right _ _),
      Nat.add_sub_cancel_left]
  rw [resets, List.filter_filter, List.length_append, List.range_add, List.filter_append,
    List.filter_map]
  have hbefore : (List.range front.length).filter
      (fun i => decide (front.length ≤ i) && decide (ResetAt (front ++ rest) i)) = [] := by
    rw [List.filter_eq_nil_iff]
    intro i hi hreset
    simp only [Bool.and_eq_true, decide_eq_true_eq] at hreset
    have := List.mem_range.mp hi
    omega
  have hcomp : (fun i => decide (front.length ≤ i) && decide (ResetAt (front ++ rest) i))
      ∘ (front.length + ·) = fun i => decide (ResetAt rest i) := by
    funext i
    simp [hshift i]
  rw [hbefore, hcomp, List.nil_append]
  rfl

theorem resets_near (stream : List UInt8) :
    (resets stream).filter (stream.length - 3 ≤ ·) = [] ∨
      ∃ last, (resets stream).getLast? = some last ∧
        (resets stream).filter (stream.length - 3 ≤ ·) = [last] := by
  have hsorted := resets_increasing stream
  cases hlast : (resets stream).getLast? with
  | none =>
    rw [List.getLast?_eq_none_iff.mp hlast]
    exact Or.inl rfl
  | some last =>
    obtain ⟨earlier, hsplit⟩ := List.getLast?_eq_some_iff.mp hlast
    have hmem : ResetAt stream last := mem_resets.mp (hsplit ▸ by simp)
    have hfar : earlier.filter (stream.length - 3 ≤ ·) = [] := by
      rw [List.filter_eq_nil_iff]
      intro i hi hnear
      have hreset : ResetAt stream i := mem_resets.mp (hsplit ▸ by simp [hi])
      rw [hsplit] at hsorted
      have hlt := (List.pairwise_append.mp hsorted).2.2 i hi last (List.mem_singleton_self _)
      have := (hreset.apart hmem.1 hlt).1
      have := hmem.two_le
      rw [decide_eq_true_iff] at hnear
      omega
    rw [hsplit, List.filter_append, hfar, List.nil_append]
    by_cases hnear : stream.length - 3 ≤ last
    · exact Or.inr ⟨last, rfl, List.filter_cons_of_pos (by simpa using hnear)⟩
    · exact Or.inl (List.filter_cons_of_neg (by simpa using hnear))

/-! ### One scan -/

theorem resetAt_iff (h : i + 1 < stream.length) : resetAt stream i = true ↔ ResetAt stream i := by
  have hget : ∀ {k : Nat} {byte : UInt8}, k < stream.length →
      (stream.getD k 0 = byte ↔ stream[k]? = some byte) := by
    intro k byte hk
    rw [List.getD_eq_getElem?_getD, List.getElem?_eq_getElem hk, Option.getD_some,
      Option.some.injEq]
  unfold resetAt ResetAt
  simp only [Bool.and_eq_true, Bool.or_eq_true, beq_iff_eq, decide_eq_true_eq,
    hget (by omega : i < stream.length), hget h]
  by_cases hfour : i + 3 < stream.length
  · rw [hget (by omega : i + 2 < stream.length), hget hfour]
    simp [hfour, and_assoc]
  · simp [hfour]

theorem scan_resets (haystack : List UInt8) :
    (List.range (haystack.length - 1)).filter (resetAt haystack) = resets haystack := by
  have hloop : (List.range (haystack.length - 1)).filter (resetAt haystack)
      = (List.range (haystack.length - 1)).filter (ResetAt haystack ·) := by
    refine List.filter_congr fun i hi => ?_
    have := List.mem_range.mp hi
    rw [Bool.eq_iff_iff, resetAt_iff (by omega), decide_eq_true_iff]
  rw [hloop, resets]
  cases hlen : haystack.length with
  | zero => rfl
  | succ n =>
    have hlast : ¬ ResetAt haystack n := by
      intro h
      have := h.two_le
      omega
    rw [Nat.add_sub_cancel, List.range_succ, List.filter_append]
    simp [hlast]

theorem syncPoints_scan {log : OutputLog} {opened : Nat}
    (htail : log.tailOffset = opened + stream.length) (hcarry : log.carry = newest 3 stream)
    (data : List UInt8) :
    (log.scanForSyncPoints data log.tailOffset).syncPoints
      = (((resets (stream ++ data)).filter (stream.length - 3 ≤ ·)).map (opened + ·)).foldl
          pushSyncPoint log.syncPoints := by
  have hsplit : stream ++ data
      = stream.take (stream.length - 3) ++ (log.carry ++ data) := by
    rw [hcarry, newest, ← List.append_assoc, List.take_append_drop]
  have hfront : (stream.take (stream.length - 3)).length = stream.length - 3 := by
    rw [List.length_take]
    omega
  have hfrom := resets_from (stream.take (stream.length - 3)) (log.carry ++ data)
  rw [← hsplit, hfront] at hfrom
  have hlen : log.carry.length = stream.length - (stream.length - 3) := by
    rw [hcarry, newest, List.length_drop]
  unfold scanForSyncPoints
  dsimp only
  rw [scan_resets, hfrom, List.map_map]
  congr 1
  refine List.map_congr_left fun k _ => ?_
  simp only [Function.comp]
  omega

theorem carry_scan {log : OutputLog} (hcarry : log.carry = newest 3 stream) (data : List UInt8)
    (start : Nat) : (log.scanForSyncPoints data start).carry = newest 3 (stream ++ data) := by
  rw [← newest_append, ← hcarry]
  rfl

/-! ### The points that are kept -/

/-- The newest resets from `base` on, at the offsets they have in the log. -/
def marks (opened base : Nat) (stream : List UInt8) : List Nat :=
  newest maxSyncPoints (((resets stream).map (opened + ·)).filter (base ≤ ·))

theorem foldl_pushSyncPoint {points fresh : List Nat} (h : (points ++ fresh).Pairwise (· < ·)) :
    fresh.foldl pushSyncPoint (newest maxSyncPoints points)
      = newest maxSyncPoints (points ++ fresh) := by
  induction fresh generalizing points with
  | nil => rw [List.append_nil, List.foldl_nil]
  | cons offset fresh ih =>
    have hnew : (newest maxSyncPoints points).getLast? ≠ some offset := by
      rw [getLast?_newest (by decide)]
      intro hlast
      have hlt := (List.pairwise_append.mp h).2.2 offset (List.mem_of_getLast? hlast) offset
        List.mem_cons_self
      exact Nat.lt_irrefl _ hlt
    have hpush : pushSyncPoint (newest maxSyncPoints points) offset
        = newest maxSyncPoints (points ++ [offset]) := by
      rw [pushSyncPoint, if_neg hnew, ← newest_append]
      rfl
    rw [List.append_cons] at h ⊢
    rw [List.foldl_cons, hpush, ih h]

theorem offsets_increasing (opened : Nat) (stream : List UInt8) :
    ((resets stream).map (opened + ·)).Pairwise (· < ·) :=
  List.pairwise_map.mpr ((resets_increasing stream).imp fun h => Nat.add_lt_add_left h opened)

theorem foldl_push_marks {opened base : Nat}
    (hbase : ∀ i ∈ resets (stream ++ data), stream.length - 3 ≤ i → base ≤ opened + i) :
    (((resets (stream ++ data)).filter (stream.length - 3 ≤ ·)).map (opened + ·)).foldl
        pushSyncPoint (marks opened base stream) = marks opened base (stream ++ data) := by
  obtain ⟨fresh, hall, hfresh⟩ := resets_append stream data
  have hnear : fresh.filter (stream.length - 3 ≤ ·) = fresh := by
    rw [List.filter_eq_self]
    intro i hi
    have := (hfresh i hi).1
    exact decide_eq_true (by omega)
  have habove : (fresh.map (opened + ·)).filter (base ≤ ·) = fresh.map (opened + ·) := by
    rw [List.filter_eq_self]
    intro offset hoffset
    obtain ⟨i, hi, rfl⟩ := List.mem_map.mp hoffset
    have := (hfresh i hi).1
    exact decide_eq_true (hbase i (hall ▸ List.mem_append_right _ hi) (by omega))
  have hmarks : marks opened base (stream ++ data)
      = newest maxSyncPoints (((resets stream).map (opened + ·)).filter (base ≤ ·)
          ++ fresh.map (opened + ·)) := by
    rw [marks, hall, List.map_append, List.filter_append, habove]
  have hsorted : (((resets stream).map (opened + ·)).filter (base ≤ ·)
      ++ fresh.map (opened + ·)).Pairwise (· < ·) := by
    have h := (offsets_increasing opened (stream ++ data)).filter (base ≤ ·)
    rwa [hall, List.map_append, List.filter_append, habove] at h
  rw [hmarks, ← foldl_pushSyncPoint hsorted, hall, List.filter_append, hnear, List.map_append,
    List.foldl_append]
  congr 1
  rcases resets_near stream with hnone | ⟨last, hlast, hone⟩
  · rw [hnone]
    rfl
  · -- the one in the carry is the newest already
    rw [hone]
    refine if_pos ?_
    obtain ⟨earlier, hsplit⟩ := List.getLast?_eq_some_iff.mp hlast
    have hmem : last ∈ (resets stream).filter (stream.length - 3 ≤ ·) := by
      rw [hone]
      exact List.mem_singleton_self _
    obtain ⟨hin, hfar⟩ := List.mem_filter.mp hmem
    have hkept := hbase last (hall ▸ List.mem_append_left _ hin) (of_decide_eq_true hfar)
    rw [marks, getLast?_newest (by decide), hsplit, List.map_append, List.filter_append]
    simp [hkept]

theorem retainFrom_marks {opened base base' : Nat} (h : base ≤ base') (stream : List UInt8) :
    retainFrom base' (marks opened base stream) = marks opened base' stream := by
  have hsorted := (offsets_increasing opened stream).filter (base ≤ ·)
  have hup : (((resets stream).map (opened + ·)).filter (base ≤ ·)).Pairwise fun a b =>
      decide (base' ≤ a) = true → decide (base' ≤ b) = true := by
    refine hsorted.imp fun hab ha => ?_
    rw [decide_eq_true_iff] at ha ⊢
    omega
  rw [retainFrom, marks, filter_newest _ hup, List.filter_filter, marks]
  congr 1
  refine List.filter_congr fun offset _ => ?_
  rw [Bool.eq_iff_iff, Bool.and_eq_true, decide_eq_true_iff, decide_eq_true_iff]
  omega

/-! ### The file -/

/-- The file is as long as the counter says, and the handle is at its end. -/
def AtEnd (disk : Disk) (log : OutputLog) (inode : Nat) : Prop :=
  disk.path = some inode ∧ inode < disk.files.length ∧
    log.writeHandle = some (inode, (disk.contents inode).length) ∧
    (disk.contents inode).length = headerSize + log.fileBytes

/-- The counters of a writer agree with its file and with the tail. -/
structure Counted (disk : Disk) (log : OutputLog) : Prop where
  writer : log.readOnly = false
  reaches : log.fileBaseOffset + log.fileBytes = log.tailOffset
  file : ∃ inode, AtEnd disk log inode

theorem counted_openLog {disk : Disk} (hlinked : disk.Linked) (ringCapacity diskCapacity : Nat) :
    Counted (openLog disk ringCapacity diskCapacity false).1
      (openLog disk ringCapacity diskCapacity false).2 := by
  unfold openLog openOrRecover
  cases hexisting : existing disk with
  | none =>
    obtain ⟨inode, hpath, hbound, hcontents⟩ := hlinked.rewrite (logHeader 0)
    refine ⟨rfl, rfl, inode, hpath, hbound, ?_, ?_⟩
    · show OutputLog.openForAppend (disk.rewrite (logHeader 0)) = _
      rw [OutputLog.openForAppend, hpath]
      rfl
    · show ((disk.rewrite (logHeader 0)).contents inode).length = headerSize + 0
      rw [hcontents]
      exact length_logHeader 0
  | some found =>
    obtain ⟨inode, base, bytes⟩ := found
    unfold existing at hexisting
    obtain ⟨inode', hpath, hrest⟩ := Option.bind_eq_some_iff.mp hexisting
    obtain ⟨⟨base', bytes'⟩, hparse, hpure⟩ := Option.bind_eq_some_iff.mp hrest
    cases hpure
    unfold parseHeader at hparse
    split at hparse
    · cases hparse
    · rename_i hlong
      split at hparse
      · cases hparse
      · cases hparse
        refine ⟨rfl, rfl, inode, hpath, hlinked inode hpath, ?_, ?_⟩
        · show OutputLog.openForAppend disk = _
          rw [OutputLog.openForAppend, hpath]
          rfl
        · show (disk.contents inode).length
            = headerSize + ((disk.contents inode).length - headerSize)
          omega

theorem truncateToHalf_counted {disk : Disk} {log : OutputLog} {inode : Nat}
    (hfile : AtEnd disk log inode) (hfull : log.diskCapacity < log.fileBytes) :
    AtEnd (truncateToHalf disk log).1 (truncateToHalf disk log).2 disk.files.length ∧
      (truncateToHalf disk log).2.fileBytes = log.diskCapacity / 2 ∧
      (truncateToHalf disk log).2.fileBaseOffset + log.diskCapacity / 2
        = log.fileBaseOffset + log.fileBytes := by
  obtain ⟨hpath, hbound, hwrite, hlength⟩ := hfile
  have hkept : ((disk.contents inode).drop
      (headerSize + (log.fileBytes - log.diskCapacity / 2))).length = log.diskCapacity / 2 := by
    rw [List.length_drop, hlength]
    omega
  unfold truncateToHalf invalidateReadHandle
  rw [hpath]
  refine ⟨⟨rfl, ?_, rfl, ?_⟩, hkept, ?_⟩
  · rw [Disk.length_files_replace]
    omega
  · rw [Disk.contents_replace_new, List.length_append, length_logHeader]
  · show log.fileBaseOffset + (log.fileBytes - log.diskCapacity / 2) + log.diskCapacity / 2 = _
    omega

theorem appendToDisk_counted {disk : Disk} {log : OutputLog} {data : List UInt8}
    (hwriter : log.readOnly = false)
    (hreaches : log.fileBaseOffset + log.fileBytes + data.length = log.tailOffset)
    (hfile : ∃ inode, AtEnd disk log inode) :
    Counted (appendToDisk disk log data).1 (appendToDisk disk log data).2 ∧
      ((log.fileBytes + data.length ≤ log.diskCapacity ∧
          (appendToDisk disk log data).2.fileBaseOffset = log.fileBaseOffset ∧
          (appendToDisk disk log data).2.syncPoints = log.syncPoints) ∨
        (log.diskCapacity < log.fileBytes + data.length ∧
          (appendToDisk disk log data).2.fileBaseOffset + log.diskCapacity / 2 = log.tailOffset ∧
          (appendToDisk disk log data).2.syncPoints
            = retainFrom (appendToDisk disk log data).2.fileBaseOffset log.syncPoints)) := by
  obtain ⟨inode, hpath, hbound, hwrite, hlength⟩ := hfile
  have hwritten : AtEnd (disk.writeAt inode (disk.contents inode).length data)
      { log with
        writeHandle := some (inode, (disk.contents inode).length + data.length)
        fileBytes := log.fileBytes + data.length } inode := by
    have hcontents := Disk.contents_writeAt_end disk hbound rfl data
    refine ⟨hpath, ?_, ?_, ?_⟩
    · rw [Disk.length_files_writeAt]
      exact hbound
    · rw [hcontents, List.length_append]
    · rw [hcontents, List.length_append, hlength, Nat.add_assoc]
  unfold appendToDisk
  rw [if_neg (by rw [hwriter]; exact Bool.false_ne_true), hwrite]
  dsimp only
  by_cases hfull : log.fileBytes + data.length > log.diskCapacity
  · rw [if_pos hfull]
    obtain ⟨hend, hbytes, hbase⟩ := truncateToHalf_counted hwritten hfull
    dsimp only at hbase hbytes
    refine ⟨⟨hwriter, ?_, _, hend⟩, Or.inr ⟨hfull, ?_, rfl⟩⟩
    · rw [hbytes, hbase]
      show _ = log.tailOffset
      omega
    · rw [hbase]
      omega
  · rw [if_neg hfull]
    refine ⟨⟨hwriter, ?_, inode, hwritten⟩, Or.inl ⟨by omega, rfl, rfl⟩⟩
    show log.fileBaseOffset + (log.fileBytes + data.length) = log.tailOffset
    omega

/-! ### One append -/

/-- What is so after every append of a log that was opened at `opened`. -/
structure Marked (opened : Nat) (stream : List UInt8) (disk : Disk) (log : OutputLog) : Prop
    extends Counted disk log where
  tail : log.tailOffset = opened + stream.length
  carry : log.carry = newest 3 stream
  points : log.syncPoints = marks opened log.fileBaseOffset stream
  /-- The file holds the last three bytes, or nothing. -/
  near : log.fileBaseOffset ≤ opened ∨ log.fileBaseOffset + 3 ≤ log.tailOffset ∨
    log.diskCapacity = 0 ∧ log.fileBaseOffset = log.tailOffset

/-- Above the tail there are no marks. -/
theorem marks_tail (opened : Nat) (stream : List UInt8) :
    marks opened (opened + stream.length) stream = [] := by
  have hnone : ((resets stream).map (opened + ·)).filter (opened + stream.length ≤ ·) = [] := by
    rw [List.filter_eq_nil_iff]
    intro offset hoffset hle
    obtain ⟨i, hi, rfl⟩ := List.mem_map.mp hoffset
    have := (mem_resets.mp hi).two_le
    rw [decide_eq_true_iff] at hle
    omega
  rw [marks, hnone]
  rfl

theorem mem_foldl_pushSyncPoint {points found : List Nat} {offset : Nat}
    (h : offset ∈ found.foldl pushSyncPoint points) : offset ∈ points ∨ offset ∈ found := by
  induction found generalizing points with
  | nil => exact Or.inl h
  | cons first found ih =>
    rcases ih h with hpush | hrest
    · unfold pushSyncPoint at hpush
      split at hpush
      · exact Or.inl hpush
      · rcases List.mem_append.mp (List.mem_of_mem_drop hpush) with hold | hfirst
        · exact Or.inl hold
        · rw [List.mem_singleton.mp hfirst]
          exact Or.inr List.mem_cons_self
    · exact Or.inr (List.mem_cons_of_mem _ hrest)

/-- A rotation that keeps nothing leaves no points. -/
theorem retainFrom_all {opened : Nat} (stream data : List UInt8) :
    retainFrom (opened + (stream ++ data).length)
        ((((resets (stream ++ data)).filter (stream.length - 3 ≤ ·)).map (opened + ·)).foldl
          pushSyncPoint []) = [] := by
  rw [retainFrom, List.filter_eq_nil_iff]
  intro offset hoffset hle
  rcases mem_foldl_pushSyncPoint hoffset with hold | hfound
  · exact absurd hold List.not_mem_nil
  · obtain ⟨i, hi, rfl⟩ := List.mem_map.mp hfound
    have := (mem_resets.mp (List.mem_filter.mp hi).1).two_le
    rw [decide_eq_true_iff] at hle
    omega

theorem Marked.append {opened : Nat} {disk : Disk} {log : OutputLog}
    (h : Marked opened stream disk log)
    (hcapacity : log.diskCapacity = 0 ∨ 6 ≤ log.diskCapacity) (data : List UInt8) :
    Marked opened (stream ++ data) (OutputLog.append disk log data).1
        (OutputLog.append disk log data).2.1 ∧
      (OutputLog.append disk log data).2.1.diskCapacity = log.diskCapacity := by
  by_cases hempty : data = []
  · subst hempty
    rw [List.append_nil]
    exact ⟨h, rfl⟩
  have hlen : 0 < data.length := List.length_pos_iff.mpr hempty
  have happend : OutputLog.append disk log data
      = ((appendToDisk disk (log.advance data) data).1,
        (appendToDisk disk (log.advance data) data).2,
        (log.tailOffset, (appendToDisk disk (log.advance data) data).2.tailOffset)) := by
    rw [OutputLog.append, if_neg (by simpa using hempty)]
  rw [happend]
  dsimp only
  have hreaches := h.reaches
  have htail : (log.advance data).tailOffset = opened + (stream ++ data).length := by
    rw [List.length_append, ← Nat.add_assoc, ← h.tail]
    rfl
  have hgrown : log.fileBaseOffset + log.fileBytes + data.length
      = opened + (stream ++ data).length := by
    rw [← htail, hreaches]
    rfl
  obtain ⟨hcounted, hmoved⟩ := @appendToDisk_counted disk (log.advance data) data h.writer
    (hgrown.trans htail.symm) h.file
  obtain ⟨-, hsame, -, -, hcarry, hcap⟩ := appendToDisk_frame disk (log.advance data) data
  have hscan : (log.advance data).syncPoints = _ := syncPoints_scan h.tail h.carry data
  have hcap' : (log.advance data).diskCapacity = log.diskCapacity := rfl
  have hbytes' : (log.advance data).fileBytes = log.fileBytes := rfl
  have hbase' : (log.advance data).fileBaseOffset = log.fileBaseOffset := rfl
  rw [hcap', hbytes', hbase'] at hmoved
  rw [h.points] at hscan
  rw [htail] at hmoved
  have hcarry' := hcarry.trans (carry_scan h.carry data log.tailOffset)
  have hnear : log.fileBaseOffset = opened + stream.length ∧ log.diskCapacity = 0 ∨
      ∀ i ∈ resets (stream ++ data), stream.length - 3 ≤ i → log.fileBaseOffset ≤ opened + i := by
    have htail' := h.tail
    rcases h.near with hnear | hnear | hnear
    · exact Or.inr fun i _ hi => by omega
    · exact Or.inr fun i _ hi => by omega
    · exact Or.inl ⟨hnear.2.trans h.tail, hnear.1⟩
  have hlength : (stream ++ data).length = stream.length + data.length := List.length_append
  refine ⟨⟨hcounted, hsame.trans htail, hcarry', ?_, ?_⟩, hcap⟩
  · rcases hnear with ⟨hbase, hzero⟩ | habove
    · -- nothing is kept, before and after
      rcases hmoved with ⟨hroom, -⟩ | ⟨-, hbase', hpoints⟩
      · omega
      · have hnone : (appendToDisk disk (log.advance data) data).2.fileBaseOffset
            = opened + (stream ++ data).length := by omega
        rw [hpoints, hscan, hnone, hbase, marks_tail, retainFrom_all, marks_tail]
    · have hmarks := hscan.trans (foldl_push_marks habove)
      rcases hmoved with ⟨-, hbase', hpoints⟩ | ⟨hfull, hbase', hpoints⟩
      · rw [hpoints, hmarks, hbase']
      · rw [hpoints, hmarks]
        exact retainFrom_marks (by omega) _
  · have hnear' := h.near
    have htail' := h.tail
    rw [hcap, hsame, htail]
    rcases hmoved with ⟨hroom, hbase', -⟩ | ⟨hfull, hbase', -⟩
    · rw [hbase']
      omega
    · omega

/-! ### Every chunking -/

/-- Appends the chunks one by one. -/
def appendAll (disk : Disk) (log : OutputLog) (chunks : List (List UInt8)) : Disk × OutputLog :=
  chunks.foldl (fun s chunk =>
    let (disk, log, _) := OutputLog.append s.1 s.2 chunk
    (disk, log)) (disk, log)

/-- The sync points of a log that was opened at `opened` and has appended the stream. -/
structure SyncExact (opened : Nat) (stream : List UInt8) (log : OutputLog) : Prop where
  tail : log.tailOffset = opened + stream.length
  increasing : log.syncPoints.Pairwise (· < ·)
  resets : ∀ offset ∈ log.syncPoints, ∃ i, offset = opened + i ∧ ResetAt stream i
  newest : log.syncPoints = marks opened log.fileBaseOffset stream
  replay : ∀ budget,
    max (log.tailOffset - budget) log.oldestAvailable ≤ log.preferredReplayStart budget ∧
      log.preferredReplayStart budget ≤ log.tailOffset

theorem mem_marks {opened base offset : Nat} (h : offset ∈ marks opened base stream) :
    base ≤ offset ∧ ∃ i, offset = opened + i ∧ ResetAt stream i := by
  obtain ⟨hmem, hbase⟩ := List.mem_filter.mp ((newest_sublist _ _).subset h)
  obtain ⟨i, hi, rfl⟩ := List.mem_map.mp hmem
  exact ⟨of_decide_eq_true hbase, i, rfl, mem_resets.mp hi⟩

theorem Marked.exact {opened : Nat} {disk : Disk} {log : OutputLog}
    (h : Marked opened stream disk log) : SyncExact opened stream log where
  tail := h.tail
  increasing := by
    rw [h.points]
    exact ((offsets_increasing opened stream).filter _).sublist (newest_sublist _ _)
  resets := by
    intro offset hoffset
    rw [h.points] at hoffset
    exact (mem_marks hoffset).2
  newest := h.points
  replay := by
    intro budget
    have hoff : log.oldestAvailable ≤ log.fileBaseOffset := Nat.min_le_right _ _
    have hbase : log.fileBaseOffset ≤ log.tailOffset := by
      rw [← h.reaches]
      exact Nat.le_add_right _ _
    unfold preferredReplayStart
    dsimp only
    cases hfind : log.syncPoints.reverse.find?
        (fun s => log.tailOffset - budget ≤ s && s < log.tailOffset) with
    | none =>
      dsimp only
      omega
    | some sync =>
      have hmem := List.mem_reverse.mp (List.mem_of_find?_eq_some hfind)
      have hrange := List.find?_some hfind
      rw [h.points] at hmem
      have habove := (mem_marks hmem).1
      simp only [Bool.and_eq_true, decide_eq_true_eq] at hrange
      dsimp only
      omega

theorem Marked.appendAll {opened : Nat} {disk : Disk} {log : OutputLog}
    (h : Marked opened stream disk log)
    (hcapacity : log.diskCapacity = 0 ∨ 6 ≤ log.diskCapacity) (chunks : List (List UInt8)) :
    Marked opened (stream ++ chunks.flatten) (Homie.appendAll disk log chunks).1
      (Homie.appendAll disk log chunks).2 := by
  induction chunks generalizing stream disk log with
  | nil =>
    rw [List.flatten_nil, List.append_nil]
    exact h
  | cons chunk chunks ih =>
    obtain ⟨hnext, hcap⟩ := h.append hcapacity chunk
    rw [List.flatten_cons, ← List.append_assoc]
    exact ih hnext (hcap ▸ hcapacity)

theorem marked_openLog {disk : Disk} (hlinked : disk.Linked) (ringCapacity diskCapacity : Nat) :
    Marked (openLog disk ringCapacity diskCapacity false).2.tailOffset []
      (openLog disk ringCapacity diskCapacity false).1
      (openLog disk ringCapacity diskCapacity false).2 ∧
      (openLog disk ringCapacity diskCapacity false).2.diskCapacity = diskCapacity := by
  have hcounted := counted_openLog hlinked ringCapacity diskCapacity
  have hfresh : (openLog disk ringCapacity diskCapacity false).2.carry = [] ∧
      (openLog disk ringCapacity diskCapacity false).2.syncPoints = [] ∧
      (openLog disk ringCapacity diskCapacity false).2.diskCapacity = diskCapacity := by
    unfold openLog openOrRecover
    cases existing disk with
    | none => exact ⟨rfl, rfl, rfl⟩
    | some found => exact ⟨rfl, rfl, rfl⟩
  have hreaches := hcounted.reaches
  exact ⟨⟨hcounted, rfl, hfresh.1, hfresh.2.1, Or.inl (by omega)⟩, hfresh.2.2⟩

/-- A reset, and the chunk after it. -/
def pruned : List (List UInt8) := [[0x61, 0x62, 0x64, 0x1B, 0x63, 0x78], [0x79]]

set_option maxRecDepth 100000 in
/-- With a capacity from one to five the rotation drops the reset, and the next chunk brings it
back. -/
theorem pruned_returns (ringCapacity : Nat) {diskCapacity : Nat} (hpos : 0 < diskCapacity)
    (hsmall : diskCapacity < 6) :
    let opened := openLog Disk.empty ringCapacity diskCapacity false
    (appendAll opened.1 opened.2 pruned).2.syncPoints = [3] ∧
      (appendAll opened.1 opened.2 pruned).2.fileBaseOffset = 6 - diskCapacity / 2 := by
  interval_cases diskCapacity <;> exact ⟨by with_unfolding_all rfl, by with_unfolding_all rfl⟩

/--
**Sync points are the newest resets of the file, unless rotations keep a byte or two.**

Whatever was behind the path when the log was opened, and however the stream is cut: the sync
points increase, they are resets of the stream and the newest of those at or above the file's
base, and a replay starts within its budget where there is something to replay.  This is so for
every disk capacity but those from one to five.
-/
theorem sync_points_exact_iff (ringCapacity diskCapacity : Nat) :
    (∀ disk : Disk, disk.Linked → ∀ chunks : List (List UInt8),
      let opened := openLog disk ringCapacity diskCapacity false
      SyncExact opened.2.tailOffset chunks.flatten (appendAll opened.1 opened.2 chunks).2) ↔
      diskCapacity = 0 ∨ 6 ≤ diskCapacity := by
  constructor
  · intro h
    by_contra hcapacity
    obtain ⟨hpoints, hbase⟩ := @pruned_returns ringCapacity diskCapacity (by omega) (by omega)
    have hexact := (h Disk.empty Disk.linked_empty pruned).newest
    have hmem : 3 ∈ marks _ _ pruned.flatten := hexact ▸ hpoints ▸ List.mem_singleton_self 3
    exact absurd (mem_marks hmem).1 (by omega)
  · intro hcapacity disk hlinked chunks
    obtain ⟨hmarked, hcap⟩ := marked_openLog hlinked ringCapacity diskCapacity
    exact (hmarked.appendAll (hcap.symm ▸ hcapacity) chunks).exact

/-- A capacity of four keeps two bytes: the reset at three is below the file, and a sync point. -/
theorem pruned_point_below_file :
    ¬ SyncExact 0 pruned.flatten
        (appendAll (openLog Disk.empty 64 4 false).1 (openLog Disk.empty 64 4 false).2 pruned).2 ∧
      (appendAll (openLog Disk.empty 64 4 false).1 (openLog Disk.empty 64 4 false).2
        pruned).2.syncPoints = [3] ∧
      (appendAll (openLog Disk.empty 64 4 false).1 (openLog Disk.empty 64 4 false).2
        pruned).2.fileBaseOffset = 4 := by
  have hpoints : (appendAll (openLog Disk.empty 64 4 false).1 (openLog Disk.empty 64 4 false).2
      pruned).2.syncPoints = [3] := by decide
  have hbase : (appendAll (openLog Disk.empty 64 4 false).1 (openLog Disk.empty 64 4 false).2
      pruned).2.fileBaseOffset = 4 := by decide
  refine ⟨?_, hpoints, hbase⟩
  intro h
  have hnewest := h.newest
  rw [hpoints, hbase] at hnewest
  have hmem : 3 ∈ marks 0 4 pruned.flatten := hnewest ▸ List.mem_singleton_self 3
  exact absurd (mem_marks hmem).1 (by decide)

end Homie
