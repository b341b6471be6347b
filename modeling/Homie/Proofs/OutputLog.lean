/-
Every byte of the output log is at its offset.

Two stores overlap: the ring holds the newest bytes, the file a longer or shorter
stretch that also reaches the tail.  `Intact` says so with one stream: both are what
that stream holds from their own base on.  Eviction, rotation and reopening only move
the two bases, so every window is read from a store that covers it.
-/
import Homie.Engine.Log
import Homie.Lib.Trace
import Homie.Lib.Window

namespace Homie

open Bytes

/-! ### The header reads back -/

@[simp] theorem length_logHeader (base : Nat) : (logHeader base).length = headerSize := by
  simp [logHeader, headerSize]

theorem parseHeader_logHeader {base : Nat} (hbase : base < 2 ^ 64) (payload : List UInt8) :
    parseHeader (logHeader base ++ payload) = some (base, payload.length) := by
  have hmagic : (logHeader base ++ payload).take 4 = u32Be logMagic := by
    simp only [logHeader, List.append_assoc]
    exact List.take_left' (length_u32Be _)
  have hbytes : ((logHeader base ++ payload).drop 8).take 8 = u64Be (UInt64.ofNat base) := by
    have hdrop : (logHeader base ++ payload).drop 8 = u64Be (UInt64.ofNat base) ++ payload := by
      simp only [logHeader, List.append_assoc]
      rw [← List.append_assoc (u32Be logMagic)]
      exact List.drop_left' (by simp)
    rw [hdrop]
    exact List.take_left' (length_u64Be _)
  unfold parseHeader
  rw [hmagic, hbytes, readU32Be_u32Be, readU64Be_u64Be]
  rw [if_neg (by simp), if_neg (fun h => h rfl), UInt64.toNat_ofNat_of_lt' hbase]
  simp

/-! ### One file of the log -/

/-- `inode` holds a header and the payload it announces, all true to the stream. -/
structure Holds (stream : List UInt8) (disk : Disk) (inode base : Nat) (payload : List UInt8) :
    Prop where
  bound : inode < disk.files.length
  contents : disk.contents inode = logHeader base ++ payload
  sits : Sits stream base payload

/-- The file behind the path, whose payload reaches the tail. -/
structure Spill (stream : List UInt8) (disk : Disk) (inode base : Nat) (payload : List UInt8) :
    Prop where
  path : disk.path = some inode
  bound : inode < disk.files.length
  contents : disk.contents inode = logHeader base ++ payload
  reaches : Reaches stream base payload

section

variable {stream payload : List UInt8} {disk : Disk} {inode base : Nat}

theorem Spill.holds (h : Spill stream disk inode base payload) :
    Holds stream disk inode base payload :=
  ⟨h.bound, h.contents, h.reaches.sits⟩

theorem Holds.parse (h : Holds stream disk inode base payload) (hlen : stream.length < 2 ^ 63) :
    parseHeader (disk.contents inode) = some (base, payload.length) := by
  have hbase := h.sits.1
  rw [h.contents]
  exact parseHeader_logHeader (by omega) payload

theorem Spill.openForAppend (h : Spill stream disk inode base payload) :
    OutputLog.openForAppend disk = some (inode, (disk.contents inode).length) := by
  rw [OutputLog.openForAppend, h.path]
  rfl

theorem Spill.existing (h : Spill stream disk inode base payload) (hlen : stream.length < 2 ^ 63) :
    OutputLog.existing disk = some (inode, base, payload.length) := by
  unfold OutputLog.existing
  rw [h.path]
  simp [h.holds.parse hlen]

theorem Holds.readAt (h : Holds stream disk inode base payload) {start stop : Nat}
    (hstart : base ≤ start) (hstop : stop ≤ base + payload.length) :
    disk.readAt inode (headerSize + (start - base)) (stop - start)
      = (stream.drop start).take (stop - start) := by
  unfold Disk.readAt
  rw [h.contents, ← List.drop_drop, List.drop_left' (length_logHeader base)]
  exact h.sits.slice_eq stop hstart hstop

end

/-! ### What a writer keeps -/

/-- The writer's file: what its fields say of it is so, and its handles are on it. -/
structure OnFile (stream : List UInt8) (disk : Disk) (log : OutputLog) (inode : Nat)
    (payload : List UInt8) : Prop where
  spill : Spill stream disk inode log.fileBaseOffset payload
  bytes : log.fileBytes = payload.length
  write : log.writeHandle = some (inode, (disk.contents inode).length)
  read : log.readHandle = none ∨ log.readHandle = some inode

/-- Both stores of a writer are the stream, each from its own base on. -/
structure Intact (stream : List UInt8) (disk : Disk) (log : OutputLog) : Prop where
  writer : log.readOnly = false
  tail : log.tailOffset = stream.length
  ring : Reaches stream log.ringStartOffset log.ring
  file : ∃ inode payload, OnFile stream disk log inode payload

/-- What is behind the path before a log is opened: nothing yet, or the whole tail. -/
def Stored (stream : List UInt8) (disk : Disk) : Prop :=
  disk.path = none ∧ stream = [] ∨ ∃ inode base payload, Spill stream disk inode base payload

theorem Intact.stored {stream : List UInt8} {disk : Disk} {log : OutputLog}
    (h : Intact stream disk log) : Stored stream disk := by
  obtain ⟨inode, payload, hfile⟩ := h.file
  exact Or.inr ⟨inode, log.fileBaseOffset, payload, hfile.spill⟩

section

variable {stream : List UInt8} {disk : Disk} {log : OutputLog}

theorem spill_created (hpath : disk.path = none) :
    Spill [] (disk.rewrite (logHeader 0)) disk.files.length 0 [] := by
  have hrewrite : disk.rewrite (logHeader 0) = disk.replace (logHeader 0) := by
    rw [Disk.rewrite, hpath]
  rw [hrewrite]
  refine ⟨rfl, ?_, ?_, Reaches.nil []⟩
  · rw [Disk.length_files_replace]
    omega
  · rw [Disk.contents_replace_new]
    exact (List.append_nil _).symm

theorem existing_none (hpath : disk.path = none) : OutputLog.existing disk = none := by
  rw [OutputLog.existing, hpath]
  rfl

theorem intact_openLog (hstored : Stored stream disk) (hlen : stream.length < 2 ^ 63)
    (ringCapacity diskCapacity : Nat) :
    Intact stream (OutputLog.openLog disk ringCapacity diskCapacity false).1
      (OutputLog.openLog disk ringCapacity diskCapacity false).2 := by
  unfold OutputLog.openLog OutputLog.openOrRecover
  rcases hstored with ⟨hpath, rfl⟩ | ⟨inode, base, payload, hspill⟩
  · rw [existing_none hpath]
    have hcreated := spill_created hpath
    refine ⟨rfl, rfl, Reaches.nil [], ?_⟩
    exact ⟨disk.files.length, [], hcreated, rfl, hcreated.openForAppend, Or.inl rfl⟩
  · rw [hspill.existing hlen]
    have htail := hspill.reaches.length_eq
    refine ⟨rfl, htail, ?_, ?_⟩
    · show Reaches stream (base + payload.length) []
      rw [htail]
      exact Reaches.nil stream
    · exact ⟨inode, payload, hspill, rfl, hspill.openForAppend, Or.inl rfl⟩

/-! ### Appending -/

theorem Spill.writeAt {inode base : Nat} {payload : List UInt8}
    (h : Spill stream disk inode base payload) (data : List UInt8) :
    Spill (stream ++ data) (disk.writeAt inode (disk.contents inode).length data) inode base
      (payload ++ data) := by
  refine ⟨h.path, ?_, ?_, h.reaches.append data⟩
  · rw [Disk.length_files_writeAt]
    exact h.bound
  · rw [Disk.contents_writeAt_end disk h.bound rfl, h.contents, List.append_assoc]

theorem OnFile.truncateToHalf {inode : Nat} {payload : List UInt8}
    (h : OnFile stream disk log inode payload) :
    OnFile stream (OutputLog.truncateToHalf disk log).1 (OutputLog.truncateToHalf disk log).2
      disk.files.length (payload.drop (log.fileBytes - log.diskCapacity / 2)) := by
  have hkept : (disk.contents inode).drop (headerSize + (log.fileBytes - log.diskCapacity / 2))
      = payload.drop (log.fileBytes - log.diskCapacity / 2) := by
    rw [h.spill.contents, ← List.drop_drop, List.drop_left' (length_logHeader _)]
  have hreaches := h.spill.reaches.drop
    (show log.fileBytes - log.diskCapacity / 2 ≤ payload.length by rw [h.bytes]; omega)
  simp only [OutputLog.truncateToHalf, OutputLog.invalidateReadHandle, h.spill.path, hkept]
  have hspill : Spill stream
      (disk.replace (logHeader (log.fileBaseOffset + (log.fileBytes - log.diskCapacity / 2))
        ++ payload.drop (log.fileBytes - log.diskCapacity / 2)))
      disk.files.length (log.fileBaseOffset + (log.fileBytes - log.diskCapacity / 2))
      (payload.drop (log.fileBytes - log.diskCapacity / 2)) := by
    refine ⟨rfl, ?_, Disk.contents_replace_new _ _, hreaches⟩
    rw [Disk.length_files_replace]
    omega
  exact ⟨hspill, rfl, hspill.openForAppend, Or.inl rfl⟩

theorem OnFile.written {inode : Nat} {payload : List UInt8}
    (h : OnFile stream disk log inode payload) (data : List UInt8) :
    OnFile (stream ++ data) (disk.writeAt inode (disk.contents inode).length data)
      { log with
        writeHandle := some (inode, (disk.contents inode).length + data.length)
        fileBytes := log.fileBytes + data.length } inode (payload ++ data) := by
  refine ⟨h.spill.writeAt data, ?_, ?_, h.read⟩
  · simp [h.bytes]
  · simp [Disk.contents_writeAt_end disk h.spill.bound rfl]

theorem OnFile.appendToDisk {inode : Nat} {payload : List UInt8}
    (h : OnFile stream disk log inode payload) (hwriter : log.readOnly = false)
    (data : List UInt8) :
    ∃ inode' payload', OnFile (stream ++ data) (OutputLog.appendToDisk disk log data).1
      (OutputLog.appendToDisk disk log data).2 inode' payload' := by
  unfold OutputLog.appendToDisk
  rw [if_neg (by rw [hwriter]; exact Bool.false_ne_true), h.write]
  dsimp only
  split
  · exact ⟨_, _, (h.written data).truncateToHalf⟩
  · exact ⟨_, _, h.written data⟩

/-- The fields a write to disk has no business with. -/
theorem appendToDisk_frame (disk : Disk) (log : OutputLog) (data : List UInt8) :
    (OutputLog.appendToDisk disk log data).2.readOnly = log.readOnly ∧
      (OutputLog.appendToDisk disk log data).2.tailOffset = log.tailOffset ∧
      (OutputLog.appendToDisk disk log data).2.ringStartOffset = log.ringStartOffset ∧
      (OutputLog.appendToDisk disk log data).2.ring = log.ring ∧
      (OutputLog.appendToDisk disk log data).2.carry = log.carry ∧
      (OutputLog.appendToDisk disk log data).2.diskCapacity = log.diskCapacity := by
  unfold OutputLog.appendToDisk
  split
  · exact ⟨rfl, rfl, rfl, rfl, rfl, rfl⟩
  · split
    · exact ⟨rfl, rfl, rfl, rfl, rfl, rfl⟩
    · dsimp only
      split
      · exact ⟨rfl, rfl, rfl, rfl, rfl, rfl⟩
      · exact ⟨rfl, rfl, rfl, rfl, rfl, rfl⟩

theorem reaches_extendRing (log : OutputLog)
    (h : Reaches stream log.ringStartOffset log.ring) (data : List UInt8) :
    Reaches (stream ++ data) (log.extendRing data).ringStartOffset (log.extendRing data).ring := by
  have hgrown := h.append data
  unfold OutputLog.extendRing
  exact hgrown.drop (by omega)

theorem Intact.append (h : Intact stream disk log) (data : List UInt8) :
    Intact (stream ++ data) (OutputLog.append disk log data).1
      (OutputLog.append disk log data).2.1 := by
  cases data with
  | nil =>
    rw [List.append_nil]
    exact h
  | cons byte rest =>
    obtain ⟨inode, payload, hfile⟩ := h.file
    obtain ⟨hro, ht, hrs, hr, -⟩ :=
      appendToDisk_frame disk (log.advance (byte :: rest)) (byte :: rest)
    have hon : OnFile stream disk (log.advance (byte :: rest)) inode payload :=
      ⟨hfile.spill, hfile.bytes, hfile.write, hfile.read⟩
    refine ⟨hro.trans h.writer, ?_, ?_, hon.appendToDisk h.writer _⟩
    · refine ht.trans ?_
      rw [List.length_append, ← h.tail]
      rfl
    · show Reaches _ (OutputLog.appendToDisk disk (log.advance (byte :: rest))
        (byte :: rest)).2.ringStartOffset (OutputLog.appendToDisk disk
          (log.advance (byte :: rest)) (byte :: rest)).2.ring
      rw [hrs, hr]
      exact reaches_extendRing (log.scanForSyncPoints (byte :: rest) log.tailOffset) h.ring _

/-! ### Reading -/

/--
What a read should return: the first retained offset at or after `fromOffset`, clamped to
the tail, and the stream from there on, as far as `maxBytes` go.
-/
def window (stream : List UInt8) (oldest fromOffset maxBytes : Nat) : Nat × List UInt8 :=
  let start := max fromOffset oldest
  (min stream.length start,
    (stream.drop start).take (min stream.length (start + maxBytes) - start))

theorem window_past {oldest fromOffset : Nat} (maxBytes : Nat)
    (h : stream.length ≤ max fromOffset oldest) :
    window stream oldest fromOffset maxBytes = (stream.length, []) := by
  simp only [window]
  rw [Nat.min_eq_left h, List.drop_eq_nil_of_le h, List.take_nil]

theorem window_live {oldest fromOffset : Nat} (maxBytes : Nat)
    (h : max fromOffset oldest < stream.length) :
    window stream oldest fromOffset maxBytes = (max fromOffset oldest,
      (stream.drop (max fromOffset oldest)).take
        (min stream.length (max fromOffset oldest + maxBytes) - max fromOffset oldest)) := by
  simp only [window]
  rw [Nat.min_eq_right (Nat.le_of_lt h)]

theorem Intact.readFromDisk (h : Intact stream disk log) {start stop : Nat}
    (hbase : log.fileBaseOffset ≤ start) (hle : start ≤ stop) (hstop : stop ≤ stream.length) :
    ∃ log', OutputLog.readFromDisk disk log start stop
        = some ((start, (stream.drop start).take (stop - start)), log') ∧
      Intact stream disk log' := by
  obtain ⟨inode, payload, hfile⟩ := h.file
  have hhandle : OutputLog.readerHandle disk log = { log with readHandle := some inode } := by
    unfold OutputLog.readerHandle
    rcases hfile.read with hread | hread
    · rw [hread, ← hfile.spill.path]
    · rw [hread]
      dsimp only
      rw [← hread]
  have hlen := hfile.spill.reaches.length_eq
  refine ⟨{ log with readHandle := some inode }, ?_, ?_⟩
  · unfold OutputLog.readFromDisk
    rw [hhandle]
    dsimp only
    rw [Nat.max_eq_left hbase, if_neg (by omega),
      hfile.spill.holds.readAt hbase (by omega)]
  · refine ⟨h.writer, h.tail, h.ring, inode, payload, ?_⟩
    exact ⟨hfile.spill, hfile.bytes, hfile.write, Or.inr rfl⟩

/-- Where `start + max_bytes` fits, a read returns its window. -/
theorem Intact.read (h : Intact stream disk log) {fromOffset maxBytes : Nat}
    (hfits : stream.length ≤ max fromOffset log.oldestAvailable ∨
      max fromOffset log.oldestAvailable + maxBytes < 2 ^ 64) :
    ∃ log', OutputLog.read disk log fromOffset maxBytes
        = some (window stream log.oldestAvailable fromOffset maxBytes, log') ∧ Intact stream disk log' := by
  have hring := h.ring.length_eq
  unfold OutputLog.read
  rw [h.tail]
  dsimp only
  by_cases hpast : stream.length ≤ max fromOffset log.oldestAvailable
  · refine ⟨log, ?_, h⟩
    rw [window_past maxBytes hpast]
    exact if_pos hpast
  have hsum : max fromOffset log.oldestAvailable + maxBytes < 2 ^ 64 := hfits.resolve_left hpast
  rw [window_live maxBytes (by omega)]
  have hold : min log.ringStartOffset log.fileBaseOffset ≤ max fromOffset log.oldestAvailable :=
    Nat.le_max_right _ _
  generalize max fromOffset log.oldestAvailable = start at *
  rw [if_neg hpast, if_neg (by omega)]
  by_cases hcovered : log.ringStartOffset ≤ start
  · refine ⟨log, ?_, h⟩
    have hslice := h.ring.sits.slice_eq (min stream.length (start + maxBytes)) hcovered (by omega)
    have hcount : min stream.length (start + maxBytes) - log.ringStartOffset
        - (start - log.ringStartOffset) = min stream.length (start + maxBytes) - start := by omega
    rw [if_pos ⟨h.writer, hcovered, by omega⟩, hcount, hslice]
  · -- older than the ring: then it is the file that is the older store
    rw [if_neg (fun hc => hcovered hc.2.1)]
    have hbase : log.fileBaseOffset ≤ start := by omega
    exact h.readFromDisk hbase (by omega) (by omega)

/-- Where it does not fit, the read panics. -/
theorem read_panics {fromOffset maxBytes : Nat}
    (hlive : max fromOffset log.oldestAvailable < log.tailOffset)
    (hwide : 2 ^ 64 ≤ max fromOffset log.oldestAvailable + maxBytes) :
    OutputLog.read disk log fromOffset maxBytes = none := by
  unfold OutputLog.read
  dsimp only
  rw [if_neg (by omega), if_pos hwide]

end

/-! ### Runs -/

theorem stored_empty : Stored [] Disk.empty := Or.inl ⟨rfl, rfl⟩

/-- A step only ever adds to the stream. -/
theorem LogState.stream_step {s s' : LogState} {op : LogOp} (h : s.step op = some s') :
    s.stream.length ≤ s'.stream.length := by
  cases op with
  | reopen ringCapacity diskCapacity =>
    cases h
    exact Nat.le_refl _
  | append data =>
    cases h
    simp
  | read fromOffset maxBytes =>
    obtain ⟨result, -, rfl⟩ := Option.map_eq_some_iff.mp h
    exact Nat.le_refl _

theorem LogState.intact_step {s s' : LogState} {op : LogOp} (h : s.step op = some s')
    (hlen : s'.stream.length < 2 ^ 63) (hs : Intact s.stream s.disk s.log) :
    Intact s'.stream s'.disk s'.log := by
  cases op with
  | reopen ringCapacity diskCapacity =>
    cases h
    exact intact_openLog hs.stored hlen ringCapacity diskCapacity
  | append data =>
    cases h
    exact hs.append data
  | read fromOffset maxBytes =>
    obtain ⟨result, hread, rfl⟩ := Option.map_eq_some_iff.mp h
    by_cases hfits : s.stream.length ≤ max fromOffset s.log.oldestAvailable ∨
        max fromOffset s.log.oldestAvailable + maxBytes < 2 ^ 64
    · obtain ⟨log', hlog', hintact⟩ := hs.read hfits
      rw [hlog'] at hread
      cases hread
      exact hintact
    · rw [read_panics (by rw [hs.tail]; omega) (by omega)] at hread
      cases hread

theorem LogState.intact_run {ringCapacity diskCapacity : Nat} {ops : List LogOp} {s : LogState}
    (h : (LogState.start ringCapacity diskCapacity).run ops = some s)
    (hlen : s.stream.length < 2 ^ 63) : Intact s.stream s.disk s.log := by
  refine Trace.foldlM_invariant
    (P := fun s => s.stream.length < 2 ^ 63 → Intact s.stream s.disk s.log) ?_ h ?_ hlen
  · intro s s' op hs hstep hlen'
    have hmono := LogState.stream_step hstep
    exact LogState.intact_step hstep hlen' (hs (by omega))
  · intro _
    exact intact_openLog stored_empty (by decide) ringCapacity diskCapacity

/--
**The output log is offset-exact.**  After every run of appends, reopens and reads, with
offsets below 2^63, both stores end at the tail; and a read returns its window of the
stream exactly when `start + max_bytes` fits in 64 bits, or there is nothing left to read.
-/
theorem output_log_offset_exact (ringCapacity diskCapacity : Nat) (ops : List LogOp) (s : LogState)
    (hrun : (LogState.start ringCapacity diskCapacity).run ops = some s)
    (hlen : s.stream.length < 2 ^ 63) :
    s.log.tailOffset = s.stream.length ∧
    s.log.ringStartOffset + s.log.ring.length = s.log.tailOffset ∧
    s.log.fileBaseOffset + s.log.fileBytes = s.log.tailOffset ∧
    ∀ fromOffset maxBytes,
      ((∃ log', OutputLog.read s.disk s.log fromOffset maxBytes
          = some (window s.stream s.log.oldestAvailable fromOffset maxBytes, log')) ↔
        (s.log.tailOffset ≤ max fromOffset s.log.oldestAvailable ∨
          max fromOffset s.log.oldestAvailable + maxBytes < 2 ^ 64)) := by
  have hintact := LogState.intact_run hrun hlen
  obtain ⟨inode, payload, hfile⟩ := hintact.file
  rw [hintact.tail]
  refine ⟨rfl, hintact.ring.length_eq, ?_, ?_⟩
  · rw [hfile.bytes]
    exact hfile.spill.reaches.length_eq
  · intro fromOffset maxBytes
    constructor
    · rintro ⟨log', hread⟩
      by_contra hwide
      rw [read_panics (by rw [hintact.tail]; omega) (by omega)] at hread
      cases hread
    · intro hfits
      obtain ⟨log', hread, -⟩ := hintact.read hfits
      exact ⟨log', hread⟩

/-- A ring of four bytes and a file of eight, rotated, read, opened again and appended to. -/
theorem output_log_offset_exact_rotated :
    ∃ s, (LogState.start 4 8).run [.append [0, 1, 2, 3, 4, 5], .append [6, 7, 8, 9], .read 0 2,
        .reopen 4 8, .append [10, 11]] = some s ∧ s.stream.length < 2 ^ 63 ∧
      ∃ log', OutputLog.read s.disk s.log 0 5
        = some (window s.stream s.log.oldestAvailable 0 5, log') := by
  obtain ⟨s, hs⟩ := Option.isSome_iff_exists.mp (show ((LogState.start 4 8).run
    [.append [0, 1, 2, 3, 4, 5], .append [6, 7, 8, 9], .read 0 2, .reopen 4 8,
      .append [10, 11]]).isSome = true by decide)
  have hlen : s.stream.length < 2 ^ 63 := by
    cases hs
    decide
  refine ⟨s, hs, hlen, ?_⟩
  refine ((output_log_offset_exact 4 8 _ s hs hlen).2.2.2 0 5).mpr (Or.inr ?_)
  cases hs
  decide

/-- Two bytes appended, and everything from the second on asked for. -/
theorem output_log_read_overflows :
    ((LogState.start 4 8).run [.append [104, 105]]).map (fun s =>
      (s.log.tailOffset, s.log.oldestAvailable, window s.stream s.log.oldestAvailable 1 (2 ^ 64 - 1),
        (OutputLog.read s.disk s.log 1 (2 ^ 64 - 1)).isNone))
      = some (2, 0, (1, [105]), true) := by
  decide

end Homie

/-! ### What a log can still read after its disk has failed

A failed append moves the tail and not the file, so from then on the two count apart.
`Faithful` weakens `Intact` by exactly that: the file is true to the stream as far as it
goes, but it may end early.  An append that finds the file at the tail keeps this, whatever
fails of it.  One that finds the file behind keeps it only if nothing of it gets into the
file: its bytes would follow the last good ones, at offsets where the stream holds others.
-/

namespace Homie

open Trace

/-! ### A file that may end early -/

/-- The writer's file: true to the stream, with the handles on it that are left. -/
structure Behind (stream : List UInt8) (disk : Disk) (log : OutputLog) (inode : Nat)
    (payload : List UInt8) : Prop where
  path : disk.path = some inode
  holds : Holds stream disk inode log.fileBaseOffset payload
  counted : log.fileBytes ≤ payload.length
  write : log.writeHandle = none ∨ log.writeHandle = some (inode, (disk.contents inode).length)
  read : log.readHandle = none ∨ log.readHandle = some inode

/-- The ring reaches the tail; the file is true as far as it goes. -/
structure Faithful (stream : List UInt8) (disk : Disk) (log : OutputLog) : Prop where
  writer : log.readOnly = false
  tail : log.tailOffset = stream.length
  ring : Reaches stream log.ringStartOffset log.ring
  file : ∃ inode payload, Behind stream disk log inode payload

/-- The file ends where the stream does. -/
def OutputLog.InSync (log : OutputLog) : Prop :=
  log.fileBaseOffset + log.fileBytes = log.tailOffset

section

variable {stream payload data : List UInt8} {disk : Disk} {log : OutputLog} {inode : Nat}

theorem OnFile.behind (h : OnFile stream disk log inode payload) :
    Behind stream disk log inode payload :=
  ⟨h.spill.path, h.spill.holds, Nat.le_of_eq h.bytes, Or.inr h.write, h.read⟩

theorem Intact.faithful (h : Intact stream disk log) : Faithful stream disk log := by
  obtain ⟨inode, payload, hfile⟩ := h.file
  exact ⟨h.writer, h.tail, h.ring, inode, payload, hfile.behind⟩

theorem Behind.onFile (h : Behind stream disk log inode payload) {handle : Nat × Nat}
    (hhandle : log.writeHandle = some handle)
    (hsync : log.fileBaseOffset + log.fileBytes = stream.length) :
    OnFile stream disk log inode payload := by
  have hend := h.holds.sits.length_le
  have hcounted := h.counted
  have hlen : payload.length = (stream.drop log.fileBaseOffset).length := by
    rw [List.length_drop]
    omega
  have hreaches : Reaches stream log.fileBaseOffset payload :=
    ⟨h.holds.sits.1, h.holds.sits.2.eq_of_length hlen⟩
  refine ⟨⟨h.path, h.holds.bound, h.holds.contents, hreaches⟩, by omega, ?_, h.read⟩
  rcases h.write with hnone | hsome
  · rw [hnone] at hhandle
    exact nomatch hhandle
  · exact hsome

theorem Behind.grow (h : Behind stream disk log inode payload) (data : List UInt8) :
    Behind (stream ++ data) disk log inode payload :=
  ⟨h.path, ⟨h.holds.bound, h.holds.contents, h.holds.sits.append data⟩, h.counted, h.write, h.read⟩

/-! ### Appending -/

theorem OnFile.torn (h : OnFile stream disk log inode payload) {front : List UInt8}
    (hfront : front <+: data) :
    Behind (stream ++ data) (disk.writeAt inode (disk.contents inode).length front)
      { log with writeHandle := some (inode, (disk.contents inode).length + front.length) } inode
      (payload ++ front) := by
  have hwritten := h.written front
  obtain ⟨rest, rfl⟩ := hfront
  refine ⟨h.spill.path, ?_, ?_, Or.inr hwritten.write, h.read⟩
  · rw [← List.append_assoc]
    exact ⟨hwritten.spill.bound, hwritten.spill.contents, hwritten.spill.reaches.sits.append rest⟩
  · show log.fileBytes ≤ _
    rw [List.length_append, h.bytes]
    omega

theorem Behind.untouched (h : Behind stream disk log inode payload) {pos : Nat}
    (hhandle : log.writeHandle = some (inode, pos)) :
    Behind stream (disk.writeAt inode pos []) { log with writeHandle := some (inode, pos) } inode
      payload := by
  have hpos : pos = (disk.contents inode).length := by
    rcases h.write with hnone | hsome
    · rw [hnone] at hhandle
      exact nomatch hhandle
    · rw [hsome] at hhandle
      cases hhandle
      rfl
  have hcontents := Disk.contents_writeAt_end disk h.holds.bound hpos []
  rw [List.append_nil] at hcontents
  refine ⟨h.path, ⟨?_, ?_, h.holds.sits⟩, h.counted, Or.inr ?_, h.read⟩
  · rw [Disk.length_files_writeAt]
    exact h.holds.bound
  · rw [hcontents]
    exact h.holds.contents
  · rw [hcontents, hpos]

theorem OnFile.truncateFaulty (h : OnFile stream disk log inode payload) (fault : DiskFault) :
    ∃ inode' payload', Behind stream (OutputLog.truncateFaulty disk log fault).1
      (OutputLog.truncateFaulty disk log fault).2 inode' payload' := by
  have hbehind := h.behind
  have hhalf := h.truncateToHalf.behind
  cases fault with
  | truncateRead =>
    exact ⟨inode, payload, hbehind.path, hbehind.holds, hbehind.counted, hbehind.write, Or.inl rfl⟩
  | truncateWrite =>
    exact ⟨inode, payload, hbehind.path, hbehind.holds, hbehind.counted, Or.inl rfl, Or.inl rfl⟩
  | truncateOpen =>
    exact ⟨_, _, hhalf.path, hhalf.holds, hhalf.counted, Or.inl rfl, hhalf.read⟩
  | none => exact ⟨_, _, hhalf⟩
  | write written => exact ⟨_, _, hhalf⟩
  | sync => exact ⟨_, _, hhalf⟩

theorem behind_ite {p : Prop} [Decidable p] {rotated kept : Disk × OutputLog}
    (hrotated : ∃ inode payload, Behind stream rotated.1 rotated.2 inode payload)
    (hkept : ∃ inode payload, Behind stream kept.1 kept.2 inode payload) :
    ∃ inode payload, Behind stream (if p then rotated else kept).1
      (if p then rotated else kept).2 inode payload := by
  split
  · exact hrotated
  · exact hkept

/-- A write into a file that was complete, whatever fails of it. -/
theorem OnFile.appendToDiskFaulty (h : OnFile stream disk log inode payload)
    (hwriter : log.readOnly = false) (data : List UInt8) (fault : DiskFault) :
    ∃ inode' payload', Behind (stream ++ data)
      (OutputLog.appendToDiskFaulty disk log data fault).1
      (OutputLog.appendToDiskFaulty disk log data fault).2 inode' payload' := by
  have hwritten := h.written data
  have hkept : ∃ inode' payload', Behind (stream ++ data)
      (disk.writeAt inode (disk.contents inode).length data)
      { log with
        writeHandle := some (inode, (disk.contents inode).length + data.length)
        fileBytes := log.fileBytes + data.length } inode' payload' := ⟨_, _, hwritten.behind⟩
  unfold OutputLog.appendToDiskFaulty
  rw [if_neg (by rw [hwriter]; exact Bool.false_ne_true), h.write]
  cases fault with
  | write written =>
    exact ⟨_, _, h.torn ((List.take_prefix _ _).trans (List.dropLast_prefix data))⟩
  | sync => exact hkept
  | none => exact behind_ite hkept (behind_ite (hwritten.truncateFaulty _) hkept)
  | truncateRead => exact behind_ite hkept (behind_ite (hwritten.truncateFaulty _) hkept)
  | truncateWrite => exact behind_ite hkept (behind_ite (hwritten.truncateFaulty _) hkept)
  | truncateOpen => exact behind_ite hkept (behind_ite (hwritten.truncateFaulty _) hkept)

/-- The fields a write to disk has no business with, failed or not. -/
theorem appendToDiskFaulty_frame (disk : Disk) (log : OutputLog) (data : List UInt8)
    (fault : DiskFault) :
    (OutputLog.appendToDiskFaulty disk log data fault).2.readOnly = log.readOnly ∧
      (OutputLog.appendToDiskFaulty disk log data fault).2.tailOffset = log.tailOffset ∧
      (OutputLog.appendToDiskFaulty disk log data fault).2.ringStartOffset = log.ringStartOffset ∧
      (OutputLog.appendToDiskFaulty disk log data fault).2.ring = log.ring := by
  have hrotate : ∀ disk (log : OutputLog) fault,
      (OutputLog.truncateFaulty disk log fault).2.readOnly = log.readOnly ∧
        (OutputLog.truncateFaulty disk log fault).2.tailOffset = log.tailOffset ∧
        (OutputLog.truncateFaulty disk log fault).2.ringStartOffset = log.ringStartOffset ∧
        (OutputLog.truncateFaulty disk log fault).2.ring = log.ring := by
    intro disk log fault
    cases fault <;> exact ⟨rfl, rfl, rfl, rfl⟩
  unfold OutputLog.appendToDiskFaulty
  split
  · exact ⟨rfl, rfl, rfl, rfl⟩
  · split
    · exact ⟨rfl, rfl, rfl, rfl⟩
    · dsimp only
      split
      · exact ⟨rfl, rfl, rfl, rfl⟩
      · split
        · exact ⟨rfl, rfl, rfl, rfl⟩
        · split
          · exact hrotate _ _ _
          · exact ⟨rfl, rfl, rfl, rfl⟩

/-- Nothing of the chunk lands in a file that has fallen behind. -/
def OutputLog.Harmless (log : OutputLog) (data : List UInt8) (fault : DiskFault) : Prop :=
  log.writeHandle = none ∨ log.InSync ∨ fault.reached data = []

theorem Behind.appendToDiskFaulty (h : Behind stream disk log inode payload)
    (hwriter : log.readOnly = false) (hdata : data ≠ []) {fault : DiskFault}
    (hharmless : log.writeHandle = none ∨ log.fileBaseOffset + log.fileBytes = stream.length ∨
      fault.reached data = []) :
    ∃ inode' payload', Behind (stream ++ data)
      (OutputLog.appendToDiskFaulty disk log data fault).1
      (OutputLog.appendToDiskFaulty disk log data fault).2 inode' payload' := by
  cases hhandle : log.writeHandle with
  | none =>
    unfold OutputLog.appendToDiskFaulty
    rw [if_neg (by rw [hwriter]; exact Bool.false_ne_true), hhandle]
    exact ⟨inode, payload, h.grow data⟩
  | some handle =>
    rcases hharmless with hnone | hsync | hreached
    · rw [hnone] at hhandle
      exact nomatch hhandle
    · exact (h.onFile hhandle hsync).appendToDiskFaulty hwriter data fault
    · have hwrite : log.writeHandle = some (inode, (disk.contents inode).length) := by
        rcases h.write with hnone | hsome
        · rw [hnone] at hhandle
          exact nomatch hhandle
        · exact hsome
      unfold OutputLog.appendToDiskFaulty
      rw [if_neg (by rw [hwriter]; exact Bool.false_ne_true), hwrite, hreached]
      -- a chunk of which nothing lands was not written to its end
      cases fault with
      | write written => exact ⟨inode, payload, (h.untouched hwrite).grow data⟩
      | none => exact absurd hreached hdata
      | sync => exact absurd hreached hdata
      | truncateRead => exact absurd hreached hdata
      | truncateWrite => exact absurd hreached hdata
      | truncateOpen => exact absurd hreached hdata

theorem Faithful.append (h : Faithful stream disk log) {fault : DiskFault}
    (hharmless : log.Harmless data fault) :
    Faithful (stream ++ data) (OutputLog.appendFaulty disk log data fault).1
      (OutputLog.appendFaulty disk log data fault).2 := by
  cases data with
  | nil =>
    rw [List.append_nil]
    exact h
  | cons byte rest =>
    obtain ⟨inode, payload, hfile⟩ := h.file
    obtain ⟨hro, ht, hrs, hr⟩ :=
      appendToDiskFaulty_frame disk (log.advance (byte :: rest)) (byte :: rest) fault
    have hadvanced : Behind stream disk (log.advance (byte :: rest)) inode payload :=
      ⟨hfile.path, hfile.holds, hfile.counted, hfile.write, hfile.read⟩
    have hsafe : (log.advance (byte :: rest)).writeHandle = none ∨
        (log.advance (byte :: rest)).fileBaseOffset + (log.advance (byte :: rest)).fileBytes
          = stream.length ∨ fault.reached (byte :: rest) = [] := by
      rw [← h.tail]
      exact hharmless
    refine ⟨hro.trans h.writer, ?_, ?_,
      hadvanced.appendToDiskFaulty h.writer (List.cons_ne_nil _ _) hsafe⟩
    · refine ht.trans ?_
      rw [List.length_append, ← h.tail]
      rfl
    · show Reaches _ (OutputLog.appendToDiskFaulty disk (log.advance (byte :: rest))
        (byte :: rest) fault).2.ringStartOffset (OutputLog.appendToDiskFaulty disk
          (log.advance (byte :: rest)) (byte :: rest) fault).2.ring
      rw [hrs, hr]
      exact reaches_extendRing (log.scanForSyncPoints (byte :: rest) log.tailOffset) h.ring _

/-! ### Reading -/

theorem Faithful.readFromDisk (h : Faithful stream disk log) {start stop offset : Nat}
    {bytes : List UInt8} {log' : OutputLog}
    (hread : OutputLog.readFromDisk disk log start stop = some ((offset, bytes), log')) :
    bytes <+: stream.drop offset ∧ Faithful stream disk log' := by
  obtain ⟨inode, payload, hfile⟩ := h.file
  have hhandle : OutputLog.readerHandle disk log = { log with readHandle := some inode } := by
    unfold OutputLog.readerHandle
    rcases hfile.read with hnone | hsome
    · rw [hnone, ← hfile.path]
    · rw [hsome]
      dsimp only
      rw [← hsome]
  unfold OutputLog.readFromDisk at hread
  rw [hhandle] at hread
  dsimp only at hread
  split at hread
  · exact nomatch hread
  · cases hread
    refine ⟨?_, h.writer, h.tail, h.ring, inode, payload, ?_⟩
    · have hpayload : (disk.contents inode).drop
          (headerSize + (max start log.fileBaseOffset - log.fileBaseOffset))
          = payload.drop (max start log.fileBaseOffset - log.fileBaseOffset) := by
        rw [hfile.holds.contents, ← List.drop_drop, List.drop_left' (length_logHeader _)]
      have hsits := hfile.holds.sits.holds_from (Nat.le_max_right start log.fileBaseOffset)
      rw [Disk.readAt, hpayload]
      exact (List.take_prefix _ _).trans hsits
    · exact ⟨hfile.path, hfile.holds, hfile.counted, hfile.write, Or.inr rfl⟩

theorem Faithful.read (h : Faithful stream disk log) {fromOffset maxBytes offset : Nat}
    {bytes : List UInt8} {log' : OutputLog}
    (hread : OutputLog.read disk log fromOffset maxBytes = some ((offset, bytes), log')) :
    bytes <+: stream.drop offset ∧ Faithful stream disk log' := by
  unfold OutputLog.read at hread
  dsimp only at hread
  split at hread
  · cases hread
    exact ⟨List.nil_prefix, h⟩
  · split at hread
    · exact nomatch hread
    · split at hread
      · rename_i hring
        cases hread
        refine ⟨?_, h⟩
        have hsits := h.ring.sits.holds_from hring.2.1
        exact (List.take_prefix _ _).trans hsits
      · exact h.readFromDisk hread

end

/-! ### Runs -/

namespace LogState

/-- An append of the run, if it is one, is harmless. -/
def Tolerated (s : Step LogState FaultyOp (Option (Nat × List UInt8))) : Prop :=
  ∀ data fault, s.event = .append data fault → s.before.log.Harmless data fault

theorem faithful_step {s : LogState} (h : Faithful s.stream s.disk s.log) {op : FaultyOp}
    (hop : Tolerated (take stepFaulty s op)) :
    Faithful (s.stepFaulty op).1.stream (s.stepFaulty op).1.disk (s.stepFaulty op).1.log := by
  cases op with
  | append data fault => exact h.append (hop data fault rfl)
  | read fromOffset maxBytes =>
    cases hread : OutputLog.read s.disk s.log fromOffset maxBytes with
    | none =>
      rw [stepFaulty, hread]
      exact h
    | some result =>
      rw [stepFaulty, hread]
      exact (h.read hread).2

/--
**After disk failures a log reads less, never something else.**  A log is opened, however
often, and then appended to while its disk fails in any way.  As long as nothing is written
to a file that has fallen behind the stream, every read returns bytes that the stream holds
from the offset it reports.
-/
theorem faulty_log_reads_true {ringCapacity diskCapacity : Nat} {ops : List LogOp}
    {faulty : List FaultyOp} {opened : LogState}
    (hopened : (LogState.start ringCapacity diskCapacity).run ops = some opened)
    (hlen : opened.stream.length < 2 ^ 63)
    (htolerated : ∀ s ∈ trace stepFaulty opened faulty, Tolerated s) :
    ∀ fromOffset maxBytes offset bytes log',
      OutputLog.read (Trace.run stepFaulty opened faulty).disk (Trace.run stepFaulty opened faulty).log
        fromOffset maxBytes = some ((offset, bytes), log') →
      bytes <+: (Trace.run stepFaulty opened faulty).stream.drop offset := by
  intro fromOffset maxBytes offset bytes log' hread
  have hfaithful := run_invariant_where stepFaulty
    (P := fun s => Faithful s.stream s.disk s.log) htolerated
    (LogState.intact_run hopened hlen).faithful fun _ _ hop h => faithful_step h hop
  exact (hfaithful.read hread).1

/-- A disk that is full from the second chunk on. -/
theorem faulty_log_reads_true_full_disk :
    ∃ opened, (LogState.start 4 64).run [.append [97, 98, 99, 100]] = some opened ∧
      ∀ fromOffset maxBytes offset bytes log',
        OutputLog.read
          (Trace.run stepFaulty opened [.append [101, 102, 103, 104] (.write 2), .append [105] (.write 0)]).disk
          (Trace.run stepFaulty opened [.append [101, 102, 103, 104] (.write 2), .append [105] (.write 0)]).log
          fromOffset maxBytes = some ((offset, bytes), log') →
        bytes <+: ([97, 98, 99, 100, 101, 102, 103, 104, 105] : List UInt8).drop offset := by
  obtain ⟨opened, hopened⟩ := Option.isSome_iff_exists.mp (show ((LogState.start 4 64).run
    [.append [97, 98, 99, 100]]).isSome = true by decide)
  refine ⟨opened, hopened, ?_⟩
  have hstream : (Trace.run stepFaulty opened [.append [101, 102, 103, 104] (.write 2),
      .append [105] (.write 0)]).stream = [97, 98, 99, 100, 101, 102, 103, 104, 105] := by
    cases hopened
    rfl
  rw [← hstream]
  refine faulty_log_reads_true hopened (by cases hopened; decide) ?_
  intro s hs data fault hevent
  cases hopened
  simp only [trace, List.mem_cons, List.not_mem_nil, or_false] at hs
  rcases hs with rfl | rfl
  · exact Or.inr (Or.inl rfl)
  · cases hevent
    exact Or.inr (Or.inr rfl)

/--
A ring of four bytes, and a first chunk whose write fails.  The second chunk follows the
header in the file, and is what the log reads at offset 0.
-/
theorem failed_write_shifts_file :
    ((Trace.run stepFaulty (LogState.start 4 64)
        [.append [97, 97, 97, 97] (.write 0), .append [98, 98, 98, 98] .none]).stepFaulty
        (.read 0 4)).2 = some (0, [98, 98, 98, 98]) ∧
      (Trace.run stepFaulty (LogState.start 4 64)
        [.append [97, 97, 97, 97] (.write 0), .append [98, 98, 98, 98] .none]).stream.take 4
        = [97, 97, 97, 97] := by
  decide

end LogState

end Homie
