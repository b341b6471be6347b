/-
The append-only, offset-addressed log of one session's output: `homie-engine/src/log.rs`.

The newest bytes stay in a ring in memory; all of them go to a spill file that is
rewritten to its newest half when it grows past its cap.  A file is a header (magic,
version, base offset) and raw payload.  A read-only log is a view of a file some other
process owns.

Offsets are natural numbers.  The two places where `u64` arithmetic can leave its
range are in `read` and `readFromDisk`; there the result is `none`, a panic: with
overflow checks at the operation itself, without them at the slice or the allocation
that the wrapped value reaches.  Every disk operation succeeds.
-/
import Homie.Lib.Bytes
import Homie.Lib.Inodes

namespace Homie

open Bytes

def logMagic : UInt32 := 0x4449524A
def logVersion : UInt32 := 1
def headerSize : Nat := 16
def maxSyncPoints : Nat := 64

structure OutputLog where
  ringCapacity : Nat
  diskCapacity : Nat
  tailOffset : Nat
  /-- Oldest offset still resident in memory. -/
  ringStartOffset : Nat
  ring : List UInt8
  readOnly : Bool
  /-- The inode written to, and the position of the next write. -/
  writeHandle : Option (Nat × Nat)
  /-- The inode of the long-lived reader; every use seeks first. -/
  readHandle : Option Nat
  fileBaseOffset : Nat
  fileBytes : Nat
  /-- Offsets where a full-screen reset begins, newest last. -/
  syncPoints : List Nat
  /-- Partial escape prefix carried across chunk boundaries. -/
  carry : List UInt8
deriving DecidableEq, Repr

/-- The sixteen bytes in front of a payload that starts at `base`. -/
def logHeader (base : Nat) : List UInt8 :=
  u32Be logMagic ++ u32Be logVersion ++ u64Be (UInt64.ofNat base)

/-- The base offset and payload length of a file that has our header. -/
def parseHeader (file : List UInt8) : Option (Nat × Nat) :=
  if file.length < headerSize then none
  else if readU32Be (file.take 4) ≠ logMagic then none
  else some ((readU64Be ((file.drop 8).take 8)).toNat, file.length - headerSize)

namespace OutputLog

/-! ### Opening -/

def invalidateReadHandle (log : OutputLog) : OutputLog := { log with readHandle := none }

/-- `open_for_append`: the file behind the path, positioned at its end. -/
def openForAppend (disk : Disk) : Option (Nat × Nat) :=
  disk.path.map fun inode => (inode, (disk.contents inode).length)

def createFile (disk : Disk) (log : OutputLog) (baseOffset : Nat) : Disk × OutputLog :=
  let log := log.invalidateReadHandle
  let disk := disk.rewrite (logHeader baseOffset)
  let log := { log with fileBaseOffset := baseOffset, fileBytes := 0 }
  (disk, if log.readOnly then log else { log with writeHandle := openForAppend disk })

/-- The file behind the path, if its header is ours. -/
def existing (disk : Disk) : Option (Nat × Nat × Nat) := do
  let inode ← disk.path
  let (base, bytes) ← parseHeader (disk.contents inode)
  pure (inode, base, bytes)

def openOrRecover (disk : Disk) (log : OutputLog) : Disk × OutputLog :=
  match existing disk with
  | some (inode, base, bytes) =>
    let log := { log with
      fileBaseOffset := base
      fileBytes := bytes
      tailOffset := base + bytes
      ringStartOffset := base + bytes }
    (disk, if log.readOnly then { log with readHandle := some inode }
      else { log with writeHandle := openForAppend disk })
  | none => createFile disk log 0

def fresh (ringCapacity diskCapacity : Nat) (readOnly : Bool) : OutputLog where
  ringCapacity := ringCapacity
  diskCapacity := diskCapacity
  tailOffset := 0
  ringStartOffset := 0
  ring := []
  readOnly := readOnly
  writeHandle := none
  readHandle := none
  fileBaseOffset := 0
  fileBytes := 0
  syncPoints := []
  carry := []

/-- Opens (or recovers, or creates) the log. -/
def openLog (disk : Disk) (ringCapacity diskCapacity : Nat) (readOnly : Bool) : Disk × OutputLog :=
  openOrRecover disk (fresh ringCapacity diskCapacity readOnly)

/-! ### Sync points -/

/-- A full reset (`ESC c`) or an erase display (`CSI 2 J`) begins at index `i`. -/
def resetAt (haystack : List UInt8) (i : Nat) : Bool :=
  haystack.getD i 0 == 0x1B &&
    (haystack.getD (i + 1) 0 == 0x63
      || (decide (i + 3 < haystack.length) && haystack.getD (i + 1) 0 == 0x5B
        && haystack.getD (i + 2) 0 == 0x32 && haystack.getD (i + 3) 0 == 0x4A))

/-- Newest last, without an immediate repeat, at most `maxSyncPoints`. -/
def pushSyncPoint (points : List Nat) (offset : Nat) : List Nat :=
  if points.getLast? = some offset then points
  else
    let points := points ++ [offset]
    points.drop (points.length - maxSyncPoints)

def scanForSyncPoints (log : OutputLog) (data : List UInt8) (chunkStart : Nat) : OutputLog :=
  let carryCount := log.carry.length
  let haystack := log.carry ++ data
  let log := { log with carry := haystack.drop (haystack.length - 3) }
  -- a sequence that begins inside the carry starts before the chunk
  let found := ((List.range (haystack.length - 1)).filter (resetAt haystack)).map fun i =>
    chunkStart + i - carryCount
  { log with syncPoints := found.foldl pushSyncPoint log.syncPoints }

/-! ### Append -/

def retainFrom (base : Nat) (points : List Nat) : List Nat := points.filter (base ≤ ·)

/-- Rewrites the spill file keeping only the newest half, bumping the base offset. -/
def truncateToHalf (disk : Disk) (log : OutputLog) : Disk × OutputLog :=
  let log := log.invalidateReadHandle
  let keep := log.diskCapacity / 2
  let dropBytes := log.fileBytes - keep
  let kept := match disk.path with
    | some inode => (disk.contents inode).drop (headerSize + dropBytes)
    | none => []
  let newBase := log.fileBaseOffset + dropBytes
  -- written beside the log and renamed over it
  let disk := disk.replace (logHeader newBase ++ kept)
  (disk, { log with
    fileBaseOffset := newBase
    fileBytes := kept.length
    writeHandle := openForAppend disk
    syncPoints := retainFrom newBase log.syncPoints })

def appendToDisk (disk : Disk) (log : OutputLog) (data : List UInt8) : Disk × OutputLog :=
  if log.readOnly then (disk, log)
  else match log.writeHandle with
    | none => (disk, log)
    | some (inode, pos) =>
      let disk := disk.writeAt inode pos data
      let log := { log with
        writeHandle := some (inode, pos + data.length)
        fileBytes := log.fileBytes + data.length }
      if log.fileBytes > log.diskCapacity then truncateToHalf disk log else (disk, log)

/-- The ring with a chunk added, its oldest bytes evicted past the capacity. -/
def extendRing (log : OutputLog) (data : List UInt8) : OutputLog :=
  let ring := log.ring ++ data
  let drop := ring.length - log.ringCapacity
  { log with ring := ring.drop drop, ringStartOffset := log.ringStartOffset + drop }

/-- The in-memory state, which advances even when the disk write fails. -/
def advance (log : OutputLog) (data : List UInt8) : OutputLog :=
  let tail := log.tailOffset
  let log := log.scanForSyncPoints data tail
  let log := log.extendRing data
  { log with tailOffset := tail + data.length }

/-- Appends a chunk and returns the offset range it occupies. -/
def append (disk : Disk) (log : OutputLog) (data : List UInt8) :
    Disk × OutputLog × (Nat × Nat) :=
  if data.isEmpty then (disk, log, (log.tailOffset, log.tailOffset))
  else
    let start := log.tailOffset
    let (disk, log) := appendToDisk disk (log.advance data) data
    (disk, log, (start, log.tailOffset))

/-! ### Read -/

/-- The oldest offset either store still holds. -/
def oldestAvailable (log : OutputLog) : Nat := min log.ringStartOffset log.fileBaseOffset

/-- The cached reader, opened on first use. -/
def readerHandle (disk : Disk) (log : OutputLog) : OutputLog :=
  match log.readHandle with
  | some _ => log
  | none => { log with readHandle := disk.path }

/-- The bytes from `fromOffset` to `toOffset`, and the reader they leave cached. -/
def readFromDisk (disk : Disk) (log : OutputLog) (fromOffset toOffset : Nat) :
    Option ((Nat × List UInt8) × OutputLog) :=
  let log := readerHandle disk log
  match log.readHandle with
  | none => some ((log.tailOffset, []), log)
  | some inode =>
    let start := max fromOffset log.fileBaseOffset
    let pos := headerSize + (start - log.fileBaseOffset)
    -- `to_offset - start`
    if toOffset < start then none
    else some ((start, disk.readAt inode pos (toOffset - start)), log)

/--
Reads up to `maxBytes` from `fromOffset`, clamped to what remains available.  Returns
the actual start offset and the bytes.
-/
def read (disk : Disk) (log : OutputLog) (fromOffset maxBytes : Nat) :
    Option ((Nat × List UInt8) × OutputLog) :=
  let start := max fromOffset log.oldestAvailable
  if log.tailOffset ≤ start then some ((log.tailOffset, []), log)
  -- `start + max_bytes as u64`
  else if 2 ^ 64 ≤ start + maxBytes then none
  else
    let stop := min log.tailOffset (start + maxBytes)
    if log.readOnly = false ∧ log.ringStartOffset ≤ start
        ∧ stop - log.ringStartOffset ≤ log.ring.length then
      let lower := start - log.ringStartOffset
      let upper := stop - log.ringStartOffset
      some ((start, (log.ring.drop lower).take (upper - lower)), log)
    else readFromDisk disk log start stop

/-- Best replay start for a byte budget: the newest sync point within it, else its start. -/
def preferredReplayStart (log : OutputLog) (budget : Nat) : Nat :=
  let floor := log.tailOffset - budget
  match log.syncPoints.reverse.find? fun s => floor ≤ s && s < log.tailOffset with
  | some sync => sync
  | none => max floor (min log.oldestAvailable log.tailOffset)

/-- Refreshes a read-only view after the owner appended or rotated the file. -/
def refreshFromDisk (disk : Disk) (log : OutputLog) : Bool × OutputLog :=
  if log.readOnly = false then (false, log)
  else
    let log := readerHandle disk log
    match log.readHandle with
    | none => (false, log)
    | some inode =>
      match parseHeader (disk.contents inode) with
      | none => (false, log)
      | some (newBase, newBytes) =>
        let newTail := newBase + newBytes
        let changed := newTail != log.tailOffset || newBase != log.fileBaseOffset
        (changed, { log with
          fileBaseOffset := newBase
          fileBytes := newBytes
          tailOffset := newTail
          syncPoints := retainFrom newBase log.syncPoints })

end OutputLog

/-! ### One owner's calls -/

/-- A log with the disk under it, and everything that was ever appended. -/
structure LogState where
  disk : Disk
  log : OutputLog
  stream : List UInt8
deriving DecidableEq, Repr

/-- What the owner of a log does with it. -/
inductive LogOp where
  /-- Drop the log and open its file again, with any capacities. -/
  | reopen (ringCapacity diskCapacity : Nat)
  | append (data : List UInt8)
  | read (fromOffset maxBytes : Nat)
deriving DecidableEq, Repr

namespace LogState

/-- The first open, on a disk without the file. -/
def start (ringCapacity diskCapacity : Nat) : LogState :=
  let (disk, log) := OutputLog.openLog Disk.empty ringCapacity diskCapacity false
  ⟨disk, log, []⟩

/-- One call; `none` when it panics. -/
def step (s : LogState) : LogOp → Option LogState
  | .reopen ringCapacity diskCapacity =>
    let (disk, log) := OutputLog.openLog s.disk ringCapacity diskCapacity false
    some ⟨disk, log, s.stream⟩
  | .append data =>
    let (disk, log, _) := OutputLog.append s.disk s.log data
    some ⟨disk, log, s.stream ++ data⟩
  | .read fromOffset maxBytes =>
    (OutputLog.read s.disk s.log fromOffset maxBytes).map fun (_, log) => ⟨s.disk, log, s.stream⟩

/-- A run of calls, up to the first panic. -/
def run (s : LogState) (ops : List LogOp) : Option LogState := ops.foldlM step s

end LogState

/-! ### A writer and a read-only view of its file -/

/-- Two logs over one disk, and everything that was ever appended. -/
structure SharedLog where
  disk : Disk
  writer : Option OutputLog
  reader : Option OutputLog
  stream : List UInt8
deriving DecidableEq, Repr

inductive SharedOp where
  | openWriter (ringCapacity diskCapacity : Nat)
  | append (data : List UInt8)
  | openReader (ringCapacity diskCapacity : Nat)
  | refresh
  | invalidate
  | read (fromOffset maxBytes : Nat)
deriving DecidableEq, Repr

namespace SharedLog

def start : SharedLog := ⟨Disk.empty, none, none, []⟩

/-- One atomic call of either process; `none` when it panics. -/
def step (s : SharedLog) : SharedOp → Option SharedLog
  | .openWriter ringCapacity diskCapacity =>
    let (disk, log) := OutputLog.openLog s.disk ringCapacity diskCapacity false
    some { s with disk := disk, writer := some log }
  | .append data =>
    match s.writer with
    | none => some s
    | some log =>
      let (disk, log, _) := OutputLog.append s.disk log data
      some { s with disk := disk, writer := some log, stream := s.stream ++ data }
  | .openReader ringCapacity diskCapacity =>
    let (disk, log) := OutputLog.openLog s.disk ringCapacity diskCapacity true
    some { s with disk := disk, reader := some log }
  | .refresh =>
    some { s with reader := s.reader.map fun log => (OutputLog.refreshFromDisk s.disk log).2 }
  | .invalidate => some { s with reader := s.reader.map OutputLog.invalidateReadHandle }
  | .read fromOffset maxBytes =>
    match s.reader with
    | none => some s
    | some log =>
      (OutputLog.read s.disk log fromOffset maxBytes).map fun (_, log) =>
        { s with reader := some log }

/-- A run of calls in any interleaving, up to the first panic. -/
def run (s : SharedLog) (ops : List SharedOp) : Option SharedLog := ops.foldlM step s

end SharedLog

end Homie

/-! ### The output log on a disk that fails: the `?` paths of `append` in `homie-engine/src/log.rs`

`DiskFault` says which operation of one append fails, if any.  The in-memory state has
moved by then, and callers ignore the error, so a run goes on with what each early return
leaves behind.  The length `append` counts for the file does not include what a failed
write put there.
-/

namespace Homie

/-- The disk operation of an append that fails. -/
inductive DiskFault where
  | none
  /-- `write_all` fails with at most `written` bytes in the file, and not all of them. -/
  | write (written : Nat)
  /-- The periodic `sync_all`. -/
  | sync
  /-- Rotation: opening or reading the old file. -/
  | truncateRead
  /-- Rotation: writing the new file beside it, or the rename. -/
  | truncateWrite
  /-- Rotation: opening the new file for append. -/
  | truncateOpen
deriving DecidableEq, Repr

namespace DiskFault

/-- What of a chunk gets into the file. -/
def reached (data : List UInt8) : DiskFault → List UInt8
  | .write written => data.dropLast.take written
  | _ => data

end DiskFault

namespace OutputLog

/-- `truncate_to_half`, up to the operation that fails. -/
def truncateFaulty (disk : Disk) (log : OutputLog) : DiskFault → Disk × OutputLog
  | .truncateRead => (disk, log.invalidateReadHandle)
  | .truncateWrite => (disk, { log.invalidateReadHandle with writeHandle := none })
  | .truncateOpen =>
    let (disk, truncated) := truncateToHalf disk log
    -- the handle is gone, and the sync points are pruned after the open
    (disk, { truncated with writeHandle := none, syncPoints := log.syncPoints })
  | _ => truncateToHalf disk log

/-- `append_to_disk`, up to the operation that fails. -/
def appendToDiskFaulty (disk : Disk) (log : OutputLog) (data : List UInt8) (fault : DiskFault) :
    Disk × OutputLog :=
  if log.readOnly then (disk, log)
  else match log.writeHandle with
    | none => (disk, log)
    | some (inode, pos) =>
      let disk := disk.writeAt inode pos (fault.reached data)
      let log := { log with writeHandle := some (inode, pos + (fault.reached data).length) }
      match fault with
      | .write _ => (disk, log)
      | fault =>
        let log := { log with fileBytes := log.fileBytes + data.length }
        if fault = .sync then (disk, log)
        else if log.fileBytes > log.diskCapacity then truncateFaulty disk log fault
        else (disk, log)

/-- `append`, with its result ignored. -/
def appendFaulty (disk : Disk) (log : OutputLog) (data : List UInt8) (fault : DiskFault) :
    Disk × OutputLog :=
  if data.isEmpty then (disk, log) else appendToDiskFaulty disk (log.advance data) data fault

end OutputLog

/-- An append with what fails of it, or a read. -/
inductive FaultyOp where
  | append (data : List UInt8) (fault : DiskFault)
  | read (fromOffset maxBytes : Nat)
deriving DecidableEq, Repr

/-- One call, and what it returned if it is a read that did not panic. -/
def LogState.stepFaulty (s : LogState) : FaultyOp → LogState × Option (Nat × List UInt8)
  | .append data fault =>
    let (disk, log) := OutputLog.appendFaulty s.disk s.log data fault
    (⟨disk, log, s.stream ++ data⟩, none)
  | .read fromOffset maxBytes =>
    match OutputLog.read s.disk s.log fromOffset maxBytes with
    | none => (s, none)
    | some (result, log) => (⟨s.disk, log, s.stream⟩, some result)

end Homie
