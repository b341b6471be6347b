/-
A read-only log against a writer that appends and rotates.

A cached handle keeps its inode through a rotation, and what an inode holds is never
rewritten, only appended to.  So a view whose base is its handle's base reads true
bytes at every offset it reports.

Two things break that.  The view keeps the ring start of its opening, and when the file
did not exist then, that is zero for good: after a rotation the oldest offset it offers
lies below the file's base, and a window that ends there makes `to_offset - start`
underflow.  And a handle dropped with `invalidate_read_handle` is reopened by the next
`read` on whatever file is there, under the base of the old one.  `ReadSafe` excludes
these, and the overflow of `start + max_bytes`.
-/
import Homie.Proofs.OutputLog

namespace Homie

/-! ### Files are only appended to -/

/-- Every file ever created holds a true piece of the stream under its own base. -/
def Archive (stream : List UInt8) (disk : Disk) : Prop :=
  ∀ inode < disk.files.length, ∃ base payload, Holds stream disk inode base payload

/-- Every file keeps its base and what it held. -/
def Grows (stream : List UInt8) (disk : Disk) (stream' : List UInt8) (disk' : Disk) : Prop :=
  ∀ inode base payload, Holds stream disk inode base payload →
    ∃ payload', payload.length ≤ payload'.length ∧ Holds stream' disk' inode base payload'

theorem Grows.refl (stream : List UInt8) (disk : Disk) : Grows stream disk stream disk :=
  fun _ _ payload h => ⟨payload, Nat.le_refl _, h⟩

theorem Grows.trans {s₁ s₂ s₃ : List UInt8} {d₁ d₂ d₃ : Disk} (h : Grows s₁ d₁ s₂ d₂)
    (h' : Grows s₂ d₂ s₃ d₃) : Grows s₁ d₁ s₃ d₃ := by
  intro inode base payload hholds
  obtain ⟨payload', hle, hholds'⟩ := h inode base payload hholds
  obtain ⟨payload'', hle', hholds''⟩ := h' inode base payload' hholds'
  exact ⟨payload'', Nat.le_trans hle hle', hholds''⟩

section

variable {stream : List UInt8} {disk : Disk}

theorem Holds.replace {inode base : Nat} {payload : List UInt8}
    (h : Holds stream disk inode base payload) (bytes : List UInt8) :
    Holds stream (disk.replace bytes) inode base payload := by
  refine ⟨?_, ?_, h.sits⟩
  · have := h.bound
    rw [Disk.length_files_replace]
    omega
  · rw [Disk.contents_replace_old disk bytes h.bound]
    exact h.contents

theorem grows_replace (bytes : List UInt8) : Grows stream disk stream (disk.replace bytes) :=
  fun _ _ payload h => ⟨payload, Nat.le_refl _, h.replace bytes⟩

theorem Archive.replace (h : Archive stream disk) {inode base : Nat} {payload bytes : List UInt8}
    (hnew : Spill stream (disk.replace bytes) inode base payload) :
    Archive stream (disk.replace bytes) := by
  intro other hother
  rw [Disk.length_files_replace] at hother
  by_cases hold : other < disk.files.length
  · obtain ⟨base', payload', hholds⟩ := h other hold
    exact ⟨base', payload', hholds.replace bytes⟩
  · have hinode : inode = disk.files.length := by
      have hpath := hnew.path
      exact (Option.some.inj hpath).symm
    have heq : other = inode := by omega
    rw [heq]
    exact ⟨base, payload, hnew.holds⟩

theorem Holds.unique {inode base base' : Nat} {payload payload' : List UInt8}
    (h : Holds stream disk inode base payload) (h' : Holds stream disk inode base' payload')
    (hlen : stream.length < 2 ^ 63) : base = base' ∧ payload = payload' := by
  have hparse := h.parse hlen
  rw [h'.parse hlen] at hparse
  obtain ⟨rfl, -⟩ := Prod.mk.inj (Option.some.inj hparse)
  have hcontents := h.contents
  rw [h'.contents] at hcontents
  exact ⟨rfl, (List.append_cancel_left hcontents).symm⟩

theorem Spill.grows_writeAt {inode base : Nat} {payload : List UInt8}
    (h : Spill stream disk inode base payload) (hlen : stream.length < 2 ^ 63)
    (data : List UInt8) :
    Grows stream disk (stream ++ data)
      (disk.writeAt inode (disk.contents inode).length data) := by
  intro other base' payload' hother
  by_cases heq : other = inode
  · subst heq
    obtain ⟨rfl, rfl⟩ := hother.unique h.holds hlen
    exact ⟨payload' ++ data, by simp, (h.writeAt data).holds⟩
  · refine ⟨payload', Nat.le_refl _, ?_, ?_, hother.sits.append data⟩
    · rw [Disk.length_files_writeAt]
      exact hother.bound
    · rw [Disk.contents_writeAt_ne disk heq]
      exact hother.contents

theorem Archive.writeAt {inode base : Nat} {payload : List UInt8} (h : Archive stream disk)
    (hspill : Spill stream disk inode base payload) (hlen : stream.length < 2 ^ 63)
    (data : List UInt8) :
    Archive (stream ++ data) (disk.writeAt inode (disk.contents inode).length data) := by
  intro other hother
  rw [Disk.length_files_writeAt] at hother
  obtain ⟨base', payload', hholds⟩ := h other hother
  obtain ⟨payload'', -, hholds'⟩ := hspill.grows_writeAt hlen data other base' payload' hholds
  exact ⟨base', payload'', hholds'⟩

variable {log : OutputLog}

theorem OnFile.archive_truncateToHalf {inode : Nat} {payload : List UInt8}
    (h : OnFile stream disk log inode payload) (harchive : Archive stream disk) :
    Archive stream (OutputLog.truncateToHalf disk log).1 ∧
      Grows stream disk stream (OutputLog.truncateToHalf disk log).1 :=
  ⟨harchive.replace h.truncateToHalf.spill, grows_replace _⟩

theorem OnFile.archive_appendToDisk {inode : Nat} {payload : List UInt8}
    (h : OnFile stream disk log inode payload) (hwriter : log.readOnly = false)
    (harchive : Archive stream disk) (hlen : stream.length < 2 ^ 63) (data : List UInt8) :
    Archive (stream ++ data) (OutputLog.appendToDisk disk log data).1 ∧
      Grows stream disk (stream ++ data) (OutputLog.appendToDisk disk log data).1 := by
  have harchive' := harchive.writeAt h.spill hlen data
  have hgrows := h.spill.grows_writeAt hlen data
  unfold OutputLog.appendToDisk
  rw [if_neg (by rw [hwriter]; exact Bool.false_ne_true), h.write]
  dsimp only
  split
  · obtain ⟨hold, hnew⟩ := (h.written data).archive_truncateToHalf harchive'
    exact ⟨hold, hgrows.trans hnew⟩
  · exact ⟨harchive', hgrows⟩

theorem Intact.archive_append (h : Intact stream disk log) (harchive : Archive stream disk)
    (hlen : stream.length < 2 ^ 63) (data : List UInt8) :
    Archive (stream ++ data) (OutputLog.append disk log data).1 ∧
      Grows stream disk (stream ++ data) (OutputLog.append disk log data).1 := by
  cases data with
  | nil =>
    rw [List.append_nil]
    exact ⟨harchive, Grows.refl stream disk⟩
  | cons byte rest =>
    obtain ⟨inode, payload, hfile⟩ := h.file
    have hon : OnFile stream disk (log.advance (byte :: rest)) inode payload :=
      ⟨hfile.spill, hfile.bytes, hfile.write, hfile.read⟩
    exact hon.archive_appendToDisk h.writer harchive hlen _

theorem archive_openLog (hstored : Stored stream disk) (harchive : Archive stream disk)
    (hlen : stream.length < 2 ^ 63) (ringCapacity diskCapacity : Nat) (readOnly : Bool) :
    Archive stream (OutputLog.openLog disk ringCapacity diskCapacity readOnly).1 ∧
      Grows stream disk stream (OutputLog.openLog disk ringCapacity diskCapacity readOnly).1 ∧
      Stored stream (OutputLog.openLog disk ringCapacity diskCapacity readOnly).1 := by
  unfold OutputLog.openLog OutputLog.openOrRecover
  rcases hstored with ⟨hpath, rfl⟩ | ⟨inode, base, payload, hspill⟩
  · rw [existing_none hpath]
    have hcreated := spill_created hpath
    have hrewrite : disk.rewrite (logHeader 0) = disk.replace (logHeader 0) := by
      rw [Disk.rewrite, hpath]
    show Archive [] (disk.rewrite (logHeader 0)) ∧ Grows [] disk [] (disk.rewrite (logHeader 0)) ∧
      Stored [] (disk.rewrite (logHeader 0))
    rw [hrewrite] at hcreated ⊢
    exact ⟨harchive.replace hcreated, grows_replace _, Or.inr ⟨_, _, _, hcreated⟩⟩
  · rw [hspill.existing hlen]
    exact ⟨harchive, Grows.refl stream disk, Or.inr ⟨inode, base, payload, hspill⟩⟩

/-! ### A view of the file -/

/-- What a read-only log knows is true of the stream, and of the handle it has cached. -/
structure View (stream : List UInt8) (disk : Disk) (log : OutputLog) : Prop where
  reader : log.readOnly = true
  base : log.fileBaseOffset ≤ log.tailOffset
  tail : log.tailOffset ≤ stream.length
  cached : ∀ inode, log.readHandle = some inode → ∃ payload,
    Holds stream disk inode log.fileBaseOffset payload ∧
      log.tailOffset ≤ log.fileBaseOffset + payload.length

theorem View.grows {stream' : List UInt8} {disk' : Disk} (h : View stream disk log)
    (hgrows : Grows stream disk stream' disk') (hlen : stream.length ≤ stream'.length) :
    View stream' disk' log := by
  refine ⟨h.reader, h.base, Nat.le_trans h.tail hlen, ?_⟩
  intro inode hhandle
  obtain ⟨payload, hholds, htail⟩ := h.cached inode hhandle
  obtain ⟨payload', hle, hholds'⟩ := hgrows inode _ payload hholds
  exact ⟨payload', hholds', by omega⟩

theorem view_openLog (hstored : Stored stream disk) (hlen : stream.length < 2 ^ 63)
    (ringCapacity diskCapacity : Nat) :
    View stream (OutputLog.openLog disk ringCapacity diskCapacity true).1
      (OutputLog.openLog disk ringCapacity diskCapacity true).2 := by
  unfold OutputLog.openLog OutputLog.openOrRecover
  rcases hstored with ⟨hpath, rfl⟩ | ⟨inode, base, payload, hspill⟩
  · rw [existing_none hpath]
    exact ⟨rfl, Nat.le_refl _, Nat.le_refl _, fun inode hhandle => nomatch hhandle⟩
  · rw [hspill.existing hlen]
    have htail := hspill.reaches.length_eq
    refine ⟨rfl, Nat.le_add_right _ _, Nat.le_of_eq htail, ?_⟩
    intro inode' hhandle
    cases hhandle
    exact ⟨payload, hspill.holds, Nat.le_refl _⟩

theorem View.invalidate (h : View stream disk log) :
    View stream disk log.invalidateReadHandle :=
  ⟨h.reader, h.base, h.tail, fun _ hhandle => nomatch hhandle⟩

theorem readerHandle_eq (disk : Disk) (log : OutputLog) :
    OutputLog.readerHandle disk log = { log with readHandle := log.readHandle.or disk.path } := by
  unfold OutputLog.readerHandle
  cases h : log.readHandle with
  | none => rfl
  | some inode =>
    dsimp only
    rw [Option.some_or, ← h]

/-- Whatever file a reader's handle is on, it is a file of the log. -/
theorem View.handle_bound (h : View stream disk log) (hstored : Stored stream disk) {inode : Nat}
    (hhandle : log.readHandle.or disk.path = some inode) : inode < disk.files.length := by
  cases hcached : log.readHandle with
  | some inode' =>
    rw [hcached] at hhandle
    cases hhandle
    obtain ⟨payload, hholds, -⟩ := h.cached inode hcached
    exact hholds.bound
  | none =>
    rw [hcached, Option.none_or] at hhandle
    rcases hstored with ⟨hpath, -⟩ | ⟨inode', base, payload, hspill⟩
    · rw [hpath] at hhandle
      cases hhandle
    · rw [hspill.path] at hhandle
      cases hhandle
      exact hspill.bound

/-- A refresh takes base and tail from whatever file the handle is on. -/
theorem View.refresh (h : View stream disk log) (harchive : Archive stream disk)
    (hstored : Stored stream disk) (hlen : stream.length < 2 ^ 63) :
    View stream disk (OutputLog.refreshFromDisk disk log).2 := by
  unfold OutputLog.refreshFromDisk
  rw [if_neg (by rw [h.reader]; decide), readerHandle_eq]
  dsimp only
  cases hhandle : log.readHandle.or disk.path with
  | none => exact ⟨h.reader, h.base, h.tail, fun inode hnone => nomatch hnone⟩
  | some inode =>
    obtain ⟨base, payload, hholds⟩ := harchive inode (h.handle_bound hstored hhandle)
    dsimp only
    rw [hholds.parse hlen]
    refine ⟨h.reader, Nat.le_add_right _ _, hholds.sits.length_le, ?_⟩
    intro inode' hinode
    cases hinode
    exact ⟨payload, hholds, Nat.le_refl _⟩

/-! ### Reading -/

/-- The base of the file behind the path. -/
def pathBase (disk : Disk) : Option Nat := (OutputLog.existing disk).map fun found => found.2.1

/--
The windows a view can read: past the tail; or with a stop that fits in 64 bits and is not
below the file's base, off a handle that is still cached or a file with the view's base.
-/
def WindowSafe (disk : Disk) (log : OutputLog) (fromOffset maxBytes : Nat) : Prop :=
  log.tailOffset ≤ max fromOffset log.oldestAvailable ∨
    max fromOffset log.oldestAvailable + maxBytes < 2 ^ 64 ∧
      log.fileBaseOffset ≤ max fromOffset log.oldestAvailable + maxBytes ∧
      (log.readHandle.isSome = true ∨ pathBase disk = some log.fileBaseOffset)

theorem View.handle (h : View stream disk log) (hstored : Stored stream disk)
    (hlen : stream.length < 2 ^ 63)
    (hsafe : log.readHandle.isSome = true ∨ pathBase disk = some log.fileBaseOffset) :
    ∃ inode payload, log.readHandle.or disk.path = some inode ∧
      Holds stream disk inode log.fileBaseOffset payload ∧
      log.tailOffset ≤ log.fileBaseOffset + payload.length := by
  cases hcached : log.readHandle with
  | some inode =>
    obtain ⟨payload, hholds, htail⟩ := h.cached inode hcached
    exact ⟨inode, payload, rfl, hholds, htail⟩
  | none =>
    rw [hcached] at hsafe
    have hbase := hsafe.resolve_left (by decide)
    rcases hstored with ⟨hpath, -⟩ | ⟨inode, base, payload, hspill⟩
    · rw [pathBase, existing_none hpath] at hbase
      cases hbase
    · rw [pathBase, hspill.existing hlen] at hbase
      have heq : base = log.fileBaseOffset := Option.some.inj hbase
      subst heq
      have htail := hspill.reaches.length_eq
      refine ⟨inode, payload, hspill.path, hspill.holds, ?_⟩
      have := h.tail
      omega

theorem View.read (h : View stream disk log) (hstored : Stored stream disk)
    (hlen : stream.length < 2 ^ 63) {fromOffset maxBytes : Nat}
    (hsafe : WindowSafe disk log fromOffset maxBytes) :
    ∃ offset bytes log', OutputLog.read disk log fromOffset maxBytes = some ((offset, bytes), log') ∧
      Sits stream offset bytes ∧ View stream disk log' := by
  unfold OutputLog.read
  dsimp only
  unfold WindowSafe at hsafe
  generalize max fromOffset log.oldestAvailable = start at *
  by_cases hpast : log.tailOffset ≤ start
  · rw [if_pos hpast]
    exact ⟨log.tailOffset, [], log, rfl, ⟨h.tail, List.nil_prefix⟩, h⟩
  obtain ⟨hfits, hbase, hhandle⟩ := hsafe.resolve_left hpast
  obtain ⟨inode, payload, hinode, hholds, htail⟩ := h.handle hstored hlen hhandle
  have hbelow := h.base
  rw [if_neg hpast, if_neg (by omega), if_neg (fun hc => by rw [h.reader] at hc; cases hc.1)]
  unfold OutputLog.readFromDisk
  rw [readerHandle_eq, hinode]
  dsimp only
  rw [if_neg (by omega)]
  refine ⟨_, _, _, rfl, ?_, h.reader, h.base, h.tail, ?_⟩
  · rw [hholds.readAt (Nat.le_max_right _ _) (by omega)]
    have htailStream := h.tail
    exact ⟨by omega, List.take_prefix _ _⟩
  · intro inode' hcached
    cases hcached
    exact ⟨payload, hholds, htail⟩

end

/-! ### Runs -/

/-- What holds between the two logs, their disk and the stream after any calls. -/
structure Shared (s : SharedLog) : Prop where
  stored : Stored s.stream s.disk
  archive : Archive s.stream s.disk
  writer : ∀ log, s.writer = some log → Intact s.stream s.disk log
  reader : ∀ log, s.reader = some log → View s.stream s.disk log

/-- A call is safe when it is no read, or a read of a window its view can read. -/
def ReadSafe (s : SharedLog) : SharedOp → Prop
  | .read fromOffset maxBytes =>
    ∀ log, s.reader = some log → WindowSafe s.disk log fromOffset maxBytes
  | _ => True

theorem shared_start : Shared SharedLog.start where
  stored := stored_empty
  archive := fun _ h => absurd h (Nat.not_lt_zero _)
  writer := fun _ h => nomatch h
  reader := fun _ h => nomatch h

theorem Intact.openLog_disk {stream : List UInt8} {disk : Disk} {log : OutputLog}
    (h : Intact stream disk log) (hlen : stream.length < 2 ^ 63)
    (ringCapacity diskCapacity : Nat) (readOnly : Bool) :
    (OutputLog.openLog disk ringCapacity diskCapacity readOnly).1 = disk := by
  obtain ⟨inode, payload, hfile⟩ := h.file
  unfold OutputLog.openLog OutputLog.openOrRecover
  rw [hfile.spill.existing hlen]

/-- The bytes a call appends. -/
def SharedOp.data : SharedOp → List UInt8
  | .append data => data
  | _ => []

/-- A safe call does not panic, and keeps the two logs in agreement. -/
theorem Shared.step {s : SharedLog} (h : Shared s) {op : SharedOp} (hsafe : ReadSafe s op)
    (hlen : (s.stream ++ op.data).length < 2 ^ 63) :
    ∃ s', s.step op = some s' ∧ Shared s' ∧ s'.stream.length ≤ (s.stream ++ op.data).length := by
  have hlen' : s.stream.length < 2 ^ 63 := by
    rw [List.length_append] at hlen
    omega
  cases op with
  | openWriter ringCapacity diskCapacity =>
    obtain ⟨harchive, hgrows, hstored⟩ :=
      archive_openLog h.stored h.archive hlen' ringCapacity diskCapacity false
    refine ⟨_, rfl, ⟨hstored, harchive, ?_, ?_⟩, by simp⟩
    · intro log hlog
      cases hlog
      exact intact_openLog h.stored hlen' ringCapacity diskCapacity
    · intro log hlog
      exact (h.reader log hlog).grows hgrows (Nat.le_refl _)
  | append data =>
    unfold SharedLog.step
    cases hwriter : s.writer with
    | none => exact ⟨s, rfl, h, by simp⟩
    | some log =>
      have hintact := h.writer log hwriter
      obtain ⟨harchive, hgrows⟩ := hintact.archive_append h.archive hlen' data
      have hintact' := hintact.append data
      refine ⟨_, rfl, ⟨hintact'.stored, harchive, ?_, ?_⟩, Nat.le_refl _⟩
      · intro log' hlog'
        cases hlog'
        exact hintact'
      · intro log' hlog'
        exact (h.reader log' hlog').grows hgrows (by simp)
  | openReader ringCapacity diskCapacity =>
    obtain ⟨harchive, hgrows, hstored⟩ :=
      archive_openLog h.stored h.archive hlen' ringCapacity diskCapacity true
    refine ⟨_, rfl, ⟨hstored, harchive, ?_, ?_⟩, by simp⟩
    · intro log hlog
      have hintact := h.writer log hlog
      show Intact s.stream (OutputLog.openLog s.disk ringCapacity diskCapacity true).1 log
      rw [hintact.openLog_disk hlen']
      exact hintact
    · intro log hlog
      cases hlog
      exact view_openLog h.stored hlen' ringCapacity diskCapacity
  | refresh =>
    refine ⟨_, rfl, ⟨h.stored, h.archive, h.writer, ?_⟩, by simp⟩
    intro log hlog
    obtain ⟨log', hreader, rfl⟩ := Option.map_eq_some_iff.mp hlog
    exact (h.reader log' hreader).refresh h.archive h.stored hlen'
  | invalidate =>
    refine ⟨_, rfl, ⟨h.stored, h.archive, h.writer, ?_⟩, by simp⟩
    intro log hlog
    obtain ⟨log', hreader, rfl⟩ := Option.map_eq_some_iff.mp hlog
    exact (h.reader log' hreader).invalidate
  | read fromOffset maxBytes =>
    unfold SharedLog.step
    cases hreader : s.reader with
    | none => exact ⟨s, rfl, h, by simp⟩
    | some log =>
      obtain ⟨offset, bytes, log', hread, -, hview⟩ :=
        (h.reader log hreader).read h.stored hlen' (hsafe log hreader)
      refine ⟨{ s with reader := some log' }, by simp [hread], ⟨h.stored, h.archive, h.writer, ?_⟩,
        by simp⟩
      intro log'' hlog''
      cases hlog''
      exact hview

/-- Every read of a run meets a view that can read its window. -/
def SafeRun : SharedLog → List SharedOp → Prop
  | _, [] => True
  | s, op :: ops => ReadSafe s op ∧ ∀ s', s.step op = some s' → SafeRun s' ops

/-- All the bytes the calls append. -/
def appended (ops : List SharedOp) : List UInt8 := (ops.map SharedOp.data).flatten

theorem Shared.run : ∀ {ops : List SharedOp} {s : SharedLog}, Shared s → SafeRun s ops →
    (s.stream ++ appended ops).length < 2 ^ 63 →
      ∃ s', s.run ops = some s' ∧ Shared s' ∧ s'.stream.length < 2 ^ 63 := by
  intro ops
  induction ops with
  | nil =>
    intro s h _ hlen
    exact ⟨s, rfl, h, by simpa [appended] using hlen⟩
  | cons op ops ih =>
    intro s h hsafe hlen
    have hsum : (s.stream ++ appended (op :: ops)).length
        = (s.stream ++ op.data).length + (appended ops).length := by
      simp [appended, Nat.add_assoc]
    obtain ⟨next, hnext, hshared, hle⟩ := h.step hsafe.1 (by omega)
    obtain ⟨s', hrun, hshared', hlen'⟩ := ih hshared (hsafe.2 next hnext)
      (by rw [List.length_append]; omega)
    refine ⟨s', ?_, hshared', hlen'⟩
    rw [SharedLog.run, List.foldlM_cons, hnext]
    exact hrun

theorem SafeRun.split : ∀ {front back : List SharedOp} {s s' : SharedLog},
    SafeRun s (front ++ back) → s.run front = some s' → SafeRun s' back := by
  intro front
  induction front with
  | nil =>
    intro back s s' h hrun
    cases hrun
    exact h
  | cons op front ih =>
    intro back s s' h hrun
    rw [SharedLog.run, List.foldlM_cons] at hrun
    obtain ⟨next, hnext, hrest⟩ := Option.bind_eq_some_iff.mp hrun
    exact ih (h.2 next hnext) hrest

theorem SafeRun.front : ∀ {front back : List SharedOp} {s : SharedLog},
    SafeRun s (front ++ back) → SafeRun s front := by
  intro front
  induction front with
  | nil =>
    intro back s _
    exact trivial
  | cons op front ih =>
    intro back s h
    exact ⟨h.1, fun s' hs' => ih (h.2 s' hs')⟩

/--
**A read-only view reads true bytes wherever its windows are safe.**  In every interleaving
of a writer's opens, appends and rotations with a reader's opens, refreshes, invalidations
and reads, with fewer than 2^63 bytes appended and every read safe, no call panics and each
read returns bytes of the stream at the offset it reports.
-/
theorem log_reader_true_bytes (ops : List SharedOp) (hsafe : SafeRun SharedLog.start ops)
    (hlen : (appended ops).length < 2 ^ 63) :
    (SharedLog.start.run ops).isSome = true ∧
    ∀ front fromOffset maxBytes back, ops = front ++ .read fromOffset maxBytes :: back →
      ∃ s, SharedLog.start.run front = some s ∧ ∀ log, s.reader = some log →
        ∃ offset bytes log', OutputLog.read s.disk log fromOffset maxBytes
            = some ((offset, bytes), log') ∧ Sits s.stream offset bytes := by
  refine ⟨?_, ?_⟩
  · obtain ⟨s, hrun, -⟩ := shared_start.run hsafe hlen
    rw [hrun]
    rfl
  · rintro front fromOffset maxBytes back rfl
    have hfront : (appended front).length ≤ (appended (front ++ .read fromOffset maxBytes :: back)).length := by
      simp [appended]
    obtain ⟨s, hrun, hshared, hslen⟩ := shared_start.run hsafe.front (by
      show (appended front).length < 2 ^ 63
      omega)
    refine ⟨s, hrun, ?_⟩
    intro log hlog
    have hread := (hsafe.split hrun).1 log hlog
    obtain ⟨offset, bytes, log', hread', hsits, -⟩ :=
      (hshared.reader log hlog).read hshared.stored hslen hread
    exact ⟨offset, bytes, log', hread', hsits⟩

/-- A view opened before a rotation reads on in the retired file, then follows the new one. -/
def followedRotation : List SharedOp :=
  [.openWriter 4 8, .append [0, 1, 2, 3, 4, 5], .openReader 4 8, .append [6, 7, 8, 9], .refresh,
    .read 2 3, .invalidate, .refresh, .read 7 2]

theorem log_reader_true_bytes_followed :
    (SharedLog.start.run followedRotation).isSome = true ∧
    ∃ s, SharedLog.start.run (followedRotation.take 8) = some s ∧
      ∀ log, s.reader = some log → ∃ offset bytes log',
        OutputLog.read s.disk log 7 2 = some ((offset, bytes), log') ∧
          Sits s.stream offset bytes := by
  have hsafe : SafeRun SharedLog.start followedRotation := by
    refine ⟨trivial, fun _ h => ?_⟩
    cases h
    refine ⟨trivial, fun _ h => ?_⟩
    cases h
    refine ⟨trivial, fun _ h => ?_⟩
    cases h
    refine ⟨trivial, fun _ h => ?_⟩
    cases h
    refine ⟨trivial, fun _ h => ?_⟩
    cases h
    refine ⟨fun _ h => ?_, fun _ h => ?_⟩
    · cases h
      exact Or.inr (by decide)
    cases h
    refine ⟨trivial, fun _ h => ?_⟩
    cases h
    refine ⟨trivial, fun _ h => ?_⟩
    cases h
    refine ⟨fun _ h => ?_, fun _ _ => trivial⟩
    cases h
    exact Or.inr (by decide)
  have h := log_reader_true_bytes followedRotation hsafe (by decide)
  exact ⟨h.1, h.2 (followedRotation.take 8) 7 2 [] rfl⟩

/--
A view opened before there was a file keeps zero as its ring start.  Once the writer has
rotated and the view has refreshed, asking for the first byte underflows.
-/
theorem log_reader_underflows :
    ((SharedLog.start.run [.openReader 4 8, .openWriter 4 8, .append [0, 1, 2, 3, 4, 5],
        .append [6, 7, 8, 9], .refresh]).bind fun s => s.reader.map fun log =>
      (log.fileBaseOffset, log.tailOffset, log.oldestAvailable,
        (OutputLog.read s.disk log 0 1).isNone)) = some (6, 10, 0, true) := by
  decide

end Homie
