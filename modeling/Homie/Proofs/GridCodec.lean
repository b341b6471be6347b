/-
The data-channel codec does not see chunk boundaries.

The codec is headed framing: it looks at a five-byte header and then at as many
bytes as it announces, so the chunking law is the library's.  What is left to show
is that `encode` and the header check agree.
-/
import Homie.Proto.Frames
import Homie.Proto.Grid

namespace Homie

open Bytes

/-! ### Typed frames read back -/

namespace Frame

end Frame

/-! ### The codec -/

theorem FrameType.tryFrom_toU8 (frameType : FrameType) :
    tryFrom frameType.toU8 = .ok frameType := by
  cases frameType <;> rfl

namespace FrameCodec

theorem next_lawful : Framing.Lawful next := Framing.headed_lawful _ _

/-- What `encode` accepts is one frame of the stream. -/
theorem encode_encodes {frame : Frame} {bytes : List UInt8} (h : encode frame = .ok bytes) :
    Framing.Encodes next frame bytes := by
  simp only [encode] at h
  split at h
  · cases h
  · rename_i hmax
    split at h
    · cases h
    · rename_i hfits
      cases h
      have haccept : accept frame.frameType.toU8 frame.payload.length = .ok frame.frameType := by
        simp only [accept, FrameType.tryFrom_toU8, if_neg hmax]
      exact Framing.headed_encodes (by omega) haccept rfl

/-- `feed` is the library's decoder over the buffered bytes. -/
theorem feedAll_eq (codec : FrameCodec) (chunks : List (List UInt8)) :
    codec.feedAll chunks = match Framing.feedChunks next codec.buffer chunks with
      | .error e => .error e
      | .ok (frames, residue) => .ok (frames, ⟨residue⟩) := by
  induction chunks generalizing codec with
  | nil => rfl
  | cons chunk chunks ih =>
    rw [feedAll, Framing.feedChunks, feed]
    cases Framing.decode next (codec.buffer ++ chunk) with
    | error e => rfl
    | ok taken =>
      simp only
      rw [ih]
      cases Framing.feedChunks next taken.2 chunks <;> rfl

end FrameCodec

/--
**Chunk boundaries do not matter to the data channel.**  Any two ways of cutting a
byte string give a fresh codec the same frames and the same residue, or the same
error; and the concatenated encodings of any encodable frames come back as exactly
those frames, with nothing left in the buffer.
-/
theorem frame_codec_chunking :
    (∀ chunks chunks' : List (List UInt8), chunks.flatten = chunks'.flatten →
      FrameCodec.new.feedAll chunks = FrameCodec.new.feedAll chunks') ∧
    (∀ (frames : List Frame) (encodings : List (List UInt8)),
      frames.mapM FrameCodec.encode = .ok encodings →
        FrameCodec.new.feed encodings.flatten = (.ok frames, FrameCodec.new)) := by
  refine ⟨?_, ?_⟩
  · intro chunks chunks' h
    have hempty : FrameCodec.next FrameCodec.new.buffer = .ok none := rfl
    rw [FrameCodec.feedAll_eq, FrameCodec.feedAll_eq,
      Framing.feedChunks_eq FrameCodec.next_lawful _ _ hempty,
      Framing.feedChunks_eq FrameCodec.next_lawful _ _ hempty, h]
  · intro frames encodings h
    have hall : List.Forall₂ (Framing.Encodes FrameCodec.next) frames encodings :=
      (Framing.forall₂_of_mapM h).imp fun _ _ => FrameCodec.encode_encodes
    have hdecode := Framing.decode_flatten FrameCodec.next_lawful hall
    show FrameCodec.feed ⟨[]⟩ encodings.flatten = _
    rw [FrameCodec.feed]
    simp only [List.nil_append, hdecode]
    rfl

/-- A ping and a two-byte input, encoded back to back and cut inside the second header. -/
theorem frame_codec_chunking_ping_input :
    [Frame.ping, Frame.input [104, 105]].mapM FrameCodec.encode
      = .ok [[6, 0, 0, 0, 0], [2, 0, 0, 0, 2, 104, 105]] ∧
    FrameCodec.new.feed [6, 0, 0, 0, 0, 2, 0, 0, 0, 2, 104, 105]
      = (.ok [Frame.ping, Frame.input [104, 105]], FrameCodec.new) ∧
    FrameCodec.new.feedAll [[6, 0, 0, 0, 0, 2, 0], [0, 0, 2, 104, 105]]
      = FrameCodec.new.feedAll [[6, 0, 0, 0, 0, 2, 0, 0, 0, 2, 104, 105]] := by
  have hencode : [Frame.ping, Frame.input [104, 105]].mapM FrameCodec.encode
      = .ok [[6, 0, 0, 0, 0], [2, 0, 0, 0, 2, 104, 105]] := by rfl
  exact ⟨hencode, frame_codec_chunking.2 _ _ hencode, frame_codec_chunking.1 _ _ rfl⟩

/-! ### What the codec accepts -/

theorem FrameType.toU8_of_tryFrom {value : UInt8} {frameType : FrameType}
    (h : tryFrom value = .ok frameType) : frameType.toU8 = value := by
  unfold tryFrom at h
  split at h <;> cases h
  all_goals
    rename_i hvalue
    exact UInt8.toNat_inj.mp hvalue.symm

namespace FrameCodec

/-- The bytes of a frame on the wire. -/
def spell (frame : Frame) : List UInt8 :=
  frame.frameType.toU8 :: (u32Be (UInt32.ofNat frame.payload.length) ++ frame.payload)

theorem accept_ok {kind : UInt8} {length : Nat} {frameType : FrameType}
    (h : accept kind length = .ok frameType) :
    frameType.toU8 = kind ∧ length ≤ maxFrameBytes := by
  unfold accept at h
  split at h
  · exact nomatch h
  · next heq =>
    split at h
    · exact nomatch h
    · next hmax =>
      cases h
      exact ⟨FrameType.toU8_of_tryFrom heq, Nat.not_lt.mp hmax⟩

/-- A frame that is taken off the buffer is spelled by the bytes it took. -/
theorem next_spells {buffer : List UInt8} {frame : Frame} {rest : List UInt8}
    (h : next buffer = .ok (some (frame, rest))) :
    frame.payload.length ≤ maxFrameBytes ∧ buffer = spell frame ++ rest := by
  obtain ⟨kind, l0, l1, l2, l3, body, header, rfl, haccept, hbody, hfinish, rfl⟩ :=
    Framing.headed_some h
  obtain ⟨rfl, hmax⟩ := accept_ok haccept
  cases hfinish
  have hlength : (body.take (readU32Be [l0, l1, l2, l3]).toNat).length
      = (readU32Be [l0, l1, l2, l3]).toNat := List.length_take_of_le hbody
  refine ⟨Nat.le_trans (Nat.le_of_eq hlength) hmax, ?_⟩
  unfold spell
  dsimp only
  rw [hlength, UInt32.ofNat_toNat, u32Be_readU32Be rfl]
  simp

/-- What is kept for the next chunk is shorter than a frame may be. -/
theorem residue_short {residue : List UInt8} (h : next residue = .ok none) :
    residue.length < 5 + maxFrameBytes := by
  rcases residue with _ | ⟨kind, _ | ⟨l0, _ | ⟨l1, _ | ⟨l2, _ | ⟨l3, body⟩⟩⟩⟩⟩
  iterate 5
    · simp only [List.length_cons, List.length_nil]
      omega
  · simp only [next, Framing.headed] at h
    cases haccept : accept kind (readU32Be [l0, l1, l2, l3]).toNat with
    | error e =>
      rw [haccept] at h
      cases h
    | ok header =>
      rw [haccept] at h
      have hmax := (accept_ok haccept).2
      dsimp only at h
      split at h
      · simp only [List.length_cons]
        omega
      · cases h

theorem encode_spell {frame : Frame} (h : frame.payload.length ≤ maxFrameBytes) :
    encode frame = .ok (spell frame) := by
  have hmax : maxFrameBytes < 2 ^ 32 := by decide
  unfold encode
  rw [if_neg (Nat.not_lt.mpr h)]
  exact if_neg (Nat.not_le.mpr (Nat.lt_of_le_of_lt h hmax))

theorem mapM_encode {frames : List Frame}
    (h : ∀ frame ∈ frames, frame.payload.length ≤ maxFrameBytes) :
    frames.mapM encode = .ok (frames.map spell) := by
  induction frames with
  | nil => rfl
  | cons frame frames ih =>
    obtain ⟨hframe, hrest⟩ := List.forall_mem_cons.mp h
    rw [List.mapM_cons, encode_spell hframe, ih hrest]
    rfl

/-- **What the codec accepts, it could have written.** However the bytes arrive, the frames they
decode to encode back to exactly these bytes, up to a residue that is shorter than a frame. -/
theorem frame_codec_canonical {chunks : List (List UInt8)} {frames : List Frame}
    {last : FrameCodec} (h : FrameCodec.new.feedAll chunks = .ok (frames, last)) :
    ∃ encodings, frames.mapM encode = .ok encodings ∧
      chunks.flatten = encodings.flatten ++ last.buffer ∧
      last.buffer.length < 5 + maxFrameBytes := by
  have hempty : next FrameCodec.new.buffer = .ok none := rfl
  rw [feedAll_eq, Framing.feedChunks_eq next_lawful _ _ hempty] at h
  cases hdecode : Framing.decode next (FrameCodec.new.buffer ++ chunks.flatten) with
  | error e =>
    rw [hdecode] at h
    exact nomatch h
  | ok decoded =>
    rw [hdecode] at h
    cases h
    obtain ⟨hfits, hbytes⟩ := Framing.decode_spells next_lawful next_spells hdecode
    exact ⟨_, mapM_encode hfits, hbytes,
      residue_short (Framing.next_residue next_lawful _ _ (Nat.le_refl _) _ _ hdecode)⟩

/-- A ping, and the header of an input that has not arrived. -/
theorem frame_codec_canonical_ping : ∃ encodings,
    [Frame.ping].mapM encode = .ok encodings ∧
      [[6, 0, 0], [0, 0, 2, 0, 0, 0, 2]].flatten = encodings.flatten ++ [2, 0, 0, 0, 2] ∧
      ([2, 0, 0, 0, 2] : List UInt8).length < 5 + maxFrameBytes := by
  have hfeed : FrameCodec.new.feedAll [[6, 0, 0], [0, 0, 2, 0, 0, 0, 2]]
      = .ok ([Frame.ping], ⟨[2, 0, 0, 0, 2]⟩) := by rfl
  exact frame_codec_canonical hfeed

end FrameCodec

end Homie

/-! ### The grid wire format

Every field of an update is written by one function and read by another, both by
hand, so the round trip is proved field by field: each reader is shown to return
its value at exactly the bytes the writer produced (`Reader.Reads`), and the whole
record follows by composition.  The same composition shows that no reader looks
past where it stops (`Reader.Local`), which is what refuses every truncation.

The one loop with arithmetic in it is the run-length code.  `expand_rowRuns` says
that expanding the runs of a row gives the row back, and `readRuns_reads` carries
the running cell count that keeps the decoder's width check silent.
-/

namespace Homie

open Bytes Reader

/-! ### Single fields -/

theorem TermColor.unpack_packed (color : TermColor) : unpack color.packed = color := by
  cases color with
  | default => decide
  | defaultInverted => decide
  | ansi c =>
    have hpack : (ansi c).packed = pack 2 0 0 c := by
      simp [packed, pack]
    obtain ⟨-, -, hc⟩ := pack_payload 2 0 0 c
    rw [hpack, unpack, pack_tag, hc]
    rfl
  | rgb r g b =>
    have hpack : (rgb r g b).packed = pack 3 r g b := rfl
    obtain ⟨hr, hg, hb⟩ := pack_payload 3 r g b
    rw [hpack, unpack, pack_tag, hr, hg, hb]
    rfl

theorem Cursor.u16_reads (v : UInt16) : Reads Cursor.u16 (u16Be v) v := by
  have h := (Reads.take GridCodecError.unexpectedEnd (length_u16Be v)).map readU16Be
  rwa [readU16Be_u16Be] at h

theorem Cursor.u32_reads (v : UInt32) : Reads Cursor.u32 (u32Be v) v := by
  have h := (Reads.take GridCodecError.unexpectedEnd (length_u32Be v)).map readU32Be
  rwa [readU32Be_u32Be] at h

theorem Cursor.u8_reads (v : UInt8) : Reads Cursor.u8 [v] v :=
  (Reads.take GridCodecError.unexpectedEnd (n := 1) rfl).map fun bytes => bytes.headD 0

theorem Cursor.u8_local : Local Cursor.u8 := (Local.take _ 1).map _
theorem Cursor.u16_local : Local Cursor.u16 := (Local.take _ 2).map _
theorem Cursor.u32_local : Local Cursor.u32 := (Local.take _ 4).map _

theorem GridUpdate.flags_bits (u : GridUpdate) :
    (u.flags &&& 1 != 0) = u.cursorVisible ∧ (u.flags &&& 2 != 0) = u.isFullSnapshot := by
  unfold GridUpdate.flags
  cases u.cursorVisible <;> cases u.isFullSnapshot <;> decide

namespace GridRowCodec

/-! ### Runs -/

/-- The cells a list of runs stands for. -/
def expand (runs : List (UInt16 × GridCell)) : List GridCell :=
  runs.flatMap fun run => List.replicate run.1.toNat run.2

theorem expand_runsFrom : ∀ (rest : List GridCell) (cell : GridCell) (count : UInt16),
    expand (runsFrom cell count rest) = List.replicate count.toNat cell ++ rest := by
  intro rest
  induction rest with
  | nil => intro cell count; simp [runsFrom, expand]
  | cons next rest ih =>
    intro cell count
    rw [runsFrom]
    split
    · rename_i h
      obtain ⟨rfl, hlt⟩ := h
      have hcount : (count + 1).toNat = count.toNat + 1 := by
        have : count.toNat < 65535 := by simpa using UInt16.lt_iff_toNat_lt.mp hlt
        rw [UInt16.toNat_add]
        exact Nat.mod_eq_of_lt (by simpa using (by omega : count.toNat + 1 < 65536))
      rw [ih, hcount, List.replicate_succ', List.append_assoc]
      rfl
    · have hrest := ih next 1
      simp only [expand, List.flatMap_cons] at hrest ⊢
      rw [hrest]
      rfl

theorem expand_rowRuns (cells : List GridCell) : expand (rowRuns cells) = cells := by
  cases cells with
  | nil => rfl
  | cons cell rest => exact expand_runsFrom rest cell 1

theorem length_runsFrom : ∀ (rest : List GridCell) (cell : GridCell) (count : UInt16),
    (runsFrom cell count rest).length ≤ rest.length + 1 := by
  intro rest
  induction rest with
  | nil => intro cell count; simp [runsFrom]
  | cons next rest ih =>
    intro cell count
    rw [runsFrom]
    split
    · exact Nat.le_succ_of_le (ih cell (count + 1))
    · simpa using ih next 1

/-- A row has no more runs than cells, so the run counter never overflows. -/
theorem length_rowRuns (cells : List GridCell) : (rowRuns cells).length ≤ cells.length := by
  cases cells with
  | nil => simp [rowRuns]
  | cons cell rest => exact length_runsFrom rest cell 1

theorem readRun_reads (run : UInt16 × GridCell) : Reads readRun (putRun run) run := by
  obtain ⟨count, scalar, fg, bg, style⟩ := run
  have hfg : Reads (TermColor.unpack <$> Cursor.u32) (u32Be fg.packed) fg := by
    simpa [TermColor.unpack_packed] using (Cursor.u32_reads fg.packed).map TermColor.unpack
  have hbg : Reads (TermColor.unpack <$> Cursor.u32) (u32Be bg.packed) bg := by
    simpa [TermColor.unpack_packed] using (Cursor.u32_reads bg.packed).map TermColor.unpack
  have hstyle : Reads (TermStyle.mk <$> Cursor.u16) (u16Be style.bits) style :=
    (Cursor.u16_reads style.bits).map TermStyle.mk
  have hlast := hstyle.bind
    (f := fun style => pure (count, (⟨scalar, fg, bg, style⟩ : GridCell))) (Reads.pure _)
  rw [List.append_nil] at hlast
  exact (Cursor.u16_reads count).bind ((Cursor.u32_reads scalar).bind (hfg.bind (hbg.bind hlast)))

theorem readRun_local : Local readRun :=
  Cursor.u16_local.bind fun _ => Cursor.u32_local.bind fun _ =>
    (Cursor.u32_local.map _).bind fun _ => (Cursor.u32_local.map _).bind fun _ =>
      (Cursor.u16_local.map _).bind fun _ => Local.pure _

/-! ### Rows -/

/-- The runs of a row read back behind `cells`, as long as the row stays within a `u16`. -/
theorem readRuns_reads : ∀ (runs : List (UInt16 × GridCell)) (cells : List GridCell),
    (cells ++ expand runs).length ≤ u16Max →
    Reads (readRuns runs.length cells) (runs.flatMap putRun) (cells ++ expand runs) := by
  intro runs
  induction runs with
  | nil =>
    intro cells _
    simpa [expand, readRuns] using Reads.pure (ε := GridCodecError) cells
  | cons run runs ih =>
    intro cells hlen
    have hexpand : cells ++ expand (run :: runs)
        = (cells ++ List.replicate run.1.toNat run.2) ++ expand runs := by
      simp [expand]
    rw [hexpand] at hlen ⊢
    have hfits : ¬ (cells.length + run.1.toNat > u16Max) := by
      simp only [List.length_append, List.length_replicate] at hlen
      omega
    refine (readRun_reads run).bind ?_
    simp only [if_neg hfits]
    exact ih _ hlen

theorem readRuns_local : ∀ (runs : Nat) (cells : List GridCell), Local (readRuns runs cells) := by
  intro runs
  induction runs with
  | zero => intro cells; exact Local.pure cells
  | succ runs ih =>
    intro cells
    exact readRun_local.bind fun run => Local.ite (Local.throw _) (ih _)

theorem readRuns_returns : ∀ (runs : Nat) (cells : List GridCell), cells.length ≤ u16Max →
    Returns (readRuns runs cells) fun row => row.length ≤ u16Max := by
  intro runs
  induction runs with
  | zero =>
    intro cells hle c v c' h
    rw [readRuns, pure_apply] at h
    cases h
    exact hle
  | succ runs ih =>
    intro cells hle
    refine Returns.bind fun run => ?_
    simp only
    split
    · intro c v c' h
      rw [throw_apply] at h
      cases h
    · rename_i hfits
      refine ih _ ?_
      simp only [List.length_append, List.length_replicate]
      omega

/-- The bytes `append_row` writes for a row. -/
def rowBytes (cells : List GridCell) : List UInt8 :=
  u16Be (UInt16.ofNat (rowRuns cells).length) ++ (rowRuns cells).flatMap putRun

theorem length_putRun (run : UInt16 × GridCell) : (putRun run).length = 16 := by
  simp [putRun]

theorem length_rowBytes_runs (cells : List GridCell) :
    (rowBytes cells).length = 2 + 16 * (rowRuns cells).length := by
  have hbody : ((rowRuns cells).flatMap putRun).length = 16 * (rowRuns cells).length := by
    rw [List.length_flatMap, List.map_congr_left fun run _ => length_putRun run, List.map_const',
      List.sum_replicate_nat, Nat.mul_comm]
  rw [rowBytes, List.length_append, hbody, Bytes.length_u16Be]

theorem readRow_reads {cells : List GridCell} (hlen : cells.length ≤ u16Max) :
    Reads readRowFromCursor (rowBytes cells) cells := by
  have hcount : (UInt16.ofNat (rowRuns cells).length).toNat = (rowRuns cells).length := by
    have := length_rowRuns cells
    exact UInt16.toNat_ofNat_of_lt' (by simp only [u16Max] at hlen; simp [UInt16.size]; omega)
  refine (Cursor.u16_reads _).bind ?_
  rw [hcount]
  have h := readRuns_reads (rowRuns cells) [] (by simpa [expand_rowRuns] using hlen)
  simpa [expand_rowRuns] using h

theorem readRow_local : Local readRowFromCursor :=
  Cursor.u16_local.bind fun _ => readRuns_local _ _

theorem readRow_returns : Returns readRowFromCursor fun row => row.length ≤ u16Max :=
  Returns.bind fun _ => readRuns_returns _ [] (by simp [u16Max])

/--
What folding `append_row` over a list accepts, and what it then wrote: `lead` is
what goes in front of each row, nothing for a scrollback block and the row index
for an update.
-/
theorem foldlM_appendRow {α : Type} (lead : α → List UInt8) (cells : α → List GridCell) :
    ∀ (rows : List α) (encoded bytes : List UInt8),
      rows.foldlM (fun encoded row => appendRow (cells row) (encoded ++ lead row)) encoded
          = .ok bytes →
        (∀ row ∈ rows, (cells row).length ≤ u16Max) ∧
        bytes = encoded ++ rows.flatMap fun row => lead row ++ rowBytes (cells row) := by
  intro rows
  induction rows with
  | nil =>
    intro encoded bytes h
    cases h
    simp
  | cons row rows ih =>
    intro encoded bytes h
    rw [List.foldlM_cons] at h
    by_cases hlong : (cells row).length > u16Max
    · simp only [appendRow, if_pos hlong] at h
      cases h
    · simp only [appendRow, if_neg hlong] at h
      obtain ⟨hall, hbytes⟩ := ih _ _ h
      refine ⟨?_, ?_⟩
      · intro r hr
        rcases List.mem_cons.mp hr with rfl | hr'
        · exact Nat.le_of_not_lt hlong
        · exact hall r hr'
      · rw [hbytes]
        simp [rowBytes, List.append_assoc]

/-- Rows that are not too wide are all accepted. -/
theorem foldlM_appendRow_ok {α : Type} (lead : α → List UInt8) (cells : α → List GridCell) :
    ∀ {rows : List α} (encoded : List UInt8), (∀ row ∈ rows, (cells row).length ≤ u16Max) →
      rows.foldlM (fun encoded row => appendRow (cells row) (encoded ++ lead row)) encoded
        = .ok (encoded ++ rows.flatMap fun row => lead row ++ rowBytes (cells row))
  | [], encoded, _ => by simp [pure, Except.pure]
  | row :: rows, encoded, hrows => by
    have hrow : appendRow (cells row) (encoded ++ lead row)
        = .ok (encoded ++ lead row ++ rowBytes (cells row)) :=
      if_neg (Nat.not_lt.mpr (hrows row List.mem_cons_self))
    rw [List.foldlM_cons, hrow]
    change rows.foldlM _ (encoded ++ lead row ++ rowBytes (cells row)) = _
    rw [foldlM_appendRow_ok lead cells _ fun other hother =>
        hrows other (List.mem_cons_of_mem _ hother),
      List.flatMap_cons, List.append_assoc, List.append_assoc, List.append_assoc]

theorem encodeRows_reads {rows : List (List GridCell)} {bytes : List UInt8}
    (h : encodeRows rows = .ok bytes) :
    Reads (times readRowFromCursor rows.length) bytes rows := by
  have hfold : rows.foldlM (fun encoded row => appendRow (id row) (encoded ++ [])) [] = .ok bytes := by
    simpa [encodeRows] using h
  obtain ⟨hall, rfl⟩ := foldlM_appendRow (fun _ => []) id rows [] bytes hfold
  exact Reads.times fun row hrow => readRow_reads (hall row hrow)

end GridRowCodec

/-! ### Updates -/

open GridRowCodec in
theorem GridUpdate.encode_reads {u : GridUpdate} {bytes : List UInt8}
    (h : u.encode = .ok bytes) : Reads GridUpdate.read bytes u := by
  by_cases hmany : u.changedRows.length > u16Max
  · simp only [encode, if_pos hmany] at h
    cases h
  simp only [encode, if_neg hmany] at h
  obtain ⟨hall, rfl⟩ := foldlM_appendRow (fun row : ChangedRow => u16Be row.y)
    (fun row => row.cells) u.changedRows _ bytes h
  have hrow : ∀ row ∈ u.changedRows,
      Reads ChangedRow.read (u16Be row.y ++ rowBytes row.cells) row := by
    intro row hmem
    refine (Cursor.u16_reads row.y).bind ?_
    have hcells := (readRow_reads (hall row hmem)).bind
      (f := fun cells => pure (⟨row.y, cells⟩ : ChangedRow)) (Reads.pure _)
    rwa [List.append_nil] at hcells
  have hcount : (UInt16.ofNat u.changedRows.length).toNat = u.changedRows.length :=
    UInt16.toNat_ofNat_of_lt' (by simp only [u16Max] at hmany; simp [UInt16.size]; omega)
  obtain ⟨hvisible, hfull⟩ := u.flags_bits
  have hrows : Reads
      (times ChangedRow.read (UInt16.ofNat u.changedRows.length).toNat >>= fun changedRows =>
        pure (⟨u.cols, u.rows, u.cursorCol, u.cursorRow, u.flags &&& 1 != 0,
          u.flags &&& 2 != 0, changedRows⟩ : GridUpdate))
      (u.changedRows.flatMap fun row => u16Be row.y ++ rowBytes row.cells) u := by
    rw [hcount, hvisible, hfull]
    have hdone := (Reads.times hrow).bind
      (f := fun changedRows => pure (⟨u.cols, u.rows, u.cursorCol, u.cursorRow, u.cursorVisible,
        u.isFullSnapshot, changedRows⟩ : GridUpdate)) (Reads.pure _)
    rwa [List.append_nil] at hdone
  simp only [List.append_assoc]
  refine (Cursor.u16_reads u.cols).bind ((Cursor.u16_reads u.rows).bind ?_)
  refine (Cursor.u16_reads u.cursorCol).bind ((Cursor.u16_reads u.cursorRow).bind ?_)
  exact (Cursor.u8_reads u.flags).bind ((Cursor.u16_reads _).bind hrows)

theorem ChangedRow.read_local : Local ChangedRow.read :=
  Cursor.u16_local.bind fun _ => GridRowCodec.readRow_local.bind fun _ => Local.pure _

theorem GridUpdate.read_local : Local GridUpdate.read :=
  Cursor.u16_local.bind fun _ => Cursor.u16_local.bind fun _ => Cursor.u16_local.bind fun _ =>
    Cursor.u16_local.bind fun _ => Cursor.u8_local.bind fun _ => Cursor.u16_local.bind fun _ =>
      (Local.times ChangedRow.read_local _).bind fun _ => Local.pure _

theorem ChangedRow.read_returns : Returns ChangedRow.read fun row => row.cells.length ≤ u16Max := by
  refine Returns.bind fun y => ?_
  intro c v c' h
  obtain ⟨cells, mid, hcells, hdone⟩ := bind_ok h
  rw [pure_apply] at hdone
  cases hdone
  exact GridRowCodec.readRow_returns _ _ _ hcells

theorem GridUpdate.read_returns :
    Returns GridUpdate.read fun u => ∀ row ∈ u.changedRows, row.cells.length ≤ u16Max := by
  refine Returns.bind fun cols => Returns.bind fun rows => Returns.bind fun cursorCol =>
    Returns.bind fun cursorRow => Returns.bind fun flags => Returns.bind fun rowCount => ?_
  intro c v c' h
  obtain ⟨changedRows, mid, hrows, hdone⟩ := bind_ok h
  rw [pure_apply] at hdone
  cases hdone
  exact Returns.times ChangedRow.read_returns _ _ _ _ hrows

private theorem map_fst_ok {ε α : Type} {p : Reader ε α} {c : Cursor} {v : α}
    (h : (·.1) <$> p c = .ok v) : ∃ c', p c = .ok (v, c') := by
  cases hp : p c with
  | error e => rw [hp] at h; cases h
  | ok r =>
    rw [hp] at h
    cases h
    exact ⟨r.2, rfl⟩

/--
**The grid wire format round-trips and refuses truncation.**  Whatever the update
encoder or the scrollback row encoder accepts decodes to itself, every strict
prefix of such an encoding is an error, and no payload at all decodes to a row
wider than a `u16`.
-/
theorem grid_wire_round_trip :
    (∀ (u : GridUpdate) (bytes : List UInt8), u.encode = .ok bytes →
      GridUpdate.decode bytes = .ok u ∧
      ∀ short, short <+: bytes → short ≠ bytes → ∃ e, GridUpdate.decode short = .error e) ∧
    (∀ (rows : List (List GridCell)) (bytes : List UInt8),
      GridRowCodec.encodeRows rows = .ok bytes →
        GridRowCodec.decodeRows bytes rows.length = .ok rows ∧
        ∀ short, short <+: bytes → short ≠ bytes →
          ∃ e, GridRowCodec.decodeRows short rows.length = .error e) ∧
    (∀ (payload : List UInt8) (u : GridUpdate), GridUpdate.decode payload = .ok u →
      ∀ row ∈ u.changedRows, row.cells.length ≤ 65535) := by
  refine ⟨?_, ?_, ?_⟩
  · intro u bytes h
    have hreads := GridUpdate.encode_reads h
    refine ⟨by rw [GridUpdate.decode, hreads.run]; rfl, ?_⟩
    intro short hpre hne
    obtain ⟨e, he⟩ := hreads.prefix_rejected GridUpdate.read_local hpre hne
    exact ⟨e, by rw [GridUpdate.decode, he]; rfl⟩
  · intro rows bytes h
    have hreads := GridRowCodec.encodeRows_reads h
    refine ⟨by rw [GridRowCodec.decodeRows, hreads.run]; rfl, ?_⟩
    intro short hpre hne
    obtain ⟨e, he⟩ := hreads.prefix_rejected (Local.times GridRowCodec.readRow_local _) hpre hne
    exact ⟨e, by rw [GridRowCodec.decodeRows, he]; rfl⟩
  · intro payload u h
    obtain ⟨c, hc⟩ := map_fst_ok h
    exact GridUpdate.read_returns _ _ _ hc

/-- One blank row of a two-column screen, whole and cut after its ninth byte. -/
theorem grid_wire_round_trip_blank_row :
    (⟨2, 1, 0, 0, true, true, [⟨0, [.blank, .blank]⟩]⟩ : GridUpdate).encode
      = .ok [0, 2, 0, 1, 0, 0, 0, 0, 3, 0, 1, 0, 0, 0, 1, 0, 2, 0, 0, 0, 32, 0, 0, 0, 0,
          1, 0, 0, 0, 0, 0] ∧
    GridUpdate.decode [0, 2, 0, 1, 0, 0, 0, 0, 3, 0, 1, 0, 0, 0, 1, 0, 2, 0, 0, 0, 32, 0, 0,
          0, 0, 1, 0, 0, 0, 0, 0]
      = .ok ⟨2, 1, 0, 0, true, true, [⟨0, [.blank, .blank]⟩]⟩ ∧
    (∃ e, GridUpdate.decode [0, 2, 0, 1, 0, 0, 0, 0, 3] = .error e) ∧
    GridRowCodec.decodeRows [0, 1, 0, 2, 0, 0, 0, 32, 0, 0, 0, 0, 1, 0, 0, 0, 0, 0] 1
      = .ok [[.blank, .blank]] := by
  have hencode : (⟨2, 1, 0, 0, true, true, [⟨0, [.blank, .blank]⟩]⟩ : GridUpdate).encode
      = .ok [0, 2, 0, 1, 0, 0, 0, 0, 3, 0, 1, 0, 0, 0, 1, 0, 2, 0, 0, 0, 32, 0, 0, 0, 0,
          1, 0, 0, 0, 0, 0] := by rfl
  have hrows : GridRowCodec.encodeRows [[.blank, .blank]]
      = .ok [0, 1, 0, 2, 0, 0, 0, 32, 0, 0, 0, 0, 1, 0, 0, 0, 0, 0] := by rfl
  obtain ⟨hdecode, hshort⟩ := grid_wire_round_trip.1 _ _ hencode
  exact ⟨hencode, hdecode, hshort _ (by decide) (by decide),
    (grid_wire_round_trip.2.1 _ _ hrows).1⟩

end Homie
