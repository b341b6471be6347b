/-
How long a scrollback reply is.

A row of cells costs two bytes and sixteen for each run, so eighteen and sixteen for every cell
that differs from the one before it.  The payload is written in base64, four characters for
three bytes, and the text of a line costs two bytes for a tab, a quote or a backslash and its
UTF-8 bytes otherwise.  Everything else in a reply is the names of its members and a few numbers.
None of it is bounded by the code, so a reply fits a line exactly when the cells it is about do.
-/
import Homie.Client.EventStream
import Homie.Engine.Scrollback
import Homie.Proto.Control
import Homie.Proofs.Checkpoints
import Homie.Proofs.GridCodec

namespace Homie

open JsonText GridRowCodec

/-! ### Rows of cells -/

/-- How many cells differ from the one before them. -/
def cellChanges : List GridCell → Nat
  | cell :: next :: rest => (if next = cell then 0 else 1) + cellChanges (next :: rest)
  | _ => 0

theorem length_runsFrom_eq : ∀ (rest : List GridCell) (cell : GridCell) (count : UInt16),
    count.toNat + rest.length ≤ u16Max →
      (runsFrom cell count rest).length = cellChanges (cell :: rest) + 1
  | [], _, _, _ => rfl
  | next :: rest, cell, count, hfits => by
    rw [List.length_cons] at hfits
    have hlt : count < 0xffff := by
      rw [UInt16.lt_iff_toNat_lt]
      change count.toNat < 65535
      unfold u16Max at hfits
      omega
    have hcount : (count + 1).toNat = count.toNat + 1 := by
      rw [UInt16.toNat_add]
      unfold u16Max at hfits
      exact Nat.mod_eq_of_lt (by simpa using (by omega : count.toNat + 1 < 65536))
    rw [runsFrom, cellChanges]
    by_cases hsame : next = cell
    · rw [if_pos ⟨hsame, hlt⟩, if_pos hsame, Nat.zero_add, hsame]
      exact length_runsFrom_eq rest cell (count + 1) (by omega)
    · rw [if_neg (fun h => hsame h.1), if_neg hsame, List.length_cons,
        length_runsFrom_eq rest next 1 (by change 1 + rest.length ≤ u16Max; omega)]
      omega

theorem length_rowBytes {cells : List GridCell} (hne : cells ≠ [])
    (hfits : cells.length ≤ u16Max) : (rowBytes cells).length = 18 + 16 * cellChanges cells := by
  have hruns : (rowRuns cells).length = cellChanges cells + 1 := by
    cases cells with
    | nil => exact absurd rfl hne
    | cons cell rest =>
      rw [List.length_cons] at hfits
      exact length_runsFrom_eq rest cell 1 (by change 1 + rest.length ≤ u16Max; omega)
  rw [length_rowBytes_runs, hruns]
  omega

/-- Rows that are not too wide are encoded one behind another. -/
theorem encodeRows_eq {rows : List (List GridCell)}
    (hrows : ∀ row ∈ rows, row.length ≤ u16Max) :
    encodeRows rows = .ok (rows.flatMap rowBytes) := by
  have hfold := foldlM_appendRow_ok (fun _ => []) id [] hrows
  simpa [encodeRows] using hfold

/-- The bytes of a block of rows, as the cells have it. -/
def rowsBytes (rows : List (List GridCell)) : Nat :=
  18 * rows.length + 16 * (rows.map cellChanges).sum

theorem length_encodeRows {rows : List (List GridCell)} (hne : ∀ row ∈ rows, row ≠ [])
    (hrows : ∀ row ∈ rows, row.length ≤ u16Max) :
    (rows.flatMap rowBytes).length = rowsBytes rows := by
  induction rows with
  | nil => rfl
  | cons row rows ih =>
    have hrest := ih (fun other hother => hne other (List.mem_cons_of_mem _ hother))
      fun other hother => hrows other (List.mem_cons_of_mem _ hother)
    rw [List.flatMap_cons, List.length_append, hrest,
      length_rowBytes (hne row List.mem_cons_self) (hrows row List.mem_cons_self)]
    simp only [rowsBytes, List.length_cons, List.map_cons, List.sum_cons]
    omega

/-! ### The window of a request -/

namespace HeadlessScreen

variable {T : Type} {E : Backend T}

variable (E) in
/-- The lines that the screen and its history have. -/
def totalRows (s : HeadlessScreen T) : Nat := E.historySize s.term + s.geometry.rows

variable (E) in
/-- The first line of a window. -/
def windowStart (s : HeadlessScreen T) (firstRow : Int64) : Nat :=
  (min (max firstRow.toInt 0) (s.totalRows E)).toNat

variable (E) in
/-- The cells of the lines of a window. -/
def window (s : HeadlessScreen T) (firstRow maxRows : Int64) : List (List GridCell) :=
  let start := s.windowStart E firstRow
  let stop := min (start + (max maxRows.toInt 0).toNat) (s.totalRows E)
  (List.range (stop - start)).map fun index =>
    s.wireRow E ((start + index : Nat) - E.historySize s.term)

/-- The decimal digits of a number that is sent as an `i64`. -/
def digits (n : Nat) : Nat := (integer (Int64.ofNat n).toInt).length

variable (E) in
/-- The bytes of the result of a request for cells. -/
def cellsResultBytes (s : HeadlessScreen T) (firstRow maxRows : Int64) : Nat :=
  let rows := s.window E firstRow maxRows
  89 + 4 * ((rowsBytes rows + 2) / 3) + digits (s.windowStart E firstRow) + digits rows.length
    + digits (s.totalRows E) + digits (E.historySize s.term) + digits s.geometry.cols
    + (integer (UInt64.ofNat s.contentSeq).toNat).length

theorem scrollbackCells_payload (s : HeadlessScreen T) (firstRow maxRows : Int64) :
    (s.scrollbackCells E firstRow maxRows).payload =
      match encodeRows (s.window E firstRow maxRows) with
      | .ok payload => payload
      | .error _ => [] := rfl

theorem scrollbackCells_eq (s : HeadlessScreen T) (hcols : s.geometry.cols ≤ u16Max)
    (firstRow maxRows : Int64) :
    s.scrollbackCells E firstRow maxRows =
      { payload := (s.window E firstRow maxRows).flatMap rowBytes
        firstRow := Int64.ofNat (s.windowStart E firstRow)
        rowCount := Int64.ofNat (s.window E firstRow maxRows).length
        totalRows := Int64.ofNat (s.totalRows E)
        liveStartRow := Int64.ofNat (E.historySize s.term)
        cols := Int64.ofNat s.geometry.cols
        contentSeq := UInt64.ofNat s.contentSeq } := by
  have hencoded : encodeRows (s.window E firstRow maxRows)
      = .ok ((s.window E firstRow maxRows).flatMap rowBytes) := by
    refine encodeRows_eq fun row hrow => ?_
    obtain ⟨index, -, rfl⟩ := List.mem_map.mp hrow
    simpa [wireRow] using hcols
  have hpayload : (s.scrollbackCells E firstRow maxRows).payload
      = (s.window E firstRow maxRows).flatMap rowBytes := by
    rw [scrollbackCells_payload, hencoded]
  rw [← hpayload]
  rfl

theorem length_payload_window (s : HeadlessScreen T) (hcols : s.geometry.cols ≤ u16Max)
    (firstRow maxRows : Int64) :
    ((s.window E firstRow maxRows).flatMap rowBytes).length
      = rowsBytes (s.window E firstRow maxRows) := by
  have hwidth : ∀ row ∈ s.window E firstRow maxRows, row.length = s.geometry.cols := by
    intro row hrow
    obtain ⟨index, -, rfl⟩ := List.mem_map.mp hrow
    simp [wireRow]
  refine length_encodeRows ?_ fun row hrow => (hwidth row hrow).trans_le hcols
  intro row hrow hempty
  have hpos := s.geometry.cols_pos
  rw [← hwidth row hrow, hempty] at hpos
  exact absurd hpos (by decide)

theorem sum_cellsResult (s : HeadlessScreen T) (hcols : s.geometry.cols ≤ u16Max)
    (firstRow maxRows : Int64) :
    1 + ((s.scrollbackCells E firstRow maxRows).fields.map memberBytes).sum
      = s.cellsResultBytes E firstRow maxRows := by
  rw [scrollbackCells_eq s hcols]
  simp only [ReadScrollbackCellsResult.fields, List.map_cons, List.map_nil, List.sum_cons,
    List.sum_nil, memberBytes, Base64.length_string_encode, length_payload_window s hcols]
  have h₁ : (string "payload".toList).length = 9 := by decide
  have h₂ : (string "firstRow".toList).length = 10 := by decide
  have h₃ : (string "rowCount".toList).length = 10 := by decide
  have h₄ : (string "totalRows".toList).length = 11 := by decide
  have h₅ : (string "liveStartRow".toList).length = 14 := by decide
  have h₆ : (string "cols".toList).length = 6 := by decide
  have h₇ : (string "contentSeq".toList).length = 12 := by decide
  rw [h₁, h₂, h₃, h₄, h₅, h₆, h₇]
  simp only [cellsResultBytes, digits]
  omega

/-! ### The text of the lines -/

/-- The bytes of a character of a line in a reply. -/
def charBytes (c : Char) : Nat :=
  if c.toNat = 0x09 ∨ c.toNat = 0x22 ∨ c.toNat = 0x5c then 2 else c.utf8Size

theorem length_escape {c : Char} (h : c.toNat = 0x09 ∨ 0x20 ≤ c.toNat) :
    (escape c).length = charBytes c := by
  unfold escape charBytes
  split
  · rename_i heq
    rw [if_pos (.inr (.inl heq))]
    rfl
  · rename_i heq
    rw [if_pos (.inr (.inr heq))]
    rfl
  · omega
  · rename_i heq
    rw [if_pos (.inl heq)]
    rfl
  · omega
  · omega
  · omega
  · rename_i hquote hbackslash _ htab _ _ _
    have hlow : ¬ c.toNat < 0x20 := by
      intro hlt
      exact h.elim htab (by omega)
    have hplain : ¬ (c.toNat = 0x09 ∨ c.toNat = 0x22 ∨ c.toNat = 0x5c) := by
      rintro (heq | heq | heq)
      · exact htab heq
      · exact hquote heq
      · exact hbackslash heq
    rw [if_neg hlow, if_neg hplain]
    exact String.length_utf8EncodeChar c

theorem shownChar_printable (c : Char) :
    (shownChar c).toNat = 0x09 ∨ 0x20 ≤ (shownChar c).toNat := by
  unfold shownChar
  split
  · right
    decide
  · omega

theorem mem_trimEnd {text : List Char} {c : Char} (h : c ∈ trimEnd text) : c ∈ text := by
  unfold trimEnd at h
  rw [List.mem_reverse] at h
  exact List.mem_reverse.mp ((List.dropWhile_sublist _).subset h)

variable (E) in
/-- The bytes of the text of one line. -/
def lineBytes (s : HeadlessScreen T) (line : Int) : Nat := ((s.lineText E line).map charBytes).sum

theorem length_string_lineText (s : HeadlessScreen T) (line : Int) :
    (string (s.lineText E line)).length = 2 + s.lineBytes E line := by
  have hchars : (s.lineText E line).map (fun c => (escape c).length)
      = (s.lineText E line).map charBytes := by
    refine List.map_congr_left fun c hc => length_escape ?_
    obtain ⟨x, -, rfl⟩ := List.mem_map.mp (mem_trimEnd hc)
    exact shownChar_printable _
  rw [length_string, hchars]
  rfl

variable (E) in
/-- The bytes of the result of a request for text. -/
def textResultBytes (s : HeadlessScreen T) : Nat :=
  88 + ((List.range (s.totalRows E)).map fun index =>
      3 + s.lineBytes E (index - E.historySize s.term)).sum
    + digits (E.historySize s.term) + digits s.geometry.cols + digits s.geometry.rows
    + (integer (UInt64.ofNat s.contentSeq).toNat).length + (if s.isAltScreen E then 4 else 5)

theorem sum_textResult (s : HeadlessScreen T) :
    1 + ((s.scrollback E).fields.map memberBytes).sum = s.textResultBytes E := by
  have hlines : (array ((s.scrollback E).lines.map string)).length
      = 1 + ((List.range (s.totalRows E)).map fun index =>
          3 + s.lineBytes E (index - E.historySize s.term)).sum := by
    have hpos := s.geometry.rows_pos
    have hcount : ((s.scrollback E).lines.map string).length = s.totalRows E := by
      simp [scrollback, totalRows]
    have hne : (s.scrollback E).lines.map string ≠ [] := by
      intro hempty
      rw [hempty, totalRows, List.length_nil] at hcount
      omega
    rw [length_array, if_neg hne]
    simp only [scrollback, List.map_map, totalRows]
    refine congrArg (fun list => 1 + List.sum list) (List.map_congr_left fun index _ => ?_)
    simp only [Function.comp, length_string_lineText]
    omega
  have halt : (JsonText.bool (s.isAltScreen E)).length = if s.isAltScreen E then 4 else 5 := by
    cases s.isAltScreen E <;> rfl
  have hzero : (integer (0 : Int64).toInt).length = 1 := by decide
  have h₁ : (string "lines".toList).length = 7 := by decide
  have h₂ : (string "firstRow".toList).length = 10 := by decide
  have h₃ : (string "visibleStartRow".toList).length = 17 := by decide
  have h₄ : (string "cols".toList).length = 6 := by decide
  have h₅ : (string "rows".toList).length = 6 := by decide
  have h₆ : (string "contentSeq".toList).length = 12 := by decide
  have h₇ : (string "isAltScreen".toList).length = 13 := by decide
  simp only [ReadScrollbackResult.fields, List.map_cons, List.map_nil, List.sum_cons,
    List.sum_nil, memberBytes]
  rw [hlines, h₁, h₂, h₃, h₄, h₅, h₆, h₇]
  simp only [scrollback, halt, hzero, textResultBytes, digits]
  omega

end HeadlessScreen

/-! ### Lines -/

section Lines

variable {T : Type} {E : Backend T}

open HeadlessScreen

variable (E) in
/-- The bytes of the reply to a request, without the line feed. -/
def ScrollbackQuery.replyBytes (s : HeadlessScreen T) (id : UInt64) (query : ScrollbackQuery) :
    Nat :=
  13 + (integer id.toNat).length + match query with
    | .text => s.textResultBytes E
    | .cells firstRow maxRows => s.cellsResultBytes E firstRow maxRows

theorem length_responseText (id : UInt64) {fields : List (String × List UInt8)}
    (hne : fields ≠ []) :
    (responseText id fields).length
      = 13 + (integer id.toNat).length + (1 + (fields.map memberBytes).sum) := by
  have h₁ : (string "id".toList).length = 4 := by decide
  have h₂ : (string "ok".toList).length = 4 := by decide
  unfold responseText
  rw [length_sortedObject (by simp)]
  simp only [List.map_cons, List.map_nil, List.sum_cons, List.sum_nil, memberBytes]
  rw [h₁, h₂, length_sortedObject hne]
  omega

theorem length_reply (s : HeadlessScreen T) (hcols : s.geometry.cols ≤ u16Max) (id : UInt64)
    (query : ScrollbackQuery) :
    (responseText id (query.result E s)).length = query.replyBytes E s id := by
  cases query with
  | text =>
    rw [length_responseText id (by simp [ScrollbackQuery.result, ReadScrollbackResult.fields])]
    rw [ScrollbackQuery.result, sum_textResult]
    rfl
  | cells firstRow maxRows =>
    rw [length_responseText id
      (by simp [ScrollbackQuery.result, ReadScrollbackCellsResult.fields])]
    rw [ScrollbackQuery.result, sum_cellsResult s hcols]
    rfl

theorem oneLine_textFields (result : ReadScrollbackResult) :
    ∀ field ∈ result.fields, OneLine field.2 := by
  intro field hfield
  simp only [ReadScrollbackResult.fields, List.mem_cons, List.not_mem_nil, or_false] at hfield
  rcases hfield with rfl | rfl | rfl | rfl | rfl | rfl | rfl
  · refine oneLine_array fun item hitem => ?_
    obtain ⟨line, -, rfl⟩ := List.mem_map.mp hitem
    exact oneLine_string line
  · exact oneLine_integer result.firstRow.toInt
  · exact oneLine_integer result.visibleStartRow.toInt
  · exact oneLine_integer result.cols.toInt
  · exact oneLine_integer result.rows.toInt
  · exact oneLine_integer result.contentSeq.toNat
  · exact oneLine_bool result.isAltScreen

theorem oneLine_cellsFields (result : ReadScrollbackCellsResult) :
    ∀ field ∈ result.fields, OneLine field.2 := by
  intro field hfield
  simp only [ReadScrollbackCellsResult.fields, List.mem_cons, List.not_mem_nil, or_false] at hfield
  rcases hfield with rfl | rfl | rfl | rfl | rfl | rfl | rfl
  · exact oneLine_string (Base64.encode result.payload)
  · exact oneLine_integer result.firstRow.toInt
  · exact oneLine_integer result.rowCount.toInt
  · exact oneLine_integer result.totalRows.toInt
  · exact oneLine_integer result.liveStartRow.toInt
  · exact oneLine_integer result.cols.toInt
  · exact oneLine_integer result.contentSeq.toNat

theorem oneLine_reply (s : HeadlessScreen T) (id : UInt64) (query : ScrollbackQuery) :
    OneLine (responseText id (query.result E s)) := by
  have hresult : ∀ field ∈ query.result E s, OneLine field.2 := by
    cases query with
    | text => exact oneLine_textFields (s.scrollback E)
    | cells firstRow maxRows => exact oneLine_cellsFields (s.scrollbackCells E firstRow maxRows)
  refine oneLine_sortedObject fun field hfield => ?_
  simp only [List.mem_cons, List.not_mem_nil, or_false] at hfield
  rcases hfield with rfl | rfl
  · exact oneLine_integer id.toNat
  · exact oneLine_sortedObject hresult

/-- A line feed that is not in the first bytes is behind them. -/
theorem findIdx?_lineFeed {text rest : List UInt8} (honeLine : OneLine text) :
    (text ++ 0x0a :: rest).findIdx? (· == 0x0a) = some text.length := by
  rw [List.findIdx?_append, List.findIdx?_eq_none_iff.mpr]
  · simp [List.findIdx?_cons]
  · intro byte hbyte
    simp only [beq_eq_false_iff_ne, ne_eq]
    rintro rfl
    exact honeLine hbyte

theorem findIdx?_oneLine {text : List UInt8} (honeLine : OneLine text) :
    text.findIdx? (· == 0x0a) = none := by
  rw [List.findIdx?_eq_none_iff]
  intro byte hbyte
  simp only [beq_eq_false_iff_ne, ne_eq]
  rintro rfl
  exact honeLine hbyte

/-- A turn of the reader that finds no line feed. -/
theorem readLine_oneLine {available : List UInt8} (honeLine : OneLine available)
    (hne : available ≠ []) (line : List UInt8) (more : List (List UInt8)) :
    Client.readLine line (available :: more) =
      if line.length + available.length > maxControlLineBytes then
        .failed "control line exceeds 4194304 bytes"
      else Client.readLine (line ++ available) more := by
  rw [Client.readLine, if_neg hne, findIdx?_oneLine honeLine]
  simp

theorem readLine_lineFeed {text : List UInt8} (honeLine : OneLine text) (line rest : List UInt8)
    (more : List (List UInt8)) :
    Client.readLine line ((text ++ 0x0a :: rest) :: more) =
      if line.length + text.length > maxControlLineBytes then
        .failed "control line exceeds 4194304 bytes"
      else .line (line ++ text) (rest :: more) := by
  rw [Client.readLine, if_neg (by simp), findIdx?_lineFeed honeLine]
  simp

/-- A line within the limit is read whole, however its bytes arrive, and a longer one is not. -/
theorem readLine_iff : ∀ {chunks : List (List UInt8)} (line : List UInt8) {text tail : List UInt8},
    OneLine text → (∀ chunk ∈ chunks, chunk ≠ []) → chunks.flatten = text ++ 0x0a :: tail →
      ((∃ rest, Client.readLine line chunks = .line (line ++ text) rest) ↔
        line.length + text.length ≤ maxControlLineBytes)
  | [], line, text, tail, _, _, hflatten => by
    simp at hflatten
  | available :: more, line, text, tail, honeLine, hchunks, hflatten => by
    have hne := hchunks available List.mem_cons_self
    have hmore := fun chunk hchunk => hchunks chunk (List.mem_cons_of_mem _ hchunk)
    -- The line feed is behind what is buffered.
    have hbehind : ∀ behind, text = available ++ behind →
        more.flatten = behind ++ 0x0a :: tail →
        ((∃ rest, Client.readLine line (available :: more) = .line (line ++ text) rest) ↔
          line.length + text.length ≤ maxControlLineBytes) := by
      intro behind htext hrest
      subst htext
      have hfirst : OneLine available := fun hmem => honeLine (List.mem_append_left _ hmem)
      have hlast : OneLine behind := fun hmem => honeLine (List.mem_append_right _ hmem)
      have ih := readLine_iff (line ++ available) hlast hmore hrest
      rw [readLine_oneLine hfirst hne]
      rw [List.append_assoc, List.length_append] at ih
      rw [List.length_append]
      split
      · constructor
        · rintro ⟨rest, hrest⟩
          cases hrest
        · intro hfits
          omega
      · rw [ih]
        omega
    rw [List.flatten_cons] at hflatten
    rcases List.append_eq_append_iff.mp hflatten with ⟨behind, htext, hrest⟩ |
      ⟨ahead, havailable, hrest⟩
    · exact hbehind behind htext hrest
    · cases ahead with
      | nil => exact hbehind [] (by simpa using havailable.symm) hrest.symm
      | cons byte ahead =>
        obtain ⟨rfl, hrest⟩ := List.cons.inj hrest
        subst havailable
        rw [readLine_lineFeed honeLine]
        split
        · constructor
          · rintro ⟨rest, hrest⟩
            cases hrest
          · intro hfits
            omega
        · exact iff_of_true ⟨_, rfl⟩ (by omega)

/-! ### Reachable screens -/

theorem clampSize_le (size : Int) : clampSize size ≤ u16Max := by
  unfold clampSize u16Max
  omega

theorem clamp_cols_le {cols rows : Nat} (h : cols ≤ u16Max) :
    (Geometry.clamp cols rows).cols ≤ u16Max := by
  change max cols 1 ≤ u16Max
  exact max_le h (by decide)

/-- No call makes a local screen wider than a row of the wire. -/
theorem localScreen_cols (E : Backend T) (cols rows : Int) (calls : List LocalCall) :
    (localScreen E cols rows calls).geometry.cols ≤ u16Max := by
  have hrun : ∀ (calls : List LocalCall) (s : HeadlessScreen T), s.geometry.cols ≤ u16Max →
      (calls.foldl (LocalCall.run E) s).geometry.cols ≤ u16Max := by
    intro calls
    induction calls with
    | nil =>
      intro s hs
      exact hs
    | cons call calls ih =>
      intro s hs
      rw [List.foldl_cons]
      apply ih
      cases call with
      | feed bytes =>
        simp only [LocalCall.run, (feed_frame _ _ _).1]
        exact hs
      | resize cols rows => exact clamp_cols_le (clampSize_le cols)
  exact hrun calls _ (clamp_cols_le (clampSize_le cols))

/--
**A reply fits exactly when the cells it is about do.**  After any feeds and resizes, the reply
to a request for scrollback is within the limit of a control line, and the client reads it
instead of dropping the connection, exactly when the cells of the window, or the text of all
lines, come to no more than the limit.
-/
theorem control_reply_fits_iff (E : Backend T) (cols rows : Int) (calls : List LocalCall)
    (id : UInt64) (query : ScrollbackQuery) :
    ((responseText id (query.result E (localScreen E cols rows calls))).length
        ≤ maxControlLineBytes ↔
      query.replyBytes E (localScreen E cols rows calls) id ≤ maxControlLineBytes) ∧
    ∀ (chunks : List (List UInt8)) (tail : List UInt8), (∀ chunk ∈ chunks, chunk ≠ []) →
      chunks.flatten = encodeLine id (query.result E (localScreen E cols rows calls)) ++ tail →
      ((∃ rest, Client.readLine [] chunks
          = .line (responseText id (query.result E (localScreen E cols rows calls))) rest) ↔
        query.replyBytes E (localScreen E cols rows calls) id ≤ maxControlLineBytes) := by
  have hlength := length_reply (E := E) (localScreen E cols rows calls)
    (localScreen_cols E cols rows calls) id query
  refine ⟨by rw [hlength], ?_⟩
  intro chunks tail hchunks hflatten
  have hlines : chunks.flatten
      = responseText id (query.result E (localScreen E cols rows calls)) ++ 0x0a :: tail := by
    rw [hflatten, encodeLine, List.append_assoc]
    rfl
  have hread := readLine_iff [] (oneLine_reply (E := E) (localScreen E cols rows calls) id query)
    hchunks hlines
  rw [List.nil_append, List.length_nil, Nat.zero_add, hlength] at hread
  exact hread

/-- The client reads the text of a blank screen. -/
theorem control_reply_fits_blank :
    ∃ rest, Client.readLine [] [encodeLine 1 (ScrollbackQuery.text.result LineTerm.backend
        (localScreen LineTerm.backend 2 2 []))]
      = .line (responseText 1 (ScrollbackQuery.text.result LineTerm.backend
          (localScreen LineTerm.backend 2 2 []))) rest := by
  have hbytes : ScrollbackQuery.text.replyBytes LineTerm.backend
      (localScreen LineTerm.backend 2 2 []) 1 ≤ maxControlLineBytes := by decide
  refine ((control_reply_fits_iff LineTerm.backend 2 2 [] 1 .text).2 _ [] ?_ ?_).mpr hbytes
  · intro chunk hchunk
    rw [List.mem_singleton.mp hchunk, encodeLine]
    exact List.append_ne_nil_of_right_ne_nil _ (List.cons_ne_nil _ _)
  · rw [List.flatten_singleton, List.append_nil]

end Lines

/-! ### A screen of stripes -/

namespace LineTerm

/-- A cell with a character and the colors of a fresh terminal. -/
def plainCell (c : Char) : Cell := ⟨c, .named .foreground, .named .background, .empty⟩

/-- The two characters of a line of stripes, as bytes and as cells. -/
def stripeBytes : List UInt8 := [0x61, 0x62]

def stripe : List Cell := [plainCell (Char.ofNat 0x61), plainCell (Char.ofNat 0x62)]

/-- Two columns with `n` lines of stripes, the last of them just written. -/
def striped (limit rows n : Nat) : LineTerm :=
  { new limit 2 rows with
    lines := List.replicate n stripe ++ List.replicate (rows - n) (blankLine 2)
    line := min n rows - 1
    column := 1
    wrapNext := true }

theorem modify_append_cons {α : Type} (f : α → α) (x : α) (post : List α) :
    ∀ pre : List α, (pre ++ x :: post).modify pre.length f = pre ++ f x :: post
  | [] => rfl
  | y :: pre => by
    rw [List.cons_append, List.length_cons, List.modify_succ_cons, modify_append_cons f x post pre,
      List.cons_append]

/-- The screen whose next line has these cells and the cursor. -/
def opened (limit rows n : Nat) (row : List Cell) (column : Nat) (wrapNext : Bool) : LineTerm :=
  { new limit 2 rows with
    lines := List.replicate n stripe ++ row :: List.replicate (rows - (n + 1)) (blankLine 2)
    line := min (n + 1) rows - 1
    column
    wrapNext }

theorem lineFeed_striped {limit rows n : Nat} (hn : 0 < n) (hrows : 0 < rows)
    (hlimit : n < limit + rows) :
    (striped limit rows n).lineFeed = opened limit rows n (blankLine 2) 1 true := by
  unfold lineFeed
  by_cases hroom : n < rows
  · have hline : (striped limit rows n).line + 1 < (striped limit rows n).rows := by
      change min n rows - 1 + 1 < rows
      omega
    have hblank : List.replicate (rows - n) (blankLine 2)
        = blankLine 2 :: List.replicate (rows - (n + 1)) (blankLine 2) := by
      rw [← List.replicate_succ]
      congr 1
      omega
    rw [if_pos hline]
    simp only [striped, opened, hblank, LineTerm.mk.injEq, true_and, and_true]
    omega
  · have hline : ¬ (striped limit rows n).line + 1 < (striped limit rows n).rows := by
      change ¬ min n rows - 1 + 1 < rows
      omega
    rw [if_neg hline]
    have hnone : rows - n = 0 := by omega
    have hnone' : rows - (n + 1) = 0 := by omega
    have hkept : n + 1 - (limit + rows) = 0 := by omega
    simp only [scrollUp, striped, opened, new, hnone, hnone', List.replicate_zero,
      List.append_nil, List.length_append, List.length_replicate, hkept, List.drop_zero,
      LineTerm.mk.injEq, true_and, and_true]
    refine ⟨rfl, ?_⟩
    omega

theorem setCell_opened {limit rows n : Nat} (hrows : 0 < rows) (row : List Cell)
    (column : Nat) (wrapNext : Bool) (cell : Cell) :
    (opened limit rows n row column wrapNext).setCell (opened limit rows n row column wrapNext).line
      column cell = opened limit rows n (row.set column cell) column wrapNext := by
  have hindex : (opened limit rows n row column wrapNext).lineIndex
      (opened limit rows n row column wrapNext).line = (List.replicate n stripe).length := by
    simp only [lineIndex, historySize, opened, new, List.length_append, List.length_replicate,
      List.length_cons]
    omega
  unfold setCell
  rw [hindex]
  simp only [opened, modify_append_cons]

theorem advanceByte_printable {t : LineTerm} (hescape : t.escape = none) {byte : UInt8}
    (hlow : 0x20 ≤ byte) (hhigh : byte < 0x7f) :
    t.advanceByte byte = t.input (Char.ofNat byte.toNat) := by
  have hlow' := UInt8.le_iff_toNat_le.mp hlow
  have hne : ∀ control : UInt8, control.toNat < 0x20 → byte ≠ control := by
    rintro control hcontrol rfl
    exact absurd hlow' (Nat.not_le.mpr hcontrol)
  unfold advanceByte
  rw [hescape]
  dsimp only
  rw [if_neg (hne _ (by decide)), if_neg (hne _ (by decide)), if_neg (hne _ (by decide)),
    if_pos ⟨hlow, hhigh⟩]

theorem input_of_wrapNext {t : LineTerm} (h : t.wrapNext = true) (c : Char) :
    t.input c = { t.lineFeed with column := 0, wrapNext := false }.input c := by
  simp only [input, h, if_true, Bool.false_eq_true, if_false]

theorem input_opened {limit rows n : Nat} (hrows : 0 < rows) (row : List Cell) (column : Nat)
    (c : Char) :
    (opened limit rows n row column false).input c =
      if column + 1 < 2 then opened limit rows n (row.set column (plainCell c)) (column + 1) false
      else opened limit rows n (row.set column (plainCell c)) column true := by
  have hwrap : (opened limit rows n row column false).wrapNext = false := rfl
  have hcolumn : (opened limit rows n row column false).column = column := rfl
  have hcell : (⟨c, (opened limit rows n row column false).fg, .named .background, .empty⟩ : Cell)
      = plainCell c := rfl
  simp only [input, hwrap, Bool.false_eq_true, if_false, hcolumn, hcell, setCell_opened hrows]
  rfl

theorem opened_advance {limit rows n : Nat} (hrows : 0 < rows) :
    stripeBytes.foldl advanceByte (opened limit rows n (blankLine 2) 0 false)
      = striped limit rows (n + 1) := by
  have hfirst : (opened limit rows n (blankLine 2) 0 false).advanceByte 0x61
      = opened limit rows n [plainCell (Char.ofNat 0x61), Cell.default] 1 false := by
    rw [advanceByte_printable rfl (by decide) (by decide)]
    exact input_opened hrows (blankLine 2) 0 (Char.ofNat 0x61)
  have hsecond : (opened limit rows n [plainCell (Char.ofNat 0x61), Cell.default] 1 false).advanceByte
      0x62 = opened limit rows n stripe 1 true := by
    rw [advanceByte_printable rfl (by decide) (by decide)]
    exact input_opened hrows _ 1 (Char.ofNat 0x62)
  have hlines : List.replicate n stripe ++ stripe :: List.replicate (rows - (n + 1)) (blankLine 2)
      = List.replicate (n + 1) stripe ++ List.replicate (rows - (n + 1)) (blankLine 2) := by
    rw [List.replicate_succ', List.append_assoc]
    rfl
  change ((opened limit rows n (blankLine 2) 0 false).advanceByte 0x61).advanceByte 0x62 = _
  rw [hfirst, hsecond]
  simp only [opened, striped, hlines]

theorem new_eq_opened {limit rows : Nat} (hrows : 0 < rows) :
    new limit 2 rows = opened limit rows 0 (blankLine 2) 0 false := by
  have hlines : List.replicate rows (blankLine 2)
      = blankLine 2 :: List.replicate (rows - 1) (blankLine 2) := by
    rw [← List.replicate_succ]
    congr 1
    omega
  simp only [new, opened, hlines, LineTerm.mk.injEq, List.replicate_zero, List.nil_append,
    Nat.zero_add, true_and, and_true]
  omega

theorem striped_advance {limit rows n : Nat} (hn : 0 < n) (hrows : 0 < rows)
    (hlimit : n < limit + rows) :
    stripeBytes.foldl advanceByte (striped limit rows n) = striped limit rows (n + 1) := by
  have hwrapped : (striped limit rows n).advanceByte 0x61
      = (opened limit rows n (blankLine 2) 0 false).advanceByte 0x61 := by
    rw [advanceByte_printable rfl (by decide) (by decide),
      advanceByte_printable rfl (by decide) (by decide), input_of_wrapNext rfl,
      lineFeed_striped hn hrows hlimit]
    rfl
  rw [← opened_advance hrows]
  change ((striped limit rows n).advanceByte 0x61).advanceByte 0x62 = _
  rw [hwrapped]
  rfl

theorem stripes_advance {limit rows : Nat} (hrows : 0 < rows) : ∀ {n : Nat}, n < limit + rows →
    (List.replicate (n + 1) stripeBytes).flatten.foldl advanceByte (new limit 2 rows)
      = striped limit rows (n + 1) := by
  intro n
  induction n with
  | zero =>
    intro _
    rw [new_eq_opened hrows]
    exact opened_advance hrows
  | succ n ih =>
    intro hlimit
    rw [List.replicate_succ', List.flatten_append, List.foldl_append, ih (by omega),
      List.flatten_singleton]
    exact striped_advance (Nat.succ_pos n) hrows hlimit

theorem historySize_striped {limit rows n : Nat} (hn : rows ≤ n) :
    (striped limit rows n).historySize = n - rows := by
  simp only [historySize, striped, List.length_append, List.length_replicate]
  change n + (rows - n) - rows = n - rows
  omega

theorem cell_striped {limit rows n index : Nat} (hn : rows ≤ n) (hindex : index < n) (x : Nat) :
    (striped limit rows n).cell ((index : Int) - (n - rows : Nat)) x
      = stripe.getD x Cell.default := by
  have hline : (striped limit rows n).lineIndex ((index : Int) - (n - rows : Nat)) = index := by
    rw [lineIndex, historySize_striped hn]
    omega
  have hget : (striped limit rows n).lines.getD index [] = stripe := by
    rw [List.getD_eq_getElem?_getD]
    change ((List.replicate n stripe ++ _)[index]?).getD [] = stripe
    rw [List.getElem?_append_left (by simpa using hindex), List.getElem?_replicate, if_pos hindex]
    rfl
  unfold cell
  rw [hline, hget]

end LineTerm

/-! ### A reply that does not fit -/

section Stripes

open HeadlessScreen

/-- The wire cells of a stripe. -/
def wireStripe : List GridCell := LineTerm.stripe.map wireCell

theorem window_replicate {T : Type} {E : Backend T} {s : HeadlessScreen T} {n : Nat}
    {row : List GridCell} (htotal : s.totalRows E = n)
    (hrow : ∀ index < n, s.wireRow E ((index : Int) - E.historySize s.term) = row)
    {maxRows : Int64} (hmax : (n : Int) ≤ maxRows.toInt) :
    s.window E 0 maxRows = List.replicate n row := by
  have hstart : s.windowStart E 0 = 0 := by
    have hzero : (0 : Int64).toInt = 0 := rfl
    rw [windowStart, htotal, hzero]
    omega
  have hcount : min (0 + (max maxRows.toInt 0).toNat) n - 0 = n := by omega
  unfold HeadlessScreen.window
  rw [hstart, htotal]
  dsimp only
  rw [hcount, List.eq_replicate_iff]
  refine ⟨by simp, fun other hmem => ?_⟩
  obtain ⟨index, hindex, rfl⟩ := List.mem_map.mp hmem
  rw [Nat.zero_add]
  exact hrow index (List.mem_range.mp hindex)

theorem window_stripes {s : HeadlessScreen LineTerm} {limit rows n : Nat} (hn : rows ≤ n)
    (hterm : s.term = LineTerm.striped limit rows n) (hrows : s.geometry.rows = rows)
    (hcols : s.geometry.cols = 2) {maxRows : Int64} (hmax : (n : Int) ≤ maxRows.toInt) :
    s.window LineTerm.backend 0 maxRows = List.replicate n wireStripe := by
  have hhistory : LineTerm.backend.historySize s.term = n - rows := by
    rw [hterm]
    exact LineTerm.historySize_striped hn
  refine window_replicate ?_ ?_ hmax
  · rw [totalRows, hhistory, hrows]
    omega
  · intro index hindex
    have hcell : ∀ x, LineTerm.backend.cell s.term ((index : Int) - (n - rows : Nat)) x
        = LineTerm.stripe.getD x Cell.default := by
      intro x
      rw [hterm]
      exact LineTerm.cell_striped hn hindex x
    rw [hhistory]
    simp only [wireRow, hcols, hcell]
    rfl

theorem rowsBytes_stripes (n : Nat) : rowsBytes (List.replicate n wireStripe) = 34 * n := by
  have hchanges : cellChanges wireStripe = 1 := by decide
  rw [rowsBytes, List.length_replicate, List.map_replicate, hchanges, List.sum_replicate_nat]
  omega

theorem localScreen_feed {T : Type} (E : Backend T) (cols rows : Int) (bytes : List UInt8) :
    localScreen E cols rows [.feed bytes]
      = (new E (clampSize cols) (clampSize rows)).feed E bytes := rfl

theorem stripes_reply {rows n : Nat} (hrows : 0 < rows) (hn : rows ≤ n + 1)
    (hlimit : n < historyLineLimit LineTerm.backend 2 + rows) {maxRows : Int64}
    (hmax : ((n + 1 : Nat) : Int) ≤ maxRows.toInt) :
    4 * ((34 * (n + 1) + 2) / 3) ≤ ScrollbackQuery.replyBytes LineTerm.backend
      ((new LineTerm.backend 2 rows).feed LineTerm.backend
        (List.replicate (n + 1) LineTerm.stripeBytes).flatten) 1 (.cells 0 maxRows) := by
  have hgeometry : (new LineTerm.backend 2 rows).geometry.rows = rows := by
    change max rows 1 = rows
    omega
  have hnew : (new LineTerm.backend 2 rows).term
      = LineTerm.new (historyLineLimit LineTerm.backend 2) 2 rows := by
    change LineTerm.new (historyLineLimit LineTerm.backend 2) 2
      (new LineTerm.backend 2 rows).geometry.rows = _
    rw [hgeometry]
  have hterm : ((new LineTerm.backend 2 rows).feed LineTerm.backend
      (List.replicate (n + 1) LineTerm.stripeBytes).flatten).term
      = LineTerm.striped (historyLineLimit LineTerm.backend 2) rows (n + 1) := by
    rw [feed_lineTerm, hnew, LineTerm.stripes_advance hrows hlimit]
  have hwindow := window_stripes hn hterm (by rw [(feed_frame _ _ _).1, hgeometry])
    (by rw [(feed_frame _ _ _).1]; rfl) hmax
  simp only [ScrollbackQuery.replyBytes, cellsResultBytes, hwindow, rowsBytes_stripes]
  omega

/-- A screen of two columns with a hundred thousand lines of two letters: its cells alone are
more than a control line holds. -/
theorem striped_reply_too_long :
    ¬ ((responseText 1 (ScrollbackQuery.result LineTerm.backend
        (localScreen LineTerm.backend 2 65535
          [.feed (List.replicate 100000 LineTerm.stripeBytes).flatten])
        (.cells 0 200000))).length ≤ maxControlLineBytes) := by
  have hcols : clampSize 2 = 2 := rfl
  have hrows : clampSize 65535 = 65535 := rfl
  have hlimit : 99999 < historyLineLimit LineTerm.backend 2 + 65535 := by decide
  have hmax : ((99999 + 1 : Nat) : Int) ≤ (200000 : Int64).toInt := by decide
  rw [length_reply (E := LineTerm.backend) _ (localScreen_cols _ _ _ _), localScreen_feed, hcols,
    hrows]
  have hbytes : 4 * ((34 * 100000 + 2) / 3) ≤ ScrollbackQuery.replyBytes LineTerm.backend
      ((new LineTerm.backend 2 65535).feed LineTerm.backend
        (List.replicate 100000 LineTerm.stripeBytes).flatten) 1 (.cells 0 200000) :=
    stripes_reply (n := 99999) (by decide) (by decide) hlimit hmax
  unfold maxControlLineBytes
  omega

end Stripes

end Homie
