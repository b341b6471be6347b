/-
What a search finds.

In one line the loop finds what a search from the left finds, up to the cap (`scanLine_eq`), and so
line after line.  Where no row number saturates, the rows come in the order of their numbers and the
columns of a line rise, so the final sort changes nothing: the matches are the first of all
occurrences, in order and apart from each other.
-/
import Homie.Lib.Search
import Homie.Proofs.Viewport
import Homie.Term.Find

namespace Homie.Term

open Search

section

variable (lower : Char → List Char)

/-! ### Occurrences -/

/-- The query is in the text at this place, but for the case of its letters. -/
def OccursAt (needle text : List Char) (place : Nat) : Prop :=
  place + needle.length ≤ text.length ∧ ∀ k < needle.length, ∀ a b,
    text[place + k]? = some a → needle[k]? = some b → a = b ∨ lower a = lower b

def occursAt (needle text : List Char) (place : Nat) : Bool :=
  place + needle.length ≤ text.length ∧
    charsEqualCi lower ((text.drop place).take needle.length) needle

theorem charsEqualCi_iff {haystack needle : List Char} :
    charsEqualCi lower haystack needle = true ↔
      ∀ (k : Nat) (a b : Char), haystack[k]? = some a → needle[k]? = some b → a = b ∨ lower a = lower b := by
  unfold charsEqualCi
  rw [List.all_eq_true]
  constructor
  · intro h k a b ha hb
    have hzip : (haystack.zip needle)[k]? = some (a, b) := by
      rw [List.getElem?_zip_eq_some]
      exact ⟨ha, hb⟩
    simpa using h (a, b) (List.mem_of_getElem? hzip)
  · rintro h ⟨a, b⟩ hmem
    obtain ⟨k, hk⟩ := List.mem_iff_getElem?.mp hmem
    obtain ⟨ha, hb⟩ := List.getElem?_zip_eq_some.mp hk
    simpa using h k a b ha hb

theorem occursAt_iff {needle text : List Char} {place : Nat} :
    occursAt lower needle text place = true ↔ OccursAt lower needle text place := by
  unfold occursAt OccursAt
  rw [decide_eq_true_eq, charsEqualCi_iff]
  refine and_congr_right fun _ => ?_
  constructor
  · intro h k hk a b ha hb
    exact h k a b (by rw [List.getElem?_take_of_lt hk, List.getElem?_drop, ha]) hb
  · intro h k a b ha hb
    have hk := (List.getElem?_eq_some_iff.mp hb).1
    rw [List.getElem?_take_of_lt hk, List.getElem?_drop] at ha
    exact h k hk a b ha hb

/-- The places in a line. -/
def startsOf (needle : List Char) (line : SearchLine) : List Nat :=
  leftmostFrom (occursAt lower needle line.line) needle.length (line.line.length + 1) 0

theorem leftmost_startsOf {needle : List Char} (hneedle : needle ≠ []) (line : SearchLine) :
    Leftmost (OccursAt lower needle line.line) needle.length 0 (startsOf lower needle line) := by
  have hwidth : 0 < needle.length := List.length_pos_iff.mpr hneedle
  have hbound : ∀ place, occursAt lower needle line.line place = true → place < line.line.length := by
    intro place hplace
    have hroom := ((occursAt_iff lower).mp hplace).1
    omega
  have hall : Leftmost (fun place => occursAt lower needle line.line place = true) needle.length 0
      (startsOf lower needle line) := leftmost_leftmostFrom hwidth hbound (by omega)
  simpa only [occursAt_iff] using hall

theorem occursAt_past {needle text : List Char} {place : Nat}
    (h : text.length < place + needle.length) : occursAt lower needle text place = false := by
  unfold occursAt
  rw [decide_eq_false_iff_not]
  omega

/-- All matches of a line. -/
def foundIn (needle : List Char) (line : SearchLine) : List FindMatch :=
  (startsOf lower needle line).map fun start => line.matchAt start needle.length

/-! ### The loops -/

theorem scanLine_eq (needle : List Char) (line : SearchLine) (fuel index : Nat)
    {output : List FindMatch} (houtput : output.length ≤ matchCap) :
    scanLine lower needle line fuel index output
      = (output ++ (leftmostFrom (occursAt lower needle line.line) needle.length fuel index).map
          fun start => line.matchAt start needle.length).take matchCap := by
  induction fuel generalizing index output with
  | zero => rw [scanLine, leftmostFrom, List.map_nil, List.append_nil, List.take_of_length_le houtput]
  | succ fuel ih =>
    unfold scanLine
    by_cases hroom : index + needle.length ≤ line.line.length ∧ output.length < matchCap
    · rw [if_pos hroom, leftmostFrom]
      by_cases hequal : charsEqualCi lower ((line.line.drop index).take needle.length) needle = true
      · have hoccurs : occursAt lower needle line.line index = true := by
          simp [occursAt, hroom.1, hequal]
        rw [if_pos hequal, if_pos hoccurs, ih, List.map_cons, List.append_assoc,
          List.singleton_append]
        simp only [List.length_append, List.length_singleton]
        omega
      · have hnot : ¬occursAt lower needle line.line index = true := by
          simp [occursAt, hequal]
        rw [if_neg hequal, if_neg hnot, ih _ houtput]
    · rw [if_neg hroom]
      rcases not_and_or.mp hroom with hend | hfull
      · rw [leftmostFrom_eq_nil, List.map_nil, List.append_nil, List.take_of_length_le houtput]
        exact fun place hplace => occursAt_past lower (by omega)
      · rw [List.take_left' (by omega)]

theorem appendMatches_eq (needle : List Char) {output : List FindMatch} (line : SearchLine)
    (houtput : output.length ≤ matchCap) :
    appendMatches lower needle output line
      = (output ++ foundIn lower needle line).take matchCap := by
  unfold appendMatches foundIn startsOf
  split
  · rw [leftmostFrom_eq_nil, List.map_nil, List.append_nil, List.take_of_length_le houtput]
    exact fun place hplace => occursAt_past lower (by omega)
  · exact scanLine_eq lower needle line _ _ houtput

theorem searchLines_eq (needle : List Char) (lines : List SearchLine) {output : List FindMatch}
    (houtput : output.length < matchCap) :
    searchLines lower needle lines output
      = if matchCap ≤ (output ++ lines.flatMap (foundIn lower needle)).length then
          ((output ++ lines.flatMap (foundIn lower needle)).take matchCap, true)
        else (output ++ lines.flatMap (foundIn lower needle), false) := by
  induction lines generalizing output with
  | nil =>
    rw [searchLines, List.flatMap_nil, List.append_nil, if_neg (Nat.not_le.mpr houtput)]
  | cons line lines ih =>
    rw [searchLines, appendMatches_eq lower needle line (Nat.le_of_lt houtput), List.flatMap_cons,
      ← List.append_assoc]
    by_cases hfull : matchCap ≤ (output ++ foundIn lower needle line).length
    · rw [if_pos (by rw [List.length_take]; omega), List.take_take, Nat.min_self,
        List.take_append_of_le_length hfull, if_pos]
      rw [List.length_append]
      omega
    · rw [List.take_of_length_le (by omega), if_neg hfull, ih (by omega)]

/-- The lines in the order they are searched: the history, which an alternate screen has none of,
and the live grid. -/
def shownLines (snapshot : FindSnapshot) (live : GridBuffer) : List SearchLine :=
  (if snapshot.isAltScreen then [] else historyLines snapshot) ++ liveLines snapshot live

def occurrences (query : List Char) (snapshot : FindSnapshot) (live : GridBuffer) :
    List FindMatch :=
  (shownLines snapshot live).flatMap (foundIn lower query)

theorem buildMatches_eq {query : List Char} (hquery : query ≠ []) (snapshot : FindSnapshot)
    (live : GridBuffer) :
    buildMatches lower query snapshot live
      = if matchCap ≤ (occurrences lower query snapshot live).length then
          (occurrences lower query snapshot live).take matchCap
        else (Sorting.sortBy compareMatches (occurrences lower query snapshot live)).take
          matchCap := by
  have hcap : ([] : List FindMatch).length < matchCap := by decide
  have hhistory : (if snapshot.isAltScreen then (([] : List FindMatch), false)
      else searchLines lower query (historyLines snapshot) [])
        = searchLines lower query
            (if snapshot.isAltScreen then [] else historyLines snapshot) [] := by
    split
    · rfl
    · rfl
  unfold buildMatches occurrences shownLines
  rw [if_neg hquery, hhistory, searchLines_eq lower query _ hcap, List.nil_append,
    List.flatMap_append]
  generalize (if snapshot.isAltScreen then [] else historyLines snapshot).flatMap
    (foundIn lower query) = history
  by_cases hfull : matchCap ≤ history.length
  · rw [if_pos hfull]
    dsimp only
    rw [if_pos rfl, if_pos (by rw [List.length_append]; omega),
      List.take_append_of_le_length hfull]
  · rw [if_neg hfull]
    dsimp only
    rw [if_neg Bool.false_ne_true, searchLines_eq lower query _ (by omega)]
    split
    · rfl
    · rfl

/-! ### Order -/

/-- One match is before the other, and where they are in one row, apart from it. -/
def Precedes (earlier later : FindMatch) : Prop :=
  earlier.absoluteRow < later.absoluteRow ∨
    earlier.absoluteRow = later.absoluteRow ∧ earlier.startCol < later.startCol ∧
      earlier.endColExclusive ≤ later.startCol

/-- The characters of the line are in rising columns. -/
def Spaced (line : SearchLine) : Prop :=
  ∀ columns, line.columns = some columns →
    columns.length = line.line.length ∧ columns.Pairwise (· < ·)

theorem columnFor_lt {line : SearchLine} (h : Spaced line) {i j : Nat} (hlt : i < j)
    (hj : j < line.line.length) : columnFor i line.columns < columnFor j line.columns := by
  unfold columnFor
  cases hcolumns : line.columns with
  | none => exact hlt
  | some columns =>
    obtain ⟨hlength, hrising⟩ := h columns hcolumns
    have hi : i < columns.length := by omega
    have hj : j < columns.length := by omega
    simp only [List.getElem?_eq_getElem hi, List.getElem?_eq_getElem hj, Option.some_or,
      Option.getD_some]
    exact List.pairwise_iff_getElem.mp hrising i j hi hj hlt

theorem columnFor_le {line : SearchLine} (h : Spaced line) {i j : Nat} (hle : i ≤ j)
    (hj : j < line.line.length) : columnFor i line.columns ≤ columnFor j line.columns := by
  rcases Nat.eq_or_lt_of_le hle with rfl | hlt
  · exact Nat.le_refl _
  · exact Nat.le_of_lt (columnFor_lt h hlt hj)

theorem pairwise_foundIn {needle : List Char} (hneedle : needle ≠ []) {line : SearchLine}
    (hspaced : Spaced line) : (foundIn lower needle line).Pairwise Precedes := by
  have hwidth : 0 < needle.length := List.length_pos_iff.mpr hneedle
  have hleftmost := leftmost_startsOf lower hneedle line
  refine List.pairwise_map.mpr (hleftmost.pairwise.imp_of_mem ?_)
  intro earlier later _ hlater hle
  have hroom := (hleftmost.sound later hlater).1
  exact .inr ⟨rfl, columnFor_lt hspaced (by omega) (by omega),
    columnFor_le hspaced hle (by omega)⟩

theorem absoluteRow_of_mem_foundIn {needle : List Char} {line : SearchLine} {item : FindMatch}
    (h : item ∈ foundIn lower needle line) : item.absoluteRow = line.absoluteRow := by
  obtain ⟨start, _, rfl⟩ := List.mem_map.mp h
  rfl

theorem pairwise_flatMap_foundIn {needle : List Char} (hneedle : needle ≠ [])
    {lines : List SearchLine} (hspaced : ∀ line ∈ lines, Spaced line)
    (hrows : lines.Pairwise fun earlier later => earlier.absoluteRow < later.absoluteRow) :
    (lines.flatMap (foundIn lower needle)).Pairwise Precedes := by
  refine List.pairwise_flatMap.mpr ⟨?_, hrows.imp ?_⟩
  · intro line hline
    exact pairwise_foundIn lower hneedle (hspaced line hline)
  · intro earlier later hlt item hitem other hother
    rw [← absoluteRow_of_mem_foundIn lower hitem, ← absoluteRow_of_mem_foundIn lower hother] at hlt
    exact .inl hlt

end

/-! ### Rows -/

section

variable {snapshot : FindSnapshot} {live : GridBuffer}

theorem pairwise_snd_zipIdx {α : Type} (l : List α) :
    l.zipIdx.Pairwise fun left right => left.2 < right.2 := by
  rw [← List.pairwise_map (f := Prod.snd) (R := (· < ·)), List.zipIdx_map_snd]
  exact List.pairwise_lt_range'

theorem historyLine_eq {entry : List Char × Nat} {line : SearchLine}
    (h : (if saturate (snapshot.firstRow.toInt + rowsToI64 entry.2) ≥ snapshot.visibleStartRow.toInt
        then none
        else some ⟨entry.1, none, saturate (snapshot.firstRow.toInt + rowsToI64 entry.2)⟩)
      = some line) :
    line.columns = none ∧ line.absoluteRow = snapshot.firstRow.toInt + rowsToI64 entry.2 ∧
      line.absoluteRow < snapshot.visibleStartRow.toInt := by
  split at h
  · cases h
  · rename_i hbefore
    obtain rfl := Option.some.inj h
    have hlow := snapshot.firstRow.le_toInt
    have hhigh := snapshot.visibleStartRow.toInt_lt
    have hrows := rowsToI64_nonneg entry.2
    refine ⟨rfl, ?_, by dsimp only; omega⟩
    dsimp only
    unfold saturate at hbefore ⊢
    omega

theorem historyLines_spec (hlines : snapshot.lines.length < 2 ^ 63) :
    ((historyLines snapshot).Pairwise fun earlier later =>
        earlier.absoluteRow < later.absoluteRow) ∧
      ∀ line ∈ historyLines snapshot,
        Spaced line ∧ line.absoluteRow < snapshot.visibleStartRow.toInt := by
  constructor
  · refine List.pairwise_filterMap.mpr ((pairwise_snd_zipIdx snapshot.lines).imp_of_mem ?_)
    rintro entry other hentry hother hlt line hline later hlater
    have hbound := (List.mem_zipIdx' hother).1
    obtain ⟨_, hrow, _⟩ := historyLine_eq hline
    obtain ⟨_, hrow', _⟩ := historyLine_eq hlater
    rw [hrow, hrow']
    unfold rowsToI64
    omega
  · intro line hline
    obtain ⟨entry, _, hentry⟩ := List.mem_filterMap.mp hline
    obtain ⟨hcolumns, _, hbefore⟩ := historyLine_eq hentry
    refine ⟨fun columns hsome => ?_, hbefore⟩
    rw [hcolumns] at hsome
    cases hsome

theorem rowTextWithColumns_spaced {row : Nat} {line : List Char} {columns : List Nat}
    (h : live.rowTextWithColumns row = some (line, columns)) :
    columns.length = line.length ∧ columns.Pairwise (· < ·) := by
  obtain ⟨cells, _, heq⟩ := Option.map_eq_some_iff.mp h
  obtain ⟨rfl, rfl⟩ := Prod.mk.inj heq
  refine ⟨by simp only [List.length_map], ?_⟩
  exact List.pairwise_map.mpr ((pairwise_snd_zipIdx cells).filter _)

theorem liveLine_eq {row : Nat} {line : SearchLine}
    (h : ((live.rowTextWithColumns row).map fun (line, columns) =>
        (⟨line, some columns, saturate (snapshot.visibleStartRow.toInt + rowsToI64 row)⟩ :
          SearchLine)) = some line) :
    Spaced line ∧ line.absoluteRow = saturate (snapshot.visibleStartRow.toInt + rowsToI64 row) := by
  obtain ⟨⟨text, columns⟩, htext, rfl⟩ := Option.map_eq_some_iff.mp h
  refine ⟨fun others hsome => ?_, rfl⟩
  obtain rfl := Option.some.inj hsome
  exact rowTextWithColumns_spaced htext

/-- How many rows of the live grid are searched. -/
def liveRows (snapshot : FindSnapshot) (live : GridBuffer) : Nat :=
  min (max snapshot.rows.toInt 0).toNat live.rows.toNat

theorem liveLines_spec
    (hrows : snapshot.visibleStartRow.toInt + liveRows snapshot live ≤ 2 ^ 63) :
    ((liveLines snapshot live).Pairwise fun earlier later =>
        earlier.absoluteRow < later.absoluteRow) ∧
      ∀ line ∈ liveLines snapshot live,
        Spaced line ∧ snapshot.visibleStartRow.toInt ≤ line.absoluteRow := by
  have hlow := snapshot.visibleStartRow.le_toInt
  have hsmall : liveRows snapshot live < 2 ^ 16 := by
    have := live.rows.toNat_lt
    unfold liveRows
    omega
  constructor
  · refine List.pairwise_filterMap.mpr (List.pairwise_lt_range.imp_of_mem ?_)
    intro row other hrow hother hlt line hline later hlater
    have hbound : other < liveRows snapshot live := List.mem_range.mp hother
    rw [(liveLine_eq hline).2, (liveLine_eq hlater).2]
    unfold saturate rowsToI64
    omega
  · intro line hline
    obtain ⟨row, hrow, hsome⟩ := List.mem_filterMap.mp hline
    have hbound : row < liveRows snapshot live := List.mem_range.mp hrow
    obtain ⟨hspaced, habsolute⟩ := liveLine_eq hsome
    refine ⟨hspaced, ?_⟩
    rw [habsolute]
    unfold saturate rowsToI64
    omega

theorem shownLines_spec (hlines : snapshot.lines.length < 2 ^ 63)
    (hrows : snapshot.visibleStartRow.toInt + liveRows snapshot live ≤ 2 ^ 63) :
    ((shownLines snapshot live).Pairwise fun earlier later =>
        earlier.absoluteRow < later.absoluteRow) ∧
      ∀ line ∈ shownLines snapshot live, Spaced line := by
  obtain ⟨hhistory, hbefore⟩ := historyLines_spec hlines
  obtain ⟨hlive, hafter⟩ := liveLines_spec hrows
  unfold shownLines
  split
  · exact ⟨hlive, fun line hline => (hafter line hline).1⟩
  · refine ⟨List.pairwise_append.mpr ⟨hhistory, hlive, ?_⟩, ?_⟩
    · intro earlier hearlier later hlater
      exact lt_of_lt_of_le (hbefore earlier hearlier).2 (hafter later hlater).2
    · intro line hline
      rcases List.mem_append.mp hline with hline | hline
      · exact (hbefore line hline).1
      · exact (hafter line hline).1

end

/-! ### The search -/

section

variable (lower : Char → List Char)

instance : Std.TransCmp compareMatches :=
  inferInstanceAs (Std.TransCmp (compareLex (compareOn FindMatch.absoluteRow)
    (compareOn FindMatch.startCol)))

theorem isLE_of_precedes {earlier later : FindMatch} (h : Precedes earlier later) :
    (compareMatches earlier later).isLE = true := by
  unfold compareMatches
  rcases h with hrow | ⟨hrow, hcol, _⟩
  · rw [compare_lt_iff_lt.mpr hrow]
    rfl
  · rw [compare_eq_iff_eq.mpr hrow, compare_lt_iff_lt.mpr hcol]
    rfl

theorem sortBy_eq_self {found : List FindMatch} (h : found.Pairwise Precedes) :
    Sorting.sortBy compareMatches found = found :=
  List.mergeSort_of_pairwise (h.imp isLE_of_precedes)

/-- The matches that a search from the left over the shown lines finds, up to the cap. -/
def FindsFirst (query : List Char) (snapshot : FindSnapshot) (live : GridBuffer) : Prop :=
  ∃ starts : SearchLine → List Nat,
    (∀ line, Leftmost (OccursAt lower query line.line) query.length 0 (starts line)) ∧
      buildMatches lower query snapshot live
        = ((shownLines snapshot live).flatMap fun line =>
            (starts line).map fun start => line.matchAt start query.length).take matchCap

theorem buildMatches_eq_take {query : List Char} (hquery : query ≠ []) {snapshot : FindSnapshot}
    {live : GridBuffer} (hlines : snapshot.lines.length < 2 ^ 63)
    (hrows : snapshot.visibleStartRow.toInt + liveRows snapshot live ≤ 2 ^ 63) :
    (occurrences lower query snapshot live).Pairwise Precedes ∧
      buildMatches lower query snapshot live
        = (occurrences lower query snapshot live).take matchCap := by
  obtain ⟨hrising, hspaced⟩ := shownLines_spec hlines hrows
  have hordered : (occurrences lower query snapshot live).Pairwise Precedes :=
    pairwise_flatMap_foundIn lower hquery hspaced hrising
  refine ⟨hordered, ?_⟩
  rw [buildMatches_eq lower hquery, sortBy_eq_self hordered, ite_self]

theorem length_buildMatches_le (query : List Char) (snapshot : FindSnapshot) (live : GridBuffer) :
    (buildMatches lower query snapshot live).length ≤ matchCap := by
  by_cases hquery : query = []
  · rw [buildMatches, if_pos hquery]
    exact Nat.zero_le _
  · rw [buildMatches_eq lower hquery]
    split
    · exact List.length_take_le _ _
    · exact List.length_take_le _ _

/-- A search finds no more than the cap, and while the rows have numbers of their own it finds the
first occurrences, in order and apart from each other. -/
theorem search_finds_first (query : List Char) (snapshot : FindSnapshot) (live : GridBuffer) :
    (query = [] → buildMatches lower query snapshot live = []) ∧
      (buildMatches lower query snapshot live).length ≤ matchCap ∧
      (snapshot.lines.length < 2 ^ 63 →
        snapshot.visibleStartRow.toInt + liveRows snapshot live ≤ 2 ^ 63 →
        (query ≠ [] → FindsFirst lower query snapshot live) ∧
          (buildMatches lower query snapshot live).Pairwise Precedes) := by
  refine ⟨fun hempty => if_pos hempty, length_buildMatches_le lower query snapshot live,
    fun hlines hrows => ?_⟩
  by_cases hquery : query = []
  · rw [buildMatches, if_pos hquery]
    exact ⟨fun hsome => absurd hquery hsome, List.Pairwise.nil⟩
  · obtain ⟨hordered, hbuilt⟩ := buildMatches_eq_take lower hquery hlines hrows
    refine ⟨fun _ => ⟨startsOf lower query, leftmost_startsOf lower hquery, hbuilt⟩, ?_⟩
    rw [hbuilt]
    exact hordered.sublist (List.take_sublist _ _)

end

/-! ### The last row there is -/

/-- A view of two rows, ` a` and `a `. -/
def twoRows : GridBuffer :=
  let letter : GridCell := { GridCell.blank with scalar := 97 }
  { GridBuffer.new 2 2 with cells := [.blank, letter, letter, .blank] }

theorem search_finds_first_two_rows :
    (buildMatches (fun c => [c.toLower]) ['A'] ⟨[['a', 'a']], 0, 1, 2, 2, 1, false⟩
      twoRows).Pairwise Precedes :=
  ((search_finds_first (fun c => [c.toLower]) ['A'] _ twoRows).2.2 (by decide)
    (by decide)).2

/-- Rows past the last number there is get that number, and the sort mixes them up. -/
theorem search_mixes_last_rows :
    ¬FindsFirst (fun c => [c.toLower]) ['a'] ⟨[], 0, 9223372036854775807, 2, 2, 1, false⟩
      twoRows := by
  rintro ⟨starts, hleftmost, hbuilt⟩
  have hstarts : starts = startsOf (fun c => [c.toLower]) ['a'] := funext fun line =>
    (hleftmost line).unique (leftmost_startsOf _ (by simp) line)
  have hall : occurrences (fun c => [c.toLower]) ['a']
      ⟨[], 0, 9223372036854775807, 2, 2, 1, false⟩ twoRows
        = [⟨9223372036854775807, 1, 2, [' ', 'a']⟩, ⟨9223372036854775807, 0, 1, ['a', ' ']⟩] := by
    decide
  rw [hstarts, buildMatches_eq _ (by simp)] at hbuilt
  change _ = (occurrences (fun c => [c.toLower]) ['a'] _ twoRows).take matchCap at hbuilt
  rw [hall, if_neg (by decide)] at hbuilt
  have hsorted := (Sorting.pairwise_sortBy compareMatches
    [⟨9223372036854775807, 1, 2, [' ', 'a']⟩, ⟨9223372036854775807, 0, 1, ['a', ' ']⟩]).sublist
      (List.take_sublist matchCap _)
  rw [hbuilt] at hsorted
  exact absurd hsorted (by decide)

end Homie.Term

/-! ### Stepping through the matches of a find, and where their highlights are

A step adds one to the index or takes one away, wraps it in 64 bits and reduces it by the number of
matches.  Adding never wraps.  Taking one away from zero does, and comes to the last match exactly
when that number divides `2 ^ 64`.

A highlight is placed by the live edge of the snapshot that the matches came from, and the window
shows its rows by the live edge of the viewport.  The two are set together by a snapshot and come
apart when rows are fetched later.
-/

namespace Homie.Term

open Trace (run)

namespace TerminalFindModel

/-! ### Navigation -/

section

variable (windowRow : Nat → Int) {model : TerminalFindModel} {viewport : ScrollbackViewport}

/-- The model with another match as its current one. -/
def atMatch (model : TerminalFindModel) (index : Nat) : TerminalFindModel :=
  { model with currentIndex := index }

/-- What `next` leaves behind. -/
def goNext (state : TerminalFindModel × ScrollbackViewport) :
    TerminalFindModel × ScrollbackViewport :=
  (state.1.next windowRow state.2).2

def goPrevious (state : TerminalFindModel × ScrollbackViewport) :
    TerminalFindModel × ScrollbackViewport :=
  (state.1.previous windowRow state.2).2

theorem advance_model (direction : Int)
    (h : wrappingAddSigned model.currentIndex direction % model.found.length < model.found.length)
    (viewport : ScrollbackViewport) :
    (model.advance windowRow direction viewport).2.1
      = model.atMatch (wrappingAddSigned model.currentIndex direction % model.found.length) := by
  unfold advance
  dsimp only
  rw [List.getElem?_eq_getElem h]
  dsimp only
  split
  · rfl
  · split
    · rfl
    · rfl

theorem wrappingAddSigned_one {index : Nat} (h : index + 1 < 2 ^ 64) :
    wrappingAddSigned index 1 = index + 1 := by
  unfold wrappingAddSigned
  omega

theorem wrappingAddSigned_neg_one {index : Nat} (h : index < 2 ^ 64) :
    wrappingAddSigned index (-1) = if index = 0 then 2 ^ 64 - 1 else index - 1 := by
  unfold wrappingAddSigned
  split <;> omega

theorem goNext_atMatch (hlength : model.found.length < 2 ^ 64) {index : Nat}
    (h : index < model.found.length) (viewport : ScrollbackViewport) :
    (goNext windowRow (model.atMatch index, viewport)).1
      = model.atMatch ((index + 1) % model.found.length) := by
  have hadd : wrappingAddSigned (model.atMatch index).currentIndex 1 = index + 1 :=
    wrappingAddSigned_one (show index + 1 < 2 ^ 64 by omega)
  have hlt := Nat.mod_lt (index + 1) (show 0 < model.found.length by omega)
  have hmodel := @advance_model windowRow (model.atMatch index) 1
    (by rw [hadd]; exact hlt) viewport
  rw [hadd] at hmodel
  exact hmodel

theorem goPrevious_atMatch (hlength : model.found.length < 2 ^ 64) {index : Nat}
    (h : index < model.found.length) (viewport : ScrollbackViewport) :
    (goPrevious windowRow (model.atMatch index, viewport)).1
      = model.atMatch (if index = 0 then (2 ^ 64 - 1) % model.found.length else index - 1) := by
  have hadd : wrappingAddSigned (model.atMatch index).currentIndex (-1)
      = if index = 0 then 2 ^ 64 - 1 else index - 1 :=
    wrappingAddSigned_neg_one (show index < 2 ^ 64 by omega)
  have hlt := Nat.mod_lt (if index = 0 then 2 ^ 64 - 1 else index - 1)
    (show 0 < model.found.length by omega)
  have hmodel := @advance_model windowRow (model.atMatch index) (-1)
    (by rw [hadd]; exact hlt) viewport
  rw [hadd] at hmodel
  refine hmodel.trans ?_
  change model.atMatch (_ % model.found.length) = _
  split
  · rfl
  · rw [Nat.mod_eq_of_lt (by omega)]

/-- `next` and `previous` turn the list of matches like a wheel. -/
structure Rotates (model : TerminalFindModel) (viewport : ScrollbackViewport) : Prop where
  undone : ∀ index < model.found.length,
    (goPrevious windowRow (goNext windowRow (model.atMatch index, viewport))).1
      = model.atMatch index
  redone : ∀ index < model.found.length,
    (goNext windowRow (goPrevious windowRow (model.atMatch index, viewport))).1
      = model.atMatch index
  visits : ∀ index < model.found.length,
    ((List.range model.found.length).map fun steps =>
        ((goNext windowRow)^[steps] (model.atMatch index, viewport)).1.currentIndex).Perm
      (List.range model.found.length)
  returns : ∀ index < model.found.length,
    ((goNext windowRow)^[model.found.length] (model.atMatch index, viewport)).1
      = model.atMatch index
  wraps : (goPrevious windowRow (model.atMatch 0, viewport)).1
    = model.atMatch (model.found.length - 1)

theorem iterate_goNext (hlength : model.found.length < 2 ^ 64) {index : Nat}
    (h : index < model.found.length) (viewport : ScrollbackViewport) (steps : Nat) :
    ((goNext windowRow)^[steps] (model.atMatch index, viewport)).1
      = model.atMatch ((index + steps) % model.found.length) := by
  induction steps with
  | zero => rw [Nat.add_zero, Nat.mod_eq_of_lt h]; rfl
  | succ steps ih =>
    rw [Function.iterate_succ_apply']
    generalize (goNext windowRow)^[steps] (model.atMatch index, viewport) = state at ih
    obtain ⟨reached, there⟩ := state
    obtain rfl : reached = _ := ih
    rw [goNext_atMatch windowRow hlength (Nat.mod_lt _ (by omega)), Nat.mod_add_mod,
      Nat.add_assoc]

/-- The wheel of `count` places, from one of them on. -/
theorem perm_map_add_mod {count index : Nat} (h : index < count) :
    ((List.range count).map fun steps => (index + steps) % count).Perm (List.range count) := by
  refine (List.perm_ext_iff_of_nodup ?_ List.nodup_range).mpr ?_
  · refine List.Nodup.map_on ?_ List.nodup_range
    intro i hi j hj heq
    have hi := List.mem_range.mp hi
    have hj := List.mem_range.mp hj
    have hsame : Nat.ModEq count i j := Nat.ModEq.add_left_cancel' index heq
    rwa [Nat.ModEq, Nat.mod_eq_of_lt hi, Nat.mod_eq_of_lt hj] at hsame
  · intro place
    simp only [List.mem_map, List.mem_range]
    constructor
    · rintro ⟨steps, _, rfl⟩
      exact Nat.mod_lt _ (by omega)
    · intro hplace
      refine ⟨(place + (count - index)) % count, Nat.mod_lt _ (by omega), ?_⟩
      rw [Nat.add_mod_mod, show index + (place + (count - index)) = place + count by omega,
        Nat.add_mod_right, Nat.mod_eq_of_lt hplace]

theorem pred_mod_iff {count : Nat} (h : 0 < count) :
    (2 ^ 64 - 1) % count = count - 1 ↔ count ∣ 2 ^ 64 := by
  have hdivide := Nat.div_add_mod (2 ^ 64 - 1) count
  constructor
  · intro hmod
    refine ⟨(2 ^ 64 - 1) / count + 1, ?_⟩
    rw [Nat.mul_add]
    omega
  · rintro ⟨factor, hfactor⟩
    have hpos : 0 < factor := Nat.pos_of_ne_zero fun hzero => by
      rw [hzero] at hfactor
      omega
    have hsplit : 2 ^ 64 - 1 = count - 1 + count * (factor - 1) := by
      rw [hfactor, Nat.mul_sub]
      have := Nat.le_mul_of_pos_right count hpos
      omega
    rw [hsplit, Nat.add_mul_mod_self_left, Nat.mod_eq_of_lt (by omega)]

/-- The steps turn a wheel exactly when the number of matches divides `2 ^ 64`. -/
theorem navigation_rotates_iff (viewport : ScrollbackViewport) (hfound : model.found ≠ [])
    (hlength : model.found.length < 2 ^ 64) :
    Rotates windowRow model viewport ↔ model.found.length ∣ 2 ^ 64 := by
  have hpos : 0 < model.found.length := List.length_pos_iff.mpr hfound
  have hwraps := goPrevious_atMatch windowRow hlength hpos viewport
  rw [if_pos rfl] at hwraps
  rw [← pred_mod_iff hpos]
  constructor
  · intro h
    have hindex := congrArg TerminalFindModel.currentIndex (hwraps.symm.trans h.wraps)
    exact hindex
  · intro hmod
    rw [hmod] at hwraps
    have hprevious : ∀ index < model.found.length, ∀ there,
        (goPrevious windowRow (model.atMatch index, there)).1
          = model.atMatch ((index + (model.found.length - 1)) % model.found.length) := by
      intro index hindex there
      rw [goPrevious_atMatch windowRow hlength hindex there, hmod]
      split
      · rename_i hzero
        rw [hzero, Nat.zero_add, Nat.mod_eq_of_lt (by omega)]
      · rw [show index + (model.found.length - 1) = index - 1 + model.found.length by omega,
          Nat.add_mod_right, Nat.mod_eq_of_lt (by omega)]
    refine ⟨?_, ?_, ?_, ?_, hwraps⟩
    · intro index hindex
      have hnext := goNext_atMatch windowRow hlength hindex viewport
      generalize goNext windowRow (model.atMatch index, viewport) = state at hnext
      obtain ⟨reached, there⟩ := state
      obtain rfl : reached = _ := hnext
      rw [hprevious _ (Nat.mod_lt _ hpos), Nat.mod_add_mod,
        show index + 1 + (model.found.length - 1) = index + model.found.length by omega,
        Nat.add_mod_right, Nat.mod_eq_of_lt hindex]
    · intro index hindex
      have hback := hprevious index hindex viewport
      generalize goPrevious windowRow (model.atMatch index, viewport) = state at hback
      obtain ⟨reached, there⟩ := state
      obtain rfl : reached = _ := hback
      rw [goNext_atMatch windowRow hlength (Nat.mod_lt _ hpos), Nat.mod_add_mod,
        show index + (model.found.length - 1) + 1 = index + model.found.length by omega,
        Nat.add_mod_right, Nat.mod_eq_of_lt hindex]
    · intro index hindex
      have hall : ((List.range model.found.length).map fun steps =>
          ((goNext windowRow)^[steps] (model.atMatch index, viewport)).1.currentIndex)
            = (List.range model.found.length).map fun steps =>
                (index + steps) % model.found.length :=
        List.map_congr_left fun steps _ =>
          congrArg currentIndex (iterate_goNext windowRow hlength hindex viewport steps)
      rw [hall]
      exact perm_map_add_mod hindex
    · intro index hindex
      rw [iterate_goNext windowRow hlength hindex, Nat.add_mod_right, Nat.mod_eq_of_lt hindex]

end

/-- A find with matches in one row, the first of them current. -/
def oneRow (columns : List Nat) : TerminalFindModel :=
  { default with
    query := ['a']
    found := columns.map fun column => ⟨0, column, column + 1, ['a', 'a', 'a']⟩
    cachedVisibleStartRow := some 0
    cachedRows := 1 }

theorem navigation_rotates_iff_two : Rotates (fun _ => 0) (oneRow [0, 1]) .default :=
  (navigation_rotates_iff (fun _ => 0) .default (by decide) (by decide)).mpr (by decide)

/-- Before the first of three matches there is no last one. -/
theorem previous_of_three_stays :
    (oneRow [0, 1, 2]).currentIndex = 0 ∧
      ((oneRow [0, 1, 2]).previous (fun _ => 0) .default).2.1.currentIndex = 0 ∧
      ¬Rotates (fun _ => 0) (oneRow [0, 1, 2]) .default := by
  refine ⟨rfl, by decide, fun h => ?_⟩
  have hindex := congrArg currentIndex h.wraps
  exact absurd hindex (by decide)

end TerminalFindModel

/-! ### Highlights -/

namespace FindState

open TerminalFindModel

section

variable {lower : Char → List Char} {windowRow : Nat → Int} {state : FindState}

/-- The viewport of a view with a find. -/
structure Ready (state : FindState) : Prop where
  pinned : state.viewport.Pinned
  known : state.model.cachedVisibleStartRow.isSome → state.viewport.geometryKnown = true
  rows : state.model.cachedRows < 2 ^ 63

theorem geometryKnown_step (viewport : ScrollbackViewport) (op : ScrollbackOp)
    (h : viewport.geometryKnown = true) : (viewport.step op).1.geometryKnown = true := by
  cases hdelivery : op.delivery with
  | none => rw [(ScrollbackViewport.step_moves viewport hdelivery).geometryKnown, h]
  | some delivery =>
    obtain ⟨inFlight, totalRows, visibleRows, heq⟩ :=
      ScrollbackViewport.step_delivery viewport hdelivery
    rw [heq, ScrollbackViewport.applyRows_geometryKnown]

/-- A step through the matches only scrolls. -/
theorem advance_moves (model : TerminalFindModel) (direction : Int)
    (viewport : ScrollbackViewport) :
    ScrollbackViewport.Moves viewport (model.advance windowRow direction viewport).2.2 ∧
      (model.advance windowRow direction viewport).2.1.cachedVisibleStartRow
        = model.cachedVisibleStartRow ∧
      (model.advance windowRow direction viewport).2.1.cachedRows = model.cachedRows := by
  unfold advance
  dsimp only
  split
  · exact ⟨⟨rfl, rfl, rfl, rfl, .inl ⟨rfl, rfl⟩⟩, rfl, rfl⟩
  · split
    · exact ⟨⟨rfl, rfl, rfl, rfl, .inl ⟨rfl, rfl⟩⟩, rfl, rfl⟩
    · split
      · exact ⟨ScrollbackViewport.moves_setViewOffset viewport _ _, rfl, rfl⟩
      · exact ⟨ScrollbackViewport.moves_setViewOffset viewport _ _, rfl, rfl⟩

theorem Ready.moves {model : TerminalFindModel} {viewport : ScrollbackViewport} (h : Ready state)
    (hmoves : ScrollbackViewport.Moves state.viewport viewport)
    (hstart : model.cachedVisibleStartRow = state.model.cachedVisibleStartRow)
    (hrows : model.cachedRows = state.model.cachedRows) :
    Ready { state with model := model, viewport := viewport } := by
  refine ⟨h.pinned.moves hmoves, ?_, by rw [hrows]; exact h.rows⟩
  intro hcached
  rw [hmoves.geometryKnown]
  rw [hstart] at hcached
  exact h.known hcached

theorem Ready.step (h : Ready state) (event : FindEvent) :
    Ready (state.step lower windowRow event).1 := by
  have hstill : ScrollbackViewport.Moves state.viewport state.viewport :=
    ⟨rfl, rfl, rfl, rfl, .inl ⟨rfl, rfl⟩⟩
  cases event with
  | setQuery query now =>
    refine h.moves hstill ?_ ?_
    · unfold setQuery
      split
      · rfl
      · dsimp only
        split <;> rfl
    · unfold setQuery
      split
      · rfl
      · dsimp only
        split <;> rfl
  | onOutput now =>
    refine h.moves hstill ?_ ?_
    · unfold onOutput
      split <;> rfl
    · unfold onOutput
      split <;> rfl
  | takeDueSearch now =>
    refine h.moves hstill ?_ ?_
    · unfold takeDueSearch
      split
      · rfl
      · split <;> rfl
    · unfold takeDueSearch
      split
      · rfl
      · split <;> rfl
  | applySnapshot request snapshot =>
    simp only [FindState.step, TerminalFindModel.applySnapshot]
    split
    · exact h
    · refine ⟨ScrollbackViewport.pinned_applyRows (inI64_toInt _) _ _ _ _ _ _, fun _ => ?_, ?_⟩
      · exact ScrollbackViewport.applyRows_geometryKnown _ _ _ _ _ _ _
      · have hrows := snapshot.rows.toInt_lt
        dsimp only
        omega
  | next =>
    obtain ⟨hmoves, hstart, hrows⟩ := @advance_moves windowRow state.model 1
      state.viewport
    exact h.moves hmoves hstart hrows
  | previous =>
    obtain ⟨hmoves, hstart, hrows⟩ := @advance_moves windowRow state.model (-1)
      state.viewport
    exact h.moves hmoves hstart hrows
  | viewport op =>
    exact ⟨h.pinned.step op, fun hcached => geometryKnown_step _ op (h.known hcached), h.rows⟩
  | update update => exact ⟨h.pinned, h.known, h.rows⟩

theorem ready_default (live : GridBuffer) : Ready ⟨default, .default, live⟩ :=
  ⟨ScrollbackViewport.pinned_default, nofun, Nat.two_pow_pos 63⟩

theorem run_ready (live : GridBuffer) (events : List FindEvent) :
    Ready (run (FindState.step lower windowRow) ⟨default, .default, live⟩ events) :=
  Trace.run_invariant _ (ready_default live) (fun _ event h => h.step event) events

/-- Each span is on the row where the window of `visibleRows` rows shows its match. -/
def SpansRight (state : FindState) (visibleRows : Nat) : Prop :=
  ∀ visibleStart, state.model.cachedVisibleStartRow = some visibleStart →
    ∀ item index, (item, index) ∈ state.model.found.zipIdx →
      ∀ span, state.model.spanOf state.viewport visibleStart item index = some span →
        state.viewport.windowRowForAbsolute item.absoluteRow = some (span.row : Int) ∧
          span.row < visibleRows

/-- Where a match is among the rows of the snapshot, moved up by the offset, the snapshot and the
viewport have the same live edge and the match is in the window. -/
def Aligned (state : FindState) (visibleRows : Nat) : Prop :=
  ∀ visibleStart, state.model.cachedVisibleStartRow = some visibleStart →
    ∀ item ∈ state.model.found,
      saturate (visibleStart.toInt - state.viewport.viewOffset) ≤ item.absoluteRow →
      item.absoluteRow < saturate (visibleStart.toInt - state.viewport.viewOffset)
        + state.model.cachedRows →
      visibleStart.toInt = state.viewport.liveStartRow ∧
        item.absoluteRow < state.viewport.liveStartRow - state.viewport.viewOffset + visibleRows

theorem spanOf_eq_some {visibleStart : Int64} {item : FindMatch} {index : Nat} {span : FindSpan}
    (h : state.model.spanOf state.viewport visibleStart item index = some span) :
    (span.row : Int)
        = item.absoluteRow - saturate (visibleStart.toInt - state.viewport.viewOffset) ∧
      span.row < state.model.cachedRows := by
  unfold spanOf at h
  dsimp only at h
  split at h
  · obtain rfl := Option.some.inj h
    exact ⟨by dsimp only; omega, by dsimp only; omega⟩
  · cases h

theorem Ready.absoluteRow_zero (h : Ready state)
    (hcached : state.model.cachedVisibleStartRow.isSome) :
    state.viewport.absoluteRow 0 = state.viewport.liveStartRow - state.viewport.viewOffset := by
  have hwithin := h.pinned.within (h.known hcached)
  have hnonneg := h.pinned.nonneg
  have hlow := h.pinned.live.1
  have hhigh := h.pinned.live.2
  have hzero : rowsToI64 0 = 0 := rfl
  have hfits : InI64 (state.viewport.liveStartRow - state.viewport.viewOffset) :=
    ⟨by omega, by omega⟩
  rw [ScrollbackViewport.absoluteRow, hzero, Int.add_zero, saturate_of_mem hfits,
    saturate_of_mem hfits]

theorem Ready.top_eq_iff (h : Ready state) {visibleStart : Int64}
    (hcached : state.model.cachedVisibleStartRow = some visibleStart) :
    saturate (visibleStart.toInt - state.viewport.viewOffset)
        = state.viewport.liveStartRow - state.viewport.viewOffset ↔
      visibleStart.toInt = state.viewport.liveStartRow := by
  have hwithin := h.pinned.within (h.known (by rw [hcached]; rfl))
  have hnonneg := h.pinned.nonneg
  have hlow := h.pinned.live.1
  have hstart := visibleStart.le_toInt
  have hend := visibleStart.toInt_lt
  unfold saturate
  omega

theorem Ready.spansRight_iff (h : Ready state) (visibleRows : Nat) :
    SpansRight state visibleRows ↔ Aligned state visibleRows := by
  unfold SpansRight Aligned
  refine forall₂_congr fun visibleStart hcached => ?_
  have htop := h.absoluteRow_zero (by rw [hcached]; rfl)
  have hsame := h.top_eq_iff hcached
  have hrows := h.rows
  constructor
  · intro hright item hitem hfirst hlast
    obtain ⟨index, hindex⟩ := List.mem_iff_getElem?.mp hitem
    have hspan : state.model.spanOf state.viewport visibleStart item index
        = some ⟨(item.absoluteRow
            - saturate (visibleStart.toInt - state.viewport.viewOffset)).toNat,
          item.startCol, item.endColExclusive, index = state.model.currentIndex⟩ :=
      if_pos ⟨by omega, by omega, by omega⟩
    obtain ⟨hshown, hinside⟩ :=
      hright item index (List.mk_mem_zipIdx_iff_getElem?.mpr hindex) _ hspan
    unfold ScrollbackViewport.windowRowForAbsolute at hshown
    rw [htop] at hshown
    dsimp only at hshown hinside
    split at hshown
    · have hrow := Option.some.inj hshown
      have hedges := hsame.mp (by omega)
      exact ⟨hedges, by omega⟩
    · cases hshown
  · intro haligned item index hindex span hspan
    obtain ⟨hrow, hcount⟩ := spanOf_eq_some hspan
    have hitem := List.mem_of_getElem? (List.mk_mem_zipIdx_iff_getElem?.mp hindex)
    obtain ⟨hedges, hinside⟩ := haligned item hitem (by omega) (by omega)
    have htops := hsame.mpr hedges
    refine ⟨?_, by omega⟩
    unfold ScrollbackViewport.windowRowForAbsolute
    rw [htop]
    dsimp only
    rw [if_pos (by omega), hrow, htops]

/-- In every state a run reaches, the highlights are on their matches exactly when the snapshot and
the viewport agree on the rows they show. -/
theorem highlights_on_matches_iff (lower : Char → List Char) (windowRow : Nat → Int)
    (live : GridBuffer) (events : List FindEvent) (visibleRows : Nat) :
    SpansRight (run (FindState.step lower windowRow) ⟨default, .default, live⟩ events)
        visibleRows ↔
      Aligned (run (FindState.step lower windowRow) ⟨default, .default, live⟩ events)
        visibleRows :=
  (run_ready live events).spansRight_iff visibleRows

end

/-! ### Rows fetched after a snapshot -/

/-- A find for `a` in a view of two rows with ten rows of history, and rows that are fetched when
two more lines have come. -/
def fetchedLater : FindState :=
  run (FindState.step (fun c => [c.toLower]) fun _ => 0) ⟨default, .default, twoRows⟩
    [.setQuery ['a'] 0, .takeDueSearch searchDebounce,
      .applySnapshot ⟨['a'], false, 1⟩ ⟨[], 0, 10, 2, 2, 1, false⟩,
      .viewport (.applyRows [] 12 12 14 2 2)]

/-- The match in row 10 is above the window by now, and its span is on the first row. -/
theorem fetched_rows_shift_highlights :
    fetchedLater.viewport.windowRowForAbsolute 10 = some (-2) ∧ ¬SpansRight fetchedLater 2 := by
  refine ⟨by decide, ?_⟩
  have hfound : buildMatches (fun c => [c.toLower]) ['a'] ⟨[], 0, 10, 2, 2, 1, false⟩ twoRows
      = [⟨10, 1, 2, [' ', 'a']⟩, ⟨11, 0, 1, ['a', ' ']⟩] := by
    rw [(buildMatches_eq_take _ (by simp) (by decide) (by decide)).2]
    decide
  have hmatches : fetchedLater.model.found
      = [⟨10, 1, 2, [' ', 'a']⟩, ⟨11, 0, 1, ['a', ' ']⟩] := hfound
  unfold fetchedLater at hmatches ⊢
  rw [(run_ready twoRows _).spansRight_iff 2]
  intro haligned
  have hsame := (haligned 10 (by decide) ⟨10, 1, 2, [' ', 'a']⟩
    (by rw [hmatches]; exact List.mem_cons_self) (by decide) (by decide)).1
  exact absurd hsame (by decide)

end FindState

end Homie.Term
