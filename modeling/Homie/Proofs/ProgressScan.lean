/-
Progress reports do not depend on how the stream is cut.

A complete report is the prefix, a payload without a terminator, and a terminator.  Reports do not
overlap, so the scan of a haystack ends with the last complete one in it.  The last 64 bytes are
scanned again with the next chunk: a report that fits into them is seen whole by the chunk that
ends it, and one that is seen twice is followed by the same reports both times.
-/
import Homie.Proofs.ScreenSteps

namespace Homie

/-- A byte that ends a report. -/
def endsReport (b : UInt8) : Bool := b == 0x07 || b == 0x1b

/-- What a report says. -/
def reportOf (payload : List UInt8) : Option Int × Option Int :=
  ((payload.splitOn 0x3b)[0]?.bind parsePart, (payload.splitOn 0x3b)[1]?.bind parsePart)

/-- A report stands at `start`, and is ended. -/
def CompleteAt (stream : List UInt8) (start : Nat) (payload : List UInt8) : Prop :=
  ∃ stop back, stream.drop start = progressPrefix ++ payload ++ stop :: back ∧
    endsReport stop = true ∧ ∀ b ∈ payload, endsReport b = false

/-- No complete report stands behind this one. -/
def LastAt (stream : List UInt8) (start : Nat) (payload : List UInt8) : Prop :=
  CompleteAt stream start payload ∧
    ∀ other payload', CompleteAt stream other payload' → other ≤ start

/-- The progress after a stream: its last complete report, or what it was before. -/
def Reports (stream : List UInt8) (before after : Option Int × Option Int) : Prop :=
  (∀ start payload, ¬ CompleteAt stream start payload) ∧ after = before ∨
    ∃ start payload, LastAt stream start payload ∧ after = reportOf payload

/-! ### Complete reports -/

theorem CompleteAt.payload_eq {stream : List UInt8} {start : Nat} {payload : List UInt8}
    (h : CompleteAt stream start payload) :
    payload = ((stream.drop start).drop progressPrefix.length).takeWhile (!endsReport ·) := by
  obtain ⟨stop, back, heq, hstop, hall⟩ := h
  rw [heq, List.append_assoc, List.drop_left, List.takeWhile_append_of_pos (by simpa using hall)]
  simp [hstop]

theorem CompleteAt.append {stream : List UInt8} {start : Nat} {payload : List UInt8}
    (h : CompleteAt stream start payload) (more : List UInt8) :
    CompleteAt (stream ++ more) start payload := by
  obtain ⟨stop, back, heq, hends⟩ := h
  have hle : start ≤ stream.length := by
    refine Nat.le_of_not_lt fun hlt => ?_
    rw [List.drop_of_length_le hlt.le] at heq
    exact absurd heq.symm (by simp)
  refine ⟨stop, back ++ more, ?_, hends⟩
  rw [List.drop_append_of_le_length hle, heq]
  simp

theorem CompleteAt.length_lt {stream : List UInt8} {start : Nat} {payload : List UInt8}
    (h : CompleteAt stream start payload) :
    progressPrefix.length + payload.length < stream.length := by
  obtain ⟨stop, back, heq, -⟩ := h
  have hlen := congrArg List.length heq
  simp only [List.length_drop, List.length_append, List.length_cons] at hlen
  omega

/-- A report that is ended within the first part of a stream is complete there. -/
theorem CompleteAt.of_append {stream more : List UInt8} {start : Nat} {payload : List UInt8}
    (h : CompleteAt (stream ++ more) start payload)
    (hfits : start + progressPrefix.length + payload.length < stream.length) :
    CompleteAt stream start payload := by
  obtain ⟨stop, back, heq, hends⟩ := h
  rw [List.drop_append_of_le_length (by omega)] at heq
  have hshort : (progressPrefix ++ payload ++ [stop]).length ≤ (stream.drop start).length := by
    simp only [List.length_append, List.length_singleton, List.length_drop]
    omega
  have hleads : progressPrefix ++ payload ++ [stop] <+: stream.drop start := by
    refine List.prefix_of_prefix_length_le ⟨back, ?_⟩ (List.prefix_append _ more) hshort
    rw [heq]
    simp
  obtain ⟨rest, hrest⟩ := hleads
  exact ⟨stop, rest, by rw [← hrest]; simp, hends⟩

theorem completeAt_drop {stream : List UInt8} {cut start : Nat} {payload : List UInt8} :
    CompleteAt (stream.drop cut) start payload ↔ CompleteAt stream (cut + start) payload := by
  unfold CompleteAt
  rw [List.drop_drop]

theorem LastAt.of_drop {stream : List UInt8} {cut start : Nat} {payload : List UInt8}
    (h : LastAt (stream.drop cut) start payload) : LastAt stream (cut + start) payload := by
  refine ⟨completeAt_drop.mp h.1, fun other payload' hother => ?_⟩
  rcases Nat.le_total cut other with hle | hle
  · obtain ⟨behind, rfl⟩ := Nat.exists_eq_add_of_le hle
    exact Nat.add_le_add_left (h.2 behind payload' (completeAt_drop.mpr hother)) cut
  · omega

theorem Reports.unique {stream : List UInt8} {before after after' : Option Int × Option Int}
    (h : Reports stream before after) (h' : Reports stream before after') : after = after' := by
  rcases h with ⟨hnone, rfl⟩ | ⟨start, payload, hlast, rfl⟩ <;>
    rcases h' with ⟨hnone', rfl⟩ | ⟨start', payload', hlast', rfl⟩
  · rfl
  · exact absurd hlast'.1 (hnone _ _)
  · exact absurd hlast.1 (hnone' _ _)
  · obtain rfl : start = start' :=
      Nat.le_antisymm (hlast'.2 _ _ hlast.1) (hlast.2 _ _ hlast'.1)
    rw [hlast.1.payload_eq, hlast'.1.payload_eq]

/-! ### One scan -/

theorem find_progressPrefix_some {haystack : List UInt8} {found : Nat}
    (h : find haystack progressPrefix = some found) :
    progressPrefix <+: haystack.drop found ∧
      ∀ j < found, ¬ progressPrefix <+: haystack.drop j := by
  unfold find at h
  split at h
  · exact nomatch h
  · obtain ⟨hfound, -, hfirst⟩ := List.find?_range_eq_some.mp h
    refine ⟨List.prefix_iff_eq_take.mpr (eq_of_beq hfound).symm, fun j hj hleads => ?_⟩
    have hnot := hfirst j hj
    rw [← List.prefix_iff_eq_take.mp hleads] at hnot
    simp at hnot

theorem find_progressPrefix_none {haystack : List UInt8}
    (h : find haystack progressPrefix = none) (j : Nat) :
    ¬ progressPrefix <+: haystack.drop j := by
  intro hleads
  have hlen := hleads.length_le
  rw [List.length_drop] at hlen
  have hpos : progressPrefix.length = 6 := rfl
  unfold find at h
  rw [if_neg (by rw [not_or]; exact ⟨by decide, by omega⟩)] at h
  have hnot := List.find?_range_eq_none.mp h j (by omega)
  rw [← List.prefix_iff_eq_take.mp hleads] at hnot
  simp at hnot

theorem CompleteAt.leads {stream : List UInt8} {start : Nat} {payload : List UInt8}
    (h : CompleteAt stream start payload) : progressPrefix <+: stream.drop start := by
  obtain ⟨stop, back, heq, -⟩ := h
  rw [heq, List.append_assoc]
  exact List.prefix_append _ _

/-- Behind its first byte a report has no byte that another could begin with. -/
theorem CompleteAt.behind {stream : List UInt8} {found stop start : Nat} {payload : List UInt8}
    (hfound : progressPrefix <+: stream.drop found)
    (hfirst : ∀ j < found, ¬ progressPrefix <+: stream.drop j)
    (hplain : ∀ b ∈ ((stream.drop (found + 6)).take stop), endsReport b = false)
    (h : CompleteAt stream start payload) : start = found ∨ found + 6 + stop ≤ start := by
  rcases Nat.lt_trichotomy start found with hlt | heq | hgt
  · exact absurd h.leads (hfirst start hlt)
  · exact Or.inl heq
  · refine Or.inr (Nat.le_of_not_lt fun hinside => ?_)
    obtain ⟨rest, hrest⟩ := h.leads
    have hescape : stream[start]? = some 0x1b := by
      rw [show stream[start]? = (stream.drop start)[0]? by simp, ← hrest]
      rfl
    by_cases hopening : start < found + 6
    · obtain ⟨tail, htail⟩ := hfound
      have hat : stream[start]? = progressPrefix[start - found]? := by
        have hsplit : start = found + (start - found) := by omega
        rw [hsplit, ← List.getElem?_drop, ← htail, List.getElem?_append_left]
        · rw [Nat.add_sub_cancel_left]
        · show start - found < 6
          omega
      rw [hescape] at hat
      obtain ⟨k, hk⟩ := Nat.exists_eq_add_of_lt hgt
      rw [show start - found = k + 1 by omega] at hat
      have htails : (0x1b : UInt8) ∉ progressPrefix.tail := by decide
      exact htails (List.mem_of_getElem? (i := k) hat.symm)
    · have hmem : (0x1b : UInt8) ∈ (stream.drop (found + 6)).take stop := by
        refine List.mem_of_getElem? (i := start - (found + 6)) ?_
        rw [List.getElem?_take_of_lt (by omega), List.getElem?_drop, ← hescape]
        congr 1
        omega
      exact absurd (hplain _ hmem) (by decide)

theorem scanReports_spec (fuel : Nat) (haystack : List UInt8) (progress : Option Int × Option Int)
    (hfuel : haystack.length ≤ fuel) :
    Reports haystack progress (scanReports fuel haystack progress) := by
  induction fuel generalizing haystack progress with
  | zero =>
    obtain rfl := List.eq_nil_of_length_eq_zero (Nat.le_zero.mp hfuel)
    refine Or.inl ⟨fun start payload h => ?_, rfl⟩
    have hleads := h.leads
    rw [List.drop_nil] at hleads
    exact absurd hleads (by decide)
  | succ fuel ih =>
    rw [scanReports]
    cases hfind : find haystack progressPrefix with
    | none =>
      exact Or.inl ⟨fun start payload h => find_progressPrefix_none hfind start h.leads, rfl⟩
    | some found =>
      obtain ⟨hfound, hfirst⟩ := find_progressPrefix_some hfind
      dsimp only
      cases hstop : (haystack.drop (found + progressPrefix.length)).findIdx? fun b =>
          b == 0x07 || b == 0x1b with
      | none =>
        -- A complete report would end behind the prefix that was found.
        refine Or.inl ⟨fun start payload h => ?_, rfl⟩
        have hstart : found ≤ start :=
          Nat.le_of_not_lt fun hlt => hfirst start hlt h.leads
        obtain ⟨stop, back, heq, hends, -⟩ := h
        have hmem : stop ∈ haystack.drop (found + progressPrefix.length) := by
          have hsuffix : stop :: back <:+ haystack.drop (found + progressPrefix.length) := by
            have hback : stop :: back <:+ haystack :=
              (List.suffix_append _ _).trans (heq ▸ List.drop_suffix start haystack)
            refine List.suffix_of_suffix_length_le hback (List.drop_suffix _ _) ?_
            have hlen := congrArg List.length heq
            simp only [List.length_drop, List.length_append, List.length_cons] at hlen ⊢
            omega
          exact hsuffix.mem List.mem_cons_self
        exact absurd hends (by simpa [endsReport] using List.findIdx?_eq_none_iff.mp hstop stop hmem)
      | some stop =>
        obtain ⟨hlt, hends, hbefore⟩ := List.findIdx?_eq_some_iff_getElem.mp hstop
        have hplain : ∀ b ∈ (haystack.drop (found + 6)).take stop, endsReport b = false := by
          intro b hb
          obtain ⟨j, hj, rfl⟩ := List.mem_take_iff_getElem.mp hb
          simpa [endsReport, progressPrefix] using hbefore j (by omega)
        have hcomplete : CompleteAt haystack found ((haystack.drop (found + 6)).take stop) := by
          refine ⟨_, (haystack.drop (found + 6)).drop (stop + 1), ?_, hends, hplain⟩
          obtain ⟨tail, htail⟩ := hfound
          have hdrop : haystack.drop (found + 6) = tail := by
            rw [← List.drop_drop, ← htail]
            rfl
          simp only [show progressPrefix.length = 6 from rfl, hdrop] at hlt ⊢
          rw [← htail, List.append_assoc, List.getElem_cons_drop, List.take_append_drop]
        have hrest := ih ((haystack.drop (found + 6)).drop stop)
          (reportOf ((haystack.drop (found + 6)).take stop)) (by
            simp only [List.length_drop]
            omega)
        rw [List.drop_drop] at hrest
        refine Or.inr ?_
        show ∃ start payload, LastAt haystack start payload ∧
          scanReports fuel ((haystack.drop (found + 6)).drop stop)
            (reportOf ((haystack.drop (found + 6)).take stop)) = reportOf payload
        rw [List.drop_drop]
        rcases hrest with ⟨hnone, heq⟩ | ⟨start, payload, hlast, heq⟩
        · refine ⟨found, _, ⟨hcomplete, fun other payload' hother => ?_⟩, heq⟩
          rcases hother.behind hfound hfirst hplain with rfl | hbehind
          · exact Nat.le_refl _
          · obtain ⟨behind, rfl⟩ := Nat.exists_eq_add_of_le hbehind
            exact absurd (completeAt_drop.mpr hother) (hnone behind payload')
        · exact ⟨_, payload, hlast.of_drop, heq⟩

/-! ### Chunk by chunk -/

namespace HeadlessScreen

variable {T : Type} (E : Backend T)

def progress (s : HeadlessScreen T) : Option Int × Option Int := (s.progressState, s.progressValue)

theorem feed_progress (s : HeadlessScreen T) (bytes : List UInt8) :
    (s.feed E bytes).progress = (s.scanProgress bytes).progress ∧
      (s.feed E bytes).progressCarry = (s.scanProgress bytes).progressCarry := by
  rw [feed_eq]
  by_cases h : s.Refreshes E bytes
  · rw [if_pos h]
    exact ⟨rfl, rfl⟩
  · rw [if_neg h]
    exact ⟨rfl, rfl⟩

/-- The carry is the end of the stream, and the progress its last complete report. -/
structure Scans (s : HeadlessScreen T) (stream : List UInt8) : Prop where
  carry : s.progressCarry = stream.drop (stream.length - 64)
  reports : Reports stream (none, none) s.progress

theorem Scans.feed {s : HeadlessScreen T} {stream : List UInt8} (h : s.Scans stream)
    {bytes : List UInt8} (hshort : ∀ start payload, CompleteAt (stream ++ bytes) start payload →
      progressPrefix.length + payload.length ≤ 64) :
    (s.feed E bytes).Scans (stream ++ bytes) := by
  have hhaystack : s.progressCarry ++ bytes = (stream ++ bytes).drop (stream.length - 64) := by
    rw [h.carry, List.drop_append_of_le_length (Nat.sub_le _ _)]
  obtain ⟨hprogress, hcarry⟩ := s.feed_progress E bytes
  refine ⟨?_, ?_⟩
  · rw [hcarry]
    show (s.progressCarry ++ bytes).drop _ = _
    rw [hhaystack, List.drop_drop]
    have hcut : stream.length - 64 + (((stream ++ bytes).drop (stream.length - 64)).length - 64)
        = (stream ++ bytes).length - 64 := by
      simp only [List.length_drop, List.length_append]
      omega
    rw [hcut]
  · rw [hprogress]
    have hscan := scanReports_spec _ (s.progressCarry ++ bytes) s.progress (Nat.le_refl _)
    have hsame : (s.scanProgress bytes).progress
        = scanReports (s.progressCarry ++ bytes).length (s.progressCarry ++ bytes) s.progress := rfl
    rw [← hsame, hhaystack] at hscan
    -- A report that begins before the carry has ended before the chunk.
    have hearlier : ∀ {start payload}, CompleteAt (stream ++ bytes) start payload →
        start < stream.length - 64 → CompleteAt stream start payload := by
      intro start payload hcomplete hstart
      have hfits := hshort start payload hcomplete
      exact hcomplete.of_append (by omega)
    rcases hscan with ⟨hnone, heq⟩ | ⟨start, payload, hlast, heq⟩
    · have hbefore : ∀ {start payload}, CompleteAt (stream ++ bytes) start payload →
          start < stream.length - 64 := by
        intro start payload hcomplete
        refine Nat.lt_of_not_le fun hle => ?_
        obtain ⟨behind, rfl⟩ := Nat.exists_eq_add_of_le hle
        exact hnone behind payload (completeAt_drop.mpr hcomplete)
      rcases h.reports with ⟨hno, hnew⟩ | ⟨start, payload, hlast, hnew⟩
      · exact Or.inl ⟨fun start payload hcomplete =>
          hno start payload (hearlier hcomplete (hbefore hcomplete)), heq.trans hnew⟩
      · refine Or.inr ⟨start, payload, ⟨hlast.1.append bytes, ?_⟩, heq.trans hnew⟩
        exact fun other payload' hother =>
          hlast.2 other payload' (hearlier hother (hbefore hother))
    · exact Or.inr ⟨_, payload, hlast.of_drop, heq⟩

theorem scans_feeds {s : HeadlessScreen T} {stream : List UInt8} (h : s.Scans stream)
    (chunks : List (List UInt8))
    (hshort : ∀ start payload, CompleteAt (stream ++ chunks.flatten) start payload →
      progressPrefix.length + payload.length ≤ 64) :
    (chunks.foldl (HeadlessScreen.feed E) s).Scans (stream ++ chunks.flatten) := by
  induction chunks generalizing s stream with
  | nil => simpa using h
  | cons chunk chunks ih =>
    rw [List.flatten_cons, ← List.append_assoc] at hshort ⊢
    refine ih (h.feed E fun start payload hcomplete => ?_) hshort
    exact hshort start payload (hcomplete.append _)

/-- **The cuts do not matter.** However a stream is cut whose complete reports fit into the carry,
the screen ends with the same progress, that of the last complete report. -/
theorem progress_chunk_independent (cols rows : Nat) {chunks other : List (List UInt8)}
    (hsame : chunks.flatten = other.flatten)
    (hshort : ∀ start payload, CompleteAt chunks.flatten start payload →
      progressPrefix.length + payload.length ≤ 64) :
    (chunks.foldl (HeadlessScreen.feed E) (new E cols rows)).progress
        = (other.foldl (HeadlessScreen.feed E) (new E cols rows)).progress ∧
      ((∀ start payload, ¬ CompleteAt chunks.flatten start payload) ∧
          (chunks.foldl (HeadlessScreen.feed E) (new E cols rows)).progress = (none, none) ∨
        ∃ start payload, LastAt chunks.flatten start payload ∧
          (chunks.foldl (HeadlessScreen.feed E) (new E cols rows)).progress
            = reportOf payload) := by
  have hnew : (new E cols rows).Scans [] := by
    refine ⟨rfl, Or.inl ⟨fun start payload h => ?_, rfl⟩⟩
    have hleads := h.leads
    rw [List.drop_nil] at hleads
    exact absurd hleads (by decide)
  have hone := (scans_feeds E hnew chunks (by simpa using hshort)).reports
  have htwo := (scans_feeds E hnew other (by simpa [← hsame] using hshort)).reports
  rw [List.nil_append] at hone htwo
  rw [← hsame] at htwo
  exact ⟨hone.unique htwo, hone⟩

def splitReport : List (List UInt8) := [progressPrefix ++ [0x31], [0x3b, 0x37, 0x35, 0x07]]

def wholeReport : List (List UInt8) := [progressPrefix ++ [0x31, 0x3b, 0x37, 0x35, 0x07]]

/-- A report that two reads split, and one read has whole. -/
theorem progress_chunk_independent_split :
    (splitReport.foldl (HeadlessScreen.feed LineTerm.backend) (new LineTerm.backend 80 24)).progress
      = (wholeReport.foldl (HeadlessScreen.feed LineTerm.backend)
        (new LineTerm.backend 80 24)).progress := by
  have hsame : splitReport.flatten = wholeReport.flatten := by decide
  have hlen : splitReport.flatten.length = 11 := by decide
  refine (progress_chunk_independent LineTerm.backend 80 24 hsame fun start payload h => ?_).1
  have hlt := h.length_lt
  omega

end HeadlessScreen

end Homie
