/-
What `parse_transcript` makes of a transcript.

A line is read behind a cursor, and the cursor depends on the lines before it alone.  So the event
of a text behind the first lines of a transcript is the same for as long as the transcript only
grows (`TextEvent.grow`), and a parse returns the events of the complete lines and of the rest
behind them, no more (`mem_parseTranscript`).

A rest that reads as an event is an object, and nothing but white space may follow one.  The line
that the rest grows into is then the same event, or none, so one place never has two events
(`TextEvent.unique`).  The offsets of the places of one transcript are different, and where no
transcript's path and offset begin those of another, so are the texts that are hashed: two events
with one identifier come from one place (`TextEvent.place`).
-/
import Homie.Node.Usage
import Homie.Proofs.Blobs

namespace Homie.Usage

open Events (JsonValue)
open Lines (Bytes Plain bufLines join split stripCr)
open Node (ProviderKind hexEncode hexPairs)

/-! ### Lines -/

section Reading

variable (tools : Tools)

/-- The cursor behind these lines, as the file has them. -/
def cursorAt (provider : ProviderKind) (lines : List Bytes) : Cursor :=
  (lines.map stripCr).foldl
    (fun cursor line => cursor.after provider line (tools.fromStr line)) .start

/-- What a text behind these lines is read as. -/
def textEvent (path : Path) (profile : AccountProfile) (lines : List Bytes) (text : Bytes) :
    Option UsageEvent :=
  match parseLine tools path profile.provider profile.id (cursorAt tools profile.provider lines)
      text with
  | .ok (_, event) => event
  | .error _ => none

/-- A text of the file, behind some of its lines, that is read as this event. -/
structure TextEvent (file : Transcript) (profile : AccountProfile) (lines : List Bytes)
    (text : Bytes) (event : UsageEvent) : Prop where
  plain : ∀ line ∈ lines, Plain line
  leads : join lines ++ text <+: file.bytes
  reads : textEvent tools file.path profile lines text = some event

/-- A complete line of the file that is read as this event. -/
def UsageLine (file : Transcript) (profile : AccountProfile) (lines : List Bytes)
    (event : UsageEvent) : Prop :=
  ∃ line back, (split file.bytes).1 = lines ++ line :: back ∧
    textEvent tools file.path profile lines (stripCr line) = some event

/-- An object of JSON is over with its brace: nothing but white space follows it. -/
def Tools.ObjectsEnd : Prop :=
  ∀ text more fields value, tools.fromStr text = some (.object fields) →
    tools.fromStr (text ++ more) = some value → value = .object fields

variable {tools} {path : Path} {provider : ProviderKind} {profileId : String}

theorem parseLine_ok {cursor after : Cursor} {line : Bytes} {event : Option UsageEvent}
    (h : parseLine tools path provider profileId cursor line = .ok (after, event)) :
    Utf8.valid line = true ∧ after = cursor.after provider line (tools.fromStr line) ∧
      ((tools.fromStr line = none ∧ event = none) ∨
        ∃ value, tools.fromStr line = some value ∧
          parseValue tools path provider profileId cursor.offset after.codexModel value
            = .ok event) := by
  unfold parseLine at h
  split at h
  · cases h
  · rename_i hvalid
    refine ⟨by simpa using hvalid, ?_⟩
    dsimp only at h
    split at h
    · rename_i hvalue
      cases h
      exact ⟨by rw [hvalue], .inl ⟨hvalue, rfl⟩⟩
    · rename_i value hvalue
      rw [hvalue] at h
      cases hparsed : parseValue tools path provider profileId cursor.offset
          (cursor.after provider line (some value)).codexModel value with
      | error failure =>
        rw [hparsed] at h
        cases h
      | ok parsed =>
        rw [hparsed] at h
        cases h
        exact ⟨by rw [hvalue], .inr ⟨value, hvalue, hparsed⟩⟩

theorem parseLine_of_value {cursor : Cursor} {line : Bytes} {value : JsonValue}
    {event : Option UsageEvent} (hvalid : Utf8.valid line = true)
    (hvalue : tools.fromStr line = some value)
    (hparsed : parseValue tools path provider profileId cursor.offset
      (cursor.after provider line (some value)).codexModel value = .ok event) :
    parseLine tools path provider profileId cursor line
      = .ok (cursor.after provider line (some value), event) := by
  unfold parseLine
  rw [hvalid, hvalue, Bool.not_true, if_neg Bool.false_ne_true]
  dsimp only
  rw [hparsed]
  rfl

/-- Only an object is an event, and the event is named after its place. -/
theorem parseValue_some {offset : Nat} {codexModel : Option String} {value : JsonValue}
    {event : UsageEvent}
    (h : parseValue tools path provider profileId offset codexModel value = .ok (some event)) :
    (∃ fields, value = .object fields) ∧ event.id = transcriptEventId tools path offset value := by
  unfold parseValue at h
  cases hparsed : parseEvent tools provider codexModel value with
  | error failure =>
    rw [hparsed] at h
    cases h
  | ok parsed =>
    rw [hparsed] at h
    cases parsed with
    | none => cases h
    | some parsed =>
      cases h
      refine ⟨?_, rfl⟩
      cases value with
      | object fields => exact ⟨fields, rfl⟩
      | _ => cases provider <;> cases hparsed

theorem mem_parseLines {cursor : Cursor} {lines : List Bytes} {events : List UsageEvent}
    (h : parseLines tools path provider profileId cursor lines = .ok events)
    (event : UsageEvent) :
    event ∈ events ↔ ∃ front line back after, lines = front ++ line :: back ∧
      parseLine tools path provider profileId
        (front.foldl (fun cursor line => cursor.after provider line (tools.fromStr line)) cursor)
        line = .ok (after, some event) := by
  induction lines generalizing cursor events with
  | nil =>
    cases h
    constructor
    · intro hevent
      exact absurd hevent List.not_mem_nil
    · rintro ⟨front, line, back, after, hlines, -⟩
      simp at hlines
  | cons line lines ih =>
    unfold parseLines at h
    cases hline : parseLine tools path provider profileId cursor line with
    | error failure =>
      rw [hline] at h
      cases h
    | ok parsed =>
      obtain ⟨after, first⟩ := parsed
      rw [hline] at h
      cases hrest : parseLines tools path provider profileId after lines with
      | error failure =>
        simp only [bind, Except.bind, hrest] at h
        cases h
      | ok rest =>
        simp only [bind, Except.bind, hrest, pure, Except.pure, Except.ok.injEq] at h
        have hafter := (parseLine_ok hline).2.1
        rw [← h, List.mem_append, Option.mem_toList, ih hrest]
        constructor
        · rintro (hfirst | ⟨front, other, back, last, hlines, hother⟩)
          · exact ⟨[], line, lines, after, rfl, by rw [List.foldl_nil, hline, hfirst]⟩
          · refine ⟨line :: front, other, back, last, by rw [hlines, List.cons_append], ?_⟩
            rw [List.foldl_cons, ← hafter]
            exact hother
        · rintro ⟨front, other, back, last, hlines, hother⟩
          cases front with
          | nil =>
            obtain ⟨rfl, -⟩ := List.cons.inj hlines
            rw [List.foldl_nil, hline] at hother
            cases hother
            exact .inl rfl
          | cons first' front =>
            obtain ⟨rfl, htail⟩ := List.cons.inj hlines
            rw [List.foldl_cons, ← hafter] at hother
            exact .inr ⟨front, other, back, last, htail, hother⟩

/-! ### Texts of a transcript -/

variable {profile : AccountProfile} {file grown : Transcript} {lines : List Bytes} {text : Bytes}
  {event : UsageEvent}

theorem textEvent_eq_some : textEvent tools path profile lines text = some event ↔
    Utf8.valid text = true ∧ ∃ value, tools.fromStr text = some value ∧
      parseValue tools path profile.provider profile.id
        (cursorAt tools profile.provider lines).offset
        ((cursorAt tools profile.provider lines).after profile.provider [] (some value)).codexModel
        value = .ok (some event) := by
  unfold textEvent
  constructor
  · intro h
    cases hline : parseLine tools path profile.provider profile.id
        (cursorAt tools profile.provider lines) text with
    | error failure =>
      rw [hline] at h
      cases h
    | ok parsed =>
      rw [hline] at h
      obtain ⟨after, found⟩ := parsed
      dsimp only at h
      obtain ⟨hvalid, hafter, ⟨-, hnone⟩ | ⟨value, hvalue, hparsed⟩⟩ := parseLine_ok hline
      · rw [hnone] at h
        cases h
      · rw [hafter, hvalue, h] at hparsed
        exact ⟨hvalid, value, hvalue, hparsed⟩
  · rintro ⟨hvalid, value, hvalue, hparsed⟩
    rw [parseLine_of_value hvalid hvalue hparsed]

theorem UsageLine.exists_text (h : UsageLine tools file profile lines event) :
    ∃ text, TextEvent tools file profile lines text event := by
  obtain ⟨line, back, hsplit, hreads⟩ := h
  refine ⟨stripCr line, ?_, Lines.join_stripCr_isPrefix hsplit, hreads⟩
  intro other hother
  have hmem : other ∈ (split file.bytes).1 := by
    rw [hsplit]
    exact List.mem_append_left _ hother
  exact Lines.plain_of_mem_split hmem

theorem TextEvent.grow (h : TextEvent tools file profile lines text event)
    (hpath : grown.path = file.path) (hbytes : file.bytes <+: grown.bytes) :
    TextEvent tools grown profile lines text event :=
  ⟨h.plain, h.leads.trans hbytes, by rw [hpath]; exact h.reads⟩

/-- A parse returns the events of the file's texts, with those of all its complete lines. -/
theorem mem_parseTranscript {files : Files} {events : List UsageEvent}
    (hfile : files.get file.path = some file)
    (h : parseTranscript tools file.path profile.provider profile.id files = .ok events) :
    (∀ event ∈ events, ∃ lines text, TextEvent tools file profile lines text event) ∧
      ∀ lines event, UsageLine tools file profile lines event → event ∈ events := by
  unfold parseTranscript at h
  rw [hfile] at h
  dsimp only at h
  constructor
  · intro event hevent
    obtain ⟨front, text, back, after, hlines, hread⟩ := (mem_parseLines h event).mp hevent
    obtain ⟨lines, hplain, rfl, hleads⟩ := Lines.of_bufLines hlines
    refine ⟨lines, text, hplain, hleads, ?_⟩
    unfold textEvent cursorAt
    rw [hread]
  · rintro lines event ⟨line, back, hsplit, hread⟩
    obtain ⟨rest, hlines⟩ := Lines.bufLines_of_split hsplit
    obtain ⟨hvalid, value, hvalue, hparsed⟩ := textEvent_eq_some.mp hread
    have hline := parseLine_of_value hvalid hvalue hparsed
    exact (mem_parseLines h event).mpr ⟨_, _, rest, _, hlines, hline⟩

/-- One place has one event. -/
theorem TextEvent.unique (hobjects : tools.ObjectsEnd) {other : Bytes} {event' : UsageEvent}
    (h : TextEvent tools file profile lines text event)
    (h' : TextEvent tools file profile lines other event') : event = event' := by
  obtain ⟨-, value, hvalue, hparsed⟩ := textEvent_eq_some.mp h.reads
  obtain ⟨-, value', hvalue', hparsed'⟩ := textEvent_eq_some.mp h'.reads
  obtain ⟨fields, rfl⟩ := (parseValue_some hparsed).1
  obtain ⟨fields', rfl⟩ := (parseValue_some hparsed').1
  have hsame : JsonValue.object fields = .object fields' := by
    -- One of the texts begins the other.
    rcases List.prefix_or_prefix_of_prefix h.leads h'.leads with hstart | hstart
    · obtain ⟨more, rfl⟩ := (List.prefix_append_right_inj _).mp hstart
      exact (hobjects _ _ _ _ hvalue hvalue').symm
    · obtain ⟨more, rfl⟩ := (List.prefix_append_right_inj _).mp hstart
      exact hobjects _ _ _ _ hvalue' hvalue
  rw [hsame, hparsed'] at hparsed
  injection hparsed with hparsed
  injection hparsed with hparsed
  exact hparsed.symm

/-! ### Places -/

/-- What these lines move the cursor by. -/
def readLength (lines : List Bytes) : Nat := (lines.map fun line => (stripCr line).length + 1).sum

theorem readLength_append (front back : List Bytes) :
    readLength (front ++ back) = readLength front + readLength back := by
  simp [readLength]

theorem readLength_le (lines : List Bytes) : readLength lines ≤ (join lines).length := by
  induction lines with
  | nil => exact Nat.le_refl 0
  | cons line lines ih =>
    have hline := (Lines.stripCr_isPrefix line).length_le
    rw [Lines.join_cons, List.length_append, List.length_cons]
    simp only [readLength, List.map_cons, List.sum_cons] at ih ⊢
    omega

theorem length_le_readLength (lines : List Bytes) : lines.length ≤ readLength lines := by
  induction lines with
  | nil => exact Nat.le_refl 0
  | cons line lines ih =>
    simp only [readLength, List.map_cons, List.sum_cons, List.length_cons] at ih ⊢
    omega

theorem cursorAt_concat (lines : List Bytes) (line : Bytes) :
    cursorAt tools provider (lines ++ [line]) = (cursorAt tools provider lines).after provider
      (stripCr line) (tools.fromStr (stripCr line)) := by
  unfold cursorAt
  rw [List.map_append, List.foldl_append, List.map_singleton, List.foldl_cons, List.foldl_nil]

/-- The offset does not saturate in a file. -/
theorem offset_cursorAt {lines : List Bytes} (h : (join lines).length < 2 ^ 63) :
    (cursorAt tools provider lines).offset = readLength lines := by
  induction lines using List.reverseRecOn with
  | nil => rfl
  | append_singleton lines line ih =>
    have hle := readLength_le (lines ++ [line])
    rw [Lines.join_append, List.length_append] at h
    have hlines := ih (by omega)
    have hlast : readLength [line] = (stripCr line).length + 1 := by simp [readLength]
    rw [Lines.join_append, List.length_append, readLength_append] at hle
    have hoffset : (cursorAt tools provider (lines ++ [line])).offset
        = min ((cursorAt tools provider lines).offset + ((stripCr line).length + 1))
          (2 ^ 64 - 1) := by
      rw [cursorAt_concat]
      rfl
    rw [hoffset, hlines, readLength_append, hlast]
    omega

theorem TextEvent.lines_prefix (h : TextEvent tools file profile lines text event) :
    lines <+: (split file.bytes).1 :=
  Lines.prefix_split h.plain ((List.prefix_append _ _).trans h.leads)

theorem TextEvent.offset (h : TextEvent tools file profile lines text event) :
    (cursorAt tools profile.provider lines).offset = readLength lines ∧
      readLength lines ≤ file.bytes.length := by
  have hjoin := ((List.prefix_append (join lines) text).trans h.leads).length_le
  exact ⟨offset_cursorAt (by have := file.fits; omega), (readLength_le lines).trans hjoin⟩

theorem lines_of_readLength {bytes : Bytes} {front back : List Bytes}
    (hfront : front <+: (split bytes).1) (hback : back <+: (split bytes).1)
    (h : readLength front = readLength back) : front = back := by
  have hextends : ∀ {short long : List Bytes}, short <+: long →
      readLength short = readLength long → short = long := by
    rintro short long ⟨more, rfl⟩ hlength
    rw [readLength_append] at hlength
    have hmore := length_le_readLength more
    rw [List.eq_nil_of_length_eq_zero (by omega : more.length = 0), List.append_nil]
  rcases List.prefix_or_prefix_of_prefix hfront hback with hstart | hstart
  · exact hextends hstart h
  · exact (hextends hstart h.symm).symm

theorem offsetBytes_inj {offset other : Nat} (hoffset : offset < 2 ^ 64) (hother : other < 2 ^ 64)
    (h : (Bytes.ofNatBe 8 offset).reverse = (Bytes.ofNatBe 8 other).reverse) : offset = other := by
  have hread := congrArg Bytes.toNatBe (List.reverse_inj.mp h)
  rw [Bytes.toNatBe_ofNatBe, Bytes.toNatBe_ofNatBe] at hread
  omega

/-- What is hashed of two files never begins alike up to the end of the shorter offset. -/
def PlacesApart (file other : Transcript) : Prop :=
  ∀ offset ≤ file.bytes.length, ∀ offset' ≤ other.bytes.length,
    ¬ placeText file.path offset <+: placeText other.path offset'

/-- The texts that are hashed for the lines of these files. -/
def hashedTexts (tools : Tools) (files : Files) : Set Bytes :=
  {hashed | ∃ file ∈ files.values, ∃ profile lines text event value,
    TextEvent tools file profile lines text event ∧ tools.fromStr text = some value ∧
      hashed = lineText file.path (cursorAt tools profile.provider lines).offset value}

theorem hexEncode_inj {bytes other : Bytes} (h : hexEncode bytes = hexEncode other) :
    bytes = other := by
  have hpairs := Node.hexPairs_hexEncode bytes
  rw [h, Node.hexPairs_hexEncode] at hpairs
  exact (Except.ok.inj hpairs).symm

theorem TextEvent.place {files : Files} {other : Transcript} {profile' : AccountProfile}
    {lines' : List Bytes} {text' : Bytes} {event' : UsageEvent}
    (hhash : Set.InjOn tools.hasher.sha256 (hashedTexts tools files)) (hfile : file ∈ files.values)
    (hother : other ∈ files.values) (h : TextEvent tools file profile lines text event)
    (h' : TextEvent tools other profile' lines' text' event')
    (hapart : file.path ≠ other.path → PlacesApart file other ∧ PlacesApart other file)
    (hid : event.id = event'.id) : file = other ∧ lines = lines' := by
  obtain ⟨-, value, hvalue, hparsed⟩ := textEvent_eq_some.mp h.reads
  obtain ⟨-, value', hvalue', hparsed'⟩ := textEvent_eq_some.mp h'.reads
  obtain ⟨hoffset, hinside⟩ := h.offset
  obtain ⟨hoffset', hinside'⟩ := h'.offset
  rw [(parseValue_some hparsed).2, (parseValue_some hparsed').2] at hid
  have hsha := hexEncode_inj ((String.append_right_inj _).mp hid)
  have htexts := hhash ⟨file, hfile, profile, lines, text, event, value, h, hvalue, rfl⟩
    ⟨other, hother, profile', lines', text', event', value', h', hvalue', rfl⟩ hsha
  rw [hoffset, hoffset'] at htexts
  unfold lineText at htexts
  have hpath : file.path = other.path := by
    by_contra hne
    obtain ⟨hforth, hback⟩ := hapart hne
    have hstart := List.prefix_append (placeText file.path (readLength lines))
      ((providerId value).elim [] Utf8.encode)
    rw [htexts] at hstart
    rcases List.prefix_or_prefix_of_prefix hstart (List.prefix_append _ _) with hbegins | hbegins
    · exact hforth _ hinside _ hinside' hbegins
    · exact hback _ hinside' _ hinside hbegins
  have hsame : file = other := List.inj_on_of_nodup_map files.keyed hfile hother hpath
  subst hsame
  refine ⟨rfl, lines_of_readLength h.lines_prefix h'.lines_prefix ?_⟩
  unfold placeText at htexts
  rw [List.append_assoc, List.append_assoc] at htexts
  have hbytes := (List.append_inj (List.append_cancel_left htexts) (by simp)).1
  have hfits := file.fits
  exact offsetBytes_inj (by omega) (by omega) hbytes

end Reading

end Homie.Usage
