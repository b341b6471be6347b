/-
Imports of transcripts lose nothing, as long as nothing is finished behind a parse.

Every row of the ledger and every event still to be recorded is an event of a text in a transcript
(`Genuine`).  A transcript is marked with the size it has then, and it only grows, so a mark that
agrees with the size is a mark after which the transcript has not changed.  When everything that
was complete at the time of the mark had been recorded, everything still is (`Sound.marks`).

Between the parse of a transcript and its mark the size runs ahead of what was read.  An append
that finishes a usage line there is marked with the rest, and no later import looks at the
transcript again (`append_behind_parse_is_lost`).  Where no append does that (`Allowed`), each
finished import leaves every usage line with its row, and with one row only (`import_complete`).
-/
import Homie.Proofs.Transcripts

namespace Homie.Usage

open Lines (Bytes split)
open Node (ProviderKind)
open Trace (run trace take)

/-! ### Files -/

/-- The transcripts that an import of this profile goes through. -/
structure Listed (accounts : AccountStore) (profile : AccountProfile) (path : Path) : Prop where
  profile_mem : profile ∈ accounts.profiles
  below : (accounts.transcriptRoot profile) <+: path
  deeper : (accounts.transcriptRoot profile).length < path.length
  jsonl : isJsonl path = true

theorem mem_jsonlFiles {files : Files} {root path : Path} :
    path ∈ jsonlFiles files root ↔ (∃ file ∈ files.values, file.path = path) ∧
      root <+: path ∧ root.length < path.length ∧ isJsonl path = true := by
  unfold jsonlFiles
  rw [Sorting.mem_sortBy, List.mem_filter, List.mem_map]
  simp only [Bool.and_eq_true, List.isPrefixOf_iff_prefix, decide_eq_true_eq, and_assoc]

theorem providerName_inj {provider other : ProviderKind}
    (h : providerName provider = providerName other) : provider = other := by
  cases provider <;> cases other
  · rfl
  · simp [providerName] at h
  · simp [providerName] at h
  · rfl

theorem AccountStore.transcriptRoot_eq (accounts : AccountStore) (profile : AccountProfile) :
    ∃ directory, accounts.transcriptRoot profile = accounts.configHome profile ++ [directory] := by
  unfold AccountStore.transcriptRoot
  split
  · exact ⟨_, rfl⟩
  · exact ⟨_, rfl⟩

theorem Listed.profile_eq {accounts : AccountStore} {profile other : AccountProfile} {path : Path}
    (h : Listed accounts profile path) (h' : Listed accounts other path) : profile = other := by
  obtain ⟨directory, hroot⟩ := accounts.transcriptRoot_eq profile
  obtain ⟨directory', hroot'⟩ := accounts.transcriptRoot_eq other
  have hroots : accounts.configHome profile ++ [directory]
      = accounts.configHome other ++ [directory'] := by
    rw [← hroot, ← hroot', List.prefix_iff_eq_take.mp h.below, List.prefix_iff_eq_take.mp h'.below,
      hroot, hroot']
    simp only [AccountStore.configHome, List.length_append, List.length_cons, List.length_nil]
  have hhomes := (List.append_inj' hroots rfl).1
  have hnames := List.append_cancel_left hhomes
  simp only [List.cons.injEq, and_true] at hnames
  obtain ⟨id, provider⟩ := profile
  obtain ⟨id', provider'⟩ := other
  rw [AccountProfile.mk.injEq]
  exact ⟨Utf8.encode_inj hnames.2, providerName_inj (Utf8.encode_inj hnames.1)⟩

theorem Files.get_append (files : Files) (path : Path) (more : Bytes) (modifiedNs : UInt64)
    (other : Path) :
    (files.append path more modifiedNs).get other = files.get other ∨
      other = path ∧ ∃ file, (files.append path more modifiedNs).get path = some file ∧
        file.path = path ∧ file.bytes = ((files.get path).elim [] Transcript.bytes) ++ more := by
  unfold Files.append
  split
  · rw [KeyedMap.get_insert]
    split
    · rename_i hfits hpath
      refine .inr ⟨hpath, ⟨path, _, modifiedNs, hfits⟩, ?_, rfl, rfl⟩
      rw [KeyedMap.get_insert, if_pos rfl]
    · exact .inl rfl
  · exact .inl rfl

theorem Files.grown_append {files : Files} {file : Transcript} (path : Path) (more : Bytes)
    (modifiedNs : UInt64) (h : file ∈ files.values) :
    ∃ grown ∈ (files.append path more modifiedNs).values,
      grown.path = file.path ∧ file.bytes <+: grown.bytes := by
  have hget : files.get file.path = some file := files.get_eq_some.mpr ⟨h, rfl⟩
  rcases files.get_append path more modifiedNs file.path with
    hsame | ⟨hpath, grown, hgrown, hplace, hbytes⟩
  · rw [hget] at hsame
    exact ⟨file, (KeyedMap.get_eq_some _).mp hsame |>.1, rfl, List.prefix_refl _⟩
  · refine ⟨grown, (KeyedMap.get_eq_some _).mp hgrown |>.1, hplace.trans hpath.symm, ?_⟩
    rw [hbytes, ← hpath, hget]
    exact List.prefix_append file.bytes more

/-! ### The ledger -/

/-- The ledger has a row with this event's identifier. -/
def UsageLedger.HasRow (ledger : UsageLedger) (event : UsageEvent) : Prop :=
  (ledger.usageEvents.get event.id).isSome

theorem UsageLedger.record_ok {ledger after : UsageLedger} {event : UsageEvent} {inserted : Bool}
    (h : ledger.record event = .ok (inserted, after)) :
    after.usageScanFiles = ledger.usageScanFiles ∧ after.HasRow event ∧
      (∀ other, ledger.HasRow other → after.HasRow other) ∧
      ∀ row ∈ after.usageEvents.values, row ∈ ledger.usageEvents.values ∨ row = event := by
  unfold record at h
  cases hvalid : validateEvent event with
  | error error =>
    rw [hvalid] at h
    cases h
  | ok checked =>
    rw [hvalid] at h
    cases hrow : ledger.usageEvents.get event.id with
    | some row =>
      simp only [bind, Except.bind, hrow, pure, Except.pure, Except.ok.injEq,
        Prod.mk.injEq] at h
      obtain ⟨-, rfl⟩ := h
      refine ⟨rfl, ?_, fun other hother => hother, fun row hmem => .inl hmem⟩
      unfold HasRow
      rw [hrow]
      rfl
    | none =>
      simp only [bind, Except.bind, hrow, pure, Except.pure, Except.ok.injEq,
        Prod.mk.injEq] at h
      obtain ⟨-, rfl⟩ := h
      refine ⟨rfl, ?_, ?_, ?_⟩
      · simp only [HasRow, KeyedMap.get_insert, if_true, Option.isSome_some]
      · intro other hother
        unfold HasRow at hother ⊢
        rw [KeyedMap.get_insert]
        split
        · rfl
        · exact hother
      · intro row hmem
        have hget := (KeyedMap.get_eq_some _).mpr ⟨hmem, rfl⟩
        rw [KeyedMap.get_insert] at hget
        split at hget
        · exact .inr (Option.some.inj hget).symm
        · exact .inl ((KeyedMap.get_eq_some _).mp hget).1

theorem toI64_eq {file : Transcript} : toI64 file.bytes.length = file.bytes.length := by
  have hfits := file.fits
  unfold toI64
  omega

theorem UsageLedger.of_fileIsCurrent {ledger : UsageLedger} {files : Files} {path : Path}
    (h : ledger.fileIsCurrent files path = .ok true) :
    ∃ file row, files.get path = some file ∧
      ledger.usageScanFiles.get (toStringLossy path) = some row ∧
      row.size = file.bytes.length := by
  unfold fileIsCurrent fileRevision at h
  cases hfile : files.get path with
  | none =>
    rw [hfile] at h
    cases h
  | some file =>
    simp only [hfile, bind, Except.bind, pure, Except.pure, Except.ok.injEq] at h
    obtain ⟨row, hrow, hsame⟩ := (Option.any_eq_true _ _).mp h
    rw [Bool.and_eq_true, beq_iff_eq, toI64_eq] at hsame
    exact ⟨file, row, rfl, hrow, hsame.1⟩

theorem UsageLedger.markFileCurrent_ok {ledger after : UsageLedger} {files : Files} {path : Path}
    (h : ledger.markFileCurrent files path = .ok after) :
    ∃ file modifiedNs, files.get path = some file ∧ after = { ledger with
      usageScanFiles := ledger.usageScanFiles.insert
        ⟨toStringLossy path, file.bytes.length, modifiedNs⟩ } := by
  unfold markFileCurrent fileRevision at h
  cases hfile : files.get path with
  | none =>
    rw [hfile] at h
    cases h
  | some file =>
    simp only [hfile, bind, Except.bind, pure, Except.pure, Except.ok.injEq, toI64_eq] at h
    exact ⟨file, _, rfl, h.symm⟩

/-! ### Steps of an import -/

section Steps

variable (tools : Tools) (accounts : AccountStore)

/-- What an advance can do. -/
inductive Advances (before : Importer) : Importer → Prop
  | rest (h : before.status.running = false) : Advances before before
  | failed (failure : Failure) : Advances before { before with status := .failed failure }
  | done (imported : Nat) (h : before.status = .profiles [] imported) :
      Advances before { before with status := .done imported }
  | list (profile : AccountProfile) (profiles : List AccountProfile) (imported : Nat)
      (h : before.status = .profiles (profile :: profiles) imported) :
      Advances before { before with
        status := .enter profile (jsonlFiles before.files (accounts.transcriptRoot profile))
          profiles imported }
  | skip (visit : Visit) (h : before.status = .file visit .check)
      (hcurrent : before.ledger.fileIsCurrent before.files visit.path = .ok true) :
      Advances before { before with status := visit.next }
  | outdated (visit : Visit) (h : before.status = .file visit .check) :
      Advances before { before with status := .file visit .parse }
  | parse (visit : Visit) (events : List UsageEvent) (h : before.status = .file visit .parse)
      (hparse : parseTranscript tools visit.path visit.profile.provider visit.profile.id
        before.files = .ok events) :
      Advances before { before with status := .file visit (.record events) }
  | recorded (visit : Visit) (h : before.status = .file visit (.record [])) :
      Advances before { before with status := .file visit .mark }
  | record (visit : Visit) (event : UsageEvent) (events : List UsageEvent) (inserted : Bool)
      (ledger : UsageLedger) (h : before.status = .file visit (.record (event :: events)))
      (hrecord : before.ledger.record event = .ok (inserted, ledger)) :
      Advances before { before with
        ledger := ledger
        status := .file { visit with imported := visit.imported + inserted.toNat }
          (.record events) }
  | mark (visit : Visit) (ledger : UsageLedger) (h : before.status = .file visit .mark)
      (hmark : before.ledger.markFileCurrent before.files visit.path = .ok ledger) :
      Advances before { before with ledger := ledger, status := visit.next }

theorem advances (node : Importer) : Advances tools accounts node (node.advance tools accounts) := by
  obtain ⟨files, ledger, status⟩ := node
  cases status with
  | idle => exact .rest rfl
  | done imported => exact .rest rfl
  | failed failure => exact .rest rfl
  | profiles profiles imported =>
    cases profiles with
    | nil => exact .done imported rfl
    | cons profile profiles => exact .list profile profiles imported rfl
  | file visit stage =>
    cases stage with
    | check =>
      unfold Importer.advance
      dsimp only
      split
      · exact .failed _
      · exact .skip visit rfl ‹_›
      · exact .outdated visit rfl
    | parse =>
      unfold Importer.advance
      dsimp only
      split
      · exact .failed _
      · exact .parse visit _ rfl ‹_›
    | record events =>
      cases events with
      | nil => exact .recorded visit rfl
      | cons event events =>
        unfold Importer.advance
        dsimp only
        split
        · exact .failed _
        · exact .record visit event events _ _ rfl ‹_›
    | mark =>
      unfold Importer.advance
      dsimp only
      split
      · exact .failed _
      · exact .mark visit _ rfl ‹_›

/-! ### What holds in every run -/

/-- The event of a text in a transcript. -/
def Genuine (files : Files) (event : UsageEvent) : Prop :=
  ∃ file ∈ files.values, ∃ profile lines text, Listed accounts profile file.path ∧
    TextEvent tools file profile lines text event

/-- Every complete usage line of the transcript has a row with its identifier. -/
def Recorded (ledger : UsageLedger) (file : Transcript) (profile : AccountProfile) : Prop :=
  ∀ lines event, UsageLine tools file profile lines event → ledger.HasRow event

/-- Every complete usage line of the transcript has a row, or is still to be recorded. -/
def Covered (ledger : UsageLedger) (events : List UsageEvent) (file : Transcript)
    (profile : AccountProfile) : Prop :=
  ∀ lines event, UsageLine tools file profile lines event →
    ledger.HasRow event ∨ ∃ other ∈ events, other.id = event.id

/-- The transcript that is parsed and not marked yet, with the events to record. -/
def Status.pending : Status → Option (Visit × List UsageEvent)
  | .file visit (.record events) => some (visit, events)
  | .file visit .mark => some (visit, [])
  | _ => none

/-- An import goes through transcripts of its profiles. -/
def Status.Visits : Status → Prop
  | .profiles later _ => ∀ profile ∈ later, profile ∈ accounts.profiles
  | .file visit _ => Listed accounts visit.profile visit.path ∧
      (∀ path ∈ visit.paths, Listed accounts visit.profile path) ∧
      ∀ profile ∈ visit.profiles, profile ∈ accounts.profiles
  | _ => True

structure Sound (node : Importer) : Prop where
  rows : ∀ event ∈ node.ledger.usageEvents.values, Genuine tools accounts node.files event
  visits : node.status.Visits accounts
  pending : ∀ visit events, node.status.pending = some (visit, events) →
    (∀ event ∈ events, Genuine tools accounts node.files event) ∧
      ∀ file, node.files.get visit.path = some file →
        Covered tools node.ledger events file visit.profile
  marks : ∀ row ∈ node.ledger.usageScanFiles.values, ∃ file ∈ node.files.values, ∃ profile,
    Listed accounts profile file.path ∧ row.path = toStringLossy file.path ∧
      row.size ≤ file.bytes.length ∧
      (row.size = file.bytes.length → Recorded tools node.ledger file profile)

/-- An append behind the parse of its transcript finishes no usage line that the ledger has no row
for and the import does not know of. -/
def Allowed (x : Trace.Step Importer Event Unit) : Prop :=
  match x.event with
  | .append path more modifiedNs => ∀ visit events,
      x.before.status.pending = some (visit, events) → visit.path = path →
      ∀ file, (x.before.files.append path more modifiedNs).get path = some file →
        Covered tools x.before.ledger events file visit.profile
  | _ => True

variable {tools accounts}

theorem visits_enter {profile : AccountProfile} {paths : List Path}
    {profiles : List AccountProfile} {imported : Nat}
    (hpaths : ∀ path ∈ paths, Listed accounts profile path)
    (hprofiles : ∀ profile ∈ profiles, profile ∈ accounts.profiles) :
    (Status.enter profile paths profiles imported).Visits accounts := by
  cases paths with
  | nil => exact hprofiles
  | cons path paths =>
    exact ⟨hpaths path List.mem_cons_self,
      fun other hother => hpaths other (List.mem_cons_of_mem _ hother), hprofiles⟩

@[simp] theorem pending_enter (profile : AccountProfile) (paths : List Path)
    (profiles : List AccountProfile) (imported : Nat) :
    (Status.enter profile paths profiles imported).pending = none := by
  cases paths <;> rfl

theorem sound_start (files : Files) : Sound tools accounts (.start files) where
  rows _ h := absurd h List.not_mem_nil
  visits := trivial
  pending _ _ h := nomatch h
  marks _ h := absurd h List.not_mem_nil

theorem Sound.withStatus {node : Importer} (h : Sound tools accounts node) {status : Status}
    (hvisits : status.Visits accounts) (hpending : status.pending = none) :
    Sound tools accounts { node with status := status } where
  rows := h.rows
  visits := hvisits
  pending := by
    intro visit events hsome
    rw [hpending] at hsome
    cases hsome
  marks := h.marks

theorem UsageLine.congr {file other : Transcript} {profile : AccountProfile} {lines : List Bytes}
    {event : UsageEvent} (h : UsageLine tools file profile lines event)
    (hpath : file.path = other.path) (hbytes : file.bytes = other.bytes) :
    UsageLine tools other profile lines event := by
  obtain ⟨line, back, hsplit, hreads⟩ := h
  exact ⟨line, back, by rw [← hbytes, hsplit], by rw [← hpath, hreads]⟩

theorem Genuine.append {files : Files} {event : UsageEvent} (h : Genuine tools accounts files event)
    (path : Path) (more : Bytes) (modifiedNs : UInt64) :
    Genuine tools accounts (files.append path more modifiedNs) event := by
  obtain ⟨file, hfile, profile, lines, text, hlisted, htext⟩ := h
  obtain ⟨grown, hgrown, hpath, hbytes⟩ := Files.grown_append path more modifiedNs hfile
  exact ⟨grown, hgrown, profile, lines, text, by rw [hpath]; exact hlisted,
    htext.grow hpath hbytes⟩

theorem Sound.append {node : Importer} (h : Sound tools accounts node) {path : Path} {more : Bytes}
    {modifiedNs : UInt64}
    (hallowed : Allowed tools (take (Importer.step tools accounts) node
      (.append path more modifiedNs))) :
    Sound tools accounts { node with files := node.files.append path more modifiedNs } where
  rows := fun event hevent => (h.rows event hevent).append path more modifiedNs
  visits := h.visits
  pending := by
    intro visit events hpending
    obtain ⟨hgenuine, hcovered⟩ := h.pending visit events hpending
    refine ⟨fun event hevent => (hgenuine event hevent).append path more modifiedNs, ?_⟩
    intro file hfile
    dsimp only at hfile
    by_cases hpath : visit.path = path
    · rw [hpath] at hfile
      exact hallowed visit events hpending hpath file hfile
    · rcases node.files.get_append path more modifiedNs visit.path with hsame | ⟨hat, -⟩
      · rw [hsame] at hfile
        exact hcovered file hfile
      · exact absurd hat hpath
  marks := by
    intro row hrow
    obtain ⟨file, hfile, profile, hlisted, hpath, hsize, hrecorded⟩ := h.marks row hrow
    obtain ⟨grown, hgrown, hplace, hbytes⟩ := Files.grown_append path more modifiedNs hfile
    refine ⟨grown, hgrown, profile, by rw [hplace]; exact hlisted, by rw [hplace]; exact hpath,
      hsize.trans hbytes.length_le, ?_⟩
    -- A transcript that still has the size of its mark is the one that was marked.
    intro heq lines event hline
    have hsame : file.bytes = grown.bytes :=
      hbytes.eq_of_length (Nat.le_antisymm hbytes.length_le (heq ▸ hsize))
    exact hrecorded (by rw [hsame]; exact heq) lines event (hline.congr hplace hsame.symm)

theorem Recorded.mono {ledger after : UsageLedger} {file : Transcript} {profile : AccountProfile}
    (h : Recorded tools ledger file profile)
    (hrows : ∀ event, ledger.HasRow event → after.HasRow event) :
    Recorded tools after file profile :=
  fun lines event hline => hrows event (h lines event hline)

theorem Sound.parse {node : Importer} (h : Sound tools accounts node) {visit : Visit}
    {events : List UsageEvent} (hstatus : node.status = .file visit .parse)
    (hparse : parseTranscript tools visit.path visit.profile.provider visit.profile.id node.files
      = .ok events) :
    Sound tools accounts { node with status := .file visit (.record events) } where
  rows := h.rows
  visits := by
    have hvisits := h.visits
    rw [hstatus] at hvisits
    exact hvisits
  pending := by
    have hvisits := h.visits
    rw [hstatus] at hvisits
    intro visit' events' hpending
    simp only [Status.pending, Option.some.injEq, Prod.mk.injEq] at hpending
    obtain ⟨rfl, rfl⟩ := hpending
    cases hget : node.files.get visit.path with
    | none =>
      unfold parseTranscript at hparse
      rw [hget] at hparse
      cases hparse
    | some file =>
      obtain ⟨hmem, hpath⟩ := (KeyedMap.get_eq_some _).mp hget
      rw [← hpath] at hparse
      obtain ⟨hgenuine, hlines⟩ := mem_parseTranscript (by rw [hpath, hget]) hparse
      constructor
      · intro event hevent
        obtain ⟨lines, text, htext⟩ := hgenuine event hevent
        refine ⟨file, hmem, visit.profile, lines, text, ?_, htext⟩
        rw [hpath]
        exact hvisits.1
      · intro file' hfile'
        obtain rfl : file = file' := Option.some.inj hfile'
        exact fun lines event hline => .inr ⟨event, hlines lines event hline, rfl⟩
  marks := h.marks

theorem Sound.record {node : Importer} (h : Sound tools accounts node) {visit : Visit}
    {event : UsageEvent} {events : List UsageEvent} {inserted : Bool} {ledger : UsageLedger}
    (hstatus : node.status = .file visit (.record (event :: events)))
    (hrecord : node.ledger.record event = .ok (inserted, ledger)) :
    Sound tools accounts { node with
      ledger := ledger
      status := .file { visit with imported := visit.imported + inserted.toNat }
        (.record events) } := by
  obtain ⟨hscan, hnew, hold, hrows⟩ := UsageLedger.record_ok hrecord
  obtain ⟨hgenuine, hcovered⟩ := h.pending visit (event :: events) (by rw [hstatus]; rfl)
  have hvisits := h.visits
  rw [hstatus] at hvisits
  refine ⟨?_, hvisits, ?_, ?_⟩
  · intro row hrow
    rcases hrows row hrow with hmem | rfl
    · exact h.rows row hmem
    · exact hgenuine row List.mem_cons_self
  · intro visit' events' hpending
    simp only [Status.pending, Option.some.injEq, Prod.mk.injEq] at hpending
    obtain ⟨rfl, rfl⟩ := hpending
    refine ⟨fun other hother => hgenuine other (List.mem_cons_of_mem _ hother), ?_⟩
    intro file hfile lines other hline
    rcases hcovered file hfile lines other hline with hrow | ⟨known, hknown, hid⟩
    · exact .inl (hold other hrow)
    · rcases List.mem_cons.mp hknown with rfl | hlater
      · unfold UsageLedger.HasRow at hnew ⊢
        rw [hid] at hnew
        exact .inl hnew
      · exact .inr ⟨known, hlater, hid⟩
  · intro row hrow
    dsimp only at hrow
    rw [hscan] at hrow
    obtain ⟨file, hfile, profile, hlisted, hpath, hsize, hrecorded⟩ := h.marks row hrow
    exact ⟨file, hfile, profile, hlisted, hpath, hsize, fun heq => (hrecorded heq).mono hold⟩

theorem Sound.mark {node : Importer} (h : Sound tools accounts node) {visit : Visit}
    {ledger : UsageLedger} (hstatus : node.status = .file visit .mark)
    (hmark : node.ledger.markFileCurrent node.files visit.path = .ok ledger) :
    Sound tools accounts { node with ledger := ledger, status := visit.next } := by
  obtain ⟨file, modifiedNs, hfile, rfl⟩ := UsageLedger.markFileCurrent_ok hmark
  obtain ⟨-, hcovered⟩ := h.pending visit [] (by rw [hstatus]; rfl)
  have hvisits := h.visits
  rw [hstatus] at hvisits
  obtain ⟨hmem, hpath⟩ := (KeyedMap.get_eq_some _).mp hfile
  refine ⟨h.rows, visits_enter hvisits.2.1 hvisits.2.2, ?_, ?_⟩
  · intro visit' events hpending
    rw [Visit.next, pending_enter] at hpending
    cases hpending
  · intro row hrow
    have hget := (KeyedMap.get_eq_some _).mpr ⟨hrow, rfl⟩
    rw [KeyedMap.get_insert] at hget
    split at hget
    · rw [← Option.some.inj hget]
      refine ⟨file, hmem, visit.profile, by rw [hpath]; exact hvisits.1, by rw [hpath],
        Nat.le_refl _, ?_⟩
      intro _ lines event hline
      rcases hcovered file hfile lines event hline with hrow | ⟨other, hother, -⟩
      · exact hrow
      · exact absurd hother List.not_mem_nil
    · exact h.marks row ((KeyedMap.get_eq_some _).mp hget).1

theorem Sound.advance {node : Importer} (h : Sound tools accounts node) :
    Sound tools accounts (node.advance tools accounts) := by
  have hvisits := h.visits
  have hadvances := advances tools accounts node
  generalize node.advance tools accounts = after at hadvances ⊢
  cases hadvances with
  | rest => exact h
  | failed failure => exact h.withStatus trivial rfl
  | done imported hstatus => exact h.withStatus trivial rfl
  | list profile profiles imported hstatus =>
    rw [hstatus] at hvisits
    refine h.withStatus (visits_enter ?_ ?_) (pending_enter ..)
    · intro path hpath
      obtain ⟨-, hbelow, hdeeper, hjsonl⟩ := mem_jsonlFiles.mp hpath
      exact ⟨hvisits profile List.mem_cons_self, hbelow, hdeeper, hjsonl⟩
    · exact fun other hother => hvisits other (List.mem_cons_of_mem _ hother)
  | skip visit hstatus =>
    rw [hstatus] at hvisits
    exact h.withStatus (visits_enter hvisits.2.1 hvisits.2.2) (pending_enter ..)
  | outdated visit hstatus =>
    rw [hstatus] at hvisits
    exact h.withStatus hvisits rfl
  | parse visit events hstatus hparse => exact h.parse hstatus hparse
  | recorded visit hstatus =>
    rw [hstatus] at hvisits
    refine ⟨h.rows, hvisits, ?_, h.marks⟩
    intro visit' events hpending
    exact h.pending visit' events (by rw [hstatus]; exact hpending)
  | record visit event events inserted ledger hstatus hrecord => exact h.record hstatus hrecord
  | mark visit ledger hstatus hmark => exact h.mark hstatus hmark

theorem Sound.step {node : Importer} (h : Sound tools accounts node) {event : Event}
    (hallowed : Allowed tools (take (Importer.step tools accounts) node event)) :
    Sound tools accounts (node.step tools accounts event).1 := by
  cases event with
  | append path more modifiedNs => exact h.append hallowed
  | start =>
    unfold Importer.step
    dsimp only
    split
    · exact h
    · exact h.withStatus (fun profile hprofile => hprofile) rfl
  | advance => exact h.advance
  | fail failure =>
    unfold Importer.step
    dsimp only
    split
    · exact h.withStatus trivial rfl
    · exact h

theorem sound_of_allowed {files : Files} {events : List Event}
    (hallowed : ∀ x ∈ trace (Importer.step tools accounts) (.start files) events, Allowed tools x) :
    Sound tools accounts (run (Importer.step tools accounts) (.start files) events) :=
  Trace.run_invariant_where _ hallowed (sound_start files) fun _ _ hstep h => h.step hstep

/-! ### One further import -/

/-- The import has the transcript still before it. -/
def Status.Ahead (profile : AccountProfile) (path : Path) : Status → Prop
  | .profiles later _ => profile ∈ later
  | .file visit _ => (profile = visit.profile ∧ (path = visit.path ∨ path ∈ visit.paths)) ∨
      profile ∈ visit.profiles
  | .done _ => False
  | .idle | .failed _ => True

theorem ahead_enter {profile current : AccountProfile} {path : Path} {paths : List Path}
    {later : List AccountProfile} {imported : Nat}
    (h : (profile = current ∧ path ∈ paths) ∨ profile ∈ later) :
    (Status.enter current paths later imported).Ahead profile path := by
  cases paths with
  | nil =>
    rcases h with ⟨-, hpath⟩ | hlater
    · exact absurd hpath List.not_mem_nil
    · exact hlater
  | cons first paths =>
    rcases h with ⟨hprofile, hpath⟩ | hlater
    · exact .inl ⟨hprofile, List.mem_cons.mp hpath⟩
    · exact .inr hlater

variable (tools accounts) in
/-- What an import has behind it is recorded. -/
def Passed (node : Importer) : Prop :=
  ∀ file ∈ node.files.values, ∀ profile, Listed accounts profile file.path →
    node.status.Ahead profile file.path ∨ Recorded tools node.ledger file profile

/-- No two transcripts share what is hashed of a place in them. -/
def PathsApart (accounts : AccountStore) (files : Files) : Prop :=
  ∀ file ∈ files.values, ∀ other ∈ files.values, file.path ≠ other.path →
    (∃ profile, Listed accounts profile file.path) →
    (∃ profile, Listed accounts profile other.path) → PlacesApart file other

theorem PathsApart.eq_of_lossy {files : Files} (h : PathsApart accounts files)
    {file other : Transcript} (hfile : file ∈ files.values) (hother : other ∈ files.values)
    {profile profile' : AccountProfile} (hlisted : Listed accounts profile file.path)
    (hlisted' : Listed accounts profile' other.path)
    (hlossy : toStringLossy file.path = toStringLossy other.path) : file = other := by
  by_cases hpath : file.path = other.path
  · exact List.inj_on_of_nodup_map files.keyed hfile hother hpath
  · have happart := h file hfile other hother hpath ⟨_, hlisted⟩ ⟨_, hlisted'⟩ 0 (Nat.zero_le _) 0
      (Nat.zero_le _)
    unfold placeText at happart
    rw [hlossy] at happart
    exact absurd (List.prefix_refl _) happart

/-- A transcript is passed over only when nothing is missing of it. -/
theorem Sound.skip {node : Importer} (h : Sound tools accounts node)
    (hapart : PathsApart accounts node.files) {file : Transcript} (hfile : file ∈ node.files.values)
    {profile : AccountProfile} (hlisted : Listed accounts profile file.path)
    (hcurrent : node.ledger.fileIsCurrent node.files file.path = .ok true) :
    Recorded tools node.ledger file profile := by
  obtain ⟨file', row, hget, hrow, hsize⟩ := UsageLedger.of_fileIsCurrent hcurrent
  obtain ⟨hmem, hpath⟩ := (KeyedMap.get_eq_some _).mp hget
  obtain rfl : file' = file := List.inj_on_of_nodup_map node.files.keyed hmem hfile hpath
  obtain ⟨hrowmem, hrowpath⟩ := (KeyedMap.get_eq_some _).mp hrow
  obtain ⟨marked, hmarked, other, hother, hplace, -, hrecorded⟩ := h.marks row hrowmem
  obtain rfl : marked = file' :=
    hapart.eq_of_lossy hmarked hmem hother hlisted (hplace.symm.trans hrowpath)
  rw [hlisted.profile_eq hother]
  exact hrecorded hsize

theorem Passed.withStatus {node : Importer} (h : Passed tools accounts node) {status : Status}
    (hahead : ∀ profile path, node.status.Ahead profile path → status.Ahead profile path) :
    Passed tools accounts { node with status := status } :=
  fun file hfile profile hlisted =>
    (h file hfile profile hlisted).imp_left (hahead profile file.path)

theorem Passed.advance {node : Importer} (h : Passed tools accounts node)
    (hsound : Sound tools accounts node) (hapart : PathsApart accounts node.files) :
    Passed tools accounts (node.advance tools accounts) := by
  have hvisits := hsound.visits
  have hadvances := advances tools accounts node
  generalize node.advance tools accounts = after at hadvances ⊢
  cases hadvances with
  | rest => exact h
  | failed failure => exact fun file hfile profile hlisted => .inl trivial
  | done imported hstatus =>
    intro file hfile profile hlisted
    rcases h file hfile profile hlisted with hahead | hrecorded
    · rw [hstatus] at hahead
      exact absurd hahead List.not_mem_nil
    · exact .inr hrecorded
  | list current later imported hstatus =>
    intro file hfile profile hlisted
    rcases h file hfile profile hlisted with hahead | hrecorded
    · rw [hstatus] at hahead
      refine .inl (ahead_enter ?_)
      rcases List.mem_cons.mp hahead with rfl | hlater
      · refine .inl ⟨rfl, mem_jsonlFiles.mpr ⟨⟨file, hfile, rfl⟩, ?_⟩⟩
        exact ⟨hlisted.below, hlisted.deeper, hlisted.jsonl⟩
      · exact .inr hlater
    · exact .inr hrecorded
  | skip visit hstatus hcurrent =>
    intro file hfile profile hlisted
    rcases h file hfile profile hlisted with hahead | hrecorded
    · rw [hstatus] at hahead
      rcases hahead with ⟨rfl, hpath | hpath⟩ | hlater
      · rw [← hpath] at hcurrent
        exact .inr (hsound.skip hapart hfile hlisted hcurrent)
      · exact .inl (ahead_enter (.inl ⟨rfl, hpath⟩))
      · exact .inl (ahead_enter (.inr hlater))
    · exact .inr hrecorded
  | outdated visit hstatus =>
    exact h.withStatus fun profile path hahead => by rwa [hstatus] at hahead
  | parse visit events hstatus hparse =>
    exact h.withStatus fun profile path hahead => by rwa [hstatus] at hahead
  | recorded visit hstatus =>
    exact h.withStatus fun profile path hahead => by rwa [hstatus] at hahead
  | record visit event events inserted ledger hstatus hrecord =>
    intro file hfile profile hlisted
    have hpassed := h file hfile profile hlisted
    rw [hstatus] at hpassed
    exact hpassed.imp_right fun hrecorded =>
      hrecorded.mono (UsageLedger.record_ok hrecord).2.2.1
  | mark visit ledger hstatus hmark =>
    obtain ⟨marked, modifiedNs, hmarked, rfl⟩ := UsageLedger.markFileCurrent_ok hmark
    obtain ⟨-, hcovered⟩ := hsound.pending visit [] (by rw [hstatus]; rfl)
    intro file hfile profile hlisted
    rcases h file hfile profile hlisted with hahead | hrecorded
    · rw [hstatus] at hahead
      rcases hahead with ⟨rfl, hpath | hpath⟩ | hlater
      · right
        intro lines event hline
        have hget := (KeyedMap.get_eq_some node.files).mpr ⟨hfile, hpath⟩
        rcases hcovered file hget lines event hline with hrow | ⟨other, hother, -⟩
        · exact hrow
        · exact absurd hother List.not_mem_nil
      · exact .inl (ahead_enter (.inl ⟨rfl, hpath⟩))
      · exact .inl (ahead_enter (.inr hlater))
    · exact .inr hrecorded

theorem files_advance (node : Importer) : (node.advance tools accounts).files = node.files := by
  have hadvances := advances tools accounts node
  generalize node.advance tools accounts = after at hadvances ⊢
  cases hadvances <;> rfl

theorem passed_import {node : Importer} (hsound : Sound tools accounts node)
    (hstopped : node.status.running = false) (hapart : PathsApart accounts node.files) (n : Nat) :
    let after := run (Importer.step tools accounts) node (.start :: List.replicate n .advance)
    after.files = node.files ∧ Sound tools accounts after ∧ Passed tools accounts after := by
  induction n with
  | zero =>
    have hstart : (node.step tools accounts .start).1
        = { node with status := .profiles accounts.profiles 0 } := by
      unfold Importer.step
      rw [hstopped]
      rfl
    have hstarted : Sound tools accounts (node.step tools accounts .start).1 :=
      hsound.step trivial
    rw [List.replicate_zero, run, run, hstart]
    rw [hstart] at hstarted
    exact ⟨rfl, hstarted, fun file hfile profile hlisted => .inl hlisted.profile_mem⟩
  | succ n ih =>
    rw [List.replicate_succ', ← List.cons_append]
    simp only [Trace.run_concat]
    obtain ⟨hfiles, hstill, hpassed⟩ := ih
    refine ⟨(files_advance _).trans hfiles, hstill.advance, hpassed.advance hstill ?_⟩
    rw [hfiles]
    exact hapart

variable (tools accounts) in
/-- Every complete usage line of every transcript is recorded exactly once. -/
structure RecordedOnce (node : Importer) : Prop where
  recorded : ∀ file ∈ node.files.values, ∀ profile, Listed accounts profile file.path →
    ∀ lines event, UsageLine tools file profile lines event →
      node.ledger.usageEvents.values.count event = 1
  /-- Two lines do not share their row. -/
  apart : ∀ file ∈ node.files.values, ∀ other ∈ node.files.values, ∀ profile profile',
    Listed accounts profile file.path → Listed accounts profile' other.path →
    ∀ lines lines' event, UsageLine tools file profile lines event →
      UsageLine tools other profile' lines' event → file = other ∧ lines = lines'

theorem recordedOnce_of_recorded {node : Importer} (hobjects : tools.ObjectsEnd)
    (hhash : Set.InjOn tools.hasher.sha256 (hashedTexts tools node.files))
    (hapart : PathsApart accounts node.files) (hsound : Sound tools accounts node)
    (hrecorded : ∀ file ∈ node.files.values, ∀ profile, Listed accounts profile file.path →
      Recorded tools node.ledger file profile) : RecordedOnce tools accounts node := by
  have hplace : ∀ {file other profile profile' lines lines' text text' event event'},
      file ∈ node.files.values → other ∈ node.files.values → Listed accounts profile file.path →
      Listed accounts profile' other.path → TextEvent tools file profile lines text event →
      TextEvent tools other profile' lines' text' event' → event.id = event'.id →
      file = other ∧ lines = lines' := by
    intro file other profile profile' lines lines' text text' event event' hfile hother hlisted
      hlisted' h h' hid
    refine h.place hhash hfile hother h' (fun hne => ⟨?_, ?_⟩) hid
    · exact hapart file hfile other hother hne ⟨_, hlisted⟩ ⟨_, hlisted'⟩
    · exact hapart other hother file hfile hne.symm ⟨_, hlisted'⟩ ⟨_, hlisted⟩
  constructor
  · intro file hfile profile hlisted lines event hline
    obtain ⟨text, htext⟩ := hline.exists_text
    obtain ⟨row, hrow⟩ := Option.isSome_iff_exists.mp (hrecorded file hfile profile hlisted lines
      event hline)
    obtain ⟨hmem, hid⟩ := (KeyedMap.get_eq_some _).mp hrow
    -- The row with this identifier comes from the same place.
    obtain ⟨other, hother, profile', lines', text', hlisted', htext'⟩ := hsound.rows row hmem
    obtain ⟨rfl, rfl⟩ := hplace hother hfile hlisted' hlisted htext' htext hid
    obtain rfl := hlisted'.profile_eq hlisted
    obtain rfl := htext'.unique hobjects htext
    exact List.count_eq_one_of_mem (List.Nodup.of_map _ node.ledger.usageEvents.keyed) hmem
  · intro file hfile other hother profile profile' hlisted hlisted' lines lines' event hline hline'
    obtain ⟨text, htext⟩ := hline.exists_text
    obtain ⟨text', htext'⟩ := hline'.exists_text
    exact hplace hfile hother hlisted hlisted' htext htext' rfl

/-- An import that gets through after such a run leaves every usage line recorded exactly once. -/
theorem import_complete (hobjects : tools.ObjectsEnd) {files : Files} {events : List Event}
    (hallowed : ∀ x ∈ trace (Importer.step tools accounts) (.start files) events, Allowed tools x)
    {before after : Importer}
    (hbefore : before = run (Importer.step tools accounts) (.start files) events)
    (hstopped : before.status.running = false) {n imported : Nat}
    (hafter : after = run (Importer.step tools accounts) before
      (.start :: List.replicate n .advance))
    (hdone : after.status = .done imported) (hapart : PathsApart accounts before.files)
    (hhash : Set.InjOn tools.hasher.sha256 (hashedTexts tools before.files)) :
    RecordedOnce tools accounts after := by
  have hsound : Sound tools accounts before := hbefore ▸ sound_of_allowed hallowed
  obtain ⟨hfiles, hstill, hpassed⟩ := passed_import hsound hstopped hapart n
  rw [← hafter] at hfiles hstill hpassed
  rw [← hfiles] at hapart hhash
  refine recordedOnce_of_recorded hobjects hhash hapart hstill ?_
  intro file hfile profile hlisted
  rcases hpassed file hfile profile hlisted with hahead | hrecorded
  · rw [hdone] at hahead
    exact absurd hahead id
  · exact hrecorded

end Steps

/-! ### A transcript of two lines -/

section Example

set_option maxRecDepth 60000

def firstLine : Bytes :=
  Utf8.encode "\x7b\"timestamp\":1,\"message\":\x7b\"id\":\"a\",\"usage\":\x7b\"input_tokens\":5\x7d\x7d\x7d"

def secondLine : Bytes :=
  Utf8.encode "\x7b\"timestamp\":2,\"message\":\x7b\"id\":\"b\",\"usage\":\x7b\"input_tokens\":7\x7d\x7d\x7d"

def lineValue (timestamp : Int) (id : String) (input : Int) : Events.JsonValue :=
  .object [("timestamp", .integer timestamp), ("message", .object [("id", .string id),
    ("usage", .object [("input_tokens", .integer input)])])]

/-- What the third-party code makes of these lines. -/
def lineTools : Tools where
  fromStr text :=
    if text = firstLine then some (lineValue 1 "a" 5)
    else if text = secondLine then some (lineValue 2 "b" 7)
    else none
  hasher :=
    { sha256 := fun text =>
        if text.getLast? = some 0x61 then
          [0xf1, 0x55, 0xba, 0xde, 0x76, 0x98, 0x5d, 0x0f, 0x5f, 0xc3, 0x21, 0xce, 0x6e, 0x6b,
            0xca, 0x6d, 0x5a, 0xb3, 0x66, 0x02, 0x2e, 0x0f, 0x42, 0xdc, 0x91, 0x3f, 0xe0, 0xe5,
            0x83, 0x64, 0xd6, 0x7c]
        else
          [0x60, 0x0e, 0xf4, 0xe3, 0x59, 0x15, 0xe5, 0xc6, 0x57, 0xdb, 0xac, 0x9d, 0xf1, 0x79,
            0xf3, 0xd4, 0xb0, 0xbd, 0xf6, 0xe7, 0x05, 0xc4, 0xc0, 0x78, 0xb5, 0x1c, 0xff, 0x6c,
            0x5b, 0xa0, 0x93, 0x2a]
      length_sha256 := by
        intro text
        split <;> rfl }
  f64OfInteger _ := 0
  claudeEstimate _ _ _ _ _ _ := none
  openaiEstimate _ _ _ _ := none

def workProfile : AccountProfile := ⟨"w", .claude⟩

/-- The profile `w`, below `/n`. -/
def workAccounts : AccountStore where
  accountsRoot := [Utf8.encode "n"]
  profiles := [workProfile]
  valid := by decide

def workPath : Path := workAccounts.transcriptRoot workProfile ++ [Utf8.encode "a.jsonl"]

theorem listed_workPath : Listed workAccounts workProfile workPath where
  profile_mem := List.mem_singleton.mpr rfl
  below := List.prefix_append _ _
  deeper := by decide
  jsonl := by decide

/-- The event of a line at this offset. -/
def lineEvent (offset : Nat) (timestamp : Int) (id : String) (input : Int) : UsageEvent where
  id := transcriptEventId lineTools workPath offset (lineValue timestamp id input)
  occurredAt := timestamp
  provider := .claude
  profileId := some "w"
  sessionId := none
  model := none
  inputTokens := input
  outputTokens := 0
  cacheReadTokens := 0
  cacheWriteTokens := 0
  estimatedUsd := none
  billedUsd := none
  valueKind := .estimatedApiEquivalent
  source := .transcript

theorem objectsEnd_lineTools : lineTools.ObjectsEnd := by
  have hlength : firstLine.length = secondLine.length := by decide
  have hread : ∀ text value, lineTools.fromStr text = some value →
      text.length = secondLine.length := by
    intro text value h
    unfold lineTools at h
    dsimp only at h
    split at h
    · rename_i htext
      rw [htext, hlength]
    · split at h
      · rename_i htext
        rw [htext]
      · cases h
  intro text more fields value htext hmore
  have hnil : more = [] := by
    have hsame := (hread _ _ hmore).trans (hread _ _ htext).symm
    rw [List.length_append] at hsame
    exact List.eq_nil_of_length_eq_zero (by omega)
  rw [hnil, List.append_nil, htext] at hmore
  exact (Option.some.inj hmore).symm

def oneLineRun : List Event := [.append workPath (firstLine ++ [0x0a]) 1]

theorem hashedTexts_oneLine {files : Files} {file : Transcript} (hfiles : files.values = [file])
    (hbytes : file.bytes = firstLine ++ [0x0a]) (hpath : file.path = workPath) :
    hashedTexts lineTools files ⊆ {lineText workPath 0 (lineValue 1 "a" 5)} := by
  rintro hashed ⟨other, hother, profile, lines, text, event, value, htext, hvalue, rfl⟩
  rw [hfiles, List.mem_singleton] at hother
  subst hother
  have hsplit : (split other.bytes).1 = [firstLine] := by
    rw [hbytes]
    decide
  have hleads := htext.leads.length_le
  have hstart := htext.lines_prefix
  have hlength : firstLine.length = 63 ∧ secondLine.length = 63 := by decide
  have hsize : 63 ≤ text.length := by
    unfold lineTools at hvalue
    dsimp only at hvalue
    split at hvalue
    · rename_i hfirst
      rw [hfirst, hlength.1]
    · split at hvalue
      · rename_i hsecond
        rw [hsecond, hlength.2]
      · cases hvalue
  rw [hsplit] at hstart
  rw [List.length_append, hbytes, List.length_append, hlength.1, List.length_singleton] at hleads
  -- No line stands before the text.
  have hlines : lines = [] := by
    rcases List.prefix_cons_iff.mp hstart with hnil | ⟨rest, rfl, hrest⟩
    · exact hnil
    · rw [Lines.join_cons, List.length_append, hlength.1] at hleads
      omega
  subst hlines
  have hbegins := htext.leads
  rw [Lines.join_nil, List.nil_append, hbytes] at hbegins
  unfold lineTools at hvalue
  dsimp only at hvalue
  split at hvalue
  · rw [hpath, ← Option.some.inj hvalue]
    rfl
  · split at hvalue
    · rename_i hsecond
      rw [hsecond] at hbegins
      exact absurd (List.isPrefixOf_iff_prefix.mpr hbegins) (by decide)
    · cases hvalue

theorem import_complete_one_line : RecordedOnce lineTools workAccounts
    (run (Importer.step lineTools workAccounts)
      (run (Importer.step lineTools workAccounts) (.start .empty) oneLineRun)
      (.start :: List.replicate 7 .advance)) := by
  have hfiles : (run (Importer.step lineTools workAccounts) (.start .empty) oneLineRun).files.values
      = [⟨workPath, firstLine ++ [0x0a], 1, by decide⟩] := by
    decide
  refine import_complete objectsEnd_lineTools ?_ rfl (by decide) rfl
    (show _ = Status.done 1 by with_unfolding_all decide) ?_ ?_
  · intro x hx
    rw [oneLineRun, trace, trace, List.mem_singleton] at hx
    rw [hx]
    intro visit events hpending
    cases hpending
  · intro file hfile other hother hpath
    rw [hfiles, List.mem_singleton] at hfile hother
    rw [hfile, hother] at hpath
    exact absurd rfl hpath
  · intro text htext text' htext' _
    have hone := hashedTexts_oneLine hfiles rfl rfl
    rw [Set.mem_singleton_iff.mp (hone htext), Set.mem_singleton_iff.mp (hone htext')]

/-- The second line is written between the parse and the record of the first. -/
def lostRun : List Event :=
  [.append workPath (firstLine ++ [0x0a]) 1, .start, .advance, .advance, .advance,
    .append workPath (secondLine ++ [0x0a]) 2, .advance, .advance, .advance, .advance]

theorem append_behind_parse_is_lost :
    (run (Importer.step lineTools workAccounts) (.start .empty) lostRun).status = .done 1 ∧
      (run (Importer.step lineTools workAccounts) (.start .empty)
        (lostRun ++ .start :: List.replicate 3 .advance)).status = .done 0 ∧
      ¬ RecordedOnce lineTools workAccounts
        (run (Importer.step lineTools workAccounts) (.start .empty)
          (lostRun ++ .start :: List.replicate 3 .advance)) := by
  refine ⟨by with_unfolding_all decide, by with_unfolding_all decide, fun h => ?_⟩
  have hfile : (⟨workPath, firstLine ++ 0x0a :: (secondLine ++ [0x0a]), 2,
      by with_unfolding_all decide⟩ : Transcript) ∈
      (run (Importer.step lineTools workAccounts) (.start .empty)
        (lostRun ++ .start :: List.replicate 3 .advance)).files.values := by
    with_unfolding_all decide
  have hcount := h.recorded _ hfile workProfile listed_workPath [firstLine]
    (lineEvent 64 2 "b" 7)
    ⟨secondLine, [], by decide, by decide⟩
  revert hcount
  with_unfolding_all decide

end Example

end Homie.Usage
