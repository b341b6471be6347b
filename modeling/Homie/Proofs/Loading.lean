/-
Titles are normalised once.

What `normalizeAgentTitle` returns is one short line without control characters that starts with
a letter, a digit or an underscore and ends with no blank (`Normal`), and such a line is returned
as it is.  So a title that was repaired is not repaired again.
-/
import Homie.Engine.Flusher

namespace Homie.Watch

/-! ### Trimming -/

theorem trimText_eq_self {chars : List Char} (hne : chars ≠ [])
    (hhead : isWhitespace (chars.head hne) = false)
    (hlast : isWhitespace (chars.getLast hne) = false) : trimText chars = chars := by
  have hfront : chars.dropWhile isWhitespace = chars := by
    cases chars with
    | nil => rfl
    | cons c rest => exact List.dropWhile_cons_of_neg (by simpa using hhead)
  unfold trimText
  rw [hfront]
  exact List.rdropWhile_eq_self_iff.mpr fun _ => by simp [hlast]

/-- A line that starts with no blank is cut only at its end. -/
theorem trimText_of_head {c : Char} {rest : List Char} (hc : isWhitespace c = false) :
    ∃ kept, trimText (c :: rest) = c :: kept ∧ kept <+: rest ∧
      isWhitespace ((c :: kept).getLast (List.cons_ne_nil c kept)) = false := by
  have hfront : (c :: rest).dropWhile isWhitespace = c :: rest :=
    List.dropWhile_cons_of_neg (by simp [hc])
  have htrim : trimText (c :: rest) = (c :: rest).rdropWhile isWhitespace := by
    unfold trimText
    rw [hfront]
    rfl
  have hstart := List.rdropWhile_prefix isWhitespace (l := c :: rest)
  cases hkept : (c :: rest).rdropWhile isWhitespace with
  | nil =>
    have hall := List.rdropWhile_eq_nil_iff.mp hkept c List.mem_cons_self
    rw [hc] at hall
    exact absurd hall Bool.false_ne_true
  | cons d kept =>
    rw [hkept, List.cons_prefix_cons] at hstart
    obtain ⟨rfl, hrest⟩ := hstart
    have hlast := List.rdropWhile_last_not isWhitespace (d :: rest) (by rw [hkept]; simp)
    simp only [hkept] at hlast
    exact ⟨kept, htrim.trans hkept, hrest, by simpa using hlast⟩

/-! ### Normal titles -/

section

variable (isAlphanumeric : Char → Bool)

/-- A character that no title starts with. -/
def stripped (c : Char) : Bool := isWhitespace c || (!isAlphanumeric c && c ≠ '_')

structure Normal (c : Char) (rest : List Char) : Prop where
  starts : stripped isAlphanumeric c = false
  ends : isWhitespace ((c :: rest).getLast (List.cons_ne_nil c rest)) = false
  short : (c :: rest).length ≤ 160
  plain : ∀ d ∈ c :: rest, isControl d = false

variable {isAlphanumeric}

theorem whitespace_of_stripped {c : Char} (h : stripped isAlphanumeric c = false) :
    isWhitespace c = false := by
  unfold stripped at h
  exact (Bool.or_eq_false_iff.mp h).1

/-- What is no letter, digit or underscore is stripped. -/
theorem control_of_stripped (hcontrol : ∀ c, isControl c = true → isAlphanumeric c = false)
    {c : Char} (h : stripped isAlphanumeric c = false) : isControl c = false := by
  cases hc : isControl c with
  | false => rfl
  | true =>
    have hunderscore : c ≠ '_' := by
      rintro rfl
      exact absurd hc (by decide)
    unfold stripped at h
    rw [hcontrol c hc] at h
    simp [hunderscore] at h

theorem normalizeAgentTitle_normal
    (hcontrol : ∀ c, isControl c = true → isAlphanumeric c = false) {title title' : String}
    (h : normalizeAgentTitle isAlphanumeric title = some title') :
    ∃ c rest, title'.toList = c :: rest ∧ Normal isAlphanumeric c rest := by
  unfold normalizeAgentTitle at h
  obtain ⟨line, -, h⟩ := Option.bind_eq_some_iff.mp h
  dsimp only at h
  split at h
  · cases h
  · rename_i hkept
    cases h
    cases hline : line.dropWhile (stripped isAlphanumeric) with
    | nil =>
      refine absurd ?_ hkept
      change (trimText (((line.dropWhile (stripped isAlphanumeric)).filter
        fun c => !isControl c).take 160)).isEmpty = true
      rw [hline]
      rfl
    | cons c tail =>
      have hstarts : stripped isAlphanumeric c = false := by
        have hhead := List.head_dropWhile_not (stripped isAlphanumeric) (l := line)
          (by rw [hline]; simp)
        simpa [hline] using hhead
      have hfiltered : ((c :: tail).filter fun c => !isControl c).take 160
          = c :: (tail.filter fun c => !isControl c).take 159 := by
        rw [List.filter_cons_of_pos (by simp [control_of_stripped hcontrol hstarts])]
        rfl
      obtain ⟨rest, htrim, hstart, hends⟩ :=
        @trimText_of_head c ((tail.filter fun c => !isControl c).take 159)
          (whitespace_of_stripped hstarts)
      refine ⟨c, rest, ?_, hstarts, hends, ?_, ?_⟩
      · rw [String.toList_ofList]
        change trimText (((line.dropWhile (stripped isAlphanumeric)).filter
          fun c => !isControl c).take 160) = _
        rw [hline, hfiltered, htrim]
      · have hlength := hstart.length_le
        rw [List.length_take] at hlength
        rw [List.length_cons]
        omega
      · intro d hd
        rcases List.mem_cons.mp hd with rfl | hd
        · exact control_of_stripped hcontrol hstarts
        · have hmem := List.mem_of_mem_take (hstart.subset hd)
          simpa using (List.mem_filter.mp hmem).2

theorem normalizeAgentTitle_of_normal {title : String} {c : Char} {rest : List Char}
    (htitle : title.toList = c :: rest) (h : Normal isAlphanumeric c rest) :
    normalizeAgentTitle isAlphanumeric title = some title := by
  have hblank := whitespace_of_stripped h.starts
  have hsplit : (c :: rest).splitOn '\n' = [c :: rest] := by
    refine List.splitOnP_eq_singleton fun d hd => ?_
    have hplain := h.plain d hd
    cases hnewline : d == '\n' with
    | false => rfl
    | true =>
      rw [beq_iff_eq.mp hnewline] at hplain
      exact absurd hplain (by decide)
  have hreturn : (c :: rest).getLast? ≠ some '\r' := by
    intro hlast
    have hplain := h.plain _ (List.mem_of_getLast? hlast)
    exact absurd hplain (by decide)
  have htrim : trimText (c :: rest) = c :: rest :=
    trimText_eq_self (List.cons_ne_nil c rest) hblank h.ends
  have hlines : lines (c :: rest) = [c :: rest] := by
    unfold lines
    simp [hsplit, hreturn]
  have hdrop : (c :: rest).dropWhile (stripped isAlphanumeric) = c :: rest :=
    List.dropWhile_cons_of_neg (by simp [h.starts])
  have hfilter : (c :: rest).filter (fun c => !isControl c) = c :: rest :=
    List.filter_eq_self.mpr fun d hd => by simp [h.plain d hd]
  have htake : (c :: rest).take 160 = c :: rest := List.take_of_length_le h.short
  unfold normalizeAgentTitle
  rw [htitle, hlines]
  simp only [List.map_cons, List.map_nil, htrim, List.find?_cons, List.isEmpty_cons, Bool.not_false]
  change (if (trimText ((((c :: rest).dropWhile (stripped isAlphanumeric)).filter
      fun c => !isControl c).take 160)).isEmpty then none
    else some (String.ofList (trimText ((((c :: rest).dropWhile (stripped isAlphanumeric)).filter
      fun c => !isControl c).take 160)))) = some title
  rw [hdrop, hfilter, htake, htrim, if_neg (by simp), ← htitle, String.ofList_toList]

/-- **A title that was normalised stays as it is.** -/
theorem normalizeAgentTitle_idem (hcontrol : ∀ c, isControl c = true → isAlphanumeric c = false)
    {title title' : String} (h : normalizeAgentTitle isAlphanumeric title = some title') :
    normalizeAgentTitle isAlphanumeric title' = some title' := by
  obtain ⟨c, rest, htitle, hnormal⟩ := normalizeAgentTitle_normal hcontrol h
  exact normalizeAgentTitle_of_normal htitle hnormal

end

end Homie.Watch

/-! ### Loading what was loaded and written

The first load gives every session the id of its location and puts a project under that id where
there is none.  The second load starts from that id: the root that it finds there is the one of
the location unless an older project had the id already and says something else.  So loading
settles exactly where such a project agrees with the location (`load_idempotent_iff`); titles
settle by themselves, and every session has a project.
-/

namespace Homie.Flusher

open Events (JsonValue)
open Stores (Codec projectId)
open Watch (isControl normalizeAgentTitle isGenericTerminalTitle)

variable {Fields β : Type}

/-! ### Projects -/

/-- A project of the list has this id. -/
def Listed (projects : List JsonValue) (id : String) : Prop :=
  ∃ project ∈ projects, projectId project = some id

theorem projectId_newProject (root : String) (host : Option String) :
    projectId (newProject root host) = some (sessionProjectId root host) := rfl

theorem projectRoot_newProject (root : String) (host : Option String) :
    projectRoot (newProject root host) = some root := rfl

theorem ensureSessionProject_listed {projects : List JsonValue} {root : String}
    {host : Option String} (h : Listed projects (sessionProjectId root host)) :
    (ensureSessionProject projects root host).2 = projects := by
  obtain ⟨project, hmem, hid⟩ := h
  unfold ensureSessionProject
  cases hfind : projects.find? fun project =>
      projectId project = some (sessionProjectId root host) with
  | some existing => rfl
  | none => exact absurd (List.find?_eq_none.mp hfind project hmem) (by simp [hid])

theorem ensureSessionProject_new {projects : List JsonValue} {root : String}
    {host : Option String} (h : ¬ Listed projects (sessionProjectId root host)) :
    (ensureSessionProject projects root host).2 = projects ++ [newProject root host] := by
  unfold ensureSessionProject
  cases hfind : projects.find? fun project =>
      projectId project = some (sessionProjectId root host) with
  | some existing =>
    exact absurd ⟨existing, List.mem_of_find?_eq_some hfind,
      by simpa using List.find?_some hfind⟩ h
  | none => rfl

/-- The projects of all these locations are ensured, one after the other. -/
def ensureAll (projects : List JsonValue) (locations : List (String × Option String)) :
    List JsonValue :=
  locations.foldl (fun projects location =>
    (ensureSessionProject projects location.1 location.2).2) projects

section

variable {projects : List JsonValue} {locations : List (String × Option String)}

theorem ensureAll_append (projects : List JsonValue) (locations : List (String × Option String)) :
    ∃ added, ensureAll projects locations = projects ++ added ∧
      (∀ project ∈ added, ∃ location ∈ locations, project = newProject location.1 location.2 ∧
        ¬ Listed projects (sessionProjectId location.1 location.2)) ∧
      ∀ location ∈ locations,
        Listed (ensureAll projects locations) (sessionProjectId location.1 location.2) := by
  induction locations generalizing projects with
  | nil => exact ⟨[], (List.append_nil projects).symm, nofun, nofun⟩
  | cons location locations ih =>
    obtain ⟨added, heq, hadded, hall⟩ :=
      ih (ensureSessionProject projects location.1 location.2).2
    have hstart : ensureAll projects (location :: locations)
        = ensureAll (ensureSessionProject projects location.1 location.2).2 locations := rfl
    rw [hstart]
    by_cases hlisted : Listed projects (sessionProjectId location.1 location.2)
    · rw [ensureSessionProject_listed hlisted] at heq hadded hall ⊢
      refine ⟨added, heq, fun project hproject => ?_, fun other hother => ?_⟩
      · obtain ⟨other, hother, hnew⟩ := hadded project hproject
        exact ⟨other, List.mem_cons_of_mem _ hother, hnew⟩
      · rcases List.mem_cons.mp hother with rfl | hother
        · obtain ⟨project, hproject, hid⟩ := hlisted
          exact ⟨project, by rw [heq]; exact List.mem_append_left _ hproject, hid⟩
        · exact hall other hother
    · rw [ensureSessionProject_new hlisted] at heq hadded hall ⊢
      refine ⟨newProject location.1 location.2 :: added, by rw [heq, List.append_assoc]; rfl,
        fun project hproject => ?_, fun other hother => ?_⟩
      · rcases List.mem_cons.mp hproject with rfl | hproject
        · exact ⟨location, List.mem_cons_self, rfl, hlisted⟩
        · obtain ⟨other, hother, hnew, habsent⟩ := hadded project hproject
          refine ⟨other, List.mem_cons_of_mem _ hother, hnew, ?_⟩
          rintro ⟨old, hold, hid⟩
          exact habsent ⟨old, List.mem_append_left _ hold, hid⟩
      · rcases List.mem_cons.mp hother with rfl | hother
        · refine ⟨newProject other.1 other.2, ?_, rfl⟩
          rw [heq]
          exact List.mem_append_left _ (List.mem_append_right _ (List.mem_singleton.mpr rfl))
        · exact hall other hother

theorem ensureAll_listed
    (h : ∀ location ∈ locations, Listed projects (sessionProjectId location.1 location.2)) :
    ensureAll projects locations = projects := by
  induction locations with
  | nil => rfl
  | cons location locations ih =>
    unfold ensureAll
    rw [List.foldl_cons, ensureSessionProject_listed (h location List.mem_cons_self)]
    exact ih fun other hother => h other (List.mem_cons_of_mem _ hother)

end

/-! ### Roots by id -/

namespace Registry

/-- The id and the root of a project that has both. -/
def rootEntry (project : JsonValue) : Option (String × String) := do
  return (← projectId project, ← projectRoot project)

theorem rootEntry_eq_some {project : JsonValue} {id root : String} :
    rootEntry project = some (id, root) ↔
      projectId project = some id ∧ projectRoot project = some root := by
  unfold rootEntry
  cases projectId project with
  | none => simp
  | some id' => cases projectRoot project <;> simp

theorem projectRoots_eq (projects : List JsonValue) (id : String) :
    projectRoots projects id
      = ((projects.filterMap rootEntry).reverse.find? (·.1 = id)).map (·.2) := rfl

/-- Projects with other ids do not matter. -/
theorem projectRoots_append {projects added : List JsonValue} {id : String}
    (h : ∀ project ∈ added, projectId project ≠ some id) :
    projectRoots (projects ++ added) id = projectRoots projects id := by
  have hnone : (added.filterMap rootEntry).reverse.find? (·.1 = id) = none := by
    rw [List.find?_eq_none]
    intro entry hentry
    obtain ⟨project, hproject, heq⟩ := List.mem_filterMap.mp (List.mem_reverse.mp hentry)
    obtain ⟨hid, -⟩ := rootEntry_eq_some.mp (show rootEntry project = some (entry.1, entry.2) from heq)
    simp only [decide_eq_true_eq]
    rintro rfl
    exact h project hproject hid
  rw [projectRoots_eq, projectRoots_eq, List.filterMap_append, List.reverse_append,
    List.find?_append, hnone, Option.none_or]

theorem projectRoots_of_all {projects : List JsonValue} {id root : String}
    (hlisted : Listed projects id)
    (hall : ∀ project ∈ projects, projectId project = some id → projectRoot project = some root) :
    projectRoots projects id = some root := by
  obtain ⟨project, hproject, hid⟩ := hlisted
  have hmem : (id, root) ∈ (projects.filterMap rootEntry).reverse :=
    List.mem_reverse.mpr (List.mem_filterMap.mpr
      ⟨project, hproject, rootEntry_eq_some.mpr ⟨hid, hall project hproject hid⟩⟩)
  rw [projectRoots_eq]
  cases hfind : (projects.filterMap rootEntry).reverse.find? (·.1 = id) with
  | none => exact absurd (List.find?_eq_none.mp hfind _ hmem) (by simp)
  | some entry =>
    have hentry : entry.1 = id := by simpa using List.find?_some hfind
    obtain ⟨other, hother, heq⟩ :=
      List.mem_filterMap.mp (List.mem_reverse.mp (List.mem_of_find?_eq_some hfind))
    obtain ⟨hotherId, hroot⟩ :=
      rootEntry_eq_some.mp (show rootEntry other = some (entry.1, entry.2) from heq)
    rw [hentry] at hotherId
    rw [hall other hother hotherId] at hroot
    rw [Option.map_some, ← Option.some.inj hroot]

/-! ### One load -/

section Load

variable {isAlphanumeric : Char → Bool}

/-- A title that was repaired is not repaired again. -/
theorem repair_repair (hcontrol : ∀ c, isControl c = true → isAlphanumeric c = false)
    (record : SessionRecord Fields) :
    (repairPersistedAgentTitle isAlphanumeric
        (repairPersistedAgentTitle isAlphanumeric record).2).2
      = (repairPersistedAgentTitle isAlphanumeric record).2 := by
  unfold repairPersistedAgentTitle
  by_cases hsource : record.titleSource = .agentProvided
  · rw [if_neg (not_not_intro hsource)]
    cases htitle : (normalizeAgentTitle isAlphanumeric record.title).filter fun title =>
        !isGenericTerminalTitle isAlphanumeric title record.toSessionRecord with
    | none => rfl
    | some title =>
      obtain ⟨hnormal, hspecific⟩ := Option.filter_eq_some_iff.mp htitle
      -- the new title is normal, and no more generic than before
      have hagain : (normalizeAgentTitle isAlphanumeric title).filter (fun title =>
          !isGenericTerminalTitle isAlphanumeric title record.toSessionRecord) = some title :=
        Option.filter_eq_some_iff.mpr
          ⟨Watch.normalizeAgentTitle_idem hcontrol hnormal, hspecific⟩
      by_cases hsame : title = record.title
      · subst hsame
        simp [hsource, htitle]
      · have hnext : repairPersistedAgentTitle isAlphanumeric { record with title := title }
            = (false, { record with title := title }) := by
          unfold repairPersistedAgentTitle
          rw [if_neg (not_not_intro hsource)]
          split
          · rename_i other hother
            cases hagain.symm.trans hother
            exact if_neg (not_not_intro rfl)
          · rename_i hnone
            cases hagain.symm.trans hnone
        simp only [hsame, ne_eq, not_false_eq_true, if_true]
        exact congrArg Prod.snd hnext
  · rw [if_pos hsource, if_pos hsource]

theorem repair_frame (record : SessionRecord Fields) :
    (repairPersistedAgentTitle isAlphanumeric record).2.id = record.id ∧
      (repairPersistedAgentTitle isAlphanumeric record).2.projectId = record.projectId ∧
      (repairPersistedAgentTitle isAlphanumeric record).2.cwd = record.cwd ∧
      (repairPersistedAgentTitle isAlphanumeric record).2.host = record.host := by
  unfold repairPersistedAgentTitle
  split
  · exact ⟨rfl, rfl, rfl, rfl⟩
  · split
    · split
      · exact ⟨rfl, rfl, rfl, rfl⟩
      · exact ⟨rfl, rfl, rfl, rfl⟩
    · exact ⟨rfl, rfl, rfl, rfl⟩

/-- Where a record is, as `load` sees it. -/
def location (projects : List JsonValue) (record : SessionRecord Fields) :
    String × Option String := (ownerRoot projects record, record.host)

/-- The id that `load` gives a record. -/
def derivedId (projects : List JsonValue) (record : SessionRecord Fields) : String :=
  sessionProjectId (ownerRoot projects record) record.host

theorem loadRecord_eq (projects : List JsonValue) (record : SessionRecord Fields) :
    loadRecord isAlphanumeric projects record =
      { (repairPersistedAgentTitle isAlphanumeric record).2 with
        projectId := derivedId projects record } := by
  obtain ⟨-, hproject, hcwd, hhost⟩ := @repair_frame Fields isAlphanumeric record
  unfold loadRecord derivedId ownerRoot
  dsimp only
  rw [hproject, hcwd, hhost]

theorem loadRecord_frame (projects : List JsonValue) (record : SessionRecord Fields) :
    (loadRecord isAlphanumeric projects record).id = record.id ∧
      (loadRecord isAlphanumeric projects record).projectId = derivedId projects record ∧
      (loadRecord isAlphanumeric projects record).cwd = record.cwd ∧
      (loadRecord isAlphanumeric projects record).host = record.host := by
  obtain ⟨hid, -, hcwd, hhost⟩ := @repair_frame Fields isAlphanumeric record
  rw [loadRecord_eq]
  exact ⟨hid, rfl, hcwd, hhost⟩

/-- A second load can only change the project of a record. -/
theorem loadRecord_again (hcontrol : ∀ c, isControl c = true → isAlphanumeric c = false)
    (projects projects' : List JsonValue) (record : SessionRecord Fields) :
    loadRecord isAlphanumeric projects' (loadRecord isAlphanumeric projects record)
        = loadRecord isAlphanumeric projects record ↔
      derivedId projects' (loadRecord isAlphanumeric projects record)
        = derivedId projects record := by
  have hrepair : (repairPersistedAgentTitle isAlphanumeric
      { (repairPersistedAgentTitle isAlphanumeric record).2 with
        projectId := derivedId projects record }).2
      = { (repairPersistedAgentTitle isAlphanumeric record).2 with
          projectId := derivedId projects record } := by
    have hagain := repair_repair hcontrol record
    generalize (repairPersistedAgentTitle isAlphanumeric record).2 = repaired at hagain ⊢
    have hmove : (repairPersistedAgentTitle isAlphanumeric
        { repaired with projectId := derivedId projects record }).2
        = { (repairPersistedAgentTitle isAlphanumeric repaired).2 with
            projectId := derivedId projects record } := by
      unfold repairPersistedAgentTitle
      dsimp only
      split
      · rfl
      · split
        · split <;> rfl
        · rfl
    rw [hmove, hagain]
  rw [loadRecord_eq projects', loadRecord_eq projects, hrepair]
  constructor
  · exact fun h => congrArg SessionRecord.projectId h
  · intro h
    rw [h]

/-- The records of a load are those of the file, loaded; a later one takes the place of an
earlier one. -/
theorem records_loadState (state : PersistedState Fields) (id : String) :
    (Registry.new.loadState isAlphanumeric state).records.get id
      = ((KeyedMap.ofList state.sessions : KeyedMap SessionRecord.id).get id).map
          (loadRecord isAlphanumeric state.projects) :=
  KeyedMap.get_foldl_insert_map (fun record => (loadRecord_frame state.projects record).1)
    state.sessions rfl

theorem projects_loadState (registry : Registry Fields) (state : PersistedState Fields) :
    (registry.loadState isAlphanumeric state).projects
      = ensureAll state.projects (state.sessions.map (location state.projects)) := by
  unfold ensureAll
  rw [List.foldl_map]
  rfl

/-- What is written after a load is what was loaded: no session is live, so no status is folded
in. -/
theorem persisted_perm (state : PersistedState Fields) :
    (Registry.new.loadState isAlphanumeric state).persisted.sessions.Perm
      (Registry.new.loadState isAlphanumeric state).records.values :=
  (List.mergeSort_perm _ _).trans (List.Perm.of_eq (List.map_id _))

theorem mem_persisted {state : PersistedState Fields} {record : SessionRecord Fields} :
    record ∈ (Registry.new.loadState isAlphanumeric state).persisted.sessions ↔
      (Registry.new.loadState isAlphanumeric state).records.get record.id = some record := by
  rw [(persisted_perm state).mem_iff, KeyedMap.get_eq_some]
  exact (and_iff_left rfl).symm

/-! ### Loading again -/

/-- Both registries have these records and these projects. -/
structure Settled (first second : Registry Fields) : Prop where
  records : ∀ id, second.records.get id = first.records.get id
  projects : second.projects = first.projects

/-- Every session is under a project. -/
def Grounded (registry : Registry Fields) : Prop :=
  ∀ id record, registry.records.get id = some record → Listed registry.projects record.projectId

/-- No two locations that the two loads meet have the same id. -/
def Apart (isAlphanumeric : Char → Bool) (state : PersistedState Fields) : Prop :=
  let first := Registry.new.loadState isAlphanumeric state
  let present := state.sessions.map (location state.projects)
    ++ first.persisted.sessions.map (location first.projects)
  ∀ here ∈ present, ∀ there ∈ present,
    sessionProjectId here.1 here.2 = sessionProjectId there.1 there.2 → here = there

/-- A project of the file that has the id of a session's location leads to that location. -/
def Agrees (state : PersistedState Fields) : Prop :=
  ∀ id record, (KeyedMap.ofList state.sessions : KeyedMap SessionRecord.id).get id = some record →
    Listed state.projects (derivedId state.projects record) →
    (projectRoots state.projects (derivedId state.projects record)).getD record.cwd
      = ownerRoot state.projects record

variable {state : PersistedState Fields}

theorem mem_of_get {id : String} {record : SessionRecord Fields}
    (h : (KeyedMap.ofList state.sessions : KeyedMap SessionRecord.id).get id = some record) :
    record ∈ state.sessions :=
  KeyedMap.mem_of_mem_ofList ((KeyedMap.get_eq_some _).mp h).1

theorem listed_derivedId {record : SessionRecord Fields} (h : record ∈ state.sessions) :
    Listed (Registry.new.loadState isAlphanumeric state).projects
      (derivedId state.projects record) := by
  obtain ⟨-, -, -, hall⟩ :=
    ensureAll_append state.projects (state.sessions.map (location state.projects))
  rw [projects_loadState, derivedId]
  exact hall (location state.projects record) (List.mem_map_of_mem h)

theorem grounded_loadState : (Registry.new.loadState isAlphanumeric state).Grounded := by
  intro id loaded hloaded
  rw [records_loadState] at hloaded
  obtain ⟨record, hrecord, rfl⟩ := Option.map_eq_some_iff.mp hloaded
  rw [(loadRecord_frame state.projects record).2.1]
  exact listed_derivedId (mem_of_get hrecord)

theorem ownerRoot_again (hapart : Apart isAlphanumeric state) {record : SessionRecord Fields}
    (h : record ∈ state.sessions) :
    (Listed state.projects (derivedId state.projects record) →
      ownerRoot (Registry.new.loadState isAlphanumeric state).projects
          (loadRecord isAlphanumeric state.projects record)
        = (projectRoots state.projects (derivedId state.projects record)).getD record.cwd) ∧
    (¬ Listed state.projects (derivedId state.projects record) →
      ownerRoot (Registry.new.loadState isAlphanumeric state).projects
          (loadRecord isAlphanumeric state.projects record)
        = ownerRoot state.projects record) := by
  obtain ⟨-, hproject, hcwd, -⟩ := @loadRecord_frame Fields isAlphanumeric state.projects record
  obtain ⟨added, hprojects, hadded, -⟩ :=
    ensureAll_append state.projects (state.sessions.map (location state.projects))
  have hall : (Registry.new.loadState isAlphanumeric state).projects = state.projects ++ added :=
    (projects_loadState Registry.new state).trans hprojects
  rw [ownerRoot, hproject, hcwd, hall]
  constructor
  · intro hlisted
    rw [projectRoots_append]
    intro project hmem hid
    obtain ⟨other, -, rfl, habsent⟩ := hadded project hmem
    rw [projectId_newProject] at hid
    exact habsent (Option.some.inj hid ▸ hlisted)
  · intro habsent
    have hlisted := @listed_derivedId Fields isAlphanumeric state record h
    rw [hall] at hlisted
    rw [projectRoots_of_all hlisted, Option.getD_some]
    intro project hmem hid
    rcases List.mem_append.mp hmem with hold | hnew
    · exact absurd ⟨project, hold, hid⟩ habsent
    · -- a new project with this id is that of the same location
      obtain ⟨other, hother, rfl, -⟩ := hadded project hnew
      rw [projectId_newProject] at hid
      have hsame := hapart other (List.mem_append_left _ hother) (location state.projects record)
        (List.mem_append_left _ (List.mem_map_of_mem h)) (Option.some.inj hid)
      rw [projectRoot_newProject, hsame]
      rfl

theorem records_again (id : String) :
    (Registry.new.loadState isAlphanumeric
        (Registry.new.loadState isAlphanumeric state).persisted).records.get id
      = ((Registry.new.loadState isAlphanumeric state).records.get id).map
          (loadRecord isAlphanumeric (Registry.new.loadState isAlphanumeric state).projects) := by
  rw [records_loadState, KeyedMap.get_ofList_of_perm _ (persisted_perm state)]
  rfl

theorem settled_iff (hcontrol : ∀ c, isControl c = true → isAlphanumeric c = false)
    (hapart : Apart isAlphanumeric state) :
    Settled (Registry.new.loadState isAlphanumeric state)
        (Registry.new.loadState isAlphanumeric
          (Registry.new.loadState isAlphanumeric state).persisted) ↔ Agrees state := by
  have hsame : ∀ id record,
      (KeyedMap.ofList state.sessions : KeyedMap SessionRecord.id).get id = some record →
      ((loadRecord isAlphanumeric (Registry.new.loadState isAlphanumeric state).projects
          (loadRecord isAlphanumeric state.projects record)
        = loadRecord isAlphanumeric state.projects record) ↔
      (Listed state.projects (derivedId state.projects record) →
        (projectRoots state.projects (derivedId state.projects record)).getD record.cwd
          = ownerRoot state.projects record)) := by
    intro id record hget
    have hmem := mem_of_get hget
    obtain ⟨hlisted, hfresh⟩ := ownerRoot_again hapart hmem
    have hhost := (@loadRecord_frame Fields isAlphanumeric state.projects record).2.2.2
    -- no collision: the same id is the same root
    have hroot : derivedId (Registry.new.loadState isAlphanumeric state).projects
          (loadRecord isAlphanumeric state.projects record) = derivedId state.projects record ↔
        ownerRoot (Registry.new.loadState isAlphanumeric state).projects
          (loadRecord isAlphanumeric state.projects record) = ownerRoot state.projects record := by
      constructor
      · intro hid
        have hloaded : loadRecord isAlphanumeric state.projects record
            ∈ (Registry.new.loadState isAlphanumeric state).persisted.sessions := by
          rw [mem_persisted, records_loadState, (loadRecord_frame state.projects record).1,
            ((KeyedMap.get_eq_some _).mp hget).2, hget]
          rfl
        exact congrArg Prod.fst (hapart _ (List.mem_append_right _ (List.mem_map_of_mem hloaded)) _
          (List.mem_append_left _ (List.mem_map_of_mem hmem)) hid)
      · intro hroot
        rw [derivedId, derivedId, hroot, hhost]
    rw [loadRecord_again hcontrol, hroot]
    by_cases h : Listed state.projects (derivedId state.projects record)
    · rw [hlisted h]
      exact ⟨fun heq _ => heq, fun heq => heq h⟩
    · exact iff_of_true (hfresh h) fun hl => absurd hl h
  constructor
  · intro hsettled id record hget
    refine (hsame id record hget).mp ?_
    have hrecords := hsettled.records id
    rw [records_again, records_loadState, hget] at hrecords
    exact Option.some.inj hrecords
  · intro hagrees
    have hloaded : ∀ id loaded,
        (Registry.new.loadState isAlphanumeric state).records.get id = some loaded →
        loadRecord isAlphanumeric (Registry.new.loadState isAlphanumeric state).projects loaded
          = loaded := by
      intro id loaded hget
      rw [records_loadState] at hget
      obtain ⟨record, hrecord, rfl⟩ := Option.map_eq_some_iff.mp hget
      exact (hsame id record hrecord).mpr (hagrees id record hrecord)
    constructor
    · intro id
      rw [records_again]
      cases hget : (Registry.new.loadState isAlphanumeric state).records.get id with
      | none => rfl
      | some loaded => rw [Option.map_some, hloaded id loaded hget]
    · rw [projects_loadState]
      refine ensureAll_listed fun here hhere => ?_
      obtain ⟨loaded, hmem, rfl⟩ := List.mem_map.mp hhere
      have hget := mem_persisted.mp hmem
      have hid := congrArg SessionRecord.projectId (hloaded loaded.id loaded hget)
      rw [(loadRecord_frame _ loaded).2.1] at hid
      change Listed _ (derivedId (Registry.new.loadState isAlphanumeric state).projects loaded)
      rw [hid]
      exact grounded_loadState loaded.id loaded hget

/-- **Loading settles exactly where old projects agree with the locations.**  A state file is
loaded, written and loaded again by the next registry, and no two locations have one id: records
and projects are the same, and every session has a project, if and only if each project that has
the id of a session's location leads to that location. -/
theorem load_idempotent_iff (hcontrol : ∀ c, isControl c = true → isAlphanumeric c = false)
    (codec : Codec (PersistedState Fields) β) (disk : Disk β) {bytes : β}
    (hfile : disk.stateFile = some bytes) (hparse : codec.decode bytes = some state)
    (hapart : Apart isAlphanumeric state) (now : Nat) :
    let first := (Registry.new.load isAlphanumeric codec disk true).2.1
    let written := (first.persistNow codec disk now none).2.2
    let second := (Registry.new.load isAlphanumeric codec written true).2.1
    Settled first second ∧ first.Grounded ↔ Agrees state := by
  have hload : ∀ (disk : Disk β) (bytes : β) (state : PersistedState Fields),
      disk.stateFile = some bytes → codec.decode bytes = some state →
      (Registry.new.load isAlphanumeric codec disk true).2.1
        = Registry.new.loadState isAlphanumeric state := by
    intro disk bytes state hfile hparse
    simp only [load, hfile, hparse, Bool.not_true, Bool.false_eq_true, if_false]
  intro first written second
  have hfirst : first = Registry.new.loadState isAlphanumeric state :=
    hload disk bytes state hfile hparse
  have hsecond : second = Registry.new.loadState isAlphanumeric first.persisted :=
    hload written _ first.persisted rfl (codec.decode_encode first.persisted)
  rw [hsecond, hfirst, settled_iff hcontrol hapart]
  exact and_iff_left grounded_loadState

end Load

/-! ### A project that has moved -/

/-- A record from before projects had ids: it names its directory. -/
def legacy : SessionRecord Unit :=
  ⟨⟨"claude", "/a", "Fix the build", .userRename, .idle, none, 2⟩, "s1", "/a", none, ()⟩

theorem isControl_not_alphanum (c : Char) (h : isControl c = true) : c.isAlphanum = false := by
  simp [isControl, Char.isAlphanum, Char.isAlpha, Char.isUpper, Char.isLower, Char.isDigit,
    UInt32.le_iff_toNat_le] at h ⊢
  omega

theorem persisted_legacy (projects : List JsonValue) :
    (Registry.new.loadState Char.isAlphanum ⟨1, projects, [legacy]⟩).persisted.sessions
      = [loadRecord Char.isAlphanum projects legacy] := by
  have hperm := @persisted_perm Unit Char.isAlphanum ⟨1, projects, [legacy]⟩
  exact List.perm_singleton.mp hperm

theorem apart_legacy {projects : List JsonValue} {here there : String × Option String}
    (hhere : location projects legacy = here)
    (hthere : location (Registry.new.loadState Char.isAlphanum ⟨1, projects, [legacy]⟩).projects
      (loadRecord Char.isAlphanum projects legacy) = there)
    (hids : sessionProjectId here.1 here.2 = sessionProjectId there.1 there.2 → here = there) :
    Apart Char.isAlphanum ⟨1, projects, [legacy]⟩ := by
  unfold Apart
  dsimp only
  rw [persisted_legacy, List.map_singleton, List.map_singleton, hhere, hthere]
  intro one hone other hother hsame
  rcases List.mem_cons.mp hone with rfl | hone
  · rcases List.mem_cons.mp hother with rfl | hother
    · rfl
    · rw [List.mem_singleton.mp hother] at hsame ⊢
      exact hids hsame
  · rw [List.mem_singleton.mp hone] at hsame ⊢
    rcases List.mem_cons.mp hother with rfl | hother
    · exact (hids hsame.symm).symm
    · exact (List.mem_singleton.mp hother).symm

theorem ownerRoot_legacy {projects : List JsonValue} {root : String}
    (hid : derivedId projects legacy = sessionProjectId "/a" none)
    (hroots : projectRoots (Registry.new.loadState Char.isAlphanum
      ⟨1, projects, [legacy]⟩).projects (sessionProjectId "/a" none) = some root) :
    location (Registry.new.loadState Char.isAlphanum ⟨1, projects, [legacy]⟩).projects
      (loadRecord Char.isAlphanum projects legacy) = (root, none) := by
  obtain ⟨-, hproject, -, hhost⟩ := @loadRecord_frame Unit Char.isAlphanum projects legacy
  rw [location, ownerRoot, hproject, hid, hroots, hhost]
  rfl

/-- A file that holds the state itself. -/
def plainFile : Codec (PersistedState Unit) (PersistedState Unit) := ⟨id, some, fun _ => rfl⟩

def diskOf (state : PersistedState Unit) : Disk (PersistedState Unit) := ⟨some state, none, none⟩

def migrated : PersistedState Unit := ⟨1, [], [legacy]⟩

theorem apart_migrated : Apart Char.isAlphanum migrated := by
  have hroots : projectRoots [newProject "/a" none] (sessionProjectId "/a" none) = some "/a" := by
    refine projectRoots_of_all ⟨_, List.mem_singleton.mpr rfl, rfl⟩ fun project hproject _ => ?_
    rw [List.mem_singleton.mp hproject]
    rfl
  exact apart_legacy rfl (ownerRoot_legacy rfl hroots) fun _ => rfl

theorem load_idempotent_migrated :
    let first := (Registry.new.load Char.isAlphanum plainFile (diskOf migrated) true).2.1
    let written := (first.persistNow plainFile (diskOf migrated) 0 none).2.2
    let second := (Registry.new.load Char.isAlphanum plainFile written true).2.1
    Settled first second ∧ first.Grounded := by
  refine (load_idempotent_iff isControl_not_alphanum plainFile (diskOf migrated) rfl rfl
    apart_migrated 0).mpr ?_
  rintro id record - ⟨project, hproject, -⟩
  exact absurd hproject List.not_mem_nil

/-- The id of the directory is that of a project that leads elsewhere. -/
def moved : PersistedState Unit :=
  ⟨1, [.object [("id", .string (sessionProjectId "/a" none)), ("root", .string "/b")]], [legacy]⟩

/-- The first load puts the session under that project, and the second under another: no two
locations have one id, and the session has moved from `/a` to `/b`. -/
theorem second_load_moves :
    Apart Char.isAlphanum moved ∧
      ¬ Settled (Registry.new.loadState Char.isAlphanum moved)
        (Registry.new.loadState Char.isAlphanum
          (Registry.new.loadState Char.isAlphanum moved).persisted) := by
  have hid : derivedId moved.projects legacy = sessionProjectId "/a" none := by decide
  have hroots : projectRoots moved.projects (sessionProjectId "/a" none) = some "/b" := by
    decide
  have hagain : projectRoots (Registry.new.loadState Char.isAlphanum moved).projects
      (sessionProjectId "/a" none) = some "/b" := by decide
  have hdiffer : sessionProjectId "/a" none ≠ sessionProjectId "/b" none := by decide
  have hhere : location moved.projects legacy = ("/a", none) := by decide
  have hapart : Apart Char.isAlphanum moved :=
    apart_legacy hhere (ownerRoot_legacy hid hagain) fun hids => absurd hids hdiffer
  refine ⟨hapart, fun hsettled => ?_⟩
  have hagrees := (settled_iff isControl_not_alphanum hapart).mp hsettled "s1" legacy rfl
    (by rw [hid]; exact ⟨_, List.mem_singleton.mpr rfl, rfl⟩)
  rw [hid, hroots] at hagrees
  revert hagrees
  decide

end Registry

end Homie.Flusher

/-! ### Whether what is in memory gets to the state file

Nothing is lost while the file holds what is in memory or the registry is dirty (`Remembered`).
Only a write that went through clears the flag, and it leaves the file as the memory is; but a
write that fails does not set the flag, so a mutation that did not mark the registry is forgotten
by a persist that fails, and by every flush after it.
-/

namespace Homie.Flusher

open Stores (Codec)
open Trace

variable {Fields β : Type}

namespace Persistence

variable (codec : Codec (PersistedState Fields) β)

/-- The state file holds what is in memory. -/
def Durable (sys : Persistence Fields β) : Prop :=
  sys.disk.stateFile = some (codec.encode sys.registry.persisted)

def Remembered (sys : Persistence Fields β) : Prop :=
  sys.Durable codec ∨ sys.registry.dirty = true

end Persistence

open Persistence

variable {codec : Codec (PersistedState Fields) β} {sys : Persistence Fields β} {now : Nat}
  {fault : Option (Registry.WriteFault β)}

/-! ### One call -/

theorem persistNow_durable :
    (Persistence.mk (sys.registry.persistNow codec sys.disk now none).2.1
      (sys.registry.persistNow codec sys.disk now none).2.2).Durable codec := rfl

theorem persistNow_failed (fault : Registry.WriteFault β) :
    (sys.registry.persistNow codec sys.disk now (some fault)).2.1 = sys.registry ∧
      (sys.registry.persistNow codec sys.disk now (some fault)).2.2.stateFile
        = sys.disk.stateFile := by
  cases fault with
  | serialize => exact ⟨rfl, rfl⟩
  | createDir => exact ⟨rfl, rfl⟩
  | write left => exact ⟨rfl, rfl⟩
  | rename => exact ⟨rfl, rfl⟩

theorem persistNow_remembered :
    (Persistence.mk (sys.registry.persistNow codec sys.disk now fault).2.1
      (sys.registry.persistNow codec sys.disk now fault).2.2).Remembered codec ↔
      fault = none ∨ sys.Remembered codec := by
  cases fault with
  | none => exact iff_of_true (Or.inl persistNow_durable) (Or.inl rfl)
  | some fault =>
    obtain ⟨hregistry, hfile⟩ := @persistNow_failed Fields β codec sys now fault
    simp only [Remembered, Durable, hregistry, hfile, reduceCtorEq, false_or]

theorem persist_remembered :
    (step codec sys (.persist now fault)).1.Remembered codec ↔
      sys.registry.debounced now = true ∨ fault = none ∨ sys.Remembered codec := by
  simp only [step, Registry.persist]
  cases hdebounced : sys.registry.debounced now with
  | true => exact iff_of_true (Or.inr rfl) (Or.inl rfl)
  | false =>
    simp only [Bool.false_eq_true, if_false, false_or]
    exact persistNow_remembered

/-! ### Runs -/

/-- A persist that writes goes through, or was not needed. -/
def PersistAllowed (codec : Codec (PersistedState Fields) β) (sys : Persistence Fields β) :
    Event Fields β → Prop
  | .persist now fault =>
    sys.registry.debounced now = true ∨ fault = none ∨ sys.Remembered codec
  | _ => True

/-- **Every persist remembers exactly when none fails to write what nothing else remembers.**
After each persist of a run the file holds what is in memory or the registry is dirty, if and only
if each persist is deferred, or goes through, or finds the registry dirty or the file up to date. -/
theorem persist_remembers_iff (codec : Codec (PersistedState Fields) β) (start : Persistence Fields β)
    (events : List (Event Fields β)) :
    (∀ x ∈ trace (step codec) start events, ∀ now fault, x.event = .persist now fault →
        x.after.Remembered codec) ↔
      ∀ x ∈ trace (step codec) start events, PersistAllowed codec x.before x.event := by
  have hstep : ∀ x ∈ trace (step codec) start events,
      (∀ now fault, x.event = .persist now fault → x.after.Remembered codec) ↔
        PersistAllowed codec x.before x.event := by
    intro x hx
    obtain ⟨front, back, hsplit⟩ := List.mem_iff_append.mp hx
    obtain ⟨earlier, event, -, -, rfl, -⟩ := trace_split (step codec) hsplit
    cases event with
    | mutate sessions records projects marks => exact iff_of_true nofun trivial
    | flushDirty now fault => exact iff_of_true nofun trivial
    | persist now fault =>
      constructor
      · exact fun h => persist_remembered.mp (h now fault rfl)
      · intro h now fault heq
        cases heq
        exact persist_remembered.mpr h
  exact forall₂_congr hstep

/-- A file that holds the state itself. -/
def plain : Codec (PersistedState Unit) (PersistedState Unit) := ⟨id, some, fun _ => rfl⟩

def imported : SessionRecord Unit :=
  ⟨⟨"claude", "/work", "Fix the build", .userRename, .idle, none, 2⟩, "s1", "p_1", none, ()⟩

/-- A session comes in, and there is no room left for the temporary file. -/
def importOnFullDisk : List (Event Unit (PersistedState Unit)) :=
  [.mutate (fun _ => none) (KeyedMap.empty.insert imported) [] false,
    .persist 0 (some (.write none))]

def atStart : Persistence Unit (PersistedState Unit) := ⟨.new, ⟨none, none, none⟩⟩

/-- The persist fails, and neither the file nor the flag knows of the session: the flush after it
goes through and leaves no file. -/
theorem failed_persist_forgets :
    ¬ (run (step plain) atStart importOnFullDisk).Remembered plain ∧
      (step plain (run (step plain) atStart importOnFullDisk) (.flushDirty 500 none)).2 = true ∧
      (step plain (run (step plain) atStart importOnFullDisk)
        (.flushDirty 500 none)).1.disk.stateFile = none := by
  refine ⟨?_, rfl, rfl⟩
  rintro (hdurable | hdirty)
  · cases hdurable
  · cases hdirty

end Homie.Flusher
