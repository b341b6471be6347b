/-
Where `stage` writes.

Whatever the file system answers, and whatever manifest the store holds, a restored file goes down
from the quarantine that is being staged, a session file and what it is made from stand in one
directory of the provider's home, and the move record has its own name (`stage_confined`).
-/
import Homie.Lib.Effects
import Homie.Node.StagePaths

namespace Homie.Node

open Effects
open PathBuf (resolve Inside)

/-! ### Names -/

theorem properName_of_length {name : String} (hslash : '/' ∉ name.toList)
    (hlength : 2 < name.toList.length) : ProperName name := by
  refine ⟨?_, ?_, ?_, hslash⟩
  · intro heq
    simp [heq] at hlength
  · intro heq
    simp [heq] at hlength
  · intro heq
    simp [heq] at hlength

theorem not_slash_of_hexdigit {c : Char} (h : isAsciiHexdigit c = true) : c ≠ '/' := by
  rintro rfl
  exact absurd h (by decide)

theorem checkpointId_spec {id : String} (h : validateCheckpointId id = .ok ()) :
    '/' ∉ id.toList ∧ 2 < id.toList.length := by
  unfold validateCheckpointId at h
  split at h
  · rename_i rest htext
    split at h
    · rename_i hrest
      rw [htext]
      constructor
      · intro hmem
        simp only [List.mem_cons] at hmem
        rcases hmem with heq | heq | heq | hmem
        · exact absurd heq (by decide)
        · exact absurd heq (by decide)
        · exact absurd heq (by decide)
        · exact not_slash_of_hexdigit (List.all_eq_true.mp hrest.2 _ hmem) rfl
      · simp only [List.length_cons]
        omega
    · exact nomatch h
  · exact nomatch h

theorem not_slash_toString (number : Nat) : '/' ∉ (toString number).toList := by
  have htext : (toString number).toList = Nat.toDigits 10 number := by
    rw [Nat.toString_eq_ofList_toDigits, String.toList_ofList]
  intro hmem
  rw [htext] at hmem
  have hdigit := Nat.isDigit_of_mem_toDigits (by decide) (by decide) hmem
  exact absurd hdigit (by decide)

theorem properName_append {front text back : String} (hfront : '/' ∉ front.toList)
    (htext : '/' ∉ text.toList) (hback : '/' ∉ back.toList)
    (hlength : 2 < front.toList.length + back.toList.length) :
    ProperName (front ++ text ++ back) := by
  refine properName_of_length ?_ ?_
  · simp only [String.toList_append, List.mem_append, not_or]
    exact ⟨⟨hfront, htext⟩, hback⟩
  · simp only [String.toList_append, List.length_append]
    omega

theorem validateRelativePath_spec {path : String} (h : validateRelativePath path = .ok ()) :
    components path = (pathNames path).map .normal := by
  unfold validateRelativePath at h
  split at h
  · exact nomatch h
  · rename_i hsafe
    simp only [Bool.not_eq_true', Bool.not_eq_false, not_or, List.all_eq_true] at hsafe
    unfold pathNames
    generalize hcomponents : components path = parts at hsafe
    clear hcomponents h
    induction parts with
    | nil => rfl
    | cons part parts ih =>
      have hpart := hsafe.2 part List.mem_cons_self
      cases part with
      | normal name =>
        have hrest := ih ⟨hsafe.1, fun other hother =>
          hsafe.2 other (List.mem_cons_of_mem _ hother)⟩
        exact congrArg (Component.normal name :: ·) hrest
      | rootDir => exact absurd hpart (by decide)
      | curDir => exact absurd hpart (by decide)
      | parentDir => exact absurd hpart (by decide)

/-! ### What is allowed -/

section
variable (place : List String) (paths : NodePaths) (pid : Nat) (checkpointId : String)
  (configHome : PathBuf) (manifest : CheckpointManifest)

/-- The quarantine of the checkpoint, under its name or while it is staged. -/
def InQuarantine (path : PathBuf) : Prop :=
  Inside place (paths.restores.join checkpointId) path ∨
    Inside place (paths.restores.join ("." ++ checkpointId ++ ".staging")) path

/-- The session file of the provider's home. -/
def IsSessionFile (path : PathBuf) : Prop :=
  ∃ names, CheckpointStore.providerStateDestination manifest = .ok (some names) ∧
    resolve place path = resolve place configHome ++ names

/-- What the session file is made from, in the same directory. -/
def IsSessionTemporary (path : PathBuf) : Prop :=
  ∃ names sessionId, CheckpointStore.providerStateDestination manifest = .ok (some names) ∧
    manifest.providerSessionId = some sessionId ∧
    resolve place path = resolve place configHome ++ names.dropLast ++
      ["." ++ sessionId ++ ".staging-" ++ toString pid]

/-- The record of the move, and what it is made from. -/
def IsMoveRecord (path : PathBuf) : Prop :=
  resolve place path = resolve place paths.moves ++ [checkpointId ++ ".json"] ∨
    resolve place path = resolve place paths.moves ++
      ["." ++ (checkpointId ++ ".json") ++ ".tmp-" ++ toString pid]

def Confined (path : PathBuf) : Prop :=
  InQuarantine place paths checkpointId path ∨ IsSessionFile place configHome manifest path ∨
    IsSessionTemporary place pid configHome manifest path ∨
    IsMoveRecord place paths pid checkpointId path

/-- The operation writes nothing, or where it may. -/
def Allowed (op : FileOp) : Prop :=
  ∀ path, op.written = some path →
    Confined place paths pid checkpointId configHome manifest path

end

/-! ### Each step -/

section
variable {place : List String} {paths : NodePaths} {pid : Nat} {checkpointId : String}
  {configHome : PathBuf} {manifest : CheckpointManifest}

theorem allowed_of_none {op : FileOp} (h : op.written = none) :
    Allowed place paths pid checkpointId configHome manifest op := by
  intro path hpath
  exact nomatch h.symm.trans hpath

theorem allowed_of_written {op : FileOp} {path : PathBuf} (hop : op.written = some path)
    (h : Confined place paths pid checkpointId configHome manifest path) :
    Allowed place paths pid checkpointId configHome manifest op := by
  intro other hother
  rw [← Option.some.inj (hop.symm.trans hother)]
  exact h

theorem within_op {op : FileOp}
    (h : Allowed place paths pid checkpointId configHome manifest op) :
    Within (Allowed place paths pid checkpointId configHome manifest)
      (NodePaths.act op : Script paths Unit) fun _ => True :=
  within_act Files.outcome h

theorem within_restoreFile {root : PathBuf}
    (hroot : Inside place (paths.restores.join ("." ++ checkpointId ++ ".staging")) root)
    (entry : CheckpointFile) :
    Within (Allowed place paths pid checkpointId configHome manifest)
      (NodePaths.restoreFile root entry : Script paths Unit) fun _ => True := by
  unfold NodePaths.restoreFile
  refine (within_lift _).bind fun _ hpath => ?_
  refine (within_lift _).bind fun _ _ => ?_
  refine (within_ask _).bind fun there _ => ?_
  refine within_ite (fun _ => within_fail _) fun _ => ?_
  refine (within_tryAsk _).bind fun digest _ => ?_
  refine within_ite (fun _ => within_fail _) fun _ => ?_
  refine (within_forM _ fun parent _ => within_op (allowed_of_none rfl)).bind fun _ _ => ?_
  have hbelow : resolve place (root.join entry.path) = resolve place root ++ pathNames entry.path :=
    PathBuf.resolve_join (validateRelativePath_spec hpath) place root
  have hinside : Confined place paths pid checkpointId configHome manifest
      (root.join entry.path) := by
    refine .inl (.inr ?_)
    unfold Inside
    rw [hbelow]
    exact hroot.trans (List.prefix_append _ _)
  refine (within_op (allowed_of_written rfl hinside)).bind fun _ _ => ?_
  exact within_forM _ fun mode _ => within_op (allowed_of_none rfl)

theorem within_restoreFiles {root : PathBuf}
    (hroot : Inside place (paths.restores.join ("." ++ checkpointId ++ ".staging")) root)
    (entries : List CheckpointFile) :
    Within (Allowed place paths pid checkpointId configHome manifest)
      (NodePaths.restoreFiles root entries : Script paths Unit) fun _ => True := by
  induction entries with
  | nil => exact within_pure trivial
  | cons entry entries ih => exact (within_restoreFile hroot entry).bind fun _ _ => ih

/-- Where the session file is put: one name in a directory that no manifest chooses. -/
theorem providerStateDestination_spec {destination : PathBuf} (place : List String)
    (h : NodePaths.providerStateDestination manifest configHome = .ok (some destination)) :
    ∃ sessionId names parent, manifest.providerSessionId = some sessionId ∧
      '/' ∉ sessionId.toList ∧
      CheckpointStore.providerStateDestination manifest = .ok (some names) ∧
      destination.parent = some parent ∧
      resolve place parent = resolve place configHome ++ names.dropLast ∧
      resolve place destination = resolve place configHome ++ names := by
  unfold NodePaths.providerStateDestination at h
  unfold CheckpointStore.providerStateDestination
  cases hsession : manifest.providerSessionId with
  | none =>
    rw [hsession] at h
    exact nomatch h
  | some sessionId =>
    rw [hsession] at h
    dsimp only at h ⊢
    by_cases hinvalid : sessionId = "" ∨ sessionId.toList.contains '/' = true ∨
        sessionId.toList.contains '\\' = true
    · rw [if_pos hinvalid] at h
      exact nomatch h
    · have hslash : '/' ∉ sessionId.toList := by
        intro hmem
        exact hinvalid (.inr (.inl (List.contains_iff_mem.mpr hmem)))
      rw [if_neg hinvalid] at h ⊢
      cases hprovider : manifest.provider with
      | claude =>
        rw [hprovider] at h
        have hname := properName_append (by decide : '/' ∉ "".toList) hslash
          (by decide : '/' ∉ ".jsonl".toList) (by decide)
        rw [String.empty_append] at hname
        have hdir : components "projects/-homie-imports"
            = ["projects", "-homie-imports"].map Component.normal := by decide
        refine ⟨sessionId, _, configHome.join "projects/-homie-imports", rfl, hslash, rfl, ?_,
          ?_, ?_⟩
        · rw [← Option.some.inj (Except.ok.inj h)]
          exact PathBuf.parent_join_proper hname _
        · exact PathBuf.resolve_join hdir place configHome
        · rw [← Option.some.inj (Except.ok.inj h), PathBuf.resolve_join_proper hname,
            PathBuf.resolve_join hdir, List.append_assoc]
          rfl
      | codex =>
        rw [hprovider] at h
        have hname := properName_append (by decide : '/' ∉ "rollout-homie-".toList) hslash
          (by decide : '/' ∉ ".jsonl".toList) (by decide)
        have hdir : components "sessions/homie-imports"
            = ["sessions", "homie-imports"].map Component.normal := by decide
        refine ⟨sessionId, _, configHome.join "sessions/homie-imports", rfl, hslash, rfl, ?_,
          ?_, ?_⟩
        · rw [← Option.some.inj (Except.ok.inj h)]
          exact PathBuf.parent_join_proper hname _
        · exact PathBuf.resolve_join hdir place configHome
        · rw [← Option.some.inj (Except.ok.inj h), PathBuf.resolve_join_proper hname,
            PathBuf.resolve_join hdir, List.append_assoc]
          rfl

theorem within_activateProviderState :
    Within (Allowed place paths pid checkpointId configHome manifest)
      (NodePaths.activateProviderState pid manifest configHome : Script paths Unit)
      fun _ => True := by
  unfold NodePaths.activateProviderState
  cases manifest.providerState with
  | none => exact within_pure trivial
  | some state =>
    refine (within_lift _).bind fun destination hdestination => ?_
    cases destination with
    | none => exact within_fail _
    | some destination =>
      obtain ⟨sessionId, names, parent, hsession, hslash, hnames, hparent, hdir, hfile⟩ :=
        providerStateDestination_spec place hdestination
      refine (within_ask _).bind fun there _ => ?_
      refine within_ite (fun _ => ?_) fun _ => ?_
      · refine (within_tryAsk _).bind fun digest _ => ?_
        exact within_ite (fun _ => within_pure trivial) fun _ => within_fail _
      · rw [hparent]
        refine (within_op (allowed_of_none rfl)).bind fun _ _ => ?_
        refine (within_op (allowed_of_none rfl)).bind fun _ _ => ?_
        have htemporary : ProperName ("." ++ sessionId ++ ".staging-" ++ toString pid) := by
          rw [String.append_assoc]
          refine properName_append (by decide) hslash ?_ ?_
          · rw [String.toList_append, List.mem_append, not_or]
            exact ⟨by decide, not_slash_toString pid⟩
          · simp only [String.toList_append, List.length_append]
            have hlength : ".staging-".toList.length = 9 := by decide
            omega
        rw [hsession, Option.getD_some]
        refine (within_op (allowed_of_written rfl (.inr (.inr (.inl
          ⟨names, sessionId, hnames, hsession, ?_⟩))))).bind fun _ _ => ?_
        · rw [PathBuf.resolve_join_proper htemporary, hdir]
        · refine (within_tryAsk _).bind fun digest _ => ?_
          refine within_ite (fun _ => within_fail _) fun _ => ?_
          exact within_op (allowed_of_written rfl (.inr (.inl ⟨names, hnames, hfile⟩)))

theorem within_saveMove (hid : validateCheckpointId checkpointId = .ok ()) {movement : MoveRecord}
    (hnamed : movement.checkpointId = checkpointId) :
    Within (Allowed place paths pid checkpointId configHome manifest)
      (NodePaths.saveMove pid movement : Script paths Unit) fun _ => True := by
  obtain ⟨hslash, hlength⟩ := checkpointId_spec hid
  have hname : ProperName (checkpointId ++ ".json") := by
    have hproper := properName_append (by decide : '/' ∉ "".toList) hslash
      (by decide : '/' ∉ ".json".toList) (by decide)
    rwa [String.empty_append] at hproper
  have htemporary : ProperName ("." ++ (checkpointId ++ ".json") ++ ".tmp-" ++ toString pid) := by
    rw [String.append_assoc]
    refine properName_append (by decide) hname.2.2.2 ?_ ?_
    · rw [String.toList_append, List.mem_append, not_or]
      exact ⟨by decide, not_slash_toString pid⟩
    · simp only [String.toList_append, List.length_append]
      have hlength : ".tmp-".toList.length = 5 := by decide
      omega
  have hwritten : Confined place paths pid checkpointId configHome manifest
      (paths.moves.join ("." ++ (checkpointId ++ ".json") ++ ".tmp-" ++ toString pid)) :=
    .inr (.inr (.inr (.inr (PathBuf.resolve_join_proper htemporary place paths.moves))))
  have hrenamed : Confined place paths pid checkpointId configHome manifest
      (paths.moves.join (checkpointId ++ ".json")) :=
    .inr (.inr (.inr (.inl (PathBuf.resolve_join_proper hname place paths.moves))))
  unfold NodePaths.saveMove NodePaths.movePath NodePaths.atomicJson
  rw [hnamed, PathBuf.parent_join_proper hname, PathBuf.fileName_join_proper hname]
  refine (within_op (allowed_of_none rfl)).bind fun _ _ => ?_
  refine (within_op (allowed_of_none rfl)).bind fun _ _ => ?_
  refine Within.onFailure ?_ (within_op (allowed_of_none rfl))
  refine (within_op (allowed_of_written rfl hwritten)).bind fun _ _ => ?_
  refine (within_op (allowed_of_none rfl)).bind fun _ _ => ?_
  exact within_op (allowed_of_written rfl hrenamed)

theorem within_loadMove (hid : validateCheckpointId checkpointId = .ok ()) :
    Within (Allowed place paths pid checkpointId configHome manifest)
      (NodePaths.loadMove checkpointId : Script paths MoveRecord)
      fun movement => movement.checkpointId = checkpointId := by
  refine (within_lift _).bind fun _ _ => ?_
  refine within_of_idle (fun _ _ => rfl) ?_
  intro files done movement hread
  cases hmove : files.readMove done (paths.movePath checkpointId) with
  | none =>
    simp only [Effects.Program.tryAsk, hmove, Option.getD_none] at hread
    exact nomatch hread
  | some result =>
    simp only [Effects.Program.tryAsk, hmove, Option.getD_some] at hread
    rw [hread] at hmove
    exact files.moves_named done checkpointId movement hid hmove

theorem within_stageManifest (hid : validateCheckpointId checkpointId = .ok ()) (now : Int) :
    Within (Allowed place paths pid checkpointId configHome manifest)
      (NodePaths.stageManifest pid now checkpointId configHome manifest : Script paths Unit)
      fun _ => True := by
  obtain ⟨hslash, hlength⟩ := checkpointId_spec hid
  have hname : ProperName checkpointId := properName_of_length hslash hlength
  have htemporary : ProperName ("." ++ checkpointId ++ ".staging") :=
    properName_append (by decide) hslash (by decide) (by decide)
  have hhomie : ProperName ".homie" := by decide
  unfold NodePaths.stageManifest
  refine (within_ask _).bind fun there _ => ?_
  refine within_ite (fun _ => within_activateProviderState) fun _ => ?_
  refine (within_ask _).bind fun staging _ => ?_
  refine within_ite (fun _ => within_fail _) fun _ => ?_
  refine (within_op (allowed_of_none rfl)).bind fun _ _ => ?_
  refine (within_op (allowed_of_none rfl)).bind fun _ _ => ?_
  refine (within_restoreFiles (List.prefix_refl _) manifest.files).bind fun _ _ => ?_
  refine (within_forM _ fun state _ => within_restoreFile ?_ state).bind fun _ _ => ?_
  · unfold Inside
    rw [PathBuf.resolve_join_proper hhomie]
    exact List.prefix_append _ _
  refine (within_op (allowed_of_written rfl (.inl (.inl (List.prefix_refl _))))).bind fun _ _ => ?_
  refine within_activateProviderState.bind fun _ _ => ?_
  refine (within_loadMove hid).bind fun movement hnamed => ?_
  exact within_saveMove hid hnamed

end

theorem loadManifest_spec {paths : NodePaths} (files : Files paths) (checkpointId : String) :
    (∃ e, NodePaths.loadManifest checkpointId files [] = (.error e, [])) ∨
      ∃ manifest, NodePaths.loadManifest checkpointId files [] = (.ok manifest, []) ∧
        validateCheckpointId checkpointId = .ok () ∧
        files.readManifest [] (paths.manifestPath checkpointId) = some (.ok manifest) ∧
        validateManifest manifest = .ok () := by
  show (∃ e, Program.bind (Program.lift _) _ files [] = (.error e, [])) ∨
    ∃ manifest, Program.bind (Program.lift _) _ files [] = (.ok manifest, []) ∧ _
  unfold Program.bind
  dsimp only [Program.lift]
  cases hid : validateCheckpointId checkpointId with
  | error e => exact .inl ⟨e, rfl⟩
  | ok _ =>
    show (∃ e, Program.bind (Program.tryAsk _) _ files [] = (.error e, [])) ∨
      ∃ manifest, Program.bind (Program.tryAsk _) _ files [] = (.ok manifest, []) ∧ _
    unfold Program.bind
    dsimp only [Program.tryAsk]
    cases hread : files.readManifest [] (paths.manifestPath checkpointId) with
    | none => exact .inl ⟨_, rfl⟩
    | some result =>
      cases result with
      | error e => exact .inl ⟨e, rfl⟩
      | ok manifest =>
        show (∃ e, Program.bind (Program.lift (validateManifest manifest)) _ files []
          = (.error e, [])) ∨ ∃ other, Program.bind (Program.lift
            (validateManifest manifest)) _ files [] = (.ok other, []) ∧ _
        unfold Program.bind
        dsimp only [Program.lift]
        cases hvalid : validateManifest manifest with
        | error e => exact .inl ⟨e, rfl⟩
        | ok _ => exact .inr ⟨manifest, rfl, rfl, rfl, hvalid⟩

/-- Every file that is created or overwritten is in the quarantine of the checkpoint, or is the
session file of the provider's home or the move record, or what these two are made from. -/
theorem stage_confined {paths : NodePaths} (files : Files paths) (place : List String) (pid : Nat)
    (now : Int) (checkpointId : String) (configHome : PathBuf) :
    ∀ op ∈ (NodePaths.stage pid now checkpointId configHome files []).2,
      ∀ path, op.written = some path →
        ∃ manifest, validateManifest manifest = .ok () ∧
          files.readManifest [] (paths.manifestPath checkpointId) = some (.ok manifest) ∧
          Confined place paths pid checkpointId configHome manifest path := by
  intro op hop path hpath
  have hstage : NodePaths.stage pid now checkpointId configHome files []
      = Program.bind (NodePaths.loadManifest checkpointId) (fun manifest => do
          NodePaths.stageManifest pid now checkpointId configHome manifest
          pure (CheckpointStore.stageResult checkpointId)) files [] := rfl
  rw [hstage, Program.bind] at hop
  rcases loadManifest_spec files checkpointId with ⟨e, hload⟩ | ⟨manifest, hload, hid, hread, hvalid⟩
  · rw [hload] at hop
    exact absurd hop List.not_mem_nil
  · rw [hload] at hop
    have hstaged : Within (Allowed place paths pid checkpointId configHome manifest) (do
        NodePaths.stageManifest pid now checkpointId configHome manifest
        pure (CheckpointStore.stageResult checkpointId) : Script paths CheckpointStageResult)
        fun _ => True :=
      (within_stageManifest hid now).bind fun _ _ => within_pure trivial
    exact ⟨manifest, hvalid, hread, hstaged.of_nil files hop path hpath⟩

/-! ### The move record -/

theorem movePath_inj (paths : NodePaths) {id other : String}
    (hid : validateCheckpointId id = .ok ()) (hother : validateCheckpointId other = .ok ())
    (h : paths.movePath id = paths.movePath other) : id = other := by
  have hname : ∀ {id : String}, validateCheckpointId id = .ok () → ProperName (id ++ ".json") := by
    intro id hid
    have hproper := properName_append (by decide : '/' ∉ "".toList) (checkpointId_spec hid).1
      (by decide : '/' ∉ ".json".toList) (by decide)
    rwa [String.empty_append] at hproper
  unfold NodePaths.movePath at h
  rw [PathBuf.join_of_proper (hname hid), PathBuf.join_of_proper (hname hother)] at h
  have hnames : id ++ ".json" = other ++ ".json" := by
    have hlast := List.append_cancel_left h
    simpa using hlast
  have htexts := congrArg String.toList hnames
  rw [String.toList_append, String.toList_append] at htexts
  exact String.toList_inj.mp (List.append_cancel_right htexts)

def emptyCheckpointId : String := "cp-00000000000000000000000000000000"

def emptyManifest : CheckpointManifest where
  version := 1
  checkpointId := emptyCheckpointId
  sourceNodeId := "source"
  sessionId := "session"
  provider := .claude
  profileId := "work"
  workspaceRoot := "/w"
  providerSessionId := none
  mode := .move
  createdAt := 0
  files := []
  providerState := none
  excluded := []

def rootPaths : NodePaths := .forRoot [.rootDir, .normal "node"]

/-- A file system that holds the manifest and its move, and where everything succeeds. -/
def freshFiles : Files rootPaths where
  pathExists := fun _ _ => false
  isFile := fun _ _ => false
  sha256File := fun _ _ => .error .io
  readManifest := fun _ path =>
    if path = rootPaths.manifestPath emptyCheckpointId then some (.ok emptyManifest) else none
  readMove := fun _ path =>
    if path = rootPaths.movePath emptyCheckpointId then
      some (.ok ⟨emptyCheckpointId, "session", "source", some "node", .transferring, none, none, 0⟩)
    else none
  outcome := fun _ _ => .ok ()
  moves_named := by
    intro _ checkpointId movement hid hread
    by_cases hpath : rootPaths.movePath checkpointId = rootPaths.movePath emptyCheckpointId
    · rw [if_pos hpath] at hread
      rw [← Except.ok.inj (Option.some.inj hread)]
      exact (movePath_inj rootPaths hid (by decide) hpath).symm
    · rw [if_neg hpath] at hread
      exact nomatch hread

theorem move_record_written :
    ∃ op ∈ (NodePaths.stage 1 0 emptyCheckpointId [.rootDir] freshFiles []).2,
      op.written = some (rootPaths.movePath emptyCheckpointId) := by
  have hwritten : (NodePaths.stage 1 0 emptyCheckpointId [.rootDir] freshFiles []).2.any
      (fun op => op.written == some (rootPaths.movePath emptyCheckpointId)) = true := by
    decide
  obtain ⟨op, hop, hpath⟩ := List.any_eq_true.mp hwritten
  exact ⟨op, hop, eq_of_beq hpath⟩

theorem stage_confined_move_record :
    ∃ op ∈ (NodePaths.stage 1 0 emptyCheckpointId [.rootDir] freshFiles []).2,
      op.written = some (rootPaths.movePath emptyCheckpointId) ∧
      ∃ manifest, validateManifest manifest = .ok () ∧
        freshFiles.readManifest [] (rootPaths.manifestPath emptyCheckpointId)
          = some (.ok manifest) ∧
        Confined [] rootPaths 1 emptyCheckpointId [.rootDir] manifest
          (rootPaths.movePath emptyCheckpointId) := by
  obtain ⟨op, hop, hpath⟩ := move_record_written
  exact ⟨op, hop, hpath, stage_confined freshFiles [] 1 0 emptyCheckpointId [.rootDir] op hop _ hpath⟩

/-- The record of the move is overwritten as well. -/
theorem move_record_is_written :
    ¬ ∀ (paths : NodePaths) (files : Files paths) (place : List String) (pid : Nat) (now : Int)
      (checkpointId : String) (configHome : PathBuf),
      ∀ op ∈ (NodePaths.stage pid now checkpointId configHome files []).2,
        ∀ path, op.written = some path →
          ∃ manifest, validateManifest manifest = .ok () ∧
            files.readManifest [] (paths.manifestPath checkpointId) = some (.ok manifest) ∧
            (InQuarantine place paths checkpointId path ∨
              IsSessionFile place configHome manifest path) := by
  intro h
  obtain ⟨op, hop, hpath⟩ := move_record_written
  obtain ⟨manifest, -, hread, hconfined⟩ :=
    h rootPaths freshFiles [] 1 0 emptyCheckpointId [.rootDir] op hop _ hpath
  have hmanifest : manifest = emptyManifest := by
    simpa [freshFiles] using hread.symm
  cases hconfined with
  | inl hquarantine =>
    unfold InQuarantine at hquarantine
    exact absurd hquarantine (by decide)
  | inr hsession =>
    obtain ⟨names, hnames, -⟩ := hsession
    rw [hmanifest] at hnames
    exact nomatch hnames

end Homie.Node
