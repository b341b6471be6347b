/-
The registry of sessions and the watcher that polls it: `homie-engine/src/registry.rs`,
`registry/persisted.rs`, the view of `session/screen.rs`, and `spawn_registry_watcher` of
`events.rs`.

A session's state changes on its own threads; each change moves the session's version.
`changed_since` compares the versions with those it published last and folds the sessions
that moved into their records.  The registry is locked for the whole of a poll, a spawn or a
termination.

The maps are hash maps: nothing here depends on the order they are walked in, so they are
functions of the id, and so is the vector that `changed_since` returns, which has an id at
most once.  `birth` numbers the session objects in the order they came into the registry; the
code does not have it, and nothing computes with it.
-/
import Homie.Engine.SessionStatus
import Homie.Lib.Trace
import Homie.Remote.Holder

namespace Homie.Watch

/-! ### Sessions -/

/-- `TitleSource`. -/
inductive TitleSource where
  | placeholder
  | firstPrompt
  | agentProvided
  | homieAssigned
  | userRename
  | unknown
deriving DecidableEq, Repr

/-- The part of the shared state of a session that its view shows. -/
structure LiveSession where
  shared : SessionShared
  title : Option String
  promptTitle : Option String
  manifestId : String
  birth : Nat

/-- The part of `SessionView` that is folded into a record. -/
structure SessionView where
  status : SessionStatus
  needsInput : Option NeedsInputDetail
  title : Option String
  titleSource : Option TitleSource
deriving DecidableEq

namespace LiveSession

def stateVersion (session : LiveSession) : Nat := session.shared.stateVersion

def bump (session : LiveSession) : LiveSession :=
  { session with
    shared := { session.shared with stateVersion := session.shared.stateVersion + 1 } }

def view (session : LiveSession) : SessionView :=
  let (title, titleSource) := match session.promptTitle with
    | some title => (some title, some TitleSource.firstPrompt)
    | none => (session.title, some TitleSource.agentProvided)
  ⟨session.shared.status, session.shared.needsInput, title, titleSource⟩

/-- The title part of `evaluate_if_screen_changed`. -/
def setTitle (session : LiveSession) (title : Option String) : LiveSession :=
  if session.title ≠ title then { session with title := title }.bump else session

/-- `titleFromPrompt` is `hooks::title_from_prompt`. -/
def capturePromptTitle (titleFromPrompt : String → String) (session : LiveSession)
    (prompt : String) : LiveSession :=
  if session.manifestId = "shell" then session
  else
    let title := titleFromPrompt prompt
    if title.isEmpty then session
    else if session.promptTitle.isNone then { session with promptTitle := some title }.bump
    else session

end LiveSession

/-- What the threads of a session do to the state its view shows. -/
inductive SessionChange where
  | apply (outcome : ReducerOutcome)
  | title (title : Option String)
  | prompt (text : String)

def LiveSession.change (titleFromPrompt : String → String) (session : LiveSession) :
    SessionChange → LiveSession
  | .apply outcome => { session with shared := session.shared.apply outcome }
  | .title title => session.setTitle title
  | .prompt text => session.capturePromptTitle titleFromPrompt text

/-! ### Records -/

/-- The fields of a record that are folded, or that folding reads. -/
structure SessionRecord where
  kind : String
  cwd : String
  title : String
  titleSource : TitleSource
  status : SessionStatus
  needsInput : Option NeedsInputDetail
  updatedAt : Int
deriving DecidableEq

section Titles

-- `char::is_alphanumeric`, over all of Unicode
variable (isAlphanumeric : Char → Bool)

/-- `char::is_control`: the category `Cc`. -/
def isControl (c : Char) : Bool := c.toNat < 0x20 || (0x7f ≤ c.toNat && c.toNat < 0xa0)

/-- `str::lines`. -/
def lines (text : List Char) : List (List Char) :=
  let parts := text.splitOn '\n'
  let parts := if parts.getLast? = some [] then parts.dropLast else parts
  parts.map fun line => if line.getLast? = some '\r' then line.dropLast else line

def normalizeAgentTitle (title : String) : Option String := do
  let line ← ((lines title.toList).map trimText).find? fun line => !line.isEmpty
  let line := line.dropWhile fun c => isWhitespace c || (!isAlphanumeric c && c ≠ '_')
  let normalized := (line.filter fun c => !isControl c).take 160
  let normalized := trimText normalized
  if normalized.isEmpty then none else some (String.ofList normalized)

def isGenericTerminalTitle (title : String) (record : SessionRecord) : Bool :=
  let title := (trimText title.toList).map Char.toLower
  let compactTitle := title.filter isAlphanumeric
  let cwd := ((record.cwd.toList.reverse.dropWhile (· == '/')).reverse).map Char.toLower
  let directory := ((cwd.splitOn '/').getLast?).getD cwd
  title == cwd || title == directory ||
    ["claude", "claudecode", "codex", "cursor", "gemini", "terminal", "shell"].any
      fun name => compactTitle == name.toList

def foldSessionStatus (record : SessionRecord) (view : SessionView) : SessionRecord :=
  { record with status := view.status, needsInput := view.needsInput }

/-- A title that folding leaves alone. -/
def titleKept (record : SessionRecord) : Bool :=
  record.kind == "shell" || record.titleSource == .agentProvided
    || record.titleSource == .homieAssigned || record.titleSource == .userRename

def foldSessionView (record : SessionRecord) (view : SessionView) : SessionRecord :=
  let record := foldSessionStatus record view
  if titleKept record then record
  else
    match (view.title.bind (normalizeAgentTitle isAlphanumeric)).filter
        fun title => !isGenericTerminalTitle isAlphanumeric title record with
    | none => record
    | some title =>
      { record with title := title, titleSource := view.titleSource.getD .agentProvided }

end Titles

/-! ### The registry -/

structure Registry where
  sessions : String → Option LiveSession
  records : String → Option SessionRecord

namespace Registry

variable (isAlphanumeric : Char → Bool)

def empty : Registry := ⟨fun _ => none, fun _ => none⟩

/-- What one poll does with one record of a session that moved. -/
def foldChanged (now : Int) (record : SessionRecord) (view : SessionView) : SessionRecord :=
  let folded := foldSessionView isAlphanumeric record view
  if (record.title, record.titleSource) ≠ (folded.title, folded.titleSource) then
    { folded with updatedAt := now }
  else folded

/-- The session with `id` when its version is not the published one. -/
def moved (registry : Registry) (published : String → Option Nat) (id : String) :
    Option LiveSession :=
  (registry.sessions id).filter fun session => published id ≠ some session.stateVersion

/-- The records returned, the registry and the published versions after the poll. -/
def changedSince (registry : Registry) (published : String → Option Nat) (now : Int) :
    (String → Option SessionRecord) × Registry × (String → Option Nat) :=
  let published := fun id => if (registry.sessions id).isSome then published id else none
  let changed := fun id => do
    let session ← registry.moved published id
    let record ← registry.records id
    pure (foldChanged isAlphanumeric now record session.view)
  (changed,
    { registry with records := fun id => (changed id).or (registry.records id) },
    fun id => ((registry.moved published id).map LiveSession.stateVersion).or (published id))

/-- `session` as it stands when `Session::spawn` has returned it: its threads run already. -/
def spawn (registry : Registry) (id : String) (session : LiveSession) (record : SessionRecord) :
    Registry :=
  { sessions := Function.update registry.sessions id (some session)
    records := Function.update registry.records id (some record) }

/-- `adopt_remote`, and what `adopt_live_holders` does with one Holder. -/
def adopt (registry : Registry) (id : String) (session : LiveSession) : Registry :=
  if (registry.records id).isSome then
    { registry with sessions := Function.update registry.sessions id (some session) }
  else registry

def respawn (registry : Registry) (id : String) (session : LiveSession) (now : Int) : Registry :=
  match registry.records id with
  | none => registry
  | some record =>
    { sessions := Function.update registry.sessions id (some session)
      records := Function.update registry.records id
        (some { record with status := .starting, needsInput := none, updatedAt := now }) }

def exitInfo : Remote.Exit → ExitInfo
  | .code code => ⟨.exited, some code, none⟩
  | .signal signal => ⟨.signaled, none, some signal⟩

/-- `exit` is how the session ended, or nothing when ending it failed. -/
def terminate (registry : Registry) (id : String) (exit : Option Remote.Exit) : Registry :=
  if (registry.sessions id).isNone then registry
  else
    let registry := { registry with sessions := Function.update registry.sessions id none }
    match exit with
    | none => registry
    | some exit =>
      { registry with
        records := Function.update registry.records id ((registry.records id).map fun record =>
          { record with status := .exited (exitInfo exit) }) }

def forget (registry : Registry) (id : String) : Registry :=
  { sessions := Function.update registry.sessions id none
    records := Function.update registry.records id none }

def change (titleFromPrompt : String → String) (registry : Registry) (id : String)
    (change : SessionChange) : Registry :=
  { registry with
    sessions := Function.update registry.sessions id
      ((registry.sessions id).map fun session => session.change titleFromPrompt change) }

end Registry

/-! ### The watcher -/

/-- The registry, and the watcher that polls it. -/
structure Watched where
  registry : Registry
  /-- The map the watcher hands to every poll. -/
  published : String → Option Nat
  /-- The last record a poll returned for each id. -/
  returned : String → Option SessionRecord
  /-- How many sessions have come into the registry, now and at the last poll. -/
  births : Nat
  polledBirths : Nat

inductive WatchEvent where
  | spawn (id : String) (session : LiveSession) (record : SessionRecord)
  | adopt (id : String) (session : LiveSession)
  | respawn (id : String) (session : LiveSession) (now : Int)
  | terminate (id : String) (exit : Option Remote.Exit)
  | forget (id : String)
  | change (id : String) (change : SessionChange)
  | poll (now : Int)

namespace Watched

variable (isAlphanumeric : Char → Bool) (titleFromPrompt : String → String)

def new : Watched := ⟨.empty, fun _ => none, fun _ => none, 0, 0⟩

/-- A session comes into the registry. -/
def enter (sys : Watched) (session : LiveSession) (insert : LiveSession → Registry) : Watched :=
  { sys with registry := insert { session with birth := sys.births }, births := sys.births + 1 }

def poll (sys : Watched) (now : Int) : Watched :=
  let (changed, registry, published) :=
    sys.registry.changedSince isAlphanumeric sys.published now
  { sys with
    registry := registry
    published := published
    returned := fun id => (changed id).or (sys.returned id)
    polledBirths := sys.births }

def step (sys : Watched) (event : WatchEvent) : Watched × Unit :=
  (match event with
  | .spawn id session record => sys.enter session fun session => sys.registry.spawn id session record
  | .adopt id session => sys.enter session fun session => sys.registry.adopt id session
  | .respawn id session now => sys.enter session fun session => sys.registry.respawn id session now
  | .terminate id exit => { sys with registry := sys.registry.terminate id exit }
  | .forget id => { sys with registry := sys.registry.forget id }
  | .change id change => { sys with registry := sys.registry.change titleFromPrompt id change }
  | .poll now => sys.poll isAlphanumeric now, ())

end Watched
end Homie.Watch
