/-
The per-session status state machine: `homie-engine/src/status/mod.rs`.

Hooks, screen observations, PTY activity, process exit and ticks all go through
`reduce`, which owns the one answer to what a session is doing.  It is pure: the
caller passes `now`.  A method that takes `&mut self` and `&mut outcome` is here a
function on the pair of the two.

A `SystemTime` is its nanoseconds since the epoch, a `Duration` its nanoseconds.
The counters are `u32` in the source; each is reset before it can pass a `u32`
threshold, so they do not wrap and are natural numbers here.
-/
import Mathlib
import Homie.Lib.Text

namespace Homie

/-! ### Protocol types -/

inductive NeedsInputKind where
  | permission
  | question
  | unknown
deriving DecidableEq, Repr

inductive NeedsInputSource where
  | claudePermissionHook
  | claudeNotificationHook
  | codexNotify
  | screenScrape
  | unknown
deriving DecidableEq, Repr

inductive RiskHint where
  | destructive
  | network
  | fileWrite
  | neutral
  | unknown
deriving DecidableEq, Repr

inductive ExitReason where
  | exited
  | signaled
  | daemonRestart
  | external
  | archived
  | unknown
deriving DecidableEq, Repr

structure ExitInfo where
  reason : ExitReason
  code : Option Int32
  signal : Option Int32
deriving DecidableEq

inductive SessionStatus where
  | starting
  | idle
  | working
  | needsInput (kind : NeedsInputKind)
  | exited (info : ExitInfo)
  | unknown
deriving DecidableEq

/-- Nanoseconds since the epoch. -/
abbrev SystemTime := Int

/-- Nanoseconds. -/
abbrev Duration := Nat

namespace SystemTime

/-- Times are kept in a signed 64-bit count of seconds. -/
def earliest : SystemTime := -(2 ^ 63 * 10 ^ 9)

def checkedSub (time : SystemTime) (duration : Duration) : Option SystemTime :=
  if time - duration < earliest then none else some (time - duration)

/-- `duration_since`, with an earlier `time` read as no time at all. -/
def durationSince (time since : SystemTime) : Duration :=
  (time - since).toNat

end SystemTime

structure NeedsInputDetail where
  kind : NeedsInputKind
  source : NeedsInputSource
  toolName : Option String
  summary : String
  promptExcerpt : Option String
  options : Option (List String)
  riskHint : RiskHint
  occurredAt : SystemTime
deriving DecidableEq

inductive ManifestState where
  | working
  | idle
  | blockedPermission
  | blockedQuestion
  /-- A transient view (transcript viewer, model picker): hold the current state. -/
  | skip
deriving DecidableEq, Repr

/-- The detection engine's verdict for one snapshot. -/
structure ScreenObservation where
  state : ManifestState
  matchedRuleId : String
  priority : Int
  contentSeq : UInt64
  promptExcerpt : Option String
  options : Option (List String)
deriving DecidableEq

/-! ### Texts -/

/-- What the details are made with and the standard library does not give here. -/
structure TextTools where
  /-- `detect::redact`: two regular expressions, one masking secrets, one dropping ANSI codes. -/
  redact : String → String
  /-- `str::to_lowercase`, over all of Unicode. -/
  toLowercase : String → String

def destructivePatterns : List String :=
  ["rm -rf", "rm -fr", "sudo ", "force-push", "push --force", "push -f", "reset --hard",
    "clean -fd", "drop table", "mkfs", "> /dev/"]

def networkPatterns : List String :=
  ["curl ", "wget ", "http://", "https://", "ssh ", "scp ", "nc "]

def fileWritePatterns : List String :=
  ["write", "edit", "mv ", "cp ", "mkdir", "touch ", "chmod", "chown"]

def containsAny (text : String) (patterns : List String) : Bool :=
  patterns.any fun pattern => decide (pattern.toList <:+: text.toList)

/-- The first list with a match decides. -/
def classifyRisk (tools : TextTools) (text : String) : RiskHint :=
  let lower := tools.toLowercase text
  if containsAny lower destructivePatterns then .destructive
  else if containsAny lower networkPatterns then .network
  else if containsAny lower fileWritePatterns then .fileWrite
  else .neutral

/-- The first line of `text` that is not blank, trimmed. -/
def firstLine (text : String) : Option String :=
  (((text.toList.splitOn '\n').map trimText).find? fun line => !line.isEmpty).map String.ofList

/-! ### Signals and state -/

/-- Which source of truth leads for an agent. -/
inductive Authority where
  /-- Claude: hooks drive state, the screen arbitrates blockers. -/
  | hooksPrimary
  /-- Codex: the screen drives state, notify confirms done. -/
  | screenPrimary
  /-- Everything else: starting, working, exited, nothing more. -/
  | processOnly
deriving DecidableEq, Repr

structure ReducerTiming where
  idleConfirmations : Nat
  recheckInterval : Duration
  idleConfirmCap : Duration
  startupGrace : Duration
  hookAuthorityWindow : Duration
  blockerClearScans : Nat
  stalenessTimeout : Duration
deriving DecidableEq, Repr

def ReducerTiming.default : ReducerTiming where
  idleConfirmations := 3
  recheckInterval := 100 * 10 ^ 6
  idleConfirmCap := 700 * 10 ^ 6
  startupGrace := 3 * 10 ^ 9
  hookAuthorityWindow := 7 * 10 ^ 9
  blockerClearScans := 2
  stalenessTimeout := 60 * 10 ^ 9

inductive ClaudeHook where
  | sessionStart
  | userPromptSubmit
  | preToolUse
  | permissionRequest (toolName inputSummary : Option String)
  | notification (notificationType message : Option String)
  | stop
  | subagentStart (id : String)
  | subagentStop (id : String)
  | sessionEnd
deriving DecidableEq

inductive StatusSignal where
  /-- `isSubagent`: the payload carried an agent id, so the parent must not move. -/
  | claudeHook (hook : ClaudeHook) (isSubagent : Bool)
  | codexTurnComplete
  | screen (observation : ScreenObservation)
  | ptyOutputActivity
  | userKeystroke
  | processExit (code signal : Option Int32)
  | tick
deriving DecidableEq

structure ReducerOutcome where
  statusChange : Option SessionStatus
  needsInput : Option NeedsInputDetail
  turnCompleted : Bool
deriving DecidableEq

def ReducerOutcome.default : ReducerOutcome := ⟨none, none, false⟩

/-- The mutable belief and debounce tracking for one session. -/
structure InternalState where
  spawnedAt : SystemTime
  lastSignalAt : SystemTime
  /-- A turn is in flight, which gates `turnCompleted`. -/
  turnInFlight : Bool
  activeSubagents : Finset String
  idleCandidateSince : Option SystemTime
  idleConfirms : Nat
  /-- A strong idle signal lowers the confirmation requirement to one. -/
  idleStrong : Bool
  /-- Fire `turnCompleted` exactly once on the next committed working to idle. -/
  pendingTurnCompleted : Bool
  screenBlockerActive : Bool
  blockerMissScans : Nat
  screenBelief : Option ManifestState
  lastScreenSeq : Option UInt64
  skipActive : Bool
  respondingSince : Option SystemTime
  pendingNeedsInput : Option NeedsInputDetail
deriving DecidableEq

def InternalState.new (spawnedAt : SystemTime) : InternalState where
  spawnedAt := spawnedAt
  lastSignalAt := spawnedAt
  turnInFlight := false
  activeSubagents := ∅
  idleCandidateSince := none
  idleConfirms := 0
  idleStrong := false
  pendingTurnCompleted := false
  screenBlockerActive := false
  blockerMissScans := 0
  screenBelief := none
  lastScreenSeq := none
  skipActive := false
  respondingSince := none
  pendingNeedsInput := none

structure StatusReducer where
  status : SessionStatus
  authority : Authority
  timing : ReducerTiming
  state : InternalState
deriving DecidableEq

/-- The reducer and the outcome a method is writing into. -/
abbrev Reduced := StatusReducer × ReducerOutcome

namespace StatusReducer

def new (authority : Authority) (spawnedAt : SystemTime) : StatusReducer :=
  ⟨.starting, authority, .default, .new spawnedAt⟩

def withTiming (r : StatusReducer) (timing : ReducerTiming) : StatusReducer :=
  { r with timing := timing }

/--
Adopting a Holder is not a process launch: its first snapshot must not be delayed by
the startup grace.
-/
def finishStartupGrace (r : StatusReducer) (now : SystemTime) : StatusReducer :=
  { r with state.spawnedAt := (SystemTime.checkedSub now r.timing.startupGrace).getD 0 }

def setStatus (new : SessionStatus) (x : Reduced) : Reduced :=
  if x.1.status ≠ new then ({ x.1 with status := new }, { x.2 with statusChange := some new }) else x

/-! ### Working and idle -/

def cancelIdleCandidacy (r : StatusReducer) : StatusReducer :=
  { r with
    state.idleCandidateSince := none
    state.idleConfirms := 0
    state.idleStrong := false
    state.pendingTurnCompleted := false }

/-- Enter or refresh `working` from a positive work signal. -/
def goWorking (now : SystemTime) (clearScreenBlocker : Bool) (x : Reduced) : Reduced :=
  let r := cancelIdleCandidacy x.1
  let r := if clearScreenBlocker then
      { r with state.screenBlockerActive := false, state.blockerMissScans := 0 }
    else r
  let r := { r with state.turnInFlight := true, state.lastSignalAt := now }
  setStatus .working (r, x.2)

def commitIdle (now : SystemTime) (x : Reduced) : Reduced :=
  let fire := x.1.state.pendingTurnCompleted
  let x := setStatus .idle x
  let r := { x.1 with state.turnInFlight := false }
  let outcome := if fire then { x.2 with turnCompleted := true } else x.2
  let r := cancelIdleCandidacy r
  ({ r with state.lastSignalAt := now }, outcome)

/-- The flags a strong idle signal sets; the candidacy starts now unless it is open. -/
def armStrong (now : SystemTime) (r : StatusReducer) : StatusReducer :=
  { r with
    state.idleStrong := true
    state.pendingTurnCompleted := r.state.turnInFlight
    state.idleCandidateSince := some (r.state.idleCandidateSince.getD now) }

def countConfirmation (r : StatusReducer) : StatusReducer :=
  { r with state.idleConfirms := r.state.idleConfirms + 1 }

/--
A strong idle signal.  Commits at once when the screen already reads idle, otherwise
waits for one further confirmation.
-/
def handleStrongIdle (now : SystemTime) (x : Reduced) : Reduced :=
  if x.1.status = .starting then setStatus .idle x
  else if x.1.status ≠ .working then x
  else if x.1.state.screenBelief = some .idle then
    commitIdle now (countConfirmation (armStrong now x.1), x.2)
  else (armStrong now x.1, x.2)

/-- A candidacy that is not open starts now, with no confirmation counted. -/
def openCandidacy (now : SystemTime) (r : StatusReducer) : StatusReducer :=
  if r.state.idleCandidateSince.isNone then
    { r with state.idleCandidateSince := some now, state.idleConfirms := 0 }
  else r

/-- Enough confirmations, or one of them late enough. -/
def idleConfirmed (now : SystemTime) (r : StatusReducer) : Bool :=
  let required := if r.state.idleStrong then 1 else r.timing.idleConfirmations
  let elapsed := (r.state.idleCandidateSince.map (SystemTime.durationSince now)).getD 0
  decide (required ≤ r.state.idleConfirms)
    || decide (r.timing.idleConfirmCap ≤ elapsed ∧ 1 ≤ r.state.idleConfirms)

/-- Register one idle-confirming observation. -/
def confirmIdle (now : SystemTime) (x : Reduced) : Reduced :=
  if x.1.status ≠ .working then x
  else
    let r := countConfirmation (openCandidacy now x.1)
    if idleConfirmed now r then commitIdle now (r, x.2) else (r, x.2)

/-! ### Needs input -/

/-- Every source of a needs-input detail stores it, drops the candidacy and asks. -/
def askForInput (detail : NeedsInputDetail) (x : Reduced) : Reduced :=
  let r := { x.1 with state.pendingNeedsInput := some detail }
  let outcome := { x.2 with needsInput := some detail }
  setStatus (.needsInput detail.kind) (cancelIdleCandidacy r, outcome)

def permissionDetail (tools : TextTools) (toolName inputSummary : Option String)
    (now : SystemTime) : NeedsInputDetail :=
  let tool := toolName.getD ""
  let summary :=
    if tool = "Bash" then "wants to run `" ++ inputSummary.getD "" ++ "`"
    else if tool = "Edit" ∨ tool = "Write" ∨ tool = "MultiEdit" ∨ tool = "NotebookEdit" then
      "wants to edit " ++ inputSummary.getD "a file"
    else if tool = "" then inputSummary.getD "Permission required"
    else match inputSummary with
      | some detail => "wants to use " ++ tool ++ ": " ++ detail
      | none => "wants to use " ++ tool
  { kind := .permission
    source := .claudePermissionHook
    toolName := toolName
    summary := tools.redact summary
    promptExcerpt := inputSummary.map tools.redact
    options := none
    riskHint := classifyRisk tools (inputSummary.getD tool)
    occurredAt := now }

/-- The detail both notification branches build, from their kind and default text. -/
def notificationDetail (tools : TextTools) (kind : NeedsInputKind) (fallback : String)
    (message : Option String) (now : SystemTime) : NeedsInputDetail :=
  let text := message.getD fallback
  { kind := kind
    source := .claudeNotificationHook
    toolName := none
    summary := tools.redact text
    promptExcerpt := none
    options := none
    riskHint := classifyRisk tools text
    occurredAt := now }

def screenDetail (tools : TextTools) (kind : NeedsInputKind) (observation : ScreenObservation)
    (now : SystemTime) : NeedsInputDetail :=
  let summary := (observation.promptExcerpt.bind firstLine).getD "Waiting for input"
  { kind := kind
    source := .screenScrape
    toolName := none
    summary := tools.redact summary
    promptExcerpt := observation.promptExcerpt
    options := observation.options
    riskHint := classifyRisk tools (observation.promptExcerpt.getD summary)
    occurredAt := now }

/-! ### Claude hooks -/

/-- What a notification type asks for, if it asks for anything. -/
def notificationKind : Option String → Option (NeedsInputKind × String)
  | some "permission_prompt" => some (.permission, "Permission required")
  | some "idle_prompt" => some (.question, "Waiting for input")
  | some "agent_needs_input" => some (.question, "Waiting for input")
  | some "elicitation_dialog" => some (.question, "Waiting for input")
  | _ => none

def handleNotification (tools : TextTools) (notificationType message : Option String)
    (now : SystemTime) (x : Reduced) : Reduced :=
  match notificationKind notificationType with
  | some (kind, fallback) => askForInput (notificationDetail tools kind fallback message now) x
  | none =>
    if notificationType = some "agent_completed" then handleStrongIdle now x else x

/-- The hooks of the main agent. -/
def handleMainHook (tools : TextTools) (hook : ClaudeHook) (now : SystemTime) (x : Reduced) :
    Reduced :=
  match hook with
  -- definitive signal ending the startup grace
  | .sessionStart => if x.1.status = .starting then setStatus .idle x else x
  | .userPromptSubmit => goWorking now true ({ x.1 with state.turnInFlight := true }, x.2)
  | .preToolUse => goWorking now true x
  | .permissionRequest toolName inputSummary =>
    askForInput (permissionDetail tools toolName inputSummary now) x
  | .notification notificationType message =>
    handleNotification tools notificationType message now x
  | .stop => handleStrongIdle now x
  -- a hint only
  | .sessionEnd => x
  | .subagentStart _ => x
  | .subagentStop _ => x

def handleClaudeHook (tools : TextTools) (hook : ClaudeHook) (isSubagent : Bool)
    (now : SystemTime) (x : Reduced) : Reduced :=
  let r := { x.1 with state.lastSignalAt := now }
  match hook with
  -- subagent lifecycle is bookkeeping only
  | .subagentStart id =>
    ({ r with state.activeSubagents := insert id r.state.activeSubagents }, x.2)
  | .subagentStop id =>
    ({ r with state.activeSubagents := r.state.activeSubagents.erase id }, x.2)
  | hook => if isSubagent then (r, x.2) else handleMainHook tools hook now (r, x.2)

/-! ### Screen -/

def needsInputKind : ManifestState → Option NeedsInputKind
  | .blockedPermission => some .permission
  | .blockedQuestion => some .question
  | _ => none

def applyNonBlockerScreen (observation : ScreenObservation) (now : SystemTime)
    (clearedBlocker : Bool) (x : Reduced) : Reduced :=
  match observation.state with
  | .working => goWorking now false x
  | .idle =>
    if x.1.status = .working then confirmIdle now x
    else if x.1.status = .starting then setStatus .idle x
    else match clearedBlocker, x.1.status with
      -- the blocker was released and the screen now reads idle
      | true, .needsInput _ => setStatus .idle (cancelIdleCandidacy x.1, x.2)
      | _, _ => x
  | .blockedPermission => x
  | .blockedQuestion => x
  | .skip => x

/-- The startup grace holds `starting` against a screen that is not definitive. -/
def graceHolds (r : StatusReducer) (observation : ScreenObservation) (now : SystemTime) : Bool :=
  r.status == .starting
    && decide (SystemTime.durationSince now r.state.spawnedAt < r.timing.startupGrace)
    && !(r.authority == .screenPrimary && observation.state == .working)

/-- A fresh frame that shows no blocker. -/
def handleNonBlocker (observation : ScreenObservation) (now : SystemTime) (x : Reduced) : Reduced :=
  if x.1.state.screenBlockerActive then
    -- one stray frame must not clear a prompt the user is still looking at
    if x.1.state.blockerMissScans + 1 < x.1.timing.blockerClearScans then
      ({ x.1 with state.blockerMissScans := x.1.state.blockerMissScans + 1 }, x.2)
    else
      let r := { x.1 with state.screenBlockerActive := false, state.blockerMissScans := 0 }
      applyNonBlockerScreen observation now true (r, x.2)
  else if graceHolds x.1 observation now then x
  else applyNonBlockerScreen observation now false x

def rememberFrame (observation : ScreenObservation) (now : SystemTime) (r : StatusReducer) :
    StatusReducer :=
  { r with
    state.lastSignalAt := now
    state.skipActive := false
    state.lastScreenSeq := some observation.contentSeq
    state.screenBelief := some observation.state }

def handleScreen (tools : TextTools) (observation : ScreenObservation) (now : SystemTime)
    (x : Reduced) : Reduced :=
  -- a skip screen holds the current state
  if observation.state = .skip then
    ({ x.1 with state.lastSignalAt := now, state.skipActive := true }, x.2)
  -- skip redundant scans when the content has not changed
  else if x.1.state.lastScreenSeq = some observation.contentSeq then
    ({ x.1 with state.lastSignalAt := now, state.skipActive := false }, x.2)
  else
    let r := rememberFrame observation now x.1
    match needsInputKind observation.state with
    | some kind =>
      -- a visible blocker beats everything except process exit
      let r := { r with state.screenBlockerActive := true, state.blockerMissScans := 0 }
      askForInput (screenDetail tools kind observation now) (r, x.2)
    | none => handleNonBlocker observation now (r, x.2)

/-! ### Tick -/

/-- Still starting, with the grace over and no skip screen up. -/
def graceOver (now : SystemTime) (r : StatusReducer) : Bool :=
  r.status == .starting && !r.state.skipActive
    && decide (r.timing.startupGrace ≤ SystemTime.durationSince now r.state.spawnedAt)

/-- Reconsider a belief the startup grace held back, once the grace is over. -/
def revisitBelief (now : SystemTime) (x : Reduced) : Reduced :=
  if graceOver now x.1 then
    match x.1.state.screenBelief with
    | some .working => goWorking now false x
    | some .idle => setStatus .idle x
    | _ => x
  else x

def handleTick (now : SystemTime) (x : Reduced) : Reduced :=
  let x := revisitBelief now x
  -- running but unreadable for long enough becomes unknown
  if x.1.status = .working
      ∧ x.1.timing.stalenessTimeout < SystemTime.durationSince now x.1.state.lastSignalAt then
    setStatus .unknown x
  -- a tick can supply the single confirmation a strong idle still needs
  else if x.1.status = .working ∧ x.1.state.idleStrong = true
      ∧ x.1.state.idleCandidateSince.isSome then
    commitIdle now (countConfirmation x.1, x.2)
  else x

/-! ### Reduce -/

def isExited : SessionStatus → Bool
  | .exited _ => true
  | _ => false

def exitInfo (code signal : Option Int32) : ExitInfo where
  reason := if signal.isSome then .signaled else .exited
  code := code
  signal := signal

/-- An agent without a status model: working on first output, then only exit moves it. -/
def reduceProcessOnly (signal : StatusSignal) (now : SystemTime) (x : Reduced) : Reduced :=
  match signal with
  | .ptyOutputActivity =>
    let x := if x.1.status = .starting then
        setStatus .working ({ x.1 with state.turnInFlight := true }, x.2)
      else x
    ({ x.1 with state.lastSignalAt := now }, x.2)
  | _ => x

def isNeedsInput : SessionStatus → Bool
  | .needsInput _ => true
  | _ => false

/-- The signals of an agent with a full status model. -/
def reduceFull (tools : TextTools) (signal : StatusSignal) (now : SystemTime) (x : Reduced) :
    Reduced :=
  match signal with
  | .processExit _ _ => x
  | .ptyOutputActivity => ({ x.1 with state.lastSignalAt := now }, x.2)
  | .userKeystroke =>
    let r := { x.1 with state.lastSignalAt := now }
    if isNeedsInput r.status then ({ r with state.respondingSince := some now }, x.2)
    else (r, x.2)
  | .claudeHook hook isSubagent => handleClaudeHook tools hook isSubagent now x
  | .codexTurnComplete => handleStrongIdle now ({ x.1 with state.lastSignalAt := now }, x.2)
  | .screen observation => handleScreen tools observation now x
  | .tick => handleTick now x

/-- Folds one signal into the session's status. -/
def reduce (tools : TextTools) (r : StatusReducer) (signal : StatusSignal) (now : SystemTime) :
    Reduced :=
  -- exited is absorbing
  if isExited r.status then (r, .default)
  else match signal with
    -- process exit is authoritative under every authority mode
    | .processExit code signal => setStatus (.exited (exitInfo code signal)) (r, .default)
    | signal =>
      if r.authority = .processOnly then reduceProcessOnly signal now (r, .default)
      else reduceFull tools signal now (r, .default)

end StatusReducer

/-- What a session's threads call on its reducer. -/
inductive ReducerCall where
  | signal (signal : StatusSignal) (now : SystemTime)
  | finishStartupGrace (now : SystemTime)
deriving DecidableEq

def StatusReducer.step (tools : TextTools) (r : StatusReducer) : ReducerCall → Reduced
  | .signal signal now => r.reduce tools signal now
  | .finishStartupGrace now => (r.finishStartupGrace now, .default)

end Homie
