/-
Attention, and what the window says about it: `attention` of `homie-proto/src/model.rs`, the policy
of `homie-app/src/notifications.rs`, and the part of `homie-app/src/store/events.rs` that asks it.

Here are the records and the transitions that an update emits; what an update does to the selection,
the sidebar and the terminals is in `App/Navigation.lean`.  The rest of the store that the policy
reads (`Around`) is an argument of each update.

`Link` puts the store on a connection to the daemon that comes and goes: what the daemon changes
while it is down is not published, and a list response is the daemon's records at one moment.

`announcements` is a history variable: the transitions that were emitted for an entry into
`needsInput` or `doneUnseen`, with their sessions.
-/
import Homie.App.Store
import Homie.Lib.Trace

namespace Homie.App.Notifications

/-! ### Records -/

inductive PersistenceCapability where
  | nativeDetach
  | userSupervisor
  | nonPersistent
deriving DecidableEq, Repr

inductive HibernationReason where
  | idle
  | memoryPressure
  | manual
  | unknown
deriving DecidableEq, Repr

structure HibernationInfo where
  since : DateMillis
  reason : HibernationReason
deriving DecidableEq, Repr

/-- A record with what asks for attention. -/
structure SessionRecord extends App.SessionRecord where
  needsInput : Option NeedsInputDetail
  lastTurnCompletedAt : Option DateMillis
  lastSeenAt : Option DateMillis
  remotePersistence : Option PersistenceCapability
  hibernation : Option HibernationInfo
  foregroundAgent : Option AgentKind
deriving DecidableEq

inductive AttentionLevel where
  | none
  | idleSeen
  | working
  | doneUnseen
  | needsInput
deriving DecidableEq, Repr

namespace SessionRecord

def effectiveKind (session : SessionRecord) : AgentKind :=
  session.foregroundAgent.getD session.kind

/-- A session that was never seen was seen before any time. -/
def attention (session : SessionRecord) : AttentionLevel :=
  match session.status with
  | .needsInput _ => .needsInput
  | .working | .starting => .working
  | .idle =>
    if session.lastTurnCompletedAt.any fun completed =>
        session.lastSeenAt.all fun seen => seen < completed then .doneUnseen
    else .idleSeen
  | .exited _ | .unknown => .none

end SessionRecord

abbrev SessionMap := KeyedMap fun session : SessionRecord => session.id

/-! ### Notifications -/

inductive NotificationSound where
  | needsInput
  | done
  | frozen
deriving DecidableEq, Repr

structure Answer where
  text : String
  submit : Bool
deriving DecidableEq, Repr

structure ActionData where
  sessionId : SessionId
  approve : Answer
  deny : Answer
deriving DecidableEq, Repr

structure NotificationRequest where
  identifier : String
  title : String
  body : String
  threadIdentifier : Option String
  actionData : Option ActionData
  useSystemSound : Bool
deriving DecidableEq, Repr

structure InAppBanner where
  title : String
  body : String
deriving DecidableEq, Repr

structure StatusTransition where
  sound : Option NotificationSound
  notification : Option NotificationRequest
  inAppBanner : Option InAppBanner
deriving DecidableEq, Repr

/-- As much of a manifest as the policy reads. -/
structure AgentDescriptor where
  displayName : String
  approve : Option Answer
  deny : Option Answer

structure AgentReadinessItem where
  kind : AgentKind
  descriptor : Option AgentDescriptor

/-- What the policy reads besides the records: the selection, whether the window is active, the
preference for sounds, the agent catalog, the clock and the way an amount of memory is written. -/
structure Around where
  selectedSessionId : Option SessionId
  appIsActive : Bool
  statusSounds : Bool
  agents : List AgentReadinessItem
  /-- Nanoseconds since the epoch. -/
  now : Nat
  /-- Bytes in units of 10^9, with one decimal. -/
  gigabytes : Nat → String

namespace Around

def descriptor (around : Around) (kind : AgentKind) : Option AgentDescriptor :=
  (around.agents.find? (·.kind.id == kind.id)).bind (·.descriptor)

end Around

def oneShotIdentifier (stem : String) (now : Nat) : String := stem ++ "-" ++ toString now

def plainBanner (stem title body : String) (now : Nat) : StatusTransition where
  sound := none
  notification := some
    { identifier := oneShotIdentifier stem now
      title := title
      body := body
      threadIdentifier := none
      actionData := none
      useSystemSound := true }
  inAppBanner := some ⟨title, body⟩

/-- Without a descriptor, the agents that predate them. -/
def approveAnswer (kind : AgentKind) (descriptor : Option AgentDescriptor) : Option Answer :=
  match descriptor with
  | some descriptor => descriptor.approve
  | none =>
    if kind.id = "claude-code" then some ⟨"1", true⟩
    else if kind.id = "codex" ∨ kind.id = "gemini" then some ⟨"", true⟩
    else if kind.id = "cursor" then some ⟨"y", false⟩
    else none

/-- Escape, unless the manifest says otherwise. -/
def denyAnswer (descriptor : Option AgentDescriptor) : Answer :=
  (descriptor.bind (·.deny)).getD ⟨"\x1b", false⟩

def displayName (kind : AgentKind) (descriptor : Option AgentDescriptor) : String :=
  match descriptor.filter (!·.displayName.isEmpty) with
  | some descriptor => descriptor.displayName
  | none =>
    if kind.id = "claude-code" then "Claude Code"
    else if kind.id = "codex" then "Codex"
    else if kind.id = "cursor" then "Cursor"
    else if kind.id = "gemini" then "Gemini"
    else if kind.id = "shell" then "Terminal"
    else "Agent"

/-- The `Debug` text. -/
def kindName : NeedsInputKind → String
  | .permission => "Permission"
  | .question => "Question"
  | .unknown => "Unknown"

/-- Sixteen hexadecimal digits. -/
def hex16 (value : UInt64) : String :=
  let digits := Nat.toDigits 16 value.toNat
  String.ofList (List.replicate (16 - digits.length) '0' ++ digits)

/-- FNV-1a of what tells one blocker from another. -/
def blockerIdentity (detail : NeedsInputDetail) : String :=
  let identity :=
    kindName detail.kind ++ "\x00" ++ detail.toolName.getD "" ++ "\x00" ++ detail.summary
  hex16 (identity.toUTF8.toList.foldl
    (fun hash byte => (hash ^^^ byte.toUInt64) * 0x100000001b3) 0xcbf29ce484222325)

/-! ### The policy -/

/-- A remote host turned out not to keep detached processes. -/
def nonPersistentTransition (around : Around) (previous : Option SessionRecord)
    (current : SessionRecord) : Option StatusTransition :=
  if previous.bind (·.remotePersistence) ≠ some .nonPersistent ∧
      current.remotePersistence = some .nonPersistent then
    let host := current.host.getD "the remote host"
    some (plainBanner "remote-non-persistent" "Remote session cannot survive disconnects"
      (host ++ " does not preserve detached user processes. Keep SSH connected or the Agent may exit.")
      around.now)
  else none

def isMemoryFrozen (session : SessionRecord) : Bool :=
  session.hibernation.any (·.reason == .memoryPressure)

def memoryPressureRequest (around : Around) (session : SessionRecord) : NotificationRequest where
  identifier := session.id ++ "-memory-pressure"
  title := "Session frozen — high memory"
  body := match session.memoryBytes with
    | none => session.title ++ " was frozen to reclaim memory. Select it to wake."
    | some bytes =>
      session.title ++ " — " ++ around.gigabytes bytes ++ " GB. Select it to wake."
  threadIdentifier := some session.id
  actionData := none
  useSystemSound := !around.statusSounds

def frozenTransition (around : Around) (previous : Option SessionRecord)
    (current : SessionRecord) : Option StatusTransition :=
  if !previous.any isMemoryFrozen && isMemoryFrozen current then
    some
      { sound := if around.statusSounds then some .frozen else none
        notification := some (memoryPressureRequest around current)
        inAppBanner := none }
  else none

/-- Only built for a session that needs input or is done. -/
def attentionRequest (around : Around) (session : SessionRecord) : Option NotificationRequest :=
  let descriptor := around.descriptor session.effectiveKind
  let name := displayName session.effectiveKind descriptor
  let request := fun (title body suffix : String) (actionData : Option ActionData) =>
    some
      { identifier := session.id ++ "-" ++ suffix
        title := title
        body := body
        threadIdentifier := some session.id
        actionData := actionData
        useSystemSound := !around.statusSounds : NotificationRequest }
  match session.attention with
  | .needsInput =>
    let actionData := do
      let detail ← session.needsInput
      if detail.kind = .permission then
        let approve ← approveAnswer session.effectiveKind descriptor
        some ⟨session.id, approve, denyAnswer descriptor⟩
      else none
    request (name ++ " needs you") ((session.needsInput.map (·.summary)).getD session.title)
      ((session.needsInput.map blockerIdentity).getD "needs-input") actionData
  | .doneUnseen => request (name ++ " finished") session.title "done" none
  | _ => none

/-- The session entered `needsInput` or `doneUnseen`; a banner is held back only for the focused
session of an active window. -/
def attentionTransition (around : Around) (previous : Option AttentionLevel)
    (current : SessionRecord) : Option StatusTransition :=
  let becameBlocked := previous ≠ some .needsInput ∧ current.attention = .needsInput
  let becameDone := previous ≠ some .doneUnseen ∧ current.attention = .doneUnseen
  if becameBlocked ∨ becameDone then
    let isFocused := around.selectedSessionId == some current.id && around.appIsActive
    some
      { sound :=
          if around.statusSounds then some (if becameBlocked then .needsInput else .done) else none
        notification := if isFocused then none else attentionRequest around current
        inAppBanner := none }
  else none

def transitionsForUpdate (around : Around) (previous : Option SessionRecord)
    (current : SessionRecord) : List StatusTransition :=
  (nonPersistentTransition around previous current).toList ++
    (frozenTransition around previous current).toList ++
    (attentionTransition around (previous.map (·.attention)) current).toList

/-! ### The store -/

inductive Event where
  | sessionUpdated (session : SessionRecord)
  | sessionResources (resources : SessionResourcesEvent)
  | sessionRemoved (id : SessionId)

/-- The session an event is about. -/
def Event.about : Event → SessionId
  | .sessionUpdated session => session.id
  | .sessionResources resources => resources.id
  | .sessionRemoved id => id

def SessionRecord.sampled (record : SessionRecord) (resources : SessionResourcesEvent) :
    SessionRecord :=
  { record with toSessionRecord := record.toSessionRecord.sampled resources }

structure SessionStore where
  sessions : SessionMap
  /-- The `StatusTransition` effects. -/
  effects : List StatusTransition
  announcements : List (SessionId × StatusTransition)

namespace SessionStore

def new : SessionStore := ⟨.empty, [], []⟩

/-- The list replaces the records; nobody asks the policy. -/
def hydrate (store : SessionStore) (sessions : List SessionRecord) : SessionStore :=
  { store with sessions := .ofList sessions }

def upsertSession (around : Around) (store : SessionStore) (session : SessionRecord) :
    SessionStore :=
  let previous := store.sessions.get session.id
  let announced := attentionTransition around (previous.map (·.attention)) session
  { sessions := store.sessions.insert session
    effects := store.effects ++ transitionsForUpdate around previous session
    announcements := store.announcements ++ announced.toList.map fun transition =>
      (session.id, transition) }

def handleEvent (around : Around) (store : SessionStore) : Event → SessionStore
  | .sessionUpdated session =>
    if store.sessions.get session.id = some session then store
    else store.upsertSession around session
  | .sessionResources resources =>
    match store.sessions.get resources.id with
    | some record => { store with sessions := store.sessions.insert (record.sampled resources) }
    | none => store
  | .sessionRemoved id => { store with sessions := store.sessions.erase id }

/-- `get_mut` and a change that keeps the id. -/
def modify (store : SessionStore) (id : SessionId) (f : SessionRecord → SessionRecord) :
    SessionStore :=
  match store.sessions.get id with
  | some session => { store with sessions := store.sessions.insert (f session) }
  | none => store

def rename (store : SessionStore) (id : SessionId) (title : String) : SessionStore :=
  store.modify id fun session => { session with title := title, titleSource := .userRename }

/-- The row of `archive_sessions`. -/
def archive (store : SessionStore) (now : DateMillis) (id : SessionId) : SessionStore :=
  store.modify id fun session =>
    if session.isArchived then session else { session with archivedAt := some now }

/-- The row of `revive_sessions`. -/
def revive (store : SessionStore) (id : SessionId) : SessionStore :=
  store.modify id fun session => { session with archivedAt := none }

/-- What was announced about a session. -/
def announcedOf (store : SessionStore) (id : SessionId) : List StatusTransition :=
  (store.announcements.filter (·.1 = id)).map (·.2)

end SessionStore

/-! ### The connection -/

structure Link where
  /-- The daemon's records. -/
  daemon : SessionMap
  connected : Bool
  /-- Events that came over the connection and are not applied. -/
  pending : List Event
  /-- The answer to `session.list` that is not applied yet. -/
  response : Option (List SessionRecord)
  store : SessionStore

inductive LinkEvent where
  /-- The daemon changes its records; the change is published if somebody is connected. -/
  | mutate (event : Event)
  /-- The connection goes; some of the events, and maybe the response, had come over. -/
  | disconnect (kept : Nat) (answered : Bool)
  | reconnect
  /-- The daemon answers `session.list`. -/
  | list
  /-- The state task applies the answer. -/
  | hydrate
  /-- The event task applies the next event. -/
  | receive (around : Around)
  /-- `RecvError::Lagged`: the next events are gone. -/
  | lag (count : Nat)
  | rename (id : SessionId) (title : String)
  | archive (id : SessionId) (now : DateMillis)
  | revive (id : SessionId)

namespace Link

def new (daemon : SessionMap) : Link := ⟨daemon, false, [], none, .new⟩

/-- The change that an event publishes. -/
def mutate (daemon : SessionMap) : Event → SessionMap
  | .sessionUpdated session => daemon.insert session
  | .sessionResources resources =>
    match daemon.get resources.id with
    | some record => daemon.insert (record.sampled resources)
    | none => daemon
  | .sessionRemoved id => daemon.erase id

def step (link : Link) : LinkEvent → Link × Unit
  | .mutate event =>
    ({ link with
      daemon := mutate link.daemon event
      pending := if link.connected then link.pending ++ [event] else link.pending }, ())
  | .disconnect kept answered =>
    ({ link with
      connected := false
      pending := link.pending.take kept
      response := if answered then link.response else none }, ())
  | .reconnect => ({ link with connected := true }, ())
  | .list =>
    if link.connected && link.response.isNone then
      ({ link with response := some link.daemon.values }, ())
    else (link, ())
  | .hydrate =>
    match link.response with
    | some sessions => ({ link with response := none, store := link.store.hydrate sessions }, ())
    | none => (link, ())
  | .receive around =>
    match link.pending with
    | event :: rest =>
      ({ link with pending := rest, store := link.store.handleEvent around event }, ())
    | [] => (link, ())
  | .lag count => ({ link with pending := link.pending.drop count }, ())
  | .rename id title => ({ link with store := link.store.rename id title }, ())
  | .archive id now => ({ link with store := link.store.archive now id }, ())
  | .revive id => ({ link with store := link.store.revive id }, ())

end Link

end Homie.App.Notifications
