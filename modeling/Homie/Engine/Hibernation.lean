/-
Records and live sessions in the registry: the operations of `homie-engine/src/registry.rs` that
bring sessions in, end them, freeze and wake them, and poll them, with what they write into the
record and what into the session.

As in `Engine.Registry` the maps are functions of the id, and a session that the environment
hands over is an argument, or nothing when bringing it up failed.  `state_file`, the projects and
the closed sessions are left out; none of these operations reads them.
-/
import Homie.Engine.DeferredLaunch
import Homie.Engine.Registry
import Homie.Lib.Trace

namespace Homie.Hibernation

open Watch (LiveSession SessionView SessionChange)

/-! ### Records and sessions -/

inductive HibernationReason where
  | idle
  | memoryPressure
  | manual
  | unknown
deriving DecidableEq, Repr

structure HibernationInfo where
  since : Int
  reason : HibernationReason
  treePids : List Int32
  treeStartTimes : Option (List (Int32 × Int64))
deriving DecidableEq

structure SessionRecord extends Watch.SessionRecord where
  host : Option String
  hibernation : Option HibernationInfo

/-- A live session, with the mark that makes its input queue. -/
structure Session extends LiveSession where
  hibernated : Bool

structure Registry where
  sessions : String → Option Session
  records : String → Option SessionRecord

def isExited : SessionStatus → Bool
  | .exited _ => true
  | _ => false

namespace Registry

def new : Registry := ⟨fun _ => none, fun _ => none⟩

def setSession (registry : Registry) (id : String) (session : Option Session) : Registry :=
  { registry with sessions := Function.update registry.sessions id session }

def setRecord (registry : Registry) (id : String) (record : Option SessionRecord) : Registry :=
  { registry with records := Function.update registry.records id record }

/-! ### Sessions come and go -/

def insertRecord (registry : Registry) (id : String) (record : SessionRecord) : Registry :=
  registry.setRecord id (some record)

/-- `session` is nothing when `Session::spawn` failed. -/
def spawn (registry : Registry) (id : String) (session : Option LiveSession)
    (record : SessionRecord) : Registry :=
  match session with
  | none => registry
  | some session => (registry.setRecord id (some record)).setSession id (some ⟨session, false⟩)

def adoptRemote (registry : Registry) (id : String) (session : Option LiveSession) : Registry :=
  match registry.records id, session with
  | some _, some session => registry.setSession id (some ⟨session, false⟩)
  | _, _ => registry

/-- What `adopt_live_holders` does with one Holder; `session` is nothing when it does not answer,
is not alive or cannot be adopted. -/
def adoptHolder (registry : Registry) (id : String) (session : Option LiveSession) : Registry :=
  match registry.records id, registry.sessions id, session with
  | some record, none, some session =>
    registry.setSession id (some ⟨session, record.hibernation.isSome⟩)
  | _, _, _ => registry

/-- `exit` is how the session ended, or nothing when ending it failed. -/
def terminate (registry : Registry) (id : String) (exit : Option Remote.Exit) : Registry :=
  match registry.sessions id with
  | none => registry
  | some _ =>
    let registry := registry.setSession id none
    match exit, registry.records id with
    | some exit, some record =>
      registry.setRecord id
        (some { record with status := .exited (Watch.Registry.exitInfo exit) })
    | _, _ => registry

def respawn (registry : Registry) (id : String) (session : Option LiveSession) (now : Int) :
    Registry :=
  match registry.records id, session with
  | some record, some session =>
    (registry.setSession id (some ⟨session, false⟩)).setRecord id
      (some { record with status := .starting, needsInput := none, updatedAt := now })
  | _, _ => registry

def remove (registry : Registry) (id : String) (exit : Option Remote.Exit) : Registry :=
  let registry := registry.terminate id exit
  match registry.records id with
  | none => registry
  | some _ => (registry.setRecord id none).setSession id none

/-- Local records that no live session backs are exited. -/
def reapOrphans (registry : Registry) : Registry :=
  { registry with
    records := fun id => (registry.records id).map fun record =>
      if record.host.isNone && !isExited record.status && (registry.sessions id).isNone then
        { record with status := .exited ⟨.daemonRestart, none, none⟩, needsInput := none }
      else record }

/-! ### Freezing and waking -/

def setHibernation (registry : Registry) (id : String) (info : Option HibernationInfo)
    (now : Int) : Registry :=
  registry.setRecord id ((registry.records id).map fun record =>
    { record with hibernation := info, updatedAt := now })

/-- `tree` is what `SIGSTOP` found, or nothing when it failed. -/
def hibernate (registry : Registry) (id : String) (reason : HibernationReason)
    (tree : Option (List (Int32 × Int64))) (now : Int) : Registry :=
  match registry.sessions id, tree with
  | some session, some tree =>
    (registry.setSession id (some { session with hibernated := true })).setHibernation id
      (some ⟨now, reason, tree.map (·.1), some tree⟩) now
  | _, _ => registry

def knownHibernated (registry : Registry) (id : String) : Bool :=
  ((registry.records id).any fun record => record.hibernation.isSome) ||
    (registry.sessions id).any (·.hibernated)

/-- `continues` says whether `SIGCONT` went through. -/
def ensureSessionAwake (registry : Registry) (id : String) (continues : Bool) (now : Int) :
    Registry :=
  let known := registry.knownHibernated id
  let clear := fun registry : Registry =>
    if known then registry.setHibernation id none now else registry
  match registry.sessions id with
  | none => clear registry
  | some session =>
    if continues then clear (registry.setSession id (some { session with hibernated := false }))
    else registry

def wakeSession (registry : Registry) (id : String) (continues : Bool) (now : Int) : Registry :=
  if registry.knownHibernated id then registry.ensureSessionAwake id continues now else registry

/-! ### Polling -/

/-- The record of a session that moved since `published`. -/
def polled (isAlphanumeric : Char → Bool) (registry : Registry) (published : String → Option Nat)
    (now : Int) (id : String) : Option SessionRecord := do
  let session ← (registry.sessions id).filter fun session =>
    published id ≠ some session.stateVersion
  let record ← registry.records id
  pure { record with
    toSessionRecord := Watch.Registry.foldChanged isAlphanumeric now record.toSessionRecord
      session.toLiveSession.view }

def changedSince (isAlphanumeric : Char → Bool) (registry : Registry)
    (published : String → Option Nat) (now : Int) : Registry :=
  { registry with
    records := fun id =>
      (registry.polled isAlphanumeric published now id).or (registry.records id) }

/-- A thread of a session changes what its view shows. -/
def change (titleFromPrompt : String → String) (registry : Registry) (id : String)
    (change : SessionChange) : Registry :=
  registry.setSession id ((registry.sessions id).map fun session =>
    { session with toLiveSession := session.toLiveSession.change titleFromPrompt change })

end Registry

/-! ### Runs -/

inductive Operation where
  | insertRecord (id : String) (record : SessionRecord)
  | spawn (id : String) (session : Option LiveSession) (record : SessionRecord)
  | adoptRemote (id : String) (session : Option LiveSession)
  | adoptHolder (id : String) (session : Option LiveSession)
  | terminate (id : String) (exit : Option Remote.Exit)
  | respawn (id : String) (session : Option LiveSession) (now : Int)
  | remove (id : String) (exit : Option Remote.Exit)
  | reapOrphans
  | hibernate (id : String) (reason : HibernationReason) (tree : Option (List (Int32 × Int64)))
      (now : Int)
  | ensureSessionAwake (id : String) (continues : Bool) (now : Int)
  | wakeSession (id : String) (continues : Bool) (now : Int)
  | changedSince (published : String → Option Nat) (now : Int)
  | change (id : String) (change : SessionChange)

def step (isAlphanumeric : Char → Bool) (titleFromPrompt : String → String) (registry : Registry) :
    Operation → Registry × Unit
  | .insertRecord id record => (registry.insertRecord id record, ())
  | .spawn id session record => (registry.spawn id session record, ())
  | .adoptRemote id session => (registry.adoptRemote id session, ())
  | .adoptHolder id session => (registry.adoptHolder id session, ())
  | .terminate id exit => (registry.terminate id exit, ())
  | .respawn id session now => (registry.respawn id session now, ())
  | .remove id exit => (registry.remove id exit, ())
  | .reapOrphans => (registry.reapOrphans, ())
  | .hibernate id reason tree now => (registry.hibernate id reason tree now, ())
  | .ensureSessionAwake id continues now => (registry.ensureSessionAwake id continues now, ())
  | .wakeSession id continues now => (registry.wakeSession id continues now, ())
  | .changedSince published now => (registry.changedSince isAlphanumeric published now, ())
  | .change id change => (registry.change titleFromPrompt id change, ())

end Homie.Hibernation

/-! ### Input to a session that may be frozen: `write_input`, `write_raw` and `set_hibernated` of
`homie-engine/src/session/pty.rs`, and `hibernate`, `wake_session` and `ensure_session_awake` of
`homie-engine/src/registry.rs`

All of them run under the registry's lock, one at a time, so a run is a list of calls.  What the
transport answers is part of the call: whether a signal went through, and whether a write did or
how much of it the child got before it failed.  A session whose child has not been started yet
queues input elsewhere; the start is not one of the calls here.

`taken` is a history variable: it collects what was accepted with `Ok`, and what went out of a
write that was refused.
-/

namespace Homie.HibernatedInput

open Engine (DeferredState)

/-- What became of a write to the transport; a failed one may have put out a part. -/
inductive WriteAnswer where
  | written
  | failed (put : Nat)
deriving DecidableEq, Repr

/-- What of the bytes went out. -/
def WriteAnswer.put (answer : WriteAnswer) (bytes : List UInt8) : List UInt8 :=
  match answer with
  | .written => bytes
  | .failed put => bytes.take put

structure Session where
  deferred : Option DeferredState
  hibernated : Bool
  queuedInput : List UInt8
  /-- What the child has been sent. -/
  delivered : List UInt8
  /-- The record has `hibernation`. -/
  recorded : Bool
  taken : List UInt8

namespace Session

/-- A session without a deferred start, or one before or after it. -/
def start (launched : Option Bool) : Session where
  deferred := launched.map fun launched => { DeferredState.new with launched }
  hibernated := false
  queuedInput := []
  delivered := []
  recorded := false
  taken := []

/-- The `write` of the transport. -/
def transportWrite (session : Session) (bytes : List UInt8) (answer : WriteAnswer) :
    Bool × Session :=
  (answer == .written, { session with delivered := session.delivered ++ answer.put bytes })

/-- The queue in front of the deferred start, when it takes the bytes. -/
def queueDeferred (session : Session) (bytes : List UInt8) : Option Session :=
  match session.deferred with
  | none => none
  | some deferred =>
    match deferred.queueInput bytes with
    | (true, deferred) => some { session with deferred := some deferred }
    | (false, _) => none

/-- `write_raw`, which is also the part of `write_input` that moves bytes. -/
def writeRaw (session : Session) (bytes : List UInt8) (answer : WriteAnswer) : Bool × Session :=
  match session.queueDeferred bytes with
  | some session => (true, session)
  | none =>
    if session.hibernated then
      (true, { session with queuedInput := session.queuedInput ++ bytes })
    else session.transportWrite bytes answer

/-- `write_input`, and what it does to the history. -/
def writeInput (session : Session) (bytes : List UInt8) (answer : WriteAnswer) : Bool × Session :=
  let (accepted, session) := session.writeRaw bytes answer
  let went := if accepted then bytes else answer.put bytes
  (accepted, { session with taken := session.taken ++ went })

/-- `set_hibernated`; on a wake the queue is emptied before it is written. -/
def setHibernated (session : Session) (hibernated : Bool) (answer : WriteAnswer) :
    Bool × Session :=
  let session := { session with hibernated }
  if hibernated then (true, session)
  else
    let queued := session.queuedInput
    let session := { session with queuedInput := [] }
    if queued.isEmpty then (true, session) else session.writeRaw queued answer

/-- `stops` says whether `SIGSTOP` went through. -/
def hibernate (session : Session) (stops : Bool) : Bool × Session :=
  if stops then (true, { (session.setHibernated true .written).2 with recorded := true })
  else (false, session)

/-- `continues` says whether `SIGCONT` went through; the result of the flush is dropped. -/
def ensureSessionAwake (session : Session) (continues : Bool) (answer : WriteAnswer) :
    Bool × Session :=
  if continues then
    let known := session.recorded || session.hibernated
    let session := (session.setHibernated false answer).2
    (true, if known then { session with recorded := false } else session)
  else (false, session)

def wakeSession (session : Session) (continues : Bool) (answer : WriteAnswer) : Bool × Session :=
  if session.recorded || session.hibernated then session.ensureSessionAwake continues answer
  else (true, session)

end Session

/-! ### Runs -/

inductive Call where
  | writeInput (bytes : List UInt8) (answer : WriteAnswer)
  | hibernate (stops : Bool)
  | ensureSessionAwake (continues : Bool) (answer : WriteAnswer)
  | wakeSession (continues : Bool) (answer : WriteAnswer)

/-- One call; the outcome is whether it returned `Ok`. -/
def step (session : Session) : Call → Session × Bool
  | .writeInput bytes answer => (session.writeInput bytes answer).swap
  | .hibernate stops => (session.hibernate stops).swap
  | .ensureSessionAwake continues answer => (session.ensureSessionAwake continues answer).swap
  | .wakeSession continues answer => (session.wakeSession continues answer).swap

end Homie.HibernatedInput
