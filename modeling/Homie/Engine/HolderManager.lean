/-
The manager that hosts the holders of all sessions: `homie-engine/src/holder/manager.rs`, with the
life of a holder from `holder/server.rs`.

The accept loop, the idle watchdog and the thread of each holder take turns; every event is the
next access of one of them to what they share.  A launch that inserts its id clears `idle_since`
under the lock of `active`, and a holder that leaves sets it under that lock.  Each is one step,
because the only thread that reads `idle_since` without the lock of `active` reads nothing else.

Once the watchdog has closed the listener its number is taken for unused.  The texts of the errors
that other crates word are cut to what is written here.
-/
import Homie.Lib.Trace

namespace Homie.HolderManager

/-! ### Requests -/

structure HolderLaunchSpec where
  sessionId : String
  socketPath : String
  pidFilePath : String
  logFilePath : String
  argv : List String
  cwd : String
  environment : List (String × String)
  cols : UInt16
  rows : UInt16
  diskCapacity : Int
deriving DecidableEq

def managerProtocolVersion : UInt32 := 1

inductive Operation where
  | ping
  | launch
  | shutdownIfIdle
deriving DecidableEq

structure Request where
  version : UInt32
  op : Operation
  spec : Option HolderLaunchSpec
deriving DecidableEq

inductive HolderError where
  | invalidRequest (message : String)
  | rejected (message : String)
  | io (context : String)
deriving DecidableEq

/-- What the directory of the manager makes of a session id and of a path. -/
structure HolderPaths where
  socket : String → String
  pidFile : String → String
  /-- Equality of two `Path`s. -/
  samePath : String → String → Bool
  /-- The file that a path leads to. -/
  file : String → String

def HolderPaths.validate (paths : HolderPaths) (spec : HolderLaunchSpec) : Except HolderError Unit :=
  if spec.sessionId.isEmpty then .error (.invalidRequest "session id is empty")
  else if !paths.samePath spec.socketPath (paths.socket spec.sessionId) ||
      !paths.samePath spec.pidFilePath (paths.pidFile spec.sessionId) then
    .error (.invalidRequest "session control paths are outside manager directory")
  else .ok ()

/-- The request that was answered, if it could be decoded, and the response to it. -/
structure Answer where
  request : Option Request
  result : Except HolderError Unit

/-! ### Threads -/

/-- Where `handle` stands in a launch. -/
inductive LaunchPhase where
  | probing
  | checkingFlag
  | inserting
  | spawning
deriving DecidableEq

inductive LoopPhase where
  | accepting
  | launching (spec : HolderLaunchSpec) (phase : LaunchPhase)
  | checkingActive
  /-- About to enter `stop_listener`, and about to close the listener in it. -/
  | stopping
  | closing
  /-- The loop has ended, without an error or with one. -/
  | left
  | failed
deriving DecidableEq

inductive WatchPhase where
  | sleeping
  | readingIdle
  | stopping
  | closing
  | returned
deriving DecidableEq

inductive HolderPhase where
  /-- In `run`, up to the accept loop. -/
  | starting
  /-- The socket answers, and the child is alive. -/
  | serving
  /-- The child is gone. -/
  | exiting
  /-- So is the socket. -/
  | unlinked
  /-- `run` has returned. -/
  | returned
deriving DecidableEq

structure Holder where
  spec : HolderLaunchSpec
  phase : HolderPhase
deriving DecidableEq

inductive HolderStep where
  | listen
  | loseChild
  | unlink
  /-- `run` returns: at its end, at the guard against a double run, or with any other error. -/
  | finish
  /-- The thread takes its id out of `active`. -/
  | leave
deriving DecidableEq

structure Manager where
  now : Nat
  active : Finset String
  idleSince : Option Nat
  shuttingDown : Bool
  /-- The listener is open. -/
  listening : Bool
  loop : LoopPhase
  watchdog : WatchPhase
  threads : String → Option Holder
  /-- The sessions that holders of other processes serve. -/
  outside : Finset String

namespace Manager

def start (now : Nat) : Manager :=
  ⟨now, ∅, some now, false, true, .accepting, .sleeping, fun _ => none, ∅⟩

/-- A live holder with a live child serves the session. -/
def serving (manager : Manager) (id : String) : Bool :=
  decide (id ∈ manager.outside) || (manager.threads id).any (·.phase = .serving)

def setThread (manager : Manager) (id : String) (holder : Option Holder) : Manager :=
  { manager with threads := fun other => if other = id then holder else manager.threads other }

/-- `HolderClient::is_alive` on the socket of a spec, where `holder` is the session whose holder
the connection leads to; it may be missed, but not made up. -/
def isAlive (paths : HolderPaths) (manager : Manager) (spec : HolderLaunchSpec)
    (holder : Option String) : Bool :=
  holder.any fun id =>
    manager.serving id && paths.file (paths.socket id) = paths.file spec.socketPath

/-! ### The accept loop -/

def answer (manager : Manager) (request : Request) (result : Except HolderError Unit) :
    Manager × Option Answer :=
  ({ manager with loop := .accepting }, some ⟨some request, result⟩)

def answerLaunch (manager : Manager) (spec : HolderLaunchSpec) (result : Except HolderError Unit) :
    Manager × Option Answer :=
  manager.answer ⟨managerProtocolVersion, .launch, some spec⟩ result

/-- `handle`, up to its first access to what it shares. -/
def handle (paths : HolderPaths) (manager : Manager) (request : Request) :
    Manager × Option Answer :=
  if request.version ≠ managerProtocolVersion then
    manager.answer request
      (.error (.invalidRequest s!"manager protocol {request.version} is unsupported"))
  else
    match request.op with
    | .ping =>
      ({ manager with idleSince := manager.idleSince.map fun _ => manager.now }).answer
        request (.ok ())
    | .launch =>
      match request.spec with
      | none =>
        manager.answer request (.error (.invalidRequest "manager launch requires a spec"))
      | some spec =>
        match paths.validate spec with
        | .error error => manager.answer request (.error error)
        | .ok () => ({ manager with loop := .launching spec .probing }, none)
    | .shutdownIfIdle => ({ manager with loop := .checkingActive }, none)

/-- `accept` fails: once the flag is set that ends the loop quietly. -/
def acceptFailed (manager : Manager) : Manager :=
  if manager.shuttingDown then { manager with loop := .left }
  else { manager with listening := false, loop := .failed }

/-- The rest of `handle` for a launch, one access at a time. -/
def launch (paths : HolderPaths) (manager : Manager) (spec : HolderLaunchSpec)
    (holder : Option String) (spawned : Bool) : LaunchPhase → Manager × Option Answer
  | .probing =>
    if manager.isAlive paths spec holder then manager.answerLaunch spec (.ok ())
    else ({ manager with loop := .launching spec .checkingFlag }, none)
  | .checkingFlag =>
    if manager.shuttingDown then
      manager.answerLaunch spec (.error (.rejected "manager is shutting down"))
    else ({ manager with loop := .launching spec .inserting }, none)
  | .inserting =>
    if spec.sessionId ∈ manager.active then manager.answerLaunch spec (.ok ())
    else
      ({ manager with
          active := insert spec.sessionId manager.active
          idleSince := none
          loop := .launching spec .spawning }, none)
  | .spawning =>
    if spawned then
      (manager.setThread spec.sessionId (some ⟨spec, .starting⟩)).answerLaunch spec (.ok ())
    else manager.answerLaunch spec (.error (.io "spawn session holder"))

def shutdownRequest : Request := ⟨managerProtocolVersion, .shutdownIfIdle, none⟩

/-- The next access of the accept loop inside `handle`. -/
def loopStep (paths : HolderPaths) (manager : Manager) (holder : Option String)
    (spawned : Bool) : Manager × Option Answer :=
  match manager.loop with
  | .launching spec phase => manager.launch paths spec holder spawned phase
  | .checkingActive =>
    if manager.active.Nonempty then
      manager.answer shutdownRequest
        (.error (.rejected "holder manager still owns live sessions"))
    else ({ manager with loop := .stopping }, none)
  | .stopping =>
    if manager.shuttingDown then manager.answer shutdownRequest (.ok ())
    else ({ manager with shuttingDown := true, loop := .closing }, none)
  | .closing => ({ manager with listening := false }).answer shutdownRequest (.ok ())
  | .accepting | .left | .failed => (manager, none)

/-! ### The watchdog -/

def expired (idleTimeout : Nat) (manager : Manager) : Bool :=
  manager.idleSince.any fun since => idleTimeout ≤ manager.now - since

def watch (idleTimeout : Nat) (manager : Manager) : Manager :=
  match manager.watchdog with
  | .sleeping =>
    { manager with watchdog := if manager.shuttingDown then .returned else .readingIdle }
  | .readingIdle =>
    { manager with
      watchdog := if manager.expired idleTimeout then .stopping else .sleeping }
  | .stopping =>
    if manager.shuttingDown then { manager with watchdog := .returned }
    else { manager with shuttingDown := true, watchdog := .closing }
  | .closing => { manager with listening := false, watchdog := .returned }
  | .returned => manager

/-! ### The holders -/

/-- The end of a holder thread. -/
def leaveActive (manager : Manager) (id : String) : Manager :=
  let active := manager.active.erase id
  { manager.setThread id none with
    active := active
    idleSince := if active = ∅ then some manager.now else manager.idleSince }

def holderStep (manager : Manager) (id : String) (step : HolderStep) : Manager :=
  match manager.threads id with
  | none => manager
  | some holder =>
    match holder.phase, step with
    | .returned, .leave => manager.leaveActive id
    | .returned, _ => manager
    | _, .finish => manager.setThread id (some { holder with phase := .returned })
    | .starting, .listen => manager.setThread id (some { holder with phase := .serving })
    | .serving, .loseChild => manager.setThread id (some { holder with phase := .exiting })
    | .exiting, .unlink => manager.setThread id (some { holder with phase := .unlinked })
    | _, _ => manager

/-! ### The process -/

inductive Event where
  /-- Time passes. -/
  | tick (elapsed : Nat)
  /-- Holders of other processes come and go. -/
  | outside (serving : Finset String)
  /-- A client connects; `none` is a request that cannot be decoded. -/
  | accepted (request : Option Request)
  | acceptFailed
  /-- The accept loop goes on in `handle`; `holder` is whom a probe reaches, `spawned` whether a
  thread can be spawned. -/
  | loop (holder : Option String) (spawned : Bool)
  | watchdog
  | holder (id : String) (step : HolderStep)

def step (paths : HolderPaths) (idleTimeout : Nat) (manager : Manager) :
    Event → Manager × Option Answer
  | .tick elapsed => ({ manager with now := manager.now + elapsed }, none)
  | .outside serving => ({ manager with outside := serving }, none)
  | .accepted request =>
    if manager.loop = .accepting ∧ manager.listening then
      match request with
      | none => (manager, some ⟨none, .error (.invalidRequest "decode")⟩)
      | some request => manager.handle paths request
    else (manager, none)
  | .acceptFailed => (if manager.loop = .accepting then manager.acceptFailed else manager, none)
  | .loop holder spawned => manager.loopStep paths holder spawned
  | .watchdog => (manager.watch idleTimeout, none)
  | .holder id step => (manager.holderStep id step, none)

end Manager

end Homie.HolderManager
