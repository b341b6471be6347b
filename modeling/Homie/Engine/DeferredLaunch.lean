/-
A session whose child is started late: `DeferredLaunch`, `spawn_held_deferred` and the
`write_input` and `resize` of such a session (`homie-engine/src/session/lifecycle.rs` and
`homie-engine/src/session/pty.rs`).

The launcher thread waits for the viewport to settle, starts the child through a Holder and
hands over what clients typed and proposed meanwhile.  Every access to the `DeferredState`
is one critical section; a request to the Holder and a resize of the emulator are steps of
their own, so the launcher and a client can come between each other's.

Clients call a session under the registry's lock (`handle_frame` of the attach hub, the
control handlers, the prompt injector), so one client call is under way at a time; the
launcher does not take that lock.  The session is awake throughout.  Time is outside: a
deadline may have passed whenever the launcher looks.
-/
import Homie.Lib.Trace

namespace Homie.Engine

/-- Columns and rows. -/
abbrev Size := UInt16 × UInt16

/-- `.max(2)` of both, as the handlers of a resize and the launcher take it. -/
def Size.atLeastTwo (size : Size) : Size := (max size.1 2, max size.2 2)

structure DeferredState where
  pending : Option Size
  queuedInput : List UInt8
  launched : Bool
  cancelled : Bool

structure LaunchHandoff where
  queuedInput : List UInt8
  lateSize : Option Size

namespace DeferredState

def new : DeferredState := ⟨none, [], false, false⟩

/-- False once launched: resize the PTY instead. -/
def proposeSize (state : DeferredState) (size : Size) : Bool × DeferredState :=
  if state.launched then (false, state) else (true, { state with pending := some size })

/-- False once launched: write through. -/
def queueInput (state : DeferredState) (bytes : List UInt8) : Bool × DeferredState :=
  if state.launched then (false, state)
  else (true, { state with queuedInput := state.queuedInput ++ bytes })

/-- `wait_for_launch_size` as it returns. -/
def launchSize (state : DeferredState) (fallback : Size) : Option Size :=
  if state.cancelled then none else some (state.pending.getD fallback)

def finishLaunch (state : DeferredState) (chosen : Size) : Option LaunchHandoff × DeferredState :=
  if state.cancelled then (none, state)
  else
    (some ⟨state.queuedInput, state.pending.filter fun pending => pending ≠ chosen⟩,
      { state with launched := true, queuedInput := [] })

/-- True when cancellation happened before launch: there is no child. -/
def cancel (state : DeferredState) : Bool × DeferredState :=
  if state.launched then (false, state) else (true, { state with cancelled := true })

end DeferredState

/-! ### The session -/

/-- The child behind the Holder: what it was sent, and the size of its terminal. -/
structure Child where
  input : List UInt8
  size : Size

/-- What the launcher does next. -/
inductive Launcher where
  /-- In `wait_for_launch_size`. -/
  | waiting
  /-- `shared.screen.resize` to the chosen size. -/
  | sizing (chosen : Size)
  /-- `HolderLauncher::launch`, until the Holder answers. -/
  | spawning (chosen : Size)
  | finishing (chosen : Size)
  /-- `client.write` of the input queued meanwhile. -/
  | flushing (handoff : LaunchHandoff)
  /-- `client.resize` to the late size. -/
  | sizingChild (late : Option Size)
  /-- `shared.screen.resize` to the late size. -/
  | sizingScreen (late : Option Size)
  /-- In `pump_held`: the handoff is over. -/
  | pumping
  /-- Cancelled, or the launch failed. -/
  | stopped

/-- What a client call that found the session launched does next. -/
inductive ClientCall where
  | writing (bytes : List UInt8)
  | resizingChild (size : Size)
  | resizingScreen (size : Size)

structure DeferredSession where
  deferred : DeferredState
  launcher : Launcher
  child : Option Child
  /-- The geometry of the emulator. -/
  screen : Size
  /-- The client call under way. -/
  call : Option ClientCall

namespace DeferredSession

/-- `HeadlessScreen::resize`. -/
def resizeScreen (session : DeferredSession) (size : Size) : DeferredSession :=
  { session with screen := (max size.1 1, max size.2 1) }

/-- A `write` the Holder carried out. -/
def writeChild (session : DeferredSession) (bytes : List UInt8) : DeferredSession :=
  { session with child := session.child.map fun child => { child with input := child.input ++ bytes } }

/-- A `resize` the Holder carried out. -/
def resizeChild (session : DeferredSession) (size : Size) : DeferredSession :=
  { session with child := session.child.map fun child => { child with size := size } }

/-- The Holder refuses a terminal with fewer than two columns or rows. -/
def holderAdmits (size : Size) : Bool := decide (2 ≤ size.1) && decide (2 ≤ size.2)

/-- What a client has been told `Ok` for. -/
inductive Accepted where
  | nothing
  | input (bytes : List UInt8)
  | size (taken : Size)

/-- The session `spawn_held_deferred` returns, with the estimated size. -/
def new (fallback : Size) : DeferredSession := ⟨.new, .waiting, none, fallback, none⟩

def writeInput (session : DeferredSession) (bytes : List UInt8) : DeferredSession × Accepted :=
  match session.deferred.queueInput bytes with
  | (true, deferred) => ({ session with deferred := deferred }, .input bytes)
  | (false, _) => ({ session with call := some (.writing bytes) }, .nothing)

def resize (session : DeferredSession) (size : Size) : DeferredSession × Accepted :=
  match session.deferred.proposeSize size with
  | (true, deferred) => ({ session with deferred := deferred }, .size size)
  | (false, _) => ({ session with call := some (.resizingChild size) }, .nothing)

/-- The next step of the client call under way.  `answered` tells whether the Holder carried
the request out; if not, the call fails. -/
def clientStep (session : DeferredSession) (answered : Bool) : DeferredSession × Accepted :=
  match session.call with
  | none => (session, .nothing)
  | some (.writing bytes) =>
    let done := { session with call := none }
    if answered then (done.writeChild bytes, .input bytes) else (done, .nothing)
  | some (.resizingChild size) =>
    if answered && holderAdmits size then
      ({ session with call := some (.resizingScreen size) }.resizeChild size, .nothing)
    else ({ session with call := none }, .nothing)
  | some (.resizingScreen size) => ({ session with call := none }.resizeScreen size, .size size)

/-- The next step of the launcher.  `fallback` is the size of the spec; `answered` tells
whether the Holder carried the request out, and the launcher drops that result once there is
a child. -/
def launcherStep (fallback : Size) (session : DeferredSession) (answered : Bool) :
    DeferredSession :=
  match session.launcher with
  | .waiting =>
    match session.deferred.launchSize fallback with
    | none => { session with launcher := .stopped }
    | some chosen => { session with launcher := .sizing chosen }
  | .sizing chosen =>
    { session with launcher := .spawning chosen }.resizeScreen chosen.atLeastTwo
  | .spawning chosen =>
    if answered then
      { session with child := some ⟨[], chosen.atLeastTwo⟩, launcher := .finishing chosen }
    else { session with launcher := .stopped }
  | .finishing chosen =>
    match session.deferred.finishLaunch chosen with
    -- a terminate raced the launch: the child goes with the launcher
    | (none, _) => { session with child := none, launcher := .stopped }
    | (some handoff, deferred) =>
      { session with deferred := deferred, launcher := .flushing handoff }
  | .flushing handoff =>
    let next := { session with launcher := .sizingChild handoff.lateSize }
    if !handoff.queuedInput.isEmpty && answered then next.writeChild handoff.queuedInput
    else next
  | .sizingChild late =>
    let next := { session with launcher := .sizingScreen late }
    match late with
    | none => next
    | some size => if answered then next.resizeChild size.atLeastTwo else next
  | .sizingScreen late =>
    let next := { session with launcher := .pumping }
    match late with
    | none => next
    | some size => next.resizeScreen size.atLeastTwo
  | .pumping => session
  | .stopped => session

/-! ### Runs -/

inductive LaunchEvent where
  /-- `write_input` by a client. -/
  | writeInput (bytes : List UInt8)
  /-- A resize frame or request, whose size the handler takes `.max(2)` of. -/
  | resize (size : Size)
  | client (answered : Bool)
  | launcher (answered : Bool)
  /-- `terminate` before the launch. -/
  | cancel

/-- A client can call only when no other call is under way. -/
def step (fallback : Size) (session : DeferredSession) (event : LaunchEvent) :
    DeferredSession × Accepted :=
  match event with
  | .writeInput bytes =>
    if session.call.isSome then (session, .nothing) else session.writeInput bytes
  | .resize size =>
    if session.call.isSome then (session, .nothing) else session.resize size.atLeastTwo
  | .client answered => session.clientStep answered
  | .launcher answered => (session.launcherStep fallback answered, .nothing)
  | .cancel => ({ session with deferred := session.deferred.cancel.2 }, .nothing)

abbrev LaunchStep := Trace.Step DeferredSession LaunchEvent Accepted

def Accepted.bytes : Accepted → List UInt8
  | .input bytes => bytes
  | _ => []

def Accepted.newSize : Accepted → Option Size
  | .size taken => some taken
  | _ => none

/-- The accepted input, in the order it was accepted. -/
def acceptedInput (history : List LaunchStep) : List UInt8 :=
  history.flatMap fun s => s.outcome.bytes

/-- The size of the last accepted resize. -/
def lastSize (history : List LaunchStep) : Option Size :=
  (history.filterMap fun s => s.outcome.newSize).getLast?

end DeferredSession
end Homie.Engine
