/-
The status a session shows: `homie-engine/src/session/status.rs`, and the status part of
`pump.rs`.

The reducer sits behind a lock.  A hook, a tick or an exit reduces under it, releases it
and then applies the outcome to the shared state; the pump's output path applies the
outcome of the output signal with the lock held, reduces the screen observation, releases
the lock and applies that outcome after it.

`StatusSystem` has any number of threads doing either.  Its steps are the critical
sections, so a list of steps is one interleaving; the outcomes in flight stand in the
order of their reductions.
-/
import Mathlib
import Homie.Engine.Status

namespace Homie

/-- What the reducer's outcomes are applied to. -/
structure SessionShared where
  status : SessionStatus
  needsInput : Option NeedsInputDetail
  exited : Bool
  stateVersion : Nat
deriving DecidableEq

namespace SessionShared

def new : SessionShared := ⟨.starting, none, false, 0⟩

/-- The status part of `apply`: whether it changed, and the session with it. -/
def applyStatus (shared : SessionShared) : Option SessionStatus → Bool × SessionShared
  | none => (false, shared)
  | some status =>
    let exited := shared.exited || StatusReducer.isExited status
    (shared.status != status, { shared with status := status, exited := exited })

def applyDetail (shared : SessionShared) : Option NeedsInputDetail → Bool × SessionShared
  | none => (false, shared)
  | some detail =>
    (shared.needsInput != some detail, { shared with needsInput := some detail })

/-- Leaving a needs-input state clears the pending detail. -/
def clearDetail (shared : SessionShared) (statusChange : Option SessionStatus) : Bool × SessionShared :=
  if statusChange = some .working ∨ statusChange = some .idle then
    (shared.needsInput.isSome, { shared with needsInput := none })
  else (false, shared)

/-- Applies a reducer outcome, moving the version only when something observable changed. -/
def apply (shared : SessionShared) (outcome : ReducerOutcome) : SessionShared :=
  let (statusMoved, shared) := shared.applyStatus outcome.statusChange
  let (detailMoved, shared) := shared.applyDetail outcome.needsInput
  let (detailCleared, shared) := shared.clearDetail outcome.statusChange
  if statusMoved || detailMoved || detailCleared then
    { shared with stateVersion := shared.stateVersion + 1 }
  else shared

end SessionShared

/-! ### Threads -/

/-- Where a thread stands between its critical sections. -/
inductive StatusPhase where
  | idle
  /-- It has reduced, released the lock, and is about to apply. -/
  | applying
  /-- It has reduced the output signal and applies with the lock held. -/
  | applyingHeld (observation : Option ScreenObservation) (now : SystemTime)
  /-- It still holds the lock and is about to reduce the observation. -/
  | observing (observation : ScreenObservation) (now : SystemTime)

/-- An outcome reduced by a thread and not applied yet. -/
structure InFlight where
  thread : Nat
  outcome : ReducerOutcome

structure StatusSystem where
  reducer : StatusReducer
  /-- The thread that holds the reducer lock between two steps. -/
  lock : Option Nat
  threads : Nat → StatusPhase
  /-- The outcomes not applied yet, in the order they were reduced. -/
  inFlight : List InFlight
  shared : SessionShared

inductive StatusAction where
  /-- `feed_signal`, a tick, an exit, or a screen observation on its own. -/
  | feed (thread : Nat) (signal : StatusSignal) (now : SystemTime)
  /-- The pump read output: it takes the lock and reduces the output signal. -/
  | output (thread : Nat) (observation : Option ScreenObservation) (now : SystemTime)
  /-- The thread applies the outcome it has in flight. -/
  | apply (thread : Nat)
  /-- The pump, still holding the lock, reduces the screen observation and releases it. -/
  | observe (thread : Nat)

namespace StatusSystem

/-- `new_shared`: nothing has happened, in any configuration. -/
def new (authority : Authority) (spawnedAt : SystemTime) (timing : ReducerTiming) : StatusSystem :=
  { reducer := (StatusReducer.new authority spawnedAt).withTiming timing
    lock := none
    threads := fun _ => .idle
    inFlight := []
    shared := .new }

/-- Reduce a signal and leave the outcome in flight. -/
def reduceBy (tools : TextTools) (sys : StatusSystem) (thread : Nat) (signal : StatusSignal)
    (now : SystemTime) : StatusSystem :=
  let reduced := sys.reducer.reduce tools signal now
  { sys with
    reducer := reduced.1
    inFlight := sys.inFlight ++ [⟨thread, reduced.2⟩] }

def setPhase (sys : StatusSystem) (thread : Nat) (phase : StatusPhase) : StatusSystem :=
  { sys with threads := Function.update sys.threads thread phase }

/-- Apply the outcome a thread has in flight. -/
def applyBy (sys : StatusSystem) (thread : Nat) : StatusSystem :=
  match sys.inFlight.find? (·.thread == thread) with
  | none => sys
  | some pending =>
    { sys with
      shared := sys.shared.apply pending.outcome
      inFlight := sys.inFlight.eraseP (·.thread == thread) }

/-- One critical section; a thread that is elsewhere, or kept out by the lock, does nothing. -/
def step (tools : TextTools) (sys : StatusSystem) : StatusAction → StatusSystem × Unit
  | .feed thread signal now =>
    match sys.threads thread, sys.lock with
    | .idle, none => ((sys.reduceBy tools thread signal now).setPhase thread .applying, ())
    | _, _ => (sys, ())
  | .output thread observation now =>
    match sys.threads thread, sys.lock with
    | .idle, none =>
      let sys := sys.reduceBy tools thread .ptyOutputActivity now
      ({ sys.setPhase thread (.applyingHeld observation now) with lock := some thread }, ())
    | _, _ => (sys, ())
  | .apply thread =>
    match sys.threads thread with
    | .applying => ((sys.applyBy thread).setPhase thread .idle, ())
    | .applyingHeld none _ =>
      ({ (sys.applyBy thread).setPhase thread .idle with lock := none }, ())
    | .applyingHeld (some observation) now =>
      ((sys.applyBy thread).setPhase thread (.observing observation now), ())
    | _ => (sys, ())
  | .observe thread =>
    match sys.threads thread with
    | .observing observation now =>
      let sys := sys.reduceBy tools thread (.screen observation) now
      ({ sys.setPhase thread .applying with lock := none }, ())
    | _ => (sys, ())

end StatusSystem

/-! ### One signal at a time -/

/-- `new_shared`, with the status and the detail an adopted session was recorded with. -/
def SessionShared.adopted : Option (SessionStatus × Option NeedsInputDetail) → SessionShared
  | none => .new
  | some (status, needsInput) => { SessionShared.new with status := status, needsInput := needsInput }

/-- A session whose outcomes are each applied before the next signal is reduced. -/
structure FedSession where
  reducer : StatusReducer
  shared : SessionShared

namespace FedSession

def new (authority : Authority) (spawnedAt : SystemTime) (timing : ReducerTiming)
    (initialStatus : Option (SessionStatus × Option NeedsInputDetail)) : FedSession :=
  { reducer := (StatusReducer.new authority spawnedAt).withTiming timing
    shared := .adopted initialStatus }

def step (tools : TextTools) (session : FedSession) (call : ReducerCall) : FedSession × Unit :=
  let reduced := session.reducer.step tools call
  (⟨reduced.1, session.shared.apply reduced.2⟩, ())

end FedSession

end Homie
