/-
Ending a session: `Registry::terminate` of `homie-engine/src/registry.rs`, `Session::terminate` of
`homie-engine/src/session/lifecycle.rs`, `terminate` of `homie-pty/src/unix.rs`, and the
`session_kill` that calls them (`homie-engine/src/control/handlers/session.rs`).

Whether a session can be ended is up to its transport.  What the transport answers is an
argument, in the order in which it is asked; answers that are not looked at (to the signal of a
remote session, to the `kill_tree` of a held one) are left out.  A session that goes out of the
map is dropped, which the registry does not see.
-/
import Homie.Engine.DeferredLaunch
import Homie.Engine.Hibernation
import Homie.Lib.Fallible

namespace Homie.Termination

open Remote (Exit)

/-! ### One session -/

inductive Transport where
  | direct
  | held
  | remote
deriving DecidableEq, Repr

structure Session extends Hibernation.Session where
  transport : Transport
  deferred : Option Engine.DeferredState

/-- What the process group of a direct session answers. -/
structure PtyAnswers where
  /-- `kill_group(SIGTERM)`. -/
  terminates : Except IoError Unit
  /-- `try_wait`, every 20 ms until the grace is over. -/
  polls : List (Except IoError (Option Exit))
  /-- `kill_group(SIGKILL)`. -/
  kills : Except IoError Unit
  waits : Except IoError Exit

structure Answers where
  pty : PtyAnswers
  /-- `client.kill()` of a remote session. -/
  kill : Except IoError Unit
  /-- The session is known to have exited when the kill has failed. -/
  exited : Bool
  /-- The exit the pump has recorded by the end. -/
  exit : Option Exit

def sigkill : Int32 := 9

/-- The loop of `terminate` that waits for an exit within the grace. -/
def pollExit : List (Except IoError (Option Exit)) → Except IoError (Option Exit)
  | [] => .ok none
  | .error e :: _ => .error e
  | .ok (some exit) :: _ => .ok (some exit)
  | .ok none :: rest => pollExit rest

/-- `terminate` of a PTY process. -/
def ptyTerminate (answers : PtyAnswers) : Except IoError Exit := do
  answers.terminates
  match ← pollExit answers.polls with
  | some exit => pure exit
  | none =>
    answers.kills
    answers.waits

/-- There is no child yet: the deferred start is called off. -/
def Session.cancels (session : Session) : Bool :=
  session.deferred.any fun deferred => deferred.cancel.1

def Session.terminate (session : Session) (answers : Answers) : Except IoError Exit :=
  if session.cancels then .ok (.signal sigkill)
  else
    let recorded := answers.exit.getD (.signal sigkill)
    match session.transport with
    | .direct => ptyTerminate answers.pty
    -- the holder escalates by itself
    | .held => .ok recorded
    | .remote =>
      match answers.kill with
      | .ok () => .ok recorded
      | .error e => if answers.exited then .ok recorded else .error e

/-! ### The registry -/

structure Registry where
  sessions : String → Option Session
  records : String → Option Hibernation.SessionRecord

namespace Registry

/-- The session leaves the map before it is asked to end. -/
def terminate (registry : Registry) (id : String) (answers : Answers) :
    Except IoError (Option Exit) × Registry :=
  match registry.sessions id with
  | none => (.ok none, registry)
  | some session =>
    let registry := { registry with sessions := Function.update registry.sessions id none }
    match session.terminate answers with
    | .error e => (.error e, registry)
    | .ok exit =>
      let record := (registry.records id).map fun record =>
        { record with status := .exited (Watch.Registry.exitInfo exit) }
      (.ok (some exit), { registry with records := Function.update registry.records id record })

end Registry

inductive KillReply where
  | done
  | notFound (id : String)
  | internal (error : IoError)
deriving DecidableEq, Repr

/-- `session_kill`, as far as the registry goes. -/
def sessionKill (registry : Registry) (id : String) (answers : Answers) : KillReply × Registry :=
  match registry.terminate id answers with
  | (.error e, registry) => (.internal e, registry)
  | (.ok none, registry) => (.notFound id, registry)
  | (.ok (some _), registry) => (.done, registry)

end Homie.Termination
