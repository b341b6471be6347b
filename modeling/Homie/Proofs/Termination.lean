/-
What is left of a session whose end has failed.

The session is taken out of the map before it is asked to end, and is dropped with the error.  So
the registry is as before exactly when ending a session that it holds cannot fail (`Ends`), and
after an error there is nothing left to kill under that id.
-/
import Homie.Engine.Termination

namespace Homie.Termination

open Remote (Exit)

/-! ### When a session ends -/

/-- The exit is seen within the grace, or nothing goes wrong until the child is reaped. -/
def PtyAnswers.Ends (answers : PtyAnswers) : Prop :=
  answers.terminates = .ok () ∧
    ((∃ before exit after, answers.polls = before ++ .ok (some exit) :: after ∧
        ∀ poll ∈ before, poll = .ok none) ∨
      (∀ poll ∈ answers.polls, poll = .ok none) ∧ answers.kills = .ok () ∧
        ∃ exit, answers.waits = .ok exit)

def Answers.Ends (answers : Answers) : Transport → Prop
  | .direct => answers.pty.Ends
  | .held => True
  | .remote => answers.kill = .ok () ∨ answers.exited = true

variable {session : Session} {answers : Answers} {registry : Registry} {id : String}

theorem pollExit_none {polls : List (Except IoError (Option Exit))} :
    pollExit polls = .ok none ↔ ∀ poll ∈ polls, poll = .ok none := by
  induction polls with
  | nil => simp [pollExit]
  | cons poll rest ih =>
    rcases poll with e | _ | exit
    · simp [pollExit]
    · simp [pollExit, ih]
    · simp [pollExit]

theorem pollExit_some {polls : List (Except IoError (Option Exit))} :
    (∃ exit, pollExit polls = .ok (some exit)) ↔
      ∃ before exit after, polls = before ++ .ok (some exit) :: after ∧
        ∀ poll ∈ before, poll = .ok none := by
  induction polls with
  | nil => simp [pollExit]
  | cons poll rest ih =>
    constructor
    · rintro ⟨exit, h⟩
      rcases poll with e | _ | seen
      · cases h
      · obtain ⟨before, exit, after, hrest, hbefore⟩ := ih.mp ⟨exit, h⟩
        refine ⟨.ok none :: before, exit, after, by rw [hrest, List.cons_append], ?_⟩
        intro poll hpoll
        rcases List.mem_cons.mp hpoll with rfl | hpoll
        · rfl
        · exact hbefore poll hpoll
      · exact ⟨[], seen, rest, rfl, nofun⟩
    · rintro ⟨before, exit, after, hpolls, hbefore⟩
      cases before with
      | nil =>
        obtain ⟨rfl, rfl⟩ := List.cons.inj hpolls
        exact ⟨exit, rfl⟩
      | cons first before =>
        obtain ⟨rfl, hrest⟩ := List.cons.inj hpolls
        rw [hbefore poll List.mem_cons_self]
        exact ih.mpr ⟨before, exit, after, hrest,
          fun poll hpoll => hbefore poll (List.mem_cons_of_mem _ hpoll)⟩

theorem ptyTerminate_ok {answers : PtyAnswers} :
    (∃ exit, ptyTerminate answers = .ok exit) ↔ answers.Ends := by
  unfold PtyAnswers.Ends
  rw [← pollExit_some, ← pollExit_none]
  unfold ptyTerminate
  cases answers.terminates with
  | error e => simp [bind, Except.bind]
  | ok _ =>
    rcases pollExit answers.polls with e | _ | exit
    · simp [bind, Except.bind]
    · cases answers.kills with
      | error e => simp [bind, Except.bind]
      | ok _ => simp [bind, Except.bind]
    · simp [bind, Except.bind, pure, Except.pure]

theorem Session.terminate_ok :
    (∃ exit, session.terminate answers = .ok exit) ↔
      session.cancels = true ∨ answers.Ends session.transport := by
  unfold Session.terminate
  cases session.cancels with
  | true => simp
  | false =>
    rw [if_neg Bool.false_ne_true]
    cases session.transport with
    | direct => simpa [Answers.Ends] using ptyTerminate_ok
    | held => simp [Answers.Ends]
    | remote =>
      cases hkill : answers.kill with
      | ok _ => simp [Answers.Ends, hkill]
      | error e => cases hexited : answers.exited <;> simp [Answers.Ends, hkill, hexited]

/-! ### What the registry keeps -/

namespace Registry

/-- An error comes from a session of the map, which is no longer there. -/
theorem terminate_error {e : IoError} {left : Registry}
    (h : registry.terminate id answers = (.error e, left)) :
    ∃ session, registry.sessions id = some session ∧ session.terminate answers = .error e ∧
      left = { registry with sessions := Function.update registry.sessions id none } := by
  unfold terminate at h
  cases hsession : registry.sessions id with
  | none =>
    rw [hsession] at h
    cases h
  | some session =>
    rw [hsession] at h
    cases hterminate : session.terminate answers with
    | error f =>
      simp only [hterminate] at h
      obtain ⟨hf, hleft⟩ := Prod.mk.inj h
      obtain rfl := Except.error.inj hf
      exact ⟨session, rfl, hterminate, hleft.symm⟩
    | ok exit =>
      simp only [hterminate] at h
      cases h

theorem terminate_of_error {e : IoError} (hsession : registry.sessions id = some session)
    (hterminate : session.terminate answers = .error e) :
    registry.terminate id answers =
      (.error e, { registry with sessions := Function.update registry.sessions id none }) := by
  simp only [terminate, hsession, hterminate]

/-- **A failed termination leaves the registry alone exactly when there is none.**  The session is
out of the map by then, so the sessions and records are as before only where a session that the
map holds is sure to end. -/
theorem terminate_atomic_iff (registry : Registry) (id : String) (answers : Answers) :
    (∀ e left, registry.terminate id answers = (.error e, left) → left = registry) ↔
      ∀ session, registry.sessions id = some session →
        session.cancels = true ∨ answers.Ends session.transport := by
  constructor
  · intro h session hsession
    rw [← Session.terminate_ok]
    cases hterminate : session.terminate answers with
    | ok exit => exact ⟨exit, rfl⟩
    | error e =>
      have hleft := h e _ (terminate_of_error hsession hterminate)
      have hgone : Function.update registry.sessions id none id = registry.sessions id :=
        congrFun (congrArg Registry.sessions hleft) id
      rw [Function.update_self, hsession] at hgone
      cases hgone
  · intro h e left herror
    obtain ⟨session, hsession, hterminate, -⟩ := terminate_error herror
    obtain ⟨exit, hexit⟩ := Session.terminate_ok.mpr (h session hsession)
    rw [hterminate] at hexit
    cases hexit

/-- A remote session at work. -/
def remoteSession : Session :=
  ⟨⟨⟨⟨.working, none, false, 1⟩, none, none, "claude-code", 0⟩, false⟩, .remote, none⟩

def remoteRecord : Hibernation.SessionRecord :=
  ⟨⟨"claude-code", "/work", "claude-code", .placeholder, .working, none, 0⟩, some "box", none⟩

def connected : Registry :=
  ⟨Function.update (fun _ => none) "s1" (some remoteSession),
    Function.update (fun _ => none) "s1" (some remoteRecord)⟩

/-- The host is not to be reached. -/
def unreachable : Answers :=
  ⟨⟨.ok (), [], .ok (), .ok (.signal sigkill)⟩, .error .other, false, none⟩

def reachable : Answers := { unreachable with kill := .ok () }

/-- The kill of a running remote session fails, and the session is gone from the map; killing it
again, now that the host is back, finds nothing. -/
theorem failed_kill_forgets :
    (connected.sessions "s1").isSome = true ∧
      (connected.terminate "s1" unreachable).1 = .error .other ∧
      (connected.terminate "s1" unreachable).2 ≠ connected ∧
      ((connected.terminate "s1" unreachable).2.sessions "s1").isSome = false ∧
      (sessionKill (sessionKill connected "s1" unreachable).2 "s1" reachable).1
        = .notFound "s1" := by
  refine ⟨rfl, rfl, ?_, rfl, rfl⟩
  intro heq
  have hgone := congrArg (fun registry : Registry => (registry.sessions "s1").isSome) heq
  exact Bool.noConfusion (hgone : false = true)

end Registry

/-! ### Killing again -/

end Homie.Termination
