/-
Programs by what they do.

A program asks its surroundings, which know what has been done so far, and acts on them; what it
does is written down in order, also what it does before it fails.  `Within` says that everything a
program does is allowed, and what its answer is like: a rule for each way to build a program, and a
program's footing is that of its parts.
-/
import Mathlib

namespace Homie.Effects

variable {Env Op ε α β : Type}

/-- A program's answer, and all that has been done by then. -/
def Program (Env Op ε α : Type) := Env → List Op → Except ε α × List Op

namespace Program

protected def pure (a : α) : Program Env Op ε α := fun _ done => (.ok a, done)

protected def bind (program : Program Env Op ε α) (next : α → Program Env Op ε β) :
    Program Env Op ε β := fun env done =>
  match program env done with
  | (.ok a, done) => next a env done
  | (.error e, done) => (.error e, done)

instance : Monad (Program Env Op ε) where
  pure := Program.pure
  bind := Program.bind

/-- The program stops. -/
def fail (e : ε) : Program Env Op ε α := fun _ done => (.error e, done)

/-- A calculation that may fail. -/
def lift (result : Except ε α) : Program Env Op ε α := fun _ done => (result, done)

/-- A question to the surroundings. -/
def ask (question : Env → List Op → α) : Program Env Op ε α := fun env done =>
  (.ok (question env done), done)

/-- A question that may fail. -/
def tryAsk (question : Env → List Op → Except ε α) : Program Env Op ε α := fun env done =>
  (question env done, done)

/-- Something is done, or at least begun. -/
def act (outcome : Env → List Op → Op → Except ε Unit) (op : Op) : Program Env Op ε Unit :=
  fun env done => (outcome env done op, done ++ [op])

/-- Something else is done when a program fails; only the failure counts. -/
def onFailure (program : Program Env Op ε α) (cleanup : Program Env Op ε Unit) :
    Program Env Op ε α := fun env done =>
  match program env done with
  | (.ok a, done) => (.ok a, done)
  | (.error e, done) => (.error e, (cleanup env done).2)

end Program

/-- Whatever the surroundings answer, only allowed things are done, and the answer is as stated. -/
def Within (allowed : Op → Prop) (program : Program Env Op ε α) (post : α → Prop) : Prop :=
  ∀ env done, ∃ more, (program env done).2 = done ++ more ∧ (∀ op ∈ more, allowed op) ∧
    ∀ a, (program env done).1 = .ok a → post a

variable {allowed : Op → Prop} {post : α → Prop}

/-- A program that does nothing is within anything. -/
theorem within_of_idle {program : Program Env Op ε α} (hdone : ∀ env done, (program env done).2 = done)
    (h : ∀ env done a, (program env done).1 = .ok a → post a) : Within allowed program post := by
  intro env done
  refine ⟨[], ?_, fun op hop => absurd hop List.not_mem_nil, h env done⟩
  rw [hdone, List.append_nil]

theorem within_pure {a : α} (h : post a) :
    Within allowed (pure a : Program Env Op ε α) post := by
  refine within_of_idle (fun _ _ => rfl) ?_
  intro env done b hb
  exact Except.ok.inj hb ▸ h

theorem within_fail (e : ε) : Within allowed (Program.fail e : Program Env Op ε α) post :=
  within_of_idle (fun _ _ => rfl) fun _ _ _ h => nomatch h

theorem within_lift (result : Except ε α) :
    Within allowed (Program.lift result : Program Env Op ε α) fun a => result = .ok a :=
  within_of_idle (fun _ _ => rfl) fun _ _ _ h => h

theorem within_ask (question : Env → List Op → α) :
    Within allowed (Program.ask question : Program Env Op ε α) fun _ => True :=
  within_of_idle (fun _ _ => rfl) fun _ _ _ _ => trivial

theorem within_tryAsk (question : Env → List Op → Except ε α) :
    Within allowed (Program.tryAsk question) fun _ => True :=
  within_of_idle (fun _ _ => rfl) fun _ _ _ _ => trivial

theorem within_act (outcome : Env → List Op → Op → Except ε Unit) {op : Op} (h : allowed op) :
    Within allowed (Program.act outcome op) fun _ => True := by
  intro env done
  refine ⟨[op], rfl, ?_, fun _ _ => trivial⟩
  intro other hother
  rw [List.mem_singleton.mp hother]
  exact h

/-- One program behind another. -/
theorem Within.bind {program : Program Env Op ε α} {next : α → Program Env Op ε β}
    {post' : β → Prop} (h : Within allowed program post)
    (hnext : ∀ a, post a → Within allowed (next a) post') :
    Within allowed (program >>= next) post' := by
  intro env done
  obtain ⟨more, hdone, hallowed, hpost⟩ := h env done
  show ∃ others, (Program.bind program next env done).2 = done ++ others ∧
    (∀ op ∈ others, allowed op) ∧ ∀ b, (Program.bind program next env done).1 = .ok b → post' b
  unfold Program.bind
  cases hrun : program env done with
  | mk result after =>
    rw [hrun] at hdone hpost
    dsimp only at hdone hpost
    subst hdone
    cases result with
    | error e => exact ⟨more, rfl, hallowed, fun a ha => nomatch ha⟩
    | ok a =>
      obtain ⟨others, hothers, hallowed', hpost'⟩ := hnext a (hpost a rfl) env (done ++ more)
      refine ⟨more ++ others, ?_, ?_, hpost'⟩
      · rw [← List.append_assoc]
        exact hothers
      · intro op hop
        cases List.mem_append.mp hop with
        | inl hmore => exact hallowed op hmore
        | inr hother => exact hallowed' op hother

theorem Within.onFailure {program : Program Env Op ε α} {cleanup : Program Env Op ε Unit}
    {post' : Unit → Prop} (h : Within allowed program post)
    (hcleanup : Within allowed cleanup post') :
    Within allowed (program.onFailure cleanup) post := by
  intro env done
  obtain ⟨more, hdone, hallowed, hpost⟩ := h env done
  unfold Program.onFailure
  cases hrun : program env done with
  | mk result after =>
    rw [hrun] at hdone hpost
    dsimp only at hdone hpost
    subst hdone
    cases result with
    | ok a => exact ⟨more, rfl, hallowed, hpost⟩
    | error e =>
      obtain ⟨others, hothers, hallowed', -⟩ := hcleanup env (done ++ more)
      refine ⟨more ++ others, ?_, ?_, fun a ha => nomatch ha⟩
      · rw [← List.append_assoc]
        exact hothers
      · intro op hop
        cases List.mem_append.mp hop with
        | inl hmore => exact hallowed op hmore
        | inr hother => exact hallowed' op hother

theorem within_ite {condition : Prop} [Decidable condition]
    {program other : Program Env Op ε α} (h : condition → Within allowed program post)
    (h' : ¬ condition → Within allowed other post) :
    Within allowed (if condition then program else other) post := by
  by_cases hcondition : condition
  · rw [if_pos hcondition]
    exact h hcondition
  · rw [if_neg hcondition]
    exact h' hcondition

theorem within_forM (value : Option α) {step : α → Program Env Op ε Unit}
    (h : ∀ a, value = some a → Within allowed (step a) fun _ => True) :
    Within allowed (value.forM step) fun _ => True := by
  cases value with
  | none => exact within_pure trivial
  | some a => exact h a rfl

/-- All that a program does from the beginning is allowed. -/
theorem Within.of_nil {program : Program Env Op ε α} (h : Within allowed program post) (env : Env)
    {op : Op} (hop : op ∈ (program env []).2) : allowed op := by
  obtain ⟨more, hdone, hallowed, -⟩ := h env []
  rw [hdone, List.nil_append] at hop
  exact hallowed op hop

end Homie.Effects
