/-
Runs of a deterministic machine, with what happened along the way.

`run` is where a list of events leads; `trace` is the list of the steps taken, oldest
first, each with the state before it, the event, what it returned and the state after
it.  An invariant that speaks about the past relates a trace to the state it ends in;
`trace_invariant` is its induction rule, and `trace_split` cuts a trace at any step.

`Since` is the past operator: some step satisfied `p`, and every later one `q`.
-/
import Mathlib

namespace Homie.Trace

variable {σ ε ο : Type}

/-- One step of a machine. -/
structure Step (σ ε ο : Type) where
  before : σ
  event : ε
  outcome : ο
  after : σ

variable (step : σ → ε → σ × ο)

/-- The step a machine takes on `event`. -/
def take (s : σ) (event : ε) : Step σ ε ο :=
  ⟨s, event, (step s event).2, (step s event).1⟩

/-- Where a list of events leads. -/
def run (s : σ) : List ε → σ
  | [] => s
  | event :: events => run (step s event).1 events

/-- The steps taken on a list of events, oldest first. -/
def trace (s : σ) : List ε → List (Step σ ε ο)
  | [] => []
  | event :: events => take step s event :: trace (step s event).1 events

theorem run_append (s : σ) (front back : List ε) :
    run step s (front ++ back) = run step (run step s front) back := by
  induction front generalizing s with
  | nil => rfl
  | cons event front ih => exact ih (step s event).1

theorem run_concat (s : σ) (events : List ε) (event : ε) :
    run step s (events ++ [event]) = (step (run step s events) event).1 :=
  run_append step s events [event]

theorem trace_concat (s : σ) (events : List ε) (event : ε) :
    trace step s (events ++ [event])
      = trace step s events ++ [take step (run step s events) event] := by
  induction events generalizing s with
  | nil => rfl
  | cons first events ih =>
    rw [List.cons_append, trace, trace, ih]
    rfl

theorem trace_append (s : σ) (front back : List ε) :
    trace step s (front ++ back)
      = trace step s front ++ trace step (run step s front) back := by
  induction front generalizing s with
  | nil => rfl
  | cons event front ih => exact congrArg (take step s event :: ·) (ih (step s event).1)

theorem trace_events (s : σ) (events : List ε) :
    (trace step s events).map Step.event = events := by
  induction events generalizing s with
  | nil => rfl
  | cons event events ih => exact congrArg (event :: ·) (ih (step s event).1)

/-- A step of a trace is taken where the events before it lead. -/
theorem before_of_mem_trace {s : σ} {events : List ε} {x : Step σ ε ο}
    (h : x ∈ trace step s events) :
    ∃ k, events[k]? = some x.event ∧ x.before = run step s (events.take k) := by
  induction events generalizing s with
  | nil => exact absurd h List.not_mem_nil
  | cons event events ih =>
    rcases List.mem_cons.mp h with rfl | hrest
    · exact ⟨0, rfl, rfl⟩
    · obtain ⟨k, hevent, hbefore⟩ := ih hrest
      exact ⟨k + 1, hevent, hbefore⟩

/-- What holds of the empty trace and survives one more step holds of every trace. -/
theorem trace_invariant {P : List (Step σ ε ο) → σ → Prop} {s : σ} (hnil : P [] s)
    (hstep : ∀ history s' event, P history s' →
      P (history ++ [take step s' event]) (step s' event).1) (events : List ε) :
    P (trace step s events) (run step s events) := by
  induction events using List.reverseRecOn with
  | nil => exact hnil
  | append_singleton events event ih =>
    rw [trace_concat, run_concat]
    exact hstep _ _ event ih

/-- What every step keeps, a whole run keeps. -/
theorem run_invariant {P : σ → Prop} {s : σ} (hstart : P s)
    (hstep : ∀ s' event, P s' → P (step s' event).1) (events : List ε) : P (run step s events) :=
  trace_invariant step (P := fun _ s' => P s') hstart (fun _ s' event => hstep s' event) events

/-- The same for an invariant that only the steps that meet `C` keep. -/
theorem trace_invariant_where {C : Step σ ε ο → Prop} {P : List (Step σ ε ο) → σ → Prop} {s : σ}
    {events : List ε} (hall : ∀ x ∈ trace step s events, C x) (hnil : P [] s)
    (hstep : ∀ history s' event, C (take step s' event) → P history s' →
      P (history ++ [take step s' event]) (step s' event).1) :
    P (trace step s events) (run step s events) := by
  induction events using List.reverseRecOn with
  | nil => exact hnil
  | append_singleton events event ih =>
    rw [trace_concat] at hall ⊢
    rw [run_concat]
    refine hstep _ _ event (hall _ (by simp)) (ih fun x hx => hall x ?_)
    exact List.mem_append_left _ hx

/-- What every step that meets `C` keeps, a run of such steps keeps. -/
theorem run_invariant_where {C : Step σ ε ο → Prop} {P : σ → Prop} {s : σ} {events : List ε}
    (hall : ∀ x ∈ trace step s events, C x) (hstart : P s)
    (hstep : ∀ s' event, C (take step s' event) → P s' → P (step s' event).1) :
    P (run step s events) :=
  trace_invariant_where step (P := fun _ s' => P s') hall hstart
    (fun _ s' event => hstep s' event)

/-- Where a step keeps `P` exactly when it meets `C`, `P` holds all along a run exactly when
every step of it meets `C`. -/
theorem run_always_iff {C : Step σ ε ο → Prop} {P : σ → Prop} {s : σ} (hstart : P s)
    (hstep : ∀ s' event, P s' → (P (step s' event).1 ↔ C (take step s' event)))
    (events : List ε) :
    (∀ front back, events = front ++ back → P (run step s front)) ↔
      ∀ x ∈ trace step s events, C x := by
  induction events generalizing s with
  | nil =>
    constructor
    · intro _ x hx
      exact absurd hx List.not_mem_nil
    · intro _ front back heq
      rw [(List.append_eq_nil_iff.mp heq.symm).1]
      exact hstart
  | cons event events ih =>
    constructor
    · intro h
      have hnext : P (step s event).1 := h [event] events rfl
      have hrest := (ih hnext).mp fun front back heq =>
        h (event :: front) back (by rw [heq, List.cons_append])
      intro x hx
      rcases List.mem_cons.mp hx with rfl | hx
      · exact (hstep s event hstart).mp hnext
      · exact hrest x hx
    · intro h front back heq
      have hnext : P (step s event).1 :=
        (hstep s event hstart).mpr (h _ List.mem_cons_self)
      cases front with
      | nil => exact hstart
      | cons first front =>
        obtain ⟨rfl, hrest⟩ := List.cons.inj heq
        exact (ih hnext).mpr (fun x hx => h x (List.mem_cons_of_mem _ hx)) front back hrest

/-- Where, as long as every step met `C`, an invariant makes a step good exactly when it meets `C`,
every step of a trace is good exactly when every step meets `C`. -/
theorem trace_good_iff {C : Step σ ε ο → Prop} {G : List (Step σ ε ο) → Step σ ε ο → Prop}
    {P : List (Step σ ε ο) → σ → Prop} {s : σ} (hnil : P [] s)
    (hstep : ∀ history s' event, C (take step s' event) → P history s' →
      P (history ++ [take step s' event]) (step s' event).1)
    (hgood : ∀ history s' event, P history s' →
      (G history (take step s' event) ↔ C (take step s' event))) (events : List ε) :
    (∀ front x back, trace step s events = front ++ x :: back → G front x) ↔
      ∀ x ∈ trace step s events, C x := by
  induction events using List.reverseRecOn with
  | nil =>
    constructor
    · intro _ x hx
      exact absurd hx List.not_mem_nil
    · intro _ front x back heq
      cases front <;> cases heq
  | append_singleton events event ih =>
    rw [trace_concat]
    constructor
    · intro h
      have hearlier := ih.mp fun front x back heq =>
        h front x (back ++ [take step (run step s events) event])
          (by rw [heq, List.append_assoc, List.cons_append])
      have hpast := trace_invariant_where step hearlier hnil hstep
      intro x hx
      rcases List.mem_append.mp hx with hx | hx
      · exact hearlier x hx
      · rw [List.mem_singleton.mp hx]
        exact (hgood _ _ event hpast).mp (h _ _ [] rfl)
    · intro h front x back heq
      have hearlier : ∀ y ∈ trace step s events, C y := by
        intro y hy
        exact h y (List.mem_append_left _ hy)
      have hpast := trace_invariant_where step hearlier hnil hstep
      induction back using List.reverseRecOn with
      | nil =>
        obtain ⟨hfront, hx⟩ := List.append_inj' heq rfl
        rw [← hfront, ← (List.cons.inj hx).1]
        exact (hgood _ _ event hpast).mpr (h _ (List.mem_append_right _ List.mem_cons_self))
      | append_singleton back last _ =>
        rw [← List.cons_append, ← List.append_assoc] at heq
        obtain ⟨hfront, _⟩ := List.append_inj' heq rfl
        exact ih.mpr hearlier front x back hfront

/--
Every step of a trace is the step taken where the trace before it ends, and the trace
after it starts where the step led.
-/
theorem trace_split {s : σ} {events : List ε} {front back : List (Step σ ε ο)}
    {x : Step σ ε ο} (h : trace step s events = front ++ x :: back) :
    ∃ earlier event later, front = trace step s earlier ∧
      x = take step (run step s earlier) event ∧ back = trace step x.after later := by
  induction events generalizing s front with
  | nil =>
    have : (front ++ x :: back).length = 0 := by rw [← h]; rfl
    simp at this
  | cons first events ih =>
    cases front with
    | nil =>
      have hx : take step s first = x := (List.cons.inj h).1
      have hback : trace step (step s first).1 events = back := (List.cons.inj h).2
      refine ⟨[], first, events, rfl, hx.symm, ?_⟩
      rw [← hback, ← hx]
      rfl
    | cons y front =>
      have hy : take step s first = y := (List.cons.inj h).1
      have hrest : trace step (step s first).1 events = front ++ x :: back :=
        (List.cons.inj h).2
      obtain ⟨earlier, event, later, hfront, hx, hback⟩ := ih hrest
      refine ⟨first :: earlier, event, later, ?_, hx, hback⟩
      rw [← hy, hfront]
      rfl

/-! ### Machines that can stop -/

/-- What every step keeps holds at the end of a run that no step stopped. -/
theorem foldlM_invariant {stepM : σ → ε → Option σ} {P : σ → Prop}
    (hstep : ∀ {s s' event}, P s → stepM s event = some s' → P s') {events : List ε} :
    ∀ {s s' : σ}, events.foldlM stepM s = some s' → P s → P s' := by
  induction events with
  | nil =>
    intro s s' h hs
    cases h
    exact hs
  | cons event events ih =>
    intro s s' h hs
    rw [List.foldlM_cons] at h
    obtain ⟨next, hnext, hrest⟩ := Option.bind_eq_some_iff.mp h
    exact ih hrest (hstep hs hnext)

/-! ### Since -/

variable {α : Type}

/-- Some element satisfied `p`, and every one after it `q`. -/
def Since (p q : α → Prop) (history : List α) : Prop :=
  ∃ earlier x later, history = earlier ++ x :: later ∧ p x ∧ ∀ y ∈ later, q y

variable {p q : α → Prop}

theorem since_now {history : List α} {x : α} (hx : p x) : Since p q (history ++ [x]) :=
  ⟨history, x, [], rfl, hx, fun _ hy => absurd hy (List.not_mem_nil)⟩

theorem Since.concat {history : List α} {x : α} (h : Since p q history) (hx : q x) :
    Since p q (history ++ [x]) := by
  obtain ⟨earlier, y, later, rfl, hy, hlater⟩ := h
  refine ⟨earlier, y, later ++ [x], by simp, hy, ?_⟩
  intro z hz
  rcases List.mem_append.mp hz with hz | hz
  · exact hlater z hz
  · rw [List.mem_singleton.mp hz]
    exact hx

theorem Since.of_concat {history : List α} {x : α} (h : Since p q (history ++ [x])) :
    p x ∨ (Since p q history ∧ q x) := by
  obtain ⟨earlier, y, later, heq, hy, hlater⟩ := h
  induction later using List.reverseRecOn with
  | nil =>
    obtain ⟨_, hx⟩ := List.append_inj' heq rfl
    rw [(List.cons.inj hx).1]
    exact Or.inl hy
  | append_singleton later z _ =>
    rw [← List.cons_append, ← List.append_assoc] at heq
    obtain ⟨hhistory, hz⟩ := List.append_inj' heq rfl
    rw [(List.cons.inj hz).1]
    refine Or.inr ⟨⟨earlier, y, later, hhistory, hy, ?_⟩, hlater z (by simp)⟩
    exact fun w hw => hlater w (List.mem_append_left _ hw)

/-- Two pasts exclude each other when the beginning of one is neither the beginning nor a later
step of the other. -/
theorem Since.exclusive {r t : α → Prop} {history : List α} (h : Since p q history)
    (h' : Since r t history) (hrp : ∀ x, r x → ¬p x) (hrq : ∀ x, r x → ¬q x)
    (htp : ∀ x, t x → ¬p x) : False := by
  induction history using List.reverseRecOn with
  | nil =>
    obtain ⟨earlier, x, later, heq, _⟩ := h
    cases earlier <;> cases heq
  | append_singleton history x ih =>
    rcases h.of_concat with hp | ⟨hpast, hq⟩
    · rcases h'.of_concat with hr | ⟨_, ht⟩
      · exact hrp x hr hp
      · exact htp x ht hp
    · rcases h'.of_concat with hr | ⟨hpast', _⟩
      · exact hrq x hr hq
      · exact ih hpast hpast'

end Homie.Trace
