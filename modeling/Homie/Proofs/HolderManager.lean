/-
What the manager of the holders promises.

It leaves its accept loop over no live session, provided that the watchdog stops the listener when
nothing is active and no launch is past its look at the flag.  And a launch that it answers with
success has a holder, provided that the launch does not meet a thread that winds down, or one that
starts for another spec; one that it answers with an error has changed nothing, provided that the
thread could be spawned.
-/
import Homie.Engine.HolderManager

namespace Homie.HolderManager

open Trace Manager

variable {paths : HolderPaths} {idleTimeout : Nat}

abbrev Taken := Step Manager Event (Option Answer)

/-! ### What the other threads leave alone -/

section Frames

variable (manager : Manager)

theorem watch_loop : (manager.watch idleTimeout).loop = manager.loop := by
  unfold watch
  split <;> (try split) <;> rfl

theorem watch_active : (manager.watch idleTimeout).active = manager.active := by
  unfold watch
  split <;> (try split) <;> rfl

theorem watch_threads : (manager.watch idleTimeout).threads = manager.threads := by
  unfold watch
  split <;> (try split) <;> rfl

theorem watch_shuttingDown : (manager.watch idleTimeout).shuttingDown = true ↔
    manager.shuttingDown = true ∨ manager.watchdog = .stopping := by
  unfold watch
  cases hphase : manager.watchdog <;> simp
  split <;> simp_all

theorem holderStep_loop (id : String) (step : HolderStep) :
    (manager.holderStep id step).loop = manager.loop := by
  unfold holderStep
  split
  · rfl
  · split <;> rfl

theorem holderStep_shuttingDown (id : String) (step : HolderStep) :
    (manager.holderStep id step).shuttingDown = manager.shuttingDown := by
  unfold holderStep
  split
  · rfl
  · split <;> rfl

/-- A holder takes at most itself out of `active`, and then its thread is gone. -/
theorem holderStep_cases (id : String) (step : HolderStep) :
    ((manager.holderStep id step).active = manager.active ∧
      ∀ other, ((manager.holderStep id step).threads other).isSome =
        (manager.threads other).isSome) ∨
    (manager.threads id ≠ none ∧
      (manager.holderStep id step).active = manager.active.erase id ∧
      ∀ other, (manager.holderStep id step).threads other =
        if other = id then none else manager.threads other) := by
  unfold holderStep
  cases hthread : manager.threads id with
  | none => exact Or.inl ⟨rfl, fun _ => rfl⟩
  | some holder =>
    have hset : ∀ next : Holder, ∀ other,
        ((manager.setThread id (some next)).threads other).isSome =
          (manager.threads other).isSome := by
      intro next other
      by_cases heq : other = id
      · simp [setThread, heq, hthread]
      · simp [setThread, heq]
    dsimp only
    split
    · exact Or.inr ⟨nofun, rfl, fun _ => rfl⟩
    · exact Or.inl ⟨rfl, fun _ => rfl⟩
    · exact Or.inl ⟨rfl, hset _⟩
    · exact Or.inl ⟨rfl, hset _⟩
    · exact Or.inl ⟨rfl, hset _⟩
    · exact Or.inl ⟨rfl, hset _⟩
    · exact Or.inl ⟨rfl, fun _ => rfl⟩

theorem handle_keeps (request : Request) :
    (manager.handle paths request).1.active = manager.active ∧
      (manager.handle paths request).1.threads = manager.threads ∧
      (manager.handle paths request).1.shuttingDown = manager.shuttingDown ∧
      (manager.handle paths request).1.idleSince.isSome = manager.idleSince.isSome := by
  unfold handle
  split
  · exact ⟨rfl, rfl, rfl, rfl⟩
  · split
    · exact ⟨rfl, rfl, rfl, by simp [answer]⟩
    · split
      · exact ⟨rfl, rfl, rfl, rfl⟩
      · split <;> exact ⟨rfl, rfl, rfl, rfl⟩
    · exact ⟨rfl, rfl, rfl, rfl⟩

theorem handle_loop (request : Request) :
    (manager.handle paths request).1.loop = .accepting ∨
      (∃ spec, (manager.handle paths request).1.loop = .launching spec .probing) ∨
      (manager.handle paths request).1.loop = .checkingActive := by
  unfold handle
  split
  · exact Or.inl rfl
  · split
    · exact Or.inl rfl
    · split
      · exact Or.inl rfl
      · next spec _ =>
          split
          · exact Or.inl rfl
          · exact Or.inr (Or.inl ⟨spec, rfl⟩)
    · exact Or.inr (Or.inr rfl)

end Frames

/-! ### Threads and ids -/

variable {manager : Manager}

/-- The id of every thread is active, and so is one whose thread is about to be spawned. -/
structure Known (manager : Manager) : Prop where
  thread : ∀ id, manager.threads id ≠ none → id ∈ manager.active
  spawning : ∀ spec, manager.loop = .launching spec .spawning →
    spec.sessionId ∈ manager.active ∧ manager.threads spec.sessionId = none

theorem Known.frame {after : Manager} (h : Known manager)
    (hloop : ∀ spec, after.loop = .launching spec .spawning →
      manager.loop = .launching spec .spawning)
    (hactive : after.active = manager.active) (hthreads : after.threads = manager.threads) :
    Known after where
  thread id hid := by
    rw [hthreads] at hid
    rw [hactive]
    exact h.thread id hid
  spawning spec hspec := by
    rw [hactive, hthreads]
    exact h.spawning spec (hloop spec hspec)

theorem Known.launch (h : Known manager) {spec : HolderLaunchSpec} {phase : LaunchPhase}
    (hloop : manager.loop = .launching spec phase) (holder : Option String) (spawned : Bool) :
    Known (manager.launch paths spec holder spawned phase).1 := by
  cases phase with
  | probing =>
    simp only [Manager.launch]
    split
    · exact h.frame (fun _ => nofun) rfl rfl
    · exact h.frame (fun _ => nofun) rfl rfl
  | checkingFlag =>
    simp only [Manager.launch]
    split
    · exact h.frame (fun _ => nofun) rfl rfl
    · exact h.frame (fun _ => nofun) rfl rfl
  | inserting =>
    simp only [Manager.launch]
    split
    · exact h.frame (fun _ => nofun) rfl rfl
    · next hnew =>
      refine ⟨fun id hid => Finset.mem_insert_of_mem (h.thread id hid), ?_⟩
      intro spec' hspec
      cases hspec
      refine ⟨Finset.mem_insert_self _ _, ?_⟩
      by_contra hthread
      exact hnew (h.thread _ hthread)
  | spawning =>
    obtain ⟨hin, _⟩ := h.spawning spec hloop
    simp only [Manager.launch]
    split
    · refine ⟨?_, fun _ => nofun⟩
      intro id hid
      by_cases heq : id = spec.sessionId
      · rw [heq]
        exact hin
      · refine h.thread id ?_
        simpa [answerLaunch, Manager.answer, setThread, heq] using hid
    · exact h.frame (fun _ => nofun) rfl rfl

theorem Known.holderStep (h : Known manager) (id : String) (step : HolderStep) :
    Known (manager.holderStep id step) := by
  have hloop := holderStep_loop manager id step
  rcases holderStep_cases manager id step with ⟨hactive, hthreads⟩ | ⟨hlive, hactive, hthreads⟩
  · refine ⟨?_, ?_⟩
    · intro other hother
      rw [hactive]
      refine h.thread other ?_
      rw [← Option.isSome_iff_ne_none] at hother ⊢
      rw [← hthreads]
      exact hother
    · intro spec hspec
      rw [hloop] at hspec
      obtain ⟨hin, hnone⟩ := h.spawning spec hspec
      have hthread := hthreads spec.sessionId
      rw [hnone, Option.isSome_none, Option.isSome_eq_false_iff, Option.isNone_iff_eq_none]
        at hthread
      rw [hactive]
      exact ⟨hin, hthread⟩
  · refine ⟨?_, ?_⟩
    · intro other hother
      rw [hthreads] at hother
      rw [hactive]
      split at hother
      · exact absurd rfl hother
      · next hne => exact Finset.mem_erase.mpr ⟨hne, h.thread other hother⟩
    · intro spec hspec
      rw [hloop] at hspec
      obtain ⟨hin, hnone⟩ := h.spawning spec hspec
      have hne : spec.sessionId ≠ id := by
        intro heq
        rw [heq] at hnone
        exact hlive hnone
      rw [hactive, hthreads, if_neg hne]
      exact ⟨Finset.mem_erase.mpr ⟨hne, hin⟩, hnone⟩

theorem Known.step (h : Known manager) (event : Event) :
    Known (Manager.step paths idleTimeout manager event).1 := by
  cases event with
  | tick elapsed => exact h.frame (fun _ hspec => hspec) rfl rfl
  | outside serving => exact h.frame (fun _ hspec => hspec) rfl rfl
  | accepted request =>
    unfold Manager.step
    dsimp only
    split
    · cases request with
      | none => exact h
      | some request =>
        obtain ⟨hactive, hthreads, _⟩ := @handle_keeps paths manager request
        refine h.frame ?_ hactive hthreads
        intro spec hspec
        rcases @handle_loop paths manager request with hloop | ⟨_, hloop⟩ | hloop
        all_goals
          rw [hloop] at hspec
          cases hspec
    · exact h
  | acceptFailed =>
    unfold Manager.step Manager.acceptFailed
    dsimp only
    split
    · split
      · exact h.frame (fun _ => nofun) rfl rfl
      · exact h.frame (fun _ => nofun) rfl rfl
    · exact h
  | loop holder spawned =>
    unfold Manager.step loopStep
    dsimp only
    split
    · next hloop => exact h.launch hloop holder spawned
    · split
      · exact h.frame (fun _ => nofun) rfl rfl
      · exact h.frame (fun _ => nofun) rfl rfl
    · split
      · exact h.frame (fun _ => nofun) rfl rfl
      · exact h.frame (fun _ => nofun) rfl rfl
    · exact h.frame (fun _ => nofun) rfl rfl
    · exact h
    · exact h
    · exact h
  | watchdog =>
    refine h.frame ?_ (watch_active manager) (watch_threads manager)
    intro spec hspec
    exact (watch_loop manager).symm.trans hspec
  | holder id step => exact h.holderStep id step

theorem known_start (now : Nat) : Known (start now) where
  thread _ h := absurd rfl h
  spawning _ h := nomatch h

/-! ### Leaving the loop -/

/-- Once the flag is set, nothing is active and no launch is past its look at the flag. -/
structure Settled (manager : Manager) : Prop where
  stopped : manager.shuttingDown = true →
    manager.active = ∅ ∧ ∀ spec, manager.loop ≠ .launching spec .inserting
  stopping : manager.loop = .stopping → manager.active = ∅
  left : manager.loop = .left → manager.shuttingDown = true

/-- If the watchdog stops the listener on this step, nothing is active and no launch is past its
look at the flag. -/
def StopsQuietly (x : Taken) : Prop :=
  x.event = .watchdog → x.before.watchdog = .stopping → x.before.shuttingDown = false →
    x.before.active = ∅ ∧ ∀ spec, x.before.loop ≠ .launching spec .inserting

theorem settled_start (now : Nat) : Settled (start now) where
  stopped h := nomatch h
  stopping h := nomatch h
  left h := nomatch h

theorem Settled.frame {after : Manager} (h : Settled manager) (hloop : after.loop = manager.loop)
    (hactive : manager.active = ∅ → after.active = ∅)
    (hflag : after.shuttingDown = manager.shuttingDown) : Settled after where
  stopped hstop := by
    rw [hflag] at hstop
    rw [hloop]
    exact ⟨hactive (h.stopped hstop).1, (h.stopped hstop).2⟩
  stopping hstop := by
    rw [hloop] at hstop
    exact hactive (h.stopping hstop)
  left hleft := by
    rw [hloop] at hleft
    rw [hflag]
    exact h.left hleft

theorem Settled.move {after : Manager} (h : Settled manager)
    (hactive : after.active = manager.active)
    (hflag : after.shuttingDown = manager.shuttingDown)
    (hinserting : ∀ spec, after.loop ≠ .launching spec .inserting)
    (hstopping : after.loop ≠ .stopping) (hleft : after.loop ≠ .left) : Settled after where
  stopped hstop := by
    rw [hflag] at hstop
    rw [hactive]
    exact ⟨(h.stopped hstop).1, hinserting⟩
  stopping hstop := absurd hstop hstopping
  left hl := absurd hl hleft

theorem Settled.answer (h : Settled manager) (request : Request)
    (result : Except HolderError Unit) : Settled (manager.answer request result).1 :=
  h.move rfl rfl (fun _ => nofun) nofun nofun

theorem Settled.launch (h : Settled manager) (hknown : Known manager) {spec : HolderLaunchSpec}
    {phase : LaunchPhase} (hloop : manager.loop = .launching spec phase) (holder : Option String)
    (spawned : Bool) : Settled (manager.launch paths spec holder spawned phase).1 := by
  cases phase with
  | probing =>
    simp only [Manager.launch]
    split
    · exact h.answer _ _
    · exact h.move rfl rfl (fun _ => nofun) nofun nofun
  | checkingFlag =>
    simp only [Manager.launch]
    split
    · exact h.answer _ _
    · next hflag => exact ⟨fun hstop => absurd hstop hflag, nofun, nofun⟩
  | inserting =>
    simp only [Manager.launch]
    split
    · exact h.answer _ _
    · exact ⟨fun hstop => absurd hloop ((h.stopped hstop).2 spec), nofun, nofun⟩
  | spawning =>
    simp only [Manager.launch]
    split
    · -- with the flag set nothing would be active, but this id is
      refine ⟨?_, nofun, nofun⟩
      intro hstop
      have hin := (hknown.spawning spec hloop).1
      rw [(h.stopped hstop).1] at hin
      exact absurd hin (Finset.notMem_empty _)
    · exact h.answer _ _

theorem Settled.loopStep (h : Settled manager) (hknown : Known manager) (holder : Option String)
    (spawned : Bool) : Settled (manager.loopStep paths holder spawned).1 := by
  unfold Manager.loopStep
  split
  · next spec phase hloop => exact h.launch hknown hloop holder spawned
  · split
    · exact h.answer _ _
    · next hempty =>
        rw [Finset.not_nonempty_iff_eq_empty] at hempty
        exact ⟨fun _ => ⟨hempty, fun _ => nofun⟩, fun _ => hempty, nofun⟩
  · next hloop =>
      split
      · exact h.answer _ _
      · exact ⟨fun _ => ⟨h.stopping hloop, fun _ => nofun⟩, nofun, nofun⟩
  · exact h.move rfl rfl (fun _ => nofun) nofun nofun
  · exact h
  · exact h
  · exact h

theorem Settled.watch (h : Settled manager)
    (hquiet : manager.watchdog = .stopping → manager.shuttingDown = false →
      manager.active = ∅ ∧ ∀ spec, manager.loop ≠ .launching spec .inserting) :
    Settled (manager.watch idleTimeout) := by
  have hflag := @watch_shuttingDown idleTimeout manager
  have hloop := @watch_loop idleTimeout manager
  have hactive := @watch_active idleTimeout manager
  by_cases hold : manager.shuttingDown = (manager.watch idleTimeout).shuttingDown
  · exact h.frame hloop (fun hempty => hactive.trans hempty) hold.symm
  · -- this step sets the flag
    have hshut : manager.shuttingDown = false := by
      by_contra htrue
      rw [Bool.not_eq_false] at htrue
      exact hold (htrue.trans (hflag.mpr (Or.inl htrue)).symm)
    have hset : (manager.watch idleTimeout).shuttingDown = true := by
      by_contra hfalse
      rw [Bool.not_eq_true] at hfalse
      exact hold (hshut.trans hfalse.symm)
    have hphase : manager.watchdog = .stopping := by
      rcases hflag.mp hset with htrue | hphase
      · rw [hshut] at htrue
        cases htrue
      · exact hphase
    obtain ⟨hempty, hinserting⟩ := hquiet hphase hshut
    exact ⟨fun _ => ⟨hactive.trans hempty, fun spec hspec =>
      hinserting spec (hloop.symm.trans hspec)⟩, fun _ => hactive.trans hempty, fun _ => hset⟩

theorem Settled.step (h : Settled manager) (hknown : Known manager) (event : Event)
    (hquiet : StopsQuietly (take (Manager.step paths idleTimeout) manager event)) :
    Settled (Manager.step paths idleTimeout manager event).1 := by
  cases event with
  | tick elapsed => exact h.frame rfl id rfl
  | outside serving => exact h.frame rfl id rfl
  | accepted request =>
    unfold Manager.step
    dsimp only
    split
    · cases request with
      | none => exact h
      | some request =>
        obtain ⟨hactive, _, hflag, _⟩ := @handle_keeps paths manager request
        rcases @handle_loop paths manager request with hloop | ⟨_, hloop⟩ | hloop
        all_goals
          exact h.move hactive hflag (by simp [hloop]) (by simp [hloop]) (by simp [hloop])
    · exact h
  | acceptFailed =>
    unfold Manager.step Manager.acceptFailed
    dsimp only
    split
    · split
      · next hflag =>
          exact ⟨fun _ => ⟨(h.stopped hflag).1, fun _ => nofun⟩, nofun, fun _ => hflag⟩
      · exact h.move rfl rfl (fun _ => nofun) nofun nofun
    · exact h
  | loop holder spawned => exact h.loopStep hknown holder spawned
  | watchdog => exact h.watch fun hphase hshut => hquiet rfl hphase hshut
  | holder id step =>
    refine h.frame (holderStep_loop manager id step) ?_ (holderStep_shuttingDown manager id step)
    intro hempty
    change (manager.holderStep id step).active = ∅
    rcases holderStep_cases manager id step with ⟨hactive, _⟩ | ⟨_, hactive, _⟩
    · rw [hactive, hempty]
    · rw [hactive, hempty, Finset.erase_empty]

/-- **The manager does not exit over a live session.**  In a run in which the watchdog stops the
listener only when nothing is active and no launch is past its look at the flag, the accept loop
ends without an error only when nothing is active and no holder thread is running. -/
theorem leaves_over_no_session (paths : HolderPaths) (idleTimeout now : Nat)
    (events : List Event)
    (hquiet : ∀ x ∈ trace (Manager.step paths idleTimeout) (start now) events, StopsQuietly x)
    (hleft : (run (Manager.step paths idleTimeout) (start now) events).loop = .left) :
    (run (Manager.step paths idleTimeout) (start now) events).active = ∅ ∧
      ∀ id, (run (Manager.step paths idleTimeout) (start now) events).threads id = none := by
  obtain ⟨hknown, hsettled⟩ := run_invariant_where (P := fun m => Known m ∧ Settled m) _ hquiet
    ⟨known_start now, settled_start now⟩
    fun _ event hevent h => ⟨h.1.step event, h.2.step h.1 event hevent⟩
  have hempty := (hsettled.stopped (hsettled.left hleft)).1
  refine ⟨hempty, fun id => ?_⟩
  by_contra hthread
  exact absurd (hknown.thread id hthread) (by simp [hempty])

/-- A directory in which an id is its own socket path. -/
def plainPaths : HolderPaths := ⟨id, id, fun a b => a == b, id⟩

def plainSpec : HolderLaunchSpec := ⟨"s", "s", "s", "log", ["sh"], "/", [], 80, 24, 0⟩

def plainLaunch : Event := .accepted (some ⟨managerProtocolVersion, .launch, some plainSpec⟩)

/-- An idle manager leaves after its grace period. -/
theorem leaves_over_no_session_idle :
    let events := [.tick 10, .watchdog, .watchdog, .watchdog, .watchdog, .acceptFailed]
    (run (Manager.step plainPaths 10) (start 0) events).active = ∅ ∧
      ∀ id, (run (Manager.step plainPaths 10) (start 0) events).threads id = none := by
  refine leaves_over_no_session plainPaths 10 0 _ ?_ rfl
  intro x hx hevent hphase hflag
  simp only [trace, List.mem_cons, List.not_mem_nil, or_false] at hx
  rcases hx with rfl | rfl | rfl | rfl | rfl | rfl
  · cases hevent
  · cases hphase
  · cases hphase
  · exact ⟨rfl, by rintro _ ⟨⟩⟩
  · cases hphase
  · cases hevent

/-- The watchdog has seen an idle manager, and a launch comes before it stops the listener. -/
theorem leaves_over_a_session :
    let events := [.tick 10, .watchdog, .watchdog, plainLaunch, .loop none true, .loop none true,
      .loop none true, .loop none true, .watchdog, .watchdog, .acceptFailed]
    let manager := run (Manager.step plainPaths 10) (start 0) events
    manager.loop = .left ∧ "s" ∈ manager.active ∧
      manager.threads "s" = some ⟨plainSpec, .starting⟩ := by
  decide

/-! ### Answering a launch -/

/-- A holder serves the session, or a thread has been started that runs for this very spec. -/
def Held (manager : Manager) (spec : HolderLaunchSpec) : Prop :=
  manager.serving spec.sessionId = true ∨
    manager.threads spec.sessionId = some ⟨spec, .starting⟩

/-- The step takes a request from the listener. -/
def Takes (x : Taken) : Prop :=
  (∃ request, x.event = .accepted request) ∧ x.before.loop = .accepting ∧
    x.before.listening = true

/-- If the step is one of the accept loop, it leaves `active` and the idle mark as they are. -/
def Keeps (x : Taken) : Prop :=
  ((∃ request, x.event = .accepted request) ∨ ∃ holder spawned, x.event = .loop holder spawned) →
    x.after.active = x.before.active ∧ x.after.idleSince.isSome = x.before.idleSince.isSome

/-- A launch that this step answers with success has a holder; since one that it answers with an
error was taken, the loop has left `active` and the idle mark as they were. -/
def AnswersWell (history : List Taken) (x : Taken) : Prop :=
  ∀ request result, x.outcome = some ⟨some request, result⟩ → request.op = .launch →
    match result with
    | .ok () => ∃ spec, request.spec = some spec ∧ Held x.after spec
    | .error _ => Since (fun y => Takes y ∧ Keeps y) Keeps (history ++ [x])

/-- A clean step of a launch: when something answers on the socket, or a thread is there when the id
is inserted, this session is served or starts for this spec; and the thread can be spawned. -/
def CleanStep (paths : HolderPaths) (manager : Manager) (spec : HolderLaunchSpec)
    (holder : Option String) (spawned : Bool) : LaunchPhase → Prop
  | .probing => manager.isAlive paths spec holder = true → Held manager spec
  | .checkingFlag => True
  | .inserting => manager.threads spec.sessionId ≠ none → Held manager spec
  | .spawning => spawned = true

/-- If the step is one of a launch, it is a clean one. -/
def LaunchesCleanly (paths : HolderPaths) (x : Taken) : Prop :=
  ∀ holder spawned spec phase, x.event = .loop holder spawned →
    x.before.loop = .launching spec phase →
      CleanStep paths x.before spec holder spawned phase

/-- Every active id has a thread, or is about to get one. -/
def Occupied (manager : Manager) : Prop :=
  ∀ id ∈ manager.active, manager.threads id ≠ none ∨
    ∃ spec, manager.loop = .launching spec .spawning ∧ spec.sessionId = id

/-- What the history says about the launch in progress. -/
structure Underway (history : List Taken) (manager : Manager) : Prop where
  before : ∀ spec phase, manager.loop = .launching spec phase → phase ≠ .spawning →
    Since (fun y => Takes y ∧ Keeps y) Keeps history
  after : ∀ spec, manager.loop = .launching spec .spawning →
    Since (fun y => ¬Keeps y) (fun y => ¬Takes y) history

theorem underway_start (now : Nat) : Underway [] (start now) where
  before _ _ h := nomatch h
  after _ h := nomatch h

theorem keeps_of_same {x : Taken} (hactive : x.after.active = x.before.active)
    (hidle : x.after.idleSince.isSome = x.before.idleSince.isSome) : Keeps x :=
  fun _ => ⟨hactive, hidle⟩

theorem Underway.stay {history : List Taken} {x : Taken} (h : Underway history x.before)
    (hloop : x.after.loop = x.before.loop) (hkeeps : Keeps x) (htakes : ¬Takes x) :
    Underway (history ++ [x]) x.after where
  before spec phase hspec hphase := by
    rw [hloop] at hspec
    exact (h.before spec phase hspec hphase).concat hkeeps
  after spec hspec := by
    rw [hloop] at hspec
    exact (h.after spec hspec).concat htakes

/-- A step after which no launch is in progress. -/
theorem Underway.clear {history : List Taken} {after : Manager}
    (hloop : ∀ spec phase, after.loop ≠ .launching spec phase) : Underway history after where
  before spec phase hspec := absurd hspec (hloop spec phase)
  after spec hspec := absurd hspec (hloop spec .spawning)

theorem Underway.launch {history : List Taken} (h : Underway history manager)
    {holder : Option String} {spawned : Bool} {spec : HolderLaunchSpec} {phase : LaunchPhase}
    (hloop : manager.loop = .launching spec phase) :
    Underway (history ++ [take (Manager.step paths idleTimeout) manager (.loop holder spawned)])
      (manager.launch paths spec holder spawned phase).1 := by
  have hstep : (Manager.step paths idleTimeout manager (.loop holder spawned)).1 =
      (manager.launch paths spec holder spawned phase).1 := by
    simp only [Manager.step, loopStep, hloop]
  have htakes : ¬Takes (take (Manager.step paths idleTimeout) manager (.loop holder spawned)) := by
    intro ⟨_, haccepting, _⟩
    rw [show manager.loop = .accepting from haccepting] at hloop
    cases hloop
  cases phase with
  | probing =>
    simp only [Manager.launch] at hstep ⊢
    split at hstep
    · next halive =>
        rw [if_pos halive]
        exact Underway.clear fun _ _ => nofun
    · next halive =>
        rw [if_neg halive]
        refine ⟨?_, fun _ => nofun⟩
        intro _ _ _ _
        have hactive := congrArg Manager.active hstep
        have hidle := congrArg (fun m : Manager => m.idleSince.isSome) hstep
        exact (h.before _ _ hloop nofun).concat (keeps_of_same hactive hidle)
  | checkingFlag =>
    simp only [Manager.launch] at hstep ⊢
    split at hstep
    · next hflag =>
        rw [if_pos hflag]
        exact Underway.clear fun _ _ => nofun
    · next hflag =>
        rw [if_neg hflag]
        refine ⟨?_, fun _ => nofun⟩
        intro _ _ _ _
        have hactive := congrArg Manager.active hstep
        have hidle := congrArg (fun m : Manager => m.idleSince.isSome) hstep
        exact (h.before _ _ hloop nofun).concat (keeps_of_same hactive hidle)
  | inserting =>
    simp only [Manager.launch] at hstep ⊢
    split at hstep
    · next hin =>
        rw [if_pos hin]
        exact Underway.clear fun _ _ => nofun
    · next hnew =>
        rw [if_neg hnew]
        refine ⟨?_, ?_⟩
        · intro _ _ hspec hphase
          cases hspec
          exact absurd rfl hphase
        · intro _ _
          refine since_now ?_
          intro hkeeps
          have hsame := (hkeeps (Or.inr ⟨holder, spawned, rfl⟩)).1
          have hactive : (take (Manager.step paths idleTimeout) manager
              (.loop holder spawned)).after.active = insert spec.sessionId manager.active :=
            congrArg Manager.active hstep
          rw [hactive] at hsame
          have hmem := Finset.mem_insert_self spec.sessionId manager.active
          rw [hsame] at hmem
          exact hnew hmem
  | spawning =>
    simp only [Manager.launch]
    split
    · exact Underway.clear fun _ _ => nofun
    · exact Underway.clear fun _ _ => nofun

theorem Underway.step {history : List Taken} (h : Underway history manager) (event : Event) :
    Underway (history ++ [take (Manager.step paths idleTimeout) manager event])
      (Manager.step paths idleTimeout manager event).1 := by
  cases event with
  | tick elapsed => exact h.stay rfl (keeps_of_same rfl rfl) fun ht => nomatch ht.1
  | outside serving => exact h.stay rfl (keeps_of_same rfl rfl) fun ht => nomatch ht.1
  | accepted request =>
    by_cases htaken : manager.loop = .accepting ∧ manager.listening = true
    · cases request with
      | none =>
        have hsame : (Manager.step paths idleTimeout manager (.accepted none)).1 = manager := by
          simp only [Manager.step, if_pos htaken]
        rw [hsame]
        exact Underway.clear (by simp [htaken.1])
      | some request =>
        obtain ⟨hactive, _, _, hidle⟩ := @handle_keeps paths manager request
        have hstep : (Manager.step paths idleTimeout manager (.accepted (some request))).1 =
            (manager.handle paths request).1 := by
          simp only [Manager.step, if_pos htaken]
        refine ⟨?_, ?_⟩
        · intro _ _ _ _
          refine since_now ⟨⟨⟨some request, rfl⟩, htaken⟩, keeps_of_same ?_ ?_⟩
          · exact (congrArg Manager.active hstep).trans hactive
          · exact (congrArg (fun m : Manager => m.idleSince.isSome) hstep).trans hidle
        · intro spec hspec
          rw [hstep] at hspec
          rcases @handle_loop paths manager request with hto | ⟨_, hto⟩ | hto
          all_goals
            rw [hto] at hspec
            cases hspec
    · have hsame : (Manager.step paths idleTimeout manager (.accepted request)).1 = manager := by
        unfold Manager.step
        dsimp only
        rw [if_neg htaken]
      refine h.stay (congrArg Manager.loop hsame) (keeps_of_same ?_ ?_) fun ht => htaken ht.2
      · exact congrArg Manager.active hsame
      · exact congrArg (fun m : Manager => m.idleSince.isSome) hsame
  | acceptFailed =>
    by_cases haccepting : manager.loop = .accepting
    · refine Underway.clear ?_
      intro spec phase
      simp only [Manager.step, if_pos haccepting, Manager.acceptFailed]
      split <;> exact nofun
    · have hsame : (Manager.step paths idleTimeout manager .acceptFailed).1 = manager := by
        simp only [Manager.step, if_neg haccepting]
      refine h.stay (congrArg Manager.loop hsame) (keeps_of_same ?_ ?_) fun ht => nomatch ht.1
      · exact congrArg Manager.active hsame
      · exact congrArg (fun m : Manager => m.idleSince.isSome) hsame
  | loop holder spawned =>
    simp only [Manager.step, loopStep]
    split
    · next hloop => exact h.launch hloop
    · split
      · exact Underway.clear fun _ _ => nofun
      · exact Underway.clear fun _ _ => nofun
    · split
      · exact Underway.clear fun _ _ => nofun
      · exact Underway.clear fun _ _ => nofun
    · exact Underway.clear fun _ _ => nofun
    · next hloop => exact Underway.clear (by simp [hloop])
    · next hloop => exact Underway.clear (by simp [hloop])
    · next hloop => exact Underway.clear (by simp [hloop])
  | watchdog =>
    refine h.stay (watch_loop manager) ?_ fun ht => nomatch ht.1
    rintro (⟨_, hevent⟩ | ⟨_, _, hevent⟩) <;> cases hevent
  | holder id step =>
    refine h.stay (holderStep_loop manager id step) ?_ fun ht => nomatch ht.1
    rintro (⟨_, hevent⟩ | ⟨_, _, hevent⟩) <;> cases hevent

theorem Occupied.frame {after : Manager} (h : Occupied manager)
    (hloop : ∀ spec, manager.loop = .launching spec .spawning →
      after.loop = .launching spec .spawning)
    (hactive : after.active = manager.active) (hthreads : after.threads = manager.threads) :
    Occupied after := by
  intro id hid
  rw [hactive] at hid
  rw [hthreads]
  rcases h id hid with hthread | ⟨spec, hspec, heq⟩
  · exact Or.inl hthread
  · exact Or.inr ⟨spec, hloop spec hspec, heq⟩

theorem Occupied.launch (h : Occupied manager) {spec : HolderLaunchSpec} {phase : LaunchPhase}
    (hloop : manager.loop = .launching spec phase) {holder : Option String} {spawned : Bool}
    (hspawned : phase = .spawning → spawned = true) :
    Occupied (manager.launch paths spec holder spawned phase).1 := by
  have hnot : ∀ {other : LaunchPhase}, phase = other → other ≠ .spawning →
      ∀ spec', manager.loop ≠ .launching spec' .spawning := by
    intro other hphase hother spec' hspec
    rw [hloop] at hspec
    cases hspec
    exact hother hphase.symm
  cases phase with
  | probing =>
    simp only [Manager.launch]
    split
    all_goals exact h.frame (fun s hs => absurd hs (hnot rfl nofun s)) rfl rfl
  | checkingFlag =>
    simp only [Manager.launch]
    split
    all_goals exact h.frame (fun s hs => absurd hs (hnot rfl nofun s)) rfl rfl
  | inserting =>
    simp only [Manager.launch]
    split
    · exact h.frame (fun s hs => absurd hs (hnot rfl nofun s)) rfl rfl
    · intro id hid
      rcases Finset.mem_insert.mp hid with heq | hid
      · exact Or.inr ⟨spec, rfl, heq.symm⟩
      · rcases h id hid with hthread | ⟨spec', hspec, _⟩
        · exact Or.inl hthread
        · exact absurd hspec (hnot rfl nofun spec')
  | spawning =>
    simp only [Manager.launch, hspawned rfl, if_true]
    intro id hid
    by_cases heq : id = spec.sessionId
    · exact Or.inl (by simp [answerLaunch, Manager.answer, setThread, heq])
    · rcases h id hid with hthread | ⟨spec', hspec, hid'⟩
      · exact Or.inl (by simpa [answerLaunch, Manager.answer, setThread, heq] using hthread)
      · rw [hloop] at hspec
        cases hspec
        exact absurd hid'.symm heq

theorem Occupied.step (h : Occupied manager) (event : Event)
    (hclean : LaunchesCleanly paths (take (Manager.step paths idleTimeout) manager event)) :
    Occupied (Manager.step paths idleTimeout manager event).1 := by
  cases event with
  | tick elapsed => exact h.frame (fun _ hspec => hspec) rfl rfl
  | outside serving => exact h.frame (fun _ hspec => hspec) rfl rfl
  | accepted request =>
    unfold Manager.step
    dsimp only
    split
    · next htaken =>
        cases request with
        | none => exact h
        | some request =>
          obtain ⟨hactive, hthreads, _⟩ := @handle_keeps paths manager request
          refine h.frame ?_ hactive hthreads
          intro spec hspec
          rw [htaken.1] at hspec
          cases hspec
    · exact h
  | acceptFailed =>
    unfold Manager.step Manager.acceptFailed
    dsimp only
    split
    · next haccepting =>
        split
        all_goals
          refine h.frame ?_ rfl rfl
          intro spec hspec
          rw [haccepting] at hspec
          cases hspec
    · exact h
  | loop holder spawned =>
    unfold Manager.step loopStep
    dsimp only
    split
    · next spec phase hloop =>
        refine h.launch hloop ?_
        intro hphase
        subst hphase
        exact hclean holder spawned spec .spawning rfl hloop
    · next hloop =>
        split
        all_goals exact h.frame (by simp [hloop]) rfl rfl
    · next hloop =>
        split
        all_goals exact h.frame (by simp [hloop]) rfl rfl
    · next hloop => exact h.frame (by simp [hloop]) rfl rfl
    · exact h
    · exact h
    · exact h
  | watchdog =>
    refine h.frame ?_ (watch_active manager) (watch_threads manager)
    intro spec hspec
    exact (watch_loop manager).trans hspec
  | holder id step =>
    change Occupied (manager.holderStep id step)
    intro other hother
    rw [holderStep_loop]
    rcases holderStep_cases manager id step with ⟨hactive, hthreads⟩ | ⟨_, hactive, hthreads⟩
    · rw [hactive] at hother
      rcases h other hother with hthread | hspec
      · refine Or.inl ?_
        rw [← Option.isSome_iff_ne_none] at hthread ⊢
        rw [hthreads]
        exact hthread
      · exact Or.inr hspec
    · rw [hactive] at hother
      obtain ⟨hne, hother⟩ := Finset.mem_erase.mp hother
      rw [hthreads, if_neg hne]
      exact h other hother

theorem answersWell_of_none {history : List Taken} {x : Taken} (h : x.outcome = none) :
    AnswersWell history x := by
  intro request result houtcome
  rw [h] at houtcome
  cases houtcome

theorem launch_answers_iff {history : List Taken} (hknown : Known manager)
    (hoccupied : Occupied manager) (hunderway : Underway history manager)
    {holder : Option String} {spawned : Bool} {spec : HolderLaunchSpec} {phase : LaunchPhase}
    (hloop : manager.loop = .launching spec phase) :
    AnswersWell history (take (Manager.step paths idleTimeout) manager (.loop holder spawned)) ↔
      CleanStep paths manager spec holder spawned phase := by
  have hstep : Manager.step paths idleTimeout manager (.loop holder spawned) =
      manager.launch paths spec holder spawned phase := by
    simp only [Manager.step, loopStep, hloop]
  have hsuccess : ∀ after : Manager, manager.launch paths spec holder spawned phase =
        after.answerLaunch spec (.ok ()) →
      (AnswersWell history (take (Manager.step paths idleTimeout) manager (.loop holder spawned)) ↔
        Held (after.answerLaunch spec (.ok ())).1 spec) := by
    intro after hafter
    rw [← hstep] at hafter
    have houtcome : (take (Manager.step paths idleTimeout) manager (.loop holder spawned)).outcome =
        (after.answerLaunch spec (.ok ())).2 := congrArg Prod.snd hafter
    constructor
    · intro h
      obtain ⟨spec', hspec, hheld⟩ := h _ _ houtcome rfl
      cases hspec
      rw [← hafter]
      exact hheld
    · intro hheld request result hanswer hop
      rw [houtcome] at hanswer
      cases hanswer
      refine ⟨spec, rfl, ?_⟩
      rw [← hafter] at hheld
      exact hheld
  have hsilent : ∀ after : Manager, manager.launch paths spec holder spawned phase =
      (after, none) →
      AnswersWell history (take (Manager.step paths idleTimeout) manager (.loop holder spawned)) :=
    fun after hafter => answersWell_of_none (congrArg Prod.snd (hstep.trans hafter))
  cases phase with
  | probing =>
    by_cases halive : manager.isAlive paths spec holder = true
    · rw [hsuccess manager (by simp only [Manager.launch, if_pos halive])]
      constructor
      · intro hheld _
        exact hheld
      · intro h
        exact h halive
    · refine iff_of_true ?_ fun h => absurd h halive
      exact hsilent _ (by simp only [Manager.launch, if_neg halive]; rfl)
  | checkingFlag =>
    refine iff_of_true ?_ trivial
    by_cases hflag : manager.shuttingDown = true
    · have hlaunch : manager.launch paths spec holder spawned .checkingFlag =
          manager.answerLaunch spec (.error (.rejected "manager is shutting down")) := by
        simp only [Manager.launch, if_pos hflag]
      rw [hlaunch] at hstep
      intro request result hanswer hop
      change (Manager.step paths idleTimeout manager (.loop holder spawned)).2 = _ at hanswer
      rw [hstep] at hanswer
      cases hanswer
      have hactive := congrArg (fun result => result.1.active) hstep
      have hidle := congrArg (fun result => result.1.idleSince.isSome) hstep
      exact (hunderway.before _ _ hloop nofun).concat (keeps_of_same hactive hidle)
    · exact hsilent _ (by simp only [Manager.launch, if_neg hflag]; rfl)
  | inserting =>
    by_cases hin : spec.sessionId ∈ manager.active
    · rw [hsuccess manager (by simp only [Manager.launch, if_pos hin])]
      constructor
      · intro hheld _
        exact hheld
      · intro h
        refine h ?_
        rcases hoccupied _ hin with hthread | ⟨spec', hspec, _⟩
        · exact hthread
        · rw [hloop] at hspec
          cases hspec
    · refine iff_of_true ?_ fun hthread => absurd (hknown.thread _ hthread) hin
      exact hsilent _ (by simp only [Manager.launch, if_neg hin]; rfl)
  | spawning =>
    cases spawned with
    | true =>
      refine iff_of_true ?_ rfl
      rw [hsuccess (manager.setThread spec.sessionId (some ⟨spec, .starting⟩)) rfl]
      exact Or.inr (by simp [answerLaunch, Manager.answer, setThread])
    | false =>
      -- the id was inserted since the request was taken
      refine iff_of_false ?_ Bool.false_ne_true
      intro h
      have hsince := h _ _ (congrArg Prod.snd hstep) rfl
      have hinserted := (hunderway.after spec hloop).concat (x := take
        (Manager.step paths idleTimeout) manager (.loop holder false)) fun ht => nomatch ht.1
      exact hsince.exclusive hinserted (fun _ hn hp => hn hp.2) (fun _ hn => hn)
        fun _ hn hp => hn hp.1

theorem handle_refuses {request request' : Request} {result : Except HolderError Unit}
    (h : (manager.handle paths request).2 = some ⟨some request', result⟩)
    (hop : request'.op = .launch) : ∃ error, result = .error error := by
  unfold handle at h
  split at h
  · cases h
    exact ⟨_, rfl⟩
  · split at h
    · next hping =>
        cases h
        rw [hping] at hop
        cases hop
    · split at h
      · cases h
        exact ⟨_, rfl⟩
      · split at h
        · cases h
          exact ⟨_, rfl⟩
        · cases h
    · cases h

theorem loopStep_answers {holder : Option String} {spawned : Bool} {request : Request}
    {result : Except HolderError Unit} (hloop : ∀ spec phase, manager.loop ≠ .launching spec phase)
    (h : (manager.loopStep paths holder spawned).2 = some ⟨some request, result⟩) :
    request.op = .shutdownIfIdle := by
  unfold loopStep at h
  split at h
  · next spec phase hlaunching => exact absurd hlaunching (hloop spec phase)
  · split at h
    · cases h
      rfl
    · cases h
  · split at h
    · cases h
      rfl
    · cases h
  · cases h
    rfl
  · cases h
  · cases h
  · cases h

theorem step_answers_iff {history : List Taken} (hknown : Known manager)
    (hoccupied : Occupied manager) (hunderway : Underway history manager) (event : Event) :
    AnswersWell history (take (Manager.step paths idleTimeout) manager event) ↔
      LaunchesCleanly paths (take (Manager.step paths idleTimeout) manager event) := by
  cases event with
  | tick elapsed => exact iff_of_true (answersWell_of_none rfl) fun _ _ _ _ h => nomatch h
  | outside serving => exact iff_of_true (answersWell_of_none rfl) fun _ _ _ _ h => nomatch h
  | acceptFailed => exact iff_of_true (answersWell_of_none rfl) fun _ _ _ _ h => nomatch h
  | watchdog => exact iff_of_true (answersWell_of_none rfl) fun _ _ _ _ h => nomatch h
  | holder id step => exact iff_of_true (answersWell_of_none rfl) fun _ _ _ _ h => nomatch h
  | accepted request =>
    refine iff_of_true ?_ fun _ _ _ _ h => nomatch h
    intro request' result hanswer hop
    by_cases htaken : manager.loop = .accepting ∧ manager.listening = true
    · simp only [take, Manager.step, if_pos htaken] at hanswer
      cases request with
      | none => cases hanswer
      | some request =>
        obtain ⟨hactive, _, _, hidle⟩ := @handle_keeps paths manager request
        obtain ⟨error, rfl⟩ := handle_refuses hanswer hop
        have hstep : (Manager.step paths idleTimeout manager (.accepted (some request))).1 =
            (manager.handle paths request).1 := by
          simp only [Manager.step, if_pos htaken]
        refine since_now ⟨⟨⟨some request, rfl⟩, htaken⟩, keeps_of_same ?_ ?_⟩
        · exact (congrArg Manager.active hstep).trans hactive
        · exact (congrArg (fun m : Manager => m.idleSince.isSome) hstep).trans hidle
    · simp only [take, Manager.step, if_neg htaken] at hanswer
      cases hanswer
  | loop holder spawned =>
    cases hloop : manager.loop with
    | launching spec phase =>
      rw [launch_answers_iff hknown hoccupied hunderway hloop]
      constructor
      · intro h holder' spawned' spec' phase' hevent hloop'
        cases hevent
        rw [show manager.loop = _ from hloop'] at hloop
        cases hloop
        exact h
      · intro h
        exact h holder spawned spec phase rfl hloop
    | accepting | checkingActive | stopping | closing | left | failed =>
      refine iff_of_true ?_ fun _ _ _ _ _ h => by
        rw [show manager.loop = _ from h] at hloop
        cases hloop
      intro request result hanswer hop
      have hother := loopStep_answers (by simp [hloop]) hanswer
      rw [hother] at hop
      cases hop

/-- **When a launch is answered well.**  In a run every launch that is answered with success has a
holder, and every one that is answered with an error has left `active` and the idle mark alone,
exactly when every step of a launch is a clean one. -/
theorem launches_answer_well_iff (paths : HolderPaths) (idleTimeout now : Nat)
    (events : List Event) :
    (∀ front x back, trace (Manager.step paths idleTimeout) (start now) events =
        front ++ x :: back → AnswersWell front x) ↔
      ∀ x ∈ trace (Manager.step paths idleTimeout) (start now) events,
        LaunchesCleanly paths x := by
  refine trace_good_iff (Manager.step paths idleTimeout)
    (P := fun history m => Known m ∧ Occupied m ∧ Underway history m)
    ⟨known_start now, fun _ hid => absurd hid (Finset.notMem_empty _), underway_start now⟩ ?_ ?_
    events
  · intro history manager event hclean ⟨hknown, hoccupied, hunderway⟩
    exact ⟨hknown.step event, hoccupied.step event hclean, hunderway.step event⟩
  · intro history manager event ⟨hknown, hoccupied, hunderway⟩
    exact step_answers_iff hknown hoccupied hunderway event

/-- A second launch comes while the holder of the first winds down: its socket is gone, its id is
not. -/
theorem relaunch_of_exiting :
    let earlier := [plainLaunch, .loop none true, .loop none true, .loop none true,
      .loop none true, .holder "s" .listen, .holder "s" .loseChild, .holder "s" .unlink,
      plainLaunch, .loop none true, .loop none true]
    let manager := run (Manager.step plainPaths 10) (start 0) earlier
    ¬AnswersWell (trace (Manager.step plainPaths 10) (start 0) earlier)
      (take (Manager.step plainPaths 10) manager (.loop none true)) := by
  intro earlier manager h
  obtain ⟨spec, hspec, hheld⟩ := h ⟨managerProtocolVersion, .launch, some plainSpec⟩ (.ok ()) rfl rfl
  cases hspec
  rcases hheld with hserving | hstarting
  · cases hserving
  · cases hstarting

end Homie.HolderManager
