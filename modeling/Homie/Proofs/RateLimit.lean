/-
How many calls the limiter lets through in a minute.

The limiter keeps one window for a key, the one of the call that last took the lock.  While no call
takes it with a reading from before that window, the window is the latest minute there is, every
call of that minute is in its count, and no minute gets more than the limit.  A call that read the
clock in an earlier minute puts the window back, and the later minute is counted from one again.
-/
import Homie.Gateway.Policy

namespace Homie.Gateway

/-! ### What is counted -/

/-- The call was allowed, with a reading in that minute. -/
def Stage.allowedIn (minute : Int) : Stage → Bool
  | .returned now none => now / 60 = minute
  | _ => false

/-- The limiter has let the call through, whatever the quota says. -/
def Stage.passedIn (minute : Int) : Stage → Bool
  | .metering now => now / 60 = minute
  | .returned now response => response ≠ some (.deny .rateLimit) && now / 60 = minute
  | _ => false

theorem Stage.passedIn_of_allowedIn {minute : Int} {stage : Stage}
    (h : stage.allowedIn minute = true) : stage.passedIn minute = true := by
  unfold Stage.allowedIn at h
  split at h
  · simpa [Stage.passedIn] using h
  · cases h

@[simp] theorem passedIn_afterLimit (policy : Policy) (now minute : Int) :
    (policy.afterLimit now).passedIn minute = decide (now / 60 = minute) := by
  unfold Policy.afterLimit
  split <;> simp [Stage.passedIn]

@[simp] theorem passedIn_afterQuota (policy : Policy) (now minute : Int) (sum : Option Int) :
    (policy.afterQuota now sum).passedIn minute = decide (now / 60 = minute) := by
  unfold Policy.afterQuota
  split
  · split <;> simp [Stage.passedIn]
  · simp [Stage.passedIn]

namespace AppState

/-- The calls of a key that were allowed with a reading in that minute. -/
def allowed (state : AppState) (key : String) (minute : Int) : Nat :=
  state.calls.countP fun call => call.keyId = key && call.stage.allowedIn minute

def passed (state : AppState) (key : String) (minute : Int) : Nat :=
  state.calls.countP fun call => call.keyId = key && call.stage.passedIn minute

theorem allowed_le_passed (state : AppState) (key : String) (minute : Int) :
    state.allowed key minute ≤ state.passed key minute := by
  refine List.countP_mono_left fun call _ h => ?_
  rw [Bool.and_eq_true] at h ⊢
  exact ⟨h.1, Stage.passedIn_of_allowedIn h.2⟩

/-- A call that the limiter had not let through counts from now on, if it does. -/
theorem passed_setStage {state : AppState} {index : Nat} {call : Call} {stage : Stage}
    {key : String} {minute : Int} (hcall : state.calls[index]? = some call)
    (hbefore : call.stage.passedIn minute = false) :
    (state.setStage index call stage).passed key minute
      = state.passed key minute
        + if call.keyId = key ∧ stage.passedIn minute = true then 1 else 0 := by
  obtain ⟨hlt, rfl⟩ := List.getElem?_eq_some_iff.mp hcall
  simp only [passed, setStage, List.countP_set hlt, hbefore, Bool.and_false, Bool.false_eq_true,
    if_false, Nat.sub_zero, Bool.and_eq_true, decide_eq_true_eq]

theorem passed_setStage_same {state : AppState} {index : Nat} {call : Call} {stage : Stage}
    {key : String} {minute : Int} (hcall : state.calls[index]? = some call)
    (hsame : stage.passedIn minute = call.stage.passedIn minute) :
    (state.setStage index call stage).passed key minute = state.passed key minute := by
  obtain ⟨hlt, rfl⟩ := List.getElem?_eq_some_iff.mp hcall
  have hcount : ∀ p : Call → Bool, p state.calls[index] = true → 0 < state.calls.countP p :=
    fun p hp => List.countP_pos_iff.mpr ⟨_, List.getElem_mem hlt, hp⟩
  simp only [passed, setStage, List.countP_set hlt, hsame]
  split
  · rename_i hp
    exact Nat.sub_add_cancel (hcount _ hp)
  · rfl

end AppState

/-! ### One window for a key -/

/-- The window of each key is its latest minute, and no minute has more than the limit. -/
structure Counted (limit : Nat) (state : AppState) : Prop where
  bound : ∀ key minute, state.passed key minute ≤ limit
  latest : ∀ key window, state.rateLimiter.windows.get key = some window →
    state.passed key window.start ≤ window.count ∧
    ∀ minute, window.start < minute → state.passed key minute = 0
  unseen : ∀ key, state.rateLimiter.windows.get key = none → ∀ minute, state.passed key minute = 0

theorem counted_new (limit : Nat) : Counted limit .new where
  bound := fun _ _ => Nat.zero_le _
  latest := fun _ _ h => nomatch h
  unseen := fun _ _ _ => rfl

/-- The step takes the lock for no call that read the clock before the minute of its key's window. -/
def inOrder (x : Trace.Step AppState Event Unit) : Bool :=
  match x.event with
  | .lockLimiter index =>
    match x.before.calls[index]? with
    | some ⟨keyId, .limiting now⟩ =>
      (x.before.rateLimiter.windows.get keyId).all fun window => window.start ≤ now / 60
    | _ => true
  | _ => true

theorem Counted.congr {limit : Nat} {state next : AppState} (h : Counted limit state)
    (hlimiter : next.rateLimiter = state.rateLimiter)
    (hpassed : ∀ key minute, next.passed key minute = state.passed key minute) :
    Counted limit next where
  bound := fun key minute => hpassed key minute ▸ h.bound key minute
  latest := by
    intro key window hwindow
    rw [hlimiter] at hwindow
    simpa only [hpassed] using h.latest key window hwindow
  unseen := by
    intro key hnone minute
    rw [hlimiter] at hnone
    rw [hpassed]
    exact h.unseen key hnone minute

/-! ### One call at the lock -/

theorem allow_cases (limiter : RateLimiter) (key : String) {limit : Nat} (hset : limit ≠ 0)
    (now : Int) :
    (∃ found, limiter.windows.get key = some found ∧ found.start = now / 60 ∧ limit ≤ found.count ∧
      limiter.allow key limit now = (false, limiter)) ∨
    (∃ found, limiter.windows.get key = some found ∧ found.start = now / 60 ∧ found.count < limit ∧
      limiter.allow key limit now
        = (true, ⟨limiter.windows.insert { found with count := found.count + 1 }⟩)) ∨
    ((∀ found, limiter.windows.get key = some found → found.start ≠ now / 60) ∧
      limiter.allow key limit now = (true, ⟨limiter.windows.insert ⟨key, now / 60, 1⟩⟩)) := by
  rw [RateLimiter.allow, if_neg hset]
  cases hget : limiter.windows.get key with
  | none => exact .inr (.inr ⟨fun _ h => absurd h (by simp), rfl⟩)
  | some found =>
    by_cases hsame : found.start = now / 60
    · by_cases hfull : found.count ≥ limit
      · exact .inl ⟨found, rfl, hsame, hfull, by simp only [hsame, hfull, if_true]⟩
      · exact .inr (.inl ⟨found, rfl, hsame, not_le.mp hfull, by
          simp only [hsame, hfull, if_true, if_false]⟩)
    · refine .inr (.inr ⟨?_, by simp only [hsame, if_false]⟩)
      intro other hother
      rw [← Option.some.inj hother]
      exact hsame

/-- A call is let through into a window that has room for it and that no minute is after. -/
theorem Counted.letThrough {policy : Policy} {limit : Nat} {state : AppState} {index : Nat}
    {keyId : String} {now : Int} {window : Window} (h : Counted limit state)
    (hcall : state.calls[index]? = some ⟨keyId, .limiting now⟩) (hkey : window.key = keyId)
    (hstart : window.start = now / 60)
    (hroom : state.passed keyId (now / 60) + 1 ≤ window.count ∧ window.count ≤ limit)
    (hlatest : ∀ minute, now / 60 < minute → state.passed keyId minute = 0) :
    Counted limit
      (AppState.setStage { state with rateLimiter := ⟨state.rateLimiter.windows.insert window⟩ }
        index ⟨keyId, .limiting now⟩ (policy.afterLimit now)) := by
  have hpassed (key : String) (minute : Int) :
      (AppState.setStage { state with rateLimiter := ⟨state.rateLimiter.windows.insert window⟩ }
        index ⟨keyId, .limiting now⟩ (policy.afterLimit now)).passed key minute
        = state.passed key minute + if keyId = key ∧ now / 60 = minute then 1 else 0 := by
    have hset := @AppState.passed_setStage
      { state with rateLimiter := ⟨state.rateLimiter.windows.insert window⟩ } index
      ⟨keyId, .limiting now⟩ (policy.afterLimit now) key minute hcall rfl
    simp only [passedIn_afterLimit, decide_eq_true_eq] at hset
    exact hset
  refine ⟨?_, ?_, ?_⟩
  · intro key minute
    rw [hpassed]
    split
    · rename_i hthis
      rw [← hthis.1, ← hthis.2]
      exact hroom.1.trans hroom.2
    · exact h.bound key minute
  · intro key other hother
    simp only [hpassed]
    have hget : (state.rateLimiter.windows.insert window).get key = some other := hother
    rw [KeyedMap.get_insert, hkey] at hget
    split at hget
    · rename_i hthis
      obtain rfl := Option.some.inj hget
      rw [hthis, hstart, if_pos ⟨rfl, rfl⟩]
      refine ⟨hroom.1, fun minute hlater => ?_⟩
      rw [if_neg fun hand => absurd hand.2 (ne_of_lt hlater), hlatest minute hlater]
    · rename_i hnot
      have hne (minute : Int) : ¬(keyId = key ∧ now / 60 = minute) := fun hand => hnot hand.1.symm
      simpa only [if_neg (hne _), Nat.add_zero] using h.latest key other hget
  · intro key hnone minute
    have hget : (state.rateLimiter.windows.insert window).get key = none := hnone
    rw [KeyedMap.get_insert, hkey] at hget
    split at hget
    · cases hget
    · rename_i hnot
      rw [hpassed, if_neg fun hand => hnot hand.1.symm]
      exact h.unseen key hget minute

theorem Counted.lockLimiter {policy : Policy} {limit : Nat} {state : AppState} {index : Nat}
    {keyId : String} {now : Int} (hlimit : policy.rateLimit = some ⟨limit⟩) (hset : limit ≠ 0)
    (h : Counted limit state) (hcall : state.calls[index]? = some ⟨keyId, .limiting now⟩)
    (horder : ∀ window, state.rateLimiter.windows.get keyId = some window →
      window.start ≤ now / 60) :
    Counted limit (state.lockLimiter policy index ⟨keyId, .limiting now⟩ now) := by
  simp only [AppState.lockLimiter, hlimit]
  rcases allow_cases state.rateLimiter keyId hset now with
    ⟨found, hget, hsame, -, hallow⟩ | ⟨found, hget, hsame, hroom, hallow⟩ | ⟨hother, hallow⟩
  · simp only [hallow, Bool.false_eq_true, if_false]
    exact h.congr rfl fun key minute => AppState.passed_setStage_same hcall rfl
  · simp only [hallow, if_true]
    obtain ⟨hcount, hlatest⟩ := h.latest keyId found hget
    rw [hsame] at hcount hlatest
    have hkey : found.key = keyId := state.rateLimiter.windows.key_of_get hget
    exact h.letThrough hcall hkey hsame
      ⟨Nat.succ_le_succ hcount, hroom⟩ hlatest
  · simp only [hallow, if_true]
    -- Whatever window there is, it is over, so nothing is counted from this minute on.
    have hfresh : ∀ minute, now / 60 ≤ minute → state.passed keyId minute = 0 := by
      intro minute hminute
      cases hget : state.rateLimiter.windows.get keyId with
      | none => exact h.unseen keyId hget minute
      | some found =>
        have hover := lt_of_le_of_ne (horder found hget) (hother found hget)
        exact (h.latest keyId found hget).2 minute (lt_of_lt_of_le hover hminute)
    refine h.letThrough hcall rfl rfl ⟨?_, Nat.one_le_iff_ne_zero.mpr hset⟩ fun minute hlater =>
      hfresh minute (le_of_lt hlater)
    rw [hfresh _ le_rfl]

/-! ### A run -/

theorem Counted.step {policy : Policy} {limit : Nat} {state : AppState} {event : Event}
    (hlimit : policy.rateLimit = some ⟨limit⟩) (hset : limit ≠ 0)
    (horder : inOrder (Trace.take (AppState.step policy) state event) = true) (h : Counted limit state) :
    Counted limit (AppState.step policy state event).1 := by
  cases event with
  | call keyId =>
    refine h.congr rfl fun key minute => ?_
    simp [AppState.step, AppState.passed, Stage.passedIn]
  | readClock index now =>
    simp only [AppState.step]
    split
    · rename_i keyId hcall
      refine h.congr rfl fun key minute => AppState.passed_setStage_same hcall ?_
      simp [Policy.afterClock, hlimit, Stage.passedIn]
    · exact h
  | lockLimiter index =>
    simp only [AppState.step]
    split
    · rename_i keyId now hcall
      refine h.lockLimiter hlimit hset hcall fun window hwindow => ?_
      simpa [inOrder, Trace.take, hcall, hwindow] using horder
    · exact h
  | checkQuota index sum =>
    simp only [AppState.step]
    split
    · rename_i keyId now hcall
      exact h.congr rfl fun key minute =>
        AppState.passed_setStage_same hcall (passedIn_afterQuota policy now minute sum)
    · exact h

/--
In a run that takes the lock for no call with a reading from before the minute its key's window is
in, no key is allowed more calls of one minute than the limit.
-/
theorem allowed_le_limit {policy : Policy} {limit : Nat} (hlimit : policy.rateLimit = some ⟨limit⟩)
    (hset : limit ≠ 0) {events : List Event}
    (horder : ∀ x ∈ Trace.trace (AppState.step policy) .new events, inOrder x = true) (key : String)
    (minute : Int) : (AppState.run policy events).allowed key minute ≤ limit := by
  have hcounted : Counted limit (AppState.run policy events) :=
    Trace.run_invariant_where (AppState.step policy) horder (counted_new limit)
      fun _ _ hstep hbefore => hbefore.step hlimit hset hstep
  exact (AppState.allowed_le_passed _ key minute).trans (hcounted.bound key minute)

/-- Two calls in one minute and one in the next, in order. -/
theorem allowed_le_limit_in_order :
    (AppState.run ⟨some ⟨1⟩, none⟩ [.call "k", .call "k", .readClock 0 60, .readClock 1 60,
      .lockLimiter 1, .lockLimiter 0, .call "k", .readClock 2 120, .lockLimiter 2]).allowed "k" 1
      ≤ 1 :=
  allowed_le_limit rfl (by decide) (by decide) "k" 1

/--
With a limit of one: the second call reads the clock in the minute before, the first and the third
in the same one.  The second takes the lock between them, and both of the others are allowed.
-/
theorem late_lock_allows_two :
    (AppState.run ⟨some ⟨1⟩, none⟩ [.call "k", .call "k", .call "k", .readClock 1 59,
      .readClock 0 60, .readClock 2 60, .lockLimiter 0, .lockLimiter 1, .lockLimiter 2]).allowed
      "k" 1 = 2 := by
  rfl

/-! ### Who is refused -/

/-- Every window's count is of calls that passed, and who was refused for the rate found as many
calls of the same minute as the limit. -/
structure Deserved (policy : Policy) (state : AppState) : Prop where
  counted : ∀ key window, state.rateLimiter.windows.get key = some window →
    window.count ≤ state.passed key window.start
  refused : ∀ call ∈ state.calls, ∀ now, call.stage = .returned now (some (.deny .rateLimit)) →
    ∃ limit, policy.rateLimit = some ⟨limit⟩ ∧ 0 < limit ∧
      limit ≤ state.passed call.keyId (now / 60)

theorem allow_refuses {limiter : RateLimiter} {key : String} {limit : Nat} {now : Int}
    (h : (limiter.allow key limit now).1 = false) :
    0 < limit ∧ ∃ found, limiter.windows.get key = some found ∧ found.start = now / 60 ∧
      limit ≤ found.count := by
  by_cases hset : limit = 0
  · rw [RateLimiter.allow, if_pos hset] at h
    cases h
  · refine ⟨Nat.pos_of_ne_zero hset, ?_⟩
    rcases allow_cases limiter key hset now with
      ⟨found, hget, hsame, hfull, -⟩ | ⟨_, _, _, _, hallow⟩ | ⟨_, hallow⟩
    · exact ⟨found, hget, hsame, hfull⟩
    · rw [hallow] at h
      cases h
    · rw [hallow] at h
      cases h

theorem get_insert_window {windows : KeyedMap Window.key} {placed window : Window} {key : String}
    (h : (windows.insert placed).get key = some window) :
    windows.get key = some window ∨ (key = placed.key ∧ window = placed) := by
  rw [KeyedMap.get_insert] at h
  split at h
  · next hkey => exact Or.inr ⟨hkey, (Option.some.inj h).symm⟩
  · exact Or.inl h

/-- The window that the limiter leaves for a key it let through counts at most one call more. -/
theorem allow_window {limiter : RateLimiter} {key : String} {limit : Nat} {now : Int}
    {other : String} {window : Window}
    (h : (limiter.allow key limit now).2.windows.get other = some window) :
    limiter.windows.get other = some window ∨
      ((limiter.allow key limit now).1 = true ∧ other = key ∧ window.start = now / 60 ∧
        (window.count = 1 ∨ ∃ found, limiter.windows.get key = some found ∧
          found.start = now / 60 ∧ window.count = found.count + 1)) := by
  by_cases hset : limit = 0
  · rw [RateLimiter.allow, if_pos hset] at h
    exact Or.inl h
  · rcases allow_cases limiter key hset now with
      ⟨_, _, _, _, hallow⟩ | ⟨found, hget, hsame, _, hallow⟩ | ⟨_, hallow⟩
    · rw [hallow] at h
      exact Or.inl h
    · rw [hallow] at h ⊢
      rcases get_insert_window h with hold | ⟨hkey, rfl⟩
      · exact Or.inl hold
      · have hfound : found.key = key := limiter.windows.key_of_get hget
        exact Or.inr ⟨rfl, hkey.trans hfound, hsame, Or.inr ⟨found, hget, hsame, rfl⟩⟩
    · rw [hallow] at h ⊢
      rcases get_insert_window h with hold | ⟨hkey, rfl⟩
      · exact Or.inl hold
      · exact Or.inr ⟨rfl, hkey, rfl, Or.inl rfl⟩

namespace Deserved

variable {policy : Policy} {state : AppState}

theorem setStage {index : Nat} {call : Call} {stage : Stage} {limiter : RateLimiter}
    (h : Deserved policy state)
    (hgrows : ∀ key minute, state.passed key minute
      ≤ (AppState.setStage { state with rateLimiter := limiter } index call stage).passed key minute)
    (hcounted : ∀ key window, limiter.windows.get key = some window → window.count
      ≤ (AppState.setStage { state with rateLimiter := limiter } index call stage).passed key
        window.start)
    (hrefused : ∀ now, stage = .returned now (some (.deny .rateLimit)) →
      ∃ limit, policy.rateLimit = some ⟨limit⟩ ∧ 0 < limit ∧
        limit ≤ state.passed call.keyId (now / 60)) :
    Deserved policy
      (AppState.setStage { state with rateLimiter := limiter } index call stage) where
  counted := hcounted
  refused := by
    intro other hother now hstage
    rcases List.mem_or_eq_of_mem_set hother with hold | rfl
    · obtain ⟨limit, hlimit, hpos, hfull⟩ := h.refused other hold now hstage
      exact ⟨limit, hlimit, hpos, hfull.trans (hgrows _ _)⟩
    · obtain ⟨limit, hlimit, hpos, hfull⟩ := hrefused now hstage
      exact ⟨limit, hlimit, hpos, hfull.trans (hgrows _ _)⟩

/-- A step of a call that the limiter does not see. -/
theorem unseen {index : Nat} {call : Call} {stage : Stage} (h : Deserved policy state)
    (hgrows : ∀ key minute,
      state.passed key minute ≤ (state.setStage index call stage).passed key minute)
    (hstage : ∀ now, stage ≠ .returned now (some (.deny .rateLimit))) :
    Deserved policy (state.setStage index call stage) := by
  refine h.setStage hgrows ?_ fun now hrefused => absurd hrefused (hstage now)
  intro key window hwindow
  exact (h.counted key window hwindow).trans (hgrows key window.start)

theorem lockLimiter {index : Nat} {keyId : String} {now : Int} (h : Deserved policy state)
    (hcall : state.calls[index]? = some ⟨keyId, .limiting now⟩) :
    Deserved policy (state.lockLimiter policy index ⟨keyId, .limiting now⟩ now) := by
  unfold AppState.lockLimiter
  cases hlimit : policy.rateLimit with
  | none => exact h
  | some limit =>
    dsimp only
    have hpassed := fun stage key minute => @AppState.passed_setStage
      { state with rateLimiter := (state.rateLimiter.allow keyId limit.requestsPerMinute now).2 }
      index ⟨keyId, .limiting now⟩ stage key minute hcall rfl
    have hgrows : ∀ stage key minute, state.passed key minute ≤ _ := fun stage key minute =>
      (Nat.le_add_right _ _).trans_eq (hpassed stage key minute).symm
    refine h.setStage (hgrows _) ?_ ?_
    · intro key window hwindow
      rcases allow_window hwindow with hold | ⟨hallowed, rfl, hstart, hcount⟩
      · exact (h.counted key window hold).trans (hgrows _ key window.start)
      · have hone := hpassed (policy.afterLimit now) key window.start
        rw [if_pos ⟨rfl, by simp [hstart]⟩] at hone
        rw [if_pos hallowed, hone]
        -- what is counted does not read the limiter
        change window.count ≤ state.passed key window.start + 1
        rcases hcount with hfirst | ⟨found, hget, hsame, hnext⟩
        · omega
        · have hfound := h.counted key found hget
          rw [hsame, ← hstart] at hfound
          omega
    · intro later hlater
      split at hlater
      · exact absurd hlater (by unfold Policy.afterLimit; split <;> simp)
      · next hrefused =>
        obtain ⟨hpos, found, hget, hsame, hfull⟩ := allow_refuses (Bool.not_eq_true _ ▸ hrefused)
        cases hlater
        exact ⟨_, hlimit, hpos, hfull.trans (hsame ▸ h.counted keyId found hget)⟩

theorem step (h : Deserved policy state) (event : Event) :
    Deserved policy (AppState.step policy state event).1 := by
  cases event with
  | call keyId =>
    have hsame : ∀ key minute,
        (AppState.step policy state (.call keyId)).1.passed key minute = state.passed key minute := by
      intro key minute
      simp [AppState.step, AppState.passed, Stage.passedIn]
    refine ⟨fun key window hwindow => (hsame _ _).symm ▸ h.counted key window hwindow, ?_⟩
    intro call hcall now hstage
    rw [hsame]
    rcases List.mem_append.mp hcall with hold | hnew
    · exact h.refused call hold now hstage
    · rw [List.mem_singleton.mp hnew] at hstage
      cases hstage
  | readClock index now =>
    simp only [AppState.step]
    split
    · next keyId hcall =>
      refine h.unseen (fun key minute => ?_) fun later => ?_
      · rw [AppState.passed_setStage hcall rfl]
        exact Nat.le_add_right _ _
      · unfold Policy.afterClock Policy.afterLimit
        split
        · simp
        · split <;> simp
    · exact h
  | lockLimiter index =>
    simp only [AppState.step]
    split
    · next keyId now hcall => exact h.lockLimiter hcall
    · exact h
  | checkQuota index sum =>
    simp only [AppState.step]
    split
    · next keyId now hcall =>
      refine h.unseen (fun key minute => ?_) fun later => ?_
      · exact (AppState.passed_setStage_same hcall (passedIn_afterQuota policy now minute sum)).ge
      · unfold Policy.afterQuota
        split
        · split <;> simp
        · simp
    · exact h

end Deserved

/-- **Nobody is refused for nothing.** In every interleaving, also one whose clock readings come out
of order, a call refused for its rate has as many calls of its key and its minute let through as
the limit that is set. -/
theorem refused_minute_full (policy : Policy) (events : List Event) :
    ∀ call ∈ (AppState.run policy events).calls, ∀ now,
      call.stage = .returned now (some (.deny .rateLimit)) →
        ∃ limit, policy.rateLimit = some ⟨limit⟩ ∧ 0 < limit ∧
          limit ≤ (AppState.run policy events).passed call.keyId (now / 60) := by
  have hstart : Deserved policy .new :=
    ⟨fun _ _ hwindow => (nomatch hwindow), fun _ hcall => absurd hcall List.not_mem_nil⟩
  exact (Trace.run_invariant (AppState.step policy) hstart
    (fun state event h => Deserved.step h event) events).refused

theorem refused_minute_full_second :
    ∃ limit, (some ⟨1⟩ : Option RateLimit) = some ⟨limit⟩ ∧ 0 < limit ∧
      limit ≤ (AppState.run ⟨some ⟨1⟩, none⟩ [.call "k", .call "k", .readClock 0 60,
        .readClock 1 60, .lockLimiter 1, .lockLimiter 0]).passed "k" (60 / 60) :=
  refused_minute_full ⟨some ⟨1⟩, none⟩ [.call "k", .call "k", .readClock 0 60, .readClock 1 60,
    .lockLimiter 1, .lockLimiter 0] ⟨"k", .returned 60 (some (.deny .rateLimit))⟩ (by decide) 60 rfl

end Homie.Gateway
