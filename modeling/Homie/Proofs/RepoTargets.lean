/-
Whose answer a repository target is.

An entry is keyed by the host alone, so the answer to a lookup lands in it whichever popover asked.
As long as no lookup outlives its popover, every entry is the answer to a lookup of the popover that
is open, and a request finds an entry only where this popover has already asked.
-/
import Homie.App.RepoTargets

namespace Homie.App.RepoTargeting

open Trace

variable {store : RepoTargeting}

abbrev Taken := Step RepoTargeting Event (Option LocateRepo)

/-- Every entry that is an answer answers a lookup that the open popover has made for its
session. -/
def Belongs (store : RepoTargeting) : Prop :=
  ∀ host target, store.repoTarget host = some target → target ≠ .pending →
    ∃ lookup, store.answeredBy (repoTargetKey host) = some lookup ∧
      lookup.key = repoTargetKey host ∧ lookup.popover = store.popover ∧
        store.repoTargetSession = some lookup.sessionId

/-- Since the open popover began it has emitted a lookup with this key for the session. -/
def Asked (key : String) (sessionId : SessionId) (history : List Taken) : Prop :=
  Since (fun x => ∃ lookup, x.outcome = some lookup ∧ lookup.key = key ∧
      lookup.sessionId = sessionId)
    (fun x => x.event ≠ .beginRepoTargeting) history

/-- After the step every answer belongs to the open popover, and if the step is a request, the
popover has a lookup for its session. -/
def Faithful (history : List Taken) (x : Taken) : Prop :=
  Belongs x.after ∧
    ∀ host sessionId, x.event = .requestRepoTarget host →
      x.after.repoTargetSession = some sessionId →
        Asked (repoTargetKey host) sessionId (history ++ [x])

/-- If the step delivers an answer, the popover that asked is still the open one. -/
def AnswersInTime (x : Taken) : Prop :=
  ∀ index result lookup, x.event = .answered index result →
    x.before.inFlight[index]? = some lookup → lookup.popover = x.before.popover

/-- What a run keeps: the lookups of the open popover are for its session, its answers belong to
it, and it has asked for whatever has an entry. -/
structure Tracked (history : List Taken) (store : RepoTargeting) : Prop where
  current : ∀ lookup ∈ store.inFlight, lookup.popover ≤ store.popover ∧
    (lookup.popover = store.popover → store.repoTargetSession = some lookup.sessionId ∧
      Asked lookup.key lookup.sessionId history)
  answered : ∀ key target, store.repoTargets key = some target → target ≠ .pending →
    ∃ lookup, store.answeredBy key = some lookup ∧ lookup.key = key ∧
      lookup.popover = store.popover ∧ store.repoTargetSession = some lookup.sessionId
  asked : ∀ key target, store.repoTargets key = some target →
    ∃ sessionId, store.repoTargetSession = some sessionId ∧ Asked key sessionId history

theorem Tracked.start (hosts : List String) (defaultSpawnHost selectedSessionId : Option String) :
    Tracked [] (RepoTargeting.start hosts defaultSpawnHost selectedSessionId) where
  current _ h := absurd h List.not_mem_nil
  answered _ _ h := nomatch h
  asked _ _ h := nomatch h

theorem Tracked.belongs {history : List Taken} (h : Tracked history store) : Belongs store :=
  fun _ target htarget hanswer => h.answered _ target htarget hanswer

theorem Asked.concat {key : String} {sessionId : SessionId} {history : List Taken} {x : Taken}
    (h : Asked key sessionId history) (hx : x.event ≠ .beginRepoTargeting) :
    Asked key sessionId (history ++ [x]) :=
  Since.concat h hx

theorem Tracked.frame {history : List Taken} {x : Taken} (h : Tracked history x.before)
    (hevent : x.event ≠ .beginRepoTargeting) (hflight : x.after.inFlight = x.before.inFlight)
    (htargets : x.after.repoTargets = x.before.repoTargets)
    (hsession : x.after.repoTargetSession = x.before.repoTargetSession)
    (hpopover : x.after.popover = x.before.popover)
    (hanswered : x.after.answeredBy = x.before.answeredBy) :
    Tracked (history ++ [x]) x.after where
  current lookup hlookup := by
    rw [hflight] at hlookup
    rw [hpopover, hsession]
    obtain ⟨hle, hsame⟩ := h.current lookup hlookup
    refine ⟨hle, fun heq => ?_⟩
    obtain ⟨hfor, hasked⟩ := hsame heq
    exact ⟨hfor, hasked.concat hevent⟩
  answered key target htarget := by
    rw [htargets] at htarget
    rw [hanswered, hpopover, hsession]
    exact h.answered key target htarget
  asked key target htarget := by
    rw [htargets] at htarget
    rw [hsession]
    obtain ⟨sessionId, hfor, hasked⟩ := h.asked key target htarget
    exact ⟨sessionId, hfor, hasked.concat hevent⟩

theorem Tracked.begin {history : List Taken} (h : Tracked history store) :
    Tracked (history ++ [take step store .beginRepoTargeting]) store.beginRepoTargeting.1 where
  current lookup hlookup := by
    have hle := (h.current lookup hlookup).1
    change lookup.popover ≤ store.popover + 1 ∧ (lookup.popover = store.popover + 1 → _)
    exact ⟨by omega, fun heq => by omega⟩
  answered _ _ htarget := nomatch htarget
  asked _ _ htarget := nomatch htarget

theorem Tracked.request {history : List Taken} (h : Tracked history store) {host : Option String}
    {sessionId : SessionId} (hsession : store.repoTargetSession = some sessionId)
    (hnew : store.repoTargets (repoTargetKey host) = none) :
    Tracked (history ++ [take step store (.requestRepoTarget host)])
      (store.requestRepoTarget host).1 := by
  have hrequest : store.requestRepoTarget host =
      ({ store.setEntry (repoTargetKey host) .pending with
          inFlight := store.inFlight ++
            [⟨repoTargetKey host, host, sessionId, store.popover⟩] },
        some ⟨repoTargetKey host, host, sessionId, store.popover⟩) := by
    simp [requestRepoTarget, hsession, hnew]
  have hnow : Asked (repoTargetKey host) sessionId
      (history ++ [take step store (.requestRepoTarget host)]) :=
    since_now ⟨_, congrArg Prod.snd hrequest, rfl, rfl⟩
  have hevent : (take step store (.requestRepoTarget host)).event ≠ .beginRepoTargeting := nofun
  rw [hrequest]
  refine ⟨?_, ?_, ?_⟩
  · intro lookup hlookup
    rcases List.mem_append.mp hlookup with hlookup | hlookup
    · obtain ⟨hle, hsame⟩ := h.current lookup hlookup
      exact ⟨hle, fun heq => ⟨(hsame heq).1, (hsame heq).2.concat hevent⟩⟩
    · rw [List.mem_singleton.mp hlookup]
      exact ⟨le_rfl, fun _ => ⟨hsession, hnow⟩⟩
  · intro key target htarget hanswer
    by_cases hkey : key = repoTargetKey host
    · simp only [setEntry, if_pos hkey, Option.some.injEq] at htarget
      exact absurd htarget.symm hanswer
    · simp only [setEntry, if_neg hkey] at htarget
      exact h.answered key target htarget hanswer
  · intro key target htarget
    by_cases hkey : key = repoTargetKey host
    · rw [hkey]
      exact ⟨sessionId, hsession, hnow⟩
    · simp only [setEntry, if_neg hkey] at htarget
      obtain ⟨other, hother, hasked⟩ := h.asked key target htarget
      exact ⟨other, hother, hasked.concat hevent⟩

theorem Tracked.answer {history : List Taken} (h : Tracked history store) {index : Nat}
    {result : Except String LocatedRepo} {lookup : LocateRepo} (hmem : lookup ∈ store.inFlight)
    (hcurrent : lookup.popover = store.popover) :
    Tracked (history ++ [take step store (.answered index result)])
      (store.locateRepo lookup result) := by
  have hevent : (take step store (.answered index result)).event ≠ .beginRepoTargeting := nofun
  obtain ⟨hfor, hasked⟩ := (h.current lookup hmem).2 hcurrent
  refine ⟨?_, ?_, ?_⟩
  · intro other hother
    obtain ⟨hle, hsame⟩ := h.current other (List.mem_of_mem_erase hother)
    exact ⟨hle, fun heq => ⟨(hsame heq).1, (hsame heq).2.concat hevent⟩⟩
  · intro key target htarget hanswer
    by_cases hkey : key = lookup.key
    · exact ⟨lookup, by simp [locateRepo, hkey], hkey.symm, hcurrent, hfor⟩
    · simp only [locateRepo, setRepoTarget, setEntry, if_neg hkey] at htarget ⊢
      exact h.answered key target htarget hanswer
  · intro key target htarget
    by_cases hkey : key = lookup.key
    · rw [hkey]
      exact ⟨lookup.sessionId, hfor, hasked.concat hevent⟩
    · simp only [locateRepo, setRepoTarget, setEntry, if_neg hkey] at htarget
      obtain ⟨other, hother, hold⟩ := h.asked key target htarget
      exact ⟨other, hother, hold.concat hevent⟩

theorem Tracked.step {history : List Taken} (h : Tracked history store) (event : Event)
    (htime : AnswersInTime (take RepoTargeting.step store event)) :
    Tracked (history ++ [take RepoTargeting.step store event])
      (RepoTargeting.step store event).1 := by
  cases event with
  | beginRepoTargeting => exact h.begin
  | requestRepoTarget host =>
    cases hsession : store.repoTargetSession with
    | none =>
      have hsame : (RepoTargeting.step store (.requestRepoTarget host)).1 = store := by
        simp [RepoTargeting.step, requestRepoTarget, hsession]
      exact h.frame nofun (congrArg _ hsame) (congrArg _ hsame) (congrArg _ hsame)
        (congrArg _ hsame) (congrArg _ hsame)
    | some sessionId =>
      cases hentry : store.repoTargets (repoTargetKey host) with
      | none => exact h.request hsession hentry
      | some target =>
        have hsame : (RepoTargeting.step store (.requestRepoTarget host)).1 = store := by
          simp [RepoTargeting.step, requestRepoTarget, hsession, hentry]
        exact h.frame nofun (congrArg _ hsame) (congrArg _ hsame) (congrArg _ hsame)
          (congrArg _ hsame) (congrArg _ hsame)
  | select id => exact h.frame nofun rfl rfl rfl rfl rfl
  | setHosts hosts => exact h.frame nofun rfl rfl rfl rfl rfl
  | setDefaultSpawnHost host => exact h.frame nofun rfl rfl rfl rfl rfl
  | answered index result =>
    cases hlookup : store.inFlight[index]? with
    | none =>
      have hsame : (RepoTargeting.step store (.answered index result)).1 = store := by
        simp [RepoTargeting.step, hlookup]
      exact h.frame nofun (congrArg _ hsame) (congrArg _ hsame) (congrArg _ hsame)
        (congrArg _ hsame) (congrArg _ hsame)
    | some lookup =>
      have hanswer := @Tracked.answer _ _ h index result _
        (List.mem_of_getElem? hlookup) (htime index result lookup rfl hlookup)
      simpa only [RepoTargeting.step, hlookup] using hanswer

theorem Tracked.faithful_iff {history : List Taken} (h : Tracked history store) (event : Event) :
    Faithful history (take RepoTargeting.step store event) ↔
      AnswersInTime (take RepoTargeting.step store event) := by
  constructor
  · intro hfaithful index result lookup hevent hlookup
    change store.inFlight[index]? = some lookup at hlookup
    change event = _ at hevent
    subst hevent
    have hstep : (RepoTargeting.step store (.answered index result)).1 =
        store.locateRepo lookup result := by
      simp [RepoTargeting.step, hlookup]
    have hbelongs := hfaithful.1
    change Belongs (RepoTargeting.step store (.answered index result)).1 at hbelongs
    rw [hstep] at hbelongs
    -- the entry of the lookup is now its answer
    have hentry : (store.locateRepo lookup result).repoTarget (some lookup.key) =
        some (LocatedRepo.target result) := by
      simp [repoTarget, repoTargetKey, locateRepo, setRepoTarget, setEntry]
    have hanswer : LocatedRepo.target result ≠ .pending := by
      unfold LocatedRepo.target
      split <;> exact nofun
    obtain ⟨owner, howner, _, hpopover, _⟩ := hbelongs _ _ hentry hanswer
    have hself : (store.locateRepo lookup result).answeredBy (repoTargetKey (some lookup.key)) =
        some lookup := by
      simp [repoTargetKey, locateRepo]
    rw [hself] at howner
    cases howner
    exact hpopover
  · intro htime
    have hafter := h.step event htime
    refine ⟨hafter.belongs, ?_⟩
    intro host sessionId hevent hsession
    change event = _ at hevent
    subst hevent
    cases hentry : (RepoTargeting.step store (.requestRepoTarget host)).1.repoTargets
        (repoTargetKey host) with
    | none =>
      -- a request leaves an entry where there is a session
      change (store.requestRepoTarget host).1.repoTargetSession = _ at hsession
      change (store.requestRepoTarget host).1.repoTargets _ = none at hentry
      unfold requestRepoTarget at hentry hsession
      split at hentry
      · next hnone => simp only [hnone] at hsession; cases hsession
      · dsimp only at hentry
        split at hentry
        · next hsome => rw [hentry] at hsome; cases hsome
        · simp [setEntry] at hentry
    | some target =>
      obtain ⟨other, hother, hasked⟩ := hafter.asked _ target hentry
      have heq : some other = some sessionId := hother.symm.trans hsession
      rw [← Option.some.inj heq]
      exact hasked

/-- **A repository target belongs to the popover that asked.**  All along a run every answer belongs
to the open popover and every request has led to a lookup for its session, exactly when no answer
comes after the popover that asked for it. -/
theorem repo_targets_belong_iff (hosts : List String)
    (defaultSpawnHost selectedSessionId : Option String) (events : List Event) :
    (∀ front x back, trace RepoTargeting.step (start hosts defaultSpawnHost selectedSessionId)
        events = front ++ x :: back → Faithful front x) ↔
      ∀ x ∈ trace RepoTargeting.step (start hosts defaultSpawnHost selectedSessionId) events,
        AnswersInTime x :=
  trace_good_iff RepoTargeting.step (P := Tracked)
    (Tracked.start hosts defaultSpawnHost selectedSessionId)
    (fun _ _ event htime h => h.step event htime) (fun _ _ event h => h.faithful_iff event) events

/-- The answer to the popover of another session lands in the new one, and its own lookup is never
made. -/
theorem answer_of_earlier_popover :
    let events := [.beginRepoTargeting, .requestRepoTarget none, .select (some "two"),
      .beginRepoTargeting, .answered 0 (.ok ⟨some "/work/one", none⟩)]
    let store := run RepoTargeting.step (start [] none (some "one")) events
    store.repoTargetSession = some "two" ∧ store.repoTarget none = some (.resolved "/work/one") ∧
      (store.answeredBy "local").map (·.sessionId) = some "one" ∧
        (store.requestRepoTarget none).2 = none := by
  decide

end Homie.App.RepoTargeting
