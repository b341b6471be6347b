/-
What a sweep of the governor may rely on.

A sweep decides about a session from the record it took at its start and from the sinks it saw when
it measured the session, and it freezes the session later.  As long as none of the sessions it
still relies on is disturbed in between, a freeze hits an idle, unpinned session that nobody views;
and every session is frozen once, unless the global budget takes up a candidate that has been idle
for too long already.
-/
import Homie.Engine.Governor
import Homie.Lib.Trace

namespace Homie.Governor

open Trace

/-! ### Freezes -/

/-- The record is one that may be frozen. -/
def Restful (record : SessionRecord) : Prop := record.status = .idle ∧ record.pinned = false

/-- At the moment of the freeze the session was idle, unpinned and had no sink. -/
structure Freeze.Safe (freeze : Freeze) : Prop where
  restful : ∃ record, freeze.record = some record ∧ Restful record
  unattended : freeze.attached = false

/-! ### What a sweep relies on -/

def eligible (record : SessionRecord) : Bool :=
  record.hibernation.isNone && !record.pinned && decide (record.status = .idle)

theorem idleSince_eq_some {record : SessionRecord} {attached : Bool} {since : Int}
    (h : idleSince record attached = some since) : eligible record = true ∧ attached = false := by
  unfold idleSince at h
  split at h
  · cases h
  · next hout =>
      split at h
      · next hidle =>
          simp only [Bool.or_eq_true, not_or, Bool.not_eq_true, Option.isSome_eq_false_iff] at hout
          obtain ⟨⟨hfrozen, hpinned⟩, hattached⟩ := hout
          refine ⟨?_, hattached⟩
          simp [eligible, hfrozen, hpinned, hidle]
      · cases h

def eligibleIds (records : List SessionRecord) : List String := (records.filter eligible).map (·.id)

theorem eligibleIds_cons (record : SessionRecord) (records : List SessionRecord) :
    eligibleIds (record :: records) = eligibleIds [record] ++ eligibleIds records := by
  unfold eligibleIds
  rw [← List.map_append, ← List.filter_append, List.singleton_append]

theorem eligibleIds_tail (record : SessionRecord) (records : List SessionRecord) :
    (eligibleIds records).Sublist (eligibleIds (record :: records)) :=
  ((List.sublist_cons_self record records).filter _).map _

theorem eligibleIds_of_eligible {record : SessionRecord} (h : eligible record = true) :
    eligibleIds [record] = [record.id] := by
  simp [eligibleIds, h]

def candidateIds (candidates : List Candidate) : List String := candidates.map (·.id)

/-- The candidates that the sustained-idle pass leaves alone. -/
def recent (config : GovernorConfig) (now : Int) (candidates : List Candidate) : List Candidate :=
  candidates.filter fun candidate => !overThreshold config now candidate

namespace Phase

/-- The sessions that the sweep may freeze and has found without a sink. -/
def probedIds (config : GovernorConfig) : Phase → List String
  | .sampling loop | .measured _ loop => candidateIds loop.candidates
  | .probed sample attached loop | .sampled sample attached loop =>
    (if attached then [] else eligibleIds [sample.record]) ++ candidateIds loop.candidates
  | .idlePass passed remaining _ now => candidateIds (recent config now passed ++ remaining)
  | .budgetPass remaining _ now => candidateIds (recent config now remaining)
  | .waiting | .done => []

/-- The sessions that the sweep may freeze and has not looked at yet. -/
def listedIds : Phase → List String
  | .sampling loop | .probed _ _ loop | .sampled _ _ loop => eligibleIds loop.records
  | .measured sample loop => eligibleIds [sample.record] ++ eligibleIds loop.records
  | .waiting | .idlePass .. | .budgetPass .. | .done => []

/-- The sessions that the sweep may freeze. -/
def reliedIds (config : GovernorConfig) (phase : Phase) : List String :=
  phase.probedIds config ++ phase.listedIds

end Phase

/-- A session that is live is idle and unpinned. -/
def Calm (world : World) (id : String) : Prop :=
  world.live id = true → ∃ record, world.records.get id = some record ∧ Restful record

/-- A session that is live has no sink. -/
def Unattended (world : World) (id : String) : Prop :=
  world.live id = true → world.hasSinks id = false

/-- The world is still what the sweep relies on. -/
structure Undisturbed (config : GovernorConfig) (phase : Phase) (world : World) : Prop where
  calm : ∀ id ∈ phase.reliedIds config, Calm world id
  unattended : ∀ id ∈ phase.probedIds config, Unattended world id

/-- The global budget takes up a session that the sustained-idle pass has been for. -/
def TakesUpAgain (config : GovernorConfig) (sweep : Sweep) (reading : Reading) : Prop :=
  ∃ candidate remaining excess now, sweep.phase = .budgetPass (candidate :: remaining) excess now ∧
    excess ≠ 0 ∧ config.budgetMinIdle < now - candidate.idleSince ∧
    overThreshold config now candidate = true ∧
    (sweep.world.live candidate.id && reading.stops) = true

/-- The steps that keep freezes safe. -/
def Allowed (config : GovernorConfig) (x : Step Sweep SweepEvent Unit) : Prop :=
  match x.event with
  | .elsewhere world => Undisturbed config x.before.phase world
  | .advance reading => ¬TakesUpAgain config x.before reading

/-! ### The world under a sweep -/

section World

variable {world : World} {id : String} {change : SessionRecord → SessionRecord}

theorem live_modify : (world.modify id change).live = world.live := by
  unfold World.modify
  cases world.records.get id <;> rfl

theorem hasSinks_modify : (world.modify id change).hasSinks = world.hasSinks := by
  unfold World.modify
  cases world.records.get id <;> rfl

/-- A change that writes neither the status nor the pin. -/
structure Harmless (change : SessionRecord → SessionRecord) : Prop where
  id : ∀ record, (change record).id = record.id
  status : ∀ record, (change record).status = record.status
  pinned : ∀ record, (change record).pinned = record.pinned

theorem calm_modify (hchange : Harmless change) {other : String} (h : Calm world other) :
    Calm (world.modify id change) other := by
  intro hlive
  rw [live_modify] at hlive
  obtain ⟨record, hget, hidle, hpinned⟩ := h hlive
  cases hold : world.records.get id with
  | none =>
    refine ⟨record, ?_, hidle, hpinned⟩
    simp only [World.modify, hold]
    exact hget
  | some old =>
    have hid : (change old).id = id := by
      rw [hchange.id, KeyedMap.key_of_get _ hold]
    simp only [World.modify, hold, KeyedMap.get_insert, hid]
    by_cases hother : other = id
    · rw [if_pos hother]
      rw [hother, hold] at hget
      cases hget
      refine ⟨_, rfl, ?_, ?_⟩
      · rw [hchange.status, hidle]
      · rw [hchange.pinned, hpinned]
    · rw [if_neg hother]
      exact ⟨record, hget, hidle, hpinned⟩

theorem unattended_modify {other : String} (h : Unattended world other) :
    Unattended (world.modify id change) other := by
  unfold Unattended
  rw [live_modify, hasSinks_modify]
  exact h

end World

theorem Undisturbed.modify {config : GovernorConfig} {phase : Phase} {world : World}
    (h : Undisturbed config phase world) {change : SessionRecord → SessionRecord}
    (hchange : Harmless change) (id : String) :
    Undisturbed config phase (world.modify id change) where
  calm := fun other hother => calm_modify hchange (h.calm other hother)
  unattended := fun other hother => unattended_modify (h.unattended other hother)

theorem harmless_setHibernation (reason : Hibernation.HibernationReason) (now : Int) :
    Harmless fun record => { record with hibernation := some reason, updatedAt := now } :=
  ⟨fun _ => rfl, fun _ => rfl, fun _ => rfl⟩

theorem harmless_applySample (memoryBytes : UInt64) :
    Harmless fun record => { record with memoryBytes := some memoryBytes } :=
  ⟨fun _ => rfl, fun _ => rfl, fun _ => rfl⟩

/-! ### The invariant -/

def frozenIds (sweep : Sweep) : List String := sweep.freezes.map Freeze.id

structure Inv (config : GovernorConfig) (sweep : Sweep) : Prop where
  safe : ∀ freeze ∈ sweep.freezes, freeze.Safe
  /-- What has been frozen is not relied on any more. -/
  once : (frozenIds sweep ++ sweep.phase.reliedIds config).Nodup
  undisturbed : Undisturbed config sweep.phase sweep.world
  fresh : sweep.phase = .waiting → sweep.freezes = []

theorem inv_start (config : GovernorConfig) (world : World) : Inv config (.start world) where
  safe := fun _ h => absurd h List.not_mem_nil
  once := List.nodup_nil
  undisturbed := ⟨fun _ h => absurd h List.not_mem_nil, fun _ h => absurd h List.not_mem_nil⟩
  fresh := fun _ => rfl

theorem nodup_of_subperm {α : Type} {l l' : List α} (h : l.Subperm l') (hl' : l'.Nodup) :
    l.Nodup := by
  obtain ⟨l₀, hperm, hsub⟩ := h
  exact hperm.nodup_iff.mp (hl'.sublist hsub)

variable {config : GovernorConfig} {sweep : Sweep}

theorem Inv.enter (h : Inv config sweep) {phase : Phase} (hphase : phase ≠ .waiting)
    (hrelied : (phase.reliedIds config).Subperm (sweep.phase.reliedIds config))
    (hprobed : ∀ id ∈ phase.probedIds config, Unattended sweep.world id) :
    Inv config (sweep.enter phase) where
  safe := h.safe
  once := nodup_of_subperm ((List.Subperm.refl _).append hrelied) h.once
  undisturbed := ⟨fun id hid => h.undisturbed.calm id (hrelied.subset hid), hprobed⟩
  fresh := fun hwaiting => absurd hwaiting hphase

theorem Inv.applySample (h : Inv config sweep) (id : String) (memoryBytes : UInt64) :
    Inv config (sweep.applySample id memoryBytes) where
  safe := h.safe
  once := h.once
  undisturbed := h.undisturbed.modify (harmless_applySample memoryBytes) id
  fresh := h.fresh

/-- A session is frozen that the sweep relies on, and it is not relied on any more. -/
theorem Inv.freeze (h : Inv config sweep) {phase : Phase} (hphase : phase ≠ .waiting) {id : String}
    (hid : id ∈ sweep.phase.probedIds config)
    (hrelied : (id :: phase.reliedIds config).Subperm (sweep.phase.reliedIds config))
    (hprobed : phase.probedIds config ⊆ sweep.phase.probedIds config)
    (reason : Hibernation.HibernationReason) (reading : Reading) :
    Inv config ((sweep.freeze id reason reading).enter phase) := by
  have hkept : Inv config (sweep.enter phase) :=
    h.enter hphase (List.Subperm.cons_self.trans hrelied) fun other hother =>
      h.undisturbed.unattended other (hprobed hother)
  unfold Sweep.freeze
  split
  · next hfreezes =>
      have hlive : sweep.world.live id = true := (Bool.and_eq_true _ _ ▸ hfreezes).1
      refine ⟨?_, ?_, hkept.undisturbed.modify (harmless_setHibernation reason reading.now) id,
        fun hwaiting => absurd hwaiting hphase⟩
      · intro freeze hfreeze
        rcases List.mem_append.mp hfreeze with hold | hnew
        · exact h.safe freeze hold
        · rw [List.mem_singleton.mp hnew]
          exact ⟨h.undisturbed.calm id (List.mem_append_left _ hid) hlive,
            h.undisturbed.unattended id hid hlive⟩
      · have hids : frozenIds { sweep with
              world := sweep.world.setHibernation id reason reading.now
              freezes := sweep.freezes ++ [⟨id, sweep.world.records.get id,
                sweep.world.hasSinks id⟩] } ++ phase.reliedIds config =
            frozenIds sweep ++ (id :: phase.reliedIds config) := by
          simp [frozenIds]
        have honce := nodup_of_subperm ((List.Subperm.refl (frozenIds sweep)).append hrelied) h.once
        rw [← hids] at honce
        exact honce
  · exact hkept

/-! ### One step -/

theorem mem_list {world : World} {record : SessionRecord} (h : record ∈ world.list) :
    world.records.get record.id = some record :=
  (world.records.get_eq_some).mpr
    ⟨(List.perm_insertionSort _ _).mem_iff.mp h, rfl⟩

theorem eligible_iff {record : SessionRecord} (h : eligible record = true) : Restful record := by
  simp only [eligible, Bool.and_eq_true, Bool.not_eq_true', decide_eq_true_eq] at h
  exact ⟨h.2, h.1.2⟩

theorem Inv.take (h : Inv config sweep) (hphase : sweep.phase = .waiting) :
    Inv config (sweep.enter (.sampling ⟨sweep.world.list, [], 0⟩)) where
  safe := h.safe
  once := by
    have hfrozen : frozenIds (sweep.enter (.sampling ⟨sweep.world.list, [], 0⟩)) = [] :=
      congrArg (List.map Freeze.id) (h.fresh hphase)
    have hids : (sweep.world.list.map SessionRecord.id).Nodup :=
      ((List.perm_insertionSort _ _).map SessionRecord.id).nodup_iff.mpr sweep.world.records.keyed
    rw [hfrozen]
    exact hids.sublist (List.filter_sublist.map SessionRecord.id)
  undisturbed := by
    refine ⟨fun id hid _ => ?_, fun id hid => absurd hid List.not_mem_nil⟩
    obtain ⟨record, hrecord, rfl⟩ := List.mem_map.mp hid
    obtain ⟨hlisted, heligible⟩ := List.mem_filter.mp hrecord
    exact ⟨record, mem_list hlisted, eligible_iff heligible⟩
  fresh := fun hwaiting => nomatch hwaiting

section Advance

variable {world : World} {freezes : List Freeze} (tick : Nat) (reading : Reading)

theorem inv_sampling {loop : Sampling} (h : Inv config ⟨world, .sampling loop, freezes⟩) :
    Inv config (Sweep.advance config tick ⟨world, .sampling loop, freezes⟩ reading) := by
  obtain ⟨records, candidates, total⟩ := loop
  have hunattended := h.undisturbed.unattended
  cases records with
  | nil => exact h.enter nofun (List.Subperm.refl _) hunattended
  | cons record records =>
    have htail : (candidateIds candidates ++ eligibleIds records).Subperm
        (candidateIds candidates ++ eligibleIds (record :: records)) :=
      ((List.Sublist.refl _).append (eligibleIds_tail record records)).subperm
    unfold Sweep.advance
    dsimp only
    split
    · have happlied := h.applySample record.id reading.footprint
      split
      · exact happlied.enter nofun htail happlied.undisturbed.unattended
      · exact h.enter nofun htail hunattended
    · split
      · exact h.enter nofun htail hunattended
      · refine h.enter nofun ?_ hunattended
        show (_ ++ (eligibleIds [record] ++ eligibleIds records)).Subperm _
        rw [← eligibleIds_cons]
        exact List.Subperm.refl _

theorem inv_measured {sample : Sample} {loop : Sampling}
    (h : Inv config ⟨world, .measured sample loop, freezes⟩) :
    Inv config (Sweep.advance config tick ⟨world, .measured sample loop, freezes⟩ reading) := by
  have hunattended := h.undisturbed.unattended
  unfold Sweep.advance
  dsimp only
  cases hsinks : world.hasSinks sample.record.id with
  | true =>
    have hskip : (candidateIds loop.candidates ++ eligibleIds loop.records).Subperm
        (candidateIds loop.candidates ++
          (eligibleIds [sample.record] ++ eligibleIds loop.records)) :=
      ((List.Sublist.refl _).append (List.sublist_append_right _ _)).subperm
    exact h.enter nofun hskip hunattended
  | false =>
    have hmove : (eligibleIds [sample.record] ++ candidateIds loop.candidates ++
        eligibleIds loop.records).Subperm (candidateIds loop.candidates ++
          (eligibleIds [sample.record] ++ eligibleIds loop.records)) := by
      rw [← List.append_assoc]
      exact (List.perm_append_comm.append_right _).subperm
    refine h.enter nofun hmove fun id hid => ?_
    rcases List.mem_append.mp hid with hsample | hcandidate
    · obtain ⟨record, hrecord, rfl⟩ := List.mem_map.mp hsample
      rw [List.mem_singleton.mp (List.mem_of_mem_filter hrecord)]
      exact fun _ => hsinks
    · exact hunattended id hcandidate

/-- A session that turns out not to be eligible is not relied on any more. -/
theorem inv_sampled {sample : Sample} {attached : Bool} {loop : Sampling}
    (h : Inv config ⟨world, .sampled sample attached loop, freezes⟩) :
    Inv config
      (Sweep.advance config tick ⟨world, .sampled sample attached loop, freezes⟩ reading) := by
  have hunattended := h.undisturbed.unattended
  unfold Sweep.advance
  dsimp only
  cases hsince : idleSince sample.record attached with
  | none =>
    have hlist : (candidateIds loop.candidates ++ eligibleIds loop.records).Subperm
        ((if attached then [] else eligibleIds [sample.record]) ++
          candidateIds loop.candidates ++ eligibleIds loop.records) := by
      rw [List.append_assoc]
      exact (List.sublist_append_right _ _).subperm
    exact h.enter nofun hlist fun id hid => hunattended id (List.mem_append_right _ hid)
  | some since =>
    obtain ⟨heligible, rfl⟩ := idleSince_eq_some hsince
    have hhead : (Phase.sampled sample false loop).probedIds config =
        sample.record.id :: candidateIds loop.candidates := by
      simp [Phase.probedIds, eligibleIds_of_eligible heligible]
    have hrelied : (Phase.sampled sample false loop).reliedIds config =
        sample.record.id :: (candidateIds loop.candidates ++ eligibleIds loop.records) :=
      congrArg (· ++ eligibleIds loop.records) hhead
    dsimp only
    split
    · refine h.freeze (by nofun) ?_ ?_ ?_ .memoryPressure reading
      · rw [hhead]
        exact List.mem_cons_self
      · rw [hrelied]
        exact List.Subperm.refl _
      · rw [hhead]
        exact List.subset_cons_self _ _
    · have hids : (candidateIds (loop.candidates ++
          [⟨sample.record.id, since, sample.footprint⟩])).Perm
          (sample.record.id :: candidateIds loop.candidates) := by
        unfold candidateIds
        rw [List.map_append]
        exact List.perm_append_singleton _ _
      refine h.enter nofun ?_ fun id hid => hunattended id ?_
      · rw [hrelied]
        exact (hids.append_right _).subperm
      · rw [hhead]
        exact hids.mem_iff.mp hid

theorem reliedIds_idlePass (passed remaining : List Candidate) (total : UInt64) (now : Int) :
    (Phase.idlePass passed remaining total now).reliedIds config =
      (Phase.idlePass passed remaining total now).probedIds config := List.append_nil _

theorem reliedIds_budgetPass (remaining : List Candidate) (excess : UInt64) (now : Int) :
    (Phase.budgetPass remaining excess now).reliedIds config =
      (Phase.budgetPass remaining excess now).probedIds config := List.append_nil _

theorem inv_idlePass {passed remaining : List Candidate} {total : UInt64} {now : Int}
    (h : Inv config ⟨world, .idlePass passed remaining total now, freezes⟩) :
    Inv config (Sweep.advance config tick
      ⟨world, .idlePass passed remaining total now, freezes⟩ reading) := by
  have hunattended := h.undisturbed.unattended
  unfold Sweep.advance
  cases remaining with
  | nil =>
    dsimp only
    split
    · have hsorted : (candidateIds (recent config now (passed.insertionSort fun left right =>
          left.idleSince ≤ right.idleSince))).Perm
          ((Phase.idlePass passed [] total now).probedIds config) := by
        show List.Perm _ (candidateIds (_ ++ []))
        rw [List.append_nil]
        exact ((List.perm_insertionSort _ _).filter _).map _
      refine h.enter nofun ?_ fun id hid => hunattended id (hsorted.mem_iff.mp hid)
      rw [reliedIds_idlePass, reliedIds_budgetPass]
      exact hsorted.subperm
    · exact h.enter nofun List.nil_subperm fun id hid => absurd hid List.not_mem_nil
  | cons candidate remaining =>
    have hhere : (Phase.idlePass passed (candidate :: remaining) total now).probedIds config =
        candidateIds (recent config now passed) ++ candidate.id :: candidateIds remaining := by
      simp [Phase.probedIds, candidateIds]
    dsimp only
    split
    · next hover =>
        have hnext : (Phase.idlePass (passed ++ [candidate]) remaining total now).probedIds
            config = candidateIds (recent config now passed) ++ candidateIds remaining := by
          simp [Phase.probedIds, candidateIds, recent, hover]
        refine h.freeze (by nofun) ?_ ?_ ?_ .idle reading
        · rw [hhere]
          simp
        · rw [reliedIds_idlePass, reliedIds_idlePass, hnext, hhere]
          exact List.perm_middle.symm.subperm
        · rw [hnext, hhere]
          exact fun id hid => List.perm_middle.mem_iff.mpr (List.mem_cons_of_mem _ hid)
    · next hover =>
        have hnext : (Phase.idlePass (passed ++ [candidate]) remaining total now).probedIds
            config = (Phase.idlePass passed (candidate :: remaining) total now).probedIds
              config := by
          simp [Phase.probedIds, candidateIds, recent, hover]
        refine h.enter nofun ?_ ?_
        · rw [reliedIds_idlePass, reliedIds_idlePass, hnext]
        · rw [hnext]
          exact hunattended

theorem inv_budgetPass {remaining : List Candidate} {excess : UInt64} {now : Int}
    (h : Inv config ⟨world, .budgetPass remaining excess now, freezes⟩)
    (hagain : ¬TakesUpAgain config ⟨world, .budgetPass remaining excess now, freezes⟩ reading) :
    Inv config
      (Sweep.advance config tick ⟨world, .budgetPass remaining excess now, freezes⟩ reading) := by
  have hunattended := h.undisturbed.unattended
  have hdone : Inv config (Sweep.enter ⟨world, .budgetPass remaining excess now, freezes⟩ .done) :=
    h.enter nofun List.nil_subperm fun id hid => absurd hid List.not_mem_nil
  unfold Sweep.advance
  cases remaining with
  | nil => exact hdone
  | cons candidate remaining =>
    have htail : (candidateIds (recent config now remaining)).Sublist
        (candidateIds (recent config now (candidate :: remaining))) :=
      ((List.sublist_cons_self candidate remaining).filter _).map _
    have hskip : ∀ left, Inv config (Sweep.enter
        ⟨world, .budgetPass (candidate :: remaining) excess now, freezes⟩
        (.budgetPass remaining left now)) := by
      intro left
      refine h.enter nofun ?_ fun id hid => hunattended id (htail.subset hid)
      rw [reliedIds_budgetPass, reliedIds_budgetPass]
      exact htail.subperm
    dsimp only
    split
    · exact hdone
    · next hexcess =>
        split
        · next hidle =>
            cases hover : overThreshold config now candidate with
            | true =>
              -- the session is not frozen
              have hkeeps : ¬(world.live candidate.id && reading.stops) = true :=
                fun hfreezes => hagain
                  ⟨candidate, remaining, excess, now, rfl, hexcess, hidle, hover, hfreezes⟩
              rw [Sweep.freeze, if_neg hkeeps]
              exact hskip _
            | false =>
              have hhere : (Phase.budgetPass (candidate :: remaining) excess now).probedIds
                  config = candidate.id :: candidateIds (recent config now remaining) := by
                simp [Phase.probedIds, candidateIds, recent, hover]
              refine h.freeze (by nofun) ?_ ?_ ?_ .memoryPressure reading
              · rw [hhere]
                exact List.mem_cons_self
              · rw [reliedIds_budgetPass, reliedIds_budgetPass, hhere]
                exact List.Subperm.refl _
              · exact htail.subset
        · exact hskip excess

end Advance

theorem inv_advance (h : Inv config sweep) (tick : Nat) {reading : Reading}
    (hagain : ¬TakesUpAgain config sweep reading) :
    Inv config (sweep.advance config tick reading) := by
  obtain ⟨world, phase, freezes⟩ := sweep
  cases phase with
  | waiting => exact h.take rfl
  | sampling loop => exact inv_sampling tick reading h
  | measured sample loop => exact inv_measured tick reading h
  | probed sample attached loop =>
    have happlied := h.applySample sample.record.id sample.footprint
    exact happlied.enter nofun (List.Subperm.refl _) happlied.undisturbed.unattended
  | sampled sample attached loop => exact inv_sampled tick reading h
  | idlePass passed remaining total now => exact inv_idlePass tick reading h
  | budgetPass remaining excess now => exact inv_budgetPass tick reading h hagain
  | done => exact h

theorem inv_step (tick : Nat) (event : SweepEvent)
    (hallowed : Allowed config (take (step config tick) sweep event)) (h : Inv config sweep) :
    Inv config (step config tick sweep event).1 := by
  cases event with
  | elsewhere world => exact ⟨h.safe, h.once, hallowed, h.fresh⟩
  | advance reading => exact inv_advance h tick hallowed

/-! ### A whole sweep -/

/--
**A sweep freezes idle, unpinned, unattended sessions only, and each of them once,** whatever
happens between its steps, as long as no step disturbs a session that the sweep still relies on
and the global budget takes up no candidate that the sustained-idle pass has been for.
-/
theorem sweep_freezes_safely (config : GovernorConfig) (tick : Nat) (world : World)
    (events : List SweepEvent)
    (h : ∀ x ∈ trace (step config tick) (.start world) events, Allowed config x) :
    (∀ freeze ∈ (run (step config tick) (.start world) events).freezes, freeze.Safe) ∧
      ((run (step config tick) (.start world) events).freezes.map Freeze.id).Nodup := by
  have hinv : Inv config (run (step config tick) (.start world) events) :=
    run_invariant_where (step config tick) h (inv_start config world) fun _ event =>
      inv_step tick event
  exact ⟨hinv.safe, (List.nodup_append.mp hinv.once).1⟩

def defaults : GovernorConfig := ⟨900_000, 6_442_450_944, 300_000, 5⟩

/-- A session that has been idle since the beginning. -/
def resting : SessionRecord := ⟨"s1", .idle, false, none, none, none, 0, none⟩

def restingWorld : World := ⟨.insert .empty resting, fun _ => true, fun _ => false⟩

/-- The session takes 10 bytes, the budget is `budget` and the time 1000 s. -/
def reading (budget : UInt64) : Reading := ⟨100, 10, true, 1_000_000, budget⟩

def advances (count : Nat) (budget : UInt64) : List SweepEvent :=
  List.replicate count (.advance (reading budget))

def attachedElsewhere : World := { restingWorld with hasSinks := (· = "s2") }

/-- Somebody attaches to another session, and the sweep takes the idle one from its record to the
freeze. -/
theorem sweep_freezes_safely_resting :
    (run (step defaults 1) (.start restingWorld)
      (advances 1 1_000 ++ .elsewhere attachedElsewhere :: advances 6 1_000)).freezes =
        [⟨"s1", some { resting with memoryBytes := some 10 }, false⟩] ∧
      Freeze.Safe ⟨"s1", some { resting with memoryBytes := some 10 }, false⟩ := by
  have hfreezes : (run (step defaults 1) (.start restingWorld)
      (advances 1 1_000 ++ .elsewhere attachedElsewhere :: advances 6 1_000)).freezes =
        [⟨"s1", some { resting with memoryBytes := some 10 }, false⟩] := by rfl
  refine ⟨hfreezes, (sweep_freezes_safely defaults 1 restingWorld
    (advances 1 1_000 ++ .elsewhere attachedElsewhere :: advances 6 1_000) ?_).1 _ ?_⟩
  · intro x hx
    simp only [advances, List.replicate, List.cons_append, List.nil_append, trace, List.mem_cons,
      List.not_mem_nil, or_false] at hx
    rcases hx with rfl | rfl | rfl | rfl | rfl | rfl | rfl | rfl
    case inr.inl =>
      exact ⟨fun id hid _ => ⟨resting, by
        rw [List.mem_singleton.mp hid]
        rfl, rfl, rfl⟩, fun id hid => absurd hid List.not_mem_nil⟩
    all_goals
      rintro ⟨_, _, _, _, hphase, _⟩
      cases hphase
  · rw [hfreezes]
    exact List.mem_singleton.mpr rfl

/-- A session is attached to after the sweep has asked for its sinks, and it is frozen; and a
session that the sustained-idle pass has frozen is frozen again for the global budget. -/
theorem attached_and_frozen_twice :
    (∃ freeze ∈ (run (step defaults 1) (.start restingWorld) (advances 3 1_000 ++
        .elsewhere { restingWorld with hasSinks := fun _ => true } :: advances 4 1_000)).freezes,
      freeze.attached = true) ∧
    ¬((run (step defaults 1) (.start restingWorld)
      (advances 9 1)).freezes.map Freeze.id).Nodup := by
  decide

end Homie.Governor
