/-
What is left of an action once it has been answered.

An action changes the store first and asks the daemon afterwards.  What sets the store right again
is the event of the change: a request that the daemon carries out publishes the record, or its
removal, and the store takes that over whatever it had.  So the store tells the truth as soon as
every request has been carried out and every event applied.  A request that fails publishes
nothing, and the change that went before it stays.
-/
import Homie.Proofs.Sidebar
import Homie.Proofs.StoreFeed

namespace Homie.App

open Registers Trace

/-! ### The register of a session and the events on their way to it -/

/-- What the events to come make of the value the store has for a session. -/
def arrive (pending : List Event) (id : SessionId) (value : Option SessionRecord) :
    Option SessionRecord :=
  sampling.applyAll (pending.map (sessionChange id)) value

theorem arrive_append (front back : List Event) (id : SessionId) (value : Option SessionRecord) :
    arrive (front ++ back) id value = arrive back id (arrive front id value) := by
  unfold arrive
  rw [List.map_append, sampling.applyAll_append]

theorem arrive_cons (event : Event) (rest : List Event) (id : SessionId)
    (value : Option SessionRecord) :
    arrive (event :: rest) id value =
      arrive rest id (sampling.apply value (sessionChange id event)) := rfl

theorem arrive_isSome {value other : Option SessionRecord} (h : value.isSome = other.isSome)
    (pending : List Event) (id : SessionId) :
    (arrive pending id value).isSome = (arrive pending id other).isSome :=
  sampling.isSome_applyAll_congr h _

/-- A session goes only by an event that removes it. -/
theorem sampling_gone {value : Option SessionRecord} (hvalue : value.isSome = true)
    {id : SessionId} {event : Event}
    (h : sampling.apply value (sessionChange id event) = none) : event = .sessionRemoved id := by
  obtain ⟨record, rfl⟩ := Option.isSome_iff_exists.mp hvalue
  cases event with
  | sessionUpdated session =>
    by_cases hid : id = session.id
    · rw [sessionChange, if_pos hid] at h
      cases h
    · rw [sessionChange, if_neg hid] at h
      cases h
  | sessionResources resources =>
    by_cases hid : id = resources.id
    · rw [sessionChange, if_pos hid] at h
      cases h
    · rw [sessionChange, if_neg hid] at h
      cases h
  | sessionRemoved removed =>
    by_cases hid : id = removed
    · rw [hid]
    · rw [sessionChange, if_neg hid] at h
      cases h
  | projectUpdated project => cases h

/-- An event to come removes the session while the store has it. -/
def Clears (pending : List Event) (id : SessionId) (value : Option SessionRecord) : Prop :=
  ∃ front back, pending = front ++ .sessionRemoved id :: back ∧
    (arrive front id value).isSome = true

theorem Clears.congr {pending : List Event} {id : SessionId} {value other : Option SessionRecord}
    (h : Clears pending id value) (heq : value.isSome = other.isSome) :
    Clears pending id other := by
  obtain ⟨front, back, hpending, hsome⟩ := h
  exact ⟨front, back, hpending, by rw [← arrive_isSome heq]; exact hsome⟩

theorem Clears.append {pending : List Event} {id : SessionId} {value : Option SessionRecord}
    (h : Clears pending id value) (more : List Event) : Clears (pending ++ more) id value := by
  obtain ⟨front, back, rfl, hsome⟩ := h
  exact ⟨front, back ++ more, by simp, hsome⟩

/-- A session that the store has and the daemon has not is removed by an event to come. -/
theorem clears_of_gone {pending : List Event} {id : SessionId} {value : Option SessionRecord}
    (hvalue : value.isSome = true) (hgone : arrive pending id value = none) :
    Clears pending id value := by
  induction pending generalizing value with
  | nil =>
    rw [show value = none from hgone] at hvalue
    cases hvalue
  | cons event rest ih =>
    rw [arrive_cons] at hgone
    cases hnext : sampling.apply value (sessionChange id event) with
    | none =>
      rw [sampling_gone hvalue hnext]
      exact ⟨[], rest, rfl, hvalue⟩
    | some record =>
      rw [hnext] at hgone
      obtain ⟨front, back, hrest, hsome⟩ := ih rfl hgone
      refine ⟨event :: front, back, by rw [hrest, List.cons_append], ?_⟩
      rw [arrive_cons, hnext]
      exact hsome

/-! ### Calls on the store -/

/-- The effect asks for a change that the store has made already. -/
def Touches (id : SessionId) : StoreEffect → Prop
  | .remove _ => False
  | .resume other automatic => other = id ∧ automatic = false
  | .archive other => other = id
  | .unarchive other => other = id
  | .rename other _ => other = id

theorem Touches.id_eq {id : SessionId} {effect : StoreEffect} (h : Touches id effect) :
    effect.id = id := by
  cases effect with
  | remove other => cases h
  | resume other automatic => exact h.1
  | archive other => exact h
  | unarchive other => exact h
  | rename other title => exact h

/-- What calls do: they change records that they ask the daemon to change, and hide sessions
that they ask the daemon to remove. -/
structure Calls (store store' : SessionStore) : Prop where
  effects : ∀ effect ∈ store.effects, effect ∈ store'.effects
  same : ∀ id, store'.sessions.get id = store.sessions.get id ∨
    ∃ effect ∈ store'.effects, Touches id effect
  present : ∀ id, (store'.sessions.get id).isSome = (store.sessions.get id).isSome
  closing : ∀ id ∈ store'.closing, id ∈ store.closing ∨ .remove id ∈ store'.effects

namespace Calls

variable {store store' store'' : SessionStore}

theorem refl (store : SessionStore) : Calls store store :=
  ⟨fun _ h => h, fun _ => Or.inl rfl, fun _ => rfl, fun _ h => Or.inl h⟩

theorem trans (h : Calls store store') (h' : Calls store' store'') : Calls store store'' where
  effects effect heffect := h'.effects effect (h.effects effect heffect)
  same id := by
    rcases h'.same id with hsame | htouched
    · rcases h.same id with hsame' | ⟨effect, heffect, htouches⟩
      · exact Or.inl (hsame.trans hsame')
      · exact Or.inr ⟨effect, h'.effects effect heffect, htouches⟩
    · exact Or.inr htouched
  present id := (h'.present id).trans (h.present id)
  closing id hid := by
    rcases h'.closing id hid with hclosing | hremove
    · rcases h.closing id hclosing with hclosing' | hremove
      · exact Or.inl hclosing'
      · exact Or.inr (h'.effects _ hremove)
    · exact Or.inr hremove

theorem foldl {f : SessionStore → SessionId → SessionStore}
    (hf : ∀ store id, Calls store (f store id)) (ids : List SessionId) (store : SessionStore) :
    Calls store (ids.foldl f store) := by
  induction ids generalizing store with
  | nil => exact refl store
  | cons id ids ih => exact (hf store id).trans (ih (f store id))

theorem emit (store : SessionStore) (effect : StoreEffect) : Calls store (store.emit effect) :=
  ⟨fun _ h => List.mem_append_left _ h, fun _ => Or.inl rfl, fun _ => rfl, fun _ h => Or.inl h⟩

theorem modify_emit {id : SessionId} {f : SessionRecord → SessionRecord}
    (hf : ∀ session, (f session).id = session.id) {effect : StoreEffect}
    (heffect : Touches id effect) (store : SessionStore) :
    Calls store ((store.modify id f).emit effect) := by
  unfold SessionStore.modify
  cases hget : store.sessions.get id with
  | none => exact emit store effect
  | some session =>
    have hkey : (f session).id = id := (hf session).trans (store.sessions.key_of_get hget)
    refine ⟨fun _ h => List.mem_append_left _ h, ?_, ?_, fun _ h => Or.inl h⟩
    · intro other
      by_cases hother : other = id
      · subst hother
        exact Or.inr ⟨effect, List.mem_append_right _ (List.mem_singleton.mpr rfl), heffect⟩
      · refine Or.inl ((store.sessions.get_insert (f session) other).trans ?_)
        rw [hkey, if_neg hother]
    · intro other
      show ((store.sessions.insert (f session)).get other).isSome = _
      rw [KeyedMap.get_insert, hkey]
      by_cases hother : other = id
      · rw [if_pos hother, hother, hget]
        rfl
      · rw [if_neg hother]

theorem close (store : SessionStore) (id : SessionId) : Calls store (store.close id) := by
  refine ⟨fun _ h => List.mem_append_left _ h, fun _ => Or.inl rfl, fun _ => rfl, ?_⟩
  intro other hother
  rcases List.mem_cons.mp hother with rfl | hother
  · exact Or.inr (List.mem_append_right _ (List.mem_singleton.mpr rfl))
  · exact Or.inl hother

theorem removeSessions (order : HashOrder SessionRecord) (store : SessionStore)
    (ids : List SessionId) : Calls store (store.removeSessions order ids) :=
  foldl close _ store

theorem archiveSessions (store : SessionStore) (now : SessionId → DateMillis)
    (ids : List SessionId) : Calls store (store.archiveSessions now ids) := by
  refine foldl (fun store id => ?_) _ store
  refine modify_emit ?_ ?_ store
  · exact fun _ => rfl
  · exact rfl

theorem reviveSessions (store : SessionStore) (ids : List SessionId) :
    Calls store (store.reviveSessions ids) := by
  refine foldl (fun store id => ?_) _ store
  unfold SessionStore.reviveSession
  cases hget : store.sessions.get id with
  | none => exact refl store
  | some session =>
    simp only
    by_cases harchived : session.isArchived = true
    · rw [if_pos harchived]
      refine modify_emit ?_ ?_ store
      · exact fun _ => rfl
      · split
        · exact ⟨rfl, rfl⟩
        · rfl
    · rw [if_neg harchived]
      exact refl store

theorem rename (store : SessionStore) (id : SessionId) (title : String) :
    Calls store (store.rename id title) := by
  refine modify_emit ?_ ?_ store
  · exact fun _ => rfl
  · exact rfl

end Calls

/-! ### Events -/

/-- An event that is no removal and touches neither the effects nor what is hidden. -/
theorem closing_kept {store next : SessionStore} {event : Event}
    (heffects : next.effects = store.effects) (hclosing : next.closing = store.closing)
    (hkeeps : ∀ id, event ≠ .sessionRemoved id) :
    (∀ effect ∈ store.effects, effect ∈ next.effects) ∧
    ∀ id ∈ next.closing,
      (id ∈ store.closing ∧
        (event = .sessionRemoved id → (store.sessions.get id).isSome = false)) ∨
      .remove id ∈ next.effects := by
  rw [heffects, hclosing]
  exact ⟨fun _ h => h, fun id hid => Or.inl ⟨hid, fun h => absurd h (hkeeps id)⟩⟩

/-- An event leaves nothing asked for behind, and a removal takes the session out of the hidden
ones. -/
theorem handle_closing (order : HashOrder SessionRecord) (store : SessionStore) (event : Event) :
    (∀ effect ∈ store.effects, effect ∈ (store.handleEventChange order event).2.effects) ∧
    ∀ id ∈ (store.handleEventChange order event).2.closing,
      (id ∈ store.closing ∧
        (event = .sessionRemoved id → (store.sessions.get id).isSome = false)) ∨
      .remove id ∈ (store.handleEventChange order event).2.effects := by
  cases event with
  | sessionUpdated session =>
    have hcalls : Calls { store with sessions := store.sessions.insert session }
        (store.upsertSession order session) := by
      unfold SessionStore.upsertSession
      by_cases hclose : store.shouldAutoClose session = true
      · rw [if_pos hclose]
        exact Calls.removeSessions order _ _
      · rw [if_neg hclose]
        exact Calls.refl _
    simp only [SessionStore.handleEventChange]
    by_cases hsame : store.sessions.get session.id = some session
    · rw [if_pos hsame]
      exact closing_kept rfl rfl (by rintro _ ⟨⟩)
    · rw [if_neg hsame]
      refine ⟨hcalls.effects, fun id hid => ?_⟩
      rcases hcalls.closing id hid with hclosing | hremove
      · exact Or.inl ⟨hclosing, by rintro ⟨⟩⟩
      · exact Or.inr hremove
  | sessionResources resources =>
    simp only [SessionStore.handleEventChange]
    cases store.sessions.get resources.id with
    | none => exact closing_kept rfl rfl (by rintro _ ⟨⟩)
    | some record =>
      simp only
      by_cases hsame : record.sampled resources = record
      · rw [if_pos hsame]
        exact closing_kept rfl rfl (by rintro _ ⟨⟩)
      · rw [if_neg hsame]
        exact closing_kept rfl rfl (by rintro _ ⟨⟩)
  | sessionRemoved removed =>
    simp only [SessionStore.handleEventChange]
    by_cases hin : (store.sessions.get removed).isSome = true
    · rw [if_pos hin]
      refine ⟨fun _ h => h, fun id hid => Or.inl ?_⟩
      obtain ⟨hclosing, hne⟩ := List.mem_filter.mp hid
      refine ⟨hclosing, fun h => ?_⟩
      rw [Event.sessionRemoved.inj h] at hne
      simp at hne
    · rw [if_neg hin]
      refine ⟨fun _ h => h, fun id hid => Or.inl ⟨hid, fun h => ?_⟩⟩
      rw [← Event.sessionRemoved.inj h]
      simpa using hin
  | projectUpdated project =>
    simp only [SessionStore.handleEventChange]
    by_cases hsame : store.projects.get project.id = some project
    · rw [if_pos hsame]
      exact closing_kept rfl rfl (by rintro _ ⟨⟩)
    · rw [if_neg hsame]
      exact closing_kept rfl rfl (by rintro _ ⟨⟩)

/-! ### What holds along a run -/

namespace Actions

variable {order : HashOrder SessionRecord} {sys : Actions}

/-- The store is right but for what it asks the daemon to change and what the events to come
tell it. -/
structure Synced (sys : Actions) : Prop where
  present : ∀ id, (arrive sys.pending id (sys.store.sessions.get id)).isSome =
    (sys.daemon.sessions.get id).isSome
  equal : ∀ id, (∃ effect ∈ sys.store.effects, Touches id effect) ∨
    arrive sys.pending id (sys.store.sessions.get id) = sys.daemon.sessions.get id
  hidden : ∀ id ∈ sys.store.closing, .remove id ∈ sys.store.effects ∨
    Clears sys.pending id (sys.store.sessions.get id)

theorem synced_start (daemon : DaemonMaps) : Synced (start daemon) := by
  have hview := hydrate_view SessionStore.new daemon
  have hget : ∀ id, (SessionStore.new.hydrate daemon.list).sessions.get id =
      daemon.sessions.get id := fun id => congrFun (congrArg View.sessions hview) id
  refine ⟨fun id => congrArg Option.isSome (hget id), fun id => Or.inr (hget id), ?_⟩
  intro id hid
  cases hid

theorem Synced.calls (h : Synced sys) {store : SessionStore} (hcalls : Calls sys.store store) :
    Synced { sys with store := store } := by
  refine ⟨?_, ?_, ?_⟩
  · intro id
    exact (arrive_isSome (hcalls.present id) _ _).trans (h.present id)
  · intro id
    rcases h.equal id with ⟨effect, heffect, htouches⟩ | hequal
    · exact Or.inl ⟨effect, hcalls.effects effect heffect, htouches⟩
    rcases hcalls.same id with hsame | htouched
    · refine Or.inr ?_
      show arrive sys.pending id (store.sessions.get id) = _
      rw [hsame, hequal]
    · exact Or.inl htouched
  · intro id hid
    rcases hcalls.closing id hid with hclosing | hremove
    · rcases h.hidden id hclosing with hremove | hclears
      · exact Or.inl (hcalls.effects _ hremove)
      · exact Or.inr (hclears.congr (hcalls.present id).symm)
    · exact Or.inl hremove

theorem Synced.mutate (h : Synced sys) (event : Event) :
    Synced (step order sys (.mutate event)).1 := by
  have hdaemon : ∀ id, (sys.daemon.mutate event).sessions.get id =
      arrive [event] id (sys.daemon.sessions.get id) := fun id =>
    congrFun (congrArg View.sessions (mutate_view sys.daemon event)) id
  refine ⟨?_, ?_, ?_⟩
  · intro id
    show (arrive (sys.pending ++ [event]) id _).isSome = ((sys.daemon.mutate event).sessions.get
      id).isSome
    rw [arrive_append, hdaemon]
    exact arrive_isSome (h.present id) _ _
  · intro id
    rcases h.equal id with htouched | hequal
    · exact Or.inl htouched
    · refine Or.inr ?_
      show arrive (sys.pending ++ [event]) id (sys.store.sessions.get id) =
        (sys.daemon.mutate event).sessions.get id
      rw [arrive_append, hdaemon, hequal]
  · intro id hid
    rcases h.hidden id hid with hremove | hclears
    · exact Or.inl hremove
    · exact Or.inr (hclears.append [event])

theorem Synced.receive (h : Synced sys) : Synced (step order sys .receive).1 := by
  cases hpending : sys.pending with
  | nil =>
    simp only [step, hpending]
    exact h
  | cons event rest =>
    obtain ⟨heffects, hclosing⟩ := handle_closing order sys.store event
    have hget : ∀ id, arrive rest id
        ((sys.store.handleEventChange order event).2.sessions.get id) =
          arrive sys.pending id (sys.store.sessions.get id) := by
      intro id
      have hview := congrFun (congrArg View.sessions (handle_view order sys.store event)) id
      rw [hpending, arrive_cons]
      exact congrArg (arrive rest id) hview
    simp only [step, hpending]
    refine ⟨?_, ?_, ?_⟩
    · intro id
      exact (congrArg Option.isSome (hget id)).trans (h.present id)
    · intro id
      rcases h.equal id with ⟨effect, heffect, htouches⟩ | hequal
      · exact Or.inl ⟨effect, heffects effect heffect, htouches⟩
      · exact Or.inr ((hget id).trans hequal)
    · intro id hid
      rcases hclosing id hid with ⟨hold, hkept⟩ | hremove
      · rcases h.hidden id hold with hremove | ⟨front, back, hsplit, hsome⟩
        · exact Or.inl (heffects _ hremove)
        · rw [hpending] at hsplit
          cases front with
          | nil =>
            obtain ⟨hevent, _⟩ := List.cons.inj hsplit
            have hgone := hkept hevent
            rw [show (sys.store.sessions.get id).isSome = true from hsome] at hgone
            cases hgone
          | cons first front =>
            obtain ⟨hfirst, hrest⟩ := List.cons.inj hsplit
            subst hfirst
            refine Or.inr ⟨front, back, hrest, ?_⟩
            have hview := congrFun
              (congrArg View.sessions (handle_view order sys.store event)) id
            rw [arrive_cons] at hsome
            rw [show (sys.store.handleEventChange order event).2.sessions.get id = _ from hview]
            exact hsome
      · exact Or.inl hremove

/-! ### Answers -/

/-- The next effect is carried out.  A request about a session that the daemon has not is
answered with an error; that is no loss, unless a removal was asked for and the session is hidden
though the store does not have it. -/
def CarriedOut (sys : Actions) (around : Circumstances) (effect : StoreEffect) : Prop :=
  match sys.daemon.sessions.get effect.id, effect with
  | none, .remove id => id ∈ sys.store.closing → (sys.store.sessions.get id).isSome = true
  | none, _ => True
  | some record, .resume _ automatic => automatic = true ∨ (around.reaches = true ∧
      (around.live = true → SessionStore.isExited record = true) ∧ around.respawns = true)
  | some _, _ => around.reaches = true

/-- Every effect that `run_effects` takes is carried out. -/
def Carried (x : Step Actions Action Unit) : Prop :=
  ∀ around effect rest, x.event = .runEffect around → x.before.store.effects = effect :: rest →
    CarriedOut x.before around effect

/-- An effect is dropped that asked for nothing the store has done, or about a session that is
gone. -/
theorem Synced.dropped (h : Synced sys) {effect : StoreEffect} {rest : List StoreEffect}
    (heffects : sys.store.effects = effect :: rest)
    (htouches : ∀ id, Touches id effect → sys.daemon.sessions.get id = none)
    (hremove : ∀ id, effect = .remove id → id ∈ sys.store.closing →
      sys.daemon.sessions.get id = none ∧ (sys.store.sessions.get id).isSome = true)
    (result : Option String) :
    Synced { sys with store := { sys.store with effects := rest, lastActionError := result } } := by
  refine ⟨h.present, ?_, ?_⟩
  · intro id
    rcases h.equal id with ⟨found, hfound, hid⟩ | hequal
    · rw [heffects] at hfound
      rcases List.mem_cons.mp hfound with rfl | hfound
      · have hnone := htouches id hid
        refine Or.inr ?_
        have hpresent := h.present id
        rw [hnone] at hpresent ⊢
        simpa using hpresent
      · exact Or.inl ⟨found, hfound, hid⟩
    · exact Or.inr hequal
  · intro id hid
    rcases h.hidden id hid with hin | hclears
    · rw [heffects] at hin
      rcases List.mem_cons.mp hin with heq | hin
      · obtain ⟨hnone, hlisted⟩ := hremove id heq.symm hid
        have hpresent := h.present id
        rw [hnone] at hpresent
        exact Or.inr (clears_of_gone hlisted (by simpa using hpresent))
      · exact Or.inl hin
    · exact Or.inr hclears

theorem Synced.published (h : Synced sys) {effect : StoreEffect} {rest : List StoreEffect}
    (heffects : sys.store.effects = effect :: rest) (hnot : ∀ id, effect ≠ .remove id)
    (record : SessionRecord) (hid : record.id = effect.id) (result : Option String) :
    Synced {
      daemon := { sys.daemon with sessions := sys.daemon.sessions.insert record }
      pending := sys.pending ++ [.sessionUpdated record]
      store := { sys.store with effects := rest, lastActionError := result } } := by
  have harrive : ∀ id, arrive (sys.pending ++ [.sessionUpdated record]) id
      (sys.store.sessions.get id) = if id = record.id then some record
        else arrive sys.pending id (sys.store.sessions.get id) := by
    intro id
    rw [arrive_append]
    show sampling.apply _ (sessionChange id (.sessionUpdated record)) = _
    by_cases heq : id = record.id
    · rw [sessionChange, if_pos heq, if_pos heq]
      rfl
    · rw [sessionChange, if_neg heq, if_neg heq, apply_nop]
  refine ⟨?_, ?_, ?_⟩
  · intro id
    rw [harrive, KeyedMap.get_insert]
    by_cases heq : id = record.id
    · rw [if_pos heq, if_pos heq]
    · rw [if_neg heq, if_neg heq]
      exact h.present id
  · intro id
    rw [harrive, KeyedMap.get_insert]
    by_cases heq : id = record.id
    · rw [if_pos heq, if_pos heq]
      exact Or.inr rfl
    · rw [if_neg heq, if_neg heq]
      rcases h.equal id with ⟨found, hfound, htouches⟩ | hequal
      · rw [heffects] at hfound
        rcases List.mem_cons.mp hfound with rfl | hfound
        · exact absurd (htouches.id_eq.symm.trans hid.symm) heq
        · exact Or.inl ⟨found, hfound, htouches⟩
      · exact Or.inr hequal
  · intro id hin
    rcases h.hidden id hin with hin | hclears
    · rw [heffects] at hin
      rcases List.mem_cons.mp hin with heq | hin
      · exact absurd heq.symm (hnot id)
      · exact Or.inl hin
    · exact Or.inr (hclears.append _)

theorem Synced.removed (h : Synced sys) {id : SessionId} {rest : List StoreEffect}
    (heffects : sys.store.effects = .remove id :: rest)
    (hin : (sys.daemon.sessions.get id).isSome = true) (result : Option String) :
    Synced {
      daemon := { sys.daemon with sessions := sys.daemon.sessions.erase id }
      pending := sys.pending ++ [.sessionRemoved id]
      store := { sys.store with effects := rest, lastActionError := result } } := by
  have harrive : ∀ other, arrive (sys.pending ++ [.sessionRemoved id]) other
      (sys.store.sessions.get other) = if other = id then none
        else arrive sys.pending other (sys.store.sessions.get other) := by
    intro other
    rw [arrive_append]
    show sampling.apply _ (sessionChange other (.sessionRemoved id)) = _
    by_cases heq : other = id
    · rw [sessionChange, if_pos heq, if_pos heq]
      rfl
    · rw [sessionChange, if_neg heq, if_neg heq, apply_nop]
  refine ⟨?_, ?_, ?_⟩
  · intro other
    rw [harrive, KeyedMap.get_erase]
    by_cases heq : other = id
    · rw [if_pos heq, if_pos heq]
    · rw [if_neg heq, if_neg heq]
      exact h.present other
  · intro other
    rw [harrive, KeyedMap.get_erase]
    by_cases heq : other = id
    · rw [if_pos heq, if_pos heq]
      exact Or.inr rfl
    · rw [if_neg heq, if_neg heq]
      rcases h.equal other with ⟨found, hfound, htouches⟩ | hequal
      · rw [heffects] at hfound
        rcases List.mem_cons.mp hfound with rfl | hfound
        · cases htouches
        · exact Or.inl ⟨found, hfound, htouches⟩
      · exact Or.inr hequal
  · intro other hother
    rcases h.hidden other hother with hremove | hclears
    · rw [heffects] at hremove
      rcases List.mem_cons.mp hremove with heq | hremove
      · rw [StoreEffect.remove.inj heq]
        refine Or.inr ⟨sys.pending, [], rfl, ?_⟩
        rw [h.present id]
        exact hin
      · exact Or.inl hremove
    · exact Or.inr (hclears.append _)

theorem runEffect_nothing {around : Circumstances} {effect : StoreEffect}
    (rest : List StoreEffect) (hhandle : around.reaches = true →
      ∃ error, sys.daemon.handle around effect = (sys.daemon, [], error)) :
    ∃ result, sys.runEffect around effect rest =
      { sys with store := { sys.store with effects := rest, lastActionError := result } } := by
  unfold runEffect
  by_cases hreaches : around.reaches = true
  · obtain ⟨error, herror⟩ := hhandle hreaches
    rw [if_pos hreaches, herror]
    exact ⟨_, by simp only [List.append_nil]; rfl⟩
  · rw [if_neg hreaches]
    exact ⟨_, by simp only [List.append_nil]; rfl⟩

theorem Synced.publishUpdated (h : Synced sys) {around : Circumstances} {effect : StoreEffect}
    {rest : List StoreEffect} (heffects : sys.store.effects = effect :: rest)
    (hreaches : around.reaches = true) (hnot : ∀ id, effect ≠ .remove id)
    (hhandle : ∃ record, sys.daemon.handle around effect =
      sys.daemon.publishUpdated around record ∧ record.id = effect.id) :
    Synced (sys.runEffect around effect rest) := by
  obtain ⟨record, hhandle, hid⟩ := hhandle
  unfold runEffect
  rw [if_pos hreaches, hhandle]
  exact h.published heffects hnot { around.fold record with id := record.id } hid _

theorem Synced.runEffect (h : Synced sys) {around : Circumstances} {effect : StoreEffect}
    {rest : List StoreEffect} (heffects : sys.store.effects = effect :: rest)
    (hcarried : CarriedOut sys around effect) : Synced (sys.runEffect around effect rest) := by
  cases hget : sys.daemon.sessions.get effect.id with
  | none =>
    have hhandle : around.reaches = true →
        ∃ error, sys.daemon.handle around effect = (sys.daemon, [], error) := by
      intro _
      exact ⟨_, by simp only [DaemonMaps.handle, hget]; rfl⟩
    obtain ⟨result, hresult⟩ := runEffect_nothing rest hhandle
    rw [hresult]
    refine h.dropped heffects ?_ ?_ result
    · intro id htouches
      rw [← htouches.id_eq]
      exact hget
    · rintro id rfl hclosing
      simp only [CarriedOut, hget] at hcarried
      exact ⟨hget, hcarried hclosing⟩
  | some record =>
    have hrecord : record.id = effect.id := sys.daemon.sessions.key_of_get hget
    cases effect with
    | remove id =>
      simp only [CarriedOut, hget] at hcarried
      have hhandle : sys.daemon.handle around (.remove id) =
          ({ sys.daemon with sessions := sys.daemon.sessions.erase id },
            [.sessionRemoved id], none) := by
        simp only [DaemonMaps.handle, hget]
      unfold Actions.runEffect
      rw [if_pos hcarried, hhandle]
      refine h.removed heffects ?_ _
      rw [show sys.daemon.sessions.get id = some record from hget]
      rfl
    | rename id title =>
      simp only [CarriedOut, hget] at hcarried
      refine h.publishUpdated heffects hcarried (by rintro _ ⟨⟩) ?_
      simp only [DaemonMaps.handle, hget]
      exact ⟨_, rfl, hrecord⟩
    | archive id =>
      simp only [CarriedOut, hget] at hcarried
      refine h.publishUpdated heffects hcarried (by rintro _ ⟨⟩) ?_
      simp only [DaemonMaps.handle, hget]
      exact ⟨_, rfl, hrecord⟩
    | unarchive id =>
      simp only [CarriedOut, hget] at hcarried
      refine h.publishUpdated heffects hcarried (by rintro _ ⟨⟩) ?_
      simp only [DaemonMaps.handle, hget]
      exact ⟨_, rfl, hrecord⟩
    | resume id automatic =>
      simp only [CarriedOut, hget] at hcarried
      by_cases hworks : around.reaches = true ∧
          (around.live && !SessionStore.isExited record) = false ∧ around.respawns = true
      · obtain ⟨hreaches, hlive, hrespawns⟩ := hworks
        refine h.publishUpdated heffects hreaches (by rintro _ ⟨⟩)
          ⟨{ record with status := .starting }, ?_, hrecord⟩
        simp only [DaemonMaps.handle, hget, hlive, hrespawns]
        rfl
      · -- nothing came of it, so it was the store's own idea and changed nothing
        have hautomatic : automatic = true := by
          rcases hcarried with hauto | ⟨hreaches, hlive, hrespawns⟩
          · exact hauto
          · refine absurd ⟨hreaches, ?_, hrespawns⟩ hworks
            cases hl : around.live with
            | false => rfl
            | true => rw [hlive hl]; rfl
        have hhandle : around.reaches = true → ∃ error,
            sys.daemon.handle around (.resume id automatic) = (sys.daemon, [], error) := by
          intro hreaches
          simp only [DaemonMaps.handle, hget]
          by_cases hlive : (around.live && !SessionStore.isExited record) = true
          · rw [if_pos hlive]
            exact ⟨_, rfl⟩
          · rw [if_neg hlive, if_neg (fun hrespawns =>
              hworks ⟨hreaches, by simpa using hlive, hrespawns⟩)]
            exact ⟨_, rfl⟩
        obtain ⟨result, hresult⟩ := runEffect_nothing rest hhandle
        rw [hresult]
        refine h.dropped heffects ?_ (by rintro _ ⟨⟩) result
        rintro other ⟨_, hmanual⟩
        rw [hautomatic] at hmanual
        cases hmanual

theorem Synced.step (h : Synced sys) (action : Action)
    (hcarried : Carried (take (Actions.step order) sys action)) :
    Synced (Actions.step order sys action).1 := by
  cases action with
  | removeSessions ids => exact h.calls (Calls.removeSessions order sys.store ids)
  | archiveSessions now ids => exact h.calls (Calls.archiveSessions sys.store now ids)
  | reviveSessions ids => exact h.calls (Calls.reviveSessions sys.store ids)
  | rename id title => exact h.calls (Calls.rename sys.store id title)
  | autoResume id => exact h.calls (Calls.emit sys.store _)
  | mutate event => exact h.mutate event
  | receive => exact h.receive
  | runEffect around =>
    cases heffects : sys.store.effects with
    | nil =>
      simp only [Actions.step, heffects]
      exact h
    | cons effect rest =>
      simp only [Actions.step, heffects]
      exact h.runEffect heffects (hcarried around effect rest rfl heffects)

theorem Synced.settled (h : Synced sys) (hidle : sys.store.effects = [])
    (hquiet : sys.pending = []) :
    (∀ id, sys.store.sessions.get id = sys.daemon.sessions.get id) ∧ sys.store.closing = [] := by
  constructor
  · intro id
    rcases h.equal id with ⟨effect, heffect, _⟩ | hequal
    · rw [hidle] at heffect
      cases heffect
    · rw [hquiet] at hequal
      exact hequal
  · refine List.eq_nil_iff_forall_not_mem.mpr fun id hid => ?_
    rcases h.hidden id hid with hremove | ⟨front, back, hsplit, _⟩
    · rw [hidle] at hremove
      cases hremove
    · rw [hquiet] at hsplit
      cases front <;> cases hsplit

/-- **Actions that are carried out leave no lie.** In every run in which each effect that is
taken is carried out, once no effect is in flight and every event has been applied, the daemon's
sessions are in the sidebar, auxiliary shells aside, and their titles and archive marks are the
daemon's. -/
theorem actions_leave_no_lie (order : HashOrder SessionRecord) (daemon : DaemonMaps)
    (actions : List Action)
    (hall : ∀ x ∈ trace (step order) (start daemon) actions, Carried x)
    (hidle : (run (step order) (start daemon) actions).store.effects = [])
    (hquiet : (run (step order) (start daemon) actions).pending = []) :
    (∀ id, ((run (step order) (start daemon) actions).store.sessions.get id).map
        (fun session => (session.archivedAt, session.title)) =
      ((run (step order) (start daemon) actions).daemon.sessions.get id).map
        fun session => (session.archivedAt, session.title)) ∧
    ∀ (groups : HashOrder (ProjectId × List SessionRecord)) (prefs : Prefs)
      (selected : Option SessionId), ∃ projection,
      (∀ fuel, (run (step order) (start daemon) actions).store.sessions.values.length ≤ fuel →
        buildProjection groups fuel (run (step order) (start daemon) actions).store.sessions
          (run (step order) (start daemon) actions).store.projects.get prefs selected
          (run (step order) (start daemon) actions).store.closing = some projection) ∧
      ∀ session ∈ (run (step order) (start daemon) actions).daemon.sessions.values,
        isAuxiliaryTerminal session = false → session.id ∈ projection.displayOrder := by
  have hsynced : Synced (run (step order) (start daemon) actions) :=
    run_invariant_where (step order) hall (synced_start daemon)
      fun _ action hcarried h => h.step action hcarried
  obtain ⟨hequal, hclosing⟩ := hsynced.settled hidle hquiet
  refine ⟨fun id => by rw [hequal id], fun groups prefs selected => ?_⟩
  obtain ⟨projection, _, hprojection, hshown, _, _⟩ := exists_projection groups
    (run (step order) (start daemon) actions).store.sessions
    (run (step order) (start daemon) actions).store.projects.get prefs selected
    (run (step order) (start daemon) actions).store.closing
  refine ⟨projection, hprojection, fun session hsession haux => ?_⟩
  have hget := hequal session.id
  rw [(KeyedMap.get_eq_some _).mpr ⟨hsession, rfl⟩] at hget
  have hin := ((KeyedMap.get_eq_some _).mp hget).1
  rw [hshown.mem_iff]
  exact List.mem_map_of_mem (mem_listed.mpr ⟨hin, by rw [hclosing]; exact List.not_mem_nil, haux⟩)

/-- A request that is carried out, or one that never comes to the daemon. -/
def request (reaches : Bool) : Circumstances where
  reaches := reaches
  returns := reaches
  error := "daemon is not connected"
  now := 0
  live := true
  exit := none
  respawns := true
  fold record := record

theorem actions_leave_no_lie_rename :
    ((run (step Feed.asIs) (start Feed.oneSession)
      [.rename "s1" "new", .runEffect (request true), .receive]).store.sessions.get "s1").map
        (fun session => (session.archivedAt, session.title)) =
      ((run (step Feed.asIs) (start Feed.oneSession)
        [.rename "s1" "new", .runEffect (request true), .receive]).daemon.sessions.get "s1").map
        fun session => (session.archivedAt, session.title) := by
  refine (actions_leave_no_lie Feed.asIs Feed.oneSession _ ?_ rfl rfl).1 "s1"
  intro x hx around effect rest hevent heffects
  simp only [trace, List.mem_cons, List.not_mem_nil, or_false] at hx
  rcases hx with rfl | rfl | rfl
  · cases hevent
  · cases hevent
    cases heffects
    exact rfl
  · cases hevent

/-- The request to remove a session fails.  No effect is in flight and no event is to come, the
daemon has the session, and the sidebar does not. -/
theorem failed_remove_hides :
    ∃ sys, sys = run (step Feed.asIs) (start Feed.oneSession)
        [.removeSessions ["s1"], .runEffect (request false)] ∧
      sys.store.effects = [] ∧ sys.pending = [] ∧
      sys.daemon.sessions.get "s1" = some (Feed.titled "old") ∧
      isAuxiliaryTerminal (Feed.titled "old") = false ∧
      ∃ projection, buildProjection ⟨id, List.Perm.refl⟩ sys.store.sessions.values.length
          sys.store.sessions sys.store.projects.get ⟨[], [], [], [], [], []⟩ none
          sys.store.closing = some projection ∧
        "s1" ∉ projection.displayOrder := by
  refine ⟨_, rfl, rfl, rfl, by decide, by decide, ?_⟩
  obtain ⟨projection, _, hprojection, hshown, _, _⟩ := exists_projection ⟨id, List.Perm.refl⟩
    (run (step Feed.asIs) (start Feed.oneSession)
      [.removeSessions ["s1"], .runEffect (request false)]).store.sessions
    (run (step Feed.asIs) (start Feed.oneSession)
      [.removeSessions ["s1"], .runEffect (request false)]).store.projects.get
    ⟨[], [], [], [], [], []⟩ none
    (run (step Feed.asIs) (start Feed.oneSession)
      [.removeSessions ["s1"], .runEffect (request false)]).store.closing
  refine ⟨projection, hprojection _ (Nat.le_refl _), ?_⟩
  rw [hshown.mem_iff]
  decide

end Actions

end Homie.App
