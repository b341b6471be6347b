/-
When the two nodes of a handoff agree.

The client sends a commit to the target only when no other request is under way, and one
to the source only when the target has committed.  So a run is in one of three eras: no
commit was sent, the target's was, or the source's was.  In the first no record is
committed, and in the last the target's is.  What can go wrong goes wrong in the middle:
the client gives up on the target's commit, cannot know what became of it, and aborts the
source.  As long as the source, not committed itself, handles an abort only when the target
has not committed and cannot any more, the records agree in every state.
-/
import Homie.Client.Handoff
import Homie.Proofs.MoveRecords

namespace Homie.Client

open Homie.Node CheckpointStore

/-! ### Phases of a record -/

/-- The phase of a checkpoint's record. -/
def phaseAt (disk : NodeDisk) (id : String) : Option MovePhase :=
  (disk.moves id).map MoveRecord.phase

/-- A record written in another phase leaves no record in this one that was not. -/
theorem update_phase_ne {moves : String → Option MoveRecord} {id : String} {phase : MovePhase}
    (h : (moves id).map MoveRecord.phase ≠ some phase) (key : String) (movement : MoveRecord)
    (hphase : movement.phase ≠ phase) :
    (Function.update moves key (some movement) id).map MoveRecord.phase ≠ some phase := by
  by_cases hid : id = key
  · rw [hid, Function.update_self]
    simpa using hphase
  · rw [Function.update_of_ne hid]
    exact h

section

variable {service : NodeService} {disk : NodeDisk} {now : Int} {id : String}

/-- Only a commit makes a record committed. -/
theorem phaseAt_ne_committed {request : NodeRequest}
    (hrequest : ∀ params, request ≠ .commit params)
    (h : phaseAt disk id ≠ some .committed) :
    phaseAt (service.dispatch disk now request).2 id ≠ some .committed := by
  have hchange := service.dispatch_moves disk now request
  unfold phaseAt at h ⊢
  generalize (service.dispatch disk now request).2.moves = moves at hchange
  have hupdate := update_phase_ne h
  cases hchange with
  | same => exact h
  | prepared params found => exact hupdate _ _ (by simp [CheckpointStore.prepared])
  | put manifest haccepts => exact hupdate _ _ (by simp [CheckpointStore.transferring])
  | staged other home movement hanew hmove => exact hupdate _ _ (by simp)
  | committed params movement hmove haborted hcommitted => exact absurd rfl (hrequest params)
  | aborted params movement hmove hcommitted => exact hupdate _ _ (by simp)

/-- Only an abort makes a record aborted. -/
theorem phaseAt_ne_aborted {request : NodeRequest} (hrequest : ∀ params, request ≠ .abort params)
    (h : phaseAt disk id ≠ some .aborted) :
    phaseAt (service.dispatch disk now request).2 id ≠ some .aborted := by
  have hchange := service.dispatch_moves disk now request
  unfold phaseAt at h ⊢
  generalize (service.dispatch disk now request).2.moves = moves at hchange
  have hupdate := update_phase_ne h
  cases hchange with
  | same => exact h
  | prepared params found => exact hupdate _ _ (by simp [CheckpointStore.prepared])
  | put manifest haccepts => exact hupdate _ _ (by simp [CheckpointStore.transferring])
  | staged other home movement hanew hmove => exact hupdate _ _ (by simp)
  | committed params movement hmove haborted hcommitted => exact hupdate _ _ (by simp)
  | aborted params movement hmove hcommitted => exact absurd rfl (hrequest params)

theorem phaseAt_decided {request : NodeRequest} {phase : MovePhase}
    (hrequest : (∃ params, request = .commit params) ∨ ∃ params, request = .abort params)
    (hphase : phase = .committed ∨ phase = .aborted) (h : phaseAt disk id = some phase) :
    phaseAt (service.dispatch disk now request).2 id = some phase := by
  obtain ⟨movement, hmove, rfl⟩ := Option.map_eq_some_iff.mp h
  have hrespects : NodeService.Respects service disk request := by
    rcases hrequest with ⟨params, rfl⟩ | ⟨params, rfl⟩
    · trivial
    · trivial
  obtain ⟨later, hlater, hkept⟩ := service.decided_kept hrespects hmove hphase
  unfold phaseAt
  rw [hlater]
  exact congrArg some hkept.phase

theorem prepare_checkpointId {store : CheckpointStore} {params : CheckpointPrepareParams}
    {found : Prepared} {manifest : CheckpointManifest}
    (h : (store.prepare disk now params found).1 = .ok manifest) :
    manifest.checkpointId = "cp-" ++ hexEncode found.random := by
  unfold CheckpointStore.prepare at h
  split at h
  · cases h
  · dsimp only at h
    split at h
    · cases h
    · cases h
      rfl

theorem dispatch_prepare_checkpointId {params : CheckpointPrepareParams} {found : Prepared}
    {manifest : CheckpointManifest}
    (h : (service.dispatch disk now (.prepare params found)).1 = .ok (.manifest manifest)) :
    manifest.checkpointId = "cp-" ++ hexEncode found.random := by
  change (service.dispatchPrepare disk now params found).1 = _ at h
  unfold NodeService.dispatchPrepare at h
  split at h
  · cases h
  · split at h
    · cases h
    · cases hresult : (service.prepare disk now params found).1 with
      | error e =>
        simp only [NodeService.answer, hresult, Except.map] at h
        cases h
      | ok prepared =>
        simp only [NodeService.answer, hresult, Except.map] at h
        cases h
        exact prepare_checkpointId hresult

theorem phaseAt_of_commit_ok {params : MoveCommitParams} {response : NodeResponse}
    (h : (service.dispatch disk now (.commit params)).1 = .ok response) :
    phaseAt (service.dispatch disk now (.commit params)).2 params.checkpointId
      = some .committed := by
  show phaseAt (CheckpointStore.commit disk now params).2 _ = _
  unfold phaseAt
  rcases CheckpointStore.commit_cases disk now params with
    ⟨e, heq⟩ | ⟨movement, hmove, hphase, -, heq⟩ | ⟨movement, -, -, -, -, heq⟩
  · simp [NodeService.dispatch, NodeService.answer, heq, Except.map] at h
  · rw [heq, hmove]
    exact congrArg some hphase
  · rw [heq, Function.update_self]
    rfl

end

/-! ### Where the client is -/

namespace Phase

/-- No commit has been sent, and nothing has failed. -/
def opening : Phase → Bool
  | .hello | .account | .prepare | .put _ | .has _ | .read .. | .write .. | .stage _
  | .provider _ => true
  | _ => false

/-- The client aborts, or has returned an error. -/
def closing : Phase → Bool
  | .abortTarget _ _ | .abortSource _ _ | .done false => true
  | _ => false

/-- The checkpoint the client has in hand. -/
def checkpoint : Phase → Option CheckpointManifest
  | .put c | .has c | .read c _ _ _ | .write c _ _ _ _ | .stage c | .provider c
  | .commitTarget c | .commitSource c | .abortTarget c _ | .abortSource c _ => some c
  | _ => none

end Phase

namespace Handoff

variable {handoff : Handoff} {phase : Phase} {side : Side} {request : NodeRequest}

theorem opening_request (hphase : phase.opening = true)
    (h : handoff.request phase = some (side, request)) :
    (∀ params, request ≠ .commit params) ∧ ∀ params, request ≠ .abort params := by
  cases phase <;> cases hphase <;> cases h <;> exact ⟨by simp, by simp⟩

theorem closing_request (hphase : phase.closing = true)
    (h : handoff.request phase = some (side, request)) : ∃ params, request = .abort params := by
  cases phase with
  | abortTarget c reason =>
    cases h
    exact ⟨_, rfl⟩
  | abortSource c reason =>
    cases h
    exact ⟨_, rfl⟩
  | done committed => cases h
  | _ => cases hphase

theorem closing_failed (reason : String) (hphase : phase.closing = true) :
    (failed reason phase).closing = true := by
  cases phase with
  | abortTarget c reason => rfl
  | abortSource c reason => rfl
  | done committed => exact hphase
  | _ => cases hphase

theorem opening_failed (reason : String) (hphase : phase.opening = true) :
    (failed reason phase).closing = true := by
  cases phase <;> first | rfl | cases hphase

theorem opening_nextBlob (checkpoint : CheckpointManifest) (digests : List String) :
    (nextBlob checkpoint digests).opening = true := by
  cases digests with
  | nil => rfl
  | cons digest rest => rfl

theorem opening_answered (reason : String) (result : NodeResult NodeResponse)
    (hphase : phase.opening = true) :
    (answered reason phase result).opening = true ∨
      (answered reason phase result).closing = true := by
  unfold answered
  split
  · split
    · exact Or.inr rfl
    · exact Or.inl rfl
  · exact Or.inl rfl
  · exact Or.inl (opening_nextBlob _ _)
  · exact Or.inl rfl
  · split
    · split
      · exact Or.inl (opening_nextBlob _ _)
      · exact Or.inr rfl
    · exact Or.inl rfl
  · exact Or.inl rfl
  · cases hphase
  · cases hphase
  · exact Or.inr (opening_failed reason hphase)

theorem closing_answered (reason : String) (result : NodeResult NodeResponse)
    (hphase : phase.closing = true) : (answered reason phase result).closing = true := by
  cases phase with
  | abortTarget c reason => rfl
  | abortSource c reason => rfl
  | done committed => exact hphase
  | _ => cases hphase

theorem opening_confirmed (hphase : phase.opening = true) :
    (confirmed phase).opening = true ∨ ∃ checkpoint, phase = .provider checkpoint := by
  cases phase with
  | provider checkpoint => exact Or.inr ⟨checkpoint, rfl⟩
  | hello => exact Or.inl rfl
  | account => exact Or.inl rfl
  | _ => exact Or.inl hphase

theorem closing_confirmed (hphase : phase.closing = true) : (confirmed phase).closing = true := by
  cases phase with
  | hello => cases hphase
  | account => cases hphase
  | provider checkpoint => cases hphase
  | _ => exact hphase

theorem failed_checkpoint {reason : String} {checkpoint : CheckpointManifest}
    (h : (failed reason phase).checkpoint = some checkpoint) :
    phase.checkpoint = some checkpoint := by
  cases phase <;> first | exact h | cases h

theorem answered_checkpoint {reason : String} {result : NodeResult NodeResponse}
    {checkpoint : CheckpointManifest}
    (h : (answered reason phase result).checkpoint = some checkpoint) :
    phase.checkpoint = some checkpoint ∨
      phase = .prepare ∧ result = .ok (.manifest checkpoint) := by
  have hblob : ∀ prepared digests, (nextBlob prepared digests).checkpoint = some prepared := by
    intro prepared digests
    cases digests <;> rfl
  unfold answered at h
  split at h
  · split at h
    · cases h
    · cases h
      exact Or.inr ⟨rfl, rfl⟩
  · exact Or.inl h
  · exact Or.inl ((hblob _ _).symm.trans h)
  · exact Or.inl h
  · split at h
    · split at h
      · exact Or.inl ((hblob _ _).symm.trans h)
      · exact Or.inl h
    · exact Or.inl h
  · exact Or.inl h
  · exact Or.inl h
  · cases h
  · exact Or.inl (failed_checkpoint h)

theorem confirmed_checkpoint {checkpoint : CheckpointManifest}
    (h : (confirmed phase).checkpoint = some checkpoint) :
    phase.checkpoint = some checkpoint := by
  cases phase <;> exact h

theorem opening_of_closing (hphase : phase.closing = true) : phase.opening = false := by
  cases phase with
  | abortTarget c reason => rfl
  | abortSource c reason => rfl
  | done committed => rfl
  | _ => cases hphase

end Handoff

namespace HandoffSystem

variable (handoff : Handoff)

/-- The requests that a node may still handle. -/
def underWay (s : HandoffSystem) : List (Side × NodeRequest) :=
  s.strays ++
    match s.call with
    | .sent => (handoff.request s.phase).toList
    | _ => []

/-- The request a step makes a node handle. -/
def handled (s : HandoffSystem) : HandoffEvent → Option (Side × NodeRequest)
  | .serve _ =>
    match s.call with
    | .sent => handoff.request s.phase
    | _ => none
  | .serveStray index _ => s.strays[index]?
  | _ => none

/-- The target has not committed, and cannot any more. -/
def Settled (s : HandoffSystem) : Prop :=
  phaseAt s.target handoff.checkpointId ≠ some .committed ∧
    (phaseAt s.target handoff.checkpointId = some .aborted ∨
      ∀ params, (Side.target, NodeRequest.commit params) ∉ s.underWay handoff)

/-- The source, unless it has committed, handles an abort only when the target is settled. -/
def Timely (x : Trace.Step HandoffSystem HandoffEvent Unit) : Prop :=
  ∀ params, handled handoff x.before x.event = some (.source, .abort params) →
    phaseAt x.before.source handoff.checkpointId = some .committed ∨ x.before.Settled handoff

/-! ### Three eras -/

/-- No commit was sent. -/
structure Early (s : HandoffSystem) : Prop where
  phase : s.phase.opening = true ∨ s.phase.closing = true
  opening : s.phase.opening = true →
    s.strays = [] ∧ phaseAt s.source handoff.checkpointId ≠ some .aborted
  strays : ∀ stray ∈ s.strays, ∀ params, stray.2 ≠ .commit params
  source : phaseAt s.source handoff.checkpointId ≠ some .committed
  target : phaseAt s.target handoff.checkpointId ≠ some .committed

/-- The target was sent its commit, the source was not. -/
structure Middle (s : HandoffSystem) : Prop where
  phase : (∃ checkpoint, s.phase = .commitTarget checkpoint) ∨ s.phase.closing = true
  waiting : ∀ checkpoint, s.phase = .commitTarget checkpoint → s.strays = [] ∧
    phaseAt s.source handoff.checkpointId ≠ some .aborted ∧
    ∀ response, s.call = .answered (.ok response) →
      phaseAt s.target handoff.checkpointId = some .committed
  strays : ∀ stray ∈ s.strays, (∃ params, stray = (.target, .commit params)) ∨
    ∃ params, stray.2 = .abort params
  source : phaseAt s.source handoff.checkpointId ≠ some .committed
  settled : phaseAt s.source handoff.checkpointId = some .aborted → s.Settled handoff

/-- The target has committed, and the source was sent its commit. -/
structure Late (s : HandoffSystem) : Prop where
  phase : (∃ checkpoint, s.phase = .commitSource checkpoint) ∨ s.phase.closing = true ∨
    s.phase = .done true
  strays : ∀ stray ∈ s.strays, (∃ params, stray = (.source, .commit params)) ∨
    ∃ params, stray.2 = .abort params
  target : phaseAt s.target handoff.checkpointId = some .committed
  source : phaseAt s.source handoff.checkpointId ≠ some .aborted

/-- The client's checkpoint is the one of this handoff. -/
structure Named (s : HandoffSystem) : Prop where
  phase : ∀ checkpoint, s.phase.checkpoint = some checkpoint →
    checkpoint.checkpointId = handoff.checkpointId
  call : ∀ checkpoint, s.phase = .prepare → s.call = .answered (.ok (.manifest checkpoint)) →
    checkpoint.checkpointId = handoff.checkpointId

/-! ### What a step can do -/

variable {handoff} {s s' : HandoffSystem}

/-- A node has handled a request, and the client waits for what it waited for. -/
structure Served (handoff : Handoff) (s s' : HandoffSystem) (now : Int) (side : Side)
    (request : NodeRequest) : Prop where
  phase : s'.phase = s.phase
  strays : s'.strays ⊆ s.strays
  underWay : s'.underWay handoff ⊆ s.underWay handoff
  mem : (side, request) ∈ s.underWay handoff
  own : s'.disk side = ((handoff.service side).dispatch (s.disk side) now request).2
  other : ∀ other, other ≠ side → s'.disk other = s.disk other
  call : s'.call = s.call ∨ handoff.request s.phase = some (side, request) ∧
    s'.call = .answered ((handoff.service side).dispatch (s.disk side) now request).1

theorem disk_setDisk (s : HandoffSystem) (disk : NodeDisk) (side other : Side) :
    (s.setDisk disk side).disk other = if other = side then disk else s.disk other := by
  cases side <;> cases other <;> rfl

theorem setDisk_frame (s : HandoffSystem) (disk : NodeDisk) (side : Side) :
    (s.setDisk disk side).phase = s.phase ∧ (s.setDisk disk side).call = s.call ∧
      (s.setDisk disk side).strays = s.strays := by
  cases side <;> exact ⟨rfl, rfl, rfl⟩

theorem underWay_of_strays {strays : List (Side × NodeRequest)} (h : strays ⊆ s.strays) :
    { s with strays }.underWay handoff ⊆ s.underWay handoff := by
  intro entry hentry
  rcases List.mem_append.mp hentry with hstray | hcall
  · exact List.mem_append_left _ (h hstray)
  · exact List.mem_append_right _ hcall

theorem served_serve {now : Int} {side : Side} {request : NodeRequest}
    (hcall : s.call = .sent) (hrequest : handoff.request s.phase = some (side, request)) :
    Served handoff s (HandoffSystem.step handoff s (.serve now)).1 now side request := by
  simp only [HandoffSystem.step, hcall, hrequest, handle]
  obtain ⟨hphase, -, hstrays⟩ := s.setDisk_frame
    ((handoff.service side).dispatch (s.disk side) now request).2 side
  refine ⟨hphase, ?_, ?_, ?_, ?_, ?_, Or.inr ⟨hrequest, rfl⟩⟩
  · rw [hstrays]
    exact List.Subset.refl _
  · unfold underWay
    rw [hstrays, List.append_nil]
    exact List.subset_append_left _ _
  · unfold underWay
    rw [hcall, hrequest]
    exact List.mem_append_right _ (List.mem_singleton_self _)
  · exact (s.disk_setDisk _ side side).trans (if_pos rfl)
  · intro other hother
    exact (s.disk_setDisk _ side other).trans (if_neg hother)

theorem served_stray {index : Nat} {now : Int} {side : Side} {request : NodeRequest}
    (hstray : s.strays[index]? = some (side, request)) :
    Served handoff s (HandoffSystem.step handoff s (.serveStray index now)).1 now side request := by
  simp only [HandoffSystem.step, hstray, handle]
  have hsubset : s.strays.eraseIdx index ⊆ s.strays := (List.eraseIdx_sublist _ _).subset
  have hdisk : ∀ side, { s with strays := s.strays.eraseIdx index }.disk side = s.disk side := by
    intro side
    cases side <;> rfl
  rw [hdisk]
  obtain ⟨hphase, hcall, hstrays⟩ := setDisk_frame { s with strays := s.strays.eraseIdx index }
    ((handoff.service side).dispatch (s.disk side) now request).2 side
  refine ⟨hphase, ?_, ?_, ?_, ?_, ?_, Or.inl hcall⟩
  · rw [hstrays]
    exact hsubset
  · refine List.Subset.trans ?_ (underWay_of_strays hsubset)
    unfold underWay
    rw [hphase, hcall, hstrays]
    exact List.Subset.refl _
  · exact List.mem_append_left _ (List.mem_of_getElem? hstray)
  · exact (disk_setDisk _ _ side side).trans (if_pos rfl)
  · intro other hother
    exact ((disk_setDisk _ _ side other).trans (if_neg hother)).trans (hdisk other)

/-- Everything a step can do; an abort is handled by the source only at the right time. -/
inductive Happens (handoff : Handoff) (s : HandoffSystem) : HandoffSystem → Prop
  | nothing : Happens handoff s s
  | served (s' : HandoffSystem) (now : Int) (side : Side) (request : NodeRequest)
      (hserved : Served handoff s s' now side request)
      (htimely : ∀ params, (side, request) = (.source, .abort params) →
        phaseAt s.source handoff.checkpointId = some .committed ∨ s.Settled handoff) :
      Happens handoff s s'
  | lost : Happens handoff s { s with call := .lost }
  | strayLost (index : Nat) : Happens handoff s { s with strays := s.strays.eraseIdx index }
  | received (reason : String) (result : NodeResult NodeResponse)
      (hcall : s.call = .answered result) :
      Happens handoff s (s.goOn (Handoff.answered reason s.phase result))
  | confirmed (hrequest : handoff.request s.phase = none) :
      Happens handoff s (s.goOn (Handoff.confirmed s.phase))
  | refused (reason : String) : Happens handoff s (s.goOn (Handoff.failed reason s.phase))
  | gaveUp (reason : String) : Happens handoff s (s.giveUp handoff reason)

theorem step_happens (event : HandoffEvent)
    (htimely : Timely handoff (Trace.take (HandoffSystem.step handoff) s event)) :
    Happens handoff s (HandoffSystem.step handoff s event).1 := by
  cases event with
  | serve now =>
    cases hcall : s.call with
    | sent =>
      cases hrequest : handoff.request s.phase with
      | none =>
        simp only [HandoffSystem.step, hcall, hrequest]
        exact .nothing
      | some entry =>
        refine .served _ now entry.1 entry.2 (served_serve hcall hrequest) ?_
        intro params heq
        refine htimely params ?_
        simp only [Trace.take, handled, hcall, hrequest]
        exact congrArg some heq
    | answered result =>
      simp only [HandoffSystem.step, hcall]
      exact .nothing
    | lost =>
      simp only [HandoffSystem.step, hcall]
      exact .nothing
  | serveStray index now =>
    cases hstray : s.strays[index]? with
    | none =>
      simp only [HandoffSystem.step, hstray]
      exact .nothing
    | some entry =>
      refine .served _ now entry.1 entry.2 (served_stray hstray) ?_
      intro params heq
      refine htimely params ?_
      simp only [Trace.take, handled, hstray]
      exact congrArg some heq
  | lose => exact .lost
  | loseStray index => exact .strayLost index
  | receive reason =>
    simp only [HandoffSystem.step]
    split
    · rename_i result entry hcall hrequest
      exact .received reason result hcall
    · exact .nothing
  | external ok reason =>
    simp only [HandoffSystem.step]
    split
    · rename_i hcall hrequest
      cases ok with
      | true => exact .confirmed hrequest
      | false => exact .refused reason
    · exact .nothing
  | giveUp reason => exact .gaveUp reason

/-! ### Every step keeps the era or goes on to the next -/

/-- Handling a request that is no commit commits no record. -/
theorem Served.ne_committed {now : Int} {side : Side} {request : NodeRequest}
    (h : Served handoff s s' now side request) (hrequest : ∀ params, request ≠ .commit params)
    (side' : Side) {id : String} (hphase : phaseAt (s.disk side') id ≠ some .committed) :
    phaseAt (s'.disk side') id ≠ some .committed := by
  by_cases hside : side' = side
  · subst hside
    rw [h.own]
    exact phaseAt_ne_committed hrequest hphase
  · rw [h.other side' hside]
    exact hphase

theorem Served.ne_aborted {now : Int} {side : Side} {request : NodeRequest}
    (h : Served handoff s s' now side request) (hrequest : ∀ params, request ≠ .abort params)
    (side' : Side) {id : String} (hphase : phaseAt (s.disk side') id ≠ some .aborted) :
    phaseAt (s'.disk side') id ≠ some .aborted := by
  by_cases hside : side' = side
  · subst hside
    rw [h.own]
    exact phaseAt_ne_aborted hrequest hphase
  · rw [h.other side' hside]
    exact hphase

theorem Served.decided {now : Int} {side : Side} {request : NodeRequest}
    (h : Served handoff s s' now side request)
    (hrequest : (∃ params, request = .commit params) ∨ ∃ params, request = .abort params)
    (side' : Side) {id : String} {phase : MovePhase}
    (hdecided : phase = .committed ∨ phase = .aborted)
    (hphase : phaseAt (s.disk side') id = some phase) : phaseAt (s'.disk side') id = some phase := by
  by_cases hside : side' = side
  · subst hside
    rw [h.own]
    exact phaseAt_decided hrequest hdecided hphase
  · rw [h.other side' hside]
    exact hphase

theorem mem_underWay {entry : Side × NodeRequest} (h : entry ∈ s.underWay handoff) :
    entry ∈ s.strays ∨ handoff.request s.phase = some entry := by
  rcases List.mem_append.mp h with hstray | hcall
  · exact Or.inl hstray
  · refine Or.inr ?_
    cases hsent : s.call with
    | sent =>
      rw [hsent] at hcall
      exact Option.mem_toList.mp hcall
    | answered result =>
      rw [hsent] at hcall
      exact absurd hcall List.not_mem_nil
    | lost =>
      rw [hsent] at hcall
      exact absurd hcall List.not_mem_nil

theorem giveUp_strays (reason : String) :
    (s.giveUp handoff reason).strays ⊆ s.underWay handoff := by
  intro entry h
  unfold giveUp at h
  unfold underWay
  cases hcall : s.call with
  | sent =>
    rw [hcall] at h
    exact h
  | answered result =>
    rw [hcall] at h
    exact List.mem_append_left _ h
  | lost =>
    rw [hcall] at h
    exact List.mem_append_left _ h

theorem Early.not_commit (h : Early handoff s) {entry : Side × NodeRequest}
    (hentry : entry ∈ s.underWay handoff) (params : MoveCommitParams) :
    entry.2 ≠ .commit params := by
  rcases mem_underWay hentry with hstray | hrequest
  · exact h.strays entry hstray params
  · rcases h.phase with hopening | hclosing
    · exact (Handoff.opening_request hopening hrequest).1 params
    · obtain ⟨abort, habort⟩ := Handoff.closing_request hclosing hrequest
      rw [habort]
      exact nofun

theorem Early.of_closing (h : Early handoff s) {phase : Phase} {call : Call}
    {strays : List (Side × NodeRequest)} (hphase : phase.closing = true)
    (hstrays : strays ⊆ s.underWay handoff) :
    Early handoff ⟨s.source, s.target, phase, call, strays⟩ where
  phase := Or.inr hphase
  opening hopening := by
    rw [Handoff.opening_of_closing hphase] at hopening
    cases hopening
  strays stray hstray params := h.not_commit (hstrays hstray) params
  source := h.source
  target := h.target

theorem strays_underWay : s.strays ⊆ s.underWay handoff := List.subset_append_left _ _

theorem Early.served (h : Early handoff s) {now : Int} {side : Side} {request : NodeRequest}
    (hserved : Served handoff s s' now side request) : Early handoff s' where
  phase := by
    rw [hserved.phase]
    exact h.phase
  opening hopening := by
    rw [hserved.phase] at hopening
    obtain ⟨hstrays, hsource⟩ := h.opening hopening
    have hrequest : handoff.request s.phase = some (side, request) := by
      rcases mem_underWay hserved.mem with hstray | hrequest
      · rw [hstrays] at hstray
        exact absurd hstray List.not_mem_nil
      · exact hrequest
    refine ⟨List.eq_nil_of_subset_nil (hstrays ▸ hserved.strays), ?_⟩
    exact hserved.ne_aborted (Handoff.opening_request hopening hrequest).2 .source hsource
  strays stray hstray := h.strays stray (hserved.strays hstray)
  source := hserved.ne_committed (h.not_commit hserved.mem) .source h.source
  target := hserved.ne_committed (h.not_commit hserved.mem) .target h.target

theorem Early.goOn (h : Early handoff s) {phase : Phase}
    (hphase : phase.opening = true ∨ phase.closing = true)
    (hopening : phase.opening = true → s.phase.opening = true) : Early handoff (s.goOn phase) where
  phase := hphase
  opening hphase := h.opening (hopening hphase)
  strays := h.strays
  source := h.source
  target := h.target

theorem Early.happens (h : Early handoff s) (hhappens : Happens handoff s s') :
    Early handoff s' ∨ Middle handoff s' := by
  cases hhappens with
  | nothing => exact Or.inl h
  | served _ now side request hserved htimely => exact Or.inl (h.served hserved)
  | lost => exact Or.inl ⟨h.phase, h.opening, h.strays, h.source, h.target⟩
  | strayLost index =>
    have hsubset : s.strays.eraseIdx index ⊆ s.strays := (List.eraseIdx_sublist _ _).subset
    refine Or.inl ⟨h.phase, ?_, fun stray hstray => h.strays stray (hsubset hstray),
      h.source, h.target⟩
    intro hopening
    obtain ⟨hstrays, hsource⟩ := h.opening hopening
    exact ⟨List.eq_nil_of_subset_nil (hstrays ▸ hsubset), hsource⟩
  | received reason result hcall =>
    rcases h.phase with hopening | hclosing
    · exact Or.inl (h.goOn (Handoff.opening_answered reason result hopening) fun _ => hopening)
    · exact Or.inl (h.of_closing (Handoff.closing_answered reason result hclosing)
        strays_underWay)
  | confirmed hrequest =>
    rcases h.phase with hopening | hclosing
    · rcases Handoff.opening_confirmed hopening with hstays | ⟨checkpoint, hprovider⟩
      · exact Or.inl (h.goOn (Or.inl hstays) fun _ => hopening)
      · obtain ⟨hstrays, hsource⟩ := h.opening hopening
        rw [hprovider]
        refine Or.inr ⟨Or.inl ⟨checkpoint, rfl⟩, fun _ _ => ⟨hstrays, hsource, nofun⟩, ?_,
          h.source, fun haborted => absurd haborted hsource⟩
        intro stray hstray
        exact absurd (hstrays ▸ hstray) List.not_mem_nil
    · exact Or.inl (h.of_closing (Handoff.closing_confirmed hclosing) strays_underWay)
  | refused reason =>
    refine Or.inl (h.of_closing ?_ strays_underWay)
    rcases h.phase with hopening | hclosing
    · exact Handoff.opening_failed reason hopening
    · exact Handoff.closing_failed reason hclosing
  | gaveUp reason =>
    refine Or.inl (h.of_closing ?_ (giveUp_strays reason))
    rcases h.phase with hopening | hclosing
    · exact Handoff.opening_failed reason hopening
    · exact Handoff.closing_failed reason hclosing

/-! ### The target was sent its commit -/

theorem Middle.commit_or_abort (h : Middle handoff s) {entry : Side × NodeRequest}
    (hentry : entry ∈ s.underWay handoff) :
    (∃ params, entry = (.target, .commit params)) ∨ ∃ params, entry.2 = .abort params := by
  rcases mem_underWay hentry with hstray | hrequest
  · exact h.strays entry hstray
  · rcases h.phase with ⟨checkpoint, hphase⟩ | hclosing
    · rw [hphase] at hrequest
      cases hrequest
      exact Or.inl ⟨_, rfl⟩
    · exact Or.inr (Handoff.closing_request hclosing hrequest)

theorem Settled.mono (h : s.Settled handoff) (htarget : s'.target = s.target)
    (hunderWay : s'.underWay handoff ⊆ s.underWay handoff) : s'.Settled handoff := by
  unfold Settled
  rw [htarget]
  refine ⟨h.1, ?_⟩
  rcases h.2 with haborted | hnone
  · exact Or.inl haborted
  · exact Or.inr fun params hmem => hnone params (hunderWay hmem)

/-- A client that aborts sends no more commits. -/
theorem Settled.of_closing (h : s.Settled handoff) {phase : Phase} {call : Call}
    {strays : List (Side × NodeRequest)} (hphase : phase.closing = true)
    (hstrays : strays ⊆ s.underWay handoff) :
    Settled handoff ⟨s.source, s.target, phase, call, strays⟩ := by
  refine ⟨h.1, ?_⟩
  rcases h.2 with haborted | hnone
  · exact Or.inl haborted
  · refine Or.inr fun params hmem => ?_
    rcases mem_underWay hmem with hstray | hrequest
    · exact hnone params (hstrays hstray)
    · obtain ⟨abort, habort⟩ := Handoff.closing_request hphase hrequest
      cases habort

theorem Settled.served (h : s.Settled handoff) {now : Int} {side : Side} {request : NodeRequest}
    (hserved : Served handoff s s' now side request)
    (hrequest : (∃ params, (side, request) = (.target, .commit params)) ∨
      ∃ params, request = .abort params) : s'.Settled handoff := by
  have hdecides : (∃ params, request = .commit params) ∨ ∃ params, request = .abort params := by
    rcases hrequest with ⟨params, heq⟩ | habort
    · exact Or.inl ⟨params, (Prod.mk.inj heq).2⟩
    · exact Or.inr habort
  have hkept : phaseAt s.target handoff.checkpointId = some .aborted →
      phaseAt s'.target handoff.checkpointId = some .aborted :=
    hserved.decided hdecides .target (Or.inr rfl)
  refine ⟨?_, ?_⟩
  · rcases hrequest with ⟨params, heq⟩ | ⟨params, rfl⟩
    · rcases h.2 with haborted | hnone
      · rw [hkept haborted]
        exact nofun
      · exact absurd (heq ▸ hserved.mem) (hnone params)
    · exact hserved.ne_committed nofun .target h.1
  · rcases h.2 with haborted | hnone
    · exact Or.inl (hkept haborted)
    · exact Or.inr fun params hmem => hnone params (hserved.underWay hmem)

theorem Middle.of_closing (h : Middle handoff s) {phase : Phase} {call : Call}
    {strays : List (Side × NodeRequest)} (hphase : phase.closing = true)
    (hstrays : strays ⊆ s.underWay handoff) :
    Middle handoff ⟨s.source, s.target, phase, call, strays⟩ where
  phase := Or.inr hphase
  waiting checkpoint hwaiting := by
    have hcommit : phase = .commitTarget checkpoint := hwaiting
    rw [hcommit] at hphase
    cases hphase
  strays _ hstray := h.commit_or_abort (hstrays hstray)
  source := h.source
  settled haborted := (h.settled haborted).of_closing hphase hstrays

theorem Middle.served (h : Middle handoff s) (hnamed : Named handoff s) {now : Int} {side : Side}
    {request : NodeRequest} (hserved : Served handoff s s' now side request)
    (htimely : ∀ params, (side, request) = (.source, .abort params) →
      phaseAt s.source handoff.checkpointId = some .committed ∨ s.Settled handoff) :
    Middle handoff s' where
  phase := by
    rw [hserved.phase]
    exact h.phase
  waiting checkpoint hphase := by
    rw [hserved.phase] at hphase
    obtain ⟨hstrays, hsource, hanswered⟩ := h.waiting checkpoint hphase
    have hrequest : handoff.request s.phase = some (side, request) := by
      rcases mem_underWay hserved.mem with hstray | hrequest
      · rw [hstrays] at hstray
        exact absurd hstray List.not_mem_nil
      · exact hrequest
    rw [hphase] at hrequest
    cases hrequest
    refine ⟨List.eq_nil_of_subset_nil (hstrays ▸ hserved.strays),
      hserved.ne_aborted nofun .source hsource, ?_⟩
    intro response hresponse
    rcases hserved.call with hcall | ⟨-, hcall⟩
    · rw [hcall] at hresponse
      exact hserved.decided (Or.inl ⟨_, rfl⟩) .target (Or.inl rfl) (hanswered response hresponse)
    · rw [hcall] at hresponse
      have hok := phaseAt_of_commit_ok (Call.answered.inj hresponse)
      rw [← hserved.own] at hok
      rw [← hnamed.phase checkpoint (hphase ▸ rfl)]
      exact hok
  strays stray hstray := h.strays stray (hserved.strays hstray)
  source := by
    rcases h.commit_or_abort hserved.mem with ⟨params, heq⟩ | ⟨params, habort⟩
    · cases heq
      rw [show s'.source = s.source from hserved.other .source nofun]
      exact h.source
    · have hrequest : request = .abort params := habort
      subst hrequest
      exact hserved.ne_committed nofun .source h.source
  settled haborted := by
    have hrequest := h.commit_or_abort hserved.mem
    suffices hsettled : s.Settled handoff from hsettled.served hserved hrequest
    by_cases hside : side = .source
    · subst hside
      rcases hrequest with ⟨params, heq⟩ | ⟨params, habort⟩
      · cases heq
      · rcases htimely params (congrArg _ habort) with hcommitted | hsettled
        · exact absurd hcommitted h.source
        · exact hsettled
    · rw [show s'.source = s.source from hserved.other .source (Ne.symm hside)] at haborted
      exact h.settled haborted

theorem answered_commitTarget (checkpoint : CheckpointManifest) (reason : String)
    (result : NodeResult NodeResponse) :
    ((∃ response, result = .ok response) ∧
      Handoff.answered reason (.commitTarget checkpoint) result = .commitSource checkpoint) ∨
    (Handoff.answered reason (.commitTarget checkpoint) result).closing = true := by
  cases result with
  | error e => exact Or.inr rfl
  | ok response =>
    cases response with
    | movement m => exact Or.inl ⟨⟨_, rfl⟩, rfl⟩
    | _ => exact Or.inr rfl

theorem Middle.happens (h : Middle handoff s) (hnamed : Named handoff s)
    (hhappens : Happens handoff s s') : Middle handoff s' ∨ Late handoff s' := by
  cases hhappens with
  | nothing => exact Or.inl h
  | served _ now side request hserved htimely => exact Or.inl (h.served hnamed hserved htimely)
  | lost =>
    refine Or.inl ⟨h.phase, ?_, h.strays, h.source, ?_⟩
    · intro checkpoint hphase
      obtain ⟨hstrays, hsource, -⟩ := h.waiting checkpoint hphase
      exact ⟨hstrays, hsource, nofun⟩
    · intro haborted
      refine (h.settled haborted).mono rfl ?_
      unfold underWay
      rw [List.append_nil]
      exact List.subset_append_left _ _
  | strayLost index =>
    have hsubset : s.strays.eraseIdx index ⊆ s.strays := (List.eraseIdx_sublist _ _).subset
    refine Or.inl ⟨h.phase, ?_, fun stray hstray => h.strays stray (hsubset hstray),
      h.source, ?_⟩
    · intro checkpoint hphase
      obtain ⟨hstrays, hrest⟩ := h.waiting checkpoint hphase
      exact ⟨List.eq_nil_of_subset_nil (hstrays ▸ hsubset), hrest⟩
    · intro haborted
      exact (h.settled haborted).mono rfl (underWay_of_strays hsubset)
  | received reason result hcall =>
    rcases h.phase with ⟨checkpoint, hphase⟩ | hclosing
    · obtain ⟨hstrays, hsource, hanswered⟩ := h.waiting checkpoint hphase
      rw [hphase]
      rcases answered_commitTarget checkpoint reason result with ⟨⟨response, rfl⟩, heq⟩ | hclosing
      · rw [heq]
        refine Or.inr ⟨Or.inl ⟨checkpoint, rfl⟩, ?_, hanswered response hcall, hsource⟩
        intro stray hstray
        exact absurd (hstrays ▸ hstray) List.not_mem_nil
      · exact Or.inl (h.of_closing hclosing strays_underWay)
    · exact Or.inl (h.of_closing (Handoff.closing_answered reason result hclosing)
        strays_underWay)
  | confirmed hrequest =>
    rcases h.phase with ⟨checkpoint, hphase⟩ | hclosing
    · rw [hphase] at hrequest
      cases hrequest
    · exact Or.inl (h.of_closing (Handoff.closing_confirmed hclosing) strays_underWay)
  | refused reason =>
    refine Or.inl (h.of_closing ?_ strays_underWay)
    rcases h.phase with ⟨checkpoint, hphase⟩ | hclosing
    · rw [hphase]
      rfl
    · exact Handoff.closing_failed reason hclosing
  | gaveUp reason =>
    refine Or.inl (h.of_closing ?_ (giveUp_strays reason))
    rcases h.phase with ⟨checkpoint, hphase⟩ | hclosing
    · rw [hphase]
      rfl
    · exact Handoff.closing_failed reason hclosing

/-! ### The source was sent its commit -/

theorem Late.commit_or_abort (h : Late handoff s) {entry : Side × NodeRequest}
    (hentry : entry ∈ s.underWay handoff) :
    (∃ params, entry = (.source, .commit params)) ∨ ∃ params, entry.2 = .abort params := by
  rcases mem_underWay hentry with hstray | hrequest
  · exact h.strays entry hstray
  · rcases h.phase with ⟨checkpoint, hphase⟩ | hclosing | hdone
    · rw [hphase] at hrequest
      cases hrequest
      exact Or.inl ⟨_, rfl⟩
    · exact Or.inr (Handoff.closing_request hclosing hrequest)
    · rw [hdone] at hrequest
      cases hrequest

theorem Late.of_returning (h : Late handoff s) {phase : Phase} {call : Call}
    {strays : List (Side × NodeRequest)} (hphase : phase.closing = true ∨ phase = .done true)
    (hstrays : strays ⊆ s.underWay handoff) :
    Late handoff ⟨s.source, s.target, phase, call, strays⟩ where
  phase := Or.inr hphase
  strays _ hstray := h.commit_or_abort (hstrays hstray)
  target := h.target
  source := h.source

theorem Late.served (h : Late handoff s) {now : Int} {side : Side} {request : NodeRequest}
    (hserved : Served handoff s s' now side request)
    (htimely : ∀ params, (side, request) = (.source, .abort params) →
      phaseAt s.source handoff.checkpointId = some .committed ∨ s.Settled handoff) :
    Late handoff s' where
  phase := by
    rw [hserved.phase]
    exact h.phase
  strays stray hstray := h.strays stray (hserved.strays hstray)
  target := by
    refine hserved.decided ?_ .target (Or.inl rfl) h.target
    rcases h.commit_or_abort hserved.mem with ⟨params, heq⟩ | habort
    · exact Or.inl ⟨params, (Prod.mk.inj heq).2⟩
    · exact Or.inr habort
  source := by
    rcases h.commit_or_abort hserved.mem with ⟨params, heq⟩ | ⟨params, habort⟩
    · cases heq
      exact hserved.ne_aborted nofun .source h.source
    · have hrequest : request = .abort params := habort
      subst hrequest
      cases side with
      | target =>
        rw [show s'.source = s.source from hserved.other .source nofun]
        exact h.source
      | source =>
        rcases htimely params rfl with hcommitted | hsettled
        · rw [show phaseAt s'.source handoff.checkpointId = some .committed from
            hserved.decided (Or.inr ⟨_, rfl⟩) .source (Or.inl rfl) hcommitted]
          exact nofun
        · exact absurd h.target hsettled.1

theorem Late.returning (h : Late handoff s) (reason : String) :
    ((Handoff.failed reason s.phase).closing = true ∨ Handoff.failed reason s.phase = .done true) ∧
    ∀ result, (Handoff.answered reason s.phase result).closing = true ∨
      Handoff.answered reason s.phase result = .done true := by
  rcases h.phase with ⟨checkpoint, hphase⟩ | hclosing | hdone
  · rw [hphase]
    refine ⟨Or.inl rfl, fun result => ?_⟩
    cases result with
    | error e => exact Or.inl rfl
    | ok response =>
      cases response with
      | movement m => exact Or.inr rfl
      | _ => exact Or.inl rfl
  · exact ⟨Or.inl (Handoff.closing_failed reason hclosing),
      fun result => Or.inl (Handoff.closing_answered reason result hclosing)⟩
  · rw [hdone]
    exact ⟨Or.inr rfl, fun result => Or.inr rfl⟩

theorem Late.happens (h : Late handoff s) (hhappens : Happens handoff s s') : Late handoff s' := by
  cases hhappens with
  | nothing => exact h
  | served _ now side request hserved htimely => exact h.served hserved htimely
  | lost => exact ⟨h.phase, h.strays, h.target, h.source⟩
  | strayLost index =>
    have hsubset : s.strays.eraseIdx index ⊆ s.strays := (List.eraseIdx_sublist _ _).subset
    exact ⟨h.phase, fun _ hstray => h.strays _ (hsubset hstray), h.target, h.source⟩
  | received reason result hcall =>
    exact h.of_returning ((h.returning reason).2 result) strays_underWay
  | confirmed hrequest =>
    refine h.of_returning ?_ strays_underWay
    rcases h.phase with ⟨checkpoint, hphase⟩ | hclosing | hdone
    · rw [hphase] at hrequest
      cases hrequest
    · exact Or.inl (Handoff.closing_confirmed hclosing)
    · rw [hdone]
      exact Or.inr rfl
  | refused reason => exact h.of_returning (h.returning reason).1 strays_underWay
  | gaveUp reason => exact h.of_returning (h.returning reason).1 (giveUp_strays reason)

/-! ### Every run -/

theorem Named.goOn (h : Named handoff s) {phase : Phase}
    {strays : List (Side × NodeRequest)}
    (hphase : ∀ checkpoint, phase.checkpoint = some checkpoint →
      s.phase.checkpoint = some checkpoint) :
    Named handoff ⟨s.source, s.target, phase, .sent, strays⟩ where
  phase checkpoint hcheckpoint := h.phase checkpoint (hphase checkpoint hcheckpoint)
  call := nofun

theorem Named.served (h : Named handoff s) {now : Int} {side : Side} {request : NodeRequest}
    (hserved : Served handoff s s' now side request) : Named handoff s' where
  phase := by
    rw [hserved.phase]
    exact h.phase
  call checkpoint hphase hanswered := by
    rw [hserved.phase] at hphase
    rcases hserved.call with hcall | ⟨hrequest, hcall⟩
    · rw [hcall] at hanswered
      exact h.call checkpoint hphase hanswered
    · rw [hphase] at hrequest
      cases hrequest
      rw [hcall] at hanswered
      exact dispatch_prepare_checkpointId (Call.answered.inj hanswered)

theorem Named.happens (h : Named handoff s) (hhappens : Happens handoff s s') :
    Named handoff s' := by
  cases hhappens with
  | nothing => exact h
  | served _ now side request hserved htimely => exact h.served hserved
  | lost => exact ⟨h.phase, nofun⟩
  | strayLost index => exact ⟨h.phase, h.call⟩
  | received reason result hcall =>
    refine ⟨fun checkpoint hcheckpoint => ?_, nofun⟩
    rcases Handoff.answered_checkpoint hcheckpoint with hsame | ⟨hprepare, hmanifest⟩
    · exact h.phase checkpoint hsame
    · exact h.call checkpoint hprepare (hmanifest ▸ hcall)
  | confirmed hrequest => exact h.goOn fun _ => Handoff.confirmed_checkpoint
  | refused reason => exact h.goOn fun _ => Handoff.failed_checkpoint
  | gaveUp reason => exact h.goOn fun _ => Handoff.failed_checkpoint

/-- In one of the three eras, with the right checkpoint in hand. -/
def Ordered (handoff : Handoff) (s : HandoffSystem) : Prop :=
  Named handoff s ∧ (Early handoff s ∨ Middle handoff s ∨ Late handoff s)

theorem Ordered.happens (h : Ordered handoff s) (hhappens : Happens handoff s s') :
    Ordered handoff s' := by
  obtain ⟨hnamed, hera⟩ := h
  refine ⟨hnamed.happens hhappens, ?_⟩
  rcases hera with hearly | hmiddle | hlate
  · rcases hearly.happens hhappens with hearly | hmiddle
    · exact Or.inl hearly
    · exact Or.inr (Or.inl hmiddle)
  · exact Or.inr (hmiddle.happens hnamed hhappens)
  · exact Or.inr (Or.inr (hlate.happens hhappens))

/-- No node has committed what the other has aborted. -/
def Agree (handoff : Handoff) (s : HandoffSystem) : Prop :=
  ¬ (phaseAt s.source handoff.checkpointId = some .committed ∧
      phaseAt s.target handoff.checkpointId = some .aborted) ∧
  ¬ (phaseAt s.source handoff.checkpointId = some .aborted ∧
      phaseAt s.target handoff.checkpointId = some .committed)

theorem Ordered.agree (h : Ordered handoff s) : Agree handoff s := by
  rcases h.2 with hearly | hmiddle | hlate
  · exact ⟨fun hcontra => hearly.source hcontra.1, fun hcontra => hearly.target hcontra.2⟩
  · exact ⟨fun hcontra => hmiddle.source hcontra.1,
      fun hcontra => (hmiddle.settled hcontra.1).1 hcontra.2⟩
  · refine ⟨fun hcontra => ?_, fun hcontra => hlate.source hcontra.1⟩
    have hphase := hlate.target.symm.trans hcontra.2
    cases hphase

theorem ordered_start {source target : NodeDisk} (hsource : source.moves handoff.checkpointId = none)
    (htarget : target.moves handoff.checkpointId = none) :
    Ordered handoff (start source target) := by
  have hphase : ∀ disk : NodeDisk, ∀ phase, disk.moves handoff.checkpointId = none →
      phaseAt disk handoff.checkpointId ≠ some phase := by
    intro disk phase hnone
    unfold phaseAt
    rw [hnone]
    exact nofun
  refine ⟨⟨nofun, nofun⟩, Or.inl ⟨Or.inl rfl, fun _ => ⟨rfl, hphase _ _ hsource⟩, nofun,
    hphase _ _ hsource, hphase _ _ htarget⟩⟩

theorem ordered_run {source target : NodeDisk}
    (hsource : source.moves handoff.checkpointId = none)
    (htarget : target.moves handoff.checkpointId = none) (events : List HandoffEvent) :
    (∀ x ∈ Trace.trace (HandoffSystem.step handoff) (start source target) events,
      Timely handoff x) →
    Ordered handoff (Trace.run (HandoffSystem.step handoff) (start source target) events) := by
  refine Trace.trace_invariant (HandoffSystem.step handoff)
    (P := fun history s => (∀ x ∈ history, Timely handoff x) → Ordered handoff s)
    (fun _ => ordered_start hsource htarget) ?_ events
  intro history s' event ih htimely
  have hordered := ih fun x hx => htimely x (List.mem_append_left _ hx)
  exact hordered.happens
    (step_happens event (htimely _ (List.mem_append_right _ (List.mem_singleton_self _))))

/--
**The two nodes never disagree, as long as the source's aborts come in time.**  Whatever is
lost, times out or is handled late, no node has committed a checkpoint that the other has
aborted, if every abort the source handles before it has committed finds the target settled.
-/
theorem handoff_agreement (handoff : Handoff) (source target : NodeDisk)
    (hsource : source.moves handoff.checkpointId = none)
    (htarget : target.moves handoff.checkpointId = none) (events : List HandoffEvent)
    (htimely : ∀ x ∈ Trace.trace (HandoffSystem.step handoff) (start source target) events,
      Timely handoff x) :
    Agree handoff (Trace.run (HandoffSystem.step handoff) (start source target) events) :=
  (ordered_run hsource htarget events htimely).agree

/-- A session with an empty workspace, moved from one small node to another. -/
def sampleHandoff : Handoff where
  source := { sampleService with nodeId := "node-a" }
  target := sampleService
  params := ⟨"session", .claude, "work", "/work", some "conversation", .move⟩
  found := ⟨.nil, none, [0x00, 0x11, 0x22, 0x33, 0x44, 0x55, 0x66, 0x77,
    0x88, 0x99, 0xaa, 0xbb, 0xcc, 0xdd, 0xee, 0xff]⟩
  leaseId := "lease-1"

/-- All goes well until the target has handled its commit. -/
def untilCommit : List HandoffEvent :=
  [.external true "", .external true "", .serve 1, .receive "", .serve 2, .receive "",
    .serve 3, .receive "", .serve 4, .receive "", .external true "", .serve 5]

/-- The client gives up, and both nodes handle its aborts. -/
def givenUp : List HandoffEvent :=
  [.lose, .giveUp "timed out", .serve 7, .receive "", .serve 8]

/-- The source is committed when it handles an abort. -/
def abortsCommitted (x : Trace.Step HandoffSystem HandoffEvent Unit) : Bool :=
  match handled sampleHandoff x.before x.event with
  | some (.source, .abort _) => phaseAt x.before.source sampleHandoff.checkpointId == some .committed
  | _ => true

/-- The answer of the source's commit is lost, and both nodes refuse to abort. -/
theorem handoff_agreement_committed :
    phaseAt (Trace.run (HandoffSystem.step sampleHandoff) (start .empty .empty)
      (untilCommit ++ [.receive "", .serve 6] ++ givenUp)).source sampleHandoff.checkpointId
        = some .committed ∧
    Agree sampleHandoff (Trace.run (HandoffSystem.step sampleHandoff) (start .empty .empty)
      (untilCommit ++ [.receive "", .serve 6] ++ givenUp)) := by
  have hcommitted : (Trace.trace (HandoffSystem.step sampleHandoff) (start .empty .empty)
      (untilCommit ++ [.receive "", .serve 6] ++ givenUp)).all abortsCommitted = true := by decide
  refine ⟨by decide, handoff_agreement sampleHandoff .empty .empty rfl rfl _ ?_⟩
  intro x hx params habort
  have hcheck := List.all_eq_true.mp hcommitted x hx
  rw [abortsCommitted, habort] at hcheck
  exact Or.inl (eq_of_beq hcheck)

/--
**A commit whose answer is lost splits the nodes.**  The target has committed; the client does
not hear of it, gives up and aborts both.  The target refuses and the source does not.
-/
theorem lost_commit_answer_splits :
    phaseAt (Trace.run (HandoffSystem.step sampleHandoff) (start .empty .empty)
      (untilCommit ++ givenUp)).target sampleHandoff.checkpointId = some .committed ∧
    ¬ Agree sampleHandoff (Trace.run (HandoffSystem.step sampleHandoff) (start .empty .empty)
      (untilCommit ++ givenUp)) := by
  have hsource : phaseAt (Trace.run (HandoffSystem.step sampleHandoff) (start .empty .empty)
      (untilCommit ++ givenUp)).source sampleHandoff.checkpointId = some .aborted := by
    decide
  have htarget : phaseAt (Trace.run (HandoffSystem.step sampleHandoff) (start .empty .empty)
      (untilCommit ++ givenUp)).target sampleHandoff.checkpointId = some .committed := by
    decide
  exact ⟨htarget, fun hagree => hagree.2 ⟨hsource, htarget⟩⟩

end HandoffSystem

end Homie.Client
