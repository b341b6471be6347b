/-
What a review prompt holds, whatever it is made of.

An item that is cut keeps `omissionReserveBytes` free for its marker, and a marker with an omitted
count of eight digits and an item number of one fills them exactly.  So nothing is cut twice, every
item stays within its budget, and the budgets were shared out so that all of them fit.
-/
import Homie.App.ReviewPrompt

namespace Homie.App.Review

/-! ### Cutting at a boundary -/

theorem floorFrom_le (value : Text) (limit : Nat) : floorFrom value limit ≤ limit := by
  induction limit with
  | zero => exact Nat.le_refl 0
  | succ limit ih =>
    unfold floorFrom
    split
    · exact Nat.le_refl _
    · exact Nat.le_succ_of_le ih

theorem floorFrom_boundary (value : Text) (limit : Nat) :
    Utf8.isCharBoundary value (floorFrom value limit) := by
  induction limit with
  | zero => simp [floorFrom, Utf8.isCharBoundary]
  | succ limit ih =>
    unfold floorFrom
    split
    · assumption
    · exact ih

theorem floorCharBoundary_le (value : Text) (limit : Nat) :
    floorCharBoundary value limit ≤ limit ∧ floorCharBoundary value limit ≤ value.length := by
  have h := floorFrom_le value (min limit value.length)
  unfold floorCharBoundary
  omega

example : floorCharBoundary (Utf8.encode "aλb") 2 = 1 := by decide

theorem length_take_floor (value : Text) (limit : Nat) :
    (value.take (floorCharBoundary value limit)).length = floorCharBoundary value limit :=
  List.length_take_of_le (floorCharBoundary_le value limit).2

/-! ### Numbers and markers -/

theorem length_omissionMarker_le {omitted itemNumber : Nat} (homitted : omitted < 10 ^ 8)
    (hitem : itemNumber < 10) :
    (omissionMarker omitted itemNumber).length ≤ omissionReserveBytes := by
  have hcount := length_decimal_le (by decide : 0 < 8) homitted
  have hnumber := length_decimal_le (by decide : 0 < 1) (by simpa using hitem)
  have hfront : (Utf8.encode "\n[... ").length = 6 := by decide
  have hmiddle : (Utf8.encode " bytes omitted from evidence ").length = 29 := by decide
  have hback : (Utf8.encode " to keep review context bounded ...]").length = 36 := by
    decide
  unfold omissionMarker omissionReserveBytes
  simp only [List.length_append, hfront, hmiddle, hback]
  omega

/-! ### An item -/

/-- The body stands for the rendered item: it is the item, or the item up to a character boundary
and a marker that counts the rest. -/
def StandsFor (body rendered : Text) (itemNumber : Nat) : Prop :=
  body = rendered ∨
    ∃ kept omitted, kept <+: rendered ∧ Utf8.isCharBoundary rendered kept.length ∧
      body = kept ++ omissionMarker omitted itemNumber ∧
      omitted + kept.length = rendered.length

theorem clipContext_spec {rendered : Text} {limit itemNumber : Nat}
    (hsize : rendered.length < 10 ^ 8) (hlimit : omissionReserveBytes ≤ limit)
    (hitem : itemNumber < 10) :
    StandsFor (clipContext rendered limit itemNumber) rendered itemNumber ∧
      (clipContext rendered limit itemNumber).length ≤ limit := by
  unfold clipContext
  by_cases hfits : rendered.length ≤ limit
  · rw [if_pos hfits]
    exact ⟨Or.inl rfl, hfits⟩
  · rw [if_neg hfits]
    obtain ⟨hle, hlen⟩ := floorCharBoundary_le rendered (limit - omissionReserveBytes)
    have hkept := length_take_floor rendered (limit - omissionReserveBytes)
    have hboundary : Utf8.isCharBoundary rendered
        (floorCharBoundary rendered (limit - omissionReserveBytes)) :=
      floorFrom_boundary _ _
    generalize floorCharBoundary rendered (limit - omissionReserveBytes) = boundary at *
    have hmarker : (omissionMarker (rendered.length - boundary) itemNumber).length
        ≤ omissionReserveBytes := length_omissionMarker_le (by omega) hitem
    have hclipped : (rendered.take boundary ++
        omissionMarker (rendered.length - boundary) itemNumber).length ≤ limit := by
      rw [List.length_append, hkept]
      omega
    -- The cut leaves room for the marker, so the text is not cut again.
    show StandsFor (if _ then _ else _) _ _ ∧ (if _ then _ else _ : Text).length ≤ limit
    rw [if_neg (Nat.not_lt.mpr hclipped)]
    refine ⟨Or.inr ⟨rendered.take boundary, rendered.length - boundary,
      List.take_prefix boundary rendered, ?_, rfl, ?_⟩, hclipped⟩
    · rw [hkept]
      exact hboundary
    · rw [hkept]
      omega

/-! ### The items together -/

/-- Bodies as the prompt shows them, each after its separator. -/
def itemsOf (bodies : List Text) : Text :=
  (bodies.mapIdx fun index body =>
    separator bodies.length index ++ body ++ Utf8.encode "\n").flatten

theorem renderItems_eq (evidence : List ReviewEvidence) (itemBudget : Nat) :
    renderItems evidence itemBudget = itemsOf (evidence.mapIdx fun index item =>
      clipContext (renderEvidence item) itemBudget (index + 1)) := by
  simp [renderItems, itemsOf, List.mapIdx_mapIdx, Function.comp_def]

theorem length_flatten_mapIdx_le {bodies : List Text} {limit : Nat}
    (h : ∀ body ∈ bodies, body.length ≤ limit) (before : Nat → Text) (after : Text) :
    (bodies.mapIdx fun index body => before index ++ body ++ after).flatten.length
      ≤ ((List.range bodies.length).map fun index => (before index).length).sum
        + bodies.length * limit + bodies.length * after.length := by
  induction bodies generalizing before with
  | nil => simp
  | cons body bodies ih =>
    have hbody := h body List.mem_cons_self
    have hrest := ih (fun other hother => h other (List.mem_cons_of_mem _ hother))
      fun index => before (index + 1)
    simp only [List.mapIdx_cons, List.flatten_cons, List.length_append, List.length_cons,
      List.range_succ_eq_map, List.map_cons, List.map_map, List.sum_cons,
      Function.comp_def, Nat.succ_eq_add_one, Nat.add_mul, Nat.one_mul] at hrest ⊢
    omega

theorem length_renderItems_le {evidence : List ReviewEvidence} {itemBudget : Nat}
    (h : ∀ index item, evidence[index]? = some item →
      (clipContext (renderEvidence item) itemBudget (index + 1)).length ≤ itemBudget) :
    (renderItems evidence itemBudget).length
      ≤ ((List.range evidence.length).map fun index =>
          (separator evidence.length index).length).sum
        + evidence.length * itemBudget + evidence.length := by
  have hbodies : ∀ body ∈ evidence.mapIdx fun index item =>
      clipContext (renderEvidence item) itemBudget (index + 1), body.length ≤ itemBudget := by
    intro body hbody
    obtain ⟨index, hindex, rfl⟩ := List.mem_mapIdx.mp hbody
    exact h index _ (List.getElem?_eq_getElem hindex)
  have hnewline : (Utf8.encode "\n").length = 1 := by decide
  have hlen := length_flatten_mapIdx_le hbodies (separator evidence.length) (Utf8.encode "\n")
  rw [renderItems_eq]
  simpa [itemsOf, hnewline] using hlen

/-! ### The prompt -/

theorem length_separator_le {count index : Nat} (hcount : count < 10) (hindex : index < count) :
    (separator count index).length ≤ 27 := by
  have hnumber : (decimal (index + 1)).length ≤ 1 := length_decimal_le (by decide) (by omega)
  have htotal := length_decimal_le (by decide : 0 < 1) (by simpa using hcount)
  have hfront : (Utf8.encode "\n--- Evidence ").length = 14 := by decide
  have hmiddle : (Utf8.encode " of ").length = 4 := by decide
  have hback : (Utf8.encode " ---\n").length = 5 := by decide
  unfold separator
  simp only [List.length_append, hfront, hmiddle, hback]
  omega

theorem fixedBytes_le {evidence : List ReviewEvidence} {question : String}
    (hcount : evidence.length ≤ maxEvidenceItems)
    (hquestion : (Utf8.encode question).length ≤ maxQuestionBytes) :
    fixedBytes evidence question ≤ 9000 := by
  have hframe : promptPreamble.length + promptContextEnd.length ≤ 500 := by decide +kernel
  have hseparators : ((List.range evidence.length).map fun index =>
      (separator evidence.length index).length).sum ≤ evidence.length * 27 := by
    have hsum := List.sum_le_card_nsmul ((List.range evidence.length).map fun index =>
      (separator evidence.length index).length) 27 ?_
    · simpa using hsum
    · intro length hlength
      obtain ⟨index, hindex, rfl⟩ := List.mem_map.mp hlength
      exact length_separator_le (Nat.lt_of_le_of_lt hcount (by decide)) (List.mem_range.mp hindex)
  unfold maxEvidenceItems at hcount
  unfold maxQuestionBytes at hquestion
  unfold fixedBytes
  omega

/-- With as many as eight items of any size and a question that is not blank, there is a prompt.
It fits its limit and ends with the question, and its items stand for the evidence in order. -/
theorem compose_faithful (evidence : List ReviewEvidence) (question : String)
    (hsome : 1 ≤ evidence.length) (hcount : evidence.length ≤ 8)
    (hsize : ∀ item ∈ evidence, (renderEvidence item).length < 10 ^ 8)
    (hblank : trimText question.toList ≠ [])
    (hquestion : (Utf8.encode question).length ≤ 8192) :
    ∃ prompt, compose evidence question = .ok prompt ∧ prompt.text.length ≤ 65536 ∧
      ∃ bodies, bodies.length = evidence.length ∧
        prompt.text = promptPreamble ++ itemsOf bodies ++ promptContextEnd ++
          Utf8.encode question ∧
        ∀ index item body, evidence[index]? = some item → bodies[index]? = some body →
          StandsFor body (renderEvidence item) (index + 1) := by
  have hvalid : validateInputs evidence question = .ok () := by
    have hne : evidence ≠ [] := List.length_pos_iff.mp hsome
    unfold validateInputs
    simp [hne, hblank, maxEvidenceItems, maxQuestionBytes, Nat.not_lt.mpr hcount,
      Nat.not_lt.mpr hquestion]
  have hfixed : fixedBytes evidence question ≤ 9000 := fixedBytes_le hcount hquestion
  set budget := min ((maxPromptBytes - fixedBytes evidence question) / max evidence.length 1)
    maxSingleContextBytes with hbudget
  have hmax : max evidence.length 1 = evidence.length := by omega
  -- Even an eighth of what is left is far more than a marker needs.
  have hreserve : omissionReserveBytes ≤ budget := by
    have hshare : (65536 - 9000) / 8 ≤
        (maxPromptBytes - fixedBytes evidence question) / max evidence.length 1 := by
      rw [hmax]
      exact Nat.div_le_div (by unfold maxPromptBytes; omega) hcount (by omega)
    unfold omissionReserveBytes
    rw [hbudget]
    unfold maxSingleContextBytes
    omega
  have hitem : ∀ index item, evidence[index]? = some item →
      StandsFor (clipContext (renderEvidence item) budget (index + 1)) (renderEvidence item)
          (index + 1) ∧
        (clipContext (renderEvidence item) budget (index + 1)).length ≤ budget := by
    intro index item hget
    obtain ⟨hindex, -⟩ := List.getElem?_eq_some_iff.mp hget
    exact clipContext_spec (hsize item (List.mem_of_getElem? hget)) hreserve (by omega)
  have htext : (promptPreamble ++ renderItems evidence budget ++ promptContextEnd ++
      Utf8.encode question).length ≤ maxPromptBytes := by
    have hitems := length_renderItems_le fun index item hget => (hitem index item hget).2
    have hshare : evidence.length * budget ≤ maxPromptBytes - fixedBytes evidence question := by
      rw [hbudget, hmax]
      exact (Nat.mul_le_mul_left _ (Nat.min_le_left _ _)).trans (Nat.mul_div_le _ _)
    unfold fixedBytes at hshare hfixed
    simp only [List.length_append]
    unfold maxPromptBytes at *
    omega
  refine ⟨⟨subjectLabel evidence, promptPreamble ++ renderItems evidence budget ++
    promptContextEnd ++ Utf8.encode question⟩, ?_, htext, evidence.mapIdx fun index item =>
      clipContext (renderEvidence item) budget (index + 1), ?_, ?_, ?_⟩
  · have hfits : ¬ maxPromptBytes < fixedBytes evidence question := by
      unfold maxPromptBytes
      omega
    unfold compose
    simp only [hvalid, ← hbudget, bind, Except.bind, pure, Except.pure, if_neg hfits,
      if_neg (Nat.not_lt.mpr htext)]
  · exact List.length_mapIdx
  · show _ = promptPreamble ++ itemsOf _ ++ promptContextEnd ++ Utf8.encode question
    rw [← renderItems_eq]
  · intro index item body hget hbody
    rw [List.getElem?_mapIdx, hget] at hbody
    obtain rfl := Option.some.inj hbody
    exact (hitem index item hget).1

theorem compose_faithful_check :
    ∃ prompt, compose [.check "CI / lint" "fail" none] "Why?" = .ok prompt ∧
      prompt.text.length ≤ 65536 ∧
      ∃ bodies, bodies.length = 1 ∧
        prompt.text = promptPreamble ++ itemsOf bodies ++ promptContextEnd ++
          Utf8.encode "Why?" ∧
        ∀ index item body, [ReviewEvidence.check "CI / lint" "fail" none][index]? = some item →
          bodies[index]? = some body → StandsFor body (renderEvidence item) (index + 1) :=
  compose_faithful [.check "CI / lint" "fail" none] "Why?" (by decide) (by decide)
    (fun item hitem => by
      obtain rfl := List.mem_singleton.mp hitem
      decide)
    (by decide) (by decide)

end Homie.App.Review
