/-
One notification for each blocker.

Records come in on every tick, so that a notification belongs to a run of records that ask for the
same: to its first record, if the one before it asked for something else.  The policy compares the
levels of attention and not what is asked.  So a blocker that takes the place of another one, with
no record between them, is not announced; every other run is, once.
-/
import Homie.Lib.Numerals
import Homie.Proofs.Notifications

namespace Homie.App.Notifications

open Hexadecimal

/-! ### What a record asks attention for -/

/-- What tells one blocker from another. -/
structure Blocker where
  kind : NeedsInputKind
  toolName : Option String
  summary : String
deriving DecidableEq

def blockerOf (detail : NeedsInputDetail) : Blocker := ⟨detail.kind, detail.toolName, detail.summary⟩

/-- The text that is hashed. -/
def Blocker.text (blocker : Blocker) : String :=
  kindName blocker.kind ++ "\x00" ++ blocker.toolName.getD "" ++ "\x00" ++ blocker.summary

def fnv (text : String) : UInt64 :=
  text.toUTF8.toList.foldl (fun hash byte => (hash ^^^ byte.toUInt64) * 0x100000001b3)
    0xcbf29ce484222325

theorem blockerIdentity_eq (detail : NeedsInputDetail) :
    blockerIdentity detail = hex16 (fnv (blockerOf detail).text) := rfl

/-- A blocker, which may come without a detail, or a turn that is done. -/
inductive Alert where
  | blocked (blocker : Option Blocker)
  | done
deriving DecidableEq

namespace Alert

def level : Alert → AttentionLevel
  | .blocked _ => .needsInput
  | .done => .doneUnseen

/-- What the identifier says about it. -/
def suffix : Alert → String
  | .blocked none => "needs-input"
  | .blocked (some blocker) => hex16 (fnv blocker.text)
  | .done => "done"

end Alert

def SessionRecord.alert (session : SessionRecord) : Option Alert :=
  match session.attention with
  | .needsInput => some (.blocked (session.needsInput.map blockerOf))
  | .doneUnseen => some .done
  | _ => none

section Alerts

variable {session : SessionRecord} {alert : Alert}

theorem attention_of_alert (h : session.alert = some alert) :
    session.attention = alert.level := by
  unfold SessionRecord.alert at h
  split at h
  · next hlevel => rw [hlevel, ← Option.some.inj h]; rfl
  · next hlevel => rw [hlevel, ← Option.some.inj h]; rfl
  · cases h

theorem alert_of_needsInput (h : session.attention = .needsInput) :
    session.alert = some (.blocked (session.needsInput.map blockerOf)) := by
  unfold SessionRecord.alert
  rw [h]

theorem alert_of_doneUnseen (h : session.attention = .doneUnseen) :
    session.alert = some .done := by
  unfold SessionRecord.alert
  rw [h]

theorem noteworthy_of_alert (h : session.alert = some alert) : Noteworthy session.attention := by
  rw [attention_of_alert h]
  cases alert with
  | blocked blocker => exact Or.inl rfl
  | done => exact Or.inr rfl

theorem not_noteworthy (h : session.alert = none) : ¬Noteworthy session.attention := by
  intro hnote
  rcases hnote with hlevel | hlevel
  · rw [alert_of_needsInput hlevel] at h
    cases h
  · rw [alert_of_doneUnseen hlevel] at h
    cases h

end Alerts

/-! ### Identifiers -/

theorem hex16_length (hash : UInt64) : 16 ≤ (hex16 hash).toList.length := by
  unfold hex16
  rw [String.toList_ofList, List.length_append, List.length_replicate]
  omega

theorem hex16_injective {hash hash' : UInt64} (h : hex16 hash = hex16 hash') : hash = hash' := by
  have hvalue : ∀ hash : UInt64, value (hex16 hash).toList = hash.toNat := by
    intro hash
    unfold hex16
    rw [String.toList_ofList, value_padded, value_toDigits]
  rw [← UInt64.toNat_inj, ← hvalue, ← hvalue, h]

theorem blocked_suffix_ne {blocker blocker' : Option Blocker}
    (h : blocker.map Blocker.text ≠ blocker'.map Blocker.text)
    (hfnv : ∀ b b', blocker = some b → blocker' = some b' → fnv b.text = fnv b'.text →
      b.text = b'.text) : (Alert.blocked blocker).suffix ≠ (Alert.blocked blocker').suffix := by
  have hlong : ∀ b : Blocker, hex16 (fnv b.text) ≠ "needs-input" := by
    intro b hsame
    have hlen := hex16_length (fnv b.text)
    rw [hsame] at hlen
    exact absurd hlen (by decide)
  cases blocker with
  | none =>
    cases blocker' with
    | none => exact absurd rfl h
    | some b' => exact fun hsame => hlong b' hsame.symm
  | some b =>
    cases blocker' with
    | none => exact fun hsame => hlong b hsame
    | some b' =>
      intro hsame
      exact h (congrArg some (hfnv b b' rfl rfl (hex16_injective hsame)))

theorem suffix_ne_memory (alert : Alert) : alert.suffix ≠ "memory-pressure" := by
  cases alert with
  | blocked blocker =>
    cases blocker with
    | none => exact by decide
    | some b =>
      intro hsame
      have hlen := hex16_length (fnv b.text)
      change hex16 (fnv b.text) = _ at hsame
      rw [hsame] at hlen
      exact absurd hlen (by decide)
  | done => exact by decide

theorem suffix_congr {blocker blocker' : Option Blocker}
    (h : blocker.map Blocker.text = blocker'.map Blocker.text) :
    (Alert.blocked blocker).suffix = (Alert.blocked blocker').suffix := by
  have hsuffix : ∀ blocker : Option Blocker, (Alert.blocked blocker).suffix =
      ((blocker.map Blocker.text).map fun text => hex16 (fnv text)).getD "needs-input" := by
    intro blocker
    cases blocker with
    | none => rfl
    | some b => rfl
  rw [hsuffix, hsuffix, h]

/-! ### One update -/

section Update

variable {around : Around} {previous : Option SessionRecord} {session : SessionRecord}
variable {alert : Alert} {id : SessionId}

/-- The window is active, and the session is the selected one. -/
def Around.focuses (around : Around) (id : SessionId) : Bool :=
  around.selectedSessionId == some id && around.appIsActive

/-- The notifications of an update in the thread of the session, other than that of its memory. -/
def alertsOf (around : Around) (previous : Option SessionRecord) (session : SessionRecord) :
    List NotificationRequest :=
  ((transitionsForUpdate around previous session).filterMap (·.notification)).filter fun request =>
    request.threadIdentifier == some session.id &&
      request.identifier != session.id ++ "-memory-pressure"

theorem attentionRequest_spec (halert : session.alert = some alert) :
    ∃ request, attentionRequest around session = some request ∧
      request.threadIdentifier = some session.id ∧
      request.identifier = session.id ++ "-" ++ alert.suffix := by
  have hlevel := attention_of_alert halert
  cases alert with
  | done =>
    unfold attentionRequest
    dsimp only
    rw [hlevel]
    exact ⟨_, rfl, rfl, rfl⟩
  | blocked blocker =>
    rw [alert_of_needsInput hlevel, Option.some.injEq, Alert.blocked.injEq] at halert
    unfold attentionRequest
    dsimp only
    rw [hlevel]
    refine ⟨_, rfl, rfl, ?_⟩
    rw [← halert]
    dsimp only
    cases session.needsInput with
    | none => rfl
    | some detail => exact congrArg (session.id ++ "-" ++ ·) (blockerIdentity_eq detail)

/-- An update that asks for nothing else than the one before it is not announced. -/
theorem attentionTransition_quiet
    (h : previous.map (·.attention) = some session.attention ∨ session.alert = none) :
    attentionTransition around (previous.map (·.attention)) session = none := by
  rcases h with hsame | hquiet
  · rw [hsame]
    exact attentionTransition_same
  · have hnote := not_noteworthy hquiet
    unfold attentionTransition
    dsimp only
    rw [if_neg]
    rintro (⟨_, hlevel⟩ | ⟨_, hlevel⟩)
    · exact hnote (Or.inl hlevel)
    · exact hnote (Or.inr hlevel)

/-- An update that asks for something else is announced, unless the session is looked at. -/
theorem attentionTransition_entry (halert : session.alert = some alert)
    (hentry : previous.map (·.attention) ≠ some session.attention) :
    ∃ transition, attentionTransition around (previous.map (·.attention)) session =
        some transition ∧
      transition.notification =
        if around.focuses session.id = true then none else attentionRequest around session := by
  have hlevels : (previous.map (·.attention) ≠ some .needsInput ∧ session.attention = .needsInput) ∨
      previous.map (·.attention) ≠ some .doneUnseen ∧ session.attention = .doneUnseen := by
    rcases noteworthy_of_alert halert with hlevel | hlevel
    · exact Or.inl ⟨hlevel ▸ hentry, hlevel⟩
    · exact Or.inr ⟨hlevel ▸ hentry, hlevel⟩
  unfold attentionTransition
  dsimp only
  rw [if_pos hlevels]
  exact ⟨_, rfl, rfl⟩

theorem alertsOf_eq : alertsOf around previous session =
    ((attentionTransition around (previous.map (·.attention)) session).bind
      (·.notification)).toList := by
  have hplain : (((nonPersistentTransition around previous session).toList.filterMap
      (·.notification)).filter fun request => request.threadIdentifier == some session.id &&
        request.identifier != session.id ++ "-memory-pressure") = [] := by
    unfold nonPersistentTransition
    split
    · rfl
    · rfl
  have hfrozen : (((frozenTransition around previous session).toList.filterMap
      (·.notification)).filter fun request => request.threadIdentifier == some session.id &&
        request.identifier != session.id ++ "-memory-pressure") = [] := by
    unfold frozenTransition
    split
    · simp [memoryPressureRequest]
    · rfl
  unfold alertsOf transitionsForUpdate
  rw [List.filterMap_append, List.filterMap_append, List.filter_append, List.filter_append, hplain,
    hfrozen, List.nil_append, List.nil_append]
  by_cases hquiet : previous.map (·.attention) = some session.attention ∨ session.alert = none
  · rw [attentionTransition_quiet hquiet]
    rfl
  · rw [not_or] at hquiet
    obtain ⟨alert, halert⟩ := Option.ne_none_iff_exists'.mp hquiet.2
    obtain ⟨transition, htransition, hnotification⟩ :=
      @attentionTransition_entry around previous session alert halert hquiet.1
    obtain ⟨request, hrequest, hthread, hid⟩ := @attentionRequest_spec around session alert halert
    have hother : request.identifier ≠ session.id ++ "-memory-pressure" := by
      rw [hid, show "-memory-pressure" = "-" ++ "memory-pressure" from rfl, ← String.append_assoc]
      exact fun hsame => suffix_ne_memory alert ((String.append_right_inj _).mp hsame)
    rw [htransition, Option.toList_some, Option.bind_some]
    by_cases hfocus : around.focuses session.id = true
    · rw [if_pos hfocus] at hnotification
      simp [hnotification]
    · rw [if_neg hfocus, hrequest] at hnotification
      simp [hnotification, hthread, hother]

theorem alertsOf_quiet
    (h : previous.map (·.attention) = some session.attention ∨ session.alert = none) :
    alertsOf around previous session = [] := by
  rw [alertsOf_eq, attentionTransition_quiet h]
  rfl

theorem alertsOf_entry (halert : session.alert = some alert)
    (hentry : previous.map (·.attention) ≠ some session.attention)
    (hfocus : ¬around.focuses session.id = true) :
    ∃ request, alertsOf around previous session = [request] ∧
      request.identifier = session.id ++ "-" ++ alert.suffix := by
  obtain ⟨transition, htransition, hnotification⟩ :=
    @attentionTransition_entry around previous session alert halert hentry
  obtain ⟨request, hrequest, _, hid⟩ := @attentionRequest_spec around session alert halert
  refine ⟨request, ?_, hid⟩
  rw [alertsOf_eq, htransition, Option.bind_some, hnotification, if_neg hfocus, hrequest]
  rfl

end Update

/-! ### Runs -/

/-- A record as it comes in, with what the policy reads besides it. -/
abbrev Update := Around × SessionRecord

/-- The alerts of updates that are applied in order, after `previous`. -/
def received (previous : Option SessionRecord) : List Update → List NotificationRequest
  | [] => []
  | (around, session) :: rest => alertsOf around previous session ++ received (some session) rest

/-- The alerts of `run` when it comes after `before`. -/
def during (before run : List Update) : List NotificationRequest :=
  received (before.getLast?.map (·.2)) run

/-- `run` is a maximal run of updates that ask for one thing. -/
structure IsRun (updates before run after : List Update) (alert : Alert) : Prop where
  split : updates = before ++ (run ++ after)
  nonempty : run ≠ []
  same : ∀ update ∈ run, update.2.alert = some alert
  starts : ∀ update ∈ before.getLast?, update.2.alert ≠ some alert
  ends : ∀ update ∈ after.head?, update.2.alert ≠ some alert

/-- Every run is announced once, and two runs of blockers that follow each other are announced
under two identifiers if they are of two blockers. -/
structure OnePerBlocker (updates : List Update) : Prop where
  once : ∀ before run after alert, IsRun updates before run after alert →
    (during before run).length = 1
  distinct : ∀ before run between run' after blocker blocker',
    IsRun updates before run (between ++ (run' ++ after)) (.blocked blocker) →
    IsRun updates (before ++ (run ++ between)) run' after (.blocked blocker') →
    (∀ update ∈ between, update.2.attention ≠ .needsInput) → blocker ≠ blocker' →
    ∀ request ∈ during before run, ∀ request' ∈ during (before ++ (run ++ between)) run',
      request.identifier ≠ request'.identifier

/-- Two blockers that follow each other, with no blocked record between them, are one; or there is
a record between them, and they are hashed from two texts. -/
def Parted (updates : List Update) : Prop :=
  ∀ before update between update' after,
    updates = before ++ (update :: (between ++ (update' :: after))) →
    ∀ blocker blocker', update.2.alert = some (.blocked blocker) →
      update'.2.alert = some (.blocked blocker') →
      (∀ other ∈ between, other.2.attention ≠ .needsInput) → blocker ≠ blocker' →
      between ≠ [] ∧ blocker.map Blocker.text ≠ blocker'.map Blocker.text

section Runs

variable {updates before run after : List Update} {alert : Alert} {id : SessionId}
variable {previous : Option SessionRecord}

theorem identifier_of_received (hsame : ∀ update ∈ run, update.2.alert = some alert)
    (hid : ∀ update ∈ run, update.2.id = id)
    (hfocus : ∀ update ∈ run, ¬update.1.focuses id = true) :
    ∀ request ∈ received previous run, request.identifier = id ++ "-" ++ alert.suffix := by
  induction run generalizing previous with
  | nil => intro request hin; cases hin
  | cons update run ih =>
    obtain ⟨around, session⟩ := update
    have hfirst : session.id = id := hid _ List.mem_cons_self
    intro request hin
    rcases List.mem_append.mp hin with hin | hin
    · by_cases hquiet : previous.map (·.attention) = some session.attention
      · rw [alertsOf_quiet (Or.inl hquiet)] at hin
        cases hin
      · have hunfocused : ¬around.focuses session.id = true :=
          hfirst ▸ hfocus _ List.mem_cons_self
        obtain ⟨other, hother, hidentifier⟩ :=
          alertsOf_entry (hsame _ List.mem_cons_self) hquiet hunfocused
        rw [hother] at hin
        rw [List.mem_singleton.mp hin, hidentifier, hfirst]
    · exact ih (fun other hother => hsame other (List.mem_cons_of_mem _ hother))
        (fun other hother => hid other (List.mem_cons_of_mem _ hother))
        (fun other hother => hfocus other (List.mem_cons_of_mem _ hother)) request hin

theorem received_quiet (hsame : ∀ update ∈ run, update.2.alert = some alert)
    (hprevious : previous.map (·.attention) = some alert.level) : received previous run = [] := by
  induction run generalizing previous with
  | nil => rfl
  | cons update run ih =>
    have hlevel := attention_of_alert (hsame update List.mem_cons_self)
    have hrest := @ih (some update.2)
      (fun other hother => hsame other (List.mem_cons_of_mem _ hother)) (congrArg some hlevel)
    unfold received
    rw [alertsOf_quiet (Or.inl (hprevious.trans (congrArg some hlevel.symm))), hrest]
    rfl

theorem received_once (hne : run ≠ []) (hsame : ∀ update ∈ run, update.2.alert = some alert)
    (hid : ∀ update ∈ run, update.2.id = id)
    (hfocus : ∀ update ∈ run, ¬update.1.focuses id = true)
    (hprevious : previous.map (·.attention) ≠ some alert.level) :
    (received previous run).length = 1 := by
  cases run with
  | nil => exact absurd rfl hne
  | cons update run =>
    obtain ⟨around, session⟩ := update
    have hfirst : session.id = id := hid _ List.mem_cons_self
    have halert : session.alert = some alert := hsame _ List.mem_cons_self
    have hlevel := attention_of_alert halert
    have hunfocused : ¬around.focuses session.id = true :=
      hfirst ▸ hfocus _ List.mem_cons_self
    obtain ⟨request, hrequest, _⟩ :=
      alertsOf_entry halert (hlevel.symm ▸ hprevious) hunfocused
    have hrest := @received_quiet run alert (some session)
      (fun other hother => hsame other (List.mem_cons_of_mem _ hother)) (congrArg some hlevel)
    unfold received
    rw [hrequest, hrest]
    rfl

def asks (alert : Alert) (update : Update) : Bool := decide (update.2.alert = some alert)

theorem asks_iff {update : Update} : asks alert update = true ↔ update.2.alert = some alert :=
  decide_eq_true_iff

theorem exists_run {update : Update} (hsplit : updates = before ++ (update :: after))
    (halert : update.2.alert = some alert) :
    ∃ first start rest last, before = first ++ start ∧ after = rest ++ last ∧
      (∀ other ∈ start, other.2.alert = some alert) ∧
      (∀ other ∈ rest, other.2.alert = some alert) ∧
      IsRun updates first (start ++ (update :: rest)) last alert := by
  have hstart : ∀ other ∈ before.rtakeWhile (asks alert), other.2.alert = some alert :=
    fun other hother => asks_iff.mp (List.mem_rtakeWhile_imp hother)
  have hrest : ∀ other ∈ after.takeWhile (asks alert), other.2.alert = some alert :=
    fun other hother => asks_iff.mp (List.mem_takeWhile_imp hother)
  refine ⟨before.rdropWhile (asks alert), before.rtakeWhile (asks alert),
    after.takeWhile (asks alert), after.dropWhile (asks alert), (List.rdropWhile_append_rtakeWhile ..).symm,
    List.takeWhile_append_dropWhile.symm, hstart, hrest, ?_, ?_, ?_, ?_, ?_⟩
  · have hbefore := @List.rdropWhile_append_rtakeWhile _ (asks alert) before
    have hafter := @List.takeWhile_append_dropWhile _ (asks alert) after
    calc updates = before ++ (update :: after) := hsplit
      _ = (before.rdropWhile (asks alert) ++ before.rtakeWhile (asks alert)) ++
            (update :: (after.takeWhile (asks alert) ++ after.dropWhile (asks alert))) := by
          rw [hbefore, hafter]
      _ = _ := by simp only [List.append_assoc, List.cons_append]
  · simp
  · intro other hother
    rcases List.mem_append.mp hother with hother | hother
    · exact hstart other hother
    · rcases List.mem_cons.mp hother with rfl | hother
      · exact halert
      · exact hrest other hother
  · intro other hother
    obtain ⟨hne, hlast⟩ := List.mem_getLast?_eq_getLast hother
    have hnot := List.rdropWhile_last_not (asks alert) before hne
    rw [← hlast] at hnot
    exact fun hasks => hnot (asks_iff.mpr hasks)
  · intro other hother
    obtain ⟨rest, hdrop⟩ := List.head?_eq_some_iff.mp hother
    have hne : after.dropWhile (asks alert) ≠ [] := by
      rw [hdrop]
      exact List.cons_ne_nil _ _
    have hnot := List.head_dropWhile_not (asks alert) hne
    simp only [hdrop, List.head_cons] at hnot
    exact fun hasks => Bool.eq_false_iff.mp hnot (asks_iff.mpr hasks)

end Runs

/-! ### The law -/

/-- The records are of one session, the window does not look at it, and FNV tells the texts of its
blockers apart. -/
structure Unwatched (id : SessionId) (updates : List Update) : Prop where
  one : ∀ update ∈ updates, update.2.id = id
  unfocused : ∀ update ∈ updates, ¬update.1.focuses id = true
  hashed : ∀ update ∈ updates, ∀ update' ∈ updates, ∀ blocker blocker',
    update.2.alert = some (.blocked (some blocker)) →
    update'.2.alert = some (.blocked (some blocker')) →
    fnv blocker.text = fnv blocker'.text → blocker.text = blocker'.text

section Law

variable {id : SessionId} {updates : List Update}

theorem exists_run_from {before after : List Update} {update : Update} {alert : Alert}
    (hsplit : updates = before ++ (update :: after)) (halert : update.2.alert = some alert)
    (hstarts : ∀ other ∈ before.getLast?, other.2.alert ≠ some alert) :
    ∃ rest last, after = rest ++ last ∧ IsRun updates before (update :: rest) last alert := by
  obtain ⟨first, start, rest, last, hbefore, hafter, hstart, _, hrun⟩ := exists_run hsplit halert
  have hnil : start = [] := by
    by_contra hne
    obtain ⟨front, other, hlast⟩ := List.eq_nil_or_concat start |>.resolve_left hne
    refine hstarts other ?_ (hstart other ?_)
    · rw [hbefore, hlast, List.concat_eq_append, ← List.append_assoc]
      simp
    · rw [hlast]
      simp
  rw [hnil, List.append_nil] at hbefore
  rw [hnil, List.nil_append] at hrun
  exact ⟨rest, last, hafter, hbefore ▸ hrun⟩

theorem exists_run_to {before after : List Update} {update : Update} {alert : Alert}
    (hsplit : updates = before ++ (update :: after)) (halert : update.2.alert = some alert)
    (hends : ∀ other ∈ after.head?, other.2.alert ≠ some alert) :
    ∃ first start, before = first ++ start ∧
      IsRun updates first (start ++ [update]) after alert := by
  obtain ⟨first, start, rest, last, hbefore, hafter, _, hrest, hrun⟩ := exists_run hsplit halert
  cases rest with
  | nil => exact ⟨first, start, hbefore, hafter ▸ hrun⟩
  | cons other rest =>
    refine absurd (hrest other List.mem_cons_self) (hends other ?_)
    rw [hafter]
    rfl

theorem Unwatched.run (hunwatched : Unwatched id updates) {before run after : List Update}
    {alert : Alert} (hrun : IsRun updates before run after alert) :
    (∀ update ∈ run, update.2.id = id) ∧ ∀ update ∈ run, ¬update.1.focuses id = true := by
  have hin : ∀ update ∈ run, update ∈ updates := by
    intro update hupdate
    rw [hrun.split]
    exact List.mem_append_right _ (List.mem_append_left _ hupdate)
  exact ⟨fun update hupdate => hunwatched.one update (hin update hupdate),
    fun update hupdate => hunwatched.unfocused update (hin update hupdate)⟩

theorem OnePerBlocker.parted (hunwatched : Unwatched id updates) (h : OnePerBlocker updates) :
    Parted updates := by
  intro before update between update' after hsplit blocker blocker' halert halert' hbetween hne
  have hblocked : ∀ other ∈ between, ∀ b, other.2.alert ≠ some (.blocked b) :=
    fun other hother b hb => hbetween other hother (attention_of_alert hb)
  -- the run that ends at the first record, and the run that starts at the second one
  obtain ⟨first, start, hbefore, hrun⟩ := exists_run_to hsplit halert (by
    intro other hother
    cases between with
    | nil =>
      rw [← Option.some.inj hother, halert']
      exact fun hsame => hne (Alert.blocked.inj (Option.some.inj hsame)).symm
    | cons next between =>
      rw [← Option.some.inj hother]
      exact hblocked next List.mem_cons_self blocker)
  have hsplit' : updates = (before ++ (update :: between)) ++ (update' :: after) := by
    rw [hsplit, List.append_assoc, List.cons_append]
  obtain ⟨rest, last, hafter, hrun'⟩ := exists_run_from hsplit' halert' (by
    intro other hother
    have hin : other ∈ update :: between := by
      rw [List.getLast?_append_of_ne_nil _ (List.cons_ne_nil _ _)] at hother
      exact List.mem_of_getLast? hother
    rcases List.mem_cons.mp hin with rfl | hin
    · rw [halert]
      exact fun hsame => hne (Alert.blocked.inj (Option.some.inj hsame))
    · exact hblocked other hin blocker')
  have hfollows : before ++ (update :: between) = first ++ ((start ++ [update]) ++ between) := by
    rw [hbefore]
    simp only [List.append_assoc, List.singleton_append]
  have honce := h.once _ _ _ _ hrun
  have honce' := h.once _ _ _ _ hrun'
  constructor
  · intro hnone
    have hquiet : during (before ++ (update :: between)) (update' :: rest) = [] := by
      unfold during
      have hlevel : update.2.attention = .needsInput := attention_of_alert halert
      refine received_quiet hrun'.same ?_
      rw [hnone, List.getLast?_concat]
      exact congrArg some hlevel
    rw [hquiet] at honce'
    cases honce'
  · intro htext
    obtain ⟨request, hrequest⟩ := List.length_eq_one_iff.mp honce
    obtain ⟨request', hrequest'⟩ := List.length_eq_one_iff.mp honce'
    obtain ⟨hone, hunfocused⟩ := hunwatched.run hrun
    obtain ⟨hone', hunfocused'⟩ := hunwatched.run hrun'
    have hid := identifier_of_received hrun.same hone hunfocused request
      (hrequest ▸ List.mem_singleton_self _)
    have hid' := identifier_of_received hrun'.same hone' hunfocused' request'
      (hrequest' ▸ List.mem_singleton_self _)
    rw [hafter, ← List.cons_append] at hrun
    rw [hfollows] at hrun' hrequest'
    refine h.distinct _ _ _ _ _ _ _ hrun hrun' hbetween hne request ?_ request' ?_ ?_
    · exact hrequest ▸ List.mem_singleton_self _
    · exact hrequest' ▸ List.mem_singleton_self _
    · rw [hid, hid', suffix_congr htext]

theorem Parted.onePerBlocker (hunwatched : Unwatched id updates) (h : Parted updates) :
    OnePerBlocker updates where
  once before run after alert hrun := by
    obtain ⟨hone, hunfocused⟩ := hunwatched.run hrun
    refine received_once hrun.nonempty hrun.same hone hunfocused ?_
    cases hlast : before.getLast? with
    | none => exact nofun
    | some last =>
      have hstarts := hrun.starts last hlast
      intro hlevel
      have hlevel' : last.2.attention = alert.level := Option.some.inj hlevel
      cases alert with
      | done => exact hstarts (alert_of_doneUnseen hlevel')
      | blocked blocker =>
        -- the record before is blocked by something else, with nothing between
        obtain ⟨front, rfl⟩ := List.getLast?_eq_some_iff.mp hlast
        obtain ⟨update, rest, rfl⟩ := List.exists_cons_of_ne_nil hrun.nonempty
        have halert := alert_of_needsInput hlevel'
        rw [halert] at hstarts
        have hsplit : updates = front ++ (last :: ([] ++ (update :: (rest ++ after)))) := by
          rw [hrun.split]
          simp
        exact (h front last [] update (rest ++ after) hsplit _ _ halert
          (hrun.same update List.mem_cons_self) (fun other hother => absurd hother List.not_mem_nil)
          fun hsame => hstarts (congrArg (fun b => some (Alert.blocked b)) hsame)).1 rfl
  distinct before run between run' after blocker blocker' hrun hrun' hbetween hne := by
    obtain ⟨hone, hunfocused⟩ := hunwatched.run hrun
    obtain ⟨hone', hunfocused'⟩ := hunwatched.run hrun'
    intro request hrequest request' hrequest'
    rw [identifier_of_received hrun.same hone hunfocused request hrequest,
      identifier_of_received hrun'.same hone' hunfocused' request' hrequest', Ne,
      String.append_right_inj]
    obtain ⟨front, update, rfl⟩ := (List.eq_nil_or_concat run).resolve_left hrun.nonempty
    obtain ⟨update', rest, rfl⟩ := List.exists_cons_of_ne_nil hrun'.nonempty
    have hsplit : updates =
        (before ++ front) ++ (update :: (between ++ (update' :: (rest ++ after)))) := by
      rw [hrun.split]
      simp
    have halert : update.2.alert = some (.blocked blocker) := hrun.same update (by simp)
    have halert' : update'.2.alert = some (.blocked blocker') :=
      hrun'.same update' List.mem_cons_self
    obtain ⟨_, htext⟩ := h _ _ _ _ _ hsplit _ _ halert halert' hbetween hne
    refine blocked_suffix_ne htext fun b b' hb hb' => ?_
    subst hb hb'
    exact hunwatched.hashed update (by simp [hsplit]) update' (by simp [hsplit]) b b' halert halert'

end Law

/-- **One notification for each blocker** iff no blocker takes the place of another one.  For every
sequence of records of a session that is not looked at, FNV collisions aside: every run is announced
once, and runs of two blockers under two identifiers, iff blocked records that follow each other are
of one blocker, or stand apart and are hashed from two texts. -/
theorem one_per_blocker_iff {id : SessionId} {updates : List Update}
    (hunwatched : Unwatched id updates) : OnePerBlocker updates ↔ Parted updates :=
  ⟨fun h => h.parted hunwatched, fun h => h.onePerBlocker hunwatched⟩

/-! ### Two questions -/

/-- The session waits for an answer to `summary`. -/
def waitingFor (summary : String) : Update :=
  (plainAround, { plainRecord (.needsInput .permission) with
    needsInput := some
      { kind := .permission
        source := .claudePermissionHook
        toolName := some "Bash"
        summary := summary
        promptExcerpt := none
        options := none
        riskHint := .neutral
        occurredAt := 0 } })

/-- It is at work. -/
def atWork : Update := (plainAround, plainRecord .working)

def askedFor (summary : String) : Blocker := ⟨.permission, some "Bash", summary⟩

theorem unwatched_questions {updates : List Update}
    (h : ∀ update ∈ updates, update = waitingFor "ls" ∨ update = waitingFor "rm" ∨
      update = atWork) : Unwatched "a" updates where
  one update hin := by
    rcases h update hin with rfl | rfl | rfl <;> rfl
  unfocused update hin := by
    rcases h update hin with rfl | rfl | rfl <;> decide
  hashed update hin update' hin' blocker blocker' halert halert' hsame := by
    have hasked : ∀ update ∈ updates, ∀ b, update.2.alert = some (.blocked (some b)) →
        b = askedFor "ls" ∨ b = askedFor "rm" := by
      intro update hin b hb
      rcases h update hin with rfl | rfl | rfl
      · exact Or.inl (Option.some.inj (Alert.blocked.inj (Option.some.inj hb))).symm
      · exact Or.inr (Option.some.inj (Alert.blocked.inj (Option.some.inj hb))).symm
      · cases hb
    have hne : fnv (askedFor "ls").text ≠ fnv (askedFor "rm").text := by with_unfolding_all decide
    rcases hasked update hin blocker halert with rfl | rfl
    · rcases hasked update' hin' blocker' halert' with rfl | rfl
      · rfl
      · exact absurd hsame hne
    · rcases hasked update' hin' blocker' halert' with rfl | rfl
      · exact absurd hsame.symm hne
      · rfl

/-- One question, work, and another question: both are announced, under two identifiers. -/
theorem one_per_blocker_with_work :
    OnePerBlocker [waitingFor "ls", atWork, waitingFor "rm"] := by
  refine (one_per_blocker_iff (unwatched_questions fun update hin => ?_)).mpr ?_
  · simp only [List.mem_cons, List.not_mem_nil, or_false] at hin
    tauto
  intro before update between update' after hsplit blocker blocker' halert halert' hbetween hne
  have hwork : atWork.2.alert = none := rfl
  cases before with
  | cons first before =>
    -- the first of two blocked records is not the second of three
    cases before with
    | nil =>
      rw [List.singleton_append, List.cons.injEq, List.cons.injEq] at hsplit
      rw [← hsplit.2.1, hwork] at halert
      cases halert
    | cons second before =>
      have hlen := congrArg List.length hsplit
      simp only [List.length_append, List.length_cons, List.length_nil] at hlen
      omega
  | nil =>
    rw [List.nil_append, List.cons.injEq] at hsplit
    obtain ⟨rfl, hsplit⟩ := hsplit
    cases between with
    | nil =>
      rw [List.nil_append, List.cons.injEq] at hsplit
      rw [← hsplit.1, hwork] at halert'
      cases halert'
    | cons other between =>
      cases between with
      | nil =>
        rw [List.singleton_append, List.cons.injEq, List.cons.injEq] at hsplit
        obtain ⟨rfl, rfl, _⟩ := hsplit
        obtain rfl : some (askedFor "ls") = blocker := Alert.blocked.inj (Option.some.inj halert)
        obtain rfl : some (askedFor "rm") = blocker' :=
          Alert.blocked.inj (Option.some.inj halert')
        exact ⟨List.cons_ne_nil _ _, by decide⟩
      | cons next between =>
        have hlen := congrArg List.length hsplit
        simp only [List.length_append, List.length_cons, List.length_nil] at hlen
        omega

/-- A second question takes the place of the first one. -/
theorem second_question_is_missed :
    Unwatched "a" [waitingFor "ls", waitingFor "rm"] ∧
      ¬OnePerBlocker [waitingFor "ls", waitingFor "rm"] := by
  have hunwatched : Unwatched "a" [waitingFor "ls", waitingFor "rm"] := by
    refine unwatched_questions fun update hin => ?_
    simp only [List.mem_cons, List.not_mem_nil, or_false] at hin
    tauto
  refine ⟨hunwatched, fun honce => ?_⟩
  have hparted := honce.parted hunwatched [] (waitingFor "ls") [] (waitingFor "rm") [] rfl
    (some (askedFor "ls")) (some (askedFor "rm")) rfl rfl (fun other hother => absurd hother List.not_mem_nil)
    (by decide)
  exact hparted.1 rfl

end Homie.App.Notifications
