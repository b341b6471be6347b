/-
Forests given by a parent function, and the walk over one with an explicit stack.

A parent function is arbitrary; a node has a level in it when the way up from it ends at a
root.  Cutting an edge leaves every node with a level one, and a level stays below the number
of nodes.

The walk takes an entry from the top of the stack, emits it, and puts the entries of its
children in its place.  `Visits` says what it emits, subtree by subtree, so that a fact about
the walk is an induction over the subtrees and not over the stack.
-/
import Mathlib

namespace Homie.Forest

/-! ### Levels -/

section Levels

variable {α : Type*} {parent : α → Option α} {x : α} {k j : Nat}

/-- The way up from `x` takes `k` steps and ends at a root. -/
inductive Level (parent : α → Option α) : α → Nat → Prop where
  | root {x : α} : parent x = none → Level parent x 0
  | child {x y : α} {k : Nat} : parent x = some y → Level parent y k → Level parent x (k + 1)

/-- `y` is further up than `x`. -/
def Ancestor (parent : α → Option α) : α → α → Prop :=
  Relation.TransGen fun x y => parent x = some y

theorem Level.unique (h : Level parent x k) (h' : Level parent x j) : k = j := by
  induction h generalizing j with
  | root hx =>
    cases h' with
    | root _ => rfl
    | child hy _ => rw [hx] at hy; cases hy
  | child hx _ ih =>
    cases h' with
    | root hy => rw [hx] at hy; cases hy
    | child hy hk =>
      rw [hx] at hy
      cases hy
      rw [ih hk]

/-- Every smaller level is taken on the way up. -/
theorem Level.exists_at (h : Level parent x k) : ∀ j ≤ k, ∃ y, Level parent y j := by
  induction h with
  | @root x hx =>
    intro j hj
    rw [Nat.le_zero.mp hj]
    exact ⟨x, .root hx⟩
  | @child x y k hx hy ih =>
    intro j hj
    rcases Nat.lt_or_ge k j with hlt | hge
    · have hjk : j = k + 1 := by omega
      rw [hjk]
      exact ⟨x, .child hx hy⟩
    · exact ih j hge

/-- No level is as large as the number of nodes: the way up passes no node twice. -/
theorem Level.lt_card [Fintype α] (h : Level parent x k) : k < Fintype.card α := by
  have hexists : ∀ j : Fin (k + 1), ∃ y, Level parent y j := by
    intro j
    exact h.exists_at j (Nat.lt_succ_iff.mp j.isLt)
  choose f hf using hexists
  have hinj : Function.Injective f := by
    intro i j hij
    have hi := hf i
    rw [hij] at hi
    exact Fin.ext (hi.unique (hf j))
  have hcard := Fintype.card_le_of_injective f hinj
  rw [Fintype.card_fin] at hcard
  omega

/-- Cutting the edge above a node takes the level from nobody. -/
theorem Level.cut [DecidableEq α] (s : α) (h : Level parent x k) :
    ∃ j, Level (Function.update parent s none) x j := by
  induction h with
  | @root x hx =>
    refine ⟨0, .root ?_⟩
    by_cases hxs : x = s
    · rw [hxs, Function.update_self]
    · rw [Function.update_of_ne hxs, hx]
  | @child x y k hx _ ih =>
    by_cases hxs : x = s
    · exact ⟨0, .root (by rw [hxs, Function.update_self])⟩
    · obtain ⟨j, hj⟩ := ih
      exact ⟨j + 1, .child (by rw [Function.update_of_ne hxs, hx]) hj⟩

theorem not_ancestor_of_root {y : α} (h : parent x = none) : ¬Ancestor parent x y := by
  intro hy
  obtain ⟨z, hz, _⟩ := Relation.TransGen.head'_iff.mp hy
  rw [h] at hz
  cases hz

theorem ancestor_iff {y z : α} (h : parent x = some y) :
    Ancestor parent x z ↔ z = y ∨ Ancestor parent y z := by
  constructor
  · intro hz
    obtain ⟨w, hw, hwz⟩ := Relation.TransGen.head'_iff.mp hz
    rw [h] at hw
    cases hw
    rcases Relation.reflTransGen_iff_eq_or_transGen.mp hwz with heq | hup
    · exact Or.inl heq
    · exact Or.inr hup
  · rintro (rfl | hup)
    · exact Relation.TransGen.single h
    · exact Relation.TransGen.head h hup

/-- Levels fall on the way up. -/
theorem Level.of_ancestor {y : α} (h : Level parent x k) (hy : Ancestor parent x y) :
    ∃ j < k, Level parent y j := by
  induction h with
  | root hx => exact absurd hy (not_ancestor_of_root hx)
  | @child x z k hx hz ih =>
    rcases (ancestor_iff hx).mp hy with rfl | hup
    · exact ⟨k, Nat.lt_succ_self k, hz⟩
    · obtain ⟨j, hj, hlevel⟩ := ih hup
      exact ⟨j, by omega, hlevel⟩

/-- What has a level is on no cycle. -/
theorem Level.not_ancestor_self (h : Level parent x k) : ¬Ancestor parent x x := by
  intro hself
  obtain ⟨j, hj, hlevel⟩ := h.of_ancestor hself
  have heq := h.unique hlevel
  omega

/-- Where there is no cycle, every way up ends. -/
theorem exists_level_of_acyclic [Finite α] (h : ∀ x, ¬Ancestor parent x x) (x : α) :
    ∃ k, Level parent x k := by
  have hirrefl : Std.Irrefl (Function.swap (Ancestor parent)) := ⟨h⟩
  have htrans : IsTrans α (Function.swap (Ancestor parent)) :=
    ⟨fun a b c hab hbc => Relation.TransGen.trans hbc hab⟩
  have hwf : WellFounded (Function.swap (Ancestor parent)) :=
    Finite.wellFounded_of_trans_of_irrefl _
  induction x using hwf.induction with
  | _ x ih =>
    cases hx : parent x with
    | none => exact ⟨0, .root hx⟩
    | some y =>
      obtain ⟨k, hk⟩ := ih y (Relation.TransGen.single hx)
      exact ⟨k + 1, .child hx hk⟩

/-- A change that spares what has a level spares the levels. -/
theorem Level.congr {parent' : α → Option α} (h : Level parent x k)
    (hkeep : ∀ x k, Level parent x k → parent' x = parent x) : Level parent' x k := by
  induction h with
  | root hx => exact .root ((hkeep _ _ (.root hx)).trans hx)
  | child hx hk ih => exact .child ((hkeep _ _ (.child hx hk)).trans hx) ih

end Levels

/-! ### The walk -/

section Walk

variable {σ : Type*} {expand : σ → List σ} {stack out rest : List σ}

/-- `out` is what the walk emits from `stack`. -/
inductive Visits (expand : σ → List σ) : List σ → List σ → Prop where
  | done : Visits expand [] []
  | pop {s : σ} {rest sub out : List σ} : Visits expand (expand s) sub →
      Visits expand rest out → Visits expand (s :: rest) (s :: (sub ++ out))

/-- The walk ends when something falls from every entry to its children. -/
theorem exists_visits (rank : σ → Nat) (hrank : ∀ s, ∀ t ∈ expand s, rank t < rank s)
    (stack : List σ) : ∃ out, Visits expand stack out := by
  have hbound : ∀ n (stack : List σ), (∀ s ∈ stack, rank s < n) →
      ∃ out, Visits expand stack out := by
    intro n
    induction n with
    | zero =>
      intro stack hstack
      cases stack with
      | nil => exact ⟨[], .done⟩
      | cons s rest => exact absurd (hstack s List.mem_cons_self) (Nat.not_lt_zero _)
    | succ n ih =>
      intro stack
      induction stack with
      | nil => intro _; exact ⟨[], .done⟩
      | cons s rest ihrest =>
        intro hstack
        have hs := hstack s List.mem_cons_self
        obtain ⟨sub, hsub⟩ := ih (expand s) (fun t ht => by
          have := hrank s t ht
          omega)
        obtain ⟨out, hout⟩ := ihrest fun t ht => hstack t (List.mem_cons_of_mem _ ht)
        exact ⟨_, .pop hsub hout⟩
  obtain ⟨n, hn⟩ : ∃ n, ∀ s ∈ stack, rank s < n := by
    induction stack with
    | nil => exact ⟨0, by simp⟩
    | cons s rest ih =>
      obtain ⟨n, hn⟩ := ih
      refine ⟨max n (rank s + 1), ?_⟩
      intro t ht
      rcases List.mem_cons.mp ht with rfl | ht
      · omega
      · have := hn t ht
        omega
  exact hbound n stack hn

/-- What holds of the stack and passes to children holds of all that is emitted. -/
theorem Visits.forall_mem {P : σ → Prop} (hstep : ∀ s, P s → ∀ t ∈ expand s, P t)
    (h : Visits expand stack out) (hstack : ∀ s ∈ stack, P s) : ∀ s ∈ out, P s := by
  induction h with
  | done => exact hstack
  | @pop s rest sub out _ _ ihsub ihrest =>
    have hs := hstack s List.mem_cons_self
    intro t ht
    rcases List.mem_cons.mp ht with rfl | ht
    · exact hs
    rcases List.mem_append.mp ht with ht | ht
    · exact ihsub (hstep s hs) t ht
    · exact ihrest (fun u hu => hstack u (List.mem_cons_of_mem _ hu)) t ht

/-- The stack is emitted in its own order. -/
theorem Visits.sublist (h : Visits expand stack out) : stack.Sublist out := by
  induction h with
  | done => exact List.Sublist.refl _
  | pop _ _ _ ihrest => exact (ihrest.trans (List.sublist_append_right _ _)).cons_cons _

/-- So are the children of every entry. -/
theorem Visits.expand_sublist (h : Visits expand stack out) {s : σ} (hs : s ∈ out) :
    (expand s).Sublist out := by
  induction h with
  | done => cases hs
  | @pop t rest sub out hsub _ ihsub ihrest =>
    rcases List.mem_cons.mp hs with rfl | hs
    · exact (hsub.sublist.trans (List.sublist_append_left _ _)).cons _
    rcases List.mem_append.mp hs with hs | hs
    · exact ((ihsub hs).trans (List.sublist_append_left _ _)).cons _
    · exact ((ihrest hs).trans (List.sublist_append_right _ _)).cons _

/-- What is emitted is the stack and the children of what is emitted. -/
theorem Visits.perm (h : Visits expand stack out) :
    out.Perm (stack ++ out.flatMap expand) := by
  induction h with
  | done => simp
  | @pop s rest sub out _ _ ihsub ihrest =>
    rw [List.flatMap_cons, List.flatMap_append, List.cons_append]
    refine List.Perm.cons s ?_
    calc (sub ++ out).Perm
          ((expand s ++ sub.flatMap expand) ++ (rest ++ out.flatMap expand)) :=
          ihsub.append ihrest
      _ = (expand s ++ sub.flatMap expand) ++ rest ++ out.flatMap expand := by
          rw [List.append_assoc, List.append_assoc, List.append_assoc]
      _ |>.Perm (rest ++ (expand s ++ sub.flatMap expand) ++ out.flatMap expand) :=
          List.perm_append_comm.append_right _
      _ = rest ++ (expand s ++ (sub.flatMap expand ++ out.flatMap expand)) := by
          simp only [List.append_assoc]

/-- An entry that is emitted from a stack of one level comes from the stack, or after its
parent with nothing above its own level between the two. -/
theorem Visits.parent_before (lvl : σ → Nat) (hlvl : ∀ s, ∀ t ∈ expand s, lvl t = lvl s + 1)
    (h : Visits expand stack out) {d : Nat} (hstack : ∀ s ∈ stack, lvl s = d)
    {before after : List σ} {t : σ} (heq : out = before ++ t :: after) :
    t ∈ stack ∨ ∃ first s between, before = first ++ s :: between ∧ t ∈ expand s ∧
      ∀ u ∈ between, lvl t ≤ lvl u := by
  induction h generalizing d before after with
  | done => cases before <;> cases heq
  | @pop s rest sub out hsub _ ihsub ihrest =>
    have hs := hstack s List.mem_cons_self
    have hchildren : ∀ u ∈ expand s, lvl u = d + 1 := by
      intro u hu
      rw [hlvl s u hu, hs]
    cases before with
    | nil =>
      cases heq
      exact Or.inl List.mem_cons_self
    | cons b before =>
      obtain ⟨hb, htail⟩ := List.cons.inj heq
      subst hb
      rcases List.append_eq_append_iff.mp htail with ⟨mid, hbefore, hout⟩ | ⟨mid, hsubeq, hmid⟩
      · -- the entry comes after the subtree
        rcases ihrest (fun u hu => hstack u (List.mem_cons_of_mem _ hu)) hout with hin | hin
        · exact Or.inl (List.mem_cons_of_mem _ hin)
        · obtain ⟨first, p, between, hpre, hp, hbetween⟩ := hin
          refine Or.inr ⟨s :: (sub ++ first), p, between, ?_, hp, hbetween⟩
          rw [hbefore, hpre, List.cons_append, List.append_assoc]
      · -- the subtree reaches up to the entry
        cases mid with
        | nil =>
          have hout : out = [] ++ t :: after := hmid.symm
          rcases ihrest (fun u hu => hstack u (List.mem_cons_of_mem _ hu)) hout
            with hin | ⟨first, p, between, hpre, _, _⟩
          · exact Or.inl (List.mem_cons_of_mem _ hin)
          · cases first <;> cases hpre
        | cons m mid =>
          obtain ⟨hm, _⟩ := List.cons.inj hmid
          subst hm
          rcases ihsub hchildren hsubeq with hin | ⟨first, p, between, hpre, hp, hbetween⟩
          · refine Or.inr ⟨[], s, before, rfl, hin, ?_⟩
            have hdeep : ∀ u ∈ sub, d + 1 ≤ lvl u := by
              refine hsub.forall_mem ?_ ?_
              · intro v hv u hu
                rw [hlvl v u hu]
                omega
              · intro u hu
                rw [hchildren u hu]
            intro u hu
            rw [hchildren t hin]
            exact hdeep u (by rw [hsubeq]; exact List.mem_append_left _ hu)
          · refine Or.inr ⟨s :: first, p, between, ?_, hp, hbetween⟩
            rw [hpre, List.cons_append]

end Walk

/-! ### The walk over a forest -/

/-- The lists of children and of roots are those of the parent function. -/
structure Lists {α : Type*} (parent : α → Option α) (children : α → List α) (roots : List α) :
    Prop where
  childrenNodup : ∀ a, (children a).Nodup
  memChildren : ∀ a c, c ∈ children a ↔ parent c = some a
  rootsNodup : roots.Nodup
  memRoots : ∀ c, c ∈ roots ↔ parent c = none

section Keys

variable {α σ : Type*} {parent : α → Option α} {children : α → List α} {roots : List α}
variable {expand : σ → List σ} {stack out : List σ} {key : σ → α}

/-- Every node with a level is emitted exactly once. -/
theorem Visits.count_key [DecidableEq α] (hlists : Lists parent children roots)
    (hexpand : ∀ s, (expand s).map key = children (key s)) (hstack : stack.map key = roots)
    (h : Visits expand stack out) {x : α} {k : Nat} (hx : Level parent x k) :
    (out.map key).count x = 1 := by
  have hperm : (out.map key).Perm (roots ++ (out.map key).flatMap children) := by
    have hmap := h.perm.map key
    rw [List.map_append, hstack, List.map_flatMap] at hmap
    simp only [hexpand] at hmap
    rwa [List.flatMap_map]
  have hcount : ∀ y, (out.map key).count y = roots.count y +
      ((out.map key).map fun a => (children a).count y).sum := by
    intro y
    rw [hperm.count_eq y, List.count_append, List.count_flatMap]
    rfl
  induction hx with
  | @root y hy =>
    have hroots : roots.count y = 1 :=
      List.count_eq_one_of_mem hlists.rootsNodup ((hlists.memRoots y).mpr hy)
    have hnone : ∀ a, (children a).count y = 0 := by
      intro a
      rw [List.count_eq_zero, hlists.memChildren, hy]
      exact fun hc => nomatch hc
    rw [hcount, hroots]
    simp only [hnone, List.map_const', List.sum_replicate, smul_zero, add_zero]
  | @child y p k hy _ ih =>
    have hroots : roots.count y = 0 := by
      rw [List.count_eq_zero, hlists.memRoots, hy]
      exact fun hc => nomatch hc
    have hone : ∀ a, (children a).count y = if a = p then 1 else 0 := by
      intro a
      by_cases hap : a = p
      · rw [if_pos hap, hap]
        exact List.count_eq_one_of_mem (hlists.childrenNodup p)
          ((hlists.memChildren p y).mpr hy)
      · rw [if_neg hap, List.count_eq_zero, hlists.memChildren, hy]
        exact fun hc => hap (Option.some.inj hc).symm
    have hsum : ∀ l : List α, (l.map fun a => if a = p then 1 else 0).sum = l.count p := by
      intro l
      induction l with
      | nil => rfl
      | cons a l ihl =>
        rw [List.map_cons, List.sum_cons, ihl, List.count_cons]
        by_cases hap : a = p
        · simp [hap, Nat.add_comm]
        · simp [hap]
    rw [hcount, hroots]
    simp only [hone, hsum]
    rw [ih]

/-- Siblings are emitted in the order of their list. -/
theorem Visits.siblings_in_order [DecidableEq α] {r : α → α → Prop}
    (hlists : Lists parent children roots)
    (hexpand : ∀ s, (expand s).map key = children (key s)) (hstack : stack.map key = roots)
    (hlevel : ∀ x, ∃ k, Level parent x k) (hchildren : ∀ a, (children a).Pairwise r)
    (hroots : roots.Pairwise r) (h : Visits expand stack out) :
    (out.map key).Pairwise fun x y => parent x = parent y → r x y := by
  have honce : ∀ x, (out.map key).count x = 1 := by
    intro x
    obtain ⟨k, hk⟩ := hlevel x
    exact h.count_key hlists hexpand hstack hk
  have hmem : ∀ x, x ∈ out.map key := by
    intro x
    exact List.count_pos_iff.mp (by rw [honce x]; exact Nat.one_pos)
  have hnodup : (out.map key).Nodup := List.nodup_iff_count_le_one.mpr fun x => (honce x).le
  -- a list of siblings that the walk emits in order has its pairs in that order
  have horder : ∀ {l : List α} {x y : α}, l.Sublist (out.map key) → l.Pairwise r →
      x ∈ l → y ∈ l → [x, y].Sublist (out.map key) → r x y := by
    intro l x y hl hpair hx hy hxy
    have hfilter : l = (out.map key).filter (· ∈ l) := by
      have hsub : l.Sublist ((out.map key).filter (· ∈ l)) := by
        have := hl.filter (fun a => decide (a ∈ l))
        rwa [List.filter_eq_self.mpr (by simp)] at this
      refine hsub.eq_of_length_le (List.Subperm.length_le ?_)
      refine (hnodup.filter _).subperm ?_
      intro a ha
      simpa using (List.mem_filter.mp ha).2
    have hpairsub : [x, y].Sublist l := by
      rw [hfilter]
      have := hxy.filter (fun a => decide (a ∈ l))
      rwa [List.filter_eq_self.mpr (by simp [hx, hy])] at this
    exact List.pairwise_iff_forall_sublist.mp hpair hpairsub
  rw [List.pairwise_iff_forall_sublist]
  intro x y hxy hparent
  cases hx : parent x with
  | none =>
    refine horder ?_ hroots ((hlists.memRoots x).mpr hx)
      ((hlists.memRoots y).mpr (by rw [← hparent, hx])) hxy
    rw [← hstack]
    exact h.sublist.map key
  | some a =>
    obtain ⟨s, hs, hsa⟩ := List.mem_map.mp (hmem a)
    refine horder ?_ (hchildren a) ((hlists.memChildren a x).mpr hx)
      ((hlists.memChildren a y).mpr (by rw [← hparent, hx])) hxy
    rw [← hsa, ← hexpand s]
    exact (h.expand_sublist hs).map key

end Keys

end Homie.Forest
