/-
Readers over a byte slice with an offset.

A hand-written decoder keeps a cursor into its payload and asks for the next few
bytes, failing when the payload ends first.  Two facts about such a reader are
enough for everything a wire format needs.

  * `Reads p bytes v`: wherever `bytes` stands in a payload, `p` started there
    returns `v` and stops right behind it.  That is a round trip, in a form that
    composes field by field.
  * `Local p`: a successful `p` never looks past where it stops, so it succeeds in
    the same way on every longer payload.

Together they refuse every truncation: `Reads.prefix_rejected`.
-/
import Homie.Lib.Bytes

namespace Homie

/-- A position in a payload. -/
structure Cursor where
  payload : List UInt8
  offset : Nat

/-- A decoder that advances a cursor or fails. -/
abbrev Reader (ε α : Type) := StateT Cursor (Except ε) α

namespace Reader

variable {ε α β : Type}

/-- The next `n` bytes, or the error `short offset n remaining` when they are not there. -/
def take (short : Nat → Nat → Nat → ε) (n : Nat) : Reader ε (List UInt8) := fun c =>
  let remaining := c.payload.length - c.offset
  if remaining < n then .error (short c.offset n remaining)
  else .ok ((c.payload.drop c.offset).take n, { c with offset := c.offset + n })

/-- Runs `p` `n` times and collects what it returns. -/
def times (p : Reader ε α) : Nat → Reader ε (List α)
  | 0 => pure []
  | n + 1 => do
    let first ← p
    let others ← times p n
    pure (first :: others)

theorem pure_apply (v : α) (c : Cursor) : (pure v : Reader ε α) c = .ok (v, c) := rfl

theorem throw_apply (e : ε) (c : Cursor) : (throw e : Reader ε α) c = .error e := rfl

theorem bind_apply (p : Reader ε α) (f : α → Reader ε β) (c : Cursor) :
    (p >>= f) c = match p c with
      | .ok (v, c') => f v c'
      | .error e => .error e := by
  show (StateT.bind p f) c = _
  unfold StateT.bind
  cases p c <;> rfl

/-- What a successful sequence did: its first half succeeded and its second half went on. -/
theorem bind_ok {p : Reader ε α} {f : α → Reader ε β} {c : Cursor} {r : β × Cursor}
    (h : (p >>= f) c = .ok r) : ∃ v c', p c = .ok (v, c') ∧ f v c' = .ok r := by
  rw [bind_apply] at h
  cases hp : p c with
  | ok pr => exact ⟨pr.1, pr.2, rfl, by rw [hp] at h; exact h⟩
  | error e => rw [hp] at h; cases h

/-! ### A reader returns a value at exactly its own bytes -/

/-- Wherever `bytes` stands, `p` returns `v` there and stops right behind it. -/
def Reads (p : Reader ε α) (bytes : List UInt8) (v : α) : Prop :=
  ∀ pre post, p ⟨pre ++ bytes ++ post, pre.length⟩
    = .ok (v, ⟨pre ++ bytes ++ post, pre.length + bytes.length⟩)

theorem Reads.pure (v : α) : Reads (pure v : Reader ε α) [] v := by
  intro pre post
  simp [pure_apply]

theorem Reads.bind {p : Reader ε α} {f : α → Reader ε β} {b₁ b₂ : List UInt8} {a : α} {v : β}
    (hp : Reads p b₁ a) (hf : Reads (f a) b₂ v) : Reads (p >>= f) (b₁ ++ b₂) v := by
  intro pre post
  have h₁ := hp pre (b₂ ++ post)
  have h₂ := hf (pre ++ b₁) post
  simp only [List.append_assoc, List.length_append] at h₁ h₂ ⊢
  rw [bind_apply, h₁]
  simpa only [Nat.add_assoc] using h₂

theorem Reads.take (short : Nat → Nat → Nat → ε) {bytes : List UInt8} {n : Nat}
    (hn : bytes.length = n) : Reads (take short n) bytes bytes := by
  intro pre post
  subst hn
  have hlen : ¬ ((pre ++ bytes ++ post).length - pre.length < bytes.length) := by
    simp only [List.length_append]; omega
  simp only [Reader.take, if_neg hlen]
  simp

/-- Reading a field and interpreting it. -/
theorem Reads.map {p : Reader ε α} {bytes : List UInt8} {a : α} (hp : Reads p bytes a)
    (g : α → β) : Reads (g <$> p) bytes (g a) := by
  have h := hp.bind (f := fun x => Pure.pure (g x)) (Reads.pure (g a))
  rw [List.append_nil] at h
  exact h

theorem Reads.times {p : Reader ε α} {encode : α → List UInt8} :
    ∀ {xs : List α}, (∀ x ∈ xs, Reads p (encode x) x) →
      Reads (times p xs.length) (xs.flatMap encode) xs := by
  intro xs
  induction xs with
  | nil => intro _; exact Reads.pure []
  | cons x xs ih =>
    intro hall
    have hxs := ih (fun y hy => hall y (by simp [hy]))
    have htail := hxs.bind (f := fun ys => Pure.pure (x :: ys)) (Reads.pure (x :: xs))
    rw [List.append_nil] at htail
    exact (hall x (by simp)).bind htail

/-- A round trip on a payload that holds nothing else. -/
theorem Reads.run {p : Reader ε α} {bytes : List UInt8} {v : α} (h : Reads p bytes v) :
    p ⟨bytes, 0⟩ = .ok (v, ⟨bytes, bytes.length⟩) := by
  simpa using h [] []

/-! ### A reader depends only on what it consumes -/

/-- A success of `p` moves forward inside the payload, and repeats on every longer one. -/
def Local (p : Reader ε α) : Prop :=
  ∀ (payload : List UInt8) (offset : Nat) (v : α) (c : Cursor),
    p ⟨payload, offset⟩ = .ok (v, c) → offset ≤ payload.length →
      c.payload = payload ∧ offset ≤ c.offset ∧ c.offset ≤ payload.length ∧
      ∀ more, p ⟨payload ++ more, offset⟩ = .ok (v, ⟨payload ++ more, c.offset⟩)

theorem Local.pure (v : α) : Local (pure v : Reader ε α) := by
  intro payload offset w c h hle
  rw [pure_apply] at h
  cases h
  exact ⟨rfl, Nat.le_refl _, hle, fun _ => rfl⟩

theorem Local.throw (e : ε) : Local (throw e : Reader ε α) := by
  intro payload offset v c h
  rw [throw_apply] at h
  cases h

theorem Local.ite {P : Prop} [Decidable P] {p q : Reader ε α} (hp : Local p) (hq : Local q) :
    Local (if P then p else q) := by
  split
  · exact hp
  · exact hq

theorem Local.bind {p : Reader ε α} {f : α → Reader ε β} (hp : Local p)
    (hf : ∀ a, Local (f a)) : Local (p >>= f) := by
  intro payload offset v c h hle
  obtain ⟨a, ⟨payload', mid⟩, hpa, hfa⟩ := bind_ok h
  obtain ⟨rfl, hmid, hmidle, hmore⟩ := hp _ _ _ _ hpa hle
  obtain ⟨hpay, hoff, hoffle, hmore'⟩ := hf a _ _ _ _ hfa hmidle
  refine ⟨hpay, Nat.le_trans hmid hoff, hoffle, fun more => ?_⟩
  rw [bind_apply, hmore more]
  exact hmore' more

theorem Local.take (short : Nat → Nat → Nat → ε) (n : Nat) : Local (take short n) := by
  intro payload offset v c h hle
  simp only [Reader.take] at h
  split at h
  · cases h
  · rename_i hlen
    cases h
    refine ⟨rfl, by simp, by show offset + n ≤ payload.length; omega, fun more => ?_⟩
    have hlen' : ¬ ((payload ++ more).length - offset < n) := by
      rw [List.length_append]; omega
    simp only [Reader.take, if_neg hlen']
    rw [List.drop_append_of_le_length hle, List.take_append_of_le_length]
    rw [List.length_drop]; omega

theorem Local.map {p : Reader ε α} (hp : Local p) (g : α → β) : Local (g <$> p) :=
  hp.bind fun a => Local.pure (g a)

theorem Local.times {p : Reader ε α} (hp : Local p) : ∀ n, Local (times p n) := by
  intro n
  induction n with
  | zero => exact Local.pure []
  | succ n ih => exact hp.bind fun first => ih.bind fun others => Local.pure (first :: others)

/-! ### What a reader can return -/

/-- Every value `p` returns satisfies `P`. -/
def Returns (p : Reader ε α) (P : α → Prop) : Prop :=
  ∀ (c : Cursor) (v : α) (c' : Cursor), p c = .ok (v, c') → P v

theorem Returns.bind {p : Reader ε α} {f : α → Reader ε β} {P : β → Prop}
    (hf : ∀ a, Returns (f a) P) : Returns (p >>= f) P := by
  intro c v c' h
  obtain ⟨a, mid, -, hfa⟩ := bind_ok h
  exact hf a _ _ _ hfa

theorem Returns.times {p : Reader ε α} {P : α → Prop} (hp : Returns p P) :
    ∀ n, Returns (times p n) fun xs => ∀ x ∈ xs, P x := by
  intro n
  induction n with
  | zero =>
    intro c v c' h
    rw [Reader.times, pure_apply] at h
    cases h
    simp
  | succ n ih =>
    intro c v c' h
    obtain ⟨first, c₁, hfirst, hrest⟩ := bind_ok h
    obtain ⟨others, c₂, hothers, hdone⟩ := bind_ok hrest
    rw [pure_apply] at hdone
    cases hdone
    intro x hx
    rcases List.mem_cons.mp hx with rfl | hx'
    · exact hp _ _ _ hfirst
    · exact ih _ _ _ hothers x hx'

/-! ### Truncation -/

/--
**Truncation is refused.**  A reader that returns `v` at exactly `bytes` fails on
every strict prefix of them: had it succeeded there, it would have stopped at the
same place on the whole, which is short of the end.
-/
theorem Reads.prefix_rejected {p : Reader ε α} {bytes short : List UInt8} {v : α}
    (hr : Reads p bytes v) (hl : Local p) (hpre : short <+: bytes) (hne : short ≠ bytes) :
    ∃ e, p ⟨short, 0⟩ = .error e := by
  cases hp : p ⟨short, 0⟩ with
  | error e => exact ⟨e, rfl⟩
  | ok r =>
    obtain ⟨w, c⟩ := r
    obtain ⟨rest, rfl⟩ := hpre
    obtain ⟨-, -, hle, hmore⟩ := hl _ _ _ _ hp (Nat.zero_le _)
    have hfull := hr.run
    rw [hmore rest] at hfull
    simp only [Except.ok.injEq, Prod.mk.injEq, Cursor.mk.injEq, List.length_append] at hfull
    have hrest : rest = [] := List.length_eq_zero_iff.mp (by omega)
    exact absurd (by rw [hrest, List.append_nil]) hne

end Reader

end Homie
