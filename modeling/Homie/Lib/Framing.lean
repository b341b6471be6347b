/-
Incremental decoding of a framed byte stream.

A stream decoder keeps the bytes it could not use yet.  Each read appends a chunk
to them, takes every complete message off the front, and keeps the rest.  What the
front of the buffer holds is decided by one function, `next`: a message and what
follows it, a request for more bytes, or an error.

`Lawful` is what `next` has to satisfy for the chunk boundaries not to matter: more
bytes behind a message or behind an error change nothing.  Under it,
`feedChunks_eq` says that any way of cutting a stream decodes like the whole, and
`decode_flatten` that a concatenation of encodings decodes to its messages.

`headed` is the usual way to get such a `next`: a kind byte, a big-endian length and
that many payload bytes.  It is lawful whatever the kinds and payloads mean.
-/
import Mathlib
import Homie.Lib.Bytes

namespace Homie.Framing

variable {ε μ : Type}

/-- Takes messages off the front of `rest` until `next` wants more bytes or fails. -/
def drain (next : List UInt8 → Except ε (Option (μ × List UInt8))) :
    Nat → List UInt8 → Except ε (List μ × List UInt8)
  | 0, rest => .ok ([], rest)
  | fuel + 1, rest =>
    match next rest with
    | .error e => .error e
    | .ok none => .ok ([], rest)
    | .ok (some (message, rest')) =>
      match drain next fuel rest' with
      | .error e => .error e
      | .ok (messages, residue) => .ok (message :: messages, residue)

/-- Every message takes at least one byte, so a buffer holds no more messages than bytes. -/
def decode (next : List UInt8 → Except ε (Option (μ × List UInt8))) (buffer : List UInt8) :
    Except ε (List μ × List UInt8) :=
  drain next (buffer.length + 1) buffer

/-- Feeds chunks one after another, stopping at the first error. -/
def feedChunks (next : List UInt8 → Except ε (Option (μ × List UInt8))) :
    List UInt8 → List (List UInt8) → Except ε (List μ × List UInt8)
  | buffer, [] => .ok ([], buffer)
  | buffer, chunk :: chunks =>
    match decode next (buffer ++ chunk) with
    | .error e => .error e
    | .ok (messages, residue) =>
      match feedChunks next residue chunks with
      | .error e => .error e
      | .ok (later, last) => .ok (messages ++ later, last)

/-- What arrives behind a message, or behind an error, cannot change it. -/
structure Lawful (next : List UInt8 → Except ε (Option (μ × List UInt8))) : Prop where
  /-- Nothing decodes from no bytes. -/
  empty : next [] = .ok none
  /-- A message takes bytes. -/
  shrinks : ∀ {buffer message rest}, next buffer = .ok (some (message, rest)) →
    rest.length < buffer.length
  /-- A message already complete stays what it is. -/
  message : ∀ {buffer message rest} (more : List UInt8),
    next buffer = .ok (some (message, rest)) → next (buffer ++ more) = .ok (some (message, rest ++ more))
  /-- An error already certain stays what it is. -/
  error : ∀ {buffer e} (more : List UInt8), next buffer = .error e → next (buffer ++ more) = .error e

variable {next : List UInt8 → Except ε (Option (μ × List UInt8))}

/-! ### Fuel -/

theorem drain_fuel (law : Lawful next) : ∀ (fuel fuel' : Nat) (rest : List UInt8),
    rest.length < fuel → rest.length < fuel' → drain next fuel rest = drain next fuel' rest := by
  intro fuel
  induction fuel with
  | zero => intro fuel' rest h; omega
  | succ fuel ih =>
    intro fuel' rest h h'
    obtain ⟨fuel', rfl⟩ : ∃ k, fuel' = k + 1 := ⟨fuel' - 1, by omega⟩
    rw [drain, drain]
    split
    · rfl
    · rfl
    · rename_i message rest' hnext
      have hlt := law.shrinks hnext
      rw [ih fuel' rest' (by omega) (by omega)]

theorem decode_none {buffer : List UInt8} (h : next buffer = .ok none) :
    decode next buffer = .ok ([], buffer) := by
  rw [decode, drain, h]

theorem decode_error {buffer : List UInt8} {e : ε} (h : next buffer = .error e) :
    decode next buffer = .error e := by
  rw [decode, drain, h]

/-- One message taken off the front, and then the rest of the buffer. -/
theorem decode_some (law : Lawful next) {buffer rest : List UInt8} {message : μ}
    (h : next buffer = .ok (some (message, rest))) :
    decode next buffer = match decode next rest with
      | .error e => .error e
      | .ok (messages, residue) => .ok (message :: messages, residue) := by
  have hlt := law.shrinks h
  rw [decode, drain, h]
  simp only [decode]
  rw [drain_fuel law buffer.length (rest.length + 1) rest hlt (by omega)]

/-! ### Chunk boundaries do not matter -/

/-- What is left over holds no complete message. -/
theorem next_residue (law : Lawful next) : ∀ (n : Nat) (buffer : List UInt8),
    buffer.length ≤ n → ∀ messages residue, decode next buffer = .ok (messages, residue) →
      next residue = .ok none := by
  intro n
  induction n with
  | zero =>
    intro buffer hn messages residue h
    have hnil : buffer = [] := List.length_eq_zero_iff.mp (by omega)
    subst hnil
    rw [decode_none law.empty] at h
    cases h
    exact law.empty
  | succ n ih =>
    intro buffer hn messages residue h
    cases hnext : next buffer with
    | error e => rw [decode_error hnext] at h; cases h
    | ok front =>
      cases front with
      | none =>
        rw [decode_none hnext] at h
        cases h
        exact hnext
      | some taken =>
        obtain ⟨message, rest⟩ := taken
        rw [decode_some law hnext] at h
        cases hrest : decode next rest with
        | error e => rw [hrest] at h; cases h
        | ok later =>
          rw [hrest] at h
          cases h
          have hlt := law.shrinks hnext
          exact ih rest (by omega) _ _ hrest

/-- Decoding `buffer ++ more` is decoding `buffer`, then its residue followed by `more`. -/
theorem decode_append (law : Lawful next) (more : List UInt8) : ∀ (n : Nat) (buffer : List UInt8),
    buffer.length ≤ n → decode next (buffer ++ more) = match decode next buffer with
      | .error e => .error e
      | .ok (messages, residue) =>
        match decode next (residue ++ more) with
        | .error e => .error e
        | .ok (later, last) => .ok (messages ++ later, last) := by
  intro n
  induction n with
  | zero =>
    intro buffer hn
    have hnil : buffer = [] := List.length_eq_zero_iff.mp (by omega)
    subst hnil
    rw [decode_none law.empty]
    simp only [List.nil_append]
    cases decode next more <;> rfl
  | succ n ih =>
    intro buffer hn
    cases hnext : next buffer with
    | error e => rw [decode_error hnext, decode_error (law.error more hnext)]
    | ok front =>
      cases front with
      | none =>
        rw [decode_none hnext]
        simp only [List.nil_append]
        cases decode next (buffer ++ more) <;> rfl
      | some taken =>
        obtain ⟨message, rest⟩ := taken
        have hlt := law.shrinks hnext
        rw [decode_some law hnext, decode_some law (law.message more hnext),
          ih rest (by omega)]
        cases decode next rest with
        | error e => rfl
        | ok later =>
          simp only
          cases decode next (later.2 ++ more) <;> rfl

/--
**However a stream is cut, it decodes like the whole**: the same messages and the
same residue, or the same error.
-/
theorem feedChunks_eq (law : Lawful next) : ∀ (chunks : List (List UInt8)) (buffer : List UInt8),
    next buffer = .ok none → feedChunks next buffer chunks = decode next (buffer ++ chunks.flatten) := by
  intro chunks
  induction chunks with
  | nil =>
    intro buffer h
    rw [feedChunks, List.flatten_nil, List.append_nil, decode_none h]
  | cons chunk chunks ih =>
    intro buffer _
    rw [feedChunks, List.flatten_cons, ← List.append_assoc,
      decode_append law chunks.flatten _ (buffer ++ chunk) (Nat.le_refl _)]
    cases hdec : decode next (buffer ++ chunk) with
    | error e => rfl
    | ok taken =>
      simp only
      rw [ih taken.2 (next_residue law _ _ (Nat.le_refl _) _ _ hdec)]

/-- If each message is spelled by the bytes it takes, a decoded buffer is what its messages spell
and the residue. -/
theorem decode_spells (law : Lawful next) {P : μ → Prop} {spell : μ → List UInt8}
    (hspell : ∀ {buffer message rest}, next buffer = .ok (some (message, rest)) →
      P message ∧ buffer = spell message ++ rest) {buffer residue : List UInt8}
    {messages : List μ} (h : decode next buffer = .ok (messages, residue)) :
    (∀ message ∈ messages, P message) ∧ buffer = (messages.map spell).flatten ++ residue := by
  induction hlen : buffer.length using Nat.strongRecOn generalizing buffer messages with
  | _ n ih =>
    cases hnext : next buffer with
    | error e =>
      rw [decode_error hnext] at h
      exact nomatch h
    | ok front =>
      cases front with
      | none =>
        rw [decode_none hnext] at h
        cases h
        exact ⟨fun message hmem => absurd hmem List.not_mem_nil, rfl⟩
      | some taken =>
        obtain ⟨message, rest⟩ := taken
        rw [decode_some law hnext] at h
        cases hrest : decode next rest with
        | error e =>
          rw [hrest] at h
          exact nomatch h
        | ok later =>
          rw [hrest] at h
          cases h
          obtain ⟨hfront, hbuffer⟩ := hspell hnext
          obtain ⟨hall, hrest⟩ := ih rest.length (hlen ▸ law.shrinks hnext) hrest rfl
          refine ⟨List.forall_mem_cons.mpr ⟨hfront, hall⟩, ?_⟩
          rw [List.map_cons, List.flatten_cons, List.append_assoc, ← hrest]
          exact hbuffer

/-! ### Concatenated encodings -/

/-- `bytes` is one message, whatever follows it. -/
def Encodes (next : List UInt8 → Except ε (Option (μ × List UInt8))) (message : μ)
    (bytes : List UInt8) : Prop :=
  ∀ more, next (bytes ++ more) = .ok (some (message, more))

/-- A concatenation of encodings decodes to its messages and leaves nothing over. -/
theorem decode_flatten (law : Lawful next) {messages : List μ} {encodings : List (List UInt8)}
    (h : List.Forall₂ (Encodes next) messages encodings) :
    decode next encodings.flatten = .ok (messages, []) := by
  induction h with
  | nil => exact decode_none law.empty
  | @cons message bytes messages encodings henc _ ih =>
    rw [List.flatten_cons, decode_some law (henc encodings.flatten), ih]

theorem forall₂_of_mapM {α β : Type} {f : α → Except ε β} : ∀ {xs : List α} {ys : List β},
    xs.mapM f = .ok ys → List.Forall₂ (fun x y => f x = .ok y) xs ys := by
  intro xs
  induction xs with
  | nil =>
    intro ys h
    cases h
    exact List.Forall₂.nil
  | cons x xs ih =>
    intro ys h
    rw [List.mapM_cons] at h
    cases hx : f x with
    | error e => rw [hx] at h; cases h
    | ok y =>
      cases hxs : xs.mapM f with
      | error e => rw [hx, hxs] at h; cases h
      | ok ys' =>
        rw [hx, hxs] at h
        cases h
        exact List.Forall₂.cons hx (ih hxs)

/-! ### A kind byte, a length, a payload -/

variable {κ : Type}

/--
The front of a stream of `[kind u8][length u32 BE][payload]` messages.  `accept`
judges the header before the payload has arrived; `finish` reads the payload.
-/
def headed (accept : UInt8 → Nat → Except ε κ) (finish : κ → List UInt8 → Except ε μ)
    (rest : List UInt8) : Except ε (Option (μ × List UInt8)) :=
  match rest with
  | kind :: l0 :: l1 :: l2 :: l3 :: body =>
    let length := (Bytes.readU32Be [l0, l1, l2, l3]).toNat
    match accept kind length with
    | .error e => .error e
    | .ok header =>
      if body.length < length then .ok none
      else match finish header (body.take length) with
        | .error e => .error e
        | .ok message => .ok (some (message, body.drop length))
  -- fewer than the five header bytes
  | _ => .ok none

variable {accept : UInt8 → Nat → Except ε κ} {finish : κ → List UInt8 → Except ε μ}

/-- Anything but a request for more bytes was decided on a complete header. -/
theorem headed_cases (accept : UInt8 → Nat → Except ε κ) (finish : κ → List UInt8 → Except ε μ)
    (rest : List UInt8) :
    headed accept finish rest = .ok none ∨
      ∃ kind l0 l1 l2 l3 body, rest = kind :: l0 :: l1 :: l2 :: l3 :: body := by
  match rest with
  | [] => exact Or.inl rfl
  | [_] => exact Or.inl rfl
  | [_, _] => exact Or.inl rfl
  | [_, _, _] => exact Or.inl rfl
  | [_, _, _, _] => exact Or.inl rfl
  | kind :: l0 :: l1 :: l2 :: l3 :: body => exact Or.inr ⟨kind, l0, l1, l2, l3, body, rfl⟩

theorem headed_some {rest residue : List UInt8} {message : μ}
    (h : headed accept finish rest = .ok (some (message, residue))) :
    ∃ kind l0 l1 l2 l3 body header, rest = kind :: l0 :: l1 :: l2 :: l3 :: body ∧
      accept kind (Bytes.readU32Be [l0, l1, l2, l3]).toNat = .ok header ∧
      (Bytes.readU32Be [l0, l1, l2, l3]).toNat ≤ body.length ∧
      finish header (body.take (Bytes.readU32Be [l0, l1, l2, l3]).toNat) = .ok message ∧
      residue = body.drop (Bytes.readU32Be [l0, l1, l2, l3]).toNat := by
  rcases headed_cases accept finish rest with hnone | ⟨kind, l0, l1, l2, l3, body, rfl⟩
  · rw [hnone] at h; cases h
  simp only [headed] at h
  cases haccept : accept kind (Bytes.readU32Be [l0, l1, l2, l3]).toNat with
  | error e => rw [haccept] at h; cases h
  | ok header =>
    rw [haccept] at h
    simp only at h
    split at h
    · cases h
    · rename_i hbody
      cases hfinish : finish header (body.take (Bytes.readU32Be [l0, l1, l2, l3]).toNat) with
      | error e => rw [hfinish] at h; cases h
      | ok m =>
        rw [hfinish] at h
        cases h
        exact ⟨kind, l0, l1, l2, l3, body, header, rfl, haccept, by omega, hfinish, rfl⟩

/-- Headed framing never looks past the message or the error it returns. -/
theorem headed_lawful (accept : UInt8 → Nat → Except ε κ) (finish : κ → List UInt8 → Except ε μ) :
    Lawful (headed accept finish) where
  empty := rfl
  shrinks := by
    intro buffer message rest h
    obtain ⟨kind, l0, l1, l2, l3, body, header, rfl, -, -, -, rfl⟩ := headed_some h
    simp only [List.length_drop, List.length_cons]
    omega
  message := by
    intro buffer message rest more h
    obtain ⟨kind, l0, l1, l2, l3, body, header, rfl, haccept, hbody, hfinish, rfl⟩ := headed_some h
    have hlen : ¬ ((body ++ more).length < (Bytes.readU32Be [l0, l1, l2, l3]).toNat) := by
      rw [List.length_append]; omega
    simp only [List.cons_append, headed, haccept, if_neg hlen]
    rw [List.take_append_of_le_length hbody, List.drop_append_of_le_length hbody, hfinish]
  error := by
    intro buffer e more h
    rcases headed_cases accept finish buffer with hnone | ⟨kind, l0, l1, l2, l3, body, rfl⟩
    · rw [hnone] at h; cases h
    simp only [List.cons_append, headed] at h ⊢
    cases haccept : accept kind (Bytes.readU32Be [l0, l1, l2, l3]).toNat with
    | error e' => rw [haccept] at h; exact h
    | ok header =>
      rw [haccept] at h
      simp only at h ⊢
      split at h
      · cases h
      · rename_i hbody
        have hlen : ¬ ((body ++ more).length < (Bytes.readU32Be [l0, l1, l2, l3]).toNat) := by
          rw [List.length_append]; omega
        rw [if_neg hlen, List.take_append_of_le_length (by omega)]
        cases hfinish : finish header (body.take (Bytes.readU32Be [l0, l1, l2, l3]).toNat) with
        | error e' => rw [hfinish] at h; exact h
        | ok m => rw [hfinish] at h; cases h

/-- A header both sides agree on, in front of a payload that reads back, is one message. -/
theorem headed_encodes {kind : UInt8} {payload : List UInt8} {header : κ} {message : μ}
    (hfits : payload.length < 2 ^ 32) (haccept : accept kind payload.length = .ok header)
    (hfinish : finish header payload = .ok message) :
    Encodes (headed accept finish) message
      (kind :: (Bytes.u32Be (UInt32.ofNat payload.length) ++ payload)) := by
  intro more
  have hword := Bytes.length_u32Be (UInt32.ofNat payload.length)
  have hread := Bytes.readU32Be_u32Be (UInt32.ofNat payload.length)
  generalize Bytes.u32Be (UInt32.ofNat payload.length) = word at hword hread
  match word, hword with
  | [l0, l1, l2, l3], _ =>
    have hlen : (Bytes.readU32Be [l0, l1, l2, l3]).toNat = payload.length := by
      rw [hread]
      exact UInt32.toNat_ofNat_of_lt' hfits
    have hbody : ¬ ((payload ++ more).length < payload.length) := by
      rw [List.length_append]; omega
    simp only [List.cons_append, List.nil_append, headed, hlen, haccept, if_neg hbody,
      List.take_left, hfinish, List.drop_left]

end Homie.Framing
