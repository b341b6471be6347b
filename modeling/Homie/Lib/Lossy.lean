/-
What `from_utf8_lossy` does to a text around its ASCII bytes.

A byte below `0x80` is always a character of its own: it passes through, it ends whatever character
was under way, and the text behind it is read as if nothing had been before it.  So the ASCII bytes
of a text and of what is made of it are the same, and cut both into the same pieces
(`lossy_append`, `lossy_eq_append`).
-/
import Mathlib
import Homie.Lib.Text

namespace Homie.Utf8

/-- A byte list without an ASCII byte. -/
def High (bytes : List UInt8) : Prop := ∀ byte ∈ bytes, 0x80 ≤ byte

theorem High.append {front back : List UInt8} (hfront : High front) (hback : High back) :
    High (front ++ back) := by
  intro byte hbyte
  rcases List.mem_append.mp hbyte with h | h
  · exact hfront byte h
  · exact hback byte h

theorem high_replacement : High replacement := by
  simp [High, replacement]

/-- Neither what a decoder has seen nor what it wants is ASCII, and what it has fits the character
that takes its place. -/
structure Decoder.Sound (decoder : Decoder) : Prop where
  seen : High decoder.seen
  wanted : ∀ range ∈ decoder.wanted, 0x80 ≤ range.1
  short : decoder.seen.length ≤ 3
  idle : decoder.wanted = [] → decoder.seen = []
  room : decoder.seen.length + decoder.wanted.length ≤ 4

theorem sound_idle : Decoder.idle.Sound := by
  constructor <;> simp [Decoder.idle, High]

theorem first_ascii {byte : UInt8} (h : byte < 0x80) :
    Decoder.first byte = ([byte], Decoder.idle) := by
  simp [Decoder.first, continuations, h]

theorem continuations_wanted {byte : UInt8} {wanted : List (UInt8 × UInt8)}
    (h : continuations byte = some wanted) :
    (∀ range ∈ wanted, 0x80 ≤ range.1) ∧ wanted.length ≤ 3 := by
  unfold continuations at h
  repeat' split at h
  all_goals cases h
  all_goals simp

theorem first_high {byte : UInt8} (h : 0x80 ≤ byte) :
    High (Decoder.first byte).1 ∧ (Decoder.first byte).2.Sound ∧
      1 ≤ (Decoder.first byte).1.length + (Decoder.first byte).2.seen.length := by
  have hbyte : High [byte] := by
    intro other hother
    rwa [List.mem_singleton.mp hother]
  unfold Decoder.first
  split
  · exact ⟨high_replacement, sound_idle, by decide⟩
  · exact ⟨hbyte, sound_idle, by simp⟩
  · rename_i wanted hne hwanted
    obtain ⟨hranges, hlen⟩ := continuations_wanted hwanted
    refine ⟨by simp [High], ⟨hbyte, hranges, by simp, fun hnil => ?_, ?_⟩, by simp⟩
    · exact absurd hnil hne
    · simp only [List.length_singleton]
      omega

theorem Decoder.run_cons (decoder : Decoder) (byte : UInt8) (bytes : List UInt8) :
    decoder.run (byte :: bytes) = (decoder.feed byte).1 ++ (decoder.feed byte).2.run bytes :=
  rfl

/-- An ASCII byte does not stand in front of a byte list without one. -/
theorem split_high {byte : UInt8} {out front rest back : List UInt8} (hhigh : High out)
    (h : byte < 0x80) (heq : out ++ rest = front ++ byte :: back) :
    ∃ more, front = out ++ more ∧ rest = more ++ byte :: back := by
  rcases List.append_eq_append_iff.mp heq with ⟨more, hfront, hrest⟩ | ⟨more, hout, hback⟩
  · exact ⟨more, hfront, hrest⟩
  · cases more with
    | nil => exact ⟨[], by simpa using hout.symm, by simpa using hback.symm⟩
    | cons first more =>
      obtain ⟨rfl, -⟩ := List.cons.inj hback
      have hlow := hhigh byte (by rw [hout]; simp)
      exact absurd (UInt8.lt_of_le_of_lt hlow h) (by decide)

namespace Decoder.Sound

variable {decoder : Decoder} (sound : decoder.Sound)
include sound

/-- An ASCII byte gives up what is under way and stands for itself. -/
theorem feed_ascii {byte : UInt8} (h : byte < 0x80) :
    decoder.feed byte = (decoder.run [] ++ [byte], Decoder.idle) ∧ High (decoder.run []) := by
  unfold Decoder.feed
  cases hwanted : decoder.wanted with
  | nil =>
    refine ⟨?_, by simp [Decoder.run, hwanted, High]⟩
    simp only [first_ascii h, Decoder.run, hwanted, List.isEmpty_nil, if_true, List.nil_append]
  | cons range wanted =>
    have hlow : ¬ range.1 ≤ byte := by
      have hrange := sound.wanted range (by simp [hwanted])
      exact fun hle => absurd (UInt8.lt_of_le_of_lt (UInt8.le_trans hrange hle) h) (by decide)
    have hrun : decoder.run [] = replacement := by simp [Decoder.run, hwanted]
    refine ⟨?_, hrun ▸ high_replacement⟩
    simp only [hlow, false_and, if_false, first_ascii h, hrun]

/-- Any other byte brings nothing ASCII and leaves a sound decoder. -/
theorem feed_high {byte : UInt8} (h : 0x80 ≤ byte) :
    High (decoder.feed byte).1 ∧ (decoder.feed byte).2.Sound ∧
      decoder.seen.length + 1
        ≤ (decoder.feed byte).1.length + (decoder.feed byte).2.seen.length := by
  have hbyte : High [byte] := by
    intro other hother
    rwa [List.mem_singleton.mp hother]
  obtain ⟨hfirst, hsound, hlength⟩ := first_high h
  unfold Decoder.feed
  cases hwanted : decoder.wanted with
  | nil =>
    refine ⟨hfirst, hsound, ?_⟩
    rw [sound.idle hwanted]
    simpa using hlength
  | cons range wanted =>
    dsimp only
    split
    · cases wanted with
      | nil =>
        refine ⟨sound.seen.append hbyte, sound_idle, ?_⟩
        simp [Decoder.idle]
      | cons next wanted =>
        have hroom := sound.room
        rw [hwanted] at hroom
        simp only [List.length_cons] at hroom
        refine ⟨by simp [High], ⟨sound.seen.append hbyte, ?_, ?_, by simp, ?_⟩, by simp⟩
        · intro other hother
          exact sound.wanted other (by rw [hwanted]; exact List.mem_cons_of_mem _ hother)
        · rw [List.length_append, List.length_singleton]
          omega
        · simp only [List.length_append, List.length_cons, List.length_nil]
          omega
    · refine ⟨high_replacement.append hfirst, hsound, ?_⟩
      have hshort := sound.short
      have hreplacement : replacement.length = 3 := rfl
      simp only [List.length_append, hreplacement]
      omega

/-- What is given up is as long as what takes its place, or shorter. -/
theorem length_given : decoder.seen.length ≤ (decoder.run []).length := by
  cases hwanted : decoder.wanted with
  | nil => simp [sound.idle hwanted]
  | cons range wanted =>
    have hreplacement : decoder.run [] = replacement := by simp [Decoder.run, hwanted]
    rw [hreplacement]
    exact sound.short

/-- An ASCII byte cuts what is read into what is before it and what is behind it. -/
theorem run_append {byte : UInt8} (h : byte < 0x80) (front back : List UInt8) :
    decoder.run (front ++ byte :: back) = decoder.run front ++ byte :: lossy back := by
  induction front generalizing decoder with
  | nil =>
    rw [List.nil_append, run_cons, (sound.feed_ascii h).1]
    simp [lossy]
  | cons other front ih =>
    rw [List.cons_append, run_cons, run_cons, List.append_assoc]
    by_cases hother : other < 0x80
    · rw [(sound.feed_ascii hother).1, ih sound_idle]
    · rw [ih (sound.feed_high (UInt8.not_lt.mp hother)).2.1]

/-- Where an ASCII byte comes out, it went in. -/
theorem run_eq_append {byte : UInt8} (h : byte < 0x80) {bytes front back : List UInt8}
    (hrun : decoder.run bytes = front ++ byte :: back) :
    ∃ before behind, bytes = before ++ byte :: behind ∧ decoder.run before = front ∧
      lossy behind = back := by
  -- The induction is on the text; what a byte brings out is either before the cut or ends in it.
  induction bytes generalizing decoder front with
  | nil =>
    have hhigh := (sound.feed_ascii h).2
    have hlow := hhigh byte (by rw [hrun]; simp)
    exact absurd (UInt8.lt_of_le_of_lt hlow h) (by decide)
  | cons other bytes ih =>
    rw [run_cons] at hrun
    by_cases hother : other < 0x80
    · obtain ⟨hfeed, hhigh⟩ := sound.feed_ascii hother
      rw [hfeed, List.append_assoc] at hrun
      obtain ⟨front, rfl, hrest⟩ := split_high hhigh h hrun
      have hrest : other :: lossy bytes = front ++ byte :: back := hrest
      cases front with
      | nil =>
        -- The byte is the one that came out.
        obtain ⟨rfl, rfl⟩ := List.cons.inj hrest
        exact ⟨[], bytes, rfl, by simp, rfl⟩
      | cons first front =>
        obtain ⟨rfl, hmore⟩ := List.cons.inj hrest
        obtain ⟨before, behind, rfl, hbefore, hbehind⟩ := ih sound_idle hmore
        refine ⟨other :: before, behind, rfl, ?_, hbehind⟩
        rw [run_cons, hfeed, hbefore]
        simp
    · obtain ⟨hhigh, hsound, -⟩ := sound.feed_high (UInt8.not_lt.mp hother)
      obtain ⟨front, rfl, hrest⟩ := split_high hhigh h hrun
      obtain ⟨before, behind, rfl, hbefore, hbehind⟩ := ih hsound hrest
      refine ⟨other :: before, behind, rfl, ?_, hbehind⟩
      rw [run_cons, hbefore]

/-- Nothing is shorter for what is replaced in it. -/
theorem length_le_run (bytes : List UInt8) :
    decoder.seen.length + bytes.length ≤ (decoder.run bytes).length := by
  induction bytes generalizing decoder with
  | nil => exact sound.length_given
  | cons byte bytes ih =>
    rw [run_cons, List.length_append, List.length_cons]
    by_cases hbyte : byte < 0x80
    · have hgiven := sound.length_given
      have hrest := ih sound_idle
      rw [(sound.feed_ascii hbyte).1]
      simp only [List.length_append, List.length_singleton, Decoder.idle, List.length_nil,
        Nat.zero_add] at hrest ⊢
      omega
    · obtain ⟨-, hsound, hlength⟩ := sound.feed_high (UInt8.not_lt.mp hbyte)
      have hrest := ih hsound
      omega

end Decoder.Sound

theorem lossy_cons {byte : UInt8} (h : byte < 0x80) (bytes : List UInt8) :
    lossy (byte :: bytes) = byte :: lossy bytes :=
  sound_idle.run_append h [] bytes

theorem lossy_append {byte : UInt8} (h : byte < 0x80) (front back : List UInt8) :
    lossy (front ++ byte :: back) = lossy front ++ byte :: lossy back :=
  sound_idle.run_append h front back

theorem lossy_eq_append {byte : UInt8} (h : byte < 0x80) {bytes front back : List UInt8}
    (hlossy : lossy bytes = front ++ byte :: back) :
    ∃ before behind, bytes = before ++ byte :: behind ∧ lossy before = front ∧
      lossy behind = back :=
  sound_idle.run_eq_append h hlossy

theorem length_le_lossy (bytes : List UInt8) : bytes.length ≤ (lossy bytes).length := by
  have h : 0 + bytes.length ≤ (lossy bytes).length := sound_idle.length_le_run bytes
  omega

theorem lossy_ascii {bytes : List UInt8} (h : ∀ byte ∈ bytes, byte < 0x80) :
    lossy bytes = bytes := by
  induction bytes with
  | nil => rfl
  | cons byte bytes ih =>
    rw [lossy_cons (h byte List.mem_cons_self),
      ih fun other hother => h other (List.mem_cons_of_mem _ hother)]

/-! ### ASCII patterns -/

theorem lossy_ascii_append {pattern : List UInt8} (h : ∀ byte ∈ pattern, byte < 0x80)
    (back : List UInt8) : lossy (pattern ++ back) = pattern ++ lossy back := by
  induction pattern with
  | nil => rfl
  | cons byte pattern ih =>
    rw [List.cons_append, lossy_cons (h byte List.mem_cons_self),
      ih fun other hother => h other (List.mem_cons_of_mem _ hother), List.cons_append]

/-- A text begins with a pattern when what is made of it does. -/
theorem lossy_eq_pattern {pattern : List UInt8} (h : ∀ byte ∈ pattern, byte < 0x80)
    {bytes back : List UInt8} (hlossy : lossy bytes = pattern ++ back) :
    ∃ behind, bytes = pattern ++ behind ∧ lossy behind = back := by
  induction pattern generalizing bytes with
  | nil => exact ⟨bytes, rfl, hlossy⟩
  | cons byte pattern ih =>
    have hcut : lossy bytes = [] ++ byte :: (pattern ++ back) := hlossy
    obtain ⟨before, behind, rfl, hbefore, hbehind⟩ :=
      lossy_eq_append (h byte List.mem_cons_self) hcut
    have hnil : before = [] := by
      have hlength := length_le_lossy before
      rw [hbefore] at hlength
      exact List.eq_nil_of_length_eq_zero (Nat.le_zero.mp hlength)
    obtain ⟨rest, rfl, hrest⟩ := ih (fun other hother => h other (List.mem_cons_of_mem _ hother))
      hbehind
    exact ⟨rest, by rw [hnil]; rfl, hrest⟩

theorem prefix_lossy {pattern : List UInt8} (h : ∀ byte ∈ pattern, byte < 0x80)
    (bytes : List UInt8) : pattern <+: lossy bytes ↔ pattern <+: bytes := by
  constructor
  · rintro ⟨back, hback⟩
    obtain ⟨behind, rfl, -⟩ := lossy_eq_pattern h hback.symm
    exact List.prefix_append pattern behind
  · rintro ⟨back, rfl⟩
    rw [lossy_ascii_append h]
    exact List.prefix_append pattern _

/-- A pattern cuts what is read into what is before it and what is behind it. -/
theorem lossy_pattern {pattern : List UInt8} (h : ∀ byte ∈ pattern, byte < 0x80)
    (hne : pattern ≠ []) (front back : List UInt8) :
    lossy (front ++ pattern ++ back) = lossy front ++ pattern ++ lossy back := by
  obtain ⟨first, pattern, rfl⟩ := List.exists_cons_of_ne_nil hne
  rw [List.append_assoc, List.cons_append, lossy_append (h first List.mem_cons_self),
    lossy_ascii_append fun byte hbyte => h byte (List.mem_cons_of_mem _ hbyte)]
  simp

theorem infix_lossy {pattern : List UInt8} (h : ∀ byte ∈ pattern, byte < 0x80)
    (hne : pattern ≠ []) (bytes : List UInt8) :
    pattern <:+: lossy bytes ↔ pattern <:+: bytes := by
  constructor
  · intro hinside
    obtain ⟨front, back, heq⟩ := hinside
    obtain ⟨first, pattern, rfl⟩ := List.exists_cons_of_ne_nil hne
    have hcut : lossy bytes = front ++ first :: (pattern ++ back) := by simp [← heq]
    obtain ⟨before, behind, rfl, -, hbehind⟩ := lossy_eq_append (h first List.mem_cons_self) hcut
    obtain ⟨more, rfl, -⟩ := lossy_eq_pattern
      (fun byte hbyte => h byte (List.mem_cons_of_mem _ hbyte)) hbehind
    exact ⟨before, more, by simp⟩
  · intro hinside
    obtain ⟨front, back, rfl⟩ := hinside
    rw [lossy_pattern h hne]
    exact ⟨lossy front, lossy back, rfl⟩

end Homie.Utf8
