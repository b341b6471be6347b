/-
Big-endian words as byte lists.

Every wire format in the repository writes its integers with `to_be_bytes` and
reads them back with `from_be_bytes`.  The two halves are stated once here for
any width, as digits in base 256, and then at the four widths the Rust code uses.
Nothing in this file knows what the words are for.
-/
import Mathlib

namespace Homie.Bytes

/-- The low `width` bytes of `value`, most significant first. -/
def ofNatBe : Nat → Nat → List UInt8
  | 0, _ => []
  | width + 1, value => UInt8.ofNat (value / 256 ^ width) :: ofNatBe width value

/-- The number a big-endian byte list spells. -/
def toNatBe : List UInt8 → Nat
  | [] => 0
  | byte :: rest => 256 ^ rest.length * byte.toNat + toNatBe rest

@[simp] theorem length_ofNatBe : ∀ (width value : Nat), (ofNatBe width value).length = width
  | 0, _ => rfl
  | width + 1, value => congrArg (· + 1) (length_ofNatBe width value)

/-- Writing a number and reading it back reduces it to the width it was given. -/
theorem toNatBe_ofNatBe (value : Nat) :
    ∀ width, toNatBe (ofNatBe width value) = value % 256 ^ width := by
  intro width
  induction width with
  | zero => simp [ofNatBe, toNatBe, Nat.mod_one]
  | succ width ih =>
    have hdigit : (UInt8.ofNat (value / 256 ^ width)).toNat = value / 256 ^ width % 256 :=
      UInt8.toNat_ofNat'
    rw [ofNatBe, toNatBe, ih, hdigit, length_ofNatBe, Nat.mod_pow_succ, Nat.add_comm]

theorem toNatBe_lt (bytes : List UInt8) : toNatBe bytes < 256 ^ bytes.length := by
  induction bytes with
  | nil => exact Nat.one_pos
  | cons byte bytes ih =>
    have hbyte : byte.toNat + 1 ≤ 256 := byte.toNat_lt
    rw [toNatBe, List.length_cons, Nat.pow_succ]
    calc 256 ^ bytes.length * byte.toNat + toNatBe bytes
        < 256 ^ bytes.length * (byte.toNat + 1) := Nat.add_lt_add_left ih _
      _ ≤ 256 ^ bytes.length * 256 := Nat.mul_le_mul_left _ hbyte

/-- Two byte lists of one length that spell the same number are the same. -/
theorem toNatBe_inj : ∀ {bytes other : List UInt8}, bytes.length = other.length →
    toNatBe bytes = toNatBe other → bytes = other
  | [], [], _, _ => rfl
  | byte :: bytes, byte' :: other, hlength, h => by
    have hlength : bytes.length = other.length := Nat.succ.inj hlength
    have hlt := toNatBe_lt bytes
    have hlt' := toNatBe_lt other
    rw [toNatBe, toNatBe, ← hlength] at h
    rw [← hlength] at hlt'
    have hdiv := congrArg (· / 256 ^ bytes.length) h
    have hmod := congrArg (· % 256 ^ bytes.length) h
    simp only [Nat.mul_add_div (Nat.pow_pos (by decide) : 0 < 256 ^ bytes.length),
      Nat.mul_add_mod, Nat.div_eq_of_lt hlt, Nat.div_eq_of_lt hlt', Nat.mod_eq_of_lt hlt,
      Nat.mod_eq_of_lt hlt', Nat.add_zero] at hdiv hmod
    rw [UInt8.toNat_inj.mp hdiv, toNatBe_inj hlength hmod]

/-! ### The widths the code uses -/

def u16Be (value : UInt16) : List UInt8 := ofNatBe 2 value.toNat
def u32Be (value : UInt32) : List UInt8 := ofNatBe 4 value.toNat
def u64Be (value : UInt64) : List UInt8 := ofNatBe 8 value.toNat

def readU16Be (bytes : List UInt8) : UInt16 := UInt16.ofNat (toNatBe bytes)
def readU32Be (bytes : List UInt8) : UInt32 := UInt32.ofNat (toNatBe bytes)
def readU64Be (bytes : List UInt8) : UInt64 := UInt64.ofNat (toNatBe bytes)

@[simp] theorem length_u16Be (value : UInt16) : (u16Be value).length = 2 := length_ofNatBe ..
@[simp] theorem length_u32Be (value : UInt32) : (u32Be value).length = 4 := length_ofNatBe ..
@[simp] theorem length_u64Be (value : UInt64) : (u64Be value).length = 8 := length_ofNatBe ..

@[simp] theorem readU16Be_u16Be (value : UInt16) : readU16Be (u16Be value) = value := by
  have hlt : value.toNat < 256 ^ 2 := value.toNat_lt
  rw [readU16Be, u16Be, toNatBe_ofNatBe, Nat.mod_eq_of_lt hlt, UInt16.ofNat_toNat]

@[simp] theorem readU32Be_u32Be (value : UInt32) : readU32Be (u32Be value) = value := by
  have hlt : value.toNat < 256 ^ 4 := value.toNat_lt
  rw [readU32Be, u32Be, toNatBe_ofNatBe, Nat.mod_eq_of_lt hlt, UInt32.ofNat_toNat]

theorem u32Be_readU32Be {bytes : List UInt8} (h : bytes.length = 4) :
    u32Be (readU32Be bytes) = bytes := by
  have hlt := toNatBe_lt bytes
  rw [h] at hlt
  refine toNatBe_inj (by rw [length_u32Be, h]) ?_
  rw [u32Be, toNatBe_ofNatBe, readU32Be, UInt32.toNat_ofNat_of_lt' (Nat.lt_of_lt_of_eq hlt (by decide))]
  exact Nat.mod_eq_of_lt hlt

@[simp] theorem readU64Be_u64Be (value : UInt64) : readU64Be (u64Be value) = value := by
  have hlt : value.toNat < 256 ^ 8 := value.toNat_lt
  rw [readU64Be, u64Be, toNatBe_ofNatBe, Nat.mod_eq_of_lt hlt, UInt64.ofNat_toNat]

/-! ### Four bytes packed into a word -/

/-- `[tag][a][b][c]`, shifted into place. -/
def pack (tag a b c : UInt8) : UInt32 :=
  (tag.toUInt32 <<< 24) ||| (a.toUInt32 <<< 16) ||| (b.toUInt32 <<< 8) ||| c.toUInt32

private theorem or_low {low i : Nat} (high : Nat) (h : low < 2 ^ i) :
    high * 2 ^ i ||| low = high * 2 ^ i + low := by
  rw [← Nat.shiftLeft_eq, Nat.shiftLeft_add_eq_or_of_lt h]

private theorem toNat_shifted (x : UInt8) {k : UInt32} (hk : k.toNat ≤ 24) :
    (x.toUInt32 <<< k).toNat = x.toNat * 2 ^ k.toNat := by
  have hx : x.toNat < 2 ^ 8 := x.toNat_lt
  have hpow : 2 ^ k.toNat ≤ 2 ^ 24 := Nat.pow_le_pow_right (by omega) hk
  rw [UInt32.toNat_shiftLeft, UInt8.toNat_toUInt32, Nat.mod_eq_of_lt (by omega : k.toNat < 32),
    Nat.shiftLeft_eq]
  apply Nat.mod_eq_of_lt
  calc x.toNat * 2 ^ k.toNat ≤ x.toNat * 2 ^ 24 := Nat.mul_le_mul_left _ hpow
    _ < 2 ^ 32 := by omega

/-- The shifted bytes do not overlap, so the word is their base-256 number. -/
theorem toNat_pack (tag a b c : UInt8) :
    (pack tag a b c).toNat
      = ((tag.toNat * 256 + a.toNat) * 256 + b.toNat) * 256 + c.toNat := by
  have ha := a.toNat_lt
  have hb := b.toNat_lt
  have hc := c.toNat_lt
  have h1 : tag.toNat * 2 ^ 24 ||| a.toNat * 2 ^ 16 = (tag.toNat * 256 + a.toNat) * 2 ^ 16 :=
    (or_low _ (by omega)).trans (by omega)
  have h2 : (tag.toNat * 256 + a.toNat) * 2 ^ 16 ||| b.toNat * 2 ^ 8
      = ((tag.toNat * 256 + a.toNat) * 256 + b.toNat) * 2 ^ 8 :=
    (or_low _ (by omega)).trans (by omega)
  have h3 : ((tag.toNat * 256 + a.toNat) * 256 + b.toNat) * 2 ^ 8 ||| c.toNat
      = ((tag.toNat * 256 + a.toNat) * 256 + b.toNat) * 256 + c.toNat := or_low _ hc
  unfold pack
  rw [UInt32.toNat_or, UInt32.toNat_or, UInt32.toNat_or, toNat_shifted _ (by decide),
    toNat_shifted _ (by decide), toNat_shifted _ (by decide), UInt8.toNat_toUInt32]
  show tag.toNat * 2 ^ 24 ||| a.toNat * 2 ^ 16 ||| b.toNat * 2 ^ 8 ||| c.toNat = _
  rw [h1, h2, h3]

/-- Masking a word with `0xff` and narrowing it leaves its low byte. -/
theorem toUInt8_and_ff {word : UInt32} {x : UInt8} (h : word.toNat % 256 = x.toNat) :
    (word &&& 0xff).toUInt8 = x := by
  apply UInt8.toNat_inj.mp
  rw [UInt32.toNat_toUInt8, UInt32.toNat_and]
  show (word.toNat &&& (2 ^ 8 - 1)) % 256 = x.toNat
  rw [Nat.and_two_pow_sub_one_eq_mod]
  omega

/-- The tag of a packed word. -/
theorem pack_tag (tag a b c : UInt8) : pack tag a b c >>> 24 = tag.toUInt32 := by
  apply UInt32.toNat_inj.mp
  have ha := a.toNat_lt
  have hb := b.toNat_lt
  have hc := c.toNat_lt
  rw [UInt32.toNat_shiftRight, UInt8.toNat_toUInt32, toNat_pack]
  show _ >>> 24 = tag.toNat
  rw [Nat.shiftRight_eq_div_pow]
  omega

/-- The three payload bytes of a packed word. -/
theorem pack_payload (tag a b c : UInt8) :
    ((pack tag a b c >>> 16) &&& 0xff).toUInt8 = a ∧
    ((pack tag a b c >>> 8) &&& 0xff).toUInt8 = b ∧
    (pack tag a b c &&& 0xff).toUInt8 = c := by
  have ha := a.toNat_lt
  have hb := b.toNat_lt
  have hc := c.toNat_lt
  refine ⟨toUInt8_and_ff ?_, toUInt8_and_ff ?_, toUInt8_and_ff ?_⟩
  · rw [UInt32.toNat_shiftRight, toNat_pack]
    show _ >>> 16 % 256 = a.toNat
    rw [Nat.shiftRight_eq_div_pow]
    omega
  · rw [UInt32.toNat_shiftRight, toNat_pack]
    show _ >>> 8 % 256 = b.toNat
    rw [Nat.shiftRight_eq_div_pow]
    omega
  · rw [toNat_pack]
    omega

end Homie.Bytes
