import Mathlib.Data.Nat.Bitwise

/-!
# LittleEndian — fixed-width little-endian words

The byte layouts every binary format of this development is built from: a
16-, 32- or 64-bit word as the list of its bytes, least significant first,
by the shift-and-mask expressions C-family code writes, and the word read
back from its bytes by shift-and-or.

Both directions are inverse (`decodeN_encodeN`, `encodeN_decodeN`). The
proofs go through the value on `Nat`, where "or with a shifted byte" is an
addition (`or_shiftLeft_eq_add`) and the rest is linear arithmetic.
-/

namespace MBootCore.LittleEndian

/-! ## Encoders -/

def encode16 (v : UInt16) : List UInt8 :=
  [v.toUInt8, (v >>> 8).toUInt8]

def encode32 (v : UInt32) : List UInt8 :=
  [v.toUInt8, (v >>> 8).toUInt8, (v >>> 16).toUInt8, (v >>> 24).toUInt8]

def encode64 (v : UInt64) : List UInt8 :=
  [v.toUInt8, (v >>> 8).toUInt8, (v >>> 16).toUInt8, (v >>> 24).toUInt8,
    (v >>> 32).toUInt8, (v >>> 40).toUInt8, (v >>> 48).toUInt8, (v >>> 56).toUInt8]

@[simp] theorem encode16_length (v : UInt16) : (encode16 v).length = 2 := by
  simp [encode16]

@[simp] theorem encode32_length (v : UInt32) : (encode32 v).length = 4 := by
  simp [encode32]

@[simp] theorem encode64_length (v : UInt64) : (encode64 v).length = 8 := by
  simp [encode64]

/-! ## Decoders -/

def decode16 (b0 b1 : UInt8) : UInt16 :=
  b0.toUInt16 ||| (b1.toUInt16 <<< 8)

def decode32 (b0 b1 b2 b3 : UInt8) : UInt32 :=
  b0.toUInt32 ||| (b1.toUInt32 <<< 8) ||| (b2.toUInt32 <<< 16) ||| (b3.toUInt32 <<< 24)

def decode64 (b0 b1 b2 b3 b4 b5 b6 b7 : UInt8) : UInt64 :=
  b0.toUInt64 ||| (b1.toUInt64 <<< 8) ||| (b2.toUInt64 <<< 16) ||| (b3.toUInt64 <<< 24) |||
    (b4.toUInt64 <<< 32) ||| (b5.toUInt64 <<< 40) ||| (b6.toUInt64 <<< 48) |||
    (b7.toUInt64 <<< 56)

/-! ## Values -/

/-- Or-ing in a value shifted past everything already there is addition. -/
theorem or_shiftLeft_eq_add {a k : Nat} (h : a < 2 ^ k) (b : Nat) :
    a ||| (b <<< k) = a + b * 2 ^ k := by
  rw [Nat.or_comm, ← Nat.shiftLeft_add_eq_or_of_lt h, Nat.shiftLeft_eq]
  omega

/-- The same inside a `w`-bit word, while the shifted byte still fits. -/
theorem or_shiftLeft_mod {a k w : Nat} (h : a < 2 ^ k) {b : Nat} (hb : b < 2 ^ 8)
    (hk : k + 8 ≤ w) : a ||| ((b <<< k) % 2 ^ w) = a + b * 2 ^ k := by
  have hlt : b <<< k < 2 ^ w := by
    rw [Nat.shiftLeft_eq]
    calc b * 2 ^ k < 2 ^ 8 * 2 ^ k := Nat.mul_lt_mul_of_pos_right hb (Nat.two_pow_pos k)
      _ = 2 ^ (k + 8) := by rw [← Nat.pow_add, Nat.add_comm]
      _ ≤ 2 ^ w := Nat.pow_le_pow_right (by decide) hk
  rw [Nat.mod_eq_of_lt hlt, or_shiftLeft_eq_add h]

theorem decode16_toNat (b0 b1 : UInt8) :
    (decode16 b0 b1).toNat = b0.toNat + b1.toNat * 2 ^ 8 := by
  have h0 := b0.toNat_lt
  have h1 := b1.toNat_lt
  simp only [decode16, UInt16.toNat_or, UInt16.toNat_shiftLeft, UInt8.toNat_toUInt16,
    UInt16.reduceToNat, Nat.reduceMod]
  exact or_shiftLeft_mod (by omega) h1 (by decide)

theorem decode32_toNat (b0 b1 b2 b3 : UInt8) :
    (decode32 b0 b1 b2 b3).toNat
      = b0.toNat + b1.toNat * 2 ^ 8 + b2.toNat * 2 ^ 16 + b3.toNat * 2 ^ 24 := by
  have h0 := b0.toNat_lt
  have h1 := b1.toNat_lt
  have h2 := b2.toNat_lt
  have h3 := b3.toNat_lt
  simp only [decode32, UInt32.toNat_or, UInt32.toNat_shiftLeft, UInt8.toNat_toUInt32,
    UInt32.reduceToNat, Nat.reduceMod]
  rw [or_shiftLeft_mod (by omega) h1 (by decide), or_shiftLeft_mod (by omega) h2 (by decide),
    or_shiftLeft_mod (by omega) h3 (by decide)]

theorem decode64_toNat (b0 b1 b2 b3 b4 b5 b6 b7 : UInt8) :
    (decode64 b0 b1 b2 b3 b4 b5 b6 b7).toNat
      = b0.toNat + b1.toNat * 2 ^ 8 + b2.toNat * 2 ^ 16 + b3.toNat * 2 ^ 24
        + b4.toNat * 2 ^ 32 + b5.toNat * 2 ^ 40 + b6.toNat * 2 ^ 48 + b7.toNat * 2 ^ 56 := by
  have h0 := b0.toNat_lt
  have h1 := b1.toNat_lt
  have h2 := b2.toNat_lt
  have h3 := b3.toNat_lt
  have h4 := b4.toNat_lt
  have h5 := b5.toNat_lt
  have h6 := b6.toNat_lt
  have h7 := b7.toNat_lt
  simp only [decode64, UInt64.toNat_or, UInt64.toNat_shiftLeft, UInt8.toNat_toUInt64,
    UInt64.reduceToNat, Nat.reduceMod]
  rw [or_shiftLeft_mod (by omega) h1 (by decide), or_shiftLeft_mod (by omega) h2 (by decide),
    or_shiftLeft_mod (by omega) h3 (by decide), or_shiftLeft_mod (by omega) h4 (by decide),
    or_shiftLeft_mod (by omega) h5 (by decide), or_shiftLeft_mod (by omega) h6 (by decide),
    or_shiftLeft_mod (by omega) h7 (by decide)]

/-! ## Round trips -/

@[simp] theorem decode16_encode16 (v : UInt16) :
    decode16 v.toUInt8 (v >>> 8).toUInt8 = v := by
  apply UInt16.toNat_inj.mp
  have h := v.toNat_lt
  simp only [decode16_toNat, UInt16.toNat_toUInt8, UInt16.toNat_shiftRight, UInt16.reduceToNat,
    Nat.shiftRight_eq_div_pow, Nat.reduceMod, Nat.reducePow]
  omega

@[simp] theorem decode32_encode32 (v : UInt32) :
    decode32 v.toUInt8 (v >>> 8).toUInt8 (v >>> 16).toUInt8 (v >>> 24).toUInt8 = v := by
  apply UInt32.toNat_inj.mp
  have h := v.toNat_lt
  simp only [decode32_toNat, UInt32.toNat_toUInt8, UInt32.toNat_shiftRight, UInt32.reduceToNat,
    Nat.shiftRight_eq_div_pow, Nat.reduceMod, Nat.reducePow]
  omega

@[simp] theorem decode64_encode64 (v : UInt64) :
    decode64 v.toUInt8 (v >>> 8).toUInt8 (v >>> 16).toUInt8 (v >>> 24).toUInt8
      (v >>> 32).toUInt8 (v >>> 40).toUInt8 (v >>> 48).toUInt8 (v >>> 56).toUInt8 = v := by
  apply UInt64.toNat_inj.mp
  have h := v.toNat_lt
  simp only [decode64_toNat, UInt64.toNat_toUInt8, UInt64.toNat_shiftRight, UInt64.reduceToNat,
    Nat.shiftRight_eq_div_pow, Nat.reduceMod, Nat.reducePow]
  omega

@[simp] theorem encode16_decode16 (b0 b1 : UInt8) :
    encode16 (decode16 b0 b1) = [b0, b1] := by
  have h0 := b0.toNat_lt
  have h1 := b1.toNat_lt
  simp only [encode16, List.cons.injEq, and_true, ← UInt8.toNat_inj, UInt16.toNat_toUInt8,
    UInt16.toNat_shiftRight, decode16_toNat, UInt16.reduceToNat, Nat.shiftRight_eq_div_pow,
    Nat.reduceMod, Nat.reducePow]
  omega

@[simp] theorem encode32_decode32 (b0 b1 b2 b3 : UInt8) :
    encode32 (decode32 b0 b1 b2 b3) = [b0, b1, b2, b3] := by
  have h0 := b0.toNat_lt
  have h1 := b1.toNat_lt
  have h2 := b2.toNat_lt
  have h3 := b3.toNat_lt
  simp only [encode32, List.cons.injEq, and_true, ← UInt8.toNat_inj, UInt32.toNat_toUInt8,
    UInt32.toNat_shiftRight, decode32_toNat, UInt32.reduceToNat, Nat.shiftRight_eq_div_pow,
    Nat.reduceMod, Nat.reducePow]
  omega

@[simp] theorem encode64_decode64 (b0 b1 b2 b3 b4 b5 b6 b7 : UInt8) :
    encode64 (decode64 b0 b1 b2 b3 b4 b5 b6 b7) = [b0, b1, b2, b3, b4, b5, b6, b7] := by
  have h0 := b0.toNat_lt
  have h1 := b1.toNat_lt
  have h2 := b2.toNat_lt
  have h3 := b3.toNat_lt
  have h4 := b4.toNat_lt
  have h5 := b5.toNat_lt
  have h6 := b6.toNat_lt
  have h7 := b7.toNat_lt
  simp only [encode64, List.cons.injEq, and_true, ← UInt8.toNat_inj, UInt64.toNat_toUInt8,
    UInt64.toNat_shiftRight, decode64_toNat, UInt64.reduceToNat, Nat.shiftRight_eq_div_pow,
    Nat.reduceMod, Nat.reducePow]
  omega

end MBootCore.LittleEndian
