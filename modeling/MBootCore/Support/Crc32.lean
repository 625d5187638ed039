import Mathlib

/-!
# Crc32 — the CRC-32 of zlib

Bit by bit, with the reflected polynomial. The development takes CRC-32 as an
abstract function of the bytes; this one is what the function is in reality,
for the concrete disks.

The division is linear in exclusive or, and so two texts of one length have the
same CRC exactly when their difference leaves no remainder (`crc32_eq_iff`), and
eight bits are divided at once by a table of the remainders of the bytes
(`crc32Byte_eq`).
-/

namespace MBootCore

/-- One bit of the division. -/
def crc32Bit (crc : Nat) : Nat :=
  if crc % 2 = 1 then Nat.xor (crc / 2) 0xEDB88320 else crc / 2

def crc32Byte (crc byte : Nat) : Nat :=
  crc32Bit (crc32Bit (crc32Bit (crc32Bit (crc32Bit (crc32Bit (crc32Bit (crc32Bit
    (Nat.xor crc byte))))))))

/-- The `match` makes evaluation compute the remainder at every byte. -/
def crc32From : List UInt8 → Nat → Nat
  | [], crc => crc
  | byte :: data, crc =>
    match crc32Byte crc byte.toNat with
    | 0 => crc32From data 0
    | next + 1 => crc32From data (next + 1)

/-- `crc32(0, data, size)`. -/
def crc32 (data : List UInt8) : UInt32 :=
  UInt32.ofNat (Nat.xor (crc32From data 0xFFFFFFFF) 0xFFFFFFFF)

/-- The check value of the digits `"123456789"`. -/
example : crc32 [0x31, 0x32, 0x33, 0x34, 0x35, 0x36, 0x37, 0x38, 0x39] = 0xCBF43926 := by
  decide

/-! ## Linearity -/

theorem crc32Bit_xor (a b : Nat) : crc32Bit (a ^^^ b) = crc32Bit a ^^^ crc32Bit b := by
  have hparity : (a ^^^ b) % 2 = 1 ↔ ¬ (a % 2 = 1 ↔ b % 2 = 1) := Nat.xor_mod_two_eq_one
  have hhalf : (a ^^^ b) / 2 = a / 2 ^^^ b / 2 := Nat.xor_div_two
  simp only [crc32Bit, hparity, hhalf]
  show (if ¬ (a % 2 = 1 ↔ b % 2 = 1) then (a / 2 ^^^ b / 2) ^^^ 0xEDB88320 else a / 2 ^^^ b / 2)
    = (if a % 2 = 1 then a / 2 ^^^ 0xEDB88320 else a / 2) ^^^
      (if b % 2 = 1 then b / 2 ^^^ 0xEDB88320 else b / 2)
  by_cases ha : a % 2 = 1 <;> by_cases hb : b % 2 = 1
  · -- the polynomial is taken away twice
    have hcancel : (0xEDB88320 : Nat) ^^^ 0xEDB88320 = 0 := Nat.xor_self _
    simp only [ha, hb, not_true_eq_false, if_false, if_true]
    calc a / 2 ^^^ b / 2 = (a / 2 ^^^ b / 2) ^^^ ((0xEDB88320 : Nat) ^^^ 0xEDB88320) := by
          rw [hcancel, Nat.xor_zero]
      _ = (a / 2 ^^^ 0xEDB88320) ^^^ (b / 2 ^^^ 0xEDB88320) := by ac_rfl
  · simp only [ha, hb, iff_false, not_true_eq_false, not_false_eq_true, if_false, if_true]
    ac_rfl
  · simp only [ha, hb, false_iff, not_true_eq_false, not_false_eq_true, if_false, if_true]
    ac_rfl
  · simp only [ha, hb, not_true_eq_false, if_false]

theorem crc32Byte_xor (x y a b : Nat) :
    crc32Byte (x ^^^ y) (a ^^^ b) = crc32Byte x a ^^^ crc32Byte y b := by
  have hxor (u v : Nat) : Nat.xor u v = u ^^^ v := rfl
  have hsum : (x ^^^ y) ^^^ (a ^^^ b) = (x ^^^ a) ^^^ (y ^^^ b) := by ac_rfl
  simp only [crc32Byte, hxor, hsum, crc32Bit_xor]

theorem crc32From_cons (byte : UInt8) (data : List UInt8) (crc : Nat) :
    crc32From (byte :: data) crc = crc32From data (crc32Byte crc byte.toNat) := by
  have hmatch (next : Nat) : (match next with
      | 0 => crc32From data 0
      | next + 1 => crc32From data (next + 1)) = crc32From data next := by
    cases next <;> rfl
  exact hmatch (crc32Byte crc byte.toNat)

theorem crc32From_xor {a b : List UInt8} (h : a.length = b.length) (x y : Nat) :
    crc32From (List.zipWith (· ^^^ ·) a b) (x ^^^ y) = crc32From a x ^^^ crc32From b y := by
  induction a generalizing b x y with
  | nil =>
    obtain rfl : b = [] := List.length_eq_zero_iff.mp h.symm
    rfl
  | cons byte a ih =>
    cases b with
    | nil => cases h
    | cons other b =>
      rw [List.zipWith_cons_cons, crc32From_cons, crc32From_cons, crc32From_cons,
        UInt8.toNat_xor, crc32Byte_xor, ih (Nat.succ.inj h)]

theorem crc32Bit_lt {crc : Nat} (h : crc < 2 ^ 32) : crc32Bit crc < 2 ^ 32 := by
  rw [crc32Bit]
  split
  · exact Nat.xor_lt_two_pow (by omega) (by decide)
  · omega

theorem crc32From_lt (data : List UInt8) {crc : Nat} (h : crc < 2 ^ 32) :
    crc32From data crc < 2 ^ 32 := by
  induction data generalizing crc with
  | nil => exact h
  | cons byte data ih =>
    have hbyte := byte.toNat_lt
    have hstart : Nat.xor crc byte.toNat < 2 ^ 32 := Nat.xor_lt_two_pow h (by omega)
    rw [crc32From_cons]
    apply ih
    simp only [crc32Byte]
    iterate 8 apply crc32Bit_lt
    exact hstart

theorem xor_right_cancel {x y : Nat} (z : Nat) : x ^^^ z = y ^^^ z ↔ x = y := by
  constructor
  · intro h
    have hcancel (u : Nat) : (u ^^^ z) ^^^ z = u := by
      rw [Nat.xor_assoc, Nat.xor_self, Nat.xor_zero]
    rw [← hcancel x, h, hcancel]
  · intro h
    rw [h]

/-- Two texts of one length have the same CRC exactly when their difference has
the remainder 0. -/
theorem crc32_eq_iff {a b : List UInt8} (h : a.length = b.length) :
    crc32 a = crc32 b ↔ crc32From (List.zipWith (· ^^^ ·) a b) 0 = 0 := by
  have hlinear := crc32From_xor h 0xFFFFFFFF 0xFFFFFFFF
  rw [Nat.xor_self] at hlinear
  have ha := crc32From_lt a (show 0xFFFFFFFF < 2 ^ 32 by decide)
  have hb := crc32From_lt b (show 0xFFFFFFFF < 2 ^ 32 by decide)
  rw [hlinear, crc32, crc32]
  generalize crc32From a 0xFFFFFFFF = x at ha ⊢
  generalize crc32From b 0xFFFFFFFF = y at hb ⊢
  have hx : Nat.xor x 0xFFFFFFFF < 2 ^ 32 := Nat.xor_lt_two_pow ha (by decide)
  have hy : Nat.xor y 0xFFFFFFFF < 2 ^ 32 := Nat.xor_lt_two_pow hb (by decide)
  have hzero : x ^^^ y = 0 ↔ x = y := by
    rw [← xor_right_cancel y, Nat.xor_assoc, Nat.xor_self, Nat.xor_zero, Nat.zero_xor]
  rw [← UInt32.toNat_inj, UInt32.toNat_ofNat', UInt32.toNat_ofNat', Nat.mod_eq_of_lt hx,
    Nat.mod_eq_of_lt hy, hzero]
  exact xor_right_cancel 0xFFFFFFFF

/-! ## A byte at once -/

theorem crc32Bit_double (n : Nat) : crc32Bit (2 * n) = n := by
  rw [crc32Bit, if_neg (by omega)]
  omega

/-- No bit of the last byte is set, so nothing is taken away. -/
theorem crc32Byte_shift (n : Nat) : crc32Byte (256 * n) 0 = n := by
  have hstart : Nat.xor (256 * n) 0 = 2 * (2 * (2 * (2 * (2 * (2 * (2 * (2 * n))))))) := by
    show 256 * n ^^^ 0 = _
    rw [Nat.xor_zero]
    omega
  simp only [crc32Byte, hstart, crc32Bit_double]

theorem xor_high_low (n : Nat) : (256 * (n / 256)) ^^^ (n % 256) = n := by
  apply Nat.eq_of_testBit_eq
  intro i
  rw [Nat.testBit_xor, show 256 = 2 ^ 8 from rfl, Nat.testBit_two_pow_mul, Nat.testBit_mod_two_pow,
    Nat.testBit_div_two_pow]
  by_cases hi : 8 ≤ i
  · have hlow : ¬ i < 8 := by omega
    simp [hi, hlow]
  · have hlow : i < 8 := by omega
    simp [hi, hlow]

/-- The low byte is divided, and the rest moves down. -/
theorem crc32Byte_eq (crc : Nat) {byte : Nat} (hbyte : byte < 256) :
    crc32Byte crc byte = crc32Byte ((crc ^^^ byte) % 256) 0 ^^^ crc / 256 := by
  have hhigh : (crc ^^^ byte) / 256 = crc / 256 := by
    have hshift := Nat.shiftRight_xor_distrib (a := crc) (b := byte) (i := 8)
    rw [Nat.shiftRight_eq_div_pow, Nat.shiftRight_eq_div_pow, Nat.shiftRight_eq_div_pow] at hshift
    rw [show 256 = 2 ^ 8 from rfl, hshift, Nat.div_eq_of_lt hbyte, Nat.xor_zero]
  have hsplit := xor_high_low (crc ^^^ byte)
  have hsum : crc32Byte crc byte = crc32Byte (crc ^^^ byte) 0 := by
    have hxor : Nat.xor (crc ^^^ byte) 0 = Nat.xor crc byte := Nat.xor_zero _
    simp only [crc32Byte, hxor]
  calc crc32Byte crc byte
      = crc32Byte ((256 * (crc / 256)) ^^^ ((crc ^^^ byte) % 256)) (0 ^^^ 0) := by
        rw [hsum, ← hhigh, hsplit, Nat.xor_self]
    _ = crc / 256 ^^^ crc32Byte ((crc ^^^ byte) % 256) 0 := by
        rw [crc32Byte_xor, crc32Byte_shift]
    _ = crc32Byte ((crc ^^^ byte) % 256) 0 ^^^ crc / 256 := Nat.xor_comm _ _

end MBootCore
