import MBootCore.Gpt.Models
import Mathlib

/-!
# Gpt — NameTranscoding

`PartitionEntry::utf8ToUtf16` beside `utf16ToUtf8`. A code point is written and
read by its length class; a surrogate that is not half of a pair goes through both
as a code point of its own. Each is the inverse of the other: on all code units,
and on all UTF-8 strings that are well formed.
-/

namespace MBootCore.PartitionEntry

/-- The bits of a byte behind the first one. -/
def tailBits (b : UInt8) : UInt32 := (b &&& 0x3F).toUInt32

/-- The code point that begins with a byte, and how many more bytes it takes. Bytes
that are not there leave their bits zero. -/
def codePointAt (b : UInt8) (rest : ByteBuffer) : UInt32 × Nat :=
  if b < 0x80 then (b.toUInt32, 0)
  else if b < 0xE0 then
    ((b &&& 0x1F).toUInt32 <<< 6 |||
      match rest with
      | b₁ :: _ => tailBits b₁
      | _ => 0, 1)
  else if b < 0xF0 then
    ((b &&& 0x0F).toUInt32 <<< 12 |||
      match rest with
      | b₁ :: b₂ :: _ => tailBits b₁ <<< 6 ||| tailBits b₂
      | _ => 0, 2)
  else
    ((b &&& 0x07).toUInt32 <<< 18 |||
      match rest with
      | b₁ :: b₂ :: b₃ :: _ => tailBits b₁ <<< 12 ||| (tailBits b₂ <<< 6 ||| tailBits b₃)
      | _ => 0, 3)

/-- A code point that takes more than 16 bits is a surrogate pair. -/
def codePointToUtf16 (cp : UInt32) : List UInt16 :=
  if cp ≤ 0xFFFF then [cp.toUInt16]
  else
    let cp := cp - 0x10000
    [((0xD800 : UInt32) + (cp >>> 10)).toUInt16, ((0xDC00 : UInt32) + (cp &&& 0x3FF)).toUInt16]

def utf8ToUtf16 : ByteBuffer → List UInt16
  | [] => []
  | b :: rest =>
    let (cp, more) := codePointAt b rest
    codePointToUtf16 cp ++ utf8ToUtf16 (rest.drop more)
  termination_by utf8 => utf8.length
  decreasing_by
    rw [List.length_drop, List.length_cons]
    omega

/-! ## Bits as numbers -/

theorem shiftLeft_or_toNat {a b : UInt32} {k : Nat} (hk : k < 32)
    (ha : a.toNat * 2 ^ k < 2 ^ 32) (hb : b.toNat < 2 ^ k) :
    (a <<< UInt32.ofNat k ||| b).toNat = a.toNat * 2 ^ k + b.toNat := by
  have hshift : (UInt32.ofNat k).toNat % 32 = k := by
    rw [UInt32.toNat_ofNat_of_lt' (Nat.lt_trans hk (by decide))]
    exact Nat.mod_eq_of_lt hk
  rw [UInt32.toNat_or, UInt32.toNat_shiftLeft, hshift, Nat.shiftLeft_eq, Nat.mod_eq_of_lt ha,
    Nat.mul_comm, ← Nat.two_pow_add_eq_or_of_lt hb]

theorem leadByte_toNat {mark cp : UInt32} {k a : Nat} (hmark : mark.toNat = 2 ^ k * a)
    (hcp : cp.toNat < 2 ^ k) (hbyte : mark.toNat + 2 ^ k ≤ 256) :
    (leadByte mark cp).toNat = mark.toNat + cp.toNat := by
  have hor : (mark ||| cp).toNat = mark.toNat + cp.toNat := by
    rw [UInt32.toNat_or, hmark, Nat.two_pow_add_eq_or_of_lt hcp]
  rw [leadByte, UInt32.toNat_toUInt8, hor]
  exact Nat.mod_eq_of_lt (by omega)

theorem continuationByte_toNat (cp : UInt32) :
    (continuationByte cp).toNat = 0x80 + cp.toNat % 64 := by
  have hlow : (cp &&& 0x3F).toNat = cp.toNat % 64 := by
    rw [UInt32.toNat_and]
    exact Nat.and_two_pow_sub_one_eq_mod _ 6
  have hbyte : (leadByte 0x80 (cp &&& 0x3F)).toNat = 0x80 + (cp &&& 0x3F).toNat :=
    leadByte_toNat (k := 6) (a := 2) rfl (by rw [hlow]; omega) (by decide)
  rw [continuationByte, hbyte, hlow]

theorem tailBits_toNat (b : UInt8) : (tailBits b).toNat = b.toNat % 64 := by
  rw [tailBits, UInt8.toNat_toUInt32, UInt8.toNat_and]
  exact Nat.and_two_pow_sub_one_eq_mod _ 6

theorem leadBits_toNat {b mask : UInt8} {k : Nat} (hmask : mask.toNat = 2 ^ k - 1) :
    (b &&& mask).toUInt32.toNat = b.toNat % 2 ^ k := by
  rw [UInt8.toNat_toUInt32, UInt8.toNat_and, hmask]
  exact Nat.and_two_pow_sub_one_eq_mod _ k

theorem shiftRight_toNat (cp : UInt32) {k : Nat} (hk : k < 32) :
    (cp >>> UInt32.ofNat k).toNat = cp.toNat / 2 ^ k := by
  have hshift : (UInt32.ofNat k).toNat % 32 = k := by
    rw [UInt32.toNat_ofNat_of_lt' (Nat.lt_trans hk (by decide))]
    exact Nat.mod_eq_of_lt hk
  rw [UInt32.toNat_shiftRight, hshift, Nat.shiftRight_eq_div_pow]

/-! ## One code point -/

theorem codePointToUtf8_two {cp : UInt32} (hlow : 0x80 ≤ cp.toNat) (hhigh : cp.toNat < 0x800) :
    ∃ b₀ b₁, codePointToUtf8 cp = [b₀, b₁] ∧ b₀.toNat = 0xC0 + cp.toNat / 64 ∧
      b₁.toNat = 0x80 + cp.toNat % 64 := by
  have hshift : (cp >>> 6).toNat = cp.toNat / 64 := shiftRight_toNat cp (k := 6) (by decide)
  refine ⟨leadByte 0xC0 (cp >>> 6), continuationByte cp, ?_, ?_, continuationByte_toNat cp⟩
  · simp only [codePointToUtf8, UInt32.lt_iff_toNat_lt, UInt32.reduceToNat]
    rw [if_neg (by omega), if_pos hhigh]
  · rw [leadByte_toNat (k := 5) (a := 6) rfl (by rw [hshift]; omega) (by decide), hshift]
    rfl

theorem codePointToUtf8_three {cp : UInt32} (hlow : 0x800 ≤ cp.toNat)
    (hhigh : cp.toNat < 0x10000) :
    ∃ b₀ b₁ b₂, codePointToUtf8 cp = [b₀, b₁, b₂] ∧ b₀.toNat = 0xE0 + cp.toNat / 4096 ∧
      b₁.toNat = 0x80 + cp.toNat / 64 % 64 ∧ b₂.toNat = 0x80 + cp.toNat % 64 := by
  have hshift : (cp >>> 6).toNat = cp.toNat / 64 := shiftRight_toNat cp (k := 6) (by decide)
  have hlead : (cp >>> 12).toNat = cp.toNat / 4096 := shiftRight_toNat cp (k := 12) (by decide)
  refine ⟨leadByte 0xE0 (cp >>> 12), continuationByte (cp >>> 6), continuationByte cp, ?_, ?_, ?_,
    continuationByte_toNat cp⟩
  · simp only [codePointToUtf8, UInt32.lt_iff_toNat_lt, UInt32.reduceToNat]
    rw [if_neg (by omega), if_neg (by omega), if_pos hhigh]
  · rw [leadByte_toNat (k := 4) (a := 14) rfl (by rw [hlead]; omega) (by decide), hlead]
    rfl
  · rw [continuationByte_toNat, hshift]

theorem codePointToUtf8_four {cp : UInt32} (hlow : 0x10000 ≤ cp.toNat)
    (hhigh : cp.toNat < 0x200000) :
    ∃ b₀ b₁ b₂ b₃, codePointToUtf8 cp = [b₀, b₁, b₂, b₃] ∧
      b₀.toNat = 0xF0 + cp.toNat / 262144 ∧ b₁.toNat = 0x80 + cp.toNat / 4096 % 64 ∧
      b₂.toNat = 0x80 + cp.toNat / 64 % 64 ∧ b₃.toNat = 0x80 + cp.toNat % 64 := by
  have hshift : (cp >>> 6).toNat = cp.toNat / 64 := shiftRight_toNat cp (k := 6) (by decide)
  have hshift' : (cp >>> 12).toNat = cp.toNat / 4096 := shiftRight_toNat cp (k := 12) (by decide)
  have hlead : (cp >>> 18).toNat = cp.toNat / 262144 := shiftRight_toNat cp (k := 18) (by decide)
  refine ⟨leadByte 0xF0 (cp >>> 18), continuationByte (cp >>> 12), continuationByte (cp >>> 6),
    continuationByte cp, ?_, ?_, ?_, ?_, continuationByte_toNat cp⟩
  · simp only [codePointToUtf8, UInt32.lt_iff_toNat_lt, UInt32.reduceToNat]
    rw [if_neg (by omega), if_neg (by omega), if_neg (by omega)]
  · rw [leadByte_toNat (k := 3) (a := 30) rfl (by rw [hlead]; omega) (by decide), hlead]
    rfl
  · rw [continuationByte_toNat, hshift']
  · rw [continuationByte_toNat, hshift]

/-- What is read from the first byte is the code point that was written. -/
theorem utf8ToUtf16_codePointToUtf8 {cp : UInt32} (hcp : cp.toNat < 0x200000)
    (rest : ByteBuffer) :
    utf8ToUtf16 (codePointToUtf8 cp ++ rest) = codePointToUtf16 cp ++ utf8ToUtf16 rest := by
  suffices hread : ∃ b tail, codePointToUtf8 cp = b :: tail ∧
      codePointAt b (tail ++ rest) = (cp, tail.length) by
    obtain ⟨b, tail, hbytes, hat⟩ := hread
    rw [hbytes, List.cons_append, utf8ToUtf16.eq_2, hat]
    simp
  rcases Nat.lt_or_ge cp.toNat 0x80 with hone | hone
  · have hbyte : cp.toUInt8.toNat = cp.toNat := by
      rw [UInt32.toNat_toUInt8]
      exact Nat.mod_eq_of_lt (by omega)
    refine ⟨cp.toUInt8, [], ?_, ?_⟩
    · simp only [codePointToUtf8, UInt32.lt_iff_toNat_lt, UInt32.reduceToNat]
      rw [if_pos hone]
    · simp only [codePointAt, UInt8.lt_iff_toNat_lt, hbyte, UInt8.reduceToNat, if_pos hone]
      rw [Prod.mk.injEq]
      refine ⟨UInt32.toNat_inj.mp ?_, rfl⟩
      rw [UInt8.toNat_toUInt32, hbyte]
  rcases Nat.lt_or_ge cp.toNat 0x800 with htwo | htwo
  · obtain ⟨b₀, b₁, hbytes, hb₀, hb₁⟩ := codePointToUtf8_two hone htwo
    have hlead : (b₀ &&& 0x1F).toUInt32.toNat = cp.toNat / 64 := by
      rw [leadBits_toNat (k := 5) rfl]
      omega
    refine ⟨b₀, [b₁], hbytes, ?_⟩
    simp only [codePointAt, UInt8.lt_iff_toNat_lt, UInt8.reduceToNat]
    rw [if_neg (by omega), if_pos (by omega), Prod.mk.injEq]
    refine ⟨UInt32.toNat_inj.mp ?_, rfl⟩
    have hvalue := shiftLeft_or_toNat (a := (b₀ &&& 0x1F).toUInt32) (b := tailBits b₁) (k := 6)
      (by decide) (by omega) (by rw [tailBits_toNat]; omega)
    rw [tailBits_toNat, hlead] at hvalue
    exact hvalue.trans (by omega)
  rcases Nat.lt_or_ge cp.toNat 0x10000 with hthree | hthree
  · obtain ⟨b₀, b₁, b₂, hbytes, hb₀, hb₁, hb₂⟩ := codePointToUtf8_three htwo hthree
    have hlead : (b₀ &&& 0x0F).toUInt32.toNat = cp.toNat / 4096 := by
      rw [leadBits_toNat (k := 4) rfl]
      omega
    refine ⟨b₀, [b₁, b₂], hbytes, ?_⟩
    simp only [codePointAt, UInt8.lt_iff_toNat_lt, UInt8.reduceToNat]
    rw [if_neg (by omega), if_neg (by omega), if_pos (by omega), Prod.mk.injEq]
    refine ⟨UInt32.toNat_inj.mp ?_, rfl⟩
    have htail : (tailBits b₁ <<< 6 ||| tailBits b₂).toNat = cp.toNat % 4096 := by
      have hor := shiftLeft_or_toNat (a := tailBits b₁) (b := tailBits b₂) (k := 6) (by decide)
        (by rw [tailBits_toNat]; omega) (by rw [tailBits_toNat]; omega)
      rw [tailBits_toNat, tailBits_toNat] at hor
      exact hor.trans (by omega)
    have hvalue := shiftLeft_or_toNat (a := (b₀ &&& 0x0F).toUInt32)
      (b := tailBits b₁ <<< 6 ||| tailBits b₂) (k := 12) (by decide) (by omega) (by omega)
    rw [htail, hlead] at hvalue
    exact hvalue.trans (by omega)
  · obtain ⟨b₀, b₁, b₂, b₃, hbytes, hb₀, hb₁, hb₂, hb₃⟩ := codePointToUtf8_four hthree hcp
    have hlead : (b₀ &&& 0x07).toUInt32.toNat = cp.toNat / 262144 := by
      rw [leadBits_toNat (k := 3) rfl]
      omega
    refine ⟨b₀, [b₁, b₂, b₃], hbytes, ?_⟩
    simp only [codePointAt, UInt8.lt_iff_toNat_lt, UInt8.reduceToNat]
    rw [if_neg (by omega), if_neg (by omega), if_neg (by omega), Prod.mk.injEq]
    refine ⟨UInt32.toNat_inj.mp ?_, rfl⟩
    have htail : (tailBits b₂ <<< 6 ||| tailBits b₃).toNat = cp.toNat % 4096 := by
      have hor := shiftLeft_or_toNat (a := tailBits b₂) (b := tailBits b₃) (k := 6) (by decide)
        (by rw [tailBits_toNat]; omega) (by rw [tailBits_toNat]; omega)
      rw [tailBits_toNat, tailBits_toNat] at hor
      exact hor.trans (by omega)
    have htails : (tailBits b₁ <<< 12 ||| (tailBits b₂ <<< 6 ||| tailBits b₃)).toNat
        = cp.toNat % 262144 := by
      have hor := shiftLeft_or_toNat (a := tailBits b₁)
        (b := tailBits b₂ <<< 6 ||| tailBits b₃) (k := 12) (by decide)
        (by rw [tailBits_toNat]; omega) (by omega)
      rw [htail, tailBits_toNat] at hor
      exact hor.trans (by omega)
    have hvalue := shiftLeft_or_toNat (a := (b₀ &&& 0x07).toUInt32)
      (b := tailBits b₁ <<< 12 ||| (tailBits b₂ <<< 6 ||| tailBits b₃)) (k := 18) (by decide)
      (by omega) (by omega)
    rw [htails, hlead] at hvalue
    exact hvalue.trans (by omega)

/-! ## Surrogates -/

theorem codePointToUtf16_unit (unit : UInt16) : codePointToUtf16 unit.toUInt32 = [unit] := by
  have hsmall : unit.toUInt32 ≤ 0xFFFF := by
    rw [UInt32.le_iff_toNat_le, UInt16.toNat_toUInt32]
    exact Nat.le_of_lt_succ unit.toNat_lt
  rw [codePointToUtf16, if_pos hsmall, UInt16.toUInt16_toUInt32]

/-- The code point of a surrogate pair, and the pair of a code point. -/
def pairCodePoint (unit low : UInt16) : UInt32 :=
  (0x10000 : UInt32) + ((unit.toUInt32 - 0xD800) <<< 10) + (low.toUInt32 - 0xDC00)

theorem pairCodePoint_toNat {unit low : UInt16} (hunit : 0xD800 ≤ unit ∧ unit ≤ 0xDBFF)
    (hlow : 0xDC00 ≤ low ∧ low ≤ 0xDFFF) :
    (pairCodePoint unit low).toNat
      = 0x10000 + (unit.toNat - 0xD800) * 1024 + (low.toNat - 0xDC00) := by
  obtain ⟨hu, hu'⟩ := hunit
  obtain ⟨hl, hl'⟩ := hlow
  rw [UInt16.le_iff_toNat_le] at hu hu' hl hl'
  simp only [UInt16.reduceToNat] at hu hu' hl hl'
  have hhigh : (unit.toUInt32 - 0xD800).toNat = unit.toNat - 0xD800 := by
    rw [UInt32.toNat_sub_of_le _ _
        (by rw [UInt32.le_iff_toNat_le, UInt16.toNat_toUInt32]; exact hu),
      UInt16.toNat_toUInt32]
    rfl
  have hlowBits : (low.toUInt32 - 0xDC00).toNat = low.toNat - 0xDC00 := by
    rw [UInt32.toNat_sub_of_le _ _
        (by rw [UInt32.le_iff_toNat_le, UInt16.toNat_toUInt32]; exact hl),
      UInt16.toNat_toUInt32]
    rfl
  have hshift : ((unit.toUInt32 - 0xD800) <<< 10).toNat = (unit.toNat - 0xD800) * 1024 := by
    rw [UInt32.toNat_shiftLeft, hhigh, Nat.shiftLeft_eq]
    exact Nat.mod_eq_of_lt (by simp; omega)
  rw [pairCodePoint, UInt32.toNat_add, UInt32.toNat_add, hshift, hlowBits]
  simp only [UInt32.reduceToNat]
  omega

theorem codePointToUtf16_large {cp : UInt32} (hlow : 0x10000 ≤ cp.toNat)
    (hhigh : cp.toNat < 0x110000) :
    ∃ unit low, codePointToUtf16 cp = [unit, low] ∧
      unit.toNat = 0xD800 + (cp.toNat - 0x10000) / 1024 ∧
      low.toNat = 0xDC00 + (cp.toNat - 0x10000) % 1024 := by
  have hless : (cp - 0x10000).toNat = cp.toNat - 0x10000 := by
    rw [UInt32.toNat_sub_of_le _ _
        (by rw [UInt32.le_iff_toNat_le]; exact hlow)]
    rfl
  have hshift : ((cp - 0x10000) >>> 10).toNat = (cp.toNat - 0x10000) / 1024 := by
    have hdiv := shiftRight_toNat (cp - 0x10000) (k := 10) (by decide)
    rw [hless] at hdiv
    exact hdiv
  have hmask : ((cp - 0x10000) &&& 0x3FF).toNat = (cp.toNat - 0x10000) % 1024 := by
    rw [UInt32.toNat_and, hless]
    exact Nat.and_two_pow_sub_one_eq_mod _ 10
  have hpair : ¬ cp ≤ 0xFFFF := by
    simp only [UInt32.le_iff_toNat_le, UInt32.reduceToNat]
    omega
  rw [codePointToUtf16, if_neg hpair]
  refine ⟨_, _, rfl, ?_, ?_⟩
  · simp only [UInt32.toNat_toUInt16, UInt32.toNat_add, hshift, UInt32.reduceToNat]
    omega
  · simp only [UInt32.toNat_toUInt16, UInt32.toNat_add, hmask, UInt32.reduceToNat]
    omega

theorem codePointToUtf16_pair {unit low : UInt16} (hunit : 0xD800 ≤ unit ∧ unit ≤ 0xDBFF)
    (hlow : 0xDC00 ≤ low ∧ low ≤ 0xDFFF) :
    codePointToUtf16 (pairCodePoint unit low) = [unit, low] := by
  have hcp := pairCodePoint_toNat hunit hlow
  obtain ⟨hu, hu'⟩ := hunit
  obtain ⟨hl, hl'⟩ := hlow
  rw [UInt16.le_iff_toNat_le] at hu hu' hl hl'
  simp only [UInt16.reduceToNat] at hu hu' hl hl'
  have hlarge : 0x10000 ≤ (pairCodePoint unit low).toNat := by omega
  have hrange : (pairCodePoint unit low).toNat < 0x110000 := by omega
  obtain ⟨unit', low', hpair, hunit', hlow'⟩ := codePointToUtf16_large hlarge hrange
  have heq : unit' = unit := UInt16.toNat_inj.mp (by omega)
  have heq' : low' = low := UInt16.toNat_inj.mp (by omega)
  rw [hpair, heq, heq']

/-- A code point that is no surrogate is written by itself, whatever units follow. -/
theorem utf16ToUtf8_codePointToUtf16 {cp : UInt32} (hcp : cp.toNat.isValidChar)
    (units : List UInt16) :
    utf16ToUtf8 (codePointToUtf16 cp ++ units) = codePointToUtf8 cp ++ utf16ToUtf8 units := by
  rcases Nat.lt_or_ge cp.toNat 0x10000 with hsmall | hlarge
  · have hunit : cp.toUInt16.toNat = cp.toNat := by
      rw [UInt32.toNat_toUInt16]
      exact Nat.mod_eq_of_lt hsmall
    have hback : cp.toUInt16.toUInt32 = cp :=
      UInt32.toNat_inj.mp ((UInt16.toNat_toUInt32 _).trans hunit)
    rw [codePointToUtf16, if_pos (UInt32.le_iff_toNat_le.mpr (Nat.le_of_lt_succ hsmall)),
      List.singleton_append]
    cases units with
    | nil => simp only [utf16ToUtf8, hback, List.append_nil]
    | cons low units =>
      have hscalar : ¬ (0xD800 ≤ cp.toUInt16 ∧ cp.toUInt16 ≤ 0xDBFF ∧ 0xDC00 ≤ low ∧
          low ≤ 0xDFFF) := by
        rintro ⟨hge, hle, -⟩
        simp only [UInt16.le_iff_toNat_le, hunit, UInt16.reduceToNat] at hge hle
        rcases hcp with hcp | hcp <;> omega
      rw [utf16ToUtf8, if_neg hscalar, hback]
  · have hrange : cp.toNat < 0x110000 := by
      rcases hcp with hcp | hcp <;> omega
    obtain ⟨unit, low, hpair, hunit, hlow⟩ := codePointToUtf16_large hlarge hrange
    have hsurrogates : (0xD800 ≤ unit ∧ unit ≤ 0xDBFF) ∧ 0xDC00 ≤ low ∧ low ≤ 0xDFFF := by
      simp only [UInt16.le_iff_toNat_le, UInt16.reduceToNat]
      omega
    have hback : pairCodePoint unit low = cp := by
      apply UInt32.toNat_inj.mp
      rw [pairCodePoint_toNat hsurrogates.1 hsurrogates.2]
      omega
    rw [hpair, List.cons_append, List.singleton_append, utf16ToUtf8,
      if_pos ⟨hsurrogates.1.1, hsurrogates.1.2, hsurrogates.2⟩]
    show codePointToUtf8 (pairCodePoint unit low) ++ _ = _
    rw [hback]

/-! ## UTF-8 strings -/

theorem utf8EncodeChar_eq (c : Char) : String.utf8EncodeChar c = codePointToUtf8 c.val := by
  have hrange : c.val.toNat < 0x110000 := by
    rcases c.valid with h | h
    · exact Nat.lt_trans h (by decide)
    · exact h.2
  rw [String.utf8EncodeChar]
  rcases Nat.lt_or_ge c.val.toNat 0x80 with hone | hone
  · rw [if_pos (by omega), codePointToUtf8, if_pos (UInt32.lt_iff_toNat_lt.mpr hone)]
    rfl
  rcases Nat.lt_or_ge c.val.toNat 0x800 with htwo | htwo
  · obtain ⟨b₀, b₁, hbytes, hb₀, hb₁⟩ := codePointToUtf8_two hone htwo
    rw [if_neg (by omega), if_pos (by omega), hbytes]
    simp only [List.cons.injEq, and_true, ← UInt8.toNat_inj, UInt8.toNat_ofNat']
    omega
  rcases Nat.lt_or_ge c.val.toNat 0x10000 with hthree | hthree
  · obtain ⟨b₀, b₁, b₂, hbytes, hb₀, hb₁, hb₂⟩ := codePointToUtf8_three htwo hthree
    rw [if_neg (by omega), if_neg (by omega), if_pos (by omega), hbytes]
    simp only [List.cons.injEq, and_true, ← UInt8.toNat_inj, UInt8.toNat_ofNat']
    omega
  · obtain ⟨b₀, b₁, b₂, b₃, hbytes, hb₀, hb₁, hb₂, hb₃⟩ :=
      codePointToUtf8_four hthree (by omega)
    rw [if_neg (by omega), if_neg (by omega), if_neg (by omega), hbytes]
    simp only [List.cons.injEq, and_true, ← UInt8.toNat_inj, UInt8.toNat_ofNat']
    omega

/-- The bytes are those of a sequence of Unicode scalar values. -/
def WellFormedUtf8 (utf8 : ByteBuffer) : Prop :=
  ∃ scalars : List Char, scalars.flatMap String.utf8EncodeChar = utf8

theorem utf8ToUtf16_utf16ToUtf8 (utf16 : List UInt16) :
    utf8ToUtf16 (utf16ToUtf8 utf16) = utf16 := by
  have hunit : ∀ (unit : UInt16) (rest : ByteBuffer),
      utf8ToUtf16 (codePointToUtf8 unit.toUInt32 ++ rest) = unit :: utf8ToUtf16 rest := by
    intro unit rest
    have hsmall : unit.toUInt32.toNat < 0x200000 := by
      rw [UInt16.toNat_toUInt32]
      exact Nat.lt_trans unit.toNat_lt (by decide)
    rw [utf8ToUtf16_codePointToUtf8 hsmall, codePointToUtf16_unit]
    rfl
  induction utf16 using utf16ToUtf8.induct with
  | case1 => rw [utf16ToUtf8, utf8ToUtf16]
  | case2 unit =>
    have hlast := hunit unit []
    rw [List.append_nil, utf8ToUtf16.eq_1] at hlast
    rw [utf16ToUtf8, hlast]
  | case3 unit low rest hpair ih =>
    obtain ⟨hu, hu', hl, hl'⟩ := hpair
    have hcp := pairCodePoint_toNat ⟨hu, hu'⟩ ⟨hl, hl'⟩
    have hrange : (pairCodePoint unit low).toNat < 0x200000 := by
      simp only [UInt16.le_iff_toNat_le, UInt16.reduceToNat] at hu' hl'
      omega
    rw [utf16ToUtf8, if_pos ⟨hu, hu', hl, hl'⟩]
    show utf8ToUtf16 (codePointToUtf8 (pairCodePoint unit low) ++ _) = _
    rw [utf8ToUtf16_codePointToUtf8 hrange, codePointToUtf16_pair ⟨hu, hu'⟩ ⟨hl, hl'⟩, ih]
    rfl
  | case4 unit low rest hpair ih =>
    rw [utf16ToUtf8, if_neg hpair, hunit, ih]

theorem utf16ToUtf8_utf8ToUtf16 {utf8 : ByteBuffer} (h : WellFormedUtf8 utf8) :
    utf16ToUtf8 (utf8ToUtf16 utf8) = utf8 := by
  obtain ⟨scalars, rfl⟩ := h
  induction scalars with
  | nil =>
    rw [List.flatMap_nil, utf8ToUtf16, utf16ToUtf8]
  | cons c scalars ih =>
    have hrange : c.val.toNat < 0x200000 := by
      rcases c.valid with h | h
      · exact Nat.lt_trans h (by decide)
      · exact Nat.lt_trans h.2 (by decide)
    rw [List.flatMap_cons, utf8EncodeChar_eq, utf8ToUtf16_codePointToUtf8 hrange,
      utf16ToUtf8_codePointToUtf16 c.valid, ih]

/-- Each transcoding undoes the other. -/
theorem transcoding_roundTrip :
    (∀ utf16, utf8ToUtf16 (utf16ToUtf8 utf16) = utf16) ∧
      ∀ utf8, WellFormedUtf8 utf8 → utf16ToUtf8 (utf8ToUtf16 utf8) = utf8 :=
  ⟨utf8ToUtf16_utf16ToUtf8, fun _ => utf16ToUtf8_utf8ToUtf16⟩

/-- A code point of four bytes, a surrogate pair in between. -/
theorem transcoding_fourBytes :
    utf16ToUtf8 (utf8ToUtf16 [0xF0, 0x9F, 0x98, 0x80]) = [0xF0, 0x9F, 0x98, 0x80] := by
  have hwellFormed : WellFormedUtf8 [0xF0, 0x9F, 0x98, 0x80] := ⟨[Char.ofNat 0x1F600], by decide⟩
  exact transcoding_roundTrip.2 _ hwellFormed

end MBootCore.PartitionEntry
