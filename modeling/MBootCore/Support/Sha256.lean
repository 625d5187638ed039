import Mathlib

/-!
# Sha256 — the standard's hash function on byte sequences

SHA-256 as FIPS 180-4 defines it: the constants from the roots of the first primes, padding,
the message schedule, the rounds, and the digest as hexadecimal text. A message of `2^61` bytes
or more, which the standard does not cover, has its length modulo `2^64` bits.

`hashBlocks` compresses block after block; a caller that collects bytes into blocks works with
`hashBlocks_block` and `hashBlocks_append`.
-/

namespace MBootCore.Sha256

/-! ## Constants -/

/-- The first 32 bits of the fractional part of the root of `p` of degree `d`. -/
def rootWord (d p : Nat) : UInt32 :=
  UInt32.ofNat (Nat.findGreatest (fun r => r ^ d ≤ p * 2 ^ (32 * d)) (p * 2 ^ 32))

def primes : List Nat := [
  2, 3, 5, 7, 11, 13, 17, 19, 23, 29, 31, 37, 41, 43, 47, 53, 59, 61, 67, 71, 73, 79, 83, 89, 97,
  101, 103, 107, 109, 113, 127, 131, 137, 139, 149, 151, 157, 163, 167, 173, 179, 181, 191, 193,
  197, 199, 211, 223, 227, 229, 233, 239, 241, 251, 257, 263, 269, 271, 277, 281, 283, 293, 307,
  311]

/-- The constants of the rounds. -/
def K (t : Nat) : UInt32 := rootWord 3 (primes.getD t 0)

structure Hash where
  a : UInt32
  b : UInt32
  c : UInt32
  d : UInt32
  e : UInt32
  f : UInt32
  g : UInt32
  h : UInt32
  deriving DecidableEq, Repr

def initial : Hash where
  a := rootWord 2 2
  b := rootWord 2 3
  c := rootWord 2 5
  d := rootWord 2 7
  e := rootWord 2 11
  f := rootWord 2 13
  g := rootWord 2 17
  h := rootWord 2 19

/-- A root is known from the bounds on it: `whole` is its integral part. -/
theorem rootWord_eq {d p whole : Nat} {word : UInt32}
    (hle : (whole * 2 ^ 32 + word.toNat) ^ d ≤ p * 2 ^ (32 * d))
    (hlt : p * 2 ^ (32 * d) < (whole * 2 ^ 32 + word.toNat + 1) ^ d) (hp : whole < p) :
    rootWord d p = word := by
  have hroot : Nat.findGreatest (fun r => r ^ d ≤ p * 2 ^ (32 * d)) (p * 2 ^ 32)
      = whole * 2 ^ 32 + word.toNat := by
    have hword := word.toNat_lt
    rw [Nat.findGreatest_eq_iff]
    refine ⟨by omega, fun _ => hle, ?_⟩
    intro r hr _ hroot
    exact absurd ((Nat.pow_le_pow_left hr d).trans hroot) (Nat.not_le.mpr hlt)
  rw [rootWord, hroot, ← UInt32.toNat_inj, UInt32.toNat_ofNat']
  have hword := word.toNat_lt
  omega

/-! ## The functions of the rounds -/

def rotr (n : UInt32) (x : UInt32) : UInt32 := (x >>> n) ||| (x <<< (32 - n))

def ch (x y z : UInt32) : UInt32 := (x &&& y) ^^^ (~~~x &&& z)

def maj (x y z : UInt32) : UInt32 := (x &&& y) ^^^ (x &&& z) ^^^ (y &&& z)

def bigSigma0 (x : UInt32) : UInt32 := rotr 2 x ^^^ rotr 13 x ^^^ rotr 22 x

def bigSigma1 (x : UInt32) : UInt32 := rotr 6 x ^^^ rotr 11 x ^^^ rotr 25 x

def smallSigma0 (x : UInt32) : UInt32 := rotr 7 x ^^^ rotr 18 x ^^^ (x >>> 3)

def smallSigma1 (x : UInt32) : UInt32 := rotr 17 x ^^^ rotr 19 x ^^^ (x >>> 10)

/-! ## Compression -/

/-- The `t`-th word of a block, most significant byte first. -/
def messageWord (block : List UInt8) (t : Nat) : UInt32 :=
  UInt32.ofNat ((block.getD (t * 4) 0).toNat * 2 ^ 24 + (block.getD (t * 4 + 1) 0).toNat * 2 ^ 16 +
    (block.getD (t * 4 + 2) 0).toNat * 2 ^ 8 + (block.getD (t * 4 + 3) 0).toNat)

def schedule (M : Nat → UInt32) (t : Nat) : UInt32 :=
  if t < 16 then M t
  else smallSigma1 (schedule M (t - 2)) + schedule M (t - 7) + smallSigma0 (schedule M (t - 15))
    + schedule M (t - 16)
termination_by t

def round (K W : UInt32) (v : Hash) : Hash :=
  let T1 := v.h + bigSigma1 v.e + ch v.e v.f v.g + K + W
  let T2 := bigSigma0 v.a + maj v.a v.b v.c
  { a := T1 + T2, b := v.a, c := v.b, d := v.c, e := v.d + T1, f := v.e, g := v.f, h := v.g }

def add (H v : Hash) : Hash where
  a := H.a + v.a
  b := H.b + v.b
  c := H.c + v.c
  d := H.d + v.d
  e := H.e + v.e
  f := H.f + v.f
  g := H.g + v.g
  h := H.h + v.h

def compress (H : Hash) (block : List UInt8) : Hash :=
  add H ((List.range 64).foldl (fun v t => round (K t) (schedule (messageWord block) t) v) H)

theorem schedule_of_lt (M : Nat → UInt32) {t : Nat} (h : t < 16) : schedule M t = M t := by
  rw [schedule, if_pos h]

theorem schedule_of_ge (M : Nat → UInt32) {t : Nat} (h : 16 ≤ t) :
    schedule M t = smallSigma1 (schedule M (t - 2)) + schedule M (t - 7)
      + smallSigma0 (schedule M (t - 15)) + schedule M (t - 16) := by
  rw [schedule, if_neg (Nat.not_lt.mpr h)]

/-! ## Padding -/

/-- The zero bytes behind the byte that starts the padding. -/
def zeroBytes (n : Nat) : Nat := (119 - n % 64) % 64

/-- They are as few as make room for the length at the end of a block. -/
theorem zeroBytes_least (n : Nat) :
    (n + 1 + zeroBytes n) % 64 = 56 ∧ ∀ k, (n + 1 + k) % 64 = 56 → zeroBytes n ≤ k := by
  unfold zeroBytes
  constructor
  · omega
  · intro k hk
    omega

/-- The length in bits, as eight bytes, most significant first. -/
def lengthBytes (n : Nat) : List UInt8 :=
  [7, 6, 5, 4, 3, 2, 1, 0].map fun i => UInt8.ofNat (8 * n / 256 ^ i)

/-- The message and its padding, up to the length. -/
def body (message : List UInt8) : List UInt8 :=
  message ++ 0x80 :: List.replicate (zeroBytes message.length) 0

def pad (message : List UInt8) : List UInt8 := body message ++ lengthBytes message.length

theorem length_body (message : List UInt8) : (body message).length % 64 = 56 := by
  have h := (zeroBytes_least message.length).1
  rw [body, List.length_append, List.length_cons, List.length_replicate]
  omega

/-! ## Block after block -/

/-- The blocks of 64 bytes, compressed in order. -/
def hashBlocks (H : Hash) (bytes : List UInt8) : Hash :=
  if bytes.length < 64 then H else hashBlocks (compress H (bytes.take 64)) (bytes.drop 64)
termination_by bytes.length
decreasing_by
  rw [List.length_drop]
  omega

theorem hashBlocks_short {bytes : List UInt8} (h : bytes.length < 64) (H : Hash) :
    hashBlocks H bytes = H := by
  rw [hashBlocks, if_pos h]

theorem hashBlocks_block {block : List UInt8} (h : block.length = 64) (H : Hash)
    (bytes : List UInt8) :
    hashBlocks H (block ++ bytes) = hashBlocks (compress H block) bytes := by
  rw [hashBlocks, if_neg (by rw [List.length_append]; omega), List.take_left' h,
    List.drop_left' h]

/-- Whole blocks first, then the others. -/
theorem hashBlocks_append (H : Hash) {front : List UInt8} (h : front.length % 64 = 0)
    (bytes : List UInt8) :
    hashBlocks H (front ++ bytes) = hashBlocks (hashBlocks H front) bytes := by
  induction hn : front.length using Nat.strongRecOn generalizing H front with
  | ind n ih =>
    by_cases hshort : front.length < 64
    · obtain rfl : front = [] := List.length_eq_zero_iff.mp (by omega)
      rw [List.nil_append, hashBlocks_short hshort]
    · obtain ⟨block, rest, rfl, hblock⟩ :
          ∃ block rest, front = block ++ rest ∧ block.length = 64 :=
        ⟨front.take 64, front.drop 64, (List.take_append_drop 64 front).symm, by
          rw [List.length_take]; omega⟩
      rw [List.length_append] at h hn
      rw [List.append_assoc, hashBlocks_block hblock, hashBlocks_block hblock,
        ih rest.length (by omega) _ (by omega) rfl]

theorem hashBlocks_singleton {block : List UInt8} (h : block.length = 64) (H : Hash) :
    hashBlocks H block = compress H block := by
  have hblock := hashBlocks_block h H []
  rw [List.append_nil, @hashBlocks_short [] (by decide)] at hblock
  exact hblock

/-! ## The digest -/

def hash (message : List UInt8) : Hash := hashBlocks initial (pad message)

/-- The last digits of a number. -/
def hexDigits : Nat → Nat → List Char
  | 0, _ => []
  | w + 1, n => hexDigits w (n / 16) ++ [(n % 16).digitChar]

def words (H : Hash) : List UInt32 := [H.a, H.b, H.c, H.d, H.e, H.f, H.g, H.h]

def hexText (H : Hash) : List Char := (words H).flatMap fun word => hexDigits 8 word.toNat

def hexDigest (message : List UInt8) : String := String.ofList (hexText (hash message))

@[simp] theorem length_hexDigits (w n : Nat) : (hexDigits w n).length = w := by
  induction w generalizing n with
  | zero => rfl
  | succ w ih => simp [hexDigits, ih]

theorem digitChar_inj {m n : Nat} (hm : m < 16) (hn : n < 16)
    (h : m.digitChar = n.digitChar) : m = n := by
  have hall : ∀ m n : Fin 16, m.val.digitChar = n.val.digitChar → m = n := by decide
  exact congrArg Fin.val (hall ⟨m, hm⟩ ⟨n, hn⟩ h)

theorem hexDigits_inj {w m n : Nat} (hm : m < 16 ^ w) (hn : n < 16 ^ w)
    (h : hexDigits w m = hexDigits w n) : m = n := by
  induction w generalizing m n with
  | zero =>
    rw [Nat.pow_zero, Nat.lt_one_iff] at hm hn
    rw [hm, hn]
  | succ w ih =>
    rw [Nat.pow_succ] at hm hn
    obtain ⟨hfront, hlast⟩ := List.append_inj h (by simp)
    have hdiv := ih (by omega) (by omega) hfront
    have hmod := digitChar_inj (Nat.mod_lt m (by decide)) (Nat.mod_lt n (by decide))
      (List.singleton_injective hlast)
    omega

theorem flatMap_hexDigits_inj {xs ys : List UInt32} (hlength : xs.length = ys.length)
    (h : xs.flatMap (fun x => hexDigits 8 x.toNat) = ys.flatMap fun y => hexDigits 8 y.toNat) :
    xs = ys := by
  induction xs generalizing ys with
  | nil => exact (List.length_eq_zero_iff.mp hlength.symm).symm
  | cons x xs ih =>
    cases ys with
    | nil => cases hlength
    | cons y ys =>
      rw [List.flatMap_cons, List.flatMap_cons] at h
      obtain ⟨hhead, htail⟩ := List.append_inj h (by simp)
      have hxy : x = y := UInt32.toNat_inj.mp (hexDigits_inj x.toNat_lt y.toNat_lt hhead)
      rw [hxy, ih (Nat.succ.inj hlength) htail]

/-- The text is a digest's own. -/
theorem hexText_inj {H H' : Hash} (h : hexText H = hexText H') : H = H' := by
  have hwords : words H = words H' := flatMap_hexDigits_inj rfl h
  obtain ⟨a, b, c, d, e, f, g, h⟩ := H
  obtain ⟨a', b', c', d', e', f', g', h'⟩ := H'
  simpa [words] using hwords

/-! ## Collisions -/

/-- Two blocks that differ and are compressed to the same value. -/
def Collision (H : Hash) (block block' : List UInt8) : Prop :=
  block ≠ block' ∧ compress H block = compress H block'

end MBootCore.Sha256
