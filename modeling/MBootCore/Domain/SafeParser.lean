import MBootCore.Support.Digits
import Mathlib

/-!
# Domain — SafeParser

`SafeParser.hpp`: numbers from text, with the sign, the `0x` prefix and the
range checks the helpers add around `std::from_chars`. A `ParseResult` that is
not `ok` is `none`.
-/

namespace MBootCore.SafeParser

open Digits

def isWhitespace (c : Char) : Bool :=
  c = ' ' || c = '\t' || c = '\n' || c = '\r'

def trimView (s : List Char) : List Char :=
  ((s.dropWhile isWhitespace).reverse.dropWhile isWhitespace).reverse

/-- `std::from_chars` into a `uint64_t`, required to use up its whole range:
at least one digit of the base, nothing but such digits, no overflow. -/
def fromChars (base : Nat) (s : List Char) : Option UInt64 :=
  if s = [] then none
  else
    match readDigits base 0 s with
    | none => none
    | some v => if v < 2 ^ 64 then some (UInt64.ofNat v) else none

/-- The base a `0x` prefix selects, and the text without the prefix. -/
def splitBase : List Char → Nat × List Char
  | '0' :: 'x' :: s => (16, s)
  | '0' :: 'X' :: s => (16, s)
  | s => (10, s)

def fromCharsUint64 (s : List Char) : Option UInt64 :=
  let s := trimView s
  let negative := s.head? = some '-'
  let s := if s.head? = some '+' ∨ negative then s.tail else s
  match fromChars (splitBase s).1 (splitBase s).2 with
  | none => none
  | some result => if negative then none else some result

def fromCharsUint32 (s : List Char) : Option UInt32 :=
  match fromCharsUint64 s with
  | none => none
  | some value => if value.toNat > 0xFFFFFFFF then none else some value.toUInt32

/-! ## Written numbers -/

theorem isWhitespace_digitChar {d : Nat} (h : d < 16) : isWhitespace d.digitChar = false := by
  have : ∀ d : Fin 16, isWhitespace d.val.digitChar = false := by decide
  exact this ⟨d, h⟩

theorem digitChar_ne {d : Nat} (h : d < 16) : d.digitChar ≠ '+' ∧ d.digitChar ≠ '-' ∧
    d.digitChar ≠ 'x' ∧ d.digitChar ≠ 'X' := by
  have : ∀ d : Fin 16, d.val.digitChar ≠ '+' ∧ d.val.digitChar ≠ '-' ∧
    d.val.digitChar ≠ 'x' ∧ d.val.digitChar ≠ 'X' := by decide
  exact this ⟨d, h⟩

theorem dropWhile_isWhitespace {s : List Char} (h : ∀ c ∈ s, isWhitespace c = false) :
    s.dropWhile isWhitespace = s := by
  cases s with
  | nil => rfl
  | cons c s => simp [h c]

theorem trimView_eq_self {s : List Char} (h : ∀ c ∈ s, isWhitespace c = false) :
    trimView s = s := by
  rw [trimView, dropWhile_isWhitespace h, dropWhile_isWhitespace fun c hc =>
    h c (by simpa using hc), List.reverse_reverse]

/-- The whole reader on an unsigned text without blanks. -/
theorem fromCharsUint32_of_readDigits {s digits : List Char} {base : Nat} (n : UInt32)
    (hblank : ∀ c ∈ s, isWhitespace c = false) (hsign : ∀ c, s.head? = some c → c ≠ '+' ∧ c ≠ '-')
    (hbase : splitBase s = (base, digits)) (hne : digits ≠ [])
    (hread : readDigits base 0 digits = some n.toNat) : fromCharsUint32 s = some n := by
  have hn := n.toNat_lt
  have hsome : ¬ (s.head? = some '+' ∨ s.head? = some '-') := by
    rintro (h | h)
    · exact (hsign _ h).1 rfl
    · exact (hsign _ h).2 rfl
  have hminus : ¬ s.head? = some '-' := fun h => hsome (Or.inr h)
  have h64 : (UInt64.ofNat n.toNat).toNat = n.toNat := by
    simp only [UInt64.toNat_ofNat']
    omega
  simp only [fromCharsUint32, fromCharsUint64, trimView_eq_self hblank, if_neg hsome, hbase,
    fromChars, if_neg hne, hread, if_pos (show n.toNat < 2 ^ 64 by omega), if_neg hminus]
  rw [if_neg (by omega)]
  congr 1
  apply UInt32.toNat_inj.mp
  rw [UInt64.toNat_toUInt32, h64]
  omega

theorem splitBase_toDigits (n : Nat) :
    splitBase (Nat.toDigits 10 n) = (10, Nat.toDigits 10 n) := by
  have hdigit (c : Char) (hc : c ∈ Nat.toDigits 10 n) : c ≠ 'x' ∧ c ≠ 'X' := by
    obtain ⟨d, hd, rfl⟩ := mem_toDigits (by decide) hc
    exact (digitChar_ne (by omega)).2.2
  unfold splitBase
  split
  · next s heq =>
    have := hdigit 'x' (by rw [heq]; simp)
    simp at this
  · next s heq =>
    have := hdigit 'X' (by rw [heq]; simp)
    simp at this
  · rfl

/-- `std::to_string` reads back. -/
theorem fromCharsUint32_decimal (n : UInt32) :
    fromCharsUint32 (Nat.toDigits 10 n.toNat) = some n := by
  refine fromCharsUint32_of_readDigits n ?_ ?_ (splitBase_toDigits n.toNat) Nat.toDigits_ne_nil
    (readDigits_toDigits (by decide) (by decide) n.toNat)
  · intro c hc
    obtain ⟨d, hd, rfl⟩ := mem_toDigits (by decide) hc
    exact isWhitespace_digitChar (by omega)
  · intro c hc
    obtain ⟨d, hd, rfl⟩ := mem_toDigits (by decide) (List.mem_of_mem_head? hc)
    exact ⟨(digitChar_ne (by omega)).1, (digitChar_ne (by omega)).2.1⟩

/-- `std::hex` behind a `0x` reads back. -/
theorem fromCharsUint32_hex (n : UInt32) :
    fromCharsUint32 ('0' :: 'x' :: Nat.toDigits 16 n.toNat) = some n := by
  refine fromCharsUint32_of_readDigits n ?_ ?_ rfl Nat.toDigits_ne_nil
    (readDigits_toDigits (by decide) (by decide) n.toNat)
  · intro c hc
    rcases List.mem_cons.mp hc with rfl | hc
    · decide
    rcases List.mem_cons.mp hc with rfl | hc
    · decide
    obtain ⟨d, hd, rfl⟩ := mem_toDigits (by decide) hc
    exact isWhitespace_digitChar hd
  · intro c hc
    obtain rfl : '0' = c := by simpa using hc
    decide

end MBootCore.SafeParser
