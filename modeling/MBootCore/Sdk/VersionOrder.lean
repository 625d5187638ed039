import MBootCore.Sdk.Version
import MBootCore.Support.Lexicographic
import Mathlib.Data.Char
import Mathlib.Data.Prod.Lex
import Mathlib.Data.Sum.Order
import Mathlib.Order.WithBot

/-!
# Sdk — VersionOrder

`SemanticVersion::compare` against the precedence of SemVer 2.0. Each is the order of a key: that
of the standard has the identifiers of a prerelease, that of the code the prerelease as a string
(`compare_eq`). They differ where the first identifiers that differ do not compare as their bytes
do (`precedence_iff`).
-/

namespace MBootCore.SemanticVersion

open Digits Lexicographic

/-! ## The precedence of the standard -/

/-- The number that an identifier writes, without leading zeros. -/
def numericValue (identifier : List Char) : Option Nat :=
  (readDigits 10 0 identifier).filter fun n => Nat.toDigits 10 n = identifier

/-- Numbers compare as numbers, and come before identifiers that are none. -/
def identifierKey (identifier : List Char) : ℕ ⊕ₗ List Char :=
  match numericValue identifier with
  | some n => toLex (.inl n)
  | none => toLex (.inr identifier)

/-- The identifiers of a prerelease. -/
def identifiers (preRelease : List Char) : List (List Char) := preRelease.splitOn '.'

def keys (preRelease : List Char) : List (ℕ ⊕ₗ List Char) :=
  (identifiers preRelease).map identifierKey

/-- A release comes after its prereleases. -/
def released {α : Type} (preRelease : List Char) (key : α) : WithTop α :=
  if preRelease = [] then ⊤ else key

abbrev Key (α : Type) : Type := ℕ ×ₗ ℕ ×ₗ ℕ ×ₗ WithTop α

def keyWith {α : Type} (f : List Char → α) (v : SemanticVersion) : Key α :=
  toLex (v.major.toNat, toLex (v.minor.toNat, toLex (v.patch.toNat,
    released v.preRelease (f v.preRelease))))

/-- What the precedence of a version depends on; build metadata is not in it. -/
def precedenceKey (v : SemanticVersion) : Key (List (ℕ ⊕ₗ List Char)) := keyWith keys v

def sign {α : Type} [LinearOrder α] (a b : α) : Int := if a < b then -1 else if b < a then 1 else 0

/-- `compare` is a total preorder, here of three versions, and the precedence of two. -/
structure Precedence (u v w : SemanticVersion) : Prop where
  refl : compare u u = 0
  total : compare u v ≤ 0 ∨ compare v u ≤ 0
  trans : compare u v ≤ 0 → compare v w ≤ 0 → compare u w ≤ 0
  precedes : compare u v = sign (precedenceKey u) (precedenceKey v)

/-! ## The order of the code -/

section Sign

variable {α : Type} [LinearOrder α]

theorem sign_self (a : α) : sign a a = 0 := by
  rw [sign, if_neg (lt_irrefl a), if_neg (lt_irrefl a)]

theorem sign_nonpos_iff (a b : α) : sign a b ≤ 0 ↔ a ≤ b := by
  unfold sign
  rcases lt_trichotomy a b with h | rfl | h
  · simp [h, h.le]
  · simp
  · simp [h, h.not_gt, h.not_ge]

theorem sign_congr {β : Type} [LinearOrder β] {a b : α} {c d : β} (hlt : a < b ↔ c < d)
    (hgt : b < a ↔ d < c) : sign a b = sign c d := by
  unfold sign
  simp only [hlt, hgt]

/-- Keys order as their first parts, unless these are equal. -/
theorem sign_prod {β : Type} [LinearOrder β] (a b : α) (c d : β) :
    sign (toLex (a, c)) (toLex (b, d)) = if a ≠ b then if a < b then -1 else 1 else sign c d := by
  unfold sign
  simp only [Prod.Lex.toLex_lt_toLex]
  rcases lt_trichotomy a b with h | rfl | h
  · simp [h, h.ne]
  · simp
  · simp [h, h.ne', h.not_gt]

theorem sign_coe (a b : α) : sign (a : WithTop α) b = sign a b :=
  sign_congr WithTop.coe_lt_coe WithTop.coe_lt_coe

end Sign

section Key

variable {α : Type} [LinearOrder α]

theorem sign_released (f : List Char → α) (p q : List Char) :
    sign (released p (f p)) (released q (f q)) =
      if p = [] ∧ q ≠ [] then 1 else if p ≠ [] ∧ q = [] then -1
      else if p = [] then 0 else sign (f p) (f q) := by
  unfold released
  by_cases hp : p = []
  · by_cases hq : q = []
    · simp [hp, hq, sign_self]
    · simp [hp, hq, sign]
  · by_cases hq : q = []
    · simp [hp, hq, sign]
    · simp [hp, hq, sign_coe]

/-- The signs of two keys are the same where those of their last parts are. -/
theorem sign_keyWith (f : List Char → α) (v w : SemanticVersion) :
    sign (keyWith f v) (keyWith f w) =
      if v.major ≠ w.major then if v.major < w.major then -1 else 1
      else if v.minor ≠ w.minor then if v.minor < w.minor then -1 else 1
      else if v.patch ≠ w.patch then if v.patch < w.patch then -1 else 1
      else sign (released v.preRelease (f v.preRelease))
        (released w.preRelease (f w.preRelease)) := by
  unfold keyWith
  simp only [sign_prod, Ne, UInt32.toNat_inj, ← UInt32.lt_iff_toNat_lt]

end Key

theorem compare_eq (v w : SemanticVersion) :
    compare v w = sign (keyWith id v) (keyWith id w) := by
  rw [sign_keyWith, sign_released id]
  unfold compare sign
  by_cases hp : v.preRelease = []
  · by_cases hq : w.preRelease = []
    · simp [hp, hq]
    · simp [hp, hq]
  · by_cases hq : w.preRelease = []
    · simp [hp, hq]
    · rcases lt_trichotomy v.preRelease w.preRelease with h | h | h
      · simp [hp, hq, h, h.ne]
      · simp [h, hq]
      · simp [hp, hq, h, h.ne', h.not_gt]

/-! ## Identifiers -/

/-- The identifiers compare the other way than the bytes of a first one that is `x`: `y` is a
number and `x` a greater one or none, or neither is a number and `x` goes on where `y` ends. -/
def Contrary (x y : List Char) : Prop :=
  (∃ n, numericValue y = some n ∧ ∀ m, numericValue x = some m → n < m) ∨
    (numericValue x = none ∧ numericValue y = none ∧ y <+: x ∧ y ≠ x)

/-- The first identifiers that differ are like this. -/
def ContraryAt (p q : List Char) : Prop :=
  ∃ common x rest y rest', identifiers p = common ++ x :: rest ∧
    identifiers q = common ++ y :: rest' ∧ Contrary x y

/-- The two are prereleases of one version, and the one that comes first byte by byte comes
second by its identifiers. -/
structure Misordered (v w : SemanticVersion) : Prop where
  major : v.major = w.major
  minor : v.minor = w.minor
  patch : v.patch = w.patch
  prerelease : v.preRelease ≠ []
  bytes : v.preRelease < w.preRelease
  contrary : ContraryAt v.preRelease w.preRelease

theorem numericValue_eq_some {x : List Char} {n : Nat} (h : numericValue x = some n) :
    Nat.toDigits 10 n = x := by
  unfold numericValue at h
  rw [Option.filter_eq_some_iff] at h
  exact of_decide_eq_true h.2

theorem Contrary.key_lt {x y : List Char} (h : Contrary x y) :
    identifierKey y < identifierKey x := by
  unfold identifierKey
  rcases h with ⟨n, hy, hx⟩ | ⟨hx, hy, hextends, hne⟩
  · rw [hy]
    cases hvalue : numericValue x with
    | none => exact Sum.Lex.inl_lt_inr n x
    | some m => exact Sum.Lex.inl_lt_inl_iff.mpr (hx m hvalue)
  · rw [hx, hy]
    exact Sum.Lex.inr_lt_inr_iff.mpr (lt_of_extends hextends hne)

/-- Of identifiers that differ, the first comes first unless the pair is contrary. -/
theorem key_lt_of_not_contrary {x y xs ys : List Char} (hne : x ≠ y) (h : x ++ xs < y ++ ys)
    (hcontrary : ¬ Contrary x y) : identifierKey x < identifierKey y := by
  unfold identifierKey
  cases hy : numericValue y with
  | none =>
    cases hx : numericValue x with
    | some m => exact Sum.Lex.inl_lt_inr m y
    | none =>
      apply Sum.Lex.inr_lt_inr_iff.mpr
      by_contra hnot
      have hlt : y < x := lt_of_le_of_ne (not_lt.mp hnot) (Ne.symm hne)
      by_cases hextends : y <+: x
      · exact hcontrary (.inr ⟨hx, hy, hextends, Ne.symm hne⟩)
      · exact lt_asymm h (lt_of_not_extends hlt hextends ys xs)
  | some n =>
    cases hx : numericValue x with
    | none =>
      refine absurd (.inl ⟨n, hy, ?_⟩) hcontrary
      intro m hm
      rw [hx] at hm
      cases hm
    | some m =>
      apply Sum.Lex.inl_lt_inl_iff.mpr
      by_contra hnot
      refine hcontrary (.inl ⟨n, hy, ?_⟩)
      intro m' hm'
      cases hx.symm.trans hm'
      refine lt_of_le_of_ne (not_lt.mp hnot) ?_
      rintro rfl
      exact hne ((numericValue_eq_some hx).symm.trans (numericValue_eq_some hy))

/-! ## Prereleases -/

theorem identifiers_ne_nil (p : List Char) : identifiers p ≠ [] := List.splitOn_ne_nil '.' p

theorem intercalate_identifiers (p : List Char) : ['.'].intercalate (identifiers p) = p :=
  List.intercalate_splitOn '.'

theorem ContraryAt.keys_lt {p q : List Char} (h : ContraryAt p q) : keys q < keys p := by
  obtain ⟨common, x, rest, y, rest', hp, hq, hcontrary⟩ := h
  have hlt := hcontrary.key_lt
  rw [keys, keys, hp, hq, List.map_append, List.map_append, append_lt_append_iff, List.map_cons,
    List.map_cons, cons_lt_cons_of_ne hlt.ne]
  exact hlt

theorem intercalate_extends {ps qs : List (List Char)} (h : ps <+: qs) (hne : ps ≠ []) :
    ['.'].intercalate ps <+: ['.'].intercalate qs := by
  obtain ⟨rest, rfl⟩ := h
  obtain ⟨front, last, rfl⟩ := List.eq_nil_or_concat ps |>.resolve_left hne
  rw [List.concat_eq_append, List.append_assoc, List.singleton_append, intercalate_append,
    intercalate_append]
  exact ⟨continued '.' rest, by simp [continued]⟩

theorem keys_lt_of_not_contraryAt {p q : List Char} (h : p < q) (hcontrary : ¬ ContraryAt p q) :
    keys p < keys q := by
  have hpq : identifiers p ≠ identifiers q := by
    intro heq
    rw [← intercalate_identifiers p, heq, intercalate_identifiers] at h
    exact lt_irrefl q h
  rcases first_difference (identifiers p) (identifiers q) with
    hextends | hextends | ⟨common, x, rest, y, rest', hne, hp, hq⟩
  · refine lt_of_extends (hextends.map identifierKey) ?_
    intro heq
    exact hpq (hextends.eq_of_length (by simpa [keys] using congrArg List.length heq))
  · have hqp := intercalate_extends hextends (identifiers_ne_nil q)
    rw [intercalate_identifiers, intercalate_identifiers] at hqp
    exact absurd (lt_of_extends hqp h.ne') (lt_asymm h)
  · have hxy : ¬ Contrary x y := fun hx => hcontrary ⟨common, x, rest, y, rest', hp, hq, hx⟩
    rw [← intercalate_identifiers p, ← intercalate_identifiers q, hp, hq, intercalate_append,
      intercalate_append, append_lt_append_iff] at h
    have hlt := key_lt_of_not_contrary hne h hxy
    rw [keys, keys, hp, hq, List.map_append, List.map_append, append_lt_append_iff, List.map_cons,
      List.map_cons, cons_lt_cons_of_ne hlt.ne]
    exact hlt

theorem sign_of_lt {α : Type} [LinearOrder α] {a b : α} (h : a < b) : sign a b = -1 :=
  if_pos h

theorem sign_of_gt {α : Type} [LinearOrder α] {a b : α} (h : b < a) : sign a b = 1 := by
  rw [sign, if_neg (lt_asymm h), if_pos h]

theorem sign_keys_iff (p q : List Char) : sign p q = sign (keys p) (keys q) ↔
    ¬ (p < q ∧ ContraryAt p q) ∧ ¬ (q < p ∧ ContraryAt q p) := by
  rcases lt_trichotomy p q with h | rfl | h
  · by_cases hcontrary : ContraryAt p q
    · rw [sign_of_lt h, sign_of_gt hcontrary.keys_lt]
      exact iff_of_false (by decide) fun hnot => hnot.1 ⟨h, hcontrary⟩
    · rw [sign_of_lt h, sign_of_lt (keys_lt_of_not_contraryAt h hcontrary)]
      exact iff_of_true rfl ⟨fun hnot => hcontrary hnot.2, fun hnot => lt_asymm h hnot.1⟩
  · rw [sign_self, sign_self]
    exact iff_of_true rfl ⟨fun hnot => lt_irrefl p hnot.1, fun hnot => lt_irrefl p hnot.1⟩
  · by_cases hcontrary : ContraryAt q p
    · rw [sign_of_gt h, sign_of_lt hcontrary.keys_lt]
      exact iff_of_false (by decide) fun hnot => hnot.2 ⟨h, hcontrary⟩
    · rw [sign_of_gt h, sign_of_gt (keys_lt_of_not_contraryAt h hcontrary)]
      exact iff_of_true rfl ⟨fun hnot => lt_asymm h hnot.1, fun hnot => hcontrary hnot.2⟩

/-! ## The precedence -/

theorem misordered_iff {v w : SemanticVersion} (hmajor : v.major = w.major)
    (hminor : v.minor = w.minor) (hpatch : v.patch = w.patch) (hpre : v.preRelease ≠ []) :
    Misordered v w ↔ v.preRelease < w.preRelease ∧ ContraryAt v.preRelease w.preRelease := by
  constructor
  · intro h
    exact ⟨h.bytes, h.contrary⟩
  · rintro ⟨hbytes, hcontrary⟩
    exact ⟨hmajor, hminor, hpatch, hpre, hbytes, hcontrary⟩

theorem compare_precedes_iff (v w : SemanticVersion) :
    compare v w = sign (precedenceKey v) (precedenceKey w) ↔
      ¬ Misordered v w ∧ ¬ Misordered w v := by
  rw [compare_eq, precedenceKey, precedenceKey, sign_keyWith, sign_keyWith]
  by_cases hcore : v.major = w.major ∧ v.minor = w.minor ∧ v.patch = w.patch
  · obtain ⟨hmajor, hminor, hpatch⟩ := hcore
    rw [if_neg (not_not.mpr hmajor), if_neg (not_not.mpr hminor), if_neg (not_not.mpr hpatch),
      if_neg (not_not.mpr hmajor), if_neg (not_not.mpr hminor), if_neg (not_not.mpr hpatch),
      sign_released id, sign_released keys]
    by_cases hp : v.preRelease = []
    · have hnot : ¬ Misordered v w ∧ ¬ Misordered w v :=
        ⟨fun h => h.prerelease hp, fun h => List.not_lt_nil _ (hp ▸ h.bytes)⟩
      simp [hp, hnot]
    · by_cases hq : w.preRelease = []
      · have hnot : ¬ Misordered v w ∧ ¬ Misordered w v :=
          ⟨fun h => List.not_lt_nil _ (hq ▸ h.bytes), fun h => h.prerelease hq⟩
        simp [hp, hq, hnot]
      · rw [misordered_iff hmajor hminor hpatch hp,
          misordered_iff hmajor.symm hminor.symm hpatch.symm hq]
        simp only [hp, hq, not_false_eq_true, and_false, false_and, if_false, ne_eq]
        exact sign_keys_iff v.preRelease w.preRelease
  · have hnot : ¬ Misordered v w ∧ ¬ Misordered w v :=
      ⟨fun h => hcore ⟨h.major, h.minor, h.patch⟩,
        fun h => hcore ⟨h.major.symm, h.minor.symm, h.patch.symm⟩⟩
    refine iff_of_true ?_ hnot
    by_cases hmajor : v.major = w.major
    · by_cases hminor : v.minor = w.minor
      · have hpatch : v.patch ≠ w.patch := fun heq => hcore ⟨hmajor, hminor, heq⟩
        simp [hmajor, hminor, hpatch]
      · simp [hmajor, hminor]
    · simp [hmajor]

theorem precedence_iff (u v w : SemanticVersion) :
    Precedence u v w ↔ ¬ Misordered u v ∧ ¬ Misordered v u := by
  constructor
  · intro h
    exact (compare_precedes_iff u v).mp h.precedes
  · intro h
    refine ⟨?_, ?_, ?_, (compare_precedes_iff u v).mpr h⟩
    · rw [compare_eq, sign_self]
    · rw [compare_eq, compare_eq, sign_nonpos_iff, sign_nonpos_iff]
      exact le_total _ _
    · rw [compare_eq, compare_eq, compare_eq, sign_nonpos_iff, sign_nonpos_iff, sign_nonpos_iff]
      exact le_trans

/-- `1.0.0-rc.9` and `1.0.0-rc.10`. -/
theorem precedence_rc : ¬ ∀ u v w, Precedence u v w := by
  intro h
  let nine : SemanticVersion := ⟨1, 0, 0, "rc.9".toList, []⟩
  let ten : SemanticVersion := ⟨1, 0, 0, "rc.10".toList, []⟩
  have hprecedes := (h nine ten ten).precedes
  have hbytes : compare nine ten = 1 := by decide
  have hkeys : precedenceKey nine < precedenceKey ten := by
    decide
  rw [hbytes, sign_of_lt hkeys] at hprecedes
  cases hprecedes

end MBootCore.SemanticVersion
