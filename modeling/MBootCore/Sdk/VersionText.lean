import MBootCore.Sdk.Version
import MBootCore.Support.Scan
import Mathlib

/-!
# Sdk — VersionText

The texts that `SemanticVersion::fromString` takes. Besides versions as they should be written it
takes a dot behind the third number, a dash with nothing behind it, and numbers of any size
(`exact_iff_not_slips`). What `toString` writes is read back.
-/

namespace MBootCore.SemanticVersion

open Digits Scan

/-! ## Numbers -/

/-- A text of digits and its value. -/
def IsDecimal (text : List Char) (n : Nat) : Prop := text ≠ [] ∧ readDigits 10 0 text = some n

theorem isDigit_iff (c : Char) : isDigit c = true ↔ ∃ d, digitValue c = some d ∧ d < 10 := by
  unfold isDigit digitValue
  have hle : ∀ a b : Char, a ≤ b ↔ a.toNat ≤ b.toNat := fun _ _ => UInt32.le_iff_toNat_le
  simp only [hle, decide_eq_true_eq]
  constructor
  · intro h
    rw [if_pos h]
    refine ⟨_, rfl, ?_⟩
    have h9 : c.toNat ≤ 57 := h.2
    change c.toNat - 48 < 10
    omega
  · rintro ⟨d, hd, hlt⟩
    split at hd
    · rename_i h
      exact h
    · split at hd
      · cases hd
        omega
      · split at hd
        · cases hd
          omega
        · cases hd

theorem readDigits_isSome_iff (acc : Nat) (text : List Char) :
    (∃ n, readDigits 10 acc text = some n) ↔ text.all isDigit = true := by
  induction text generalizing acc with
  | nil => exact iff_of_true ⟨acc, rfl⟩ rfl
  | cons c rest ih =>
    rw [readDigits, List.all_cons, Bool.and_eq_true, isDigit_iff]
    cases hvalue : digitValue c with
    | none => simp
    | some d =>
      by_cases hd : d < 10
      · simp [hd, ih]
      · simp [hd]

theorem isDecimal_iff (text : List Char) :
    (∃ n, IsDecimal text n) ↔ text ≠ [] ∧ text.all isDigit = true := by
  rw [← readDigits_isSome_iff 0]
  exact exists_and_left

theorem IsDecimal.not_mem {text : List Char} {n : Nat} (h : IsDecimal text n) {c : Char}
    (hc : isDigit c = false) : c ∉ text := by
  intro hmem
  have hall := ((isDecimal_iff text).mp ⟨n, h⟩).2
  rw [List.all_eq_true] at hall
  rw [hall c hmem] at hc
  cases hc

theorem IsDecimal.strtol {text : List Char} {n : Nat} (h : IsDecimal text n) :
    strtol text = min n (2 ^ 63 - 1) := by
  rw [SemanticVersion.strtol, h.2, Option.getD_some]

theorem isDecimal_toDigits (n : Nat) : IsDecimal (Nat.toDigits 10 n) n :=
  ⟨Nat.toDigits_ne_nil, readDigits_toDigits (by decide) (by decide) n⟩

/-- The number as it is stored. -/
def wrapped (n : Nat) : UInt32 := UInt32.ofNat (min n (2 ^ 63 - 1))

theorem wrapped_toNat {n : Nat} (h : n < 2 ^ 32) : (wrapped n).toNat = n := by
  rw [wrapped, UInt32.toNat_ofNat']
  omega

/-! ## Versions as they are written -/

/-- A part that may be there, behind its mark. -/
def marked (mark : Char) : Option (List Char) → List Char
  | none => []
  | some part => mark :: part

/-- `MAJOR.MINOR.PATCH`, then a prerelease that is not empty and build metadata, both optional. -/
def IsSemVer (text : List Char) (v : SemanticVersion) : Prop :=
  ∃ a b c pre build, text = a ++ '.' :: (b ++ '.' :: (c ++ (marked '-' pre ++ marked '+' build))) ∧
    IsDecimal a v.major.toNat ∧ IsDecimal b v.minor.toNat ∧ IsDecimal c v.patch.toNat ∧
    (∀ part, pre = some part → part ≠ [] ∧ '+' ∉ part) ∧
    v.preRelease = pre.getD [] ∧ v.buildMetadata = build.getD []

/-- Such a text gives its parts, any other the value of a failure. -/
structure Exact (text : List Char) : Prop where
  parts : ∀ v, IsSemVer text v → fromString text = v
  failure : (∀ v, ¬ IsSemVer text v) → fromString text = failure

def RoundTrip (v : SemanticVersion) : Prop := '+' ∉ v.preRelease → fromString v.toString = v

/-! ## Texts as they are taken -/

structure Parts where
  a : List Char
  b : List Char
  c : List Char
  na : Nat
  nb : Nat
  nc : Nat
  dot : Bool
  pre : Option (List Char)
  build : Option (List Char)

namespace Parts

/-- The pieces between the dots. -/
def pieces (p : Parts) : List (List Char) := [p.a, p.b, p.c] ++ if p.dot then [[]] else []

def core (p : Parts) : List Char := ['.'].intercalate p.pieces

def result (p : Parts) : SemanticVersion :=
  ⟨wrapped p.na, wrapped p.nb, wrapped p.nc, p.pre.getD [], p.build.getD []⟩

/-- A dot too many, an empty prerelease, or a number of more than 32 bits. -/
def Loose (p : Parts) : Prop :=
  p.dot = true ∨ p.pre = some [] ∨ 2 ^ 32 ≤ p.na ∨ 2 ^ 32 ≤ p.nb ∨ 2 ^ 32 ≤ p.nc

/-- All that is stored is zero or empty, as in the value of a failure. -/
def Blank (p : Parts) : Prop :=
  wrapped p.na = 0 ∧ wrapped p.nb = 0 ∧ wrapped p.nc = 0 ∧ p.pre.getD [] = [] ∧
    p.build.getD [] = []

theorem result_eq_failure (p : Parts) : p.result = SemanticVersion.failure ↔ p.Blank := by
  unfold result SemanticVersion.failure Blank
  rw [SemanticVersion.mk.injEq]

end Parts

/-- The text is made of these parts. -/
structure Reads (text : List Char) (p : Parts) : Prop where
  text_eq : text = p.core ++ (marked '-' p.pre ++ marked '+' p.build)
  major : IsDecimal p.a p.na
  minor : IsDecimal p.b p.nb
  patch : IsDecimal p.c p.nc
  pre : ∀ part, p.pre = some part → '+' ∉ part

namespace Reads

variable {text : List Char} {p : Parts}

theorem not_mem_pieces (h : Reads text p) {c : Char} (hc : isDigit c = false) :
    ∀ piece ∈ p.pieces, c ∉ piece := by
  intro piece hpiece
  rw [Parts.pieces, List.mem_append] at hpiece
  rcases hpiece with hpiece | hdot
  · simp only [List.mem_cons, List.not_mem_nil, or_false] at hpiece
    rcases hpiece with rfl | rfl | rfl
    · exact h.major.not_mem hc
    · exact h.minor.not_mem hc
    · exact h.patch.not_mem hc
  · split at hdot
    · rw [List.mem_singleton.mp hdot]
      exact List.not_mem_nil
    · cases hdot

theorem splitOn_core (h : Reads text p) : p.core.splitOn '.' = p.pieces :=
  List.splitOn_intercalate '.' (h.not_mem_pieces (by decide)) (by simp [Parts.pieces])

theorem core_eq (p : Parts) :
    p.core = p.a ++ '.' :: (p.b ++ '.' :: (p.c ++ if p.dot then ['.'] else [])) := by
  unfold Parts.core Parts.pieces
  cases p.dot <;> simp [List.intercalate]

theorem not_mem_core (h : Reads text p) {c : Char} (hc : isDigit c = false) (hdot : c ≠ '.') :
    c ∉ p.core := by
  have ha := h.major.not_mem hc
  have hb := h.minor.not_mem hc
  have hc' := h.patch.not_mem hc
  rw [core_eq]
  cases p.dot <;> simp [ha, hb, hc', hdot]

theorem ne_of_not_mem {c : Char} {run : List Char} (h : c ∉ run) :
    ∀ x ∈ run, decide (x ≠ c) = true := by
  intro x hx
  exact decide_eq_true fun heq => h (heq ▸ hx)

theorem stops_marked (mark : Char) (part : Option (List Char)) :
    Stops (fun x => decide (x ≠ mark)) (marked mark part) := by
  cases part with
  | none => exact stops_nil
  | some part => exact stops_cons (by simp)

theorem not_mem_front (h : Reads text p) : '+' ∉ p.core ++ marked '-' p.pre := by
  rw [List.mem_append, not_or]
  refine ⟨h.not_mem_core (by decide) (by decide), ?_⟩
  cases hpre : p.pre with
  | none => exact List.not_mem_nil
  | some part =>
    rw [marked, List.mem_cons, not_or]
    exact ⟨by decide, h.pre part hpre⟩

theorem takeWhile_text (h : Reads text p) :
    text.takeWhile (· ≠ '+') = p.core ++ marked '-' p.pre := by
  rw [h.text_eq, ← List.append_assoc]
  exact takeWhile_run (ne_of_not_mem h.not_mem_front) (stops_marked '+' p.build)

theorem dropWhile_text (h : Reads text p) : text.dropWhile (· ≠ '+') = marked '+' p.build := by
  rw [h.text_eq, ← List.append_assoc]
  exact dropWhile_run (ne_of_not_mem h.not_mem_front) (stops_marked '+' p.build)

theorem takeWhile_front (h : Reads text p) :
    (p.core ++ marked '-' p.pre).takeWhile (· ≠ '-') = p.core :=
  takeWhile_run (ne_of_not_mem (h.not_mem_core (by decide) (by decide))) (stops_marked '-' p.pre)

theorem dropWhile_front (h : Reads text p) :
    (p.core ++ marked '-' p.pre).dropWhile (· ≠ '-') = marked '-' p.pre :=
  dropWhile_run (ne_of_not_mem (h.not_mem_core (by decide) (by decide))) (stops_marked '-' p.pre)

theorem getlines_core (h : Reads text p) : getlines p.core = [p.a, p.b, p.c] := by
  unfold getlines
  rw [h.splitOn_core, Parts.pieces]
  cases p.dot with
  | false =>
    have hlast : ([p.a, p.b, p.c] ++ if false = true then [[]] else []).getLast? = some p.c := rfl
    dsimp only
    rw [hlast, if_neg fun heq => h.patch.1 (Option.some.inj heq)]
    rfl
  | true => rfl

theorem core_ne_nil (h : Reads text p) : p.core ≠ [] := by
  rw [core_eq]
  exact List.append_ne_nil_of_left_ne_nil h.major.1 _

end Reads

theorem readParts_of_isDecimal {a b c : List Char} {na nb nc : Nat} (ha : IsDecimal a na)
    (hb : IsDecimal b nb) (hc : IsDecimal c nc) :
    readParts {} 0 [a, b, c] = some (⟨wrapped na, wrapped nb, wrapped nc, [], []⟩, 3) := by
  have hdigits {text : List Char} {n : Nat} (h : IsDecimal text n) : text.all isDigit = true :=
    ((isDecimal_iff text).mp ⟨n, h⟩).2
  simp [readParts, setPart, hdigits ha, hdigits hb, hdigits hc, ha.1, hb.1, hc.1, ha.strtol,
    hb.strtol, hc.strtol, wrapped]

theorem fromString_of_reads {text : List Char} {p : Parts} (h : Reads text p) :
    fromString text = p.result := by
  have hne : text ≠ [] := by
    rw [h.text_eq]
    exact List.append_ne_nil_of_left_ne_nil h.core_ne_nil _
  have hpart (mark : Char) (part : Option (List Char)) :
      (marked mark part).drop 1 = part.getD [] := by
    cases part <;> rfl
  unfold fromString
  rw [if_neg hne]
  dsimp only
  rw [h.takeWhile_text, h.dropWhile_text, h.takeWhile_front, h.dropWhile_front, h.getlines_core,
    readParts_of_isDecimal h.major h.minor h.patch, if_neg h.core_ne_nil, hpart, hpart]
  rfl

/-- What the loop lets through are texts of digits, each of them counted. -/
theorem readParts_eq_some {v w : SemanticVersion} {part n : Nat} {tokens : List (List Char)}
    (h : readParts v part tokens = some (w, n)) :
    n = part + tokens.length ∧ ∀ token ∈ tokens, ∃ m, IsDecimal token m := by
  induction tokens generalizing v part with
  | nil =>
    cases h
    exact ⟨rfl, fun _ hmem => absurd hmem List.not_mem_nil⟩
  | cons token rest ih =>
    rw [readParts] at h
    split at h
    · cases h
    · split at h
      · cases h
      · split at h
        · cases h
        · rename_i hne hdigits
          obtain ⟨hn, hrest⟩ := ih h
          refine ⟨by rw [hn, List.length_cons]; omega, ?_⟩
          rw [List.forall_mem_cons]
          refine ⟨(isDecimal_iff token).mpr ⟨hne, by simpa using hdigits⟩, hrest⟩

theorem marked_dropWhile (mark : Char) (text : List Char) :
    ∃ part, text.dropWhile (· ≠ mark) = marked mark part := by
  cases hdrop : text.dropWhile (· ≠ mark) with
  | nil => exact ⟨none, rfl⟩
  | cons c part =>
    have hc : decide (c ≠ mark) = false := by
      have hhead := List.head?_dropWhile_not (fun x => decide (x ≠ mark)) text
      rw [hdrop] at hhead
      simpa using hhead
    refine ⟨some part, ?_⟩
    rw [of_not_not (of_decide_eq_false hc), marked]

/-- Three tokens are all the pieces, or all but an empty one behind a last dot. -/
theorem splitOn_of_getlines {text a b c : List Char} (h : getlines text = [a, b, c]) :
    ∃ dot : Bool, text.splitOn '.' = [a, b, c] ++ if dot then [[]] else [] := by
  unfold getlines at h
  dsimp only at h
  split at h
  · rename_i hlast
    refine ⟨true, ?_⟩
    obtain ⟨front, hfront⟩ := List.getLast?_eq_some_iff.mp hlast
    rw [hfront, List.dropLast_concat] at h
    rw [hfront, h]
    rfl
  · exact ⟨false, h⟩

/-- A text that is not refused is made of parts. -/
theorem reads_of_ne_failure {text : List Char} (h : fromString text ≠ failure) :
    ∃ p, Reads text p := by
  unfold fromString at h
  split at h
  · exact absurd rfl h
  · dsimp only at h
    split at h
    · exact absurd rfl h
    · obtain ⟨build, hbuild⟩ := marked_dropWhile '+' text
      obtain ⟨pre, hpre⟩ := marked_dropWhile '-' (text.takeWhile (· ≠ '+'))
      generalize hcore : (text.takeWhile (· ≠ '+')).takeWhile (· ≠ '-') = core at h
      have hfront : text.takeWhile (· ≠ '+') = core ++ marked '-' pre := by
        rw [← hcore, ← hpre, List.takeWhile_append_dropWhile]
      cases hparts : readParts {} 0 (getlines core) with
      | none =>
        rw [hparts] at h
        exact absurd rfl h
      | some taken =>
        obtain ⟨v, part⟩ := taken
        rw [hparts] at h
        obtain ⟨hcount, hdecimal⟩ := readParts_eq_some hparts
        have hthree : part = 3 := by
          by_contra hne
          simp only [if_pos hne] at h
          exact h rfl
        obtain ⟨a, b, c, htokens⟩ := List.length_eq_three.mp
          (show (getlines core).length = 3 by omega)
        obtain ⟨dot, hsplit⟩ := splitOn_of_getlines htokens
        rw [htokens] at hdecimal
        obtain ⟨na, ha⟩ := hdecimal a (by simp)
        obtain ⟨nb, hb⟩ := hdecimal b (by simp)
        obtain ⟨nc, hc⟩ := hdecimal c (by simp)
        refine ⟨⟨a, b, c, na, nb, nc, dot, pre, build⟩, ?_, ha, hb, hc, ?_⟩
        · rw [Parts.core, Parts.pieces, ← hsplit, List.intercalate_splitOn, ← List.append_assoc,
            ← hfront, ← hbuild, List.takeWhile_append_dropWhile]
        · rintro part rfl hplus
          have hmem : '+' ∈ text.takeWhile (· ≠ '+') := by
            rw [hfront]
            exact List.mem_append_right _ (List.mem_cons_of_mem _ hplus)
          exact absurd (List.mem_takeWhile_imp hmem) (by simp)

/-! ## What is wrong -/

/-- The text is taken although it is no version, and gives something else than a failure. -/
def Slips (text : List Char) : Prop := ∃ p, Reads text p ∧ p.Loose ∧ ¬ p.Blank

theorem marked_injective (mark : Char) {part part' : Option (List Char)}
    (h : marked mark part = marked mark part') : part = part' := by
  cases part <;> cases part' <;> simp_all [marked]

/-- A text has one reading at most. -/
theorem Reads.unique {text : List Char} {p q : Parts} (hp : Reads text p) (hq : Reads text q) :
    p = q := by
  have hfront := hp.takeWhile_text.symm.trans hq.takeWhile_text
  have hbuild := marked_injective '+' (hp.dropWhile_text.symm.trans hq.dropWhile_text)
  have hcore : p.core = q.core := by
    rw [← hp.takeWhile_front, hfront, hq.takeWhile_front]
  have hpre : p.pre = q.pre := by
    apply marked_injective '-'
    rw [← hp.dropWhile_front, hfront, hq.dropWhile_front]
  have htokens : [p.a, p.b, p.c] = [q.a, q.b, q.c] := by
    rw [← hp.getlines_core, hcore, hq.getlines_core]
  have hpieces : p.pieces = q.pieces := by
    rw [← hp.splitOn_core, hcore, hq.splitOn_core]
  have hdot : p.dot = q.dot := by
    rw [Parts.pieces, Parts.pieces, htokens] at hpieces
    have hlast := List.append_cancel_left hpieces
    cases hd : p.dot <;> cases hd' : q.dot <;> simp_all
  obtain ⟨ha, hb, hc⟩ : p.a = q.a ∧ p.b = q.b ∧ p.c = q.c := by simpa using htokens
  have hna := hp.major.2
  have hnb := hp.minor.2
  have hnc := hp.patch.2
  rw [ha, hq.major.2] at hna
  rw [hb, hq.minor.2] at hnb
  rw [hc, hq.patch.2] at hnc
  cases p
  cases q
  simp_all

/-- The parts of a version as it should be written are not loose. -/
theorem isSemVer_iff (text : List Char) (v : SemanticVersion) :
    IsSemVer text v ↔ ∃ p, Reads text p ∧ ¬ p.Loose ∧ v = p.result := by
  constructor
  · rintro ⟨a, b, c, pre, build, htext, ha, hb, hc, hpre, hv, hv'⟩
    refine ⟨⟨a, b, c, v.major.toNat, v.minor.toNat, v.patch.toNat, false, pre, build⟩,
      ⟨?_, ha, hb, hc, fun part hpart => (hpre part hpart).2⟩, ?_, ?_⟩
    · rw [htext, Reads.core_eq]
      simp
    · have hmajor := v.major.toNat_lt
      have hminor := v.minor.toNat_lt
      have hpatch := v.patch.toNat_lt
      rintro (hdot | hempty | hbig | hbig | hbig)
      · cases hdot
      · exact (hpre [] hempty).1 rfl
      · exact absurd hmajor (Nat.not_lt.mpr hbig)
      · exact absurd hminor (Nat.not_lt.mpr hbig)
      · exact absurd hpatch (Nat.not_lt.mpr hbig)
    · have hwrapped (x : UInt32) : wrapped x.toNat = x :=
        UInt32.toNat_inj.mp (wrapped_toNat x.toNat_lt)
      rw [Parts.result]
      dsimp only
      rw [hwrapped, hwrapped, hwrapped, ← hv, ← hv']
  · rintro ⟨p, hp, hstrict, rfl⟩
    unfold Parts.Loose at hstrict
    simp only [not_or, Nat.not_le] at hstrict
    obtain ⟨hdot, hempty, ha, hb, hc⟩ := hstrict
    refine ⟨p.a, p.b, p.c, p.pre, p.build, ?_, ?_, ?_, ?_, ?_, rfl, rfl⟩
    · have hcore := Reads.core_eq p
      rw [if_neg hdot, List.append_nil] at hcore
      rw [hp.text_eq, hcore]
      simp
    · rw [Parts.result, wrapped_toNat ha]
      exact hp.major
    · rw [Parts.result, wrapped_toNat hb]
      exact hp.minor
    · rw [Parts.result, wrapped_toNat hc]
      exact hp.patch
    · intro part hpart
      exact ⟨fun hnil => hempty (by rw [hpart, hnil]), hp.pre part hpart⟩

theorem exact_iff_not_slips (text : List Char) : Exact text ↔ ¬ Slips text := by
  constructor
  · rintro ⟨-, hfailure⟩ ⟨p, hp, hloose, hblank⟩
    have hnone : ∀ v, ¬ IsSemVer text v := by
      intro v hv
      obtain ⟨q, hq, hstrict, -⟩ := (isSemVer_iff text v).mp hv
      exact hstrict (hp.unique hq ▸ hloose)
    have hresult := hfailure hnone
    rw [fromString_of_reads hp, Parts.result_eq_failure] at hresult
    exact hblank hresult
  · intro hslips
    refine ⟨?_, ?_⟩
    · intro v hv
      obtain ⟨p, hp, -, rfl⟩ := (isSemVer_iff text v).mp hv
      exact fromString_of_reads hp
    · intro hnone
      by_contra hne
      obtain ⟨p, hp⟩ := reads_of_ne_failure hne
      rw [fromString_of_reads hp, Parts.result_eq_failure] at hne
      refine hslips ⟨p, hp, ?_, hne⟩
      by_contra hstrict
      exact hnone p.result ((isSemVer_iff text _).mpr ⟨p, hp, hstrict, rfl⟩)

/-- What `toString` writes is a version, of the same parts. -/
theorem isSemVer_toString {v : SemanticVersion} (h : '+' ∉ v.preRelease) :
    IsSemVer v.toString v := by
  have hmarked (mark : Char) (part : List Char) :
      (if part = [] then [] else mark :: part)
        = marked mark (if part = [] then none else some part) := by
    split <;> rfl
  have hgetD (part : List Char) : part = (if part = [] then none else some part).getD [] := by
    split
    · rename_i hnil
      exact hnil
    · rfl
  refine ⟨_, _, _, if v.preRelease = [] then none else some v.preRelease,
    if v.buildMetadata = [] then none else some v.buildMetadata, ?_, isDecimal_toDigits _,
    isDecimal_toDigits _, isDecimal_toDigits _, ?_, hgetD _, hgetD _⟩
  · rw [toString, hmarked, hmarked]
  · intro part hpart
    split at hpart
    · cases hpart
    · rename_i hne
      cases hpart
      exact ⟨hne, h⟩

theorem roundTrip (v : SemanticVersion) : RoundTrip v := by
  intro h
  obtain ⟨p, hp, -, hv⟩ := (isSemVer_iff v.toString v).mp (isSemVer_toString h)
  rw [fromString_of_reads hp]
  exact hv.symm

/-- The text of every version comes back, and a text is taken exactly unless it slips through. -/
theorem exact_and_roundTrip_iff (text : List Char) (v : SemanticVersion) :
    Exact text ∧ RoundTrip v ↔ ¬ Slips text := by
  rw [exact_iff_not_slips]
  exact and_iff_left (roundTrip v)

/-- `"1.2.3."` is taken for 1.2.3. -/
theorem exact_trailing_dot : ¬ ∀ text v, Exact text ∧ RoundTrip v := by
  intro h
  obtain ⟨hexact, -⟩ := h "1.2.3.".toList {}
  have hread : fromString "1.2.3.".toList ≠ failure := by decide
  refine hread (hexact.failure ?_)
  intro v hv
  have hdot : Reads "1.2.3.".toList ⟨['1'], ['2'], ['3'], 1, 2, 3, true, none, none⟩ :=
    ⟨by decide, ⟨by decide, rfl⟩, ⟨by decide, rfl⟩, ⟨by decide, rfl⟩,
      fun _ hnone => by cases hnone⟩
  obtain ⟨q, hq, hstrict, -⟩ := (isSemVer_iff _ v).mp hv
  exact hstrict (hdot.unique hq ▸ .inl rfl)

end MBootCore.SemanticVersion
