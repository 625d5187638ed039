import MBootCore.Support.Digits
import Mathlib

/-!
# HexFormat — texts of hexadecimal groups

A format is a sequence of groups of hexadecimal digits and of marks between them.
It is written with all the digits of every group, in upper case. A scanner that
takes a group's width only as a bound reads more texts than are written: a group
may stop early, and the text may go on. `Reads` is what it reads; only when all of
a text is read, and the text is as long as the format, is it one that is written,
in any case of letters.
-/

namespace MBootCore.HexFormat

open Digits

inductive Item where
  | digits (width : Nat)
  | mark (c : Char)
  deriving DecidableEq, Repr

/-- How many characters are written. -/
def width : List Item → Nat
  | [] => 0
  | .digits w :: items => w + width items
  | .mark _ :: items => 1 + width items

/-! ## Digits -/

def hexDigit (c : Char) : Option Nat := (digitValue c).filter (· < 16)

def isHex (c : Char) : Bool := (hexDigit c).isSome

def fromHex (acc : Nat) : List Char → Nat
  | [] => acc
  | c :: cs => fromHex (acc * 16 + (hexDigit c).getD 0) cs

/-- The last digits of a number, in upper case. -/
def toHex : Nat → Nat → List Char
  | 0, _ => []
  | w + 1, n => toHex w (n / 16) ++ [(n % 16).digitChar.toUpper]

attribute [local simp] fromHex toHex

@[simp] theorem length_toHex (w n : Nat) : (toHex w n).length = w := by
  induction w generalizing n with
  | zero => rfl
  | succ w ih => simp [ih]

theorem toUpper_toNat (c : Char) :
    c.toUpper.toNat = if 97 ≤ c.toNat ∧ c.toNat ≤ 122 then c.toNat - 32 else c.toNat := by
  have hle : ∀ a b : Char, a.val ≤ b.val ↔ a.toNat ≤ b.toNat := fun _ _ => UInt32.le_iff_toNat_le
  have hlower : ('a'.val ≤ c.val ∧ c.val ≤ 'z'.val) ↔ 97 ≤ c.toNat ∧ c.toNat ≤ 122 := by
    rw [hle, hle]
    rfl
  by_cases h : 'a'.val ≤ c.val ∧ c.val ≤ 'z'.val
  · rw [if_pos (hlower.mp h), Char.toUpper, dif_pos h]
    show (c.val + ('A'.val - 'a'.val)).toNat = c.val.toNat - 32
    have hrange : 97 ≤ c.val.toNat ∧ c.val.toNat ≤ 122 := hlower.mp h
    have hdown : ('A'.val - 'a'.val).toNat = 2 ^ 32 - 32 := rfl
    rw [UInt32.toNat_add, hdown]
    omega
  · rw [if_neg (mt hlower.mpr h), Char.toUpper, dif_neg h]

theorem hexDigit_eq (c : Char) : hexDigit c =
    if 48 ≤ c.toNat ∧ c.toNat ≤ 57 then some (c.toNat - 48)
    else if 97 ≤ c.toNat ∧ c.toNat ≤ 102 then some (c.toNat - 87)
    else if 65 ≤ c.toNat ∧ c.toNat ≤ 70 then some (c.toNat - 55)
    else none := by
  have hle : ∀ a b : Char, a ≤ b ↔ a.toNat ≤ b.toNat := fun _ _ => UInt32.le_iff_toNat_le
  simp only [hexDigit, digitValue, hle, Char.reduceToNat]
  rcases Nat.lt_or_ge c.toNat 58 with hdecimal | hletter
  · grind
  rcases Nat.lt_or_ge c.toNat 97 with hupper | hlower
  · grind
  · grind

@[simp] theorem hexDigit_toUpper (c : Char) : hexDigit c.toUpper = hexDigit c := by
  rw [hexDigit_eq, hexDigit_eq, toUpper_toNat]
  grind

@[simp] theorem isHex_toUpper (c : Char) : isHex c.toUpper = isHex c := by
  rw [isHex, hexDigit_toUpper, isHex]

theorem digitChar_of_hexDigit {c : Char} {d : Nat} (h : hexDigit c = some d) :
    d < 16 ∧ d.digitChar.toUpper = c.toUpper := by
  have hupper : ∀ d < 16, (d.digitChar.toUpper).toNat = if d < 10 then d + 48 else d + 55 := by
    decide
  have hd : d < 16 := by
    rw [hexDigit] at h
    exact of_decide_eq_true (Option.filter_eq_some_iff.mp h).2
  refine ⟨hd, Char.toNat_inj.mp ?_⟩
  rw [hupper d hd, toUpper_toNat]
  rw [hexDigit_eq] at h
  grind

theorem fromHex_lt (acc : Nat) (cs : List Char) :
    fromHex acc cs < (acc + 1) * 16 ^ cs.length := by
  induction cs generalizing acc with
  | nil => simp
  | cons c cs ih =>
    have hdigit : (hexDigit c).getD 0 < 16 := by
      cases h : hexDigit c with
      | none => decide
      | some d => exact (digitChar_of_hexDigit h).1
    calc fromHex acc (c :: cs)
        = fromHex (acc * 16 + (hexDigit c).getD 0) cs := rfl
      _ < (acc * 16 + (hexDigit c).getD 0 + 1) * 16 ^ cs.length := ih _
      _ ≤ ((acc + 1) * 16) * 16 ^ cs.length := Nat.mul_le_mul_right _ (by omega)
      _ = (acc + 1) * 16 ^ (c :: cs).length := by
        rw [List.length_cons, Nat.pow_succ, Nat.mul_assoc, Nat.mul_comm 16]

theorem fromHex_append (acc : Nat) (cs cs' : List Char) :
    fromHex acc (cs ++ cs') = fromHex (fromHex acc cs) cs' := by
  induction cs generalizing acc with
  | nil => rfl
  | cons c cs ih => rw [List.cons_append, fromHex, fromHex, ih]

@[simp] theorem fromHex_map_toUpper (acc : Nat) (cs : List Char) :
    fromHex acc (cs.map Char.toUpper) = fromHex acc cs := by
  induction cs generalizing acc with
  | nil => rfl
  | cons c cs ih => rw [List.map_cons, fromHex, fromHex, hexDigit_toUpper, ih]

theorem hexDigit_digitChar {d : Nat} (h : d < 16) : hexDigit d.digitChar = some d := by
  rw [hexDigit, digitValue_digitChar h, Option.filter_some, if_pos (decide_eq_true h)]

/-- The digits of a number are read back as the number. -/
theorem fromHex_toHex {w n : Nat} (h : n < 16 ^ w) : fromHex 0 (toHex w n) = n := by
  induction w generalizing n with
  | zero =>
    rw [Nat.pow_zero] at h
    show 0 = n
    omega
  | succ w ih =>
    have hdiv : n / 16 < 16 ^ w := by
      rw [Nat.pow_succ] at h
      omega
    rw [toHex, fromHex_append, ih hdiv, fromHex, hexDigit_toUpper,
      hexDigit_digitChar (Nat.mod_lt n (by decide))]
    simp only [Option.getD_some, fromHex]
    omega

theorem map_toUpper_toHex (w n : Nat) : (toHex w n).map Char.toUpper = toHex w n := by
  have hdigit : ∀ d < 16, d.digitChar.toUpper.toUpper = d.digitChar.toUpper := by decide
  induction w generalizing n with
  | zero => rfl
  | succ w ih =>
    rw [toHex, List.map_append, ih, List.map_singleton, hdigit _ (Nat.mod_lt n (by decide))]

theorem isHex_of_mem_toHex {w n : Nat} {c : Char} (h : c ∈ toHex w n) : isHex c = true := by
  induction w generalizing n with
  | zero => cases h
  | succ w ih =>
    rw [toHex, List.mem_append, List.mem_singleton] at h
    rcases h with h | rfl
    · exact ih h
    · rw [isHex_toUpper, isHex, hexDigit_digitChar (Nat.mod_lt n (by decide))]
      rfl

/-- Digits are the number they are read as, in upper case. -/
theorem toHex_fromHex (cs : List Char) (h : ∀ c ∈ cs, isHex c = true) :
    toHex cs.length (fromHex 0 cs) = cs.map Char.toUpper := by
  induction cs using List.reverseRecOn with
  | nil => rfl
  | append_singleton cs c ih =>
    have hc : isHex c = true := h c (by simp)
    obtain ⟨d, hd⟩ := Option.isSome_iff_exists.mp hc
    obtain ⟨hlt, hupper⟩ := digitChar_of_hexDigit hd
    have hvalue : fromHex 0 (cs ++ [c]) = fromHex 0 cs * 16 + d := by
      rw [fromHex_append, fromHex, hd]
      rfl
    have hdiv : (fromHex 0 cs * 16 + d) / 16 = fromHex 0 cs := by omega
    have hmod : (fromHex 0 cs * 16 + d) % 16 = d := by omega
    rw [List.length_append, List.length_singleton, toHex, hvalue, hdiv, hmod,
      ih fun c hc => h c (List.mem_append_left _ hc), hupper]
    simp

/-! ## Groups -/

/-- A run of digits at the start of a text, no longer than the group is wide; a
shorter one is followed by something else. -/
structure Group (w : Nat) (digits rest : List Char) : Prop where
  hex : ∀ c ∈ digits, isHex c = true
  nonempty : digits ≠ []
  within : digits.length ≤ w
  ended : digits.length = w ∨ ∀ c ∈ rest.head?, isHex c = false
  enough : w ≤ (digits ++ rest).length

def group (w : Nat) (text : List Char) : List Char := (text.take w).takeWhile isHex

/-- A text too short for the whole group is not read at all. -/
def readGroup (w : Nat) (text : List Char) : Option (Nat × List Char) :=
  if text.length < w then none
  else if (group w text).isEmpty then none
  else some (fromHex 0 (group w text), text.drop (group w text).length)

theorem group_append {w : Nat} {digits rest : List Char} (h : Group w digits rest) :
    group w (digits ++ rest) = digits := by
  have hstop : (rest.take (w - digits.length)).takeWhile isHex = [] := by
    rcases h.ended with hfull | hend
    · rw [hfull, Nat.sub_self]
      rfl
    · cases rest with
      | nil => rw [List.take_nil, List.takeWhile_nil]
      | cons c rest =>
        cases w - digits.length with
        | zero => rfl
        | succ n =>
          have hc : isHex c = false := hend c rfl
          rw [List.take_succ_cons, List.takeWhile_cons_of_neg (by simp [hc])]
  rw [group, List.take_append, List.take_of_length_le h.within,
    List.takeWhile_append_of_pos h.hex, hstop, List.append_nil]

theorem group_append_drop (w : Nat) (text : List Char) :
    group w text ++ text.drop (group w text).length = text := by
  have hpre : group w text <+: text :=
    (List.takeWhile_prefix _).trans (List.take_prefix w text)
  exact List.prefix_iff_eq_append.mp hpre

theorem group_group {w : Nat} {text : List Char} (hlength : w ≤ text.length)
    (hne : group w text ≠ []) : Group w (group w text) (text.drop (group w text).length) where
  hex := fun _ hc => List.mem_takeWhile_imp hc
  nonempty := hne
  within := by
    have htake := (List.takeWhile_prefix (p := isHex) (l := text.take w)).length_le
    rw [List.length_take] at htake
    exact Nat.le_trans htake (Nat.min_le_left _ _)
  ended := by
    have hsplit : group w text ++ (text.take w).dropWhile isHex = text.take w :=
      List.takeWhile_append_dropWhile
    cases hrest : (text.take w).dropWhile isHex with
    | nil =>
      rw [hrest, List.append_nil] at hsplit
      refine .inl ?_
      rw [hsplit, List.length_take, Nat.min_eq_left hlength]
    | cons c rest =>
      refine .inr fun c' hc' => ?_
      have hnot : isHex c = false := by
        have hhead := List.head?_dropWhile_not isHex (text.take w)
        rw [hrest] at hhead
        simpa using hhead
      have htext : text = group w text ++ (c :: rest ++ text.drop w) := by
        rw [← List.append_assoc, ← hrest, hsplit, List.take_append_drop]
      rw [htext, List.drop_left'] at hc'
      · simp only [List.cons_append, List.head?_cons, Option.mem_some_iff] at hc'
        rw [← hc']
        exact hnot
      · rw [← htext]
  enough := by rw [group_append_drop]; exact hlength

theorem readGroup_iff {w v : Nat} {text rest : List Char} :
    readGroup w text = some (v, rest) ↔
      ∃ digits, Group w digits rest ∧ digits ++ rest = text ∧ fromHex 0 digits = v := by
  constructor
  · intro h
    rw [readGroup] at h
    split at h
    · cases h
    · rename_i hlength
      split at h
      · cases h
      · rename_i hne
        cases h
        exact ⟨group w text, group_group (by omega) (by simpa using hne),
          group_append_drop w text, rfl⟩
  · rintro ⟨digits, hgroup, rfl, rfl⟩
    have henough := hgroup.enough
    have hne := hgroup.nonempty
    rw [readGroup, group_append hgroup, if_neg (by omega), if_neg (by simpa using hne),
      List.drop_left]

/-! ## Formats -/

def scan : List Item → List Char → Option (List Nat × List Char)
  | [], text => some ([], text)
  | .digits w :: items, text => do
    let (value, text) ← readGroup w text
    let (values, text) ← scan items text
    pure (value :: values, text)
  | .mark c :: items, text =>
    match text with
    | [] => none
    | c' :: text => if c' = c then scan items text else none

/-- The texts that are read, with the values and what is left. -/
inductive Reads : List Item → List Char → List Nat → List Char → Prop where
  | done (rest : List Char) : Reads [] rest [] rest
  | digits {w : Nat} {items : List Item} {digits text rest : List Char} {values : List Nat} :
      Group w digits text → Reads items text values rest →
      Reads (.digits w :: items) (digits ++ text) (fromHex 0 digits :: values) rest
  | mark {c : Char} {items : List Item} {text rest : List Char} {values : List Nat} :
      Reads items text values rest → Reads (.mark c :: items) (c :: text) values rest

def render : List Item → List Nat → List Char
  | .digits w :: items, v :: values => toHex w v ++ render items values
  | .mark c :: items, values => c :: render items values
  | _, _ => []

/-- One value for each group, of no more digits. -/
def Fits : List Item → List Nat → Prop
  | [], [] => True
  | .digits w :: items, v :: values => v < 16 ^ w ∧ Fits items values
  | .mark _ :: items, values => Fits items values
  | _, _ => False

/-- No group is empty, and no mark changes with the case of letters. -/
def Plain (items : List Item) : Prop :=
  ∀ item ∈ items, match item with
    | .digits w => 0 < w
    | .mark c => ∀ c' : Char, c'.toUpper = c ↔ c' = c

variable {items : List Item} {text rest : List Char} {values : List Nat}

theorem scan_iff : scan items text = some (values, rest) ↔ Reads items text values rest := by
  constructor
  · intro h
    induction items generalizing text values rest with
    | nil =>
      cases h
      exact .done _
    | cons item items ih =>
      cases item with
      | digits w =>
        rw [scan] at h
        rcases hgroup : readGroup w text with _ | ⟨value, text'⟩ <;> rw [hgroup] at h
        · cases h
        · rcases hrest : scan items text' with _ | ⟨values', rest'⟩ <;>
            simp only [Option.bind_eq_bind, Option.bind_some, hrest] at h <;> cases h
          obtain ⟨digits, hg, rfl, rfl⟩ := readGroup_iff.mp hgroup
          exact .digits hg (ih hrest)
      | mark c =>
        cases text with
        | nil => cases h
        | cons c' text =>
          simp only [scan] at h
          split at h
          · rename_i hc
            rw [hc]
            exact .mark (ih h)
          · cases h
  · intro h
    induction h with
    | done rest => rfl
    | digits hgroup _ ih =>
      have hread := readGroup_iff.mpr ⟨_, hgroup, rfl, rfl⟩
      simp only [scan, hread, ih, Option.bind_eq_bind, Option.bind_some, Option.pure_def]
    | mark _ ih => simp only [scan, if_true, ih]

namespace Reads

theorem length_le (h : Reads items text values rest) :
    text.length ≤ width items + rest.length := by
  induction h with
  | done rest => exact Nat.le_of_eq (Nat.zero_add _).symm
  | digits hgroup _ ih =>
    have hwithin := hgroup.within
    rw [List.length_append, width]
    omega
  | mark _ ih =>
    rw [List.length_cons, width]
    omega

theorem fits (h : Reads items text values rest) : Fits items values := by
  induction h with
  | done rest => trivial
  | @digits w items digits text rest values hgroup _ ih =>
    refine ⟨?_, ih⟩
    have hlt := fromHex_lt 0 digits
    rw [Nat.zero_add, Nat.one_mul] at hlt
    exact Nat.lt_of_lt_of_le hlt (Nat.pow_le_pow_right (by decide) hgroup.within)
  | mark _ ih => exact ih

/-- What is read of a text that is long enough is what would be written. -/
theorem render (hplain : Plain items) (h : Reads items text values rest)
    (hlength : width items + rest.length ≤ text.length) :
    text.map Char.toUpper = HexFormat.render items values ++ rest.map Char.toUpper := by
  induction h with
  | done rest => rfl
  | @digits w items digits text rest values hgroup hreads ih =>
    have hwithin := hgroup.within
    have hbound := hreads.length_le
    rw [width, List.length_append] at hlength
    have hw : digits.length = w := by omega
    have hdigits := toHex_fromHex digits hgroup.hex
    rw [hw] at hdigits
    rw [List.map_append, HexFormat.render, hdigits, List.append_assoc,
      ih (fun item hitem => hplain item (List.mem_cons_of_mem _ hitem)) (by omega)]
  | @mark c items text rest values _ ih =>
    rw [width, List.length_cons] at hlength
    have hc : c.toUpper = c := (hplain (.mark c) List.mem_cons_self c).mpr rfl
    rw [List.map_cons, hc, HexFormat.render, List.cons_append,
      ih (fun item hitem => hplain item (List.mem_cons_of_mem _ hitem)) (by omega)]

end Reads

/-- What is written is read, in any case of letters. -/
theorem reads_render (hplain : Plain items) (hfits : Fits items values)
    (h : text.map Char.toUpper = render items values) : Reads items text values [] := by
  induction items generalizing text values with
  | nil =>
    cases values with
    | nil =>
      rw [render, List.map_eq_nil_iff] at h
      · rw [h]
        exact .done []
      all_goals simp
    | cons v values => cases hfits
  | cons item items ih =>
    have hplain' : Plain items := fun item hitem => hplain item (List.mem_cons_of_mem _ hitem)
    cases item with
    | digits w =>
      cases values with
      | nil => cases hfits
      | cons v values =>
        obtain ⟨hv, hfits⟩ := hfits
        obtain ⟨digits, text', rfl, hdigits, htext⟩ := List.map_eq_append_iff.mp h
        have hlength : digits.length = w := by
          rw [← List.length_map Char.toUpper, hdigits, length_toHex]
        have hvalue : fromHex 0 digits = v := by
          rw [← fromHex_map_toUpper, hdigits, fromHex_toHex hv]
        have hgroup : Group w digits text' := by
          refine ⟨fun c hc => ?_, ?_, Nat.le_of_eq hlength, .inl hlength, ?_⟩
          · rw [← isHex_toUpper]
            exact isHex_of_mem_toHex (hdigits ▸ List.mem_map_of_mem hc)
          · have hw : 0 < w := hplain (.digits w) List.mem_cons_self
            intro hnil
            rw [hnil, List.length_nil] at hlength
            omega
          · rw [List.length_append]
            omega
        rw [← hvalue]
        exact .digits hgroup (ih hplain' hfits htext)
    | mark c =>
      rw [render] at h
      obtain ⟨c', text', rfl, hc, htext⟩ := List.map_eq_cons_iff.mp h
      rw [(hplain (.mark c) List.mem_cons_self c').mp hc]
      exact .mark (ih hplain' hfits htext)

end MBootCore.HexFormat
