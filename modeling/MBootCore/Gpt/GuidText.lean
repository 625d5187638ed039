import MBootCore.Gpt.Models
import MBootCore.Support.HexFormat
import Mathlib

/-!
# Gpt — GuidText

`Guid::fromString` and `Guid::toString` of `gpt/Guid.cpp`. What is written is read
back. The other way round `std::from_chars` takes the width of a group as a bound
only, and the text is asked to have at least 36 characters: it may go on after the
last group.
-/

namespace MBootCore.Guid

open HexFormat

def toString (g : Guid) : List Char :=
  HexFormat.toHex 8 g.data1.toNat ++ '-' :: (HexFormat.toHex 4 g.data2.toNat ++ '-' ::
    (HexFormat.toHex 4 g.data3.toNat ++ '-' ::
    (HexFormat.toHex 2 g.data4[0].toNat ++ (HexFormat.toHex 2 g.data4[1].toNat ++ '-' ::
    (HexFormat.toHex 2 g.data4[2].toNat ++ (HexFormat.toHex 2 g.data4[3].toNat ++
    (HexFormat.toHex 2 g.data4[4].toNat ++ (HexFormat.toHex 2 g.data4[5].toNat ++
    (HexFormat.toHex 2 g.data4[6].toNat ++ HexFormat.toHex 2 g.data4[7].toNat)))))))))

/-- Up to `width` digits of what is left of the text, which has to be that long. -/
def parseHex (width : Nat) (p : List Char) : Option (Nat × List Char) := readGroup width p

def parseDash : List Char → Option (List Char)
  | '-' :: p => some p
  | _ => none

def parseFields (p : List Char) : Option Guid := do
  let (d1, p) ← parseHex 8 p
  let p ← parseDash p
  let (d2, p) ← parseHex 4 p
  let p ← parseDash p
  let (d3, p) ← parseHex 4 p
  let p ← parseDash p
  let (d4a, p) ← parseHex 2 p
  let (d4b, p) ← parseHex 2 p
  let p ← parseDash p
  let (d4c, p) ← parseHex 2 p
  let (d4d, p) ← parseHex 2 p
  let (d4e, p) ← parseHex 2 p
  let (d4f, p) ← parseHex 2 p
  let (d4g, p) ← parseHex 2 p
  let (d4h, _) ← parseHex 2 p
  pure
    { data1 := d1.toUInt32, data2 := d2.toUInt16, data3 := d3.toUInt16
      data4 := #v[d4a.toUInt8, d4b.toUInt8, d4c.toUInt8, d4d.toUInt8, d4e.toUInt8, d4f.toUInt8,
        d4g.toUInt8, d4h.toUInt8] }

def isOpening (c : Char) : Bool := c = '{' || c = '('

def isClosing (c : Char) : Bool := c = '}' || c = ')'

def trimmed (s : List Char) : List Char := (s.dropWhile isOpening).rdropWhile isClosing

/-- A `Char` of `s` stands for one byte of the `std::string`, which is what the length
counts. -/
def fromString (s : List Char) : Guid :=
  if (trimmed s).length < 36 then {} else (parseFields (trimmed s)).getD {}

/-! ## The format -/

def format : List Item :=
  [.digits 8, .mark '-', .digits 4, .mark '-', .digits 4, .mark '-', .digits 2, .digits 2,
    .mark '-', .digits 2, .digits 2, .digits 2, .digits 2, .digits 2, .digits 2]

def values (g : Guid) : List Nat :=
  [g.data1.toNat, g.data2.toNat, g.data3.toNat, g.data4[0].toNat, g.data4[1].toNat,
    g.data4[2].toNat, g.data4[3].toNat, g.data4[4].toNat, g.data4[5].toNat, g.data4[6].toNat,
    g.data4[7].toNat]

def ofValues : List Nat → Guid
  | [d1, d2, d3, d4a, d4b, d4c, d4d, d4e, d4f, d4g, d4h] =>
    { data1 := d1.toUInt32, data2 := d2.toUInt16, data3 := d3.toUInt16
      data4 := #v[d4a.toUInt8, d4b.toUInt8, d4c.toUInt8, d4d.toUInt8, d4e.toUInt8, d4f.toUInt8,
        d4g.toUInt8, d4h.toUInt8] }
  | _ => {}

theorem plain_format : Plain format := by
  have hdash : ∀ c : Char, c.toUpper = '-' ↔ c = '-' := by
    intro c
    have hupper := toUpper_toNat c
    constructor
    · intro h
      rw [h] at hupper
      apply Char.toNat_inj.mp
      simp only [Char.reduceToNat] at hupper ⊢
      grind
    · rintro rfl
      rfl
  unfold Plain format
  simp only [List.forall_mem_cons, hdash, implies_true, Nat.zero_lt_succ, true_and,
    List.not_mem_nil, false_implies]

/-- The values that are scanned, whatever is left of the text. -/
def scanned (items : List Item) (p : List Char) : Option (List Nat) := (scan items p).map Prod.fst

theorem scanned_digits {α : Type} (w : Nat) (items : List Item) (p : List Char)
    (f : List Nat → α) :
    (scanned (.digits w :: items) p).map f
      = (parseHex w p).bind fun d => (scanned items d.2).map fun vs => f (d.1 :: vs) := by
  rw [scanned, scan, parseHex]
  cases readGroup w p with
  | none => rfl
  | some d =>
    show (((scan items d.2).bind _).map _).map _ = ((scan items d.2).map _).map _
    cases scan items d.2 <;> rfl

theorem scanned_dash {α : Type} (items : List Item) (p : List Char) (f : List Nat → α) :
    (scanned (.mark '-' :: items) p).map f
      = (parseDash p).bind fun p => (scanned items p).map f := by
  rw [parseDash.eq_def]
  split
  · rfl
  · rename_i hdash
    cases p with
    | nil => rfl
    | cons c p =>
      have hc : c ≠ '-' := fun h => hdash p (by rw [h])
      simp only [scanned, scan, if_neg hc, Option.bind_none, Option.map_none]

theorem parseFields_eq (p : List Char) :
    parseFields p = (scan format p).map fun r => ofValues r.1 := by
  have hstep : ∀ {α : Type} {x : Option α} {f g : α → Option Guid}, (∀ a, f a = g a) →
      x.bind f = x.bind g := by
    intro α x f g h
    rw [funext h]
  have hscanned : parseFields p = (scanned format p).map ofValues := by
    rw [parseFields, format]
    rw [scanned_digits]
    refine hstep fun _ => ?_
    rw [scanned_dash]
    refine hstep fun _ => ?_
    rw [scanned_digits]
    refine hstep fun _ => ?_
    rw [scanned_dash]
    refine hstep fun _ => ?_
    rw [scanned_digits]
    refine hstep fun _ => ?_
    rw [scanned_dash]
    refine hstep fun _ => ?_
    rw [scanned_digits]
    refine hstep fun _ => ?_
    rw [scanned_digits]
    refine hstep fun _ => ?_
    rw [scanned_dash]
    refine hstep fun _ => ?_
    rw [scanned_digits]
    refine hstep fun _ => ?_
    rw [scanned_digits]
    refine hstep fun _ => ?_
    rw [scanned_digits]
    refine hstep fun _ => ?_
    rw [scanned_digits]
    refine hstep fun _ => ?_
    rw [scanned_digits]
    refine hstep fun _ => ?_
    rw [scanned_digits]
    refine hstep fun _ => ?_
    rfl
  rw [hscanned, scanned, Option.map_map]
  rfl

theorem render_values (g : Guid) : render format (values g) = toString g := by
  simp [render, format, values, toString]

theorem fits_values (g : Guid) : Fits format (values g) :=
  ⟨g.data1.toNat_lt, g.data2.toNat_lt, g.data3.toNat_lt, g.data4[0].toNat_lt,
    g.data4[1].toNat_lt, g.data4[2].toNat_lt, g.data4[3].toNat_lt, g.data4[4].toNat_lt,
    g.data4[5].toNat_lt, g.data4[6].toNat_lt, g.data4[7].toNat_lt, trivial⟩

theorem ofValues_values (g : Guid) : ofValues (values g) = g := by
  obtain ⟨d1, d2, d3, d4⟩ := g
  simp only [values, ofValues, Guid.mk.injEq]
  refine ⟨UInt32.ofNat_toNat, UInt16.ofNat_toNat, UInt16.ofNat_toNat, ?_⟩
  ext i hi
  have hcases : i = 0 ∨ i = 1 ∨ i = 2 ∨ i = 3 ∨ i = 4 ∨ i = 5 ∨ i = 6 ∨ i = 7 := by omega
  rcases hcases with rfl | rfl | rfl | rfl | rfl | rfl | rfl | rfl <;>
    exact congrArg UInt8.toNat UInt8.ofNat_toNat

theorem fits_digits {w : Nat} {items : List Item} {vs : List Nat}
    (h : Fits (.digits w :: items) vs) :
    ∃ v vs', vs = v :: vs' ∧ v < 16 ^ w ∧ Fits items vs' := by
  cases vs with
  | nil => cases h
  | cons v vs => exact ⟨v, vs, rfl, h⟩

theorem values_ofValues {vs : List Nat} (h : Fits format vs) : values (ofValues vs) = vs := by
  have hword : ∀ n < 16 ^ 8, n.toUInt32.toNat = n := fun n hn => Nat.mod_eq_of_lt hn
  have hhalf : ∀ n < 16 ^ 4, n.toUInt16.toNat = n := fun n hn => Nat.mod_eq_of_lt hn
  have hbyte : ∀ n < 16 ^ 2, n.toUInt8.toNat = n := fun n hn => Nat.mod_eq_of_lt hn
  obtain ⟨d1, vs, rfl, h1, h⟩ := fits_digits h
  obtain ⟨d2, vs, rfl, h2, h⟩ := fits_digits h
  obtain ⟨d3, vs, rfl, h3, h⟩ := fits_digits h
  obtain ⟨d4a, vs, rfl, ha, h⟩ := fits_digits h
  obtain ⟨d4b, vs, rfl, hb, h⟩ := fits_digits h
  obtain ⟨d4c, vs, rfl, hc, h⟩ := fits_digits h
  obtain ⟨d4d, vs, rfl, hd, h⟩ := fits_digits h
  obtain ⟨d4e, vs, rfl, he, h⟩ := fits_digits h
  obtain ⟨d4f, vs, rfl, hf, h⟩ := fits_digits h
  obtain ⟨d4g, vs, rfl, hg, h⟩ := fits_digits h
  obtain ⟨d4h, vs, rfl, hh, h⟩ := fits_digits h
  cases vs with
  | nil =>
    show [d1.toUInt32.toNat, d2.toUInt16.toNat, d3.toUInt16.toNat, d4a.toUInt8.toNat,
      d4b.toUInt8.toNat, d4c.toUInt8.toNat, d4d.toUInt8.toNat, d4e.toUInt8.toNat,
      d4f.toUInt8.toNat, d4g.toUInt8.toNat, d4h.toUInt8.toNat] = _
    rw [hword _ h1, hhalf _ h2, hhalf _ h3, hbyte _ ha, hbyte _ hb, hbyte _ hc, hbyte _ hd,
      hbyte _ he, hbyte _ hf, hbyte _ hg, hbyte _ hh]
  | cons v vs => cases h

/-! ## Braces -/

/-- The text of a GUID between any braces. -/
def Braced (s text : List Char) : Prop :=
  ∃ opening closing, s = opening ++ text ++ closing ∧ (∀ c ∈ opening, isOpening c = true) ∧
    ∀ c ∈ closing, isClosing c = true

theorem braced_trimmed (s : List Char) : Braced s (trimmed s) := by
  refine ⟨s.takeWhile isOpening, (s.dropWhile isOpening).rtakeWhile isClosing, ?_, ?_, ?_⟩
  · rw [trimmed, List.append_assoc, List.rdropWhile_append_rtakeWhile,
      List.takeWhile_append_dropWhile]
  · exact fun c hc => List.mem_takeWhile_imp hc
  · exact fun c hc => List.mem_rtakeWhile_imp hc

theorem trimmed_of_braced {s text : List Char} (h : Braced s text)
    (hplain : ∀ c ∈ text, isOpening c = false ∧ isClosing c = false) : trimmed s = text := by
  obtain ⟨opening, closing, rfl, hopening, hclosing⟩ := h
  have hfront : ∀ c ∈ text ++ closing, isOpening c = false := by
    intro c hc
    rcases List.mem_append.mp hc with hc | hc
    · exact (hplain c hc).1
    · have hclose := hclosing c hc
      simp only [isClosing, Bool.or_eq_true, decide_eq_true_eq] at hclose
      rcases hclose with rfl | rfl <;> rfl
  have hdrop : (text ++ closing).dropWhile isOpening = text ++ closing := by
    rw [List.dropWhile_eq_self_iff]
    intro hlength
    rw [hfront _ (List.getElem_mem hlength)]
    decide
  have hback : (text ++ closing).rdropWhile isClosing = text := by
    have hlast : text.rdropWhile isClosing = text := by
      rw [List.rdropWhile_eq_self_iff]
      intro hne
      rw [(hplain _ (List.getLast_mem hne)).2]
      decide
    rw [List.rdropWhile, List.reverse_append,
      List.dropWhile_append_of_pos fun c hc => hclosing c (List.mem_reverse.mp hc)]
    exact hlast
  rw [trimmed, List.append_assoc, List.dropWhile_append_of_pos hopening, hdrop, hback]

theorem isHex_plain {c : Char} (h : isHex c = true) :
    isOpening c = false ∧ isClosing c = false := by
  have hnone : isHex '{' = false ∧ isHex '(' = false ∧ isHex '}' = false ∧ isHex ')' = false := by
    decide
  have hne : ∀ c' : Char, isHex c' = false → c ≠ c' := by
    rintro c' hc' rfl
    rw [h] at hc'
    cases hc'
  simp [isOpening, isClosing, hne _ hnone.1, hne _ hnone.2.1, hne _ hnone.2.2.1,
    hne _ hnone.2.2.2]

/-- A GUID's text, in any case of letters, has no braces of its own. -/
theorem plain_of_toString {g : Guid} {text : List Char} (h : text.map Char.toUpper = toString g) :
    ∀ c ∈ text, isOpening c = false ∧ isClosing c = false := by
  intro c hc
  have hmem : c.toUpper ∈ toString g := h ▸ List.mem_map_of_mem hc
  have hcases : isHex c.toUpper = true ∨ c.toUpper = '-' := by
    rw [toString] at hmem
    simp only [List.mem_append, List.mem_cons] at hmem
    have hhex : ∀ w n, c.toUpper ∈ HexFormat.toHex w n → isHex c.toUpper = true := fun _ _ hc =>
      isHex_of_mem_toHex hc
    grind
  rcases hcases with hhex | hdash
  · rw [isHex_toUpper] at hhex
    exact isHex_plain hhex
  · have hc : c = '-' := ((plain_format (.mark '-') (by decide)) c).mp hdash
    rw [hc]
    decide

/-! ## Reading -/

theorem length_toString (g : Guid) : (toString g).length = 36 := by
  simp [toString]

/-- The text of a GUID in any case of letters, with or without braces, is read as
the GUID. -/
theorem fromString_of_text {s text : List Char} {g : Guid} (hbraced : Braced s text)
    (htext : text.map Char.toUpper = toString g) :
    Reads format (trimmed s) (values g) [] ∧ fromString s = g := by
  have htrimmed := trimmed_of_braced hbraced (plain_of_toString htext)
  have hreads : Reads format (trimmed s) (values g) [] := by
    rw [htrimmed]
    exact reads_render plain_format (fits_values g) (htext.trans (render_values g).symm)
  have hlength : (trimmed s).length = 36 := by
    rw [htrimmed, ← length_toString g, ← htext, List.length_map]
  refine ⟨hreads, ?_⟩
  rw [fromString, if_neg (by omega), parseFields_eq, scan_iff.mpr hreads, Option.map_some,
    Option.getD_some, ofValues_values]

theorem fromString_ne_null {s : List Char} (h : fromString s ≠ {}) :
    36 ≤ (trimmed s).length ∧ ∃ vs rest, Reads format (trimmed s) vs rest ∧
      fromString s = ofValues vs := by
  rw [fromString] at h ⊢
  split at h
  · exact absurd rfl h
  · rename_i hlength
    rw [if_neg hlength]
    rw [parseFields_eq] at h ⊢
    cases hscan : scan format (trimmed s) with
    | none =>
      rw [hscan] at h
      exact absurd rfl h
    | some r =>
      obtain ⟨vs, rest⟩ := r
      exact ⟨by omega, vs, rest, scan_iff.mp hscan, rfl⟩

/-- If a text is not read as the null GUID, it is the text of the GUID it is read
as, in any case of letters and between any braces. -/
def ReadAsText (s : List Char) : Prop :=
  fromString s ≠ {} →
    ∃ text, Braced s text ∧ text.map Char.toUpper = toString (fromString s)

/-- Groups that are not all zero are read, and the text, of 36 characters at
least, goes on behind them. A group that stops early leaves such a rest. -/
def GoesOn (text : List Char) : Prop :=
  36 ≤ text.length ∧ ∃ vs rest, Reads format text vs rest ∧ (∃ v ∈ vs, v ≠ 0) ∧ rest ≠ []

theorem ofValues_ne_null {vs : List Nat} (h : Fits format vs) :
    ofValues vs ≠ {} ↔ ∃ v ∈ vs, v ≠ 0 := by
  constructor
  · intro hne
    by_contra hzero
    have hall : ∀ v ∈ vs, v = 0 := fun v hv => by_contra fun hv' => hzero ⟨v, hv, hv'⟩
    have hlength : vs.length = 11 := by
      rw [← values_ofValues h]
      rfl
    have hvs : vs = List.replicate 11 0 := by
      rw [← hlength]
      exact List.eq_replicate_of_mem hall
    rw [hvs] at hne
    exact hne rfl
  · rintro ⟨v, hv, hne⟩ hnull
    rw [← values_ofValues h, hnull] at hv
    have hzero : ∀ v ∈ values {}, v = 0 := by decide
    exact hne (hzero v hv)

theorem readAsText_iff (s : List Char) : ReadAsText s ↔ ¬ GoesOn (trimmed s) := by
  constructor
  · rintro h ⟨hlength, vs, rest, hreads, hne, hrest⟩
    have hfrom : fromString s = ofValues vs := by
      rw [fromString, if_neg (by omega), parseFields_eq, scan_iff.mpr hreads]
      rfl
    obtain ⟨text, hbraced, htext⟩ := h (by
      rw [hfrom]
      exact (ofValues_ne_null hreads.fits).mpr hne)
    have hall := scan_iff.mpr (fromString_of_text hbraced htext).1
    rw [scan_iff.mpr hreads] at hall
    cases hall
    exact hrest rfl
  · intro hends hne
    obtain ⟨hlength, vs, rest, hreads, hfrom⟩ := fromString_ne_null hne
    have hrest : rest = [] := by
      by_contra hrest
      rw [hfrom] at hne
      exact hends ⟨hlength, vs, rest, hreads, (ofValues_ne_null hreads.fits).mp hne, hrest⟩
    rw [hrest] at hreads
    refine ⟨trimmed s, braced_trimmed s, ?_⟩
    rw [hreads.render plain_format hlength, hfrom, ← render_values,
      values_ofValues hreads.fits, List.map_nil, List.append_nil]

/-- What is written is read back; and exactly the texts that go on behind the last
group are read as GUIDs they are not the text of. -/
theorem fromString_toString_iff (g : Guid) (s : List Char) :
    fromString (toString g) = g ∧ (ReadAsText s ↔ ¬ GoesOn (trimmed s)) := by
  refine ⟨?_, readAsText_iff s⟩
  have hupper : (toString g).map Char.toUpper = toString g := by
    have hdash : Char.toUpper '-' = '-' := by decide
    simp only [toString, List.map_append, List.map_cons, map_toUpper_toHex, hdash]
  have hbraced : Braced (toString g) (toString g) := ⟨[], [], by simp, by simp, by simp⟩
  exact (fromString_of_text hbraced hupper).2

def longText : List Char := "00112233-4455-6677-8899-AABBCCDDEEFF-0".toList

/-- What follows the GUID is not looked at. -/
theorem fromString_longText :
    fromString longText ≠ {} ∧ ¬ ReadAsText longText := by
  have hscan : scan format (trimmed longText) = some
      ([0x00112233, 0x4455, 0x6677, 0x88, 0x99, 0xAA, 0xBB, 0xCC, 0xDD, 0xEE, 0xFF],
        ['-', '0']) := by
    decide
  have hgoesOn : GoesOn (trimmed longText) :=
    ⟨by decide, _, _, scan_iff.mp hscan, ⟨0x00112233, by decide, by decide⟩, by decide⟩
  exact ⟨by decide, fun h => (readAsText_iff longText).mp h hgoesOn⟩

end MBootCore.Guid
