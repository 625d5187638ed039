import MBootCore.Support.HexFormat
import MBootCore.Support.Scan

/-!
# JsonText — the texts of JSON values

The grammar of JSON texts (RFC 8259), with the blanks and the escapes a value is
written with. A string is a list of pieces, each of which stands for one
character: it is written as itself or as an escape, and an escape is longer than
the character it stands for (`text_eq_decode_iff`).
-/

namespace MBootCore.JsonText

open HexFormat (isHex)
open scoped Scan

/-! ## Blanks -/

def IsBlank (c : Char) : Prop := c ∈ [' ', '\t', '\n', '\r']

abbrev Blanks := { text : List Char // ∀ c ∈ text, IsBlank c }

/-! ## Strings -/

/-- The letters of the short escapes, with what they stand for. -/
def shortEscapes : List (Char × Char) :=
  [('"', '"'), ('\\', '\\'), ('/', '/'), ('b', '\x08'), ('f', '\x0c'), ('n', '\n'),
    ('r', '\r'), ('t', '\t')]

/-- What may stand unescaped between the quotes. -/
def Unescaped (c : Char) : Prop := 0x20 ≤ c.toNat ∧ c ≠ '"' ∧ c ≠ '\\'

instance : DecidablePred Unescaped := fun _ => inferInstanceAs (Decidable (_ ∧ _))

/-- Four hexadecimal digits of a code unit in the given range. -/
def IsUnit (low high : Nat) (digits : List Char) : Prop :=
  digits.length = 4 ∧ (∀ c ∈ digits, isHex c = true) ∧
    low ≤ HexFormat.fromHex 0 digits ∧ HexFormat.fromHex 0 digits < high

inductive Piece where
  | plain (c : Char) (h : Unescaped c)
  | short (letter meaning : Char) (h : (letter, meaning) ∈ shortEscapes)
  | unit (digits : List Char) (h : IsUnit 0 0xD800 digits ∨ IsUnit 0xE000 0x10000 digits)
  | pair (high low : List Char) (hhigh : IsUnit 0xD800 0xDC00 high)
      (hlow : IsUnit 0xDC00 0xE000 low)

namespace Piece

def text : Piece → List Char
  | plain c _ => [c]
  | short letter _ _ => ['\\', letter]
  | unit digits _ => '\\' :: 'u' :: digits
  | pair high low _ _ => '\\' :: 'u' :: high ++ '\\' :: 'u' :: low

def meaning : Piece → Char
  | plain c _ => c
  | short _ meaning _ => meaning
  | unit digits _ => Char.ofNat (HexFormat.fromHex 0 digits)
  | pair high low _ _ =>
    Char.ofNat (0x10000 + (HexFormat.fromHex 0 high - 0xD800) * 0x400 +
      (HexFormat.fromHex 0 low - 0xDC00))

def IsPlain (p : Piece) : Prop := p.text = [p.meaning]

theorem isPlain_or_longer (p : Piece) : p.IsPlain ∨ 1 < p.text.length := by
  cases p with
  | plain => exact .inl rfl
  | short => exact .inr (Nat.lt_succ_self 1)
  | unit => exact .inr (by simp [text])
  | pair => exact .inr (by simp [text])

theorem IsPlain.unescaped {p : Piece} (h : p.IsPlain) : Unescaped p.meaning := by
  have hlength := congrArg List.length h
  cases p with
  | plain c hc => exact hc
  | short | unit | pair => simp [text] at hlength

/-- No escape has the character in it, but for the short one that stands for it. -/
def Verbatim (c : Char) : Prop :=
  isHex c = false ∧ c ≠ 'u' ∧ c ≠ '\\' ∧ ∀ escape ∈ shortEscapes, c = escape.1 → c = escape.2

instance (c : Char) : Decidable (Verbatim c) := by
  unfold Verbatim
  infer_instance

theorem count_text_le (p : Piece) {c : Char} (hc : Verbatim c) :
    p.text.count c ≤ [p.meaning].count c := by
  obtain ⟨hhex, hu, hbackslash, hshort⟩ := hc
  have hunit {low high : Nat} {digits : List Char} (h : IsUnit low high digits) :
      digits.count c = 0 := by
    refine List.count_eq_zero.mpr fun hmem => ?_
    rw [h.2.1 c hmem] at hhex
    cases hhex
  cases p with
  | plain => exact Nat.le_refl _
  | short letter m h =>
    have hletter := hshort _ h
    by_cases heq : c = letter
    · obtain rfl := hletter heq
      simp only [text, meaning, List.count_cons, List.count_nil, beq_iff_eq, hbackslash.symm]
      split <;> simp
    · simp [text, List.count_cons, Ne.symm heq, hbackslash.symm]
  | unit digits h =>
    have hnone := h.elim hunit hunit
    simp [text, List.count_cons, hnone, hu.symm, hbackslash.symm]
  | pair high low hhigh hlow =>
    simp [text, List.count_cons, List.count_append, hunit hhigh, hunit hlow, hu.symm,
      hbackslash.symm]

end Piece

abbrev JString := List Piece

namespace JString

def text (s : JString) : List Char := s.flatMap Piece.text

def decode (s : JString) : List Char := s.map Piece.meaning

def quoted (s : JString) : List Char := '"' :: text s ++ ['"']

theorem length_decode_le (s : JString) : (decode s).length ≤ (text s).length := by
  induction s with
  | nil => exact Nat.le_refl 0
  | cons p s ih =>
    have hpiece : 1 ≤ p.text.length := by
      rcases p.isPlain_or_longer with h | h
      · rw [h]
        exact Nat.le_refl 1
      · exact Nat.le_of_lt h
    rw [decode, List.length_map] at ih
    rw [decode, List.length_map, List.length_cons, text, List.flatMap_cons, List.length_append]
    rw [text] at ih
    omega

theorem unescaped_of_plain {s : JString} (h : ∀ p ∈ s, p.IsPlain) {c : Char} (hc : c ∈ text s) :
    Unescaped c := by
  obtain ⟨p, hp, hmem⟩ := List.mem_flatMap.mp hc
  rw [h p hp, List.mem_singleton] at hmem
  rw [hmem]
  exact (h p hp).unescaped

/-- A string is written as what it stands for exactly when it has no escapes. -/
theorem text_eq_decode_iff (s : JString) : text s = decode s ↔ ∀ p ∈ s, p.IsPlain := by
  induction s with
  | nil => simp [text, decode]
  | cons p s ih =>
    rw [List.forall_mem_cons, ← ih]
    constructor
    · intro h
      rcases p.isPlain_or_longer with hplain | hlonger
      · refine ⟨hplain, ?_⟩
        rw [text, decode, List.flatMap_cons, List.map_cons, hplain] at h
        exact (List.cons.inj h).2
      · have hlength := congrArg List.length h
        have hrest := length_decode_le s
        rw [decode, List.length_map, List.length_cons, text, List.flatMap_cons,
          List.length_append] at hlength
        rw [decode, List.length_map, text] at hrest
        omega
    · rintro ⟨hplain, hrest⟩
      rw [text, decode, List.flatMap_cons, List.map_cons, hplain]
      exact congrArg _ hrest

theorem count_text_le (s : JString) {c : Char} (hc : Piece.Verbatim c) :
    (text s).count c ≤ (decode s).count c := by
  induction s with
  | nil => exact Nat.le_refl 0
  | cons p s ih =>
    have hpiece := p.count_text_le hc
    rw [text, decode, List.flatMap_cons, List.map_cons, List.count_append, ← List.singleton_append,
      List.count_append]
    exact Nat.add_le_add hpiece ih

theorem mem_decode {s : JString} {c : Char} (hc : Piece.Verbatim c) (hmem : c ∈ text s) :
    c ∈ decode s :=
  List.count_pos_iff.mp (Nat.lt_of_lt_of_le (List.count_pos_iff.mpr hmem) (count_text_le s hc))

end JString

/-! ## Values -/

def IsDigit (c : Char) : Prop := '0' ≤ c ∧ c ≤ '9'

def AreDigits (text : List Char) : Prop := text ≠ [] ∧ ∀ c ∈ text, IsDigit c

/-- An integer without leading zeros, then a fraction and an exponent, if any. -/
def IsNumber (text : List Char) : Prop :=
  ∃ sign whole fraction exponent : List Char, text = sign ++ whole ++ fraction ++ exponent ∧
    sign ∈ [[], ['-']] ∧
    AreDigits whole ∧ (whole.head? = some '0' → whole = ['0']) ∧
    (fraction = [] ∨ ∃ digits, AreDigits digits ∧ fraction = '.' :: digits) ∧
    (exponent = [] ∨ ∃ e mark digits, e ∈ ['e', 'E'] ∧ mark ∈ [[], ['+'], ['-']] ∧
      AreDigits digits ∧ exponent = e :: mark ++ digits)

/-- The text of a value among others, with the blanks around it. -/
structure Item where
  lead : Blanks
  value : List Char
  trail : Blanks

def Item.text (item : Item) : List Char := item.lead ++ item.value ++ item.trail

/-- A name and a value, with the blanks between and around them. -/
structure Member where
  lead : Blanks
  key : JString
  beforeColon : Blanks
  afterColon : Blanks
  value : List Char
  trail : Blanks

/-- What stands before the value. -/
def Member.opening (m : Member) : List Char :=
  m.lead ++ JString.quoted m.key ++ m.beforeColon ++ ':' :: m.afterColon

def Member.text (m : Member) : List Char := m.opening ++ m.value ++ m.trail

def separated (texts : List (List Char)) : List Char := [','].intercalate texts

inductive IsValue : List Char → Prop
  | literal {text : List Char} (h : text ∈ ["true".toList, "false".toList, "null".toList]) :
      IsValue text
  | number {text : List Char} (h : IsNumber text) : IsValue text
  | string (s : JString) : IsValue (JString.quoted s)
  | emptyArray (inner : Blanks) : IsValue ('[' :: inner ++ [']'])
  | array (items : List Item) (hne : items ≠ []) (h : ∀ item ∈ items, IsValue item.value) :
      IsValue ('[' :: separated (items.map Item.text) ++ [']'])
  | emptyObject (inner : Blanks) : IsValue ('{' :: inner ++ ['}'])
  | object (members : List Member) (hne : members ≠ []) (h : ∀ m ∈ members, IsValue m.value) :
      IsValue ('{' :: separated (members.map Member.text) ++ ['}'])

/-- The text of an object of the given members, with the blanks around it. -/
inductive IsObject : List Member → List Char → Prop
  | empty (lead inner trail : Blanks) : IsObject [] (lead ++ '{' :: inner ++ '}' :: trail)
  | members {members : List Member} (lead trail : Blanks) (hne : members ≠ [])
      (h : ∀ m ∈ members, IsValue m.value) :
      IsObject members (lead ++ '{' :: separated (members.map Member.text) ++ '}' :: trail)

/-! ## Characters -/

/-- No control characters but the blanks. -/
def IsText (c : Char) : Prop := 0x20 ≤ c.toNat ∨ IsBlank c

theorem Blanks.isText (text : Blanks) {c : Char} (h : c ∈ text.val) : IsText c :=
  .inr (text.property c h)

theorem printable_of_isHex {c : Char} (h : isHex c = true) : 0x20 ≤ c.toNat := by
  refine Classical.not_not.mp fun hlow => ?_
  have hnone : Digits.digitValue c = none := by
    have hlt : c.toNat < 0x20 := Nat.not_le.mp hlow
    have hge (d : Char) (hd : 0x20 ≤ d.toNat) : ¬ d ≤ c := by
      intro hle
      have hval : d.toNat ≤ c.toNat := UInt32.le_iff_toNat_le.mp hle
      omega
    simp [Digits.digitValue, hge '0' (by decide), hge 'a' (by decide), hge 'A' (by decide)]
  simp [isHex, HexFormat.hexDigit, hnone] at h

theorem Piece.printable (p : Piece) {c : Char} (h : c ∈ p.text) : 0x20 ≤ c.toNat := by
  have hunit {low high : Nat} {digits : List Char} (hd : IsUnit low high digits)
      (hmem : c ∈ digits) : 0x20 ≤ c.toNat := printable_of_isHex (hd.2.1 c hmem)
  have hescape (hmem : c = '\\' ∨ c = 'u') : 0x20 ≤ c.toNat := by
    rcases hmem with rfl | rfl <;> decide
  cases p with
  | plain d hd =>
    obtain rfl := List.mem_singleton.mp h
    exact hd.1
  | short letter m hm =>
    have hletter : 0x20 ≤ letter.toNat := by
      have hall : ∀ escape ∈ shortEscapes, 0x20 ≤ escape.1.toNat := by decide
      exact hall _ hm
    rcases List.mem_pair.mp h with rfl | rfl
    · decide
    · exact hletter
  | unit digits hd =>
    simp only [text, List.mem_cons, ← or_assoc] at h
    rcases h with h | h
    · exact hescape h
    · exact hd.elim (hunit · h) (hunit · h)
  | pair high low hhigh hlow =>
    simp only [text, List.cons_append, List.mem_cons, List.mem_append, ← or_assoc] at h
    rcases h with ((((h | h) | h) | h) | h) | h
    · exact hescape (.inl h)
    · exact hescape (.inr h)
    · exact hunit hhigh h
    · exact hescape (.inl h)
    · exact hescape (.inr h)
    · exact hunit hlow h

theorem JString.printable (s : JString) {c : Char} (h : c ∈ JString.text s) : 0x20 ≤ c.toNat := by
  obtain ⟨p, -, hp⟩ := List.mem_flatMap.mp h
  exact p.printable hp

theorem JString.isText (s : JString) {c : Char} (h : c ∈ JString.quoted s) : IsText c := by
  simp only [quoted, List.cons_append, List.mem_cons, List.mem_append, List.not_mem_nil,
    or_false] at h
  rcases h with rfl | h | rfl
  · exact .inl (by decide)
  · exact .inl (s.printable h)
  · exact .inl (by decide)

theorem AreDigits.isText {digits : List Char} (h : AreDigits digits) {c : Char} (hc : c ∈ digits) :
    IsText c := by
  have hle : 0x30 ≤ c.toNat := UInt32.le_iff_toNat_le.mp (h.2 c hc).1
  exact .inl (Nat.le_trans (by decide) hle)

theorem IsNumber.isText {text : List Char} (h : IsNumber text) {c : Char} (hc : c ∈ text) :
    IsText c := by
  obtain ⟨sign, whole, fraction, exponent, rfl, hsign, hwhole, -, hfraction, hexponent⟩ := h
  have hmark : ∀ mark ∈ [[], ['+'], ['-']], ∀ d ∈ mark, 0x20 ≤ d.toNat := by decide
  have hletter : ∀ e ∈ ['e', 'E'], 0x20 ≤ e.toNat := by decide
  have hminus : ∀ mark ∈ [[], ['-']], ∀ d ∈ mark, 0x20 ≤ d.toNat := by decide
  simp only [List.mem_append] at hc
  rcases hc with ((hc | hc) | hc) | hc
  · exact .inl (hminus sign hsign c hc)
  · exact hwhole.isText hc
  · rcases hfraction with rfl | ⟨digits, hdigits, rfl⟩
    · cases hc
    · rcases List.mem_cons.mp hc with rfl | hc
      · exact .inl (by decide)
      · exact hdigits.isText hc
  · rcases hexponent with rfl | ⟨e, mark, digits, he, hsigned, hdigits, rfl⟩
    · cases hc
    · rcases List.mem_append.mp hc with hc | hc
      · rcases List.mem_cons.mp hc with rfl | hc
        · exact .inl (hletter c he)
        · exact .inl (hmark mark hsigned c hc)
      · exact hdigits.isText hc

theorem mem_separated {texts : List (List Char)} {c : Char} (h : c ∈ separated texts) :
    c = ',' ∨ ∃ text ∈ texts, c ∈ text := by
  induction texts with
  | nil => simp [separated] at h
  | cons text texts ih =>
    cases texts with
    | nil => exact .inr ⟨text, List.mem_cons_self, by simpa [separated] using h⟩
    | cons next texts =>
      rw [separated, List.intercalate_cons_cons, List.mem_append, List.mem_append] at h
      rcases h with (h | h) | h
      · exact .inr ⟨text, List.mem_cons_self, h⟩
      · exact .inl (List.mem_singleton.mp h)
      · rcases ih h with rfl | ⟨other, hother, hc⟩
        · exact .inl rfl
        · exact .inr ⟨other, List.mem_cons_of_mem _ hother, hc⟩

theorem Item.isText {item : Item} (h : ∀ c ∈ item.value, IsText c) {c : Char}
    (hc : c ∈ item.text) : IsText c := by
  simp only [Item.text, List.mem_append] at hc
  rcases hc with (hc | hc) | hc
  · exact item.lead.isText hc
  · exact h c hc
  · exact item.trail.isText hc

theorem Member.isText_opening {m : Member} {c : Char} (hc : c ∈ m.opening) : IsText c := by
  simp only [Member.opening, List.mem_append, List.mem_cons] at hc
  rcases hc with ((hc | hc) | hc) | rfl | hc
  · exact m.lead.isText hc
  · exact m.key.isText hc
  · exact m.beforeColon.isText hc
  · exact .inl (by decide)
  · exact m.afterColon.isText hc

theorem Member.isText {m : Member} (h : ∀ c ∈ m.value, IsText c) {c : Char} (hc : c ∈ m.text) :
    IsText c := by
  simp only [Member.text, List.mem_append] at hc
  rcases hc with (hc | hc) | hc
  · exact isText_opening hc
  · exact h c hc
  · exact m.trail.isText hc

theorem isText_separated {texts : List (List Char)} (h : ∀ text ∈ texts, ∀ c ∈ text, IsText c)
    {c : Char} (hc : c ∈ separated texts) : IsText c := by
  rcases mem_separated hc with rfl | ⟨text, htext, hc⟩
  · exact .inl (by decide)
  · exact h text htext c hc

theorem isText_enclosed {first last : Char} (hfirst : 0x20 ≤ first.toNat)
    (hlast : 0x20 ≤ last.toNat) {inner : List Char} (h : ∀ c ∈ inner, IsText c) :
    ∀ c ∈ first :: inner ++ [last], IsText c := by
  intro c hc
  rcases List.mem_append.mp hc with hc | hc
  · rcases List.mem_cons.mp hc with rfl | hc
    · exact .inl hfirst
    · exact h c hc
  · obtain rfl := List.mem_singleton.mp hc
    exact .inl hlast

theorem isText_items {items : List Item} (h : ∀ item ∈ items, ∀ c ∈ item.value, IsText c) :
    ∀ c ∈ separated (items.map Item.text), IsText c := by
  refine fun c hc => isText_separated ?_ hc
  intro text htext d hd
  obtain ⟨item, hitem, rfl⟩ := List.mem_map.mp htext
  exact Item.isText (h item hitem) hd

theorem isText_members {members : List Member} (h : ∀ m ∈ members, ∀ c ∈ m.value, IsText c) :
    ∀ c ∈ separated (members.map Member.text), IsText c := by
  refine fun c hc => isText_separated ?_ hc
  intro text htext d hd
  obtain ⟨m, hm, rfl⟩ := List.mem_map.mp htext
  exact Member.isText (h m hm) hd

theorem IsValue.isText {text : List Char} (h : IsValue text) : ∀ c ∈ text, IsText c := by
  induction h with
  | literal h =>
    have hall : ∀ text ∈ ["true".toList, "false".toList, "null".toList], ∀ c ∈ text,
        0x20 ≤ c.toNat := by decide
    exact fun c hc => .inl (hall _ h c hc)
  | number h => exact fun c hc => h.isText hc
  | string s => exact fun c hc => s.isText hc
  | emptyArray inner => exact isText_enclosed (by decide) (by decide) fun c => inner.isText
  | array items hne h ih => exact isText_enclosed (by decide) (by decide) (isText_items ih)
  | emptyObject inner => exact isText_enclosed (by decide) (by decide) fun c => inner.isText
  | object members hne h ih => exact isText_enclosed (by decide) (by decide) (isText_members ih)

theorem IsObject.isText {members : List Member} {text : List Char} (h : IsObject members text) :
    ∀ c ∈ text, IsText c := by
  have hpadded (lead trail : Blanks) {inner : List Char} (h : ∀ c ∈ inner, IsText c) :
      ∀ c ∈ lead ++ '{' :: inner ++ '}' :: trail, IsText c := by
    intro c hc
    simp only [List.mem_append, List.mem_cons] at hc
    rcases hc with (hc | rfl | hc) | rfl | hc
    · exact lead.isText hc
    · exact .inl (by decide)
    · exact h c hc
    · exact .inl (by decide)
    · exact trail.isText hc
  cases h with
  | empty lead inner trail => exact hpadded lead trail fun c => inner.isText
  | members lead trail hne h =>
    exact hpadded lead trail (isText_members fun m hm => (h m hm).isText)

end MBootCore.JsonText
