import Mathlib.Data.List.Basic
import Mathlib.Tactic.Common
import MBootCore.Firehose.Xml
import MBootCore.Support.Scan

/-!
# Firehose — XmlTokens

The scanning half of `FirehoseXmlEngine` against the serializer's output: what
the escapes leave out of a text, which token each kind of tag is read as, and
what the tag scanner makes of a serialized tag. Values are escaped on the way
out and not unescaped on the way in, so an attribute comes back as
`escapedAttribute`.
-/

namespace MBootCore.FirehoseXmlEngine

open Scan

/-! ## Well-formed elements -/

def ValidName (name : String) : Prop :=
  name.toList ≠ [] ∧ ∀ c ∈ name.toList, isWhitespace c = false ∧
    c ≠ '"' ∧ c ≠ '\'' ∧ c ≠ '<' ∧ c ≠ '>' ∧ c ≠ '/' ∧ c ≠ '='

/-- No whitespace at either end. -/
def Trimmed (content : String) : Prop :=
  ∀ c, content.toList.head? = some c ∨ content.toList.getLast? = some c → isWhitespace c = false

/-! ## Escaping -/

def AttributeSafe (value : String) : Prop :=
  ∀ c ∈ value.toList, c ≠ '&' ∧ c ≠ '"' ∧ c ≠ '<' ∧ c ≠ '>' ∧ c ≠ '\''

def ContentSafe (content : String) : Prop :=
  ∀ c ∈ content.toList, c ≠ '&' ∧ c ≠ '<' ∧ c ≠ '>'

theorem length_le_flatMap {α β : Type} {f : α → List β} (h : ∀ a, 1 ≤ (f a).length) (l : List α) :
    l.length ≤ (l.flatMap f).length := by
  induction l with
  | nil => simp
  | cons a l ih =>
    have := h a
    simp only [List.flatMap_cons, List.length_append, List.length_cons]
    omega

/-- A character-wise escape is the identity exactly on text it leaves alone,
as everything it changes gets longer. -/
theorem flatMap_eq_self_iff {f : Char → List Char} (hlen : ∀ c, 1 ≤ (f c).length)
    (hlong : ∀ c, f c ≠ [c] → 1 < (f c).length) (s : List Char) :
    s.flatMap f = s ↔ ∀ c ∈ s, f c = [c] := by
  induction s with
  | nil => simp
  | cons c s ih =>
    rw [List.flatMap_cons, List.forall_mem_cons]
    constructor
    · intro h
      have hc : f c = [c] := by
        by_contra hne
        have h1 := hlong c hne
        have h2 := congrArg List.length h
        have h3 := length_le_flatMap hlen s
        simp only [List.length_append, List.length_cons] at h2
        omega
      rw [hc] at h
      exact ⟨hc, ih.mp (by simpa using h)⟩
    · rintro ⟨hc, hs⟩
      rw [hc, ih.mpr hs]
      rfl

theorem escapeAttributeChar_eq_iff (c : Char) : escapeAttributeChar c = [c] ↔
    c ≠ '&' ∧ c ≠ '"' ∧ c ≠ '<' ∧ c ≠ '>' ∧ c ≠ '\'' := by
  unfold escapeAttributeChar
  split_ifs <;> simp_all

theorem escapeAttributeChar_length (c : Char) : 1 ≤ (escapeAttributeChar c).length ∧
    (escapeAttributeChar c ≠ [c] → 1 < (escapeAttributeChar c).length) := by
  unfold escapeAttributeChar
  split_ifs <;> simp

theorem escapeContentChar_eq_iff (c : Char) : escapeContentChar c = [c] ↔
    c ≠ '&' ∧ c ≠ '<' ∧ c ≠ '>' := by
  unfold escapeContentChar
  split_ifs <;> simp_all

theorem escapeContentChar_length (c : Char) : 1 ≤ (escapeContentChar c).length ∧
    (escapeContentChar c ≠ [c] → 1 < (escapeContentChar c).length) := by
  unfold escapeContentChar
  split_ifs <;> simp

theorem escapeAttribute_eq_iff (value : String) :
    escapeAttribute value = value ↔ AttributeSafe value := by
  rw [escapeAttribute, ← String.toList_inj, String.toList_ofList,
    flatMap_eq_self_iff (fun c => (escapeAttributeChar_length c).1)
      (fun c => (escapeAttributeChar_length c).2)]
  exact forall₂_congr fun c _ => escapeAttributeChar_eq_iff c

theorem escapeContent_eq_iff (content : String) :
    escapeContent content = content ↔ ContentSafe content := by
  rw [escapeContent, ← String.toList_inj, String.toList_ofList,
    flatMap_eq_self_iff (fun c => (escapeContentChar_length c).1)
      (fun c => (escapeContentChar_length c).2)]
  exact forall₂_congr fun c _ => escapeContentChar_eq_iff c

/-- Nothing an attribute value is escaped to can end a value or a tag. -/
theorem mem_escapeAttribute {value : String} {c : Char} (h : c ∈ (escapeAttribute value).toList) :
    c ≠ '"' ∧ c ≠ '<' ∧ c ≠ '>' := by
  rw [escapeAttribute, String.toList_ofList, List.mem_flatMap] at h
  obtain ⟨d, -, hd⟩ := h
  unfold escapeAttributeChar at hd
  split_ifs at hd <;> revert c <;> simp_all

theorem mem_escapeContent {content : String} {c : Char} (h : c ∈ (escapeContent content).toList) :
    c ≠ '<' ∧ c ≠ '>' := by
  rw [escapeContent, String.toList_ofList, List.mem_flatMap] at h
  obtain ⟨d, -, hd⟩ := h
  unfold escapeContentChar at hd
  split_ifs at hd <;> revert c <;> simp_all

/-! ## Tokens -/

theorem isWhitespace_lt : isWhitespace '<' = false := by decide

theorem next_tagOpen {body rest : List Char} (hbody : ∀ c ∈ body, c ≠ '>')
    (hhead : body.head? ≠ some '/') (hlast : body.getLast? ≠ some '/') :
    next ('<' :: (body ++ '>' :: rest)) = (⟨.tagOpen, body⟩, rest) := by
  have hdrop : (body ++ '>' :: rest).dropWhile (· ≠ '>') = '>' :: rest :=
    dropWhile_run (by simpa using hbody) (stops_cons (by simp))
  have htake : (body ++ '>' :: rest).takeWhile (· ≠ '>') = body :=
    takeWhile_run (by simpa using hbody) (stops_cons (by simp))
  rw [next, dropWhile_eq_self (stops_cons isWhitespace_lt)]
  split
  · simp_all
  · next tail heq =>
    exfalso
    cases body with
    | nil => simp at heq
    | cons c body => simp_all
  · next tail hne heq =>
    obtain rfl : body ++ '>' :: rest = tail := by simpa using heq
    rw [hdrop, htake]
    simp [hlast]
  · next hne heq => simp_all

theorem next_selfClose {body rest : List Char} (hbody : ∀ c ∈ body, c ≠ '>')
    (hhead : body.head? ≠ some '/') (hne : body ≠ []) :
    next ('<' :: (body ++ '/' :: '>' :: rest)) = (⟨.selfClose, body⟩, rest) := by
  have hbody' : ∀ c ∈ body ++ ['/'], c ≠ '>' := by
    intro c hc
    rcases List.mem_append.mp hc with hc | hc
    · exact hbody c hc
    · simp_all
  have hdrop : (body ++ ['/'] ++ '>' :: rest).dropWhile (· ≠ '>') = '>' :: rest :=
    dropWhile_run (by simpa using hbody') (stops_cons (by simp))
  have htake : (body ++ ['/'] ++ '>' :: rest).takeWhile (· ≠ '>') = body ++ ['/'] :=
    takeWhile_run (by simpa using hbody') (stops_cons (by simp))
  rw [show body ++ '/' :: '>' :: rest = body ++ ['/'] ++ '>' :: rest by simp, next,
    dropWhile_eq_self (stops_cons isWhitespace_lt)]
  split
  · simp_all
  · next tail heq =>
    exfalso
    cases body with
    | nil => simp at hne
    | cons c body => simp_all
  · next tail hne heq =>
    obtain rfl : body ++ ['/'] ++ '>' :: rest = tail := by simpa using heq
    rw [hdrop, htake]
    simp
  · next hne heq => simp_all

theorem next_tagClose {name rest : List Char} (hname : ∀ c ∈ name, c ≠ '>') :
    next ('<' :: '/' :: (name ++ '>' :: rest)) = (⟨.tagClose, name⟩, rest) := by
  have hdrop : (name ++ '>' :: rest).dropWhile (· ≠ '>') = '>' :: rest :=
    dropWhile_run (by simpa using hname) (stops_cons (by simp))
  have htake : (name ++ '>' :: rest).takeWhile (· ≠ '>') = name :=
    takeWhile_run (by simpa using hname) (stops_cons (by simp))
  rw [next, dropWhile_eq_self (stops_cons isWhitespace_lt)]
  simp only [hdrop, htake]

theorem next_text {c : Char} {text rest : List Char} (hspace : isWhitespace c = false)
    (htext : ∀ d ∈ c :: text, d ≠ '<') :
    next (c :: text ++ '<' :: rest) = (⟨.text, c :: text⟩, '<' :: rest) := by
  have hdrop : (c :: text ++ '<' :: rest).dropWhile (· ≠ '<') = '<' :: rest :=
    dropWhile_run (by simpa using htext) (stops_cons (by simp))
  have htake : (c :: text ++ '<' :: rest).takeWhile (· ≠ '<') = c :: text :=
    takeWhile_run (by simpa using htext) (stops_cons (by simp))
  have hc : c ≠ '<' := htext c List.mem_cons_self
  rw [next, List.cons_append, dropWhile_eq_self (stops_cons hspace), ← List.cons_append]
  split
  · simp_all
  · simp_all
  · simp_all
  · rw [hdrop, htake]

/-! ## Tag contents -/

/-- What stands between `<` and the end of the tag. -/
def tagBody (name : String) (attributes : List XmlAttribute) : List Char :=
  name.toList ++ attributes.flatMap renderAttribute

def escapedAttribute (attr : XmlAttribute) : XmlAttribute :=
  { attr with value := escapeAttribute attr.value }

theorem stops_attributes (attributes : List XmlAttribute) :
    Stops (fun c => !isWhitespace c) (attributes.flatMap renderAttribute) := by
  cases attributes with
  | nil => exact stops_nil
  | cons attr attributes =>
    rw [List.flatMap_cons, renderAttribute]
    exact stops_cons (by decide)

/-- One round of the attribute loop reads one rendered attribute. -/
theorem parseAttributes_renderAttribute {attr : XmlAttribute} (hname : ValidName attr.name)
    (fuel : Nat) (rest : List Char) :
    parseAttributes (fuel + 1) (renderAttribute attr ++ rest)
      = escapedAttribute attr :: parseAttributes fuel rest := by
  obtain ⟨hne, hchars⟩ := hname
  obtain ⟨c, name, hcons⟩ := List.exists_cons_of_ne_nil hne
  have hc : isWhitespace c = false := (hchars c (by rw [hcons]; exact List.mem_cons_self)).1
  have hinput : renderAttribute attr ++ rest = ' ' :: (attr.name.toList ++ '=' :: '"' ::
      ((escapeAttribute attr.value).toList ++ '"' :: rest)) := by
    simp [renderAttribute]
  have hskip : (renderAttribute attr ++ rest).dropWhile isWhitespace = attr.name.toList ++
      '=' :: '"' :: ((escapeAttribute attr.value).toList ++ '"' :: rest) := by
    rw [hinput, List.dropWhile_cons_of_pos (by decide), hcons]
    exact dropWhile_eq_self (stops_cons hc)
  have hrun : ∀ d ∈ attr.name.toList, (d ≠ '=' && !isWhitespace d) = true := by
    intro d hd
    have := hchars d hd
    simp [this]
  have hvalue : ∀ d ∈ (escapeAttribute attr.value).toList, decide (d ≠ '"') = true := by
    intro d hd
    simpa using (mem_escapeAttribute hd).1
  have htake : ((escapeAttribute attr.value).toList ++ '"' :: rest).takeWhile (· ≠ '"')
      = (escapeAttribute attr.value).toList := takeWhile_run hvalue (stops_cons (by simp))
  have hdrop : ((escapeAttribute attr.value).toList ++ '"' :: rest).dropWhile (· ≠ '"')
      = '"' :: rest := dropWhile_run hvalue (stops_cons (by simp))
  rw [parseAttributes, hskip]
  split
  · simp_all
  · rw [takeWhile_run hrun (stops_cons (by simp)), dropWhile_run hrun (stops_cons (by simp))]
    simp only [List.head?_cons, if_true, List.tail_cons]
    rw [dropWhile_eq_self (stops_cons (by decide))]
    simp only [htake, hdrop, String.ofList_toList, List.tail_cons, escapedAttribute]

theorem parseAttributes_flatMap {attributes : List XmlAttribute}
    (hnames : ∀ attr ∈ attributes, ValidName attr.name) {fuel : Nat}
    (hfuel : attributes.length ≤ fuel) :
    parseAttributes fuel (attributes.flatMap renderAttribute)
      = attributes.map escapedAttribute := by
  induction attributes generalizing fuel with
  | nil => cases fuel <;> simp [parseAttributes]
  | cons attr attributes ih =>
    obtain ⟨fuel, rfl⟩ : ∃ k, fuel = k + 1 := ⟨fuel - 1, by simp at hfuel; omega⟩
    rw [List.forall_mem_cons] at hnames
    rw [List.flatMap_cons, parseAttributes_renderAttribute hnames.1, ih hnames.2 (by
      simpa using hfuel), List.map_cons]

theorem parseTagContent_tagBody {name : String} {attributes : List XmlAttribute}
    (hname : ValidName name) (hattributes : ∀ attr ∈ attributes, ValidName attr.name) :
    parseTagContent (tagBody name attributes) = ⟨name, attributes.map escapedAttribute⟩ := by
  have hrun : ∀ c ∈ name.toList, (!isWhitespace c) = true := by
    intro c hc
    simp [(hname.2 c hc).1]
  have hlen : attributes.length ≤ (tagBody name attributes).length := by
    have := length_le_flatMap (f := renderAttribute) (fun attr => by simp [renderAttribute])
      attributes
    simp only [tagBody, List.length_append]
    omega
  rw [parseTagContent, tagBody, takeWhile_run hrun (stops_attributes attributes),
    dropWhile_run hrun (stops_attributes attributes), String.ofList_toList,
    ← tagBody, parseAttributes_flatMap hattributes hlen]

theorem tagBody_head {name : String} (hname : ValidName name) (attributes : List XmlAttribute) :
    (tagBody name attributes).head? ≠ some '/' ∧ tagBody name attributes ≠ [] := by
  obtain ⟨hne, hchars⟩ := hname
  obtain ⟨c, rest, hcons⟩ := List.exists_cons_of_ne_nil hne
  have hc := hchars c (by rw [hcons]; exact List.mem_cons_self)
  simp [tagBody, hcons, hc]

theorem tagBody_getLast {name : String} (hname : ValidName name)
    (attributes : List XmlAttribute) : (tagBody name attributes).getLast? ≠ some '/' := by
  rcases List.eq_nil_or_concat attributes with rfl | ⟨init, last, rfl⟩
  · intro h
    have := hname.2 '/' (List.mem_of_getLast? (by simpa [tagBody] using h))
    simp at this
  · have hquote : tagBody name (init.concat last) = (name.toList ++
        init.flatMap renderAttribute ++ ' ' :: last.name.toList ++ "=\"".toList ++
        (escapeAttribute last.value).toList) ++ ['"'] := by
      simp [tagBody, renderAttribute]
    rw [hquote, List.getLast?_concat]
    decide

theorem mem_tagBody {name : String} {attributes : List XmlAttribute} (hname : ValidName name)
    (hattributes : ∀ attr ∈ attributes, ValidName attr.name) {c : Char}
    (h : c ∈ tagBody name attributes) : c ≠ '<' ∧ c ≠ '>' := by
  rw [tagBody, List.mem_append, List.mem_flatMap] at h
  rcases h with h | ⟨attr, hattr, h⟩
  · have := hname.2 c h
    exact ⟨this.2.2.2.1, this.2.2.2.2.1⟩
  · simp only [renderAttribute, List.mem_append, List.mem_cons, List.cons_append] at h
    rcases h with rfl | ((h | h) | h) | h
    · decide
    · have := (hattributes attr hattr).2 c h
      exact ⟨this.2.2.2.1, this.2.2.2.2.1⟩
    · revert c
      simp
    · exact (mem_escapeAttribute h).2
    · simp_all

/-! ## Progress -/

theorem suffix_of_dropWhile {p : Char → Bool} {s after : List Char} {c : Char}
    (h : s.dropWhile p = c :: after) : after <:+ s := by
  have hsuffix := List.dropWhile_suffix p (l := s)
  rw [h] at hsuffix
  exact (List.suffix_cons c after).trans hsuffix

/-- Every token but the last shortens the input. -/
theorem next_length (input : List Char) :
    (next input).2.length ≤ input.length ∧
      ((next input).1.type ≠ .eof → (next input).2.length < input.length) := by
  have hinput := (List.dropWhile_suffix isWhitespace (l := input)).length_le
  unfold next
  split
  · simp
  · next rest heq =>
    rw [heq] at hinput
    simp only [List.length_cons] at hinput
    split
    · exact ⟨by simp only; omega, by simp⟩
    · next after hgt =>
      have hafter := (suffix_of_dropWhile hgt).length_le
      exact ⟨by simp only; omega, fun _ => by simp only; omega⟩
  · next rest hne heq =>
    rw [heq] at hinput
    simp only [List.length_cons] at hinput
    split
    · exact ⟨by simp only; omega, by simp⟩
    · next after hgt =>
      have hafter := (suffix_of_dropWhile hgt).length_le
      simp only
      split <;> exact ⟨by simp only; omega, fun _ => by simp only; omega⟩
  · next hnil hclose hopen =>
    cases htext : input.dropWhile isWhitespace with
    | nil => exact absurd htext hnil
    | cons c text =>
      have hc : c ≠ '<' := by
        rintro rfl
        exact hopen text htext
      have hafter := (List.dropWhile_suffix (· ≠ '<') (l := text)).length_le
      rw [htext, List.length_cons] at hinput
      simp only
      rw [List.dropWhile_cons_of_pos (by simpa using hc)]
      exact ⟨by omega, fun _ => by omega⟩

end MBootCore.FirehoseXmlEngine
