import MBootCore.Support.JsonText
import Mathlib.Data.List.DropRight

/-!
# Firmware — ManifestScan

`extractValue` of `firmware/FirmwareReaders.cpp`, which takes the fields of a
manifest out of its text: it looks for the key in quotes, then for a colon, and
reads from there up to a comma, a brace or a line break.

Against the grammar of JSON this reads the member it is asked for where the
first key in quotes leads to that member's value, and then only a value that is
written without escapes, commas, braces and blanks at its ends.
-/

namespace MBootCore.Firmware

open JsonText
open scoped Scan

/-! ## The scan -/

def isspace (c : Char) : Bool := c ∈ [' ', '\t', '\n', '\x0b', '\x0c', '\r']

/-- What `find_first_not_of` passes over before a value. -/
def isSkipped (c : Char) : Bool := c ∈ [' ', '\t', '"', ':']

/-- What `find_first_of` ends a value at. -/
def endsValue (c : Char) : Bool := c ∈ [',', '\n', '\r', '}']

def trim (val : List Char) : List Char := (val.dropWhile isspace).rdropWhile isspace

/-- The value behind a colon. -/
def readValue (afterColon : List Char) : List Char :=
  let val := (afterColon.dropWhile isSkipped).takeWhile fun c => !endsValue c
  trim ((val.filter (· ≠ '"')).filter (· ≠ ','))

def quotedKey (key : List Char) : List Char := '"' :: key ++ ['"']

def extractValue (line key : List Char) : List Char :=
  match Scan.find (quotedKey key) line with
  | none => []
  | some found =>
    match found.dropWhile (· ≠ ':') with
    | [] => []
    | _ :: afterColon => readValue afterColon

/-! ## Members with a string -/

/-- A place for a string in the text of an object: a member whose value it is,
between others. -/
structure Place where
  lead : Blanks
  before : List Member
  member : Member
  after : List Member
  trail : Blanks
  values : ∀ m ∈ before ++ after, IsValue m.value

namespace Place

variable (p : Place)

def key : List Char := JString.decode p.member.key

/-- The members with the string in its place. -/
def members (s : JString) : List Member :=
  p.before ++ { p.member with value := JString.quoted s } :: p.after

def text (s : JString) : List Char :=
  p.lead ++ '{' :: separated ((p.members s).map Member.text) ++ '}' :: p.trail

/-- The key's value is read as the string it is. -/
def Reads (s : JString) : Prop := extractValue (p.text s) p.key = JString.decode s

/-- What stands before the string. -/
def opening : List Char :=
  p.lead ++ '{' :: p.before.flatMap (fun m => m.text ++ [',']) ++ p.member.opening

/-- What stands behind the string. -/
def closing : List Char :=
  p.member.trail ++ p.after.flatMap (fun m => ',' :: m.text) ++ '}' :: p.trail

/-- Between the first colon behind the first key in quotes and the string stands
nothing that is read. -/
def Clear : Prop :=
  ∃ found, Scan.find (quotedKey p.key) (p.opening ++ ['"']) = some found ∧
    ∃ between, found.dropWhile (· ≠ ':') = ':' :: between ∧ ∀ c ∈ between, isSkipped c = true

end Place

/-- A string that is read as it is written. -/
structure Plain (s : JString) : Prop where
  pieces : ∀ piece ∈ s, piece.IsPlain
  whole : ',' ∉ JString.text s ∧ '}' ∉ JString.text s
  first : ∀ c, (JString.text s).head? = some c → c ≠ ' ' ∧ c ≠ ':'
  last : ∀ c, (JString.text s).getLast? = some c → c ≠ ' '

/-- Nothing is read behind the first key in quotes. -/
def Silent (text key : List Char) : Prop :=
  ∀ found afterColon, Scan.find (quotedKey key) text = some found →
    found.dropWhile (· ≠ ':') = ':' :: afterColon →
    ∀ c, (afterColon.dropWhile isSkipped).head? = some c → endsValue c = true

/-! ## Reading a value -/

/-- The characters of a text that `isspace` takes are passed over or end the value. -/
theorem isSkipped_or_endsValue {c : Char} (hc : IsText c) (hspace : isspace c = true) :
    isSkipped c = true ∨ endsValue c = true := by
  simp only [isspace, List.mem_cons, List.not_mem_nil, or_false, decide_eq_true_eq] at hspace
  rcases hspace with rfl | rfl | rfl | rfl | rfl | rfl
  · exact .inl rfl
  · exact .inl rfl
  · exact .inr rfl
  · exact absurd hc (by unfold IsText IsBlank; decide)
  · exact absurd hc (by unfold IsText IsBlank; decide)
  · exact .inr rfl

theorem filter_comma (text : List Char) :
    (((text.takeWhile fun c => !endsValue c).filter (· ≠ '"')).filter (· ≠ ','))
      = (text.takeWhile fun c => !endsValue c).filter (· ≠ '"') := by
  refine List.filter_eq_self.mpr fun c hc => ?_
  have hends := List.mem_takeWhile_imp (List.mem_filter.mp hc).1
  refine decide_eq_true ?_
  rintro rfl
  exact absurd hends (by decide)

theorem readValue_eq (afterColon : List Char) : readValue afterColon
    = trim (((afterColon.dropWhile isSkipped).takeWhile fun c => !endsValue c).filter (· ≠ '"')) :=
  congrArg trim (filter_comma _)

theorem trim_sublist (val : List Char) : (trim val).Sublist val :=
  (List.rdropWhile_prefix _ _).sublist.trans (List.dropWhile_sublist _)

/-- Nothing that ends a value is read, nor a quote. -/
theorem mem_readValue {afterColon : List Char} {c : Char} (h : c ∈ readValue afterColon) :
    endsValue c = false ∧ c ≠ '"' := by
  rw [readValue_eq] at h
  obtain ⟨hmem, hquote⟩ := List.mem_filter.mp ((trim_sublist _).subset h)
  refine ⟨?_, of_decide_eq_true hquote⟩
  have hends := List.mem_takeWhile_imp hmem
  simpa using hends

theorem length_readValue_le (afterColon : List Char) :
    (readValue afterColon).length ≤ afterColon.length := by
  rw [readValue_eq]
  refine Nat.le_trans (trim_sublist _).length_le ?_
  refine Nat.le_trans (List.length_filter_le _ _) ?_
  exact Nat.le_trans (List.takeWhile_sublist _).length_le (List.dropWhile_sublist _).length_le

/-- Blanks at the end are trimmed. -/
theorem trim_append {val blanks : List Char} (h : ∀ c ∈ blanks, isspace c = true) :
    trim (val ++ blanks) = trim val := by
  have hright (text : List Char) :
      (text ++ blanks).rdropWhile isspace = text.rdropWhile isspace := by
    rw [List.rdropWhile, List.reverse_append, List.dropWhile_append_of_pos, ← List.rdropWhile]
    exact fun c hc => h c (List.mem_reverse.mp hc)
  rw [trim, List.dropWhile_append]
  split
  · rename_i hnone
    have hempty : val.dropWhile isspace = [] := by simpa using hnone
    rw [trim, hempty, List.dropWhile_eq_nil_iff.mpr h]
  · exact hright _

theorem trim_blanks {blanks : List Char} (h : ∀ c ∈ blanks, isspace c = true) :
    trim blanks = [] := by
  rw [trim, List.dropWhile_eq_nil_iff.mpr h, List.rdropWhile_nil]

theorem isspace_of_isBlank {c : Char} (h : IsBlank c) : isspace c = true := by
  simp only [IsBlank, List.mem_cons, List.not_mem_nil, or_false] at h
  rcases h with rfl | rfl | rfl | rfl <;> decide

/-- Behind a string stand blanks, and then something that ends the value. -/
theorem takeWhile_blanks {blanks rest : List Char} (hblanks : ∀ c ∈ blanks, IsBlank c) {c : Char}
    (hc : endsValue c = true) :
    ∀ d ∈ (blanks ++ c :: rest).takeWhile (fun c => !endsValue c), isspace d = true := by
  intro d hd
  refine isspace_of_isBlank (hblanks d ?_)
  rw [List.takeWhile_append] at hd
  split at hd
  · rw [List.takeWhile_cons_of_neg (by simp [hc]), List.append_nil] at hd
    exact hd
  · exact (List.takeWhile_sublist _).subset hd

/-- A string without quotes and without anything that ends a value is read up to
its end. -/
theorem readValue_string {text blanks rest : List Char}
    (htext : ∀ c ∈ text, endsValue c = false ∧ c ≠ '"') (hblanks : ∀ c ∈ blanks, IsBlank c)
    {c : Char} (hends : endsValue c = true) (hskipped : isSkipped c = false) :
    readValue (text ++ '"' :: (blanks ++ c :: rest)) = trim (text.dropWhile isSkipped) := by
  rw [readValue_eq, List.dropWhile_append]
  by_cases hnone : text.dropWhile isSkipped = []
  · have hrest : ('"' :: (blanks ++ c :: rest)).dropWhile isSkipped
        = blanks.dropWhile isSkipped ++ c :: rest := by
      rw [List.dropWhile_cons_of_pos rfl, List.dropWhile_append]
      split
      · rename_i hall
        rw [List.dropWhile_cons_of_neg (by simp [hskipped]), List.isEmpty_iff.mp hall,
          List.nil_append]
      · rfl
    rw [hnone, List.isEmpty_nil, if_pos rfl, hrest]
    have hleft : ∀ d ∈ blanks.dropWhile isSkipped, IsBlank d :=
      fun d hd => hblanks d ((List.dropWhile_sublist _).subset hd)
    exact trim_blanks fun d hd => takeWhile_blanks hleft hends d (List.mem_filter.mp hd).1
  · have hread : ∀ d ∈ text.dropWhile isSkipped, endsValue d = false ∧ d ≠ '"' :=
      fun d hd => htext d ((List.dropWhile_sublist _).subset hd)
    have hquoted : (text.dropWhile isSkipped).filter (· ≠ '"') = text.dropWhile isSkipped :=
      List.filter_eq_self.mpr fun d hd => decide_eq_true (hread d hd).2
    have hunended : ∀ d ∈ text.dropWhile isSkipped, (!endsValue d) = true :=
      fun d hd => by simp [hread d hd]
    rw [if_neg (by simpa using hnone), List.takeWhile_append_of_pos hunended,
      List.takeWhile_cons_of_pos rfl, List.filter_append, hquoted]
    refine trim_append fun d hd => ?_
    obtain ⟨hmem, hquote⟩ := List.mem_filter.mp hd
    rcases List.mem_cons.mp hmem with rfl | hmem
    · exact absurd hquote (by decide)
    · exact takeWhile_blanks hblanks hends d hmem

/-! ## Plain strings -/

open Piece (Verbatim)

theorem verbatim_of_trimmed {c : Char} (h : isSkipped c = true ∨ isspace c = true) :
    Verbatim c := by
  have hskipped : ∀ d ∈ [' ', '\t', '"', ':'], Verbatim d := by decide
  have hspace : ∀ d ∈ [' ', '\t', '\n', '\x0b', '\x0c', '\r'], Verbatim d := by decide
  rcases h with h | h
  · exact hskipped c (of_decide_eq_true h)
  · exact hspace c (of_decide_eq_true h)

/-- What no escape is written with cannot be left out of a string. -/
theorem nothing_trimmed {s : JString} {front kept back : List Char}
    (htext : JString.text s = front ++ kept ++ back) (hverbatim : ∀ c ∈ front ++ back, Verbatim c)
    (hdecode : JString.decode s = kept) : front = [] ∧ back = [] := by
  have hnone : ∀ c ∈ front ++ back, False := by
    intro c hc
    have hcount := JString.count_text_le s (hverbatim c hc)
    rw [htext, hdecode, List.count_append, List.count_append] at hcount
    have hpos : 0 < (front ++ back).count c := List.count_pos_iff.mpr hc
    rw [List.count_append] at hpos
    omega
  exact List.append_eq_nil_iff.mp (List.eq_nil_iff_forall_not_mem.mpr hnone)

/-- What is trimmed off a text. -/
theorem trimmed_parts (text : List Char) : ∃ front back : List Char,
    text = front ++ trim (text.dropWhile isSkipped) ++ back ∧
      ∀ c ∈ front ++ back, isSkipped c = true ∨ isspace c = true := by
  let skipped := text.dropWhile isSkipped
  refine ⟨text.takeWhile isSkipped ++ skipped.takeWhile isspace,
    (skipped.dropWhile isspace).rtakeWhile isspace, ?_, ?_⟩
  · rw [List.append_assoc, List.append_assoc, trim, List.rdropWhile_append_rtakeWhile,
      List.takeWhile_append_dropWhile, List.takeWhile_append_dropWhile]
  · intro c hc
    simp only [List.mem_append] at hc
    rcases hc with (hc | hc) | hc
    · exact .inl (List.mem_takeWhile_imp hc)
    · exact .inr (List.mem_takeWhile_imp hc)
    · exact .inr (List.mem_rtakeWhile_imp hc)

theorem length_trim_lt {c : Char} {text : List Char} (hc : isSkipped c = true) :
    (trim ((c :: text).dropWhile isSkipped)).length < (c :: text).length := by
  rw [List.dropWhile_cons_of_pos hc]
  refine Nat.lt_succ_of_le (Nat.le_trans (trim_sublist _).length_le ?_)
  exact (List.dropWhile_sublist _).length_le

theorem printable_space {c : Char} (hc : 0x20 ≤ c.toNat) (hspace : isspace c = true) : c = ' ' := by
  simp only [isspace, List.mem_cons, List.not_mem_nil, or_false, decide_eq_true_eq] at hspace
  rcases hspace with rfl | rfl | rfl | rfl | rfl | rfl
  · rfl
  all_goals exact absurd hc (by decide)

theorem printable_skipped {c : Char} (hc : 0x20 ≤ c.toNat) (hskipped : isSkipped c = true) :
    c = ' ' ∨ c = '"' ∨ c = ':' := by
  simp only [isSkipped, List.mem_cons, List.not_mem_nil, or_false, decide_eq_true_eq] at hskipped
  rcases hskipped with rfl | rfl | rfl | rfl
  · exact .inl rfl
  · exact absurd hc (by decide)
  · exact .inr (.inl rfl)
  · exact .inr (.inr rfl)

theorem Plain.trim_eq {s : JString} (h : Plain s) :
    trim ((JString.text s).dropWhile isSkipped) = JString.text s := by
  have hskip : (JString.text s).dropWhile isSkipped = JString.text s := by
    cases htext : JString.text s with
    | nil => rfl
    | cons c rest =>
      have hmem : c ∈ JString.text s := by simp [htext]
      refine List.dropWhile_cons_of_neg fun hskipped => ?_
      rcases printable_skipped (s.printable hmem) hskipped with rfl | rfl | rfl
      · exact (h.first _ (by simp [htext])).1 rfl
      · exact (JString.unescaped_of_plain h.pieces hmem).2.1 rfl
      · exact (h.first _ (by simp [htext])).2 rfl
  have hleft : (JString.text s).dropWhile isspace = JString.text s := by
    cases htext : JString.text s with
    | nil => rfl
    | cons c rest =>
      refine List.dropWhile_cons_of_neg fun hspace => ?_
      have hmem : c ∈ JString.text s := by simp [htext]
      exact (h.first c (by simp [htext])).1 (printable_space (s.printable hmem) hspace)
  rw [hskip, trim, hleft, List.rdropWhile_eq_self_iff]
  intro hne hspace
  have hmem := List.getLast_mem hne
  exact h.last _ (List.getLast?_eq_some_getLast hne) (printable_space (s.printable hmem) hspace)

theorem Plain.read {s : JString} (h : Plain s) {c : Char} (hc : c ∈ JString.text s) :
    endsValue c = false ∧ c ≠ '"' := by
  have hunescaped := JString.unescaped_of_plain h.pieces hc
  refine ⟨Bool.eq_false_iff.mpr fun hends => ?_, hunescaped.2.1⟩
  simp only [endsValue, List.mem_cons, List.not_mem_nil, or_false, decide_eq_true_eq] at hends
  rcases hends with rfl | rfl | rfl | rfl
  · exact h.whole.1 hc
  · exact absurd hunescaped.1 (by decide)
  · exact absurd hunescaped.1 (by decide)
  · exact h.whole.2 hc

/-- A string is what is read of it exactly when it is plain. -/
theorem decode_eq_trim_iff {s : JString}
    (htext : ∀ c ∈ JString.text s, endsValue c = false ∧ c ≠ '"') :
    trim ((JString.text s).dropWhile isSkipped) = JString.decode s ↔ Plain s := by
  constructor
  · intro h
    obtain ⟨front, back, hparts, htrimmed⟩ := trimmed_parts (JString.text s)
    obtain ⟨rfl, rfl⟩ :=
      nothing_trimmed hparts (fun c hc => verbatim_of_trimmed (htrimmed c hc)) h.symm
    rw [List.nil_append, List.append_nil] at hparts
    refine ⟨(JString.text_eq_decode_iff s).mp (hparts.trans h), ⟨?_, ?_⟩, ?_, ?_⟩
    · exact fun hmem => absurd (htext _ hmem).1 (by decide)
    · exact fun hmem => absurd (htext _ hmem).1 (by decide)
    · intro c hc
      have hnot : isSkipped c ≠ true := by
        intro hskipped
        obtain ⟨rest, hrest⟩ : ∃ rest, JString.text s = c :: rest :=
          ⟨_, (List.cons_head?_tail hc).symm⟩
        rw [hrest] at hparts
        exact absurd (congrArg List.length hparts) (Nat.ne_of_gt (length_trim_lt hskipped))
      exact ⟨fun heq => hnot (heq ▸ rfl), fun heq => hnot (heq ▸ rfl)⟩
    · rintro c hc rfl
      have hne : trim ((JString.text s).dropWhile isSkipped) ≠ [] := by
        rintro hnone
        rw [hparts, hnone] at hc
        cases hc
      rw [hparts, List.getLast?_eq_some_getLast hne] at hc
      have hlast : ¬ isspace ((trim ((JString.text s).dropWhile isSkipped)).getLast hne) = true :=
        List.rdropWhile_last_not isspace _ hne
      rw [Option.some.inj hc] at hlast
      exact hlast rfl
  · intro h
    rw [h.trim_eq]
    exact (JString.text_eq_decode_iff s).mpr h.pieces

/-! ## The text of a place -/

namespace Place

variable {p : Place}

theorem separated_middle (front back : List (List Char)) (text : List Char) :
    separated (front ++ text :: back)
      = front.flatMap (· ++ [',']) ++ text ++ back.flatMap (',' :: ·) := by
  have hback (text : List Char) : separated (text :: back) = text ++ back.flatMap (',' :: ·) := by
    induction back generalizing text with
    | nil => simp [separated]
    | cons next back ih =>
      rw [separated, List.intercalate_cons_cons, ← separated, ih, List.flatMap_cons]
      simp
  induction front with
  | nil => exact hback text
  | cons first front ih =>
    rw [List.cons_append, separated, List.intercalate_cons_of_ne_nil (by simp), ← separated, ih,
      List.flatMap_cons]
    simp

theorem text_eq (p : Place) (s : JString) :
    p.text s = p.opening ++ ['"'] ++ (JString.text s ++ '"' :: p.closing) := by
  rw [text, members, List.map_append, List.map_cons, separated_middle, opening, closing,
    List.flatMap_map, List.flatMap_map]
  simp [Member.text, Member.opening, JString.quoted]

theorem isObject (p : Place) (s : JString) : IsObject (p.members s) (p.text s) := by
  refine .members p.lead p.trail (by simp [members]) fun m hm => ?_
  rcases List.mem_append.mp hm with hm | hm
  · exact p.values m (List.mem_append_left _ hm)
  · rcases List.mem_cons.mp hm with rfl | hm
    · exact .string s
    · exact p.values m (List.mem_append_right _ hm)

theorem closing_eq (p : Place) : ∃ c rest, p.closing = p.member.trail.val ++ c :: rest ∧
    endsValue c = true ∧ isSkipped c = false := by
  rw [closing]
  cases p.after with
  | nil => exact ⟨'}', p.trail, by simp, rfl, rfl⟩
  | cons m after => exact ⟨',', _, by simp; rfl, rfl, rfl⟩

theorem isText_opening (p : Place) {c : Char} (hc : c ∈ p.opening ++ ['"']) : IsText c := by
  refine (p.isObject []).isText c ?_
  rw [text_eq]
  exact List.mem_append_left _ hc

/-! ## A clear place -/

theorem quotedKey_ne_nil (key : List Char) : quotedKey key ≠ [] := List.cons_ne_nil _ _

/-- The string of a clear place is what is read. -/
theorem extractValue_of_clear (hclear : p.Clear) (s : JString) :
    extractValue (p.text s) p.key = readValue (JString.text s ++ '"' :: p.closing) := by
  obtain ⟨found, hfound, between, hbetween, hskipped⟩ := hclear
  have hwhole := Scan.find_append hfound (quotedKey_ne_nil _) (JString.text s ++ '"' :: p.closing)
  have hcolon : (found ++ (JString.text s ++ '"' :: p.closing)).dropWhile (· ≠ ':')
      = ':' :: (between ++ (JString.text s ++ '"' :: p.closing)) := by
    rw [List.dropWhile_append, hbetween]
    rfl
  rw [extractValue, text_eq, hwhole]
  simp only [hcolon]
  rw [readValue, List.dropWhile_append_of_pos hskipped, ← readValue]

theorem reads_iff_plain (hclear : p.Clear) (s : JString) : p.Reads s ↔ Plain s := by
  obtain ⟨c, rest, hclosing, hends, hskipped⟩ := p.closing_eq
  have hread (htext : ∀ d ∈ JString.text s, endsValue d = false ∧ d ≠ '"') :
      extractValue (p.text s) p.key = trim ((JString.text s).dropWhile isSkipped) := by
    rw [extractValue_of_clear hclear, hclosing]
    exact readValue_string htext p.member.trail.property hends hskipped
  have hverbatim : ∀ d, endsValue d = true ∨ d = '"' → Verbatim d := by
    have hall : ∀ d ∈ [',', '\n', '\r', '}', '"'], Verbatim d := by decide
    rintro d (hd | rfl)
    · have hmem : d ∈ [',', '\n', '\r', '}'] := of_decide_eq_true hd
      exact hall d (List.mem_append_left ['"'] hmem)
    · exact hall _ (by decide)
  constructor
  · intro h
    -- what would end the reading stands in the string itself, and would be missing
    have htext : ∀ d ∈ JString.text s, endsValue d = false ∧ d ≠ '"' := by
      intro d hd
      have hnot : ¬ (endsValue d = true ∨ d = '"') := by
        intro hbad
        have hmem := JString.mem_decode (hverbatim d hbad) hd
        rw [← h, extractValue_of_clear hclear] at hmem
        obtain ⟨hends', hquote⟩ := mem_readValue hmem
        rcases hbad with hbad | hbad
        · rw [hends'] at hbad
          cases hbad
        · exact hquote hbad
      exact ⟨Bool.eq_false_iff.mpr fun hd => hnot (.inl hd), fun hd => hnot (.inr hd)⟩
    exact (decode_eq_trim_iff htext).mp ((hread htext).symm.trans h)
  · intro h
    have htext : ∀ d ∈ JString.text s, endsValue d = false ∧ d ≠ '"' := fun d hd => h.read hd
    exact (hread htext).trans ((decode_eq_trim_iff htext).mpr h)

/-! ## A string longer than all around it -/

def letterA : Piece := .plain 'a' ⟨by decide, by decide, by decide⟩

def longString (n : Nat) : JString := List.replicate n letterA

theorem longString_text (n : Nat) : JString.text (longString n) = List.replicate n 'a' := by
  simp [JString.text, longString, List.flatMap_replicate, letterA, Piece.text]

theorem longString_decode (n : Nat) : JString.decode (longString n) = List.replicate n 'a' := by
  simp [JString.decode, longString, letterA, Piece.meaning]

theorem plain_longString (n : Nat) : Plain (longString n) := by
  have hmem {c : Char} (hc : c ∈ JString.text (longString n)) : c = 'a' := by
    rw [longString_text] at hc
    exact List.eq_of_mem_replicate hc
  refine ⟨?_, ⟨fun hc => ?_, fun hc => ?_⟩, fun c hc => ?_, fun c hc => ?_⟩
  · intro piece hpiece
    rw [List.eq_of_mem_replicate hpiece]
    rfl
  · exact absurd (hmem hc) (by decide)
  · exact absurd (hmem hc) (by decide)
  · rw [hmem (List.mem_of_mem_head? hc)]
    decide
  · rw [hmem (List.mem_of_getLast? hc)]
    decide

/-- What is read of a text is cut where a value ends. -/
theorem length_readValue_cut {front : List Char} {c : Char}
    (hc : c ∈ front.dropWhile isSkipped) (hends : endsValue c = true) (rest : List Char) :
    (readValue (front ++ rest)).length ≤ front.length := by
  have hne : front.dropWhile isSkipped ≠ [] := List.ne_nil_of_mem hc
  rw [readValue_eq, List.dropWhile_append, if_neg (by simpa using hne), List.takeWhile_append,
    if_neg]
  · refine Nat.le_trans (trim_sublist _).length_le (Nat.le_trans (List.length_filter_le _ _) ?_)
    exact Nat.le_trans (List.takeWhile_sublist _).length_le (List.dropWhile_sublist _).length_le
  · intro hall
    have hself : (front.dropWhile isSkipped).takeWhile (fun c => !endsValue c)
        = front.dropWhile isSkipped := (List.takeWhile_prefix _).eq_of_length hall
    rw [← hself] at hc
    have hnot := List.mem_takeWhile_imp hc
    simp [hends] at hnot

theorem count_trim {c : Char} (hc : isspace c = false) (val : List Char) :
    (trim val).count c = val.count c := by
  have hnone {blanks : List Char} (h : ∀ d ∈ blanks, isspace d = true) : blanks.count c = 0 := by
    refine List.count_eq_zero.mpr fun hmem => ?_
    rw [h c hmem] at hc
    cases hc
  have hleft := congrArg (List.count c) (List.takeWhile_append_dropWhile (p := isspace) (l := val))
  have hright := congrArg (List.count c)
    (List.rdropWhile_append_rtakeWhile (p := isspace) (l := val.dropWhile isspace))
  rw [List.count_append, hnone fun d => List.mem_takeWhile_imp] at hleft
  rw [List.count_append, hnone fun d => List.mem_rtakeWhile_imp] at hright
  rw [trim]
  omega

/-- Where something is read before the string, more is read than the string. -/
theorem readValue_ne_replicate {front rest : List Char} {n : Nat} (htext : ∀ c ∈ front, IsText c)
    (hne : front.dropWhile isSkipped ≠ []) (hn : front.length < n) :
    readValue (front ++ (List.replicate n 'a' ++ '"' :: rest)) ≠ List.replicate n 'a' := by
  intro h
  by_cases hcut : ∃ c ∈ front.dropWhile isSkipped, endsValue c = true
  · obtain ⟨c, hc, hends⟩ := hcut
    have hlength := length_readValue_cut hc hends (List.replicate n 'a' ++ '"' :: rest)
    rw [h, List.length_replicate] at hlength
    omega
  · have hwhole : ∀ d ∈ front.dropWhile isSkipped ++ List.replicate n 'a',
        (!endsValue d) = true := by
      intro d hd
      rcases List.mem_append.mp hd with hd | hd
      · rw [Bool.eq_false_iff.mpr fun hends => hcut ⟨d, hd, hends⟩, Bool.not_false]
      · rw [List.eq_of_mem_replicate hd]
        rfl
    rw [readValue_eq, List.dropWhile_append, if_neg (by simpa using hne), ← List.append_assoc,
      List.takeWhile_append_of_pos hwhole] at h
    have hfirst := List.head?_dropWhile_not isSkipped front
    obtain ⟨c, more, hcons⟩ := List.exists_cons_of_ne_nil hne
    rw [hcons, List.head?_cons] at hfirst
    have hc : c ∈ front := (List.dropWhile_sublist _).subset (hcons ▸ List.mem_cons_self)
    have hspace : isspace c = false := by
      refine Bool.eq_false_iff.mpr fun hspace => ?_
      rcases isSkipped_or_endsValue (htext c hc) hspace with hskipped | hends
      · exact absurd (hfirst.symm.trans hskipped) (by decide)
      · exact hcut ⟨c, hcons ▸ List.mem_cons_self, hends⟩
    have hquote : c ≠ '"' := by
      rintro rfl
      exact absurd hfirst (by decide)
    -- the letter that is read first is one more than the string has
    have hcount := congrArg (List.count c) h
    rw [count_trim hspace, hcons,
      List.count_filter (p := fun d => decide (d ≠ '"')) (decide_eq_true hquote),
      List.count_append, List.count_append, List.count_cons_self] at hcount
    omega

/-- The colon that is found stands before the string, or all that is read stands
behind it. -/
theorem colon_before_or_behind {front rest before tail : List Char} {n : Nat} (hn : 0 < n)
    (h : before ++ ':' :: tail = front ++ (List.replicate n 'a' ++ rest)) :
    (∃ between, front = before ++ ':' :: between ∧
      tail = between ++ (List.replicate n 'a' ++ rest)) ∨ tail.length ≤ rest.length := by
  rcases List.append_eq_append_iff.mp h with ⟨mid, hfront, htail⟩ | ⟨mid, hbefore, htail⟩
  · cases mid with
    | nil =>
      obtain ⟨m, rfl⟩ := Nat.exists_eq_succ_of_ne_zero (Nat.ne_of_gt hn)
      rw [List.nil_append, List.replicate_succ, List.cons_append] at htail
      exact absurd (List.cons.inj htail).1 (by decide)
    | cons c between =>
      rw [List.cons_append] at htail
      obtain ⟨rfl, hbehind⟩ := List.cons.inj htail
      exact .inl ⟨between, hfront, hbehind⟩
  · refine .inr ?_
    rcases List.append_eq_append_iff.mp htail with ⟨after, -, hrest⟩ | ⟨after, hletters, hrest⟩
    · have hlength := congrArg List.length hrest
      rw [List.length_append, List.length_cons] at hlength
      omega
    · cases after with
      | nil =>
        have hlength := congrArg List.length hrest
        rw [List.nil_append, List.length_cons] at hlength
        omega
      | cons c after =>
        obtain ⟨rfl, -⟩ := List.cons.inj hrest
        have hmem : ':' ∈ List.replicate n 'a' := by
          rw [hletters]
          exact List.mem_append_right _ List.mem_cons_self
        exact absurd (List.eq_of_mem_replicate hmem) (by decide)

/-- What a value that is read was read behind. -/
theorem exists_of_extractValue {line key : List Char} (h : extractValue line key ≠ []) :
    ∃ found tail, Scan.find (quotedKey key) line = some found ∧
      found.dropWhile (· ≠ ':') = ':' :: tail ∧ extractValue line key = readValue tail := by
  rw [extractValue] at h ⊢
  cases hfind : Scan.find (quotedKey key) line with
  | none =>
    rw [hfind] at h
    exact absurd rfl h
  | some found =>
    rw [hfind] at h
    simp only at h ⊢
    cases hcolon : found.dropWhile (· ≠ ':') with
    | nil =>
      rw [hcolon] at h
      exact absurd rfl h
    | cons colon tail =>
      have hhead := List.head?_dropWhile_not (· ≠ ':') found
      rw [hcolon, List.head?_cons] at hhead
      obtain rfl : colon = ':' := by simpa using hhead
      exact ⟨found, tail, rfl, hcolon, rfl⟩

/-- A key in quotes does not end in the letters of the string. -/
theorem quotedKey_within {key shorter rest : List Char} {n : Nat}
    (hstarts : quotedKey key <+: shorter ++ (List.replicate n 'a' ++ rest))
    (hn : (quotedKey key).length ≤ n) : quotedKey key <+: shorter := by
  have hletters : quotedKey key <+: shorter ++ List.replicate n 'a' := by
    rw [← List.append_assoc] at hstarts
    refine List.prefix_of_prefix_length_le hstarts (List.prefix_append _ _) ?_
    rw [List.length_append, List.length_replicate]
    omega
  rcases Nat.le_total (quotedKey key).length shorter.length with hle | hle
  · exact List.prefix_of_prefix_length_le hletters (List.prefix_append _ _) hle
  · obtain ⟨more, hmore⟩ :=
      List.prefix_of_prefix_length_le (List.prefix_append shorter _) hletters hle
    obtain ⟨behind, hbehind⟩ := hletters
    rw [← hmore, List.append_assoc] at hbehind
    have hsplit := List.append_cancel_left hbehind
    rcases List.eq_nil_or_concat more with rfl | ⟨most, last, rfl⟩
    · rw [List.append_nil] at hmore
      exact hmore ▸ List.prefix_refl _
    · -- the last letter of the key in quotes is a quote
      have hlast : last = '"' := by
        rw [quotedKey, List.concat_eq_append, ← List.append_assoc] at hmore
        exact List.singleton_inj.mp (List.append_inj_right' hmore rfl)
      have hmem : last ∈ List.replicate n 'a' := by
        rw [← hsplit]
        simp
      rw [List.eq_of_mem_replicate hmem] at hlast
      exact absurd hlast (by decide)

/-- A place where all plain strings are read is clear. -/
theorem clear_of_reads (h : ∀ s, Plain s → p.Reads s) : p.Clear := by
  let front := p.opening ++ ['"']
  let n := front.length + p.closing.length + 2 + (quotedKey p.key).length
  have hread : extractValue (p.text (longString n)) p.key = List.replicate n 'a' := by
    rw [← longString_decode]
    exact h (longString n) (plain_longString n)
  have hpos : 0 < n := by omega
  have hne : extractValue (p.text (longString n)) p.key ≠ [] := by
    rw [hread, Ne, List.replicate_eq_nil_iff]
    omega
  obtain ⟨found, tail, hfind, hcolon, hvalue⟩ := exists_of_extractValue hne
  rw [hread] at hvalue
  rw [text_eq, longString_text] at hfind
  obtain ⟨before, hbefore⟩ := Scan.find_suffix hfind
  have hfound : found = found.takeWhile (· ≠ ':') ++ ':' :: tail := by
    rw [← hcolon, List.takeWhile_append_dropWhile]
  have hsplit : (before ++ found.takeWhile (· ≠ ':')) ++ ':' :: tail
      = front ++ (List.replicate n 'a' ++ '"' :: p.closing) := by
    rw [List.append_assoc, ← hfound, hbefore]
  rcases colon_before_or_behind hpos hsplit with ⟨between, hfront, htail⟩ | hbehind
  · have hskipped : between.dropWhile isSkipped = [] := by
      refine Classical.not_not.mp fun hnot => ?_
      refine readValue_ne_replicate (fun c hc => ?_) hnot ?_ (htail ▸ hvalue.symm)
      · refine p.isText_opening ?_
        change c ∈ front
        rw [hfront]
        exact List.mem_append_right _ (List.mem_cons_of_mem _ hc)
      · have hlength : between.length < front.length := by
          rw [hfront, List.length_append, List.length_cons]
          omega
        omega
    have hshorter : found = (found.takeWhile (· ≠ ':') ++ ':' :: between)
        ++ (List.replicate n 'a' ++ '"' :: p.closing) := by
      rw [List.append_assoc, List.cons_append, ← htail]
      exact hfound
    have hstarts := Scan.find_starts hfind
    rw [hshorter] at hstarts hfind
    have hwithin := quotedKey_within hstarts (Nat.le_add_left _ _)
    refine ⟨_, Scan.find_of_append hfind hwithin, between, ?_, ?_⟩
    · have hbefore : ∀ c ∈ found.takeWhile (· ≠ ':'), decide (c ≠ ':') = true :=
        fun c hc => List.mem_takeWhile_imp (p := fun c => decide (c ≠ ':')) hc
      rw [List.dropWhile_append_of_pos hbefore, List.dropWhile_cons_of_neg (by simp)]
    · exact List.dropWhile_eq_nil_iff.mp hskipped
  · have hlength := length_readValue_le tail
    rw [← hvalue, List.length_replicate] at hlength
    rw [List.length_cons] at hbehind
    omega

end Place

/-! ## Absent keys -/

theorem readValue_eq_nil_iff {tail : List Char} (htext : ∀ c ∈ tail, IsText c) :
    readValue tail = [] ↔
      ∀ c, (tail.dropWhile isSkipped).head? = some c → endsValue c = true := by
  constructor
  · intro hnone c hc
    refine Classical.not_not.mp fun hends => ?_
    rw [Bool.not_eq_true] at hends
    have hskipped := List.head?_dropWhile_not isSkipped tail
    rw [hc] at hskipped
    have hmem : c ∈ tail.dropWhile isSkipped := List.mem_of_mem_head? hc
    have hspace : isspace c = false := by
      refine Bool.eq_false_iff.mpr fun hspace => ?_
      have hc : IsText c := htext c ((List.dropWhile_sublist _).subset hmem)
      rcases isSkipped_or_endsValue hc hspace with h | h
      · exact absurd (hskipped.symm.trans h) (by decide)
      · exact absurd (hends.symm.trans h) (by decide)
    have hquote : c ≠ '"' := by
      rintro rfl
      exact absurd hskipped (by decide)
    -- the first letter behind what is passed over is read
    have hread : 0 < (readValue tail).count c := by
      rw [readValue_eq, Place.count_trim hspace,
        List.count_filter (p := fun d => decide (d ≠ '"')) (decide_eq_true hquote)]
      obtain ⟨rest, hrest⟩ : ∃ rest, tail.dropWhile isSkipped = c :: rest :=
        ⟨_, (List.cons_head?_tail hc).symm⟩
      rw [hrest, List.takeWhile_cons_of_pos (by simp [hends]), List.count_cons_self]
      exact Nat.succ_pos _
    rw [hnone] at hread
    exact Nat.lt_irrefl 0 hread
  · intro h
    rw [readValue_eq]
    cases hrest : tail.dropWhile isSkipped with
    | nil => rfl
    | cons c rest =>
      rw [List.takeWhile_cons_of_neg (by simp [h c (by rw [hrest, List.head?_cons])])]
      rfl

theorem extractValue_eq_nil_iff {text : List Char} (htext : ∀ c ∈ text, IsText c)
    (key : List Char) : extractValue text key = [] ↔ Silent text key := by
  have hbehind {found tail : List Char} (hfind : Scan.find (quotedKey key) text = some found)
      (hcolon : found.dropWhile (· ≠ ':') = ':' :: tail) : ∀ c ∈ tail, IsText c := by
    intro c hc
    refine htext c ((Scan.find_suffix hfind).subset ((List.dropWhile_sublist (· ≠ ':')).subset ?_))
    rw [hcolon]
    exact List.mem_cons_of_mem _ hc
  constructor
  · intro hnone found tail hfind hcolon
    refine (readValue_eq_nil_iff (hbehind hfind hcolon)).mp ?_
    rw [extractValue, hfind] at hnone
    simp only [hcolon] at hnone
    exact hnone
  · intro hsilent
    refine Classical.not_not.mp fun hne => ?_
    obtain ⟨found, tail, hfind, hcolon, hvalue⟩ := Place.exists_of_extractValue hne
    rw [hvalue] at hne
    exact hne ((readValue_eq_nil_iff (hbehind hfind hcolon)).mpr (hsilent found tail hfind hcolon))

/-! ## Extraction -/

/-- A key with a string is read, whatever plain string it is, exactly in a clear
place; there only the plain strings are; and for an absent key nothing is read
exactly when nothing is read behind it in quotes. -/
theorem extractValue_iff (p : Place) {members : List Member} {text : List Char}
    (hobject : IsObject members text) (key : List Char) :
    ((∀ s, Plain s → p.Reads s) ↔ p.Clear) ∧ (p.Clear → ∀ s, p.Reads s ↔ Plain s) ∧
      (((∀ m ∈ members, JString.decode m.key ≠ key) → extractValue text key = []) ↔
        ((∀ m ∈ members, JString.decode m.key ≠ key) → Silent text key)) := by
  refine ⟨⟨Place.clear_of_reads, fun hclear s hs => ?_⟩, Place.reads_iff_plain, ?_⟩
  · exact (Place.reads_iff_plain hclear s).mpr hs
  · exact imp_congr_right fun _ => extractValue_eq_nil_iff hobject.isText key

def noBlanks : Blanks := ⟨[], nofun⟩

def bareMember (key : JString) (value : List Char) : Member where
  lead := noBlanks
  key := key
  beforeColon := noBlanks
  afterColon := noBlanks
  value := value
  trail := noBlanks

/-- The one member of an object, with the given key. -/
def onlyMember (key : JString) : Place where
  lead := noBlanks
  before := []
  member := bareMember key []
  after := []
  trail := noBlanks
  values := nofun

/-- A string without escapes. -/
def unescaped (text : List Char) (h : ∀ c ∈ text, Unescaped c) : JString := text.pmap Piece.plain h

theorem isPlain_unescaped (text : List Char) (h : ∀ c ∈ text, Unescaped c) :
    ∀ piece ∈ unescaped text h, piece.IsPlain := by
  intro piece hpiece
  obtain ⟨c, hc, rfl⟩ := List.mem_pmap.mp hpiece
  rfl

def authorKey : JString := unescaped ['a', 'u', 't', 'h', 'o', 'r'] (by decide)

def acme : JString := unescaped ['A', 'c', 'm', 'e'] (by decide)

/-- `{"vendor":"Acme","signed":true,"author":…}`. -/
def authorPlace : Place where
  lead := noBlanks
  before := [
    bareMember (unescaped ['v', 'e', 'n', 'd', 'o', 'r'] (by decide)) (JString.quoted acme),
    bareMember (unescaped ['s', 'i', 'g', 'n', 'e', 'd'] (by decide)) "true".toList]
  member := bareMember authorKey []
  after := []
  trail := noBlanks
  values := by
    intro m hm
    simp only [List.append_nil, List.mem_cons, List.not_mem_nil, or_false] at hm
    rcases hm with rfl | rfl
    · exact .string acme
    · exact .literal (by decide)

/-- `Acme` is read, and behind the value `loader` nothing is read for a key. -/
theorem extractValue_author :
    authorPlace.Clear ∧ (∀ s, authorPlace.Reads s ↔ Plain s) ∧ authorPlace.Reads acme ∧
      extractValue (authorPlace.text (unescaped ['l', 'o', 'a', 'd', 'e', 'r'] (by decide)))
        ['l', 'o', 'a', 'd', 'e', 'r'] = [] := by
  have hclear : authorPlace.Clear :=
    ⟨['"', 'a', 'u', 't', 'h', 'o', 'r', '"', ':', '"'], by decide, ['"'], by decide, by decide⟩
  have hacme : Plain acme := by
    refine ⟨isPlain_unescaped _ _, by decide, fun c hc => ?_, fun c hc => ?_⟩
    · obtain rfl : 'A' = c := Option.some.inj hc
      decide
    · obtain rfl : 'e' = c := Option.some.inj hc
      decide
  obtain ⟨hreads, hplain, habsent⟩ := extractValue_iff authorPlace
    (authorPlace.isObject (unescaped ['l', 'o', 'a', 'd', 'e', 'r'] (by decide)))
    ['l', 'o', 'a', 'd', 'e', 'r']
  refine ⟨hclear, hplain hclear, hreads.mpr hclear acme hacme, habsent.mpr (fun _ => ?_) ?_⟩
  · intro found afterColon hfound hcolon
    have hlast : Scan.find (quotedKey ['l', 'o', 'a', 'd', 'e', 'r'])
        (authorPlace.text (unescaped ['l', 'o', 'a', 'd', 'e', 'r'] (by decide)))
          = some ['"', 'l', 'o', 'a', 'd', 'e', 'r', '"', '}'] := by decide
    obtain rfl := Option.some.inj (hlast.symm.trans hfound)
    -- no colon stands behind it
    have hnone : [] = ':' :: afterColon := hcolon
    cases hnone
  · decide

/-- The value `Acme, Inc.` is read up to its comma. -/
theorem extractValue_cut :
    ¬ ((∀ (p : Place) (s : JString), p.Reads s) ∧
        ∀ (members : List Member) (text key : List Char), IsObject members text →
          (∀ m ∈ members, JString.decode m.key ≠ key) → extractValue text key = []) := by
  rintro ⟨h, -⟩
  have hread := h (onlyMember authorKey)
    (unescaped ['A', 'c', 'm', 'e', ',', ' ', 'I', 'n', 'c', '.'] (by decide))
  exact absurd hread (by unfold Place.Reads; decide)

end MBootCore.Firmware
