import MBootCore.Firehose.XmlTokens
import MBootCore.Support.TextReads

/-!
# Firehose — XmlReads

`FirehoseXmlEngine::parse` with its positions: the characters and pieces it
takes of the texts it scans, and the recursive calls it makes. The functions
have the names of the plain ones and compute the same.

The fuel of the parser is enough: every token but the last shortens the input,
so a parse given more fuel than input returns (`parse_total`).
`parse_stays_inside` is the result: on every input the parser ends, inside of
the input and of its depth limit, each recursive call past the one before.
-/

namespace MBootCore.FirehoseXmlEngine

/-- With more fuel than input the parser returns, and what it leaves unread is
no longer than what it was given. -/
theorem parseXmlRecursive_total (fuel : Nat) :
    (∀ depth input, input.length < fuel → ∃ r, parseXmlRecursive fuel depth input = some r ∧
      ∀ e rest, r = .ok (e, rest) → rest.length ≤ input.length) ∧
    (∀ depth element input, input.length < fuel →
      ∃ r, parseBody fuel depth element input = some r ∧
        ∀ e rest, r = .ok (e, rest) → rest.length ≤ input.length) := by
  induction fuel with
  | zero => simp
  | succ fuel ih =>
    obtain ⟨ihElement, ihBody⟩ := ih
    constructor
    · intro depth input hfuel
      obtain ⟨hle, hlt⟩ := next_length input
      rw [parseXmlRecursive]
      split
      · exact ⟨_, rfl, by simp⟩
      · cases htype : (next input).1.type with
        | tagOpen =>
          have hless := hlt (by simp [htype])
          simp only [htype]
          obtain ⟨r, hr, hrest⟩ := ihBody depth _ (next input).2 (by omega)
          exact ⟨r, hr, fun e rest h => Nat.le_trans (hrest e rest h) hle⟩
        | selfClose =>
          simp only [htype]
          refine ⟨_, rfl, fun e rest h => ?_⟩
          cases h
          exact hle
        | _ =>
          simp only [htype]
          exact ⟨_, rfl, by simp⟩
    · intro depth element input hfuel
      obtain ⟨hle, hlt⟩ := next_length input
      rw [parseBody]
      cases htype : (next input).1.type with
      | tagOpen =>
        have hless := hlt (by simp [htype])
        simp only [htype]
        obtain ⟨r, hr, hafter⟩ := ihElement (depth + 1) (next input).2 (by omega)
        rw [hr]
        rcases r with e | ⟨child, after⟩
        · exact ⟨_, rfl, by simp⟩
        · have hshort := hafter child after rfl
          obtain ⟨r, hr, hrest⟩ := ihBody depth _ after (by omega)
          exact ⟨r, hr, fun e rest h => Nat.le_trans (hrest e rest h) (Nat.le_trans hshort hle)⟩
      | selfClose =>
        have hless := hlt (by simp [htype])
        simp only [htype]
        obtain ⟨r, hr, hrest⟩ := ihBody depth _ (next input).2 (by omega)
        exact ⟨r, hr, fun e rest h => Nat.le_trans (hrest e rest h) hle⟩
      | text =>
        have hless := hlt (by simp [htype])
        simp only [htype]
        split
        · obtain ⟨r, hr, hrest⟩ := ihBody depth element (next input).2 (by omega)
          exact ⟨r, hr, fun e rest h => Nat.le_trans (hrest e rest h) hle⟩
        · obtain ⟨r, hr, hrest⟩ := ihBody depth _ (next input).2 (by omega)
          exact ⟨r, hr, fun e rest h => Nat.le_trans (hrest e rest h) hle⟩
      | tagClose | eof =>
        simp only [htype]
        refine ⟨_, rfl, fun e rest h => ?_⟩
        cases h
        exact hle

/-- `parse` never runs out of fuel. -/
theorem parse_total (xml : String) :
    parseXmlRecursive (xml.toList.length + 1) 0 xml.toList ≠ none := by
  obtain ⟨r, hr, -⟩ := (parseXmlRecursive_total (xml.toList.length + 1)).1 0 xml.toList (by omega)
  simp [hr]

end MBootCore.FirehoseXmlEngine

namespace MBootCore.FirehoseXmlEngine.Reading

open Logged

/-! ## trim -/

/-- The loop over `s.front()`. -/
def trimFront : List Char → Logged (List Char)
  | [] => pure []
  | c :: rest => do
    let front ← charAt (c :: rest) 0
    if isWhitespace front then trimFront rest else pure (c :: rest)

/-- The loop over `s.back()`, with `n` characters left of `s`. -/
def trimBack (s : List Char) : Nat → Logged (List Char)
  | 0 => pure []
  | n + 1 => do
    let back ← charAt (s.take (n + 1)) n
    if isWhitespace back then trimBack s n else pure (s.take (n + 1))

def trim (s : List Char) : Logged (List Char) := do
  let s ← trimFront s
  trimBack s s.length

/-! ## XmlTokenizer -/

/-- A tag from just inside its `</`. -/
def closingTag (input : List Char) (pos : Nat) : Logged (Token × Nat) :=
  match find input '>' pos with
  | none => pure (⟨.eof, []⟩, pos)
  | some stop => do
    let length ← diff stop pos
    let name ← substr input pos length
    pure (⟨.tagClose, name⟩, stop + 1)

/-- A tag from just inside its `<`. -/
def openingTag (input : List Char) (pos : Nat) : Logged (Token × Nat) :=
  match find input '>' pos with
  | none => pure (⟨.eof, []⟩, pos)
  | some stop => do
    let slash ← if stop > 0 then charIs input '/' (stop - 1) else pure false
    if slash then do
      let length ← diff stop pos
      let length ← diff length 1
      let content ← substr input pos length
      pure (⟨.selfClose, content⟩, stop + 1)
    else do
      let length ← diff stop pos
      let content ← substr input pos length
      pure (⟨.tagOpen, content⟩, stop + 1)

def textContent (input : List Char) (pos : Nat) : Logged (Token × Nat) :=
  match find input '<' pos with
  | none => do
    -- a count of `npos - pos` reads to the end
    let text ← substr input pos (input.length - pos)
    pure (⟨.text, text⟩, input.length)
  | some stop => do
    let length ← diff stop pos
    let text ← substr input pos length
    pure (⟨.text, text⟩, stop)

def next (input : List Char) (pos : Nat) : Logged (Token × Nat) := do
  let pos ← skipWhile input isWhitespace pos
  if pos ≥ input.length then pure (⟨.eof, []⟩, pos)
  else do
    let tag ← charIs input '<' pos
    if tag then do
      let closing ← charIs input '/' (pos + 1)
      if closing then closingTag input (pos + 2) else openingTag input (pos + 1)
    else textContent input pos

/-! ## Tag content -/

/-- The loop over the attributes; `none` when the fuel is used up. -/
def parseAttributes (content : List Char) : Nat → Nat → Logged (Option (List XmlAttribute))
  | 0, _ => pure none
  | fuel + 1, pos =>
    if pos < content.length then do
      let nameStart ← skipWhile content isWhitespace pos
      if nameStart ≥ content.length then pure (some [])
      else do
        let pos ← skipWhile content (fun c => c ≠ '=' && !isWhitespace c) nameStart
        let length ← diff pos nameStart
        let attrName ← substr content nameStart length
        let eq ← charIs content '=' pos
        let pos ← skipWhile content isWhitespace (if eq then pos + 1 else pos)
        let quote ← charIs content '"' pos
        if quote then do
          let valStart := pos + 1
          let pos ← skipWhile content (· ≠ '"') valStart
          let length ← diff pos valStart
          let attrValue ← substr content valStart length
          let attrs ← parseAttributes content fuel (if pos < content.length then pos + 1 else pos)
          pure (attrs.map (⟨String.ofList attrName, String.ofList attrValue⟩ :: ·))
        else parseAttributes content fuel pos
    else pure (some [])

def parseTagContent (content : List Char) : Logged (Option ParsedTag) := do
  let pos ← skipWhile content (fun c => !isWhitespace c) 0
  let name ← substr content 0 pos
  let attrs ← parseAttributes content (content.length + 1) pos
  pure (attrs.map (⟨String.ofList name, ·⟩))

/-! ## parseXmlRecursive -/

/-- A call of `parseXmlRecursive`: its nesting level and the position it starts at. -/
structure Call where
  depth : Nat
  pos : Nat
  deriving DecidableEq, Repr

/-- The outcome of a call, `none` when the fuel is used up, and the calls made in
its course, in order. -/
structure Run where
  outcome : Option (Except ErrorCode (XmlElement × Nat))
  calls : List Call := []

def Run.after (earlier : List Call) (r : Run) : Run := { r with calls := earlier ++ r.calls }

mutual

def parseXmlRecursive (input : List Char) : Nat → Nat → Nat → Logged Run
  | 0, depth, pos => pure ⟨none, [⟨depth, pos⟩]⟩
  | fuel + 1, depth, pos =>
    if depth ≥ kMaxXmlDepth then pure ⟨some (.error .invalidPacket), [⟨depth, pos⟩]⟩
    else do
      let token ← next input pos
      match token.1.type with
      | .tagOpen => do
        match ← parseTagContent token.1.value with
        | none => pure ⟨none, [⟨depth, pos⟩]⟩
        | some tag => do
          let body ← parseBody input fuel depth (.mk tag.name tag.attrs [] "") token.2
          pure (body.after [⟨depth, pos⟩])
      | .selfClose => do
        match ← parseTagContent token.1.value with
        | none => pure ⟨none, [⟨depth, pos⟩]⟩
        | some tag =>
          pure ⟨some (.ok (.mk tag.name tag.attrs [] "", token.2)), [⟨depth, pos⟩]⟩
      | _ => pure ⟨some (.error .invalidPacket), [⟨depth, pos⟩]⟩

def parseBody (input : List Char) : Nat → Nat → XmlElement → Nat → Logged Run
  | 0, _, _, _ => pure ⟨none, []⟩
  | fuel + 1, depth, element, pos => do
    let token ← next input pos
    match token.1.type with
    | .eof | .tagClose => pure ⟨some (.ok (element, token.2)), []⟩
    | .text => do
      let trimmed ← trim token.1.value
      if trimmed = [] then parseBody input fuel depth element token.2
      else parseBody input fuel depth (element.setContent (String.ofList trimmed)) token.2
    | .selfClose => do
      match ← parseTagContent token.1.value with
      | none => pure ⟨none, []⟩
      | some childTag =>
        parseBody input fuel depth (element.pushChild (.mk childTag.name childTag.attrs [] ""))
          token.2
    | .tagOpen => do
      match ← parseTagContent token.1.value with
      | none => pure ⟨none, []⟩
      | some childTag => do
        let childResult ← parseXmlRecursive input fuel (depth + 1) token.2
        match childResult.outcome with
        | none => pure ⟨none, childResult.calls⟩
        | some (.error e) => pure ⟨some (.error e), childResult.calls⟩
        | some (.ok (childElement, after)) => do
          let rest ← parseBody input fuel depth (element.pushChild (.mk childTag.name
            childTag.attrs childElement.children childElement.content)) after
          pure (rest.after childResult.calls)

end

def parse (xml : String) : Logged Run :=
  if xml = "" then pure ⟨some (.error .invalidPacket), []⟩
  else parseXmlRecursive xml.toList (xml.toList.length + 1) 0 0

/-! ## trim -/

theorem trimFront_spec (s : List Char) :
    (trimFront s).value = s.dropWhile isWhitespace ∧ (trimFront s).Safe := by
  induction s with
  | nil => exact ⟨rfl, safe_pure _⟩
  | cons c rest ih =>
    rw [trimFront, value_bind, safe_bind, value_charAt, safe_charAt, List.getD_cons_zero]
    by_cases hc : isWhitespace c = true
    · rw [if_pos hc, List.dropWhile_cons_of_pos hc]
      exact ⟨ih.1, Nat.succ_pos _, ih.2⟩
    · rw [if_neg hc, List.dropWhile_cons_of_neg hc]
      exact ⟨rfl, Nat.succ_pos _, safe_pure _⟩

theorem trimBack_spec (s : List Char) (n : Nat) (hn : n ≤ s.length) :
    (trimBack s n).value = ((s.take n).reverse.dropWhile isWhitespace).reverse ∧
      (trimBack s n).Safe := by
  induction n with
  | zero => exact ⟨rfl, safe_pure _⟩
  | succ n ih =>
    have hpos : n < s.length := hn
    have hback : (s.take (n + 1)).getD n '\x00' = s[n] := by
      simp [List.getD_eq_getElem?_getD, hpos]
    have hreverse : (s.take (n + 1)).reverse = s[n] :: (s.take n).reverse := by
      rw [List.take_add_one, List.getElem?_eq_getElem hpos, Option.toList_some,
        List.reverse_append]
      rfl
    obtain ⟨hvalue, hsafe⟩ := ih (by omega)
    rw [trimBack, value_bind, safe_bind, value_charAt, safe_charAt, hback, hreverse,
      List.length_take, Nat.min_eq_left hn]
    by_cases hc : isWhitespace s[n] = true
    · rw [if_pos hc, List.dropWhile_cons_of_pos hc]
      exact ⟨hvalue, Nat.lt_succ_self n, hsafe⟩
    · rw [if_neg hc, List.dropWhile_cons_of_neg hc, ← hreverse, List.reverse_reverse]
      exact ⟨rfl, Nat.lt_succ_self n, safe_pure _⟩

theorem trim_spec (s : List Char) :
    (trim s).value = FirehoseXmlEngine.trim s ∧ (trim s).Safe := by
  obtain ⟨hfront, hfrontSafe⟩ := trimFront_spec s
  obtain ⟨hback, hbackSafe⟩ := trimBack_spec (s.dropWhile isWhitespace) _ (Nat.le_refl _)
  rw [trim, value_bind, safe_bind, hfront]
  exact ⟨by rw [hback, List.take_length]; rfl, hfrontSafe, hbackSafe⟩

/-! ## Tokens

Each kind of text the tokenizer can stand at, and what the plain one makes of it. -/

section Tokens

variable {input rest : List Char}

theorem next_nil (h : input.dropWhile isWhitespace = []) :
    FirehoseXmlEngine.next input = (⟨.eof, []⟩, []) := by
  rw [FirehoseXmlEngine.next, h]

theorem next_close (h : input.dropWhile isWhitespace = '<' :: '/' :: rest) :
    FirehoseXmlEngine.next input =
      match rest.dropWhile (· ≠ '>') with
      | [] => (⟨.eof, []⟩, rest)
      | _ :: after => (⟨.tagClose, rest.takeWhile (· ≠ '>')⟩, after) := by
  rw [FirehoseXmlEngine.next, h]
  rfl

theorem next_open (h : input.dropWhile isWhitespace = '<' :: rest)
    (hrest : rest.head? ≠ some '/') :
    FirehoseXmlEngine.next input =
      match rest.dropWhile (· ≠ '>') with
      | [] => (⟨.eof, []⟩, rest)
      | _ :: after =>
        if (rest.takeWhile (· ≠ '>')).getLast? = some '/' then
          (⟨.selfClose, (rest.takeWhile (· ≠ '>')).dropLast⟩, after)
        else (⟨.tagOpen, rest.takeWhile (· ≠ '>')⟩, after) := by
  rw [FirehoseXmlEngine.next, h]
  split
  case h_1 heq => cases heq
  case h_2 rest' heq =>
    obtain rfl := (List.cons.inj heq).2
    exact absurd rfl hrest
  case h_3 rest' _ heq =>
    obtain rfl := (List.cons.inj heq).2
    rfl
  case h_4 hopen => exact absurd rfl (hopen rest)

theorem next_other {c : Char} (h : input.dropWhile isWhitespace = c :: rest) (hc : c ≠ '<') :
    FirehoseXmlEngine.next input =
      (⟨.text, (c :: rest).takeWhile (· ≠ '<')⟩, (c :: rest).dropWhile (· ≠ '<')) := by
  rw [FirehoseXmlEngine.next, h]
  split <;> simp_all

theorem drop_succ {p : Nat} {c : Char} (h : input.drop p = c :: rest) :
    input.drop (p + 1) = rest := by
  rw [← List.drop_drop, h]
  rfl

/-- A token read from `pos` on and the position after it, where the plain tokenizer
returns `result`. -/
structure Reads (input : List Char) (pos : Nat) (result : Token × List Char) (r : Token × Nat) :
    Prop where
  le : pos ≤ r.2
  inside : r.2 ≤ input.length
  result : result = (r.1, input.drop r.2)

theorem Reads.mono {pos start : Nat} {x : Logged (Token × Nat)} {result : Token × List Char}
    (h : x.Meets (Reads input pos result)) (hstart : start ≤ pos) :
    x.Meets (Reads input start result) :=
  ⟨h.safe, { h.value with le := Nat.le_trans hstart h.value.le }⟩

theorem closingTag_reads {pos : Nat} (hpos : pos ≤ input.length) (hrest : input.drop pos = rest) :
    (closingTag input pos).Meets (Reads input pos
      (match rest.dropWhile (· ≠ '>') with
        | [] => (⟨.eof, []⟩, rest)
        | _ :: after => (⟨.tagClose, rest.takeWhile (· ≠ '>')⟩, after))) := by
  have hfind := find_eq input '>' pos
  unfold closingTag
  rw [hrest] at hfind
  cases hafter : rest.dropWhile (· ≠ '>') with
  | nil =>
    rw [hafter] at hfind
    rw [show find input '>' pos = none from hfind]
    exact .pure ⟨Nat.le_refl pos, hpos, by rw [hrest]⟩
  | cons c after =>
    rw [hafter] at hfind
    obtain ⟨stop, hstop, hle, hlt, hdrop, htake⟩ := hfind
    rw [hstop]
    apply Meets.bind ((safe_diff _ _).mpr hle)
    apply Meets.bind ((safe_substr _ _ _).mpr hpos)
    refine .pure ⟨by omega, by omega, ?_⟩
    rw [value_diff, value_substr, hrest, htake, drop_succ hdrop]

/-- The character before the `>` is the last of the content, and where there is
no content it is the `<`. -/
theorem slash_iff {pos stop : Nat} (hopen : input.drop pos = '<' :: rest) (hle : pos + 1 ≤ stop)
    (hlt : stop < input.length) :
    (input.drop (stop - 1)).head? = some '/' ↔
      (rest.take (stop - (pos + 1))).getLast? = some '/' := by
  have hrest := drop_succ hopen
  rw [List.head?_drop]
  by_cases hempty : stop = pos + 1
  · have hlt' : input[pos]? = some '<' := by rw [← List.head?_drop, hopen]; rfl
    rw [hempty, Nat.add_sub_cancel, hlt', Nat.sub_self]
    simp
  · rw [← hrest, List.getLast?_take, List.getElem?_drop, if_neg (by omega)]
    have hindex : pos + 1 + (stop - (pos + 1) - 1) = stop - 1 := by omega
    rw [hindex, List.getElem?_eq_getElem (by omega)]
    simp

theorem openingTag_reads {pos : Nat} (hopen : input.drop pos = '<' :: rest) :
    (openingTag input (pos + 1)).Meets (Reads input (pos + 1)
      (match rest.dropWhile (· ≠ '>') with
        | [] => (⟨.eof, []⟩, rest)
        | _ :: after =>
          if (rest.takeWhile (· ≠ '>')).getLast? = some '/' then
            (⟨.selfClose, (rest.takeWhile (· ≠ '>')).dropLast⟩, after)
          else (⟨.tagOpen, rest.takeWhile (· ≠ '>')⟩, after))) := by
  have hrest := drop_succ hopen
  have hpos : pos + 1 ≤ input.length := by
    have := congrArg List.length hopen
    rw [List.length_drop, List.length_cons] at this
    omega
  have hfind := find_eq input '>' (pos + 1)
  unfold openingTag
  rw [hrest] at hfind
  cases hafter : rest.dropWhile (· ≠ '>') with
  | nil =>
    rw [hafter] at hfind
    rw [show find input '>' (pos + 1) = none from hfind]
    exact .pure ⟨Nat.le_refl _, hpos, by rw [hrest]⟩
  | cons c after =>
    rw [hafter] at hfind
    obtain ⟨stop, hstop, hle, hlt, hdrop, htake⟩ := hfind
    have hslash : (charIs input '/' (stop - 1)).value
        = decide ((rest.takeWhile (· ≠ '>')).getLast? = some '/') := by
      rw [value_charIs, ← htake]
      exact decide_eq_decide.mpr (slash_iff hopen hle hlt)
    rw [hstop]
    simp only [if_pos (show stop > 0 by omega)]
    apply Meets.bind (safe_charIs _ _ _)
    rw [hslash]
    by_cases hself : (rest.takeWhile (· ≠ '>')).getLast? = some '/'
    · -- The content ends in a slash, so there is one character to leave out.
      have hlength : (rest.takeWhile (· ≠ '>')).length = stop - (pos + 1) := by
        rw [← htake, List.length_take, ← hrest, List.length_drop]
        omega
      have hne : rest.takeWhile (· ≠ '>') ≠ [] := by
        intro hnil
        rw [hnil] at hself
        cases hself
      have := List.length_pos_of_ne_nil hne
      simp only [hself, decide_true, if_true]
      apply Meets.bind ((safe_diff _ _).mpr hle)
      apply Meets.bind ((safe_diff _ _).mpr (by rw [value_diff]; omega))
      apply Meets.bind ((safe_substr _ _ _).mpr hpos)
      refine .pure ⟨by omega, by omega, ?_⟩
      rw [value_diff, value_diff, value_substr, hrest, drop_succ hdrop, List.dropLast_eq_take,
        hlength, ← htake, List.take_take, Nat.min_eq_left (Nat.sub_le _ _)]
    · simp only [hself, decide_false, Bool.false_eq_true, if_false]
      apply Meets.bind ((safe_diff _ _).mpr hle)
      apply Meets.bind ((safe_substr _ _ _).mpr hpos)
      refine .pure ⟨by omega, by omega, ?_⟩
      rw [value_diff, value_substr, hrest, htake, drop_succ hdrop]

theorem textContent_reads {pos : Nat} {c : Char} (htext : input.drop pos = c :: rest)
    (hc : c ≠ '<') :
    (textContent input pos).Meets (Reads input (pos + 1)
      (⟨.text, (c :: rest).takeWhile (· ≠ '<')⟩, (c :: rest).dropWhile (· ≠ '<'))) := by
  have hfind := find_eq input '<' pos
  have hpos : pos < input.length := by
    have := congrArg List.length htext
    rw [List.length_drop, List.length_cons] at this
    omega
  unfold textContent
  rw [htext] at hfind
  cases hafter : (c :: rest).dropWhile (· ≠ '<') with
  | nil =>
    rw [hafter] at hfind
    rw [show find input '<' pos = none from hfind]
    have hall : (c :: rest).takeWhile (· ≠ '<') = c :: rest := by
      have := List.takeWhile_append_dropWhile (p := (· ≠ '<')) (l := c :: rest)
      rwa [hafter, List.append_nil] at this
    apply Meets.bind ((safe_substr _ _ _).mpr (Nat.le_of_lt hpos))
    refine .pure ⟨hpos, Nat.le_refl _, ?_⟩
    rw [value_substr, htext, hall, List.drop_length, List.take_of_length_le]
    rw [← htext, List.length_drop]
  | cons d after =>
    rw [hafter] at hfind
    obtain ⟨stop, hstop, hle, hlt, hdrop, htake⟩ := hfind
    have hlater : stop ≠ pos := by
      rintro rfl
      rw [Nat.sub_self, List.take_zero, List.takeWhile_cons_of_pos (by simpa using hc)] at htake
      cases htake
    rw [hstop]
    apply Meets.bind ((safe_diff _ _).mpr hle)
    apply Meets.bind ((safe_substr _ _ _).mpr (Nat.le_of_lt hpos))
    refine .pure ⟨by omega, by omega, ?_⟩
    rw [value_diff, value_substr, htext, htake, hdrop]

/-- The tokenizer at a position reads what the plain one reads of the rest. -/
theorem next_reads {pos : Nat} (hpos : pos ≤ input.length) :
    (next input pos).Meets (Reads input pos (FirehoseXmlEngine.next (input.drop pos))) := by
  obtain ⟨start, hstart, hle, hinside, hdrop, -⟩ := skipWhile_spec isWhitespace hpos
  unfold next
  apply Meets.bind safe_skipWhile
  rw [hstart]
  cases htext : (input.drop pos).dropWhile isWhitespace with
  | nil =>
    rw [htext] at hdrop
    have hend : start ≥ input.length := List.drop_eq_nil_iff.mp hdrop
    rw [if_pos hend, next_nil htext]
    exact .pure ⟨hle, hinside, by rw [hdrop]⟩
  | cons c rest =>
    rw [htext] at hdrop
    have hlt : ¬ start ≥ input.length := by
      intro hend
      rw [List.drop_of_length_le hend] at hdrop
      cases hdrop
    have hnext : start + 1 ≤ input.length := by omega
    rw [if_neg hlt]
    apply Meets.bind (safe_charIs _ _ _)
    rw [value_charIs, hdrop, List.head?_cons]
    by_cases hc : c = '<'
    · subst hc
      rw [if_pos (by simp)]
      apply Meets.bind (safe_charIs _ _ _)
      rw [value_charIs, drop_succ hdrop]
      by_cases hslash : rest.head? = some '/'
      · obtain ⟨tail, rfl⟩ : ∃ tail, rest = '/' :: tail := List.head?_eq_some_iff.mp hslash
        have htail := drop_succ (drop_succ hdrop)
        have hroom : start + 2 ≤ input.length := by
          have := congrArg List.length hdrop
          rw [List.length_drop, List.length_cons, List.length_cons] at this
          omega
        rw [if_pos (by simp), next_close htext]
        exact Reads.mono (closingTag_reads hroom htail) (by omega)
      · rw [if_neg (by simpa using hslash), next_open htext hslash]
        exact Reads.mono (openingTag_reads hdrop) (by omega)
    · rw [if_neg (by simpa using hc), next_other htext hc]
      exact Reads.mono (textContent_reads hdrop hc) (by omega)

end Tokens

/-! ## Tag content -/

section TagContent

variable {content : List Char}

/-- `if (pos < content.size()) pos++;` -/
theorem drop_tail (pos : Nat) :
    content.drop (if pos < content.length then pos + 1 else pos) = (content.drop pos).tail := by
  rw [List.tail_drop]
  by_cases h : pos < content.length
  · rw [if_pos h]
  · rw [if_neg h, List.drop_of_length_le (by omega), List.drop_of_length_le (by omega)]

/-- Past an equals sign, if there is one. -/
theorem drop_eqSign (content : List Char) (pos : Nat) :
    content.drop (if (charIs content '=' pos).value then pos + 1 else pos) =
      if (content.drop pos).head? = some '=' then (content.drop pos).tail
      else content.drop pos := by
  rw [value_charIs, List.tail_drop]
  by_cases h : (content.drop pos).head? = some '='
  · simp only [h, decide_true, if_true]
  · simp only [h, decide_false, Bool.false_eq_true, if_false]

/-- A name or an equals sign is read in every round. -/
theorem nameStart_lt {nameStart pos : Nat} (hstart : nameStart < content.length)
    (hle : nameStart ≤ pos)
    (hdrop : content.drop pos = (content.drop nameStart).dropWhile
      fun c => c ≠ '=' && !isWhitespace c)
    (hspace : ∀ c, (content.drop nameStart).head? = some c → isWhitespace c = false) :
    nameStart < if (charIs content '=' pos).value then pos + 1 else pos := by
  rw [value_charIs]
  by_cases heq : (content.drop pos).head? = some '='
  · rw [if_pos (decide_eq_true heq)]
    omega
  rw [if_neg (by rw [decide_eq_true_eq]; exact heq)]
  by_contra hstay
  obtain rfl : pos = nameStart := by omega
  -- Standing still, the name is empty: its first character is an `=` or a space.
  have hfirst : (content.drop pos).head? = some content[pos] := by
    rw [List.head?_drop, List.getElem?_eq_getElem hstart]
  have hstop := List.head?_dropWhile_not (fun c => c ≠ '=' && !isWhitespace c) (content.drop pos)
  have hc := hspace content[pos] hfirst
  rw [hfirst, Option.some.injEq] at heq
  rw [← hdrop, hfirst] at hstop
  simp [heq, hc] at hstop

/-- A round of the plain loop, by what stands where a value is looked for. -/
theorem plain_round {text start value : List Char} (plainFuel : Nat)
    (hstart : text.dropWhile isWhitespace = start) (hne : start ≠ [])
    (hvalue : (if (start.dropWhile fun c => c ≠ '=' && !isWhitespace c).head? = some '=' then
        (start.dropWhile fun c => c ≠ '=' && !isWhitespace c).tail
      else start.dropWhile fun c => c ≠ '=' && !isWhitespace c).dropWhile isWhitespace = value) :
    FirehoseXmlEngine.parseAttributes (plainFuel + 1) text =
      if value.head? = some '"' then
        ⟨String.ofList (start.takeWhile fun c => c ≠ '=' && !isWhitespace c),
          String.ofList (value.tail.takeWhile (· ≠ '"'))⟩ ::
            FirehoseXmlEngine.parseAttributes plainFuel (value.tail.dropWhile (· ≠ '"')).tail
      else FirehoseXmlEngine.parseAttributes plainFuel value := by
  rw [FirehoseXmlEngine.parseAttributes, hstart]
  split
  case h_1 => exact absurd rfl hne
  case h_2 =>
    simp only [hvalue]
    split
    case h_1 => rfl
    case h_2 hother =>
      rw [if_neg]
      intro hhead
      obtain ⟨rest, hrest⟩ := List.head?_eq_some_iff.mp hhead
      exact hother rest hrest

theorem parseAttributes_spec {fuel plainFuel pos : Nat} (hpos : pos ≤ content.length)
    (hfuel : content.length - pos < fuel) (hplain : content.length - pos ≤ plainFuel) :
    (parseAttributes content fuel pos).Meets
      (· = some (FirehoseXmlEngine.parseAttributes plainFuel (content.drop pos))) := by
  induction fuel generalizing pos plainFuel with
  | zero => omega
  | succ fuel ih =>
    rw [parseAttributes]
    by_cases hend : pos < content.length
    case neg =>
      rw [if_neg hend, List.drop_of_length_le (by omega)]
      exact .pure (by cases plainFuel <;> rfl)
    obtain ⟨plainFuel, rfl⟩ : ∃ n, plainFuel = n + 1 := ⟨plainFuel - 1, by omega⟩
    obtain ⟨nameStart, hname, hle, hinside, hdrop, -⟩ := skipWhile_spec isWhitespace hpos
    rw [if_pos hend]
    apply Meets.bind safe_skipWhile
    rw [hname]
    by_cases hnone : nameStart ≥ content.length
    · rw [if_pos hnone]
      rw [List.drop_of_length_le hnone] at hdrop
      exact .pure (by rw [FirehoseXmlEngine.parseAttributes, ← hdrop])
    obtain ⟨nameEnd, hnameEnd, hnameLe, hnameInside, hnameDrop, hnameTake⟩ :=
      skipWhile_spec (fun c => c ≠ '=' && !isWhitespace c) (Nat.le_of_not_ge hnone)
    have hspace : ∀ c, (content.drop nameStart).head? = some c → isWhitespace c = false := by
      intro c hc
      have hstop := List.head?_dropWhile_not isWhitespace (content.drop pos)
      rw [← hdrop, hc] at hstop
      exact hstop
    have hmore := nameStart_lt (by omega) hnameLe hnameDrop hspace
    have hafterEq := drop_eqSign content nameEnd
    have hroom : (if (charIs content '=' nameEnd).value then nameEnd + 1 else nameEnd)
        ≤ content.length := by
      rw [value_charIs]
      split
      case isTrue h =>
        by_contra hend
        rw [List.drop_of_length_le (by omega)] at h
        simp at h
      case isFalse => exact hnameInside
    generalize heq : (if (charIs content '=' nameEnd).value then nameEnd + 1 else nameEnd) = afterEq
      at hmore hafterEq hroom
    obtain ⟨valueStart, hvalue, hvalueLe, hvalueInside, hvalueDrop, -⟩ :=
      skipWhile_spec isWhitespace hroom
    have hne : content.drop nameStart ≠ [] := by
      intro hnil
      exact hnone (List.drop_eq_nil_iff.mp hnil)
    have hvalueAt : List.dropWhile isWhitespace _ = content.drop valueStart := hvalueDrop.symm
    rw [hafterEq, hnameDrop] at hvalueAt
    have hround := plain_round plainFuel hdrop.symm hne hvalueAt
    have hrecurse : ∀ next, afterEq ≤ next → next ≤ content.length →
        (parseAttributes content fuel next).Meets
          (· = some (FirehoseXmlEngine.parseAttributes plainFuel (content.drop next))) :=
      fun next hnext hinside => ih hinside (by omega) (by omega)
    rw [if_neg hnone, hround]
    apply Meets.bind safe_skipWhile
    rw [hnameEnd]
    apply Meets.bind ((safe_diff _ _).mpr hnameLe)
    apply Meets.bind ((safe_substr _ _ _).mpr hinside)
    apply Meets.bind (safe_charIs _ _ _)
    rw [heq]
    apply Meets.bind safe_skipWhile
    rw [hvalue]
    apply Meets.bind (safe_charIs _ _ _)
    rw [value_charIs]
    by_cases hquote : (content.drop valueStart).head? = some '"'
    · obtain ⟨rest, hrest⟩ := List.head?_eq_some_iff.mp hquote
      have hvalStart : valueStart + 1 ≤ content.length := by
        have := congrArg List.length hrest
        rw [List.length_drop, List.length_cons] at this
        omega
      obtain ⟨stop, hstop, hstopLe, hstopInside, hstopDrop, hstopTake⟩ :=
        skipWhile_spec (· ≠ '"') hvalStart
      rw [if_pos (decide_eq_true hquote), if_pos hquote]
      apply Meets.bind safe_skipWhile
      rw [hstop]
      apply Meets.bind ((safe_diff _ _).mpr hstopLe)
      apply Meets.bind ((safe_substr _ _ _).mpr hvalStart)
      have hnext := hrecurse (if stop < content.length then stop + 1 else stop)
        (by split <;> omega) (by split <;> omega)
      apply Meets.bind hnext.safe
      refine .pure ?_
      rw [hnext.value, drop_tail, hstopDrop, Option.map_some, value_substr, value_substr,
        value_diff,
        value_diff, hstopTake, hnameTake, List.tail_drop]
    · rw [if_neg (by rw [decide_eq_true_eq]; exact hquote), if_neg hquote]
      exact hrecurse valueStart hvalueLe hvalueInside

theorem parseTagContent_spec (content : List Char) :
    (parseTagContent content).Meets (· = some (FirehoseXmlEngine.parseTagContent content)) := by
  obtain ⟨pos, hpos, -, hinside, hdrop, htake⟩ :=
    skipWhile_spec (s := content) (fun c => !isWhitespace c) (Nat.zero_le _)
  have hattrs : (parseAttributes content (content.length + 1) pos).Meets
      (· = some (FirehoseXmlEngine.parseAttributes content.length (content.drop pos))) :=
    parseAttributes_spec hinside (by omega) (by omega)
  unfold parseTagContent
  apply Meets.bind safe_skipWhile
  rw [hpos]
  apply Meets.bind ((safe_substr _ _ _).mpr (Nat.zero_le _))
  apply Meets.bind hattrs.safe
  refine .pure ?_
  rw [Nat.sub_zero, List.drop_zero] at htake
  rw [hattrs.value, hdrop, value_substr, List.drop_zero, htake]
  rfl

end TagContent

/-! ## parseXmlRecursive -/

section Recursion

variable {input : List Char}

/-- Every token but the last moves the position on. -/
theorem Reads.lt {pos : Nat} {r : Token × Nat}
    (h : Reads input pos (FirehoseXmlEngine.next (input.drop pos)) r) (htoken : r.1.type ≠ .eof) :
    pos < r.2 := by
  have hshorter := (next_length (input.drop pos)).2
  rw [h.result] at hshorter
  have := hshorter htoken
  rw [List.length_drop, List.length_drop] at this
  omega

/-- What the parser does from `pos` on, where the plain parser returns `plain`: no
call before `first`, each one past the one before and no deeper than the limit,
and none past the end. -/
structure Orderly (input : List Char) (pos first : Nat)
    (plain : Option (Except ErrorCode (XmlElement × List Char))) (r : Run) : Prop where
  outcome : r.outcome.map (Except.map fun x => (x.1, input.drop x.2)) = plain
  ordered : r.calls.Pairwise fun a b => a.pos < b.pos
  started : ∀ c ∈ r.calls, first ≤ c.pos
  inside : ∀ c ∈ r.calls, c.pos ≤ input.length
  depth : ∀ c ∈ r.calls, c.depth ≤ kMaxXmlDepth
  stopped : ∀ e stop, r.outcome = some (.ok (e, stop)) →
    pos ≤ stop ∧ stop ≤ input.length ∧ ∀ c ∈ r.calls, c.pos ≤ stop

variable {pos first : Nat} {plain : Option (Except ErrorCode (XmlElement × List Char))}

/-- A run that makes no call. -/
theorem Orderly.quiet {outcome : Option (Except ErrorCode (XmlElement × Nat))}
    (hplain : outcome.map (Except.map fun x => (x.1, input.drop x.2)) = plain)
    (hstop : ∀ e stop, outcome = some (.ok (e, stop)) → pos ≤ stop ∧ stop ≤ input.length) :
    Orderly input pos first plain ⟨outcome, []⟩ where
  outcome := hplain
  ordered := List.Pairwise.nil
  started := by simp
  inside := by simp
  depth := by simp
  stopped := by
    intro e stop h
    exact ⟨(hstop e stop h).1, (hstop e stop h).2, by simp⟩

/-- A call, and what follows it further on. -/
theorem Orderly.call {depth start : Nat} {r : Run} (h : Orderly input start (pos + 1) plain r)
    (hpos : pos ≤ input.length) (hstart : pos ≤ start) (hdepth : depth ≤ kMaxXmlDepth) :
    Orderly input pos pos plain (r.after [⟨depth, pos⟩]) where
  outcome := h.outcome
  ordered := List.pairwise_cons.mpr ⟨fun c hc => h.started c hc, h.ordered⟩
  started := by
    intro c hc
    rcases List.mem_cons.mp hc with rfl | hc
    · exact Nat.le_refl _
    · exact Nat.le_of_succ_le (h.started c hc)
  inside := List.forall_mem_cons.mpr ⟨hpos, h.inside⟩
  depth := List.forall_mem_cons.mpr ⟨hdepth, h.depth⟩
  stopped := by
    intro e stop hstop
    obtain ⟨hle, hinside, hcalls⟩ := h.stopped e stop hstop
    have := Nat.le_trans hstart hle
    exact ⟨this, hinside, List.forall_mem_cons.mpr ⟨this, hcalls⟩⟩

theorem Orderly.single {depth : Nat} {outcome : Option (Except ErrorCode (XmlElement × Nat))}
    (hplain : outcome.map (Except.map fun x => (x.1, input.drop x.2)) = plain)
    (hstop : ∀ e stop, outcome = some (.ok (e, stop)) → pos ≤ stop ∧ stop ≤ input.length)
    (hpos : pos ≤ input.length) (hdepth : depth ≤ kMaxXmlDepth) :
    Orderly input pos pos plain ⟨outcome, [⟨depth, pos⟩]⟩ :=
  Orderly.call (Orderly.quiet hplain hstop) hpos (Nat.le_refl pos) hdepth

/-- A child, and what the loop does after it. -/
theorem Orderly.after {start stop : Nat} {child r : Run} {plain' : Option _} {e : XmlElement}
    (hchild : Orderly input start start plain' child)
    (hok : child.outcome = some (.ok (e, stop)))
    (h : Orderly input stop (stop + 1) plain r) (hpos : pos ≤ start) (hfirst : first ≤ start) :
    Orderly input pos first plain (r.after child.calls) := by
  obtain ⟨hle, hinside, hcalls⟩ := hchild.stopped e stop hok
  refine ⟨h.outcome, ?_, ?_, ?_, ?_, ?_⟩
  · refine List.pairwise_append.mpr ⟨hchild.ordered, h.ordered, ?_⟩
    intro a ha b hb
    exact Nat.lt_of_le_of_lt (hcalls a ha) (h.started b hb)
  · refine List.forall_mem_append.mpr ⟨?_, ?_⟩
    · intro c hc
      exact Nat.le_trans hfirst (hchild.started c hc)
    · intro c hc
      have := h.started c hc
      omega
  · exact List.forall_mem_append.mpr ⟨hchild.inside, h.inside⟩
  · exact List.forall_mem_append.mpr ⟨hchild.depth, h.depth⟩
  · intro e' stop' hstop'
    obtain ⟨hle', hinside', hcalls'⟩ := h.stopped e' stop' hstop'
    refine ⟨by omega, hinside', List.forall_mem_append.mpr ⟨?_, hcalls'⟩⟩
    intro c hc
    exact Nat.le_trans (hcalls c hc) hle'

/-- A child that ends the loop it stands in. -/
theorem Orderly.failed {start : Nat} {r : Run} (h : Orderly input start start plain r)
    (hpos : first ≤ start) (hfail : ∀ e stop, r.outcome ≠ some (.ok (e, stop))) :
    Orderly input pos first plain r :=
  { h with
    started := fun c hc => Nat.le_trans hpos (h.started c hc)
    stopped := fun e stop hstop => absurd hstop (hfail e stop) }

/-- A run that starts further on. -/
theorem Orderly.weaken {start : Nat} {r : Run} (h : Orderly input start (start + 1) plain r)
    (hpos : pos ≤ start) : Orderly input pos (pos + 1) plain r :=
  { h with
    started := fun c hc => Nat.le_trans (Nat.succ_le_succ hpos) (h.started c hc)
    stopped := by
      intro e stop hstop
      obtain ⟨hle, hrest⟩ := h.stopped e stop hstop
      exact ⟨Nat.le_trans hpos hle, hrest⟩ }

/-- The content of a tag is always scanned to its end. -/
theorem tagContent_bind {P : Run → Prop} {value : List Char} {k : Option ParsedTag → Logged Run}
    (h : (k (some (FirehoseXmlEngine.parseTagContent value))).Meets P) :
    (parseTagContent value >>= k).Meets P := by
  obtain ⟨hsafe, hvalue⟩ := parseTagContent_spec value
  apply Meets.bind hsafe
  rwa [hvalue]

/-- By induction on the fuel, for an element and for the loop over its children. -/
theorem parseXmlRecursive_orderly (input : List Char) (fuel : Nat) :
    (∀ depth pos, depth ≤ kMaxXmlDepth → pos ≤ input.length →
      (parseXmlRecursive input fuel depth pos).Meets (Orderly input pos pos
        (FirehoseXmlEngine.parseXmlRecursive fuel depth (input.drop pos)))) ∧
    (∀ depth element pos, depth < kMaxXmlDepth → pos ≤ input.length →
      (parseBody input fuel depth element pos).Meets (Orderly input pos (pos + 1)
        (FirehoseXmlEngine.parseBody fuel depth element (input.drop pos)))) := by
  induction fuel with
  | zero =>
    refine ⟨?_, ?_⟩
    · intro depth pos hdepth hpos
      exact .pure (Orderly.single rfl (by simp) hpos hdepth)
    · intro depth element pos hdepth hpos
      exact .pure (Orderly.quiet rfl (by simp))
  | succ fuel ih =>
    obtain ⟨ihElement, ihBody⟩ := ih
    refine ⟨?_, ?_⟩
    · intro depth pos hdepth hpos
      obtain ⟨hsafe, hnext⟩ := next_reads hpos
      rw [parseXmlRecursive, FirehoseXmlEngine.parseXmlRecursive]
      by_cases hlimit : depth ≥ kMaxXmlDepth
      · rw [if_pos hlimit, if_pos hlimit]
        exact .pure (Orderly.single rfl (by simp) hpos hdepth)
      rw [if_neg hlimit, if_neg hlimit]
      apply Meets.bind hsafe
      have hlt := hnext.lt
      rw [hnext.result]
      obtain ⟨hle, hinside, -⟩ := hnext
      generalize (next input pos).value = r at hle hinside hlt ⊢
      obtain ⟨⟨type, value⟩, stop⟩ := r
      cases type with
      | tagOpen =>
        have hbody := ihBody depth (.mk (FirehoseXmlEngine.parseTagContent value).name
          (FirehoseXmlEngine.parseTagContent value).attrs [] "") stop (by omega) hinside
        apply tagContent_bind
        apply Meets.bind hbody.safe
        exact .pure ((hbody.value.weaken hle).call hpos (Nat.le_refl pos) hdepth)
      | selfClose =>
        apply tagContent_bind
        refine .pure (Orderly.single rfl ?_ hpos hdepth)
        rintro e stop' h
        cases h
        exact ⟨hle, hinside⟩
      | _ => exact .pure (Orderly.single rfl (by simp) hpos hdepth)
    · intro depth element pos hdepth hpos
      obtain ⟨hsafe, hnext⟩ := next_reads hpos
      rw [parseBody, FirehoseXmlEngine.parseBody]
      apply Meets.bind hsafe
      have hlt := hnext.lt
      rw [hnext.result]
      obtain ⟨hle, hinside, -⟩ := hnext
      generalize (next input pos).value = r at hle hinside hlt ⊢
      obtain ⟨⟨type, value⟩, stop⟩ := r
      -- Where the loop goes on, it goes on from the end of the token.
      have hloop : ∀ element, (parseBody input fuel depth element stop).Meets
          (Orderly input pos (pos + 1)
            (FirehoseXmlEngine.parseBody fuel depth element (input.drop stop))) := by
        intro element
        exact (ihBody depth element stop hdepth hinside).mono fun r hr => hr.weaken hle
      cases type with
      | eof | tagClose =>
        refine .pure (Orderly.quiet rfl ?_)
        rintro e stop' h
        cases h
        exact ⟨hle, hinside⟩
      | text =>
        obtain ⟨htrim, htrimSafe⟩ := trim_spec value
        apply Meets.bind htrimSafe
        rw [htrim]
        show Meets _ (Orderly input pos (pos + 1) (if _ then _ else _))
        split
        case isTrue => exact hloop element
        case isFalse => exact hloop _
      | selfClose =>
        apply tagContent_bind
        exact hloop _
      | tagOpen =>
        have hstart : pos < stop := hlt (by simp)
        obtain ⟨hchildSafe, hchild⟩ := ihElement (depth + 1) stop (by omega) hinside
        apply tagContent_bind
        apply Meets.bind hchildSafe
        dsimp only
        rw [← hchild.outcome]
        generalize (parseXmlRecursive input fuel (depth + 1) stop).value = child at hchild ⊢
        obtain ⟨outcome, calls⟩ := child
        rcases outcome with - | e | ⟨childElement, after⟩
        · exact .pure (Orderly.failed { hchild with outcome := rfl } hstart (by simp))
        · exact .pure (Orderly.failed { hchild with outcome := rfl } hstart (by simp))
        · obtain ⟨-, hafter, -⟩ := hchild.stopped childElement after rfl
          have hrest := ihBody depth (element.pushChild (.mk
            (FirehoseXmlEngine.parseTagContent value).name
            (FirehoseXmlEngine.parseTagContent value).attrs
            childElement.children childElement.content)) after hdepth hafter
          apply Meets.bind hrest.safe
          exact .pure (hchild.after rfl hrest.value (Nat.le_of_lt hstart) hstart)

/-- On every input the parser ends with the plain parser's result or error, each
access is inside of the text it is made to, no call is nested deeper than the
limit, and each starts past the one before it. -/
theorem parse_stays_inside (xml : String) :
    (parse xml).value.outcome.map (Except.map Prod.fst) = some (FirehoseXmlEngine.parse xml) ∧
      (parse xml).Safe ∧
      (∀ c ∈ (parse xml).value.calls, c.depth ≤ kMaxXmlDepth ∧ c.pos ≤ xml.toList.length) ∧
      (parse xml).value.calls.Pairwise fun a b => a.pos < b.pos := by
  unfold parse FirehoseXmlEngine.parse
  by_cases hempty : xml = ""
  · rw [if_pos hempty, if_pos hempty]
    exact ⟨rfl, safe_pure _, by simp, List.Pairwise.nil⟩
  rw [if_neg hempty, if_neg hempty]
  obtain ⟨hsafe, hrun⟩ := (parseXmlRecursive_orderly xml.toList (xml.toList.length + 1)).1 0 0
    (Nat.zero_le _) (Nat.zero_le _)
  refine ⟨?_, hsafe, fun c hc => ⟨hrun.depth c hc, hrun.inside c hc⟩, hrun.ordered⟩
  have htotal := parse_total xml
  rw [List.drop_zero] at hrun
  rw [← hrun.outcome] at htotal ⊢
  generalize (parseXmlRecursive xml.toList (xml.toList.length + 1) 0 0).value.outcome = outcome
    at htotal ⊢
  rcases outcome with - | e | ⟨element, stop⟩
  · exact absurd rfl htotal
  · rfl
  · rfl

end Recursion

end MBootCore.FirehoseXmlEngine.Reading
