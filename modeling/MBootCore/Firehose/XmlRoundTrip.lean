import MBootCore.Firehose.XmlTokens

/-!
# Firehose — XmlRoundTrip

What `FirehoseXmlEngine::parse` makes of serialized elements.

The serializer escapes attribute values and contents and the parser never
unescapes them, so what comes back is the escaped element
(`parse_render_flat`); and a child with a body of its own is parsed from the
token after its tag, which loses an element. The loss is shown by counting:
no parse returns more elements than the text has tags that open one
(`parse_count`), and one that read a child with a body returns fewer.
-/

namespace MBootCore

namespace XmlElement

/-- To prove something of every element, prove it from its children. -/
theorem induction {motive : XmlElement → Prop}
    (h : ∀ name attributes children content, (∀ child ∈ children, motive child) →
      motive (mk name attributes children content)) (e : XmlElement) : motive e := by
  refine XmlElement.rec (motive_1 := motive) (motive_2 := fun l => ∀ child ∈ l, motive child)
    h ?_ ?_ e
  · simp
  · intro head tail hhead htail
    simpa using ⟨hhead, htail⟩

/-- Serialized as one self-closing tag. -/
def Leaf (e : XmlElement) : Prop := e.children = [] ∧ e.content = ""

end XmlElement

namespace FirehoseXmlEngine

open Scan

inductive Valid : XmlElement → Prop
  | mk {name attributes children content} (hname : ValidName name)
      (hattributes : ∀ attr ∈ attributes, ValidName attr.name) (hcontent : Trimmed content)
      (hchildren : ∀ child ∈ children, Valid child) :
      Valid (.mk name attributes children content)

/-! ## Elements whose children are leaves -/

/-- No child has children or content. -/
def Flat (e : XmlElement) : Prop := ∀ child ∈ e.children, child.Leaf

/-- The leaf a self-closing tag is parsed to. -/
def escapedLeaf (e : XmlElement) : XmlElement :=
  .mk e.name (e.attributes.map escapedAttribute) [] ""

/-- What a flat element is parsed back to. -/
def escapedFlat (e : XmlElement) : XmlElement :=
  .mk e.name (e.attributes.map escapedAttribute) (e.children.map escapedLeaf)
    (escapeContent e.content)

theorem render_leaf {e : XmlElement} (h : e.Leaf) :
    render e = '<' :: (tagBody e.name e.attributes ++ ['/', '>']) := by
  obtain ⟨name, attributes, children, content⟩ := e
  obtain ⟨rfl, rfl⟩ : children = [] ∧ content = "" := h
  simp [render, tagBody, XmlElement.name, XmlElement.attributes]

theorem render_body {e : XmlElement} (h : ¬ e.Leaf) :
    render e = '<' :: (tagBody e.name e.attributes ++ '>' :: ((escapeContent e.content).toList ++
      (renderChildren e.children ++ '<' :: '/' :: (e.name.toList ++ ['>'])))) := by
  obtain ⟨name, attributes, children, content⟩ := e
  have hbody : ¬ (children = [] ∧ content = "") := h
  simp [render, tagBody, XmlElement.name, XmlElement.attributes, XmlElement.content,
    XmlElement.children, hbody]

theorem Valid.name {e : XmlElement} (h : Valid e) : ValidName e.name := by
  cases h
  assumption

theorem Valid.attributes {e : XmlElement} (h : Valid e) :
    ∀ attr ∈ e.attributes, ValidName attr.name := by
  cases h
  assumption

theorem Valid.content {e : XmlElement} (h : Valid e) : Trimmed e.content := by
  cases h
  assumption

theorem Valid.children {e : XmlElement} (h : Valid e) : ∀ child ∈ e.children, Valid child := by
  cases h
  assumption

theorem Valid.next_leaf {e : XmlElement} (h : Valid e) (hleaf : e.Leaf) (rest : List Char) :
    next (render e ++ rest) = (⟨.selfClose, tagBody e.name e.attributes⟩, rest) := by
  obtain ⟨hhead, hne⟩ := tagBody_head h.name e.attributes
  rw [render_leaf hleaf, List.cons_append, List.append_assoc]
  exact next_selfClose (fun _ hc => (mem_tagBody h.name h.attributes hc).2) hhead hne

theorem Valid.next_open {e : XmlElement} (h : Valid e) (rest : List Char) :
    next ('<' :: (tagBody e.name e.attributes ++ '>' :: rest))
      = (⟨.tagOpen, tagBody e.name e.attributes⟩, rest) :=
  next_tagOpen (fun _ hc => (mem_tagBody h.name h.attributes hc).2)
    (tagBody_head h.name e.attributes).1 (tagBody_getLast h.name e.attributes)

theorem Valid.next_close {e : XmlElement} (h : Valid e) (rest : List Char) :
    next ('<' :: '/' :: (e.name.toList ++ '>' :: rest)) = (⟨.tagClose, e.name.toList⟩, rest) :=
  next_tagClose fun c hc => (h.name.2 c hc).2.2.2.2.1

/-- The children loop over leaves and the closing tag. -/
theorem parseBody_leaves {e : XmlElement} (he : Valid e) {children : List XmlElement}
    (hvalid : ∀ child ∈ children, Valid child) (hleaf : ∀ child ∈ children, child.Leaf)
    (fuel depth : Nat) (hfuel : children.length < fuel) (name : String)
    (attributes : List XmlAttribute) (before : List XmlElement) (content : String) :
    parseBody fuel depth (.mk name attributes before content)
        (renderChildren children ++ '<' :: '/' :: (e.name.toList ++ ['>']))
      = some (.ok (.mk name attributes (before ++ children.map escapedLeaf) content, [])) := by
  induction children generalizing fuel before with
  | nil =>
    obtain ⟨fuel, rfl⟩ : ∃ k, fuel = k + 1 := ⟨fuel - 1, by simp at hfuel; omega⟩
    simp [parseBody, renderChildren, he.next_close]
  | cons child children ih =>
    obtain ⟨fuel, rfl⟩ : ∃ k, fuel = k + 1 := ⟨fuel - 1, by simp at hfuel; omega⟩
    rw [List.forall_mem_cons] at hvalid hleaf
    have hnext := hvalid.1.next_leaf hleaf.1
      (renderChildren children ++ '<' :: '/' :: (e.name.toList ++ ['>']))
    have htag := parseTagContent_tagBody hvalid.1.name hvalid.1.attributes
    rw [renderChildren, List.append_assoc, parseBody, hnext]
    simp only [htag, XmlElement.pushChild]
    rw [ih hvalid.2 hleaf.2 fuel (by simpa using hfuel)]
    simp [escapedLeaf]

theorem length_le_renderChildren {children : List XmlElement}
    (hleaf : ∀ child ∈ children, child.Leaf) :
    children.length ≤ (renderChildren children).length := by
  induction children with
  | nil => simp
  | cons child children ih =>
    rw [List.forall_mem_cons] at hleaf
    have := ih hleaf.2
    simp only [renderChildren, render_leaf hleaf.1, List.length_cons, List.length_append]
    omega

theorem trim_eq_self {s : List Char}
    (h : ∀ c, s.head? = some c ∨ s.getLast? = some c → isWhitespace c = false) : trim s = s := by
  rw [trim, dropWhile_eq_self fun c hc => h c (Or.inl hc),
    dropWhile_eq_self fun c hc => h c (Or.inr (by simpa using hc)), List.reverse_reverse]

theorem escapeContentChar_ends {c d : Char} (hc : isWhitespace c = false)
    (h : (escapeContentChar c).head? = some d ∨ (escapeContentChar c).getLast? = some d) :
    isWhitespace d = false := by
  unfold escapeContentChar at h
  split_ifs at h
  · rcases h with h | h <;> obtain rfl := Option.some.inj h <;> decide
  · rcases h with h | h <;> obtain rfl := Option.some.inj h <;> decide
  · rcases h with h | h <;> obtain rfl := Option.some.inj h <;> decide
  · rcases h with h | h <;> obtain rfl := Option.some.inj h <;> exact hc

/-- Escaping keeps the ends of a text free of whitespace. -/
theorem escapeContent_ends {content : String} (h : Trimmed content) (d : Char)
    (hd : (escapeContent content).toList.head? = some d ∨
      (escapeContent content).toList.getLast? = some d) : isWhitespace d = false := by
  have hne (c : Char) : escapeContentChar c ≠ [] := by
    have := (escapeContentChar_length c).1
    intro hnil
    simp [hnil] at this
  rw [escapeContent, String.toList_ofList] at hd
  rcases hd with hd | hd
  · cases hcs : content.toList with
    | nil => simp [hcs] at hd
    | cons c cs =>
      rw [hcs, List.flatMap_cons, List.head?_append_of_ne_nil _ (hne c)] at hd
      exact escapeContentChar_ends (h c (Or.inl (by rw [hcs]; rfl))) (Or.inl hd)
  · rcases List.eq_nil_or_concat content.toList with hcs | ⟨cs, c, hcs⟩
    · simp [hcs] at hd
    · rw [hcs, List.concat_eq_append, List.flatMap_append, List.flatMap_singleton,
        List.getLast?_append_of_ne_nil _ (hne c)] at hd
      exact escapeContentChar_ends (h c (Or.inr (by rw [hcs]; simp))) (Or.inr hd)

theorem escapeContent_eq_empty {content : String} :
    (escapeContent content).toList = [] ↔ content = "" := by
  constructor
  · intro h
    have hlen := length_le_flatMap (fun c => (escapeContentChar_length c).1) content.toList
    rw [escapeContent, String.toList_ofList] at h
    rw [h] at hlen
    simpa using hlen
  · rintro rfl
    rfl

/-- The children loop on the whole body of a flat element. -/
theorem parseBody_flat {e : XmlElement} (h : Valid e) (hflat : Flat e) (fuel depth : Nat)
    (hfuel : e.children.length + 1 < fuel) :
    parseBody fuel depth (.mk e.name (e.attributes.map escapedAttribute) [] "")
        ((escapeContent e.content).toList ++
          (renderChildren e.children ++ '<' :: '/' :: (e.name.toList ++ ['>'])))
      = some (.ok (escapedFlat e, [])) := by
  have hleaves (fuel : Nat) (hfuel : e.children.length < fuel) (content : String) :=
    parseBody_leaves h h.children hflat fuel depth hfuel e.name
      (e.attributes.map escapedAttribute) [] content
  cases htext : (escapeContent e.content).toList with
  | nil =>
    rw [List.nil_append, hleaves fuel (by omega) "", escapedFlat,
      escapeContent_eq_empty.mp htext]
    rfl
  | cons c text =>
    obtain ⟨fuel, rfl⟩ : ∃ k, fuel = k + 1 := ⟨fuel - 1, by omega⟩
    -- the loop reads the text up to the first tag, of a child or the closing one
    obtain ⟨after, hafter⟩ : ∃ after, renderChildren e.children ++
        '<' :: '/' :: (e.name.toList ++ ['>']) = '<' :: after := by
      cases hchildren : e.children with
      | nil => exact ⟨_, rfl⟩
      | cons child children =>
        rw [renderChildren, render_leaf (hflat child (by rw [hchildren]; simp))]
        exact ⟨_, rfl⟩
    have htrim := trim_eq_self (escapeContent_ends h.content)
    have hspace : isWhitespace c = false :=
      escapeContent_ends h.content c (Or.inl (by rw [htext]; rfl))
    have hchars : ∀ d ∈ c :: text, d ≠ '<' := by
      intro d hd
      rw [← htext] at hd
      exact (mem_escapeContent hd).1
    rw [htext] at htrim
    rw [hafter, parseBody, next_text hspace hchars]
    simp only [htrim, ← hafter, if_neg (List.cons_ne_nil c text), XmlElement.setContent]
    rw [hleaves fuel (by omega), escapedFlat, ← htext, String.ofList_toList]
    rfl

theorem render_ne_nil (e : XmlElement) : render e ≠ [] := by
  obtain ⟨name, attributes, children, content⟩ := e
  rw [render]
  split <;> simp

/-- A flat element comes back escaped. -/
theorem parse_render_flat {e : XmlElement} (h : Valid e) (hflat : Flat e) :
    parse (String.ofList (render e)) = .ok (escapedFlat e) := by
  have htag := parseTagContent_tagBody h.name h.attributes
  have hnonempty : String.ofList (render e) ≠ "" := by
    rw [← String.toList_inj.ne, String.toList_ofList]
    exact render_ne_nil e
  rw [parse, if_neg hnonempty, String.toList_ofList]
  by_cases hleaf : e.Leaf
  · have hnext := h.next_leaf hleaf []
    rw [List.append_nil] at hnext
    obtain ⟨hchildren, hcontent⟩ := hleaf
    simp [parseXmlRecursive, kMaxXmlDepth, hnext, htag, escapedFlat, hchildren, hcontent,
      escapeContent]
  · have hlen := length_le_renderChildren hflat
    have hnext := h.next_open ((escapeContent e.content).toList ++
      (renderChildren e.children ++ '<' :: '/' :: (e.name.toList ++ ['>'])))
    rw [← render_body hleaf] at hnext
    have hbody := parseBody_flat h hflat (render e).length 0 (by
      rw [render_body hleaf]
      simp only [List.length_cons, List.length_append]
      omega)
    simp [parseXmlRecursive, kMaxXmlDepth, hnext, htag, hbody]

theorem map_escapedAttribute_eq_iff (attributes : List XmlAttribute) :
    attributes.map escapedAttribute = attributes ↔
      ∀ attr ∈ attributes, AttributeSafe attr.value := by
  have hone (attr : XmlAttribute) : escapedAttribute attr = attr ↔ AttributeSafe attr.value := by
    rw [← escapeAttribute_eq_iff]
    constructor
    · exact fun h => congrArg XmlAttribute.value h
    · intro h
      rw [escapedAttribute, h]
  induction attributes with
  | nil => simp
  | cons attr attributes ih =>
    rw [List.map_cons, List.cons.injEq, List.forall_mem_cons]
    exact and_congr (hone attr) ih

/-- No value or content of the element needs escaping. -/
def NothingEscaped (e : XmlElement) : Prop :=
  (∀ attr ∈ e.attributes, AttributeSafe attr.value) ∧ ContentSafe e.content ∧
    ∀ child ∈ e.children, ∀ attr ∈ child.attributes, AttributeSafe attr.value

theorem escapedLeaf_eq_iff {e : XmlElement} (h : e.Leaf) :
    escapedLeaf e = e ↔ ∀ attr ∈ e.attributes, AttributeSafe attr.value := by
  obtain ⟨name, attributes, children, content⟩ := e
  obtain ⟨rfl, rfl⟩ : children = [] ∧ content = "" := h
  simp only [escapedLeaf, XmlElement.name, XmlElement.attributes, XmlElement.mk.injEq, true_and,
    and_true, map_escapedAttribute_eq_iff]

theorem escapedFlat_eq_iff {e : XmlElement} (h : Flat e) :
    escapedFlat e = e ↔ NothingEscaped e := by
  obtain ⟨name, attributes, children, content⟩ := e
  have hchildren : children.map escapedLeaf = children ↔
      ∀ child ∈ children, ∀ attr ∈ child.attributes, AttributeSafe attr.value := by
    have hleaf : ∀ child ∈ children, child.Leaf := h
    clear h
    induction children with
    | nil => simp
    | cons child children ih =>
      rw [List.forall_mem_cons] at hleaf
      rw [List.map_cons, List.cons.injEq, List.forall_mem_cons]
      exact and_congr (escapedLeaf_eq_iff hleaf.1) (ih hleaf.2)
  simp only [escapedFlat, XmlElement.name, XmlElement.attributes, XmlElement.children,
    XmlElement.content, XmlElement.mk.injEq, true_and, map_escapedAttribute_eq_iff, hchildren,
    escapeContent_eq_iff, NothingEscaped]
  tauto

/-! ## Counting elements -/

mutual

/-- The number of elements of the tree. -/
def size : XmlElement → Nat
  | .mk _ _ children _ => sizeAll children + 1

def sizeAll : List XmlElement → Nat
  | [] => 0
  | child :: children => size child + sizeAll children

end

/-- The number of tags that open an element: `<` not followed by `/`. -/
def opens : List Char → Nat
  | [] => 0
  | c :: cs => (if c = '<' ∧ cs.head? ≠ some '/' then 1 else 0) + opens cs

theorem opens_append_of_no_lt {s rest : List Char} (h : ∀ c ∈ s, c ≠ '<') :
    opens (s ++ rest) = opens rest := by
  induction s with
  | nil => rfl
  | cons c s ih =>
    rw [List.forall_mem_cons] at h
    simp [opens, h.1, ih h.2]

theorem opens_le_of_suffix {s t : List Char} (h : s <:+ t) : opens s ≤ opens t := by
  obtain ⟨init, rfl⟩ := h
  induction init with
  | nil => simp
  | cons c init ih =>
    simp only [List.cons_append, opens]
    omega

theorem opens_lt (s : List Char) : opens ('<' :: s) ≤ opens s + 1 := by
  simp only [opens]
  split <;> omega

theorem opens_renderChildren {children : List XmlElement}
    (h : ∀ child ∈ children, ∀ rest, opens (render child ++ rest) ≤ size child + opens rest)
    (rest : List Char) :
    opens (renderChildren children ++ rest) ≤ sizeAll children + opens rest := by
  induction children with
  | nil => simp [renderChildren, sizeAll]
  | cons child children ih =>
    rw [List.forall_mem_cons] at h
    have h1 := h.1 (renderChildren children ++ rest)
    have h2 := ih h.2
    rw [renderChildren, sizeAll, List.append_assoc]
    omega

/-- Serializing writes one such tag for each element. -/
theorem opens_render {e : XmlElement} (h : Valid e) (rest : List Char) :
    opens (render e ++ rest) ≤ size e + opens rest := by
  induction e using XmlElement.induction generalizing rest with
  | h name attributes children content ih =>
    have htag : ∀ c ∈ tagBody name attributes, c ≠ '<' := fun c hc =>
      (mem_tagBody h.name h.attributes hc).1
    have hname : ∀ c ∈ name.toList, c ≠ '<' := fun c hc => (h.name.2 c hc).2.2.2.1
    by_cases hleaf : (XmlElement.mk name attributes children content).Leaf
    · have hend : ∀ c ∈ ['/', '>'], c ≠ '<' := by decide
      have hlt := opens_lt (tagBody name attributes ++ (['/', '>'] ++ rest))
      rw [opens_append_of_no_lt htag, opens_append_of_no_lt hend] at hlt
      rw [render_leaf hleaf, size, List.cons_append, List.append_assoc]
      exact Nat.le_trans hlt (by omega)
    · have hend : ∀ c ∈ ['>'], c ≠ '<' := by decide
      have hclose : opens ('<' :: '/' :: (name.toList ++ (['>'] ++ rest))) = opens rest := by
        simp only [opens, List.head?_cons]
        rw [opens_append_of_no_lt hname, opens_append_of_no_lt hend]
        simp
      have hchildren := opens_renderChildren (fun child hchild => ih child hchild
        (h.children child hchild)) ('<' :: '/' :: (name.toList ++ (['>'] ++ rest)))
      have hlt := opens_lt (tagBody name attributes ++ (['>'] ++ ((escapeContent content).toList ++
        (renderChildren children ++ '<' :: '/' :: (name.toList ++ (['>'] ++ rest))))))
      rw [opens_append_of_no_lt htag, opens_append_of_no_lt hend,
        opens_append_of_no_lt fun c hc => (mem_escapeContent hc).1] at hlt
      rw [hclose] at hchildren
      have hrender : render (.mk name attributes children content) ++ rest =
          '<' :: (tagBody name attributes ++ (['>'] ++ ((escapeContent content).toList ++
            (renderChildren children ++ '<' :: '/' :: (name.toList ++ (['>'] ++ rest)))))) := by
        rw [render_body hleaf]
        simp [XmlElement.name, XmlElement.attributes, XmlElement.content, XmlElement.children]
      rw [hrender, size]
      omega

/-- A token that opens an element uses one such tag up. -/
theorem opens_next (input : List Char) :
    opens (next input).2 ≤ opens input ∧
      ((next input).1.type = .tagOpen ∨ (next input).1.type = .selfClose →
        opens (next input).2 + 1 ≤ opens input) := by
  have hinput := opens_le_of_suffix (List.dropWhile_suffix isWhitespace (l := input))
  unfold next
  split
  · simp [opens]
  · next rest heq =>
    -- a closing tag, or the end of the input inside one
    have hrest := opens_le_of_suffix ((List.suffix_cons '/' rest).trans (List.suffix_cons '<' _))
    rw [heq] at hinput
    split
    · exact ⟨by simp only; omega, by simp⟩
    · next after hgt =>
      have hafter := opens_le_of_suffix (suffix_of_dropWhile hgt)
      exact ⟨by simp only; omega, by simp⟩
  · next rest hne heq =>
    rw [heq] at hinput
    have hcount : opens ('<' :: rest) = opens rest + 1 := by
      have : rest.head? ≠ some '/' := by
        intro hhead
        obtain ⟨tail, rfl⟩ : ∃ tail, rest = '/' :: tail := by
          cases rest with
          | nil => simp at hhead
          | cons c tail => exact ⟨tail, by simpa using hhead⟩
        exact hne tail rfl
      simp [opens, this, Nat.add_comm]
    split
    · exact ⟨by simp only; omega, by simp⟩
    · next after hgt =>
      have hafter := opens_le_of_suffix (suffix_of_dropWhile hgt)
      simp only
      split
      · exact ⟨by simp only; omega, fun _ => by simp only; omega⟩
      · exact ⟨by simp only; omega, fun _ => by simp only; omega⟩
  · next hne heq =>
    have htext := opens_le_of_suffix (List.dropWhile_suffix (· ≠ '<')
      (l := input.dropWhile isWhitespace))
    exact ⟨by simp only; omega, by simp⟩

@[simp] theorem size_setContent (e : XmlElement) (content : String) :
    size (e.setContent content) = size e := by
  cases e
  rfl

@[simp] theorem size_pushChild (e child : XmlElement) :
    size (e.pushChild child) = size e + size child := by
  obtain ⟨name, attributes, children, content⟩ := e
  have happend : sizeAll (children ++ [child]) = sizeAll children + size child := by
    induction children with
    | nil => simp [sizeAll]
    | cons head tail ih => simp only [List.cons_append, sizeAll, ih, Nat.add_assoc]
  simp only [XmlElement.pushChild, size, happend]
  omega

/-- An element keeps its size under another tag. -/
theorem size_retag (e : XmlElement) (name : String) (attributes : List XmlAttribute) :
    size (.mk name attributes e.children e.content) = size e := by
  cases e
  rfl

theorem flat_setContent {e : XmlElement} (h : Flat e) (content : String) :
    Flat (e.setContent content) := by
  cases e
  exact h

theorem flat_pushChild {e child : XmlElement} (h : Flat e) (hleaf : child.Leaf) :
    Flat (e.pushChild child) := by
  obtain ⟨name, attributes, children, content⟩ := e
  intro c hc
  rcases List.mem_append.mp hc with hc | hc
  · exact h c hc
  · obtain rfl := List.mem_singleton.mp hc
    exact hleaf

/-- What the counting shows of a parse that began with `before` elements on
`input`: never more elements than opening tags, and fewer where a child with
a body was read. -/
structure Counted (before : XmlElement) (input : List Char) (e : XmlElement)
    (rest : List Char) : Prop where
  le : size e + opens rest ≤ size before + opens input
  lt : Flat before → Flat e ∨ size e + opens rest < size before + opens input

theorem Counted.mono {before before' e : XmlElement} {input input' rest : List Char}
    (h : Counted before' input' e rest)
    (hle : size before' + opens input' ≤ size before + opens input)
    (hflat : Flat before → Flat before' ∨
      size before' + opens input' < size before + opens input) :
    Counted before input e rest where
  le := Nat.le_trans h.le hle
  lt hb := by
    have hle' := h.le
    rcases hflat hb with hb' | hlt
    · rcases h.lt hb' with hflat | hlt
      · exact Or.inl hflat
      · exact Or.inr (by omega)
    · exact Or.inr (by omega)

theorem parse_count (fuel : Nat) :
    (∀ depth input e rest, parseXmlRecursive fuel depth input = some (.ok (e, rest)) →
      size e + opens rest ≤ opens input ∧ (Flat e ∨ size e + opens rest < opens input)) ∧
    (∀ depth element input e rest, parseBody fuel depth element input = some (.ok (e, rest)) →
      Counted element input e rest) := by
  induction fuel with
  | zero => simp [parseXmlRecursive, parseBody]
  | succ fuel ih =>
    obtain ⟨ihElement, ihBody⟩ := ih
    constructor
    · intro depth input e rest h
      obtain ⟨-, hopen⟩ := opens_next input
      have hflat (name : String) (attributes : List XmlAttribute) :
          Flat (.mk name attributes [] "") := by simp [Flat, XmlElement.children]
      rw [parseXmlRecursive] at h
      split at h
      · cases h
      · cases htype : (next input).1.type with
        | tagOpen =>
          simp only [htype] at h
          have hcounted := ihBody _ _ _ _ _ h
          have hone := hopen (Or.inl htype)
          have hle := hcounted.le
          have hlt := hcounted.lt (hflat _ _)
          simp only [size, sizeAll] at hle hlt
          refine ⟨by omega, hlt.imp_right fun hlt => by omega⟩
        | selfClose =>
          simp only [htype] at h
          have hone := hopen (Or.inr htype)
          cases h
          simp only [size, sizeAll]
          exact ⟨by omega, Or.inl (hflat _ _)⟩
        | _ => simp [htype] at h
    · intro depth element input e rest h
      obtain ⟨hnext, hopen⟩ := opens_next input
      rw [parseBody] at h
      cases htype : (next input).1.type with
      | tagOpen =>
        simp only [htype] at h
        have hone := hopen (Or.inl htype)
        rcases hchild : parseXmlRecursive fuel (depth + 1) (next input).2 with
          _ | ⟨_ | ⟨child, after⟩⟩
        · simp [hchild] at h
        · simp [hchild] at h
        · simp only [hchild] at h
          -- the child's own tag opens an element that no parse returns
          have hcount := (ihElement _ _ _ _ hchild).1
          refine (ihBody _ _ _ _ _ h).mono ?_ fun _ => Or.inr ?_
          · rw [size_pushChild, size_retag]
            omega
          · rw [size_pushChild, size_retag]
            omega
      | selfClose =>
        simp only [htype] at h
        have hone := hopen (Or.inr htype)
        refine (ihBody _ _ _ _ _ h).mono ?_ fun hflat => Or.inl (flat_pushChild hflat ⟨rfl, rfl⟩)
        rw [size_pushChild]
        simp only [size, sizeAll]
        omega
      | text =>
        simp only [htype] at h
        split at h
        · exact (ihBody _ _ _ _ _ h).mono (by omega) Or.inl
        · refine (ihBody _ _ _ _ _ h).mono ?_ fun hflat => Or.inl (flat_setContent hflat _)
          rw [size_setContent]
          omega
      | tagClose | eof =>
        simp only [htype, Option.some.injEq, Except.ok.injEq, Prod.mk.injEq] at h
        obtain ⟨rfl, rfl⟩ := h
        exact ⟨by omega, Or.inl⟩

/-- An element with a child that has a body does not come back. -/
theorem parse_render_ne {e : XmlElement} (h : Valid e) (hflat : ¬ Flat e) :
    parse (String.ofList (render e)) ≠ .ok e := by
  intro hparse
  rw [parse] at hparse
  split at hparse
  · cases hparse
  · rw [String.toList_ofList] at hparse
    split at hparse
    · next element rest hrun =>
      obtain rfl : element = e := by simpa using hparse
      obtain ⟨hle, hlt⟩ := (parse_count _).1 _ _ _ _ hrun
      have hopens := opens_render h []
      rw [List.append_nil] at hopens
      rcases hlt with hlt | hlt
      · exact hflat hlt
      · simp only [opens] at hopens
        omega
    · cases hparse
    · cases hparse

/-! ## The round trip -/

theorem serialize_bind_parse (e : XmlElement) :
    (serialize e >>= parse) = parse (String.ofList (render e)) := rfl

/-- Serializing and parsing gives an element back exactly when its children
are leaves and none of its values or contents needs escaping. -/
theorem parse_serialize_iff (e : XmlElement) (h : Valid e) :
    (serialize e >>= parse) = .ok e ↔ Flat e ∧ NothingEscaped e := by
  rw [serialize_bind_parse]
  by_cases hflat : Flat e
  · rw [parse_render_flat h hflat, Except.ok.injEq, escapedFlat_eq_iff hflat, and_iff_right hflat]
  · exact iff_of_false (parse_render_ne h hflat) fun hand => hflat hand.1

instance (name : String) : Decidable (ValidName name) := inferInstanceAs (Decidable (_ ∧ _))

theorem valid_leaf {name : String} {attributes : List XmlAttribute} (hname : ValidName name)
    (hattributes : ∀ attr ∈ attributes, ValidName attr.name) :
    Valid (.mk name attributes [] "") :=
  ⟨hname, hattributes, by simp [Trimmed], by simp⟩

/-- A response with plain values does come back. -/
theorem parse_serialize_response :
    (serialize (.mk "data" [] [.mk "response" [⟨"value", "ACK"⟩] [] ""] "ok") >>= parse)
      = .ok (.mk "data" [] [.mk "response" [⟨"value", "ACK"⟩] [] ""] "ok") := by
  have hresponse : Valid (.mk "response" [⟨"value", "ACK"⟩] [] "") :=
    valid_leaf (by decide) (by
      simp only [List.forall_mem_singleton]
      decide)
  refine (parse_serialize_iff _ (Valid.mk (by decide) (by simp) ?_ ?_)).mpr ⟨?_, ?_, ?_, ?_⟩
  · rintro c (hc | hc) <;> obtain rfl := Option.some.inj hc <;> decide
  · simpa using hresponse
  · simp [Flat, XmlElement.children, XmlElement.Leaf, XmlElement.content]
  · simp [XmlElement.attributes]
  · unfold ContentSafe
    decide
  · simp only [XmlElement.children, List.forall_mem_singleton, XmlElement.attributes]
    unfold AttributeSafe
    decide

/-- The two ways a tree is lost: the grandchild `c` of the first tree, and the
ampersand of the second. -/
theorem parse_serialize_loses :
    let nested : XmlElement := .mk "a" [] [.mk "b" [] [.mk "c" [] [] ""] ""] ""
    let quoted : XmlElement := .mk "a" [⟨"x", "&"⟩] [] ""
    Valid nested ∧ (serialize nested >>= parse) ≠ .ok nested ∧
      Valid quoted ∧ (serialize quoted >>= parse) ≠ .ok quoted := by
  have hc : Valid (.mk "c" [] [] "") := valid_leaf (by decide) (by simp)
  have hb : Valid (.mk "b" [] [.mk "c" [] [] ""] "") :=
    ⟨by decide, by simp, by simp [Trimmed], by simpa using hc⟩
  have hnested : Valid (.mk "a" [] [.mk "b" [] [.mk "c" [] [] ""] ""] "") :=
    ⟨by decide, by simp, by simp [Trimmed], by simpa using hb⟩
  have hquoted : Valid (.mk "a" [⟨"x", "&"⟩] [] "") := valid_leaf (by decide) (by
    simp only [List.forall_mem_singleton]
    decide)
  refine ⟨hnested, ?_, hquoted, ?_⟩
  · rw [serialize_bind_parse]
    refine parse_render_ne hnested fun hflat => ?_
    simp [Flat, XmlElement.children, XmlElement.Leaf] at hflat
  · have hflat : Flat (.mk "a" [⟨"x", "&"⟩] [] "") := by simp [Flat, XmlElement.children]
    rw [serialize_bind_parse, parse_render_flat hquoted hflat, ne_eq, Except.ok.injEq,
      escapedFlat_eq_iff hflat]
    intro hsafe
    simpa [XmlElement.attributes, AttributeSafe] using hsafe.1

end FirehoseXmlEngine

end MBootCore
