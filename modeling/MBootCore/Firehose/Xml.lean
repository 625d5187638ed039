import MBootCore.Domain.Error

/-!
# Firehose — Xml

`FirehoseXmlEngine`: the tokenizer, the tag-content scanner, the recursive
parser and the serializer. A `std::string` is a list of characters, one for
each byte, wherever it is scanned.

The tokenizer's position is the suffix of the input still to be read. The
parser recurses on fuel; `parse` hands it more than the input is long, which
every token shortens (`parse_total`).
-/

namespace MBootCore

structure XmlAttribute where
  name : String
  value : String
  deriving DecidableEq, Repr

inductive XmlElement where
  | mk (name : String) (attributes : List XmlAttribute) (children : List XmlElement)
      (content : String)

namespace XmlElement

def name : XmlElement → String
  | mk name _ _ _ => name

def attributes : XmlElement → List XmlAttribute
  | mk _ attributes _ _ => attributes

def children : XmlElement → List XmlElement
  | mk _ _ children _ => children

def content : XmlElement → String
  | mk _ _ _ content => content

def setContent : XmlElement → String → XmlElement
  | mk name attributes children _, content => mk name attributes children content

/-- `element.children.push_back(child)`. -/
def pushChild : XmlElement → XmlElement → XmlElement
  | mk name attributes children content, child =>
    mk name attributes (children ++ [child]) content

end XmlElement

namespace FirehoseXmlEngine

def isWhitespace (c : Char) : Bool :=
  c = ' ' || c = '\t' || c = '\n' || c = '\r'

def trim (s : List Char) : List Char :=
  ((s.dropWhile isWhitespace).reverse.dropWhile isWhitespace).reverse

/-! ## XmlTokenizer -/

inductive TokenType where
  | tagOpen | tagClose | selfClose | text | eof
  deriving DecidableEq, Repr

structure Token where
  type : TokenType
  value : List Char
  deriving DecidableEq, Repr

def kMaxXmlDepth : Nat := 64

/-- The next token and the input after it. A tag without its `>` is read as
the end of the input, with the position left just inside the tag. -/
def next (input : List Char) : Token × List Char :=
  match input.dropWhile isWhitespace with
  | [] => (⟨.eof, []⟩, [])
  | '<' :: '/' :: rest =>
    match rest.dropWhile (· ≠ '>') with
    | [] => (⟨.eof, []⟩, rest)
    | _ :: after => (⟨.tagClose, rest.takeWhile (· ≠ '>')⟩, after)
  | '<' :: rest =>
    match rest.dropWhile (· ≠ '>') with
    | [] => (⟨.eof, []⟩, rest)
    | _ :: after =>
      let content := rest.takeWhile (· ≠ '>')
      if content.getLast? = some '/' then (⟨.selfClose, content.dropLast⟩, after)
      else (⟨.tagOpen, content⟩, after)
  | text => (⟨.text, text.takeWhile (· ≠ '<')⟩, text.dropWhile (· ≠ '<'))

/-! ## Tag content -/

structure ParsedTag where
  name : String
  attrs : List XmlAttribute
  deriving DecidableEq, Repr

/-- The attribute loop. A name without a quoted value is skipped; every round
reads at least one character, so the length is fuel enough. -/
def parseAttributes : Nat → List Char → List XmlAttribute
  | 0, _ => []
  | fuel + 1, content =>
    match content.dropWhile isWhitespace with
    | [] => []
    | start =>
      let attrName := start.takeWhile fun c => c ≠ '=' && !isWhitespace c
      let afterName := start.dropWhile fun c => c ≠ '=' && !isWhitespace c
      let afterEq := if afterName.head? = some '=' then afterName.tail else afterName
      match afterEq.dropWhile isWhitespace with
      | '"' :: rest =>
        ⟨String.ofList attrName, String.ofList (rest.takeWhile (· ≠ '"'))⟩ ::
          parseAttributes fuel (rest.dropWhile (· ≠ '"')).tail
      | rest => parseAttributes fuel rest

def parseTagContent (content : List Char) : ParsedTag :=
  ⟨String.ofList (content.takeWhile fun c => !isWhitespace c),
    parseAttributes content.length (content.dropWhile fun c => !isWhitespace c)⟩

/-! ## parseXmlRecursive -/

mutual

/-- An element and the input after it; `none` when the fuel is used up. -/
def parseXmlRecursive : Nat → Nat → List Char →
    Option (Except ErrorCode (XmlElement × List Char))
  | 0, _, _ => none
  | fuel + 1, depth, input =>
    if depth ≥ kMaxXmlDepth then some (.error .invalidPacket)
    else
      let (token, rest) := next input
      let tag := parseTagContent token.value
      let element := XmlElement.mk tag.name tag.attrs [] ""
      match token.type with
      | .tagOpen => parseBody fuel depth element rest
      | .selfClose => some (.ok (element, rest))
      | _ => some (.error .invalidPacket)

/-- The loop over children and text. The tag that opens a child has been read
by the time its element is parsed, so the recursive call starts at the token
after it and only the children and content of what it returns are kept. -/
def parseBody : Nat → Nat → XmlElement → List Char →
    Option (Except ErrorCode (XmlElement × List Char))
  | 0, _, _, _ => none
  | fuel + 1, depth, element, input =>
    let (token, rest) := next input
    match token.type with
    | .eof | .tagClose => some (.ok (element, rest))
    | .text =>
      let trimmed := trim token.value
      if trimmed = [] then parseBody fuel depth element rest
      else parseBody fuel depth (element.setContent (String.ofList trimmed)) rest
    | .selfClose =>
      let childTag := parseTagContent token.value
      parseBody fuel depth (element.pushChild (.mk childTag.name childTag.attrs [] "")) rest
    | .tagOpen =>
      let childTag := parseTagContent token.value
      match parseXmlRecursive fuel (depth + 1) rest with
      | none => none
      | some (.error e) => some (.error e)
      | some (.ok (childElement, after)) =>
        parseBody fuel depth (element.pushChild (.mk childTag.name childTag.attrs
          childElement.children childElement.content)) after

end

def parse (xml : String) : Except ErrorCode XmlElement :=
  if xml = "" then .error .invalidPacket
  else
    match parseXmlRecursive (xml.toList.length + 1) 0 xml.toList with
    | some (.ok (element, _)) => .ok element
    | some (.error e) => .error e
    | none => .error .unknown

/-! ## Serializer -/

def escapeAttributeChar (c : Char) : List Char :=
  if c = '&' then "&amp;".toList
  else if c = '"' then "&quot;".toList
  else if c = '<' then "&lt;".toList
  else if c = '>' then "&gt;".toList
  else if c = '\'' then "&apos;".toList
  else [c]

def escapeAttribute (value : String) : String :=
  String.ofList (value.toList.flatMap escapeAttributeChar)

def escapeContentChar (c : Char) : List Char :=
  if c = '&' then "&amp;".toList
  else if c = '<' then "&lt;".toList
  else if c = '>' then "&gt;".toList
  else [c]

def escapeContent (content : String) : String :=
  String.ofList (content.toList.flatMap escapeContentChar)

def renderAttribute (attr : XmlAttribute) : List Char :=
  ' ' :: attr.name.toList ++ "=\"".toList ++ (escapeAttribute attr.value).toList ++ ['"']

mutual

/-- The text `serialize` streams out. -/
def render : XmlElement → List Char
  | .mk name attributes children content =>
    let head := '<' :: name.toList ++ attributes.flatMap renderAttribute
    if children = [] ∧ content = "" then head ++ "/>".toList
    else head ++ '>' :: (escapeContent content).toList ++ renderChildren children
      ++ "</".toList ++ name.toList ++ ['>']

def renderChildren : List XmlElement → List Char
  | [] => []
  | child :: children => render child ++ renderChildren children

end

/-- Serializing has no error path. -/
def serialize (element : XmlElement) : Except ErrorCode String :=
  .ok (String.ofList (render element))

end FirehoseXmlEngine

end MBootCore
