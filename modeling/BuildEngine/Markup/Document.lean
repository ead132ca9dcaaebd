import BuildEngine.Markup.Node
import BuildEngine.Markup.Prolog
import BuildEngine.Markup.Tag
import BuildEngine.Problem
import BuildEngine.Text.Utf8

/-!
Documents: reading markup into nodes, which are hung into a tree and made into elements. An element
keeps its attributes with the identifiers of their namespaces; what an entity stands for is read in
its place.
-/

namespace BuildEngine.Markup

open BuildEngine.Text

def elementDepth : Nat := 257

/-- The name of an attribute with the identifier of its namespace. -/
def attributeName (ns : Namespaces) (name : QualifiedName) : String :=
  if name.namespacePrefix.isEmpty then String.ofList name.localName
  else
    let identifier := (ns.find? name.namespacePrefix).getD []
    String.ofList ('{' :: identifier ++ '}' :: name.localName)

/-- An element with its content, which is given backwards. -/
def Tag.node (t : Tag) (content : List Node) : Node :=
  .element (String.ofList t.name.localName)
    (t.attributes.map fun entry => (attributeName t.namespaces entry.1, String.ofList entry.2))
    t.line content.reverse

namespace Reader

/-- Takes text up to the next mark, with line ends read as line feeds; `taken` holds the text in
front, backwards. -/
def readText : Nat → List Char → Reader (List Char)
  | 0, _ => fail
  | steps + 1, taken => do
    match ← rest with
    | [] | '<' :: _ | '&' :: _ => return taken
    | ']' :: ']' :: '>' :: _ => fail
    | '\r' :: '\n' :: after => do
      moveTo after
      readText steps ('\n' :: taken)
    | c :: after => do
      if !isLegal c then fail
      moveTo after
      readText steps ((if c == '\r' then '\n' else c) :: taken)

/-- Takes a section of plain text up to its end; `begun` holds the section so far, backwards. A message
about a section that is not finished shows how it begins. -/
def readSection (begun : List Char) : Nat → Reader (List Char)
  | 0 => fail
  | steps + 1 => do
    match ← rest with
    | ']' :: ']' :: '>' :: after => do
      moveTo after
      return begun
    | '\r' :: '\n' :: after => do
      moveTo after
      readSection ('\n' :: begun) steps
    | c :: after => do
      if isLegal c then
        moveTo after
        readSection ((if c == '\r' then '\n' else c) :: begun) steps
      else failUnfinished
    | [] => failUnfinished
where
  /-- Reports that the section is not finished. -/
  failUnfinished : Reader (List Char) :=
    if begun.length < 2 then fail
    else failShowing ('\n' :: fitting shownSize (begun.drop 2).reverse)

/-- How elements are read: their entities, and the content of an entity's text, backwards. -/
structure Context where
  entities : Entities
  contentOf : Nat → Namespaces → List Char → Except Flaw (List Node)

/-- A text that is given backwards. -/
def textNode (taken : List Char) : Node := .text (String.ofList taken.reverse)

mutual

/-- Takes an element behind its opening bracket. -/
def readElement (x : Context) :
    (steps level : Nat) → Namespaces → Reader Node
  | 0, _, _ => fail
  | _ + 1, 0, _ => fail
  | steps + 1, level + 1, outer => do
    let tag ← readTag x.entities outer
    if tag.isEmpty then return tag.node []
    let content ← readContent x steps level tag.namespaces []
    expect "</"
    readEndTag tag.written
    return tag.node content

/-- Takes what stands in an element up to its end tag or the end of the document; `found` holds what
stands in front, backwards. -/
def readContent (x : Context) :
    (steps level : Nat) → Namespaces → List Node → Reader (List Node)
  | 0, _, _, _ => fail
  | steps + 1, level, ns, found => do
    match ← rest with
    | [] | '<' :: '/' :: _ => return found
    | _ =>
      if ← accept "<?" then
        readInstruction
        readContent x steps level ns (.aside :: found)
      else if ← accept "<![CDATA[" then
        let taken ← readSection [] ((← rest).length + 1)
        readContent x steps level ns (textNode taken :: found)
      else if ← accept "<!--" then
        readComment
        readContent x steps level ns (.aside :: found)
      else if ← accept "<" then
        let child ← readElement x steps level ns
        readContent x steps level ns (child :: found)
      else if ← accept "&" then
        match ← readReferent with
        | .char c => readContent x steps level ns (textNode [c] :: found)
        | .entity name =>
          match x.entities.find? name with
          | some text => do
            match x.contentOf level ns text with
            | .ok inner => readContent x steps level ns (inner ++ found)
            | .error flaw => throw flaw
          | none =>
            if x.entities.isOpen then readContent x steps level ns (.aside :: found) else fail
      else
        let taken ← readText ((← rest).length + 1) []
        readContent x steps level ns (textNode taken :: found)

end

/-- Takes content up to the end of the text at hand. -/
def readWhole (x : Context) (level : Nat) (ns : Namespaces) : Reader (List Node) := do
  let content ← readContent x (2 * (← rest).length + 2) level ns []
  if (← peek).isSome then fail
  return content

/-- The content of an entity's text, where references are nested down to a depth. -/
def entityContent (es : Entities) :
    (depth level : Nat) → Namespaces → List Char → Except Flaw (List Node)
  | 0, _, _, _ => .error { line := 1 }
  | depth + 1, level, ns, text =>
    within text (readWhole ⟨es, entityContent es depth⟩ level ns)

/-- Takes a whole document; the result is the element in which all others stand. -/
def readDocument : Reader Node := do
  let _ ← readDeclaration?
  let steps := (← rest).length + 1
  skipMiscellany steps
  let entities ← if ← accept "<!DOCTYPE" then readDocumentType else pure {}
  skipMiscellany steps
  expect "<"
  let x : Context := ⟨entities, entityContent entities Entities.depth⟩
  let root ← readElement x (2 * (← rest).length + 2) elementDepth []
  skipMiscellany steps
  if (← peek).isSome then fail
  return root

end Reader

/-- How the characters of a document are written as bytes. -/
inductive Encoding where
  | utf8
  /-- Each byte is the code of a character. -/
  | latin1
  | ascii
  deriving Repr, DecidableEq

namespace Encoding

/-- The encoding of a name, in any case. -/
def ofName? (name : String) : Option Encoding :=
  let name := name.map Char.toUpper
  if ["UTF-8", "UTF8"].contains name then some utf8
  else if ["ASCII", "US-ASCII"].contains name then some ascii
  else if ["ISO-8859-1", "ISO-LATIN-1", "ISO8859-1", "ISO88591", "LATIN1", "L1", "CP819",
    "IBM819"].contains name then some latin1
  else none

/-- The characters of bytes. What is no character counts as one that no document may hold. -/
def decode (e : Encoding) (data : ByteArray) : List Char :=
  let bytes := data.toList.map UInt8.toNat
  match e with
  | latin1 => bytes.map Char.ofNat
  | ascii => bytes.map fun b => if b < 0x80 then Char.ofNat b else '\x00'
  | utf8 =>
    match decodeUtf8 data with
    | .ok s => s.toList
    | .error _ => bytes.map fun b => if b < 0x80 then Char.ofNat b else '\x00'

end Encoding

/-- Reads a document, which may name the encoding of its bytes; it is UTF-8 unless said otherwise,
and then may start with a mark of the order of bytes. -/
def readNode (data : ByteArray) : Except Flaw Node := do
  let plain := match Encoding.utf8.decode data with
    | '\ufeff' :: rest => rest
    | cs => cs
  let text ←
    match ← within plain Reader.readDeclaration? with
    | none => pure plain
    | some name =>
      match Encoding.ofName? name with
      | some .utf8 => pure plain
      | some encoding => pure (encoding.decode data)
      | none => throw { line := 1 }
  within text Reader.readDocument

/-- Reads a document into the element in which all others stand. The name of the file is only used
for places. -/
def readElement (file : Option String) (data : ByteArray) : Except Flaw Element := do
  match ((← readNode data).branch? "").bind (·.element? file) with
  | some e => return e
  | none => throw { line := 1 }

end BuildEngine.Markup
