import BuildEngine.Markup.Reference

/-!
Tags of elements, and the namespaces that they declare. A prefix stands for the identifier that
the nearest enclosing element binds it to; attributes are told apart by that identifier.
-/

namespace BuildEngine.Markup

/-- A name with its prefix, if it has one. -/
structure QualifiedName where
  namespacePrefix : List Char := []
  localName : List Char
  deriving Repr, DecidableEq, Inhabited

namespace QualifiedName

/-- Reads a name, in which at most one colon stands between two parts. -/
def ofName? (name : List Char) : Option QualifiedName :=
  match name.takeWhile (· != ':'), name.dropWhile (· != ':') with
  | first, [] => some { localName := first }
  | first, _ :: rest =>
    if first.isEmpty || rest.contains ':' || !(rest.head?.any isNameStart) then none
    else some { namespacePrefix := first, localName := rest }

end QualifiedName

/-- The namespaces in force, nearest first: prefixes with the identifiers that they stand for. -/
abbrev Namespaces := List (List Char × List Char)

namespace Namespaces

/-- The prefix that every document knows. -/
def ownPrefix : List Char := "xml".toList

/-- What the prefix stands for that every document knows. -/
def ownIdentifier : List Char := "http://www.w3.org/XML/1998/namespace".toList

def declaringPrefix : List Char := "xmlns".toList

/-- What the prefix stands for with which namespaces are declared. -/
def declaringIdentifier : List Char := "http://www.w3.org/2000/xmlns/".toList

/-- The identifier that a prefix stands for. -/
def find? (ns : Namespaces) (namespacePrefix : List Char) : Option (List Char) :=
  if namespacePrefix == ownPrefix then some ownIdentifier
  else (List.find? (fun entry => entry.1 == namespacePrefix) ns).map Prod.snd

/-- Whether the namespace without a prefix may be given an identifier. -/
def admitsDefault (identifier : List Char) : Bool :=
  isUri identifier && identifier != ownIdentifier && identifier != declaringIdentifier

def admits (namespacePrefix identifier : List Char) : Bool :=
  if namespacePrefix == ownPrefix then identifier == ownIdentifier
  else
    namespacePrefix != declaringPrefix && !identifier.isEmpty && admitsDefault identifier

end Namespaces

/-- A start tag: its name as it is written, its attributes, the namespaces in force inside of the
element, and the line on which the tag ends. -/
structure Tag where
  written : List Char
  name : QualifiedName
  attributes : List (QualifiedName × List Char)
  namespaces : Namespaces
  line : Nat
  /-- Whether the element has no content and no end tag. -/
  isEmpty : Bool

/-- What is read of a start tag: its attributes, and the namespaces that it declares. -/
structure TagParts where
  attributes : List (QualifiedName × List Char) := []
  declared : Namespaces := []

namespace Reader

/-- Takes a name and tells its parts. -/
def readQualified : Reader (List Char × QualifiedName) := do
  let written ← readName
  match QualifiedName.ofName? written with
  | some name => return (written, name)
  | none => fail

/-- Adds an attribute to what is read of a tag. Some attributes declare namespaces. -/
def addAttribute (name : QualifiedName) (value : List Char) (parts : TagParts) :
    Reader TagParts := do
  let declares := fun (namespacePrefix : List Char) (admitted : Bool) =>
    if !admitted || parts.declared.any fun entry => entry.1 == namespacePrefix then fail
    else
      return { parts with declared := (namespacePrefix, value) :: parts.declared : TagParts }
  if name.namespacePrefix.isEmpty && name.localName == Namespaces.declaringPrefix then
    declares [] (Namespaces.admitsDefault value)
  else if name.namespacePrefix == Namespaces.declaringPrefix then
    declares name.localName (Namespaces.admits name.localName value)
  else return { parts with attributes := parts.attributes ++ [(name, value)] }

/-- Whether a start tag ends here. -/
def isTagEnd (rest : List Char) : Bool :=
  match rest with
  | [] | '>' :: _ | '/' :: '>' :: _ => true
  | _ => false

/-- Takes attributes up to the end of a start tag. Spaces stand between them. -/
def readAttributes (es : Entities) : Nat → TagParts → Reader TagParts
  | 0, _ => fail
  | steps + 1, parts => do
    if isTagEnd (← rest) then return parts
    let (_, name) ← readQualified
    let _ ← skipSpace
    expect "="
    let _ ← skipSpace
    let more ← addAttribute name (← readValue es) parts
    if isTagEnd (← rest) then return more
    expectSpace
    readAttributes es steps more

/-- Checks that prefixes are bound and that no attribute is given twice. -/
def checkAttributes (ns : Namespaces) : List (QualifiedName × List Char) → Reader Unit
  | [] => return ()
  | (name, _) :: others => do
    let identify := fun (n : QualifiedName) =>
      if n.namespacePrefix.isEmpty then some [] else ns.find? n.namespacePrefix
    if (identify name).isNone then fail
    if others.any fun other =>
      other.1.localName == name.localName && identify other.1 == identify name then fail
    checkAttributes ns others

/-- Takes a start tag behind its opening bracket. -/
def readTag (es : Entities) (outer : Namespaces) : Reader Tag := do
  let (written, name) ← readQualified
  let _ ← skipSpace
  let parts ← readAttributes es ((← rest).length + 1) {}
  let namespaces := parts.declared ++ outer
  checkAttributes namespaces parts.attributes
  if !name.namespacePrefix.isEmpty && (namespaces.find? name.namespacePrefix).isNone then fail
  let line ← line
  let isEmpty ← accept "/>"
  if !isEmpty then expect ">"
  return { written, name, attributes := parts.attributes, namespaces, line, isEmpty }

/-- Takes an end tag behind its slash, which has to be that of an element. -/
def readEndTag (written : List Char) : Reader Unit := do
  let name ← takeWhile isNameChar
  let _ ← skipSpace
  if name != written then fail
  expect ">"

end Reader
end BuildEngine.Markup
