import BuildEngine.Document.Basic
import BuildEngine.Kind.Library
import BuildEngine.Number.Literal
import BuildEngine.Text.Utf8
import BuildEngine.Text.Quoted

/-!
The document form of values that a document cannot hold as they are. Such a value is a list of the
name of its type and what it is; integers and reals are written as texts, so that no reader rounds
them.
-/

namespace BuildEngine

namespace Number.Binary64

/-- The real that a text denotes; what denotes none is no number. -/
def ofText (s : String) : Binary64 :=
  match readReal s with
  | .ok x => x
  | .error _ => .nan

end Number.Binary64

namespace Value

def real? : Value → Option Number.Binary64
  | int n => some (.ofInt n)
  | real x => some x
  | _ => none

mutual

/-- The document of a value; `object` gives that of an object. -/
def toDocument (object : ObjectId → Value) : Value → Value
  | nothing => ofTexts ["none"]
  | text s => ofTexts ["str", s]
  | flag b => list [text "bool", flag b]
  | int n => ofTexts ["int", toString n]
  | real x => ofTexts ["float", x.text]
  | path p => ofTexts ["path", p.text]
  | list vs => list [text "list", list (toDocuments object vs)]
  | record _ => ofTexts ["object", "dict"]
  | moment type _ _ => ofTexts ["object", type]
  | member e name _ => ofTexts ["enum", e, name]
  | reference r => ofTexts ["reference", r.id]
  | .object id => object id

def toDocuments (object : ObjectId → Value) : List Value → List Value
  | [] => []
  | v :: rest => toDocument object v :: toDocuments object rest

end

/-- The member of the last of several enumerations that has the name. -/
def memberOf (known : List Enumeration) (enumeration name : String) : Value :=
  (((known.reverse ++ [logLevels, mapperTypes]).find? fun e => e.name == enumeration).bind
    fun e => e.value? name).getD nothing

mutual

/-- The value of a document, where enumerations besides those of the library are known. -/
def ofDocument (known : List Enumeration) : Value → Value
  | list [text "str", text s] => text s
  | list [text "bool", flag b] => flag b
  | list [text "int", text s] => int (s.toInt?.getD 0)
  | list [text "float", text s] => real (.ofText s)
  | list [text "path", text s] => path (.ofString s)
  | list [text "list", list vs] => list (ofDocuments known vs)
  | list [text "enum", text e, text name] => memberOf known e name
  | _ => nothing

def ofDocuments (known : List Enumeration) : List Value → List Value
  | [] => []
  | v :: rest => ofDocument known v :: ofDocuments known rest

end

/-- The bytes that pairs of hexadecimal digits denote. -/
def hexBytes : List Char → List UInt8
  | a :: b :: rest =>
    let digit := fun (c : Char) => if c.isDigit then c.toNat - 48 else c.toLower.toNat - 87
    UInt8.ofNat (digit a * 16 + digit b) :: hexBytes rest
  | _ => []

/-- The bytes of a document: a text, or hexadecimal digits in a field. -/
def bytes : Value → ByteArray
  | text s => s.toUTF8
  | v => ⟨(hexBytes (v.field "hex").textOrEmpty.toList).toArray⟩

/-- Bytes as a document. -/
def ofBytes (data : ByteArray) : Value :=
  match Text.decodeUtf8 data with
  | .ok s => text s
  | .error _ =>
    let digits := data.toList.flatMap fun b => Text.hexDigits 2 b.toNat
    record [("hex", text (String.ofList digits))]

end Value
end BuildEngine
