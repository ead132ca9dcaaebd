import BuildEngine.Document.Basic
import BuildEngine.Element

/-!
The document form of places and elements. Attributes are the fields of a record when they are read,
and pairs when they are written.
-/

namespace BuildEngine

/-- The place that a document gives: a file, a line and a column. -/
def Location.ofDocument (v : Value) : Location where
  file := (v.item 0).text?
  line := (v.item 1).int?
  column := (v.item 2).int?

namespace Element

mutual

def ofDocument : Value → Element
  | .record fs => ofFields { tag := "" } fs
  | _ => { tag := "" }

/-- An element with what further fields say about it. -/
def ofFields (e : Element) : List (String × Value) → Element
  | [] => e
  | ("tag", v) :: rest => ofFields { e with tag := v.textOrEmpty } rest
  | ("attributes", v) :: rest => ofFields { e with attributes := v.textFields } rest
  | ("text", v) :: rest => ofFields { e with text := v.textOrEmpty } rest
  | ("location", v) :: rest => ofFields { e with location := .ofDocument v } rest
  | ("children", .list vs) :: rest => ofFields { e with children := ofDocuments vs } rest
  | _ :: rest => ofFields e rest

def ofDocuments : List Value → List Element
  | [] => []
  | v :: rest => ofDocument v :: ofDocuments rest

end

def attributePairs (e : Element) : Value := .ofTextPairs e.attributes

mutual

def toDocument : Element → Value
  | ⟨tag, attributes, children, text, location⟩ => .record [
      ("tag", .text tag), ("attributes", .ofTextPairs attributes),
      ("children", .list (toDocuments children)), ("text", .text text),
      ("location", .text location.text)]

def toDocuments : List Element → List Value
  | [] => []
  | e :: rest => toDocument e :: toDocuments rest

end

end Element
end BuildEngine
