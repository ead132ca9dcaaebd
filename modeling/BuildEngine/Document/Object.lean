import BuildEngine.Document.Value
import BuildEngine.DataType
import BuildEngine.Object.Field

/-!
The document form of objects: what an object is, the values of its attributes, and the children and
texts that it took. Children belong to the objects that took them, so a document nests no deeper
than there are objects.
-/

namespace BuildEngine.World

variable {φ : Type} [FileSystem φ]

/-- The document of an object that is a value: its places, if it is a list of places, or else its
type. -/
def objectValue (w : World φ) (id : ObjectId) : Value :=
  let byType := Value.ofTexts ["object", w.typeName id]
  if w.isA id Standard.pathList then
    match w.locations id with
    | .ok paths => .list [.text "pathlist", .ofTexts (paths.map Path.text)]
    | .error _ => byType
  else byType

def valueDocument (w : World φ) (v : Value) : Value := v.toDocument w.objectValue

/-- The document of the value of an attribute, or nothing if it has none. -/
def fieldDocument (w : World φ) (id : ObjectId) (name : String) : Value :=
  match w.read id name with
  | .ok v => w.valueDocument v
  | .error _ => .nothing

/-- What a document tells about an attribute: the supplier of its value, whether it is set, whether it
is empty and is meant to be, and the suppliers from which it gets the value. -/
def sourceDocument (w : World φ) (id : ObjectId) (name : String) : Value :=
  let s := w.fieldSupplier id name
  let isEmpty := match s.isEmpty w.slotValue with
    | .ok b => b
    | .error _ => false
  .list [.text (s.text w.shown), .flag (w.isSet id name), .flag isEmpty, .flag s.isVoid,
    .ofTexts (s.parents.map (·.text w.shown))]

/-- What a document tells about an attribute of a kind, which has no object from which to get a
value. -/
def attributeDocument (k : Kind) (name : String) : Value :=
  let s : FieldSupplier := .field 0 k.name name (.void 0 none [])
  let a := (k.attributes.find? name).getD default
  .list [.text (s.text fun _ => ""), .flag false, .text "<empty>", .ofText? a.help]

/-- The document of the places in a list of places. -/
def locationsDocument (w : World φ) (id : ObjectId) : Except Fault Value :=
  (w.locations id).map fun paths => .ofTexts (paths.map Path.text)

/-- The document of a list of files: the directory and the names in it. -/
def filesDocument (w : World φ) (id : ObjectId) : Except Fault Value := do
  let directory ← w.listDirectory id
  return .list [.text directory.text, .ofTexts (← w.listFiles id)]

/-- The document of the names to which a declared mapper maps a name. -/
def mappedDocument (w : World φ) (name : String) (id : ObjectId) : Except Fault Value :=
  (w.mapper id).map fun m => .ofTexts (m.map name)

/-- The document of an object, with children nested up to a depth. -/
def nestedDocument (w : World φ) : Nat → ObjectId → Value
  | 0, _ => .nothing
  | depth + 1, id =>
    let k := w.kindOf id
    let o := w.object id
    let attributes := k.attributes.keys.map fun name =>
      Value.list [.text name, w.fieldDocument id name]
    let children := o.children.map fun entry =>
      Value.list [.text entry.1, w.nestedDocument depth entry.2]
    .record (
      [("class", .text (w.typeName id)), ("describe", .text (w.describe id))] ++
      (if k.isContainer then [("attrs", .list attributes)] else []) ++
      (if k.isComponent then
        [("repr", .text (w.shown id)), ("target", .ofText? o.target)] else []) ++
      (if k.isDataType then [("refid", .ofText? (o.reference.map (·.id)))] else []) ++
      (if children.isEmpty then [] else [("children", .list children)]) ++
      (if o.texts.isEmpty then [] else [("text", .text (String.join o.texts))]))

def objectDocument (w : World φ) (id : ObjectId) : Value :=
  w.nestedDocument (w.objects.length + 1) id

/-- The document of the named objects of a project. -/
def referencesDocument (w : World φ) (project : ProjectId) : Value :=
  .list ((w.project project).references.objects.entries.map fun (name, id) =>
    .list [.text name, w.objectDocument id])

end BuildEngine.World
