import BuildEngine.Engine

/-!
Attributes of objects: which values they take, and the ways to set them.
-/

namespace BuildEngine

variable {φ : Type}

namespace ValueType

/-- A value as a type takes it, if it does. A truth value is an integer too; a text is taken as a
path by a type of paths. -/
def accept? (w : World φ) : ValueType → Value → Option Value
  | anything, v => some v
  | text, .text s => some (.text s)
  | flag, .flag b => some (.flag b)
  | int, .int n => some (.int n)
  | int, .flag b => some (.flag b)
  | real, .real x => some (.real x)
  | path, .path p => some (.path p)
  | path, .text s => some (.path (.ofString s))
  | nothing, .nothing => some .nothing
  | list, .list items => some (.list items)
  | reference, .reference r => some (.reference r)
  | enumeration e, .member f n v => if e.name = f then some (.member f n v) else none
  | kind id, .object o => if w.isA o id then some (.object o) else none
  | _, _ => none

end ValueType

namespace Attribute

/-- A value as the first accepted type takes it. -/
def accept (a : Attribute) (w : World φ) (owner : String) (v : Value) : Except Fault Value :=
  match a.accepted.findSome? fun type => type.accept? w v with
  | some taken => .ok taken
  | none =>
    .error (.rejected {
      owner, field := a.name
      expected := a.accepted.map (ValueType.name w.kinds.nameOf)
      actual := v.typeName w.typeName })

def accepts (a : Attribute) (type : ValueType) : Bool := a.accepted.any type.same

end Attribute

namespace Engine

/-- Lets an attribute have its value from a source. -/
def setSource (id : ObjectId) (name : String) (source : Source) : Engine φ Unit :=
  changeObject id fun o => { o with fields := o.fields.put name source }

def attributeOf (id : ObjectId) (name : String) : Engine φ Attribute :=
  observe fun w => ((w.kindOf id).attributes.find? name).getD default

/-- Sets an attribute to a value that it accepts. -/
def setField (id : ObjectId) (name : String) (v : Value) : Engine φ Unit := do
  let a ← attributeOf id name
  let taken ← consult fun w => a.accept w (w.kindOf id).name v
  setSource id name (.value taken)

/-- Takes the value of an attribute away. -/
def clearField (id : ObjectId) (name : String) : Engine φ Unit := setSource id name .void

/-- Assigns to an attribute: where the absence of a value is no value, it clears the attribute. -/
def assignField (id : ObjectId) (name : String) (v : Value) : Engine φ Unit := do
  let a ← attributeOf id name
  match v with
  | .nothing => if a.accepts .nothing then setField id name v else clearField id name
  | _ => setField id name v

/-- Sets an attribute that holds nothing. -/
def setFieldOnce (id : ObjectId) (name : String) (v : Value) : Engine φ Unit := do
  if !(← observe (·.isSet id name)) then setField id name v

/-- The value of an attribute. -/
def readField (id : ObjectId) (name : String) : Engine φ Value := consult (·.read id name)

def initialFields (k : Kind) : List (String × Attribute) → Table String Source →
    Engine φ (Table String Source)
  | [], fields => return fields
  | (name, a) :: rest, fields => do
    match a.initial with
    | none => initialFields k rest (fields.put name .void)
    | some v =>
      let taken ← consult fun w => a.accept w k.name v
      initialFields k rest (fields.put name (.value taken))

def instantiate (k : Kind) (project : ProjectId) : Engine φ ObjectId := do
  let w ← get
  if (w.kinds.construction? k).isNone then throw (Problem.inconstructible k.name).fault
  let missing := w.kinds.openMembers k
  if !missing.isEmpty then throw (.abstractKind k.name missing)
  let fields ← initialFields k k.attributes.entries .empty
  addObject { kind := k.id, project, fields }

end Engine
end BuildEngine
