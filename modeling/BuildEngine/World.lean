import BuildEngine.Project
import BuildEngine.Registry
import BuildEngine.Run.Report

/-!
The world of a build: the kinds that it knows, what is registered, the files, and all projects and
objects. Projects and objects are named by their numbers; several projects may hold the same
object.
-/

namespace BuildEngine

/-- Where an attribute has its value from. -/
inductive Source where
  | void
  | value (v : Value)
  | slot (project : ProjectId) (name : String)
  | field (object : ObjectId) (name : String)
  deriving Repr, Inhabited

/-- An object of a build. -/
structure Object where
  kind : KindId
  project : ProjectId
  fields : Table String Source := .empty
  /-- The name of the element that the object was made from. -/
  elementName : Option String := none
  location : Location := .unknown
  /-- The target in which the object was declared. -/
  target : Option String := none
  /-- What the object is a reference to. -/
  reference : Option Reference := none
  /-- The objects that standard methods took as parts of this one. -/
  parts : List ObjectId := []
  /-- The objects that declared methods took, with the methods. -/
  children : List (String × ObjectId) := []
  /-- The texts that declared handlers took. -/
  texts : List String := []

instance : Inhabited Object := ⟨{ kind := default, project := 0 }⟩

/-- A log message: its level, who logs it, and what is said. -/
structure LogRecord where
  level : LogLevel
  logger : String
  message : String
  deriving Repr, DecidableEq, Inhabited

/-- Who is told about runs. -/
inductive Observer where
  | silent
  /-- Everything is recorded. -/
  | recorder
  | reporter (report : Report)

instance : Inhabited Observer := ⟨.silent⟩

/-- The world of a build, over the states of a file system. -/
structure World (φ : Type) where
  files : φ
  kinds : Kinds := .standard
  registry : Registry := {}
  /-- Whether untyped attributes take texts that look like truth values as such. -/
  implicitBooleans : Bool := false
  /-- Whether targets go on that do not depend on a failed one. -/
  keepGoing : Bool := false
  observer : Observer := .silent
  /-- The directory in which the build is run. -/
  here : Path := .top
  projects : List Project := []
  objects : List Object := []
  logged : Array LogRecord := #[]
  events : Array Event := #[]
  printed : String := ""

namespace World

variable {φ : Type}

def project (w : World φ) (id : ProjectId) : Project := w.projects[id]?.getD default

def object (w : World φ) (id : ObjectId) : Object := w.objects[id]?.getD default

def kindOf (w : World φ) (id : ObjectId) : Kind := w.kinds.get (w.object id).kind

def isA (w : World φ) (id : ObjectId) (kind : KindId) : Bool := (w.kindOf id).isA kind

def typeName (w : World φ) (id : ObjectId) : String := (w.kindOf id).objectName

/-- A short name of an object for messages: its element, if it belongs to a project and was made
from one, or its type. -/
def describe (w : World φ) (id : ObjectId) : String :=
  match (w.object id).elementName with
  | some name =>
    if (w.kindOf id).isComponent && !name.isEmpty then s!"<{name}>" else w.typeName id
  | none => w.typeName id

/-- The name of an object among those of its project: the element or the type. -/
def nameOf (w : World φ) (id : ObjectId) : String :=
  match (w.object id).elementName with
  | some name => if name.isEmpty then w.typeName id else name
  | none => w.typeName id

def shown (w : World φ) (id : ObjectId) : String :=
  if (w.kindOf id).isComponent then s!"<{w.nameOf id}> at {(w.object id).location.text}"
  else s!"<{w.typeName id} object>"

/-- Who logs for a task: its element, or its type in lower case. -/
def loggerOf (w : World φ) (id : ObjectId) : String :=
  match (w.object id).elementName with
  | some name => if name.isEmpty then Text.lower (w.typeName id) else name
  | none => Text.lower (w.typeName id)

/-- The reference target of an object, if it is a reference. -/
def aliasOf (w : World φ) (id : ObjectId) : Option String :=
  if (w.kindOf id).isA Standard.referable then (w.object id).reference.map (·.id) else none

/-- The number of attributes of all objects. -/
def fieldCount (w : World φ) : Nat := (w.objects.flatMap fun o => o.fields.keys).length

/-- The suppliers of a world read slots of projects. -/
abbrev FieldSupplier := Supplier (ProjectId × String) Fault

/-- The supplier that a source stands for, where attributes are followed over a number of steps. -/
def supplierOf (w : World φ) : Nat → Source → FieldSupplier
  | _, .void => .void 0 none []
  | _, .value v => .fixed v []
  | _, .slot project name => .slot (project, name) name
  | 0, .field _ _ => .void 0 none []
  | steps + 1, .field id name =>
    .field id (w.kindOf id).name name
      (supplierOf w steps (((w.object id).fields.find? name).getD .void))

/-- An attribute as a supplier. -/
def fieldSupplier (w : World φ) (id : ObjectId) (name : String) : FieldSupplier :=
  w.supplierOf (w.fieldCount + 1) (.field id name)

/-- The attribute at the end of a chain of attributes that each follow the next, where the chain is
followed over a number of steps. -/
def followed (w : World φ) : Nat → ObjectId → String → ObjectId × String
  | 0, id, name => (id, name)
  | steps + 1, id, name =>
    match (w.object id).fields.find? name with
    | some (.field other field) => followed w steps other field
    | _ => (id, name)

/-- The attribute that an attribute has its value from, or itself. -/
def fieldSource (w : World φ) (id : ObjectId) (name : String) : ObjectId × String :=
  w.followed (w.fieldCount + 1) id name

def slotValue (w : World φ) (cell : ProjectId × String) : Value :=
  (w.project cell.1).references.slot cell.2

/-- The fault of an empty reading. -/
def lackFault (w : World φ) : Lack (ProjectId × String) Fault → Fault
  | .failed fault => fault
  | .empty supplier message _ =>
    let text := Lack.emptyText w.shown supplier message
    match supplier with
    | .field id _ name _ => .empty (some id) name text
    | _ => .empty none "" text

/-- The value of an attribute. -/
def read (w : World φ) (id : ObjectId) (name : String) : Except Fault Value :=
  match (w.fieldSupplier id name).get w.slotValue with
  | .ok value => .ok value
  | .error lack => .error (w.lackFault lack)

/-- Whether an attribute was given a value or something that supplies one. -/
def isSet (w : World φ) (id : ObjectId) (name : String) : Bool :=
  match (w.object id).fields.find? name with
  | none | some .void => false
  | some _ => true

/-- A text that an attribute holds. -/
def readText (w : World φ) (id : ObjectId) (name : String) : Except Fault String :=
  (w.read id name).map (Value.display w.shown)

/-- Whether an attribute holds something other than nothing, nought or an empty value. -/
def readFlag (w : World φ) (id : ObjectId) (name : String) : Except Fault Bool :=
  (w.read id name).map fun
    | .nothing | .flag false | .int 0 | .text "" | .list [] => false
    | _ => true

/-- A path that an attribute holds. -/
def readPath (w : World φ) (id : ObjectId) (name : String) : Except Fault Path :=
  (w.read id name).map fun
    | .path p => p
    | v => .ofString (v.display w.shown)

/-- The object that a name leads to in a project. -/
def resolve (w : World φ) (project : ProjectId) (id : String) : Except ReferenceError ObjectId :=
  (w.project project).references.resolve w.aliasOf id

/-- The object that a name leads to in a project, if it is of a kind. -/
def resolveAs (w : World φ) (project : ProjectId) (id : String) (kind : KindId) :
    Except ReferenceError ObjectId :=
  (w.project project).references.resolveAs w.aliasOf
    ⟨w.kinds.nameOf kind, fun o => w.isA o kind, w.typeName⟩ id

/-- The object that a data type stands for: itself, or what it is a reference to. -/
def target (w : World φ) (id : ObjectId) : Except Fault ObjectId :=
  match (w.object id).reference with
  | none => .ok id
  | some r =>
    match w.resolveAs r.project r.id (w.object id).kind with
    | .ok found => .ok found
    | .error error => .error ((Problem.reference error).faultAt r.location)

end World
end BuildEngine
