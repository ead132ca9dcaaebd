import BuildEngine.Kind.ValueType
import BuildEngine.Table

/-!
Kinds and their declarations. A declaration names the bases of a kind, the attributes and members
that it adds, and, for a task, the actions that it performs. A kind knows all that its objects
have: the order in which its bases are searched and its attributes together with the inherited
ones.
-/

namespace BuildEngine

/-- How an attribute is written down in a declaration. -/
inductive AttributeForm where
  /-- An attribute of values of a type. -/
  | typed
  /-- A field that only looks like an attribute. -/
  | untyped
  /-- An attribute without the type of its values. -/
  | bare
  deriving Repr, DecidableEq, Inhabited

/-- An attribute as a declaration gives it. -/
structure AttributeDeclaration where
  name : String
  hint : TypeHint
  form : AttributeForm := .typed
  initial : Option Value := none
  listening : Bool := false
  help : Option String := none
  /-- Whether anything besides the type was written down. -/
  hasOptions : Bool := false
  deriving Repr, Inhabited

/-- An attribute of a kind: the values that it takes and the value that it starts with. -/
structure Attribute where
  name : String
  accepted : List ValueType
  initial : Option Value
  listening : Bool
  help : Option String
  deriving Repr, Inhabited

/-- How a parameter of an initializer may be given. -/
inductive ParameterMode where
  | positional | ordinary | keyword | variadic
  deriving Repr, DecidableEq, Inhabited

/-- A parameter of an initializer. -/
structure Parameter where
  name : String
  hasDefault : Bool := false
  mode : ParameterMode := .ordinary
  deriving Repr, Inhabited

namespace Parameter

/-- Whether a value must be given for a parameter. -/
def isRequired (p : Parameter) : Bool := !p.hasDefault && p.mode != .variadic

/-- Whether a parameter can be given the project by its name. -/
def takesProject (p : Parameter) : Bool := p.name == "project" && p.mode != .positional

end Parameter

/-- The type in an annotation: none, one that cannot be made out, or one that is known. -/
inductive Annotation where
  | missing
  | unknown
  | known (hint : TypeHint)
  deriving Repr, Inhabited

/-- A declared nested element: the methods of a kind that take a child or make one. -/
structure NestedElement where
  /-- The name that the element is given explicitly. -/
  name : Option String := none
  parameters : List (String × Annotation) := []
  /-- The type of the children that a creator announces. -/
  returns : Annotation := .missing
  /-- The kind of the children that a creator makes. -/
  creates : Option KindId := none
  /-- The complaint with which every use is refused. -/
  refusal : Option String := none
  deriving Repr, Inhabited

/-- A declared handler of nested text. -/
structure TextHandler where
  parameters : Nat := 1
  refusal : Option String := none
  deriving Repr, Inhabited

/-- A member of a kind. -/
inductive Member where
  | nested (element : NestedElement)
  | text (handler : TextHandler)
  /-- A member without a role in build descriptions; it hides inherited members of its name. -/
  | plain
  /-- A member that kinds further down have to provide. -/
  | required
  deriving Repr, Inhabited

/-- The types of outcome that a task can report. -/
inductive StatusType where
  | succeeded | failed | skipped | upToDate | warning
  deriving Repr, DecidableEq, Inhabited

/-- The levels of log messages. -/
inductive LogLevel where
  | debug | info | warning | error
  deriving Repr, DecidableEq, Inhabited

namespace LogLevel

/-- The level that the value of an attribute names. -/
def ofText : String → LogLevel
  | "error" => error
  | "warning" => warning
  | "info" => info
  | _ => debug

def name : LogLevel → String
  | debug => "DEBUG"
  | info => "INFO"
  | warning => "WARNING"
  | error => "ERROR"

/-- How much a message of a level weighs. -/
def weight : LogLevel → Nat
  | debug => 10
  | info => 20
  | warning => 30
  | error => 40

end LogLevel

/-- An action of a declared task. -/
inductive Action where
  /-- Sets a property, overriding. -/
  | setProperty (name value : String)
  | log (level : LogLevel) (message : String)
  /-- Fails the task. -/
  | fail (message : String)
  /-- Rejects the build description. -/
  | reject (message : String)
  /-- Fails in a way that no task should. -/
  | crash (message : String)
  | interrupt
  /-- Ends the task with an outcome. -/
  | report (type : StatusType) (message : Option String)
  /-- Writes the value of an attribute to a property. -/
  | read (field : String)
  /-- Writes the value of an attribute of a child to a property. -/
  | readChild (index : Nat) (field : String)
  | writeSlot (name : String) (value : Value)
  /-- Leaves a problem to the failure policy. -/
  | handleError (message : String)
  /-- Checks that the failure policy is consistent. -/
  | checkPolicy
  /-- Writes the nested text to a property. -/
  | storeText (name : String)
  /-- Resolves the reference that an attribute holds. -/
  | resolve (field : String)
  deriving Repr, Inhabited

/-- The declaration of a kind. -/
structure Declaration where
  name : String
  /-- The module that declares the kind. -/
  home : String
  bases : List KindId
  attributes : List AttributeDeclaration := []
  members : List (String × Member) := []
  /-- The parameters of its own initializer. -/
  initializer : Option (List Parameter) := none
  /-- What its objects do as tasks. -/
  script : Option (List Action) := none
  deriving Repr, Inhabited

/-- A kind: its declaration, the order in which it and its bases are searched, and all its
attributes. -/
structure Kind where
  id : KindId
  declaration : Declaration
  order : List KindId
  attributes : Table String Attribute

namespace Kind

instance : Inhabited Kind := ⟨default, default, [], .empty⟩

def name (k : Kind) : String := k.declaration.name

def shown (k : Kind) : String := s!"<class '{k.declaration.home}.{k.name}'>"

/-- Whether a kind is another kind or is derived from it. -/
def isA (k : Kind) (other : KindId) : Bool := k.order.contains other

/-- Whether objects of a kind have attributes. -/
def isContainer (k : Kind) : Bool := k.isA Standard.container

/-- Whether objects of a kind belong to a project. -/
def isComponent (k : Kind) : Bool := k.isA Standard.component

/-- Whether objects of a kind can be shared by name. -/
def isDataType (k : Kind) : Bool := k.isA Standard.dataType

def isTask (k : Kind) : Bool := k.isA Standard.task

end Kind
end BuildEngine
