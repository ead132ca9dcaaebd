import BuildEngine.Kind.Id
import BuildEngine.Value

/-!
Types of values: what an attribute accepts, and how a declaration writes it. Two unions of the
same types are the same union and are spelled alike; a type that stands for the absence of a value
always comes last.
-/

namespace BuildEngine

/-- A closed set of named values. -/
structure Enumeration where
  name : String
  members : List (String × Value)
  deriving Repr, Inhabited

/-- A type of values that an attribute accepts. -/
inductive ValueType where
  | anything | text | flag | int | real | path | nothing | bytes | list | reference
  | enumeration (e : Enumeration)
  | kind (id : KindId)
  deriving Repr, Inhabited

namespace ValueType

/-- Whether two types are the same; enumerations are told apart by their names. -/
def same : ValueType → ValueType → Bool
  | anything, anything | text, text | flag, flag | int, int | real, real | path, path
  | nothing, nothing | bytes, bytes | list, list | reference, reference => true
  | enumeration e, enumeration f => e.name == f.name
  | kind i, kind j => i == j
  | _, _ => false

/-- The name of a type in messages; `kindName` names the kinds. -/
def name (kindName : KindId → String) : ValueType → String
  | anything => "object"
  | text => "str"
  | flag => "bool"
  | int => "int"
  | real => "float"
  | path => "Path"
  | nothing => "NoneType"
  | bytes => "bytes"
  | list => "list"
  | reference => "Reference"
  | enumeration e => e.name
  | kind id => kindName id

/-- The kind of the objects that can be made of a type without being given anything but a
project, if there are any. -/
def constructible? : ValueType → Option KindId
  | anything => some Standard.object
  | list => some Standard.emptyList
  | path => some Standard.emptyPath
  | real => some Standard.noughtReal
  | kind id => some id
  | _ => none

/-- The types without repetitions, in the order of their first occurrences. -/
def distinct (types : List ValueType) : List ValueType :=
  types.foldl (fun seen t => if seen.any (same t) then seen else seen ++ [t]) []

/-- Whether two lists of distinct types hold the same types. -/
def sameMembers (types others : List ValueType) : Bool :=
  types.length == others.length && types.all fun t => others.any (same t)

end ValueType

/-- A type as a declaration writes it. -/
inductive TypeHint where
  | type (t : ValueType)
  /-- A list with the type of its items, which values are not checked for. -/
  | listOf
  | union (members : List TypeHint)
  | oneOf (values : List Value)
  deriving Repr, Inhabited

namespace TypeHint

/-- The unions with a spelling of their own. -/
def spelledUnions : List (List ValueType) := [
  [.text, .path], [.int, .real], [.text, .int], [.text, .flag], [.int, .flag, .text]]

/-- Puts the types of a union into the order in which they are spelled. -/
def spell (types : List ValueType) : List ValueType :=
  let present := types.filter fun t => !t.same .nothing
  let absent := types.filter fun t => t.same .nothing
  let spelled := spelledUnions.find? (ValueType.sameMembers present)
  spelled.getD present ++ absent

def typeOf : Value → ValueType
  | .text _ => .text
  | .flag _ => .flag
  | .int _ => .int
  | .real _ => .real
  | .nothing => .nothing
  | _ => .anything

mutual

/-- The types of values that a hint admits, in the order in which they are tried. -/
def accepted : TypeHint → List ValueType
  | type t => [t]
  | listOf => [.list]
  | union members => spell (ValueType.distinct (acceptedByAny members))
  | oneOf values => ValueType.distinct (values.map typeOf)

def acceptedByAny : List TypeHint → List ValueType
  | [] => []
  | hint :: rest => accepted hint ++ acceptedByAny rest

end

/-- The single type that a hint names, if it is one without arguments. -/
def single? : TypeHint → Option ValueType
  | type t => some t
  | _ => none

end TypeHint

namespace Value

/-- The name of the type of a value that is no object; `kindName` names the kinds of objects. -/
def typeName (objectKind : ObjectId → String) : Value → String
  | nothing => "NoneType"
  | text _ => "str"
  | flag _ => "bool"
  | int _ => "int"
  | real _ => "float"
  | path _ => "PosixPath"
  | list _ => "list"
  | record _ => "dict"
  | moment t _ _ => t
  | member e _ _ => e
  | reference _ => "Reference"
  | object id => objectKind id

end Value
end BuildEngine
