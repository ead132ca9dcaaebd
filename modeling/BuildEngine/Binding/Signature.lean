import BuildEngine.Binding.Name
import BuildEngine.Fault
import BuildEngine.Kind.Library

/-!
Signatures: what build descriptions can say about the objects of a kind. A signature lists the
attributes and nested elements by their normal names and the handler of nested text, and exists
only if the declarations of the kind agree with each other.
-/

namespace BuildEngine

/-- Whether a method makes a child or is given one. -/
inductive ChildOrigin where
  | creator
  | adder
  deriving Repr, DecidableEq, Inhabited

/-- How a nested element is taken. -/
structure ChildFactory where
  name : String
  origin : ChildOrigin
  method : String
  /-- The kind of the children, which is known of all children that are given. -/
  kind : Option KindId
  deriving Repr, Inhabited

/-- What build descriptions can say about the objects of a kind. -/
structure Signature where
  attributes : Table String Attribute := .empty
  elements : Table String ChildFactory := .empty
  text : Option String := none

namespace Signature

instance : Inhabited Signature := ⟨{}⟩

/-- The attribute names that have a meaning of their own on the objects of a kind. -/
def reservedNames (k : Kind) : List String := if k.isDataType then ["id", "refid"] else ["id"]

/-- The attributes of a kind by their normal names. -/
def attributesOf (k : Kind) : List Attribute → Table String Attribute →
    Except Problem (Table String Attribute)
  | [], found => .ok found
  | a :: rest, found =>
    let name := normalizeName a.name
    if (reservedNames k).contains name then .error (.reservedAttribute k.name a.name name)
    else
      match found.find? name with
      | some first => .error (.duplicateAttribute k.name name first.name a.name)
      | none => attributesOf k rest (found.put name a)

/-- Whether an annotation can be made out. -/
def isEvaluable : Annotation → Bool
  | .unknown => false
  | _ => true

/-- The kind that a creator announces, if it announces a single one. -/
def announced : Annotation → Option KindId
  | .known (.type (.kind id)) => some id
  | _ => none

/-- The name of a type as a parameter shows it. -/
def typeName (ks : Kinds) (type : ValueType) : String := type.name ks.nameOf

/-- How a declared nested element is taken. -/
def factoryOf (ks : Kinds) (owner : Kind) (method : String) (e : NestedElement) :
    Except Problem ChildFactory :=
  let name := normalizeName (e.name.getD (elementNameOf method))
  match e.parameters with
  | [] => .ok ⟨name, .creator, method, announced e.returns⟩
  | (parameter, annotation) :: more =>
    if !(e.parameters.all fun p => isEvaluable p.2) || !isEvaluable e.returns then
      .error (.unknownType owner.name method)
    else if !more.isEmpty then .error (.elementArity owner.name method)
    else
      match annotation with
      | .known hint =>
        match hint.single? with
        | none => .error (.noConcreteKind owner.name method parameter)
        | some type =>
          match type.constructible? with
          | none => .error (.inconstructibleChild owner.name method (typeName ks type))
          | some id =>
            let k := ks.get id
            if !(ks.openMembers k).isEmpty then .error (.abstractChild owner.name method k.name)
            else if (ks.construction? k).isNone then
              .error (.inconstructibleChild owner.name method (typeName ks type))
            else .ok ⟨name, .adder, method, some id⟩
      | _ => .error (.missingType owner.name method parameter)

/-- Adds what the members of one kind in the ancestry say; `hidden` holds the names of members of
nearer kinds. -/
def addMembers (ks : Kinds) (k ancestor : Kind) (hidden : List String) :
    List (String × Member) → Signature → Except Problem Signature
  | [], s => .ok s
  | (name, member) :: rest, s =>
    if hidden.contains name || ancestor.attributes.contains name then
      addMembers ks k ancestor hidden rest s
    else
      match member with
      | .plain | .required => addMembers ks k ancestor hidden rest s
      | .text handler =>
        match s.text with
        | some first => .error (.duplicateText k.name first name)
        | none =>
          if handler.parameters != 1 then .error (.textArity ancestor.name name)
          else addMembers ks k ancestor hidden rest { s with text := some name }
      | .nested element =>
        match factoryOf ks ancestor name element with
        | .error problem => .error problem
        | .ok factory =>
          match s.elements.find? factory.name with
          | some first => .error (.duplicateElement k.name factory.name first.method name)
          | none =>
            addMembers ks k ancestor hidden rest
              { s with elements := s.elements.put factory.name factory }

/-- Adds what the members of the kinds of an ancestry say, nearest first. -/
def addAncestry (ks : Kinds) (k : Kind) (hidden : List String) :
    List Kind → Signature → Except Problem Signature
  | [], s => .ok s
  | ancestor :: rest, s =>
    match addMembers ks k ancestor hidden ancestor.declaration.members s with
    | .error problem => .error problem
    | .ok more =>
      let own := ancestor.declaration.members.map Prod.fst ++ ancestor.attributes.keys
      addAncestry ks k (own ++ hidden) rest more

def ofKind (ks : Kinds) (k : Kind) : Except Problem Signature :=
  match attributesOf k k.attributes.values .empty with
  | .error problem => .error problem
  | .ok attributes => addAncestry ks k [] (ks.ancestry k) { attributes }

/-- The attribute that a spelling of its name selects. -/
def attribute? (s : Signature) (name : String) : Option Attribute :=
  s.attributes.find? (normalizeName name)

/-- The way in which an element with some spelling of its name is taken. -/
def element? (s : Signature) (name : String) : Option ChildFactory :=
  s.elements.find? (normalizeName name)

end Signature
end BuildEngine
