import BuildEngine.Binding.Binder

/-!
Configuration: turning elements into configured objects. References to properties are replaced in
attribute values and texts; `id` names the object; `refid` makes a data type a reference to
another one and has to stand alone. A nested element is configured completely before its owner is
given its object.
-/

namespace BuildEngine

open BuildEngine.Text

/-- Whether an attribute of an element has a meaning of its own on all objects. -/
def isIdName (name : String) : Bool := lower name == "id"

/-- Whether an attribute of an element has a meaning of its own on data types. -/
def isRefidName (name : String) : Bool := lower name == "refid"

namespace Engine

variable {φ : Type}

/-- Makes the object that an element denotes, without configuring it. The declarations of its kind
are checked. -/
def create (project : ProjectId) (e : Element) (target : Option String := none) :
    Engine φ ObjectId := do
  match ← observe fun w => w.registry.find? e.tag with
  | none => throw ((Problem.unknownElement e.tag).faultAt e.location)
  | some kind =>
    let k ← observe fun w => w.kinds.get kind
    let id ← locating e.location do
      let _ ← consult fun w => (Signature.ofKind w.kinds k).mapError Problem.fault
      instantiate k project
    if k.isComponent then
      changeObject id fun o =>
        { o with elementName := some (lower e.tag), location := e.location, target }
    return id

/-- Names the object of an element, if the element has an identity. -/
def registerId (project : ProjectId) (e : Element) (id : ObjectId) : Engine φ Unit := do
  match e.get? "id" with
  | none => return ()
  | some template => register project ((← Engine.project project).properties.resolve template) id

/-- Makes a data type a reference. What it refers to must exist and be of its kind. -/
def bindReference (project : ProjectId) (e : Element) (id : ObjectId) (refid : String)
    (attributes : List (String × String)) : Engine φ Unit := do
  let place := (← object id).location.orElse e.location
  if attributes.any fun entry => !isIdName entry.1 && !isRefidName entry.1 then
    throw (Problem.refidWithAttributes.faultAt place)
  if !e.children.isEmpty || !allBlank e.text then
    throw (Problem.refidWithElements.faultAt place)
  changeObject id fun o => { o with reference := some ⟨project, refid, e.location⟩ }
  let _ ← consult fun w => w.target id

/-- Applies attributes to an object, one after another. -/
def bindAttributes (project : ProjectId) (id : ObjectId) (location : Location) :
    List (String × String) → Engine φ Unit
  | [] => return ()
  | (name, text) :: rest => do
    if !isIdName name then bindAttribute project id name text location
    bindAttributes project id location rest

mutual

/-- Applies the attributes, nested elements and text of an element to an object. -/
def configure (project : ProjectId) (id : ObjectId) : Element → Engine φ Unit
  | ⟨tag, attributes, children, text, location⟩ => do
    let e : Element := ⟨tag, attributes, children, text, location⟩
    registerId project e id
    let properties := (← Engine.project project).properties
    let resolved := attributes.map fun entry => (entry.1, properties.resolve entry.2)
    let isDataType ← observe fun w => (w.kindOf id).isDataType
    match resolved.find? fun entry => isDataType && isRefidName entry.1 with
    | some (_, refid) => bindReference project e id refid resolved
    | none =>
      bindAttributes project id location resolved
      configureChildren project id children
      if !text.isEmpty then
        let properties := (← Engine.project project).properties
        bindText id (properties.resolve text) location

/-- Takes nested elements as children of an object, one after another. -/
def configureChildren (project : ProjectId) (owner : ObjectId) : List Element → Engine φ Unit
  | [] => return ()
  | e :: rest => do
    let handle ← takeChild project owner e.tag e.location
    configure project handle.child e
    attach handle
    configureChildren project owner rest

end

def configureChild (project : ProjectId) (owner : ObjectId) (e : Element) : Engine φ ObjectId := do
  let handle ← takeChild project owner e.tag e.location
  configure project handle.child e
  attach handle
  return handle.child

def createConfigured (project : ProjectId) (e : Element) : Engine φ ObjectId := do
  let id ← create project e
  configure project id e
  return id

end Engine
end BuildEngine
