import BuildEngine.Binding.Signature
import BuildEngine.Object.Field
import BuildEngine.Number.Literal

/-!
Binding: applying the attributes, nested elements and texts of a build description to objects. A
text becomes a value of the first type that an attribute accepts and that can read it.
-/

namespace BuildEngine

open BuildEngine.Text BuildEngine.Number

/-- A child that is taken for a nested element: its owner, how it is taken, and whether it was
attached already. -/
structure ChildHandle where
  child : ObjectId
  owner : ObjectId
  factory : ChildFactory
  attached : Bool := false
  deriving Inhabited

namespace Enumeration

def valueTexts (e : Enumeration) : List String :=
  e.members.map fun entry => entry.2.display fun _ => ""

/-- The member whose value a text gives, in any case and with blanks around it. -/
def read (e : Enumeration) (text : String) : Except String Value :=
  let word := lower (trim text)
  match e.members.find? fun entry => lower (entry.2.display fun _ => "") == word with
  | some (name, value) => .ok (.member e.name name value)
  | none =>
    let known := ", ".intercalate e.valueTexts
    .error s!"expected one of {known}"

/-- What is read is a member of the enumeration. -/
theorem exists_of_read {e : Enumeration} {text : String} {v : Value} (reads : e.read text = .ok v) :
    ∃ entry ∈ e.members, v = .member e.name entry.1 entry.2 := by
  unfold read at reads
  dsimp only at reads
  split at reads
  · rename_i name value found
    cases reads
    exact ⟨(name, value), List.mem_of_find?_eq_some found, rfl⟩
  · cases reads

end Enumeration

namespace Engine

variable {φ : Type}

/-- The complaint about a type whose values no text gives. -/
def noReadingText (type : String) : String :=
  s!"attributes of type {type} can not be set from a string"

/-- A path that is given as a text: an object of its own, which holds the text. -/
def pathListOf (project : ProjectId) (text : String) : Engine φ Value := do
  let list ← instantiate (← observe fun w => w.kinds.get Standard.pathList) project
  setField list "path" (.text text)
  return .object list

/-- The value of a type that a text gives, or the complaint about the text. -/
def coerceTo (project : ProjectId) (text : String) :
    ValueType → Engine φ (Except String Value)
  | .anything => do
    if (← get).implicitBooleans then
      if let some b := flagOf? text then return .ok (.flag b)
    return .ok (.text text)
  | .enumeration e => return e.read text
  | .text => return .ok (.text text)
  | .flag => return (readFlag text).map .flag
  | .int =>
    match readInt (trim text) with
    | .ok n => return .ok (.int n)
    | .error error => return .error error.message
  | .real =>
    match readReal (trim text) with
    | .ok x => return .ok (.real x)
    | .error error => return .error error.message
  | .path => do return .ok (.path ((← Engine.project project).resolveFile text))
  | .reference => return .ok (.reference { project, id := text })
  | .kind id => do
    let k ← observe fun w => w.kinds.get id
    if k.isA Standard.pathList then return .ok (← pathListOf project text)
    return .error (noReadingText k.name)
  | type => return .error (noReadingText (type.name fun _ => ""))

/-- The value of the first type that a text gives, or all complaints. -/
def coerceFirst (project : ProjectId) (text : String) (complaints : List String) :
    List ValueType → Engine φ Value
  | [] => throw (.value ("; ".intercalate complaints))
  | type :: rest => do
    match ← coerceTo project text type with
    | .ok v => return v
    | .error complaint => coerceFirst project text (complaints ++ [complaint]) rest

def coerce (project : ProjectId) (a : Attribute) (text : String) : Engine φ Value :=
  coerceFirst project text [] (a.accepted.filter fun type => !type.same .nothing)

def signatureOf (id : ObjectId) : Engine φ Signature :=
  consult fun w => (Signature.ofKind w.kinds (w.kindOf id)).mapError Problem.fault

/-- Sets an attribute from a text. A text that consists of a slot lets the attribute follow the
slot, if the attribute listens. -/
def bindAttribute (project : ProjectId) (id : ObjectId) (name text : String)
    (location : Location) : Engine φ Unit := do
  let signature ← locating location (signatureOf id)
  let owner ← observe (·.describe id)
  match slotName? text, signature.attribute? name with
  | some slot, some a =>
    if a.listening then setSource id a.name (.slot project slot)
    else throw ((Problem.noSlotAttribute owner name).faultAt location)
  | some _, none => throw ((Problem.noSlotAttribute owner name).faultAt location)
  | none, none => throw ((Problem.noAttribute owner name).faultAt location)
  | none, some a =>
    let explain := fun (fault : Fault) =>
      if fault.isValueFault then
        (Problem.invalidValue owner text name fault.message).faultAt location
      else fault.placed location
    adapting explain do
      setField id a.name (← coerce project a text)

/-- The member of an object's kind that a method name denotes, with the kind that has it. -/
def methodOf (id : ObjectId) (method : String) : Engine φ (Option (Kind × Member)) :=
  observe fun w => w.kinds.member? (w.kindOf id) method

def addPart (owner part : ObjectId) : Engine φ Unit :=
  changeObject owner fun o => { o with parts := o.parts ++ [part] }

/-- Keeps an object as the child that a declared method took. -/
def addChild (owner : ObjectId) (method : String) (child : ObjectId) : Engine φ Unit :=
  changeObject owner fun o => { o with children := o.children ++ [(method, child)] }

/-- Makes the mapper of a task, which has at most one. -/
def createMapper (owner : ObjectId) : Engine φ ObjectId := do
  let o ← object owner
  let w ← get
  if o.parts.any fun part => w.isA part Standard.mapper then
    throw (Problem.secondMapper.faultAt o.location)
  let child ← instantiate (w.kinds.get Standard.mapper) o.project
  addPart owner child
  return child

/-- Lets a method of an object make a child; it may make none. -/
def createBy (project : ProjectId) (owner : ObjectId) (method : String) :
    Engine φ (Option ObjectId) := do
  match ← methodOf owner method with
  | some (k, .nested element) =>
    match element.refusal, element.creates with
    | some complaint, _ => throw (Problem.stated complaint).fault
    | none, none => return none
    | none, some kind =>
      if k.id = .standard .upToDate then return some (← createMapper owner)
      let child ← instantiate (← observe fun w => w.kinds.get kind) project
      addChild owner method child
      return some child
  | _ => return none

/-- Gives a child its element, its place and the target of its owner. -/
def placeChild (owner child : ObjectId) (name : String) (location : Location) :
    Engine φ Unit := do
  let w ← get
  if (w.kindOf child).isComponent then
    let location := Location.unknown.orElse location
    changeObject child fun o => { o with elementName := some (lower name), location }
    if (w.kindOf owner).isComponent then
      let target := (w.object owner).target
      changeObject child fun o => { o with target }

def makeChild (project : ProjectId) (owner : ObjectId) (factory : ChildFactory)
    (described name : String) : Engine φ ObjectId := do
  match factory.origin, factory.kind with
  | .adder, some kind => instantiate (← observe fun w => w.kinds.get kind) project
  | _, _ =>
    match ← createBy project owner factory.method with
    | some child => return child
    | none => throw (Problem.noChildCreated described name).fault

/-- Makes the object of a nested element. Its owner keeps it already if a method of the owner made
it; otherwise it has to be attached once it is configured. -/
def takeChild (project : ProjectId) (owner : ObjectId) (name : String) (location : Location) :
    Engine φ ChildHandle := do
  let signature ← locating location (signatureOf owner)
  let described ← observe (·.describe owner)
  match signature.element? name with
  | none => throw ((Problem.noElement described name).faultAt location)
  | some factory =>
    let child ← locating location (makeChild project owner factory described name)
    placeChild owner child name location
    return { child, owner, factory }

/-- Attaches a child to its owner, unless the owner made it. -/
def attach (h : ChildHandle) : Engine φ Unit := do
  if h.attached then throw .alreadyAttached
  if h.factory.origin = .adder then
    match ← methodOf h.owner h.factory.method with
    | some (k, .nested element) =>
      match element.refusal, k.id with
      | some complaint, _ => throw (Problem.stated complaint).fault
      | none, .standard _ => addPart h.owner h.child
      | none, .declared _ => addChild h.owner h.factory.method h.child
    | _ => return ()

/-- Passes nested text to an object. Text that is only blanks is ignored. -/
def bindText (id : ObjectId) (text : String) (location : Location) : Engine φ Unit := do
  if allBlank text then return ()
  let signature ← locating location (signatureOf id)
  match signature.text with
  | none => throw ((Problem.noText (← observe (·.describe id))).faultAt location)
  | some method =>
    locating location do
      match ← methodOf id method with
      | some (k, .text handler) =>
        match handler.refusal, k.id with
        | some complaint, _ => throw (Problem.stated complaint).fault
        | none, .standard _ =>
          let before ← consult fun w => w.readText id "message"
          setField id "message" (.text (before ++ text))
        | none, .declared _ => changeObject id fun o => { o with texts := o.texts ++ [text] }
      | _ => return ()

end Engine
end BuildEngine
