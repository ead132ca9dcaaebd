import BuildEngine.Run.Loading

/-!
Calls: a task that runs a target of its own build description in a fresh copy of its project. A
call may lead to further calls, down to a fixed depth.
-/

namespace BuildEngine

open BuildEngine.Text

/-- What a project hands down to one that runs on its behalf. -/
structure Inheritance where
  /-- Whether all properties are handed down. -/
  allProperties : Bool := true
  /-- Whether all named objects are handed down. -/
  allReferences : Bool := false
  /-- Properties that win over all others. -/
  overrides : List (String × String) := []
  /-- Names of objects that are handed down, with the names they are given. -/
  references : List (String × String) := []
  deriving Repr, Inhabited

namespace Inheritance

/-- The properties with which a project starts that runs on behalf of another one. -/
def properties (i : Inheritance) (p : Project) : Properties :=
  let given := Properties.ofUser i.overrides
  if i.allProperties then
    (p.properties.toList.filter fun entry => !Project.ownProperties.contains entry.1).foldl
      (fun store entry => store.setInherited entry.1 entry.2) given
  else given

/-- The project that runs on behalf of another one, before anything is loaded into it. -/
def heir (i : Inheritance) (parent : ProjectId) (p : Project) : Project where
  directory := p.directory
  buildFile := p.buildFile
  source := p.source
  parent := some parent
  haltOnFailure := true
  properties := i.properties p

/-- The name that a forwarded object is given: the one it has, unless another one is asked for. -/
def givenName (entry : String × String) : String :=
  if entry.2.isEmpty then entry.1 else entry.2

end Inheritance

namespace Engine

variable {φ : Type} [FileSystem φ]

/-- Hands named objects of a project down to another one, under names that are given or not. -/
def forward (parent child : ProjectId) : List (String × String) → Engine φ Unit
  | [] => return ()
  | entry :: rest => do
    match (← project parent).references.get? entry.1 with
    | none => throw (Problem.unknownReference entry.1).fault
    | some object => do
      register child (Inheritance.givenName entry) object
      forward parent child rest

/-- Hands named objects down to a project, unless it has their names already. -/
def handDown (child : ProjectId) : List (String × ObjectId) → Engine φ Unit
  | [] => return ()
  | (id, object) :: rest => do
    if !(← project child).references.contains id then register child id object
    handDown child rest

/-- Loads a build description into a project that runs on behalf of another one. Named objects are
handed down after that, so the build description does not see them. -/
def furnish (caller : Caller φ) (parent child : ProjectId) (source : Element) (i : Inheritance) :
    Engine φ Unit := do
  load caller child source
  if i.allReferences then handDown child (← project parent).references.objects.entries
  forward parent child i.references

/-- Makes a project that runs on behalf of another one and loads its build description. -/
def derive (caller : Caller φ) (parent : ProjectId) (i : Inheritance) : Engine φ ProjectId := do
  let p ← project parent
  match p.source with
  | none => throw (Problem.noSource p.name).fault
  | some source =>
    let child ← addProject (i.heir parent p)
    furnish caller parent child source i
    return child

/-- Runs targets of a build description in a fresh project on behalf of another one. -/
def subBuild (caller : Caller φ) (tell : Audience φ) (parent : ProjectId) (i : Inheritance)
    (goals : List String) : Engine φ Unit := do
  let child ← derive caller parent i
  execute caller tell child goals

/-- The properties that the parameters of a call set. -/
def overridesOf : List ObjectId → Engine φ (List (String × String))
  | [] => return []
  | param :: rest => do
    let name ← textOf param "name_"
    let value ← textOf param "value"
    return (name, value) :: (← overridesOf rest)

/-- The named objects that a call forwards. -/
def forwardsOf : List ObjectId → Engine φ (List (String × String))
  | [] => return []
  | reference :: rest => do
    let id ← textOf reference "refid"
    let name ← if ← isSet reference "torefid" then textOf reference "torefid" else pure id
    return (id, name) :: (← forwardsOf rest)

/-- Names with values, each name once with its last value. -/
def lastOfEach (entries : List (String × String)) : List (String × String) :=
  (Table.ofList entries).entries

/-- What a call hands down. -/
def inheritanceOf (id : ObjectId) : Engine φ Inheritance := do
  let overrides ← overridesOf (← partsOf id Standard.param)
  let references ← forwardsOf (← partsOf id Standard.referenceForward)
  return {
    allProperties := ← flagOf id "inheritall"
    allReferences := ← flagOf id "inheritrefs"
    overrides := lastOfEach overrides
    references := lastOfEach references }

/-- Calls the target that a task names. Whatever goes wrong in it fails the task. -/
def callTarget (caller : Caller φ) (id : ObjectId) : Engine φ Unit := do
  let o ← object id
  let name ← if ← isSet id "target" then some <$> textOf id "target" else pure none
  let quoted := (name.map quote).getD "None"
  match o.target, name with
  | none, _ => logOf id .warning s!"Cowardly refusing to call target {quoted} from the root"
  | some _, none => reject id .callTarget
  | some _, some goal =>
    let inheritance ← inheritanceOf id
    let caption := quote (← project o.project).name
    logOf id .debug s!"Calling target {quoted} of project {caption}"
    match ← attempt (subBuild caller (fun _ => return ()) o.project inheritance [goal]) with
    | .ok () => return ()
    | .error fault =>
      if fault.isBuildFault then
        failTask id s!"calling target {quoted} failed: {fault.message}"
      else throw fault

/-- Calls targets, where calls may lead to further ones down to a depth. -/
def callWithin : Nat → Caller φ
  | 0 => fun _ => throw .tooDeep
  | depth + 1 => callTarget (callWithin depth)

/-- The depth to which calls may lead to further ones. -/
def callDepth : Nat := 64

/-- Calls targets. -/
def call : Caller φ := callWithin callDepth

end Engine
end BuildEngine
