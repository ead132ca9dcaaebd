import BuildEngine.Run.Executor

/-!
Loading: turning a build description into a project. The tasks and types outside of all targets
are performed in the order of the document, before any object of a target is made; so a definition
among them introduces elements that stand further down.
-/

namespace BuildEngine

open BuildEngine.Text

def targetAttributes : List String := ["name", "depends", "if", "unless", "description"]

def Target.ofElement (e : Element) : Except Fault Target := do
  match e.attributes.find? fun entry => !targetAttributes.contains (lower entry.1) with
  | some (name, _) => throw ((Problem.targetAttribute name).faultAt e.location)
  | none =>
    let name := (e.get? "name").getD ""
    if name.isEmpty then throw (Problem.targetName.faultAt e.location)
    return {
      name
      depends := splitNames? (e.get? "depends")
      ifCondition := e.get? "if"
      unlessCondition := e.get? "unless"
      description := e.get? "description"
      location := e.location
      invocations := e.children.map fun child => { element := some child } }

namespace Project

/-- Adds a target, unless there is one of its name. -/
def addTarget (p : Project) (t : Target) : Except Fault Project :=
  if p.targets.contains t.name then .error ((Problem.duplicateTarget t.name).faultAt t.location)
  else .ok { p with targets := p.targets.put t }

/-- Adds what an element in a build description declares. -/
def addElement (p : Project) (e : Element) : Except Fault Project := do
  match lower e.tag with
  | "target" => p.addTarget (← Target.ofElement e)
  | "description" => return { p with description := some (trim e.text) }
  | _ =>
    let invocations := p.root.invocations ++ [{ element := some e }]
    return { p with root := { p.root with invocations } }

/-- Adds what elements declare, up to the first one that declares something wrong. -/
def addElements (p : Project) : List Element → Project × Option Fault
  | [] => (p, none)
  | e :: rest =>
    match p.addElement e with
    | .ok more => more.addElements rest
    | .error fault => (p, some fault)

/-- Takes over what a build description says about the project as a whole. A project that runs on
behalf of another one keeps its directory. -/
def describedBy (p : Project) (e : Element) : Project :=
  let given := fun (name : String) => (e.get? name).getD ""
  let default := given "default"
  let basedir := given "basedir"
  { p with
    source := some e
    name := if (given "name").isEmpty then p.name else given "name"
    defaultTarget := if default.isEmpty then none else some default
    description := e.get? "description"
    directory :=
      if basedir.isEmpty || p.parent.isSome then p.directory else p.resolveFile basedir
    : Project }.withOwnProperties

end Project

namespace Engine

variable {φ : Type} [FileSystem φ]

/-- Takes over what a build description declares, up to the first wrong declaration. -/
def adopt (project : ProjectId) (e : Element) : Engine φ Unit := do
  if lower e.tag != "project" then throw ((Problem.notAProject e.tag).faultAt e.location)
  let (declared, fault) := ((← Engine.project project).describedBy e).addElements e.children
  changeProject project fun _ => declared
  if let some fault := fault then throw fault

/-- Makes the objects of all targets of a project. -/
def instantiateTargets (project : ProjectId) : Engine φ Unit := do
  for target in (← Engine.project project).targets.keys do
    for index in ← positions project target do
      let _ ← instantiateInvocation project target index

/-- Loads a build description into a project. -/
def load (caller : Caller φ) (project : ProjectId) (e : Element) : Engine φ Unit := do
  adopt project e
  match ← performIn (performInvocation caller) (fun _ => return ()) project ""
      (← positions project "") with
  | some (_, fault) => throw fault
  | none => instantiateTargets project

end Engine
end BuildEngine
