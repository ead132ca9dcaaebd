import BuildEngine.Properties
import BuildEngine.References
import BuildEngine.Target.Graph

/-!
Projects: the root of one build, with its properties, its named objects and its targets. A project
that runs targets on behalf of another one has a parent and stops at the first error.
-/

namespace BuildEngine

/-- A project. -/
structure Project where
  /-- The directory that relative paths are seen from; absolute. -/
  directory : Path
  name : String := ""
  description : Option String := none
  defaultTarget : Option String := none
  /-- The build description that the project was made from. -/
  source : Option Element := none
  buildFile : Option Path := none
  parent : Option ProjectId := none
  haltOnFailure : Bool := false
  properties : Properties := {}
  references : References ObjectId := {}
  targets : Targets := .empty
  /-- The tasks and types outside of all targets. -/
  root : Target := { name := "" }

namespace Project

instance : Inhabited Project := ⟨{ directory := .top }⟩

/-- The properties that every project defines for itself and never hands down. -/
def ownProperties : List String :=
  ["project.name", "project.basedir", "anvil.file", "anvil.version"]

/-- The version of the engine. -/
def version : String := "0.4.0"

/-- A path seen from the directory of a project. -/
def resolvePath (p : Project) (path : Path) : Path := p.directory.join path

/-- A written path, seen from the directory of a project. -/
def resolveFile (p : Project) (path : String) : Path := p.resolvePath (.ofString path)

/-- Sets the properties that a project defines for itself. -/
def withOwnProperties (p : Project) : Project :=
  let set := fun (properties : Properties) (entry : String × String) =>
    (properties.set entry.1 entry.2 true).2
  let file := match p.buildFile with
    | some path => [("anvil.file", path.text)]
    | none => []
  { p with
    properties := ([("project.name", p.name), ("project.basedir", p.directory.text),
      ("anvil.version", version)] ++ file).foldl set p.properties }

/-- A target, where the empty name stands for the tasks outside of all targets. -/
def target? (p : Project) (name : String) : Option Target :=
  if name.isEmpty then some p.root else p.targets.find? name

/-- Changes what stands in a target, where the empty name stands for the tasks outside of all
targets. -/
def changeInvocations (p : Project) (name : String)
    (change : List Invocation → List Invocation) : Project :=
  if name.isEmpty then { p with root := { p.root with invocations := change p.root.invocations } }
  else { p with targets := p.targets.changeInvocations name change }

/-- Why the conditions of a target keep it from running, if they do. -/
def guard? (p : Project) (t : Target) : Option String :=
  let names := fun (condition : Option String) =>
    splitNames (p.properties.resolve (condition.getD ""))
  match (names t.ifCondition).find? (!p.properties.contains ·) with
  | some name => some s!"property {Text.quote name} is not set"
  | none =>
    ((names t.unlessCondition).find? p.properties.contains).map fun name =>
      s!"property {Text.quote name} is set"

def text (p : Project) : String :=
  s!"Project({Text.quote p.name}, {Text.quote p.directory.text})"

/-- Only the target of the name changes, and of it only what stands in it. -/
theorem target?_changeInvocations (p : Project) (name other : String)
    (change : List Invocation → List Invocation) :
    (p.changeInvocations name change).target? other =
      if name = other then
        (p.target? name).map fun t => { t with invocations := change t.invocations }
      else p.target? other := by
  unfold changeInvocations target?
  by_cases root : name = ""
  · subst root
    by_cases same : other = ""
    · simp [same]
    · simp [same, Ne.symm same]
  · by_cases ofRoot : other = ""
    · simp [root, ofRoot]
    · simp [root, ofRoot, Targets.find?_changeInvocations]

end Project
end BuildEngine
