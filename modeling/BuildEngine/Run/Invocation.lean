import BuildEngine.Binding.Configuration
import BuildEngine.Task.Definition
import BuildEngine.Task.Delete
import BuildEngine.Task.Script
import BuildEngine.Task.Standard
import BuildEngine.Task.UpToDate

/-!
Performing tasks, and the tasks and types that stand in targets. How a task calls a target is left
open here: it is a parameter of everything that performs tasks.
-/

namespace BuildEngine

/-- How tasks call targets. -/
abbrev Caller (φ : Type) := ObjectId → Engine φ Unit

/-- How what stands in targets is performed: by the project, the target and the position in it.
What is no task has no outcome. -/
abbrev Performer (φ : Type) := ProjectId → String → Nat → Engine φ (Option Completion)

/-- The name of what an invocation is about: that of its task, or of its element. -/
def World.invocationName {φ : Type} (w : World φ) (i : Invocation) : String :=
  match i.object, i.element with
  | some id, some e => if w.isA id Standard.task then w.nameOf id else e.tag
  | some id, none => if w.isA id Standard.task then w.nameOf id else w.typeName id
  | none, some e => e.tag
  | none, none => ""

/-- The place of an invocation. -/
def World.invocationLocation {φ : Type} (w : World φ) (i : Invocation) : Location :=
  match i.element, i.object with
  | some e, _ => e.location
  | none, some id => (w.object id).location
  | none, none => .unknown

def World.invocationAt {φ : Type} (w : World φ) (project : ProjectId) (target : String)
    (index : Nat) : Invocation :=
  (((w.project project).target? target).bind fun t => t.invocations[index]?).getD default

def World.invocationCount {φ : Type} (w : World φ) (project : ProjectId) (target : String) : Nat :=
  (((w.project project).target? target).map fun t => t.invocations.length).getD 0

/-- The name of what stands at a position of a target. -/
def World.taskAt {φ : Type} (w : World φ) (project : ProjectId) (target : String) (index : Nat) :
    String :=
  w.invocationName (w.invocationAt project target index)

def World.invocationText {φ : Type} (w : World φ) (i : Invocation) : String :=
  s!"Invocation(<{w.invocationName i}> at {(w.invocationLocation i).text})"

namespace Engine

variable {φ : Type} [FileSystem φ]

/-- Does the work of a task, as the nearest of its kinds says that has work to do, under a failure
policy. -/
def workBy (leave : Policy φ) (caller : Caller φ) (id : ObjectId) :
    Engine φ (Option TaskStatus) := do
  match ← observe fun w => w.kinds.performer? (w.kindOf id) with
  | none => return none
  | some k =>
    match k.id with
    | .declared _ => performAll leave id (k.declaration.script.getD [])
    | .standard .call => do
      caller id
      return none
    | .standard .delete => delete leave id
    | .standard .echo => echo id
    | .standard .fail => fail id
    | .standard .property => defineProperty id
    | .standard .touch => touch id
    | .standard .upToDate => checkUpToDate id
    | .standard .definition => define (← observe (·.isA id Standard.taskdef)) id
    | .standard _ => return none

/-- Does the work of a task under the failure policy that its user chose. -/
def work : Caller φ → ObjectId → Engine φ (Option TaskStatus) := workBy tolerate

/-- Performs a task. An attribute that is read without having a value was required; a task that
reports that it failed fails. -/
def performTask (caller : Caller φ) (id : ObjectId) : Engine φ Completion := do
  match ← attempt (work caller id) with
  | .ok none => return ⟨⟨.succeeded, none⟩, nofun⟩
  | .ok (some status) =>
    if failed : status.type = .failed then
      let described ← observe (·.describe id)
      let message := status.message.getD ""
      failTask id (if message.isEmpty then s!"{described} failed" else message)
    else return ⟨status, failed⟩
  | .error (.empty owner field text) =>
    let described ← observe (·.describe id)
    if owner = some id then reject id (.requiredAttribute described field)
    else reject id (.emptyRead described text)
  | .error fault => throw fault

def invocation (project : ProjectId) (target : String) (index : Nat) : Engine φ Invocation :=
  observe (·.invocationAt project target index)

def changeInvocation (project : ProjectId) (target : String) (index : Nat)
    (change : Invocation → Invocation) : Engine φ Unit :=
  changeProject project (·.changeInvocations target (·.modify index change))

/-- Adds a task that was not made from an element to a target. -/
def addTask (project : ProjectId) (target : String) (id : ObjectId) : Engine φ Invocation := do
  let added : Invocation := { object := some id, configured := true }
  if !target.isEmpty then changeObject id fun o => { o with target := some target }
  changeProject project (·.changeInvocations target (· ++ [added]))
  return added

/-- Makes the object of an invocation, unless it was made. -/
def instantiateInvocation (project : ProjectId) (target : String) (index : Nat) :
    Engine φ (Option ObjectId) := do
  let i ← invocation project target index
  match i.object, i.element with
  | some id, _ => return some id
  | none, none => return none
  | none, some e =>
    let id ← create project e (if target.isEmpty then none else some target)
    changeInvocation project target index fun i => { i with object := some id }
    return some id

/-- Makes and configures the object of an invocation, unless that was done. The result is the
object, if it is a task. -/
def prepareInvocation (project : ProjectId) (target : String) (index : Nat) :
    Engine φ (Option ObjectId) := do
  match ← instantiateInvocation project target index with
  | none => return none
  | some id =>
    let i ← invocation project target index
    if let some e := i.element then
      if !i.configured then
        configure project id e
        changeInvocation project target index fun i => { i with configured := true }
    return if ← observe (·.isA id Standard.task) then some id else none

/-- Performs what stands at a position of a target, if that is a task. -/
def performInvocation (caller : Caller φ) : Performer φ := fun project target index => do
  match ← prepareInvocation project target index with
  | none => return none
  | some id => some <$> performTask caller id

end Engine
end BuildEngine
