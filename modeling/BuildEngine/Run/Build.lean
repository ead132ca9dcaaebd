import BuildEngine.Run.Call

/-!
Builds: loading a build description as a project of its own, and running targets of it. A run tells
what became of it, and ends with a fault only if something went wrong that is none of the build.
-/

namespace BuildEngine

/-- How a build ended. -/
inductive BuildOutcome where
  | success
  /-- A target failed. -/
  | failed
  /-- Nothing was run. -/
  | aborted
  deriving Repr, DecidableEq, Inhabited

def BuildOutcome.name : BuildOutcome → String
  | success => "SUCCESS"
  | failed => "FAILED"
  | aborted => "ABORTED"

/-- What became of a build. -/
structure BuildResult where
  outcome : BuildOutcome
  message : Option String := none
  /-- The target that failed. -/
  target : Option String := none
  /-- The task that failed. -/
  task : Option String := none
  location : Location := .unknown
  deriving Repr, Inhabited

namespace BuildResult

/-- The result of a build that ended with a fault, if the fault is one of a build. -/
def ofFault? : Fault → Option BuildResult
  | .build target task cause => some {
      outcome := .failed, message := some cause.message, target := some target, task
      location := cause.location }
  | .configuration problem location => some {
      outcome := .aborted, message := some (Fault.configuration problem location).message
      location }
  | _ => none

/-- The result when there is nothing to run. -/
def noTarget : BuildResult where
  outcome := .aborted
  message := some "no target specified and the project has no default target"

end BuildResult

namespace Engine

variable {φ : Type} [FileSystem φ]

/-- Loads a build description as a project of its own. Relative paths are seen from a directory,
unless the build description names another one. -/
def loadProject (e : Element) (properties : List (String × String)) (directory : Path)
    (buildFile : Option Path := none) : Engine φ ProjectId := do
  let project ← addProject {
    directory := ← observe fun w => w.here.join directory
    source := some e, buildFile, properties := .ofUser properties }
  let explain := fun
    | Fault.task message location => (Problem.topLevelTask message).faultAt location
    | fault => fault
  adapting explain (load call project e)
  return project

/-- The targets that a run is about: those that are named, or the default target. -/
def goalsOf (p : Project) (goals : List String) : List String :=
  if goals.isEmpty then (p.defaultTarget.filter (!·.isEmpty)).toList else goals

/-- Runs targets of a project, or its default target if none are named, and tells how that
ended. -/
def buildBy (perform : Performer φ) (tell : Audience φ) (project : ProjectId)
    (goals : List String) : Engine φ BuildResult := do
  let goals := goalsOf (← Engine.project project) goals
  if goals.isEmpty then return .noTarget
  match ← attempt (executeBy perform tell project goals) with
  | .ok () => return { outcome := .success }
  | .error fault =>
    match BuildResult.ofFault? fault with
    | some result => return result
    | none => throw fault

/-- Runs targets of a project, and tells the observer of the world about it. -/
def build (project : ProjectId) (goals : List String) : Engine φ BuildResult :=
  buildBy (performInvocation call) notify project goals

end Engine
end BuildEngine
