import BuildEngine.Object.Field
import BuildEngine.Run.Event

/-!
What all tasks share: how they log, read their attributes and fail, and the policy by which a task
lets its user decide what a failure means.
-/

namespace BuildEngine

namespace Engine

variable {φ : Type} {α : Type}

/-- Runs an action; a fault with which it ends is a result too. -/
def attempt (action : Engine φ α) : Engine φ (Except Fault α) :=
  tryCatch (Except.ok <$> action) fun fault => return .error fault

/-- An attempt ends with what the action ends with, and leaves the world as the action does. -/
theorem run_attempt (action : Engine φ α) (w : World φ) :
    (attempt action).run w = (.ok (action.run w).1, (action.run w).2) := by
  rcases ended : action.run w with ⟨fault | a, after⟩
  · rw [attempt, run_tryCatch_error (by rw [run_map, ended]; rfl)]
    rfl
  · rw [attempt, run_tryCatch_ok (by rw [run_map, ended]; rfl)]

def logOf (id : ObjectId) (level : LogLevel) (message : String) : Engine φ Unit := do
  log level (← observe (·.loggerOf id)) message

def projectOf (id : ObjectId) : Engine φ Project := do project (← object id).project

def failTask (id : ObjectId) (message : String) : Engine φ α := do
  throw ((← object id).location.failure message)

@[simp] theorem run_failTask (id : ObjectId) (message : String) (w : World φ) :
    (failTask (α := α) id message).run w = (.error ((w.object id).location.failure message), w) :=
  rfl

def reject (id : ObjectId) (problem : Problem) : Engine φ α := do
  throw (problem.faultAt (← object id).location)

/-- Refuses a task in which something holds that must not hold. -/
def rejectIf (id : ObjectId) (holds : Bool) (problem : Problem) : Engine φ Unit :=
  if holds then reject id problem else return

theorem rejectIf_bind {id : ObjectId} {holds : Bool} {problem : Problem}
    (next : Unit → Engine φ α) :
    rejectIf id holds problem >>= next =
      if holds then reject id problem >>= next else next () := by
  cases holds <;> rfl

theorem run_rejectIf {id : ObjectId} {holds : Bool} {problem : Problem} {w : World φ}
    (passes : holds = false) : (rejectIf id holds problem).run w = (.ok (), w) := by
  rw [passes]
  rfl

/-- A text that an attribute holds. -/
def textOf (id : ObjectId) (name : String) : Engine φ String := consult (·.readText id name)

/-- Whether an attribute holds something other than nothing, nought or an empty value. -/
def flagOf (id : ObjectId) (name : String) : Engine φ Bool := consult (·.readFlag id name)

/-- A path that an attribute holds. -/
def pathOf (id : ObjectId) (name : String) : Engine φ Path := consult (·.readPath id name)

/-- Whether an attribute was given a value. -/
def isSet (id : ObjectId) (name : String) : Engine φ Bool := observe (·.isSet id name)

/-- A path seen from the directory in which the build is run. -/
def absolutePath (path : Path) : Engine φ Path := observe fun w => w.here.join path

def partsOf (id : ObjectId) (kind : KindId) : Engine φ (List ObjectId) :=
  observe fun w => (w.object id).parts.filter fun part => w.isA part kind

/-- Checks that a failure policy does not contradict itself. -/
def checkPolicy (id : ObjectId) : Engine φ Unit := do
  if ← flagOf id "quiet" then
    if ← flagOf id "failonerror" then reject id .policyConflict

/-- What becomes of a problem that a task leaves to its failure policy. -/
abbrev Policy (φ : Type) := ObjectId → String → Engine φ Unit

/-- Leaves a problem to the failure policy of a task: it fails the task if the policy or the
project says so, and is logged otherwise. -/
def tolerate (id : ObjectId) (message : String) : Engine φ Unit := do
  let o ← object id
  let strict ← flagOf id "failonerror"
  if strict || (← project o.project).haltOnFailure then failTask id message
  if ← flagOf id "quiet" then logOf id .debug message
  else
    logOf id .warning message
    if ← isSet id "errorproperty" then
      let _ ← setProperty o.project (← textOf id "errorproperty") "true" true

end Engine
end BuildEngine
