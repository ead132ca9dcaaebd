import BuildEngine.Kind.Basic
import BuildEngine.Target.Status

/-!
What happens in a run of targets, in the order in which observers are told.
-/

namespace BuildEngine

/-- The outcome that a task reports. -/
structure TaskStatus where
  type : StatusType
  message : Option String := none
  deriving Repr, DecidableEq, Inhabited

def StatusType.name : StatusType → String
  | succeeded => "SUCCEEDED"
  | failed => "FAILED"
  | skipped => "SKIPPED"
  | upToDate => "UP_TO_DATE"
  | warning => "WARNING"

/-- Whether a task that reports an outcome did not fail. -/
def StatusType.isOk : StatusType → Bool
  | failed => false
  | _ => true

/-- The outcome of a task that did not fail. A task that fails ends with a fault. -/
structure Completion extends TaskStatus where
  notFailed : type ≠ .failed

/-- Something that happens in a run. An event of a task tells where it stands in its target. -/
inductive Event where
  /-- A run begins: the project and its targets in the order in which they run. -/
  | beforeBuild (project : String) (order : List String)
  | beforeTarget (target : String)
  | beforeTask (target : String) (position : Nat) (task : String)
  | afterTask (target : String) (position : Nat) (task : String) (status : TaskStatus)
  | afterTarget (target : String) (status : TargetStatus)
  /-- A run ends: whether all targets completed, and which ones were aborted. -/
  | afterBuild (complete : Bool) (notExecuted : List String)
  deriving Repr, DecidableEq, Inhabited

end BuildEngine
