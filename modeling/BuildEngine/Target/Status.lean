/-!
What becomes of a target in a run, and of a task in a target.
-/

namespace BuildEngine

/-- The states that a target goes through in a run. -/
inductive TargetState where
  /-- Nothing has been decided. -/
  | pending
  /-- A guard keeps the target from running. -/
  | skipped
  /-- The guards let the target run. -/
  | ready
  | running
  /-- All tasks were performed. -/
  | done
  /-- A task failed. -/
  | failed
  /-- The run came to an end, or a dependency did not complete. -/
  | aborted
  deriving Repr, DecidableEq, Inhabited

namespace TargetState

def name : TargetState → String
  | pending => "PENDING"
  | skipped => "SKIPPED"
  | ready => "READY"
  | running => "RUNNING"
  | done => "DONE"
  | failed => "FAILED"
  | aborted => "ABORTED"

/-- Whether a target stays in a state for the rest of the run. -/
def isFinal : TargetState → Bool
  | skipped | done | failed | aborted => true
  | pending | ready | running => false

/-- Whether the targets that depend on one in this state may run. -/
def isOk : TargetState → Bool
  | skipped | done => true
  | _ => false

theorem isFinal_of_isOk {s : TargetState} (ok : s.isOk = true) : s.isFinal = true := by
  cases s <;> simp_all [isOk, isFinal]

end TargetState

/-- The state of a target, with a remark. -/
structure TargetStatus where
  state : TargetState := .pending
  message : Option String := none
  deriving Repr, DecidableEq, Inhabited

namespace TargetStatus

/-- A remark in parentheses; an empty one is left out. -/
def remark : Option String → String
  | some message => if message.isEmpty then "" else s!" ({message})"
  | none => ""

/-- A status as reports show it. -/
def text (s : TargetStatus) : String := s.state.name ++ remark s.message

end TargetStatus
end BuildEngine
