import BuildEngine.Problem

/-!
Faults: why an operation of a build ends without a result. A fault of the build description knows
its place; a fault of a target carries the fault that made it fail. An interruption is the one
fault that nothing in a build handles.
-/

namespace BuildEngine

open BuildEngine.Text

/-- A value that an attribute does not take. -/
structure Rejection where
  owner : String
  field : String
  expected : List String
  actual : String
  deriving Repr, DecidableEq, Inhabited

/-- The message about a value that an attribute does not take. -/
def Rejection.message (r : Rejection) : String :=
  let expected := " or ".intercalate r.expected
  s!"Property({r.owner}.{r.field}): expected {expected}, got {r.actual}"

/-- Why a kind cannot be registered under a name. -/
inductive RegistrationError where
  | noTask (name shown : String)
  | noKind (name shown : String)
  | isTask (kind : String)
  deriving Repr, DecidableEq, Inhabited

/-- The message about a kind that cannot be registered. -/
def RegistrationError.message : RegistrationError → String
  | noTask name shown => s!"expected a Task subclass for {quote name}, got {shown}"
  | noKind name shown => s!"expected a class for {quote name}, got {shown}"
  | isTask kind => s!"{kind} is a task and can not be registered as a type"

/-- Why an operation of a build ends without a result. -/
inductive Fault where
  /-- The build description is wrong. -/
  | configuration (problem : Problem) (location : Location)
  /-- The work of a task failed. -/
  | task (message : String) (location : Location)
  /-- A target failed. -/
  | build (target : String) (task : Option String) (cause : Fault)
  /-- An attribute is read that holds nothing: whose it is, its name, and what is said. -/
  | empty (owner : Option ObjectId) (field text : String)
  /-- An attribute does not take a value. -/
  | rejected (rejection : Rejection)
  /-- A kind leaves members to others, so it has no objects. -/
  | abstractKind (kind : String) (members : List String)
  /-- A declaration makes no kind. -/
  | kind (error : KindError)
  /-- A kind cannot be registered. -/
  | registration (error : RegistrationError)
  /-- No accepted type takes a text. -/
  | value (reason : String)
  /-- Bytes are no text. -/
  | undecodable (error : Utf8Error)
  /-- A path does not lie below another one. -/
  | outside (path base : Path)
  /-- A whole number of milliseconds is no time. -/
  | tooLarge
  /-- A file operation was refused. -/
  | file (error : FileError)
  /-- A graph lacks a target that it is asked for. -/
  | absentTarget (name : String)
  /-- A target that came to an end is given another status. -/
  | settledTarget (name state : String)
  /-- A child is attached a second time. -/
  | alreadyAttached
  | noProject
  /-- Calls lead to ever further calls. -/
  | tooDeep
  | crashed (message : String)
  | interrupted
  deriving Repr, Inhabited

namespace Fault

/-- The names of members in a message, the last one set off like the others. -/
def membersText (members : List String) : String :=
  (if members.length = 1 then "method " else "methods ") ++ ", ".intercalate members

/-- The message about a fault, with its place if that is known. -/
def message : Fault → String
  | configuration problem location => location.locate problem.message
  | task text location => location.locate text
  | build target (some name) cause =>
    if name.isEmpty then s!"target \"{target}\" failed: {cause.message}"
    else s!"task \"{name}\" of target \"{target}\" failed: {cause.message}"
  | build target none cause => s!"target \"{target}\" failed: {cause.message}"
  | empty _ _ text => text
  | rejected rejection => rejection.message
  | abstractKind name members =>
    s!"Can't instantiate abstract class {name} with abstract {membersText members}"
  | kind error => error.message
  | registration error => error.message
  | value reason => reason
  | undecodable error => error.message
  | outside path base =>
    s!"{quote path.text} is not in the subpath of {quote base.text} OR one path is relative " ++
      "and the other is absolute."
  | tooLarge => "integer division result too large for a float"
  | file error => error.message
  | absentTarget name => s!"no target {quote name} in the graph"
  | settledTarget name state => s!"target {quote name} already has a final status ({state})"
  | alreadyAttached => "child is already attached"
  | noProject => "no project loaded"
  | tooDeep => "maximum recursion depth exceeded"
  | crashed text => text
  | interrupted => ""

/-- The place of a fault. The place of a failed target is that of its cause. -/
def location : Fault → Location
  | configuration _ l | task _ l => l
  | build _ _ cause => cause.location
  | _ => .unknown

/-- Gives a fault of the build description a place, unless it has one. -/
def placed (l : Location) : Fault → Fault
  | configuration problem old => configuration problem (old.orElse l)
  | fault => fault

/-- Whether the fault is one of a build: of its description, a task or a target. -/
def isBuildFault : Fault → Bool
  | configuration .. | task .. | build .. => true
  | _ => false

/-- Whether a value or its type is at fault. -/
def isValueFault : Fault → Bool
  | rejected _ | abstractKind .. | kind _ | registration _ | value _ | undecodable _
  | outside .. => true
  | _ => false

end Fault

/-- A fault of the build description without a place. -/
def Problem.fault (p : Problem) : Fault := .configuration p .unknown

/-- A fault of the build description at a place. Of a place that is not known nothing is kept. -/
def Problem.faultAt (p : Problem) (l : Location) : Fault :=
  .configuration p (Location.unknown.orElse l)

/-- A failure of a task at its place. Of a place that is not known nothing is kept. -/
def Location.failure (l : Location) (message : String) : Fault :=
  .task message (Location.unknown.orElse l)

end BuildEngine
