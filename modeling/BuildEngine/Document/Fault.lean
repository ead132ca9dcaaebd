import BuildEngine.Document.Element
import BuildEngine.World

/-!
The document form of faults and of log messages.
-/

namespace BuildEngine

namespace Fault

/-- The fault that a document describes: its kind, what is said, the names that it is about and its
place; or else the place that it is given afterwards. -/
def ofDocument (v : Value) : Fault :=
  let location := Location.ofDocument (v.field "location")
  let names := (v.field "names").texts
  let message := (v.field "message").textOrEmpty
  let fault := match (v.field "kind").textOrEmpty with
    | "task" => location.failure message
    | "dependency_cycle" => (Problem.dependencyCycle names).faultAt location
    | "reference_cycle" => (Problem.reference (.cycle names)).faultAt location
    | _ => (Problem.stated message).faultAt location
  match v.field? "with_location" with
  | some place => fault.placed (.ofDocument place)
  | none => fault

/-- What a document tells about a fault, and about the failure of a target and a task that it
causes. -/
def fields (fault : Fault) (target task : Option String) : List (String × Value) :=
  let failure := match target with
    | some name =>
      let failure := Fault.build name task fault
      [("build_error", Value.text failure.message), ("build_location", .text failure.location.text)]
    | none => []
  [("text", .text fault.message), ("location", .text fault.location.text),
    ("known", .flag fault.location.isKnown)] ++ failure

/-- The names in a circle that is at fault, under what the circle is made of. -/
def details : Fault → List (String × Value)
  | configuration (.dependencyCycle names) _ => [("cycle", .ofTexts names)]
  | configuration (.reference (.cycle names)) _ => [("chain", .ofTexts names)]
  | _ => []

end Fault

def LogRecord.toDocument (r : LogRecord) : Value := .ofTexts [r.level.name, r.logger, r.message]

end BuildEngine
