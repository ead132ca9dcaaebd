import BuildEngine.CommandLine.Tool
import BuildEngine.Document.Fault

/-!
The document form of how the build tool ends.
-/

namespace BuildEngine.CommandLine

def Ending.ofDocument (v : Value) : Ending :=
  match (v.field "kind").textOrEmpty with
  | "exit" => .status (v.field "code")
  | "interrupt" => .fault .interrupted
  | "config" => .fault (.ofDocument v)
  | _ => .fault (.crashed (v.field "message").textOrEmpty)

def LastWords.toDocument (w : LastWords) : Value := .record [
  ("code", w.status), ("stdout", .text ""), ("stderr", .text w.errors),
  ("logs", .list (w.logged.map LogRecord.toDocument))]

/-- What a document tells about how much is logged. -/
def Verbosity.toDocument (v : Verbosity) : Value :=
  .list [.int v.more, .int v.less, .int v.level.weight]

/-- What a document tells about the outcome of a run. -/
def Outcome.fields {φ : Type} (o : Outcome φ) : List (String × Value) := [
  ("code", o.status), ("level", .list (o.level.toList.map fun l => .int l.weight)),
  ("stdout", .text o.printed), ("stderr", .text o.errors)]

end BuildEngine.CommandLine
