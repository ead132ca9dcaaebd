import BuildEngine.Document.Element
import BuildEngine.Target.Graph

/-!
The document form of targets, of what becomes of them, and of target graphs.
-/

namespace BuildEngine

namespace TargetState

def named (name : String) : TargetState :=
  ([skipped, ready, running, done, failed, aborted].find? fun s => s.name == name).getD pending

end TargetState

/-- What a document tells about a state: whether dependents may run, and whether the target failed,
was aborted, was skipped, and came to an end. -/
def TargetState.traits (s : TargetState) : Value :=
  .ofFlags [s.isOk, s == .failed, s == .aborted, s == .skipped, s.isFinal]

def TargetStatus.toDocument (s : TargetStatus) : Value :=
  .list [.text s.state.name, .ofText? s.message]

namespace Target

def ofDocument (v : Value) : Target where
  name := (v.field "name").textOrEmpty
  depends := (v.field "depends").texts
  ifCondition := (v.field "if").text?
  unlessCondition := (v.field "unless").text?
  description := (v.field "description").text?
  location := .ofDocument (v.field "location")

/-- The document of a target, where its invocations have names. -/
def toDocument (nameOf : Invocation → String) (t : Target) : Value := .list [
  .text t.name, .ofTexts t.depends, .ofText? t.ifCondition, .ofText? t.unlessCondition,
  .ofText? t.description, .text t.location.text, .ofTexts (t.invocations.map nameOf)]

/-- What a document tells about a target of a graph. -/
def summary (t : Target) : Value :=
  .list [.text t.text, .ofTexts t.depends, .flag t.isRoot, .int t.invocations.length]

end Target

namespace TargetGraph

/-- What a document tells about a graph as a whole. -/
def summary (g : TargetGraph) : Value := .list [
  .int g.nodes.length, .flag !g.nodes.isEmpty, .ofTexts g.order, .flag g.isComplete,
  .ofSortedTexts g.names]

/-- The targets on which a target depends, those that depend on it, and all on which it depends over
others. -/
def neighbours (g : TargetGraph) (name : String) : Value :=
  .list ([g.dependencies name, g.dependents name, g.prerequisites name].map Value.ofSortedTexts)

/-- All targets, those that have not come to an end, those that failed, those that were not executed,
and those that failed and have not come to an end. -/
def selections (g : TargetGraph) : Value :=
  .list ([g.names, g.pending, g.failed, g.notExecuted, g.pending.filter g.failed.contains].map
    Value.ofTexts)

end TargetGraph
end BuildEngine
