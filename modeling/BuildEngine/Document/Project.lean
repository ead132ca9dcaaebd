import BuildEngine.Document.Element
import BuildEngine.Document.Kind
import BuildEngine.Document.Object
import BuildEngine.Document.Target
import BuildEngine.Run.Build
import BuildEngine.Run.Listing

/-!
The document form of projects and their properties, and of what happens in a run and becomes of
it.
-/

namespace BuildEngine

namespace Properties

/-- The document of the properties: name, value, and whether the user gave it. -/
def toDocument (p : Properties) : Value :=
  .list (p.toList.map fun (name, value) =>
    .list [.text name, .text value, .flag (p.isUser name)])

/-- What a document tells about the properties as a whole. -/
def summary (p : Properties) : Value :=
  .list [.int p.size, p.toDocument, .ofTextPairs p.userList, .text p.text]

end Properties

/-- What a document tells about an outcome: whether the task did its work, and which outcome it is. -/
def StatusType.traits (t : StatusType) : Value :=
  .ofFlags (t.isOk :: [.failed, .succeeded, .skipped, .upToDate, .warning].map fun u => t == u)

def TaskStatus.toDocument (s : TaskStatus) : Value := .list [.text s.type.name, .ofText? s.message]

/-- The document of something that happens in a run. -/
def Event.toDocument : Event → Value
  | beforeBuild _ order => .list [.text "before_build", .ofTexts order]
  | beforeTarget target => .ofTexts ["before_target", target]
  | beforeTask target _ task => .ofTexts ["before_task", target, task]
  | afterTask target _ task status =>
    .list [.text "after_task", .text target, .text task, .text status.type.name,
      .ofText? status.message]
  | afterTarget target status =>
    .list [.text "after_target", .text target, .text status.state.name, .ofText? status.message]
  | afterBuild complete _ => .list [.text "after_build", .flag complete]

def BuildResult.fields (r : BuildResult) : List (String × Value) := [
  ("outcome", .text r.outcome.name), ("message", .ofText? r.message),
  ("target", .ofText? r.target), ("task", .ofText? r.task), ("location", .text r.location.text),
  ("success", .flag (r.outcome == .success))]

/-- The observer that a document chooses for builds; `plainly` tells that there are no colours. -/
def Observer.ofDocument (v : Value) (plainly : Bool) : Observer :=
  match (v.field "observer").text? with
  | some "none" => .silent
  | some "print" => .reporter { style := { mark := ((v.field "prefix").text?).getD ">" } }
  | some "colored" => .reporter { style := .onTerminal plainly }
  | _ => .recorder

namespace World

variable {φ : Type} [FileSystem φ]

/-- What a document tells about the properties and the named objects of a project. -/
def stateFields (w : World φ) (id : ProjectId) : List (String × Value) :=
  let p := w.project id
  [("properties", p.properties.toDocument), ("references", .ofTexts p.references.objects.keys)]

/-- What a document tells about a project. -/
def projectFields (w : World φ) (id : ProjectId) : List (String × Value) :=
  let p := w.project id
  [("name", .text p.name), ("basedir", .text p.directory.text),
    ("default", .ofText? p.defaultTarget), ("description", .ofText? p.description),
    ("targets", .list (p.targets.values.map (Target.toDocument w.invocationName))),
    ("root", .ofTexts (p.root.invocations.map w.invocationName))] ++ w.stateFields id

/-- What a document tells about an invocation. -/
def invocationItems (w : World φ) (i : Invocation) : List Value := [
  .text (w.invocationText i), .text (w.invocationName i), .text (w.invocationLocation i).text,
  .flag i.configured]

/-- What a document tells about a project that is derived from another one, with which it may share
objects. -/
def derivedFields (w : World φ) (parent id : ProjectId) : List (String × Value) :=
  let p := w.project id
  let shared := p.references.objects.entries.filter fun (name, object) =>
    (w.project parent).references.get? name == some object
  w.projectFields id ++ [("shared", .ofTexts (shared.map Prod.fst)),
    ("halt", .flag p.haltOnFailure), ("repr", .text p.text)]

end World
end BuildEngine
