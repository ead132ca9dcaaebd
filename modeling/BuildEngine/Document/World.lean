import BuildEngine.Description
import BuildEngine.Document.Files
import BuildEngine.Document.Project

/-!
The document form of what a build starts from: its world, its project, its build description, and
what a project hands down.
-/

namespace BuildEngine

/-- The world that a document describes: the files, and how the build is to be run. The standard
tasks and types are registered. -/
def World.ofDocument (v : Value) : World MemoryFiles where
  files := .ofDocuments (v.field "now") (v.field "files").items
  registry := Registry.addStandard {}
  implicitBooleans := (v.field "implicit_booleans").isTrue
  keepGoing := (v.field "keep_going").isTrue

/-- What a document tells about a run: what was printed, what happened, and how it left the project
and the files. -/
def World.runFields (w : World MemoryFiles) (project : Option ProjectId) : List (String × Value) :=
  (if w.printed.isEmpty then [] else [("stdout", .text w.printed)]) ++
    [("events", .list (w.events.toList.map Event.toDocument))] ++
    project.elim [] w.stateFields ++ [("files", w.files.fileDocuments)]

/-- The directory that documents leave out. -/
def Project.usualDirectory : String := "/work"

/-- The project that a document describes by its directory, its name and its properties. -/
def Project.ofDocument (v : Value) : Project where
  directory := .ofString ((v.field "basedir").text?.getD usualDirectory)
  name := (v.field "project").textOrEmpty
  properties := (v.field "properties").textFields.foldl
    (fun p entry => (p.set entry.1 entry.2).2) {}

/-- The build description that a document holds as a text, with the name of a file, or as an
element. -/
def Element.ofDescription (v : Value) : Except Fault Element :=
  match v.field? "xml" with
  | some text => ofText ((v.field? "filename").elim (some "<string>") Value.text?) text.textOrEmpty
  | none => .ok (.ofDocument (v.field "element"))

/-- What a document wants to have handed down. -/
def Inheritance.ofDocument (v : Value) : Inheritance where
  allProperties := v.allows "inherit_all"
  allReferences := (v.field "inherit_refs").isTrue
  overrides := (v.field "overrides").textFields
  references := (v.field "references").textFields

def Registry.toDocument (nameOf : KindId → String) (r : Registry) : Value :=
  let pairs := fun (t : Table String KindId) =>
    Value.ofTextPairs ((t.entries.mergeSort fun a b => decide (a.1 ≤ b.1)).map fun entry =>
      (entry.1, nameOf entry.2))
  .list [.text r.text, pairs r.tasks, pairs r.types]

end BuildEngine
