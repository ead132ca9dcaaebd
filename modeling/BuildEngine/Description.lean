import BuildEngine.Fault
import BuildEngine.Markup.Document

/-!
Build descriptions as texts and as files.
-/

namespace BuildEngine.Element

/-- Reads the text of a build description; the name of its file is only used for places. -/
def ofText (file : Option String) (text : String) : Except Fault Element :=
  (Markup.readElement file text.toUTF8).mapError fun flaw =>
    (Problem.malformedText flaw.detail).faultAt { file, line := some (flaw.line : Int) }

/-- Reads the file of a build description. -/
def ofFile {φ : Type} [FileSystem φ] (files : φ) (path : Path) : Except Fault Element := do
  let file := some path.text
  match FileSystem.read files path with
  | .error _ => throw (Problem.unreadableFile.faultAt { file })
  | .ok data =>
    (Markup.readElement file data).mapError fun flaw =>
      (Problem.malformedFile flaw.detail).faultAt { file, line := some (flaw.line : Int) }

end BuildEngine.Element
