import BuildEngine.Document.Value
import BuildEngine.Files.Memory

/-!
The document form of files in memory. A file is described by its path and its content or its time
or both; a directory by its path alone.
-/

namespace BuildEngine.MemoryFiles

/-- Adds the file or the directory that a document describes. -/
def addDocument (m : MemoryFiles) (v : Value) : MemoryFiles :=
  match v.field? "dir" with
  | some directory => m.makeDirectory (.ofString directory.textOrEmpty)
  | none =>
    let path := Path.ofString (v.field "path").textOrEmpty
    let data := v.field "data"
    let written := if data.isNothing then m else m.write path data.bytes
    match (v.field "mtime").real? with
    | some time => written.touch path (some time)
    | none => if data.isNothing then m.touch path none else written

/-- The files that documents describe, at a moment. -/
def ofDocuments (now : Value) (files : List Value) : MemoryFiles :=
  files.foldl addDocument { now := now.real?.getD .zero }

/-- The files with their content and their time, sorted by their paths. -/
def fileDocuments (m : MemoryFiles) : Value :=
  let shown := m.files.entries.map fun (path, file) =>
    (path.text, Value.list [.text path.text, .ofBytes file.data, .text file.time.text])
  .list ((shown.mergeSort fun a b => decide (a.1 ≤ b.1)).map Prod.snd)

def toDocument (m : MemoryFiles) : Value :=
  let directories := (m.directories.map Path.text).mergeSort fun a b => decide (a ≤ b)
  .record [("files", m.fileDocuments), ("dirs", .ofTexts directories)]

end BuildEngine.MemoryFiles
