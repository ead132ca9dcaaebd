import BuildEngine.Files.Access
import BuildEngine.Table

/-!
Files in memory. The clock moves only when it is told to. Files are kept apart from directories;
writing a file makes the directories above it, and directories have no time of their own.
-/

namespace BuildEngine

open BuildEngine.Number

/-- The content of a file and the time at which it was last written. -/
structure StoredFile where
  data : ByteArray := .empty
  time : Binary64 := .zero
  deriving Inhabited

/-- A file system in memory. -/
structure MemoryFiles where
  now : Binary64 := .zero
  files : Table Path StoredFile := .empty
  directories : List Path := []

namespace MemoryFiles

instance : Inhabited MemoryFiles := ⟨{}⟩

/-- Adds a directory unless it is there. -/
def addDirectory (directories : List Path) (path : Path) : List Path :=
  if directories.contains path then directories else directories ++ [path]

/-- Makes the directories above a path. -/
def withParents (m : MemoryFiles) (path : Path) : MemoryFiles :=
  { m with directories := path.parents.foldl addDirectory m.directories }

def makeDirectory (m : MemoryFiles) (path : Path) : MemoryFiles :=
  { m with directories := addDirectory m.directories path }.withParents path

def isDirectory (m : MemoryFiles) (path : Path) : Bool := m.directories.contains path

/-- Whether there is a file or a directory at a path. -/
def contains (m : MemoryFiles) (path : Path) : Bool := m.files.contains path || m.isDirectory path

/-- The time of a file; directories are as old as can be. -/
def modified (m : MemoryFiles) (path : Path) : Except FileError Binary64 :=
  match m.files.find? path with
  | some file => .ok file.time
  | none => if m.isDirectory path then .ok .zero else .error (.missing path)

/-- All paths of files and directories, each once. -/
def paths (m : MemoryFiles) : List Path := (m.files.keys ++ m.directories).eraseDups

/-- What a directory holds, sorted. -/
def children (m : MemoryFiles) (path : Path) : Except FileError (List Path) :=
  if m.isDirectory path then
    .ok ((m.paths.filter fun p => p.parent == path && p != path).mergeSort Path.le)
  else .error (.noDirectory path)

/-- Deletes a file or an empty directory. -/
def delete (m : MemoryFiles) (path : Path) : Except FileError MemoryFiles :=
  if m.files.contains path then .ok { m with files := m.files.erase path }
  else
    match m.children path with
    | .error _ => .error (.missing path)
    | .ok [] => .ok { m with directories := m.directories.filter (· != path) }
    | .ok _ => .error (.occupied path)

/-- The content of a file. -/
def read (m : MemoryFiles) (path : Path) : Except FileError ByteArray :=
  match m.files.find? path with
  | some file => .ok file.data
  | none => .error (.missing path)

/-- Writes a file now, and makes the directories above it. -/
def write (m : MemoryFiles) (path : Path) (data : ByteArray) : MemoryFiles :=
  let prepared := m.withParents path
  { prepared with files := prepared.files.put path ⟨data, m.now⟩ }

/-- Sets the time of a file, which is made empty if there is none. -/
def touch (m : MemoryFiles) (path : Path) (time : Option Binary64) : MemoryFiles :=
  let prepared := m.withParents path
  let data := ((m.files.find? path).map (·.data)).getD .empty
  { prepared with files := prepared.files.put path ⟨data, time.getD m.now⟩ }

instance : FileSystem MemoryFiles where
  contains := contains
  isDirectory := isDirectory
  modified := modified
  children := children
  delete := delete
  read := read
  write m path data := .ok (m.write path data)
  touch m path time := .ok (m.touch path time)
  depth m := m.directories.length + 1

end MemoryFiles
end BuildEngine
