import BuildEngine.Files.Access
import BuildEngine.Table

/-!
Files on a disk: a tree of directories with the rules of an operating system. Each step of a path
has to lead through a directory, and two points lead back to the one above. The clock stands still.
-/

namespace BuildEngine

open BuildEngine.Number

/-- What is at a place of a disk. -/
inductive DiskEntry where
  | file (data : ByteArray) (time : Binary64)
  | directory (time : Binary64)

namespace DiskEntry

/-- When something was last written. -/
def time : DiskEntry → Binary64
  | file _ time | directory time => time

/-- The same with another time. -/
def withTime (time : Binary64) : DiskEntry → DiskEntry
  | file data _ => file data time
  | directory _ => directory time

end DiskEntry

/-- A place of a disk: the names that lead there from the root. -/
abbrev DiskPlace := List String

/-- A disk. The root is always a directory. -/
structure Disk where
  now : Binary64
  /-- The directory from which relative paths are seen. -/
  here : Path := .top
  entries : Table DiskPlace DiskEntry := .empty

namespace Disk

instance : Inhabited Disk := ⟨{ now := .zero }⟩

def entry? (d : Disk) (place : DiskPlace) : Option DiskEntry :=
  match place, d.entries.find? place with
  | _, some entry => some entry
  | [], none => some (.directory d.now)
  | _ :: _, none => none

def follow (d : Disk) (start : DiskPlace) : List String → Except SystemFailure DiskPlace
  | [] => .ok start
  | name :: rest =>
    match d.entry? start with
    | some (.directory _) =>
      if name == ".." then d.follow start.dropLast rest
      else if (d.entry? (start ++ [name])).isSome then d.follow (start ++ [name]) rest
      else .error .noEntry
    | some (.file ..) => .error .notDirectory
    | none => .error .noEntry

def find (d : Disk) (path : Path) : Except FileError DiskPlace :=
  (d.follow [] (d.here.join path).names).mapError fun failure => .system failure path

def entry (d : Disk) (path : Path) : Except FileError DiskEntry := do
  match d.entry? (← d.find path) with
  | some entry => return entry
  | none => throw (.system .noEntry path)

/-- The place of a path at which there may be nothing yet, but which lies in a directory. -/
def findNew (d : Disk) (path : Path) : Except FileError DiskPlace := do
  let full := d.here.join path
  match full.names.getLast? with
  | none => return []
  | some name =>
    if name == ".." then d.find path
    else
      let above ← (d.follow [] full.names.dropLast).mapError fun failure => .system failure path
      match d.entry? above with
      | some (.directory _) => return above ++ [name]
      | _ => throw (.system .notDirectory path)

/-- Whether there is something at a path. -/
def contains (d : Disk) (path : Path) : Bool := (d.entry path).isOk

def isDirectory (d : Disk) (path : Path) : Bool :=
  match d.entry path with
  | .ok (.directory _) => true
  | _ => false

/-- Puts something at a place, which changes the directory that holds it. -/
def put (d : Disk) (place : DiskPlace) (entry : DiskEntry) : Disk :=
  let above := place.dropLast
  let entries :=
    if d.entries.contains place || place.isEmpty then d.entries
    else d.entries.put above (.directory d.now)
  { d with entries := entries.put place entry }

/-- The time of what is at a path. -/
def modified (d : Disk) (path : Path) : Except FileError Binary64 := do
  return (← d.entry path).time

def namesIn (d : Disk) (place : DiskPlace) : List String :=
  d.entries.keys.filterMap fun key =>
    if key.dropLast == place && key != place then key.getLast? else none

/-- What a directory holds, sorted. -/
def children (d : Disk) (path : Path) : Except FileError (List Path) := do
  let place ← d.find path
  match d.entry? place with
  | some (.directory _) =>
    return ((d.namesIn place).map fun name => path.join ⟨.relative, [name]⟩).mergeSort Path.le
  | _ => throw (.system .notDirectory path)

/-- Deletes a file or an empty directory. -/
def delete (d : Disk) (path : Path) : Except FileError Disk := do
  let place ← d.find path
  if !(d.namesIn place).isEmpty then throw (.system .notEmpty path)
  let entries := (d.entries.erase place).put place.dropLast (.directory d.now)
  return { d with entries }

/-- The content of a file. -/
def read (d : Disk) (path : Path) : Except FileError ByteArray := do
  match ← d.entry path with
  | .file data _ => return data
  | .directory _ => throw (.system .isDirectory path)

def makeDirectory (d : Disk) (path : Path) : Except FileError Disk := do
  let place ← d.findNew path
  if (d.entry? place).isSome then throw (.system .taken path)
  return d.put place (.directory d.now)

/-- Makes a directory and those above it, over a number of levels, unless it is there. -/
def makeDirectories (d : Disk) : Nat → Path → Except FileError Disk
  | levels, path =>
    match levels, d.makeDirectory path with
    | _, .ok more => .ok more
    | above + 1, .error (.system .noEntry _) => do
      let more ← d.makeDirectories above path.parent
      match more.makeDirectory path with
      | .ok made => return made
      | .error error => if more.isDirectory path then return more else throw error
    | _, .error error => if d.isDirectory path then .ok d else .error error

/-- Makes the directories above a path. -/
def withParents (d : Disk) (path : Path) : Except FileError Disk :=
  d.makeDirectories (path.names.length + 1) path.parent

def writeFile (d : Disk) (path : Path) (data : ByteArray) : Except FileError Disk := do
  let place ← d.findNew path
  match d.entry? place with
  | some (.directory _) => throw (.system .isDirectory path)
  | _ => return d.put place (.file data d.now)

/-- Writes a file now, and makes the directories above it. -/
def write (d : Disk) (path : Path) (data : ByteArray) : Except FileError Disk := do
  (← d.withParents path).writeFile path data

/-- Sets the time of what is at a path; if there is nothing, an empty file is made. -/
def touch (d : Disk) (path : Path) (time : Option Binary64) : Except FileError Disk := do
  let d ← d.withParents path
  let place ← d.findNew path
  let entry := (d.entry? place).getD (.file .empty d.now)
  return d.put place (entry.withTime (time.getD d.now))

/-- The number of directories, which bounds how deep they are nested. -/
def depth (d : Disk) : Nat := d.entries.size + 1

instance : FileSystem Disk where
  contains := contains
  isDirectory := isDirectory
  modified := modified
  children := children
  delete := delete
  read := read
  write := write
  touch := touch
  depth := depth

end Disk
end BuildEngine
