import BuildEngine.DataType
import BuildEngine.Task.Basic
import BuildEngine.Text.Plural

/-!
Deleting files: a single file, a directory with all that it holds, or the files of lists together
with the directories that they leave empty. Each file that cannot be deleted is left to the failure
policy of the task, which is a parameter here.
-/

namespace BuildEngine.Engine

open BuildEngine.Text

variable {φ : Type} [FileSystem φ] (leave : Policy φ)

/-- What is deleted, in messages. -/
inductive Entry where
  | file
  | directory

/-- The word for what is deleted. -/
def Entry.text : Entry → String
  | file => "file"
  | directory => "directory"

def isDirectory (path : Path) : Engine φ Bool :=
  observe fun w => FileSystem.isDirectory w.files path

/-- Whether there is something at a path. -/
def isThere (path : Path) : Engine φ Bool := observe fun w => FileSystem.contains w.files path

/-- Deletes a file or an empty directory; the result tells whether that succeeded. -/
def deleteEntry (id : ObjectId) (path : Path) (entry : Entry) : Engine φ Bool := do
  let level := if ← flagOf id "verbose" then LogLevel.info else .debug
  logOf id level s!"Deleting {path.text}"
  match ← attempt (changeFiles fun files => FileSystem.delete files path) with
  | .ok () => return true
  | .error (.file error) => do
    leave id s!"Unable to delete {entry.text} {path.text}: {error.message}"
    return false
  | .error fault => throw fault

/-- What a path is at the moment. -/
def entryAt (path : Path) : Engine φ Entry := do
  return if ← isDirectory path then .directory else .file

/-- Deletes what lies below a directory, down to a number of levels. Directories are listed when
they are reached and deleted after what they hold. -/
def deleteBelow (id : ObjectId) : Nat → Path → Engine φ Unit
  | 0, _ => return ()
  | levels + 1, path => do
    for child in ← readFiles fun files => FileSystem.children files path do
      if ← isDirectory child then deleteBelow id levels child
      let _ ← deleteEntry leave id child (← entryAt child)

def deleteDirectory (id : ObjectId) (path : Path) : Engine φ Unit := do
  if !(← isDirectory path) then
    let absolute ← absolutePath path
    leave id s!"Directory {absolute.text} does not exist or is not a directory."
  else
    deleteBelow leave id (← observe fun w => FileSystem.depth w.files) path
    let _ ← deleteEntry leave id path .directory

/-- Deletes a file that is named directly. -/
def deleteFile (id : ObjectId) (path : Path) : Engine φ Unit := do
  if !(← isThere path) then
    let absolute ← absolutePath path
    leave id s!"Could not find file {absolute.text} to delete."
  else if ← isDirectory path then
    logOf id .info
      s!"Directory {path.text} cannot be removed using the file attribute. Use dir instead."
  else
    let _ ← deleteEntry leave id path .file

/-- The directories between a base and a path below it, nearest to the path first. -/
def directoriesBetween (base path : Path) : Except Fault (List Path) :=
  match path.relativeTo? base with
  | some rest => .ok ((rest.parents.filter (· != .here)).map base.join)
  | none => .error (.outside path base)

/-- Deletes directories that are empty; the result is the number of those that could be deleted. -/
def deleteEmpty (id : ObjectId) : List Path → Engine φ Nat
  | [] => return 0
  | path :: rest => do
    let isEmpty ←
      if ← isDirectory path then
        pure (← readFiles fun files => FileSystem.children files path).isEmpty
      else pure false
    let deleted ← if isEmpty then deleteEntry leave id path .directory else pure false
    return (if deleted then 1 else 0) + (← deleteEmpty id rest)

/-- Deletes files of a directory, and returns the directories that they lie in, in the order in
which they come up. -/
def deleteNamed (id : ObjectId) (base : Path) : List String → Engine φ (List Path)
  | [] => return []
  | name :: rest => do
    let path := base.join (.ofString name)
    if (← isThere path) && !(← isDirectory path) then
      let _ ← deleteEntry leave id path .file
    let above ← consult fun _ => directoriesBetween base path
    return (above ++ (← deleteNamed id base rest)).eraseDups

def deleteList (id list : ObjectId) : Engine φ Unit := do
  let base ← consult (·.listDirectory list)
  let names ← consult (·.listFiles list)
  let files := pluralize "file" names.length
  logOf id .info s!"Deleting {names.length} {files} from {base.text}"
  let directories ← deleteNamed leave id base names
  if ← flagOf id "includeemptydirs" then
    let deepestFirst := directories.mergeSort fun p q => decide (q.parts.length ≤ p.parts.length)
    let count ← deleteEmpty leave id deepestFirst
    if count != 0 then
      let noun := pluralize "directory" count (some "directories")
      logOf id .info s!"Deleted {count} {noun} from {base.text}"

/-- Deletes what a task names. A wrong list is left to the failure policy. -/
def delete (id : ObjectId) : Engine φ (Option TaskStatus) := do
  let lists ← partsOf id Standard.fileList
  let file ← isSet id "file"
  let directory ← isSet id "dir"
  if !file && !directory && lists.isEmpty then reject id .nothingToDelete
  checkPolicy id
  if file then deleteFile leave id (← pathOf id "file")
  if directory then deleteDirectory leave id (← pathOf id "dir")
  for list in lists do
    match ← attempt (deleteList leave id list) with
    | .ok () => pure ()
    | .error (.configuration problem _) => leave id problem.message
    | .error fault => throw fault
  return none

/-! The stages of `delete`, each as an action of its own. -/

section Stages

/-- Deletes the file that a task names itself, if it does. -/
def deleteGivenFile (id : ObjectId) (given : Bool) : Engine φ Unit := do
  if given then deleteFile leave id (← pathOf id "file")

/-- Deletes the directory that a task names itself, if it does. -/
def deleteGivenDirectory (id : ObjectId) (given : Bool) : Engine φ Unit := do
  if given then deleteDirectory leave id (← pathOf id "dir")

/-- Works on lists, one after another. A wrong list is left to the failure policy. -/
def deleteLists (id : ObjectId) (lists : List ObjectId) : Engine φ (Option TaskStatus) := do
  for list in lists do
    match ← attempt (deleteList leave id list) with
    | .ok () => pure ()
    | .error (.configuration problem _) => leave id problem.message
    | .error fault => throw fault
  return none

theorem delete_eq (id : ObjectId) : delete leave id = (do
    let lists ← partsOf id Standard.fileList
    let file ← isSet id "file"
    let directory ← isSet id "dir"
    rejectIf id (!file && !directory && lists.isEmpty) .nothingToDelete
    checkPolicy id
    deleteGivenFile leave id file
    deleteGivenDirectory leave id directory
    deleteLists leave id lists) := by
  unfold delete
  refine bind_congr fun lists => bind_congr fun file => bind_congr fun directory => ?_
  extract_lets ofLists ofDirectory ofFile
  have directories : ofDirectory =
      fun _ => deleteGivenDirectory leave id directory >>= fun _ => deleteLists leave id lists := by
    funext _
    unfold ofDirectory deleteGivenDirectory
    cases directory
    · rfl
    · exact (bind_assoc (pathOf id "dir") _ _).symm
  have files : ofFile = fun _ => checkPolicy id >>= fun _ =>
      deleteGivenFile leave id file >>= ofDirectory := by
    funext _
    unfold ofFile deleteGivenFile
    refine bind_congr fun _ => ?_
    cases file
    · rfl
    · exact (bind_assoc (pathOf id "file") _ _).symm
  rw [← rejectIf_bind, files, directories]

end Stages

end BuildEngine.Engine
