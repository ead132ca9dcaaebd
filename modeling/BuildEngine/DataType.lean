import BuildEngine.Engine
import BuildEngine.Mapper
import BuildEngine.Text.Letter
import BuildEngine.Text.Lines

/-!
The data types whose objects stand for something else: a list of locations, a list of files, or a
mapper of names.
-/

namespace BuildEngine

open BuildEngine.Text

/-! ### Lists of locations

The locations of a path are what its elements contribute, in the order in which they were declared,
each location once. A path that is a reference contributes what it refers to; a path that
comes to itself again is rejected with the chain of names that led there. -/

/-- Puts a single letter together with the location behind it, as it names a drive. -/
def joinDrives : List (List Char) → List (List Char)
  | [c] :: next :: rest =>
    if isLetter c && (next.head?).all (fun d => d == '\\' || d == '/') then
      (c :: ':' :: next) :: joinDrives rest
    else [c] :: joinDrives (next :: rest)
  | piece :: rest => piece :: joinDrives rest
  | [] => []
  termination_by pieces => pieces.length

/-- The locations in a text with colons or semicolons between them, without blanks around them. -/
def splitLocations (text : String) : List String :=
  let pieces := (splitOn (· == ';') text.toList).flatMap fun chunk =>
    joinDrives (splitOn (· == ':') chunk)
  ((pieces.map trimChars).filter (!·.isEmpty)).map String.ofList

namespace World

variable {φ : Type}

/-- The locations that the attributes of an object name. -/
def ownLocations (w : World φ) (id : ObjectId) : Except Fault (List Path) := do
  let single ← if w.isSet id "location_" then (w.readPath id "location_").map ([·]) else pure []
  if w.isSet id "path" then
    let project := w.project (w.object id).project
    return single ++ (splitLocations (← w.readText id "path")).map project.resolveFile
  return single

/-- What a path is called in a chain of them: the name that it refers to, or its element. -/
def chainName (w : World φ) (id : ObjectId) : String :=
  match (w.object id).reference with
  | some r => if r.id.isEmpty then w.describe id else r.id
  | none => w.describe id

/-- The locations of a path, over a number of levels; `passed` holds the paths that led to it and
`names` what they are called. No path comes twice, so there are never more levels than objects. -/
def locationsOf (w : World φ) :
    Nat → (passed : List ObjectId) → (names : List String) → ObjectId → Except Fault (List Path)
  | 0, _, _, _ => .ok []
  | levels + 1, passed, names, id => do
    let path ← w.target id
    let names := names ++ [w.chainName id]
    if passed.contains path then
      throw ((Problem.reference (.cycle names)).faultAt (w.object id).location)
    let own ← w.ownLocations path
    let nested ← (w.object path).parts.mapM fun part =>
      if w.isA part Standard.pathList then locationsOf w levels (passed ++ [path]) names part
      else w.ownLocations part
    return own ++ nested.flatten

def locations (w : World φ) (id : ObjectId) : Except Fault (List Path) :=
  (w.locationsOf (w.objects.length + 2) [] [] id).map List.eraseDups

/-! ### Lists of files

A directory and the names of files in it, which need not be there. The names come from an attribute,
from nested elements and from the lines of a file. -/

def listDirectory (w : World φ) (id : ObjectId) : Except Fault Path := do
  let list ← w.target id
  if !w.isSet list "dir" then throw (Problem.noDirectory.faultAt (w.object list).location)
  w.readPath list "dir"

/-- The names in a file that lists them one a line; property references in them are replaced. -/
def listedNames [FileSystem φ] (w : World φ) (list : ObjectId) (path : Path) :
    Except Fault (List String) := do
  let o := w.object list
  match FileSystem.read w.files path with
  | .error error => throw ((Problem.unreadableList path error.message).faultAt o.location)
  | .ok data =>
    let text ← (decodeUtf8 data).mapError .undecodable
    let kept := (lines text).filter fun line => !allBlank line
    return kept.map fun line => (w.project o.project).properties.resolve (trim line)

def listFiles [FileSystem φ] (w : World φ) (id : ObjectId) : Except Fault (List String) := do
  let list ← w.target id
  let _ ← w.listDirectory list
  let given ←
    if w.isSet list "files" then
      (w.readText list "files").map (fields fun c => c == ',' || isBlank c)
    else pure []
  let nested ← (w.object list).parts.mapM fun part => w.readText part "name_"
  let listed ←
    if w.isSet list "listfile" then w.listedNames list (← w.readPath list "listfile") else pure []
  let names := given ++ nested ++ listed
  if names.isEmpty then throw (Problem.noFiles.faultAt (w.object list).location)
  return names

/-! ### Mappers of names -/

/-- The mapper that a declared one stands for. -/
def mapper (w : World φ) (id : ObjectId) : Except Fault Mapper := do
  let m ← w.target id
  let location := (w.object m).location
  if !w.isSet m "type_" then throw (Problem.mapperType.faultAt location)
  let type ← (w.read m "type_").map (Value.meant w.shown)
  match type with
  | "identity" => return .identity
  | "flatten" => return .flatten
  | _ =>
    if !w.isSet m "to" then throw ((Problem.mapperTo type).faultAt location)
    let derived ← w.readText m "to"
    if type == "merge" then return .merge derived
    if !w.isSet m "from_" then throw ((Problem.mapperFrom type).faultAt location)
    let source ← w.readText m "from_"
    let caseSensitive ← w.readFlag m "casesensitive"
    let made :=
      if type == "glob" then Mapper.ofGlob source derived caseSensitive
      else Mapper.ofRegexp source derived caseSensitive
    made.mapError fun problem => problem.faultAt location

end World
end BuildEngine
