import BuildEngine.Document.Value
import BuildEngine.Files.Disk

/-!
The document form of disks: what a directory holds at any depth, and what changed there.
-/

namespace BuildEngine.Disk

open BuildEngine.Number

/-- A disk with a file that a document describes: its content, or its content and its time. A file
that cannot be written is left out. -/
def withDocument (d : Disk) (path : Path) (v : Value) : Disk :=
  let data := (v.field? "data").getD v
  let written := match d.write path data.bytes with
    | .ok more => more
    | .error _ => d
  match (v.field "mtime").real? with
  | none => written
  | some time =>
    match written.touch path (some time) with
    | .ok more => more
    | .error _ => written

/-- The disk whose clock stands at a time, with a directory that holds the files which a document
describes under their names. -/
def ofDocument (now : Binary64) (directory : Path) (v : Value) : Disk :=
  let start : Disk := { now, here := directory }
  let made := match start.makeDirectories directory.names.length directory with
    | .ok d => d
    | .error _ => start
  v.fields.foldl (fun d entry => d.withDocument (directory.join (.ofString entry.1)) entry.2) made

/-- The document of what stands under a name: the name of a directory, or a file with its content and
its time. Times from some moment on are left out. -/
def entryDocument (limit : Binary64) (name : String) : DiskEntry → Value
  | .directory _ => .ofTexts [name]
  | .file data time =>
    .list [.text name, .ofBytes data, if time.lt limit then .text time.text else .nothing]

/-- The documents of all that a directory holds, sorted by their names. -/
def snapshot (d : Disk) (limit : Binary64) (directory : Path) : List (String × Value) :=
  let found := d.entries.entries.filterMap fun (place, entry) =>
    if directory.names.isPrefixOf place && place.length != directory.names.length then
      let name := "/".intercalate (place.drop directory.names.length)
      some (name, entryDocument limit name entry)
    else none
  found.mergeSort fun a b => decide (a.1 ≤ b.1)

/-- What a document tells about how a directory differs from what it was: the names and documents of
what is new or changed, and the names of what is gone. -/
def changes (before after : List (String × Value)) : List (String × Value) :=
  let changed := after.filter fun entry =>
    ((before.find? fun old => old.1 == entry.1).map (·.2.same entry.2)) != some true
  let removed := before.filter fun old => !after.any fun entry => entry.1 == old.1
  [("changed", .list (changed.map Prod.snd)), ("removed", .ofTexts (removed.map Prod.fst))]

end BuildEngine.Disk
