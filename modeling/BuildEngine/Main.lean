import BuildEngine.CommandLine.Tool
import BuildEngine.Files.Disk

/-!
The program: the files below the working directory are read, the build tool runs on them, and what it
changed is written back. A file that is written gets the time at which that is done, also if a
task asked for another one.
-/

namespace BuildEngine.CommandLine

open BuildEngine.Number

def secondsOf (time : IO.FS.SystemTime) : Binary64 :=
  let nanoseconds := time.sec * 1000000000 + time.nsec.toNat
  .ofRatio (decide (nanoseconds < 0)) nanoseconds.natAbs 1000000000

/-- The time at which a new file is made. -/
def currentTime : IO Binary64 := do
  let (_, path) ← IO.FS.createTempFile
  let time := (← path.metadata).modified
  IO.FS.removeFile path
  return secondsOf time

/-- A disk with what stands under an entry of a directory, as far as it can be read. -/
partial def withEntry (directory : DiskPlace) (d : Disk) (entry : IO.FS.DirEntry) : IO Disk :=
  tryCatch
    (do
      let place := directory ++ [entry.fileName]
      let time := secondsOf (← entry.path.metadata).modified
      if ← entry.path.isDir then
        let more := { d with entries := d.entries.put place (.directory time) }
        (← entry.path.readDir).foldlM (withEntry place) more
      else
        let data ← IO.FS.readBinFile entry.path
        return { d with entries := d.entries.put place (.file data time) })
    fun _ => return d

/-- The disk on which there is what stands below the working directory. -/
def readDisk : IO Disk := do
  let directory ← IO.currentDir
  let here := Path.ofString directory.toString
  let empty : Disk := { now := ← currentTime, here }
  let d := match empty.makeDirectories here.names.length here with
    | .ok more => more
    | .error _ => empty
  (← directory.readDir).foldlM (withEntry here.names) d

def placeText (place : DiskPlace) : String := "/" ++ "/".intercalate place

/-- Whether two entries are of the same sort. -/
def sameSort : DiskEntry → DiskEntry → Bool
  | .file .., .file .. | .directory _, .directory _ => true
  | _, _ => false

/-- Whether an entry need not be written where there is another one. -/
def isKept : DiskEntry → DiskEntry → Bool
  | .file data time, .file other since => data == other && time.same since
  | .directory _, .directory _ => true
  | _, _ => false

/-- Takes away what is not on a disk any more, what stands deepest first. -/
def removeOld (before after : Disk) : IO Unit := do
  let gone := before.entries.entries.filter fun (place, entry) =>
    !(after.entries.find? place).any (sameSort entry)
  for (place, entry) in gone.mergeSort fun a b => decide (b.1.length ≤ a.1.length) do
    match entry with
    | .file .. => IO.FS.removeFile (placeText place)
    | .directory _ => IO.FS.removeDir (placeText place)

def writeNew (before after : Disk) : IO Unit := do
  for (place, entry) in after.entries.entries do
    if !(before.entries.find? place).any (isKept entry) then
      match entry with
      | .directory _ => IO.FS.createDirAll (placeText place)
      | .file data _ => do
        IO.FS.createDirAll (placeText place.dropLast)
        IO.FS.writeBinFile (placeText place) data

/-- The number with which a program ends that has a status. -/
def exitCode (status : Value) : UInt32 :=
  match status.integer? with
  | some n => (n % 256).toNat.toUInt32
  | none => 1

end BuildEngine.CommandLine

open BuildEngine CommandLine in
/-- Runs the build tool on the arguments of the program. -/
def main (args : List String) : IO UInt32 := do
  let output ← IO.getStdout
  let errors ← IO.getStderr
  let before ← readDisk
  let outcome := CommandLine.run (!(← output.isTty)) before.here before args
  removeOld before outcome.files
  writeNew before outcome.files
  output.putStr outcome.printed
  errors.putStr outcome.errors
  for record in outcome.logged do
    errors.putStrLn s!"{record.level.name} {record.logger}: {record.message}"
  return exitCode outcome.status
