import BuildEngine.Path
import BuildEngine.Number.Binary64
import BuildEngine.Text.Quoted

/-!
Access to files: what tasks may ask of a file system and what can go wrong. Paths are absolute and
times are seconds since the epoch. Listing a directory is sorted, and a walk gives what lies below
a directory, each directory after what it holds.
-/

namespace BuildEngine

open BuildEngine.Text BuildEngine.Number

/-- Failures that an operating system tells apart. -/
inductive SystemFailure where
  | noEntry | taken | notDirectory | isDirectory | notEmpty
  deriving Repr, DecidableEq, Inhabited

namespace SystemFailure

def number : SystemFailure → Nat
  | noEntry => 2
  | taken => 17
  | notDirectory => 20
  | isDirectory => 21
  | notEmpty => 39

/-- What a failure is called. -/
def text : SystemFailure → String
  | noEntry => "No such file or directory"
  | taken => "File exists"
  | notDirectory => "Not a directory"
  | isDirectory => "Is a directory"
  | notEmpty => "Directory not empty"

end SystemFailure

/-- Why a file system refuses an operation. -/
inductive FileError where
  /-- There is nothing at a path. -/
  | missing (path : Path)
  /-- A directory is wanted and there is none at a path. -/
  | noDirectory (path : Path)
  /-- A directory cannot be deleted because it holds something. -/
  | occupied (path : Path)
  /-- The operating system refuses. -/
  | system (failure : SystemFailure) (path : Path)
  deriving Repr, DecidableEq, Inhabited

/-- The message about a refused operation. -/
def FileError.message : FileError → String
  | missing path => path.text
  | noDirectory path => path.text
  | occupied path => s!"directory not empty: {path.text}"
  | system failure path => s!"[Errno {failure.number}] {failure.text}: {quote path.text}"

/-- States of a file system, with the operations on them. -/
class FileSystem (φ : Type) where
  contains : φ → Path → Bool
  isDirectory : φ → Path → Bool
  modified : φ → Path → Except FileError Binary64
  children : φ → Path → Except FileError (List Path)
  delete : φ → Path → Except FileError φ
  read : φ → Path → Except FileError ByteArray
  write : φ → Path → ByteArray → Except FileError φ
  /-- Makes a file if there is none and sets its time, to now if none is given. -/
  touch : φ → Path → Option Binary64 → Except FileError φ
  /-- A bound for the depth to which directories are nested. -/
  depth : φ → Nat

namespace FileSystem

variable {φ : Type} [FileSystem φ]

/-- What lies below a directory, down to a number of levels. -/
def walkTo (files : φ) : Nat → Path → Except FileError (List Path)
  | 0, _ => .ok []
  | level + 1, directory => do
    let found ← (← children files directory).mapM fun child => do
      if isDirectory files child then return (← walkTo files level child) ++ [child]
      else return [child]
    return found.flatten

/-- What lies below a directory, everything after what it holds. -/
def walk (files : φ) (directory : Path) : Except FileError (List Path) :=
  walkTo files (depth files) directory

end FileSystem
end BuildEngine
