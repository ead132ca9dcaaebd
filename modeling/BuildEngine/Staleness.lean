import BuildEngine.Fault
import BuildEngine.Mapper

/-!
Staleness: whether derived files are as new as their sources. A derived file is current if it is
there and was written at the time of its source or later.
-/

namespace BuildEngine.Staleness

open BuildEngine.Number

variable {φ : Type} [FileSystem φ]

/-- A file operation whose refusal is a fault. -/
def ask {α : Type} (answer : Except FileError α) : Except Fault α := answer.mapError .file

/-- The path of a source, which has to be there. -/
def sourcePath (files : φ) (base : Option Path) (name : Path) : Except Fault Path :=
  let path := (base.map (·.join name)).getD name
  if FileSystem.contains files path then .ok path else .error (Problem.missingSource path).fault

/-- Whether a derived file is missing or older than its source. -/
def isOlder (files : φ) (derived source : Path) : Except Fault Bool := do
  if !FileSystem.contains files derived then return true
  let written ← ask (FileSystem.modified files derived)
  return written.lt (← ask (FileSystem.modified files source))

/-- Whether some of several derived files is missing or older than its source. -/
def isAnyOlder (files : φ) (source : Path) : List Path → Except Fault Bool
  | [] => .ok false
  | derived :: rest => do
    if ← isOlder files derived source then return true
    isAnyOlder files source rest

/-- The sources that are newer than something that is derived from them. Derived names are seen
from the destination, or from the base if there is none. -/
def staleSources (files : φ) (mapper : Mapper) (base destination : Option Path) :
    List Path → Except Fault (List Path)
  | [] => .ok []
  | name :: rest => do
    let source ← sourcePath files base name
    let root := destination.or base
    let derived := (mapper.map name.text).map fun other =>
      (root.map (·.join (.ofString other))).getD (.ofString other)
    let stale ← isAnyOlder files source derived
    let others ← staleSources files mapper base destination rest
    return if stale then source :: others else others

def isAnyNewer (files : φ) (time : Binary64) : List Path → Except Fault Bool
  | [] => .ok false
  | source :: rest => do
    if time.lt (← ask (FileSystem.modified files source)) then return true
    isAnyNewer files time rest

/-- The complaint when there is nothing to compare sources with. -/
def nothingDerived : String := "a target file or a mapper is required"

/-- Whether what is derived from sources is current: a single file, or all that a mapper names. -/
def isUpToDate (files : φ) (derived : Option Path) (mapper : Option Mapper) (base : Option Path)
    (sources : List Path) : Except Fault Bool :=
  match mapper, derived with
  | some mapper, _ => (staleSources files mapper base none sources).map (·.isEmpty)
  | none, none => .error (.value nothingDerived)
  | none, some derived => do
    if !FileSystem.contains files derived then return false
    let paths ← sources.mapM (sourcePath files base)
    let time ← ask (FileSystem.modified files derived)
    return !(← isAnyNewer files time paths)

end BuildEngine.Staleness
