import BuildEngine.Pattern.Reader
import BuildEngine.Problem

/-!
Mappers: rules by which the name of a source file gives the names of the files that are derived
from it. A mapper that does not apply to a name gives no names.
-/

namespace BuildEngine

open BuildEngine.Text

/-- A pattern with at most one star, as the texts around the star; without a star there is only
the text in front. -/
structure StarPattern where
  before : String
  after : String
  hasStar : Bool
  deriving Repr, DecidableEq, Inhabited

namespace StarPattern

/-- Reads a pattern, unless it has several stars. -/
def ofString? (s : String) : Option StarPattern :=
  match splitOn (· == '*') s.toList with
  | [before] => some ⟨String.ofList before, "", false⟩
  | [before, after] => some ⟨String.ofList before, String.ofList after, true⟩
  | _ => none

end StarPattern

/-- A rule that maps file names. -/
inductive Mapper where
  | identity
  /-- Drops the directories. -/
  | flatten
  /-- Maps all names to one. -/
  | merge (name : String)
  | glob (source derived : StarPattern) (caseSensitive : Bool)
  | regexp (pattern : Pattern) (template : String)
  deriving Repr, Inhabited

namespace Mapper

/-- The mapper of a pattern with a star. -/
def ofGlob (source derived : String) (caseSensitive : Bool) : Except Problem Mapper :=
  match StarPattern.ofString? source, StarPattern.ofString? derived with
  | some source, some derived => .ok (.glob source derived caseSensitive)
  | _, _ => .error .globStars

/-- The mapper of a regular expression. -/
def ofRegexp (source template : String) (caseSensitive : Bool) : Except Problem Mapper :=
  match Pattern.ofString source !caseSensitive with
  | .ok pattern => .ok (.regexp pattern template)
  | .error error => .error (.badPattern source (error.message source))

/-- A name without its directories; both kinds of slashes separate them. -/
def lastName (name : String) : String :=
  String.ofList ((splitOn (fun c => c == '/' || c == '\\') name.toList).getLast?.getD [])

def isMatch (source : StarPattern) (caseSensitive : Bool) (name : String) : Bool :=
  let form := fun (s : String) => (if caseSensitive then s else lower s).toList
  let (name, before, after) := (form name, form source.before, form source.after)
  if source.hasStar then
    decide (before.length + after.length ≤ name.length) && before.isPrefixOf name &&
      after.isSuffixOf name
  else name == before

/-- The part of a name between two positions; a stop before the first character counts from the
end. -/
def slice (name : List Char) (start : Nat) (stop : Int) : List Char :=
  let last := if stop < 0 then (name.length + stop).toNat else stop.toNat
  (name.take last).drop start

/-- What a pattern with a star maps a name to. What stands for the star is cut out by the lengths
of the texts around the star as they were written. -/
def globbed (source derived : StarPattern) (name : String) : String :=
  if source.hasStar && derived.hasStar then
    let stop : Int := name.length - source.after.length
    derived.before ++ String.ofList (slice name.toList source.before.length stop) ++ derived.after
  else if derived.hasStar then s!"{derived.before}*{derived.after}"
  else derived.before

/-- A template in which a backslash with a digit stands for what a group matched. -/
def filled (found : Match) : List Char → List Char
  | '\\' :: c :: rest =>
    match digitValue? c with
    | some index => ((found.group? index).getD "").toList ++ filled found rest
    | none => '\\' :: filled found (c :: rest)
  | c :: rest => c :: filled found rest
  | [] => []
  termination_by cs => cs.length

def map (m : Mapper) (name : String) : List String :=
  match m with
  | identity => [name]
  | flatten => [lastName name]
  | merge only => [only]
  | glob source derived caseSensitive =>
    if isMatch source caseSensitive name then [globbed source derived name] else []
  | regexp pattern template =>
    match pattern.search name with
    | some found => [String.ofList (filled found template.toList)]
    | none => []

end Mapper
end BuildEngine
