import BuildEngine.Project
import BuildEngine.Text.Colour

/-!
Listings: the targets of a project with their descriptions, for readers. The names stand in a
column of their own, and the default target stands out.
-/

namespace BuildEngine

open BuildEngine.Text

def withoutTrailingBlanks (s : String) : String :=
  String.ofList (s.toList.reverse.dropWhile isBlank).reverse

namespace Project

/-- The line of a target in a listing, where names are padded to a width. -/
def listingLine (p : Project) (plainly : Bool) (width : Nat) (t : Target) : String :=
  let padded := t.name.pushn ' ' (width - t.name.length)
  let name := if p.defaultTarget == some t.name then coloured plainly padded (some .green) [.bold]
    else padded
  let description := t.description.getD ""
  withoutTrailingBlanks s!"  {name}  {description}"

def targetLines (p : Project) (plainly : Bool) : List String :=
  let targets := p.targets.values
  let width := (targets.map fun t => t.name.length).foldl max 0
  let sorted := targets.mergeSort fun a b => decide (a.name ≤ b.name)
  if targets.isEmpty then ["  no targets"]
  else
    let closing := match p.defaultTarget with
      | none => []
      | some name =>
        let marked := coloured plainly name none [.bold]
        ["", s!"Default target: {marked}"]
    sorted.map (p.listingLine plainly width) ++ closing

/-- The listing of a project, on a terminal that may show colours or not. -/
def listing (p : Project) (plainly : Bool) : String :=
  let caption := if p.name.isEmpty then "the project" else p.name
  let title := coloured plainly s!"Targets of {caption}" (some .blue) [.bold, .underlined]
  String.join ((["", title, ""] ++ p.targetLines plainly).map (· ++ "\n"))

end Project
end BuildEngine
