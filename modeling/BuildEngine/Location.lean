/-!
Places in a build description that messages point to.
-/

namespace BuildEngine

/-- A place in a build description; each part may be unknown. -/
structure Location where
  file : Option String := none
  line : Option Int := none
  column : Option Int := none
  deriving Repr, DecidableEq, Inhabited

namespace Location

/-- The place about which nothing is known. -/
def unknown : Location := {}

/-- A place counts as known by its file or its line. -/
def isKnown (l : Location) : Bool := l.file.isSome || l.line.isSome

/-- The name that a place has in messages for its file. -/
def fileText (l : Location) : String :=
  match l.file with
  | some name => if name.isEmpty then "<unknown>" else name
  | none => "<unknown>"

/-- A place as messages show it: the file, the line and, behind a line only, the column. -/
def text (l : Location) : String :=
  match l.line, l.column with
  | none, _ => l.fileText
  | some line, none => s!"{l.fileText}:{line}"
  | some line, some column => s!"{l.fileText}:{line}:{column}"

instance : ToString Location := ⟨text⟩

/-- The first of two places that is known, or else the first. -/
def orElse (l other : Location) : Location :=
  if !l.isKnown && other.isKnown then other else l

/-- A message with the place in front of it, if the place is known. -/
def locate (l : Location) (message : String) : String :=
  if l.isKnown then s!"{l.text}: {message}" else message

theorem orElse_of_isKnown {l : Location} (known : l.isKnown = true) (other : Location) :
    l.orElse other = l := by
  simp [orElse, known]

theorem isKnown_orElse (l other : Location) :
    (l.orElse other).isKnown = (l.isKnown || other.isKnown) := by
  unfold orElse
  cases known : l.isKnown <;> cases other : other.isKnown <;> simp_all

end Location
end BuildEngine
