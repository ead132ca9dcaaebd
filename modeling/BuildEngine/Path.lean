import BuildEngine.Text.Blank

/-!
Paths of a file system: a root of no, one or two slashes and the names below it. Empty names and
the name `.` are dropped when a path is read, `..` is kept. A path without root and names is the
current directory and is written as a point.
-/

namespace BuildEngine

open BuildEngine.Text

/-- Where a path starts: nowhere in particular, at the root, or at the root of a share. -/
inductive Anchor where
  | relative
  | root
  | share
  deriving Repr, DecidableEq, Inhabited

/-- An anchor as it stands in front of a path. -/
def Anchor.text : Anchor → String
  | relative => ""
  | root => "/"
  | share => "//"

/-- A path of a file system. -/
structure Path where
  anchor : Anchor
  names : List String
  deriving Repr, DecidableEq, Inhabited

namespace Path

/-- The current directory, as a relative path. -/
def here : Path := ⟨.relative, []⟩

/-- The root directory. -/
def top : Path := ⟨.root, []⟩

/-- The anchor that a text starts with: exactly two slashes make a share. -/
def readAnchor (cs : List Char) : Anchor :=
  match (cs.takeWhile (· == '/')).length with
  | 0 => .relative
  | 2 => .share
  | _ => .root

/-- Reads a path. -/
def ofString (s : String) : Path :=
  ⟨readAnchor s.toList, (fields (· == '/') s).filter (· != ".")⟩

/-- A path as it is written. -/
def text (p : Path) : String :=
  if p.anchor = .relative ∧ p.names = [] then "."
  else p.anchor.text ++ String.intercalate "/" p.names

instance : ToString Path := ⟨text⟩

/-- Whether a path does not depend on the current directory. -/
def isAbsolute (p : Path) : Bool := p.anchor != .relative

/-- A path seen from a base: an absolute path replaces the base. -/
def join (base p : Path) : Path :=
  if p.isAbsolute then p else ⟨base.anchor, base.names ++ p.names⟩

instance : HDiv Path Path Path := ⟨join⟩

/-- The directory that holds a path; the topmost path holds itself. -/
def parent (p : Path) : Path := ⟨p.anchor, p.names.dropLast⟩

/-- All directories above a path, nearest first. -/
def parents (p : Path) : List Path :=
  (List.range p.names.length).map fun n => ⟨p.anchor, p.names.take (p.names.length - 1 - n)⟩

/-- The last name of a path, empty for the topmost path. -/
def name (p : Path) : String := p.names.getLast?.getD ""

/-- The parts by which paths are compared and measured: the anchor, if there is one, then the
names. -/
def parts (p : Path) : List String :=
  if p.isAbsolute then p.anchor.text :: p.names else p.names

/-- Whether a path stands before another: part by part, by code points. -/
def lt (p q : Path) : Bool := decide (p.parts < q.parts)

/-- Whether a path stands before another or equals it. -/
def le (p q : Path) : Bool := !q.lt p

/-- The rest of a path below a base, if the base is the path or above it. -/
def relativeTo? (p base : Path) : Option Path :=
  if p.anchor = base.anchor ∧ base.names.isPrefixOf p.names then
    some ⟨.relative, p.names.drop base.names.length⟩
  else none

def isBelow (p base : Path) : Bool :=
  decide (p.anchor = base.anchor) && base.names.isPrefixOf p.names &&
    decide (base.names.length < p.names.length)

theorem isAbsolute_join {base p : Path} (absolute : base.isAbsolute = true) :
    (base.join p).isAbsolute = true := by
  unfold join
  split
  · assumption
  · exact absolute

theorem join_of_isAbsolute {base p : Path} (absolute : p.isAbsolute = true) : base.join p = p := by
  simp [join, absolute]

theorem isAbsolute_parent (p : Path) : p.parent.isAbsolute = p.isAbsolute := rfl

end Path
end BuildEngine
