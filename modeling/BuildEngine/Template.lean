/-!
Templates: texts with references to properties. `${name}` stands for the value of a property and
`$$` for a single dollar sign; every other dollar sign stands for itself. A name is one or more
characters other than the dollar sign and braces.
-/

namespace BuildEngine

/-- A piece of a template: a character as it is, or a reference to a property. -/
inductive Piece where
  | char (c : Char)
  | reference (name : List Char)
  deriving Repr, DecidableEq

namespace Template

/-- Whether a character may stand in the name of a referenced property. -/
def isNameChar (c : Char) : Bool := c != '$' && c != '{' && c != '}'

/-- A name up to its closing brace, with what follows the brace. -/
def closedName? (cs : List Char) : Option (List Char × List Char) :=
  match cs.takeWhile isNameChar, cs.dropWhile isNameChar with
  | [], _ => none
  | name, '}' :: rest => some (name, rest)
  | _, _ => none

theorem closedName?_length {cs name rest : List Char} (h : closedName? cs = some (name, rest)) :
    rest.length < cs.length := by
  have whole := congrArg List.length (@List.takeWhile_append_dropWhile Char isNameChar cs)
  rw [List.length_append] at whole
  unfold closedName? at h
  split at h
  · simp at h
  · rename_i dropped _
    simp only [Option.some.injEq, Prod.mk.injEq] at h
    rw [dropped, List.length_cons, h.2] at whole
    omega
  · simp at h

/-- The pieces of a template. -/
def pieces : List Char → List Piece
  | [] => []
  | '$' :: '$' :: rest => .char '$' :: pieces rest
  | '$' :: '{' :: rest =>
    match _read : closedName? rest with
    | some (name, after) => .reference name :: pieces after
    | none => .char '$' :: pieces ('{' :: rest)
  | c :: rest => .char c :: pieces rest
  termination_by cs => cs.length
  decreasing_by
    · simp only [List.length_cons]
      omega
    · have := closedName?_length _read
      simp only [List.length_cons]
      omega
    · simp
    · simp

/-- What a piece stands for: a reference to a property that is not set stays as it was written. -/
def Piece.expand (lookup : String → Option String) : Piece → List Char
  | .char c => [c]
  | .reference name =>
    match lookup (String.ofList name) with
    | some value => value.toList
    | none => '$' :: '{' :: (name ++ ['}'])

/-- A template with all its references replaced. The values are not expanded again. -/
def expand (lookup : String → Option String) (template : String) : String :=
  String.ofList ((pieces template.toList).flatMap (Piece.expand lookup))

end Template
end BuildEngine
