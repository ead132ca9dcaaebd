/-!
Sets of characters, given as inclusive ranges of code points. A standard's character property is
written down as such a list; membership is the only question that is asked of it.
-/

namespace BuildEngine.Text

/-- A set of characters as inclusive ranges of code points. -/
abbrev CodePoints := List (Nat × Nat)

namespace CodePoints

/-- A character belongs to the set when one of the ranges holds its code point. -/
def contains (points : CodePoints) (c : Char) : Bool :=
  points.any fun range => decide (range.1 ≤ c.toNat) && decide (c.toNat ≤ range.2)

theorem contains_iff {points : CodePoints} {c : Char} :
    points.contains c = true ↔ ∃ range ∈ points, range.1 ≤ c.toNat ∧ c.toNat ≤ range.2 := by
  simp [contains]

end CodePoints
end BuildEngine.Text
