/-!
Counting words: the form of a noun beside a number.
-/

namespace BuildEngine.Text

/-- The form of a noun that is counted: only one thing takes the singular, and a plural that is
not given is the word with an `s`. -/
def pluralize (word : String) (count : Int) (plural : Option String := none) : String :=
  if count = 1 then word else plural.getD (word ++ "s")

theorem pluralize_one (word : String) (plural : Option String) :
    pluralize word 1 plural = word := by
  simp [pluralize]

end BuildEngine.Text
