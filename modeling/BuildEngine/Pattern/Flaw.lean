import BuildEngine.Text.Quoted

/-!
What can be wrong with a written pattern, and where.
-/

namespace BuildEngine

open BuildEngine.Text

/-- What is wrong with a written pattern. -/
inductive PatternFlaw where
  | danglingEscape
  | badEscape (escape : String)
  | incompleteEscape (escape : String)
  | octalRange (escape : String)
  | unknownCharacter (name : String)
  | missing (what : String)
  | missingFlagEnd
  | unterminatedName (terminator : Char)
  | badGroupName (name : String)
  | unknownGroupName (name : String)
  | redefinedGroup (name : String) (index first : Nat)
  | badGroupNumber
  | invalidGroup (index : Nat)
  | openGroup
  | lookBehindGroup
  | unterminatedSet
  | badRange (first last : String)
  | swappedRepeat
  | nothingToRepeat
  | multipleRepeat
  | hugeRepeat
  | unexpectedEnd
  | unterminatedGroup
  | unterminatedComment
  | unbalanced
  | manyBranches
  | unknownExtension (text : String)
  | lateFlags
  | unknownFlag
  | missingFlag
  | localeFlag
  | clashingFlags
  | clashingAlphabets
  | globalFlagOn
  | globalFlagOff
  | alphabetOff
  | onAndOff
  | looseLookBehind
  deriving Repr, DecidableEq, Inhabited

namespace PatternFlaw

/-- What is said about a flaw. -/
def text : PatternFlaw → String
  | danglingEscape => "bad escape (end of pattern)"
  | badEscape escape => s!"bad escape {escape}"
  | incompleteEscape escape => s!"incomplete escape {escape}"
  | octalRange escape => s!"octal escape value {escape} outside of range 0-0o377"
  | unknownCharacter name => s!"undefined character name {quote name}"
  | missing what => s!"missing {what}"
  | missingFlagEnd => "missing -, : or )"
  | unterminatedName terminator => s!"missing {terminator}, unterminated name"
  | badGroupName name => s!"bad character in group name {quote name}"
  | unknownGroupName name => s!"unknown group name {quote name}"
  | redefinedGroup name index first =>
    s!"redefinition of group name {quote name} as group {index}; was group {first}"
  | badGroupNumber => "bad group number"
  | invalidGroup index => s!"invalid group reference {index}"
  | openGroup => "cannot refer to an open group"
  | lookBehindGroup => "cannot refer to group defined in the same lookbehind subpattern"
  | unterminatedSet => "unterminated character set"
  | badRange first last => s!"bad character range {first}-{last}"
  | swappedRepeat => "min repeat greater than max repeat"
  | nothingToRepeat => "nothing to repeat"
  | multipleRepeat => "multiple repeat"
  | hugeRepeat => "the repetition number is too large"
  | unexpectedEnd => "unexpected end of pattern"
  | unterminatedGroup => "missing ), unterminated subpattern"
  | unterminatedComment => "missing ), unterminated comment"
  | unbalanced => "unbalanced parenthesis"
  | manyBranches => "conditional backref with more than two branches"
  | unknownExtension rest => s!"unknown extension ?{rest}"
  | lateFlags => "global flags not at the start of the expression"
  | unknownFlag => "unknown flag"
  | missingFlag => "missing flag"
  | localeFlag => "bad inline flags: cannot use 'L' flag with a str pattern"
  | clashingFlags => "bad inline flags: flags 'a', 'u' and 'L' are incompatible"
  | clashingAlphabets => "ASCII and UNICODE flags are incompatible"
  | globalFlagOn => "bad inline flags: cannot turn on global flag"
  | globalFlagOff => "bad inline flags: cannot turn off global flag"
  | alphabetOff => "bad inline flags: cannot turn off flags 'a', 'u' and 'L'"
  | onAndOff => "bad inline flags: flag turned on and off"
  | looseLookBehind => "look-behind requires fixed-width pattern"

end PatternFlaw

/-- A flaw of a written pattern and its place, if it has one. -/
structure PatternError where
  flaw : PatternFlaw
  position : Option Nat := none
  deriving Repr, DecidableEq, Inhabited

namespace PatternError

/-- The line and the column of a position, both counted from one. -/
def lineAndColumn (pattern : String) (position : Nat) : Nat × Nat :=
  let before := pattern.toList.take position
  (before.count '\n' + 1, (before.reverse.takeWhile (· != '\n')).length + 1)

/-- The message about a flaw in a pattern. Lines are counted only where there are several. -/
def message (pattern : String) (e : PatternError) : String :=
  match e.position with
  | none => e.flaw.text
  | some position =>
    let placed := s!"{e.flaw.text} at position {position}"
    if pattern.contains '\n' then
      let (line, column) := lineAndColumn pattern position
      s!"{placed} (line {line}, column {column})"
    else placed

end PatternError
end BuildEngine
