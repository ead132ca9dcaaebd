import BuildEngine.Text.Case
import BuildEngine.Text.Blank
import BuildEngine.Text.Digit
import BuildEngine.Text.Word

/-!
Patterns: regular expressions over characters, with groups that remember what they matched. Modes
such as the one that ignores case are resolved when a pattern is read, so a pattern says of each
single character and of each place by itself what it admits.
-/

namespace BuildEngine

open BuildEngine.Text

/-- How letters are compared. -/
inductive Folding where
  | exact
  /-- Without regard to the case of ASCII letters. -/
  | ascii
  /-- Without regard to case. -/
  | full
  deriving Repr, DecidableEq, Inhabited

namespace Folding

/-- The characters that count as the same as a given one. -/
def variants : Folding → Char → List Char
  | exact, c => [c]
  | ascii, c => [c, c.toLower, c.toUpper]
  | full, c => c :: caseVariants c

/-- The form in which two pieces of text are compared. -/
def form : Folding → Char → Char
  | exact, c => c
  | ascii, c => c.toLower
  | full, c => toLower c

end Folding

/-- The classes of characters that have a name. -/
inductive CharClass where
  | digit | blank | word
  deriving Repr, DecidableEq, Inhabited

namespace CharClass

/-- Whether a character belongs to a class, where only ASCII characters may belong to it or all. -/
def contains (asciiOnly : Bool) : CharClass → Char → Bool
  | digit, c => if asciiOnly then c.isDigit else isDigit c
  | blank, c => if asciiOnly then c.toNat == 32 || (9 ≤ c.toNat && c.toNat ≤ 13) else isBlank c
  | word, c => if asciiOnly then c.isAlphanum || c == '_' else isWord c

end CharClass

/-- A member of a set of characters. -/
inductive CharItem where
  /-- All characters from one code point to another. -/
  | range (low high : Nat)
  | member (cls : CharClass) (asciiOnly negated : Bool)
  deriving Repr, DecidableEq, Inhabited

/-- A set of characters. -/
structure CharSet where
  items : List CharItem
  negated : Bool := false
  folding : Folding := .exact
  deriving Repr, DecidableEq, Inhabited

namespace CharSet

/-- Whether a member of a set admits a character. -/
def itemAdmits (folding : Folding) (c : Char) : CharItem → Bool
  | .range low high =>
    (folding.variants c).any fun d => decide (low ≤ d.toNat) && decide (d.toNat ≤ high)
  | .member cls asciiOnly negated => cls.contains asciiOnly c != negated

def admits (s : CharSet) (c : Char) : Bool := s.items.any (itemAdmits s.folding c) != s.negated

def single (code : Nat) (folding : Folding) : CharSet := { items := [.range code code], folding }

def withinLine : CharSet := { items := [.range 10 10], negated := true }

def all : CharSet := { items := [], negated := true }

end CharSet

/-- A condition on a place between characters. -/
inductive Boundary where
  /-- The start of the text, or of any line. -/
  | start (ofLines : Bool)
  /-- The end of the text, with or without a line feed behind it, or the end of any line. -/
  | stop (ofLines : Bool)
  | textEnd
  /-- Between a word character and another one. -/
  | word (asciiOnly negated : Bool)
  deriving Repr, DecidableEq, Inhabited

/-- In which order the numbers of repetitions are tried. -/
inductive Appetite where
  /-- Most repetitions first. -/
  | greedy
  /-- Fewest repetitions first. -/
  | reluctant
  /-- The most repetitions and no others. -/
  | possessive
  deriving Repr, DecidableEq, Inhabited

/-- A part of a pattern. -/
inductive Node where
  | empty
  | one (set : CharSet)
  | boundary (b : Boundary)
  | seq (first second : Node)
  | either (first second : Node)
  /-- What matches is remembered under a number. -/
  | group (index : Nat) (body : Node)
  /-- What a group matched stands here again. -/
  | again (index : Nat) (folding : Folding)
  | repeated (least : Nat) (most : Option Nat) (appetite : Appetite) (body : Node)
  /-- The first match of the body and no other. -/
  | atomic (body : Node)
  /-- The body matches from here on, or does not. -/
  | ahead (negated : Bool) (body : Node)
  /-- The body, all of whose matches have one width, matches up to here, or does not. -/
  | behind (negated : Bool) (width : Nat) (body : Node)
  /-- One of two parts, chosen by whether a group matched. -/
  | choice (index : Nat) (present absent : Node)
  deriving Repr, Inhabited

/-- A pattern: its parts and the number of its groups. -/
structure Pattern where
  root : Node
  groups : Nat
  deriving Repr, Inhabited

/-- The least and the greatest number of characters that something matches; the greatest may be
unbounded. -/
structure Width where
  least : Nat := 0
  most : Option Nat := some 0
  deriving Repr, DecidableEq, Inhabited

namespace Width

/-- The width of two parts one after another. -/
def plus (a b : Width) : Width where
  least := a.least + b.least
  most := a.most.bind fun m => b.most.map (m + ·)

/-- The width of one of two parts. -/
def join (a b : Width) : Width where
  least := min a.least b.least
  most := a.most.bind fun m => b.most.map (max m)

/-- The width of repetitions. -/
def times (w : Width) (least : Nat) (most : Option Nat) : Width where
  least := w.least * least
  most :=
    match w.most, most with
    | some 0, _ => some 0
    | some m, some n => some (m * n)
    | _, _ => none

/-- The width that all matches have, if it is one. -/
def fixed? (w : Width) : Option Nat := if w.most = some w.least then some w.least else none

end Width

namespace Node

/-- The width of the matches of a part, where those of groups are known. -/
def width (groupWidth : Nat → Width) : Node → Width
  | empty | boundary _ | ahead .. | behind .. => {}
  | one _ => ⟨1, some 1⟩
  | seq a b => (a.width groupWidth).plus (b.width groupWidth)
  | either a b => (a.width groupWidth).join (b.width groupWidth)
  | group _ body | atomic body => body.width groupWidth
  | again index _ => groupWidth index
  | repeated least most _ body => (body.width groupWidth).times least most
  | choice _ present absent => (present.width groupWidth).join (absent.width groupWidth)

/-- Parts one after another. -/
def sequence : List Node → Node
  | [] => empty
  | [a] => a
  | a :: rest => seq a (sequence rest)

/-- One of several parts, the first ones tried first. -/
def alternatives : List Node → Node
  | [] => empty
  | [a] => a
  | a :: rest => either a (alternatives rest)

end Node
end BuildEngine
