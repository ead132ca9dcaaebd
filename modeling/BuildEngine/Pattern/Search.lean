import BuildEngine.Pattern.Syntax

/-!
Searching with patterns. A part of a pattern leads from a place of a text to other places; all
ways are listed in the order in which they are preferred, and the first way that lets the rest of
the pattern match is taken.
-/

namespace BuildEngine

open BuildEngine.Text

/-- A place that a match has come to, with what the groups matched so far. -/
structure Place where
  position : Nat
  captures : List (Option (Nat × Nat))
  deriving Repr, DecidableEq, Inhabited

namespace Place

/-- Where the last match of a group starts and ends. -/
def capture? (p : Place) (index : Nat) : Option (Nat × Nat) := p.captures[index]?.join

/-- Remembers that a group matched from a position up to here. -/
def capture (p : Place) (index start : Nat) : Place :=
  { p with captures := p.captures.set index (some (start, p.position)) }

end Place

namespace Boundary

def isWordAt (asciiOnly : Bool) (text : Array Char) (position : Nat) : Bool :=
  (text[position]?).any (CharClass.word.contains asciiOnly)

def isLineFeedAt (text : Array Char) (position : Nat) : Bool := text[position]? == some '\n'

/-- Whether a condition holds at a position. No place of an empty text is or is not at the edge
of a word. -/
def holds (text : Array Char) (position : Nat) : Boundary → Bool
  | start ofLines => position == 0 || (ofLines && isLineFeedAt text (position - 1))
  | stop ofLines =>
    position == text.size ||
      (isLineFeedAt text position && (ofLines || position + 1 == text.size))
  | textEnd => position == text.size
  | word asciiOnly negated =>
    let before := position != 0 && isWordAt asciiOnly text (position - 1)
    !text.isEmpty && ((before != isWordAt asciiOnly text position) != negated)

end Boundary

namespace Node

/-- All ways to repeat something, for a number of steps. A repetition that did not move is the
last one. -/
def iterate (body : Place → List Place) (least : Nat) (most : Option Nat) (reluctant : Bool) :
    (steps count : Nat) → (last : Option Nat) → Place → List Place
  | 0, _, _, _ => []
  | steps + 1, count, last, p =>
    if count < least then
      ((body p).flatMap (iterate body least most reluctant steps (count + 1) last)).eraseDups
    else
      let more :=
        if most.any (· ≤ count) || last == some p.position then []
        else
          (body p).flatMap
            (iterate body least most reluctant steps (count + 1) (some p.position))
      (if reluctant then p :: more else more ++ [p]).eraseDups

/-- The place after as many repetitions as there can be, each in its first way. -/
def iterateFirst (body : Place → List Place) (least : Nat) (most : Option Nat) :
    (steps count : Nat) → (last : Option Nat) → Place → Option Place
  | 0, _, _, _ => none
  | steps + 1, count, last, p =>
    if count < least then
      match body p with
      | next :: _ => iterateFirst body least most steps (count + 1) last next
      | [] => none
    else if most.any (· ≤ count) || last == some p.position then some p
    else
      match body p with
      | next :: _ => iterateFirst body least most steps (count + 1) (some p.position) next
      | [] => some p

/-- What stands in a text between two positions. -/
def between (text : Array Char) (start stop : Nat) : List Char :=
  (text.toList.drop start).take (stop - start)

/-- All ways in which a part of a pattern leads on from a place, preferred ones first. Of
repetitions beyond the least number each has to move, so there are no more than the text has
characters, and one that does not. -/
def ways (text : Array Char) : Node → Place → List Place
  | empty, p => [p]
  | one set, p =>
    match text[p.position]? with
    | some c => if set.admits c then [{ p with position := p.position + 1 }] else []
    | none => []
  | boundary b, p => if b.holds text p.position then [p] else []
  | seq a b, p => ((ways text a p).flatMap (ways text b)).eraseDups
  | either a b, p => (ways text a p ++ ways text b p).eraseDups
  | group index body, p => (ways text body p).map (·.capture index p.position)
  | again index folding, p =>
    match p.capture? index with
    | none => []
    | some (start, stop) =>
      let said := between text start stop
      let here := between text p.position (p.position + said.length)
      if said.map folding.form = here.map folding.form then
        [{ p with position := p.position + said.length }]
      else []
  | repeated least most appetite body, p =>
    let steps := least + text.size + 2
    match appetite with
    | .greedy => iterate (ways text body) least most false steps 0 none p
    | .reluctant => iterate (ways text body) least most true steps 0 none p
    | .possessive => (iterateFirst (ways text body) least most steps 0 none p).toList
  | atomic body, p => (ways text body p).take 1
  | ahead negated body, p =>
    match ways text body p, negated with
    | found :: _, false => [{ p with captures := found.captures }]
    | [], true => [p]
    | _, _ => []
  | behind negated width body, p =>
    let found :=
      if p.position < width then []
      else ways text body { p with position := p.position - width }
    match found, negated with
    | found :: _, false => [{ p with captures := found.captures }]
    | [], true => [p]
    | _, _ => []
  | choice index present absent, p =>
    if (p.capture? index).isSome then ways text present p else ways text absent p

end Node

/-- A match of a pattern in a text: the text and what each group matched, the whole match being
that of group 0. -/
structure Match where
  text : Array Char
  groups : List (Option (Nat × Nat))

namespace Match

/-- What a group matched, if it did. -/
def group? (m : Match) (index : Nat) : Option String :=
  (m.groups[index]?.join).map fun range => String.ofList (Node.between m.text range.1 range.2)

end Match

namespace Pattern

def matchAt? (p : Pattern) (text : Array Char) (start : Nat) : Option Match :=
  let place : Place := ⟨start, List.replicate (p.groups + 1) none⟩
  ((p.root.ways text place).head?).map fun found =>
    ⟨text, (found.capture 0 start).captures⟩

def search (p : Pattern) (s : String) : Option Match :=
  let text := s.toList.toArray
  (List.range (text.size + 1)).findSome? (p.matchAt? text)

end Pattern
end BuildEngine
