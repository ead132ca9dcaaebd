import BuildEngine.Text.Case
import BuildEngine.Text.Blank
import BuildEngine.Text.Quoted
import BuildEngine.Text.Word

/-!
Names and texts with a meaning of their own in build descriptions: names that are matched without
regard to case, underscores and dashes; texts that stand for truth values; and texts that stand for
a slot.
-/

namespace BuildEngine

open BuildEngine.Text

/-- The form by which names are compared: in lower case, without underscores and dashes. -/
def normalizeName (name : String) : String :=
  lower (String.ofList (name.toList.filter fun c => c != '_' && c != '-'))

def trueTexts : List String := ["1", "on", "t", "true", "yes"]

def falseTexts : List String := ["0", "f", "false", "no", "off"]

/-- The truth value that a text stands for, in any case and with blanks around it. -/
def flagOf? (text : String) : Option Bool :=
  let word := lower (trim text)
  if trueTexts.contains word then some true
  else if falseTexts.contains word then some false
  else none

/-- The complaint about a text that stands for no truth value. -/
def noFlagText (text : String) : String :=
  let known := (trueTexts ++ falseTexts).mergeSort fun a b => decide (a ≤ b)
  let list := ", ".intercalate known
  s!"expected one of {list}, got {quote text}"

def readFlag (text : String) : Except String Bool :=
  match flagOf? text with
  | some b => .ok b
  | none => .error (noFlagText text)

/-- Whether a character may stand in the name of a slot. -/
def isSlotChar (c : Char) : Bool := isWord c || c == '.' || c == '-'

/-- The name of the slot that a text consists of; one line end may follow it. -/
def slotName? (text : String) : Option String :=
  match text.toList with
  | '%' :: '{' :: rest =>
    match rest.takeWhile isSlotChar, rest.dropWhile isSlotChar with
    | [], _ => none
    | name, ['}'] => some (String.ofList name)
    | name, ['}', '\n'] => some (String.ofList name)
    | _, _ => none
  | _ => none

/-- The name of a nested element that is taken by a method without an explicit name: the method
without the word in front that says what it does. -/
def elementNameOf (method : String) : String :=
  let rest? := ["create_", "add_"].findSome? fun word =>
    if word.toList.isPrefixOf method.toList then some (method.toList.drop word.length) else none
  match rest? with
  | some rest => String.ofList rest
  | none => method

end BuildEngine
