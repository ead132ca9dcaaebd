import BuildEngine.Markup.Node
import Mathlib.Logic.Relation

/-! Asides: comments and instructions leave no trace in what a tree is read as. Wherever they are put,
and into however many pieces they split the text there, the elements stay the same, since the text
of an element is all that stands directly in it. -/

namespace BuildEngine

open Relation

mutual

/-- An element and all that are nested in it, in document order. -/
def Element.preorder : Element → List Element
  | ⟨tag, attributes, children, text, location⟩ =>
    ⟨tag, attributes, children, text, location⟩ :: Element.preorderAll children

def Element.preorderAll : List Element → List Element
  | [] => []
  | e :: rest => e.preorder ++ Element.preorderAll rest

end

namespace Markup

namespace Branch

mutual

/-- A branch, if it is an element, and all elements that hang on it, in document order. -/
def preorder : Branch → List Branch
  | aside _ => []
  | element tag attributes line text branches tail =>
    element tag attributes line text branches tail :: preorderAll branches

def preorderAll : List Branch → List Branch
  | [] => []
  | branch :: rest => branch.preorder ++ preorderAll rest

end

/-- All text that stands directly in a branch, in document order. -/
def directText : Branch → String
  | aside _ => ""
  | element _ _ _ text branches _ => text ++ String.join (branches.map tail)

def withTail (tail : String) : Branch → Branch
  | aside _ => aside tail
  | element tag attributes line text branches _ => element tag attributes line text branches tail

/-- A tree has one aside more than another one: it stands in an element and splits the text there,
which is the text in front of all branches or the text behind one of them. -/
inductive Gains : Branch → Branch → Prop
  | inFront {tag : String} {attributes : List (String × String)} {line : Nat}
      {before after tail : String} {branches : List Branch} :
      Gains (element tag attributes line (before ++ after) branches tail)
        (element tag attributes line before (aside after :: branches) tail)
  | behind {tag : String} {attributes : List (String × String)} {line : Nat}
      {text before after tail : String} {earlier later : List Branch} {branch : Branch}
      (split : branch.tail = before ++ after) :
      Gains (element tag attributes line text (earlier ++ branch :: later) tail)
        (element tag attributes line text
          (earlier ++ branch.withTail before :: aside after :: later) tail)
  | within {tag : String} {attributes : List (String × String)} {line : Nat}
      {text tail : String} {earlier later : List Branch} {branch more : Branch}
      (gains : Gains branch more) :
      Gains (element tag attributes line text (earlier ++ branch :: later) tail)
        (element tag attributes line text (earlier ++ more :: later) tail)

variable {file : Option String} {b more : Branch}

theorem elementsOf_eq_filterMap (file : Option String) (branches : List Branch) :
    elementsOf file branches = branches.filterMap (element? file) := by
  induction branches with
  | nil => rfl
  | cons branch rest ih =>
    rw [elementsOf, List.filterMap_cons, ih]
    cases branch.element? file with
    | none => rfl
    | some => rfl

@[simp] theorem tail_aside (tail : String) : (aside tail).tail = tail := rfl

@[simp] theorem element?_aside (file : Option String) (tail : String) :
    (aside tail).element? file = none := rfl

/-- What follows a branch is no part of its element. -/
@[simp] theorem element?_withTail (file : Option String) (tail : String) (b : Branch) :
    (b.withTail tail).element? file = b.element? file := by
  cases b with
  | aside => rfl
  | element => rfl

@[simp] theorem tail_withTail (tail : String) (b : Branch) : (b.withTail tail).tail = tail := by
  cases b with
  | aside => rfl
  | element => rfl

/-- Of what hangs on an element, only the elements and the text count. -/
theorem element?_congr {tag : String} {attributes : List (String × String)} {line : Nat}
    {text text' tail tail' : String} {branches branches' : List Branch}
    (elements : branches'.filterMap (element? file) = branches.filterMap (element? file))
    (texts : text' ++ String.join (branches'.map Branch.tail) =
      text ++ String.join (branches.map Branch.tail)) :
    (element tag attributes line text' branches' tail').element? file =
      (element tag attributes line text branches tail).element? file := by
  rw [element?, element?, elementsOf_eq_filterMap, elementsOf_eq_filterMap, elements,
    String.join_cons, String.join_cons, texts]

namespace Gains

/-- An aside in a branch is none behind it. -/
theorem tail (gains : Gains b more) : more.tail = b.tail := by
  cases gains with
  | inFront => rfl
  | behind => rfl
  | within => rfl

theorem element? (gains : Gains b more) : more.element? file = b.element? file := by
  -- In each place it is the text as a whole that stays, not the text of a single branch.
  induction gains with
  | inFront =>
    refine element?_congr rfl ?_
    rw [List.map_cons, String.join_cons, tail_aside, String.append_assoc]
  | behind split =>
    refine element?_congr ?_ ?_
    · simp [List.filterMap_cons]
    · simp [split, String.append_assoc]
  | within gains ih =>
    refine element?_congr ?_ ?_
    · simp [List.filterMap_cons, ih]
    · simp [gains.tail]

end Gains

mutual

/-- The text of each element is the text that stands directly in its branch. -/
theorem texts_element? (file : Option String) : ∀ (b : Branch) (e : Element),
    b.element? file = some e → e.preorder.map Element.text = b.preorder.map directText
  | aside _, _, made => nomatch made
  | element tag attributes line text branches tail, _, made => by
    cases made
    rw [Element.preorder, preorder, List.map_cons, List.map_cons, texts_elementsOf file branches,
      directText, String.join_cons]

theorem texts_elementsOf (file : Option String) : ∀ branches : List Branch,
    (Element.preorderAll (elementsOf file branches)).map Element.text =
      (preorderAll branches).map directText
  | [] => rfl
  | aside _ :: rest => texts_elementsOf file rest
  | element tag attributes line text branches tail :: rest => by
    have inner := texts_element? file (element tag attributes line text branches tail) _ rfl
    rw [elementsOf, preorderAll, List.map_append, ← inner, ← texts_elementsOf file rest,
      ← List.map_append]
    rfl

end

/-- However many asides are put into a tree, it is read as the same element, and each element in it
has all the text that stands directly in its branch. -/
theorem element?_of_gains (gains : ReflTransGen Gains b more) (file : Option String) :
    more.element? file = b.element? file ∧
      ∀ e, more.element? file = some e →
        e.preorder.map Element.text = more.preorder.map directText ∧
        e.preorder.map Element.text = b.preorder.map directText := by
  have same : more.element? file = b.element? file := by
    induction gains with
    | refl => rfl
    | tail _ step ih => rw [step.element?, ih]
  refine ⟨same, ?_⟩
  intro e made
  exact ⟨texts_element? file more e made, texts_element? file b e (same ▸ made)⟩

/-- A greeting in a project, with blanks around it and between its words. -/
def greeting : Branch :=
  element "project" [("name", "demo")] 1 "\n"
    [element "echo" [("level", "info")] 3 "Hello  world" [] "\n"] ""

/-- The greeting with a comment in front of it and another one between its words. -/
def remarkedGreeting : Branch :=
  element "project" [("name", "demo")] 1 "" [aside "\n",
    element "echo" [("level", "info")] 3 "Hello " [aside " world"] "\n"] ""

theorem element?_of_gains_greeting : ReflTransGen Gains greeting remarkedGreeting ∧
    remarkedGreeting.element? none = greeting.element? none ∧
      (greeting.element? none).map (·.preorder.map Element.text) = some ["\n\n", "Hello  world"] := by
  have between : Gains greeting (element "project" [("name", "demo")] 1 "\n"
      [element "echo" [("level", "info")] 3 "Hello " [aside " world"] "\n"] "") :=
    @Gains.within _ _ _ _ _ [] [] _ _ (@Gains.inFront _ _ _ "Hello " " world" _ _)
  have inFront : Gains (element "project" [("name", "demo")] 1 "\n"
      [element "echo" [("level", "info")] 3 "Hello " [aside " world"] "\n"] "") remarkedGreeting :=
    @Gains.inFront _ _ _ "" "\n" _ _
  have gains : ReflTransGen Gains greeting remarkedGreeting := .tail (.single between) inFront
  obtain ⟨same, texts⟩ := element?_of_gains gains none
  refine ⟨gains, same, ?_⟩
  obtain ⟨e, made⟩ : ∃ e, greeting.element? none = some e := ⟨_, rfl⟩
  rw [made, Option.map_some, (texts e (same.trans made)).2]
  decide

end Branch

/-- The text of a node of a document, if it is one. -/
def Node.text? : Node → Option String
  | .text s => some s
  | _ => none

/-- The text that stands directly in a branch is the text in the content that it was made of, in the
order in which it was written there. -/
theorem directText_written (content : List Node) :
    leadingText content ++ String.join ((branchesIn content).map Branch.tail) =
      String.join (content.filterMap Node.text?) := by
  induction content with
  | nil => rfl
  | cons node rest ih =>
    cases node with
    | text s =>
      have texts : (Node.text s :: rest).filterMap Node.text? = s :: rest.filterMap Node.text? := rfl
      rw [texts, String.join_cons, ← ih, leadingText, String.append_assoc]
      rfl
    | aside =>
      have texts : (Node.aside :: rest).filterMap Node.text? = rest.filterMap Node.text? := rfl
      rw [texts, ← ih]
      simp [leadingText, branchesIn, Node.branch?]
    | element tag attributes line inner =>
      have texts : (Node.element tag attributes line inner :: rest).filterMap Node.text? =
        rest.filterMap Node.text? := rfl
      rw [texts, ← ih]
      simp [leadingText, branchesIn, Node.branch?, Branch.tail]

end Markup
end BuildEngine
