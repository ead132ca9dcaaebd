import BuildEngine.Element

/-!
Nodes: what a document consists of once its markup is read, in the order in which it was written;
and branches, which are the same nodes as they hang in a tree. The text in front of all branches of
an element belongs to the element; any other text belongs to the branch that it follows. Elements
are what is left of branches when everything aside is forgotten and the pieces of text that stand
directly in an element are put together.
-/

namespace BuildEngine.Markup

/-- A piece of what stands in a document. -/
inductive Node where
  | text (s : String)
  /-- What is there for readers and other programs: a comment or an instruction. -/
  | aside
  /-- An element, with the line in which its first tag ends and with what stands in it. -/
  | element (tag : String) (attributes : List (String × String)) (line : Nat) (content : List Node)
  deriving Inhabited

/-- A node of a tree, with the text that follows it. -/
inductive Branch where
  /-- A comment or an instruction; it has no name. -/
  | aside (tail : String)
  /-- An element, with the text in front of its branches. -/
  | element (tag : String) (attributes : List (String × String)) (line : Nat) (text : String)
      (branches : List Branch) (tail : String)
  deriving Inhabited

namespace Branch

/-- The text that follows a branch. -/
def tail : Branch → String
  | aside tail | element _ _ _ _ _ tail => tail

mutual

/-- The element that a branch is, unless it is none. -/
def element? (file : Option String) : Branch → Option Element
  | aside _ => none
  | element tag attributes line text branches _ => some {
      tag, attributes, children := elementsOf file branches
      text := String.join (text :: branches.map tail)
      location := { file, line := some (line : Int) } }

/-- The elements among some branches. -/
def elementsOf (file : Option String) : List Branch → List Element
  | [] => []
  | branch :: rest =>
    match branch.element? file with
    | some e => e :: elementsOf file rest
    | none => elementsOf file rest

end
end Branch

/-- The text in front of all other nodes of a content. -/
def leadingText : List Node → String
  | .text s :: rest => s ++ leadingText rest
  | _ => ""

mutual

/-- A node as it hangs in a tree in front of a text; text hangs on other nodes. -/
def Node.branch? (tail : String) : Node → Option Branch
  | .text _ => none
  | .aside => some (.aside tail)
  | .element tag attributes line content =>
    some (.element tag attributes line (leadingText content) (branchesIn content) tail)

/-- The nodes of a content other than text, each with the text that follows it. -/
def branchesIn : List Node → List Branch
  | [] => []
  | node :: rest =>
    match node.branch? (leadingText rest) with
    | some branch => branch :: branchesIn rest
    | none => branchesIn rest

end
end BuildEngine.Markup
