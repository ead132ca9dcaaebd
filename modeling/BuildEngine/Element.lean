import BuildEngine.Location
import BuildEngine.Text.Case

/-!
Elements: the tree that a build description is read into. An element has no meaning of its own;
its names are compared without regard to case.
-/

namespace BuildEngine

open BuildEngine.Text

/-- A node of a build description: its name, its attributes in document order, the elements
nested in it, the text directly inside it, and where it was declared. -/
structure Element where
  tag : String
  attributes : List (String × String) := []
  children : List Element := []
  text : String := ""
  location : Location := .unknown
  deriving Repr, Inhabited

namespace Element

/-- The value of the first attribute of a name, in any case. -/
def get? (e : Element) (name : String) : Option String :=
  (e.attributes.find? fun entry => sameName entry.1 name).map Prod.snd

/-- The elements of a name, in any case, among those nested directly. -/
def childrenNamed (e : Element) (tag : String) : List Element :=
  e.children.filter fun child => sameName child.tag tag

/-- An element as messages show it. -/
def summary (e : Element) : String := s!"<{e.tag}> at {e.location.text}"

end Element
end BuildEngine
