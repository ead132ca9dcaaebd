/-!
Coloured texts for terminals. The code of the colour stands next to the text, the codes of its
attributes in front of that.
-/

namespace BuildEngine.Text

/-- The colours of texts. -/
inductive Colour where
  | red | green | yellow | blue | magenta | cyan
  deriving Repr, DecidableEq, Inhabited

/-- The attributes of texts. -/
inductive Emphasis where
  | bold | underlined
  deriving Repr, DecidableEq, Inhabited

def Colour.code : Colour → Nat
  | red => 31
  | green => 32
  | yellow => 33
  | blue => 34
  | magenta => 35
  | cyan => 36

/-- The code of an attribute. -/
def Emphasis.code : Emphasis → Nat
  | bold => 1
  | underlined => 4

def behindCode (code : Nat) (s : String) : String := s!"\x1b[{code}m{s}"

/-- A text in a colour and with attributes, whose codes are put in front of what there is so far;
one code at the end takes back all of them. A plain terminal shows the text alone. -/
def coloured (plainly : Bool) (s : String) (colour : Option Colour)
    (emphases : List Emphasis := []) : String :=
  if plainly then s
  else
    let codes := (colour.map Colour.code).toList ++ emphases.map Emphasis.code
    codes.foldl (fun text code => behindCode code text) s ++ behindCode 0 ""

end BuildEngine.Text
