import BuildEngine.Path
import BuildEngine.Location
import BuildEngine.Number.Shortest
import BuildEngine.Text.Quoted

/-!
Values that attributes, slots and suppliers hold. Objects are named by their numbers and projects
by theirs; all other values are complete in themselves. A value has two written forms: as a text
and, inside other values and in messages, as a quotation of itself.
-/

namespace BuildEngine

open BuildEngine.Text

/-- The number of an object of a build. -/
abbrev ObjectId := Nat

/-- The number of a project of a build. -/
abbrev ProjectId := Nat

/-- A named pointer into the registered objects of a project. -/
structure Reference where
  project : ProjectId
  id : String
  location : Location := .unknown
  deriving Repr, Inhabited

namespace Reference

/-- References are the same when they point to the same name in the same project. -/
def same (a b : Reference) : Bool := a.project == b.project && a.id == b.id

end Reference

/-- A value of an attribute, a slot or a supplier. -/
inductive Value where
  | nothing
  | text (s : String)
  | flag (b : Bool)
  | int (n : Int)
  | real (x : Number.Binary64)
  | path (p : Path)
  | list (items : List Value)
  | record (fields : List (String × Value))
  | moment (type shown quotation : String)
  | member (enumeration name : String) (value : Value)
  | reference (r : Reference)
  | object (id : ObjectId)
  deriving Repr, Inhabited

namespace Value

/-- The name of a truth value. -/
def flagText (b : Bool) : String := if b then "True" else "False"

mutual

/-- A value as it stands inside other values; `shown` names the objects. -/
def quoted (shown : ObjectId → String) : Value → String
  | nothing => "None"
  | text s => quote s
  | flag b => flagText b
  | int n => toString n
  | real x => x.text
  | path p => s!"PosixPath({quote p.text})"
  | list items => s!"[{quotedItems shown items}]"
  | record fields => "\x7b" ++ quotedFields shown fields ++ "\x7d"
  | moment _ _ q => q
  | member e n v => s!"<{e}.{n}: {quoted shown v}>"
  | reference r => s!"Reference({quote r.id})"
  | object id => shown id

def quotedItems (shown : ObjectId → String) : List Value → String
  | [] => ""
  | [v] => quoted shown v
  | v :: w :: rest => s!"{quoted shown v}, {quotedItems shown (w :: rest)}"

/-- Fields one after another, each with its name. -/
def quotedFields (shown : ObjectId → String) : List (String × Value) → String
  | [] => ""
  | [(name, v)] => s!"{quote name}: {quoted shown v}"
  | (name, v) :: next :: rest =>
    s!"{quote name}: {quoted shown v}, {quotedFields shown (next :: rest)}"

end

/-- A value as a text: texts, paths and moments as they are, members by their name, all else as
it is quoted. -/
def display (shown : ObjectId → String) : Value → String
  | text s => s
  | path p => p.text
  | moment _ s _ => s
  | member e n _ => s!"{e}.{n}"
  | v => quoted shown v

/-- What a value stands for as a text: a member stands for the value behind it. -/
def meant (shown : ObjectId → String) : Value → String
  | member _ _ value => value.display shown
  | v => v.display shown

/-- The number that a value counts as, if it is a number or a truth value. -/
def number? : Value → Option Number.Binary64
  | flag b => some (.ofInt (if b then 1 else 0))
  | int n => some (.ofInt n)
  | real x => some x
  | _ => none

def integer? : Value → Option Int
  | flag b => some (if b then 1 else 0)
  | int n => some n
  | _ => none

mutual

/-- Whether two values are equal. Numbers and truth values are compared as numbers, the fields of
records without regard to their order. -/
def same : Value → Value → Bool
  | nothing, nothing => true
  | text s, text t => s == t
  | path p, path q => p == q
  | moment _ s _, moment _ t _ => s == t
  | member e n _, member f m _ => e == f && n == m
  | reference r, reference s => r.same s
  | object i, object j => i == j
  | list xs, list ys => sameItems xs ys
  | record fs, record gs => fs.length == gs.length && sameFields fs gs
  | v, w =>
    match v.integer?, w.integer? with
    | some n, some m => n == m
    | _, _ =>
      match v.number?, w.number? with
      | some x, some y => x.same y
      | _, _ => false

/-- Whether two lists hold equal values. -/
def sameItems : List Value → List Value → Bool
  | [], [] => true
  | v :: vs, w :: ws => same v w && sameItems vs ws
  | _, _ => false

/-- Whether each field has an equal field of its name among others. -/
def sameFields : List (String × Value) → List (String × Value) → Bool
  | [], _ => true
  | (name, v) :: rest, others =>
    (match others.find? fun field => field.1 == name with
      | some field => same v field.2
      | none => false) && sameFields rest others

end

end Value
end BuildEngine
