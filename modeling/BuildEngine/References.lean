import BuildEngine.Table
import BuildEngine.Value

/-!
Named objects and slots of a project. An object may be an alias of another named object; resolving
a name follows aliases until an object that is none, and reports a chain that leads back to a name
already passed.
-/

namespace BuildEngine

open BuildEngine.Text

/-- Why a name does not lead to an object of the wanted kind. -/
inductive ReferenceError where
  /-- No object has the name; `via` holds the aliases that led there. -/
  | notFound (id : String) (via : List String)
  /-- The aliases lead back to a name already passed; the chain ends with that name. -/
  | cycle (chain : List String)
  /-- The object is of another kind. -/
  | mismatch (id expected actual : String)
  deriving Repr, DecidableEq, Inhabited

namespace ReferenceError

def chainText (names : List String) : String := " -> ".intercalate names

/-- The message about a name that leads nowhere. -/
def message : ReferenceError → String
  | notFound id [] => s!"reference {quote id} not found"
  | notFound id via => s!"reference {quote id} not found (via {chainText via})"
  | cycle chain => s!"circular reference: {chainText chain}"
  | mismatch id expected actual =>
    s!"{quote id} doesn't denote a {expected}, but a {actual}"

end ReferenceError

/-- The named objects and the slots of one project. -/
structure References (α : Type) where
  objects : Table String α := .empty
  slots : Table String Value := .empty

namespace References

variable {α : Type}

instance : Inhabited (References α) := ⟨{}⟩

/-- The object of a name, be it an alias or not. -/
def get? (r : References α) (id : String) : Option α := r.objects.find? id

/-- Whether a name is taken. -/
def contains (r : References α) (id : String) : Bool := r.objects.contains id

/-- Gives a name to an object. -/
def register (r : References α) (id : String) (object : α) : References α :=
  { r with objects := r.objects.put id object }

/-- Whether giving a name to an object takes it from another one. -/
def replaces [BEq α] (r : References α) (id : String) (object : α) : Bool :=
  (r.get? id).any fun old => old != object

/-- The warning about a name that is taken from another object. -/
def replacedText (id : String) : String :=
  s!"Overriding previous definition of reference to {quote id}"

/-- Follows aliases from a name, with the names already passed, for a number of steps. -/
def follow (aliasOf : α → Option String) (r : References α) (steps : Nat) (passed : List String)
    (id : String) : Except ReferenceError α :=
  if id ∈ passed then .error (.cycle (passed ++ [id]))
  else
    match steps, r.get? id with
    | _, none => .error (.notFound id passed)
    | 0, some _ => .error (.cycle (passed ++ [id]))
    | more + 1, some object =>
      match aliasOf object with
      | none => .ok object
      | some next => follow aliasOf r more (passed ++ [id]) next

/-- The object that a name leads to. There are as many steps as names, which is enough: each step
passes another one. -/
def resolve (r : References α) (aliasOf : α → Option String) (id : String) :
    Except ReferenceError α :=
  r.follow aliasOf r.objects.size [] id

/-- A wanted kind of object: its name, which objects are of it, and what the others are called. -/
structure Expectation (α : Type) where
  name : String
  accepts : α → Bool
  kindOf : α → String

/-- The object that a name leads to, if it is of the wanted kind. -/
def resolveAs (r : References α) (aliasOf : α → Option String) (wanted : Expectation α)
    (id : String) : Except ReferenceError α := do
  let object ← r.resolve aliasOf id
  if wanted.accepts object then return object
  throw (.mismatch id wanted.name (wanted.kindOf object))

/-- What was last written to a slot; a slot that was never written holds nothing. -/
def slot (r : References α) (name : String) : Value := (r.slots.find? name).getD .nothing

def writeSlot (r : References α) (name : String) (value : Value) : References α :=
  { r with slots := r.slots.put name value }

/-- The same named objects, without the slots. -/
def copy (r : References α) : References α := { objects := r.objects }

theorem get?_register (r : References α) (id other : String) (object : α) :
    (r.register id object).get? other = if id = other then some object else r.get? other :=
  Table.find?_put r.objects id other object

theorem slot_writeSlot (r : References α) (name other : String) (value : Value) :
    (r.writeSlot name value).slot other = if name = other then value else r.slot other := by
  simp only [slot, writeSlot, Table.find?_put]
  split <;> rfl

end References
end BuildEngine
