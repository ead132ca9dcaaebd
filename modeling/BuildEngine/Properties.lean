import BuildEngine.Table
import BuildEngine.Template
import BuildEngine.Text.Quoted

/-!
Build properties: names with text values. The first writer of a property wins, unless a later one
asks to override. A user property is set for good: only another user value replaces it.
-/

namespace BuildEngine

open BuildEngine.Text

/-- A stored property: its value and whether the user gave it. -/
structure Property where
  value : String
  isUser : Bool
  deriving Repr, DecidableEq, Inhabited

/-- The properties of one project, in the order in which their names were first set. -/
structure Properties where
  table : Table String Property := .empty

namespace Properties

instance : Inhabited Properties := ⟨{}⟩

/-- The store without properties. -/
def empty : Properties := {}

/-- The value of a property. -/
def get? (p : Properties) (name : String) : Option String := (p.table.find? name).map (·.value)

/-- Whether a property is set. -/
def contains (p : Properties) (name : String) : Bool := p.table.contains name

/-- Whether a property was given by the user. -/
def isUser (p : Properties) (name : String) : Bool := (p.table.find? name).any (·.isUser)

/-- Whether a write is let through: user properties never, others if they are not set or the
writer overrides. -/
def admits (p : Properties) (name : String) (override : Bool) : Bool :=
  !p.isUser name && (override || !p.contains name)

/-- Sets a property; the flag tells whether the value was stored. -/
def set (p : Properties) (name value : String) (override : Bool := false) : Bool × Properties :=
  if p.admits name override then (true, ⟨p.table.put name ⟨value, false⟩⟩) else (false, p)

def setUser (p : Properties) (name value : String) : Properties :=
  ⟨p.table.put name ⟨value, true⟩⟩

/-- The user properties of some names and values, where the last value of a name counts. -/
def ofUser (entries : List (String × String)) : Properties :=
  entries.foldl (fun store entry => store.setUser entry.1 entry.2) {}

/-- Sets a property that a calling build hands down: a user property, unless the user set it. -/
def setInherited (p : Properties) (name value : String) : Properties :=
  if p.isUser name then p else p.setUser name value

/-- Names and values, in the order in which the names were first set. -/
def toList (p : Properties) : List (String × String) :=
  p.table.entries.map fun entry => (entry.1, entry.2.value)

/-- Names and values of the user properties. -/
def userList (p : Properties) : List (String × String) :=
  (p.table.entries.filter fun entry => entry.2.isUser).map fun entry => (entry.1, entry.2.value)

def size (p : Properties) : Nat := p.table.size

/-- Replaces the references in a template. -/
def resolve (p : Properties) (template : String) : String := Template.expand p.get? template

/-- The store as messages show it. -/
def text (p : Properties) : String :=
  let fields := p.toList.map fun entry => s!"{quote entry.1}: {quote entry.2}"
  "PropertyStore(\x7b" ++ ", ".intercalate fields ++ "\x7d)"

theorem get?_setUser (p : Properties) (name other value : String) :
    (p.setUser name value).get? other = if name = other then some value else p.get? other := by
  simp only [get?, setUser, Table.find?_put]
  split <;> rfl

theorem isUser_setUser (p : Properties) (name other value : String) :
    (p.setUser name value).isUser other = (decide (name = other) || p.isUser other) := by
  simp only [isUser, setUser, Table.find?_put]
  split <;> simp_all

theorem find?_set (p : Properties) (name other value : String) (override : Bool) :
    (p.set name value override).2.table.find? other =
      if name = other ∧ p.admits name override = true then some ⟨value, false⟩
      else p.table.find? other := by
  unfold set
  cases admitted : p.admits name override with
  | true => simp [Table.find?_put]
  | false => simp

theorem find?_setUser (p : Properties) (name other value : String) :
    (p.setUser name value).table.find? other =
      if name = other then some ⟨value, true⟩ else p.table.find? other :=
  Table.find?_put p.table name other _

theorem find?_setInherited (p : Properties) (name other value : String) :
    (p.setInherited name value).table.find? other =
      if name = other ∧ p.isUser name = false then some ⟨value, true⟩ else p.table.find? other := by
  unfold setInherited
  cases user : p.isUser name with
  | true => simp
  | false => simp [find?_setUser]

theorem set_of_admits {p : Properties} {name : String} {override : Bool}
    (admitted : p.admits name override = true) (value : String) :
    p.set name value override = (true, ⟨p.table.put name ⟨value, false⟩⟩) := by
  simp [set, admitted]

theorem set_of_not_admits {p : Properties} {name : String} {override : Bool}
    (refused : p.admits name override = false) (value : String) :
    p.set name value override = (false, p) := by
  simp [set, refused]

end Properties
end BuildEngine
