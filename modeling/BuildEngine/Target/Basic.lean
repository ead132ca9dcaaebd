import BuildEngine.Element
import BuildEngine.Table
import BuildEngine.Value
import BuildEngine.Text.Blank
import BuildEngine.Text.Quoted

/-!
Targets: named lists of tasks with the targets that have to run before them and the properties
that guard them. A task or type stands in a target as an invocation: the element that it is made
from and, once it was made, its object.

A project has its targets in the order of their declarations. Each one stands under its own name,
and declaring or changing a target cannot break that.
-/

namespace BuildEngine

open BuildEngine.Text

/-- A task or type in a target. It is configured once, at its first performance. -/
structure Invocation where
  element : Option Element := none
  object : Option ObjectId := none
  configured : Bool := false
  deriving Inhabited

/-- A target. The target without a name holds the tasks outside of all targets. -/
structure Target where
  name : String
  depends : List String := []
  ifCondition : Option String := none
  unlessCondition : Option String := none
  description : Option String := none
  location : Location := .unknown
  invocations : List Invocation := []
  deriving Inhabited

/-- The names in a list with commas between them, without blanks around them. -/
def splitNames (list : String) : List String :=
  (((splitOn (· == ',') list.toList).map trimChars).filter (!·.isEmpty)).map String.ofList

def splitNames? (list : Option String) : List String := (list.map splitNames).getD []

namespace Target

def text (t : Target) : String := s!"Target({quote t.name})"

/-- Whether a target is the one that holds the tasks outside of all targets. -/
def isRoot (t : Target) : Bool := t.name == ""

end Target

/-- The targets of a project, each under its own name. -/
structure Targets where
  table : Table String Target
  named : ∀ entry ∈ table.entries, entry.2.name = entry.1

namespace Targets

def empty : Targets := ⟨.empty, fun _ member => nomatch member⟩

instance : Inhabited Targets := ⟨empty⟩

/-- The names of the targets. -/
def keys (ts : Targets) : List String := ts.table.keys

def values (ts : Targets) : List Target := ts.table.values

def find? (ts : Targets) (name : String) : Option Target := ts.table.find? name

def contains (ts : Targets) (name : String) : Bool := ts.table.contains name

/-- The targets with one more, or with one in place of the target of its name. -/
def put (ts : Targets) (t : Target) : Targets where
  table := ts.table.put t.name t
  named entry member := by
    rcases Table.mem_entries_put member with same | old
    · rw [same]
    · exact ts.named entry old

def changeInvocations (ts : Targets) (name : String)
    (change : List Invocation → List Invocation) : Targets :=
  match ts.find? name with
  | some t => ts.put { t with invocations := change t.invocations }
  | none => ts

theorem name_of_find? {ts : Targets} {name : String} {t : Target}
    (found : ts.find? name = some t) : t.name = name :=
  ts.named _ (Table.mem_entries_of_find? found)

theorem find?_put (ts : Targets) (t : Target) (name : String) :
    (ts.put t).find? name = if t.name = name then some t else ts.find? name :=
  Table.find?_put ts.table t.name name t

/-- Only the target of the name changes, and of it only what stands in it. -/
theorem find?_changeInvocations (ts : Targets) (name other : String)
    (change : List Invocation → List Invocation) :
    (ts.changeInvocations name change).find? other =
      if name = other then
        (ts.find? name).map fun t => { t with invocations := change t.invocations }
      else ts.find? other := by
  unfold changeInvocations
  split
  · next t found =>
    cases name_of_find? found
    rw [find?_put, found]
    rfl
  · next absent =>
    by_cases same : name = other
    · rw [if_pos same, ← same, absent]
      rfl
    · rw [if_neg same]

theorem contains_iff_mem_keys (ts : Targets) (name : String) :
    ts.contains name = true ↔ name ∈ ts.keys :=
  ts.table.contains_iff_mem_keys name

theorem contains_iff_find? (ts : Targets) (name : String) :
    ts.contains name = true ↔ ∃ t, ts.find? name = some t :=
  Option.isSome_iff_exists

theorem nodup_keys (ts : Targets) : ts.keys.Nodup := ts.table.nodup_keys

/-- The targets are those that are found under their names. -/
theorem mem_values_iff {ts : Targets} {t : Target} :
    t ∈ ts.values ↔ ts.find? t.name = some t := by
  constructor
  · intro member
    obtain ⟨entry, stored, same⟩ := List.mem_map.mp member
    subst same
    rw [ts.named entry stored]
    exact Table.find?_of_mem_entries stored
  · intro found
    exact List.mem_map.mpr ⟨_, Table.mem_entries_of_find? found, rfl⟩

end Targets
end BuildEngine
