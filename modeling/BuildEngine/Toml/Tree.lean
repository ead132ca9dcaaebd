import BuildEngine.Value

/-!
The tables of a configuration as they are built up: a key is a path of names that leads from table
to table, and the tables on the way are made when they are first used.
-/

namespace BuildEngine.Toml

open BuildEngine.Text

/-- The entries of a table, oldest first. -/
abbrev Entries := List (String × Value)

/-- A path of names. -/
abbrev Key := List String

def keyText : Key → String
  | [name] => s!"({quote name},)"
  | names => "(" ++ ", ".intercalate (names.map quote) ++ ")"

/-- Why a table cannot be changed at a key. -/
inductive Obstacle where
  /-- The key leads to something other than a table. -/
  | noTable
  /-- There is something at the key. -/
  | taken
  deriving Repr, DecidableEq

def valueAt? (name : String) (entries : Entries) : Option Value :=
  (entries.find? fun entry => entry.1 == name).map Prod.snd

/-- Puts a value under a name: in place of the one that is there, or at the end. -/
def putEntry (name : String) (v : Value) : Entries → Entries
  | [] => [(name, v)]
  | entry :: rest =>
    if entry.1 == name then (name, v) :: rest else entry :: putEntry name v rest

/-- Changes the table at the end of a key. A list of tables stands for its last one, if the key
may lead through lists. -/
def changeTable (throughLists : Bool) (change : Entries → Except Obstacle Entries) :
    Key → Entries → Except Obstacle Entries
  | [], entries => change entries
  | name :: rest, entries =>
    let put := fun (wrap : Entries → Value) (inner : Entries) =>
      (changeTable throughLists change rest inner).map fun changed =>
        putEntry name (wrap changed) entries
    match valueAt? name entries with
    | none => put .record []
    | some (.record inner) => put .record inner
    | some (.list items) =>
      match throughLists, items.getLast? with
      | true, some (.record inner) => put (fun e => .list (items.dropLast ++ [.record e])) inner
      | _, _ => .error .noTable
    | some _ => .error .noTable

def addEntry (name : String) (v : Value) (entries : Entries) : Except Obstacle Entries :=
  if (valueAt? name entries).isSome then .error .taken else .ok (entries ++ [(name, v)])

def addTable (name : String) (entries : Entries) : Except Obstacle Entries :=
  match valueAt? name entries with
  | none => .ok (entries ++ [(name, .list [.record []])])
  | some (.list items) => .ok (putEntry name (.list (items ++ [.record []])) entries)
  | some _ => .error .noTable

/-- The names of a key before its last one. -/
def parentOf (key : Key) : Key := key.dropLast

def lastName (key : Key) : String := key.getLast?.getD ""

/-- Whether a key is at or below one of several others. -/
def isBelow (others : List Key) (key : Key) : Bool := others.any (·.isPrefixOf key)

def isNested : Value → Bool
  | .list _ | .record _ => true
  | _ => false

theorem valueAt?_putEntry (name other : String) (v : Value) (entries : Entries) :
    valueAt? other (putEntry name v entries) =
      if name = other then some v else valueAt? other entries := by
  induction entries with
  | nil => by_cases same : name = other <;> simp [putEntry, valueAt?, same]
  | cons entry rest ih =>
    simp only [valueAt?] at ih ⊢
    by_cases here : entry.1 = name
    · by_cases same : name = other <;> simp [putEntry, here, same]
    · by_cases found : entry.1 = other
      · have different : ¬(name = other) := fun same => here (found.trans same.symm)
        have other_ne : ¬(other = name) := fun same => different same.symm
        simp [putEntry, found, different, other_ne]
      · simp [putEntry, here, found, ih]

end BuildEngine.Toml
