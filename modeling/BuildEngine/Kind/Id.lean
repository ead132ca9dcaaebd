/-!
Identities of kinds. A kind is what an object of a build is: a task, a data type, an element
nested in one of them, or plain data. The standard kinds are fixed; further kinds are declared
and numbered in the order of their declaration.
-/

namespace BuildEngine

/-- The kinds that every build knows. -/
inductive Standard where
  /-- Anything at all. -/
  | object
  /-- Kinds whose objects may be references to others. -/
  | referable
  /-- Objects with attributes. -/
  | container
  /-- Objects of a project. -/
  | component
  /-- Objects that can be shared by name. -/
  | dataType
  /-- Build actions. -/
  | task
  /-- Build actions whose user decides what a failure means. -/
  | policyTask
  /-- Tasks that register further kinds. -/
  | definition
  | pathElement | pathList | fileName | fileList | mapper | param | referenceForward
  | call | delete | echo | fail | property | taskdef | touch | typedef | upToDate
  /-- Plain data that can be made from nothing. -/
  | emptyList | emptyPath | noughtReal
  deriving Repr, DecidableEq, Inhabited

/-- The identity of a kind. -/
inductive KindId where
  | standard (kind : Standard)
  | declared (index : Nat)
  deriving Repr, DecidableEq, Inhabited

instance : Coe Standard KindId := ⟨.standard⟩

end BuildEngine
