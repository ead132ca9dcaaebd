import BuildEngine.Fault
import BuildEngine.Kind.Library
import BuildEngine.Text.Case

/-!
The registry: the names, in any case, under which elements denote tasks and data types. A name
denotes a task or a type, never both; the last registration counts.
-/

namespace BuildEngine

open BuildEngine.Text

/-- The registered tasks and types, under names in lower case. -/
structure Registry where
  tasks : Table String KindId := .empty
  types : Table String KindId := .empty

namespace Registry

instance : Inhabited Registry := ⟨{}⟩

/-- What is registered under a name: a kind, or something that is none, as messages show it. -/
inductive Candidate where
  | kind (k : Kind)
  | other (shown : String)

def Candidate.shown : Candidate → String
  | kind k => k.shown
  | other s => s

def addTask (r : Registry) (name : String) : Candidate → Except RegistrationError Registry
  | .kind k =>
    if k.isTask then
      .ok { tasks := r.tasks.put (lower name) k.id, types := r.types.erase (lower name) }
    else .error (.noTask name k.shown)
  | .other shown => .error (.noTask name shown)

/-- Registers a kind that is none of tasks. -/
def addType (r : Registry) (name : String) : Candidate → Except RegistrationError Registry
  | .kind k =>
    if k.isTask then .error (.isTask k.name)
    else .ok { types := r.types.put (lower name) k.id, tasks := r.tasks.erase (lower name) }
  | .other shown => .error (.noKind name shown)

def find? (r : Registry) (name : String) : Option KindId :=
  (r.tasks.find? (lower name)).or (r.types.find? (lower name))

/-- Whether a name denotes a task or a type. -/
def contains (r : Registry) (name : String) : Bool := (r.find? name).isSome

/-- Names in their order, as messages show them. -/
def namesText (names : List String) : String :=
  let sorted := names.mergeSort fun a b => decide (a ≤ b)
  "[" ++ ", ".intercalate (sorted.map quote) ++ "]"

def text (r : Registry) : String :=
  s!"ComponentRegistry(tasks={namesText r.tasks.keys}, types={namesText r.types.keys})"

def standardTasks : List (String × Standard) := [
  ("call", .call), ("delete", .delete), ("echo", .echo), ("fail", .fail),
  ("property", .property), ("taskdef", .taskdef), ("touch", .touch), ("typedef", .typedef),
  ("uptodate", .upToDate)]

def standardTypes : List (String × Standard) := [
  ("filelist", .fileList), ("mapper", .mapper), ("path", .pathList)]

/-- Registers the standard tasks and types. -/
def addStandard (r : Registry) : Registry :=
  let addWith := fun (add : Registry → String → Candidate → Except RegistrationError Registry)
      (r : Registry) (entry : String × Standard) =>
    match add r entry.1 (.kind (Kinds.standard.get entry.2)) with
    | .ok more => more
    | .error _ => r
  standardTypes.foldl (addWith addType) (standardTasks.foldl (addWith addTask) r)

end Registry
end BuildEngine
