import BuildEngine.DataType
import BuildEngine.Kind.Catalogue
import BuildEngine.Task.Basic

/-!
Definitions of elements: a class of the catalogue is registered as a task or as a type under the
name that a definition gives it.
-/

namespace BuildEngine

def ClassName.shown (c : ClassName) : String := s!"<class '{c.text}'>"

namespace Engine

variable {φ : Type}

/-- The kind of a class, which is declared anew if it is no standard one. Nothing is known about
such a class but that its objects cannot be made. -/
def kindOfClass (c : ClassName) : Engine φ Kind := do
  match Catalogue.kindOf? c with
  | some k => return k
  | none => declareKind {
      name := c.name, home := c.home, bases := [Standard.object]
      initializer := some [{ name := "value" }] }

def definedClass (id : ObjectId) : Engine φ ClassName := do
  if ← isSet id "classpath" then
    match ← readField id "classpath" with
    | .object list => let _ ← consult (·.locations list)
    | _ => pure ()
  let name ← textOf id "classname"
  match Catalogue.lookup name with
  | .ok found => return found
  | .error error =>
    let owner ← observe (·.describe id)
    reject id (.noLoad owner name error.message)

/-- Registers what a definition names as a task or as a type. -/
def define (asTask : Bool) (id : ObjectId) : Engine φ (Option TaskStatus) := do
  let name ← textOf id "name_"
  let found ← definedClass id
  let change : Registry → Except RegistrationError Registry ←
    if asTask then
      match Catalogue.kindOf? found with
      | some k => pure (·.addTask name (.kind k))
      | none => pure (·.addTask name (.other found.shown))
    else do
      let k ← kindOfClass found
      pure (·.addType name (.kind k))
  tryCatch (changeRegistry change) fun fault => do
    let owner ← observe (·.describe id)
    reject id (.noRegistration owner fault.message)
  logOf id .debug s!"Registered <{name}> as {found.name}"
  return none

end Engine
end BuildEngine
