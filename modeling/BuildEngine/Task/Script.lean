import BuildEngine.Task.Basic

/-!
Scripts: the actions of a declared task, which are performed one after another until one of them
ends the task. What becomes of a problem that a script leaves to the failure policy is a parameter
here.
-/

namespace BuildEngine.Engine

variable {φ : Type} (leave : Policy φ)

/-- The text that declared handlers took, if they took any. -/
def nestedText (o : Object) : Option String :=
  if o.texts.isEmpty then none else some (String.join o.texts)

/-- Writes a value with the name of its type to a property. -/
def storeValue (project : ProjectId) (name : String) (v : Value) : Engine φ Unit := do
  let text ← observe fun w => s!"{v.typeName w.typeName}:{v.display w.shown}"
  let _ ← setProperty project name text true

/-- Performs an action that does not end the task with a result. -/
def perform (id : ObjectId) : Action → Engine φ Unit
  | .setProperty name value => do
    let _ ← setProperty (← object id).project name value true
  | .log level message => logOf id level message
  | .fail message => failTask id message
  | .reject message => throw (Problem.stated message).fault
  | .crash message => throw (.crashed message)
  | .interrupt => throw .interrupted
  | .report .. => return ()
  | .read field => do
    storeValue (← object id).project s!"read.{field}" (← readField id field)
  | .readChild index field => do
    let o ← object id
    match o.children[index]? with
    | some (_, child) => storeValue o.project s!"read.{field}" (← readField child field)
    | none => return ()
  | .writeSlot name value => do
    changeProject (← object id).project fun p =>
      { p with references := p.references.writeSlot name value }
  | .handleError message => leave id message
  | .checkPolicy => checkPolicy id
  | .storeText name => do
    let o ← object id
    let _ ← setProperty o.project name ((nestedText o).getD "<none>") true
  | .resolve field => do
    match ← readField id field with
    | .reference r =>
      let found ← consult fun w =>
        (w.resolve r.project r.id).mapError fun error => (Problem.reference error).faultAt r.location
      let text ← observe fun w => s!"{w.typeName found}:{w.describe found}"
      let _ ← setProperty (← object id).project s!"resolved.{field}" text true
    | _ => return ()

/-- Performs a script. -/
def performAll (id : ObjectId) : List Action → Engine φ (Option TaskStatus)
  | [] => return none
  | .report type message :: _ => return some ⟨type, message⟩
  | action :: rest => do
    perform leave id action
    performAll id rest

end BuildEngine.Engine
