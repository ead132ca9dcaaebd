import BuildEngine.World

/-!
Actions on the world of a build. An action ends with a result or with a fault; in both cases what
it did to the world stays done.
-/

namespace BuildEngine

/-- An action on a world. -/
abbrev Engine (φ : Type) := ExceptT Fault (StateM (World φ))

namespace Engine

variable {φ : Type} {α β : Type}

def run (action : Engine φ α) (w : World φ) : Except Fault α × World φ :=
  (ExceptT.run action).run w

@[simp] theorem run_pure (a : α) (w : World φ) : (pure a : Engine φ α).run w = (.ok a, w) := rfl

@[simp] theorem run_get (w : World φ) : (get : Engine φ (World φ)).run w = (.ok w, w) := rfl

@[simp] theorem run_throw (fault : Fault) (w : World φ) :
    (throw fault : Engine φ α).run w = (.error fault, w) := rfl

theorem run_bind_ok {action : Engine φ α} {next : α → Engine φ β} {w after : World φ} {a : α}
    (first : action.run w = (.ok a, after)) : (action >>= next).run w = (next a).run after := by
  change (match action w with | (result, after) => ExceptT.bindCont next result after) = _
  rw [show action w = (.ok a, after) from first]
  rfl

theorem run_bind_error {action : Engine φ α} {next : α → Engine φ β} {w after : World φ}
    {fault : Fault} (first : action.run w = (.error fault, after)) :
    (action >>= next).run w = (.error fault, after) := by
  change (match action w with | (result, after) => ExceptT.bindCont next result after) = _
  rw [show action w = (.error fault, after) from first]
  rfl

theorem run_map (change : α → β) (action : Engine φ α) (w : World φ) :
    (change <$> action).run w = ((action.run w).1.map change, (action.run w).2) := by
  simp only [Engine.run, ExceptT.run_map, StateT.run_map]
  rfl

theorem run_tryCatch_ok {action : Engine φ α} {handler : Fault → Engine φ α} {w after : World φ}
    {a : α} (first : action.run w = (.ok a, after)) :
    (tryCatch action handler).run w = (.ok a, after) := by
  simp only [Engine.run, tryCatch, tryCatchThe, MonadExceptOf.tryCatch, ExceptT.tryCatch,
    ExceptT.run_mk, StateT.run_bind]
  rw [show StateT.run action w = (.ok a, after) from first]
  rfl

theorem run_tryCatch_error {action : Engine φ α} {handler : Fault → Engine φ α}
    {w after : World φ} {fault : Fault} (first : action.run w = (.error fault, after)) :
    (tryCatch action handler).run w = (handler fault).run after := by
  simp only [Engine.run, tryCatch, tryCatchThe, MonadExceptOf.tryCatch, ExceptT.tryCatch,
    ExceptT.run_mk, StateT.run_bind]
  rw [show StateT.run action w = (.error fault, after) from first]
  rfl

/-- What is seen of the world. -/
def observe (look : World φ → α) : Engine φ α := do return look (← get)

@[simp] theorem run_observe (look : World φ → α) (w : World φ) :
    (observe look).run w = (.ok (look w), w) := rfl

/-- What is seen of the world, unless looking at it ends with a fault. -/
def consult (look : World φ → Except Fault α) : Engine φ α := do
  match look (← get) with
  | .ok result => return result
  | .error fault => throw fault

/-- Runs an action and changes the fault with which it may end. -/
def adapting (change : Fault → Fault) (action : Engine φ α) : Engine φ α :=
  tryCatch action fun fault => throw (change fault)

/-- Runs an action and gives faults of the build description a place, unless they have one. -/
def locating (l : Location) (action : Engine φ α) : Engine φ α := adapting (Fault.placed l) action

def log (level : LogLevel) (logger message : String) : Engine φ Unit :=
  modify fun w => { w with logged := w.logged.push ⟨level, logger, message⟩ }

/-- The name under which the engine itself logs. -/
def ownLogger : String := "anvil"

def changeProject (id : ProjectId) (change : Project → Project) : Engine φ Unit :=
  modify fun w => { w with projects := w.projects.modify id change }

def changeObject (id : ObjectId) (change : Object → Object) : Engine φ Unit :=
  modify fun w => { w with objects := w.objects.modify id change }

def addProject (p : Project) : Engine φ ProjectId := do
  let w ← get
  set { w with projects := w.projects ++ [p] }
  return w.projects.length

def addObject (o : Object) : Engine φ ObjectId := do
  let w ← get
  set { w with objects := w.objects ++ [o] }
  return w.objects.length

def project (id : ProjectId) : Engine φ Project := observe (·.project id)

@[simp] theorem run_project (id : ProjectId) (w : World φ) :
    (project id).run w = (.ok (w.project id), w) := rfl

def object (id : ObjectId) : Engine φ Object := observe (·.object id)

@[simp] theorem run_object (id : ObjectId) (w : World φ) :
    (object id).run w = (.ok (w.object id), w) := rfl

/-- Sets a property of a project; the result tells whether the value was stored. -/
def setProperty (id : ProjectId) (name value : String) (override : Bool := false) :
    Engine φ Bool := do
  let (stored, properties) := (← project id).properties.set name value override
  changeProject id fun p => { p with properties }
  return stored

/-- Gives a name to an object, and warns if the name is taken from another one. -/
def register (id : ProjectId) (name : String) (object : ObjectId) : Engine φ Unit := do
  if (← project id).references.replaces name object then
    log .warning ownLogger (References.replacedText name)
  changeProject id fun p => { p with references := p.references.register name object }

def declareKind (d : Declaration) : Engine φ Kind := do
  let w ← get
  match w.kinds.declare d with
  | .ok (kind, kinds) => do
    set { w with kinds }
    return kind
  | .error error => throw (.kind error)

def changeRegistry (change : Registry → Except RegistrationError Registry) : Engine φ Unit := do
  let w ← get
  match change w.registry with
  | .ok registry => set { w with registry }
  | .error error => throw (.registration error)

def changeFiles (operation : φ → Except FileError φ) : Engine φ Unit := do
  let w ← get
  match operation w.files with
  | .ok files => set { w with files }
  | .error error => throw (.file error)

/-- Performs a file operation that only looks at files. -/
def readFiles (operation : φ → Except FileError α) : Engine φ α := do
  match operation (← get).files with
  | .ok result => return result
  | .error error => throw (.file error)

/-- Tells the observer what happens. -/
def notify (event : Event) : Engine φ Unit :=
  modify fun w =>
    match w.observer with
    | .silent => w
    | .recorder => { w with events := w.events.push event }
    | .reporter report =>
      let (next, text) := report.tell event
      { w with observer := .reporter next, printed := w.printed ++ text }

end Engine
end BuildEngine
