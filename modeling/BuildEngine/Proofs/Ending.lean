import BuildEngine.DataType
import BuildEngine.Kind.Id
import BuildEngine.Staleness
import BuildEngine.Task.Basic

/-! Faults with which something may end. One rule for each way to put things together tells with
which faults the whole may end; what is read of a world ends with few. -/

namespace BuildEngine

variable {φ : Type} {α β γ : Type}

namespace Problem

/-- Problems of the declarations of a kind. -/
def isDeclaration : Problem → Bool
  | reservedAttribute .. | duplicateAttribute .. | duplicateText .. | textArity ..
  | duplicateElement .. | unknownType .. | elementArity .. | missingType .. | noConcreteKind ..
  | abstractChild .. | inconstructibleChild .. => true
  | _ => false

/-- Problems with objects that are made. -/
def isOfMaking : Problem → Bool
  | noChildCreated .. | inconstructible _ | secondMapper | stated _ => true
  | _ => false

end Problem

namespace Fault

/-- Faults with which a build description is refused. -/
def isConfiguration : Fault → Bool
  | configuration .. => true
  | _ => false

/-- Faults with which a build description is refused although all declarations are right. -/
def refuses : Fault → Bool
  | configuration problem _ => !problem.isDeclaration
  | _ => false

/-- Faults with which an object may not be made. -/
def endsMaking : Fault → Bool
  | configuration .. | abstractKind .. | rejected _ => true
  | _ => false

/-- Faults with which an object may not be made of a kind whose declarations are right. -/
def isOfMaking : Fault → Bool
  | configuration problem _ => problem.isOfMaking
  | abstractKind .. | rejected _ => true
  | _ => false

/-- Faults of an attribute that does not take a value. -/
def isRejected : Fault → Bool
  | rejected _ => true
  | _ => false

/-- Faults of an attribute that is read and holds nothing. -/
def isEmpty : Fault → Bool
  | empty .. => true
  | _ => false

/-- Faults with which a reading may end. -/
def endsReading : Fault → Bool
  | configuration problem _ => !problem.isDeclaration
  | empty .. | undecodable _ => true
  | _ => false

/-- Faults that pass through a project as they are: a kind that has no objects, or does not take
its own values; a text that is none, a path outside of a directory, a time that is none, a file
operation that is refused; what a declared kind or task does; calls that lead too deep. -/
def escapes : Fault → Bool
  | empty .. | rejected _ | abstractKind .. | kind _ | undecodable _ | outside .. | tooLarge
  | file _ | tooDeep | crashed _ | interrupted => true
  | _ => false

/-- Faults with which the work of a task may end. No task looks at declarations. -/
def endsTask : Fault → Bool
  | configuration problem _ => !problem.isDeclaration
  | task .. => true
  | fault => fault.escapes

/-- Faults with which something may end that is performed. -/
def endsWork : Fault → Bool
  | configuration .. | task .. => true
  | fault => fault.escapes

theorem endsWork_of_isConfiguration (fault : Fault) (may : fault.isConfiguration = true) :
    fault.endsWork = true := by
  cases fault <;> first | rfl | cases may

theorem endsMaking_of_isConfiguration (fault : Fault) (may : fault.isConfiguration = true) :
    fault.endsMaking = true := by
  cases fault <;> first | rfl | cases may

theorem isConfiguration_of_refuses (fault : Fault) (may : fault.refuses = true) :
    fault.isConfiguration = true := by
  cases fault <;> first | rfl | cases may

theorem isOfMaking_of_isRejected (fault : Fault) (may : fault.isRejected = true) :
    fault.isOfMaking = true := by
  cases fault <;> first | rfl | cases may

theorem endsMaking_of_isOfMaking (fault : Fault) (may : fault.isOfMaking = true) :
    fault.endsMaking = true := by
  cases fault <;> first | rfl | cases may

theorem endsTask_of_refuses (fault : Fault) (may : fault.refuses = true) :
    fault.endsTask = true := by
  cases fault <;> first | exact may | cases may

theorem endsTask_of_isOfMaking (fault : Fault) (may : fault.isOfMaking = true) :
    fault.endsTask = true := by
  cases fault with
  | configuration problem => cases problem <;> first | rfl | cases may
  | _ => first | rfl | cases may

theorem endsTask_of_escapes (fault : Fault) (may : fault.escapes = true) :
    fault.endsTask = true := by
  cases fault <;> first | rfl | cases may

theorem endsWork_of_endsTask (fault : Fault) (may : fault.endsTask = true) :
    fault.endsWork = true := by
  cases fault <;> first | rfl | cases may

theorem endsWork_of_endsMaking (fault : Fault) (may : fault.endsMaking = true) :
    fault.endsWork = true := by
  cases fault <;> first | rfl | cases may

theorem endsReading_of_isEmpty (fault : Fault) (may : fault.isEmpty = true) :
    fault.endsReading = true := by
  cases fault <;> first | rfl | cases may

theorem endsTask_of_endsReading (fault : Fault) (may : fault.endsReading = true) :
    fault.endsTask = true := by
  cases fault <;> first | exact may | rfl

/-- Faults of the build description are the only ones that are given a place. -/
theorem placed_of {may : Fault → Bool} {l : Location}
    (anywhere : ∀ problem place other,
      may (.configuration problem place) = true → may (.configuration problem other) = true)
    (fault : Fault) (allowed : may fault = true) : may (fault.placed l) = true := by
  cases fault with
  | configuration problem place => exact anywhere problem place _ allowed
  | _ => exact allowed

end Fault

/-- A result that is as wanted, or a fault that may be. -/
def Admissible (may : Fault → Bool) (result : Except Fault α)
    (wanted : α → Prop := fun _ => True) : Prop :=
  match result with
  | .ok a => wanted a
  | .error fault => may fault = true

namespace Admissible

variable {may other : Fault → Bool} {wanted : α → Prop} {later : β → Prop}
variable {result : Except Fault α} {next : α → Except Fault β}

theorem imp (admissible : Admissible may result wanted)
    (implies : ∀ fault, may fault = true → other fault = true) :
    Admissible other result wanted := by
  cases result with
  | ok => exact admissible
  | error fault => exact implies fault admissible

theorem bind (first : Admissible may result wanted)
    (rest : ∀ a, wanted a → Admissible may (next a) later) :
    Admissible may (result >>= next) later := by
  cases result with
  | ok a => exact rest a first
  | error => exact first

theorem map (change : α → β) (admissible : Admissible may result) :
    Admissible may (result.map change) := by
  cases result with
  | ok => trivial
  | error => exact admissible

theorem mapError {ε : Type} {change : ε → Fault} (becomes : ∀ e, may (change e) = true)
    (result : Except ε α) : Admissible may (result.mapError change) := by
  cases result with
  | ok => trivial
  | error e => exact becomes e

theorem mapM {f : γ → Except Fault α} (each : ∀ c, Admissible may (f c)) (entries : List γ) :
    Admissible may (entries.mapM f) := by
  induction entries with
  | nil => trivial
  | cons c rest ih =>
    rw [List.mapM_cons]
    exact (each c).bind fun _ _ => ih.bind fun _ _ => trivial

end Admissible

namespace World

/-! What is read of a world. -/

variable (w : World φ) (id : ObjectId) (name : String)

/-- No supplier of an attribute fails. -/
theorem get_supplierOf (slots : ProjectId × String → Value) (steps : Nat) (source : Source)
    (fault : Fault) : (w.supplierOf steps source).get slots ≠ .error (.failed fault) := by
  induction steps generalizing source fault with
  | zero => cases source <;> simp [supplierOf, Supplier.get]
  | succ steps ih =>
    cases source with
    | void => simp [supplierOf, Supplier.get]
    | value => simp [supplierOf, Supplier.get]
    | slot => simp [supplierOf, Supplier.get]
    | field id name =>
      rw [supplierOf, Supplier.get]
      split
      · nofun
      · next failed => exact absurd failed (ih _ _)
      · nofun

/-- Reading an attribute ends with nothing but its emptiness. -/
theorem empties_read : Admissible Fault.isEmpty (w.read id name) := by
  unfold read
  split
  · trivial
  · next lack none =>
    cases lack with
    | empty supplier message cause =>
      unfold lackFault
      cases supplier <;> rfl
    | failed fault => exact absurd none (w.get_supplierOf _ _ _ _)

theorem admissible_read : Admissible Fault.endsReading (w.read id name) :=
  (w.empties_read id name).imp Fault.endsReading_of_isEmpty

theorem admissible_readText : Admissible Fault.endsReading (w.readText id name) :=
  (w.admissible_read id name).map _

theorem admissible_readFlag : Admissible Fault.endsReading (w.readFlag id name) :=
  (w.admissible_read id name).map _

theorem admissible_readPath : Admissible Fault.endsReading (w.readPath id name) :=
  (w.admissible_read id name).map _

theorem admissible_target : Admissible Fault.refuses (w.target id) := by
  unfold target
  split
  · trivial
  · split
    · trivial
    · rfl

theorem reads_target : Admissible Fault.endsReading (w.target id) :=
  (w.admissible_target id).imp fun fault may => by
    cases fault <;> first | exact may | cases may

theorem admissible_listDirectory : Admissible Fault.endsReading (w.listDirectory id) := by
  unfold listDirectory
  refine (w.reads_target id).bind fun list _ => ?_
  split
  · rfl
  · exact w.admissible_readPath list _

theorem admissible_listedNames [FileSystem φ] (list : ObjectId) (path : Path) :
    Admissible Fault.endsReading (w.listedNames list path) := by
  unfold listedNames
  extract_lets o
  split
  · rfl
  · exact (Admissible.mapError (fun _ => rfl) _).bind fun _ _ => trivial

theorem admissible_listFiles [FileSystem φ] : Admissible Fault.endsReading (w.listFiles id) := by
  unfold listFiles
  refine (w.reads_target id).bind fun list _ => ?_
  refine (w.admissible_listDirectory list).bind fun _ _ => ?_
  extract_lets complete
  have completes (given : List String) : Admissible Fault.endsReading (complete given) := by
    refine (Admissible.mapM (fun part => w.admissible_readText part "name_") _).bind
      fun nested _ => ?_
    extract_lets collect
    have collects (listed : List String) : Admissible Fault.endsReading (collect listed) := by
      unfold collect
      extract_lets names
      split
      · rfl
      · trivial
    split
    · refine (w.admissible_readPath list _).bind fun path _ => ?_
      exact (w.admissible_listedNames list path).bind fun listed _ => collects listed
    · exact collects []
  split
  · exact ((w.admissible_readText list _).map _).bind fun given _ => completes given
  · exact completes []

theorem admissible_ofGlob (source derived : String) (caseSensitive : Bool) (l : Location) :
    Admissible Fault.endsReading
      ((Mapper.ofGlob source derived caseSensitive).mapError (·.faultAt l)) := by
  unfold Mapper.ofGlob
  split
  · trivial
  · rfl

theorem admissible_ofRegexp (source template : String) (caseSensitive : Bool) (l : Location) :
    Admissible Fault.endsReading
      ((Mapper.ofRegexp source template caseSensitive).mapError (·.faultAt l)) := by
  unfold Mapper.ofRegexp
  split
  · trivial
  · rfl

theorem admissible_mapper : Admissible Fault.endsReading (w.mapper id) := by
  unfold mapper
  refine (w.reads_target id).bind fun m _ => ?_
  extract_lets location derive
  split
  · rfl
  unfold derive
  refine ((w.admissible_read m _).map _).bind fun type _ => ?_
  split
  · trivial
  · trivial
  extract_lets deriveTo
  split
  · rfl
  unfold deriveTo
  refine (w.admissible_readText m _).bind fun derived _ => ?_
  extract_lets deriveFrom
  split
  · trivial
  split
  · rfl
  unfold deriveFrom
  refine (w.admissible_readText m _).bind fun source _ => ?_
  refine (w.admissible_readFlag m _).bind fun caseSensitive _ => ?_
  extract_lets made
  unfold made
  split
  · exact admissible_ofGlob source derived caseSensitive location
  · exact admissible_ofRegexp source derived caseSensitive location

theorem empties_ownLocations : Admissible Fault.isEmpty (w.ownLocations id) := by
  unfold ownLocations
  extract_lets project complete
  have completes (single : List Path) : Admissible Fault.isEmpty (complete single) := by
    unfold complete
    split
    · exact ((w.empties_read id _).map _).bind fun _ _ => trivial
    · trivial
  split
  · exact (((w.empties_read id _).map _).map _).bind fun single _ => completes single
  · exact completes []

theorem admissible_ownLocations : Admissible Fault.endsReading (w.ownLocations id) :=
  (w.empties_ownLocations id).imp Fault.endsReading_of_isEmpty

theorem admissible_locationsOf (levels : Nat) (passed : List ObjectId) (names : List String) :
    Admissible Fault.endsReading (w.locationsOf levels passed names id) := by
  induction levels generalizing passed names id with
  | zero => trivial
  | succ levels ih =>
    unfold locationsOf
    refine (w.reads_target id).bind fun path _ => ?_
    extract_lets longer
    split
    · rfl
    · refine (w.admissible_ownLocations path).bind fun own _ => ?_
      refine (Admissible.mapM (fun part => ?_) _).bind fun _ _ => trivial
      split
      · exact ih part _ _
      · exact w.admissible_ownLocations part

theorem admissible_locations : Admissible Fault.endsReading (w.locations id) :=
  (w.admissible_locationsOf id _ _ _).map _

end World

namespace Engine

/-- However the world is, an action ends with a result as wanted or with a fault that may be. -/
structure Ends (may : Fault → Bool) (action : Engine φ α)
    (wanted : α → Prop := fun _ => True) : Prop where
  admissible : ∀ w, Admissible may (action.run w).1 wanted

namespace Ends

variable {may other : Fault → Bool} {wanted : α → Prop} {later : β → Prop}
variable {action : Engine φ α} {next : α → Engine φ β}

theorem imp (ends : Ends may action wanted)
    (implies : ∀ fault, may fault = true → other fault = true) : Ends other action wanted :=
  ⟨fun w => (ends.admissible w).imp implies⟩

theorem weaken {least : α → Prop} (ends : Ends may action wanted)
    (implies : ∀ a, wanted a → least a) : Ends may action least := by
  refine ⟨fun w => ?_⟩
  have admissible := ends.admissible w
  cases ended : (action.run w).1 with
  | error => rwa [ended] at admissible
  | ok a =>
    rw [ended] at admissible
    exact implies a admissible

theorem any (action : Engine φ α) : Ends (fun _ => true) action := by
  refine ⟨fun w => ?_⟩
  cases (action.run w).1 <;> trivial

theorem pure {a : α} (holds : wanted a) : Ends may (pure a : Engine φ α) wanted := ⟨fun _ => holds⟩

theorem throw {fault : Fault} (allowed : may fault = true) :
    Ends may (MonadExcept.throw fault : Engine φ α) wanted := ⟨fun _ => allowed⟩

/-- Nothing comes after a fault. -/
theorem refuse {fault : Fault} (allowed : may fault = true) :
    Ends may ((MonadExcept.throw fault : Engine φ α) >>= next) later := by
  refine ⟨fun w => ?_⟩
  rw [run_bind_error (run_throw fault w)]
  exact allowed

theorem observe (look : World φ → α) : Ends may (observe look) := ⟨fun _ => trivial⟩

theorem get : Ends may (get : Engine φ (World φ)) := ⟨fun _ => trivial⟩

theorem modify (change : World φ → World φ) : Ends may (modify change : Engine φ Unit) :=
  ⟨fun _ => trivial⟩

theorem consult {look : World φ → Except Fault α} (looks : ∀ w, Admissible may (look w) wanted) :
    Ends may (consult look) wanted := by
  refine ⟨fun w => ?_⟩
  have admissible := looks w
  rw [Engine.consult, run_bind_ok (run_get w)]
  rcases seen : look w with fault | a
  · rwa [seen] at admissible
  · rwa [seen] at admissible

theorem bind (first : Ends may action wanted) (rest : ∀ a, wanted a → Ends may (next a) later) :
    Ends may (action >>= next) later := by
  refine ⟨fun w => ?_⟩
  have admissible := first.admissible w
  rcases ended : action.run w with ⟨fault | a, after⟩
  · rw [ended] at admissible
    rwa [run_bind_error ended]
  · rw [ended] at admissible
    rw [run_bind_ok ended]
    exact (rest a admissible).admissible after

theorem map (change : α → β) (ends : Ends may action wanted)
    (implies : ∀ a, wanted a → later (change a)) : Ends may (change <$> action) later := by
  refine ⟨fun w => ?_⟩
  rw [run_map]
  have admissible := ends.admissible w
  generalize (action.run w).1 = result at admissible
  cases result with
  | ok a => exact implies a admissible
  | error => exact admissible

theorem tryCatch {handler : Fault → Engine φ α} (first : Ends may action wanted)
    (handled : ∀ fault, may fault = true → Ends other (handler fault) wanted) :
    Ends other (MonadExcept.tryCatch action handler) wanted := by
  refine ⟨fun w => ?_⟩
  have admissible := first.admissible w
  rcases ended : action.run w with ⟨fault | a, after⟩
  · rw [ended] at admissible
    rw [run_tryCatch_error ended]
    exact (handled fault admissible).admissible after
  · rw [ended] at admissible
    rwa [run_tryCatch_ok ended]

theorem adapting {change : Fault → Fault} (ends : Ends may action wanted)
    (becomes : ∀ fault, may fault = true → other (change fault) = true) :
    Ends other (adapting change action) wanted :=
  ends.tryCatch fun fault allowed => throw (becomes fault allowed)

theorem locating {l : Location} (ends : Ends may action wanted)
    (anywhere : ∀ problem place other,
      may (.configuration problem place) = true → may (.configuration problem other) = true) :
    Ends may (locating l action) wanted :=
  ends.adapting (Fault.placed_of anywhere)

/-- What is attempted ends without a fault, and what goes on may make use of that. -/
theorem attempt {next : Except Fault α → Engine φ β} (ends : Ends may action)
    (rest : ∀ result, Admissible may result → Ends other (next result) later) :
    Ends other (attempt action >>= next) later := by
  refine ⟨fun w => ?_⟩
  rw [run_bind_ok (run_attempt action w)]
  exact (rest _ (ends.admissible w)).admissible _

theorem forIn {body : γ → β → Engine φ (ForInStep β)} (entries : List γ) (start : β)
    (each : ∀ entry b, Ends may (body entry b)) : Ends may (forIn entries start body) := by
  induction entries generalizing start with
  | nil => exact pure trivial
  | cons entry rest ih =>
    rw [List.forIn_cons]
    refine (each entry start).bind fun step _ => ?_
    cases step with
    | done => exact pure trivial
    | yield b => exact ih b

end Ends

/-! What only changes the world ends without a fault. -/

variable {may : Fault → Bool}

theorem ends_logOf (id : ObjectId) (level : LogLevel) (message : String) :
    Ends may (logOf (φ := φ) id level message) :=
  .bind (.observe _) fun _ _ => .modify _

theorem ends_changeObject (id : ObjectId) (change : Object → Object) :
    Ends may (changeObject (φ := φ) id change) := .modify _

theorem ends_changeProject (id : ProjectId) (change : Project → Project) :
    Ends may (changeProject (φ := φ) id change) := .modify _

theorem ends_setProperty (id : ProjectId) (name value : String) (override : Bool) :
    Ends may (setProperty (φ := φ) id name value override) :=
  .bind (.observe _) fun _ _ => .bind (ends_changeProject id _) fun _ _ => .pure trivial

theorem ends_register (id : ProjectId) (name : String) (object : ObjectId) :
    Ends may (register (φ := φ) id name object) := by
  unfold register
  refine .bind (.observe _) fun p _ => ?_
  split
  · exact .bind (.modify _) fun _ _ => ends_changeProject id _
  · exact ends_changeProject id _

/-! What tasks share. -/

theorem ends_textOf (id : ObjectId) (name : String) :
    Ends Fault.endsTask (textOf (φ := φ) id name) :=
  .consult fun w => (w.admissible_readText id name).imp Fault.endsTask_of_endsReading

theorem ends_flagOf (id : ObjectId) (name : String) :
    Ends Fault.endsTask (flagOf (φ := φ) id name) :=
  .consult fun w => (w.admissible_readFlag id name).imp Fault.endsTask_of_endsReading

theorem ends_pathOf (id : ObjectId) (name : String) :
    Ends Fault.endsTask (pathOf (φ := φ) id name) :=
  .consult fun w => (w.admissible_readPath id name).imp Fault.endsTask_of_endsReading

theorem ends_readField (id : ObjectId) (name : String) :
    Ends Fault.endsTask (readField (φ := φ) id name) :=
  .consult fun w => (w.admissible_read id name).imp Fault.endsTask_of_endsReading

theorem ends_isSet (id : ObjectId) (name : String) : Ends may (isSet (φ := φ) id name) := .observe _

theorem ends_failTask (id : ObjectId) (message : String) :
    Ends Fault.endsTask (failTask (φ := φ) (α := α) id message) :=
  .bind (.observe _) fun _ _ => .throw rfl

theorem ends_reject {wanted : α → Prop} (id : ObjectId) {problem : Problem}
    (right : problem.isDeclaration = false) :
    Ends Fault.endsTask (reject (φ := φ) id problem) wanted :=
  .bind (.observe _) fun _ _ => .throw (congrArg Bool.not right)

/-- Nothing comes after a refusal. -/
theorem ends_reject_bind {later : β → Prop} {next : α → Engine φ β} (id : ObjectId)
    {problem : Problem} (right : problem.isDeclaration = false) :
    Ends Fault.endsTask (reject id problem >>= next) later := by
  have never : Ends Fault.endsTask (reject id problem : Engine φ α) fun _ => False :=
    ends_reject id right
  exact never.bind fun _ => False.elim

theorem ends_rejectIf (id : ObjectId) (holds : Bool) {problem : Problem}
    (right : problem.isDeclaration = false) :
    Ends Fault.endsTask (rejectIf (φ := φ) id holds problem) fun _ => holds = false := by
  unfold rejectIf
  cases holds with
  | true => exact ends_reject id right
  | false => exact .pure rfl

end Engine
end BuildEngine
