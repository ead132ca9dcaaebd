import BuildEngine.Proofs.Confinement
import BuildEngine.Task.Definition
import BuildEngine.Task.Delete
import BuildEngine.Task.Script
import BuildEngine.Task.Standard
import BuildEngine.Task.UpToDate

/-! The work of tasks is confined: a task changes no object but its own, and no project but the one
that it was made for. -/

namespace BuildEngine

open Engine

variable {φ : Type} {α : Type}

namespace Engine

variable (id : ObjectId) (name : String)

theorem looks_textOf : Looks (textOf (φ := φ) id name) := .consult _

theorem looks_flagOf : Looks (flagOf (φ := φ) id name) := .consult _

theorem looks_pathOf : Looks (pathOf (φ := φ) id name) := .consult _

theorem looks_readField : Looks (readField (φ := φ) id name) := .consult _

theorem looks_isSet : Looks (isSet (φ := φ) id name) := .observe _

theorem looks_projectOf : Looks (projectOf (φ := φ) id) := .bind (.observe _) fun _ => .observe _

theorem looks_failTask (message : String) : Looks (failTask (φ := φ) (α := α) id message) :=
  .bind (.observe _) fun _ => .throw _

theorem looks_reject (problem : Problem) : Looks (reject (φ := φ) (α := α) id problem) :=
  .bind (.observe _) fun _ => .throw _

theorem looks_rejectIf (holds : Bool) (problem : Problem) :
    Looks (rejectIf (φ := φ) id holds problem) := by
  unfold rejectIf
  split
  · exact looks_reject id problem
  · exact .pure _

theorem looks_checkPolicy : Looks (checkPolicy (φ := φ) id) := by
  refine .bind (looks_flagOf id _) fun quiet => ?_
  cases quiet with
  | false => exact .pure _
  | true =>
    refine .bind (looks_flagOf id _) fun strict => ?_
    cases strict with
    | false => exact .pure _
    | true => exact looks_reject id _

end Engine

namespace Mark

variable {m : Mark} {w : World φ} {id : ObjectId} {project : ProjectId}
variable {kind : World φ → World φ → Prop} [m.Admits kind]

theorem confined_logOf (id : ObjectId) (level : LogLevel) (message : String) :
    m.Takes kind w (logOf id level message) :=
  .look (.observe _) fun _ _ => confined_log _ _ _

/-- A tolerated problem changes at most a property of the project of its task. -/
theorem confined_tolerate (owned : m.Owns w id) (message : String) :
    m.Takes kind w (tolerate id message) := by
  unfold tolerate
  refine .look (.observe _) fun _ seen => ?_
  cases seen
  refine .look (looks_flagOf id _) fun strict _ => ?_
  refine .look (.observe _) fun p _ => ?_
  split
  · exact .looks (looks_failTask id _)
  refine .look (looks_flagOf id _) fun quiet _ => ?_
  split
  · exact confined_logOf id _ _
  refine .bind (confined_logOf id _ _) fun after _ steps _ => ?_
  refine .look (looks_isSet id _) fun given _ => ?_
  split
  · refine .look (looks_textOf id _) fun name _ => ?_
    refine .bind (confined_setProperty owned.2 name _ _) fun _ _ _ _ => .pure trivial
  · exact .pure trivial

/-! The small tasks. -/

theorem confined_echo [FileSystem φ] (id : ObjectId) : m.Takes kind w (echo id) := by
  unfold echo
  refine .look (looks_textOf id _) fun message _ => ?_
  refine .look (looks_isSet id _) fun toFile _ => ?_
  split
  · refine .look (.consult _) fun level _ => ?_
    exact .bind (confined_logOf id _ _) fun _ _ _ _ => .pure trivial
  · refine .look (looks_pathOf id _) fun path _ => ?_
    refine .look (looks_flagOf id _) fun append _ => ?_
    have written (before : ByteArray) : m.Takes kind w (do
        changeFiles fun files => FileSystem.write files path (before ++ message.toUTF8)
        return (none : Option TaskStatus)) :=
      .bind (confined_changeFiles _) fun _ _ _ _ => .pure trivial
    refine .look (.observe _) fun present _ => ?_
    split
    · exact .look (.readFiles _) fun before _ => written before
    · exact written _

theorem looks_fail (id : ObjectId) : Looks (fail (φ := φ) id) := by
  unfold fail
  refine .bind (looks_projectOf id) fun p => ?_
  extract_lets properties failing otherwise
  have fails : Looks (failing ()) := .bind (looks_textOf id _) fun _ => looks_failTask id _
  have looks : Looks (otherwise ()) := by
    refine .bind (looks_isSet id _) fun given => ?_
    split
    · refine .bind (looks_textOf id _) fun name => ?_
      split
      · exact .pure _
      · exact fails
    · exact fails
  refine .bind (looks_isSet id _) fun given => ?_
  split
  · refine .bind (looks_textOf id _) fun name => ?_
    split
    · exact .pure _
    · exact looks
  · exact looks

theorem confined_defineProperty (owned : m.Owns w id) : m.Takes kind w (defineProperty id) := by
  unfold defineProperty
  refine .look (looks_textOf id _) fun name _ => ?_
  refine .look (looks_isSet id _) fun byValue _ => ?_
  refine .look (looks_isSet id _) fun byLocation _ => ?_
  extract_lets store choose
  have stored (value : String) : m.Takes kind w (store value) := by
    refine .look (looks_flagOf id _) fun override _ => ?_
    refine .look (.observe _) fun _ seen => ?_
    cases seen
    refine .bind (confined_setProperty owned.2 name value override) fun after stored _ _ => ?_
    split
    · exact .bind (confined_logOf id _ _) fun _ _ _ _ => .pure trivial
    · exact .pure trivial
  have chosen : m.Takes kind w (choose ()) := by
    unfold choose
    split
    · exact .look (looks_textOf id _) fun value _ => stored value
    · refine .look (looks_pathOf id _) fun path _ => ?_
      exact .look (.observe _) fun absolute _ => stored absolute.text
  split
  · refine .look (.observe _) fun described _ => ?_
    exact .look (looks_reject id _) fun _ _ => chosen
  · exact chosen

theorem confined_touch [FileSystem φ] (id : ObjectId) : m.Takes kind w (touch id) := by
  unfold touch
  refine .look (looks_isSet id _) fun given _ => ?_
  extract_lets touchAt
  have touched (time : Option Number.Binary64) : m.Takes kind w (touchAt time) := by
    refine .look (looks_pathOf id _) fun path _ => ?_
    refine .bind (confined_logOf id _ _) fun _ _ _ _ => ?_
    exact .bind (confined_changeFiles _) fun _ _ _ _ => .pure trivial
  split
  · refine .look (looks_readField id _) fun millis _ => ?_
    split
    · exact touched _
    · exact .throw _
  · exact touched _

/-! Deleting. -/

section Delete

variable [FileSystem φ]

theorem confined_deleteEntry (owned : m.Owns w id) (path : Path) (entry : Entry) :
    m.Takes kind w (deleteEntry tolerate id path entry) := by
  unfold deleteEntry
  refine .look (looks_flagOf id _) fun verbose _ => ?_
  extract_lets level
  refine .bind (confined_logOf id _ _) fun logged _ steps _ => ?_
  refine .bind (confined_changeFiles _).attempt fun after result more _ => ?_
  split
  · exact .pure trivial
  · have still := (steps.trans more).owns owned
    exact .bind (confined_tolerate still _) fun _ _ _ _ => .pure trivial
  · exact .throw _

theorem looks_isDirectory (path : Path) : Looks (isDirectory (φ := φ) path) := .observe _

theorem looks_isThere (path : Path) : Looks (isThere (φ := φ) path) := .observe _

theorem looks_entryAt (path : Path) : Looks (entryAt (φ := φ) path) :=
  .bind (looks_isDirectory path) fun _ => .pure _

theorem confined_deleteBelow (owned : m.Owns w id) (levels : Nat) (path : Path) :
    m.Takes kind w (deleteBelow tolerate id levels path) := by
  induction levels generalizing w path with
  | zero => exact .pure trivial
  | succ levels ih =>
    unfold deleteBelow
    refine .look (.readFiles _) fun children _ => ?_
    refine .bind (.forIn children _ fun inside child _ steps => ?_) fun _ _ _ _ => .pure trivial
    have still := steps.owns owned
    have deleted {after : World φ} (owned : m.Owns after id) : m.Takes kind after (do
        let _ ← deleteEntry tolerate id child (← entryAt child)
        pure (ForInStep.yield PUnit.unit)) :=
      .look (looks_entryAt child) fun entry _ =>
        .bind (confined_deleteEntry owned child entry) fun _ _ _ _ => .pure trivial
    refine .look (looks_isDirectory child) fun isDirectory _ => ?_
    split
    · exact .bind (ih still child) fun _ _ more _ => deleted (more.owns still)
    · exact deleted still

theorem confined_deleteDirectory (owned : m.Owns w id) (path : Path) :
    m.Takes kind w (deleteDirectory tolerate id path) := by
  unfold deleteDirectory
  refine .look (looks_isDirectory path) fun isDirectory _ => ?_
  split
  · refine .look (.observe _) fun absolute _ => ?_
    exact confined_tolerate owned _
  · refine .look (.observe _) fun depth _ => ?_
    refine .bind (confined_deleteBelow owned depth path) fun _ _ steps _ => ?_
    exact .bind (confined_deleteEntry (steps.owns owned) _ _) fun _ _ _ _ => .pure trivial

theorem confined_deleteFile (owned : m.Owns w id) (path : Path) :
    m.Takes kind w (deleteFile tolerate id path) := by
  unfold deleteFile
  refine .look (looks_isThere path) fun present _ => ?_
  split
  · refine .look (.observe _) fun absolute _ => ?_
    exact confined_tolerate owned _
  · refine .look (looks_isDirectory path) fun isDirectory _ => ?_
    split
    · exact confined_logOf id _ _
    · exact .bind (confined_deleteEntry owned _ _) fun _ _ _ _ => .pure trivial

theorem confined_deleteEmpty (owned : m.Owns w id) (paths : List Path) :
    m.Takes kind w (deleteEmpty tolerate id paths) := by
  induction paths generalizing w with
  | nil => exact .pure trivial
  | cons path rest ih =>
    unfold deleteEmpty
    refine .look (looks_isDirectory path) fun isDirectory _ => ?_
    extract_lets count deleteIf
    have counted {after : World φ} (owned : m.Owns after id) (deleted : Bool) :
        m.Takes kind after (count deleted) :=
      .bind (ih owned) fun _ _ _ _ => .pure trivial
    have deletes (isEmpty : Bool) : m.Takes kind w (deleteIf isEmpty) := by
      unfold deleteIf
      split
      · refine .bind (confined_deleteEntry owned _ _) fun _ deleted steps _ => ?_
        exact counted (steps.owns owned) deleted
      · exact counted owned false
    split
    · exact .look (.readFiles _) fun children _ => deletes children.isEmpty
    · exact deletes false

theorem confined_deleteNamed (owned : m.Owns w id) (base : Path) (names : List String) :
    m.Takes kind w (deleteNamed tolerate id base names) := by
  induction names generalizing w with
  | nil => exact .pure trivial
  | cons name rest ih =>
    unfold deleteNamed
    extract_lets path goOn
    have goesOn {after : World φ} (owned : m.Owns after id) : m.Takes kind after (goOn ()) := by
      refine .look (.consult _) fun above _ => ?_
      exact .bind (ih owned) fun _ _ _ _ => .pure trivial
    refine .look (looks_isThere path) fun present _ => ?_
    refine .look (looks_isDirectory path) fun isDirectory _ => ?_
    split
    · refine .bind (confined_deleteEntry owned _ _) fun _ _ steps _ => ?_
      exact goesOn (steps.owns owned)
    · exact goesOn owned

theorem confined_deleteList (owned : m.Owns w id) (list : ObjectId) :
    m.Takes kind w (deleteList tolerate id list) := by
  unfold deleteList
  refine .look (.consult _) fun base _ => ?_
  refine .look (.consult _) fun names _ => ?_
  refine .bind (confined_logOf id _ _) fun _ _ logged _ => ?_
  refine .bind (confined_deleteNamed (logged.owns owned) base names) fun _ directories steps _ => ?_
  refine .look (looks_flagOf id _) fun alsoEmpty _ => ?_
  split
  · have still := (logged.trans steps).owns owned
    refine .bind (confined_deleteEmpty still _) fun _ count _ _ => ?_
    split
    · exact confined_logOf id _ _
    · exact .pure trivial
  · exact .pure trivial

theorem confined_deleteGivenFile (owned : m.Owns w id) (given : Bool) :
    m.Takes kind w (deleteGivenFile tolerate id given) := by
  unfold deleteGivenFile
  split
  · exact .look (looks_pathOf id _) fun path _ => confined_deleteFile owned path
  · exact .pure trivial

theorem confined_deleteGivenDirectory (owned : m.Owns w id) (given : Bool) :
    m.Takes kind w (deleteGivenDirectory tolerate id given) := by
  unfold deleteGivenDirectory
  split
  · exact .look (looks_pathOf id _) fun path _ => confined_deleteDirectory owned path
  · exact .pure trivial

theorem confined_deleteLists (owned : m.Owns w id) (lists : List ObjectId) :
    m.Takes kind w (deleteLists tolerate id lists) := by
  refine .bind (.forIn lists _ fun inside list _ steps => ?_) fun _ _ _ _ => .pure trivial
  have still := steps.owns owned
  refine .bind (confined_deleteList still list).attempt fun _ _ more _ => ?_
  split
  · exact .pure trivial
  · exact .bind (confined_tolerate (more.owns still) _) fun _ _ _ _ => .pure trivial
  · exact .throw _

theorem confined_delete (owned : m.Owns w id) : m.Takes kind w (delete tolerate id) := by
  rw [delete_eq]
  refine .look (.observe _) fun lists _ => ?_
  refine .look (looks_isSet id _) fun file _ => .look (looks_isSet id _) fun directory _ => ?_
  refine .look (looks_rejectIf id _ _) fun _ _ => .look (looks_checkPolicy id) fun _ _ => ?_
  refine .bind (confined_deleteGivenFile owned file) fun _ _ steps _ => ?_
  have owned := steps.owns owned
  refine .bind (confined_deleteGivenDirectory owned directory) fun _ _ steps _ => ?_
  exact confined_deleteLists (steps.owns owned) lists

end Delete

/-! Asking whether files are current. -/

section UpToDate

theorem looks_derivedPath (id : ObjectId) (byTarget : Bool) :
    Looks (derivedPath (φ := φ) id byTarget) := by
  unfold derivedPath
  split
  · exact .map _ (looks_pathOf id _)
  · exact .pure _

theorem looks_firstMapper (mappers : List ObjectId) :
    Looks (firstMapper (φ := φ) mappers) := by
  cases mappers with
  | cons => exact .map _ (.consult _)
  | nil => exact .pure _

variable [FileSystem φ]

theorem looks_areListsCurrent (derived : Option Path) (mapper : Option Mapper)
    (lists : List ObjectId) : Looks (areListsCurrent (φ := φ) derived mapper lists) := by
  induction lists with
  | nil => exact .pure _
  | cons list rest ih =>
    unfold areListsCurrent
    refine .bind (.consult _) fun names => ?_
    refine .bind (.consult _) fun base => ?_
    extract_lets sources
    refine .bind (.consult _) fun current => ?_
    split
    · exact ih
    · exact .pure _

theorem looks_isAbsent (derived : Option Path) : Looks (isAbsent (φ := φ) derived) := by
  cases derived with
  | some path => exact .observe _
  | none => exact .pure _

theorem looks_checkSource (id : ObjectId) (bySource : Bool) :
    Looks (checkSource (φ := φ) id bySource) := by
  unfold checkSource
  split
  · refine .bind (looks_pathOf id _) fun source => ?_
    refine .bind (.observe _) fun present => ?_
    exact .bind (.observe _) fun absolute => looks_rejectIf id _ _
  · exact .pure _

theorem looks_areSourcesCurrent (id : ObjectId) (lists : List ObjectId) (bySource : Bool)
    (derived : Option Path) (mapper : Option Mapper) :
    Looks (areSourcesCurrent (φ := φ) id lists bySource derived mapper) := by
  unfold areSourcesCurrent
  refine .bind (looks_areListsCurrent derived mapper lists) fun current => ?_
  split
  · exact .pure _
  split
  · exact .pure _
  · exact .bind (looks_pathOf id _) fun source => .consult _

theorem looks_isDerivedCurrent (id : ObjectId) (lists mappers : List ObjectId) (bySource : Bool)
    (derived : Option Path) :
    Looks (isDerivedCurrent (φ := φ) id lists mappers bySource derived) := by
  unfold isDerivedCurrent
  refine .bind (looks_isAbsent derived) fun absent => ?_
  split
  · exact .pure _
  refine .bind (looks_checkSource id bySource) fun _ => ?_
  refine .bind (looks_firstMapper mappers) fun mapper => ?_
  exact .bind (.observe _) fun o =>
    .adapting _ (looks_areSourcesCurrent id lists bySource derived mapper)

theorem looks_isCurrent (id : ObjectId) : Looks (isCurrent (φ := φ) id) := by
  rw [isCurrent_eq]
  refine .bind (.observe _) fun lists => .bind (.observe _) fun mappers => ?_
  refine .bind (looks_isSet id _) fun bySource => .bind (looks_isSet id _) fun byTarget => ?_
  refine .bind (looks_rejectIf id _ _) fun _ => ?_
  refine .bind (looks_rejectIf id _ _) fun _ => ?_
  refine .bind (looks_rejectIf id _ _) fun _ => ?_
  exact .bind (looks_derivedPath id byTarget) fun derived =>
    looks_isDerivedCurrent id lists mappers bySource derived

theorem confined_checkUpToDate (owned : m.Owns w id) : m.Takes kind w (checkUpToDate id) := by
  unfold checkUpToDate
  refine .look (looks_textOf id _) fun name _ => ?_
  refine .look (looks_isCurrent id) fun current _ => ?_
  split
  · exact .pure trivial
  refine .look (.observe _) fun _ seen => ?_
  cases seen
  refine .look (looks_textOf id _) fun value _ => ?_
  refine .bind (confined_setProperty owned.2 name value true) fun _ _ _ _ => ?_
  refine .look (.observe _) fun mappers _ => ?_
  split
  · refine .look (looks_pathOf id _) fun path _ => ?_
    exact .bind (confined_logOf id _ _) fun _ _ _ _ => .pure trivial
  · exact .bind (confined_logOf id _ _) fun _ _ _ _ => .pure trivial

end UpToDate

/-! Scripts. -/

theorem confined_storeValue (later : m.projects ≤ project) (name : String) (v : Value) :
    m.Takes kind w (storeValue project name v) := by
  refine .look (.observe _) fun text _ => ?_
  exact .bind (confined_setProperty later name text true) fun _ _ _ _ => .pure trivial

theorem confined_perform (owned : m.Owns w id) (action : Action) :
    m.Takes kind w (perform tolerate id action) := by
  cases action with
  | setProperty name value =>
    refine .look (.observe _) fun _ seen => ?_
    cases seen
    exact .bind (confined_setProperty owned.2 name value true) fun _ _ _ _ => .pure trivial
  | log level message => exact confined_logOf id level message
  | fail message => exact .looks (looks_failTask id message)
  | reject message => exact .throw _
  | crash message => exact .throw _
  | interrupt => exact .throw _
  | report => exact .pure trivial
  | read field =>
    refine .look (.observe _) fun _ seen => ?_
    cases seen
    exact .look (looks_readField id field) fun v _ => confined_storeValue owned.2 _ v
  | readChild index field =>
    refine .look (.observe _) fun _ seen => ?_
    cases seen
    split
    · exact .look (looks_readField _ field) fun v _ => confined_storeValue owned.2 _ v
    · exact .pure trivial
  | writeSlot name value =>
    refine .look (.observe _) fun _ seen => ?_
    cases seen
    exact confined_changeProject owned.2 .refl rfl (.of_same rfl rfl) fun _ => .inl
  | handleError message => exact confined_tolerate owned message
  | checkPolicy => exact .looks (looks_checkPolicy id)
  | storeText name =>
    refine .look (.observe _) fun _ seen => ?_
    cases seen
    exact .bind (confined_setProperty owned.2 name _ true) fun _ _ _ _ => .pure trivial
  | resolve field =>
    refine .look (looks_readField id field) fun v _ => ?_
    split
    · refine .look (.consult _) fun found _ => ?_
      refine .look (.observe _) fun text _ => ?_
      refine .look (.observe _) fun _ seen => ?_
      cases seen
      exact .bind (confined_setProperty owned.2 _ text true) fun _ _ _ _ => .pure trivial
    · exact .pure trivial

theorem confined_performAll (owned : m.Owns w id) (script : List Action) :
    m.Takes kind w (performAll tolerate id script) := by
  induction script generalizing w with
  | nil => exact .pure trivial
  | cons action rest ih =>
    cases action with
    | report type message => exact .pure trivial
    | _ => exact .bind (confined_perform owned _) fun _ _ steps _ => ih (steps.owns owned)

/-! Definitions. -/

theorem confined_kindOfClass (c : ClassName) : m.Takes kind w (kindOfClass c) := by
  unfold kindOfClass
  split
  · exact .pure trivial
  · exact confined_declareKind rfl rfl

theorem looks_definedClass (id : ObjectId) : Looks (definedClass (φ := φ) id) := by
  unfold definedClass
  refine .bind (looks_isSet id _) fun given => ?_
  extract_lets lookUp
  have looksUp : Looks (lookUp ()) := by
    refine .bind (looks_textOf id _) fun name => ?_
    split
    · exact .pure _
    · exact .bind (.observe _) fun owner => looks_reject id _
  split
  · refine .bind (looks_readField id _) fun classpath => ?_
    split
    · exact .bind (.consult _) fun _ => looksUp
    · exact looksUp
  · exact looksUp

theorem confined_define (asTask : Bool) (id : ObjectId) : m.Takes kind w (define asTask id) := by
  unfold define
  refine .look (looks_textOf id _) fun name _ => ?_
  refine .look (looks_definedClass id) fun found _ => ?_
  extract_lets add
  have adds {after : World φ} (change : Registry → Except RegistrationError Registry) :
      m.Takes kind after (add change) := by
    refine .bind (.tryCatch (confined_changeRegistry change) fun _ _ _ => ?_) fun _ _ _ _ => ?_
    · exact .look (.observe _) fun owner _ => .looks (looks_reject id _)
    · exact .bind (confined_logOf id _ _) fun _ _ _ _ => .pure trivial
  split
  · split
    · exact .look (.pure _) fun change _ => adds change
    · exact .look (.pure _) fun change _ => adds change
  · refine .bind (confined_kindOfClass found) fun _ _ _ _ => ?_
    exact .look (.pure _) fun change _ => adds change

end Mark
end BuildEngine
