import BuildEngine.Proofs.BindingEnding
import BuildEngine.Run.Invocation

/-! Faults with which the work of tasks may end, and those with which what stands in a target may
end when it is performed. -/

namespace BuildEngine

variable {φ : Type}

namespace Staleness

variable [FileSystem φ] {α : Type} (files : φ)

theorem admissible_ask (answer : Except FileError α) : Admissible Fault.endsTask (ask answer) :=
  .mapError (fun _ => rfl) answer

theorem admissible_sourcePath (base : Option Path) (name : Path) :
    Admissible Fault.endsTask (sourcePath files base name) := by
  unfold sourcePath
  extract_lets path
  split
  · trivial
  · rfl

theorem admissible_isOlder (derived source : Path) :
    Admissible Fault.endsTask (isOlder files derived source) := by
  unfold isOlder
  split
  · trivial
  · exact (admissible_ask _).bind fun _ _ => (admissible_ask _).bind fun _ _ => trivial

theorem admissible_isAnyOlder (source : Path) (derived : List Path) :
    Admissible Fault.endsTask (isAnyOlder files source derived) := by
  induction derived with
  | nil => trivial
  | cons path rest ih =>
    unfold isAnyOlder
    refine (admissible_isOlder files path source).bind fun older _ => ?_
    split
    · trivial
    · exact ih

theorem admissible_staleSources (mapper : Mapper) (base destination : Option Path)
    (sources : List Path) :
    Admissible Fault.endsTask (staleSources files mapper base destination sources) := by
  induction sources with
  | nil => trivial
  | cons name rest ih =>
    unfold staleSources
    refine (admissible_sourcePath files base name).bind fun source _ => ?_
    extract_lets root derived
    refine (admissible_isAnyOlder files source derived).bind fun stale _ => ?_
    exact ih.bind fun others _ => trivial

theorem admissible_isAnyNewer (time : Number.Binary64) (sources : List Path) :
    Admissible Fault.endsTask (isAnyNewer files time sources) := by
  induction sources with
  | nil => trivial
  | cons source rest ih =>
    unfold isAnyNewer
    refine (admissible_ask _).bind fun written _ => ?_
    split
    · trivial
    · exact ih

/-- There is something to compare sources with, if there is a mapper or a derived file. -/
theorem admissible_isUpToDate {derived : Option Path} {mapper : Option Mapper}
    (given : mapper = none → derived.isSome = true) (base : Option Path) (sources : List Path) :
    Admissible Fault.endsTask (isUpToDate files derived mapper base sources) := by
  unfold isUpToDate
  split
  · exact (admissible_staleSources files _ base none sources).map _
  · exact absurd (given rfl) Bool.false_ne_true
  · split
    · trivial
    · refine (Admissible.mapM (admissible_sourcePath files base) sources).bind fun paths _ => ?_
      refine (admissible_ask _).bind fun time _ => ?_
      exact (admissible_isAnyNewer files time paths).bind fun newer _ => trivial

end Staleness

namespace Engine

theorem ends_checkPolicy (id : ObjectId) : Ends Fault.endsTask (checkPolicy (φ := φ) id) := by
  unfold checkPolicy
  refine .bind (ends_flagOf id _) fun quiet _ => ?_
  split
  · refine .bind (ends_flagOf id _) fun strict _ => ?_
    split
    · exact ends_reject id rfl
    · exact .pure trivial
  · exact .pure trivial

theorem ends_tolerate (id : ObjectId) (message : String) :
    Ends Fault.endsTask (tolerate (φ := φ) id message) := by
  unfold tolerate
  refine .bind (.observe _) fun o _ => ?_
  refine .bind (ends_flagOf id _) fun strict _ => ?_
  refine .bind (.observe _) fun p _ => ?_
  split
  · exact ends_failTask id message
  refine .bind (ends_flagOf id _) fun quiet _ => ?_
  split
  · exact ends_logOf id _ _
  refine .bind (ends_logOf id _ _) fun _ _ => ?_
  refine .bind (ends_isSet id _) fun given _ => ?_
  split
  · exact .bind (ends_textOf id _) fun name _ =>
      .bind (ends_setProperty _ name _ _) fun _ _ => .pure trivial
  · exact .pure trivial

theorem ends_changeFiles (operation : φ → Except FileError φ) :
    Ends Fault.endsTask (changeFiles operation) := by
  unfold changeFiles
  refine .bind .get fun w _ => ?_
  split
  · exact .modify _
  · exact .throw rfl

theorem ends_readFiles {α : Type} (operation : φ → Except FileError α) :
    Ends Fault.endsTask (readFiles operation) := by
  unfold readFiles
  refine .bind .get fun w _ => ?_
  split
  · exact .pure trivial
  · exact .throw rfl

/-! The small tasks. -/

theorem ends_echo [FileSystem φ] (id : ObjectId) : Ends Fault.endsTask (echo (φ := φ) id) := by
  unfold echo
  refine .bind (ends_textOf id _) fun message _ => ?_
  refine .bind (ends_isSet id _) fun toFile _ => ?_
  split
  · refine .bind (.consult fun w => ((w.admissible_read id _).imp
      Fault.endsTask_of_endsReading).map _) fun level _ => ?_
    exact .bind (ends_logOf id _ _) fun _ _ => .pure trivial
  · refine .bind (ends_pathOf id _) fun path _ => ?_
    refine .bind (ends_flagOf id _) fun append _ => ?_
    have written (before : ByteArray) : Ends Fault.endsTask (do
        changeFiles (φ := φ) fun files => FileSystem.write files path (before ++ message.toUTF8)
        return (none : Option TaskStatus)) :=
      .bind (ends_changeFiles _) fun _ _ => .pure trivial
    refine .bind (.observe _) fun present _ => ?_
    split
    · exact .bind (ends_readFiles _) fun before _ => written before
    · exact written _

theorem ends_fail (id : ObjectId) : Ends Fault.endsTask (fail (φ := φ) id) := by
  unfold fail
  refine .bind (.bind (.observe _) fun o _ => .observe _) fun p _ => ?_
  extract_lets properties failing otherwise
  have fails : Ends Fault.endsTask (failing ()) :=
    .bind (ends_textOf id _) fun _ _ => ends_failTask id _
  have goesOn : Ends Fault.endsTask (otherwise ()) := by
    refine .bind (ends_isSet id _) fun given _ => ?_
    split
    · refine .bind (ends_textOf id _) fun name _ => ?_
      split
      · exact .pure trivial
      · exact fails
    · exact fails
  refine .bind (ends_isSet id _) fun given _ => ?_
  split
  · refine .bind (ends_textOf id _) fun name _ => ?_
    split
    · exact .pure trivial
    · exact goesOn
  · exact goesOn

theorem ends_defineProperty (id : ObjectId) :
    Ends Fault.endsTask (defineProperty (φ := φ) id) := by
  unfold defineProperty
  refine .bind (ends_textOf id _) fun name _ => ?_
  refine .bind (ends_isSet id _) fun byValue _ => ?_
  refine .bind (ends_isSet id _) fun byLocation _ => ?_
  extract_lets store choose
  have stored (value : String) : Ends Fault.endsTask (store value) := by
    refine .bind (ends_flagOf id _) fun override _ => ?_
    refine .bind (.observe _) fun o _ => ?_
    refine .bind (ends_setProperty o.project name value override) fun stored _ => ?_
    split
    · exact .bind (ends_logOf id _ _) fun _ _ => .pure trivial
    · exact .pure trivial
  have chosen : Ends Fault.endsTask (choose ()) := by
    unfold choose
    split
    · exact .bind (ends_textOf id _) fun value _ => stored value
    · exact .bind (ends_pathOf id _) fun path _ => .bind (.observe _) fun absolute _ =>
        stored absolute.text
  split
  · exact .bind (.observe _) fun described _ => ends_reject_bind id rfl
  · exact chosen

theorem ends_touch [FileSystem φ] (id : ObjectId) : Ends Fault.endsTask (touch (φ := φ) id) := by
  unfold touch
  refine .bind (ends_isSet id _) fun given _ => ?_
  extract_lets touchAt
  have touched (time : Option Number.Binary64) : Ends Fault.endsTask (touchAt time) :=
    .bind (ends_pathOf id _) fun path _ => .bind (ends_logOf id _ _) fun _ _ =>
      .bind (ends_changeFiles _) fun _ _ => .pure trivial
  split
  · refine .bind (ends_readField id _) fun millis _ => ?_
    split
    · exact touched _
    · exact .throw rfl
  · exact touched _

/-! Deleting. -/

theorem ends_listDirectory (list : ObjectId) :
    Ends Fault.endsTask (consult (φ := φ) (·.listDirectory list)) :=
  .consult fun w => (w.admissible_listDirectory list).imp Fault.endsTask_of_endsReading

/-- A file may lie outside of the directory of its list. -/
theorem admissible_directoriesBetween (base path : Path) :
    Admissible Fault.endsTask (directoriesBetween base path) := by
  unfold directoriesBetween
  split
  · trivial
  · rfl

section Delete

variable [FileSystem φ]

theorem ends_deleteEntry (id : ObjectId) (path : Path) (entry : Entry) :
    Ends Fault.endsTask (deleteEntry (φ := φ) tolerate id path entry) := by
  unfold deleteEntry
  refine .bind (ends_flagOf id _) fun verbose _ => ?_
  extract_lets level
  refine .bind (ends_logOf id _ _) fun _ _ => ?_
  refine .attempt (ends_changeFiles _) fun result may => ?_
  split
  · exact .pure trivial
  · exact .bind (ends_tolerate id _) fun _ _ => .pure trivial
  · exact .throw may

theorem ends_isDirectory {may : Fault → Bool} (path : Path) :
    Ends may (isDirectory (φ := φ) path) := .observe _

theorem ends_entryAt {may : Fault → Bool} (path : Path) :
    Ends may (entryAt (φ := φ) path) :=
  .bind (ends_isDirectory path) fun _ _ => .pure trivial

theorem ends_deleteBelow (id : ObjectId) (levels : Nat) (path : Path) :
    Ends Fault.endsTask (deleteBelow (φ := φ) tolerate id levels path) := by
  induction levels generalizing path with
  | zero => exact .pure trivial
  | succ levels ih =>
    unfold deleteBelow
    refine .bind (ends_readFiles _) fun children _ => ?_
    refine .bind (.forIn children _ fun child _ => ?_) fun _ _ => .pure trivial
    have deleted : Ends Fault.endsTask (φ := φ) (do
        let _ ← deleteEntry tolerate id child (← entryAt child)
        pure (ForInStep.yield PUnit.unit)) :=
      .bind (ends_entryAt child) fun entry _ =>
        .bind (ends_deleteEntry id child entry) fun _ _ => .pure trivial
    refine .bind (ends_isDirectory child) fun isDirectory _ => ?_
    split
    · exact .bind (ih child) fun _ _ => deleted
    · exact deleted

theorem ends_deleteDirectory (id : ObjectId) (path : Path) :
    Ends Fault.endsTask (deleteDirectory (φ := φ) tolerate id path) := by
  unfold deleteDirectory
  refine .bind (ends_isDirectory path) fun isDirectory _ => ?_
  split
  · exact .bind (.observe _) fun absolute _ => ends_tolerate id _
  · exact .bind (.observe _) fun depth _ => .bind (ends_deleteBelow id depth path) fun _ _ =>
      .bind (ends_deleteEntry id path _) fun _ _ => .pure trivial

theorem ends_deleteFile (id : ObjectId) (path : Path) :
    Ends Fault.endsTask (deleteFile (φ := φ) tolerate id path) := by
  unfold deleteFile
  refine .bind (.observe _) fun present _ => ?_
  split
  · exact .bind (.observe _) fun absolute _ => ends_tolerate id _
  · refine .bind (ends_isDirectory path) fun isDirectory _ => ?_
    split
    · exact ends_logOf id _ _
    · exact .bind (ends_deleteEntry id path _) fun _ _ => .pure trivial

theorem ends_deleteEmpty (id : ObjectId) (paths : List Path) :
    Ends Fault.endsTask (deleteEmpty (φ := φ) tolerate id paths) := by
  induction paths with
  | nil => exact .pure trivial
  | cons path rest ih =>
    unfold deleteEmpty
    refine .bind (ends_isDirectory path) fun isDirectory _ => ?_
    extract_lets count deleteIf
    have counted (deleted : Bool) : Ends Fault.endsTask (count deleted) :=
      .bind ih fun _ _ => .pure trivial
    have deletes (isEmpty : Bool) : Ends Fault.endsTask (deleteIf isEmpty) := by
      unfold deleteIf
      split
      · exact .bind (ends_deleteEntry id path _) fun deleted _ => counted deleted
      · exact counted false
    split
    · exact .bind (ends_readFiles _) fun children _ => deletes children.isEmpty
    · exact deletes false

theorem ends_deleteNamed (id : ObjectId) (base : Path) (names : List String) :
    Ends Fault.endsTask (deleteNamed (φ := φ) tolerate id base names) := by
  induction names with
  | nil => exact .pure trivial
  | cons name rest ih =>
    unfold deleteNamed
    extract_lets path goOn
    have goesOn : Ends Fault.endsTask (goOn ()) :=
      .bind (.consult fun _ => admissible_directoriesBetween base path) fun above _ =>
        .bind ih fun _ _ => .pure trivial
    refine .bind (.observe _) fun present _ => ?_
    refine .bind (ends_isDirectory path) fun isDirectory _ => ?_
    split
    · exact .bind (ends_deleteEntry id path _) fun _ _ => goesOn
    · exact goesOn

theorem ends_listFiles (list : ObjectId) :
    Ends Fault.endsTask (consult (φ := φ) (·.listFiles list)) :=
  .consult fun w => (w.admissible_listFiles list).imp Fault.endsTask_of_endsReading

theorem ends_deleteList (id list : ObjectId) :
    Ends Fault.endsTask (deleteList (φ := φ) tolerate id list) := by
  unfold deleteList
  refine .bind (ends_listDirectory list) fun base _ => ?_
  refine .bind (ends_listFiles list) fun names _ => ?_
  refine .bind (ends_logOf id _ _) fun _ _ => ?_
  refine .bind (ends_deleteNamed id base names) fun directories _ => ?_
  refine .bind (ends_flagOf id _) fun alsoEmpty _ => ?_
  split
  · refine .bind (ends_deleteEmpty id _) fun count _ => ?_
    split
    · exact ends_logOf id _ _
    · exact .pure trivial
  · exact .pure trivial

theorem ends_deleteGivenFile (id : ObjectId) (given : Bool) :
    Ends Fault.endsTask (deleteGivenFile (φ := φ) tolerate id given) := by
  unfold deleteGivenFile
  split
  · exact .bind (ends_pathOf id _) fun path _ => ends_deleteFile id path
  · exact .pure trivial

theorem ends_deleteGivenDirectory (id : ObjectId) (given : Bool) :
    Ends Fault.endsTask (deleteGivenDirectory (φ := φ) tolerate id given) := by
  unfold deleteGivenDirectory
  split
  · exact .bind (ends_pathOf id _) fun path _ => ends_deleteDirectory id path
  · exact .pure trivial

theorem ends_deleteLists (id : ObjectId) (lists : List ObjectId) :
    Ends Fault.endsTask (deleteLists (φ := φ) tolerate id lists) := by
  refine .bind (.forIn lists _ fun list _ => ?_) fun _ _ => .pure trivial
  refine .attempt (ends_deleteList id list) fun result may => ?_
  split
  · exact .pure trivial
  · exact .bind (ends_tolerate id _) fun _ _ => .pure trivial
  · exact .throw may

theorem ends_delete (id : ObjectId) : Ends Fault.endsTask (delete (φ := φ) tolerate id) := by
  rw [delete_eq]
  refine .bind (.observe _) fun lists _ => ?_
  refine .bind (ends_isSet id _) fun file _ => .bind (ends_isSet id _) fun directory _ => ?_
  refine .bind (ends_rejectIf id _ rfl) fun _ _ => .bind (ends_checkPolicy id) fun _ _ => ?_
  refine .bind (ends_deleteGivenFile id file) fun _ _ => ?_
  exact .bind (ends_deleteGivenDirectory id directory) fun _ _ => ends_deleteLists id lists

end Delete

/-! Asking whether files are current. -/

section UpToDate

theorem ends_derivedPath (id : ObjectId) (byTarget : Bool) :
    Ends Fault.endsTask (derivedPath (φ := φ) id byTarget) fun derived =>
      byTarget = true → derived.isSome = true := by
  unfold derivedPath
  split
  · exact .map some (ends_pathOf id _) fun _ _ _ => rfl
  · next absent => exact .pure fun given => absurd given absent

theorem ends_firstMapper (mappers : List ObjectId) :
    Ends Fault.endsTask (firstMapper (φ := φ) mappers) fun mapper =>
      mapper = none → mappers = [] := by
  cases mappers with
  | cons m _ =>
    exact .map some (.consult fun w => (w.admissible_mapper m).imp
      Fault.endsTask_of_endsReading) fun _ _ => nofun
  | nil => exact .pure fun _ => rfl

variable [FileSystem φ]

theorem ends_areListsCurrent {derived : Option Path} {mapper : Option Mapper}
    (given : mapper = none → derived.isSome = true) (lists : List ObjectId) :
    Ends Fault.endsTask (areListsCurrent (φ := φ) derived mapper lists) := by
  induction lists with
  | nil => exact .pure trivial
  | cons list rest ih =>
    unfold areListsCurrent
    refine .bind (ends_listFiles list) fun names _ => ?_
    refine .bind (ends_listDirectory list) fun base _ => ?_
    extract_lets sources
    refine .bind (.consult fun w =>
      Staleness.admissible_isUpToDate w.files given _ sources) fun current _ => ?_
    split
    · exact ih
    · exact .pure trivial

theorem ends_isAbsent (derived : Option Path) :
    Ends Fault.endsTask (isAbsent (φ := φ) derived) := by
  cases derived with
  | some path => exact .observe _
  | none => exact .pure trivial

theorem ends_checkSource (id : ObjectId) (bySource : Bool) :
    Ends Fault.endsTask (checkSource (φ := φ) id bySource) := by
  unfold checkSource
  split
  · refine .bind (ends_pathOf id _) fun source _ => .bind (.observe _) fun present _ => ?_
    exact .bind (.observe _) fun absolute _ =>
      (ends_rejectIf id _ rfl).weaken fun _ _ => trivial
  · exact .pure trivial

theorem ends_areSourcesCurrent (id : ObjectId) (lists : List ObjectId) (bySource : Bool)
    {derived : Option Path} {mapper : Option Mapper}
    (given : mapper = none → derived.isSome = true) :
    Ends Fault.endsTask (areSourcesCurrent (φ := φ) id lists bySource derived mapper) := by
  unfold areSourcesCurrent
  refine .bind (ends_areListsCurrent given lists) fun current _ => ?_
  split
  · exact .pure trivial
  split
  · exact .pure trivial
  · exact .bind (ends_pathOf id _) fun source _ => .consult fun w =>
      Staleness.admissible_isUpToDate w.files given none [source]

theorem ends_isDerivedCurrent (id : ObjectId) (lists : List ObjectId) {mappers : List ObjectId}
    (bySource : Bool) {derived : Option Path} (given : mappers = [] → derived.isSome = true) :
    Ends Fault.endsTask (isDerivedCurrent (φ := φ) id lists mappers bySource derived) := by
  unfold isDerivedCurrent
  refine .bind (ends_isAbsent derived) fun absent _ => ?_
  split
  · exact .pure trivial
  refine .bind (ends_checkSource id bySource) fun _ _ => ?_
  refine .bind (ends_firstMapper mappers) fun mapper found => ?_
  refine .bind (.observe _) fun o _ => .locating ?_ fun _ _ _ may => may
  exact ends_areSourcesCurrent id lists bySource fun none => given (found none)

theorem ends_isCurrent (id : ObjectId) : Ends Fault.endsTask (isCurrent (φ := φ) id) := by
  rw [isCurrent_eq]
  refine .bind (.observe _) fun lists _ => .bind (.observe _) fun mappers _ => ?_
  refine .bind (ends_isSet id _) fun bySource _ => .bind (ends_isSet id _) fun byTarget _ => ?_
  refine .bind (ends_rejectIf id _ rfl) fun _ _ => ?_
  refine .bind (ends_rejectIf id _ rfl) fun _ _ => ?_
  refine .bind (ends_rejectIf id _ rfl) fun _ compared => ?_
  refine .bind (ends_derivedPath id byTarget) fun derived named => ?_
  refine ends_isDerivedCurrent id lists bySource fun none => named ?_
  simpa [none] using compared

theorem ends_checkUpToDate (id : ObjectId) :
    Ends Fault.endsTask (checkUpToDate (φ := φ) id) := by
  unfold checkUpToDate
  refine .bind (ends_textOf id _) fun name _ => ?_
  refine .bind (ends_isCurrent id) fun current _ => ?_
  split
  · exact .pure trivial
  refine .bind (.observe _) fun o _ => ?_
  refine .bind (ends_textOf id _) fun value _ => ?_
  refine .bind (ends_setProperty _ name value _) fun _ _ => ?_
  refine .bind (.observe _) fun mappers _ => ?_
  split
  · exact .bind (ends_pathOf id _) fun path _ =>
      .bind (ends_logOf id _ _) fun _ _ => .pure trivial
  · exact .bind (ends_logOf id _ _) fun _ _ => .pure trivial

end UpToDate

/-! Scripts and definitions. -/

theorem ends_storeValue {may : Fault → Bool} (project : ProjectId) (name : String) (v : Value) :
    Ends may (storeValue (φ := φ) project name v) :=
  .bind (.observe _) fun text _ => .bind (ends_setProperty project name text _) fun _ _ =>
    .pure trivial

theorem ends_perform (id : ObjectId) (action : Action) :
    Ends Fault.endsTask (perform (φ := φ) tolerate id action) := by
  cases action with
  | setProperty name value =>
    exact .bind (.observe _) fun o _ => .bind (ends_setProperty _ name value _) fun _ _ =>
      .pure trivial
  | log level message => exact ends_logOf id level message
  | fail message => exact ends_failTask id message
  | reject message => exact .throw rfl
  | crash message => exact .throw rfl
  | interrupt => exact .throw rfl
  | report => exact .pure trivial
  | read field =>
    exact .bind (.observe _) fun o _ => .bind (ends_readField id field) fun v _ =>
      ends_storeValue _ _ v
  | readChild index field =>
    refine .bind (.observe _) fun o _ => ?_
    split
    · exact .bind (ends_readField _ field) fun v _ => ends_storeValue _ _ v
    · exact .pure trivial
  | writeSlot name value => exact .bind (.observe _) fun o _ => ends_changeProject _ _
  | handleError message => exact ends_tolerate id message
  | checkPolicy => exact ends_checkPolicy id
  | storeText name =>
    exact .bind (.observe _) fun o _ => .bind (ends_setProperty _ name _ _) fun _ _ =>
      .pure trivial
  | resolve field =>
    refine .bind (ends_readField id field) fun v _ => ?_
    split
    · refine .bind (.consult fun w => .mapError (fun _ => rfl) _) fun found _ => ?_
      exact .bind (.observe _) fun text _ => .bind (.observe _) fun o _ =>
        .bind (ends_setProperty _ _ text _) fun _ _ => .pure trivial
    · exact .pure trivial

theorem ends_performAll (id : ObjectId) (script : List Action) :
    Ends Fault.endsTask (performAll (φ := φ) tolerate id script) := by
  induction script with
  | nil => exact .pure trivial
  | cons action rest ih =>
    cases action with
    | report type message => exact .pure trivial
    | _ => exact .bind (ends_perform id _) fun _ _ => ih

theorem ends_kindOfClass (c : ClassName) : Ends Fault.endsTask (kindOfClass (φ := φ) c) := by
  unfold kindOfClass declareKind
  split
  · exact .pure trivial
  · refine .bind .get fun w _ => ?_
    split
    · exact .bind (.modify _) fun _ _ => .pure trivial
    · exact .throw rfl

theorem ends_definedClass (id : ObjectId) : Ends Fault.endsTask (definedClass (φ := φ) id) := by
  unfold definedClass
  refine .bind (ends_isSet id _) fun given _ => ?_
  extract_lets lookUp
  have looksUp : Ends Fault.endsTask (lookUp ()) := by
    refine .bind (ends_textOf id _) fun name _ => ?_
    split
    · exact .pure trivial
    · exact .bind (.observe _) fun owner _ => ends_reject id rfl
  split
  · refine .bind (ends_readField id _) fun classpath _ => ?_
    split
    · exact .bind (.consult fun w => (w.admissible_locations _).imp
        Fault.endsTask_of_endsReading) fun _ _ => looksUp
    · exact looksUp
  · exact looksUp

theorem ends_define (asTask : Bool) (id : ObjectId) :
    Ends Fault.endsTask (define (φ := φ) asTask id) := by
  unfold define
  refine .bind (ends_textOf id _) fun name _ => ?_
  refine .bind (ends_definedClass id) fun found _ => ?_
  extract_lets add
  have adds (change : Registry → Except RegistrationError Registry) :
      Ends Fault.endsTask (add change) := by
    have registers : Ends Fault.endsTask (φ := φ) (tryCatch (changeRegistry change) fun fault => do
        let owner ← observe (·.describe id)
        reject id (.noRegistration owner fault.message)) :=
      .tryCatch (.any _) fun _ _ => .bind (.observe _) fun owner _ => ends_reject id rfl
    exact .bind registers fun _ _ => .bind (ends_logOf id _ _) fun _ _ => .pure trivial
  split
  · split
    · rw [pure_bind]
      exact adds _
    · rw [pure_bind]
      exact adds _
  · refine .bind (ends_kindOfClass found) fun _ _ => ?_
    rw [pure_bind]
    exact adds _

/-! Whole tasks. -/

theorem ends_instantiateInvocation (project : ProjectId) (target : String) (index : Nat) :
    Ends Fault.endsMaking (instantiateInvocation (φ := φ) project target index) := by
  unfold instantiateInvocation
  refine .bind (.observe _) fun i _ => ?_
  split
  · exact .pure trivial
  · exact .pure trivial
  · exact .bind (ends_create project _ _) fun id _ =>
      .bind (ends_changeProject project _) fun _ _ => .pure trivial

theorem ends_prepareInvocation (project : ProjectId) (target : String) (index : Nat) :
    Ends Fault.endsWork (prepareInvocation (φ := φ) project target index) := by
  unfold prepareInvocation
  refine .bind ((ends_instantiateInvocation project target index).imp
    Fault.endsWork_of_endsMaking) fun made _ => ?_
  split
  · exact .pure trivial
  · next id =>
    refine .bind (.observe _) fun i _ => ?_
    extract_lets answer
    have answers : Ends Fault.endsWork (answer ()) :=
      .bind (.observe _) fun isTask _ => .pure trivial
    split
    · split
      · exact .bind (ends_configure project id _) fun _ _ =>
          .bind (ends_changeProject project _) fun _ _ => answers
      · exact answers
    · exact answers

section Tasks

variable [FileSystem φ] {caller : Caller φ}

theorem ends_work (calls : ∀ id, Ends Fault.endsTask (caller id)) (id : ObjectId) :
    Ends Fault.endsTask (work caller id) := by
  unfold work workBy
  refine .bind (.observe _) fun performer _ => ?_
  split
  · exact .pure trivial
  split
  · exact ends_performAll id _
  · exact .bind (calls id) fun _ _ => .pure trivial
  · exact ends_delete id
  · exact ends_echo id
  · exact ends_fail id
  · exact ends_defineProperty id
  · exact ends_touch id
  · exact ends_checkUpToDate id
  · exact .bind (.observe _) fun asTask _ => ends_define asTask id
  · exact .pure trivial

theorem ends_performTask (calls : ∀ id, Ends Fault.endsTask (caller id)) (id : ObjectId) :
    Ends Fault.endsTask (performTask caller id) := by
  unfold performTask
  refine .attempt (ends_work calls id) fun result may => ?_
  split
  · exact .pure trivial
  · split
    · exact .bind (.observe _) fun described _ => ends_failTask id _
    · exact .pure trivial
  · refine .bind (.observe _) fun described _ => ?_
    split
    · exact ends_reject id rfl
    · exact ends_reject id rfl
  · exact .throw may

theorem ends_performInvocation (calls : ∀ id, Ends Fault.endsTask (caller id))
    (project : ProjectId) (target : String) (index : Nat) :
    Ends Fault.endsWork (performInvocation caller project target index) := by
  unfold performInvocation
  refine .bind (ends_prepareInvocation project target index) fun made _ => ?_
  split
  · exact .pure trivial
  · exact .map some ((ends_performTask calls _).imp Fault.endsWork_of_endsTask) fun _ _ => trivial

end Tasks

end Engine
end BuildEngine
