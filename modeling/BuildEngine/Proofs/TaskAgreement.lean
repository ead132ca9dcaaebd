import BuildEngine.Proofs.Agreement
import BuildEngine.Task.Definition
import BuildEngine.Task.Delete
import BuildEngine.Task.Script
import BuildEngine.Task.Standard
import BuildEngine.Task.UpToDate

/-! The work of tasks that are paired agrees: they read the same, do the same to files, to the
registry and to the properties of their projects, and end in the same way. -/

namespace BuildEngine.Pairing

open Engine

variable {φ : Type} {α β : Type} {s : Pairing} {i j : ObjectId} {p q : ProjectId}
variable {wanted : α → β → Prop}

/-! What all tasks share. -/

section Shared

variable (paired : s.Objects i j) (name : String)
include paired

theorem sees_textOf : s.Sees (φ := φ) (textOf i name) (textOf j name) Eq :=
  .consult fun like => like.readText paired name

theorem sees_flagOf : s.Sees (φ := φ) (flagOf i name) (flagOf j name) Eq :=
  .consult fun like => like.readFlag paired name

theorem sees_pathOf : s.Sees (φ := φ) (pathOf i name) (pathOf j name) Eq :=
  .consult fun like => like.readPath paired name

theorem sees_readField : s.Sees (φ := φ) (readField i name) (readField j name) (Value.Like s) :=
  .consult fun like => like.read paired name

theorem sees_isSet : s.Sees (φ := φ) (isSet i name) (isSet j name) Eq :=
  .observe fun like => like.isSet paired name

theorem sees_isA (kind : KindId) :
    s.Sees (φ := φ) (observe (·.isA i kind)) (observe (·.isA j kind)) Eq :=
  .observe fun like => like.isA paired kind

theorem sees_describe : s.Sees (φ := φ) (observe (·.describe i)) (observe (·.describe j)) Eq :=
  .observe fun like => like.describe paired

theorem sees_projectOf : s.Sees (φ := φ) (projectOf i) (projectOf j) (Project.Like s) :=
  .bind (sees_object paired) fun _ _ same => sees_project same.project

theorem sees_failTask (message : String) :
    s.Sees (φ := φ) (failTask i message) (failTask j message) wanted :=
  .bind (sees_object paired) fun _ _ same => same.location ▸ .fault rfl

theorem sees_reject (problem : Problem) :
    s.Sees (φ := φ) (reject i problem) (reject j problem) wanted :=
  .bind (sees_object paired) fun _ _ same => same.location ▸ .fault rfl

theorem sees_rejectIf (holds : Bool) (problem : Problem) :
    s.Sees (φ := φ) (rejectIf i holds problem) (rejectIf j holds problem) Eq := by
  unfold rejectIf
  split
  · exact sees_reject paired problem
  · exact .pure rfl

theorem sees_checkPolicy :
    s.Sees (φ := φ) (checkPolicy i) (checkPolicy j) Eq := by
  refine .bindSame (sees_flagOf paired _) fun quiet => ?_
  cases quiet with
  | false => exact .pure rfl
  | true =>
    refine .bindSame (sees_flagOf paired _) fun strict => ?_
    cases strict with
    | false => exact .pure rfl
    | true => exact sees_reject paired _

theorem sees_partsOf (kind : KindId) :
    s.Sees (φ := φ) (partsOf i kind) (partsOf j kind) (List.Forall₂ s.Objects) := by
  refine .observe fun like => List.rel_filter (fun part part' parts => ?_) (like.object paired).parts
  exact iff_of_eq (congrArg (· = true) (like.isA parts kind))

theorem agree_logOf (level : LogLevel) (message : String) :
    s.Agree (φ := φ) (logOf i level message) (logOf j level message) :=
  .lookSame (.observe fun like => like.loggerOf paired) fun _ => agree_log _ _ _ _ _ _

/-- A problem is left to the same policy. -/
theorem agree_tolerate (message : String) :
    s.Agree (φ := φ) (tolerate i message) (tolerate j message) := by
  unfold tolerate
  refine .look (sees_object paired) fun o o' objects => ?_
  refine .lookSame (sees_flagOf paired _) fun strict => ?_
  refine .look (sees_project objects.project) fun p p' projects => ?_
  rw [projects.haltOnFailure]
  split
  · exact .sees (sees_failTask paired _)
  refine .lookSame (sees_flagOf paired _) fun quiet => ?_
  split
  · exact agree_logOf paired _ _
  refine .bind (agree_logOf paired _ _) fun t _ _ within _ => ?_
  have paired := paired.mono within
  refine .lookSame (sees_isSet paired _) fun given => ?_
  split
  · refine .lookSame (sees_textOf paired _) fun name => ?_
    refine .bind (agree_setProperty (objects.project.mono within) name _ _) ?_
    exact fun _ _ _ _ _ => .pure trivial
  · exact .pure trivial

end Shared

/-! The small tasks. -/

section Standard

variable (paired : s.Objects i j)
include paired

theorem agree_echo [FileSystem φ] :
    s.Agree (φ := φ) (echo i) (echo j) fun _ => Eq := by
  unfold echo
  refine .lookSame (sees_textOf paired _) fun message => ?_
  refine .lookSame (sees_isSet paired _) fun toFile => ?_
  split
  · refine .lookSame (.consult fun like => (like.read paired _).map fun _ _ => like.meant) ?_
    intro level
    exact .bind (agree_logOf paired _ _) fun _ _ _ _ _ => .pure rfl
  · refine .lookSame (sees_pathOf paired _) fun path => ?_
    refine .lookSame (sees_flagOf paired _) fun append => ?_
    have written (before : ByteArray) : s.Agree (φ := φ) (do
        changeFiles fun files => FileSystem.write files path (before ++ message.toUTF8)
        return (none : Option TaskStatus)) (do
        changeFiles fun files => FileSystem.write files path (before ++ message.toUTF8)
        return (none : Option TaskStatus)) fun _ => Eq :=
      .bind (agree_changeFiles _) fun _ _ _ _ _ => .pure rfl
    refine .lookSame (.observe fun like => by rw [like.files]) fun present => ?_
    split
    · exact .lookSame (.readFiles _) fun before => written before
    · exact written _

theorem sees_fail : s.Sees (φ := φ) (fail i) (fail j) Eq := by
  unfold fail
  refine .bind (sees_projectOf paired) fun p p' projects => ?_
  rw [projects.properties]
  extract_lets properties failing otherwise failing' otherwise'
  have fails : s.Sees (failing ()) (failing' ()) Eq :=
    .bindSame (sees_textOf paired _) fun _ => sees_failTask paired _
  have looks : s.Sees (otherwise ()) (otherwise' ()) Eq := by
    refine .bindSame (sees_isSet paired _) fun given => ?_
    split
    · refine .bindSame (sees_textOf paired _) fun name => ?_
      split
      · exact .pure rfl
      · exact fails
    · exact fails
  refine .bindSame (sees_isSet paired _) fun given => ?_
  split
  · refine .bindSame (sees_textOf paired _) fun name => ?_
    split
    · exact .pure rfl
    · exact looks
  · exact looks

omit paired in
theorem sees_absolutePath (path : Path) :
    s.Sees (φ := φ) (absolutePath path) (absolutePath path) Eq :=
  .observe fun like => by rw [like.here]

theorem agree_defineProperty :
    s.Agree (φ := φ) (defineProperty i) (defineProperty j) fun _ => Eq := by
  unfold defineProperty
  refine .lookSame (sees_textOf paired _) fun name => ?_
  refine .lookSame (sees_isSet paired _) fun byValue => ?_
  refine .lookSame (sees_isSet paired _) fun byLocation => ?_
  extract_lets store choose store' choose'
  have stored (value : String) : s.Agree (store value) (store' value) fun _ => Eq := by
    refine .lookSame (sees_flagOf paired _) fun override => ?_
    refine .look (sees_object paired) fun o o' same => ?_
    refine .bind (agree_setProperty same.project name value override) fun t a b within stored => ?_
    subst stored
    split
    · exact .bind (agree_logOf (paired.mono within) _ _) fun _ _ _ _ _ => .pure rfl
    · exact .pure rfl
  have chosen : s.Agree (choose ()) (choose' ()) fun _ => Eq := by
    unfold choose choose'
    split
    · exact .lookSame (sees_textOf paired _) stored
    · refine .lookSame (sees_pathOf paired _) fun path => ?_
      exact .lookSame (sees_absolutePath path) fun absolute => stored absolute.text
  split
  · refine .lookSame (sees_describe paired) fun described => ?_
    exact .lookSame (sees_reject paired _) fun _ => chosen
  · exact chosen

theorem agree_touch [FileSystem φ] : s.Agree (φ := φ) (touch i) (touch j) fun _ => Eq := by
  unfold touch
  refine .lookSame (sees_isSet paired _) fun given => ?_
  extract_lets touchAt touchAt'
  have touched (time : Option Number.Binary64) :
      s.Agree (touchAt time) (touchAt' time) fun _ => Eq := by
    refine .lookSame (sees_pathOf paired _) fun path => ?_
    refine .bind (agree_logOf paired _ _) fun _ _ _ _ _ => ?_
    exact .bind (agree_changeFiles _) fun _ _ _ _ _ => .pure rfl
  split
  · refine .look (sees_readField paired _) fun millis millis' same => ?_
    rw [same.integer?]
    split
    · exact touched _
    · exact .fault rfl
  · exact touched _

end Standard

/-! Deleting. -/

section Delete

variable [FileSystem φ]

theorem sees_isDirectory (path : Path) :
    s.Sees (φ := φ) (isDirectory path) (isDirectory path) Eq :=
  .observe fun like => by rw [like.files]

theorem sees_isThere (path : Path) : s.Sees (φ := φ) (isThere path) (isThere path) Eq :=
  .observe fun like => by rw [like.files]

theorem sees_entryAt (path : Path) : s.Sees (φ := φ) (entryAt path) (entryAt path) Eq :=
  .bindSame (sees_isDirectory path) fun _ => .pure rfl

theorem agree_deleteEntry (paired : s.Objects i j) (path : Path) (entry : Entry) :
    s.Agree (φ := φ) (deleteEntry tolerate i path entry) (deleteEntry tolerate j path entry)
      fun _ => Eq := by
  unfold deleteEntry
  refine .lookSame (sees_flagOf paired _) fun verbose => ?_
  extract_lets level
  refine .bind (agree_logOf paired _ _) fun t _ _ within _ => ?_
  have paired := paired.mono within
  refine .bind (agree_changeFiles _).attempt fun t result result' within same => ?_
  have paired := paired.mono within
  cases same with
  | ok => exact .pure rfl
  | @error fault fault' faults =>
    cases faults with
    | anonymous anonymous =>
      cases fault with
      | file => exact .bind (agree_tolerate paired _) fun _ _ _ _ _ => .pure rfl
      | _ => exact .fault anonymous
    | empty objects => exact .throw (.empty objects _ _)
    | build _ _ faults => exact .throw (.build _ _ faults)

theorem agree_deleteBelow (paired : s.Objects i j) (levels : Nat) (path : Path) :
    s.Agree (φ := φ) (deleteBelow tolerate i levels path) (deleteBelow tolerate j levels path) := by
  induction levels generalizing s path with
  | zero => exact .pure trivial
  | succ levels ih =>
    unfold deleteBelow
    refine .lookSame (.readFiles _) fun children => ?_
    have same : List.Forall₂ Eq children children := List.forall₂_eq_eq_eq ▸ rfl
    refine .bind (.forIn same fun t child child' within same => ?_) fun _ _ _ _ _ => .pure trivial
    subst same
    have paired := paired.mono within
    have deleted {t : Pairing} (paired : t.Objects i j) : t.Agree (φ := φ) (do
        let _ ← deleteEntry tolerate i child (← entryAt child)
        pure (ForInStep.yield PUnit.unit)) (do
        let _ ← deleteEntry tolerate j child (← entryAt child)
        pure (ForInStep.yield PUnit.unit)) fun _ => Eq :=
      .lookSame (sees_entryAt child) fun entry =>
        .bind (agree_deleteEntry paired child entry) fun _ _ _ _ _ => .pure rfl
    refine .lookSame (sees_isDirectory child) fun isDirectory => ?_
    split
    · exact .bind (ih paired child) fun _ _ _ within _ => deleted (paired.mono within)
    · exact deleted paired

theorem agree_deleteDirectory (paired : s.Objects i j) (path : Path) :
    s.Agree (φ := φ) (deleteDirectory tolerate i path) (deleteDirectory tolerate j path) := by
  unfold deleteDirectory
  refine .lookSame (sees_isDirectory path) fun isDirectory => ?_
  split
  · refine .lookSame (sees_absolutePath path) fun absolute => ?_
    exact agree_tolerate paired _
  · refine .lookSame (.observe fun like => by rw [like.files]) fun depth => ?_
    refine .bind (agree_deleteBelow paired depth path) fun _ _ _ within _ => ?_
    exact .bind (agree_deleteEntry (paired.mono within) _ _) fun _ _ _ _ _ => .pure trivial

theorem agree_deleteFile (paired : s.Objects i j) (path : Path) :
    s.Agree (φ := φ) (deleteFile tolerate i path) (deleteFile tolerate j path) := by
  unfold deleteFile
  refine .lookSame (sees_isThere path) fun present => ?_
  split
  · refine .lookSame (sees_absolutePath path) fun absolute => ?_
    exact agree_tolerate paired _
  · refine .lookSame (sees_isDirectory path) fun isDirectory => ?_
    split
    · exact agree_logOf paired _ _
    · exact .bind (agree_deleteEntry paired _ _) fun _ _ _ _ _ => .pure trivial

theorem agree_deleteEmpty (paired : s.Objects i j) (paths : List Path) :
    s.Agree (φ := φ) (deleteEmpty tolerate i paths) (deleteEmpty tolerate j paths) fun _ => Eq := by
  induction paths generalizing s with
  | nil => exact .pure rfl
  | cons path rest ih =>
    unfold deleteEmpty
    refine .lookSame (sees_isDirectory path) fun isDirectory => ?_
    extract_lets count deleteIf count' deleteIf'
    have counted {t : Pairing} (paired : t.Objects i j) (deleted : Bool) :
        t.Agree (count deleted) (count' deleted) fun _ => Eq :=
      .bind (ih paired) fun _ _ _ _ same => .pure (by rw [same])
    have deletes (isEmpty : Bool) : s.Agree (deleteIf isEmpty) (deleteIf' isEmpty) fun _ => Eq := by
      unfold deleteIf deleteIf'
      split
      · refine .bind (agree_deleteEntry paired _ _) fun _ deleted deleted' within same => ?_
        exact same ▸ counted (paired.mono within) deleted
      · exact counted paired false
    split
    · exact .lookSame (.readFiles _) fun children => deletes children.isEmpty
    · exact deletes false

theorem directoriesBetween_results (base path : Path) :
    s.Results Eq (directoriesBetween base path) (directoriesBetween base path) := by
  unfold directoriesBetween
  split
  · exact .ok rfl
  · exact .fault rfl

theorem agree_deleteNamed (paired : s.Objects i j) (base : Path) (names : List String) :
    s.Agree (φ := φ) (deleteNamed tolerate i base names) (deleteNamed tolerate j base names)
      fun _ => Eq := by
  induction names generalizing s with
  | nil => exact .pure rfl
  | cons name rest ih =>
    unfold deleteNamed
    extract_lets path goOn goOn'
    have goesOn {t : Pairing} (paired : t.Objects i j) :
        t.Agree (goOn ()) (goOn' ()) fun _ => Eq := by
      refine .lookSame (.consult fun _ => directoriesBetween_results base path) fun above => ?_
      exact .bind (ih paired) fun _ _ _ _ same => .pure (by rw [same])
    refine .lookSame (sees_isThere path) fun present => ?_
    refine .lookSame (sees_isDirectory path) fun isDirectory => ?_
    split
    · refine .bind (agree_deleteEntry paired _ _) fun _ _ _ within _ => ?_
      exact goesOn (paired.mono within)
    · exact goesOn paired

theorem agree_deleteList (paired : s.Objects i j) {list list' : ObjectId}
    (lists : s.Objects list list') :
    s.Agree (φ := φ) (deleteList tolerate i list) (deleteList tolerate j list') := by
  unfold deleteList
  refine .lookSame (.consult fun like => like.listDirectory lists) fun base => ?_
  refine .lookSame (.consult fun like => like.listFiles lists) fun names => ?_
  refine .bind (agree_logOf paired _ _) fun t _ _ within _ => ?_
  have paired := paired.mono within
  refine .bind (agree_deleteNamed paired base names) fun t directories _ within same => ?_
  subst same
  have paired := paired.mono within
  refine .lookSame (sees_flagOf paired _) fun alsoEmpty => ?_
  split
  · refine .bind (agree_deleteEmpty paired _) fun t count _ within same => ?_
    subst same
    split
    · exact agree_logOf (paired.mono within) _ _
    · exact .pure trivial
  · exact .pure trivial

theorem agree_deleteGivenFile (paired : s.Objects i j) (given : Bool) :
    s.Agree (φ := φ) (deleteGivenFile tolerate i given) (deleteGivenFile tolerate j given) := by
  unfold deleteGivenFile
  split
  · exact .lookSame (sees_pathOf paired _) fun path => agree_deleteFile paired path
  · exact .pure trivial

theorem agree_deleteGivenDirectory (paired : s.Objects i j) (given : Bool) :
    s.Agree (φ := φ) (deleteGivenDirectory tolerate i given)
      (deleteGivenDirectory tolerate j given) := by
  unfold deleteGivenDirectory
  split
  · exact .lookSame (sees_pathOf paired _) fun path => agree_deleteDirectory paired path
  · exact .pure trivial

theorem agree_deleteLists (paired : s.Objects i j) {lists lists' : List ObjectId}
    (related : List.Forall₂ s.Objects lists lists') :
    s.Agree (φ := φ) (deleteLists tolerate i lists) (deleteLists tolerate j lists')
      fun _ => Eq := by
  refine .bind (.forIn related fun t list list' within both => ?_) fun _ _ _ _ _ => .pure rfl
  have paired := paired.mono within
  refine .bind (agree_deleteList paired (both.mono within)).attempt ?_
  intro t' result result' within same
  have paired := paired.mono within
  cases same with
  | ok => exact .pure rfl
  | @error fault fault' faults =>
    cases faults with
    | anonymous anonymous =>
      cases fault with
      | configuration => exact .bind (agree_tolerate paired _) fun _ _ _ _ _ => .pure rfl
      | _ => exact .fault anonymous
    | empty objects => exact .throw (.empty objects _ _)
    | build _ _ faults => exact .throw (.build _ _ faults)

theorem agree_delete (paired : s.Objects i j) :
    s.Agree (φ := φ) (delete tolerate i) (delete tolerate j) fun _ => Eq := by
  rw [delete_eq tolerate i, delete_eq tolerate j]
  refine .look (sees_partsOf paired _) fun lists lists' parts => ?_
  refine .lookSame (sees_isSet paired _) fun file => ?_
  refine .lookSame (sees_isSet paired _) fun directory => ?_
  have none_left : lists.isEmpty = lists'.isEmpty := by cases parts <;> rfl
  rw [none_left]
  refine .lookSame (sees_rejectIf paired _ _) fun _ => ?_
  refine .lookSame (sees_checkPolicy paired) fun _ => ?_
  refine .bind (agree_deleteGivenFile paired file) fun t _ _ within _ => ?_
  have still := paired.mono within
  refine .bind (agree_deleteGivenDirectory still directory) fun t' _ _ more _ => ?_
  exact agree_deleteLists (still.mono more) (parts.imp fun _ _ both => both.mono (within.trans more))

end Delete

/-! Asking whether files are current. What is wrong with files names no object. -/

section UpToDate

theorem sees_derivedPath (paired : s.Objects i j) (byTarget : Bool) :
    s.Sees (φ := φ) (derivedPath i byTarget) (derivedPath j byTarget) Eq := by
  unfold derivedPath
  split
  · exact .map (sees_pathOf paired _) fun _ _ same => by rw [same]
  · exact .pure rfl

theorem sees_firstMapper {mappers mappers' : List ObjectId}
    (related : List.Forall₂ s.Objects mappers mappers') :
    s.Sees (φ := φ) (firstMapper mappers) (firstMapper mappers') Eq := by
  cases related with
  | nil => exact .pure rfl
  | cons both _ =>
    exact .map (.consult fun like => like.mapper both) fun _ _ same => by rw [same]

theorem ask_results {α : Type} (answer : Except FileError α) :
    s.Results Eq (Staleness.ask answer) (Staleness.ask answer) := by
  cases answer with
  | ok => exact .ok rfl
  | error => exact .fault rfl

variable [FileSystem φ]

theorem sourcePath_results (files : φ) (base : Option Path) (name : Path) :
    s.Results Eq (Staleness.sourcePath files base name) (Staleness.sourcePath files base name) := by
  unfold Staleness.sourcePath
  extract_lets path
  split
  · exact .ok rfl
  · exact .fault rfl

theorem isAnyOlder_results (files : φ) (source : Path) (derived : List Path) :
    s.Results Eq (Staleness.isAnyOlder files source derived)
      (Staleness.isAnyOlder files source derived) := by
  have isOlder (path : Path) : s.Results Eq (Staleness.isOlder files path source)
      (Staleness.isOlder files path source) := by
    unfold Staleness.isOlder
    split
    · exact .ok rfl
    · exact (ask_results _).bindSame fun _ => (ask_results _).bindSame fun _ => .ok rfl
  induction derived with
  | nil => exact .ok rfl
  | cons path rest ih =>
    unfold Staleness.isAnyOlder
    refine (isOlder path).bindSame fun older => ?_
    split
    · exact .ok rfl
    · exact ih

theorem staleSources_results (files : φ) (mapper : Mapper) (base destination : Option Path)
    (sources : List Path) :
    s.Results Eq (Staleness.staleSources files mapper base destination sources)
      (Staleness.staleSources files mapper base destination sources) := by
  induction sources with
  | nil => exact .ok rfl
  | cons name rest ih =>
    unfold Staleness.staleSources
    refine (sourcePath_results files base name).bindSame fun source => ?_
    refine (isAnyOlder_results files source _).bindSame fun stale => ?_
    exact ih.bindSame fun _ => .ok rfl

theorem isAnyNewer_results (files : φ) (time : Number.Binary64) (paths : List Path) :
    s.Results Eq (Staleness.isAnyNewer files time paths)
      (Staleness.isAnyNewer files time paths) := by
  induction paths with
  | nil => exact .ok rfl
  | cons path rest ih =>
    unfold Staleness.isAnyNewer
    refine (ask_results _).bindSame fun written => ?_
    split
    · exact .ok rfl
    · exact ih

theorem isUpToDate_results (files : φ) (derived : Option Path) (mapper : Option Mapper)
    (base : Option Path) (sources : List Path) :
    s.Results Eq (Staleness.isUpToDate files derived mapper base sources)
      (Staleness.isUpToDate files derived mapper base sources) := by
  unfold Staleness.isUpToDate
  split
  · exact (staleSources_results files _ base none sources).map fun _ _ same => by rw [same]
  · exact .fault rfl
  · split
    · exact .ok rfl
    · refine (Results.mapMSame sources (sourcePath_results files base)).bindSame fun paths => ?_
      refine (ask_results _).bindSame fun time => ?_
      exact (isAnyNewer_results files time paths).bindSame fun _ => .ok rfl

theorem sees_areListsCurrent (derived : Option Path) (mapper : Option Mapper)
    {lists lists' : List ObjectId} (related : List.Forall₂ s.Objects lists lists') :
    s.Sees (φ := φ) (areListsCurrent derived mapper lists) (areListsCurrent derived mapper lists')
      Eq := by
  induction related with
  | nil => exact .pure rfl
  | cons both _ ih =>
    unfold areListsCurrent
    refine .bindSame (.consult fun like => like.listFiles both) fun names => ?_
    refine .bindSame (.consult fun like => like.listDirectory both) fun base => ?_
    extract_lets sources
    refine .bindSame (.consult fun like => ?_) fun current => ?_
    · rw [like.files]
      exact isUpToDate_results _ _ _ _ _
    split
    · exact ih
    · exact .pure rfl

theorem sees_isAbsent (derived : Option Path) :
    s.Sees (φ := φ) (isAbsent derived) (isAbsent derived) Eq := by
  cases derived with
  | some path => exact .observe fun like => by rw [like.files]
  | none => exact .pure rfl

theorem sees_checkSource (paired : s.Objects i j) (bySource : Bool) :
    s.Sees (φ := φ) (checkSource i bySource) (checkSource j bySource) Eq := by
  unfold checkSource
  split
  · refine .bindSame (sees_pathOf paired _) fun source => ?_
    refine .bindSame (.observe fun like => by rw [like.files]) fun present => ?_
    exact .bindSame (sees_absolutePath source) fun absolute => sees_rejectIf paired _ _
  · exact .pure rfl

theorem sees_areSourcesCurrent (paired : s.Objects i j) {lists lists' : List ObjectId}
    (related : List.Forall₂ s.Objects lists lists') (bySource : Bool) (derived : Option Path)
    (mapper : Option Mapper) :
    s.Sees (φ := φ) (areSourcesCurrent i lists bySource derived mapper)
      (areSourcesCurrent j lists' bySource derived mapper) Eq := by
  unfold areSourcesCurrent
  refine .bindSame (sees_areListsCurrent derived mapper related) fun current => ?_
  split
  · exact .pure rfl
  split
  · exact .pure rfl
  refine .bindSame (sees_pathOf paired _) fun source => .consult fun like => ?_
  rw [like.files]
  exact isUpToDate_results _ _ _ _ _

theorem sees_isDerivedCurrent (paired : s.Objects i j)
    {lists lists' mappers mappers' : List ObjectId} (parts : List.Forall₂ s.Objects lists lists')
    (makers : List.Forall₂ s.Objects mappers mappers') (bySource : Bool) (derived : Option Path) :
    s.Sees (φ := φ) (isDerivedCurrent i lists mappers bySource derived)
      (isDerivedCurrent j lists' mappers' bySource derived) Eq := by
  unfold isDerivedCurrent
  refine .bindSame (sees_isAbsent derived) fun absent => ?_
  split
  · exact .pure rfl
  refine .bindSame (sees_checkSource paired bySource) fun _ => ?_
  refine .bindSame (sees_firstMapper makers) fun mapper => ?_
  refine .bind (sees_object paired) fun o o' same => ?_
  rw [same.location]
  exact .locating _ (sees_areSourcesCurrent paired parts bySource derived mapper)

theorem sees_isCurrent (paired : s.Objects i j) :
    s.Sees (φ := φ) (isCurrent i) (isCurrent j) Eq := by
  rw [isCurrent_eq i, isCurrent_eq j]
  refine .bind (sees_partsOf paired _) fun lists lists' parts => ?_
  refine .bind (sees_partsOf paired _) fun mappers mappers' makers => ?_
  refine .bindSame (sees_isSet paired _) fun bySource => ?_
  refine .bindSame (sees_isSet paired _) fun byTarget => ?_
  have without_lists : lists.isEmpty = lists'.isEmpty := by cases parts <;> rfl
  have without_mappers : mappers.isEmpty = mappers'.isEmpty := by cases makers <;> rfl
  rw [without_lists, without_mappers]
  refine .bindSame (sees_rejectIf paired _ _) fun _ => ?_
  refine .bindSame (sees_rejectIf paired _ _) fun _ => ?_
  refine .bindSame (sees_rejectIf paired _ _) fun _ => ?_
  exact .bindSame (sees_derivedPath paired byTarget) fun derived =>
    sees_isDerivedCurrent paired parts makers bySource derived

theorem agree_checkUpToDate (paired : s.Objects i j) :
    s.Agree (φ := φ) (checkUpToDate i) (checkUpToDate j) fun _ => Eq := by
  unfold checkUpToDate
  refine .lookSame (sees_textOf paired _) fun name => ?_
  refine .lookSame (sees_isCurrent paired) fun current => ?_
  split
  · exact .pure rfl
  refine .look (sees_object paired) fun o o' same => ?_
  refine .lookSame (sees_textOf paired _) fun value => ?_
  refine .bind (agree_setProperty same.project name value true) fun t _ _ within _ => ?_
  have paired := paired.mono within
  refine .look (sees_partsOf paired _) fun mappers mappers' makers => ?_
  have without_mappers : mappers.isEmpty = mappers'.isEmpty := by cases makers <;> rfl
  rw [without_mappers]
  split
  · refine .lookSame (sees_pathOf paired _) fun path => ?_
    exact .bind (agree_logOf paired _ _) fun _ _ _ _ _ => .pure rfl
  · exact .bind (agree_logOf paired _ _) fun _ _ _ _ _ => .pure rfl

end UpToDate

/-! Scripts. -/

theorem agree_storeValue (projects : s.Projects p q) (name : String) {v v' : Value}
    (same : Value.Like s v v') :
    s.Agree (φ := φ) (storeValue p name v) (storeValue q name v') := by
  refine .lookSame (.observe fun like => ?_) fun text => ?_
  · rw [like.valueTypeName same, like.display same]
  · exact .bind (agree_setProperty projects name text true) fun _ _ _ _ _ => .pure trivial

/-- An action does the same if the value that it may write means the same on both sides. -/
theorem agree_perform (paired : s.Objects i j) {action : Action} (complete : action.isComplete) :
    s.Agree (φ := φ) (perform tolerate i action) (perform tolerate j action) := by
  cases action with
  | setProperty name value =>
    refine .look (sees_object paired) fun o o' same => ?_
    exact .bind (agree_setProperty same.project name value true) fun _ _ _ _ _ => .pure trivial
  | log level message => exact agree_logOf paired level message
  | fail message => exact .sees (sees_failTask paired message)
  | reject message => exact .fault rfl
  | crash message => exact .fault rfl
  | interrupt => exact .fault rfl
  | report => exact .pure trivial
  | read field =>
    refine .look (sees_object paired) fun o o' same => ?_
    exact .look (sees_readField paired field) fun v v' values =>
      agree_storeValue same.project _ values
  | readChild index field =>
    refine .look (sees_object paired) fun o o' same => ?_
    rcases (same.children.rel_getElem? index).both with
      ⟨left, right⟩ | ⟨⟨method, child⟩, ⟨method', child'⟩, left, right, -, children⟩
    · rw [left, right]
      exact .pure trivial
    · rw [left, right]
      exact .look (sees_readField children field) fun v v' values =>
        agree_storeValue same.project _ values
  | writeSlot name value =>
    refine .look (sees_object paired) fun o o' same => ?_
    refine agree_changeProject same.project fun p p' projects => ?_
    exact { projects with references := { projects.references with
      slots := projects.references.slots.put name (.complete complete) } }
  | handleError message => exact agree_tolerate paired message
  | checkPolicy => exact (Agree.sees (sees_checkPolicy paired)).mono fun _ _ _ _ _ => trivial
  | storeText name =>
    refine .look (sees_object paired) fun o o' same => ?_
    have texts : nestedText o = nestedText o' := by rw [nestedText, nestedText, same.texts]
    rw [texts]
    exact .bind (agree_setProperty same.project name _ true) fun _ _ _ _ _ => .pure trivial
  | resolve field =>
    refine .look (sees_readField paired field) fun v v' values => ?_
    cases values with
    | complete complete =>
      split
      · cases complete
      · exact .pure trivial
    | object => exact .pure trivial
    | @reference r r' references =>
      refine .look (.consult fun like => ?_)
        fun found found' (objects : s.Objects found found') => ?_
      · rw [references.location, references.id]
        rcases like.resolve references.project r'.id with
          ⟨i, j, left, right, objects⟩ | ⟨error, left, right⟩
        · rw [left, right]
          exact .ok objects
        · rw [left, right]
          exact .fault rfl
      refine .lookSame (.observe fun like => ?_) fun text => ?_
      · rw [like.typeName objects, like.describe objects]
      refine .look (sees_object paired) fun o o' same => ?_
      exact .bind (agree_setProperty same.project _ text true) fun _ _ _ _ _ => .pure trivial

theorem agree_performAll (paired : s.Objects i j) {script : List Action}
    (complete : script.all Action.isComplete) :
    s.Agree (φ := φ) (performAll tolerate i script) (performAll tolerate j script) fun _ => Eq := by
  induction script generalizing s with
  | nil => exact .pure rfl
  | cons action rest ih =>
    rw [List.all_cons, Bool.and_eq_true] at complete
    cases action with
    | report type message => exact .pure rfl
    | _ =>
      exact .bind (agree_perform paired complete.1) fun _ _ _ within _ =>
        ih (paired.mono within) complete.2

/-! Definitions. -/

theorem agree_kindOfClass (c : ClassName) :
    s.Agree (φ := φ) (kindOfClass c) (kindOfClass c) fun _ => Eq := by
  unfold kindOfClass
  split
  · exact .pure rfl
  · exact agree_declareKind rfl rfl

theorem sees_definedClass (paired : s.Objects i j) :
    s.Sees (φ := φ) (definedClass i) (definedClass j) Eq := by
  unfold definedClass
  refine .bindSame (sees_isSet paired _) fun given => ?_
  extract_lets lookUp lookUp'
  have looksUp : s.Sees (lookUp ()) (lookUp' ()) Eq := by
    refine .bindSame (sees_textOf paired _) fun name => ?_
    split
    · exact .pure rfl
    · exact .bindSame (sees_describe paired) fun owner => sees_reject paired _
  split
  · refine .bind (sees_readField paired _) fun classpath classpath' same => ?_
    cases same with
    | complete complete =>
      split
      · cases complete
      · exact looksUp
    | object lists => exact .bindSame (.consult fun like => like.locations lists) fun _ => looksUp
    | reference => exact looksUp
  · exact looksUp

theorem agree_define (asTask : Bool) (paired : s.Objects i j) :
    s.Agree (φ := φ) (define asTask i) (define asTask j) fun _ => Eq := by
  unfold define
  refine .lookSame (sees_textOf paired _) fun name => ?_
  refine .lookSame (sees_definedClass paired) fun found => ?_
  extract_lets add add'
  have adds {t : Pairing} (within : s.Within t)
      (change : Registry → Except RegistrationError Registry) :
      t.Agree (add change) (add' change) fun _ => Eq := by
    have paired := paired.mono within
    refine .bind (.tryCatch (agree_changeRegistry change) fun t fault fault' more faults => ?_) ?_
    · have paired := paired.mono more
      rw [faults.message]
      exact .lookSame (sees_describe paired) fun owner => .sees (sees_reject paired _)
    · intro t _ _ more _
      exact .bind (agree_logOf (paired.mono more) _ _) fun _ _ _ _ _ => .pure rfl
  split
  · split
    · exact .lookSame (.pure rfl) fun change => adds (.refl s) change
    · exact .lookSame (.pure rfl) fun change => adds (.refl s) change
  · refine .bind (agree_kindOfClass found) fun _ kind _ within same => ?_
    subst same
    exact .lookSame (.pure rfl) fun change => adds within change

end BuildEngine.Pairing
