import BuildEngine.Proofs.Change
import BuildEngine.Proofs.Ending
import BuildEngine.Proofs.Inquiry
import BuildEngine.Proofs.Removal

/-! Leniency: a delete task that does not stop at errors leaves what it cannot delete to its failure
policy, which logs it, and goes on. What it does not leave there is a list that cannot be read for
another reason than a problem of the description, and a name that leads out of the directory of its
list: the task ends with the fault. -/

namespace BuildEngine

open Engine

/-- The worlds differ in nothing that attributes hold or projects ask of their tasks. -/
structure World.SaysSame {φ : Type} (w after : World φ) : Prop where
  objects : after.objects = w.objects
  kinds : after.kinds = w.kinds
  slots : after.slotValue = w.slotValue
  halts : ∀ project, (after.project project).haltOnFailure = (w.project project).haltOnFailure

/-- The name of a file leads out of the directory that it is seen from. -/
def Path.isLeftBy (base : Path) (name : String) : Bool :=
  ((base / Path.ofString name).relativeTo? base).isNone

/-- A fault of a list that a delete task does not leave to its failure policy: one of reading it, if it
is no problem of the description, or one of the first name that leads out of its directory. -/
inductive World.Overlooks {φ : Type} [FileSystem φ] (w : World φ) (list : ObjectId) :
    Fault → Prop where
  | directory {fault : Fault} (fails : w.listDirectory list = .error fault)
      (other : fault.isConfiguration = false) : Overlooks w list fault
  | names {base : Path} {fault : Fault} (found : w.listDirectory list = .ok base)
      (fails : w.listFiles list = .error fault) (other : fault.isConfiguration = false) :
      Overlooks w list fault
  | stray {base : Path} {names : List String} {name : String}
      (found : w.listDirectory list = .ok base) (listed : w.listFiles list = .ok names)
      (first : names.find? base.isLeftBy = some name) :
      Overlooks w list (.outside (base / Path.ofString name) base)

/-- The faults that may be overlooked: an attribute that holds nothing, a list of bytes that are no
text, and a path outside of a directory. -/
def Fault.isOverlooked : Fault → Bool
  | empty .. | undecodable _ | outside .. => true
  | _ => false

/-- A task can read its attributes, and neither it nor its project says that errors fail it. -/
structure World.Tolerates {φ : Type} (w : World φ) (id : ObjectId) : Prop where
  configured : w.IsConfigured id
  lenient : w.readFlag id "failonerror" = .ok false
  goesOn : (w.project (w.object id).project).haltOnFailure = false

namespace World

section Same

variable {φ : Type} {w mid after : World φ} {id : ObjectId} {name : String}

namespace SaysSame

theorem refl (w : World φ) : w.SaysSame w := ⟨rfl, rfl, rfl, fun _ => rfl⟩

theorem trans (first : w.SaysSame mid) (second : mid.SaysSame after) : w.SaysSame after where
  objects := second.objects.trans first.objects
  kinds := second.kinds.trans first.kinds
  slots := second.slots.trans first.slots
  halts project := (second.halts project).trans (first.halts project)

theorem isSet (same : w.SaysSame after) (id : ObjectId) (name : String) :
    after.isSet id name = w.isSet id name := by
  rw [World.isSet, object_of_same same.objects, World.isSet]

theorem tolerates (same : w.SaysSame after) (tolerates : w.Tolerates id) : after.Tolerates id where
  configured := tolerates.configured.ofSame same.objects same.kinds same.slots
  lenient := by
    rw [readFlag, read_of_same same.objects same.kinds same.slots]
    exact tolerates.lenient
  goesOn := by
    rw [object_of_same same.objects, same.halts]
    exact tolerates.goesOn

/-- Properties are no attributes. -/
theorem ofProperties (w : World φ) (project : ProjectId) (properties : Properties) :
    w.SaysSame { w with projects := w.projects.modify project fun p => { p with properties } } := by
  let after : World φ :=
    { w with projects := w.projects.modify project fun p => { p with properties } }
  have blind {α : Type} (view : Project → α) (other : ProjectId)
      (same : ∀ p : Project, view { p with properties } = view p) :
      view (after.project other) = view (w.project other) := by
    have changes : after.projects = w.projects.modify project fun p => { p with properties } := rfl
    rcases project_of_modify changes other with stays | ⟨-, changed⟩
    · rw [stays]
    · rw [changed, same]
  refine ⟨rfl, rfl, funext fun cell => ?_, fun other => blind (·.haltOnFailure) other fun _ => rfl⟩
  exact blind (·.references.slot cell.2) cell.1 fun _ => rfl

end SaysSame

theorem IsConfigured.text (configured : w.IsConfigured id) (set : w.isSet id name = true) :
    ∃ text, w.readText id name = .ok text := by
  obtain ⟨v, reads⟩ := configured.readable name set
  rw [readText, reads]
  exact ⟨_, rfl⟩

theorem IsConfigured.path (configured : w.IsConfigured id) (set : w.isSet id name = true) :
    ∃ path, w.readPath id name = .ok path := by
  obtain ⟨v, reads⟩ := configured.readable name set
  rw [readPath, reads]
  exact ⟨_, rfl⟩

theorem Overlooks.isOverlooked [FileSystem φ] {list : ObjectId} {fault : Fault}
    (overlooks : w.Overlooks list fault) : fault.isOverlooked = true := by
  have read {α : Type} {result : Except Fault α} (admissible : Admissible Fault.endsReading result)
      (fails : result = .error fault) (other : fault.isConfiguration = false) :
      fault.isOverlooked = true := by
    rw [fails] at admissible
    cases fault with
    | empty | undecodable => rfl
    | configuration => cases other
    | _ => cases admissible
  cases overlooks with
  | directory fails other => exact read (w.admissible_listDirectory list) fails other
  | names found fails other => exact read (w.admissible_listFiles list) fails other
  | stray => rfl

end Same

end World

namespace Engine

section Enduring

variable {φ α β γ : Type} {w : World φ} {action : Engine φ α} {next : α → Engine φ β}

/-- An action ends with the fault with which its first part ends. -/
theorem bind_ends {fault : Fault} (fails : (action.run w).1 = .error fault) :
    ((action >>= next).run w).1 = .error fault := by
  rcases ended : action.run w with ⟨result, after⟩
  rw [ended] at fails
  cases fails
  rw [run_bind_error ended]

/-- From a world, an action ends with a result, and changes nothing that attributes hold or projects
ask of their tasks. -/
def Endures (w : World φ) (action : Engine φ α) : Prop :=
  Achieves w action fun _ after => w.SaysSame after

namespace Endures

theorem pure (a : α) : Endures w (pure a) := Achieves.pure (.refl w)

theorem bind (first : Endures w action)
    (rest : ∀ a after, w.SaysSame after → Endures after (next a)) : Endures w (action >>= next) :=
  Achieves.bind first fun a after same => (rest a after same).imp fun _ _ => same.trans

theorem look {a : α} (seen : action.run w = (.ok a, w)) (rest : Endures w (next a)) :
    Endures w (action >>= next) := Achieves.look seen rest

theorem forIn {body : γ → PUnit → Engine φ (ForInStep PUnit)} (entries : List γ)
    (each : ∀ v, w.SaysSame v → ∀ entry, Achieves v (body entry ⟨⟩) fun step after =>
      step = .yield ⟨⟩ ∧ v.SaysSame after) : Endures w (forIn entries PUnit.unit body) := by
  induction entries generalizing w with
  | nil => exact .pure _
  | cons first rest ih =>
    refine .forIn_cons (each w (.refl w) first) fun v same => ?_
    exact (ih fun u further => each u (same.trans further)).imp fun _ _ => same.trans

/-- An action that goes on as another one does endures as that one does. -/
theorem via {v : World φ} {other : Engine φ α} (same : w.SaysSame v)
    (ran : action.run w = other.run v) (endures : Endures v other) : Endures w action := by
  obtain ⟨a, after, ends, further⟩ := endures
  exact ⟨a, after, ran.trans ends, same.trans further⟩

end Endures

theorem endures_logOf (id : ObjectId) (level : LogLevel) (message : String) :
    Endures w (logOf id level message) := ⟨(), _, rfl, rfl, rfl, rfl, fun _ => rfl⟩

theorem endures_setProperty (project : ProjectId) (name value : String) (override : Bool) :
    Endures w (setProperty project name value override) := by
  unfold setProperty
  exact .look (run_project project w) ⟨_, _, rfl, .ofProperties w project _⟩

/-- A file operation that is refused is a fault of the files. -/
theorem attempt_changeFiles (operation : φ → Except FileError φ) :
    Achieves w (changeFiles operation).attempt fun result after =>
      w.SaysSame after ∧ (result = .ok () ∨ ∃ error, result = .error (.file error)) := by
  refine ⟨_, _, run_attempt _ w, ?_⟩
  rw [changeFiles, run_bind_ok (run_get w)]
  cases operation w.files with
  | ok files => exact ⟨⟨rfl, rfl, rfl, fun _ => rfl⟩, .inl rfl⟩
  | error error => exact ⟨.refl w, .inr ⟨error, rfl⟩⟩

end Enduring

section Policy

variable {φ : Type} {w : World φ} {id : ObjectId}

/-- A problem that is left to a tolerant task is logged, and may set a property. -/
theorem endures_tolerate (tolerates : w.Tolerates id) (message : String) :
    Endures w (tolerate id message) := by
  obtain ⟨configured, lenient, goesOn⟩ := tolerates
  obtain ⟨quiet, reads⟩ := configured.flag "quiet" (by simp)
  unfold tolerate
  refine .look (run_object id w) (.look (run_consult_ok lenient) (.look (run_project _ w) ?_))
  rw [goesOn]
  refine .look (run_consult_ok reads) ?_
  split
  · exact endures_logOf id _ _
  · refine .bind (endures_logOf id _ _) fun _ v same => .look (run_observe _ v) ?_
    split
    · rename_i given
      have still := configured.ofSame same.objects same.kinds same.slots
      obtain ⟨name, named⟩ := still.text given
      exact .look (run_consult_ok named) (.bind (endures_setProperty _ _ _ _) fun _ _ _ => .pure _)
    · exact .pure _

end Policy

section Delete

variable {w : World MemoryFiles} {id list : ObjectId} {base path : Path} {names : List String}

theorem endures_deleteEntry (tolerates : w.Tolerates id) (path : Path) (entry : Entry) :
    Endures w (deleteEntry tolerate id path entry) := by
  obtain ⟨verbose, reads⟩ := tolerates.configured.flag "verbose" (by simp)
  unfold deleteEntry
  refine .look (run_consult_ok reads) ?_
  extract_lets level
  refine .bind (endures_logOf id level _) fun _ v same => ?_
  refine Achieves.bind (attempt_changeFiles _) ?_
  rintro _ u ⟨further, rfl | ⟨error, rfl⟩⟩
  · exact .pure further
  · have still := (same.trans further).tolerates tolerates
    exact ((endures_tolerate still _).bind fun _ _ _ => .pure _).imp fun _ _ => further.trans

/-- What lies below a directory is listed when it is come to, so there is a list. -/
theorem endures_deleteBelow (levels : Nat) (tolerates : w.Tolerates id)
    (directory : w.files.isDirectory path = true) :
    Endures w (deleteBelow tolerate id levels path) := by
  induction levels generalizing w path with
  | zero => exact .pure _
  | succ levels ih =>
    unfold deleteBelow
    refine .look (run_children directory) (.bind (.forIn _ fun v same child => ?_)
      fun _ _ _ => .pure _)
    refine Achieves.look (run_isDirectory child) ?_
    extract_lets goOn
    have goesOn {u : World MemoryFiles} (further : v.SaysSame u) :
        Achieves u (goOn ()) fun step after => step = .yield ⟨⟩ ∧ v.SaysSame after := by
      have still := (same.trans further).tolerates tolerates
      exact .look (run_entryAt child) (.bind (endures_deleteEntry still child _) fun _ _ more =>
        .pure ⟨rfl, further.trans more⟩)
    split
    · rename_i nested
      exact .bind (ih (same.tolerates tolerates) nested) fun _ u further => goesOn further
    · exact goesOn (.refl v)

theorem endures_deleteDirectory (tolerates : w.Tolerates id) (path : Path) :
    Endures w (deleteDirectory tolerate id path) := by
  unfold deleteDirectory
  refine .look (run_isDirectory path) ?_
  cases directory : w.files.isDirectory path with
  | false => exact .look (run_observe _ w) (endures_tolerate tolerates _)
  | true =>
    refine .look (run_observe _ w) (.bind (endures_deleteBelow _ tolerates directory) ?_)
    intro _ v same
    exact .bind (endures_deleteEntry (same.tolerates tolerates) path _) fun _ _ _ => .pure _

theorem endures_deleteFile (tolerates : w.Tolerates id) (path : Path) :
    Endures w (deleteFile tolerate id path) := by
  unfold deleteFile
  refine .look (run_isThere path) ?_
  split
  · exact .look (run_observe _ w) (endures_tolerate tolerates _)
  · refine .look (run_isDirectory path) ?_
    split
    · exact endures_logOf id _ _
    · exact .bind (endures_deleteEntry tolerates path _) fun _ _ _ => .pure _

theorem endures_deleteEmpty (tolerates : w.Tolerates id) (paths : List Path) :
    Endures w (deleteEmpty tolerate id paths) := by
  induction paths generalizing w with
  | nil => exact .pure _
  | cons first rest ih =>
    unfold deleteEmpty
    extract_lets goOn decide
    have goesOn (deleted : Bool) {v : World MemoryFiles} (same : w.SaysSame v) :
        Endures v (goOn deleted) :=
      .bind (ih (same.tolerates tolerates)) fun _ _ _ => .pure _
    have decides (isEmpty : Bool) : Endures w (decide isEmpty) := by
      cases isEmpty with
      | true => exact .bind (endures_deleteEntry tolerates first _) fun deleted _ => goesOn deleted
      | false => exact .look rfl (goesOn false (.refl w))
    refine .look (run_isDirectory first) ?_
    split
    · rename_i directory
      exact .look (run_children directory) (.look rfl (decides _))
    · exact .look rfl (decides false)

/-- The first name of a list is deleted if it is a file, and left behind. -/
theorem exists_run_deleteNamed (tolerates : w.Tolerates id) (base : Path) (name : String)
    (rest : List String) :
    ∃ v, w.SaysSame v ∧ (deleteNamed tolerate id base (name :: rest)).run w = (do
      let above ← consult fun _ => directoriesBetween base (base / Path.ofString name)
      return (above ++ (← deleteNamed tolerate id base rest)).eraseDups : Engine _ _).run v := by
  rw [deleteNamed]
  extract_lets goOn
  rw [run_bind_ok (run_isThere _), run_bind_ok (run_isDirectory _)]
  split
  · obtain ⟨deleted, v, ran, same⟩ :=
      endures_deleteEntry tolerates (base.join (Path.ofString name)) .file
    exact ⟨v, same, run_bind_ok ran⟩
  · exact ⟨w, .refl w, rfl⟩

theorem exists_directories_of_stays {name : String} (stays : ¬ base.isLeftBy name = true) :
    ∃ between, directoriesBetween base (base / Path.ofString name) = .ok between := by
  unfold directoriesBetween
  cases below : (base / Path.ofString name).relativeTo? base with
  | some rest => exact ⟨_, rfl⟩
  | none => exact absurd (congrArg Option.isNone below) stays

theorem directories_of_leaves {name : String} (leaves : base.isLeftBy name = true) :
    directoriesBetween base (base / Path.ofString name) =
      .error (.outside (base / Path.ofString name) base) := by
  rw [directoriesBetween, Option.isNone_iff_eq_none.mp leaves]

theorem endures_deleteNamed (tolerates : w.Tolerates id) (base : Path)
    (inside : names.find? base.isLeftBy = none) :
    Endures w (deleteNamed tolerate id base names) := by
  induction names generalizing w with
  | nil => exact .pure _
  | cons name rest ih =>
    rw [List.find?_eq_none, List.forall_mem_cons, ← List.find?_eq_none] at inside
    obtain ⟨stays, inside⟩ := inside
    obtain ⟨v, same, ran⟩ := exists_run_deleteNamed tolerates base name rest
    obtain ⟨above, known⟩ := exists_directories_of_stays stays
    exact .via same ran (.look (run_consult_ok known) (.bind (ih (same.tolerates tolerates) inside)
      fun _ _ _ => .pure _))

/-- The first name that leads out of a directory ends the work on a list. -/
theorem deleteNamed_fails (tolerates : w.Tolerates id) (base : Path) {stray : String}
    (first : names.find? base.isLeftBy = some stray) :
    ((deleteNamed tolerate id base names).run w).1 =
      .error (.outside (base / Path.ofString stray) base) := by
  induction names generalizing w with
  | nil => cases first
  | cons name rest ih =>
    obtain ⟨v, same, ran⟩ := exists_run_deleteNamed tolerates base name rest
    rw [ran]
    by_cases leaves : base.isLeftBy name = true
    · rw [List.find?_cons_of_pos leaves] at first
      cases first
      rw [run_bind_error (run_consult_error (directories_of_leaves leaves))]
    · rw [List.find?_cons_of_neg leaves] at first
      obtain ⟨above, known⟩ := exists_directories_of_stays leaves
      rw [run_bind_ok (run_consult_ok known)]
      exact bind_ends (ih (same.tolerates tolerates) first)

end Delete

section Lists

variable {w : World MemoryFiles} {id list : ObjectId} {fault : Fault}

/-- A list that is overlooked ends the work on it with its fault. -/
theorem deleteList_fails (tolerates : w.Tolerates id) (overlooks : w.Overlooks list fault) :
    ((deleteList tolerate id list).run w).1 = .error fault := by
  unfold deleteList
  cases overlooks with
  | directory fails => rw [run_bind_error (run_consult_error fails)]
  | names found fails =>
    rw [run_bind_ok (run_consult_ok found), run_bind_error (run_consult_error fails)]
  | @stray base names name found listed first =>
    rw [run_bind_ok (run_consult_ok found), run_bind_ok (run_consult_ok listed)]
    extract_lets files
    obtain ⟨_, v, logs, same⟩ := endures_logOf (w := w) id .info
      s!"Deleting {names.length} {files} from {base.text}"
    rw [run_bind_ok logs]
    exact bind_ends (deleteNamed_fails (same.tolerates tolerates) base first)

/-- A list whose names all stay in its directory is worked on to its end. -/
theorem endures_deleteList {base : Path} {names : List String} (tolerates : w.Tolerates id)
    (found : w.listDirectory list = .ok base) (listed : w.listFiles list = .ok names)
    (inside : names.find? base.isLeftBy = none) : Endures w (deleteList tolerate id list) := by
  unfold deleteList
  refine .look (run_consult_ok found) (.look (run_consult_ok listed) ?_)
  extract_lets files
  refine .bind (endures_logOf id _ _) fun _ v same => ?_
  have still := same.tolerates tolerates
  refine .bind (endures_deleteNamed still base inside) fun directories u further => ?_
  obtain ⟨thorough, reads⟩ := (further.tolerates still).configured.flag "includeemptydirs" (by simp)
  refine .look (run_consult_ok reads) ?_
  split
  · refine .bind (endures_deleteEmpty (further.tolerates still) _) fun count _ _ => ?_
    split
    · exact endures_logOf id _ _
    · exact .pure _
  · exact .pure _

/-- The work on a list that is not overlooked ends, with a problem of the description at most. -/
theorem attempt_deleteList (tolerates : w.Tolerates id) (sees : ∀ fault, ¬ w.Overlooks list fault) :
    Achieves w (deleteList tolerate id list).attempt fun result after => w.SaysSame after ∧
      (result = .ok () ∨ ∃ problem l, result = .error (.configuration problem l)) := by
  have refused {fault : Fault} (ends : (deleteList tolerate id list).run w = (.error fault, w))
      (isConfiguration : ¬ fault.isConfiguration = false) :
      Achieves w (deleteList tolerate id list).attempt fun result after => w.SaysSame after ∧
        (result = .ok () ∨ ∃ problem l, result = .error (.configuration problem l)) := by
    refine ⟨_, _, run_attempt _ w, ?_⟩
    rw [ends]
    cases fault with
    | configuration problem l => exact ⟨.refl w, .inr ⟨problem, l, rfl⟩⟩
    | _ => exact absurd rfl isConfiguration
  cases found : w.listDirectory list with
  | error fault =>
    exact refused (run_bind_error (run_consult_error found)) fun other =>
      sees fault (.directory found other)
  | ok base =>
    cases listed : w.listFiles list with
    | error fault =>
      refine refused ?_ fun other => sees fault (.names found listed other)
      exact (run_bind_ok (run_consult_ok found)).trans (run_bind_error (run_consult_error listed))
    | ok names =>
      cases stray : names.find? base.isLeftBy with
      | some name => exact absurd (.stray found listed stray) (sees _)
      | none =>
        refine (endures_deleteList tolerates found listed stray).attempt.imp ?_
        rintro _ after ⟨_, rfl, same⟩
        exact ⟨same, .inl rfl⟩

/-- A list that is not overlooked leaves the task to the others. -/
theorem exists_run_deleteLists (tolerates : w.Tolerates id)
    (sees : ∀ fault, ¬ w.Overlooks list fault) :
    ∃ v, w.SaysSame v ∧ ∀ rest, (deleteLists tolerate id (list :: rest)).run w =
      (deleteLists tolerate id rest).run v := by
  obtain ⟨result, v, ran, same, ends⟩ := attempt_deleteList tolerates sees
  rcases ends with rfl | ⟨problem, l, rfl⟩
  · refine ⟨v, same, fun rest => ?_⟩
    rw [deleteLists, List.forIn_cons, bind_assoc, bind_assoc, run_bind_ok ran]
    rfl
  · obtain ⟨_, u, tolerated, further⟩ := endures_tolerate (same.tolerates tolerates) problem.message
    refine ⟨u, same.trans further, fun rest => ?_⟩
    rw [deleteLists, List.forIn_cons, bind_assoc, bind_assoc, run_bind_ok ran, bind_assoc,
      run_bind_ok tolerated]
    rfl

/-- A list that is overlooked ends the task with its fault. -/
theorem deleteLists_fails (tolerates : w.Tolerates id) (overlooks : w.Overlooks list fault)
    (rest : List ObjectId) :
    ((deleteLists tolerate id (list :: rest)).run w).1 = .error fault := by
  have tried : (deleteList tolerate id list).attempt.run w =
      (.ok (.error fault), ((deleteList tolerate id list).run w).2) := by
    rw [run_attempt, deleteList_fails tolerates overlooks]
  have turn := overlooks.isOverlooked
  rw [deleteLists, List.forIn_cons, bind_assoc, bind_assoc, run_bind_ok tried]
  cases fault with
  | empty | undecodable | outside => rfl
  | _ => cases turn

/-- The work on lists has no status to tell. -/
theorem eq_none_of_deleteLists {lists : List ObjectId} {status : Option TaskStatus}
    (ended : ((deleteLists tolerate id lists).run w).1 = .ok status) : status = none := by
  rcases ran : (deleteLists tolerate id lists).run w with ⟨_, after⟩
  rw [ran] at ended
  cases ended
  obtain ⟨_, _, -, returns⟩ := ok_of_bind ran
  cases returns
  rfl

/-- The work on lists ends with a fault if one of them is overlooked when its turn comes. -/
theorem deleteLists_error_iff (tolerates : w.Tolerates id) {lists : List ObjectId} :
    ((deleteLists tolerate id lists).run w).1 = .error fault ↔
      ∃ earlier list later u, lists = earlier ++ list :: later ∧
        (deleteLists tolerate id earlier).run w = (.ok none, u) ∧ u.Overlooks list fault := by
  induction lists generalizing w with
  | nil =>
    refine ⟨nofun, ?_⟩
    rintro ⟨earlier, list, later, u, none, -⟩
    cases earlier <;> cases none
  | cons first rest ih =>
    by_cases sees : ∀ fault, ¬ w.Overlooks first fault
    · obtain ⟨v, same, ran⟩ := exists_run_deleteLists tolerates sees
      rw [ran, ih (same.tolerates tolerates)]
      constructor
      · rintro ⟨earlier, list, later, u, rfl, runs, overlooks⟩
        exact ⟨first :: earlier, list, later, u, rfl, (ran earlier).trans runs, overlooks⟩
      · rintro ⟨_ | ⟨_, earlier⟩, list, later, u, same, runs, overlooks⟩
        · cases same
          cases runs
          exact absurd overlooks (sees fault)
        · cases same
          exact ⟨earlier, list, later, u, rfl, (ran earlier).symm.trans runs, overlooks⟩
    · push Not at sees
      obtain ⟨own, overlooks⟩ := sees
      rw [deleteLists_fails tolerates overlooks]
      constructor
      · rintro same
        cases same
        exact ⟨[], first, rest, w, rfl, rfl, overlooks⟩
      · rintro ⟨_ | ⟨_, earlier⟩, list, later, u, same, runs, overlooks'⟩
        · cases same
          cases runs
          exact (deleteLists_fails tolerates overlooks rest).symm.trans
            (deleteLists_fails tolerates overlooks' rest)
        · cases same
          have fails := deleteLists_fails tolerates overlooks earlier
          rw [runs] at fails
          cases fails

end Lists

/-- Deletes the file and the directory that a task names itself. -/
def deleteOwn {φ : Type} [FileSystem φ] (leave : Policy φ) (id : ObjectId) : Engine φ Unit := do
  let file ← isSet id "file"
  let directory ← isSet id "dir"
  if file then deleteFile leave id (← pathOf id "file")
  if directory then deleteDirectory leave id (← pathOf id "dir")

/-- Deletes what a task names itself, and then what some lists name. -/
def deleteThrough {φ : Type} [FileSystem φ] (leave : Policy φ) (id : ObjectId)
    (lists : List ObjectId) : Engine φ (Option TaskStatus) := do
  deleteOwn leave id
  deleteLists leave id lists

section Whole

variable {w : World MemoryFiles} {id : ObjectId}

theorem endures_deleteGivenFile (tolerates : w.Tolerates id) :
    Endures w (deleteGivenFile tolerate id (w.isSet id "file")) := by
  unfold deleteGivenFile
  split
  · rename_i given
    obtain ⟨path, reads⟩ := tolerates.configured.path given
    exact .look (run_consult_ok reads) (endures_deleteFile tolerates path)
  · exact .pure _

theorem endures_deleteGivenDirectory (tolerates : w.Tolerates id) :
    Endures w (deleteGivenDirectory tolerate id (w.isSet id "dir")) := by
  unfold deleteGivenDirectory
  split
  · rename_i given
    obtain ⟨path, reads⟩ := tolerates.configured.path given
    exact .look (run_consult_ok reads) (endures_deleteDirectory tolerates path)
  · exact .pure _

theorem deleteOwn_eq (leave : Policy MemoryFiles) (id : ObjectId) : deleteOwn leave id = (do
    let file ← isSet id "file"
    let directory ← isSet id "dir"
    deleteGivenFile leave id file
    deleteGivenDirectory leave id directory) := by
  unfold deleteOwn deleteGivenFile
  refine bind_congr fun file => bind_congr fun directory => ?_
  cases file
  · rfl
  · exact (bind_assoc (pathOf id "file") _ _).symm

theorem endures_deleteOwn (tolerates : w.Tolerates id) : Endures w (deleteOwn tolerate id) := by
  rw [deleteOwn_eq]
  refine .look (run_observe _ w) (.look (run_observe _ w) ?_)
  refine .bind (endures_deleteGivenFile tolerates) fun _ v same => ?_
  rw [← same.isSet id "dir"]
  exact endures_deleteGivenDirectory (same.tolerates tolerates)

/-- A task that has something to delete and no contradicting policy deletes what it names itself and
then what all of its lists name. -/
theorem run_delete {leave : Policy MemoryFiles} (configured : w.IsConfigured id)
    (policy : ¬ (w.readFlag id "quiet" = .ok true ∧ w.readFlag id "failonerror" = .ok true))
    (given : w.isSet id "file" = true ∨ w.isSet id "dir" = true ∨
      w.partsOf id Standard.fileList ≠ []) :
    (delete leave id).run w =
      (deleteThrough leave id (w.partsOf id Standard.fileList)).run w := by
  have parts : (partsOf id Standard.fileList).run w =
    (.ok (w.partsOf id Standard.fileList), w) := rfl
  have named : (isSet id "file").run w = (.ok (w.isSet id "file"), w) := rfl
  have within : (isSet id "dir").run w = (.ok (w.isSet id "dir"), w) := rfl
  rw [delete_eq, deleteThrough, deleteOwn_eq]
  simp only [bind_assoc]
  rw [run_bind_ok parts, run_bind_ok named, run_bind_ok within, run_bind_ok named,
    run_bind_ok within, run_bind_ok (run_rejectIf ?_),
    run_bind_ok (run_checkPolicy_ok configured policy)]
  generalize w.partsOf id Standard.fileList = lists at given
  simpa [or_iff_not_imp_left] using given

/-- A task that neither fails by its policy nor in a build that halts ends as it should, unless one of
its lists is overlooked when its turn comes: then it ends with the fault, which is that of a list that
cannot be read or of a name that leads out of the directory of its list. -/
theorem delete_tolerant_error_iff (tolerates : w.Tolerates id)
    (given : w.isSet id "file" = true ∨ w.isSet id "dir" = true ∨
      w.partsOf id Standard.fileList ≠ []) :
    (((delete tolerate id).run w).1 = .ok none ∨
      ∃ fault, ((delete tolerate id).run w).1 = .error fault ∧ fault.isOverlooked = true) ∧
    ∀ fault, ((delete tolerate id).run w).1 = .error fault ↔
      ∃ earlier list later u, w.partsOf id Standard.fileList = earlier ++ list :: later ∧
        (deleteThrough tolerate id earlier).run w = (.ok none, u) ∧ u.Overlooks list fault := by
  have policy : ¬ (w.readFlag id "quiet" = .ok true ∧ w.readFlag id "failonerror" = .ok true) := by
    rw [tolerates.lenient]
    nofun
  -- What the task names itself never ends it, so it ends as its lists do.
  obtain ⟨_, v, own, same⟩ := endures_deleteOwn tolerates
  have through (lists : List ObjectId) : (deleteThrough tolerate id lists).run w =
      (deleteLists tolerate id lists).run v := run_bind_ok own
  have still := same.tolerates tolerates
  simp only [run_delete tolerates.configured policy given, through]
  refine ⟨?_, fun fault => deleteLists_error_iff still⟩
  cases ended : ((deleteLists tolerate id (w.partsOf id Standard.fileList)).run v).1 with
  | ok status => exact .inl (congrArg Except.ok (eq_none_of_deleteLists ended))
  | error fault =>
    obtain ⟨_, _, _, _, -, -, overlooks⟩ := (deleteLists_error_iff still).mp ended
    exact .inr ⟨fault, rfl, overlooks.isOverlooked⟩

end Whole

end Engine

namespace Sample

/-- Tasks that do not stop at errors, with lists of which the first one names a file outside of its
directory, the second one has its names in a file that is no text, and the third one has a name that
is missing. -/
def overlooking : World MemoryFiles where
  files := MemoryFiles.afterAll .zero [
    .write ⟨.root, ["src", "a.c"]⟩ .empty, .write ⟨.root, ["other", "b.c"]⟩ .empty,
    .write ⟨.root, ["src", "names"]⟩ ⟨#[0xff]⟩]
  projects := [{ directory := .top }]
  objects := [deletion [] [3], deletion [] [4], deletion [] [5],
    sourceList "a.c, /other/b.c",
    { kind := Standard.fileList, project := 0
      fields := .ofList [("dir", .value (.path ⟨.root, ["src"]⟩)),
        ("listfile", .value (.path ⟨.root, ["src", "names"]⟩))] },
    { kind := Standard.fileList, project := 0
      fields := .ofList [("dir", .value (.path ⟨.root, ["src"]⟩))], parts := [6] },
    { kind := Standard.fileName, project := 0 }]

theorem overlooking_tolerates (id : ObjectId) (task : id ∈ [0, 1, 2]) :
    overlooking.Tolerates id := by
  have given : ∀ id ∈ [0, 1, 2], ∀ name ∈ ["quiet", "failonerror", "includeemptydirs", "verbose"],
      overlooking.isSet id name = true := by decide +kernel
  have values : ∀ id ∈ [0, 1, 2], (overlooking.object id).fields.entries.all
      (·.2.isValue) = true := by decide +kernel
  have lenient : ∀ id ∈ [0, 1, 2],
      (overlooking.readFlag id "failonerror").toOption = some false := by decide +kernel
  have goesOn : ∀ id ∈ [0, 1, 2],
      (overlooking.project (overlooking.object id).project).haltOnFailure = false := by
    decide +kernel
  exact ⟨⟨given id task, fun _ => World.exists_read_of_values (values id task)⟩,
    ok_of_toOption (lenient id task), goesOn id task⟩

end Sample

open Sample

theorem Engine.delete_tolerant_error_iff_stray :
    (overlooking.Tolerates 0 ∧ (overlooking.isSet 0 "file" = true ∨
      overlooking.isSet 0 "dir" = true ∨ overlooking.partsOf 0 Standard.fileList ≠ [])) ∧
    (((delete tolerate 0).run overlooking).1 = .ok none ∨
      ∃ fault, ((delete tolerate 0).run overlooking).1 = .error fault ∧
        fault.isOverlooked = true) ∧
    ∀ fault, ((delete tolerate 0).run overlooking).1 = .error fault ↔
      ∃ earlier list later u, overlooking.partsOf 0 Standard.fileList = earlier ++ list :: later ∧
        (deleteThrough tolerate 0 earlier).run overlooking = (.ok none, u) ∧
        u.Overlooks list fault := by
  have tolerates := overlooking_tolerates 0 (by decide)
  have given : overlooking.isSet 0 "file" = true ∨ overlooking.isSet 0 "dir" = true ∨
    overlooking.partsOf 0 Standard.fileList ≠ [] := by decide +kernel
  exact ⟨⟨tolerates, given⟩, delete_tolerant_error_iff tolerates given⟩

/-- Tolerant tasks end with a path outside of a directory, with bytes that are no text, and with an
attribute that holds nothing. -/
theorem Engine.delete_overlooks :
    (∀ id ∈ [0, 1, 2], overlooking.Tolerates id ∧ overlooking.partsOf id Standard.fileList ≠ []) ∧
    (((delete tolerate 0).run overlooking).1 matches .error (.outside ..)) = true ∧
    (((delete tolerate 1).run overlooking).1 matches .error (.undecodable _)) = true ∧
    (((delete tolerate 2).run overlooking).1 matches .error (.empty ..)) = true := by
  have lists : ∀ id ∈ [0, 1, 2], overlooking.partsOf id Standard.fileList ≠ [] := by decide +kernel
  refine ⟨fun id task => ⟨overlooking_tolerates id task, lists id task⟩, ?_⟩
  decide +kernel

end BuildEngine
