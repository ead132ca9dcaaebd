import BuildEngine.Proofs.DiskView
import BuildEngine.Proofs.Outcome
import BuildEngine.Proofs.Session
import BuildEngine.Proofs.UserProperty

/-! Builds that do not notice in which directory they are run. A relocation changes the directory of
a run, and with it what files say about relative paths, but nothing that they say about absolute
ones. What is loaded and built in absolute directories does not notice it: the results are the same,
and so is all that becomes of the files. There is one exception: names that a mapper gives to the
single source of a task that asks whether files are current are asked for as they are. -/

namespace BuildEngine

open Engine

variable {φ : Type}

/-- A change of the files, and of the directory of the run, that absolute paths do not show. -/
structure Relocation (φ : Type) [FileSystem φ] where
  move : φ → φ
  look : Path → Path
  contains : ∀ (files : φ) {p : Path}, p.isAbsolute = true →
    FileSystem.contains (move files) p = FileSystem.contains files p
  modified : ∀ (files : φ) {p : Path}, p.isAbsolute = true →
    FileSystem.modified (move files) p = FileSystem.modified files p
  isDirectory : ∀ (files : φ) {p : Path}, p.isAbsolute = true →
    FileSystem.isDirectory (move files) p = FileSystem.isDirectory files p
  children : ∀ (files : φ) {p : Path}, p.isAbsolute = true →
    FileSystem.children (move files) p = FileSystem.children files p
  /-- What an absolute directory holds has absolute paths. -/
  isAbsolute_children : ∀ (files : φ) {p : Path} {found : List Path}, p.isAbsolute = true →
    FileSystem.children files p = .ok found → ∀ child ∈ found, child.isAbsolute = true
  read : ∀ (files : φ) {p : Path}, p.isAbsolute = true →
    FileSystem.read (move files) p = FileSystem.read files p
  delete : ∀ (files : φ) {p : Path}, p.isAbsolute = true →
    FileSystem.delete (move files) p = (FileSystem.delete files p).map move
  write : ∀ (files : φ) {p : Path} data, p.isAbsolute = true →
    FileSystem.write (move files) p data = (FileSystem.write files p data).map move
  touch : ∀ (files : φ) {p : Path} time, p.isAbsolute = true →
    FileSystem.touch (move files) p time = (FileSystem.touch files p time).map move
  depth : ∀ files : φ, FileSystem.depth (move files) = FileSystem.depth files

namespace Relocation

variable [FileSystem φ] (r : Relocation φ)

/-- A world with other files, run in another directory. -/
def turn (w : World φ) : World φ := { w with files := r.move w.files, here := r.look w.here }

/-- Whether no path at all shows in being there, nor in its time, that the files were changed. -/
def KeepsTimes : Prop := ∀ (files : φ) p,
  FileSystem.contains (r.move files) p = FileSystem.contains files p ∧
    FileSystem.modified (r.move files) p = FileSystem.modified files p

/-- Elements that do not notice a relocation: none has a source file and a mapper, unless relative
paths show no more than absolute ones in being there and in their times. -/
def Unnoticed (e : Element) : Prop := e.All fun e => e.isMixed = false ∨ r.KeepsTimes

/-- Terms that only ask for absolute paths. -/
def terms (mixes : Bool) (keeps : mixes = true → r.KeepsTimes) : Terms φ where
  known _ := true
  fits := Path.isAbsolute
  mixes := mixes
  move := r.move
  look := r.look
  known_orElse _ _ _ := rfl
  fits_top := rfl
  fits_join base p either := by
    rcases either with absolute | absolute
    · exact Path.isAbsolute_join absolute
    · rw [Path.join_of_isAbsolute absolute]
      exact absolute
  join_look here p absolute := by
    rw [Path.join_of_isAbsolute absolute, Path.join_of_isAbsolute absolute]
  contains_move files p either := by
    rcases either with absolute | mixes
    · exact r.contains files absolute
    · exact (keeps mixes files p).1
  modified_move files p either := by
    rcases either with absolute | mixes
    · exact r.modified files absolute
    · exact (keeps mixes files p).2
  isDirectory_move files _ := r.isDirectory files
  children_move files _ := r.children files
  children_fit files _ _ := r.isAbsolute_children files
  read_move files _ := r.read files
  delete_move files _ := r.delete files
  write_move files _ data := r.write files data
  touch_move files _ time := r.touch files time
  depth_move := r.depth

/-- Elements do not notice a relocation on one of two terms. -/
theorem exists_terms : ∃ mixes keeps, ∀ e, r.Unnoticed e → (r.terms mixes keeps).Welcomes e := by
  by_cases keeps : r.KeepsTimes
  · exact ⟨true, fun _ => keeps, fun e unnoticed => unnoticed.imp fun _ _ => ⟨rfl, .inl rfl⟩⟩
  · refine ⟨false, nofun, ?_⟩
    intro e unnoticed
    apply unnoticed.imp
    intro e either
    exact ⟨rfl, .inr (either.resolve_right keeps)⟩

end Relocation

/-- A disk that is seen from another directory in a run in that directory. -/
def Disk.relocation (here : Path) : Relocation Disk where
  move d := d.seenFrom here
  look _ := here
  contains d p absolute := by
    change (entry _ p).isOk = (entry _ p).isOk
    rw [entry_seenFrom d here absolute]
  modified d p absolute := by
    change (do return (← entry _ p).time) = (do return (← entry _ p).time)
    rw [entry_seenFrom d here absolute]
  isDirectory d _ := isDirectory_seenFrom d here
  children d _ := children_seenFrom d here
  isAbsolute_children d _ _ absolute := isAbsolute_children d absolute
  read d p absolute := by
    change (read _ p) = (read _ p)
    unfold read
    rw [entry_seenFrom d here absolute]
  delete d _ := delete_seenFrom d here
  write d _ data absolute := write_seenFrom d here absolute data
  touch d _ time absolute := touch_seenFrom d here absolute time
  depth _ := rfl

namespace Engine

variable [FileSystem φ] {w : World φ}

/-- In a session in which all is loaded in absolute directories, what is loaded and built further on
does not notice a relocation. So the files are never asked for relative paths, but by a task that
asks whether files are current and has a source file and a mapper; and that only asks whether paths
are there, and for their times. -/
theorem relocation_unnoticed (r : Relocation φ)
    (session : Session r.Unnoticed (·.isAbsolute = true) w) :
    (∀ e properties directory buildFile, r.Unnoticed e → directory.isAbsolute = true →
      (loadProject e properties directory buildFile).run (r.turn w) =
        (((loadProject e properties directory buildFile).run w).1,
          r.turn ((loadProject e properties directory buildFile).run w).2)) ∧
    ∀ project goals, (Engine.build project goals).run (r.turn w) =
      (((Engine.build project goals).run w).1, r.turn ((Engine.build project goals).run w).2) := by
  obtain ⟨mixes, keeps, welcomes⟩ := r.exists_terms
  have within : Session (r.terms mixes keeps).Welcomes ((r.terms mixes keeps).fits · = true) w :=
    session.imp welcomes fun _ absolute => absolute
  obtain ⟨s, rfl, meets⟩ := Terms.meets_session within
  constructor
  · intro e properties directory buildFile unnoticed absolute
    obtain ⟨result, s', here, there, _⟩ :=
      Terms.sound_loadProject meets (welcomes e unnoticed) properties absolute buildFile
    rw [here]
    exact there
  · intro project goals
    obtain ⟨result, s', here, there, _⟩ := Terms.sound_build meets project goals
    rw [here]
    exact there

/-- A build leaves the world as running the targets does. -/
theorem build_of_independent {project : ProjectId} {goal : String}
    (alone : ((w.project project).targets.find? goal).map (·.depends) = some []) :
    ((build project [goal]).run w).2 =
      ((runGraph (performInvocation call) notify project
        (w.keepGoing && !(w.project project).haltOnFailure) (w.project project).targets
        ((TargetGraph.ofTargets (w.project project).targets).restrict [goal])).run w).2 := by
  rw [← executeBy_of_ok (TargetGraph.trim_of_independent alone)]
  unfold build buildBy
  rw [run_bind_ok (run_project project w)]
  change ((attempt (executeBy (performInvocation call) notify project [goal]) >>= _).run w).2 = _
  rw [run_bind_ok (run_attempt _ w)]
  generalize (executeBy (performInvocation call) notify project [goal]).run w = ended
  obtain ⟨fault | _, after⟩ := ended
  · simp only
    cases BuildResult.ofFault? fault <;> rfl
  · rfl

/-! A disk with a source and what is derived from it. -/

namespace Sample

def there : Path := .ofString "/work"

def sources : Disk := {
  now := .zero, here := there
  entries := .ofList [(["work"], .directory .zero), (["work", "a.c"], .file .empty .zero),
    (["work", "out"], .file .empty .zero)] }

/-- A build description in which a target asks whether something is current. -/
def checking (check : Element) : Element where
  tag := "project"
  children := [{ tag := "target", attributes := [("name", "all")], children := [check] }]

/-- What is derived is named by an attribute. -/
def direct : Element where
  tag := "uptodate"
  attributes := [("property", "done"), ("srcfile", "a.c"), ("targetfile", "out")]

/-- What is derived is named by a mapper. -/
def mapped : Element where
  tag := "uptodate"
  attributes := [("property", "done"), ("srcfile", "a.c")]
  children := [{ tag := "mapper", attributes := [("type", "merge"), ("to", "out")] }]

/-- The world after a build description was loaded in the directory of the sources. -/
def checked (check : Element) : World Disk :=
  ((loadProject (checking check) [] there).run
    { files := sources, here := there, registry := Registry.addStandard {} }).2

theorem checked_session {welcome : Element → Prop} {check : Element}
    (welcomes : welcome (checking check)) :
    Session welcome (·.isAbsolute = true) (checked check) := by
  have begins : Session welcome (·.isAbsolute = true)
      ({ files := sources, here := there, registry := Registry.addStandard {} } : World Disk) := by
    apply Session.start <;> simp only
  unfold checked
  exact begins.load welcomes [] (by decide) none

theorem direct_unnoticed (r : Relocation Disk) : r.Unnoticed (checking direct) := by
  have only (e child : Element) (unmixed : e.isMixed = false) (alone : e.children = [child])
      (unnoticed : r.Unnoticed child) : r.Unnoticed e := by
    apply Element.All.node (P := fun e => e.isMixed = false ∨ r.KeepsTimes) (.inl unmixed)
    rw [alone]
    exact List.forall_mem_singleton.mpr unnoticed
  have leaf : r.Unnoticed direct := .node (.inl (by decide)) nofun
  exact only _ _ (by decide) rfl (only _ _ (by decide) rfl leaf)

/-- Whether the target finds that something is current. -/
def finds (w : World Disk) : Bool :=
  (((build 0 ["all"]).run w).2.project 0).properties.contains "done"

theorem mapped_found : finds (checked mapped) = true := by
  rw [finds, build_of_independent (by decide +kernel)]
  decide +kernel

theorem mapped_notFound : finds ((Disk.relocation .top).turn (checked mapped)) = false := by
  rw [finds, build_of_independent (by decide +kernel)]
  decide +kernel

end Sample

theorem relocation_unnoticed_sample :
    (build 0 ["all"]).run ((Disk.relocation .top).turn (Sample.checked Sample.direct)) =
      (((build 0 ["all"]).run (Sample.checked Sample.direct)).1,
        (Disk.relocation .top).turn ((build 0 ["all"]).run (Sample.checked Sample.direct)).2) :=
  (relocation_unnoticed (Disk.relocation .top)
    (Sample.checked_session (Sample.direct_unnoticed _))).2 0 ["all"]

/-- Not every build description is free of this: where a mapper names what is derived from a single
source, what is found depends on the directory in which the build is run. -/
theorem relocation_noticed : ∃ (r : Relocation Disk) (w : World Disk),
    Session (fun _ => True) (·.isAbsolute = true) w ∧
      ((build 0 ["all"]).run (r.turn w)).2 ≠ r.turn ((build 0 ["all"]).run w).2 := by
  have session := @Sample.checked_session (fun _ => True) Sample.mapped trivial
  have found := Sample.mapped_found
  have lost := Sample.mapped_notFound
  generalize Sample.checked Sample.mapped = w at *
  refine ⟨Disk.relocation .top, w, session, ?_⟩
  intro same
  have kept : Sample.finds ((Disk.relocation .top).turn w) = Sample.finds w := by
    rw [Sample.finds, same]
    rfl
  rw [found, lost] at kept
  cases kept

end Engine
end BuildEngine
