import BuildEngine.Proofs.Outcome
import BuildEngine.Proofs.Session
import BuildEngine.Proofs.UserProperty

/-! No complaint about a declared element loses the place of the declaration: in a session whose
build descriptions have their places, what is wrong about a build description that is loaded is said
at a known place, and so is what makes a target fail. -/

namespace BuildEngine

open Engine

variable {φ : Type} [FileSystem φ]

/-- Elements that have known places, and so have all that are nested in them. -/
def Element.IsPlaced (e : Element) : Prop := e.All fun e => e.location.isKnown = true

/-- Faults that have places of their own. -/
def Fault.hasPlace : Fault → Bool
  | .configuration .. | .task .. => true
  | _ => false

/-- Terms that only ask for places. -/
def Terms.placing (φ : Type) [FileSystem φ] : Terms φ where
  known := Location.isKnown
  fits _ := true
  mixes := true
  move := id
  look := id
  known_orElse l other either := by
    rw [Location.isKnown_orElse, Bool.or_eq_true]
    exact either
  fits_top := rfl
  fits_join _ _ _ := rfl
  join_look _ _ _ := rfl
  contains_move _ _ _ := rfl
  modified_move _ _ _ := rfl
  isDirectory_move _ _ _ := rfl
  children_move _ _ _ := rfl
  children_fit _ _ _ _ _ _ _ := rfl
  read_move _ _ _ := rfl
  delete_move files p _ := (congrFun Except.map_id _).symm
  write_move files p data _ := (congrFun Except.map_id _).symm
  touch_move files p time _ := (congrFun Except.map_id _).symm
  depth_move _ := rfl

theorem Terms.welcomes_placing {e : Element} (placed : e.IsPlaced) :
    (Terms.placing φ).Welcomes e :=
  placed.imp fun _ known => ⟨known, .inl rfl⟩

namespace Engine

variable {w after : World φ} {project : ProjectId} {goals : List String} {result : BuildResult}

/-- A build that fails is told by the fault with which running the targets ended. -/
theorem execute_of_failed (built : (build project goals).run w = (.ok result, after))
    (failed : result.outcome = .failed) : ∃ target task cause,
      (execute call notify project (goalsOf (w.project project) goals)).run w =
        (.error (.build target task cause), after) ∧ result.location = cause.location := by
  unfold build buildBy at built
  rw [run_bind_ok (run_project project w)] at built
  extract_lets wanted at built
  split at built
  · cases built
    cases failed
  · have attempted := run_attempt (executeBy (performInvocation call) notify project wanted) w
    rw [run_bind_ok attempted] at built
    rcases ended : (execute call notify project wanted).run w with ⟨fault | _, last⟩
    · rw [show (executeBy (performInvocation call) notify project wanted).run w = _ from ended]
        at built
      cases fault with
      | build target task cause =>
        cases built
        exact ⟨target, task, cause, rfl, rfl⟩
      | configuration =>
        cases built
        cases failed
      | _ => cases built
    · rw [show (executeBy (performInvocation call) notify project wanted).run w = _ from ended]
        at built
      cases built
      cases failed

/-- Whatever is loaded in a session whose build descriptions have their places is refused at a known
place; and whatever is built in it, if a target fails because something about the build description
is wrong or a task fails, then that is said at a known place. -/
theorem faults_are_placed
    (session : Session Element.IsPlaced (fun _ => True) w) :
    (∀ e properties directory buildFile problem place after, e.IsPlaced →
      (loadProject e properties directory buildFile).run w =
        (.error (.configuration problem place), after) → place.isKnown = true) ∧
    (∀ project goals result after, (build project goals).run w = (.ok result, after) →
      result.outcome = .failed → ∃ target task cause,
        (execute call notify project (goalsOf (w.project project) goals)).run w =
          (.error (.build target task cause), after) ∧ result.location = cause.location ∧
        (cause.hasPlace = true → result.location.isKnown = true)) := by
  let t := Terms.placing φ
  have within : Session t.Welcomes (t.fits · = true) w :=
    session.imp (fun _ placed => Terms.welcomes_placing placed) fun _ _ => rfl
  obtain ⟨s, rfl, meets⟩ := Terms.meets_session within
  constructor
  · intro e properties directory buildFile problem place after placed ended
    have fits : t.fits directory = true := rfl
    obtain ⟨_, s', here, _, _, ends⟩ := Terms.sound_loadProject meets
      (Terms.welcomes_placing placed) properties fits buildFile
    cases here.symm.trans ended
    exact ends.1
  · intro project goals result after built failed
    obtain ⟨target, task, cause, ended, same⟩ := execute_of_failed built failed
    refine ⟨target, task, cause, ended, same, ?_⟩
    intro sort
    obtain ⟨_, s', here, _, _, ends⟩ :=
      Terms.sound_execute meets project (goalsOf (s.world.project project) goals)
    cases here.symm.trans ended
    have known : t.allows cause = true := ends.1
    rw [same]
    cases cause with
    | configuration => exact known
    | task => exact known
    | _ => cases sort

/-! A target in which the files of a list are deleted that is a reference to nothing. -/

namespace Sample

def line (n : Int) : Location := { line := some n }

def losing : Element where
  tag := "project"
  location := line 1
  children := [
    { tag := "target", attributes := [("name", "all")], location := line 2, children := [
      { tag := "delete", location := line 3, children := [
        { tag := "filelist", attributes := [("refid", "lost")], location := line 4 }] }] }]

theorem losing_isPlaced : losing.IsPlaced := by
  have only (e child : Element) (known : e.location.isKnown = true) (alone : e.children = [child])
      (placed : child.IsPlaced) : e.IsPlaced := by
    apply Element.All.node (P := fun e => e.location.isKnown = true) known
    rw [alone]
    exact List.forall_mem_singleton.mpr placed
  exact only _ _ rfl rfl (only _ _ rfl rfl (only _ _ rfl rfl (.node rfl nofun)))

/-- The world after the build description was loaded. -/
def losingLoaded : World MemoryFiles := ((loadProject losing [] .top).run fresh).2

/-- The target ends with a fault about the list. -/
theorem losing_fails : (((execute call notify 0 ["all"]).run losingLoaded).1
    matches .error (.build _ _ (.configuration ..))) = true := by
  have trims : (TargetGraph.ofTargets (losingLoaded.project 0).targets).trim
      (losingLoaded.project 0).targets ["all"] = .ok _ :=
    TargetGraph.trim_of_independent (by decide +kernel)
  rw [execute, executeBy_of_ok trims]
  decide +kernel

end Sample

theorem faults_are_placed_sample : ∃ result after,
    (build 0 ["all"]).run Sample.losingLoaded = (.ok result, after) ∧
      result.outcome = .failed ∧ result.location.isKnown = true := by
  have begins : Session Element.IsPlaced (fun _ => True) Sample.fresh := by
    apply Session.start <;> simp only [Sample.fresh]
  have session : Session Element.IsPlaced (fun _ => True) Sample.losingLoaded := by
    unfold Sample.losingLoaded
    exact begins.load Sample.losing_isPlaced [] trivial none
  have fails := Sample.losing_fails
  generalize Sample.losingLoaded = loaded at *
  have wanted : goalsOf (loaded.project 0) ["all"] = ["all"] := rfl
  have some : goalsOf (loaded.project 0) ["all"] ≠ [] := List.cons_ne_nil _ _
  rcases executed : (execute call notify 0 ["all"]).run loaded with ⟨fault | _, after⟩
  · rw [executed] at fails
    cases fault with
    | build target task cause =>
      have built : (build 0 ["all"]).run loaded = (.ok _, after) :=
        buildBy_of_some some executed rfl
      obtain ⟨_, _, _, again, _, known⟩ :=
        (faults_are_placed session).2 0 ["all"] _ _ built rfl
      rw [wanted, executed] at again
      cases again
      cases cause with
      | configuration => exact ⟨_, _, built, rfl, known rfl⟩
      | _ => cases fails
    | _ => cases fails
  · rw [executed] at fails
    cases fails

end Engine
end BuildEngine
