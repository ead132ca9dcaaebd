import BuildEngine.Proofs.Aftermath
import BuildEngine.Run.Build

/-! The outcomes of builds. A fault of the build description aborts a build if it is about the graph
of targets, before anything is done, and fails it if it comes from a task; the two are never taken
for each other, since a run wraps what a task ends with. -/

namespace BuildEngine

open Relation

/-- A complaint about targets that cannot be ordered aborts a build. -/
theorem TargetGraph.Justified.ofFault? {ts : Targets} {g : TargetGraph} {goals : List String}
    {error : GraphError} (justified : Justified g ts goals error) (project : String) :
    ∃ result, BuildResult.ofFault? (error.fault project) = some result ∧
      result.outcome = .aborted := by
  cases error with
  | unknownGoal => exact ⟨_, rfl, rfl⟩
  | unknownDependency => exact ⟨_, rfl, rfl⟩
  | cycle => exact ⟨_, rfl, rfl⟩
  | absent => exact justified.elim

namespace Engine

variable {φ : Type} {perform : Performer φ} {tell : Audience φ} {project : ProjectId}
variable {goals : List String} {g : TargetGraph} {w : World φ}

/-- The engine's own audience takes every event. -/
theorem notify_quiet : NeverFaults (notify (φ := φ)) := by
  intro event w
  rfl

theorem executeBy_of_error {error : GraphError}
    (failure : (TargetGraph.ofTargets (w.project project).targets).trim (w.project project).targets
      goals = .error error) :
    (executeBy perform tell project goals).run w =
      (.error (error.fault (w.project project).name), w) := by
  rw [executeBy, run_bind_ok (run_project project w), failure]
  rfl

theorem executeBy_of_ok
    (success : (TargetGraph.ofTargets (w.project project).targets).trim (w.project project).targets
      goals = .ok g) :
    (executeBy perform tell project goals).run w =
      (runGraph perform tell project (w.keepGoing && !(w.project project).haltOnFailure)
        (w.project project).targets g).run w := by
  rw [executeBy, run_bind_ok (run_project project w), success]
  simp only
  rw [run_bind_ok (run_get w)]

theorem buildBy_of_none (empty : goalsOf (w.project project) goals = []) :
    (buildBy perform tell project goals).run w = (.ok .noTarget, w) := by
  rw [buildBy, run_bind_ok (run_project project w), empty]
  rfl

/-- A build with goals ends with the result that tells of how running them ended. -/
theorem buildBy_of_some (wanted : goalsOf (w.project project) goals ≠ []) {after : World φ}
    {ended : Except Fault Unit} {result : BuildResult}
    (run : (executeBy perform tell project (goalsOf (w.project project) goals)).run w =
      (ended, after))
    (told : match ended with
      | .ok _ => result = { outcome := .success }
      | .error fault => BuildResult.ofFault? fault = some result) :
    (buildBy perform tell project goals).run w = (.ok result, after) := by
  have attempted :=
    run_attempt (executeBy perform tell project (goalsOf (w.project project) goals)) w
  rw [run] at attempted
  rw [buildBy, run_bind_ok (run_project project w), if_neg (by simpa using wanted),
    run_bind_ok attempted]
  cases ended with
  | ok => rw [told]; rfl
  | error fault => simp only [told]; rfl

/-- A build whose targets are ordered settles them, and succeeds or tells of the first failure. -/
theorem buildBy_of_ok (quiet : NeverFaults tell)
    (handled : Handled perform tell project w)
    (wanted : goalsOf (w.project project) goals ≠ [])
    (success : (TargetGraph.ofTargets (w.project project).targets).trim (w.project project).targets
      (goalsOf (w.project project) goals) = .ok g) :
    ∃ result final last after,
      (buildBy perform tell project goals).run w = (.ok result, after) ∧
      (conduct perform tell project (w.keepGoing && !(w.project project).haltOnFailure)
        (w.project project).targets g).run w = (.ok (final, last), after) ∧
      Settled (w.project project).targets (w.keepGoing && !(w.project project).haltOnFailure)
        g.order final.stateOf ∧
      ((result.outcome = .success ∧ ∀ name ∈ g.order, final.stateOf name ≠ .failed) ∨
        (result.outcome = .failed ∧ ∃ name, FirstFailed g.order final.stateOf name ∧
          result.target = some name)) := by
  obtain ⟨members, ready⟩ := ready_of_trim success
  obtain ⟨_, final, last, _, _, after, _, _, _, run, goesOn, settled, tells⟩ :=
    conduct_settled (w.keepGoing && !(w.project project).haltOnFailure) quiet handled ready
  have executed := (executeBy_of_ok success).trans (runGraph_run run)
  cases last with
  | completed =>
    exact ⟨_, final, _, after, buildBy_of_some wanted executed rfl, run, settled, .inl ⟨rfl, tells⟩⟩
  | failed fault =>
    obtain ⟨name, task, cause, first, rfl, _⟩ := tells
    exact ⟨_, final, _, after, buildBy_of_some wanted executed rfl, run, settled,
      .inr ⟨rfl, name, first, rfl⟩⟩
  | stopped => exact goesOn.elim

/-- A build never ends with a fault. It is aborted exactly if there is nothing to run or the targets
cannot be ordered; nothing is changed then, and nothing is performed or told, since whoever performs
or listens makes no difference. Otherwise it succeeds exactly if all that its goals need completes,
and fails exactly if a target fails, the first of which is told. -/
theorem buildBy_outcome (quiet : NeverFaults tell)
    (handled : Handled perform tell project w) (goals : List String) :
    let p := w.project project
    let wanted := goalsOf p goals
    ∃ result after, (buildBy perform tell project goals).run w = (.ok result, after) ∧
      (result.outcome = .aborted ↔ wanted = [] ∨
        ∃ error, (TargetGraph.ofTargets p.targets).trim p.targets wanted = .error error) ∧
      (result.outcome = .aborted → after = w ∧ ∀ (others : Performer φ) (listener : Audience φ),
        (buildBy others listener project goals).run w = (.ok result, w)) ∧
      (wanted ≠ [] → ∀ g, (TargetGraph.ofTargets p.targets).trim p.targets wanted = .ok g →
        ∃ final last,
          (conduct perform tell project (w.keepGoing && !p.haltOnFailure) p.targets g).run w =
            (.ok (final, last), after) ∧
          (result.outcome = .success ↔
            ∀ name, p.targets.Needed wanted name → (final.stateOf name).isOk = true) ∧
          (result.outcome = .failed ↔ ∃ name ∈ g.order, final.stateOf name = .failed) ∧
          (result.outcome = .failed → ∃ name, FirstFailed g.order final.stateOf name ∧
            result.target = some name)) := by
  intro p wanted
  by_cases empty : wanted = []
  · refine ⟨_, w, buildBy_of_none empty, ?_, ?_, fun nonempty => absurd empty nonempty⟩
    · exact ⟨fun _ => .inl empty, fun _ => rfl⟩
    · exact fun _ => ⟨rfl, fun _ _ => buildBy_of_none empty⟩
  cases ordering : (TargetGraph.ofTargets p.targets).trim p.targets wanted with
  | error error =>
    have justified := TargetGraph.justified_of_trim (TargetGraph.covers_ofTargets _) ordering
    obtain ⟨result, told, aborted⟩ := justified.ofFault? p.name
    have built (others : Performer φ) (listener : Audience φ) :
        (buildBy others listener project goals).run w = (.ok result, w) :=
      buildBy_of_some empty (executeBy_of_error ordering) told
    refine ⟨result, w, built perform tell, ?_, fun _ => ⟨rfl, built⟩, ?_⟩
    · exact ⟨fun _ => .inr ⟨error, rfl⟩, fun _ => aborted⟩
    · intro _ g success
      cases success
  | ok g =>
    obtain ⟨serves, _⟩ := TargetGraph.serves_of_trim (TargetGraph.covers_ofTargets _) ordering
    obtain ⟨result, final, last, after, built, run, settled, outcome⟩ :=
      buildBy_of_ok quiet handled empty ordering
    have complete : (∀ name, p.targets.Needed wanted name → (final.stateOf name).isOk = true) ↔
        ∀ name ∈ g.order, final.stateOf name ≠ .failed := by
      rw [← settled.isOk_iff]
      exact forall_congr' fun name => imp_congr_left (serves.exact name).symm
    have done : result.outcome ≠ .aborted := by
      rcases outcome with ⟨same, _⟩ | ⟨same, _⟩
      · simp [same]
      · simp [same]
    refine ⟨result, after, built, ?_, fun aborted => absurd aborted done, ?_⟩
    · constructor
      · exact fun aborted => absurd aborted done
      · rintro (none | ⟨error, failure⟩)
        · exact absurd none empty
        · cases failure
    · intro _ other same
      cases same
      refine ⟨final, last, run, ?_⟩
      rw [complete]
      rcases outcome with ⟨succeeded, passed⟩ | ⟨failed, name, first, target⟩
      · simpa [succeeded] using passed
      · refine ⟨?_, ?_, fun _ => ⟨name, first, target⟩⟩
        · rw [failed]
          exact ⟨nofun, fun passed => absurd first.failed (passed name first.mem)⟩
        · exact ⟨fun _ => ⟨name, first.mem, first.failed⟩, fun _ => failed⟩

theorem buildBy_outcome_sample : ∃ result final last after,
    (buildBy Sample.perform notify 0 ["app"]).run Sample.world = (.ok result, after) ∧
    (conduct Sample.perform notify 0 false Sample.targets Sample.graph).run Sample.world =
      (.ok (final, last), after) ∧
    (result.outcome = .failed ↔ ∃ name ∈ ["lib", "app"], final.stateOf name = .failed) := by
  obtain ⟨result, after, built, _, _, ran⟩ :=
    buildBy_outcome notify_quiet (Sample.perform_handled _) ["app"]
  obtain ⟨final, last, run, _, failed, _⟩ := ran nofun Sample.graph Sample.trim_app
  exact ⟨result, final, last, after, built, run, failed⟩

end Engine
end BuildEngine
