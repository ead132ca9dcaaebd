import BuildEngine.Proofs.Course
import BuildEngine.Proofs.Settled

/-! What becomes of the targets of a trimmed graph, and which fault a run of them ends with. -/

namespace BuildEngine

open Relation

/-- What the standing of a run tells of targets: the fault is that of the first one that failed. -/
def Standing.Tells (names : List String) (state : String → TargetState)
    (raised : String → String → Fault → Prop) : Standing → Prop
  | completed => ∀ name ∈ names, state name ≠ .failed
  | failed fault => ∃ name task cause, FirstFailed names state name ∧
      fault = .build name (some task) cause ∧ raised name task cause
  | stopped fault => fault = .interrupted

namespace Standing.Tells

variable {outcome : Standing} {names : List String} {state : String → TargetState}
variable {raised : String → String → Fault → Prop}

theorem hasFailed_iff (tells : outcome.Tells names state raised) (goesOn : outcome.GoesOn) :
    outcome.hasFailed = true ↔ ∃ name ∈ names, state name = .failed := by
  cases outcome with
  | completed =>
    refine ⟨nofun, ?_⟩
    rintro ⟨name, member, failed⟩
    exact absurd failed (tells name member)
  | failed fault =>
    obtain ⟨name, _, _, first, _⟩ := tells
    exact ⟨fun _ => ⟨name, first.mem, first.failed⟩, fun _ => rfl⟩
  | stopped => exact goesOn.elim

/-- A target that did not fail changes nothing about what is told. -/
theorem cons {name : String} {among : String → String → Fault → Prop}
    (passed : state name ≠ .failed)
    (later : ∀ target task cause, raised target task cause → among target task cause)
    (tells : outcome.Tells names state raised) : outcome.Tells (name :: names) state among := by
  cases outcome with
  | completed => exact List.forall_mem_cons.mpr ⟨passed, tells⟩
  | failed fault =>
    obtain ⟨target, task, cause, first, same, raised⟩ := tells
    exact ⟨target, task, cause, first.cons passed, same, later target task cause raised⟩
  | stopped fault => exact tells

end Standing.Tells

/-- The conditions of a target let it run: all that it asks for is set, and nothing else is. -/
def Project.Admits (p : Project) (t : Target) : Prop :=
  (∀ name ∈ splitNames (p.properties.resolve (t.ifCondition.getD "")),
    p.properties.contains name = true) ∧
  ∀ name ∈ splitNames (p.properties.resolve (t.unlessCondition.getD "")),
    p.properties.contains name = false

theorem Project.guard?_eq_none_iff {p : Project} {t : Target} : p.guard? t = none ↔ p.Admits t := by
  rw [guard?, Admits]
  split
  · rename_i name missing
    have found := List.find?_some missing
    have member := List.mem_of_find?_eq_some missing
    constructor
    · nofun
    · rintro ⟨wanted, _⟩
      simp [wanted name member] at found
  · rename_i all
    simpa using fun _ => by simpa using all

namespace Engine

variable {φ : Type} {perform : Performer φ} {tell : Audience φ} {project : ProjectId}
variable {keepGoing : Bool} {ts : Targets} {g final : TargetGraph} {outcome last : Standing}
variable {members : List Target} {steps : List Step} {w w₀ w₁ after : World φ}

/-- A course from the begin ends with the fault of the first target that failed. -/
theorem Course.tells (course : Course perform tell project keepGoing members g .completed w steps
    final last after) (distinct : (members.map Target.name).Nodup) :
    last.Tells (members.map Target.name) final.stateOf (Raised perform tell project w steps) := by
  induction members generalizing g w steps with
  | nil =>
    cases course
    nofun
  | cons target rest ih =>
    cases course with
    | turn _ _ turn remaining =>
      have given := remaining.statusOf_turn distinct
      rcases turn.next_of_completed with ⟨same, passed⟩ | ⟨task, cause, failed, same, raised⟩ | same
      · subst same
        have passed : final.stateOf target.name ≠ .failed := by rwa [TargetGraph.stateOf, given]
        exact (ih remaining (List.nodup_cons.mp distinct).2).cons passed fun _ _ _ raised =>
          raised.later turn.plays
      · have failed : final.stateOf target.name = .failed := by rwa [TargetGraph.stateOf, given]
        subst same
        rcases remaining.of_failed with same | same
        · subst same
          exact ⟨target.name, task, cause, ⟨[], rest.map Target.name, rfl, nofun, failed⟩, rfl,
            raised.further _⟩
        · subst same
          rfl
      · subst same
        rw [remaining.of_stopped.2.2.1]
        rfl

/-- A course of all targets that goes on to its end settles them. -/
theorem Course.settled (course : Course perform tell project keepGoing members g .completed w steps
    final last after) (ready : Ready ts g members) (goesOn : last.GoesOn) :
    Settled ts keepGoing g.order final.stateOf := by
  refine ⟨ready.ordered, ?_, ?_⟩
  · intro name member
    obtain ⟨pre, post, split⟩ := List.append_of_mem member
    obtain ⟨before, target, later, rfl, rfl, rfl, rfl⟩ := ready.split split
    rcases course.locate ready.distinct with ⟨stops, _⟩ | located
    · exact absurd goesOn stops
    · obtain ⟨_, _, _, _, _, _, _, _, _, _, _, turn, rest, given, _⟩ := located
      rw [TargetGraph.stateOf, given]
      exact turn.isFinal (rest.goesOn_before goesOn)
  · intro pre name post split
    obtain ⟨before, target, later, rfl, rfl, rfl, rfl⟩ := ready.split split
    rcases course.locate ready.distinct with ⟨stops, _⟩ | located
    · exact absurd goesOn stops
    obtain ⟨_, g₁, middle, _, _, _, _, _, _, former, further, turn, _, given, kept, _⟩ := located
    have distinct := ready.distinct
    rw [List.map_append, List.nodup_append] at distinct
    -- The rule is about states at the turn; those of earlier targets are the last ones by then.
    have same (name : String) (member : name ∈ before.map Target.name) :
        g₁.stateOf name = final.stateOf name := by
      rw [TargetGraph.stateOf, TargetGraph.stateOf, kept name]
      exact fun again => distinct.2.2 name member name again rfl
    have known := (former.tells distinct.1).hasFailed_iff further
    rw [TargetGraph.stateOf, given, turn.aborted_iff, TargetGraph.obstacle?_iff, known,
      former.prerequisites]
    apply or_congr
    · refine and_congr_right fun _ => exists_congr fun name => and_congr_right fun member => ?_
      rw [same name member]
    · refine exists_congr fun dependency => ?_
      rw [ready.upstream target.name (ready.mem_order (by simp))]
      refine and_congr_right fun path => ?_
      rw [← same dependency (ready.earlier rfl path).1, TargetGraph.stateOf]

/-- Conducting a graph in which nothing is interrupted settles its targets. -/
theorem conduct_settled (keepGoing : Bool) (quiet : NeverFaults tell)
    (handled : Handled perform tell project w) (ready : Ready ts g members) :
    ∃ steps final last begun ended after,
      (tell (.beforeBuild (w.project project).name g.order)).run w = (.ok (), begun) ∧
      Course perform tell project keepGoing members g .completed begun steps final last ended ∧
      (tell (.afterBuild final.isComplete final.notExecuted)).run ended = (.ok (), after) ∧
      (conduct perform tell project keepGoing ts g).run w = (.ok (final, last), after) ∧
      last.GoesOn ∧ Settled ts keepGoing g.order final.stateOf ∧
      last.Tells g.order final.stateOf (Raised perform tell project begun steps) := by
  obtain ⟨steps, final, last, begun, ended, after, announced, course, closed, run⟩ :=
    conduct_course perform project keepGoing quiet ready w
  have calm := (Plays.told announced course.plays).calm handled
  have goesOn : last.GoesOn := course.goesOn trivial fun target position member =>
    calm target position (List.mem_cons_of_mem _ member)
  have tells := course.tells ready.distinct
  rw [ready.names] at tells
  exact ⟨steps, final, last, begun, ended, after, announced, course, closed, run, goesOn,
    course.settled ready goesOn, tells⟩

/-- What a run that stands in some way ends with. -/
theorem runGraph_run (run : (conduct perform tell project keepGoing ts g).run w =
    (.ok (final, last), after)) :
    (runGraph perform tell project keepGoing ts g).run w =
      (match last with
        | .completed => .ok ()
        | .failed fault | .stopped fault => .error fault, after) := by
  rw [runGraph, run_bind_ok run]
  cases last <;> rfl

/-- The conditions of a target are looked at when its turn comes. -/
theorem Course.skipped_iff {pre post : List Target} {t : Target} (course : Course perform tell
      project keepGoing (pre ++ t :: post) g .completed w steps final last after)
    (distinct : ((pre ++ t :: post).map Target.name).Nodup) (goesOn : last.GoesOn)
    (taken : final.stateOf t.name ≠ .aborted) :
    final.stateOf t.name = .skipped ↔
      ¬ (((runTargets perform tell project keepGoing pre g .completed).run w).2.project
        project).Admits t := by
  rcases course.locate distinct with ⟨stops, _⟩ | located
  · exact absurd goesOn stops
  obtain ⟨_, _, _, _, _, _, _, _, _, former, _, turn, _, given, _⟩ := located
  rw [TargetGraph.stateOf, given] at taken ⊢
  rw [former.runs trivial, turn.skipped_iff taken, ← Project.guard?_eq_none_iff]

/-- A run of a trimmed graph in which nothing is interrupted brings all its targets to an end, and
its only fault is that of the first one that failed, with the task that was performed there. Unless
it keeps going, all targets after a failure are aborted; if it does, those that depend on one.
Of the others, those are skipped whose conditions do not hold when their turns come. -/
theorem runGraph_settles {goals : List String} (quiet : NeverFaults tell)
    (handled : Handled perform tell project w)
    (success : (TargetGraph.ofTargets ts).trim ts goals = .ok g) (keepGoing : Bool) :
    ∃ members final last begun steps result after,
      g.executionOrder ts = .ok members ∧
      (tell (.beforeBuild (w.project project).name g.order)).run w = (.ok (), begun) ∧
      (conduct perform tell project keepGoing ts g).run w = (.ok (final, last), after) ∧
      (runGraph perform tell project keepGoing ts g).run w = (result, after) ∧
      History perform tell project w steps after ∧
      (∀ name ∈ g.order, (final.stateOf name).isFinal = true) ∧
      (keepGoing = false →
        (∀ name ∈ g.order, (final.stateOf name).isOk = true) ∨
          ∃ pre name post, g.order = pre ++ name :: post ∧
            (∀ earlier ∈ pre, (final.stateOf earlier).isOk = true) ∧
            final.stateOf name = .failed ∧ ∀ later ∈ post, final.stateOf later = .aborted) ∧
      (keepGoing = true → ∀ name ∈ g.order, (final.stateOf name = .aborted ↔
        ∃ dependency, TransGen ts.Depends name dependency ∧ final.stateOf dependency = .failed)) ∧
      (∀ pre t post, members = pre ++ t :: post → final.stateOf t.name ≠ .aborted →
        (final.stateOf t.name = .skipped ↔
          ¬ (((runTargets perform tell project keepGoing pre g .completed).run begun).2.project
            project).Admits t)) ∧
      ((∃ fault, result = .error fault) ↔ ∃ name ∈ g.order, final.stateOf name = .failed) ∧
      ∀ fault, result = .error fault → ∃ name task cause,
        FirstFailed g.order final.stateOf name ∧ fault = .build name (some task) cause ∧
        Raised perform tell project w steps name task cause := by
  obtain ⟨members, ready⟩ := ready_of_trim success
  obtain ⟨steps, final, last, begun, ended, after, announced, course, closed, run, goesOn, settled,
    tells⟩ := conduct_settled keepGoing quiet handled ready
  have plays := Plays.told announced (course.plays.append (.single closed))
  refine ⟨members, final, last, begun, _, _, after, ready.runs, announced, run, runGraph_run run,
    plays.history, settled.final, ?_, ?_, ?_, ?_, ?_⟩
  · intro halting
    subst halting
    exact settled.halts
  · intro going
    subst going
    exact settled.aborted_iff
  · intro pre t post split
    subst split
    exact course.skipped_iff ready.distinct goesOn
  · rw [← tells.hasFailed_iff goesOn]
    cases last with
    | completed => simp [Standing.hasFailed]
    | failed => simp [Standing.hasFailed]
    | stopped => exact goesOn.elim
  · intro fault same
    cases last with
    | completed => cases same
    | failed first =>
      cases same
      obtain ⟨name, task, cause, first, same, raised⟩ := tells
      exact ⟨name, task, cause, first, same, .later (.single announced) (raised.further _)⟩
    | stopped => exact goesOn.elim

theorem runGraph_settles_sample : ∃ final last after,
    (conduct Sample.perform Sample.listen 0 true Sample.targets Sample.graph).run Sample.world =
      (.ok (final, last), after) ∧
    ∀ name ∈ ["lib", "app"], (final.stateOf name = .aborted ↔
      ∃ dependency, TransGen Sample.targets.Depends name dependency ∧
        final.stateOf dependency = .failed) := by
  obtain ⟨_, final, last, _, _, _, after, _, _, run, _, _, _, _, going, _⟩ :=
    runGraph_settles Sample.listen_quiet (Sample.perform_handled _) Sample.trim_app true
  exact ⟨final, last, after, run, going rfl⟩

end Engine
end BuildEngine
