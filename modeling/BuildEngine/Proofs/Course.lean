import BuildEngine.Proofs.Turn

/-! Courses: targets that take their turns one after another, until none is left or the run is
stopped. What holds of a course follows from its turns by induction. -/

namespace BuildEngine.Engine

variable {φ : Type} {perform : Performer φ} {tell : Audience φ} {project : ProjectId}
variable {keepGoing : Bool} {g final : TargetGraph} {outcome last : Standing}
variable {members xs ys : List Target} {steps : List Step} {name : String} {w after : World φ}

/-- The course that a run of targets takes. -/
inductive Course (perform : Performer φ) (tell : Audience φ) (project : ProjectId)
    (keepGoing : Bool) :
    List Target → TargetGraph → Standing → World φ → List Step → TargetGraph → Standing →
      World φ → Prop
  | finished (g : TargetGraph) (outcome : Standing) (w : World φ) :
      Course perform tell project keepGoing [] g outcome w [] g outcome w
  | stopped (members : List Target) (g : TargetGraph) (fault : Fault) (w : World φ) :
      Course perform tell project keepGoing members g (.stopped fault) w [] g (.stopped fault) w
  | turn {target : Target} {members : List Target} {g final : TargetGraph}
      {outcome next last : Standing} {status : TargetStatus} {first later : List Step}
      {w w₁ after : World φ} (goesOn : outcome.GoesOn)
      (taken : (takeTurn perform tell project keepGoing g outcome target).run w =
        (.ok (g.withStatus target.name status, next), w₁))
      (turn : Turn perform tell project keepGoing g outcome target w status next first w₁)
      (rest : Course perform tell project keepGoing members (g.withStatus target.name status) next
        w₁ later final last after) :
      Course perform tell project keepGoing (target :: members) g outcome w (first ++ later) final
        last after

namespace Course

/-- Nothing happens after a stop. -/
theorem of_stopped {fault : Fault} (course : Course perform tell project keepGoing members g
    (.stopped fault) w steps final last after) :
    steps = [] ∧ final = g ∧ last = .stopped fault ∧ after = w := by
  cases course with
  | finished => exact ⟨rfl, rfl, rfl, rfl⟩
  | stopped => exact ⟨rfl, rfl, rfl, rfl⟩
  | turn goesOn => exact goesOn.elim

/-- The executor takes the course. -/
theorem runs (course : Course perform tell project keepGoing members g outcome w steps final last
    after) (goesOn : outcome.GoesOn) :
    (runTargets perform tell project keepGoing members g outcome).run w =
      (.ok (final, last), after) := by
  induction course with
  | finished => rfl
  | stopped => exact goesOn.elim
  | @turn target members g final outcome next _ status _ _ w w₁ after _ taken _ rest ih =>
    rw [runTargets, run_bind_ok taken]
    cases next with
    | completed => exact ih trivial
    | failed => exact ih trivial
    | stopped fault =>
      obtain ⟨_, rfl, rfl, rfl⟩ := rest.of_stopped
      rfl

/-- A course is a trace. -/
theorem plays (course : Course perform tell project keepGoing members g outcome w steps final last
    after) : Plays perform tell project w steps after := by
  induction course with
  | finished _ _ w => exact .done w
  | stopped _ _ _ w => exact .done w
  | turn _ _ turn _ ih => exact turn.plays.append ih

/-- Some targets take their turns before others. -/
theorem split (course : Course perform tell project keepGoing (xs ++ ys) g outcome w steps final
    last after) :
    ∃ first g₁ middle w₁ later,
      Course perform tell project keepGoing xs g outcome w first g₁ middle w₁ ∧
      Course perform tell project keepGoing ys g₁ middle w₁ later final last after ∧
      steps = first ++ later := by
  induction xs generalizing g outcome w steps with
  | nil => exact ⟨[], g, outcome, w, steps, .finished g outcome w, course, rfl⟩
  | cons x xs ih =>
    cases course with
    | stopped _ _ fault =>
      exact ⟨[], _, _, _, [], .stopped _ _ fault _, .stopped ys _ fault _, rfl⟩
    | @turn _ _ _ _ _ next _ status first later _ w₁ _ goesOn taken turn rest =>
      obtain ⟨before, g₂, middle, w₂, remaining, former, latter, same⟩ := ih rest
      refine ⟨first ++ before, g₂, middle, w₂, remaining, .turn goesOn taken turn former, latter,
        ?_⟩
      rw [same, List.append_assoc]

/-- Nothing becomes of targets that take no turn. -/
theorem frame (course : Course perform tell project keepGoing members g outcome w steps final last
    after) (absent : name ∉ members.map Target.name) : final.statusOf name = g.statusOf name := by
  induction course with
  | finished => rfl
  | stopped => rfl
  | turn _ _ _ _ ih =>
    rw [List.map_cons, List.mem_cons, not_or] at absent
    rw [ih absent.2, TargetGraph.statusOf_withStatus_of_ne (Ne.symm absent.1)]

theorem order (course : Course perform tell project keepGoing members g outcome w steps final last
    after) : final.order = g.order := by
  induction course with
  | finished => rfl
  | stopped => rfl
  | turn _ _ _ _ ih => rw [ih, TargetGraph.order_withStatus]

theorem prerequisites (course : Course perform tell project keepGoing members g outcome w steps
    final last after) : final.prerequisites name = g.prerequisites name := by
  induction course with
  | finished => rfl
  | stopped => rfl
  | turn _ _ _ _ ih => rw [ih, TargetGraph.prerequisites_withStatus]

/-- A target that took its turn keeps the status that it was given then. -/
theorem statusOf_turn {target : Target} {status : TargetStatus} {next : Standing}
    (course : Course perform tell project keepGoing members (g.withStatus target.name status) next w
      steps final last after) (distinct : ((target :: members).map Target.name).Nodup) :
    final.statusOf target.name = status := by
  rw [List.map_cons, List.nodup_cons] at distinct
  rw [course.frame distinct.1, TargetGraph.statusOf_withStatus_self]

/-- A course in which nothing is interrupted goes on to its end. -/
theorem goesOn (course : Course perform tell project keepGoing members g outcome w steps final last
    after) (before : outcome.GoesOn) (calm : Calm steps) : last.GoesOn := by
  induction course with
  | finished => exact before
  | stopped => exact before.elim
  | turn _ _ turn _ ih => exact ih (turn.goesOn before calm.left) calm.right

/-- A course that goes on to its end went on before. -/
theorem goesOn_before (course : Course perform tell project keepGoing members g outcome w steps
    final last after) (goesOn : last.GoesOn) : outcome.GoesOn := by
  cases outcome with
  | completed => exact trivial
  | failed => exact trivial
  | stopped fault =>
    obtain ⟨_, _, same, _⟩ := course.of_stopped
    exact same ▸ goesOn

/-- The place of a target in a course: it took its turn after those before it and before those
after it, unless the course was stopped before. -/
theorem locate {target : Target} (course : Course perform tell project keepGoing
    (xs ++ target :: ys) g outcome w steps final last after)
    (distinct : ((xs ++ target :: ys).map Target.name).Nodup) :
    (¬ last.GoesOn ∧ Course perform tell project keepGoing xs g outcome w steps final last after) ∨
      ∃ first g₁ middle w₁ status next inner w₂ later,
        Course perform tell project keepGoing xs g outcome w first g₁ middle w₁ ∧
        middle.GoesOn ∧
        Turn perform tell project keepGoing g₁ middle target w₁ status next inner w₂ ∧
        Course perform tell project keepGoing ys (g₁.withStatus target.name status) next w₂ later
          final last after ∧
        final.statusOf target.name = status ∧
        (∀ name ∉ (target :: ys).map Target.name, g₁.statusOf name = final.statusOf name) ∧
        steps = first ++ (inner ++ later) := by
  obtain ⟨first, g₁, middle, w₁, rest, former, latter, same⟩ := course.split
  rw [List.map_append, List.nodup_append] at distinct
  cases latter with
  | stopped _ _ fault =>
    rw [List.append_nil] at same
    exact .inl ⟨id, same ▸ former⟩
  | @turn _ _ _ _ _ next _ status inner later _ w₂ _ goesOn _ turn remaining =>
    refine .inr ⟨first, g₁, middle, w₁, status, next, inner, w₂, later, former, goesOn, turn,
      remaining, remaining.statusOf_turn distinct.2.1, ?_, same⟩
    intro name absent
    rw [List.map_cons, List.mem_cons, not_or] at absent
    rw [remaining.frame absent.2, TargetGraph.statusOf_withStatus_of_ne (Ne.symm absent.1)]

/-- The first failure is the one that a course ends with. -/
theorem of_failed {fault : Fault} (course : Course perform tell project keepGoing members g
    (.failed fault) w steps final last after) :
    last = .failed fault ∨ last = .stopped .interrupted := by
  induction members generalizing g w steps with
  | nil =>
    cases course
    exact .inl rfl
  | cons target rest ih =>
    cases course with
    | turn _ _ turn remaining =>
      rcases turn.next_of_failed with same | same
      · subst same
        exact ih remaining
      · subst same
        exact .inr remaining.of_stopped.2.2.1

end Course

/-- Targets that have not come to an end take a course. -/
theorem runTargets_course (perform : Performer φ) (project : ProjectId) (keepGoing : Bool)
    (quiet : NeverFaults tell) (goesOn : outcome.GoesOn)
    (distinct : (members.map Target.name).Nodup)
    (unsettled : ∀ t ∈ members, (g.statusOf t.name).state.isFinal = false) (w : World φ) :
    ∃ steps final last after,
      (runTargets perform tell project keepGoing members g outcome).run w =
        (.ok (final, last), after) ∧
      Course perform tell project keepGoing members g outcome w steps final last after := by
  suffices course : ∃ steps final last after,
      Course perform tell project keepGoing members g outcome w steps final last after by
    obtain ⟨steps, final, last, after, course⟩ := course
    exact ⟨steps, final, last, after, course.runs goesOn, course⟩
  induction members generalizing g outcome w with
  | nil => exact ⟨[], g, outcome, w, .finished g outcome w⟩
  | cons target rest ih =>
    rw [List.map_cons, List.nodup_cons] at distinct
    obtain ⟨status, next, first, w₁, taken, turn⟩ :=
      takeTurn_turn perform project keepGoing outcome quiet (unsettled target List.mem_cons_self) w
    by_cases further : next.GoesOn
    · have remaining : ∀ t ∈ rest,
          ((g.withStatus target.name status).statusOf t.name).state.isFinal = false := by
        intro t member
        have different : target.name ≠ t.name := fun same =>
          distinct.1 (same ▸ List.mem_map_of_mem member)
        rw [TargetGraph.statusOf_withStatus_of_ne different]
        exact unsettled t (List.mem_cons_of_mem target member)
      obtain ⟨later, final, last, after, course⟩ := ih further distinct.2 remaining w₁
      exact ⟨_, _, _, _, .turn goesOn taken turn course⟩
    · obtain ⟨fault, rfl⟩ := Standing.exists_stopped further
      exact ⟨_, _, _, _, .turn goesOn taken turn (.stopped rest _ fault w₁)⟩

end BuildEngine.Engine

/-! Conducting a trimmed graph: the begin is announced, its targets take a course, and the end is
announced, whatever becomes of the targets. -/

namespace BuildEngine

open Relation

/-- A graph whose targets can take their turns: nothing has become of them, and the search along its
edges finds what the declarations say that a target depends on. -/
structure Ready (ts : Targets) (g : TargetGraph) (members : List Target) : Prop where
  runs : g.executionOrder ts = .ok members
  names : members.map Target.name = g.order
  ordered : ts.Ordered g.order
  fresh : ∀ name, g.statusOf name = {}
  upstream : ∀ user ∈ g.order, ∀ dependency,
    dependency ∈ g.prerequisites user ↔ TransGen ts.Depends user dependency

theorem ready_of_trim {ts : Targets} {g : TargetGraph} {goals : List String}
    (success : (TargetGraph.ofTargets ts).trim ts goals = .ok g) :
    ∃ members, Ready ts g members := by
  have covers := TargetGraph.covers_ofTargets ts
  obtain ⟨serves, same⟩ := TargetGraph.serves_of_trim covers success
  obtain ⟨members, runs, names, _⟩ := TargetGraph.executionOrder_of_trim covers success
  refine ⟨members, runs, names, serves.ordered, ?_, ?_⟩
  · intro name
    rw [same]
    exact TargetGraph.statusOf_restrict _
  · intro user member dependency
    exact TargetGraph.mem_prerequisites_of_trim success member

namespace Ready

variable {ts : Targets} {g : TargetGraph} {members pre post : List Target} {t : Target}

theorem distinct (ready : Ready ts g members) : (members.map Target.name).Nodup :=
  ready.names ▸ ready.ordered.nodup

theorem mem_order (ready : Ready ts g members) (member : t ∈ members) : t.name ∈ g.order :=
  ready.names ▸ List.mem_map_of_mem member

theorem split (ready : Ready ts g members) {pre post : List String} {name : String}
    (split : g.order = pre ++ name :: post) :
    ∃ before t later, members = before ++ t :: later ∧ before.map Target.name = pre ∧
      t.name = name ∧ later.map Target.name = post := by
  rw [← ready.names] at split
  obtain ⟨before, rest, same, first, second⟩ := List.map_eq_append_iff.mp split
  obtain ⟨t, later, rfl, named, third⟩ := List.map_eq_cons_iff.mp second
  exact ⟨before, t, later, same, first, named, third⟩

/-- All that a target depends on has its turn before it, and neither it nor later targets are among
that. -/
theorem earlier (ready : Ready ts g members) (split : members = pre ++ t :: post)
    {dependency : String} (path : TransGen ts.Depends t.name dependency) :
    dependency ∈ pre.map Target.name ∧ dependency ∉ (t :: post).map Target.name := by
  have names := ready.names
  rw [split, List.map_append, List.map_cons] at names
  have before := ready.ordered.before_trans names.symm path
  refine ⟨before, ?_⟩
  have distinct := ready.distinct
  rw [split, List.map_append, List.nodup_append] at distinct
  intro later
  exact distinct.2.2 dependency before dependency later rfl

end Ready

namespace Engine

variable {φ : Type} {tell : Audience φ} {ts : Targets} {g : TargetGraph} {members : List Target}

/-- Conducting a graph always ends, with a course between the two announcements. -/
theorem conduct_course (perform : Performer φ) (project : ProjectId) (keepGoing : Bool)
    (quiet : NeverFaults tell) (ready : Ready ts g members) (w : World φ) :
    ∃ steps final last w₀ w₁ after,
      (tell (.beforeBuild (w.project project).name g.order)).run w = (.ok (), w₀) ∧
      Course perform tell project keepGoing members g .completed w₀ steps final last w₁ ∧
      (tell (.afterBuild final.isComplete final.notExecuted)).run w₁ = (.ok (), after) ∧
      (conduct perform tell project keepGoing ts g).run w = (.ok (final, last), after) := by
  obtain ⟨w₀, begun⟩ := quiet.told (.beforeBuild (w.project project).name g.order) w
  have unsettled : ∀ t ∈ members, (g.statusOf t.name).state.isFinal = false := by
    intro t _
    rw [ready.fresh]
    rfl
  have goesOn : Standing.GoesOn .completed := trivial
  obtain ⟨steps, final, last, w₁, run, course⟩ :=
    runTargets_course perform project keepGoing quiet goesOn ready.distinct unsettled w₀
  obtain ⟨after, ended⟩ := quiet.told (.afterBuild final.isComplete final.notExecuted) w₁
  refine ⟨steps, final, last, w₀, w₁, after, begun, course, ended, ?_⟩
  rw [conduct, run_bind_ok (run_project project w), run_bind_ok begun, ready.runs]
  simp only
  rw [run_bind_ok run, run_bind_ok ended]
  rfl

/-! A project in which the target fails that another one depends on. -/

namespace Sample

def targets : Targets :=
  (Targets.empty.put { name := "lib", invocations := [{}] }).put
    { name := "app", depends := ["lib"], invocations := [{}] }

def graph : TargetGraph := (TargetGraph.ofTargets targets).restrict ["lib", "app"]

def world : World Unit := { files := (), projects := [{ directory := .top, targets }] }

def perform : Performer Unit := fun _ target _ =>
  if target = "lib" then throw (.task "no disk" .unknown) else return none

def listen : Audience Unit := fun _ => return ()

theorem trim_app : (TargetGraph.ofTargets targets).trim targets ["app"] = .ok graph := by
  have app : targets.find? "app" =
      some { name := "app", depends := ["lib"], invocations := [{}] } := rfl
  have lib : targets.find? "lib" = some { name := "lib", invocations := [{}] } := rfl
  have nodes : (TargetGraph.ofTargets targets).nodes = ["lib", "app"] := by decide
  have declared : targets.contains "lib" = true := by decide
  simp [TargetGraph.trim, TargetGraph.orderOf, TargetGraph.visit, TargetGraph.visitAll,
    TargetGraph.find?, nodes, app, lib, declared, Except.map]
  rfl

theorem listen_quiet : NeverFaults listen := fun _ _ => rfl

theorem perform_handled (tell : Audience Unit) : Handled perform tell 0 world := by
  intro steps reached _ target position
  unfold perform
  split
  · nofun
  · nofun

end Sample
end Engine
end BuildEngine
