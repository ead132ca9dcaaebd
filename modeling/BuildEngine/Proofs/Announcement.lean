import BuildEngine.Proofs.Aftermath

/-! What the audience of a run is told, and when: the announcements of the run, of its targets and
of what is performed in them are nested, and no target begins before all that it depends on has
completed. -/

namespace BuildEngine

open Relation

/-- The end of a target, if a step tells of one. -/
def Step.ended? : Step → Option (String × TargetStatus)
  | told (.afterTarget target status) => some (target, status)
  | _ => none

/-- Whether a step is about something that stands in a target. -/
def Step.isInner : Step → Bool
  | told (.beforeTask ..) | told (.afterTask ..) | performed .. => true
  | _ => false

/-- Steps that perform what stands in a target at some positions. Each performance is announced, and
closed if it was a task or ended with a fault. Nothing is performed after a fault. -/
inductive Listing (target : String) : List Nat → List Step → Option Fault → Prop
  | nil : Listing target [] [] none
  | task {position : Nat} {positions : List Nat} {announced closed : String}
      {completion : Completion} {steps : List Step} {fault : Option Fault}
      (later : Listing target positions steps fault) :
      Listing target (position :: positions)
        (.told (.beforeTask target position announced) ::
          .performed target position (.ok (some completion)) ::
          .told (.afterTask target position closed completion.toTaskStatus) :: steps) fault
  | type {position : Nat} {positions : List Nat} {announced : String} {steps : List Step}
      {fault : Option Fault} (later : Listing target positions steps fault) :
      Listing target (position :: positions)
        (.told (.beforeTask target position announced) ::
          .performed target position (.ok none) :: steps) fault
  | fault {position : Nat} {announced closed : String} {fault : Fault} :
      Listing target [position]
        [.told (.beforeTask target position announced),
          .performed target position (.error fault),
          .told (.afterTask target position closed ⟨.failed, none⟩)] (some fault)

/-- The steps between the begin and the end of a target with a number of invocations: the first ones
are performed, all of them if the target is done and up to a fault otherwise. -/
def Body (target : String) (count : Nat) (steps : List Step) (state : TargetState) : Prop :=
  ∃ performed fault, performed ≤ count ∧ Listing target (List.range performed) steps fault ∧
    ((state = .done ∧ fault = none ∧ performed = count) ∨
      (state = .failed ∧ ∃ cause, fault = some cause ∧ cause ≠ .interrupted) ∨
      (state = .running ∧ fault = some .interrupted))

namespace Listing

variable {target : String} {positions : List Nat} {steps : List Step} {fault : Option Fault}

theorem isInner (listing : Listing target positions steps fault) :
    ∀ step ∈ steps, step.isInner = true := by
  induction listing with
  | nil => nofun
  | task _ ih => simpa [Step.isInner] using ih
  | type _ ih => simpa [Step.isInner] using ih
  | fault => simp [Step.isInner]

/-- A task that is said to have failed is the last one. -/
theorem last_of_failed (listing : Listing target positions steps fault) {earlier later : List Step}
    {position : Nat} {task : String} {status : TaskStatus}
    (split : steps = earlier ++ .told (.afterTask target position task status) :: later)
    (failed : status.type = .failed) : later = [] := by
  induction listing generalizing earlier with
  | nil => simp at split
  | @task _ _ _ _ completion _ _ _ ih =>
    rcases earlier with _ | ⟨first, _ | ⟨second, _ | ⟨third, rest⟩⟩⟩
    · simp at split
    · simp at split
    · simp only [List.cons_append, List.nil_append, List.cons.injEq, Step.told.injEq,
        Event.afterTask.injEq] at split
      exact absurd (split.2.2.1.2.2.2 ▸ failed) completion.notFailed
    · simp only [List.cons_append, List.cons.injEq] at split
      exact ih split.2.2.2
  | type _ ih =>
    rcases earlier with _ | ⟨first, _ | ⟨second, rest⟩⟩
    · simp at split
    · simp at split
    · simp only [List.cons_append, List.cons.injEq] at split
      exact ih split.2.2
  | fault =>
    have bound := congrArg List.length split
    rcases earlier with _ | ⟨first, _ | ⟨second, rest⟩⟩
    · simp at split
    · simp at split
    · exact List.length_eq_zero_iff.mp (by simp at bound; omega)

end Listing

theorem Body.isInner {target : String} {count : Nat} {steps : List Step} {state : TargetState}
    (body : Body target count steps state) : ∀ step ∈ steps, step.isInner = true := by
  obtain ⟨_, _, _, listing, _⟩ := body
  exact listing.isInner

namespace Engine

variable {φ : Type} {perform : Performer φ} {tell : Audience φ} {project : ProjectId}
variable {keepGoing : Bool} {ts : Targets} {g final : TargetGraph} {outcome next last : Standing}
variable {target : Target} {members : List Target} {status : TargetStatus} {steps : List Step}
variable {w after : World φ}

theorem Performs.listing {target : String} {positions : List Nat} {result : Option (String × Fault)}
    (performs : Performs perform tell project target positions w steps result after) :
    ∃ performed, performed <+: positions ∧ (result = none → performed = positions) ∧
      Listing target performed steps (result.map Prod.snd) := by
  induction performs with
  | done => exact ⟨[], List.prefix_rfl, fun _ => rfl, .nil⟩
  | task _ _ _ _ ih =>
    obtain ⟨performed, first, all, listing⟩ := ih
    exact ⟨_ :: performed, List.cons_prefix_cons.mpr ⟨rfl, first⟩, fun same => by rw [all same],
      .task listing⟩
  | type _ _ _ ih =>
    obtain ⟨performed, first, all, listing⟩ := ih
    exact ⟨_ :: performed, List.cons_prefix_cons.mpr ⟨rfl, first⟩, fun same => by rw [all same],
      .type listing⟩
  | fault => exact ⟨[_], by simp, nofun, .fault⟩

/-- What is performed of all positions are the first ones. -/
private theorem Performs.range_listing {target : String} {count : Nat}
    {result : Option (String × Fault)}
    (performs : Performs perform tell project target (List.range count) w steps result after) :
    ∃ performed ≤ count, (result = none → performed = count) ∧
      Listing target (List.range performed) steps (result.map Prod.snd) := by
  obtain ⟨performed, first, all, listing⟩ := performs.listing
  have bound : performed.length ≤ count := by simpa using first.length_le
  have same : performed = List.range performed.length := by
    rw [List.prefix_iff_eq_take.mp first, List.take_range]
    simp [bound]
  refine ⟨performed.length, bound, ?_, same ▸ listing⟩
  intro none
  rw [all none, List.length_range]

namespace Turn

/-- A turn is told by its end only, or the target begins free of obstacles and is performed, and
its end is told unless it is interrupted. -/
theorem shape
    (turn : Turn perform tell project keepGoing g outcome target w status next steps after) :
    ((status.state = .aborted ∨ status.state = .skipped) ∧
        steps = [.told (.afterTarget target.name status)]) ∨
      ∃ begun body ending, g.obstacle? keepGoing outcome target.name = none ∧
        (tell (.beforeTarget target.name)).run w = (.ok (), begun) ∧
        steps = .told (.beforeTarget target.name) :: (body ++ ending) ∧
        Body target.name (begun.invocationCount project target.name) body status.state ∧
        ((status.state.isFinal = true ∧ ending = [.told (.afterTarget target.name status)]) ∨
          (status.state = .running ∧ ending = [] ∧ ¬ next.GoesOn)) := by
  cases turn with
  | aborted => exact .inl ⟨.inl rfl, rfl⟩
  | skipped => exact .inl ⟨.inr rfl, rfl⟩
  | done free _ announced performs =>
    obtain ⟨performed, bound, all, listing⟩ := performs.range_listing
    exact .inr ⟨_, _, _, free, announced, rfl,
      ⟨performed, none, bound, listing, .inl ⟨rfl, rfl, all rfl⟩⟩, .inl ⟨rfl, rfl⟩⟩
  | @failed _ _ fault _ _ _ free _ announced performs handled =>
    obtain ⟨performed, bound, _, listing⟩ := performs.range_listing
    exact .inr ⟨_, _, _, free, announced, rfl,
      ⟨performed, some fault, bound, listing, .inr (.inl ⟨rfl, fault, rfl, handled⟩)⟩,
      .inl ⟨rfl, rfl⟩⟩
  | interrupted free _ announced performs =>
    obtain ⟨performed, bound, _, listing⟩ := performs.range_listing
    refine .inr ⟨_, _, [], free, announced, ?_,
      ⟨performed, some .interrupted, bound, listing, .inr (.inr ⟨rfl, rfl⟩)⟩, .inr ⟨rfl, rfl, id⟩⟩
    rw [List.append_nil]

theorem mem_steps
    (turn : Turn perform tell project keepGoing g outcome target w status next steps after)
    {step : Step} (member : step ∈ steps) :
    step.isInner = true ∨ step = .told (.beforeTarget target.name) ∨
      step = .told (.afterTarget target.name status) := by
  rcases turn.shape with ⟨_, rfl⟩ | ⟨_, body, ending, _, _, rfl, inner, closed⟩
  · exact .inr (.inr (List.mem_singleton.mp member))
  · rcases List.mem_cons.mp member with first | later
    · exact .inr (.inl first)
    · rcases List.mem_append.mp later with within | last
      · exact .inl (inner.isInner step within)
      · rcases closed with ⟨_, rfl⟩ | ⟨_, rfl, _⟩
        · exact .inr (.inr (List.mem_singleton.mp last))
        · cases last

private theorem filterMap_isInner {body : List Step} (inner : ∀ step ∈ body, step.isInner = true) :
    body.filterMap Step.ended? = [] := by
  rw [List.filterMap_eq_nil_iff]
  intro step member
  have about := inner step member
  unfold Step.isInner at about
  split at about
  · rfl
  · rfl
  · rfl
  · cases about

/-- A turn after which the run goes on tells of one end, which is that of the target. -/
theorem ended
    (turn : Turn perform tell project keepGoing g outcome target w status next steps after)
    (goesOn : next.GoesOn) : steps.filterMap Step.ended? = [(target.name, status)] := by
  rcases turn.shape with ⟨_, rfl⟩ | ⟨_, body, ending, _, _, rfl, inner, closed⟩
  · rfl
  · rcases closed with ⟨_, rfl⟩ | ⟨_, _, stops⟩
    · rw [List.filterMap_cons_none rfl, List.filterMap_append, filterMap_isInner inner.isInner]
      rfl
    · exact absurd goesOn stops

end Turn

namespace Course

variable {name : String}

theorem mem_steps (course : Course perform tell project keepGoing members g outcome w steps final
    last after) {step : Step} (member : step ∈ steps) :
    step.isInner = true ∨ ∃ name ∈ members.map Target.name,
      step = .told (.beforeTarget name) ∨ ∃ status, step = .told (.afterTarget name status) := by
  induction course with
  | finished => cases member
  | stopped => cases member
  | @turn target _ _ _ _ _ _ status _ _ _ _ _ _ _ turn _ ih =>
    rcases List.mem_append.mp member with now | later
    · rcases turn.mem_steps now with inner | begun | ended
      · exact .inl inner
      · exact .inr ⟨target.name, List.mem_cons_self, .inl begun⟩
      · exact .inr ⟨target.name, List.mem_cons_self, .inr ⟨status, ended⟩⟩
    · rcases ih later with inner | ⟨name, among, told⟩
      · exact .inl inner
      · exact .inr ⟨name, List.mem_cons_of_mem _ among, told⟩

/-- Only targets that take their turns are told to begin. -/
theorem mem_of_begun (course : Course perform tell project keepGoing members g outcome w steps final
    last after) (begun : .told (.beforeTarget name) ∈ steps) : name ∈ members.map Target.name := by
  rcases course.mem_steps begun with inner | ⟨other, among, same | ⟨_, different⟩⟩
  · cases inner
  · cases same
    exact among
  · cases different

/-- A course that goes on to its end tells of the end of every target in turn. -/
theorem ended (course : Course perform tell project keepGoing members g outcome w steps final last
    after) (distinct : (members.map Target.name).Nodup) (goesOn : last.GoesOn) :
    steps.filterMap Step.ended? = members.map fun t => (t.name, final.statusOf t.name) := by
  induction course with
  | finished => rfl
  | stopped => exact goesOn.elim
  | turn _ _ turn rest ih =>
    rw [List.filterMap_append, turn.ended (rest.goesOn_before goesOn),
      ih (List.nodup_cons.mp distinct).2 goesOn, List.map_cons, rest.statusOf_turn distinct]
    rfl

variable {t : Target} {pre post : List Target}

/-- What comes to an end in a course that goes on is told with its last status. -/
private theorem told_of_mem (course : Course perform tell project keepGoing members g outcome w
    steps final last after) (distinct : (members.map Target.name).Nodup) (goesOn : last.GoesOn)
    (member : name ∈ members.map Target.name) :
    .told (.afterTarget name (final.statusOf name)) ∈ steps := by
  obtain ⟨t, among, rfl⟩ := List.mem_map.mp member
  have listed : (t.name, final.statusOf t.name) ∈ steps.filterMap Step.ended? := by
    rw [course.ended distinct goesOn]
    exact List.mem_map.mpr ⟨t, among, rfl⟩
  obtain ⟨step, told, same⟩ := List.mem_filterMap.mp listed
  unfold Step.ended? at same
  split at same
  · cases same
    exact told
  · cases same

/-- A target does not begin in the turns of others. -/
private theorem begun_once {g₁ g₂ : TargetGraph} {middle next : Standing} {w₁ w₂ : World φ}
    {earlier rest : List Step}
    (former : Course perform tell project keepGoing pre g outcome w earlier g₁ middle w₁)
    (latter : Course perform tell project keepGoing post g₂ next w₂ rest final last after)
    (distinct : ((pre ++ t :: post).map Target.name).Nodup) :
    .told (.beforeTarget t.name) ∉ earlier ∧ .told (.beforeTarget t.name) ∉ rest := by
  rw [List.map_append, List.nodup_append, List.map_cons, List.nodup_cons] at distinct
  obtain ⟨_, ⟨notLater, _⟩, apart⟩ := distinct
  constructor
  · intro member
    exact apart t.name (former.mem_of_begun member) t.name List.mem_cons_self rfl
  · intro member
    exact notLater (latter.mem_of_begun member)

/-- A target that is told to begin does so once, after the end of all that it depends on, and is
performed from then on until its own end. -/
theorem begun (course : Course perform tell project keepGoing (pre ++ t :: post) g .completed w
      steps final last after) (ready : Ready ts g (pre ++ t :: post))
    (begun : .told (.beforeTarget t.name) ∈ steps) :
    ∃ earlier body later started,
      steps = earlier ++ .told (.beforeTarget t.name) :: (body ++ later) ∧
      .told (.beforeTarget t.name) ∉ earlier ∧ .told (.beforeTarget t.name) ∉ body ++ later ∧
      Plays perform tell project w (earlier ++ [.told (.beforeTarget t.name)]) started ∧
      (∀ dependency, TransGen ts.Depends t.name dependency →
        ∃ status, .told (.afterTarget dependency status) ∈ earlier ∧ status.state.isOk = true) ∧
      Body t.name (started.invocationCount project t.name) body (final.stateOf t.name) ∧
      (((final.stateOf t.name).isFinal = true ∧
          ∃ rest, later = .told (.afterTarget t.name (final.statusOf t.name)) :: rest) ∨
        (final.stateOf t.name = .running ∧ later = [])) := by
  have distinct := ready.distinct
  rcases course.locate distinct with ⟨_, former⟩ | located
  · exact absurd begun (former.begun_once (.stopped post g .interrupted w) distinct).1
  obtain ⟨earlier, g₁, middle, _, _, _, _, _, rest, former, goesOn, turn, latter, given, kept,
    same⟩ := located
  subst same given
  obtain ⟨before, afterwards⟩ := former.begun_once latter distinct
  rw [List.map_append, List.nodup_append] at distinct
  rcases turn.shape with ⟨_, rfl⟩ | ⟨started, body, ending, free, announced, rfl, inner, closed⟩
  · simp [before, afterwards] at begun
  have within : .told (.beforeTarget t.name) ∉ body := fun member => by
    cases inner.isInner _ member
  refine ⟨earlier, body, ending ++ rest, started, ?_, before, ?_,
    former.plays.append (.single announced), ?_, inner, ?_⟩
  · rw [List.cons_append, List.append_assoc]
  · rcases closed with ⟨_, rfl⟩ | ⟨_, rfl, _⟩
    · simp [within, afterwards]
    · simp [within, afterwards]
  · intro dependency path
    obtain ⟨first, notThen⟩ := ready.earlier rfl path
    refine ⟨_, former.told_of_mem distinct.1 goesOn first, ?_⟩
    rw [TargetGraph.isOk_of_free free]
    rw [former.prerequisites, ready.upstream t.name (ready.mem_order (by simp))]
    exact path
  · rcases closed with ⟨final, rfl⟩ | ⟨running, rfl, stops⟩
    · exact .inl ⟨final, rest, rfl⟩
    · obtain ⟨fault, rfl⟩ := Standing.exists_stopped stops
      exact .inr ⟨running, latter.of_stopped.1⟩

/-- In a course that goes on to its end, those targets begin that are done or fail. -/
theorem begun_iff (course : Course perform tell project keepGoing (pre ++ t :: post) g outcome w
      steps final last after) (distinct : ((pre ++ t :: post).map Target.name).Nodup)
    (goesOn : last.GoesOn) :
    .told (.beforeTarget t.name) ∈ steps ↔
      final.stateOf t.name = .done ∨ final.stateOf t.name = .failed := by
  rcases course.locate distinct with ⟨stops, _⟩ | located
  · exact absurd goesOn stops
  obtain ⟨earlier, _, _, _, _, _, _, _, rest, former, _, turn, latter, given, _, same⟩ := located
  subst same given
  obtain ⟨before, afterwards⟩ := former.begun_once latter distinct
  rcases turn.shape with ⟨idle, rfl⟩ | ⟨_, _, _, _, _, rfl, ⟨_, _, _, _, ended⟩, closed⟩
  · rw [← TargetGraph.stateOf] at idle
    rcases idle with idle | idle
    · simp [before, afterwards, idle]
    · simp [before, afterwards, idle]
  · rw [← TargetGraph.stateOf] at ended
    rcases ended with ⟨done, _⟩ | ⟨failed, _⟩ | ⟨running, _⟩
    · simp [done]
    · simp [failed]
    · rcases closed with ⟨final, _⟩ | ⟨_, _, stops⟩
      · rw [← TargetGraph.stateOf, running] at final
        cases final
      · exact absurd (latter.goesOn_before goesOn) stops

/-- A course tells of targets and of what stands in them, never of the run. -/
theorem mem_run (course : Course perform tell project keepGoing members g outcome w steps final last
    after) :
    (∀ name order, .told (.beforeBuild name order) ∉ steps) ∧
      ∀ complete notExecuted, .told (.afterBuild complete notExecuted) ∉ steps := by
  constructor
  · intro name order member
    rcases course.mem_steps member with inner | ⟨_, _, same | ⟨_, same⟩⟩
    · cases inner
    · cases same
    · cases same
  · intro complete notExecuted member
    rcases course.mem_steps member with inner | ⟨_, _, same | ⟨_, same⟩⟩
    · cases inner
    · cases same
    · cases same

end Course

/-- The announcements of a run of a trimmed graph are nested. The begin of the run is told first and
its end last, also if it is interrupted; if it is not, the end of every target is told in the order
of the run, and those begin that are done or fail. A target begins once, after all that it depends
on was told to have completed, and what is performed until its end is announced and closed one after
another, in the order in which it stands there. -/
theorem runGraph_announces {goals : List String} (quiet : NeverFaults tell)
    (success : (TargetGraph.ofTargets ts).trim ts goals = .ok g) (perform : Performer φ)
    (project : ProjectId) (keepGoing : Bool) (w : World φ) :
    ∃ members final last inner result after,
      g.executionOrder ts = .ok members ∧ (members.map Target.name).Nodup ∧
      (conduct perform tell project keepGoing ts g).run w = (.ok (final, last), after) ∧
      (runGraph perform tell project keepGoing ts g).run w = (result, after) ∧
      History perform tell project w
        (.told (.beforeBuild (w.project project).name g.order) ::
          (inner ++ [.told (.afterBuild final.isComplete final.notExecuted)])) after ∧
      (∀ name order, .told (.beforeBuild name order) ∉ inner) ∧
      (∀ complete notExecuted, .told (.afterBuild complete notExecuted) ∉ inner) ∧
      (Calm inner →
        inner.filterMap Step.ended? = members.map (fun t => (t.name, final.statusOf t.name)) ∧
        ∀ t ∈ members, (.told (.beforeTarget t.name) ∈ inner ↔
          final.stateOf t.name = .done ∨ final.stateOf t.name = .failed)) ∧
      ∀ t ∈ members, .told (.beforeTarget t.name) ∈ inner → ∃ earlier body later started,
        inner = earlier ++ .told (.beforeTarget t.name) :: (body ++ later) ∧
        .told (.beforeTarget t.name) ∉ earlier ∧ .told (.beforeTarget t.name) ∉ body ++ later ∧
        Plays perform tell project w (.told (.beforeBuild (w.project project).name g.order) ::
          (earlier ++ [.told (.beforeTarget t.name)])) started ∧
        (∀ dependency, TransGen ts.Depends t.name dependency →
          ∃ status, .told (.afterTarget dependency status) ∈ earlier ∧
            status.state.isOk = true) ∧
        Body t.name (started.invocationCount project t.name) body (final.stateOf t.name) ∧
        (∀ before position task status rest,
          body = before ++ .told (.afterTask t.name position task status) :: rest →
          status.type = .failed → rest = []) ∧
        (((final.stateOf t.name).isFinal = true ∧
            ∃ rest, later = .told (.afterTarget t.name (final.statusOf t.name)) :: rest) ∨
          (final.stateOf t.name = .running ∧ later = [])) := by
  obtain ⟨members, ready⟩ := ready_of_trim success
  obtain ⟨inner, final, last, _, _, after, announced, course, closed, run⟩ :=
    conduct_course perform project keepGoing quiet ready w
  have plays := Plays.told announced (course.plays.append (.single closed))
  refine ⟨members, final, last, inner, _, after, ready.runs, ready.distinct, run, runGraph_run run,
    plays.history, course.mem_run.1, course.mem_run.2, ?_, ?_⟩
  · intro calm
    have goesOn := course.goesOn trivial calm
    refine ⟨course.ended ready.distinct goesOn, ?_⟩
    intro t member
    obtain ⟨pre, post, rfl⟩ := List.append_of_mem member
    exact course.begun_iff ready.distinct goesOn
  · intro t member begun
    obtain ⟨pre, post, rfl⟩ := List.append_of_mem member
    obtain ⟨earlier, body, later, started, split, before, afterwards, former, complete, inner,
      ended⟩ := course.begun ready begun
    refine ⟨earlier, body, later, started, split, before, afterwards, .told announced former,
      complete, inner, ?_, ended⟩
    obtain ⟨_, _, _, listing, _⟩ := inner
    intro _ _ _ _ _ split failed
    exact listing.last_of_failed split failed

theorem runGraph_announces_sample : ∃ final last inner after,
    (conduct Sample.perform Sample.listen 0 false Sample.targets Sample.graph).run Sample.world =
      (.ok (final, last), after) ∧
    History Sample.perform Sample.listen 0 Sample.world
      (.told (.beforeBuild "" ["lib", "app"]) ::
        (inner ++ [.told (.afterBuild final.isComplete final.notExecuted)])) after := by
  obtain ⟨_, final, last, inner, _, after, _, _, run, _, history, _⟩ :=
    runGraph_announces Sample.listen_quiet Sample.trim_app Sample.perform 0 false Sample.world
  exact ⟨final, last, inner, after, run, history⟩

end Engine
end BuildEngine
