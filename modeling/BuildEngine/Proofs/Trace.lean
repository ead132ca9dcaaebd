import BuildEngine.Run.Executor

/-! Traces: what a run does, one step after another. A step tells the audience of an event, or
performs what stands at a position of a target; nothing else in a run changes the world. The
audience may do anything but end with a fault, and tasks may do anything. -/

namespace BuildEngine

/-- A step of a run. -/
inductive Step where
  | told (event : Event)
  | performed (target : String) (position : Nat) (result : Except Fault (Option Completion))

namespace Engine

variable {φ : Type} {perform : Performer φ} {tell : Audience φ} {project : ProjectId}
variable {target : String} {w w₁ w₂ w₃ : World φ}

/-- An audience that takes every event without a fault. -/
def NeverFaults (tell : Audience φ) : Prop :=
  ∀ event w, ((tell event).run w).1 = .ok ()

theorem NeverFaults.told (quiet : NeverFaults tell) (event : Event) (w : World φ) :
    ∃ after, (tell event).run w = (.ok (), after) :=
  ⟨((tell event).run w).2, Prod.ext (quiet event w) rfl⟩

/-- Steps that lead from one world to another one. -/
inductive Plays (perform : Performer φ) (tell : Audience φ) (project : ProjectId) :
    World φ → List Step → World φ → Prop
  | done (w : World φ) : Plays perform tell project w [] w
  | told {event : Event} {steps : List Step} {w w₁ w₂ : World φ}
      (heard : (tell event).run w = (.ok (), w₁)) (rest : Plays perform tell project w₁ steps w₂) :
      Plays perform tell project w (.told event :: steps) w₂
  | performed {target : String} {position : Nat} {result : Except Fault (Option Completion)}
      {steps : List Step} {w w₁ w₂ : World φ}
      (ended : (perform project target position).run w = (result, w₁))
      (rest : Plays perform tell project w₁ steps w₂) :
      Plays perform tell project w (.performed target position result :: steps) w₂

theorem Plays.append {first second : List Step} (former : Plays perform tell project w first w₁)
    (latter : Plays perform tell project w₁ second w₂) :
    Plays perform tell project w (first ++ second) w₂ := by
  induction former with
  | done => exact latter
  | told heard _ ih => exact .told heard (ih latter)
  | performed ended _ ih => exact .performed ended (ih latter)

theorem Plays.single {event : Event} (heard : (tell event).run w = (.ok (), w₁)) :
    Plays perform tell project w [.told event] w₁ :=
  .told heard (.done w₁)

/-- Nothing that is performed in some steps is interrupted. -/
def Calm (steps : List Step) : Prop :=
  ∀ target position, .performed target position (.error .interrupted) ∉ steps

theorem Calm.left {first second : List Step} (calm : Calm (first ++ second)) : Calm first :=
  fun target position member => calm target position (List.mem_append_left second member)

theorem Calm.right {first second : List Step} (calm : Calm (first ++ second)) : Calm second :=
  fun target position member => calm target position (List.mem_append_right first member)

/-- Whatever is performed is performed in a world that steps lead to. -/
theorem Plays.ended {steps : List Step} {position : Nat} {result : Except Fault (Option Completion)}
    (plays : Plays perform tell project w steps w₁)
    (member : .performed target position result ∈ steps) :
    ∃ before reached, Plays perform tell project w before reached ∧
      ((perform project target position).run reached).1 = result := by
  induction plays with
  | done => cases member
  | told heard _ ih =>
    rcases List.mem_cons.mp member with first | later
    · cases first
    · obtain ⟨before, reached, plays, ended⟩ := ih later
      exact ⟨_, reached, .told heard plays, ended⟩
  | @performed _ _ _ _ w _ _ ended _ ih =>
    rcases List.mem_cons.mp member with first | later
    · cases first
      exact ⟨[], w, .done w, by rw [ended]⟩
    · obtain ⟨before, reached, plays, later⟩ := ih later
      exact ⟨_, reached, .performed ended plays, later⟩

/-- No performance is interrupted, in whatever world steps lead to. -/
def Handled (perform : Performer φ) (tell : Audience φ) (project : ProjectId) (w : World φ) :
    Prop :=
  ∀ steps reached, Plays perform tell project w steps reached → ∀ target position,
    ((perform project target position).run reached).1 ≠ .error .interrupted

theorem Plays.calm {steps : List Step} (plays : Plays perform tell project w steps w₁)
    (handled : Handled perform tell project w) : Calm steps := by
  intro target position member
  obtain ⟨before, reached, former, ended⟩ := plays.ended member
  exact handled before reached former target position ended

/-- A journal is something in the world to which every step is added and nothing else. -/
structure Journal (perform : Performer φ) (tell : Audience φ) (project : ProjectId)
    (journal : World φ → List Step) : Prop where
  told : ∀ event w, journal ((tell event).run w).2 = journal w ++ [.told event]
  performed : ∀ target position w, journal ((perform project target position).run w).2 =
    journal w ++ [.performed target position ((perform project target position).run w).1]

/-- The steps from one world to another one: they lead there, and a journal ends with them, so
that no others were taken. -/
structure History (perform : Performer φ) (tell : Audience φ) (project : ProjectId) (w : World φ)
    (steps : List Step) (after : World φ) : Prop where
  plays : Plays perform tell project w steps after
  kept : ∀ journal, Journal perform tell project journal → journal after = journal w ++ steps

theorem Plays.history {steps : List Step} (plays : Plays perform tell project w steps w₁) :
    History perform tell project w steps w₁ := by
  refine ⟨plays, ?_⟩
  intro journal kept
  induction plays with
  | done => simp
  | @told event steps w _ _ heard _ ih =>
    have entry := kept.told event w
    rw [heard] at entry
    rw [ih, entry, List.append_assoc, List.singleton_append]
  | @performed target position result steps w _ _ ended _ ih =>
    have entry := kept.performed target position w
    rw [ended] at entry
    rw [ih, entry, List.append_assoc, List.singleton_append]

/-- What performing positions of a target does to the world, step by step, and the fault that it
ends with, if any. -/
inductive Performs (perform : Performer φ) (tell : Audience φ) (project : ProjectId)
    (target : String) :
    List Nat → World φ → List Step → Option (String × Fault) → World φ → Prop
  | done (w : World φ) : Performs perform tell project target [] w [] none w
  | task {position : Nat} {rest : List Nat} {completion : Completion} {steps : List Step}
      {result : Option (String × Fault)} {w w₁ w₂ w₃ after : World φ}
      (announced : (tell (.beforeTask target position (w.taskAt project target position))).run w =
        (.ok (), w₁))
      (ended : (perform project target position).run w₁ = (.ok (some completion), w₂))
      (closed : (tell (.afterTask target position (w₂.taskAt project target position)
        completion.toTaskStatus)).run w₂ = (.ok (), w₃))
      (later : Performs perform tell project target rest w₃ steps result after) :
      Performs perform tell project target (position :: rest) w
        (.told (.beforeTask target position (w.taskAt project target position)) ::
          .performed target position (.ok (some completion)) ::
          .told (.afterTask target position (w₂.taskAt project target position)
            completion.toTaskStatus) :: steps) result after
  | type {position : Nat} {rest : List Nat} {steps : List Step}
      {result : Option (String × Fault)} {w w₁ w₂ after : World φ}
      (announced : (tell (.beforeTask target position (w.taskAt project target position))).run w =
        (.ok (), w₁))
      (ended : (perform project target position).run w₁ = (.ok none, w₂))
      (later : Performs perform tell project target rest w₂ steps result after) :
      Performs perform tell project target (position :: rest) w
        (.told (.beforeTask target position (w.taskAt project target position)) ::
          .performed target position (.ok none) :: steps) result after
  | fault {position : Nat} {rest : List Nat} {fault : Fault} {w w₁ w₂ w₃ : World φ}
      (announced : (tell (.beforeTask target position (w.taskAt project target position))).run w =
        (.ok (), w₁))
      (ended : (perform project target position).run w₁ = (.error fault, w₂))
      (closed : (tell (.afterTask target position (w₂.taskAt project target position)
        ⟨.failed, none⟩)).run w₂ = (.ok (), w₃)) :
      Performs perform tell project target (position :: rest) w
        [.told (.beforeTask target position (w.taskAt project target position)),
          .performed target position (.error fault),
          .told (.afterTask target position (w₂.taskAt project target position) ⟨.failed, none⟩)]
        (some (w₂.taskAt project target position, fault)) w₃

theorem Performs.plays {positions : List Nat} {steps : List Step}
    {result : Option (String × Fault)}
    (performs : Performs perform tell project target positions w steps result w₁) :
    Plays perform tell project w steps w₁ := by
  induction performs with
  | done w => exact .done w
  | task announced ended closed _ ih => exact .told announced (.performed ended (.told closed ih))
  | type announced ended _ ih => exact .told announced (.performed ended ih)
  | fault announced ended closed =>
    exact .told announced (.performed ended (.single closed))

/-- A fault with which performing something in a target ended, in the world to which the steps
before it lead; the task is what stood there. -/
def Raised (perform : Performer φ) (tell : Audience φ) (project : ProjectId) (w : World φ)
    (steps : List Step) (target task : String) (fault : Fault) : Prop :=
  ∃ earlier position later w₁ w₂,
    steps = earlier ++ .performed target position (.error fault) :: later ∧
    Plays perform tell project w earlier w₁ ∧
    (perform project target position).run w₁ = (.error fault, w₂) ∧
    w₂.taskAt project target position = task

theorem Raised.later {before steps : List Step} {task : String} {fault : Fault}
    (plays : Plays perform tell project w before w₁)
    (raised : Raised perform tell project w₁ steps target task fault) :
    Raised perform tell project w (before ++ steps) target task fault := by
  obtain ⟨earlier, position, rest, w₂, w₃, same, former, ended, name⟩ := raised
  refine ⟨before ++ earlier, position, rest, w₂, w₃, ?_, plays.append former, ended, name⟩
  rw [same, List.append_assoc]

theorem Raised.further {steps : List Step} {task : String} {fault : Fault} (rest : List Step)
    (raised : Raised perform tell project w steps target task fault) :
    Raised perform tell project w (steps ++ rest) target task fault := by
  obtain ⟨earlier, position, later, w₁, w₂, same, former, ended, name⟩ := raised
  refine ⟨earlier, position, later ++ rest, w₁, w₂, ?_, former, ended, name⟩
  rw [same, List.append_assoc, List.cons_append]

theorem Performs.raised {positions : List Nat} {steps : List Step}
    {result : Option (String × Fault)} {task : String} {fault : Fault}
    (performs : Performs perform tell project target positions w steps result w₁)
    (same : result = some (task, fault)) :
    Raised perform tell project w steps target task fault := by
  induction performs with
  | done => cases same
  | task announced ended closed _ ih =>
    exact .later (.told announced (.performed ended (.single closed))) (ih same)
  | type announced ended _ ih =>
    exact .later (.told announced (.performed ended (.done _))) (ih same)
  | fault announced ended closed =>
    obtain ⟨rfl, rfl⟩ := Prod.mk.inj (Option.some.inj same)
    exact ⟨[_], _, [_], _, _, rfl, .single announced, ended, rfl⟩

/-- Performing what stands in a target always ends with a result, and does nothing but that. -/
theorem performIn_performs (perform : Performer φ) (project : ProjectId) (target : String)
    (quiet : NeverFaults tell) (positions : List Nat) (w : World φ) :
    ∃ steps result after,
      (performIn perform tell project target positions).run w = (.ok result, after) ∧
      Performs perform tell project target positions w steps result after := by
  induction positions generalizing w with
  | nil => exact ⟨[], none, w, rfl, .done w⟩
  | cons position rest ih =>
    obtain ⟨w₁, announced⟩ :=
      quiet.told (.beforeTask target position (w.taskAt project target position)) w
    rw [performIn, run_bind_ok (run_observe _ w), run_bind_ok announced,
      run_bind_ok (run_attempt _ w₁)]
    rcases ended : (perform project target position).run w₁ with ⟨fault | none | completion, w₂⟩
    · obtain ⟨w₃, closed⟩ := quiet.told
        (.afterTask target position (w₂.taskAt project target position) ⟨.failed, none⟩) w₂
      refine ⟨_, _, w₃, ?_, .fault announced ended closed⟩
      simp only
      rw [run_bind_ok (run_observe _ w₂), run_bind_ok closed]
      rfl
    · obtain ⟨steps, result, after, run, performs⟩ := ih w₂
      exact ⟨_, result, after, run, .type announced ended performs⟩
    · obtain ⟨w₃, closed⟩ := quiet.told
        (.afterTask target position (w₂.taskAt project target position) completion.toTaskStatus) w₂
      obtain ⟨steps, result, after, run, performs⟩ := ih w₃
      refine ⟨_, result, after, ?_, .task announced ended closed performs⟩
      simp only
      rw [run_bind_ok (run_observe _ w₂), run_bind_ok closed]
      exact run

end Engine
end BuildEngine
