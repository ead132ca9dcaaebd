import BuildEngine.Proofs.Trace
import BuildEngine.Proofs.Upstream

/-! Turns: what becomes of a target when its turn comes, and runs as turns one after another. The
inversion of the executor stands here once; what holds of runs is proved from turns. -/

namespace BuildEngine

namespace TargetGraph

variable {g : TargetGraph} {name other : String} {status : TargetStatus}

/-- The state that a target is in. -/
def stateOf (g : TargetGraph) (name : String) : TargetState := (g.statusOf name).state

theorem statusOf_withStatus :
    (g.withStatus name status).statusOf other =
      if name = other then status else g.statusOf other := by
  simp only [statusOf, withStatus, Table.find?_put]
  split <;> rfl

@[simp] theorem statusOf_withStatus_self : (g.withStatus name status).statusOf name = status := by
  rw [statusOf_withStatus, if_pos rfl]

theorem statusOf_withStatus_of_ne (different : name ≠ other) :
    (g.withStatus name status).statusOf other = g.statusOf other := by
  rw [statusOf_withStatus, if_neg different]

/-- Only the last status that a target is given counts. -/
theorem withStatus_withStatus (earlier : TargetStatus) :
    (g.withStatus name earlier).withStatus name status = g.withStatus name status := by
  rw [withStatus, withStatus, withStatus, Table.put_put]

@[simp] theorem order_withStatus : (g.withStatus name status).order = g.order := rfl

private theorem prerequisitesFrom_withStatus (steps : Nat) (stack seen : List String) :
    (g.withStatus name status).prerequisitesFrom steps stack seen =
      g.prerequisitesFrom steps stack seen := by
  induction steps generalizing stack seen with
  | zero => rw [prerequisitesFrom.eq_def, prerequisitesFrom.eq_def]
  | succ more ih =>
    cases stack with
    | nil => rw [prerequisitesFrom.eq_def, prerequisitesFrom.eq_def]
    | cons top rest =>
      rw [prerequisitesFrom, prerequisitesFrom, ih, ih]
      rfl

@[simp] theorem prerequisites_withStatus :
    (g.withStatus name status).prerequisites other = g.prerequisites other :=
  prerequisitesFrom_withStatus ..

theorem changeStatus_open (unsettled : (g.statusOf name).state.isFinal = false) :
    g.changeStatus name status = .ok (g.withStatus name status) := by
  simp only [changeStatus, unsettled, Bool.false_eq_true, if_false]

theorem start_open (unsettled : (g.statusOf name).state.isFinal = false) :
    g.start name = .ok (g.withStatus name ⟨.running, none⟩) := by
  rw [start, changeStatus_open unsettled]
  change (g.withStatus name ⟨.ready, none⟩).changeStatus name ⟨.running, none⟩ = _
  rw [changeStatus_open (by rw [statusOf_withStatus_self]; rfl), withStatus_withStatus]

/-- A target has an obstacle after a failure, unless the run keeps going, and if it depends on
something that did not complete. -/
theorem obstacle?_iff {keepGoing : Bool} {outcome : Standing} :
    (∃ reason, g.obstacle? keepGoing outcome name = some reason) ↔
      (keepGoing = false ∧ outcome.hasFailed = true) ∨
        ∃ n ∈ g.prerequisites name, (g.statusOf n).state.isOk = false := by
  rw [obstacle?]
  split
  · rename_i halted
    rw [Bool.and_eq_true, Bool.not_eq_true'] at halted
    exact ⟨fun _ => .inl ⟨halted.2, halted.1⟩, fun _ => ⟨_, rfl⟩⟩
  · rename_i goesOn
    have unhalted : ¬ (keepGoing = false ∧ outcome.hasFailed = true) := fun halted =>
      goesOn (by rw [halted.1, halted.2]; rfl)
    simp [unhalted, ← Option.isSome_iff_exists]

/-- All that a target without an obstacle depends on has completed. -/
theorem isOk_of_free {keepGoing : Bool} {outcome : Standing} {dependency : String}
    (free : g.obstacle? keepGoing outcome name = none)
    (upstream : dependency ∈ g.prerequisites name) :
    (g.statusOf dependency).state.isOk = true := by
  by_contra incomplete
  have blocked : ∃ reason, g.obstacle? keepGoing outcome name = some reason :=
    obstacle?_iff.mpr (.inr ⟨dependency, upstream, Bool.eq_false_iff.mpr incomplete⟩)
  obtain ⟨reason, blocked⟩ := blocked
  rw [free] at blocked
  cases blocked

/-- Nothing has become of the targets of a graph that was just trimmed. -/
theorem statusOf_restrict (order : List String) : (g.restrict order).statusOf name = {} := by
  have fresh (entries : List (String × TargetStatus)) (all : ∀ entry ∈ entries, entry.2 = {})
      (t : Table String TargetStatus) (before : (t.find? name).getD {} = {}) :
      ((entries.foldl (fun t entry => t.put entry.1 entry.2) t).find? name).getD {} = {} := by
    induction entries generalizing t with
    | nil => exact before
    | cons entry rest ih =>
      rw [List.foldl_cons]
      refine ih (fun other member => all other (List.mem_cons_of_mem entry member)) _ ?_
      rw [Table.find?_put, all entry List.mem_cons_self]
      split
      · rfl
      · exact before
  refine fresh _ ?_ .empty rfl
  intro entry member
  obtain ⟨_, _, rfl⟩ := List.mem_map.mp member
  rfl

end TargetGraph

namespace Standing

/-- Whether further targets take their turns. -/
def GoesOn : Standing → Prop
  | stopped _ => False
  | _ => True

@[simp] theorem andThen_completed (outcome : Standing) : outcome.andThen .completed = outcome := by
  cases outcome <;> rfl

@[simp] theorem andThen_stopped (outcome : Standing) (fault : Fault) :
    outcome.andThen (.stopped fault) = .stopped fault := by
  cases outcome <;> rfl

theorem exists_stopped {outcome : Standing} (stops : ¬ outcome.GoesOn) :
    ∃ fault, outcome = .stopped fault := by
  cases outcome with
  | completed => exact absurd trivial stops
  | failed => exact absurd trivial stops
  | stopped fault => exact ⟨fault, rfl⟩

theorem GoesOn.andThen_failed {outcome : Standing} (goesOn : outcome.GoesOn) (fault : Fault) :
    (outcome.andThen (.failed fault)).GoesOn := by
  cases outcome with
  | completed => exact trivial
  | failed => exact trivial
  | stopped => exact goesOn

end Standing

namespace Engine

variable {φ : Type} {perform : Performer φ} {tell : Audience φ} {project : ProjectId}
variable {keepGoing : Bool} {g final : TargetGraph} {outcome next : Standing} {target : Target}
variable {w after : World φ}

/-- What becomes of a target when its turn comes: the status that it is given, how the run stands
then, and what was done. -/
inductive Turn (perform : Performer φ) (tell : Audience φ) (project : ProjectId) (keepGoing : Bool)
    (g : TargetGraph) (outcome : Standing) (target : Target) (w : World φ) :
    TargetStatus → Standing → List Step → World φ → Prop
  | aborted {reason : String} {after : World φ}
      (blocked : g.obstacle? keepGoing outcome target.name = some reason)
      (told : (tell (.afterTarget target.name ⟨.aborted, some reason⟩)).run w = (.ok (), after)) :
      Turn perform tell project keepGoing g outcome target w ⟨.aborted, some reason⟩ outcome
        [.told (.afterTarget target.name ⟨.aborted, some reason⟩)] after
  | skipped {reason : String} {after : World φ}
      (free : g.obstacle? keepGoing outcome target.name = none)
      (guarded : (w.project project).guard? target = some reason)
      (told : (tell (.afterTarget target.name ⟨.skipped, some reason⟩)).run w = (.ok (), after)) :
      Turn perform tell project keepGoing g outcome target w ⟨.skipped, some reason⟩ outcome
        [.told (.afterTarget target.name ⟨.skipped, some reason⟩)] after
  | done {steps : List Step} {w₁ w₂ after : World φ}
      (free : g.obstacle? keepGoing outcome target.name = none)
      (unguarded : (w.project project).guard? target = none)
      (announced : (tell (.beforeTarget target.name)).run w = (.ok (), w₁))
      (performs : Performs perform tell project target.name
        (List.range (w₁.invocationCount project target.name)) w₁ steps none w₂)
      (told : (tell (.afterTarget target.name ⟨.done, none⟩)).run w₂ = (.ok (), after)) :
      Turn perform tell project keepGoing g outcome target w ⟨.done, none⟩ outcome
        (.told (.beforeTarget target.name) ::
          (steps ++ [.told (.afterTarget target.name ⟨.done, none⟩)])) after
  | failed {steps : List Step} {task : String} {fault : Fault} {w₁ w₂ after : World φ}
      (free : g.obstacle? keepGoing outcome target.name = none)
      (unguarded : (w.project project).guard? target = none)
      (announced : (tell (.beforeTarget target.name)).run w = (.ok (), w₁))
      (performs : Performs perform tell project target.name
        (List.range (w₁.invocationCount project target.name)) w₁ steps (some (task, fault)) w₂)
      (handled : fault ≠ .interrupted)
      (told : (tell (.afterTarget target.name ⟨.failed, some (failureText fault)⟩)).run w₂ =
        (.ok (), after)) :
      Turn perform tell project keepGoing g outcome target w
        ⟨.failed, some (failureText fault)⟩
        (outcome.andThen (.failed (.build target.name (some task) fault)))
        (.told (.beforeTarget target.name) ::
          (steps ++ [.told (.afterTarget target.name ⟨.failed, some (failureText fault)⟩)])) after
  | interrupted {steps : List Step} {task : String} {w₁ after : World φ}
      (free : g.obstacle? keepGoing outcome target.name = none)
      (unguarded : (w.project project).guard? target = none)
      (announced : (tell (.beforeTarget target.name)).run w = (.ok (), w₁))
      (performs : Performs perform tell project target.name
        (List.range (w₁.invocationCount project target.name)) w₁ steps
        (some (task, .interrupted)) after) :
      Turn perform tell project keepGoing g outcome target w ⟨.running, none⟩
        (.stopped .interrupted) (.told (.beforeTarget target.name) :: steps) after

namespace Turn

variable {status : TargetStatus} {steps : List Step}

theorem plays
    (turn : Turn perform tell project keepGoing g outcome target w status next steps after) :
    Plays perform tell project w steps after := by
  cases turn with
  | aborted _ told => exact .single told
  | skipped _ _ told => exact .single told
  | done _ _ announced performs told => exact .told announced (performs.plays.append (.single told))
  | failed _ _ announced performs _ told =>
    exact .told announced (performs.plays.append (.single told))
  | interrupted _ _ announced performs => exact .told announced performs.plays

theorem aborted_iff
    (turn : Turn perform tell project keepGoing g outcome target w status next steps after) :
    status.state = .aborted ↔
      ∃ reason, g.obstacle? keepGoing outcome target.name = some reason := by
  cases turn with
  | aborted blocked => simp [blocked]
  | skipped free => simp [free]
  | done free => simp [free]
  | failed free => simp [free]
  | interrupted free => simp [free]

/-- A turn decides what becomes of a target, unless it is interrupted. -/
theorem isFinal
    (turn : Turn perform tell project keepGoing g outcome target w status next steps after)
    (goesOn : next.GoesOn) : status.state.isFinal = true := by
  cases turn with
  | interrupted => exact goesOn.elim
  | _ => rfl

theorem skipped_iff
    (turn : Turn perform tell project keepGoing g outcome target w status next steps after)
    (taken : status.state ≠ .aborted) :
    status.state = .skipped ↔ (w.project project).guard? target ≠ none := by
  cases turn with
  | aborted => exact absurd rfl taken
  | skipped _ guarded => simp [guarded]
  | done _ unguarded => simp [unguarded]
  | failed _ unguarded => simp [unguarded]
  | interrupted _ unguarded => simp [unguarded]

/-- A turn in which nothing is interrupted lets the run go on. -/
theorem goesOn
    (turn : Turn perform tell project keepGoing g outcome target w status next steps after)
    (before : outcome.GoesOn) (calm : Calm steps) : next.GoesOn := by
  cases turn with
  | aborted => exact before
  | skipped => exact before
  | done => exact before
  | failed => exact before.andThen_failed _
  | interrupted _ _ _ performs =>
    obtain ⟨earlier, position, later, _, _, same, _⟩ := performs.raised rfl
    refine absurd ?_ (calm target.name position)
    simp [same]

/-- The first failure is the one that counts. -/
theorem next_of_failed {fault : Fault}
    (turn : Turn perform tell project keepGoing g (.failed fault) target w status next steps
      after) :
    next = .failed fault ∨ next = .stopped .interrupted := by
  cases turn with
  | interrupted => exact .inr rfl
  | _ => exact .inl rfl

/-- A turn after which the run has a fault is that of a target that failed, and the fault tells of
what was performed there. -/
theorem next_of_completed
    (turn : Turn perform tell project keepGoing g .completed target w status next steps after) :
    (next = .completed ∧ status.state ≠ .failed) ∨
      (∃ task cause, status.state = .failed ∧
        next = .failed (.build target.name (some task) cause) ∧
        Raised perform tell project w steps target.name task cause) ∨
      next = .stopped .interrupted := by
  cases turn with
  | aborted => exact .inl ⟨rfl, nofun⟩
  | skipped => exact .inl ⟨rfl, nofun⟩
  | done => exact .inl ⟨rfl, nofun⟩
  | failed _ _ announced performs =>
    exact .inr (.inl ⟨_, _, rfl, rfl, .later (.single announced) ((performs.raised rfl).further _)⟩)
  | interrupted => exact .inr (.inr rfl)

end Turn

private theorem settle_run {target : String} (quiet : NeverFaults tell)
    (unsettled : (g.statusOf target).state.isFinal = false) (status : TargetStatus)
    (outcome : Standing) (w : World φ) :
    ∃ after, (tell (.afterTarget target status)).run w = (.ok (), after) ∧
      (settle tell g target status outcome).run w =
        (.ok (g.withStatus target status, outcome), after) := by
  obtain ⟨after, told⟩ := quiet.told (.afterTarget target status) w
  refine ⟨after, told, ?_⟩
  rw [settle, TargetGraph.changeStatus_open unsettled]
  simp only
  rw [run_bind_ok told]
  rfl

/-- A target that is not aborted is skipped, done or failed, or the run is interrupted. -/
private theorem runTarget_turn (quiet : NeverFaults tell)
    (unsettled : (g.statusOf target.name).state.isFinal = false)
    (free : g.obstacle? keepGoing outcome target.name = none) (w : World φ) :
    ∃ status latest next steps after, (runTarget perform tell project g target).run w =
        (.ok (g.withStatus target.name status, latest), after) ∧
      outcome.andThen latest = next ∧
      Turn perform tell project keepGoing g outcome target w status next steps after := by
  rw [runTarget, run_bind_ok (run_project project w)]
  cases guard : (w.project project).guard? target with
  | some reason =>
    obtain ⟨after, told, settled⟩ := settle_run quiet unsettled ⟨.skipped, some reason⟩ .completed w
    exact ⟨_, _, _, _, after, settled, Standing.andThen_completed outcome,
      .skipped free guard told⟩
  | none =>
    simp only [TargetGraph.start_open unsettled]
    obtain ⟨w₁, announced⟩ := quiet.told (.beforeTarget target.name) w
    obtain ⟨steps, result, w₂, run, performs⟩ := performIn_performs perform project target.name
      quiet (List.range (w₁.invocationCount project target.name)) w₁
    rw [run_bind_ok announced, run_bind_ok (run_positions project target.name w₁), run_bind_ok run]
    have running : ((g.withStatus target.name ⟨.running, none⟩).statusOf target.name).state.isFinal
        = false := by
      rw [TargetGraph.statusOf_withStatus_self]
      rfl
    rcases result with none | ⟨task, fault⟩
    · obtain ⟨after, told, settled⟩ := settle_run quiet running ⟨.done, none⟩ .completed w₂
      rw [TargetGraph.withStatus_withStatus] at settled
      exact ⟨_, _, _, _, after, settled, Standing.andThen_completed outcome,
        .done free guard announced performs told⟩
    · by_cases interrupted : fault = .interrupted
      · subst interrupted
        exact ⟨_, _, _, _, w₂, rfl, Standing.andThen_stopped outcome _,
          .interrupted free guard announced performs⟩
      · obtain ⟨after, told, settled⟩ := settle_run quiet running
          ⟨.failed, some (failureText fault)⟩ (.failed (.build target.name (some task) fault)) w₂
        rw [TargetGraph.withStatus_withStatus] at settled
        refine ⟨_, _, _, _, after, ?_, rfl, .failed free guard announced performs interrupted told⟩
        split
        · contradiction
        · rename_i same
          cases same
          exact absurd rfl interrupted
        · rename_i same
          cases same
          exact settled

/-- Whoever takes a turn without having come to an end is given a status, and nothing else becomes
of anyone. -/
theorem takeTurn_turn (perform : Performer φ) (project : ProjectId) (keepGoing : Bool)
    (outcome : Standing) (quiet : NeverFaults tell)
    (unsettled : (g.statusOf target.name).state.isFinal = false) (w : World φ) :
    ∃ status next steps after, (takeTurn perform tell project keepGoing g outcome target).run w =
        (.ok (g.withStatus target.name status, next), after) ∧
      Turn perform tell project keepGoing g outcome target w status next steps after := by
  rw [takeTurn]
  cases free : g.obstacle? keepGoing outcome target.name with
  | some reason =>
    obtain ⟨after, told, settled⟩ := settle_run quiet unsettled ⟨.aborted, some reason⟩ outcome w
    exact ⟨_, _, _, after, settled, .aborted free told⟩
  | none =>
    obtain ⟨status, latest, next, steps, after, run, same, turn⟩ :=
      runTarget_turn quiet unsettled free w
    refine ⟨status, next, steps, after, ?_, turn⟩
    simp only
    rw [run_bind_ok run, run_pure, same]

end Engine
end BuildEngine
