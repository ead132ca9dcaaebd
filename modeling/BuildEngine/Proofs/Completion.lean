import BuildEngine.Proofs.Outcome

/-! Runs that completed, seen from inside: whatever is performed in the course of a run that ends
without a fault ends without a fault itself. Nobody listens to these runs. -/

namespace BuildEngine

theorem Standing.completed_of_andThen {earlier latest : Standing}
    (completed : earlier.andThen latest = .completed) :
    earlier = .completed ∧ latest = .completed := by
  cases earlier <;> cases latest <;> simp_all [andThen]

/-- Where something is performed: a project, a target of it, and what stands there. -/
structure Position where
  project : ProjectId
  target : String
  index : Nat

namespace Engine

variable {φ : Type} {perform : Performer φ} {project : ProjectId} {target : String}
variable {keepGoing : Bool} {w mid after : World φ}

/-- Nobody is told. -/
abbrev silent : Audience φ := fun _ => return ()

/-- What goes well at first leaves the rest to be performed; after a fault nothing is. -/
theorem run_performIn_append {first rest : List Nat} {result : Option (String × Fault)}
    (former : (performIn perform silent project target first).run w = (.ok result, mid)) :
    (performIn perform silent project target (first ++ rest)).run w =
      result.elim ((performIn perform silent project target rest).run mid) fun broken =>
        (.ok (some broken), mid) := by
  induction first generalizing w with
  | nil =>
    cases former
    rfl
  | cons position later ih =>
    rw [performIn, run_bind_ok (run_observe _ w), run_bind_ok (run_pure () w),
      run_bind_ok (run_attempt _ w)] at former
    rw [List.cons_append, performIn, run_bind_ok (run_observe _ w), run_bind_ok (run_pure () w),
      run_bind_ok (run_attempt _ w)]
    rcases ended : (perform project target position).run w with ⟨fault | none | completion, w₁⟩
    · rw [ended] at former
      cases former
      rfl
    · rw [ended] at former
      exact ih former
    · rw [ended] at former
      exact ih former

/-- If all that stands in a target is performed without a fault, each of it is. -/
theorem performIn_complete {count position : Nat} {before : World φ}
    (complete : (performIn perform silent project target (List.range count)).run w =
      (.ok none, after))
    (below : position < count)
    (former : (performIn perform silent project target (List.range position)).run w =
      (.ok none, before)) :
    ∃ outcome next, (perform project target position).run before = (.ok outcome, next) := by
  obtain ⟨more, rfl⟩ := Nat.exists_eq_add_of_lt below
  have split : List.range (position + more + 1) = List.range position ++
      position :: (List.range more).map (position + 1 + ·) := by
    rw [show position + more + 1 = position + 1 + more by omega, List.range_add, List.range_succ,
      List.append_assoc]
    rfl
  rw [split, run_performIn_append former, Option.elim_none, performIn,
    run_bind_ok (run_observe _ before),
    run_bind_ok (run_pure () before), run_bind_ok (run_attempt _ before)] at complete
  rcases ended : (perform project target position).run before with ⟨fault | outcome, next⟩
  · rw [ended] at complete
    cases complete
  · exact ⟨outcome, next, rfl⟩

/-- All that stands before a position of a target was performed without a fault, so that the
position is next. -/
def IsNext (perform : Performer φ) (w : World φ) (place : Position) (before : World φ) : Prop :=
  place.index < w.invocationCount place.project place.target ∧
    (performIn perform silent place.project place.target (List.range place.index)).run w =
      (.ok none, before)

/-- If not all that stands in a target is performed without a fault, there is a first position at
which it is not. -/
theorem performIn_broken {task : String} {fault : Fault} {count : Nat}
    (ended : (performIn perform silent project target (List.range count)).run w =
      (.ok (some (task, fault)), after)) :
    ∃ index before, index < count ∧
      (performIn perform silent project target (List.range index)).run w = (.ok none, before) ∧
      (perform project target index).run before = (.error fault, after) := by
  induction count with
  | zero => cases ended
  | succ count ih =>
    have quiet : NeverFaults (φ := φ) silent := fun _ _ => rfl
    obtain ⟨_, result, before, former, _⟩ :=
      performIn_performs perform project target quiet (List.range count) w
    rw [List.range_succ, run_performIn_append former] at ended
    rcases result with none | broken
    · rw [Option.elim_none, performIn, run_bind_ok (run_observe _ before),
        run_bind_ok (run_pure () before), run_bind_ok (run_attempt _ before)] at ended
      refine ⟨count, before, Nat.lt_succ_self count, former, ?_⟩
      rcases last : (perform project target count).run before with ⟨cause | none | completion, next⟩
      · rw [last] at ended
        cases ended
        rfl
      · rw [last] at ended
        cases ended
      · rw [last] at ended
        cases ended
    · cases ended
      obtain ⟨index, earlier, below, first, found⟩ := ih former
      exact ⟨index, earlier, Nat.lt_succ_of_lt below, first, found⟩

variable {g reached final : TargetGraph} {outcome standing : Standing} {t : Target}
variable {members earlier later : List Target}

theorem settle_complete {name : String} {status : TargetStatus}
    (complete : (settle silent g name status outcome).run w = (.ok (reached, .completed), after)) :
    outcome = .completed := by
  unfold settle at complete
  split at complete
  · cases complete
  · rw [run_bind_ok (run_pure () w)] at complete
    cases complete
    rfl

/-- A target that ran without a failure had all performed that stands in it. -/
theorem runTarget_complete
    (complete : (runTarget perform silent project g t).run w = (.ok (reached, .completed), after))
    (unguarded : (w.project project).guard? t = none) :
    ∃ next, (performIn perform silent project t.name
      (List.range (w.invocationCount project t.name))).run w = (.ok none, next) := by
  rw [runTarget, run_bind_ok (run_project project w), unguarded] at complete
  cases started : g.start t.name with
  | error fault =>
    rw [started] at complete
    cases complete
  | ok running =>
    have quiet : NeverFaults (φ := φ) silent := fun _ _ => rfl
    obtain ⟨_, result, next, ran, _⟩ := performIn_performs perform project t.name quiet
      (List.range (w.invocationCount project t.name)) w
    rw [started] at complete
    simp only at complete
    rw [run_bind_ok (run_pure () w), run_bind_ok (run_positions project t.name w),
      run_bind_ok ran] at complete
    rcases result with none | ⟨task, fault⟩
    · exact ⟨next, ran⟩
    · split at complete
      · contradiction
      · cases complete
      · cases settle_complete complete

theorem takeTurn_complete
    (complete : (takeTurn perform silent project keepGoing g outcome t).run w =
      (.ok (reached, .completed), after)) :
    outcome = .completed ∧ (g.obstacle? keepGoing outcome t.name = none →
      (runTarget perform silent project g t).run w = (.ok (reached, .completed), after)) := by
  unfold takeTurn at complete
  split at complete
  · next blocked => exact ⟨settle_complete complete, by simp [blocked]⟩
  · rcases ran : (runTarget perform silent project g t).run w with ⟨fault | ⟨g', latest⟩, mid⟩
    · rw [run_bind_error ran] at complete
      cases complete
    · rw [run_bind_ok ran, run_pure] at complete
      simp only [Prod.mk.injEq, Except.ok.injEq] at complete
      obtain ⟨⟨rfl, same⟩, rfl⟩ := complete
      obtain ⟨rfl, rfl⟩ := Standing.completed_of_andThen same
      exact ⟨rfl, fun _ => rfl⟩

theorem runTargets_complete
    (complete : (runTargets perform silent project keepGoing members g outcome).run w =
      (.ok (final, .completed), after)) : outcome = .completed := by
  induction members generalizing g outcome w with
  | nil =>
    cases complete
    rfl
  | cons target rest ih =>
    rw [runTargets] at complete
    rcases ran : (takeTurn perform silent project keepGoing g outcome target).run w
      with ⟨fault | ⟨g', next⟩, mid⟩
    · rw [run_bind_error ran] at complete
      cases complete
    · rw [run_bind_ok ran] at complete
      split at complete
      · cases complete
      · next same =>
        cases same
        rw [ih complete] at ran
        exact (takeTurn_complete ran).1

theorem run_runTargets_append
    (former : (runTargets perform silent project keepGoing earlier g outcome).run w =
      (.ok (reached, standing), mid)) (goesOn : standing.GoesOn) :
    (runTargets perform silent project keepGoing (earlier ++ later) g outcome).run w =
      (runTargets perform silent project keepGoing later reached standing).run mid := by
  induction earlier generalizing g outcome w with
  | nil =>
    cases former
    rfl
  | cons target rest ih =>
    rw [runTargets] at former
    rw [List.cons_append, runTargets]
    rcases ran : (takeTurn perform silent project keepGoing g outcome target).run w
      with ⟨fault | ⟨g', next⟩, next_world⟩
    · rw [run_bind_error ran] at former
      cases former
    · rw [run_bind_ok ran] at former ⊢
      split at former
      · cases former
        exact goesOn.elim
      · next same =>
        cases same
        exact ih former

/-- If a run of targets completes, all is performed that stands in a target whose turn comes. -/
theorem runTargets_performs
    (complete : (runTargets perform silent project keepGoing (earlier ++ t :: later) g outcome).run
      w = (.ok (final, .completed), after))
    (former : (runTargets perform silent project keepGoing earlier g outcome).run w =
      (.ok (reached, standing), mid)) (goesOn : standing.GoesOn)
    (free : reached.obstacle? keepGoing standing t.name = none)
    (unguarded : (mid.project project).guard? t = none) :
    ∃ next, (performIn perform silent project t.name
      (List.range (mid.invocationCount project t.name))).run mid = (.ok none, next) := by
  rw [run_runTargets_append former goesOn, runTargets] at complete
  rcases ran : (takeTurn perform silent project keepGoing reached standing t).run mid
    with ⟨fault | ⟨g', next⟩, mid'⟩
  · rw [run_bind_error ran] at complete
    cases complete
  · rw [run_bind_ok ran] at complete
    split at complete
    · cases complete
    · next same =>
      cases same
      rw [runTargets_complete complete] at ran
      exact runTarget_complete ((takeTurn_complete ran).2 free) unguarded

theorem run_conduct {ts : Targets} (order : g.executionOrder ts = .ok members) :
    (conduct perform silent project keepGoing ts g).run w =
      (runTargets perform silent project keepGoing members g .completed).run w := by
  rw [conduct, run_bind_ok (run_project project w), run_bind_ok (run_pure () w), order]
  simp only
  rcases ran : (runTargets perform silent project keepGoing members g .completed).run w
    with ⟨fault | ⟨final, last⟩, mid⟩
  · rw [run_bind_error ran]
  · rw [run_bind_ok ran]
    rfl

/-- A run of goals that ends without a fault let the targets that they need take their turns, and
none of them failed. -/
theorem executeBy_complete {goals : List String} {a : Unit}
    (complete : (executeBy perform silent project goals).run w = (.ok a, after))
    (success : (TargetGraph.ofTargets (w.project project).targets).trim (w.project project).targets
      goals = .ok g)
    (order : g.executionOrder (w.project project).targets = .ok members) :
    ∃ final mid, (runTargets perform silent project
      (w.keepGoing && !(w.project project).haltOnFailure) members g .completed).run w =
        (.ok (final, .completed), mid) := by
  rw [executeBy_of_ok success, runGraph] at complete
  rcases ran : (conduct perform silent project (w.keepGoing && !(w.project project).haltOnFailure)
    (w.project project).targets g).run w with ⟨fault | ⟨final, last⟩, mid⟩
  · rw [run_bind_error ran] at complete
    cases complete
  · rw [run_bind_ok ran] at complete
    rw [run_conduct order] at ran
    cases last with
    | completed => exact ⟨final, mid, ran⟩
    | failed => cases complete
    | stopped => cases complete

/-- A build description that was loaded had all performed that stands outside of its targets. -/
theorem load_complete [FileSystem φ] {caller : Caller φ} {e : Element} {a : Unit}
    (complete : (load caller project e).run w = (.ok a, after))
    (adopted : (adopt project e).run w = (.ok (), mid)) :
    ∃ next, (performIn (performInvocation caller) silent project ""
      (List.range (mid.invocationCount project ""))).run mid = (.ok none, next) := by
  rw [load, run_bind_ok adopted, run_bind_ok (run_positions project "" mid)] at complete
  have quiet : NeverFaults (φ := φ) silent := fun _ _ => rfl
  obtain ⟨_, result, next, ran, _⟩ := performIn_performs (performInvocation caller) project ""
    quiet (List.range (mid.invocationCount project "")) mid
  rw [run_bind_ok ran] at complete
  rcases result with none | ⟨task, fault⟩
  · exact ⟨next, ran⟩
  · cases complete

end Engine
end BuildEngine
