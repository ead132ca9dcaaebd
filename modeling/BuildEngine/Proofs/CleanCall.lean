import BuildEngine.Proofs.Calling
import BuildEngine.Proofs.Tolerance

/-! Calls that return. What a call runs on behalf of its project halts on failures, so a call that
ends without a fault tells that no task in it reported one: neither a task outside of all targets,
nor one in a target, nor one in a call that it leads to. -/

namespace BuildEngine

open Engine Relation

variable {φ : Type}

/-- An object whose work it is to call a target. -/
def World.IsCall (w : World φ) (id : ObjectId) : Prop :=
  ∃ k, w.kinds.performer? (w.kindOf id) = some k ∧ k.id = .standard .call

namespace Engine

variable [FileSystem φ] {caller : Caller φ} {w before after : World φ} {place : Position}
variable {parent : ProjectId} {i : Inheritance} {goals : List String}

/-- A position is performed from a world on when a build runs on behalf of a project: outside of all
targets while the build description is loaded, or in a target whose turn has come. -/
inductive Begins (caller : Caller φ) (parent : ProjectId) (i : Inheritance) (goals : List String)
    (w : World φ) : Position → World φ → Prop
  | loading {e : Element} {declared before : World φ} {index : Nat}
      (source : (w.project parent).source = some e)
      (adopted : (adopt w.projects.length e).run
        ((addProject (i.heir parent (w.project parent))).run w).2 = (.ok (), declared))
      (next : IsNext (performInvocation caller) declared ⟨w.projects.length, "", index⟩ before) :
      Begins caller parent i goals w ⟨w.projects.length, "", index⟩ before
  | running {child : ProjectId} {derived turn before : World φ} {g reached running : TargetGraph}
      {earlier later : List Target} {t : Target} {standing : Standing} {index : Nat}
      (derives : (derive caller parent i).run w = (.ok child, derived))
      (trims : (TargetGraph.ofTargets (derived.project child).targets).trim
        (derived.project child).targets goals = .ok g)
      (order : g.executionOrder (derived.project child).targets = .ok (earlier ++ t :: later))
      (former : (runTargets (performInvocation caller) silent child
        (derived.keepGoing && !(derived.project child).haltOnFailure) earlier g .completed).run
          derived = (.ok (reached, standing), turn))
      (goesOn : standing.GoesOn)
      (free : reached.obstacle? (derived.keepGoing && !(derived.project child).haltOnFailure)
        standing t.name = none)
      (unguarded : (turn.project child).guard? t = none)
      (starts : reached.start t.name = .ok running)
      (next : IsNext (performInvocation caller) turn ⟨child, t.name, index⟩ before) :
      Begins caller parent i goals w ⟨child, t.name, index⟩ before

/-- A position is performed from a world on in a call, or in one that it leads to; the depth is that
to which its task may call. -/
inductive BeginsWithin : Nat → ObjectId → World φ → Nat → Position → World φ → Prop
  | own {depth : Nat} {id : ObjectId} {w before : World φ} {goal : String} {i : Inheritance}
      {place : Position} (asks : w.Asks id goal i)
      (begins : Begins (callWithin depth) (w.object id).project i [goal] (w.calling id goal) place
        before) : BeginsWithin (depth + 1) id w depth place before
  | nested {depth d : Nat} {id task : ObjectId} {w before at_ final : World φ} {goal : String}
      {i : Inheritance} {place inner : Position} (asks : w.Asks id goal i)
      (begins : Begins (callWithin depth) (w.object id).project i [goal] (w.calling id goal) place
        before)
      (prepared : (prepareInvocation place.project place.target place.index).run before =
        (.ok (some task), at_))
      (calls : at_.IsCall task) (within : BeginsWithin depth task at_ d inner final) :
      BeginsWithin (depth + 1) id w d inner final

/-- A position is performed without a fault, and if a task stands there it reports none: its work
ends without a fault and not as failed, and nothing in it is left to the failure policy, since it
would be the same under any. -/
def Clean (caller : Caller φ) (place : Position) (before : World φ) : Prop :=
  ∃ outcome after,
    (performInvocation caller place.project place.target place.index).run before =
      (.ok outcome, after) ∧
    ∀ task at_, (prepareInvocation place.project place.target place.index).run before =
        (.ok (some task), at_) →
      ∃ status, (work caller task).run at_ = (.ok status, after) ∧
        (∀ s, status = some s → s.type ≠ .failed) ∧
        ∀ leave, (workBy leave caller task).run at_ = (.ok status, after)

/-- A task that is performed without a fault does its work without one, and does not fail. -/
theorem work_of_performTask {task : ObjectId} {completion : Completion}
    (performed : (performTask caller task).run w = (.ok completion, after)) :
    ∃ status, (work caller task).run w = (.ok status, after) ∧
      ∀ s, status = some s → s.type ≠ .failed := by
  rw [performTask, run_bind_ok (run_attempt _ w)] at performed
  rcases ran : (work caller task).run w with ⟨fault | status, mid⟩
  · rw [ran] at performed
    cases fault with
    | empty owner field text =>
      simp only at performed
      rw [run_bind_ok (run_observe _ mid)] at performed
      split at performed
      · cases performed
      · cases performed
    | _ => cases performed
  · rw [ran] at performed
    cases status with
    | none =>
      cases performed
      exact ⟨none, rfl, nofun⟩
    | some status =>
      simp only at performed
      split at performed
      · cases performed
      · next good =>
        cases performed
        exact ⟨some status, rfl, by rintro _ ⟨⟩; exact good⟩

end Engine

namespace Mark

theorem halting_now (w : World φ) : (now w).Halting w where
  halts _ below above := absurd below (Nat.not_lt_of_le above)
  held project unmade id holds := by
    rw [World.project_unmade unmade] at holds
    exact absurd holds (Project.not_holds_new rfl rfl id)

end Mark

namespace Engine

variable [FileSystem φ] {caller : Caller φ} {w before after : World φ} {place : Position}
variable {parent : ProjectId} {i : Inheritance} {goals : List String}

/-- What begins on behalf of a project begins in a project that was made for it, after steps on its
behalf. -/
theorem Begins.reaches (calls : (Mark.now w).CallsTake (Mark.now w).Delegates caller)
    (begins : Begins caller parent i goals w place before) :
    place.project = w.projects.length ∧ w.projects.length < before.projects.length ∧
      ReflTransGen (Mark.now w).Delegates w before := by
  have start := Mark.sealed_now w
  have later : (Mark.now w).projects ≤ w.projects.length := Nat.le_refl _
  have performs := Mark.performsConfined_performInvocation calls
  have listens : (Mark.now w).ListensTake (φ := φ) (Mark.now w).Delegates silent :=
    Mark.listensConfined_silent _
  generalize made : (addProject (i.heir parent (w.project parent))).run w = new
  obtain ⟨result, added⟩ := new
  have adds : ReflTransGen (Mark.now w).Delegates w added :=
    (Mark.confined_addProject rfl (Project.not_holds_new rfl rfl)).onward start .refl made
  have present : w.projects.length < added.projects.length := by
    rw [run_addProject] at made
    cases made
    simp
  have start := (Mark.Reaches.ofSteps adds).isSealed start
  suffices more : place.project = w.projects.length ∧
      ReflTransGen (Mark.now w).Delegates added before from
    ⟨more.1, Nat.lt_of_lt_of_le present (Mark.Reaches.ofSteps (m := Mark.now w) more.2).projects_le,
      adds.trans more.2⟩
  cases begins with
  | @loading e declared _ index source adopted next =>
    rw [made] at adopted
    have declares : ReflTransGen (Mark.now w).Delegates added declared :=
      (Mark.confined_adopt later e).onward start .refl adopted
    exact ⟨rfl, (Mark.confined_performIn performs listens later "" _).onward start declares next.2⟩
  | @running child derived turn _ g reached running earlier rest t standing index derives trims
      order former goesOn free unguarded starts next =>
    obtain ⟨rfl, e, source, furnished⟩ := furnish_of_derive derives
    rw [made] at furnished
    have furnishes : ReflTransGen (Mark.now w).Delegates added derived :=
      (Mark.confined_furnish calls parent later e i).onward start .refl furnished
    have runs := (Mark.confined_runTargets performs listens later _ earlier g _).onward start
      furnishes former
    exact ⟨rfl, (Mark.confined_performIn performs listens later _ _).onward start runs next.2⟩

/-- What is performed without a fault in a project that halts on failures is performed cleanly. -/
theorem clean_of_performed {m : Mark} (start : m.Sealed before) (halting : m.Halting before)
    (later : m.projects ≤ place.project) (present : place.project < before.projects.length)
    {outcome : Option Completion}
    (performed : (performInvocation caller place.project place.target place.index).run before =
      (.ok outcome, after)) : Clean caller place before := by
  refine ⟨outcome, after, performed, fun task at_ prepared => ?_⟩
  have takes : m.Takes m.Delegates before _ _ :=
    Mark.confined_prepareInvocation later place.target place.index
  obtain ⟨steps, holds⟩ := takes start
  rw [prepared] at steps holds
  have reaches := Mark.Reaches.ofSteps (m := m) steps
  have made : at_.MadeFor task place.project := by
    obtain ⟨_, held | made⟩ := holds _ rfl task rfl
    · exact reaches.madeFor (halting.held place.project later task held)
    · exact made
  have strict : at_.Strict task :=
    (halting.later steps).strict later (Nat.lt_of_lt_of_le present reaches.projects_le) made
  unfold performInvocation at performed
  rw [run_bind_ok prepared] at performed
  simp only [run_map, Prod.mk.injEq] at performed
  rcases ended : (performTask caller task).run at_ with ⟨fault | completion, final⟩
  · rw [ended] at performed
    cases performed.1
  · rw [ended] at performed
    obtain ⟨_, rfl⟩ := performed
    obtain ⟨status, ran, good⟩ := work_of_performTask ended
    exact ⟨status, ran, good, fun leave => follows_work leave caller strict _ _ ran⟩

/-- Whatever begins in a run on behalf of a project that ends without a fault is clean. -/
theorem subBuild_clean (calls : (Mark.now w).CallsTake (Mark.now w).Delegates caller) {a : Unit}
    (returned : (subBuild caller silent parent i goals).run w = (.ok a, after))
    (begins : Begins caller parent i goals w place before) : Clean caller place before := by
  obtain ⟨home, present, steps⟩ := begins.reaches calls
  have start := (Mark.Reaches.ofSteps steps).isSealed (Mark.sealed_now w)
  have halting := (Mark.halting_now w).later steps
  have later : (Mark.now w).projects ≤ place.project := Nat.le_of_eq home.symm
  rw [← home] at present
  suffices performed : ∃ outcome next, (performInvocation caller place.project place.target
      place.index).run before = (.ok outcome, next) by
    obtain ⟨outcome, next, performed⟩ := performed
    exact clean_of_performed start halting later present performed
  rcases derived : (derive caller parent i).run w with ⟨fault | child, derived⟩
  · rw [subBuild, run_bind_error derived] at returned
    cases returned
  rw [subBuild, run_bind_ok derived] at returned
  cases begins with
  | @loading e declared _ index source adopted next =>
    obtain ⟨rfl, e', source', furnished⟩ := furnish_of_derive derived
    cases source.symm.trans source'
    rw [furnish] at furnished
    rcases loaded : (load caller w.projects.length e).run
      ((addProject (i.heir parent (w.project parent))).run w).2 with ⟨fault | _, mid⟩
    · rw [run_bind_error loaded] at furnished
      cases furnished
    · obtain ⟨_, performs⟩ := load_complete loaded adopted
      exact performIn_complete performs next.1 next.2
  | @running child' derived' turn _ g reached running earlier rest t standing index derives trims
      order former goesOn free unguarded starts next =>
    rw [derived] at derives
    cases derives
    obtain ⟨final, mid, complete⟩ := executeBy_complete returned trims order
    obtain ⟨_, performs⟩ := runTargets_performs complete former goesOn free unguarded
    exact performIn_complete performs next.1 next.2

/-- The work of a call is to call. -/
theorem run_work_of_isCall {task : ObjectId} (calls : w.IsCall task) :
    (work caller task).run w = ((caller task >>= fun _ => pure none : Engine φ _)).run w := by
  obtain ⟨k, found, call⟩ := calls
  rw [work, workBy, run_bind_ok (run_observe _ w), found]
  simp only [call]

theorem clean_of_returned {depth : Nat} {id : ObjectId} {goal : String} {a : Unit}
    (returned : (callWithin (depth + 1) id).run w = (.ok a, after)) (asks : w.Asks id goal i)
    (begins : Begins (callWithin depth) (w.object id).project i [goal] (w.calling id goal) place
      before) : Clean (callWithin depth) place before :=
  subBuild_clean (fun _ id _ => Mark.confined_callWithin depth id)
    (subBuild_of_callTarget asks returned) begins

/-- A call that returns tells that nothing in it reported an error, however deep the calls lead that
it consists of: all that began in it, outside of all targets or in one, ended without a fault; and
each task among that worked without a fault, did not fail, and left nothing to its failure policy.
That is so whatever policies say and whether the build keeps going. -/
theorem callWithin_clean {depth : Nat} {id : ObjectId} {a : Unit}
    (returned : (callWithin depth id).run w = (.ok a, after)) {d : Nat}
    (begins : BeginsWithin depth id w d place before) : Clean (callWithin d) place before := by
  induction begins generalizing a after with
  | own asks begins => exact clean_of_returned returned asks begins
  | @nested depth _ _ task _ _ at_ _ _ _ _ _ asks begins prepared calls within ih =>
    obtain ⟨_, _, _, clean⟩ := clean_of_returned returned asks begins
    obtain ⟨status, worked, _⟩ := clean task at_ prepared
    rw [run_work_of_isCall calls] at worked
    rcases called : (callWithin depth task).run at_ with ⟨fault | _, final⟩
    · rw [run_bind_error called] at worked
      cases worked
    · exact ih called

theorem callWithin_clean_sample :
    let w := Sample.callerOf Sample.description
    let called := w.calling 0 "all"
    let begun := (addProject (({ } : Inheritance).heir 0 (called.project 0))).run called
    Clean (callWithin 0) ⟨called.projects.length, "", 0⟩
      ((adopt called.projects.length Sample.description).run begun.2).2 := by
  intro w called begun
  have asks : w.Asks 0 "all" {} := ⟨rfl, by decide +kernel, by rfl, by rfl⟩
  have home : (w.object 0).project = 0 := rfl
  have returned : ((callWithin 1 0).run w).1.toOption = some () := by
    have derived : ((derive (callWithin 0) 0 {}).run called).1.toOption = some 1 := by
      decide +kernel
    generalize made : ((derive (callWithin 0) 0 {}).run called).2 = child
    have trims : (TargetGraph.ofTargets (child.project 1).targets).trim (child.project 1).targets
        ["all"] = .ok _ :=
      TargetGraph.trim_of_independent (by subst made; decide +kernel)
    rw [callWithin, run_callTarget asks, subBuild, home, run_bind_ok (run_of_toOption derived),
      made, execute, executeBy_of_ok trims]
    subst made
    decide +kernel
  have adopted : ((adopt called.projects.length Sample.description).run begun.2).1.toOption =
      some () := by decide +kernel
  have begins : Begins (callWithin 0) 0 {} ["all"] called ⟨called.projects.length, "", 0⟩ _ :=
    .loading rfl (run_of_toOption adopted) ⟨by decide +kernel, rfl⟩
  rw [← home] at begins
  exact callWithin_clean (run_of_toOption returned) (.own asks begins)

end Engine
end BuildEngine
