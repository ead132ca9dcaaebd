import BuildEngine.Proofs.Calling
import BuildEngine.Proofs.TaskEnding

/-! Faults that escape. What runs in a target ends with faults of the build only, for the run wraps
all others; but what stands outside of all targets is performed while a build description is loaded,
and nothing wraps the faults with which that ends. -/

namespace BuildEngine

open Engine BuildEngine.Text

variable {φ : Type}

theorem Fault.isBuildFault_of_isConfiguration (fault : Fault)
    (sort : fault.isConfiguration = true) : fault.isBuildFault = true := by
  cases fault <;> first | rfl | cases sort

/-- Faults that are none of a build's escape. -/
theorem Fault.escapes_of_endsWork {fault : Fault}
    (may : (fault.isBuildFault || fault.endsWork) = true) (other : ¬ fault.isBuildFault = true) :
    fault.escapes = true := by
  cases fault <;> first | rfl | exact absurd rfl other | cases may

/-- A complaint about targets that cannot be ordered is one about the build description. -/
theorem TargetGraph.Justified.isConfiguration {ts : Targets} {g : TargetGraph} {goals : List String}
    {error : GraphError} (justified : Justified g ts goals error) (project : String) :
    (error.fault project).isConfiguration = true := by
  cases error with
  | absent => exact justified.elim
  | _ => rfl

namespace Engine

variable {perform : Performer φ} {tell : Audience φ} {project : ProjectId} {goals : List String}
variable {w after : World φ} {fault : Fault}

/-- Running targets ends with a fault of the build, unless it is interrupted. -/
theorem executeBy_fault (quiet : NeverFaults tell)
    (ended : (executeBy perform tell project goals).run w = (.error fault, after)) :
    fault.isBuildFault = true ∨ fault = .interrupted := by
  cases ordering : (TargetGraph.ofTargets (w.project project).targets).trim
      (w.project project).targets goals with
  | error error =>
    have justified := TargetGraph.justified_of_trim (TargetGraph.covers_ofTargets _) ordering
    have configuration := justified.isConfiguration (w.project project).name
    rw [executeBy_of_error ordering] at ended
    cases ended
    exact .inl (Fault.isBuildFault_of_isConfiguration _ configuration)
  | ok g =>
    obtain ⟨members, ready⟩ := ready_of_trim ordering
    obtain ⟨_, final, last, _, _, _, _, course, _, run⟩ := conduct_course perform project
      (w.keepGoing && !(w.project project).haltOnFailure) quiet ready w
    have tells := course.tells ready.distinct
    rw [executeBy_of_ok ordering, runGraph_run run] at ended
    cases last with
    | completed => cases ended
    | failed =>
      cases ended
      obtain ⟨_, _, _, _, rfl, _⟩ := tells
      exact .inl rfl
    | stopped =>
      cases ended
      exact .inr tells

end Engine

/-! Loading. -/

theorem Target.admissible_ofElement (e : Element) :
    Admissible Fault.isConfiguration (Target.ofElement e) := by
  unfold ofElement
  split
  · rfl
  · extract_lets name
    split
    · rfl
    · trivial

theorem Project.admissible_addElement (p : Project) (e : Element) :
    Admissible Fault.isConfiguration (p.addElement e) := by
  unfold addElement
  split
  · refine (Target.admissible_ofElement e).bind fun t _ => ?_
    unfold addTarget
    split
    · rfl
    · trivial
  · trivial
  · trivial

theorem Project.addElements_fault {p : Project} {es : List Element} {fault : Fault}
    (refused : (p.addElements es).2 = some fault) : fault.isConfiguration = true := by
  induction es generalizing p with
  | nil => cases refused
  | cons e rest ih =>
    have admissible := p.admissible_addElement e
    rw [addElements] at refused
    cases added : p.addElement e with
    | ok more =>
      rw [added] at refused
      exact ih refused
    | error cause =>
      rw [added] at refused admissible
      cases refused
      exact admissible

namespace Engine

theorem ends_adopt (project : ProjectId) (e : Element) :
    Ends Fault.isConfiguration (adopt (φ := φ) project e) := by
  unfold adopt
  extract_lets declare
  split
  · exact .refuse rfl
  unfold declare
  refine .bind (.observe _) fun p _ => ?_
  generalize added : (p.describedBy e).addElements e.children = result
  obtain ⟨declared, fault⟩ := result
  refine .bind (ends_changeProject project _) fun _ _ => ?_
  cases fault with
  | none => exact .pure trivial
  | some fault => exact .throw (Project.addElements_fault (congrArg Prod.snd added))

theorem ends_instantiateTargets (project : ProjectId) :
    Ends Fault.endsMaking (instantiateTargets (φ := φ) project) := by
  unfold instantiateTargets
  refine .bind (.observe _) fun p _ => ?_
  refine .bind (.forIn _ _ fun target _ => ?_) fun _ _ => .pure trivial
  refine .bind (.observe _) fun positions _ => ?_
  refine .bind (.forIn _ _ fun index _ => ?_) fun _ _ => .pure trivial
  exact .bind (ends_instantiateInvocation project target index) fun _ _ => .pure trivial

section Load

variable [FileSystem φ] {caller : Caller φ} {project : ProjectId} {e : Element}
variable {w after : World φ} {fault : Fault}

/-- How loading a build description ends with a fault. What it declares is wrong; or what stands
outside of all targets is performed, up to something that ends with a fault; or all of that went
well, and something in a target cannot be made. -/
inductive LoadingFails (caller : Caller φ) (project : ProjectId) (e : Element) (w : World φ)
    (fault : Fault) : Prop
  | declaring {after : World φ} (refused : (adopt project e).run w = (.error fault, after))
      (sort : fault.isConfiguration = true)
  | performing {declared before after : World φ} {index : Nat}
      (adopted : (adopt project e).run w = (.ok (), declared))
      (next : IsNext (performInvocation caller) declared ⟨project, "", index⟩ before)
      (ended : (performInvocation caller project "" index).run before = (.error fault, after))
  | making {declared before after : World φ}
      (adopted : (adopt project e).run w = (.ok (), declared))
      (performed : (performIn (performInvocation caller) silent project ""
        (List.range (declared.invocationCount project ""))).run declared = (.ok none, before))
      (ended : (instantiateTargets project).run before = (.error fault, after))
      (sort : fault.endsMaking = true)

theorem load_fails (ended : (load caller project e).run w = (.error fault, after)) :
    LoadingFails caller project e w fault := by
  rw [load] at ended
  rcases adopted : (adopt project e).run w with ⟨cause | _, declared⟩
  · have sort := (ends_adopt project e).admissible w
    rw [adopted] at sort
    rw [run_bind_error adopted] at ended
    cases ended
    exact .declaring adopted sort
  · rw [run_bind_ok adopted, run_bind_ok (run_positions project "" declared)] at ended
    have quiet : NeverFaults (φ := φ) silent := fun _ _ => rfl
    obtain ⟨_, result, before, ran, _⟩ := performIn_performs (performInvocation caller) project ""
      quiet (List.range (declared.invocationCount project "")) declared
    rw [run_bind_ok ran] at ended
    rcases result with none | ⟨task, cause⟩
    · have sort := (ends_instantiateTargets project).admissible before
      simp only at ended
      rw [ended] at sort
      exact .making adopted ran ended sort
    · cases ended
      obtain ⟨index, earlier, below, former, broken⟩ := performIn_broken ran
      exact .performing adopted ⟨below, former⟩ broken

end Load

/-! Calling. -/

theorem ends_handDown {may : Fault → Bool} (child : ProjectId)
    (entries : List (String × ObjectId)) : Ends may (handDown (φ := φ) child entries) := by
  induction entries with
  | nil => exact .pure trivial
  | cons entry rest ih =>
    obtain ⟨id, object⟩ := entry
    unfold handDown
    refine .bind (.observe _) fun p _ => ?_
    split
    · exact .bind (ends_register child id object) fun _ _ => ih
    · exact ih

theorem ends_forward (parent child : ProjectId) (entries : List (String × String)) :
    Ends Fault.isConfiguration (forward (φ := φ) parent child entries) := by
  induction entries with
  | nil => exact .pure trivial
  | cons entry rest ih =>
    unfold forward
    refine .bind (.observe _) fun p _ => ?_
    split
    · exact .throw rfl
    · exact .bind (ends_register child _ _) fun _ _ => ih

/-- Hands named objects down to a project that runs on behalf of another one. -/
def handOver (parent child : ProjectId) (i : Inheritance) : Engine φ Unit := do
  if i.allReferences then handDown child (← Engine.project parent).references.objects.entries
  forward parent child i.references

/-- Handing named objects down ends with a fault only if one of them is not there. -/
theorem ends_handOver (parent child : ProjectId) (i : Inheritance) :
    Ends Fault.isConfiguration (handOver (φ := φ) parent child i) := by
  unfold handOver
  split
  · exact .bind (.observe _) fun p _ => .bind (ends_handDown child _) fun _ _ =>
      ends_forward parent child _
  · exact ends_forward parent child _

theorem ends_overridesOf (params : List ObjectId) :
    Ends Fault.endsTask (overridesOf (φ := φ) params) := by
  induction params with
  | nil => exact .pure trivial
  | cons param rest ih =>
    exact .bind (ends_textOf param _) fun name _ => .bind (ends_textOf param _) fun value _ =>
      .bind ih fun _ _ => .pure trivial

theorem ends_forwardsOf (references : List ObjectId) :
    Ends Fault.endsTask (forwardsOf (φ := φ) references) := by
  induction references with
  | nil => exact .pure trivial
  | cons reference rest ih =>
    unfold forwardsOf
    refine .bind (ends_textOf reference _) fun id _ => ?_
    refine .bind (ends_isSet reference _) fun renamed _ => ?_
    split
    · exact .bind (ends_textOf reference _) fun name _ => .bind ih fun _ _ => .pure trivial
    · rw [pure_bind]
      exact .bind ih fun _ _ => .pure trivial

theorem ends_inheritanceOf (id : ObjectId) :
    Ends Fault.endsTask (inheritanceOf (φ := φ) id) :=
  .bind (.observe _) fun params _ => .bind (ends_overridesOf params) fun _ _ =>
    .bind (.observe _) fun forwards _ => .bind (ends_forwardsOf forwards) fun _ _ =>
      .bind (ends_flagOf id _) fun _ _ => .bind (ends_flagOf id _) fun _ _ => .pure trivial

section Call

variable [FileSystem φ] {caller : Caller φ} {w after : World φ} {fault : Fault}
variable {parent : ProjectId} {i : Inheritance} {goals : List String}

/-- The world in which a project was made that runs on behalf of another one, and nothing was loaded
into it. -/
def heirMade (w : World φ) (parent : ProjectId) (i : Inheritance) : World φ :=
  ((addProject (i.heir parent (w.project parent))).run w).2

/-- Making a project on behalf of another one ends with a fault of the build description, unless
loading it does not. -/
theorem derive_fails (ended : (derive caller parent i).run w = (.error fault, after)) :
    fault.isConfiguration = true ∨ ∃ e, (w.project parent).source = some e ∧
      LoadingFails caller w.projects.length e (heirMade w parent i) fault := by
  rw [derive, run_bind_ok (run_project parent w)] at ended
  cases source : (w.project parent).source with
  | none =>
    rw [source] at ended
    cases ended
    exact .inl rfl
  | some e =>
    rw [source] at ended
    simp only at ended
    rw [run_bind_ok (run_addProject _ w)] at ended
    change (furnish caller parent w.projects.length e i >>= fun _ =>
      pure w.projects.length).run (heirMade w parent i) = _ at ended
    rcases loaded : (load caller w.projects.length e).run (heirMade w parent i)
      with ⟨cause | _, next⟩
    · have furnished : (furnish caller parent w.projects.length e i).run (heirMade w parent i) =
          (.error cause, next) := run_bind_error loaded
      rw [run_bind_error furnished] at ended
      cases ended
      exact .inr ⟨e, rfl, load_fails loaded⟩
    · have sort := (ends_handOver parent w.projects.length i).admissible next
      have furnished : (furnish caller parent w.projects.length e i).run (heirMade w parent i) =
          (handOver parent w.projects.length i).run next := run_bind_ok loaded
      rcases handed : (handOver parent w.projects.length i).run next with ⟨cause | _, last⟩
      · rw [handed] at furnished sort
        rw [run_bind_error furnished] at ended
        cases ended
        exact .inl sort
      · rw [handed] at furnished
        rw [run_bind_ok furnished] at ended
        cases ended

/-- What runs on behalf of a project ends with a fault of the build, unless it is interrupted or
loading its build description ends with another fault. -/
theorem subBuild_fails (ended : (subBuild caller silent parent i goals).run w =
      (.error fault, after)) :
    fault.isBuildFault = true ∨ fault = .interrupted ∨
      ∃ e, (w.project parent).source = some e ∧
        LoadingFails caller w.projects.length e (heirMade w parent i) fault := by
  rw [subBuild] at ended
  rcases derived : (derive caller parent i).run w with ⟨cause | child, derivation⟩
  · rw [run_bind_error derived] at ended
    cases ended
    rcases derive_fails derived with sort | failed
    · exact .inl (Fault.isBuildFault_of_isConfiguration fault sort)
    · exact .inr (.inr failed)
  · rw [run_bind_ok derived] at ended
    have quiet : NeverFaults (φ := φ) silent := fun _ _ => rfl
    rcases executeBy_fault quiet ended with sort | same
    · exact .inl sort
    · exact .inr (.inl same)

theorem LoadingFails.endsWork {project : ProjectId} {e : Element}
    (calls : ∀ id, Ends Fault.endsTask (caller id))
    (fails : LoadingFails caller project e w fault) : fault.endsWork = true := by
  cases fails with
  | declaring _ sort => exact Fault.endsWork_of_isConfiguration fault sort
  | @performing declared before _ index _ _ broken =>
    have sort := (ends_performInvocation calls project "" index).admissible before
    rwa [broken] at sort
  | making _ _ _ sort => exact Fault.endsWork_of_endsMaking fault sort

theorem ends_subBuild (calls : ∀ id, Ends Fault.endsTask (caller id)) (parent : ProjectId)
    (i : Inheritance) (goals : List String) :
    Ends (fun fault => fault.isBuildFault || fault.endsWork)
      (subBuild caller silent parent i goals) := by
  refine ⟨fun w => ?_⟩
  rcases ended : (subBuild caller silent parent i goals).run w with ⟨fault | _, after⟩
  · change (fault.isBuildFault || fault.endsWork) = true
    rw [Bool.or_eq_true]
    rcases subBuild_fails ended with sort | rfl | ⟨_, _, fails⟩
    · exact .inl sort
    · exact .inr rfl
    · exact .inr (fails.endsWork calls)
  · trivial

/-- A call fails with a fault of its own, or with one that escapes from what it runs. -/
theorem ends_callTarget (calls : ∀ id, Ends Fault.endsTask (caller id)) (id : ObjectId) :
    Ends Fault.endsTask (callTarget caller id) := by
  unfold callTarget
  refine .bind (.observe _) fun o _ => ?_
  extract_lets goOn
  have goesOn (name : Option String) : Ends Fault.endsTask (goOn name) := by
    unfold goOn
    extract_lets quoted
    split
    · exact ends_logOf id _ _
    · exact ends_reject id rfl
    refine .bind (ends_inheritanceOf id) fun inheritance _ => ?_
    refine .bind (.observe _) fun p _ => ?_
    refine .bind (ends_logOf id _ _) fun _ _ => ?_
    refine .attempt (ends_subBuild calls o.project inheritance _) fun result may => ?_
    split
    · exact .pure trivial
    · next fault =>
      split
      · exact ends_failTask id _
      · next other =>
        exact .throw (Fault.endsTask_of_escapes fault (Fault.escapes_of_endsWork may other))
  refine .bind (ends_isSet id _) fun given _ => ?_
  split
  · exact .bind (.map some (ends_textOf id _) fun _ _ => trivial) fun name (_ : True) => goesOn name
  · rw [pure_bind]
    exact goesOn none

theorem ends_callWithin (depth : Nat) (id : ObjectId) :
    Ends Fault.endsTask (callWithin (φ := φ) depth id) := by
  induction depth generalizing id with
  | zero => exact .throw rfl
  | succ depth ih => exact ends_callTarget ih id

/-- A call that runs something ends as that ends. A fault of the build fails the call, at the place
of the call and with a message about the fault; any other is left as it is, and it is an
interruption, or the fault with which loading the build description on behalf of the caller's
project ended. So a fault of another sort that something in a target ends with never leaves a call,
but one does that something ends with that stands outside of all targets. -/
theorem callWithin_fails {depth : Nat} {id : ObjectId} {goal : String} (asks : w.Asks id goal i) :
    let parent := (w.object id).project
    let ran := (subBuild (callWithin depth) silent parent i [goal]).run (w.calling id goal)
    match ((callWithin (depth + 1) id).run w).1 with
    | .ok _ => ran.1 = .ok ()
    | .error fault => ∃ cause, ran.1 = .error cause ∧
        ((cause.isBuildFault = true ∧ fault = (w.object id).location.failure
            s!"calling target {quote goal} failed: {cause.message}") ∨
          (fault = cause ∧ fault.escapes = true ∧ (fault = .interrupted ∨
            ∃ e, (w.project parent).source = some e ∧ LoadingFails (callWithin depth)
              w.projects.length e (heirMade (w.calling id goal) parent i) fault))) := by
  intro parent ran
  have run : (callTarget (callWithin depth) id).run w =
      (ran.1.mapError (Fault.ofCall goal (ran.2.object id).location), ran.2) := run_callTarget asks
  have kept : (ran.2.object id).location = (w.object id).location := by
    obtain ⟨_, objects⟩ := kept_callWithin (depth + 1) id w
    rw [callWithin, run] at objects
    exact congrArg Object.location (World.object_of_prefix objects asks.present)
  rw [callWithin, run]
  change match ran.1.mapError (Fault.ofCall goal (ran.2.object id).location) with
    | .ok _ => ran.1 = .ok ()
    | .error fault => _
  rcases ended : ran.1 with cause | _
  · refine ⟨cause, rfl, ?_⟩
    rw [Fault.ofCall, kept]
    by_cases sort : cause.isBuildFault = true
    · rw [if_pos sort]
      exact .inl ⟨sort, rfl⟩
    · rw [if_neg sort]
      have may := (ends_subBuild (ends_callWithin depth) parent i [goal]).admissible
        (w.calling id goal)
      rw [ended] at may
      refine .inr ⟨rfl, Fault.escapes_of_endsWork may sort, ?_⟩
      rcases subBuild_fails (Prod.ext ended rfl) with build | interrupted | fails
      · exact absurd build sort
      · exact .inl interrupted
      · exact .inr fails
  · rfl

/-! A build description that appends to a file whose name it is given, with a directory of the name
that is given. -/

namespace Sample

def appending : Element where
  tag := "project"
  children := [
    { tag := "property", attributes := [("name", "log"), ("value", "notes")] },
    { tag := "echo", attributes := [("file", "${log}"), ("append", "true"), ("message", "built")] },
    { tag := "target", attributes := [("name", "all")] }]

def shelf : World MemoryFiles :=
  { fresh with files := MemoryFiles.makeDirectory {} (.ofString "/shelf") }

/-- A project with a call of a target that gives the name of the directory. -/
def overriding : World MemoryFiles :=
  { shelf with
    projects := [{ directory := .top, source := some appending }]
    objects := [
      { kind := Standard.call, project := 0, target := some "main", elementName := some "call"
        parts := [1]
        fields := .ofList [("target", .value (.text "all")), ("inheritall", .value (.flag true)),
          ("inheritrefs", .value (.flag false))] },
      { kind := Standard.param, project := 0
        fields := .ofList [("name_", .value (.text "log")), ("value", .value (.text "/shelf"))] }] }

theorem overriding_asks : ∃ i, overriding.Asks 0 "all" i := by
  have handed : ((inheritanceOf 0).run overriding).1.toOption.isSome = true := by decide +kernel
  obtain ⟨i, handed⟩ := Option.isSome_iff_exists.mp handed
  have same : ((inheritanceOf 0).run overriding).2 = overriding := looks_inheritanceOf 0 overriding
  have run := run_of_toOption handed
  rw [same] at run
  exact ⟨i, rfl, by decide +kernel, by rfl, run⟩

/-- What is refused is an operation on files. -/
theorem overriding_breaks :
    (((callWithin 1 0).run overriding).1 matches .error (.file _)) = true := by
  decide +kernel

end Sample

theorem callWithin_fails_sample : ∃ i fault, ((callWithin 1 0).run Sample.overriding).1 =
    .error fault ∧ fault.escapes = true ∧ LoadingFails (callWithin 0) 1 Sample.appending
      (heirMade (Sample.overriding.calling 0 "all") 0 i) fault := by
  obtain ⟨i, asks⟩ := Sample.overriding_asks
  have breaks := Sample.overriding_breaks
  have home : (Sample.overriding.object 0).project = 0 := rfl
  have last : Sample.overriding.projects.length = 1 := rfl
  have source : (Sample.overriding.project 0).source = some Sample.appending := rfl
  generalize Sample.overriding = w at *
  have told := @callWithin_fails _ _ w i 0 0 "all" asks
  rcases ended : ((callWithin 1 0).run w).1 with fault | _
  · rw [ended] at told breaks
    obtain ⟨cause, _, ⟨build, same⟩ | ⟨same, escapes, interrupted | ⟨e, given, fails⟩⟩⟩ := told
    · subst same
      cases breaks
    · subst interrupted
      cases breaks
    · rw [home] at given fails
      cases source.symm.trans given
      exact ⟨i, fault, rfl, escapes, last ▸ fails⟩
  · rw [ended] at breaks
    cases breaks

/-- Not every fault of what a call runs is reported as a failure of the call. -/
theorem callWithin_escape_sample : (∃ i, Sample.overriding.Asks 0 "all" i) ∧
    (((callWithin 1 0).run Sample.overriding).1 matches .error (.file _)) = true :=
  ⟨Sample.overriding_asks, Sample.overriding_breaks⟩

end Call

section LoadProject

variable [FileSystem φ]

/-- Loading a build description as a project of its own ends with the project, with a fault of the
build description, or with a fault that escapes: one with which something ended that stands outside
of all targets, or with which something in a target could not be made. It never ends with a fault of
a task or a target. -/
theorem loadProject_fails (e : Element) (properties : List (String × String)) (directory : Path)
    (buildFile : Option Path) (w : World φ) :
    let begun := ((addProject {
      directory := w.here.join directory
      source := some e, buildFile, properties := .ofUser properties }).run w).2
    match ((loadProject e properties directory buildFile).run w).1 with
    | .ok project => project = w.projects.length
    | .error fault => fault.isConfiguration = true ∨
        (fault.escapes = true ∧ LoadingFails call w.projects.length e begun fault) := by
  intro begun
  unfold loadProject
  rw [run_bind_ok (run_observe _ w), run_bind_ok (run_addProject _ w)]
  extract_lets explain
  change match ((adapting explain (load call w.projects.length e) >>= fun _ =>
    pure w.projects.length).run begun).1 with
    | .ok project => project = w.projects.length
    | .error fault => _
  rcases ended : (load call w.projects.length e).run begun with ⟨cause | _, after⟩
  · have fails := load_fails ended
    have sort := fails.endsWork (ends_callWithin callDepth)
    have explained : (adapting explain (load call w.projects.length e)).run begun =
        (.error (explain cause), after) := by
      rw [adapting, run_tryCatch_error ended]
      rfl
    rw [run_bind_error explained]
    cases cause with
    | configuration => exact .inl rfl
    | task => exact .inl rfl
    | _ => exact .inr ⟨sort, fails⟩
  · have explained : (adapting explain (load call w.projects.length e)).run begun =
        (.ok (), after) := by rw [adapting, run_tryCatch_ok ended]
    rw [run_bind_ok explained]
    rfl

/-- Not every failure outside of all targets is reported as a fault of the build description. -/
theorem loadProject_escape_sample :
    (((loadProject Sample.appending [("log", "/shelf")] .top).run Sample.shelf).1
      matches .error (.file _)) = true := by
  decide +kernel

end LoadProject

end Engine
end BuildEngine
