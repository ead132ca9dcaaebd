import BuildEngine.Proofs.BindingConfinement
import BuildEngine.Proofs.TaskConfinement
import BuildEngine.Run.Build

/-! Runs are confined: performing what stands in targets, running targets, loading a build
description and calling targets change no project but the one that they are about, and those that
are made for it. -/

namespace BuildEngine

open Engine

variable {φ : Type}

/-- A target is declared under a name that it is given, and what stands in it from the beginning are
the elements in its element. -/
theorem Target.of_ofElement {e : Element} {t : Target} (made : Target.ofElement e = .ok t) :
    t.name = (e.get? "name").getD "" ∧ t.name ≠ "" ∧ t.location = e.location ∧
      t.invocations = e.children.map fun child => { element := some child } := by
  unfold Target.ofElement at made
  split at made
  · cases made
  · extract_lets name make at made
    split at made
    · cases made
    · rename_i named
      cases made
      exact ⟨rfl, fun none => named (String.isEmpty_iff.mpr none), rfl, rfl⟩

namespace Project

variable {p : Project} {o : ObjectId}

/-- A change of what stands in a target adds no objects but those that it puts there. -/
theorem holds_changeInvocations {target : String} {change : List Invocation → List Invocation}
    (holds : (p.changeInvocations target change).Holds o) :
    p.Holds o ∨ ∃ t, p.target? target = some t ∧ ∃ i ∈ change t.invocations, i.object = some o := by
  obtain ⟨name, t, found, i, member, object⟩ := holds
  rw [target?_changeInvocations] at found
  split at found
  · obtain ⟨old, declared, rfl⟩ := Option.map_eq_some_iff.mp found
    exact .inr ⟨old, declared, i, member, object⟩
  · exact .inl ⟨name, t, found, i, member, object⟩

/-- A project without targets holds nothing. -/
theorem not_holds_new (targets : p.targets = .empty) (root : p.root = { name := "" })
    (o : ObjectId) : ¬ p.Holds o := by
  rintro ⟨name, t, found, i, member, _⟩
  rw [target?, targets, root] at found
  split at found
  · cases found
    cases member
  · cases found

theorem haltOnFailure_changeInvocations (p : Project) (target : String)
    (change : List Invocation → List Invocation) :
    (p.changeInvocations target change).haltOnFailure = p.haltOnFailure := by
  unfold changeInvocations
  split <;> rfl

theorem properties_changeInvocations (p : Project) (target : String)
    (change : List Invocation → List Invocation) :
    (p.changeInvocations target change).properties = p.properties := by
  unfold changeInvocations
  split <;> rfl

/-- A change of one invocation adds no object but that of the changed one. -/
theorem holds_changeInvocation {target : String} {index : Nat} {change : Invocation → Invocation}
    (holds : (p.changeInvocations target (·.modify index change)).Holds o) :
    p.Holds o ∨ ∃ i, (change i).object = some o ∧ ∃ t, p.target? target = some t ∧
      i ∈ t.invocations := by
  obtain held | ⟨t, found, i, member, object⟩ := holds_changeInvocations holds
  · exact .inl held
  obtain ⟨position, same⟩ := List.getElem?_of_mem member
  rw [List.getElem?_modify] at same
  obtain ⟨old, stood, rfl⟩ := Option.map_eq_some_iff.mp same
  have declared : old ∈ t.invocations := List.mem_of_getElem? stood
  split at object
  · exact .inr ⟨old, object, t, found, declared⟩
  · exact .inl ⟨target, t, found, old, declared, object⟩

/-- Where an invocation changes, whatever stands in targets keeps what the change keeps. -/
theorem retains_changeInvocation (p : Project) (target : String) (index : Nat)
    {change : Invocation → Invocation} (keeps : ∀ i, (change i).element = i.element ∧
      (i.object.isSome = true → (change i).object.isSome = true)) :
    p.Retains (p.changeInvocations target (·.modify index change)) := by
  intro place position i stands
  unfold invocation? at stands ⊢
  rw [target?_changeInvocations]
  split
  · rename_i same
    obtain ⟨t, found, listed⟩ := Option.bind_eq_some_iff.mp stands
    rw [same, found, Option.map_some, Option.bind_some, List.getElem?_modify, listed]
    by_cases changed : index = position
    · exact ⟨change i, by simp [changed], keeps i⟩
    · exact ⟨i, by simp [changed], rfl, id⟩
  · exact ⟨i, stands, rfl, id⟩

/-- Writes of which each overrides lead from one store to the next. -/
theorem written_foldl (entries : List (String × String)) (p : Properties) :
    p.Written (entries.foldl (fun store entry => (store.set entry.1 entry.2 true).2) p) := by
  induction entries generalizing p with
  | nil => exact .refl
  | cons entry rest ih => exact .trans (Properties.Written.set p entry.1 entry.2 true) (ih _)

/-- What a build description says about a project as a whole changes properties only by writes. -/
theorem written_describedBy (p : Project) (e : Element) :
    p.properties.Written (p.describedBy e).properties :=
  written_foldl _ _

theorem holds_describedBy {e : Element} (holds : (p.describedBy e).Holds o) : p.Holds o := holds

/-- An element of a build description declares a target of its own name, describes the project or
stands outside of all targets. -/
theorem addElement_cases {e : Element} {more : Project} (added : p.addElement e = .ok more) :
    (∃ t, Target.ofElement e = .ok t ∧ p.targets.contains t.name = false ∧
        more = { p with targets := p.targets.put t }) ∨
      (∃ description, more = { p with description }) ∨
      more = { p with root := { p.root with
        invocations := p.root.invocations ++ [{ element := some e }] } } := by
  unfold addElement at added
  split at added
  · cases made : Target.ofElement e with
    | error => rw [made] at added; cases added
    | ok t =>
      rw [made] at added
      change p.addTarget t = .ok more at added
      unfold addTarget at added
      split at added
      · cases added
      · cases added
        exact .inl ⟨t, rfl, Bool.eq_false_iff.mpr ‹_›, rfl⟩
  · cases added
    exact .inr (.inl ⟨_, rfl⟩)
  · cases added
    exact .inr (.inr rfl)

/-- A target starts without objects. -/
theorem object_ofElement {e : Element} {t : Target} (made : Target.ofElement e = .ok t)
    {i : Invocation} (member : i ∈ t.invocations) : i.object = none := by
  rw [(Target.of_ofElement made).2.2.2] at member
  obtain ⟨child, _, rfl⟩ := List.mem_map.mp member
  rfl

/-- What elements declare brings no objects. -/
theorem holds_addElement {e : Element} {more : Project} (added : p.addElement e = .ok more)
    (holds : more.Holds o) : p.Holds o := by
  obtain ⟨name, t, found, i, member, object⟩ := holds
  obtain ⟨new, made, -, rfl⟩ | ⟨description, rfl⟩ | rfl := addElement_cases added
  · unfold target? at found
    split at found
    · exact ⟨name, t, by rw [target?, if_pos ‹_›, found], i, member, object⟩
    · rw [Targets.find?_put] at found
      split at found
      · cases found
        rw [object_ofElement made member] at object
        cases object
      · exact ⟨name, t, by rw [target?, if_neg ‹_›, found], i, member, object⟩
  · exact ⟨name, t, found, i, member, object⟩
  · unfold target? at found
    split at found
    · cases found
      obtain old | new := List.mem_append.mp member
      · exact ⟨name, p.root, by rw [target?, if_pos ‹_›], i, old, object⟩
      · cases List.mem_singleton.mp new
        cases object
    · exact ⟨name, t, by rw [target?, if_neg ‹_›, found], i, member, object⟩

/-- What an element declares leaves alone what stands in targets. -/
theorem retains_addElement {e : Element} {more : Project} (added : p.addElement e = .ok more) :
    p.Retains more := by
  intro target index i stands
  refine ⟨i, ?_, rfl, id⟩
  obtain ⟨t, found, listed⟩ := Option.bind_eq_some_iff.mp stands
  obtain ⟨new, _, absent, rfl⟩ | ⟨description, rfl⟩ | rfl := addElement_cases added
  · unfold invocation? target? at *
    split
    · rwa [if_pos ‹_›] at stands
    · rw [if_neg ‹_›] at stands found
      rw [Targets.find?_put, if_neg, stands]
      rintro rfl
      have known := (p.targets.contains_iff_find? new.name).mpr ⟨t, found⟩
      rw [absent] at known
      cases known
  · exact stands
  · unfold invocation? target? at *
    split
    · rw [if_pos ‹_›] at found
      cases found
      rw [Option.bind_some, List.getElem?_append, if_pos, listed]
      exact (List.getElem?_eq_some_iff.mp listed).1
    · rwa [if_neg ‹_›] at stands

theorem retains_addElements (p : Project) (elements : List Element) :
    p.Retains (p.addElements elements).1 := by
  induction elements generalizing p with
  | nil => exact .refl p
  | cons e rest ih =>
    unfold addElements
    split
    · next more added => exact (retains_addElement added).trans (ih more)
    · exact .refl p

theorem properties_addElement {e : Element} {more : Project} (added : p.addElement e = .ok more) :
    more.properties = p.properties := by
  obtain ⟨_, _, _, rfl⟩ | ⟨_, rfl⟩ | rfl := addElement_cases added <;> rfl

theorem properties_addElements (p : Project) (elements : List Element) :
    (p.addElements elements).1.properties = p.properties := by
  induction elements generalizing p with
  | nil => rfl
  | cons e rest ih =>
    unfold addElements
    split
    · next more added => rw [ih, properties_addElement added]
    · rfl

/-- What stands in the element of a target stands in the target from the beginning. -/
theorem placed_addElement {e : Element} {more : Project} (added : p.addElement e = .ok more)
    (isTarget : Text.lower e.tag = "target") {index : Nat} {child : Element}
    (inside : e.children[index]? = some child) : (e.get? "name").getD "" ≠ "" ∧
      ∃ i, more.invocation? ((e.get? "name").getD "") index = some i ∧ i.element = some child := by
  unfold addElement at added
  rw [isTarget] at added
  cases made : Target.ofElement e with
  | error => rw [made] at added; cases added
  | ok t =>
    rw [made] at added
    change p.addTarget t = .ok more at added
    unfold addTarget at added
    split at added
    · cases added
    · cases added
      obtain ⟨name, named, -, all⟩ := Target.of_ofElement made
      rw [← name]
      refine ⟨named, { element := some child }, ?_, rfl⟩
      unfold invocation? target?
      rw [if_neg (by simpa using named), Targets.find?_put, if_pos rfl, Option.bind_some, all,
        List.getElem?_map, inside]
      rfl

theorem placed_addElements {elements : List Element} {more : Project}
    (added : p.addElements elements = (more, none)) {e : Element} (member : e ∈ elements)
    (isTarget : Text.lower e.tag = "target") {index : Nat} {child : Element}
    (inside : e.children[index]? = some child) : (e.get? "name").getD "" ≠ "" ∧
      ∃ i, more.invocation? ((e.get? "name").getD "") index = some i ∧ i.element = some child := by
  induction elements generalizing p with
  | nil => cases member
  | cons first rest ih =>
    unfold addElements at added
    split at added
    case h_2 => cases added
    rename_i mid adds
    rcases List.mem_cons.mp member with rfl | later
    · obtain ⟨named, i, stands, element⟩ := placed_addElement adds isTarget inside
      obtain ⟨j, still, same, -⟩ := retains_addElements mid rest _ _ i stands
      rw [added] at still
      exact ⟨named, j, still, same.trans element⟩
    · exact ih added later

theorem haltOnFailure_addElements (p : Project) (elements : List Element) :
    (p.addElements elements).1.haltOnFailure = p.haltOnFailure := by
  induction elements generalizing p with
  | nil => rfl
  | cons e rest ih =>
    unfold addElements
    split
    · next more added =>
      rw [ih]
      obtain ⟨_, _, _, rfl⟩ | ⟨_, rfl⟩ | rfl := addElement_cases added <;> rfl
    · rfl

theorem holds_addElements {elements : List Element}
    (holds : (p.addElements elements).1.Holds o) : p.Holds o := by
  induction elements generalizing p with
  | nil => exact holds
  | cons e rest ih =>
    unfold addElements at holds
    split at holds
    · next more added => exact holds_addElement added (ih holds)
    · exact holds

end Project

/-- What stands at a position of a project is held by it. -/
theorem World.holds_of_invocationAt {w : World φ} {project : ProjectId} {target : String}
    {index : Nat} {id : ObjectId} (object : (w.invocationAt project target index).object = some id) :
    (w.project project).Holds id := by
  unfold World.invocationAt at object
  cases found : (w.project project).target? target with
  | none => rw [found] at object; cases object
  | some t =>
    rw [found, Option.bind_some] at object
    cases stands : t.invocations[index]? with
    | none => rw [stands] at object; cases object
    | some i =>
      rw [stands] at object
      exact ⟨target, t, found, i, List.mem_of_getElem? stands, object⟩

/-- An invocation keeps whatever its changes keep. -/
theorem World.invocationAt_of_modify {α : Type} (part : Invocation → α) {w after : World φ}
    {project : ProjectId} {target : String} {index : Nat} {change : Invocation → Invocation}
    (same : after.projects =
      w.projects.modify project (·.changeInvocations target (·.modify index change)))
    (keeps : ∀ i, part (change i) = part i) :
    part (after.invocationAt project target index) =
      part (w.invocationAt project target index) := by
  unfold World.invocationAt
  rcases World.project_of_modify same project with unchanged | ⟨_, changed⟩
  · rw [unchanged]
  · rw [changed, Project.target?_changeInvocations, if_pos rfl]
    cases (w.project project).target? target with
    | none => rfl
    | some t =>
      simp only [Option.map_some, Option.bind_some, List.getElem?_modify, if_pos]
      cases t.invocations[index]? with
      | none => rfl
      | some i => exact keeps i

namespace Engine

theorem looks_overridesOf (params : List ObjectId) : Looks (overridesOf (φ := φ) params) := by
  induction params with
  | nil => exact .pure _
  | cons param rest ih =>
    unfold overridesOf
    refine .bind (looks_textOf param _) fun name => ?_
    refine .bind (looks_textOf param _) fun value => ?_
    exact .bind ih fun _ => .pure _

theorem looks_forwardsOf (references : List ObjectId) :
    Looks (forwardsOf (φ := φ) references) := by
  induction references with
  | nil => exact .pure _
  | cons reference rest ih =>
    unfold forwardsOf
    refine .bind (looks_textOf reference _) fun id => ?_
    refine .bind (looks_isSet reference _) fun given => ?_
    extract_lets add
    have adds (name : String) : Looks (add name) := .bind ih fun _ => .pure _
    split
    · exact .bind (looks_textOf reference _) fun name => adds name
    · exact .bind (.pure _) fun name => adds name

theorem looks_inheritanceOf (id : ObjectId) : Looks (inheritanceOf (φ := φ) id) := by
  unfold inheritanceOf
  refine .bind (.observe _) fun params => ?_
  refine .bind (looks_overridesOf params) fun overrides => ?_
  refine .bind (.observe _) fun forwards => ?_
  refine .bind (looks_forwardsOf forwards) fun references => ?_
  refine .bind (looks_flagOf id _) fun allProperties => ?_
  exact .bind (looks_flagOf id _) fun allReferences => .pure _

end Engine

namespace Mark

variable {m : Mark} {w : World φ} {id : ObjectId} {project : ProjectId}
variable {kind : World φ → World φ → Prop} [m.Admits kind]

/-- A way to call targets that takes steps of some kind since a point. -/
def CallsTake (m : Mark) (kind : World φ → World φ → Prop) (caller : Caller φ) : Prop :=
  ∀ w id, m.Owns w id → m.Takes kind w (caller id)

/-- An audience that takes steps of some kind since a point. -/
def ListensTake (m : Mark) (kind : World φ → World φ → Prop) (tell : Audience φ) : Prop :=
  ∀ w event, m.Takes kind w (tell event)

/-- A way to perform what stands in projects that takes steps of some kind since a point. -/
def PerformsTake (m : Mark) (kind : World φ → World φ → Prop) (perform : Performer φ) : Prop :=
  ∀ w project target position, m.projects ≤ project →
    m.Takes kind w (perform project target position)

/-- An audience that changes nothing older than a point. -/
def ListensConfined (m : Mark) (tell : Audience φ) : Prop := ∀ w event, m.Confined w (tell event)

omit [m.Admits kind] in
/-- Nothing older is held by projects after the point, so they may be relied on for that. -/
theorem Takes.ofSealed {α : Type} {action : Engine φ α} {wanted : World φ → α → Prop}
    (confined : m.Sealed w → m.Takes kind w action wanted) : m.Takes kind w action wanted :=
  fun before => confined before before

omit [m.Admits kind] in
theorem listensConfined_notify (m : Mark) [m.AdmitsNews kind] :
    m.ListensTake kind (notify (φ := φ)) :=
  fun _ event => confined_notify event

theorem listensConfined_silent (m : Mark) : m.ListensTake kind (φ := φ) fun _ => return () :=
  fun _ _ => .pure trivial

/-! Performing tasks. -/

section Perform

variable {caller : Caller φ} [FileSystem φ]

theorem confined_work (calls : m.CallsTake kind caller) (owned : m.Owns w id) :
    m.Takes kind w (work caller id) := by
  unfold work workBy
  refine .look (.observe _) fun found _ => ?_
  split
  · exact .pure trivial
  split
  · exact confined_performAll owned _
  · exact .bind (calls w id owned) fun _ _ _ _ => .pure trivial
  · exact confined_delete owned
  · exact confined_echo id
  · exact .looks (looks_fail id)
  · exact confined_defineProperty owned
  · exact confined_touch id
  · exact confined_checkUpToDate owned
  · exact .look (.observe _) fun asTask _ => confined_define asTask id
  · exact .pure trivial

theorem confined_performTask (calls : m.CallsTake kind caller) (owned : m.Owns w id) :
    m.Takes kind w (performTask caller id) := by
  unfold performTask
  refine .bind (confined_work calls owned).attempt fun _ result _ _ => ?_
  split
  · exact .pure trivial
  · split
    · refine .look (.observe _) fun described _ => ?_
      exact .looks (looks_failTask id _)
    · exact .pure trivial
  · refine .look (.observe _) fun described _ => ?_
    split
    · exact .looks (looks_reject id _)
    · exact .looks (looks_reject id _)
  · exact .throw _

omit [FileSystem φ] in
theorem confined_changeInvocation (later : m.projects ≤ project) (target : String) (index : Nat)
    {change : Invocation → Invocation}
    (keeps : ∀ i, (change i).element = i.element ∧
      (i.object.isSome = true → (change i).object.isSome = true))
    (held : ∀ i o, (change i).object = some o →
      i.object = some o ∨ m.Owns w o ∧ w.MadeFor o project ∧ w.Describes o) :
    m.Takes kind w (changeInvocation project target index change) := by
  refine confined_changeProject later ?_ (Project.haltOnFailure_changeInvocations _ _ _)
    (Project.retains_changeInvocation _ target index keeps) fun o holds => ?_
  · rw [Project.changeInvocations]
    split <;> exact .refl
  · obtain old | ⟨i, object, t, found, member⟩ := Project.holds_changeInvocation holds
    · exact .inl old
    · exact (held i o object).imp_left fun same => ⟨target, t, found, i, member, same⟩

omit [FileSystem φ] in
/-- The object of an invocation is made after the point, for the project that holds it unless that
held it before. -/
theorem confined_instantiateInvocation (later : m.projects ≤ project) (target : String)
    (index : Nat) : m.Takes kind w (instantiateInvocation project target index) fun after made =>
      ∀ id, made = some id →
        m.Owns after id ∧ ((w.project project).Holds id ∨ after.MadeFor id project) := by
  refine .ofSealed fun before => ?_
  unfold instantiateInvocation
  refine .look (.observe _) fun _ seen => ?_
  cases seen
  split
  · rename_i id object
    have holds := World.holds_of_invocationAt object
    refine .pure ?_
    rintro _ ⟨⟩
    exact ⟨before.held project later id holds, .inl holds⟩
  · exact .pure nofun
  · refine .bind (confined_create later _ _) fun _ id _ both => ?_
    refine .bind (confined_changeInvocation later target index (fun _ => ⟨rfl, fun _ => rfl⟩) ?_)
      fun _ _ steps _ => .pure ?_
    · rintro i o ⟨⟩
      exact .inr both
    · rintro _ ⟨⟩
      exact ⟨steps.owns both.1, .inr (steps.madeFor both.2.1)⟩

omit [FileSystem φ] in
theorem confined_prepareInvocation (later : m.projects ≤ project) (target : String)
    (index : Nat) : m.Takes kind w (prepareInvocation project target index) fun after made =>
      ∀ id, made = some id →
        m.Owns after id ∧ ((w.project project).Holds id ∨ after.MadeFor id project) := by
  unfold prepareInvocation
  refine .bind (confined_instantiateInvocation later target index) fun _ made _ holds => ?_
  split
  · exact .pure nofun
  rename_i id
  obtain ⟨owned, held⟩ := holds id rfl
  refine .look (.observe _) fun i _ => ?_
  extract_lets finish
  have finishes {v : World φ} (owned : m.Owns v id)
      (held : (w.project project).Holds id ∨ v.MadeFor id project) :
      m.Takes kind v (finish ()) fun after made => ∀ id, made = some id →
        m.Owns after id ∧ ((w.project project).Holds id ∨ after.MadeFor id project) := by
    refine .look (.observe _) fun isTask _ => .pure ?_
    split
    · rintro _ ⟨⟩
      exact ⟨owned, held⟩
    · exact nofun
  split
  · split
    · refine .bind (confined_configure later owned _) fun _ _ configured _ => ?_
      refine .bind (confined_changeInvocation later target index (fun _ => ⟨rfl, fun made => made⟩)
        fun _ _ => .inl) ?_
      intro _ _ marked _
      have steps := configured.trans marked
      exact finishes (steps.owns owned) (held.imp_right steps.madeFor)
    · exact finishes owned held
  · exact finishes owned held

theorem performsConfined_performInvocation (calls : m.CallsTake kind caller) :
    m.PerformsTake kind (performInvocation caller) := by
  intro w project target index later
  unfold performInvocation
  refine .bind (confined_prepareInvocation later target index) fun _ _ _ made => ?_
  split
  · exact .pure trivial
  · exact .map some (confined_performTask calls (made _ rfl).1) fun _ _ _ => trivial

end Perform

/-! Running targets. -/

section Run

variable {perform : Performer φ} {tell : Audience φ}

theorem confined_performIn (performs : m.PerformsTake kind perform)
    (listens : m.ListensTake kind tell)
    (later : m.projects ≤ project) (target : String) (positions : List Nat) :
    m.Takes kind w (performIn perform tell project target positions) := by
  induction positions generalizing w with
  | nil => exact .pure trivial
  | cons position rest ih =>
    unfold performIn
    refine .look (.observe _) fun task _ => ?_
    refine .bind (listens _ _) fun _ _ _ _ => ?_
    refine .bind (performs _ project target position later).attempt fun _ _ _ _ => ?_
    split
    · refine .look (.observe _) fun task _ => ?_
      exact .bind (listens _ _) fun _ _ _ _ => ih
    · exact ih
    · refine .look (.observe _) fun task _ => ?_
      exact .bind (listens _ _) fun _ _ _ _ => .pure trivial

theorem confined_settle (listens : m.ListensTake kind tell) (g : TargetGraph) (target : String)
    (status : TargetStatus) (outcome : Standing) :
    m.Takes kind w (settle tell g target status outcome) := by
  unfold settle
  split
  · exact .pure trivial
  · exact .bind (listens _ _) fun _ _ _ _ => .pure trivial

theorem confined_runTarget (performs : m.PerformsTake kind perform)
    (listens : m.ListensTake kind tell)
    (later : m.projects ≤ project) (g : TargetGraph) (target : Target) :
    m.Takes kind w (runTarget perform tell project g target) := by
  unfold runTarget
  refine .look (.observe _) fun p _ => ?_
  split
  · exact confined_settle listens _ _ _ _
  split
  · exact .pure trivial
  refine .bind (listens _ _) fun _ _ _ _ => ?_
  refine .look (.observe _) fun positions _ => ?_
  refine .bind (confined_performIn performs listens later _ positions) fun _ _ _ _ => ?_
  split
  · exact confined_settle listens _ _ _ _
  · exact .pure trivial
  · exact confined_settle listens _ _ _ _

theorem confined_takeTurn (performs : m.PerformsTake kind perform)
    (listens : m.ListensTake kind tell)
    (later : m.projects ≤ project) (keepGoing : Bool) (g : TargetGraph) (outcome : Standing)
    (target : Target) :
    m.Takes kind w (takeTurn perform tell project keepGoing g outcome target) := by
  unfold takeTurn
  split
  · exact confined_settle listens _ _ _ _
  · exact .bind (confined_runTarget performs listens later g target) fun _ _ _ _ => .pure trivial

theorem confined_runTargets (performs : m.PerformsTake kind perform)
    (listens : m.ListensTake kind tell) (later : m.projects ≤ project) (keepGoing : Bool)
    (targets : List Target) (g : TargetGraph) (outcome : Standing) :
    m.Takes kind w (runTargets perform tell project keepGoing targets g outcome) := by
  induction targets generalizing w g outcome with
  | nil => exact .pure trivial
  | cons target rest ih =>
    unfold runTargets
    refine .bind (confined_takeTurn performs listens later keepGoing g outcome target) ?_
    intro _ _ _ _
    split
    · exact .pure trivial
    · exact ih _ _

theorem confined_conduct (performs : m.PerformsTake kind perform)
    (listens : m.ListensTake kind tell) (later : m.projects ≤ project) (keepGoing : Bool)
    (targets : Targets) (g : TargetGraph) :
    m.Takes kind w (conduct perform tell project keepGoing targets g) := by
  unfold conduct
  refine .look (.observe _) fun p _ => ?_
  refine .bind (listens _ _) fun _ _ _ _ => ?_
  extract_lets finish
  have finishes {w : World φ} (ended : TargetGraph × Standing) : m.Takes kind w (finish ended) :=
    .bind (listens _ _) fun _ _ _ _ => .pure trivial
  split
  · refine .bind (confined_runTargets performs listens later keepGoing _ g _) fun _ _ _ _ => ?_
    exact finishes _
  · exact .look (.pure _) fun _ _ => finishes _

theorem confined_executeBy (performs : m.PerformsTake kind perform)
    (listens : m.ListensTake kind tell) (later : m.projects ≤ project) (goals : List String) :
    m.Takes kind w (executeBy perform tell project goals) := by
  unfold executeBy
  refine .look (.observe _) fun p _ => ?_
  split
  · exact .throw _
  refine .look .get fun _ _ => ?_
  refine .bind (confined_conduct performs listens later _ _ _) fun _ _ _ _ => ?_
  split
  · exact .pure trivial
  · exact .throw _
  · exact .throw _

theorem confined_buildBy (performs : m.PerformsTake kind perform)
    (listens : m.ListensTake kind tell) (later : m.projects ≤ project) (goals : List String) :
    m.Takes kind w (buildBy perform tell project goals) := by
  unfold buildBy
  refine .look (.observe _) fun p _ => ?_
  extract_lets wanted
  split
  · exact .pure trivial
  refine .bind (confined_executeBy performs listens later wanted).attempt fun _ _ _ _ => ?_
  split
  · exact .pure trivial
  · split
    · exact .pure trivial
    · exact .throw _

end Run

/-! Loading and calling. -/

section Call

theorem confined_handDown {child : ProjectId} (later : m.projects ≤ child)
    (entries : List (String × ObjectId)) : m.Takes kind w (handDown child entries) := by
  induction entries generalizing w with
  | nil => exact .pure trivial
  | cons entry rest ih =>
    unfold handDown
    refine .look (.observe _) fun p _ => ?_
    split
    · exact .bind (confined_register later _ _) fun _ _ _ _ => ih
    · exact ih

theorem confined_forward (parent : ProjectId) {child : ProjectId} (later : m.projects ≤ child)
    (references : List (String × String)) :
    m.Takes kind w (forward parent child references) := by
  induction references generalizing w with
  | nil => exact .pure trivial
  | cons entry rest ih =>
    unfold forward
    refine .look (.observe _) fun p _ => ?_
    split
    · exact .throw _
    · exact .bind (confined_register later _ _) fun _ _ _ _ => ih

theorem confined_instantiateTargets (later : m.projects ≤ project) :
    m.Takes kind w (instantiateTargets project) := by
  unfold instantiateTargets
  refine .look (.observe _) fun p _ => ?_
  refine .bind (.forIn _ _ fun _ target _ _ => ?_) fun _ _ _ _ => .pure trivial
  refine .look (.observe _) fun positions _ => ?_
  refine .bind (.forIn _ _ fun _ index _ _ => ?_) fun _ _ _ _ => .pure trivial
  exact .bind (confined_instantiateInvocation later target index) fun _ _ _ _ => .pure trivial

theorem confined_adopt (later : m.projects ≤ project) (e : Element) :
    m.Takes kind w (adopt project e) := by
  unfold adopt
  extract_lets declare
  have declares : m.Takes kind w (declare ()) := by
    refine .look (.observe _) fun _ seen => ?_
    cases seen
    refine .bind (confined_changeProject later ?_ ?_ ?_ ?_) fun _ _ _ _ => ?_
    · rw [Project.properties_addElements]
      exact Project.written_describedBy _ e
    · exact Project.haltOnFailure_addElements _ _
    · have described : (w.project project).Retains ((w.project project).describedBy e) :=
        .of_same rfl rfl
      exact described.trans (Project.retains_addElements _ e.children)
    · exact fun o holds => .inl (Project.holds_describedBy (Project.holds_addElements holds))
    · split
      · exact .throw _
      · exact .pure trivial
  split
  · exact .look (.throw _) fun _ _ => declares
  · exact declares

variable [FileSystem φ] {caller : Caller φ}

theorem confined_load (calls : m.CallsTake kind caller) (later : m.projects ≤ project)
    (e : Element) : m.Takes kind w (load caller project e) := by
  unfold load
  refine .bind (confined_adopt later e) fun _ _ _ _ => ?_
  refine .look (.observe _) fun positions _ => ?_
  refine .bind (confined_performIn (performsConfined_performInvocation calls)
    (listensConfined_silent m) later "" positions) fun _ _ _ _ => ?_
  split
  · exact .throw _
  · exact confined_instantiateTargets later

theorem confined_furnish (calls : m.CallsTake kind caller) (parent : ProjectId)
    {child : ProjectId} (later : m.projects ≤ child) (source : Element) (i : Inheritance) :
    m.Takes kind w (furnish caller parent child source i) := by
  unfold furnish
  refine .bind (confined_load calls later source) fun _ _ _ _ => ?_
  split
  · refine .look (.observe _) fun p _ => ?_
    exact .bind (confined_handDown later _) fun _ _ _ _ => confined_forward parent later _
  · exact confined_forward parent later _

/-- A project that runs on behalf of another one is made after the point, whatever that one is. -/
theorem confined_derive (calls : m.CallsTake kind caller) (parent : ProjectId) (i : Inheritance) :
    m.Takes kind w (derive caller parent i) fun _ child => m.projects ≤ child := by
  unfold derive
  refine .look (.observe _) fun p _ => ?_
  split
  · exact .throw _
  refine .bind (confined_addProject rfl (Project.not_holds_new rfl rfl)) fun _ child _ later => ?_
  exact .bind (confined_furnish calls parent later _ i) fun _ _ _ _ => .pure later

/-- Running targets changes nothing older than a point if the project is younger. -/
theorem confined_execute {tell : Audience φ} (calls : m.CallsTake kind caller)
    (listens : m.ListensTake kind tell) (later : m.projects ≤ project) (goals : List String) :
    m.Takes kind w (execute caller tell project goals) :=
  confined_executeBy (performsConfined_performInvocation calls) listens later goals

theorem confined_subBuild {tell : Audience φ} (calls : m.CallsTake kind caller)
    (listens : m.ListensTake kind tell) (parent : ProjectId) (i : Inheritance)
    (goals : List String) : m.Takes kind w (subBuild caller tell parent i goals) :=
  .bind (confined_derive calls parent i) fun _ _ _ later =>
    confined_execute calls listens later goals

/-- Calling a target changes nothing older than a point, however old the object is that calls. -/
theorem confined_callTarget (calls : m.CallsTake kind caller) (id : ObjectId) :
    m.Takes kind w (callTarget caller id) := by
  unfold callTarget
  refine .look (.observe _) fun o _ => ?_
  extract_lets goOn
  have goesOn (name : Option String) : m.Takes kind w (goOn name) := by
    unfold goOn
    extract_lets quoted
    split
    · exact confined_logOf id _ _
    · exact .looks (looks_reject id _)
    refine .look (looks_inheritanceOf id) fun inheritance _ => ?_
    refine .look (.observe _) fun p _ => ?_
    refine .bind (confined_logOf id _ _) fun _ _ _ _ => ?_
    have runs {w : World φ} (goals : List String) := confined_subBuild (w := w) calls
      (listensConfined_silent m) o.project inheritance goals
    refine .bind (runs _).attempt fun _ _ _ _ => ?_
    split
    · exact .pure trivial
    split
    · exact .looks (looks_failTask id _)
    · exact .throw _
  refine .look (looks_isSet id _) fun given _ => ?_
  split
  · exact .look (.map _ (looks_textOf id _)) fun name _ => goesOn name
  · exact .look (.pure _) fun name _ => goesOn name

theorem confined_callWithin (depth : Nat) (id : ObjectId) :
    m.Takes kind w (callWithin (φ := φ) depth id) := by
  induction depth generalizing w id with
  | zero => exact .throw _
  | succ depth ih => exact confined_callTarget (fun _ id _ => ih id) id

omit [m.Admits kind] in
theorem callsConfined_callWithin (m : Mark) (depth : Nat) :
    m.CallsTake m.Change (callWithin (φ := φ) depth) :=
  fun _ id _ => confined_callWithin depth id

omit [m.Admits kind] in
theorem confined_build [m.AdmitsNews kind] (later : m.projects ≤ project) (goals : List String) :
    m.Takes kind w (build project goals) :=
  confined_buildBy (performsConfined_performInvocation fun _ id _ => confined_callWithin _ id)
    (listensConfined_notify m) later goals

end Call

end Mark
end BuildEngine
