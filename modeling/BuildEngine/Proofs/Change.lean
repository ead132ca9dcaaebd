import BuildEngine.Proofs.KindShape
import BuildEngine.Task.Basic
import Mathlib.Logic.Relation

/-! Changes: all that the engine does to the projects and objects of a world, one step after another,
seen from some point of a build. What is older than that point is not touched. Properties of a
project change only by writes that its store admits, so what the user gave stays. -/

namespace BuildEngine

open Relation

variable {φ : Type}

namespace Properties

/-- Writes that a store may refuse lead from one store to another one. -/
def Written : Properties → Properties → Prop :=
  ReflTransGen fun before after =>
    ∃ name value override, after = (before.set name value override).2

theorem Written.set (p : Properties) (name value : String) (override : Bool) :
    p.Written (p.set name value override).2 :=
  .single ⟨name, value, override, rfl⟩

/-- A write leaves user properties as they are. -/
theorem find?_set_of_user {p : Properties} {name : String} {given : Property}
    (found : p.table.find? name = some given) (user : given.isUser = true)
    (other value : String) (override : Bool) :
    (p.set other value override).2.table.find? name = some given := by
  cases admitted : p.admits other override with
  | false => rwa [set_of_not_admits admitted]
  | true =>
    have different : other ≠ name := by
      rintro rfl
      simp [admits, isUser, found, user] at admitted
    rw [set_of_admits admitted]
    simpa [Table.find?_put, different] using found

/-- Whatever is written, user properties stay as they are. -/
theorem Written.find?_of_user {before after : Properties} (written : before.Written after)
    {name : String} {given : Property} (found : before.table.find? name = some given)
    (user : given.isUser = true) : after.table.find? name = some given := by
  induction written with
  | refl => exact found
  | tail _ step ih =>
    obtain ⟨other, value, override, rfl⟩ := step
    exact find?_set_of_user ih user other value override

end Properties

/-- A project holds an object that stands in one of its targets. -/
def Project.Holds (p : Project) (id : ObjectId) : Prop :=
  ∃ target t, p.target? target = some t ∧ ∃ i ∈ t.invocations, i.object = some id

/-- A point in a build: the objects and projects from some numbers on are made after it. -/
structure Mark where
  objects : Nat
  projects : Nat

namespace Mark

variable (m : Mark)

/-- An object is made after a point, for a project that is made after it too. -/
def Owns (w : World φ) (id : ObjectId) : Prop :=
  m.objects ≤ id ∧ m.projects ≤ (w.object id).project

/-- A world in which the projects after a point hold only objects after it. -/
structure Sealed (w : World φ) : Prop where
  objects : m.objects ≤ w.objects.length
  projects : m.projects ≤ w.projects.length
  held : ∀ project, m.projects ≤ project → ∀ id, (w.project project).Holds id → m.Owns w id

/-- What a single step of the engine makes of a world. -/
inductive Change : World φ → World φ → Prop
  /-- Neither projects nor objects are touched. -/
  | aside {w after : World φ} (projects : after.projects = w.projects)
      (objects : after.objects = w.objects) : Change w after
  /-- An object changes, but not its kind or the project that it is made for. -/
  | object {w after : World φ} (id : ObjectId) (change : Object → Object)
      (later : m.objects ≤ id) (kind : (change (w.object id)).kind = (w.object id).kind)
      (home : (change (w.object id)).project = (w.object id).project)
      (projects : after.projects = w.projects)
      (objects : after.objects = w.objects.modify id change) : Change w after
  /-- A project changes, its properties only as they admit it. -/
  | project {w after : World φ} (id : ProjectId) (change : Project → Project)
      (later : m.projects ≤ id)
      (written : (w.project id).properties.Written (change (w.project id)).properties)
      (held : ∀ o, (change (w.project id)).Holds o → (w.project id).Holds o ∨ m.Owns w o)
      (projects : after.projects = w.projects.modify id change)
      (objects : after.objects = w.objects) : Change w after
  | newObject {w after : World φ} (o : Object) (home : m.projects ≤ o.project)
      (projects : after.projects = w.projects) (objects : after.objects = w.objects ++ [o]) :
      Change w after
  | newProject {w after : World φ} (p : Project) (empty : ∀ o, ¬ p.Holds o)
      (projects : after.projects = w.projects ++ [p]) (objects : after.objects = w.objects) :
      Change w after

/-- Steps of the engine lead from one world to another one. -/
def Reaches : World φ → World φ → Prop := ReflTransGen m.Change

end Mark

/-- An object is there, and was made for a project. -/
def World.MadeFor (w : World φ) (id : ObjectId) (project : ProjectId) : Prop :=
  id < w.objects.length ∧ (w.object id).project = project

/-- An object is of a kind whose declarations agree with each other. -/
def World.Describes (w : World φ) (id : ObjectId) : Prop :=
  ∃ kind s, (w.object id).kind = (w.kinds.get kind).id ∧
    Signature.ofKind w.kinds (w.kinds.get kind) = .ok s

theorem World.Describes.of_same {w after : World φ} {id : ObjectId} (described : w.Describes id)
    (kinds : after.kinds = w.kinds) (kind : (after.object id).kind = (w.object id).kind) :
    after.Describes id := by
  rwa [Describes, kinds, kind]

namespace Project

/-- What stands at a position of a target. -/
def invocation? (p : Project) (target : String) (index : Nat) : Option Invocation :=
  (p.target? target).bind fun t => t.invocations[index]?

/-- Whatever stands in targets of a project stands in those of another one too: with its element,
and with an object if it has one. -/
def Retains (p q : Project) : Prop :=
  ∀ target index i, p.invocation? target index = some i →
    ∃ j, q.invocation? target index = some j ∧ j.element = i.element ∧
      (i.object.isSome = true → j.object.isSome = true)

theorem Retains.of_same {p q : Project} (targets : q.targets = p.targets) (root : q.root = p.root) :
    p.Retains q := by
  intro target index i stands
  refine ⟨i, ?_, rfl, id⟩
  rwa [invocation?, target?, targets, root]

theorem Retains.refl (p : Project) : p.Retains p := .of_same rfl rfl

/-- Nothing stands in targets of a project that was not made. -/
theorem invocation?_default (target : String) (index : Nat) :
    (default : Project).invocation? target index = none := by
  unfold invocation? target?
  split <;> rfl

theorem Retains.of_default (p : Project) : (default : Project).Retains p := by
  intro target index i stands
  rw [invocation?_default] at stands
  cases stands

theorem Retains.trans {p q r : Project} (first : p.Retains q) (second : q.Retains r) :
    p.Retains r := by
  intro target index i stands
  obtain ⟨j, there, element, object⟩ := first target index i stands
  obtain ⟨k, still, same, kept⟩ := second target index j there
  exact ⟨k, still, same.trans element, fun made => kept (object made)⟩

/-- Where an invocation changes, the change stands at its position. -/
theorem invocation?_changeInvocation {p : Project} {target : String} {index : Nat} {i : Invocation}
    (stands : p.invocation? target index = some i) (change : Invocation → Invocation) :
    (p.changeInvocations target (·.modify index change)).invocation? target index =
      some (change i) := by
  obtain ⟨t, found, listed⟩ := Option.bind_eq_some_iff.mp stands
  rw [invocation?, target?_changeInvocations, if_pos rfl, found, Option.map_some, Option.bind_some,
    List.getElem?_modify, listed]
  simp

end Project

/-- A kind of steps that admits whatever is done on behalf of a project since a point, and nothing
that the engine does not do. Nobody is told of it. What all such steps keep is kept by all that is
done; so this is shown once, for every kind of steps. -/
class Mark.Admits (m : Mark) (step : World φ → World φ → Prop) : Prop where
  change {w after : World φ} : step w after → m.Change w after
  /-- Something else changes than projects and objects; about kinds something may be learnt. -/
  aside {w after : World φ} (kinds : w.kinds.Learns after.kinds)
    (projects : after.projects = w.projects) (objects : after.objects = w.objects)
    (observer : after.observer = w.observer) : step w after
  object {w after : World φ} (id : ObjectId) (change : Object → Object) (later : m.objects ≤ id)
    (kind : (change (w.object id)).kind = (w.object id).kind)
    (home : (change (w.object id)).project = (w.object id).project)
    (kinds : after.kinds = w.kinds) (projects : after.projects = w.projects)
    (objects : after.objects = w.objects.modify id change) (observer : after.observer = w.observer) :
    step w after
  /-- A project changes, but not how it takes failures, nor what stands in its targets. It holds no
  other objects than before but those that were made for it, of kinds whose declarations agree. -/
  project {w after : World φ} (id : ProjectId) (change : Project → Project)
    (later : m.projects ≤ id)
    (written : (w.project id).properties.Written (change (w.project id)).properties)
    (halts : (change (w.project id)).haltOnFailure = (w.project id).haltOnFailure)
    (places : (w.project id).Retains (change (w.project id)))
    (held : ∀ o, (change (w.project id)).Holds o →
      (w.project id).Holds o ∨ m.Owns w o ∧ w.MadeFor o id ∧ w.Describes o)
    (kinds : after.kinds = w.kinds) (projects : after.projects = w.projects.modify id change)
    (objects : after.objects = w.objects) (observer : after.observer = w.observer) : step w after
  newObject {w after : World φ} (o : Object) (home : m.projects ≤ o.project)
    (kinds : after.kinds = w.kinds) (projects : after.projects = w.projects)
    (objects : after.objects = w.objects ++ [o]) (observer : after.observer = w.observer) :
    step w after
  /-- A project is made that halts on failures. -/
  newProject {w after : World φ} (p : Project) (halts : p.haltOnFailure = true)
    (empty : ∀ o, ¬ p.Holds o) (kinds : after.kinds = w.kinds)
    (projects : after.projects = w.projects ++ [p]) (objects : after.objects = w.objects)
    (observer : after.observer = w.observer) : step w after

/-- A kind of steps that admits telling the observer as well. -/
class Mark.AdmitsNews (m : Mark) (step : World φ → World φ → Prop) : Prop extends
    m.Admits step where
  news {w after : World φ} (kinds : after.kinds = w.kinds) (projects : after.projects = w.projects)
    (objects : after.objects = w.objects) : step w after

instance Mark.admits_change (m : Mark) : m.AdmitsNews (m.Change (φ := φ)) where
  change := id
  aside _ projects objects _ := .aside projects objects
  object id change later kind home _ projects objects _ :=
    .object id change later kind home projects objects
  project id change later written _ _ held _ projects objects _ :=
    .project id change later written (fun o holds => (held o holds).imp_right And.left) projects
      objects
  newObject o home _ projects objects _ := .newObject o home projects objects
  newProject p _ empty _ projects objects _ := .newProject p empty projects objects
  news _ := .aside

namespace World

variable {w after : World φ} {id other : ObjectId} {project : ProjectId}

theorem project_unmade (unmade : w.projects.length ≤ project) : w.project project = default := by
  rw [World.project, List.getElem?_eq_none unmade]
  rfl

theorem project_of_same (same : after.projects = w.projects) (project : ProjectId) :
    after.project project = w.project project := by
  rw [World.project, same, World.project]

theorem object_of_same (same : after.objects = w.objects) (id : ObjectId) :
    after.object id = w.object id := by
  rw [World.object, same, World.object]

/-- A changed project is the change of what it was; the others stay. -/
theorem project_of_modify {change : Project → Project}
    (same : after.projects = w.projects.modify id change) (project : ProjectId) :
    after.project project = w.project project ∨
      project = id ∧ after.project project = change (w.project project) := by
  simp only [World.project, same, List.getElem?_modify]
  cases w.projects[project]? with
  | none => exact .inl rfl
  | some p =>
    by_cases changed : id = project
    · exact .inr ⟨changed.symm, by simp [changed]⟩
    · exact .inl (by simp [changed])

theorem object_of_modify {change : Object → Object}
    (same : after.objects = w.objects.modify id change) (other : ObjectId) :
    after.object other = w.object other ∨
      other = id ∧ after.object other = change (w.object other) := by
  simp only [World.object, same, List.getElem?_modify]
  cases w.objects[other]? with
  | none => exact .inl rfl
  | some o =>
    by_cases changed : id = other
    · exact .inr ⟨changed.symm, by simp [changed]⟩
    · exact .inl (by simp [changed])

/-- An object that is there changes if it is the changed one, and stays otherwise. -/
theorem object_of_modify_present {change : Object → Object}
    (same : after.objects = w.objects.modify id change) (present : other < w.objects.length) :
    after.object other = if id = other then change (w.object other) else w.object other := by
  simp only [World.object, same, List.getElem?_modify, List.getElem?_eq_getElem present]
  by_cases changed : id = other
  · simp [changed]
  · simp [changed]

theorem project_of_modify_present {change : Project → Project}
    (same : after.projects = w.projects.modify id change) (present : project < w.projects.length) :
    after.project project =
      if id = project then change (w.project project) else w.project project := by
  simp only [World.project, same, List.getElem?_modify, List.getElem?_eq_getElem present]
  by_cases changed : id = project
  · simp [changed]
  · simp [changed]

/-- A new project stands after all others, which stay. -/
theorem project_of_append {p : Project} (same : after.projects = w.projects ++ [p])
    (project : ProjectId) :
    after.project project = if project = w.projects.length then p else w.project project := by
  simp only [World.project, same, List.getElem?_append]
  rcases Nat.lt_trichotomy project w.projects.length with below | last | above
  · rw [if_pos below, if_neg (Nat.ne_of_lt below)]
  · rw [if_neg (Nat.not_lt_of_ge (Nat.le_of_eq last.symm)), if_pos last, last]
    simp
  · rw [if_neg (Nat.not_lt_of_gt above), if_neg (Nat.ne_of_gt above),
      List.getElem?_eq_none (Nat.sub_pos_of_lt above), List.getElem?_eq_none (Nat.le_of_lt above)]

theorem object_of_append {o : Object} (same : after.objects = w.objects ++ [o]) (id : ObjectId) :
    after.object id = if id = w.objects.length then o else w.object id := by
  simp only [World.object, same, List.getElem?_append]
  rcases Nat.lt_trichotomy id w.objects.length with below | last | above
  · rw [if_pos below, if_neg (Nat.ne_of_lt below)]
  · rw [if_neg (Nat.not_lt_of_ge (Nat.le_of_eq last.symm)), if_pos last, last]
    simp
  · rw [if_neg (Nat.not_lt_of_gt above), if_neg (Nat.ne_of_gt above),
      List.getElem?_eq_none (Nat.sub_pos_of_lt above), List.getElem?_eq_none (Nat.le_of_lt above)]

end World

namespace Mark

variable {m : Mark} {w w₁ after : World φ} {id : ObjectId} {project : ProjectId}

/-- A change behind some entries of a list leaves them as they are. -/
theorem take_modify_of_le {α : Type} {entries : List α} {count position : Nat} (change : α → α)
    (behind : count ≤ position) : (entries.modify position change).take count = entries.take count := by
  rw [List.take_modify]
  exact List.modify_eq_self (Nat.le_trans (List.length_take_le _ _) behind)

namespace Change

/-- An object keeps the project that it was made for. -/
theorem owns (step : m.Change w after) (owned : m.Owns w id) : m.Owns after id := by
  obtain ⟨later, home⟩ := owned
  refine ⟨later, ?_⟩
  cases step with
  | aside _ objects => rwa [World.object_of_same objects]
  | object changed change _ _ kept _ objects =>
    rcases World.object_of_modify objects id with same | ⟨rfl, same⟩
    · rwa [same]
    · rwa [same, kept]
  | project _ _ _ _ _ _ objects => rwa [World.object_of_same objects]
  | newObject o made _ objects =>
    rw [World.object_of_append objects]
    split
    · exact made
    · exact home
  | newProject _ _ _ objects => rwa [World.object_of_same objects]

/-- An object stays with the project that it was made for. -/
theorem madeFor (step : m.Change w after) (made : w.MadeFor id project) :
    after.MadeFor id project := by
  obtain ⟨present, home⟩ := made
  cases step with
  | aside _ objects => exact ⟨by rwa [objects], by rwa [World.object_of_same objects]⟩
  | object changed change _ _ kept _ objects =>
    refine ⟨by simpa [objects] using present, ?_⟩
    rcases World.object_of_modify objects id with same | ⟨rfl, same⟩
    · rwa [same]
    · rwa [same, kept]
  | project _ _ _ _ _ _ objects =>
    exact ⟨by rwa [objects], by rwa [World.object_of_same objects]⟩
  | newObject o _ _ objects =>
    refine ⟨by rw [objects, List.length_append]; exact Nat.lt_add_right _ present, ?_⟩
    rwa [World.object_of_append objects, if_neg (Nat.ne_of_lt present)]
  | newProject _ _ _ objects => exact ⟨by rwa [objects], by rwa [World.object_of_same objects]⟩

/-- An object keeps its kind. -/
theorem kind (step : m.Change w after) (present : id < w.objects.length) :
    (after.object id).kind = (w.object id).kind := by
  cases step with
  | aside _ objects => rw [World.object_of_same objects]
  | object changed change _ kept _ _ objects =>
    rcases World.object_of_modify objects id with same | ⟨rfl, same⟩
    · rw [same]
    · rw [same, kept]
  | project _ _ _ _ _ _ objects => rw [World.object_of_same objects]
  | newObject o _ _ objects =>
    rw [World.object_of_append objects, if_neg (Nat.ne_of_lt present)]
  | newProject _ _ _ objects => rw [World.object_of_same objects]

theorem objects_le (step : m.Change w after) : w.objects.length ≤ after.objects.length := by
  cases step with
  | aside _ objects => simp [objects]
  | object _ _ _ _ _ _ objects => simp [objects]
  | project _ _ _ _ _ _ objects => simp [objects]
  | newObject _ _ _ objects => simp [objects]
  | newProject _ _ _ objects => simp [objects]

theorem projects_le (step : m.Change w after) : w.projects.length ≤ after.projects.length := by
  cases step with
  | aside projects _ => simp [projects]
  | object _ _ _ _ _ projects _ => simp [projects]
  | project _ _ _ _ _ projects _ => simp [projects]
  | newObject _ _ projects _ => simp [projects]
  | newProject _ _ projects _ => simp [projects]

/-- The projects after a point still hold only objects after it. -/
theorem isSealed (step : m.Change w after) (before : m.Sealed w) : m.Sealed after := by
  refine ⟨Nat.le_trans before.objects step.objects_le,
    Nat.le_trans before.projects step.projects_le, ?_⟩
  intro project later id holds
  have owned : ∀ {o}, m.Owns w o → m.Owns after o := step.owns
  have kept : (w.project project).Holds id → m.Owns after id :=
    fun holds => owned (before.held project later id holds)
  cases step with
  | aside projects _ => exact kept (by rwa [← World.project_of_same projects])
  | object _ _ _ _ _ projects _ => exact kept (by rwa [← World.project_of_same projects])
  | project changed change _ _ held projects _ =>
    rcases World.project_of_modify projects project with same | ⟨rfl, same⟩
    · exact kept (by rwa [← same])
    · rw [same] at holds
      exact (held id holds).elim kept owned
  | newObject _ _ projects _ => exact kept (by rwa [← World.project_of_same projects])
  | newProject p empty projects _ =>
    rw [World.project_of_append projects] at holds
    split at holds
    · exact absurd holds (empty id)
    · exact kept holds

/-- A project that is there keeps its user properties. -/
theorem find?_of_user (step : m.Change w after) (present : project < w.projects.length)
    {name : String} {given : Property}
    (found : (w.project project).properties.table.find? name = some given)
    (user : given.isUser = true) :
    (after.project project).properties.table.find? name = some given := by
  cases step with
  | aside projects _ => rwa [World.project_of_same projects]
  | object _ _ _ _ _ projects _ => rwa [World.project_of_same projects]
  | project changed change _ written _ projects _ =>
    rcases World.project_of_modify projects project with same | ⟨rfl, same⟩
    · rwa [same]
    · rw [same]
      exact written.find?_of_user found user
  | newObject _ _ projects _ => rwa [World.project_of_same projects]
  | newProject _ _ projects _ => rwa [World.project_of_append projects, if_neg (Nat.ne_of_lt present)]

/-- What is older than the point stays as it is. -/
theorem old (step : m.Change w after) (before : m.Sealed w) :
    after.projects.take m.projects = w.projects.take m.projects ∧
      after.objects.take m.objects = w.objects.take m.objects := by
  cases step with
  | aside projects objects => rw [projects, objects]; exact ⟨rfl, rfl⟩
  | object _ _ later _ _ projects objects =>
    rw [projects, objects]
    exact ⟨rfl, take_modify_of_le _ later⟩
  | project _ _ later _ _ projects objects =>
    rw [projects, objects]
    exact ⟨take_modify_of_le _ later, rfl⟩
  | newObject _ _ projects objects =>
    rw [projects, objects, List.take_append_of_le_length before.objects]
    exact ⟨rfl, rfl⟩
  | newProject _ _ projects objects =>
    rw [projects, objects, List.take_append_of_le_length before.projects]
    exact ⟨rfl, rfl⟩

end Change

namespace Reaches

theorem refl (m : Mark) (w : World φ) : m.Reaches w w := ReflTransGen.refl

theorem ofSteps {kind : World φ → World φ → Prop} [m.Admits kind]
    (steps : ReflTransGen kind w after) : m.Reaches w after :=
  ReflTransGen.mono (fun _ _ => Admits.change) _ _ steps

theorem trans (first : m.Reaches w w₁) (second : m.Reaches w₁ after) : m.Reaches w after :=
  ReflTransGen.trans first second

theorem owns (steps : m.Reaches w after) (owned : m.Owns w id) : m.Owns after id := by
  induction steps with
  | refl => exact owned
  | tail _ step ih => exact step.owns ih

theorem madeFor (steps : m.Reaches w after) (made : w.MadeFor id project) :
    after.MadeFor id project := by
  induction steps with
  | refl => exact made
  | tail _ step ih => exact step.madeFor ih

theorem isSealed (steps : m.Reaches w after) (before : m.Sealed w) : m.Sealed after := by
  induction steps with
  | refl => exact before
  | tail _ step ih => exact step.isSealed ih

theorem projects_le (steps : m.Reaches w after) : w.projects.length ≤ after.projects.length := by
  induction steps with
  | refl => exact Nat.le_refl _
  | tail _ step ih => exact Nat.le_trans ih step.projects_le

/-- However far a build goes, a project keeps its user properties. -/
theorem find?_of_user (steps : m.Reaches w after) (present : project < w.projects.length)
    {name : String} {given : Property}
    (found : (w.project project).properties.table.find? name = some given)
    (user : given.isUser = true) :
    (after.project project).properties.table.find? name = some given := by
  induction steps with
  | refl => exact found
  | tail former step ih =>
    have still := Nat.lt_of_lt_of_le present (projects_le former)
    exact step.find?_of_user still ih user

/-- However far a build goes, what is older than the point stays as it is. -/
theorem old (steps : m.Reaches w after) (before : m.Sealed w) :
    after.projects.take m.projects = w.projects.take m.projects ∧
      after.objects.take m.objects = w.objects.take m.objects := by
  induction steps with
  | refl => exact ⟨rfl, rfl⟩
  | tail former step ih =>
    obtain ⟨projects, objects⟩ := step.old (isSealed former before)
    exact ⟨projects.trans ih.1, objects.trans ih.2⟩

theorem project_old (steps : m.Reaches w after) (before : m.Sealed w)
    (older : project < m.projects) : after.project project = w.project project := by
  have same := congrArg (·[project]?) (steps.old before).1
  simp only [List.getElem?_take, if_pos older] at same
  rw [World.project, same, World.project]

end Reaches
end Mark
end BuildEngine
