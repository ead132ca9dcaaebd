import BuildEngine.Proofs.Change
import BuildEngine.Proofs.Leading

/-! Confined actions: what they do to a world since some point of a build are steps of the engine
since that point. One rule for each way to put actions together, and one for each action of which
all others are made. -/

namespace BuildEngine

open Engine

variable {φ : Type} {α β : Type}

namespace Engine

theorem run_addProject (p : Project) (w : World φ) :
    (addProject p).run w =
      (.ok w.projects.length, { w with projects := w.projects ++ [p] }) := rfl

theorem run_addObject (o : Object) (w : World φ) :
    (addObject o).run w = (.ok w.objects.length, { w with objects := w.objects ++ [o] }) := rfl

end Engine

namespace Mark

variable {m : Mark} {w : World φ} {id : ObjectId} {project : ProjectId}

/-- An action takes steps of the engine since a point, and what it results in is as wanted. -/
def Confined (m : Mark) (w : World φ) (action : Engine φ α)
    (wanted : World φ → α → Prop := fun _ _ => True) : Prop :=
  m.Sealed w → m.Reaches w (action.run w).2 ∧
    ∀ a, (action.run w).1 = .ok a → wanted (action.run w).2 a

/-- An action takes steps of some kind since a point, and what it results in is as wanted. Actions
are confined as far as they take steps of the engine. -/
def Takes (m : Mark) (kind : World φ → World φ → Prop) (w : World φ) (action : Engine φ α)
    (wanted : World φ → α → Prop := fun _ _ => True) : Prop :=
  m.Sealed w → Leads kind w action wanted

variable {kind : World φ → World φ → Prop} [m.Admits kind]

namespace Takes

variable {action : Engine φ α} {next : α → Engine φ β} {wanted : World φ → α → Prop}
variable {later : World φ → β → Prop}

omit [m.Admits kind] in
theorem looks (looks : Looks action) : m.Takes kind w action := fun _ => Leads.looks looks

omit [m.Admits kind] in
theorem pure {a : α} (holds : wanted w a) : m.Takes kind w (pure a) wanted :=
  fun _ => Leads.pure holds

omit [m.Admits kind] in
theorem throw (fault : Fault) : m.Takes kind w (throw fault : Engine φ α) wanted :=
  fun _ => Leads.throw fault

omit [m.Admits kind] in
theorem change {change : World φ → World φ} (single : kind w (change w)) :
    m.Takes kind w (modify change) :=
  fun _ => Leads.change single

theorem bind (first : m.Takes kind w action wanted)
    (rest : ∀ after a, m.Reaches w after → wanted after a → m.Takes kind after (next a) later) :
    m.Takes kind w (action >>= next) later := fun before =>
  Leads.bind (first before) fun after a steps holds =>
    have steps := Reaches.ofSteps steps
    rest after a steps holds (steps.isSealed before)

omit [m.Admits kind] in
/-- What is only looked at leaves the world to the rest. -/
theorem look (looks : Looks action)
    (rest : ∀ a, (action.run w).1 = .ok a → m.Takes kind w (next a) later) :
    m.Takes kind w (action >>= next) later := fun before =>
  Leads.look looks fun a seen => rest a seen before

omit [m.Admits kind] in
theorem map (change : α → β) (takes : m.Takes kind w action wanted)
    (implies : ∀ after a, wanted after a → later after (change a)) :
    m.Takes kind w (change <$> action) later := fun before =>
  Leads.map change (takes before) implies

omit [m.Admits kind] in
theorem imp {further : World φ → α → Prop} (takes : m.Takes kind w action wanted)
    (implies : ∀ after a, wanted after a → further after a) :
    m.Takes kind w action further := fun before =>
  ⟨(takes before).1, fun a ended => implies _ a ((takes before).2 a ended)⟩

theorem tryCatch {handler : Fault → Engine φ α} (first : m.Takes kind w action wanted)
    (handled : ∀ after fault, m.Reaches w after → m.Takes kind after (handler fault) wanted) :
    m.Takes kind w (tryCatch action handler) wanted := fun before =>
  Leads.tryCatch (first before) fun after fault steps =>
    have steps := Reaches.ofSteps steps
    handled after fault steps (steps.isSealed before)

theorem adapting (change : Fault → Fault) (takes : m.Takes kind w action wanted) :
    m.Takes kind w (adapting change action) wanted :=
  takes.tryCatch fun _ _ _ => throw _

omit [m.Admits kind] in
theorem attempt (takes : m.Takes kind w action wanted) :
    m.Takes kind w (attempt action) fun after result => ∀ a, result = .ok a → wanted after a :=
  fun before => Leads.attempt (takes before)

theorem forIn {γ : Type} {body : γ → β → Engine φ (ForInStep β)} (entries : List γ) (start : β)
    (each : ∀ after entry b, m.Reaches w after → m.Takes kind after (body entry b)) :
    m.Takes kind w (forIn entries start body) := fun before =>
  Leads.forIn entries start fun after entry b steps =>
    have steps := Reaches.ofSteps steps
    each after entry b steps (steps.isSealed before)

/-- What an action does comes after what was done since a point before. -/
theorem onward {mid after : World φ} {result : Except Fault α}
    (takes : m.Takes kind mid action wanted) (start : m.Sealed w)
    (former : Relation.ReflTransGen kind w mid) (ran : action.run mid = (result, after)) :
    Relation.ReflTransGen kind w after := by
  have steps := (takes ((Reaches.ofSteps former).isSealed start)).1
  rw [ran] at steps
  exact former.trans steps

end Takes

/-! The actions of which all others are made. -/

section Primitive

theorem confined_log (level : LogLevel) (logger message : String) :
    m.Takes kind w (log level logger message) := .change (Admits.aside m (.inl rfl) rfl rfl rfl)

omit [m.Admits kind] in
theorem confined_notify [m.AdmitsNews kind] (event : Event) : m.Takes kind w (notify event) := by
  refine .change ?_
  split <;> exact AdmitsNews.news m rfl rfl rfl

theorem confined_changeFiles (operation : φ → Except FileError φ) :
    m.Takes kind w (changeFiles operation) := by
  refine .look .get fun _ seen => ?_
  cases seen
  cases operation w.files with
  | error => exact .throw _
  | ok files => exact fun _ => ⟨.single (Admits.aside m (.inl rfl) rfl rfl rfl), fun _ _ => trivial⟩

theorem confined_changeRegistry (change : Registry → Except RegistrationError Registry) :
    m.Takes kind w (changeRegistry change) := by
  refine .look .get fun _ seen => ?_
  cases seen
  cases change w.registry with
  | error => exact .throw _
  | ok registry =>
    exact fun _ => ⟨.single (Admits.aside m (.inl rfl) rfl rfl rfl), fun _ _ => trivial⟩

theorem confined_declareKind {d : Declaration} (bases : d.bases = [.standard .object])
    (members : d.members = []) : m.Takes kind w (declareKind d) := by
  refine .look .get fun _ seen => ?_
  cases seen
  cases declares : w.kinds.declare d with
  | error => exact .throw _
  | ok declared =>
    refine fun _ => ⟨.single (Admits.aside m ?_ rfl rfl rfl), fun _ _ => trivial⟩
    exact .inr ⟨d, declared.1, bases, members, declares⟩

/-- An object that changes keeps its kind. -/
theorem keeps_changeObject {change : Object → Object} (owned : m.Owns w id)
    (same : ∀ o, (change o).kind = o.kind) (home : ∀ o, (change o).project = o.project) :
    m.Takes kind w (changeObject id change) fun after _ => after.kinds = w.kinds ∧
      ∀ other, (after.object other).kind = (w.object other).kind := by
  refine fun _ => ⟨.single (Admits.object id change owned.1 (same _) (home _) rfl rfl rfl rfl), ?_⟩
  refine fun _ _ => ⟨rfl, fun other => ?_⟩
  let after : World φ := { w with objects := w.objects.modify id change }
  have changes : after.object other = w.object other ∨
      other = id ∧ after.object other = change (w.object other) := World.object_of_modify rfl other
  rcases changes with stays | ⟨-, changed⟩
  · exact congrArg Object.kind stays
  · exact (congrArg Object.kind changed).trans (same _)

theorem confined_changeObject {change : Object → Object} (owned : m.Owns w id)
    (same : ∀ o, (change o).kind = o.kind) (home : ∀ o, (change o).project = o.project) :
    m.Takes kind w (changeObject id change) :=
  (keeps_changeObject owned same home).imp fun _ _ _ => trivial

theorem confined_changeProject {change : Project → Project} (later : m.projects ≤ project)
    (written : (w.project project).properties.Written (change (w.project project)).properties)
    (halts : (change (w.project project)).haltOnFailure = (w.project project).haltOnFailure)
    (places : (w.project project).Retains (change (w.project project)))
    (held : ∀ o, (change (w.project project)).Holds o →
      (w.project project).Holds o ∨ m.Owns w o ∧ w.MadeFor o project ∧ w.Describes o) :
    m.Takes kind w (changeProject project change) :=
  .change (Admits.project project change later written halts places held rfl rfl rfl rfl)

/-- An object that is made for a project after a point is made after it too. -/
theorem confined_addObject {o : Object} (home : m.projects ≤ o.project) :
    m.Takes kind w (addObject o) fun after id =>
      m.Owns after id ∧ after.MadeFor id o.project ∧ after.kinds = w.kinds ∧ after.object id = o := by
  intro before
  let after : World φ := { w with objects := w.objects ++ [o] }
  have last : after.object w.objects.length = o := by rw [World.object_of_append rfl, if_pos rfl]
  have owned : m.Owns after w.objects.length := ⟨before.objects, by rwa [last]⟩
  have made : after.MadeFor w.objects.length o.project := ⟨by simp [after], by rw [last]⟩
  rw [Leads, run_addObject]
  refine ⟨.single (Admits.newObject o home rfl rfl rfl rfl), ?_⟩
  rintro _ ⟨⟩
  exact ⟨owned, made, rfl, last⟩

theorem confined_addProject {p : Project} (halts : p.haltOnFailure = true)
    (empty : ∀ o, ¬ p.Holds o) : m.Takes kind w (addProject p) fun _ id => m.projects ≤ id := by
  refine .look .get fun _ seen => ?_
  cases seen
  intro before
  refine ⟨.single (Admits.newProject m p halts empty rfl rfl rfl rfl), ?_⟩
  rintro _ ⟨⟩
  exact before.projects

theorem confined_setProperty (later : m.projects ≤ project) (name value : String)
    (override : Bool) : m.Takes kind w (setProperty project name value override) := by
  refine .look (.observe _) fun _ seen => ?_
  cases seen
  refine .bind (confined_changeProject later ?_ rfl (.of_same rfl rfl) fun _ => .inl)
    fun _ _ _ _ => .pure trivial
  exact .set _ name value override

theorem confined_register (later : m.projects ≤ project) (name : String) (object : ObjectId) :
    m.Takes kind w (register project name object) := by
  refine .look (.observe _) fun _ _ => ?_
  have named (after : World φ) : m.Takes kind after (changeProject project fun p =>
      { p with references := p.references.register name object }) :=
    confined_changeProject later .refl rfl (.of_same rfl rfl) fun _ => .inl
  split
  · exact .bind (confined_log _ _ _) fun after _ _ _ => named after
  · exact named w

end Primitive
end Mark
end BuildEngine
