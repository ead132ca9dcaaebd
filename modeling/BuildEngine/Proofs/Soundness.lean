import BuildEngine.Proofs.Change
import BuildEngine.Proofs.Terms

/-! Sound actions. An action is sound at a stage of a build if it does not notice that the files and
the directory of the run are changed, keeps what is kept of the world, and ends with a result as
wanted or with a fault that may be. One rule for each way to put actions together, and one for each
action of which all others are made. -/

namespace BuildEngine

open Engine

variable {φ : Type} {α β γ : Type}

namespace Terms

variable [FileSystem φ] (t : Terms φ)

/-- Faults that may come up: what is wrong about the build description or fails in a task is at a
known place. -/
def allows : Fault → Bool
  | .configuration _ l | .task _ l => t.known l
  | .build _ _ cause => allows cause
  | _ => true

/-- Faults that may come up where faults of the build description are still to be placed. -/
def tolerates : Fault → Bool
  | .configuration .. => true
  | fault => t.allows fault

theorem tolerates_of_allows (fault : Fault) (allowed : t.allows fault = true) :
    t.tolerates fault = true := by
  cases fault with
  | configuration => rfl
  | _ => exact allowed

theorem allows_placed {l : Location} (known : t.known l = true) (fault : Fault)
    (tolerated : t.tolerates fault = true) : t.allows (fault.placed l) = true := by
  cases fault with
  | configuration problem old => exact t.known_orElse old l (.inr known)
  | _ => exact tolerated

theorem allows_faultAt {l : Location} (known : t.known l = true) (problem : Problem) :
    t.allows (problem.faultAt l) = true :=
  t.known_orElse _ _ (.inr known)

theorem allows_failure {l : Location} (known : t.known l = true) (message : String) :
    t.allows (l.failure message) = true :=
  t.known_orElse _ _ (.inr known)

/-- An action that changes nothing and does not notice the change of the files. -/
def Sees (may : Fault → Bool) (s : Stage φ) (action : Engine φ α)
    (wanted : α → Prop := fun _ => True) : Prop :=
  ∃ result, action.run s.world = (result, s.world) ∧
    action.run (t.turned s.world) = (result, t.turned s.world) ∧ Admissible may result wanted

/-- An action that does not notice the change of the files and leads to a later stage. -/
def Runs (may : Fault → Bool) (s : Stage φ) (action : Engine φ α)
    (wanted : Stage φ → α → Prop) : Prop :=
  ∃ result s', action.run s.world = (result, s'.world) ∧
    action.run (t.turned s.world) = (result, t.turned s'.world) ∧ t.Later s s' ∧
    match result with
    | .ok a => wanted s' a
    | .error fault => may fault = true ∧ t.Meets s'

/-- An action that does not notice the change of the files and keeps what is kept of the world. -/
abbrev Sound (may : Fault → Bool) (s : Stage φ) (action : Engine φ α)
    (wanted : Stage φ → α → Prop := fun _ _ => True) : Prop :=
  t.Runs may s action fun s' a => t.Meets s' ∧ wanted s' a

variable {t} {may other : Fault → Bool} {s : Stage φ}
variable {action : Engine φ α} {next : α → Engine φ β}

namespace Sees

variable {wanted : α → Prop} {later : β → Prop}

theorem pure {a : α} (holds : wanted a) : t.Sees may s (pure a) wanted :=
  ⟨.ok a, rfl, rfl, holds⟩

theorem throw {fault : Fault} (allowed : may fault = true) :
    t.Sees may s (MonadExcept.throw fault : Engine φ α) wanted :=
  ⟨.error fault, rfl, rfl, allowed⟩

theorem observe {look : World φ → α} (same : look (t.turned s.world) = look s.world)
    (holds : wanted (look s.world)) : t.Sees may s (observe look) wanted := by
  refine ⟨.ok (look s.world), rfl, ?_, holds⟩
  rw [run_observe, same]

theorem observed {look : World φ → α} (same : look (t.turned s.world) = look s.world) :
    t.Sees may s (Engine.observe look) fun a => a = look s.world :=
  observe same rfl

theorem consult {look : World φ → Except Fault α}
    (same : look (t.turned s.world) = look s.world)
    (admissible : Admissible may (look s.world) wanted) : t.Sees may s (consult look) wanted := by
  have runs (w : World φ) : (Engine.consult look).run w = (look w, w) := by
    rw [Engine.consult, run_bind_ok (run_get w)]
    cases look w <;> rfl
  exact ⟨look s.world, runs _, by rw [runs, same], admissible⟩

theorem bind (first : t.Sees may s action wanted)
    (rest : ∀ a, wanted a → t.Sees may s (next a) later) :
    t.Sees may s (action >>= next) later := by
  obtain ⟨result, here, there, admissible⟩ := first
  cases result with
  | error fault => exact ⟨.error fault, run_bind_error here, run_bind_error there, admissible⟩
  | ok a =>
    obtain ⟨final, here', there', ends⟩ := rest a admissible
    exact ⟨final, (run_bind_ok here).trans here', (run_bind_ok there).trans there', ends⟩

theorem map (change : α → β) (sees : t.Sees may s action wanted)
    (implies : ∀ a, wanted a → later (change a)) : t.Sees may s (change <$> action) later := by
  obtain ⟨result, here, there, admissible⟩ := sees
  refine ⟨result.map change, by rw [run_map, here], by rw [run_map, there], ?_⟩
  cases result with
  | ok a => exact implies a admissible
  | error => exact admissible

theorem imp {further : α → Prop} (sees : t.Sees may s action wanted)
    (implies : ∀ a, wanted a → further a)
    (allows : ∀ fault, may fault = true → other fault = true) : t.Sees other s action further := by
  obtain ⟨result, here, there, admissible⟩ := sees
  refine ⟨result, here, there, ?_⟩
  cases result with
  | ok a => exact implies a admissible
  | error fault => exact allows fault admissible

theorem adapting {change : Fault → Fault} (sees : t.Sees may s action wanted)
    (becomes : ∀ fault, may fault = true → other (change fault) = true) :
    t.Sees other s (adapting change action) wanted := by
  obtain ⟨result, here, there, admissible⟩ := sees
  cases result with
  | ok a => exact ⟨.ok a, run_tryCatch_ok here, run_tryCatch_ok there, admissible⟩
  | error fault =>
    exact ⟨.error (change fault), run_tryCatch_error here, run_tryCatch_error there,
      becomes fault admissible⟩

theorem locating {l : Location} (known : t.known l = true)
    (sees : t.Sees t.tolerates s action wanted) : t.Sees t.allows s (locating l action) wanted :=
  sees.adapting (t.allows_placed known)

/-- What is only looked at keeps what is kept of the world. -/
theorem sound (sees : t.Sees may s action wanted) (meets : t.Meets s) :
    t.Sound may s action fun _ a => wanted a := by
  obtain ⟨result, here, there, admissible⟩ := sees
  refine ⟨result, s, here, there, .refl t s, ?_⟩
  cases result with
  | ok a => exact ⟨meets, admissible⟩
  | error fault => exact ⟨admissible, meets⟩

end Sees

namespace Runs

variable {wanted : Stage φ → α → Prop} {later : Stage φ → β → Prop}

theorem pure {a : α} (holds : wanted s a) : t.Runs may s (pure a) wanted :=
  ⟨.ok a, s, rfl, rfl, .refl t s, holds⟩

theorem throw {fault : Fault} (allowed : may fault = true) (meets : t.Meets s) :
    t.Runs may s (MonadExcept.throw fault : Engine φ α) wanted :=
  ⟨.error fault, s, rfl, rfl, .refl t s, allowed, meets⟩

theorem throw_bind {fault : Fault} (allowed : may fault = true) (meets : t.Meets s) :
    t.Runs may s ((MonadExcept.throw fault : Engine φ α) >>= next) later :=
  ⟨.error fault, s, rfl, rfl, .refl t s, allowed, meets⟩

theorem bind (first : t.Runs may s action wanted)
    (rest : ∀ s' a, t.Later s s' → wanted s' a → t.Runs may s' (next a) later) :
    t.Runs may s (action >>= next) later := by
  obtain ⟨result, s', here, there, step, ends⟩ := first
  cases result with
  | error fault =>
    exact ⟨.error fault, s', run_bind_error here, run_bind_error there, step, ends⟩
  | ok a =>
    obtain ⟨final, s'', here', there', further, done⟩ := rest s' a step ends
    exact ⟨final, s'', (run_bind_ok here).trans here', (run_bind_ok there).trans there',
      step.trans further, done⟩

/-- What is only looked at leaves the stage to the rest. -/
theorem look {seen : α → Prop} (sees : t.Sees may s action seen) (meets : t.Meets s)
    (rest : ∀ a, seen a → t.Runs may s (next a) later) :
    t.Runs may s (action >>= next) later := by
  obtain ⟨result, here, there, admissible⟩ := sees
  cases result with
  | error fault =>
    exact ⟨.error fault, s, run_bind_error here, run_bind_error there, .refl t s, admissible,
      meets⟩
  | ok a =>
    obtain ⟨final, s', here', there', step, done⟩ := rest a admissible
    exact ⟨final, s', (run_bind_ok here).trans here', (run_bind_ok there).trans there', step, done⟩

theorem imp {further : Stage φ → α → Prop} (runs : t.Runs may s action wanted)
    (implies : ∀ s' a, t.Later s s' → wanted s' a → further s' a)
    (allows : ∀ fault, may fault = true → other fault = true) : t.Runs other s action further := by
  obtain ⟨result, s', here, there, step, ends⟩ := runs
  refine ⟨result, s', here, there, step, ?_⟩
  cases result with
  | ok a => exact implies s' a step ends
  | error fault => exact ⟨allows fault ends.1, ends.2⟩

theorem map (change : α → β) (runs : t.Runs may s action wanted)
    (implies : ∀ s' a, t.Later s s' → wanted s' a → later s' (change a)) :
    t.Runs may s (change <$> action) later := by
  obtain ⟨result, s', here, there, step, ends⟩ := runs
  refine ⟨result.map change, s', by rw [run_map, here], by rw [run_map, there], step, ?_⟩
  cases result with
  | ok a => exact implies s' a step ends
  | error => exact ends

theorem tryCatch {handler : Fault → Engine φ α} (first : t.Runs may s action wanted)
    (handled : ∀ s' fault, t.Later s s' → t.Meets s' → may fault = true →
      t.Runs other s' (handler fault) wanted) :
    t.Runs other s (MonadExcept.tryCatch action handler) wanted := by
  obtain ⟨result, s', here, there, step, ends⟩ := first
  cases result with
  | ok a => exact ⟨.ok a, s', run_tryCatch_ok here, run_tryCatch_ok there, step, ends⟩
  | error fault =>
    obtain ⟨final, s'', here', there', further, done⟩ := handled s' fault step ends.2 ends.1
    exact ⟨final, s'', (run_tryCatch_error here).trans here',
      (run_tryCatch_error there).trans there', step.trans further, done⟩

theorem adapting {change : Fault → Fault} (runs : t.Runs may s action wanted)
    (becomes : ∀ fault, may fault = true → other (change fault) = true) :
    t.Runs other s (adapting change action) wanted := by
  apply runs.tryCatch
  intro s' fault _ meets allowed
  exact throw (becomes fault allowed) meets

theorem locating {l : Location} (known : t.known l = true)
    (runs : t.Runs t.tolerates s action wanted) : t.Runs t.allows s (locating l action) wanted :=
  runs.adapting (t.allows_placed known)

end Runs

namespace Sound

variable {wanted : Stage φ → α → Prop} {later : Stage φ → β → Prop}

theorem bind (first : t.Sound may s action wanted)
    (rest : ∀ s' a, t.Later s s' → t.Meets s' → wanted s' a → t.Runs may s' (next a) later) :
    t.Runs may s (action >>= next) later := by
  apply Runs.bind first
  intro s' a step ends
  exact rest s' a step ends.1 ends.2

/-- What an action ends with does not matter. -/
theorem forget (sound : t.Sound may s action wanted) : t.Sound may s action :=
  Runs.imp sound (fun _ _ _ both => ⟨both.1, trivial⟩) fun _ allowed => allowed

theorem attempt (sound : t.Sound may s action wanted) :
    t.Sound other s (attempt action) fun s' result =>
      match result with
      | .ok a => wanted s' a
      | .error fault => may fault = true := by
  obtain ⟨result, s', here, there, step, ends⟩ := sound
  refine ⟨.ok result, s', by rw [run_attempt, here], by rw [run_attempt, there], step, ?_⟩
  cases result with
  | ok a => exact ends
  | error fault => exact ⟨ends.2, ends.1⟩

theorem forIn {body : γ → β → Engine φ (ForInStep β)} (entries : List γ) (start : β)
    (meets : t.Meets s)
    (each : ∀ s' entry b, t.Later s s' → t.Meets s' → entry ∈ entries →
      t.Sound may s' (body entry b)) : t.Sound may s (forIn entries start body) := by
  induction entries generalizing s start with
  | nil => exact Runs.pure ⟨meets, trivial⟩
  | cons entry rest ih =>
    rw [List.forIn_cons]
    apply (each s entry start (.refl t s) meets List.mem_cons_self).bind
    intro s' step onward meets _
    cases step with
    | done => exact Runs.pure ⟨meets, trivial⟩
    | yield b =>
      apply ih b meets
      intro s'' entry b further meets member
      exact each s'' entry b (onward.trans further) meets (List.mem_cons_of_mem _ member)

end Sound

/-! The actions of which all others are made. -/

/-- Faults that are allowed are tolerated. -/
theorem Runs.tolerated {wanted : Stage φ → α → Prop} (runs : t.Runs t.allows s action wanted) :
    t.Runs t.tolerates s action wanted :=
  runs.imp (fun _ _ _ holds => holds) t.tolerates_of_allows

/-- What an action makes of the world that it finds may depend on all but the files and the directory
of the run. -/
theorem Runs.get {next : World φ → Engine φ β} {later : Stage φ → β → Prop}
    (same : next (t.turned s.world) = next s.world) (rest : t.Runs may s (next s.world) later) :
    t.Runs may s (MonadState.get >>= next) later := by
  obtain ⟨result, s', here, there, step, ends⟩ := rest
  refine ⟨result, s', (run_bind_ok (run_get _)).trans here, ?_, step, ends⟩
  rw [run_bind_ok (run_get _), same, there]

theorem Runs.modify {change : World φ → World φ} {wanted : Stage φ → Unit → Prop} (s' : Stage φ)
    (here : change s.world = s'.world) (there : change (t.turned s.world) = t.turned s'.world)
    (step : t.Later s s') (holds : wanted s' ()) : t.Runs may s (modify change) wanted := by
  refine ⟨.ok (), s', ?_, ?_, step, holds⟩
  · rw [← here]
    rfl
  · rw [← there]
    rfl

section Primitive

variable {id : ObjectId} {w : World φ}

/-- Nothing has become of the objects and the kinds. -/
theorem Later.ofSame (objects : w.objects = s.world.objects) (kinds : w.kinds = s.world.kinds) :
    t.Later s ⟨w, s.element⟩ where
  objects_le := by simp [objects]
  element _ _ := rfl
  kind id _ := by rw [World.object_of_same objects]
  located id _ known := by rwa [World.object_of_same objects]
  isA _ _ _ := by rw [kinds]

/-- Nothing has become of the objects, the projects and the kinds. -/
theorem MeetsBut.ofSame (meets : t.Meets s) (objects : w.objects = s.world.objects)
    (kinds : w.kinds = s.world.kinds) (projects : w.projects = s.world.projects) :
    t.Meets ⟨w, s.element⟩ where
  kinds := by
    rw [kinds]
    exact meets.kinds
  object id := by
    rw [World.object_of_same objects]
    exact (meets.object id).later (.ofSame objects kinds)
  project id := by
    rw [World.project_of_same projects]
    exact (meets.project id).later (.ofSame objects kinds)

theorem sound_log (meets : t.Meets s) (level : LogLevel) (logger message : String) :
    t.Sound may s (log level logger message) :=
  Runs.modify ⟨_, s.element⟩ rfl rfl (.ofSame rfl rfl) ⟨meets.ofSame rfl rfl rfl, trivial⟩

theorem sound_logOf (meets : t.Meets s) (level : LogLevel) (message : String) :
    t.Sound may s (logOf id level message) := by
  apply Runs.look (.observed rfl) meets
  intro logger _
  exact sound_log meets level logger message

theorem sound_notify (meets : t.Meets s) (event : Event) : t.Sound may s (notify event) := by
  have there : (t.turned s.world).observer = s.world.observer := rfl
  apply Runs.modify ⟨_, s.element⟩ rfl
  · rw [there]
    cases s.world.observer <;> rfl
  · apply Later.ofSame <;> cases s.world.observer <;> rfl
  · refine ⟨?_, trivial⟩
    apply meets.ofSame <;> cases s.world.observer <;> rfl

/-- A project is changed, but not what is kept of it. -/
theorem sound_changeProject (meets : t.Meets s) (project : ProjectId) {change : Project → Project}
    (changed : t.ProjectMeets s (change (s.world.project project))) :
    t.Sound may s (changeProject project change) fun s' _ =>
      s'.world.projects = s.world.projects.modify project change := by
  let s' : Stage φ :=
    ⟨{ s.world with projects := s.world.projects.modify project change }, s.element⟩
  have step : t.Later s s' := .ofSame rfl rfl
  have holds : t.Meets s' := by
    refine ⟨meets.kinds, fun id => (meets.object id).later step, ?_⟩
    intro other
    have modified : s'.world.projects = s.world.projects.modify project change := rfl
    rcases World.project_of_modify modified other with same | new
    · rw [same]
      exact (meets.project other).later step
    · rw [new.2, new.1]
      exact changed.later step
  exact Runs.modify s' rfl rfl step ⟨holds, rfl⟩

/-- The properties of a project do not matter to what is kept of it. -/
theorem ProjectMeets.withProperties {p : Project} (meets : t.ProjectMeets s p)
    (properties : Properties) : t.ProjectMeets s { p with properties } :=
  ⟨meets.directory, meets.source, meets.references, meets.invocations⟩

theorem sound_setProperty (meets : t.Meets s) (project : ProjectId) (name value : String)
    (override : Bool) : t.Sound may s (setProperty project name value override) := by
  apply Runs.look (.observed rfl) meets
  rintro p rfl
  apply (sound_changeProject meets project
    ((meets.project project).withProperties _)).bind
  intro s' _ _ meets _
  exact Runs.pure ⟨meets, trivial⟩

theorem sound_register (meets : t.Meets s) (project : ProjectId) (name : String)
    (placed : t.Placed s id) : t.Sound may s (register project name id) := by
  have registers (s' : Stage φ) (meets : t.Meets s') (placed : t.Placed s' id) :
      t.Sound may s' (changeProject project fun p =>
        { p with references := p.references.register name id }) := by
    have before := meets.project project
    apply (sound_changeProject meets project _).forget
    refine ⟨before.directory, before.source, ?_, before.invocations⟩
    intro other found named
    rw [References.get?_register] at named
    split at named
    · cases named
      exact placed
    · exact before.references other found named
  unfold register
  apply Runs.look (.observed rfl) meets
  intro p _
  split
  · apply (sound_log meets .warning ownLogger _).bind
    intro s' _ step meets _
    exact registers s' meets (placed.later step)
  · exact registers s meets placed

theorem sound_changeFiles (meets : t.Meets s) {operation : φ → Except FileError φ}
    (moves : operation (t.move s.world.files) = (operation s.world.files).map t.move) :
    t.Sound t.allows s (changeFiles operation) := by
  have there : (t.turned s.world).files = t.move s.world.files := rfl
  cases ended : operation s.world.files with
  | error fault =>
    refine ⟨.error (.file fault), s, ?_, ?_, .refl t s, rfl, meets⟩
    · rw [changeFiles, run_bind_ok (run_get _), ended]
      rfl
    · rw [changeFiles, run_bind_ok (run_get _), there, moves, ended]
      rfl
  | ok files =>
    refine ⟨.ok (), ⟨{ s.world with files }, s.element⟩, ?_, ?_, .ofSame rfl rfl,
      meets.ofSame rfl rfl rfl, trivial⟩
    · rw [changeFiles, run_bind_ok (run_get _), ended]
      rfl
    · rw [changeFiles, run_bind_ok (run_get _), there, moves, ended]
      rfl

theorem sees_readFiles {operation : φ → Except FileError α} {wanted : α → Prop}
    (moves : operation (t.move s.world.files) = operation s.world.files)
    (holds : ∀ a, operation s.world.files = .ok a → wanted a) :
    t.Sees t.allows s (readFiles operation) wanted := by
  have runs (w : World φ) :
      (readFiles operation).run w = ((operation w.files).mapError .file, w) := by
    rw [readFiles, run_bind_ok (run_get w)]
    cases operation w.files <;> rfl
  refine ⟨(operation s.world.files).mapError .file, runs _, ?_, ?_⟩
  · rw [runs, show (t.turned s.world).files = t.move s.world.files from rfl, moves]
  · cases ended : operation s.world.files with
    | error => rfl
    | ok a => exact holds a ended

theorem sound_changeRegistry (meets : t.Meets s)
    (change : Registry → Except RegistrationError Registry) :
    t.Sound t.allows s (changeRegistry change) := by
  have there : (t.turned s.world).registry = s.world.registry := rfl
  cases ended : change s.world.registry with
  | error error =>
    refine ⟨.error (.registration error), s, ?_, ?_, .refl t s, rfl, meets⟩
    · rw [changeRegistry, run_bind_ok (run_get _), ended]
      rfl
    · rw [changeRegistry, run_bind_ok (run_get _), there, ended]
      rfl
  | ok registry =>
    refine ⟨.ok (), ⟨{ s.world with registry }, s.element⟩, ?_, ?_, .ofSame rfl rfl,
      meets.ofSame rfl rfl rfl, trivial⟩
    · rw [changeRegistry, run_bind_ok (run_get _), ended]
      rfl
    · rw [changeRegistry, run_bind_ok (run_get _), there, ended]
      rfl

/-- A class about which nothing is known becomes a kind about which nothing is known. -/
theorem sound_declareKind (meets : t.Meets s) {d : Declaration}
    (bases : d.bases = [.standard .object]) (members : d.members = []) :
    t.Sound t.allows s (declareKind d) := by
  have there : (t.turned s.world).kinds = s.world.kinds := rfl
  cases ended : s.world.kinds.declare d with
  | error error =>
    refine ⟨.error (.kind error), s, ?_, ?_, .refl t s, rfl, meets⟩
    · rw [declareKind, run_bind_ok (run_get _), ended]
      rfl
    · rw [declareKind, run_bind_ok (run_get _), there, ended]
      rfl
  | ok declared =>
    obtain ⟨k, kinds⟩ := declared
    have extended := meets.kinds.declare bases members ended
    have step : t.Later s ⟨{ s.world with kinds }, s.element⟩ := by
      refine ⟨Nat.le_refl _, fun _ _ => rfl, fun _ _ => rfl, fun _ _ known => known, ?_⟩
      intro id kind proper
      rw [extended.isA_get id proper, meets.kinds.isA_get id proper]
    refine ⟨.ok k, ⟨{ s.world with kinds }, s.element⟩, ?_, ?_, step, ?_, trivial⟩
    · rw [declareKind, run_bind_ok (run_get _), ended]
      rfl
    · rw [declareKind, run_bind_ok (run_get _), there, ended]
      rfl
    · exact ⟨extended, fun id => (meets.object id).later step,
        fun id => (meets.project id).later step⟩

theorem sound_addProject (meets : t.Meets s) {p : Project} (added : t.ProjectMeets s p) :
    t.Sound may s (addProject p) := by
  let s' : Stage φ := ⟨{ s.world with projects := s.world.projects ++ [p] }, s.element⟩
  have step : t.Later s s' := .ofSame rfl rfl
  refine ⟨.ok s.world.projects.length, s', rfl, rfl, step, ?_, trivial⟩
  refine ⟨meets.kinds, fun id => (meets.object id).later step, ?_⟩
  intro id
  have appended : s'.world.projects = s.world.projects ++ [p] := rfl
  rw [World.project_of_append appended]
  split
  · exact added.later step
  · exact (meets.project id).later step

/-- A new object was made from some element; it has no parts and refers to nothing. -/
theorem sound_addObject (meets : t.Meets s) {o : Object} {e : Element}
    (unmixed : t.mixes = true ∨ e.isMixed = false) (parts : o.parts = [])
    (reference : o.reference = none) (bare : ∀ name ∈ pathFields, ∀ source,
      o.fields.find? name = some source → source = .void) :
    t.Sound may s (addObject o) fun s' id => id < s'.world.objects.length ∧
      id = s.world.objects.length ∧ s'.element id = e ∧ s'.world.object id = o ∧
      s'.world.projects = s.world.projects := by
  let element := fun id => if id = s.world.objects.length then e else s.element id
  let s' : Stage φ := ⟨{ s.world with objects := s.world.objects ++ [o] }, element⟩
  have appended : s'.world.objects = s.world.objects ++ [o] := rfl
  have objects := World.object_of_append appended
  have step : t.Later s s' := by
    refine ⟨by simp [s'], ?_, ?_, ?_, fun _ _ _ => rfl⟩
    · intro id present
      simp [s', element, Nat.ne_of_lt present]
    · intro id present
      rw [objects, if_neg (Nat.ne_of_lt present)]
    · intro id present known
      rwa [objects, if_neg (Nat.ne_of_lt present)]
  refine ⟨.ok s.world.objects.length, s', rfl, rfl, step, ?_, by simp [s'], rfl,
    by simp [s', element], by rw [objects, if_pos rfl], rfl⟩
  refine ⟨meets.kinds, ?_, fun id => (meets.project id).later step⟩
  intro id
  rw [objects]
  by_cases new : id = s.world.objects.length
  · rw [if_pos new]
    have made : s'.element id = e := by simp [s', element, new]
    rw [made]
    refine ⟨by simp [parts], by simp [reference], ?_, unmixed, ?_, by simp [parts]⟩
    · intro name field source found
      rw [bare name field source found]
      trivial
    · exact .inr (.inr (bare "srcfile" (by decide)))
  · rw [if_neg new]
    have same : s'.element id = s.element id := by simp [s', element, new]
    exact same ▸ (meets.object id).later step

/-- An object is changed, but not what is kept of it. -/
theorem runs_changeObject {owed : ObjectId → Prop} (meets : t.MeetsBut owed s)
    (change : Object → Object) (kind : ∀ o, (change o).kind = o.kind)
    (known : t.known (s.world.object id).location = true →
      t.known (change (s.world.object id)).location = true)
    (changed : t.ObjectMeets owed s (change (s.world.object id)) (s.element id)) :
    t.Runs may s (changeObject id change) fun s' _ => t.MeetsBut owed s' ∧
      (id < s.world.objects.length → s'.world.object id = change (s.world.object id)) ∧
      s'.world.projects = s.world.projects := by
  let s' : Stage φ := ⟨{ s.world with objects := s.world.objects.modify id change }, s.element⟩
  have modified : s'.world.objects = s.world.objects.modify id change := rfl
  have objects := World.object_of_modify modified
  have step : t.Later s s' := by
    refine ⟨by simp [s'], fun _ _ => rfl, ?_, ?_, fun _ _ _ => rfl⟩
    · intro other _
      rcases objects other with same | new
      · rw [same]
      · rw [new.2, kind]
    · intro other _ before
      rcases objects other with same | ⟨rfl, new⟩
      · rwa [same]
      · rw [new]
        exact known before
  have holds : t.MeetsBut owed s' := by
    refine ⟨meets.kinds, ?_, fun id => (meets.project id).later step⟩
    intro other
    rcases objects other with same | ⟨rfl, new⟩
    · rw [same]
      exact (meets.object other).later step
    · rw [new]
      exact changed.later step
  apply Runs.modify s' rfl rfl step
  refine ⟨holds, ?_, rfl⟩
  intro present
  rw [World.object_of_modify_present modified present, if_pos rfl]

theorem sound_changeObject (meets : t.Meets s) (change : Object → Object)
    (kind : ∀ o, (change o).kind = o.kind)
    (known : t.known (s.world.object id).location = true →
      t.known (change (s.world.object id)).location = true)
    (changed : t.ObjectMeets (fun _ => False) s (change (s.world.object id)) (s.element id)) :
    t.Sound may s (changeObject id change) :=
  (runs_changeObject meets change kind known changed).imp (fun _ _ _ both => ⟨both.1, trivial⟩)
    fun _ allowed => allowed

/-- What is kept of an object has nothing to do with its project, its name and the target in which it
was declared, nor with what declared methods took. -/
theorem ObjectMeets.withOther {owed : ObjectId → Prop} {o o' : Object} {e : Element}
    (meets : t.ObjectMeets owed s o e) (parts : o'.parts = o.parts)
    (reference : o'.reference = o.reference) (fields : o'.fields = o.fields) :
    t.ObjectMeets owed s o' e := by
  refine ⟨?_, ?_, ?_, meets.unmixed, ?_, ?_⟩
  · rw [parts]
    exact meets.parts
  · rw [reference]
    exact meets.reference
  · rw [fields]
    exact meets.paths
  · rw [fields]
    exact meets.source
  · rw [parts]
    exact meets.mapper

end Primitive

end Terms
end BuildEngine
