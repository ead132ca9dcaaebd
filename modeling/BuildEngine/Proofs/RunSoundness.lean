import BuildEngine.Proofs.BindingSoundness
import BuildEngine.Proofs.RunConfinement
import BuildEngine.Proofs.TaskSoundness

/-! Loading and building are sound. What is kept of a project is kept when something in it is made
and configured, when a build description is adopted, and when it is handed down to a project that
runs on its behalf; so what is performed in targets is always an object at a known place. -/

namespace BuildEngine

open Engine

variable {φ : Type}

/-- What stands in a target from the beginning are the elements in it. -/
theorem Target.mem_ofElement {e : Element} {t : Target} (made : Target.ofElement e = .ok t)
    {i : Invocation} (member : i ∈ t.invocations) :
    ∃ child ∈ e.children, i = { element := some child } := by
  rw [(of_ofElement made).2.2.2] at member
  obtain ⟨child, nested, rfl⟩ := List.mem_map.mp member
  exact ⟨child, nested, rfl⟩

namespace Terms

variable [FileSystem φ] {t : Terms φ} {s : Stage φ} {id : ObjectId} {project : ProjectId}
variable {target : String} {index : Nat}

/-! What stands in projects. -/

section Invocations

theorem InvocationMeets.default : t.InvocationMeets s default :=
  ⟨nofun, nofun, nofun⟩

theorem InvocationMeets.ofElement {e : Element} (welcome : t.Welcomes e) :
    t.InvocationMeets s { element := some e } := by
  refine ⟨?_, nofun, nofun⟩
  rintro _ ⟨⟩
  exact welcome

/-- What is kept of something is kept wherever it stands. -/
theorem meets_invocationAt (meets : t.Meets s) (project : ProjectId) (target : String)
    (index : Nat) : t.InvocationMeets s (s.world.invocationAt project target index) := by
  unfold World.invocationAt
  cases declared : (s.world.project project).target? target with
  | none => exact .default
  | some held =>
    cases stands : held.invocations[index]? with
    | none =>
      rw [Option.bind_some, stands]
      exact .default
    | some i =>
      rw [Option.bind_some, stands]
      exact (meets.project project).invocations target held declared i
        (List.mem_of_getElem? stands)

/-- One of the things that stand in a project is changed, but not what is kept of it. -/
theorem ProjectMeets.changeInvocation {change : Invocation → Invocation} {p : Project}
    (meets : t.ProjectMeets s p)
    (keeps : ∀ held i, p.target? target = some held → held.invocations[index]? = some i →
      t.InvocationMeets s i → t.InvocationMeets s (change i)) :
    t.ProjectMeets s (p.changeInvocations target (·.modify index change)) := by
  refine ⟨?_, ?_, ?_, ?_⟩
  · have same : (p.changeInvocations target (·.modify index change)).directory = p.directory := by
      unfold Project.changeInvocations
      split <;> rfl
    exact same ▸ meets.directory
  · have same : (p.changeInvocations target (·.modify index change)).source = p.source := by
      unfold Project.changeInvocations
      split <;> rfl
    exact same ▸ meets.source
  · have same : (p.changeInvocations target (·.modify index change)).references = p.references := by
      unfold Project.changeInvocations
      split <;> rfl
    exact same ▸ meets.references
  · intro name found declared i member
    rw [Project.target?_changeInvocations] at declared
    split at declared
    · obtain ⟨held, stood, rfl⟩ := Option.map_eq_some_iff.mp declared
      obtain ⟨position, stands⟩ := List.getElem?_of_mem member
      rw [List.getElem?_modify] at stands
      obtain ⟨old, before, rfl⟩ := Option.map_eq_some_iff.mp stands
      have kept := meets.invocations target held stood old (List.mem_of_getElem? before)
      split
      · rename_i here
        exact keeps held old stood (here ▸ before) kept
      · exact kept
    · exact meets.invocations name found declared i member

theorem sound_changeInvocation {may : Fault → Bool} (meets : t.Meets s)
    {change : Invocation → Invocation}
    (keeps : ∀ i, s.world.invocationAt project target index = i → t.InvocationMeets s i →
      t.InvocationMeets s (change i)) :
    t.Sound may s (changeInvocation project target index change) fun s' _ => s'.world.projects =
      s.world.projects.modify project (·.changeInvocations target (·.modify index change)) := by
  apply sound_changeProject meets
  apply (meets.project project).changeInvocation
  intro held i declared stands
  apply keeps
  unfold World.invocationAt
  rw [declared, Option.bind_some, stands, Option.getD_some]

/-- What is made of an element that stands in a target is made from that element. -/
theorem sound_instantiateInvocation (meets : t.Meets s) (project : ProjectId) (target : String)
    (index : Nat) :
    t.Sound t.allows s (instantiateInvocation project target index) fun s' made =>
      ∀ id, made = some id → t.Placed s' id ∧
        ∀ e, (s'.world.invocationAt project target index).element = some e → s'.element id = e := by
  have kept := meets_invocationAt meets project target index
  unfold instantiateInvocation
  apply Runs.look (.observed rfl) meets
  rintro i rfl
  split
  · rename_i id held
    apply Runs.pure
    refine ⟨meets, ?_⟩
    rintro _ ⟨⟩
    exact ⟨kept.object id held, fun e stands => kept.origin id e held stands⟩
  · exact Runs.pure ⟨meets, nofun⟩
  · rename_i e _ stands
    apply (sound_create meets (kept.welcome e stands) project _).bind
    rintro s₁ id step₁ meets₁ ⟨placed, made, projects⟩
    have seen : s₁.world.invocationAt project target index =
        s.world.invocationAt project target index := by
      unfold World.invocationAt
      rw [World.project_of_same projects]
    apply (sound_changeInvocation meets₁ _).bind
    · intro s₂ _ step₂ meets₂ changed
      apply Runs.pure
      refine ⟨meets₂, ?_⟩
      rintro _ ⟨⟩
      refine ⟨placed.later step₂, ?_⟩
      intro e' still
      rw [World.invocationAt_of_modify Invocation.element changed fun _ => rfl, seen,
        stands] at still
      cases still
      rw [step₂.element id placed.1, made]
    · rintro i rfl _
      refine ⟨?_, ?_, ?_⟩
      · intro e' still
        rw [seen] at still
        exact kept.welcome e' still
      · rintro _ ⟨⟩
        exact placed
      · rintro _ e' ⟨⟩ still
        change (s₁.world.invocationAt project target index).element = some e' at still
        rw [seen, stands] at still
        cases still
        exact made

/-- What is performed is an object at a known place. -/
theorem sound_prepareInvocation (meets : t.Meets s) (project : ProjectId) (target : String)
    (index : Nat) :
    t.Sound t.allows s (prepareInvocation project target index) fun s' made =>
      ∀ id, made = some id → t.Located s' id := by
  unfold prepareInvocation
  apply (sound_instantiateInvocation meets project target index).bind
  intro s₁ made _ meets₁ holds
  split
  · exact Runs.pure ⟨meets₁, nofun⟩
  rename_i id
  obtain ⟨placed, origin⟩ := holds id rfl
  apply Runs.look (.observed rfl) meets₁
  rintro i rfl
  have kept := meets_invocationAt meets₁ project target index
  extract_lets answer
  have answers (s₂ : Stage φ) (step : t.Later s₁ s₂) (meets₂ : t.Meets s₂) :
      t.Sound t.allows s₂ (answer ()) fun s' made => ∀ id, made = some id → t.Located s' id := by
    apply Runs.look (.observed rfl) meets₂
    rintro isTask rfl
    apply Runs.pure
    refine ⟨meets₂, ?_⟩
    intro other same
    split at same
    · rename_i task
      cases same
      exact (placed.later step).located_of_isA meets₂ task (by decide +kernel)
    · cases same
  split
  · rename_i e stands
    split
    · apply (sound_configure project e meets₁ (kept.welcome e stands) placed (origin e stands)).bind
      intro s₂ _ step₂ meets₂ _
      apply (sound_changeInvocation meets₂ _).bind
      · intro s₃ _ step₃ meets₃ _
        exact answers s₃ (step₂.trans step₃) meets₃
      · exact fun i _ same => ⟨same.welcome, same.object, same.origin⟩
    · exact answers s₁ (.refl t s₁) meets₁
  · exact answers s₁ (.refl t s₁) meets₁

end Invocations

/-! Performing what stands in targets, and running targets. -/

section Run

/-- A way to call targets that is sound. -/
def CallsSoundly (t : Terms φ) (caller : Caller φ) : Prop :=
  ∀ s id, t.Meets s → t.Located s id → t.Sound t.allows s (caller id)

/-- A way to perform what stands in projects that is sound. -/
def PerformsSoundly (t : Terms φ) (perform : Performer φ) : Prop :=
  ∀ s project target position, t.Meets s → t.Sound t.allows s (perform project target position)

/-- An audience of which nothing is noticed. -/
def ListensSoundly (t : Terms φ) (tell : Audience φ) : Prop :=
  ∀ s event, t.Meets s → t.Sound t.allows s (tell event)

/-- How a run stands after faults that may come up. -/
def Admits (t : Terms φ) : Standing → Prop
  | .completed => True
  | .failed fault | .stopped fault => t.allows fault = true

theorem Admits.andThen {earlier latest : Standing} (before : t.Admits earlier)
    (now : t.Admits latest) : t.Admits (earlier.andThen latest) := by
  cases earlier <;> cases latest <;> first | exact now | exact before

theorem listensSoundly_notify : t.ListensSoundly notify := fun _ event meets =>
  sound_notify meets event

theorem listensSoundly_silent : t.ListensSoundly fun _ => return () := fun _ _ meets =>
  Runs.pure ⟨meets, trivial⟩

theorem performsSoundly_performInvocation {caller : Caller φ} (calls : t.CallsSoundly caller) :
    t.PerformsSoundly (performInvocation caller) := by
  intro s project target position meets
  unfold performInvocation
  apply (sound_prepareInvocation meets project target position).bind
  intro s₁ made _ meets located
  split
  · exact Runs.pure ⟨meets, trivial⟩
  · rename_i id
    have there := located id rfl
    exact Runs.map some (sound_performTask meets there (calls s₁ id meets there))
      fun _ _ _ both => both

variable {perform : Performer φ} {tell : Audience φ}
variable (performs : t.PerformsSoundly perform) (listens : t.ListensSoundly tell)

include performs listens in
theorem sound_performIn (meets : t.Meets s) (project : ProjectId) (target : String)
    (positions : List Nat) :
    t.Sound t.allows s (performIn perform tell project target positions) fun _ result =>
      ∀ task fault, result = some (task, fault) → t.allows fault = true := by
  induction positions generalizing s with
  | nil => exact Runs.pure ⟨meets, nofun⟩
  | cons position rest ih =>
    unfold performIn
    apply Runs.look (.observed rfl) meets
    intro task _
    apply (listens s _ meets).bind
    intro s₁ _ _ meets₁ _
    apply (performs s₁ project target position meets₁).attempt.bind
    intro s₂ result _ meets₂ ended
    split
    · apply Runs.look (.observed rfl) meets₂
      intro task _
      apply (listens s₂ _ meets₂).bind
      intro s₃ _ _ meets₃ _
      exact ih meets₃
    · exact ih meets₂
    · apply Runs.look (.observed rfl) meets₂
      intro task _
      apply (listens s₂ _ meets₂).bind
      intro s₃ _ _ meets₃ _
      apply Runs.pure
      refine ⟨meets₃, ?_⟩
      rintro _ _ ⟨⟩
      exact ended

theorem admissible_changeStatus (t : Terms φ) (g : TargetGraph) (name : String)
    (status : TargetStatus) : Admissible t.allows (g.changeStatus name status) := by
  unfold TargetGraph.changeStatus
  extract_lets state
  split
  · rfl
  · trivial

include listens in
theorem sound_settle (meets : t.Meets s) (g : TargetGraph) (name : String)
    (status : TargetStatus) {outcome : Standing} (admits : t.Admits outcome) :
    t.Sound t.allows s (settle tell g name status outcome) fun _ r => t.Admits r.2 := by
  have changes := admissible_changeStatus t g name status
  unfold settle
  split
  · rename_i fault refused
    rw [refused] at changes
    exact Runs.pure ⟨meets, changes⟩
  · apply (listens s _ meets).bind
    intro s₁ _ _ meets₁ _
    exact Runs.pure ⟨meets₁, admits⟩

include performs listens

theorem sound_runTarget (meets : t.Meets s) (project : ProjectId) (g : TargetGraph)
    (target : Target) :
    t.Sound t.allows s (runTarget perform tell project g target) fun _ r => t.Admits r.2 := by
  have starts : Admissible t.allows (g.start target.name) :=
    (admissible_changeStatus t g _ _).bind fun _ _ => admissible_changeStatus t _ _ _
  unfold runTarget
  apply Runs.look (sees_project project) meets
  intro p _
  split
  · exact sound_settle listens meets _ _ _ trivial
  split
  · rename_i fault refused
    rw [refused] at starts
    exact Runs.pure ⟨meets, starts⟩
  apply (listens s _ meets).bind
  intro s₁ _ _ meets₁ _
  apply Runs.look (.observed rfl) meets₁
  intro positions _
  apply (sound_performIn performs listens meets₁ project target.name positions).bind
  intro s₂ result _ meets₂ allowed
  split
  · exact sound_settle listens meets₂ _ _ _ trivial
  · exact Runs.pure ⟨meets₂, rfl⟩
  · rename_i task fault _
    exact sound_settle listens meets₂ _ _ _ (allowed task fault rfl)

theorem sound_takeTurn (meets : t.Meets s) (project : ProjectId) (keepGoing : Bool)
    (g : TargetGraph) {outcome : Standing} (admits : t.Admits outcome) (target : Target) :
    t.Sound t.allows s (takeTurn perform tell project keepGoing g outcome target) fun _ r =>
      t.Admits r.2 := by
  unfold takeTurn
  split
  · exact sound_settle listens meets _ _ _ admits
  · apply (sound_runTarget performs listens meets project g target).bind
    intro s₁ result _ meets₁ latest
    exact Runs.pure ⟨meets₁, Admits.andThen admits latest⟩

theorem sound_runTargets (meets : t.Meets s) (project : ProjectId) (keepGoing : Bool)
    (targets : List Target) (g : TargetGraph) {outcome : Standing} (admits : t.Admits outcome) :
    t.Sound t.allows s (runTargets perform tell project keepGoing targets g outcome) fun _ r =>
      t.Admits r.2 := by
  induction targets generalizing s g outcome with
  | nil => exact Runs.pure ⟨meets, admits⟩
  | cons target rest ih =>
    unfold runTargets
    apply (sound_takeTurn performs listens meets project keepGoing g admits target).bind
    intro s₁ result _ meets₁ latest
    split
    · exact Runs.pure ⟨meets₁, latest⟩
    · exact ih meets₁ _ latest

theorem sound_conduct (meets : t.Meets s) (project : ProjectId) (keepGoing : Bool)
    (targets : Targets) (g : TargetGraph) :
    t.Sound t.allows s (conduct perform tell project keepGoing targets g) fun _ r =>
      t.Admits r.2 := by
  have orders : Admissible t.allows (g.executionOrder targets) := by
    apply Admissible.mapM
    intro name
    unfold TargetGraph.get
    split
    · trivial
    · rfl
  unfold conduct
  apply Runs.look (sees_project project) meets
  intro p _
  apply (listens s _ meets).bind
  intro s₁ _ _ meets₁ _
  extract_lets finish
  have finishes (s₂ : Stage φ) (meets₂ : t.Meets s₂) (ended : TargetGraph × Standing)
      (admits : t.Admits ended.2) :
      t.Sound t.allows s₂ (finish ended) fun _ r => t.Admits r.2 := by
    apply (listens s₂ _ meets₂).bind
    intro s₃ _ _ meets₃ _
    exact Runs.pure ⟨meets₃, admits⟩
  split
  · have completed : t.Admits .completed := trivial
    apply (sound_runTargets performs listens meets₁ project keepGoing _ g completed).bind
    intro s₂ ended _ meets₂ admits
    exact finishes s₂ meets₂ ended admits
  · rename_i fault refused
    rw [refused] at orders
    rw [pure_bind]
    have stopped : t.Admits (.stopped fault) := orders
    exact finishes s₁ meets₁ (g, .stopped fault) stopped

/-- Targets that cannot be ordered are a fault of the build description that has no place. -/
theorem sound_executeBy (meets : t.Meets s) (project : ProjectId) (goals : List String) :
    t.Sound t.tolerates s (executeBy perform tell project goals) := by
  unfold executeBy
  apply Runs.look (sees_project project) meets
  intro p _
  split
  · rename_i error _
    apply Runs.throw _ meets
    cases error <;> rfl
  · apply Runs.get rfl
    apply Runs.tolerated
    unfold runGraph
    apply (sound_conduct performs listens meets project _ _ _).bind
    rintro s₁ ⟨final, ended⟩ _ meets₁ admits
    cases ended with
    | completed => exact Runs.pure ⟨meets₁, trivial⟩
    | failed fault => exact Runs.throw admits meets₁
    | stopped fault => exact Runs.throw admits meets₁

end Run

/-! Adopting build descriptions. -/

section Adopt

variable {p : Project} {e : Element}

/-- What a build description says about a project as a whole does not move it out of the directories
that the files may be asked about. -/
theorem ProjectMeets.describedBy (meets : t.ProjectMeets s p) (welcome : t.Welcomes e) :
    t.ProjectMeets s (p.describedBy e) := by
  refine ⟨?_, ?_, meets.references, meets.invocations⟩
  · unfold Project.describedBy
    extract_lets given basedir default
    change t.fits (if _ then _ else _) = true
    split
    · exact meets.directory
    · exact t.fits_join _ _ (.inl meets.directory)
  · rintro _ ⟨⟩
    exact welcome

theorem ProjectMeets.addElement {more : Project} (meets : t.ProjectMeets s p)
    (welcome : t.Welcomes e) (added : p.addElement e = .ok more) : t.ProjectMeets s more := by
  obtain ⟨new, made, -, rfl⟩ | ⟨description, rfl⟩ | rfl := Project.addElement_cases added
  · refine ⟨meets.directory, meets.source, meets.references, ?_⟩
    intro name found declared i member
    unfold Project.target? at declared
    split at declared
    · exact meets.invocations name found (by rw [Project.target?, if_pos ‹_›, declared]) i member
    · rw [Targets.find?_put] at declared
      split at declared
      · cases declared
        obtain ⟨child, nested, rfl⟩ := Target.mem_ofElement made member
        exact .ofElement (welcome.nested child nested)
      · exact meets.invocations name found (by rw [Project.target?, if_neg ‹_›, declared]) i member
  · exact ⟨meets.directory, meets.source, meets.references, meets.invocations⟩
  · refine ⟨meets.directory, meets.source, meets.references, ?_⟩
    intro name found declared i member
    unfold Project.target? at declared
    split at declared
    · cases declared
      rcases List.mem_append.mp member with old | new
      · exact meets.invocations name p.root (by rw [Project.target?, if_pos ‹_›]) i old
      · cases List.mem_singleton.mp new
        exact .ofElement welcome
    · exact meets.invocations name found (by rw [Project.target?, if_neg ‹_›, declared]) i member

theorem admissible_addElement (p : Project) (known : t.known e.location = true) :
    Admissible t.allows (p.addElement e) := by
  have places (problem : Problem) : t.allows (problem.faultAt e.location) = true :=
    t.allows_faultAt known problem
  have declares : Admissible t.allows (Target.ofElement e) := by
    unfold Target.ofElement
    split
    · exact places _
    · extract_lets name
      split
      · exact places _
      · trivial
  unfold Project.addElement
  split
  · cases made : Target.ofElement e with
    | error fault =>
      rw [made] at declares
      exact declares
    | ok new =>
      change Admissible t.allows (p.addTarget new)
      unfold Project.addTarget
      split
      · exact (Target.of_ofElement made).2.2.1 ▸ places _
      · trivial
  · trivial
  · trivial

theorem ProjectMeets.addElements (elements : List Element) (meets : t.ProjectMeets s p)
    (welcome : ∀ e ∈ elements, t.Welcomes e) :
    t.ProjectMeets s (p.addElements elements).1 ∧
      ∀ fault, (p.addElements elements).2 = some fault → t.allows fault = true := by
  induction elements generalizing p with
  | nil => exact ⟨meets, nofun⟩
  | cons e rest ih =>
    have first := welcome e List.mem_cons_self
    have adds := admissible_addElement p first.own.1
    unfold Project.addElements
    cases added : p.addElement e with
    | ok more =>
      exact ih (meets.addElement first added) fun e later =>
        welcome e (List.mem_cons_of_mem _ later)
    | error fault =>
      rw [added] at adds
      refine ⟨meets, ?_⟩
      rintro _ ⟨⟩
      exact adds

theorem sound_adopt (meets : t.Meets s) (project : ProjectId) (welcome : t.Welcomes e) :
    t.Sound t.allows s (adopt project e) := by
  unfold adopt
  extract_lets declare
  split
  · exact Runs.throw_bind (t.allows_faultAt welcome.own.1 _) meets
  unfold declare
  apply Runs.look (sees_project project) meets
  rintro p rfl
  have described := (meets.project project).describedBy welcome
  obtain ⟨kept, allowed⟩ := described.addElements e.children welcome.nested
  generalize ((s.world.project project).describedBy e).addElements e.children = result at *
  obtain ⟨declared, fault⟩ := result
  apply (sound_changeProject meets project kept).bind
  intro s₁ _ _ meets₁ _
  cases fault with
  | none => exact Runs.pure ⟨meets₁, trivial⟩
  | some fault => exact Runs.throw (allowed fault rfl) meets₁

theorem sound_instantiateTargets (meets : t.Meets s) (project : ProjectId) :
    t.Sound t.allows s (instantiateTargets project) := by
  unfold instantiateTargets
  apply Runs.look (sees_project project) meets
  intro p _
  refine (Sound.forIn _ _ meets ?_).bind fun s' _ _ meets _ => Runs.pure ⟨meets, trivial⟩
  intro s₁ target _ _ meets₁ _
  apply Runs.look (.observed rfl) meets₁
  intro positions _
  refine (Sound.forIn _ _ meets₁ ?_).bind fun s' _ _ meets _ => Runs.pure ⟨meets, trivial⟩
  intro s₂ index _ _ meets₂ _
  apply (sound_instantiateInvocation meets₂ project target index).bind
  intro s₃ _ _ meets₃ _
  exact Runs.pure ⟨meets₃, trivial⟩

variable {caller : Caller φ}

theorem sound_load (calls : t.CallsSoundly caller) (meets : t.Meets s) (project : ProjectId)
    (welcome : t.Welcomes e) : t.Sound t.allows s (load caller project e) := by
  unfold load
  apply (sound_adopt meets project welcome).bind
  intro s₁ _ _ meets₁ _
  apply Runs.look (.observed rfl) meets₁
  intro positions _
  apply (sound_performIn (performsSoundly_performInvocation calls) listensSoundly_silent meets₁
    project "" positions).bind
  intro s₂ result _ meets₂ allowed
  split
  · rename_i task fault
    exact Runs.throw (allowed task fault rfl) meets₂
  · exact sound_instantiateTargets meets₂ project

end Adopt

/-! Calling targets. -/

section Call

variable {parent child : ProjectId}

theorem sound_handDown (meets : t.Meets s) (child : ProjectId) (entries : List (String × ObjectId))
    (placed : ∀ entry ∈ entries, t.Placed s entry.2) :
    t.Sound t.allows s (handDown child entries) := by
  induction entries generalizing s with
  | nil => exact Runs.pure ⟨meets, trivial⟩
  | cons entry rest ih =>
    have others (s' : Stage φ) (step : t.Later s s') (meets' : t.Meets s') :
        t.Sound t.allows s' (handDown child rest) :=
      ih meets' fun entry later => (placed entry (List.mem_cons_of_mem _ later)).later step
    unfold handDown
    apply Runs.look (sees_project child) meets
    intro p _
    split
    · apply (sound_register meets child _ (placed entry List.mem_cons_self)).bind
      intro s₁ _ step₁ meets₁ _
      exact others s₁ step₁ meets₁
    · exact others s (.refl t s) meets

/-- A name that is not there is missed without a place. -/
theorem sound_forward (meets : t.Meets s) (parent child : ProjectId)
    (entries : List (String × String)) : t.Sound t.tolerates s (forward parent child entries) := by
  induction entries generalizing s with
  | nil => exact Runs.pure ⟨meets, trivial⟩
  | cons entry rest ih =>
    unfold forward
    apply Runs.look (sees_project parent) meets
    rintro p rfl
    split
    · exact Runs.throw rfl meets
    · rename_i object named
      apply (sound_register meets child _
        ((meets.project parent).references entry.1 object named)).bind
      intro s₁ _ _ meets₁ _
      exact ih meets₁

variable {caller : Caller φ} (calls : t.CallsSoundly caller)
include calls

theorem sound_furnish (meets : t.Meets s) (parent child : ProjectId) {source : Element}
    (welcome : t.Welcomes source) (i : Inheritance) :
    t.Sound t.tolerates s (furnish caller parent child source i) := by
  unfold furnish
  apply Sound.bind (sound_load calls meets child welcome).tolerated
  intro s₁ _ _ meets₁ _
  split
  · apply Runs.look (sees_project parent) meets₁
    rintro p rfl
    have placed (entry : String × ObjectId)
        (member : entry ∈ (s₁.world.project parent).references.objects.entries) :
        t.Placed s₁ entry.2 :=
      (meets₁.project parent).references entry.1 entry.2 (Table.find?_of_mem_entries member)
    apply Sound.bind (sound_handDown meets₁ child _ placed).tolerated
    intro s₂ _ _ meets₂ _
    exact sound_forward meets₂ parent child _
  · exact sound_forward meets₁ parent child _

/-- A project that runs on behalf of another one has its directory and its build description. -/
theorem sound_derive (meets : t.Meets s) (parent : ProjectId) (i : Inheritance) :
    t.Sound t.tolerates s (derive caller parent i) := by
  unfold derive
  apply Runs.look (sees_project parent) meets
  rintro p rfl
  split
  · exact Runs.throw rfl meets
  · rename_i source given
    have kept := meets.project parent
    have heir : t.ProjectMeets s (i.heir parent (s.world.project parent)) :=
      ⟨kept.directory, kept.source, nofun, ProjectMeets.default.invocations⟩
    apply (sound_addProject meets heir).bind
    intro s₁ child _ meets₁ _
    apply (sound_furnish calls meets₁ parent child (kept.source source given) i).bind
    intro s₂ _ _ meets₂ _
    exact Runs.pure ⟨meets₂, trivial⟩

theorem sound_subBuild {tell : Audience φ} (listens : t.ListensSoundly tell) (meets : t.Meets s)
    (parent : ProjectId) (i : Inheritance) (goals : List String) :
    t.Sound t.tolerates s (subBuild caller tell parent i goals) := by
  unfold subBuild
  apply (sound_derive calls meets parent i).bind
  intro s₁ child _ meets₁ _
  exact sound_executeBy (performsSoundly_performInvocation calls) listens meets₁ child goals

omit calls

theorem sees_overridesOf (params : List ObjectId) : t.Sees t.allows s (overridesOf params) := by
  induction params with
  | nil => exact .pure trivial
  | cons param rest ih =>
    unfold overridesOf
    apply sees_textOf.bind
    intro name _
    apply sees_textOf.bind
    intro value _
    apply ih.bind
    intro others _
    exact .pure trivial

theorem sees_forwardsOf (references : List ObjectId) :
    t.Sees t.allows s (forwardsOf references) := by
  induction references with
  | nil => exact .pure trivial
  | cons reference rest ih =>
    unfold forwardsOf
    apply sees_textOf.bind
    intro id _
    apply sees_isSet.bind
    intro renamed _
    extract_lets add
    have adds (name : String) : t.Sees t.allows s (add name) := by
      apply ih.bind
      intro others _
      exact .pure trivial
    split
    · apply sees_textOf.bind
      intro name _
      exact adds name
    · rw [pure_bind]
      exact adds id

theorem sees_inheritanceOf (id : ObjectId) : t.Sees t.allows s (inheritanceOf id) := by
  unfold inheritanceOf
  apply (sees_partsOf _).bind
  intro params _
  apply (sees_overridesOf params).bind
  intro overrides _
  apply (sees_partsOf _).bind
  intro forwards _
  apply (sees_forwardsOf forwards).bind
  intro references _
  apply sees_flagOf.bind
  intro allProperties _
  apply sees_flagOf.bind
  intro allReferences _
  exact .pure trivial

/-- Faults of the build in what a call runs become a failure at the place of the call. -/
theorem callsSoundly_callTarget (calls : t.CallsSoundly caller) :
    t.CallsSoundly (callTarget caller) := by
  intro s id meets located
  unfold callTarget
  apply Runs.look sees_object meets
  intro o _
  extract_lets goOn
  have goesOn (name : Option String) : t.Sound t.allows s (goOn name) := by
    unfold goOn
    extract_lets quoted
    split
    · exact sound_logOf meets _ _
    · exact (sees_reject located _).sound meets
    apply Runs.look (sees_inheritanceOf id) meets
    intro inheritance _
    apply Runs.look (sees_project o.project) meets
    intro p _
    apply (sound_logOf meets _ _).bind
    intro s₁ _ step₁ meets₁ _
    apply (sound_subBuild calls listensSoundly_silent meets₁ o.project inheritance _).attempt.bind
    intro s₂ result step₂ meets₂ tolerated
    split
    · exact Runs.pure ⟨meets₂, trivial⟩
    · rename_i fault
      split
      · exact (sees_failTask (located.later (step₁.trans step₂)) _).sound meets₂
      · rename_i other
        apply Runs.throw _ meets₂
        cases fault with
        | configuration => exact absurd rfl other
        | _ => exact tolerated
  apply Runs.look sees_isSet meets
  intro given _
  split
  · have reads : t.Sees t.allows s (some <$> textOf id "target") :=
      Sees.map some sees_textOf fun _ _ => trivial
    apply Runs.look reads meets
    intro name _
    exact goesOn name
  · rw [pure_bind]
    exact goesOn none

theorem callsSoundly_callWithin (depth : Nat) : t.CallsSoundly (callWithin depth) := by
  induction depth with
  | zero => exact fun s _ meets _ => Runs.throw rfl meets
  | succ depth ih => exact callsSoundly_callTarget ih

/-- Calling targets is sound. -/
theorem callsSoundly_call : t.CallsSoundly call := callsSoundly_callWithin callDepth

end Call

/-! Whole builds. -/

section Build

theorem sound_loadProject (meets : t.Meets s) {e : Element} (welcome : t.Welcomes e)
    (properties : List (String × String)) {directory : Path} (fits : t.fits directory = true)
    (buildFile : Option Path) :
    t.Sound t.allows s (loadProject e properties directory buildFile) := by
  have looks : (t.turned s.world).here.join directory = s.world.here.join directory :=
    t.join_look _ _ fits
  unfold loadProject
  apply Runs.look (.observed looks) meets
  rintro base rfl
  let begun : Project := {
    directory := s.world.here.join directory
    source := some e, buildFile, properties := .ofUser properties }
  have starts : t.ProjectMeets s begun := by
    refine ⟨t.fits_join _ _ (.inr fits), ?_, nofun, ProjectMeets.default.invocations⟩
    rintro _ ⟨⟩
    exact welcome
  apply (sound_addProject meets starts).bind
  intro s₁ project _ meets₁ _
  extract_lets explain
  apply Sound.bind (Runs.adapting (sound_load callsSoundly_call meets₁ project welcome) _)
  · intro s₂ _ _ meets₂ _
    exact Runs.pure ⟨meets₂, trivial⟩
  · intro fault allowed
    cases fault with
    | task message place => exact t.allows_faultAt allowed _
    | _ => exact allowed

theorem sound_execute (meets : t.Meets s) (project : ProjectId) (goals : List String) :
    t.Sound t.tolerates s (execute call notify project goals) :=
  sound_executeBy (performsSoundly_performInvocation callsSoundly_call) listensSoundly_notify
    meets project goals

theorem sound_build (meets : t.Meets s) (project : ProjectId) (goals : List String) :
    t.Sound t.allows s (build project goals) := by
  unfold build buildBy
  apply Runs.look (sees_project project) meets
  intro p _
  extract_lets wanted
  split
  · exact Runs.pure ⟨meets, trivial⟩
  apply (sound_execute meets project wanted).attempt.bind
  intro s₁ result _ meets₁ tolerated
  split
  · exact Runs.pure ⟨meets₁, trivial⟩
  · rename_i fault
    split
    · exact Runs.pure ⟨meets₁, trivial⟩
    · rename_i other
      apply Runs.throw _ meets₁
      cases fault with
      | configuration => cases other
      | _ => exact tolerated

end Build

end Terms
end BuildEngine
