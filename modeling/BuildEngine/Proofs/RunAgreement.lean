import BuildEngine.Proofs.BindingAgreement
import BuildEngine.Proofs.LikeProjects

/-! Runs agree: performing what stands in targets, running targets, loading a build description and
calling targets do the same in projects that are paired. -/

namespace BuildEngine

open Engine

variable {φ : Type} {s : Pairing} {w u : World φ} {i j : ObjectId} {p q : ProjectId}

/-! What stands at positions of projects. -/

namespace World.Like

theorem invocationAt (like : World.Like s w u) (projects : s.Projects p q) (target : String)
    (index : Nat) :
    Invocation.Like s (w.invocationAt p target index) (u.invocationAt q target index) := by
  unfold World.invocationAt
  rcases ((like.project projects).target? target).both with
    ⟨left, right⟩ | ⟨t, t', left, right, same⟩
  · rw [left, right]
    exact ⟨rfl, .none, rfl⟩
  · rw [left, right, Option.bind_some, Option.bind_some]
    rcases (same.invocations.rel_getElem? index).both with ⟨left, right⟩ | ⟨_, _, left, right, same⟩
    · rw [left, right]
      exact ⟨rfl, .none, rfl⟩
    · rw [left, right]
      exact same

theorem invocationCount (like : World.Like s w u) (projects : s.Projects p q) (target : String) :
    w.invocationCount p target = u.invocationCount q target := by
  unfold World.invocationCount
  rcases ((like.project projects).target? target).both with
    ⟨left, right⟩ | ⟨t, t', left, right, same⟩
  · rw [left, right]
  · rw [left, right]
    exact same.invocations.length_eq

theorem invocationName (like : World.Like s w u) {a b : Invocation}
    (same : Invocation.Like s a b) : w.invocationName a = u.invocationName b := by
  unfold World.invocationName
  rw [same.element]
  rcases same.object.both with ⟨left, right⟩ | ⟨i, j, left, right, paired⟩
  · rw [left, right]
    cases b.element <;> rfl
  · rw [left, right]
    cases b.element <;> simp only [like.isA paired, like.nameOf paired, like.typeName paired]

theorem taskAt (like : World.Like s w u) (projects : s.Projects p q) (target : String)
    (index : Nat) : w.taskAt p target index = u.taskAt q target index :=
  like.invocationName (like.invocationAt projects target index)

end World.Like

/-! How runs stand. -/

/-- Runs that stand in the same way. -/
inductive Standing.Like (s : Pairing) : Standing → Standing → Prop
  | completed : Like s .completed .completed
  | failed {fault fault' : Fault} (like : Fault.Like s fault fault') :
      Like s (.failed fault) (.failed fault')
  | stopped {fault fault' : Fault} (like : Fault.Like s fault fault') :
      Like s (.stopped fault) (.stopped fault')

namespace Standing.Like

variable {a a' b b' : Standing}

theorem mono {t : Pairing} (within : s.Within t) (like : Standing.Like s a a') :
    Standing.Like t a a' := by
  cases like with
  | completed => exact .completed
  | failed faults => exact .failed (faults.mono within)
  | stopped faults => exact .stopped (faults.mono within)

theorem hasFailed (like : Standing.Like s a a') : a.hasFailed = a'.hasFailed := by
  cases like <;> rfl

theorem andThen (first : Standing.Like s a a') (latest : Standing.Like s b b') :
    Standing.Like s (a.andThen b) (a'.andThen b') := by
  cases first with
  | completed => exact latest
  | failed faults =>
    cases latest with
    | stopped latest => exact .stopped latest
    | _ => exact .failed faults
  | stopped faults =>
    cases latest with
    | stopped latest => exact .stopped latest
    | _ => exact .stopped faults

end Standing.Like

/-! What is wrong with the order and the states of targets names no object. -/

theorem GraphError.isAnonymous_fault (error : GraphError) (project : String) :
    (error.fault project).isAnonymous = true := by
  cases error <;> rfl

namespace TargetGraph

variable {g : TargetGraph} {name : String} {fault : Fault}

theorem isAnonymous_of_changeStatus {status : TargetStatus}
    (settled : g.changeStatus name status = .error fault) : fault.isAnonymous = true := by
  unfold changeStatus at settled
  extract_lets state at settled
  split at settled
  · cases settled
    rfl
  · cases settled

theorem isAnonymous_of_start (settled : g.start name = .error fault) :
    fault.isAnonymous = true := by
  unfold start at settled
  cases ready : g.changeStatus name ⟨.ready, none⟩ with
  | error =>
    rw [ready] at settled
    cases settled
    exact isAnonymous_of_changeStatus ready
  | ok more =>
    rw [ready] at settled
    exact isAnonymous_of_changeStatus (g := more) settled

end TargetGraph

theorem Fault.Like.failureText {fault fault' : Fault} (faults : Fault.Like s fault fault') :
    failureText fault = failureText fault' := by
  rw [Engine.failureText, Engine.failureText, faults.isBuildFault, faults.message]

namespace Pairing

/-- Callers that do the same for objects that are paired. -/
def CallsAgree (caller : Caller φ) : Prop :=
  ∀ ⦃s : Pairing⦄ ⦃i j : ObjectId⦄, s.Objects i j → s.Agree (caller i) (caller j)

/-- Performers that do the same in projects that are paired. -/
def PerformsAgree (perform : Performer φ) : Prop :=
  ∀ ⦃s : Pairing⦄ ⦃p q : ProjectId⦄, s.Projects p q → ∀ target position,
    s.Agree (perform p target position) (perform q target position) fun _ => Eq

/-- Audiences to which being told makes no difference to the rest. -/
def ListensAgree (tell : Audience φ) : Prop :=
  ∀ (s : Pairing) (event : Event), s.Agree (tell event) (tell event)

theorem listensAgree_notify : ListensAgree (notify (φ := φ)) := fun _ _ => agree_notify _ _

theorem listensAgree_silent : ListensAgree (φ := φ) fun _ => return () := fun _ _ => .pure trivial

/-! Performing tasks. -/

section Perform

variable {caller : Caller φ} [FileSystem φ]

theorem agree_work (calls : CallsAgree caller) (paired : s.Objects i j) :
    s.Agree (work caller i) (work caller j) fun _ => Eq := by
  unfold work workBy
  refine .look (.observe fun {w u} like => ?_)
    fun found found' (same : found = found' ∧ ∀ k, found = some k → k.isComplete = true) => ?_
  · rw [like.kinds, like.kindOf paired]
    exact ⟨rfl, fun k found => Kinds.isComplete_of_performer? (like.kinds ▸ like.complete) found⟩
  obtain ⟨rfl, complete⟩ := same
  split
  · exact .pure rfl
  rename_i k
  have complete := complete k rfl
  rw [Kind.isComplete, Bool.and_eq_true] at complete
  split
  · exact agree_performAll paired complete.2
  · exact .bind (calls paired) fun _ _ _ _ _ => .pure rfl
  · exact agree_delete paired
  · exact agree_echo paired
  · exact .sees (sees_fail paired)
  · exact agree_defineProperty paired
  · exact agree_touch paired
  · exact agree_checkUpToDate paired
  · exact .lookSame (sees_isA paired _) fun asTask => agree_define asTask paired
  · exact .pure rfl

theorem agree_performTask (calls : CallsAgree caller) (paired : s.Objects i j) :
    s.Agree (performTask caller i) (performTask caller j) fun _ => Eq := by
  unfold performTask
  refine .bind (agree_work calls paired).attempt fun t result result' within same => ?_
  have paired := paired.mono within
  cases same with
  | @ok status status' same =>
    subst same
    cases status with
    | none => exact .pure rfl
    | some status =>
      simp only
      split
      · exact .lookSame (sees_describe paired) fun described => .sees (sees_failTask paired _)
      · exact .pure rfl
  | @error fault fault' faults =>
    cases faults with
    | anonymous anonymous =>
      cases fault with
      | empty owner field text =>
        cases owner with
        | some owner => cases anonymous
        | none => exact .lookSame (sees_describe paired) fun described => .sees (sees_reject paired _)
      | _ => exact .fault anonymous
    | @empty owner owner' objects field text =>
      refine .lookSame (sees_describe paired) fun described => ?_
      have own := objects.eq_iff paired
      by_cases same : owner = i
      · rw [if_pos (congrArg some same), if_pos (congrArg some (own.mp same))]
        exact .sees (sees_reject paired _)
      · rw [if_neg (same ∘ Option.some.inj), if_neg (same ∘ own.mpr ∘ Option.some.inj)]
        exact .sees (sees_reject paired _)
    | build target task faults => exact .throw (.build _ _ faults)

omit [FileSystem φ] in
theorem sees_invocation (projects : s.Projects p q) (target : String) (index : Nat) :
    s.Sees (φ := φ) (invocation p target index) (invocation q target index) (Invocation.Like s) :=
  .observe fun like => like.invocationAt projects target index

omit [FileSystem φ] in
theorem sees_positions (projects : s.Projects p q) (target : String) :
    s.Sees (φ := φ) (positions p target) (positions q target) Eq :=
  .observe fun like => by rw [like.invocationCount projects]

omit [FileSystem φ] in
theorem sees_taskAt (projects : s.Projects p q) (target : String) (index : Nat) :
    s.Sees (φ := φ) (observe (·.taskAt p target index)) (observe (·.taskAt q target index)) Eq :=
  .observe fun like => like.taskAt projects target index

omit [FileSystem φ] in
theorem agree_changeInvocation (projects : s.Projects p q) (target : String) (index : Nat)
    {change change' : Invocation → Invocation}
    (keeps : ∀ a b, Invocation.Like s a b → Invocation.Like s (change a) (change' b)) :
    s.Agree (φ := φ) (changeInvocation p target index change)
      (changeInvocation q target index change') := by
  have modified (as bs : List Invocation) (same : List.Forall₂ (Invocation.Like s) as bs) :
      List.Forall₂ (Invocation.Like s) (as.modify index change) (bs.modify index change') := by
    induction same generalizing index with
    | nil => cases index <;> exact .nil
    | cons both rest ih =>
      cases index with
      | zero => exact .cons (keeps _ _ both) rest
      | succ index => exact .cons both (ih index)
  exact agree_changeProject projects fun _ _ like => like.changeInvocations target modified

omit [FileSystem φ] in
theorem agree_instantiateInvocation (projects : s.Projects p q) (target : String) (index : Nat) :
    s.Agree (φ := φ) (instantiateInvocation p target index) (instantiateInvocation q target index)
      fun t => Option.Rel t.Objects := by
  unfold instantiateInvocation
  refine .look (sees_invocation projects target index) fun a b same => ?_
  rw [same.element]
  rcases same.object.both with ⟨left, right⟩ | ⟨i, j, left, right, paired⟩
  · rw [left, right]
    cases b.element with
    | none => exact .pure .none
    | some e =>
      refine .bind (agree_create projects e _) fun t id id' within made => ?_
      refine .bind (agree_changeInvocation (projects.mono within) target index ?_) ?_
      · exact fun _ _ like => { like with object := .some made }
      · exact fun t' _ _ within _ => .pure (.some (made.mono within))
  · rw [left, right]
    cases b.element <;> exact .pure (.some paired)

omit [FileSystem φ] in
theorem agree_prepareInvocation (projects : s.Projects p q) (target : String) (index : Nat) :
    s.Agree (φ := φ) (prepareInvocation p target index) (prepareInvocation q target index)
      fun t => Option.Rel t.Objects := by
  unfold prepareInvocation
  refine .bind (agree_instantiateInvocation projects target index) fun t made made' within same => ?_
  have projects := projects.mono within
  cases same with
  | none => exact .pure .none
  | @some id id' paired =>
  refine .look (sees_invocation projects target index) fun a b same => ?_
  rw [same.element, same.configured]
  extract_lets finish finish'
  have finishes {t : Pairing} (paired : t.Objects id id') :
      t.Agree (finish ()) (finish' ()) fun t => Option.Rel t.Objects := by
    refine .lookSame (sees_isA paired _) fun isTask => ?_
    split
    · exact .pure (.some paired)
    · exact .pure .none
  split
  · split
    · refine .bind (agree_configure projects paired _) fun t _ _ within _ => ?_
      have paired := paired.mono within
      refine .bind (agree_changeInvocation (projects.mono within) target index ?_) ?_
      · exact fun _ _ like => { like with configured := rfl }
      · exact fun t' _ _ within _ => finishes (paired.mono within)
    · exact finishes paired
  · exact finishes paired

theorem performsAgree_performInvocation (calls : CallsAgree caller) :
    PerformsAgree (performInvocation caller) := by
  intro s p q projects target index
  unfold performInvocation
  refine .bind (agree_prepareInvocation projects target index) fun t made made' _ same => ?_
  cases same with
  | none => exact .pure rfl
  | some paired =>
    exact .map (agree_performTask calls paired) fun _ _ _ same => congrArg some same

end Perform

/-! Running targets. -/

/-- The same task with faults like each other. -/
def Failures (s : Pairing) : Option (String × Fault) → Option (String × Fault) → Prop :=
  Option.Rel fun a b => a.1 = b.1 ∧ Fault.Like s a.2 b.2

/-- The same graph, with runs that stand in the same way. -/
def Endings (s : Pairing) (a b : TargetGraph × Standing) : Prop :=
  a.1 = b.1 ∧ Standing.Like s a.2 b.2

section Run

variable {perform : Performer φ} {tell : Audience φ}

theorem agree_performIn (performs : PerformsAgree perform) (listens : ListensAgree tell)
    (projects : s.Projects p q) (target : String) (positions : List Nat) :
    s.Agree (performIn perform tell p target positions) (performIn perform tell q target positions)
      Failures := by
  induction positions generalizing s with
  | nil => exact .pure .none
  | cons position rest ih =>
    unfold performIn
    refine .lookSame (sees_taskAt projects _ _) fun task => ?_
    refine .bind (listens _ _) fun t _ _ within _ => ?_
    have projects := projects.mono within
    refine .bind (performs projects target position).attempt fun t result result' within same => ?_
    have projects := projects.mono within
    cases same with
    | @ok completion completion' same =>
      subst same
      cases completion with
      | none => exact ih projects
      | some completion =>
        refine .lookSame (sees_taskAt projects _ _) fun task => ?_
        exact .bind (listens _ _) fun t _ _ within _ => ih (projects.mono within)
    | error faults =>
      refine .lookSame (sees_taskAt projects _ _) fun task => ?_
      refine .bind (listens _ _) fun t _ _ within _ => .pure (.some ⟨rfl, faults.mono within⟩)

theorem agree_settle (listens : ListensAgree tell) (g : TargetGraph) (target : String)
    (status : TargetStatus) {outcome outcome' : Standing} (same : Standing.Like s outcome outcome') :
    s.Agree (settle tell g target status outcome) (settle tell g target status outcome')
      Endings := by
  unfold settle
  cases changed : g.changeStatus target status with
  | error fault =>
    exact .pure ⟨rfl, .stopped (.anonymous (TargetGraph.isAnonymous_of_changeStatus changed))⟩
  | ok settled =>
    exact .bind (listens _ _) fun _ _ _ within _ => .pure ⟨rfl, same.mono within⟩

theorem agree_runTarget (performs : PerformsAgree perform) (listens : ListensAgree tell)
    (projects : s.Projects p q) (g : TargetGraph) {target target' : Target}
    (targets : Target.Like s target target') :
    s.Agree (runTarget perform tell p g target) (runTarget perform tell q g target') Endings := by
  unfold runTarget
  refine .look (sees_project projects) fun a b same => ?_
  rw [same.guard? targets, targets.name]
  split
  · exact agree_settle listens _ _ _ .completed
  cases started : g.start target'.name with
  | error fault =>
    exact .pure ⟨rfl, .stopped (.anonymous (TargetGraph.isAnonymous_of_start started))⟩
  | ok running =>
    refine .bind (listens _ _) fun t _ _ within _ => ?_
    have projects := projects.mono within
    refine .lookSame (sees_positions projects _) fun positions => ?_
    refine .bind (agree_performIn performs listens projects _ positions) ?_
    intro t result result' within same
    cases same with
    | none => exact agree_settle listens _ _ _ .completed
    | @some failure failure' both =>
      obtain ⟨task, fault⟩ := failure
      obtain ⟨task', fault'⟩ := failure'
      obtain ⟨same, faults⟩ : task = task' ∧ Fault.Like t fault fault' := both
      subst same
      have failed : t.Agree
          (settle tell running target'.name ⟨.failed, some (failureText fault)⟩
            (.failed (.build target'.name (some task) fault)))
          (settle tell running target'.name ⟨.failed, some (failureText fault')⟩
            (.failed (.build target'.name (some task) fault'))) Endings := by
        rw [faults.failureText]
        exact agree_settle listens running _ _ (.failed (.build _ _ faults))
      cases faults with
      | anonymous anonymous =>
        cases fault with
        | interrupted => exact .pure ⟨rfl, .stopped (.anonymous rfl)⟩
        | _ => exact failed
      | empty => exact failed
      | build => exact failed

theorem agree_takeTurn (performs : PerformsAgree perform) (listens : ListensAgree tell)
    (projects : s.Projects p q) (keepGoing : Bool) (g : TargetGraph) {outcome outcome' : Standing}
    (same : Standing.Like s outcome outcome') {target target' : Target}
    (targets : Target.Like s target target') :
    s.Agree (takeTurn perform tell p keepGoing g outcome target)
      (takeTurn perform tell q keepGoing g outcome' target') Endings := by
  have obstacle : g.obstacle? keepGoing outcome target.name =
      g.obstacle? keepGoing outcome' target'.name := by
    unfold TargetGraph.obstacle?
    rw [same.hasFailed, targets.name]
  unfold takeTurn
  rw [obstacle, targets.name]
  split
  · exact agree_settle listens _ _ _ same
  · refine .bind (agree_runTarget performs listens projects g targets) ?_
    rintro t ⟨g, latest⟩ ⟨_, latest'⟩ within ⟨rfl, later⟩
    exact .pure ⟨rfl, (same.mono within).andThen later⟩

theorem agree_runTargets (performs : PerformsAgree perform) (listens : ListensAgree tell)
    (projects : s.Projects p q) (keepGoing : Bool) {targets targets' : List Target}
    (related : List.Forall₂ (Target.Like s) targets targets') (g : TargetGraph)
    {outcome outcome' : Standing} (same : Standing.Like s outcome outcome') :
    s.Agree (runTargets perform tell p keepGoing targets g outcome)
      (runTargets perform tell q keepGoing targets' g outcome') Endings := by
  induction targets generalizing s targets' g outcome outcome' with
  | nil =>
    cases related
    exact .pure ⟨rfl, same⟩
  | cons target rest ih =>
    cases related with
    | cons both others =>
    unfold runTargets
    refine .bind (agree_takeTurn performs listens projects keepGoing g same both) ?_
    rintro t ⟨g, latest⟩ ⟨_, latest'⟩ within ⟨rfl, standing⟩
    have goesOn := ih (projects.mono within) (others.imp fun _ _ => .mono within) g standing
    cases standing with
    | stopped faults => exact .pure ⟨rfl, .stopped faults⟩
    | completed => exact goesOn
    | failed => exact goesOn

theorem agree_conduct (performs : PerformsAgree perform) (listens : ListensAgree tell)
    (projects : s.Projects p q) (keepGoing : Bool) {targets targets' : Targets}
    (same : Targets.Like s targets targets') (g : TargetGraph) :
    s.Agree (conduct perform tell p keepGoing targets g) (conduct perform tell q keepGoing targets' g)
      Endings := by
  unfold conduct
  refine .look (sees_project projects) fun a b likes => ?_
  rw [likes.name]
  refine .bind (listens _ _) fun t _ _ within _ => ?_
  have projects := projects.mono within
  extract_lets finish
  have finishes {t : Pairing} {ended ended' : TargetGraph × Standing} (same : Endings t ended ended') :
      t.Agree (finish ended) (finish ended') Endings := by
    obtain ⟨g, outcome⟩ := ended
    obtain ⟨g', outcome'⟩ := ended'
    obtain ⟨rfl, standing⟩ := same
    exact .bind (listens _ _) fun _ _ _ within _ => .pure ⟨rfl, standing.mono within⟩
  have ordered := TargetGraph.executionOrder_of_like (g := g) same
  generalize g.executionOrder targets = left, g.executionOrder targets' = right at ordered ⊢
  cases ordered with
  | @error fault fault' faults =>
    have stopped : Endings t (g, .stopped fault) (g, .stopped fault') :=
      ⟨rfl, .stopped (faults.mono within)⟩
    exact .look (.pure stopped) fun _ _ same => finishes same
  | ok members =>
    have members := members.imp fun _ _ => Target.Like.mono within
    refine .bind (agree_runTargets performs listens projects keepGoing members g .completed) ?_
    exact fun _ _ _ _ same => finishes same

theorem agree_executeBy (performs : PerformsAgree perform) (listens : ListensAgree tell)
    (projects : s.Projects p q) (goals : List String) :
    s.Agree (executeBy perform tell p goals) (executeBy perform tell q goals) := by
  unfold executeBy
  refine .look (sees_project projects) fun a b same => ?_
  rw [TargetGraph.ofTargets_of_like same.targets, TargetGraph.trim_of_like same.targets, same.name,
    same.haltOnFailure]
  split
  · exact .fault (GraphError.isAnonymous_fault _ _)
  refine .get fun w u like => ?_
  rw [like.keepGoing]
  refine .bind (agree_conduct performs listens projects _ same.targets _) ?_
  rintro t ⟨g, outcome⟩ ⟨_, outcome'⟩ within ⟨rfl, standing⟩
  cases standing with
  | completed => exact .pure trivial
  | failed faults => exact .throw faults
  | stopped faults => exact .throw faults

end Run

/-! Loading and calling. -/

section Call

theorem agree_handDown {child child' : ProjectId} (children : s.Projects child child')
    {entries entries' : List (String × ObjectId)}
    (same : List.Forall₂ (fun a b => a.1 = b.1 ∧ s.Objects a.2 b.2) entries entries') :
    s.Agree (φ := φ) (handDown child entries) (handDown child' entries') := by
  induction entries generalizing s entries' with
  | nil =>
    cases same
    exact .pure trivial
  | cons entry rest ih =>
    obtain ⟨id, object⟩ := entry
    cases same with
    | @cons _ entry' _ rest' both others =>
    obtain ⟨id', object'⟩ := entry'
    obtain ⟨rfl, objects⟩ : id = id' ∧ s.Objects object object' := both
    unfold handDown
    refine .look (sees_project children) fun a b projects => ?_
    have held : a.references.contains id = b.references.contains id :=
      projects.references.objects.contains id
    rw [held]
    split
    · refine .bind (agree_register children id objects) fun t _ _ within _ => ?_
      exact ih (children.mono within) (others.imp fun _ _ both => ⟨both.1, both.2.mono within⟩)
    · exact ih children others

theorem agree_forward {parent parent' child child' : ProjectId}
    (parents : s.Projects parent parent') (children : s.Projects child child')
    (references : List (String × String)) :
    s.Agree (φ := φ) (forward parent child references) (forward parent' child' references) := by
  induction references generalizing s with
  | nil => exact .pure trivial
  | cons entry rest ih =>
    obtain ⟨id, name⟩ := entry
    unfold forward
    refine .look (sees_project parents) fun a b projects => ?_
    have found : Option.Rel s.Objects (a.references.get? id) (b.references.get? id) :=
      projects.references.objects.find? id
    rcases found.both with ⟨left, right⟩ | ⟨object, object', left, right, objects⟩
    · rw [left, right]
      exact .fault rfl
    · rw [left, right]
      refine .bind (agree_register children _ objects) fun t _ _ within _ => ?_
      exact ih (parents.mono within) (children.mono within)

theorem agree_instantiateTargets (projects : s.Projects p q) :
    s.Agree (φ := φ) (instantiateTargets p) (instantiateTargets q) := by
  unfold instantiateTargets
  refine .look (sees_project projects) fun a b same => ?_
  rw [same.targets.keys]
  have each (names : List String) : List.Forall₂ Eq names names := List.forall₂_eq_eq_eq ▸ rfl
  refine .bind (.forIn (each _) fun t target _ within same => ?_) fun _ _ _ _ _ => .pure trivial
  subst same
  have projects := projects.mono within
  refine .lookSame (sees_positions projects target) fun positions => ?_
  have each : List.Forall₂ Eq positions positions := List.forall₂_eq_eq_eq ▸ rfl
  refine .bind (.forIn each fun t index _ within same => ?_) fun _ _ _ _ _ => .pure rfl
  subst same
  refine .bind (agree_instantiateInvocation (projects.mono within) target index) ?_
  exact fun _ _ _ _ _ => .pure rfl

theorem agree_adopt (projects : s.Projects p q) (e : Element) :
    s.Agree (φ := φ) (adopt p e) (adopt q e) := by
  unfold adopt
  extract_lets declare declare'
  have declares : s.Agree (declare ()) (declare' ()) := by
    refine .look (sees_project projects) fun a b same => ?_
    have both := (same.describedBy e).addElements e.children
    generalize (a.describedBy e).addElements e.children = left,
      (b.describedBy e).addElements e.children = right at both ⊢
    obtain ⟨declared, fault⟩ := left
    obtain ⟨declared', fault'⟩ := right
    obtain ⟨filled, faults⟩ : Project.Like s declared declared' ∧
      Option.Rel (Fault.Like s) fault fault' := both
    refine .bind (agree_changeProject projects fun _ _ _ => filled) fun t _ _ within _ => ?_
    cases faults with
    | none => exact .pure trivial
    | some faults => exact .throw (faults.mono within)
  split
  · exact .lookSame (.fault rfl) fun _ => declares
  · exact declares

variable [FileSystem φ] {caller : Caller φ}

theorem agree_load (calls : CallsAgree caller) (projects : s.Projects p q) (e : Element) :
    s.Agree (load caller p e) (load caller q e) := by
  unfold load
  refine .bind (agree_adopt projects e) fun t _ _ within _ => ?_
  have projects := projects.mono within
  refine .lookSame (sees_positions projects _) fun positions => ?_
  refine .bind (agree_performIn (performsAgree_performInvocation calls)
    listensAgree_silent projects "" positions) fun t result result' within same => ?_
  cases same with
  | none => exact agree_instantiateTargets (projects.mono within)
  | some both => exact .throw both.2

theorem agree_furnish (calls : CallsAgree caller) {parent parent' child child' : ProjectId}
    (parents : s.Projects parent parent') (children : s.Projects child child') (source : Element)
    (i : Inheritance) :
    s.Agree (furnish caller parent child source i) (furnish caller parent' child' source i) := by
  unfold furnish
  refine .bind (agree_load calls children source) fun t _ _ within _ => ?_
  have parents := parents.mono within
  have children := children.mono within
  split
  · refine .look (sees_project parents) fun a b same => ?_
    refine .bind (agree_handDown children same.references.objects) fun t _ _ within _ => ?_
    exact agree_forward (parents.mono within) (children.mono within) _
  · exact agree_forward parents children _

omit [FileSystem φ] in
/-- Projects that inherit the same properties start alike, whatever their parents are. -/
theorem like_heir {a b : Project} {i : Inheritance} (directory : a.directory = b.directory)
    (buildFile : a.buildFile = b.buildFile) (source : a.source = b.source)
    (properties : i.properties a = i.properties b) (parent parent' : ProjectId) :
    Project.Like s (i.heir parent a) (i.heir parent' b) where
  directory := directory
  name := rfl
  description := rfl
  defaultTarget := rfl
  source := source
  buildFile := buildFile
  parent := rfl
  haltOnFailure := rfl
  properties := properties
  references := ⟨.empty, .empty⟩
  targets := .empty
  root := ⟨rfl, rfl, rfl, rfl, rfl, rfl, .nil⟩

theorem agree_derive (calls : CallsAgree caller) {parent parent' : ProjectId}
    (parents : s.Projects parent parent') (i : Inheritance) :
    s.Agree (derive caller parent i) (derive caller parent' i) fun t => t.Projects := by
  unfold derive
  refine .look (sees_project parents) fun a b same => ?_
  rw [same.source, same.name]
  split
  · exact .fault rfl
  have properties : i.properties a = i.properties b := by
    unfold Inheritance.properties
    rw [same.properties]
  have heirs : Project.Like s (i.heir parent a) (i.heir parent' b) :=
    like_heir same.directory same.buildFile same.source properties parent parent'
  refine .bind (agree_addProject heirs) fun t child child' within children => ?_
  refine .bind (agree_furnish calls (parents.mono within) children _ i) fun t _ _ within _ => ?_
  exact .pure (children.mono within)

theorem agree_execute {tell : Audience φ} (calls : CallsAgree caller) (listens : ListensAgree tell)
    (projects : s.Projects p q) (goals : List String) :
    s.Agree (execute caller tell p goals) (execute caller tell q goals) :=
  agree_executeBy (performsAgree_performInvocation calls) listens projects goals

theorem agree_subBuild {tell : Audience φ} (calls : CallsAgree caller) (listens : ListensAgree tell)
    {parent parent' : ProjectId} (parents : s.Projects parent parent') (i : Inheritance)
    (goals : List String) :
    s.Agree (subBuild caller tell parent i goals) (subBuild caller tell parent' i goals) :=
  .bind (agree_derive calls parents i) fun _ _ _ _ children =>
    agree_execute calls listens children goals

omit [FileSystem φ] in
theorem sees_overridesOf {params params' : List ObjectId}
    (related : List.Forall₂ s.Objects params params') :
    s.Sees (φ := φ) (overridesOf params) (overridesOf params') Eq := by
  induction related with
  | nil => exact .pure rfl
  | cons both _ ih =>
    unfold overridesOf
    refine .bindSame (sees_textOf both _) fun name => ?_
    refine .bindSame (sees_textOf both _) fun value => ?_
    exact .bindSame ih fun _ => .pure rfl

omit [FileSystem φ] in
theorem sees_forwardsOf {references references' : List ObjectId}
    (related : List.Forall₂ s.Objects references references') :
    s.Sees (φ := φ) (forwardsOf references) (forwardsOf references') Eq := by
  induction related with
  | nil => exact .pure rfl
  | cons both _ ih =>
    unfold forwardsOf
    refine .bindSame (sees_textOf both _) fun id => ?_
    refine .bindSame (sees_isSet both _) fun given => ?_
    extract_lets add add'
    have added (name : String) : s.Sees (add name) (add' name) Eq := .bindSame ih fun _ => .pure rfl
    split
    · exact .bindSame (sees_textOf both _) added
    · exact .bindSame (.pure rfl) added

omit [FileSystem φ] in
theorem sees_inheritanceOf (paired : s.Objects i j) :
    s.Sees (φ := φ) (inheritanceOf i) (inheritanceOf j) Eq := by
  unfold inheritanceOf
  refine .bind (sees_partsOf paired _) fun _ _ params => ?_
  refine .bindSame (sees_overridesOf params) fun overrides => ?_
  refine .bind (sees_partsOf paired _) fun _ _ forwards => ?_
  refine .bindSame (sees_forwardsOf forwards) fun references => ?_
  refine .bindSame (sees_flagOf paired _) fun allProperties => ?_
  exact .bindSame (sees_flagOf paired _) fun allReferences => .pure rfl

theorem callsAgree_callTarget (calls : CallsAgree caller) : CallsAgree (callTarget caller) := by
  intro s i j paired
  unfold callTarget
  refine .look (sees_object paired) fun o o' same => ?_
  rw [same.target]
  extract_lets goOn goOn'
  have goesOn (name : Option String) : s.Agree (goOn name) (goOn' name) := by
    unfold goOn goOn'
    extract_lets quoted
    split
    · exact agree_logOf paired _ _
    · exact .sees (sees_reject paired _)
    refine .lookSame (sees_inheritanceOf paired) fun inheritance => ?_
    refine .look (sees_project same.project) fun a b projects => ?_
    rw [projects.name]
    refine .bind (agree_logOf paired _ _) fun t _ _ within _ => ?_
    have paired := paired.mono within
    have runs := agree_subBuild calls listensAgree_silent (same.project.mono within)
    refine .bind (runs _ _).attempt fun t result result' within same => ?_
    have paired := paired.mono within
    cases same with
    | ok => exact .pure trivial
    | error faults =>
      simp only [faults.isBuildFault, faults.message]
      split
      · exact .sees (sees_failTask paired _)
      · exact .throw faults
  refine .lookSame (sees_isSet paired _) fun given => ?_
  split
  · refine .lookSame (.map (sees_textOf paired _) fun _ _ same => by rw [same]) goesOn
  · exact .lookSame (.pure rfl) goesOn

/-- However deep calls may go, they do the same for objects that are paired. -/
theorem callsAgree_callWithin (depth : Nat) : CallsAgree (callWithin (φ := φ) depth) := by
  induction depth with
  | zero => exact fun _ _ _ _ => .fault rfl
  | succ depth ih => exact callsAgree_callTarget ih

end Call

end Pairing
end BuildEngine
