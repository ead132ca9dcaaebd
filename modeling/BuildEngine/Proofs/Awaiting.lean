import BuildEngine.Proofs.BindingFrame
import BuildEngine.Proofs.KnownKinds
import BuildEngine.Proofs.RunConfinement

/-! Tasks that await their performance. The object of a task of a standard kind is made from its
element without fail, unless it was made when the build description was loaded; it is configured
when the task is performed. -/

namespace BuildEngine

open Engine

variable {φ : Type}

/-! Objects as they are made. -/

/-- Where an attribute has its value from at first, if that is nothing or a truth value. -/
def Attribute.start? (a : Attribute) : Option Source :=
  match a.initial, a.accepted with
  | none, _ => some .void
  | some (.flag b), .flag :: _ => some (.value (.flag b))
  | _, _ => none

namespace Kind

/-- What the attributes of an object are at first, put on top of others. -/
def startFrom? : List (String × Attribute) → Table String Source → Option (Table String Source)
  | [], fields => some fields
  | (name, a) :: rest, fields =>
    a.start?.bind fun source => startFrom? rest (fields.put name source)

/-- What the attributes of an object of a kind are at first. -/
def start? (k : Kind) : Option (Table String Source) := startFrom? k.attributes.entries .empty

end Kind

/-- Whether objects of a standard kind can be made wherever the kind is known. -/
def Kinds.isMade (s : Standard) : Bool :=
  (standard.construction? (standard.get s)).isSome &&
    (standard.openMembers (standard.get s)).isEmpty && (standard.get s).start?.isSome

theorem Kinds.id_get_standard (s : Standard) : (standard.get s).id = .standard s := by
  obtain ⟨k, found⟩ := Option.isSome_iff_exists.mp (standard_isSome_find? s)
  rw [get, found]
  exact id_of_find? found

/-- An object of a standard kind that was made for a project. -/
structure World.IsOf (w : World φ) (s : Standard) (project : ProjectId) (id : ObjectId) : Prop where
  present : id < w.objects.length
  kind : (w.object id).kind = .standard s
  home : (w.object id).project = project

namespace Engine

variable {w : World φ} {s : Standard} {project : ProjectId}

theorem run_initialFields {k : Kind} {attributes : List (String × Attribute)}
    {fields after : Table String Source} (starts : Kind.startFrom? attributes fields = some after) :
    (initialFields k attributes fields).run w = (.ok after, w) := by
  induction attributes generalizing fields with
  | nil =>
    cases starts
    rfl
  | cons entry rest ih =>
    obtain ⟨name, a⟩ := entry
    obtain ⟨source, first, starts⟩ := Option.bind_eq_some_iff.mp starts
    unfold initialFields
    unfold Attribute.start? at first
    split at first
    · rename_i initial
      cases first
      rw [initial]
      exact ih starts
    · rename_i b types initial accepted
      cases first
      rw [initial]
      have accepts : (consult fun w => a.accept w k.name (.flag b)).run w = (.ok (.flag b), w) :=
        run_consult_ok (by rw [Attribute.accept, accepted]; rfl)
      rw [run_bind_ok accepts]
      exact ih starts
    · cases first

/-- Nothing keeps an object from being made of a kind whose objects can be made and that leaves no
members open, unless the kind does not take its own values. -/
theorem run_instantiate_eq {k : Kind} (makes : (w.kinds.construction? k).isSome = true)
    (closed : w.kinds.openMembers k = []) (project : ProjectId) :
    (instantiate k project).run w = (initialFields k k.attributes.entries .empty >>= fun fields =>
      addObject { kind := k.id, project, fields }).run w := by
  unfold instantiate
  rw [run_bind_ok (run_get w), closed, Option.isNone_eq_false_iff.mpr makes]
  rfl

theorem run_instantiate (known : w.kinds.HasStandard) (made : Kinds.isMade s = true)
    (project : ProjectId) : ∃ fields, (Kinds.standard.get s).start? = some fields ∧
      (instantiate (Kinds.standard.get s) project).run w = (.ok w.objects.length,
        { w with objects := w.objects ++ [{ kind := .standard s, project, fields }] }) := by
  rw [Kinds.isMade, Bool.and_eq_true, Bool.and_eq_true] at made
  obtain ⟨⟨constructible, complete⟩, starts⟩ := made
  obtain ⟨fields, starts⟩ := Option.isSome_iff_exists.mp starts
  have makes : (w.kinds.construction? (Kinds.standard.get s)).isSome = true :=
    (congrArg Option.isSome (known.construction? s)).trans constructible
  have closed : w.kinds.openMembers (Kinds.standard.get s) = [] :=
    (known.openMembers s).trans (List.isEmpty_iff.mp complete)
  refine ⟨fields, starts, ?_⟩
  rw [run_instantiate_eq makes closed, run_bind_ok (run_initialFields starts), run_addObject,
    Kinds.id_get_standard]

theorem modify_last {α : Type} (entries : List α) (last : α) (change : α → α) :
    (entries ++ [last]).modify entries.length change = entries ++ [change last] := by
  induction entries with
  | nil => rfl
  | cons first rest ih => exact congrArg (first :: ·) ih

/-- An object that is told from which element it is made, and in which target. -/
def asDeclared (o : Object) (e : Element) (target : Option String) : Object :=
  { o with elementName := some (Text.lower e.tag), location := e.location, target }

/-- What is instantiated for an element is told of the element if it is a component. -/
theorem run_create_of_instantiate {e : Element} {project : ProjectId} {o : Object}
    (known : w.kinds.HasStandard) (registered : w.registry.find? e.tag = some (.standard s))
    (instantiates : (instantiate (Kinds.standard.get s) project).run w =
      (.ok w.objects.length, { w with objects := w.objects ++ [o] })) (target : Option String) :
    (create project e target).run w = (.ok w.objects.length, { w with
      objects := w.objects ++
        [if (Kinds.standard.get s).isComponent then asDeclared o e target else o] }) := by
  obtain ⟨signature, signed⟩ := Kinds.standard_signed s
  replace signed := known.ofKind signed
  have stands : w.kinds.get (.standard s) = Kinds.standard.get s := known.get s
  generalize Kinds.standard.get s = k at instantiates signed stands ⊢
  have signs : (consult fun w : World φ =>
      (Signature.ofKind w.kinds k).mapError Problem.fault).run w = (.ok signature, w) :=
    run_consult_ok (by rw [signed]; rfl)
  have makes : (locating e.location do
      let _ ← consult fun w => (Signature.ofKind w.kinds k).mapError Problem.fault
      instantiate k project).run w = _ :=
    run_adapting_ok ((run_bind_ok signs).trans instantiates) _
  unfold create
  rw [run_bind_ok (run_observe _ w), registered]
  simp only
  rw [run_bind_ok (run_observe _ w), stands, run_bind_ok makes]
  split
  · rw [← modify_last w.objects o (asDeclared · e target)]
    rfl
  · rfl

/-- An element is made into an object that has only what objects of its kind have at first. -/
theorem run_create {e : Element} (known : w.kinds.HasStandard) (made : Kinds.isMade s = true)
    (registered : w.registry.find? e.tag = some (.standard s)) (project : ProjectId)
    (target : Option String) : ∃ o : Object, o.kind = .standard s ∧ o.project = project ∧
      (Kinds.standard.get s).start? = some o.fields ∧
      (create project e target).run w =
        (.ok w.objects.length, { w with objects := w.objects ++ [o] }) := by
  obtain ⟨fields, starts, instantiates⟩ := run_instantiate known made project
  refine ⟨_, ?_, ?_, ?_, run_create_of_instantiate known registered instantiates target⟩
  · split <;> rfl
  · split <;> rfl
  · split <;> exact starts

end Engine

/-- An element of a standard kind awaits its performance at a position of a target. Its object may
have been made, but it was not configured. -/
structure World.Awaits (w : World φ) (s : Standard) (project : ProjectId) (target : String)
    (index : Nat) (e : Element) : Prop where
  known : w.kinds.HasStandard
  element : (w.invocationAt project target index).element = some e
  waiting : (w.invocationAt project target index).configured = false
  registered : (w.invocationAt project target index).object = none →
    w.registry.find? e.tag = some (.standard s)
  made : ∀ id, (w.invocationAt project target index).object = some id → w.IsOf s project id

/-- The object of an element stands ready to be configured: it is one that was there, or it is as
objects of its kind are at first. -/
structure World.Readies (w : World φ) (s : Standard) (project : ProjectId) (target : String)
    (index : Nat) (e : Element) (id : ObjectId) (ready : World φ) : Prop where
  kinds : ready.kinds = w.kinds
  properties : ∀ p, (ready.project p).properties = (w.project p).properties
  object : ready.IsOf s project id
  element : (ready.invocationAt project target index).element = some e
  waiting : (ready.invocationAt project target index).configured = false
  start : (w.invocationAt project target index).object = some id ∧ ready = w ∨
    (Kinds.standard.get s).start? = some (ready.object id).fields

namespace Engine

variable {w : World φ} {s : Standard} {project : ProjectId} {target : String} {index : Nat}
variable {e : Element}

theorem properties_of_changeInvocation {w after : World φ} {change : Invocation → Invocation}
    (same : after.projects = w.projects.modify project
      (fun p => p.changeInvocations target (·.modify index change))) (p : ProjectId) :
    (after.project p).properties = (w.project p).properties := by
  rcases World.project_of_modify same p with stays | ⟨rfl, changes⟩
  · rw [stays]
  · rw [changes, Project.properties_changeInvocations]

/-- An invocation changes, but neither properties nor objects do. -/
theorem run_changeInvocation (project : ProjectId) (target : String) (index : Nat)
    (change : Invocation → Invocation) (w : World φ) : ∃ after,
      (changeInvocation project target index change).run w = (.ok (), after) ∧
      after.projects = w.projects.modify project
        (fun p => p.changeInvocations target (·.modify index change)) ∧
      (∀ p, (after.project p).properties = (w.project p).properties) ∧
      after.objects = w.objects ∧ after.kinds = w.kinds :=
  ⟨_, rfl, rfl, properties_of_changeInvocation rfl, rfl, rfl⟩

theorem run_instantiateInvocation (awaits : w.Awaits s project target index e)
    (made : Kinds.isMade s = true) : ∃ id ready, w.Readies s project target index e id ready ∧
      (instantiateInvocation project target index).run w = (.ok (some id), ready) := by
  have element := awaits.element
  unfold instantiateInvocation
  rw [invocation, run_bind_ok (run_observe _ w), element]
  cases object : (w.invocationAt project target index).object with
  | some id =>
    exact ⟨id, w, ⟨rfl, fun _ => rfl, awaits.made id object, element, awaits.waiting,
      .inl ⟨object, rfl⟩⟩, rfl⟩
  | none =>
    obtain ⟨o, kind, home, starts, creates⟩ := run_create awaits.known made
      (awaits.registered object) project (if target.isEmpty then none else some target)
    generalize added : ({ w with objects := w.objects ++ [o] } : World φ) = mid at creates
    have stands : mid.object w.objects.length = o := by
      rw [World.object_of_append (w := w) (by rw [← added]), if_pos rfl]
    have before : mid.invocationAt project target index = w.invocationAt project target index := by
      rw [← added]
      rfl
    obtain ⟨ready, changes, projects, properties, objects, kinds⟩ :=
      run_changeInvocation project target index
      (fun i => { i with object := some w.objects.length }) mid
    have still : ready.object w.objects.length = o := by rw [World.object_of_same objects, stands]
    refine ⟨w.objects.length, ready, ?_, ?_⟩
    · constructor
      · rw [kinds, ← added]
      · intro p
        rw [properties, ← added]
        rfl
      · have present : w.objects.length < ready.objects.length := by simp [objects, ← added]
        exact ⟨present, still ▸ kind, still ▸ home⟩
      · rw [World.invocationAt_of_modify Invocation.element projects fun _ => rfl, before, element]
      · rw [World.invocationAt_of_modify Invocation.configured projects fun _ => rfl, before,
          awaits.waiting]
      · exact .inr (still ▸ starts)
    · simp only
      rw [run_bind_ok creates, run_bind_ok changes]
      rfl

/-- What is made ready to be performed is configured from its element. -/
theorem ok_of_prepareInvocation {final : World φ} {id : ObjectId}
    (awaits : w.Awaits s project target index e) (made : Kinds.isMade s = true)
    (ended : (prepareInvocation project target index).run w = (.ok (some id), final)) :
    ∃ ready configured, w.Readies s project target index e id ready ∧
      (configure project id e).run ready = (.ok (), configured) ∧
      final.objects = configured.objects ∧ final.kinds = configured.kinds := by
  obtain ⟨other, ready, readies, instantiates⟩ := run_instantiateInvocation awaits made
  unfold prepareInvocation at ended
  rw [run_bind_ok instantiates] at ended
  simp only at ended
  rw [invocation, run_bind_ok (run_observe _ ready), readies.element, readies.waiting] at ended
  simp only [Bool.not_false, if_true] at ended
  obtain ⟨_, configured, configures, ended⟩ := ok_of_bind ended
  obtain ⟨changed, changes, -, -, objects, kinds⟩ :=
    run_changeInvocation project target index (fun i => { i with configured := true }) configured
  rw [run_bind_ok changes, run_bind_ok (run_observe _ changed)] at ended
  split at ended
  · cases ended
    exact ⟨ready, configured, readies, configures, objects, kinds⟩
  · cases ended

/-- What is made ready to be performed keeps its kind. -/
theorem kind_of_prepareInvocation {final : World φ} {id : ObjectId}
    (awaits : w.Awaits s project target index e) (made : Kinds.isMade s = true)
    (ended : (prepareInvocation project target index).run w = (.ok (some id), final)) :
    final.kinds = w.kinds ∧ (final.object id).kind = .standard s := by
  obtain ⟨ready, configured, readies, configures, objects, kinds⟩ :=
    ok_of_prepareInvocation awaits made ended
  have present := readies.object.present
  obtain ⟨binds, -⟩ := BindsBy.of_run (binds_configure (World.has_ofNone _) present
    (fun _ => not_false) e : BindsBy OfNone ready _ _) configures
  constructor
  · rw [kinds, binds.kinds, readies.kinds]
  · rw [World.object_of_same objects, (binds.object id present).kind, readies.object.kind]

end Engine
end BuildEngine
