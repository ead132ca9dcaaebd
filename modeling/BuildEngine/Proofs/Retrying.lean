import BuildEngine.Proofs.Making
import BuildEngine.Proofs.Overwriting

/-! Retrying: what a configuration that failed leaves of an object, and how the object is configured
when that is tried again. Attributes and references are given again, so nothing of them is left; only
what was nested in the object stays. -/

namespace BuildEngine

open Engine

variable {φ : Type} {α β : Type}

/-- The world in which an object is another reference, or none. -/
def World.withReference (w : World φ) (id : ObjectId) (reference : Option Reference) : World φ :=
  w.changed id fun o => { o with reference }

theorem World.withReference_self (w : World φ) (id : ObjectId) :
    w.withReference id (w.object id).reference = w :=
  changed_of_same rfl

theorem World.withReference_withReference (w : World φ) (id : ObjectId)
    (first second : Option Reference) :
    (w.withReference id first).withReference id second = w.withReference id second :=
  changed_changed w id _ _

theorem World.kindOf_withReference (w : World φ) (id : ObjectId) (reference : Option Reference) :
    (w.withReference id reference).kindOf id = w.kindOf id :=
  kindOf_changed w id id _ fun _ => rfl

/-! What a failure leaves. -/

namespace Engine

/-- An action that changes nothing if it ends with a fault. -/
def FailsClean (action : Engine φ α) : Prop :=
  ∀ w fault after, action.run w = (.error fault, after) → after = w

namespace FailsClean

variable {action : Engine φ α} {next : α → Engine φ β}

theorem of_looks (looks : Looks action) : FailsClean action := by
  intro w fault after ended
  simpa only [ended] using looks w

theorem change (change : World φ → World φ) : FailsClean (modify change : Engine φ Unit) :=
  fun _ _ _ ended => nomatch ended

theorem look (looks : Looks action) (rest : ∀ a, FailsClean (next a)) :
    FailsClean (action >>= next) := by
  intro w fault after ended
  have same := looks w
  rcases ran : action.run w with ⟨fault' | a, mid⟩
  · rw [run_bind_error ran] at ended
    cases ended
    simpa only [ran] using same
  · obtain rfl : mid = w := by simpa only [ran] using same
    rw [run_bind_ok ran] at ended
    exact rest a _ fault after ended

theorem adapting (clean : FailsClean action) (change : Fault → Fault) :
    FailsClean (adapting change action) := by
  intro w fault after ended
  rcases ran : action.run w with ⟨fault' | a, mid⟩
  · rw [Engine.adapting, run_tryCatch_error ran] at ended
    cases ended
    exact clean w fault' _ ran
  · rw [Engine.adapting, run_tryCatch_ok ran] at ended
    cases ended

end FailsClean

theorem failsClean_bindText (id : ObjectId) (text : String) (location : Location) :
    FailsClean (bindText (φ := φ) id text location) := by
  unfold bindText
  split
  · exact .of_looks (.pure _)
  refine .look (.adapting _ (looks_signatureOf id)) fun signature => ?_
  split
  · exact .look (.observe _) fun owner => .of_looks (.throw _)
  · refine .adapting (.look (looks_methodOf id _) fun found => ?_) _
    split
    · split
      · exact .of_looks (.throw _)
      · refine .look (.consult _) fun before => ?_
        exact .look (.observe _) fun a => .look (.consult _) fun taken => .change _
      · exact .change _
    · exact .of_looks (.pure _)

/-! The parts of a configuration. -/

section Parts

variable {w after : World φ} {project : ProjectId} {id : ObjectId} {e : Element}

/-- The attributes of an element with references to properties replaced. -/
def resolvedBy (p : Properties) (e : Element) : List (String × String) :=
  e.attributes.map fun entry => (entry.1, p.resolve entry.2)

/-- The attribute by which an element makes an object a reference, if it does. -/
def referring? (isDataType : Bool) (e : Element) : Option (String × String) :=
  e.attributes.find? fun entry => isDataType && isRefidName entry.1

/-- Nested elements and text are added to an object. -/
def addContents (project : ProjectId) (id : ObjectId) (e : Element) : Engine φ Unit := do
  configureChildren project id e.children
  if !e.text.isEmpty then
    let properties := (← Engine.project project).properties
    bindText id (properties.resolve e.text) e.location

/-- Naming an object does the same whatever the objects are. -/
theorem named_changed (w : World φ) (project : ProjectId) (e : Element) (id other : ObjectId)
    (change : Object → Object) : (w.changed other change).named project e id =
      (w.named project e id).changed other change := by
  unfold World.named World.changed
  split <;> rfl

theorem find?_resolvedBy (p : Properties) (e : Element) (isDataType : Bool) :
    (resolvedBy p e).find? (fun entry => isDataType && isRefidName entry.1) =
      (referring? isDataType e).map fun entry => (entry.1, p.resolve entry.2) := by
  rw [resolvedBy, List.find?_map]
  rfl

/-- An object is named, and then it is made a reference, or it is given its attributes and
contents. -/
theorem run_configure (w : World φ) (project : ProjectId) (id : ObjectId) (e : Element) :
    let p := ((w.named project e id).project project).properties
    (configure project id e).run w = (match referring? (w.kindOf id).isDataType e with
      | some (_, refid) => bindReference project e id (p.resolve refid) (resolvedBy p e)
      | none => do
        bindAttributes project id e.location (resolvedBy p e)
        addContents project id e : Engine φ Unit).run (w.named project e id) := by
  obtain ⟨tag, attributes, children, text, location⟩ := e
  intro p
  unfold configure
  extract_lets e
  rw [run_bind_ok (run_registerId project e id w), run_bind_ok (run_project _ _)]
  extract_lets properties resolved
  have found : resolved.find? _ = _ := find?_resolvedBy properties e (w.kindOf id).isDataType
  rw [run_bind_ok (run_observe _ _), World.kindOf_named, found]
  cases referring? (w.kindOf id).isDataType e <;> rfl

/-- Which attributes are given values does not depend on the values. -/
theorem assignedBy_resolvedBy (signed : Except Problem Signature) (p : Properties) (e : Element) :
    assignedBy signed (resolvedBy p e) = assignedBy signed e.attributes := by
  rw [assignedBy, assignedBy, resolvedBy, List.filter_map, List.flatMap_map]
  rfl

end Parts

/-- Making an object a reference is refused, or the object is made one. Both happen whatever it is a
reference to before. -/
theorem run_bindReference (w : World φ) (project : ProjectId) (e : Element) (id : ObjectId)
    (refid : String) (attributes : List (String × String)) :
    (∃ fault, ∀ reference,
      (bindReference project e id refid attributes).run (w.withReference id reference) =
        (.error fault, w.withReference id reference)) ∨
    ∀ reference,
      (bindReference project e id refid attributes).run (w.withReference id reference) =
        (do
          let _ ← consult fun w => w.target id
          return () : Engine φ Unit).run
            (w.withReference id (some ⟨project, refid, e.location⟩)) := by
  have place (reference) : ((w.withReference id reference).object id).location =
      (w.object id).location := by
    rw [World.withReference]
    rcases World.object_changed_eq_or w id id fun o => { o with reference } with same | same <;>
      rw [same]
  unfold bindReference
  by_cases others : (attributes.any fun entry => !isIdName entry.1 && !isRefidName entry.1) = true
  · refine .inl ⟨Problem.refidWithAttributes.faultAt ((w.object id).location.orElse e.location),
      fun reference => ?_⟩
    rw [run_bind_ok (run_object id _), place, if_pos others]
    rfl
  by_cases nests : (!e.children.isEmpty || !Text.allBlank e.text) = true
  · refine .inl ⟨Problem.refidWithElements.faultAt ((w.object id).location.orElse e.location),
      fun reference => ?_⟩
    rw [run_bind_ok (run_object id _), place, if_neg others, if_pos nests]
    rfl
  · refine .inr fun reference => ?_
    rw [run_bind_ok (run_object id _), place, if_neg others, if_neg nests,
      run_bind_ok (run_changeObject id _ _)]
    exact congrArg _ (World.withReference_withReference w id reference _)

section Failing

variable {w after : World φ} {project : ProjectId} {id : ObjectId} {e : Element} {fault : Fault}

/-- Contents that can not be added are nothing but nested elements, as far as the object keeps
something of them. -/
theorem object_of_addContents (present : id < w.objects.length)
    (failed : (addContents project id e).run w = (.error fault, after)) :
    after.object id = { w.object id with
      parts := (after.object id).parts, children := (after.object id).children } := by
  have has : w.Has (OfOne id) := by
    rintro _ _ rfl
    exact present
  have left {mid : World φ} {result : Except Fault Unit}
      (nested : (configureChildren project id e.children).run w = (result, mid)) :
      mid.object id = { w.object id with
        parts := (mid.object id).parts, children := (mid.object id).children } := by
    obtain ⟨binds, -⟩ := BindsBy.of_run
      (binds_configureChildren has e.children : BindsBy (OfOne id) w _ _) nested
    exact (binds.object id present).rest fun _ => rfl
  unfold addContents at failed
  rcases nested : (configureChildren project id e.children).run w with ⟨fault' | _, mid⟩
  · rw [run_bind_error nested] at failed
    cases failed
    exact left nested
  · rw [run_bind_ok nested] at failed
    split at failed
    · rw [run_bind_ok (run_project project mid)] at failed
      cases failsClean_bindText _ _ _ _ _ _ failed
      exact left nested
    · cases failed

/-- What a failure leaves of an object that was not to become a reference: attributes that were
given, in the order in which the element gives them, and what was nested. -/
theorem object_of_failed_plain (present : id < w.objects.length)
    (refers : referring? (w.kindOf id).isDataType e = none)
    (failed : (configure project id e).run w = (.error fault, after)) : ∃ entries,
      entries.map Prod.fst <+:
        assignedBy (Signature.ofKind w.kinds (w.kindOf id)) e.attributes ∧
      after.object id = { w.object id with
        fields := (w.object id).fields.putAll entries
        parts := (after.object id).parts, children := (after.object id).children } := by
  rw [run_configure, refers] at failed
  have there : id < (w.named project e id).objects.length := by rwa [World.objects_named]
  have same := World.object_of_same (World.objects_named w project e id) id
  have kinds : (w.named project e id).kinds = w.kinds := World.kinds_named w project e id
  generalize resolved : resolvedBy _ e = attributes at failed
  obtain ⟨entries, writes, begins, -⟩ : Assigns id (w.named project e id)
      (bindAttributes project id e.location attributes) _ :=
    assigns_bindAttributes there e.location attributes
  rw [kinds, World.kindOf_named, ← resolved, assignedBy_resolvedBy] at begins
  refine ⟨entries, begins, ?_⟩
  have written := writes.object
  have present := writes.present
  rcases ran : (bindAttributes project id e.location attributes).run (w.named project e id) with
    ⟨fault' | _, mid⟩
  · rw [run_bind_error ran] at failed
    cases failed
    rw [ran, same] at written
    rw [written]
  · rw [run_bind_ok ran] at failed
    rw [ran, same] at written
    rw [ran] at present
    rw [object_of_addContents present failed, written]

/-- What a failure leaves of an object that was to become a reference. -/
theorem object_of_failed_reference {name refid : String} (present : id < w.objects.length)
    (refers : referring? (w.kindOf id).isDataType e = some (name, refid))
    (failed : (configure project id e).run w = (.error fault, after)) : ∃ reference,
      after.object id = { w.object id with reference } := by
  rw [run_configure, refers] at failed
  have there : id < (w.named project e id).objects.length := by rwa [World.objects_named]
  have same := World.object_of_same (World.objects_named w project e id) id
  generalize w.named project e id = first at failed there same
  generalize (first.project project).properties = p at failed
  rw [← same]
  have ran := run_bindReference first project e id (p.resolve refid) (resolvedBy p e)
  generalize (⟨project, p.resolve refid, e.location⟩ : Reference) = given at ran
  rcases ran with ⟨refused, refuses⟩ | binds
  · have refuses := refuses (first.object id).reference
    rw [World.withReference_self, failed] at refuses
    cases refuses
    exact ⟨_, rfl⟩
  · have binds := binds (first.object id).reference
    rw [World.withReference_self, failed] at binds
    have looks : Looks (do
        let _ ← consult fun w : World φ => w.target id
        return () : Engine φ Unit) := .bind (.consult _) fun _ => .pure ()
    have left := looks (first.withReference id (some given))
    rw [← binds] at left
    subst left
    exact ⟨_, World.object_changed there⟩

end Failing

/-! Another try. -/

/-- Two runs end alike: with the same fault, or with the same result in the same world. -/
def EndsLike (first second : Except Fault α × World φ) : Prop :=
  first.1 = second.1 ∧ ∀ a, first.1 = .ok a → first.2 = second.2

theorem EndsLike.error (fault : Fault) (w u : World φ) :
    EndsLike (.error fault, w) ((.error fault, u) : Except Fault α × World φ) :=
  ⟨rfl, fun _ ended => by cases ended⟩

theorem EndsLike.refl (ended : Except Fault α × World φ) : EndsLike ended ended :=
  ⟨rfl, fun _ _ => rfl⟩

theorem EndsLike.bind {action other : Engine φ α} {w u : World φ}
    (alike : EndsLike (action.run w) (other.run u)) (next : α → Engine φ β) :
    EndsLike ((action >>= next).run w) ((other >>= next).run u) := by
  obtain ⟨results, worlds⟩ := alike
  rcases ran : action.run w with ⟨fault | a, after⟩ <;>
    rcases ran' : other.run u with ⟨fault' | a', after'⟩ <;> rw [ran, ran'] at results worlds
  · cases results
    rw [run_bind_error ran, run_bind_error ran']
    exact .error _ _ _
  · cases results
  · cases results
  · cases results
    cases worlds a rfl
    rw [run_bind_ok ran, run_bind_ok ran']
    exact .refl _

section Again

variable {w : World φ} {project : ProjectId} {id : ObjectId} {e : Element}

/-- Attributes that an earlier try gave are given again, so they make no difference. -/
theorem configure_again_plain {fresh : Table String Source} {entries : List (String × Source)}
    (present : id < w.objects.length) (refers : referring? (w.kindOf id).isDataType e = none)
    (left : (w.object id).fields = fresh.putAll entries)
    (begins : entries.map Prod.fst <+:
      assignedBy (Signature.ofKind w.kinds (w.kindOf id)) e.attributes) :
    EndsLike ((configure project id e).run w)
      ((configure project id e).run (w.withFields id fresh)) := by
  have refers' : referring? ((w.withFields id fresh).kindOf id).isDataType e = none := by
    rwa [World.kindOf_withFields]
  rw [run_configure, refers, run_configure, refers', World.withFields, named_changed]
  have there : id < (w.named project e id).objects.length := by rwa [World.objects_named]
  have same := World.object_of_same (World.objects_named w project e id) id
  have kinds := World.kinds_named w project e id
  rw [← kinds, ← World.kindOf_named w project e id] at begins
  rw [← same] at left
  generalize w.named project e id = first at there left begins ⊢
  refine EndsLike.bind ?_ fun _ => addContents project id e
  change EndsLike ((bindAttributes project id e.location _).run first)
    ((bindAttributes project id e.location
      (resolvedBy (first.project project).properties e)).run (first.withFields id fresh))
  generalize resolved : resolvedBy (first.project project).properties e = attributes
  obtain ⟨entries', writes, -, all⟩ : Assigns id first
      (bindAttributes project id e.location attributes) _ :=
    assigns_bindAttributes there e.location attributes
  rw [← resolved, assignedBy_resolvedBy, resolved] at all
  rw [writes.blind fresh]
  have written := writes.object
  rcases ran : (bindAttributes project id e.location attributes).run first with ⟨fault | a, mid⟩
  · exact .error _ _ _
  · rw [ran] at written all
    have names := all a rfl
    have settled : (mid.object id).fields = fresh.putAll entries' := by
      rw [written, left]
      exact Table.putAll_again fresh (names ▸ begins)
    refine ⟨rfl, fun _ _ => ?_⟩
    rw [← settled, World.withFields_self]

/-- What an object was a reference to makes no difference if it is made a reference again. -/
theorem configure_again_reference {name refid : String} (reference : Option Reference)
    (refers : referring? (w.kindOf id).isDataType e = some (name, refid)) :
    EndsLike ((configure project id e).run w)
      ((configure project id e).run (w.withReference id reference)) := by
  have refers' : referring? ((w.withReference id reference).kindOf id).isDataType e =
      some (name, refid) := by rwa [World.kindOf_withReference]
  rw [run_configure, refers, run_configure, refers', World.withReference, named_changed]
  generalize w.named project e id = first
  change EndsLike ((bindReference project e id
      ((first.project project).properties.resolve refid)
      (resolvedBy (first.project project).properties e)).run first)
    ((bindReference project e id ((first.project project).properties.resolve refid)
      (resolvedBy (first.project project).properties e)).run (first.withReference id reference))
  generalize (first.project project).properties = p
  rcases run_bindReference first project e id (p.resolve refid) (resolvedBy p e) with
    ⟨refused, refuses⟩ | binds
  · have own := refuses (first.object id).reference
    rw [World.withReference_self] at own
    rw [own, refuses]
    exact .error _ _ _
  · have own := binds (first.object id).reference
    rw [World.withReference_self] at own
    rw [own, binds]
    exact .refl _

/-- An object that a configuration failed for, and in which nothing was nested, is configured as if
it were as before. -/
theorem configure_again {before after : World φ} {fault : Fault}
    (failed : (configure project id e).run before = (.error fault, after))
    (was : id < before.objects.length)
    (bare : (after.object id).parts = (before.object id).parts)
    (childless : (after.object id).children = (before.object id).children)
    (present : id < w.objects.length) (left : w.object id = after.object id)
    (kind : w.kindOf id = before.kindOf id)
    (signed : Signature.ofKind w.kinds (w.kindOf id) =
      Signature.ofKind before.kinds (before.kindOf id)) :
    EndsLike ((configure project id e).run w)
      ((configure project id e).run (w.changed id fun _ => before.object id)) := by
  cases refers : referring? (w.kindOf id).isDataType e with
  | some entry =>
    obtain ⟨reference, object⟩ := object_of_failed_reference was (kind ▸ refers) failed
    have same : (w.changed id fun _ => before.object id) =
        w.withReference id (before.object id).reference :=
      World.changed_congr (by rw [left, object])
    rw [same]
    exact configure_again_reference _ refers
  | none =>
    obtain ⟨entries, begins, object⟩ := object_of_failed_plain was (kind ▸ refers) failed
    rw [bare, childless] at object
    have same : (w.changed id fun _ => before.object id) =
        w.withFields id (before.object id).fields :=
      World.changed_congr (by rw [left, object])
    rw [same]
    exact configure_again_plain present refers (by rw [left, object]) (signed ▸ begins)

end Again

end Engine

/-- An object is what an element of a standard kind is made into in some world. -/
def Object.IsMade (φ : Type) (s : Standard) (project : ProjectId) (e : Element)
    (target : Option String) (o : Object) : Prop :=
  ∃ (w mid : World φ) (id : ObjectId), w.kinds.HasStandard ∧
    w.registry.find? e.tag = some (.standard s) ∧
    (create project e target).run w = (.ok id, mid) ∧ mid.object id = o

/-- The target that objects are told in which they are declared. -/
def declaredIn (target : String) : Option String := if target.isEmpty then none else some target

/-- An element of a standard kind stands at a position of a target. Its object, if it has one, is as
it was made. -/
structure World.Poses (w : World φ) (s : Standard) (project : ProjectId) (target : String)
    (index : Nat) (e : Element) : Prop where
  known : w.kinds.HasStandard
  registered : w.registry.find? e.tag = some (.standard s)
  element : (w.invocationAt project target index).element = some e
  made : ∀ id, (w.invocationAt project target index).object = some id →
    id < w.objects.length ∧ (w.object id).IsMade φ s project e (declaredIn target)

/-- The element stands there once more, with an object that is as it was left. -/
structure World.PosesAgain (w : World φ) (s : Standard) (project : ProjectId) (target : String)
    (index : Nat) (e : Element) (id : ObjectId) (left : Object) : Prop where
  known : w.kinds.HasStandard
  registered : w.registry.find? e.tag = some (.standard s)
  element : (w.invocationAt project target index).element = some e
  object : (w.invocationAt project target index).object = some id
  waiting : (w.invocationAt project target index).configured = false
  present : id < w.objects.length
  left : w.object id = left

namespace Engine

variable {w ready after u : World φ} {s : Standard} {project : ProjectId} {target : String}
variable {index : Nat} {e : Element} {id : ObjectId} {fault : Fault}

/-- The object that an element is made into is the same one, whether it is made now or was before. -/
theorem made_of_instantiateInvocation (poses : w.Poses s project target index e)
    (makes : (instantiateInvocation project target index).run w = (.ok (some id), ready)) :
    ready.kinds.HasStandard ∧ id < ready.objects.length ∧
      (ready.invocationAt project target index).element = some e ∧
      (ready.object id).IsMade φ s project e (declaredIn target) := by
  unfold instantiateInvocation at makes
  rw [invocation, run_bind_ok (run_observe _ w), poses.element] at makes
  cases object : (w.invocationAt project target index).object with
  | some other =>
    rw [object] at makes
    cases makes
    obtain ⟨present, made⟩ := poses.made id object
    exact ⟨poses.known, present, poses.element, made⟩
  | none =>
    rw [object] at makes
    simp only at makes
    obtain ⟨n, mid, creates, changes⟩ := ok_of_bind makes
    obtain ⟨o, -, rfl, added, -⟩ := run_create_anywhere poses.known poses.registered creates
    obtain ⟨last, ran, projects, -, objects, kinds⟩ := run_changeInvocation project target index
      (fun i => { i with object := some w.objects.length }) mid
    rw [run_bind_ok ran] at changes
    cases changes
    have still : (ready.invocationAt project target index).element =
        (mid.invocationAt project target index).element :=
      World.invocationAt_of_modify Invocation.element projects fun _ => rfl
    refine ⟨?_, ?_, ?_, w, mid, _, poses.known, poses.registered, creates, ?_⟩
    · rw [kinds, added]
      exact poses.known
    · simp [objects, added]
    · rw [still, added]
      exact poses.element
    · rw [World.object_of_same objects]

/-- What is left to do once the object of an invocation is configured. -/
def finishInvocation (project : ProjectId) (target : String) (index : Nat) (id : ObjectId) :
    Engine φ (Option ObjectId) := do
  changeInvocation project target index fun i => { i with configured := true }
  return if ← observe (·.isA id Standard.task) then some id else none

theorem run_finishInvocation (project : ProjectId) (target : String) (index : Nat) (id : ObjectId)
    (w : World φ) : ∃ task after, after.objects = w.objects ∧
      (finishInvocation project target index id).run w = (.ok task, after) := by
  obtain ⟨last, changes, -, -, objects, -⟩ := run_changeInvocation project target index
    (fun i => { i with configured := true }) w
  rw [finishInvocation, run_bind_ok changes, run_bind_ok (run_observe _ last)]
  exact ⟨_, last, objects, rfl⟩

/-- What fails once an object is there is its configuration. -/
theorem configure_of_failed_prepareInvocation
    (makes : (instantiateInvocation project target index).run w = (.ok (some id), ready))
    (element : (ready.invocationAt project target index).element = some e)
    (failed : (prepareInvocation project target index).run w = (.error fault, after)) :
    (configure project id e).run ready = (.error fault, after) := by
  unfold prepareInvocation at failed
  rw [run_bind_ok makes] at failed
  simp only at failed
  rw [invocation, run_bind_ok (run_observe _ ready), element] at failed
  simp only at failed
  split at failed
  · rcases ran : (configure project id e).run ready with ⟨fault' | _, mid⟩
    · rw [run_bind_error ran] at failed
      cases failed
      rfl
    · obtain ⟨task, last, -, finishes⟩ := run_finishInvocation project target index id mid
      rw [run_bind_ok ran] at failed
      cases finishes.symm.trans failed
  · rw [run_bind_ok (run_observe _ ready)] at failed
    cases failed

/-- An object that waits is configured. -/
theorem run_prepareInvocation_of_waiting
    (object : (w.invocationAt project target index).object = some id)
    (element : (w.invocationAt project target index).element = some e)
    (waiting : (w.invocationAt project target index).configured = false) :
    (prepareInvocation project target index).run w = (do
      configure project id e
      finishInvocation project target index id).run w := by
  have makes : (instantiateInvocation project target index).run w = (.ok (some id), w) := by
    unfold instantiateInvocation
    rw [invocation, run_bind_ok (run_observe _ w), object]
    rfl
  unfold prepareInvocation
  rw [run_bind_ok makes]
  simp only
  rw [invocation, run_bind_ok (run_observe _ w), element, waiting]
  rfl

/-- When the object of an element could not be configured, and nothing was nested in it, then another
try in any world ends as if the object had just been made there: with the same fault, or with
the same world. -/
theorem prepareInvocation_again (poses : w.Poses s project target index e)
    (makes : (instantiateInvocation project target index).run w = (.ok (some id), ready))
    (failed : (prepareInvocation project target index).run w = (.error fault, after))
    (bare : (after.object id).parts = []) (childless : (after.object id).children = [])
    (again : u.PosesAgain s project target index e id (after.object id)) :
    ∃ o, (create project e (declaredIn target)).run u =
        (.ok u.objects.length, { u with objects := u.objects ++ [o] }) ∧
      EndsLike ((prepareInvocation project target index).run u)
        ((prepareInvocation project target index).run (u.changed id fun _ => o)) := by
  obtain ⟨known, present, element, v, mid, n, known', registered, creates, same⟩ :=
    made_of_instantiateInvocation poses makes
  obtain ⟨o, ⟨kind, parts, children⟩, rfl, rfl, anywhere⟩ :=
    run_create_anywhere known' registered creates
  replace same : ready.object id = o := by
    rw [← same, World.object_of_append (w := v) rfl, if_pos rfl]
  have fails := configure_of_failed_prepareInvocation makes element failed
  obtain ⟨binds, -⟩ := BindsBy.of_run (binds_configure (World.has_ofNone ready) present
    (fun _ => not_false) e : BindsBy OfNone ready _ _) fails
  have kindOf : ready.kindOf id = Kinds.standard.get s :=
    World.kindOf_of_standard known (same ▸ kind)
  have kindOf' : u.kindOf id = Kinds.standard.get s :=
    World.kindOf_of_standard again.known
      (by rw [again.left, (binds.object id present).kind, same, kind])
  obtain ⟨signature, signed⟩ := Kinds.standard_signed s
  have alike := configure_again (w := u) fails present (by rw [bare, same, parts])
    (by rw [childless, same, children]) again.present again.left (kindOf'.trans kindOf.symm)
    (by rw [kindOf, kindOf', known.ofKind signed, again.known.ofKind signed])
  rw [same] at alike
  refine ⟨o, anywhere u again.known again.registered, ?_⟩
  rw [run_prepareInvocation_of_waiting again.object again.element again.waiting,
    run_prepareInvocation_of_waiting (w := u.changed id fun _ => o) again.object again.element
      again.waiting]
  exact alike.bind fun _ => finishInvocation project target index id

/-- What was nested in an object stays nested in it, in front of what another try nests. -/
theorem nested_of_prepareInvocation {result : Except Fault (Option ObjectId)} {left : Object}
    (again : u.PosesAgain s project target index e id left)
    (ended : (prepareInvocation project target index).run u = (result, after)) :
    left.parts <+: (after.object id).parts ∧ left.children <+: (after.object id).children := by
  have configures {result : Except Fault Unit} {mid : World φ}
      (ran : (configure project id e).run u = (result, mid)) :
      left.parts <+: (mid.object id).parts ∧ left.children <+: (mid.object id).children := by
    obtain ⟨binds, -⟩ := BindsBy.of_run (binds_configure (World.has_ofNone u) again.present
      (fun _ => not_false) e : BindsBy OfNone u _ _) ran
    have object := binds.object id again.present
    rw [again.left] at object
    exact ⟨object.parts, object.children⟩
  rw [run_prepareInvocation_of_waiting again.object again.element again.waiting] at ended
  rcases ran : (configure project id e).run u with ⟨fault | _, mid⟩
  · rw [run_bind_error ran] at ended
    cases ended
    exact configures ran
  · obtain ⟨task, last, objects, finishes⟩ := run_finishInvocation project target index id mid
    rw [run_bind_ok ran, finishes] at ended
    cases ended
    rw [World.object_of_same objects]
    exact configures ran

end Engine

namespace Sample

/-- A project with a single element outside of all targets. -/
def trial (e : Element) : World Unit where
  files := ()
  registry := Registry.addStandard {}
  projects := [{ directory := .top, root := { name := "", invocations := [{ element := some e }] } }]

/-- What a first try of the element leaves. -/
def tried (e : Element) : World Unit := ((prepareInvocation 0 "" 0).run (trial e)).2

/-- The project with the object of the first try, and a property besides. -/
def retrial (e : Element) (name value : String) : World Unit :=
  { trial e with
    objects := (tried e).objects
    projects := [{
      directory := .top
      properties := Properties.setUser {} name value
      root := { name := "", invocations := [{ element := some e, object := some 0 }] } }] }

theorem trial_poses {e : Element} {s : Standard}
    (registered : (trial e).registry.find? e.tag = some (.standard s)) :
    (trial e).Poses s 0 "" 0 e := by
  have stands : (trial e).invocationAt 0 "" 0 = { element := some e } := by
    unfold World.invocationAt trial
    rfl
  have known : (trial e).kinds.HasStandard := by simpa only [trial] using .standard
  refine ⟨known, registered, by rw [stands], fun id object => ?_⟩
  rw [stands] at object
  cases object

theorem retrial_posesAgain {e : Element} {s : Standard}
    (registered : (trial e).registry.find? e.tag = some (.standard s)) (name value : String)
    (present : 0 < (tried e).objects.length) :
    (retrial e name value).PosesAgain s 0 "" 0 e 0 ((tried e).object 0) := by
  have stands : (retrial e name value).invocationAt 0 "" 0 =
      { element := some e, object := some 0 } := by
    unfold World.invocationAt retrial
    rfl
  have known : (retrial e name value).kinds.HasStandard := by
    simpa only [retrial, trial] using .standard
  have registered : (retrial e name value).registry.find? e.tag = some (.standard s) := by
    simpa only [retrial] using registered
  have objects : (retrial e name value).objects = (tried e).objects := by simp only [retrial]
  refine ⟨known, registered, by rw [stands], by rw [stands], by rw [stands], ?_, ?_⟩
  · rw [objects]
    exact present
  · rw [World.object_of_same objects]

theorem tried_of_failed {e : Element}
    (failed : ((prepareInvocation 0 "" 0).run (trial e)).1.isOk = false) :
    ∃ fault, (prepareInvocation 0 "" 0).run (trial e) = (.error fault, tried e) := by
  rw [tried]
  rcases ran : (prepareInvocation 0 "" 0).run (trial e) with ⟨fault | _, after⟩
  · exact ⟨fault, rfl⟩
  · rw [ran] at failed
    cases failed

/-- A message with a level that a property gives. -/
def levelled : Element := { tag := "echo", attributes := [("level", "${level}"), ("message", "m")] }

/-- A check of a file with a mapper of which a property gives the type. -/
def typed : Element where
  tag := "uptodate"
  attributes := [("property", "done"), ("srcfile", "a.c")]
  children := [{ tag := "mapper", attributes := [("type", "${type}")] }]

end Sample

/-- The level is none at first, and a property makes it one. -/
theorem Engine.prepareInvocation_again_levelled :
    let u := Sample.retrial Sample.levelled "level" "info"
    ((prepareInvocation 0 "" 0).run (Sample.trial Sample.levelled)).1.isOk = false ∧
      ((prepareInvocation 0 "" 0).run u).1.isOk = true ∧
      ∃ o, (create 0 Sample.levelled (declaredIn "")).run u =
          (.ok u.objects.length, { u with objects := u.objects ++ [o] }) ∧
        EndsLike ((prepareInvocation 0 "" 0).run u)
          ((prepareInvocation 0 "" 0).run (u.changed 0 fun _ => o)) := by
  have registered : (Sample.trial Sample.levelled).registry.find? Sample.levelled.tag =
      some (.standard .echo) := by
    decide +kernel
  have made : ((instantiateInvocation 0 "" 0).run
      (Sample.trial Sample.levelled)).1.toOption = some (some 0) := by
    decide +kernel
  have fails : ((prepareInvocation 0 "" 0).run (Sample.trial Sample.levelled)).1.isOk = false := by
    decide +kernel
  have left : ((Sample.tried Sample.levelled).object 0).parts = [] ∧
      ((Sample.tried Sample.levelled).object 0).children = [] ∧
      0 < (Sample.tried Sample.levelled).objects.length := by
    decide +kernel
  obtain ⟨bare, childless, present⟩ := left
  obtain ⟨fault, failed⟩ := Sample.tried_of_failed fails
  have again := Sample.retrial_posesAgain registered "level" "info" present
  have ends := prepareInvocation_again (Sample.trial_poses registered) (run_of_toOption made) failed
    bare childless again
  exact ⟨fails, by decide +kernel, ends⟩

/-- A mapper that could not be configured stays, and there is no room for another. -/
theorem Engine.prepareInvocation_leaves_nested :
    let u := Sample.retrial Sample.typed "type" "identity"
    let o := ((create 0 Sample.typed none).run u).2.object u.objects.length
    ((prepareInvocation 0 "" 0).run (Sample.trial Sample.typed)).1.isOk = false ∧
      ((prepareInvocation 0 "" 0).run u).1.isOk = false ∧
      ((prepareInvocation 0 "" 0).run (u.changed 0 fun _ => o)).1.isOk = true := by
  decide +kernel

end BuildEngine
