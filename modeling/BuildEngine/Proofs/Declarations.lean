import BuildEngine.Proofs.Discovery
import BuildEngine.Proofs.Escape
import BuildEngine.Proofs.KindGrowth
import BuildEngine.Proofs.UserProperty

/-! When declarations are checked. A build description is loaded only if the declarations of the
kind of every element in its targets agree with each other. Kinds of elements that are nested in
those are looked at when the elements are configured, so a complaint about declarations that comes
up later is one about the kind of a nested element. -/

namespace BuildEngine

open Engine Relation

variable {φ : Type} {α β : Type}

namespace Kinds

variable {ks : Kinds} {k child : Kind} {id : KindId}

/-- Elements of a name that are nested in an element of a kind are of another one. -/
def Nests (ks : Kinds) (k : Kind) (name : String) (child : Kind) : Prop :=
  ∃ s f id, Signature.ofKind ks k = .ok s ∧ s.element? name = some f ∧
    ks.childKind? k f = some id ∧ child = ks.get id

/-- An element that is of a kind stands in another element, which is of a kind too. -/
inductive StandsIn (ks : Kinds) (inner : Kind) (n : Element) : Kind → Element → Prop
  | self : StandsIn ks inner n inner n
  | nested {k child : Kind} {e c : Element} (member : c ∈ e.children)
      (nests : ks.Nests k c.tag child) (stands : StandsIn ks inner n child c) :
      StandsIn ks inner n k e

/-- Something is wrong about the declarations of a kind of which an element is that stands in
another one. That is said where the element stands, or where an element stands that is nested in
it. -/
def Faulty (ks : Kinds) (k : Kind) (e : Element) (problem : Problem) (place : Location) : Prop :=
  ∃ inner n, ks.StandsIn inner n k e ∧ Signature.ofKind ks inner = .error problem ∧
    ∃ l ∈ n.location :: n.children.map Element.location, place = Location.unknown.orElse l

theorem knows_of_madeBy? (known : ks.HasStandard) (closed : ks.isClosed = true) {method : String}
    (made : ks.madeBy? k method = some id) : ks.knows id = true := by
  unfold madeBy? at made
  split at made
  · rename_i holder e stands
    obtain ⟨other, creates, rfl⟩ := Option.map_eq_some_iff.mp made
    split
    · rw [knows, known]
      exact standard_isSome_find? .mapper
    · obtain ⟨member, listed⟩ := mem_of_member? stands
      refine knows_of_childKinds closed member (listed.resolve_left Member.noConfusion) ?_
      exact List.mem_append_right _ (Option.mem_toList.mpr creates)
  · cases made

/-- The kinds of nested elements are known. -/
theorem knows_of_childKind? (known : ks.HasStandard) (closed : ks.isClosed = true) {s : Signature}
    {name : String} {f : ChildFactory} (signed : Signature.ofKind ks k = .ok s)
    (taken : s.element? name = some f) (made : ks.childKind? k f = some id) :
    ks.knows id = true := by
  unfold childKind? at made
  split at made
  · rename_i adds given
    cases made
    obtain ⟨method, e, holder, shown, makes, -⟩ :=
      (Signature.element?_ofKind signed name f).mp taken
    obtain ⟨-, -, ⟨-, creates⟩ | ⟨_, type, other, parameters, constructible, -, -, -, kind⟩⟩ :=
      Signature.factoryOf_cases makes
    · rw [adds] at creates
      cases creates
    · rw [given] at kind
      cases kind
      obtain ⟨member, listed⟩ := shown.mem
      refine knows_of_childKinds closed member listed (List.mem_append_left _ ?_)
      simp [NestedElement.givenKind?, parameters, TypeHint.single?, constructible]
  · exact knows_of_madeBy? known closed made

theorem get_id_get (stands : ks.knows id = true) : ks.get (ks.get id).id = ks.get id := by
  obtain ⟨k, found⟩ := Option.isSome_iff_exists.mp stands
  have present : ks.get id = k := by rw [get, found, Option.getD_some]
  rw [present, id_of_find? found, present]

end Kinds

namespace Engine

variable {w : World φ} {id : ObjectId} {project : ProjectId}

/-- What an action, done in a world, may complain about declarations. -/
def Blames (w : World φ) (action : Engine φ α) (may : Problem → Location → Prop) : Prop :=
  ∀ problem place, problem.isDeclaration = true →
    (action.run w).1 = .error (.configuration problem place) → may problem place

namespace Blames

variable {action : Engine φ α} {next : α → Engine φ β} {may other : Problem → Location → Prop}

/-- What is right about all declarations complains about none. -/
theorem of_ends {wanted : α → Prop} (ends : Ends Fault.endsTask action wanted) :
    Blames w action may := by
  intro problem place declares ended
  have allowed := ends.admissible w
  rw [ended] at allowed
  change (!problem.isDeclaration) = true at allowed
  rw [declares] at allowed
  cases allowed

theorem pure (a : α) : Blames w (pure a) may := fun _ _ _ => nofun

theorem bind (first : Blames w action may)
    (rest : ∀ a after, action.run w = (.ok a, after) → Blames after (next a) may) :
    Blames w (action >>= next) may := by
  intro problem place declares ended
  rcases ran : action.run w with ⟨fault | a, after⟩
  · rw [run_bind_error ran] at ended
    cases ended
    exact first problem place declares (by rw [ran])
  · rw [run_bind_ok ran] at ended
    exact rest a after ran problem place declares ended

/-- What goes well leaves the complaints to the rest. -/
theorem after {a : α} {mid : World φ} (ran : action.run w = (.ok a, mid))
    (rest : Blames mid (next a) may) : Blames w (action >>= next) may := by
  intro problem place declares ended
  rw [run_bind_ok ran] at ended
  exact rest problem place declares ended

theorem imp (blames : Blames w action may)
    (implies : ∀ problem place, may problem place → other problem place) :
    Blames w action other :=
  fun problem place declares ended => implies _ _ (blames problem place declares ended)

end Blames

/-- Something is wrong about the declarations of an object's kind, and that is said at a place. -/
def Misdescribed (w : World φ) (id : ObjectId) (location : Location) (problem : Problem)
    (place : Location) : Prop :=
  Signature.ofKind w.kinds (w.kindOf id) = .error problem ∧ place = Location.unknown.orElse location

/-- What needs nothing but the signature of an object complains about its kind only. -/
theorem blames_signed {next : Signature → Engine φ α} {wanted : α → Prop} {location : Location}
    (rest : ∀ s, Ends Fault.endsTask (next s) wanted) :
    Blames w (locating location (signatureOf id) >>= next) (Misdescribed w id location) := by
  refine .bind ?_ fun s after ran => .of_ends (rest s)
  intro problem place declares ended
  cases described : Signature.ofKind w.kinds (w.kindOf id) with
  | error complaint =>
    rw [run_signatureOf_error described location] at ended
    cases ended
    exact ⟨described, rfl⟩
  | ok s =>
    rw [run_signatureOf described location] at ended
    cases ended

theorem blames_bindAttributes (present : id < w.objects.length) (location : Location)
    (attributes : List (String × String)) :
    Blames w (bindAttributes project id location attributes) (Misdescribed w id location) := by
  induction attributes generalizing w with
  | nil => exact .pure _
  | cons entry rest ih =>
    obtain ⟨name, text⟩ := entry
    unfold bindAttributes
    split
    · refine .bind ?_ fun _ after ran => ?_
      · rw [bindAttribute_eq]
        exact blames_signed fun s =>
          (ends_assignBy project id name text location s).imp Fault.endsTask_of_refuses
      · have binding : BindsBy OfNone w (bindAttribute project id name text location) :=
          binds_bindAttribute (World.has_ofNone _) (fun _ _ _ _ => not_false) text location
        obtain ⟨binds, -⟩ := binding.of_run ran
        refine (ih (binds.present present)).imp fun problem place => ?_
        rw [Misdescribed, binds.kinds, binds.kindOf present]
        exact fun wrong => wrong
    · exact ih present

theorem blames_bindText (text : String) (location : Location) :
    Blames w (bindText id text location) (Misdescribed w id location) := by
  rw [bindText_eq]
  split
  · exact .pure _
  · exact blames_signed (ends_passTextBy id text location)

theorem blames_takeChild (name : String) (location : Location) :
    Blames w (takeChild project id name location) (Misdescribed w id location) := by
  rw [takeChild_eq]
  refine blames_signed fun s => (ends_takeBy project id name location s).imp fun fault may => ?_
  rcases Bool.or_eq_true_iff.mp may with refuses | ofMaking
  · exact Fault.endsTask_of_refuses fault refuses
  · exact Fault.endsTask_of_isOfMaking fault ofMaking

/-- The object that is made for a nested element is of the kind that its owner's kind asks for. -/
theorem nests_of_takes (known : w.kinds.HasStandard) (closed : w.kinds.isClosed = true)
    {taken : World φ} {name : String} {h : ChildHandle} (binds : w.Binds OfNone taken)
    (takes : Takes w id name taken h) :
    w.kinds.Nests (w.kindOf id) name (taken.kindOf h.child) := by
  obtain ⟨s, signed, found⟩ := takes.declared
  obtain ⟨kind, made, same⟩ := takes.made
  refine ⟨s, h.factory, kind, signed, found, made, ?_⟩
  rw [World.kindOf, binds.kinds, same]
  exact Kinds.get_id_get (Kinds.knows_of_childKind? known closed signed found made)

mutual

/-- Configuring an object complains about the kinds of the elements that stand in its element. -/
theorem blames_configure {w : World φ} {id : ObjectId} (known : w.kinds.HasStandard)
    (closed : w.kinds.isClosed = true) (present : id < w.objects.length) :
    ∀ e : Element, Blames w (configure project id e) (w.kinds.Faulty (w.kindOf id) e)
  | ⟨tag, attributes, children, text, location⟩ => by
    unfold configure
    extract_lets e
    refine .bind (.of_ends (ends_registerId project e id)) fun _ registered ran => ?_
    obtain ⟨first, -⟩ := BindsBy.of_run (binds_registerId e id : BindsBy OfNone w _ _) ran
    refine .bind (.of_ends (.observe _)) fun p _ ran => ?_
    cases ran
    extract_lets properties resolved
    refine .bind (.of_ends (.observe _)) fun isDataType _ ran => ?_
    cases ran
    split
    · exact .of_ends ((ends_bindReference project e id _ resolved).imp Fault.endsTask_of_refuses)
    -- What is bound changes neither the kinds nor the kind of the object.
    have here {after : World φ} (binds : w.Binds OfNone after) (problem : Problem)
        (place : Location) (wrong : Misdescribed after id location problem place) :
        w.kinds.Faulty (w.kindOf id) e problem place := by
      rw [Misdescribed, binds.kinds, binds.kindOf present] at wrong
      exact ⟨w.kindOf id, e, .self, wrong.1, location, List.mem_cons_self, wrong.2⟩
    refine .bind ((blames_bindAttributes (first.present present) location resolved).imp
      (here first)) fun _ bound ran => ?_
    have attributes : BindsBy OfNone registered (bindAttributes project id location resolved) :=
      binds_bindAttributes (World.has_ofNone _) (first.present present) location resolved
        fun _ _ _ _ _ _ => not_false
    have second := first.trans (attributes.of_run ran).1
    have inside : Blames bound (configureChildren project id children)
        (bound.kinds.Faulty (bound.kindOf id) e) :=
      blames_configureChildren (second.kinds ▸ known) (second.kinds ▸ closed)
        (second.present present) e children (List.Subset.refl _)
    rw [second.kinds, second.kindOf present] at inside
    refine .bind inside fun _ nested ran => ?_
    have children : BindsBy OfNone bound (configureChildren project id children) :=
      binds_configureChildren (World.has_ofNone _) children
    have third := second.trans (children.of_run ran).1
    split
    · refine .bind (.of_ends (.observe _)) fun p _ ran => ?_
      cases ran
      exact (blames_bindText _ location).imp (here third)
    · exact .pure _

theorem blames_configureChildren {w : World φ} {id : ObjectId} (known : w.kinds.HasStandard)
    (closed : w.kinds.isClosed = true) (present : id < w.objects.length) (e : Element) :
    ∀ children : List Element, children ⊆ e.children →
      Blames w (configureChildren project id children) (w.kinds.Faulty (w.kindOf id) e)
  | [], _ => by
    unfold configureChildren
    exact .pure _
  | c :: rest, among => by
    unfold configureChildren
    have member := among List.mem_cons_self
    refine .bind ((blames_takeChild c.tag c.location).imp fun problem place wrong => ?_)
      fun h taken ran => ?_
    · exact ⟨w.kindOf id, e, .self, wrong.1, c.location,
        List.mem_cons_of_mem _ (List.mem_map_of_mem member), wrong.2⟩
    obtain ⟨first, takes⟩ := BindsBy.of_run
      (binds_takeChild (World.has_ofNone w) c.tag c.location) ran
    replace takes := takes h rfl
    have nests := nests_of_takes known closed first takes
    have deeper : Blames taken (configure project h.child c) _ :=
      blames_configure (first.kinds ▸ known) (first.kinds ▸ closed) takes.new.2 c
    refine .bind (deeper.imp fun problem place wrong => ?_) fun _ configured ran => ?_
    · obtain ⟨inner, n, stands, wrong, there⟩ := wrong
      rw [first.kinds] at stands wrong
      exact ⟨inner, n, .nested member nests stands, wrong, there⟩
    have configures : BindsBy OfNone taken (configure project h.child c) :=
      binds_configure (World.has_ofNone _) takes.new.2 (fun _ => not_false) c
    have second := first.trans (configures.of_run ran).1
    refine .bind (.of_ends ((ends_attach takes.unattached).imp Fault.endsTask_of_isOfMaking))
      fun _ attached ran => ?_
    have third := second.trans
      (BindsBy.of_run (binds_attach h : BindsBy OfNone configured _ _) ran).1
    have others : Blames attached (configureChildren project id rest)
        (attached.kinds.Faulty (attached.kindOf id) e) :=
      blames_configureChildren (third.kinds ▸ known) (third.kinds ▸ closed)
        (third.present present) e rest fun other later => among (List.mem_cons_of_mem _ later)
    rwa [third.kinds, third.kindOf present] at others

end

end Engine

/-! What the engine does leaves checked what was checked. -/

namespace World

variable {w after : World φ} {id : ObjectId} {project : ProjectId} {target : String} {index : Nat}
variable {e : Element}

/-- An object is there, and the declarations of its kind agree with each other. -/
structure Checked (w : World φ) (id : ObjectId) : Prop where
  present : id < w.objects.length
  knows : w.kinds.knows (w.object id).kind = true
  signed : ∃ s, Signature.ofKind w.kinds (w.kindOf id) = .ok s

theorem Describes.checked (described : w.Describes id) (known : w.kinds.HasStandard)
    (present : id < w.objects.length) : w.Checked id := by
  obtain ⟨kind, s, same, signed⟩ := described
  cases stands : w.kinds.knows kind with
  | true =>
    have own : w.kindOf id = w.kinds.get kind := by
      rw [kindOf, same, Kinds.get_id_get stands]
    refine ⟨present, ?_, s, by rw [own, signed]⟩
    obtain ⟨k, found⟩ := Option.isSome_iff_exists.mp stands
    rw [same, Kinds.get, found, Option.getD_some, Kinds.id_of_find? found, Kinds.knows, found]
    rfl
  | false =>
    -- Where a kind is not known, objects stand in for its objects.
    have absent : w.kinds.get kind = default := by
      rw [Kinds.get, Option.not_isSome_iff_eq_none.mp (Bool.eq_false_iff.mp stands)]
      rfl
    have object : (w.object id).kind = .standard .object := by rw [same, absent]; rfl
    obtain ⟨other, standard⟩ := Kinds.standard_signed .object
    refine ⟨present, ?_, other, ?_⟩
    · rw [object, Kinds.knows, known]
      exact Kinds.standard_isSome_find? .object
    · rw [kindOf, object, known.get]
      exact known.ofKind standard

/-- A single step of the engine, as far as kinds and what stands in targets are concerned. -/
structure Step (w after : World φ) : Prop where
  change : Mark.origin.Change w after
  kinds : w.kinds.Learns after.kinds
  places : ∀ project, (w.project project).Retains (after.project project)
  held : ∀ project id, (after.project project).Holds id →
    (w.project project).Holds id ∨ id < after.objects.length ∧ after.Describes id

namespace Step

theorem ofSame (change : Mark.origin.Change w after) (kinds : w.kinds.Learns after.kinds)
    (projects : after.projects = w.projects) : w.Step after where
  change := change
  kinds := kinds
  places project := by
    rw [project_of_same projects]
    exact .refl _
  held project id holds := .inl (by rwa [← project_of_same projects])

theorem ofNewProject {p : Project} (empty : ∀ o, ¬ p.Holds o) (kinds : after.kinds = w.kinds)
    (projects : after.projects = w.projects ++ [p]) (objects : after.objects = w.objects) :
    w.Step after where
  change := .newProject p empty projects objects
  kinds := .inl kinds
  places project := by
    rw [project_of_append projects]
    split
    · rename_i last
      rw [last, project_unmade (Nat.le_refl _)]
      exact .of_default p
    · exact .refl _
  held project id holds := by
    rw [project_of_append projects] at holds
    split at holds
    · exact absurd holds (empty id)
    · exact .inl holds

end Step

instance admits_step : Mark.origin.AdmitsNews (Step (φ := φ)) where
  change step := step.change
  aside kinds projects objects _ := .ofSame (.aside projects objects) kinds projects
  object id change later kind home kinds projects objects _ :=
    .ofSame (.object id change later kind home projects objects) (.inl kinds) projects
  project id change later written _ places held kinds projects objects _ := {
    change := .project id change later written (fun o holds => (held o holds).imp_right And.left)
      projects objects
    kinds := .inl kinds
    places := fun project => by
      rcases project_of_modify projects project with same | ⟨rfl, same⟩
      · rw [same]
        exact .refl _
      · rwa [same]
    held := fun project o holds => by
      rcases project_of_modify projects project with same | ⟨rfl, same⟩
      · exact .inl (same ▸ holds)
      · refine (held o (same ▸ holds)).imp_right fun ⟨_, made, described⟩ => ?_
        exact ⟨objects ▸ made.1, described.of_same kinds (by rw [object_of_same objects])⟩ }
  newObject o home kinds projects objects _ :=
    .ofSame (.newObject o home projects objects) (.inl kinds) projects
  newProject p _ empty kinds projects objects _ := .ofNewProject empty kinds projects objects
  news kinds projects objects := .ofSame (.aside projects objects) (.inl kinds) projects

/-- A world whose kinds are complete. -/
structure IsComplete (w : World φ) : Prop where
  known : w.kinds.HasStandard
  closed : w.kinds.isClosed = true

/-- All objects that stand in targets of a project are checked. -/
structure ChecksHeld (w : World φ) (project : ProjectId) : Prop extends IsComplete w where
  held : ∀ id, (w.project project).Holds id → w.Checked id

/-- An element stands at a position of a target. -/
def Places (w : World φ) (project : ProjectId) (target : String) (index : Nat) (e : Element) :
    Prop :=
  ∃ i, (w.project project).invocation? target index = some i ∧ i.element = some e

/-- What stands at a position of a target has an object. -/
def Fills (w : World φ) (project : ProjectId) (target : String) (index : Nat) : Prop :=
  ∃ i, (w.project project).invocation? target index = some i ∧ i.object.isSome = true

namespace Step

theorem isComplete (step : w.Step after) (complete : w.IsComplete) : after.IsComplete :=
  ⟨step.kinds.hasStandard complete.known, step.kinds.isClosed complete.known complete.closed⟩

theorem checked (step : w.Step after) (complete : w.IsComplete) (checked : w.Checked id) :
    after.Checked id := by
  obtain ⟨present, knows, s, signed⟩ := checked
  obtain ⟨added, all, -⟩ := step.kinds.all complete.known
  have kind := step.change.kind present
  refine ⟨Nat.lt_of_lt_of_le present step.change.objects_le, ?_, s, ?_⟩
  · rw [kind]
    exact Kinds.knows_of_append all knows
  · rw [kindOf, kind]
    exact step.kinds.ofKind complete.known complete.closed knows signed

theorem checksHeld (step : w.Step after) (before : w.ChecksHeld project) :
    after.ChecksHeld project where
  toIsComplete := step.isComplete before.toIsComplete
  held id holds := by
    rcases step.held project id holds with old | ⟨present, described⟩
    · exact step.checked before.toIsComplete (before.held id old)
    · exact described.checked (step.isComplete before.toIsComplete).known present

theorem placed (step : w.Step after) (stands : w.Places project target index e) :
    after.Places project target index e := by
  obtain ⟨i, there, element⟩ := stands
  obtain ⟨j, still, same, -⟩ := step.places project target index i there
  exact ⟨j, still, same.trans element⟩

theorem fills (step : w.Step after) (fills : w.Fills project target index) :
    after.Fills project target index := by
  obtain ⟨i, there, made⟩ := fills
  obtain ⟨j, still, -, kept⟩ := step.places project target index i there
  exact ⟨j, still, kept made⟩

end Step

/-- Steps of the engine lead from one world to another one. -/
abbrev Steps : World φ → World φ → Prop := ReflTransGen Step

namespace Steps

theorem checksHeld (steps : w.Steps after) (before : w.ChecksHeld project) :
    after.ChecksHeld project := by
  induction steps with
  | refl => exact before
  | tail _ step ih => exact step.checksHeld ih

theorem placed (steps : w.Steps after) (stands : w.Places project target index e) :
    after.Places project target index e := by
  induction steps with
  | refl => exact stands
  | tail _ step ih => exact step.placed ih

theorem fills (steps : w.Steps after) (fills : w.Fills project target index) :
    after.Fills project target index := by
  induction steps with
  | refl => exact fills
  | tail _ step ih => exact step.fills ih

end Steps

theorem Places.invocationAt (stands : w.Places project target index e) :
    (w.invocationAt project target index).element = some e := by
  obtain ⟨i, there, element⟩ := stands
  have same : w.invocationAt project target index = i := congrArg (·.getD default) there
  rw [same, element]

theorem Fills.invocationAt (fills : w.Fills project target index) :
    ∃ id, (w.invocationAt project target index).object = some id := by
  obtain ⟨i, there, made⟩ := fills
  have same : w.invocationAt project target index = i := congrArg (·.getD default) there
  rw [same]
  exact Option.isSome_iff_exists.mp made

/-- A project in which something stands was made. -/
theorem Places.present (stands : w.Places project target index e) :
    project < w.projects.length := by
  obtain ⟨i, there, -⟩ := stands
  by_contra unmade
  rw [project_unmade (Nat.le_of_not_lt unmade), Project.invocation?_default] at there
  cases there

/-- What stands in a target has a place among the positions of the target. -/
theorem Places.position (stands : w.Places project target index e) :
    index ∈ List.range (w.invocationCount project target) := by
  obtain ⟨i, there, -⟩ := stands
  obtain ⟨t, found, listed⟩ := Option.bind_eq_some_iff.mp there
  rw [List.mem_range, invocationCount, found]
  exact (List.getElem?_eq_some_iff.mp listed).1

theorem Places.listed (stands : w.Places project target index e) (named : target ≠ "") :
    target ∈ (w.project project).targets.keys := by
  obtain ⟨i, there, -⟩ := stands
  obtain ⟨t, found, -⟩ := Option.bind_eq_some_iff.mp there
  rw [Project.target?, if_neg (by simpa using named)] at found
  rw [← Targets.contains_iff_mem_keys, Targets.contains_iff_find?]
  exact ⟨t, found⟩

end World

namespace Engine

variable {w declared loaded : World φ} {project : ProjectId} {target : String} {index : Nat}
variable {e : Element}

/-- What stands at a position has an object after that was asked for. -/
theorem leads_instantiateInvocation (stands : w.Places project target index e) :
    Leads World.Step w (instantiateInvocation project target index)
      fun after _ => after.Fills project target index := by
  refine ⟨(Mark.confined_instantiateInvocation (Nat.zero_le _) target index
    (Mark.sealed_origin w)).1, fun made ended => ?_⟩
  rcases ran : (instantiateInvocation project target index).run w with ⟨_, after⟩
  rw [ran] at ended
  cases ended
  obtain ⟨i, there, element⟩ := stands
  have same : w.invocationAt project target index = i := congrArg (·.getD default) there
  rw [instantiateInvocation, invocation, run_bind_ok (run_observe _ w), same] at ran
  split at ran
  · rename_i object
    cases ran
    exact ⟨i, there, by rw [object]; rfl⟩
  · rename_i none_
    rw [none_] at element
    cases element
  · obtain ⟨id, mid, creates, ran⟩ := ok_of_bind ran
    obtain ⟨_, changed, changes, ran⟩ := ok_of_bind ran
    cases ran
    have steps : w.Steps mid :=
      (Mark.confined_create (Nat.zero_le project) _ _).onward (Mark.sealed_origin w) .refl creates
    have stands := steps.placed ⟨i, there, element⟩
    have present := stands.present
    obtain ⟨j, still, -⟩ := stands
    obtain ⟨_, changes', projects, -⟩ := run_changeInvocation project target index
      (fun i => { i with object := some id }) mid
    cases changes.symm.trans changes'
    rw [World.Fills, World.project_of_modify_present projects present, if_pos rfl]
    exact ⟨_, Project.invocation?_changeInvocation still _, rfl⟩

theorem leads_instantiateTargets (stands : w.Places project target index e)
    (named : target ≠ "") :
    Leads World.Step w (instantiateTargets project)
      fun after _ => after.Fills project target index := by
  have instantiates {after : World φ} (target : String) (index : Nat) :
      Leads World.Step after (instantiateInvocation project target index) :=
    ⟨(Mark.confined_instantiateInvocation (Nat.zero_le _) target index
      (Mark.sealed_origin after)).1, fun _ _ => trivial⟩
  unfold instantiateTargets
  refine .look (.observe _) fun p seen => ?_
  cases seen
  refine .bind (.forIn_of_mem (fun _ _ step => step.fills) (stands.listed named) _
    (fun _ other _ _ => ?_) fun after _ steps => ?_) fun after _ _ filled => .pure filled
  · refine .look (.observe _) fun positions _ => ?_
    refine .bind (.forIn _ _ fun _ position _ _ => ?_) fun _ _ _ _ => .pure ⟨_, rfl⟩
    exact .bind (instantiates other position) fun _ _ _ _ => .pure trivial
  · refine .look (.observe _) fun positions seen => ?_
    cases seen
    have stands := World.Steps.placed steps stands
    refine .bind (.forIn_of_mem (fun _ _ step => step.fills) stands.position _
      (fun _ position _ _ => ?_) fun final _ more => ?_) fun after _ _ filled => .pure filled
    · exact .bind (instantiates target position) fun _ _ _ _ => .pure ⟨_, rfl⟩
    · exact .bind (leads_instantiateInvocation (World.Steps.placed more stands))
        fun _ _ _ filled => .pure filled

section Load

variable {t child : Element}

/-- What stands in the targets of a build description stands in those of the project that adopts
it. -/
theorem places_adopt (present : project < w.projects.length)
    (adopted : (adopt project e).run w = (.ok (), declared)) (member : t ∈ e.children)
    (isTarget : Text.lower t.tag = "target") (inside : t.children[index]? = some child) :
    (t.get? "name").getD "" ≠ "" ∧
      declared.Places project ((t.get? "name").getD "") index child := by
  unfold adopt at adopted
  extract_lets declare at adopted
  split at adopted
  · cases adopted
  unfold declare at adopted
  rw [run_bind_ok (run_project project w)] at adopted
  rcases added : ((w.project project).describedBy e).addElements e.children with ⟨p, _ | fault⟩
  · simp only [added] at adopted
    cases adopted
    obtain ⟨named, i, stands, element⟩ := Project.placed_addElements added member isTarget inside
    refine ⟨named, i, ?_, element⟩
    rw [World.project_of_modify_present rfl present, if_pos rfl]
    exact stands
  · simp only [added] at adopted
    cases adopted

/-- All that stands in the targets of a build description has objects when it is loaded. -/
theorem fills_load [FileSystem φ] {caller : Caller φ}
    (calls : Mark.origin.CallsTake World.Step caller) (present : project < w.projects.length)
    (accepted : (load caller project e).run w = (.ok (), loaded)) (member : t ∈ e.children)
    (isTarget : Text.lower t.tag = "target") (inside : t.children[index]? = some child) :
    w.Steps loaded ∧ loaded.Places project ((t.get? "name").getD "") index child ∧
      loaded.Fills project ((t.get? "name").getD "") index := by
  unfold load at accepted
  obtain ⟨_, declared, adopts, accepted⟩ := ok_of_bind accepted
  rw [run_bind_ok (run_positions project "" declared)] at accepted
  obtain ⟨broken, performed, performs, accepted⟩ := ok_of_bind accepted
  cases broken with
  | some => cases accepted
  | none =>
    obtain ⟨named, stands⟩ := places_adopt present adopts member isTarget inside
    have begins : w.Steps declared :=
      (Mark.confined_adopt (Nat.zero_le project) e).onward (Mark.sealed_origin w) .refl adopts
    have goesOn : declared.Steps performed :=
      (Mark.confined_performIn (Mark.performsConfined_performInvocation calls)
        (Mark.listensConfined_silent Mark.origin) (Nat.zero_le project) "" _).onward
          (Mark.sealed_origin declared) .refl performs
    -- The objects of the targets are made last, after all outside of them was performed.
    obtain ⟨ends, filled⟩ := leads_instantiateTargets (World.Steps.placed goesOn stands) named
    rw [accepted] at ends filled
    have rest := goesOn.trans ends
    exact ⟨begins.trans rest, World.Steps.placed rest stands, filled () rfl⟩

end Load

/-- What is performed at a position where an object stands complains about the declarations of the
kinds of elements that stand in its element. -/
theorem blames_performInvocation [FileSystem φ] {caller : Caller φ} {id : ObjectId}
    {child : Element} (calls : ∀ id, Ends Fault.endsTask (caller id)) (complete : w.IsComplete)
    (present : id < w.objects.length)
    (object : (w.invocationAt project target index).object = some id)
    (element : (w.invocationAt project target index).element = some child) :
    Blames w (performInvocation caller project target index)
      (w.kinds.Faulty (w.kindOf id) child) := by
  have instantiates : (instantiateInvocation project target index).run w = (.ok (some id), w) := by
    rw [instantiateInvocation, invocation, run_bind_ok (run_observe _ w), object]
    rfl
  unfold performInvocation
  refine .bind ?_ fun made after ran => ?_
  · unfold prepareInvocation
    refine .after instantiates (.after (run_observe _ w) ?_)
    extract_lets finish
    have finishes (after : World φ) :
        Blames after (finish ()) (w.kinds.Faulty (w.kindOf id) child) :=
      .bind (.of_ends (.observe _)) fun _ _ _ => .pure _
    rw [element]
    simp only
    split
    · refine .bind (blames_configure complete.known complete.closed present child) fun _ mid _ => ?_
      exact .bind (.of_ends (ends_changeProject project _)) fun _ _ _ => finishes _
    · exact finishes w
  · split
    · exact .pure _
    · rename_i task
      have performs : Ends Fault.endsTask (some <$> performTask caller task) :=
        (ends_performTask calls task).map some fun _ _ => trivial
      exact .of_ends performs

end Engine

/-- A world to which a build may go on, whatever is loaded and run. -/
inductive World.Proceeds [FileSystem φ] (w : World φ) : World φ → Prop
  | refl : w.Proceeds w
  /-- Neither the files nor what is registered, logged or told about is part of what is loaded. -/
  | aside {mid after : World φ} (before : w.Proceeds mid) (kinds : after.kinds = mid.kinds)
      (projects : after.projects = mid.projects) (objects : after.objects = mid.objects) :
      w.Proceeds after
  | load {mid : World φ} (before : w.Proceeds mid) (e : Element)
      (properties : List (String × String)) (directory : Path) (buildFile : Option Path) :
      w.Proceeds ((loadProject e properties directory buildFile).run mid).2
  | derive {mid : World φ} (before : w.Proceeds mid) (depth : Nat) (parent : ProjectId)
      (i : Inheritance) : w.Proceeds ((derive (callWithin depth) parent i).run mid).2
  | prepare {mid : World φ} (before : w.Proceeds mid) (project : ProjectId) (target : String)
      (index : Nat) : w.Proceeds ((prepareInvocation project target index).run mid).2
  | perform {mid : World φ} (before : w.Proceeds mid) (depth : Nat) (project : ProjectId)
      (target : String) (index : Nat) :
      w.Proceeds ((performInvocation (callWithin depth) project target index).run mid).2
  | build {mid : World φ} (before : w.Proceeds mid) (project : ProjectId) (goals : List String) :
      w.Proceeds ((build project goals).run mid).2

namespace Engine

variable [FileSystem φ] {w loaded later : World φ} {project : ProjectId} {e : Element}

theorem steps_callWithin (depth : Nat) :
    Mark.origin.CallsTake World.Step (callWithin (φ := φ) depth) :=
  fun _ id _ => Mark.confined_callWithin depth id

theorem steps_loadProject (e : Element) (properties : List (String × String)) (directory : Path)
    (buildFile : Option Path) :
    Leads World.Step w (loadProject e properties directory buildFile) := by
  unfold loadProject
  refine .look (.observe _) fun here _ => ?_
  have adds (p : Project) (empty : ∀ o, ¬ p.Holds o) : Leads World.Step w (addProject p) := by
    rw [Leads, run_addProject]
    exact ⟨.single (.ofNewProject empty rfl rfl rfl), fun _ _ => trivial⟩
  refine .bind (adds _ (Project.not_holds_new rfl rfl)) fun after project _ _ => ?_
  have loads := Mark.confined_load (steps_callWithin callDepth) (Nat.zero_le project) e
    (Mark.sealed_origin after)
  exact .bind (loads.adapting _) fun _ _ _ _ => .pure trivial

theorem steps_of_proceeds (proceeds : w.Proceeds later) : w.Steps later := by
  induction proceeds with
  | refl => exact .refl
  | aside _ kinds projects objects ih =>
    exact ih.tail (.ofSame (.aside projects objects) (.inl kinds) projects)
  | load _ e properties directory buildFile ih =>
    exact ih.trans (steps_loadProject e properties directory buildFile).1
  | derive _ depth parent i ih =>
    exact ih.trans (Mark.confined_derive (steps_callWithin depth) parent i (Mark.sealed_origin _)).1
  | prepare _ project target index ih =>
    exact ih.trans (Mark.confined_prepareInvocation (Nat.zero_le project) target index
      (Mark.sealed_origin _)).1
  | perform _ depth project target index ih =>
    exact ih.trans (Mark.performsConfined_performInvocation (steps_callWithin depth) _ project
      target index (Nat.zero_le _) (Mark.sealed_origin _)).1
  | build _ project goals ih =>
    exact ih.trans (Mark.confined_build (Nat.zero_le project) goals (Mark.sealed_origin _)).1

/-- Loading a build description into a new project checks the kinds of all elements that stand in
its targets: their declarations agree with each other, and go on to do so whatever is loaded and run
later. A complaint about declarations that comes up when such an element is performed is about the
kind of an element nested in it. -/
theorem load_checks_declarations {depth : Nat} (known : w.kinds.HasStandard)
    (closed : w.kinds.isClosed = true) (present : project < w.projects.length)
    (empty : ∀ id, ¬ (w.project project).Holds id)
    (accepted : (load (callWithin depth) project e).run w = (.ok (), loaded)) {t child : Element}
    (member : t ∈ e.children) (isTarget : Text.lower t.tag = "target") {index : Nat}
    (inside : t.children[index]? = some child) (proceeds : loaded.Proceeds later) :
    let target := (t.get? "name").getD ""
    ∃ id s, (later.invocationAt project target index).element = some child ∧
      (later.invocationAt project target index).object = some id ∧
      Signature.ofKind later.kinds (later.kindOf id) = .ok s ∧
      ∀ depth problem place, problem.isDeclaration = true →
        ((performInvocation (callWithin depth) project target index).run later).1 =
          .error (.configuration problem place) →
        ∃ c ∈ child.children, ∃ kind, later.kinds.Nests (later.kindOf id) c.tag kind ∧
          later.kinds.Faulty kind c problem place := by
  intro target
  have before : w.ChecksHeld project := ⟨⟨known, closed⟩, fun id holds => absurd holds (empty id)⟩
  obtain ⟨loads, stands, fills⟩ :=
    fills_load (steps_callWithin depth) present accepted member isTarget inside
  have goesOn := steps_of_proceeds proceeds
  have checks := World.Steps.checksHeld (loads.trans goesOn) before
  have element := (World.Steps.placed goesOn stands).invocationAt
  obtain ⟨id, object⟩ := (World.Steps.fills goesOn fills).invocationAt
  have checked := checks.held id (World.holds_of_invocationAt object)
  obtain ⟨s, signed⟩ := checked.signed
  refine ⟨id, s, element, object, signed, fun depth problem place declares ended => ?_⟩
  obtain ⟨inner, n, stands, wrong, said⟩ := blames_performInvocation (ends_callWithin depth)
    checks.toIsComplete checked.present object element problem place declares ended
  -- The element is of a kind that was checked, so the kind at fault is one further down.
  cases stands with
  | self =>
    rw [signed] at wrong
    cases wrong
  | nested among nests stands => exact ⟨_, among, _, nests, inner, n, stands, wrong, said⟩

namespace Sample

/-- Tasks whose objects are given tools. -/
def workshop : Kind where
  id := .declared 0
  declaration := {
    name := "Workshop", home := "sample", bases := [Standard.task]
    members := [
      ("add_tool", .nested { parameters := [("tool", .known (.type (.kind (.declared 1))))] }),
      ("execute", .plain)]
    script := some [] }
  order := .declared 0 :: (Kinds.standard.get Standard.task).order
  attributes := .empty

/-- A kind with two handlers of text, which is one too many. -/
def tool : Kind where
  id := .declared 1
  declaration := {
    name := "Tool", home := "sample", bases := [Standard.object]
    members := [("add_note", .text {}), ("add_text", .text {})] }
  order := [.declared 1, Standard.object]
  attributes := .empty

/-- A world with a project that nothing was loaded into. -/
def workshops : World MemoryFiles where
  files := {}
  kinds := ⟨Kinds.standard.all ++ [workshop, tool]⟩
  registry := { tasks := Table.empty.put "workshop" (.declared 0) }
  projects := [{ directory := .top }]

def hammer : Element := { tag := "tool", text := "a hammer" }

def smithy : Element := { tag := "workshop", children := [hammer] }

def forging : Element where
  tag := "project"
  children := [{ tag := "target", attributes := [("name", "all")], children := [smithy] }]

end Sample

theorem load_checks_declarations_smithy :
    let loaded := ((load (callWithin 0) 0 Sample.forging).run Sample.workshops).2
    let later := ((build 0 ["all"]).run loaded).2
    ∃ id s, (later.invocationAt 0 "all" 0).element = some Sample.smithy ∧
      (later.invocationAt 0 "all" 0).object = some id ∧
      Signature.ofKind later.kinds (later.kindOf id) = .ok s ∧
      ∀ depth problem place, problem.isDeclaration = true →
        ((performInvocation (callWithin depth) 0 "all" 0).run later).1 =
          .error (.configuration problem place) →
        ∃ c ∈ [Sample.hammer], ∃ kind, later.kinds.Nests (later.kindOf id) c.tag kind ∧
          later.kinds.Faulty kind c problem place := by
  have known : Sample.workshops.kinds.HasStandard :=
    Kinds.HasStandard.standard.append [Sample.workshop, Sample.tool]
  have ended : ((load (callWithin 0) 0 Sample.forging).run Sample.workshops).1.toOption =
      some () := by decide +kernel
  exact load_checks_declarations known (by decide +kernel)
    Nat.zero_lt_one (Project.not_holds_new rfl rfl) (run_of_toOption ended) List.mem_cons_self
    (by decide +kernel) rfl (.build .refl 0 ["all"])

/-- Loading goes well although the kind of a nested element has two handlers of text. That is found
when the task is performed in which the element stands. -/
theorem load_accepts_tool :
    let ran := (load (callWithin 0) 0 Sample.forging).run Sample.workshops
    let performed := (performInvocation (callWithin 0) 0 "all" 0).run ran.2
    ran.1.toOption.isSome = true ∧
      (match performed.1 with
        | .error (.configuration (.duplicateText kind first second) _) =>
          kind == "Tool" && first == "add_note" && second == "add_text"
        | _ => false) = true := by
  decide +kernel

end Engine
end BuildEngine
