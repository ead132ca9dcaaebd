import BuildEngine.Proofs.Expansion

/-! What binding leaves alone. Whatever is bound, no object loses its kind or a part, no project
loses a property, and attributes that are not set keep their values; what is made is new. An object
none of whose attributes is set is left alone but for what is nested in it. -/

namespace BuildEngine

open Engine Relation

variable {φ : Type} {kept : ObjectId → String → Prop}

/-- What binding makes of an object of which some attributes are to be kept. -/
structure Object.Binds (kept : String → Prop) (o after : Object) : Prop where
  kind : after.kind = o.kind
  parts : o.parts <+: after.parts
  children : o.children <+: after.children
  fields : ∀ name, kept name → after.fields.find? name = o.fields.find? name
  rest : (∀ name, kept name) → after = { o with parts := after.parts, children := after.children }

/-- What binding makes of a world in which some attributes of objects are to be kept. -/
structure World.Binds (kept : ObjectId → String → Prop) (w after : World φ) : Prop where
  kinds : after.kinds = w.kinds
  properties : ∀ project, (after.project project).properties = (w.project project).properties
  grows : w.objects.length ≤ after.objects.length
  object : ∀ id < w.objects.length, (w.object id).Binds (kept id) (after.object id)

/-- The attributes that are to be kept are attributes of objects that are there. -/
def World.Has (w : World φ) (kept : ObjectId → String → Prop) : Prop :=
  ∀ id name, kept id name → id < w.objects.length

/-- The attributes of no object. -/
def OfNone : ObjectId → String → Prop := fun _ _ => False

/-- The attributes of one object. -/
def OfOne (id : ObjectId) : ObjectId → String → Prop := fun other _ => other = id

/-- A single attribute. -/
def Single (id : ObjectId) (name : String) : ObjectId → String → Prop :=
  fun other field => other = id ∧ field = name

namespace Object.Binds

variable {names : String → Prop} {o mid after : Object}

theorem refl (o : Object) : o.Binds names o :=
  ⟨rfl, List.prefix_rfl, List.prefix_rfl, fun _ _ => rfl, fun _ => rfl⟩

/-- An object that is bound itself keeps its kind and what is nested in it, if nothing else. -/
theorem of_free (free : ∃ name, ¬ names name) (kind : after.kind = o.kind)
    (parts : after.parts = o.parts) (children : after.children = o.children)
    (fields : ∀ name, names name → after.fields.find? name = o.fields.find? name) :
    o.Binds names after where
  kind := kind
  parts := parts ▸ List.prefix_rfl
  children := children ▸ List.prefix_rfl
  fields := fields
  rest all := by
    obtain ⟨name, free⟩ := free
    exact absurd (all name) free

theorem trans (first : o.Binds names mid) (second : mid.Binds names after) :
    o.Binds names after where
  kind := second.kind.trans first.kind
  parts := first.parts.trans second.parts
  children := first.children.trans second.children
  fields name keeps := (second.fields name keeps).trans (first.fields name keeps)
  rest all := by
    rw [second.rest all, first.rest all]

end Object.Binds

namespace World

variable {w mid after : World φ} {id : ObjectId}

namespace Binds

theorem refl (w : World φ) : w.Binds kept w :=
  ⟨rfl, fun _ => rfl, Nat.le_refl _, fun _ _ => .refl _⟩

theorem present (binds : w.Binds kept after) (present : id < w.objects.length) :
    id < after.objects.length :=
  Nat.lt_of_lt_of_le present binds.grows

theorem trans (first : w.Binds kept mid) (second : mid.Binds kept after) : w.Binds kept after where
  kinds := second.kinds.trans first.kinds
  properties project := (second.properties project).trans (first.properties project)
  grows := Nat.le_trans first.grows second.grows
  object id there := (first.object id there).trans (second.object id (first.present there))

theorem of_steps (steps : ReflTransGen (Binds kept) w after) : w.Binds kept after := by
  induction steps with
  | refl => exact refl w
  | tail _ step ih => exact ih.trans step

theorem of_object {change : Object → Object} (kinds : after.kinds = w.kinds)
    (projects : after.projects = w.projects) (objects : after.objects = w.objects.modify id change)
    (binds : ∀ o : Object, o.Binds (kept id) (change o)) : w.Binds kept after := by
  refine ⟨kinds, fun project => by rw [project_of_same projects], by simp [objects], ?_⟩
  intro other _
  rcases object_of_modify objects other with same | ⟨rfl, same⟩
  · rw [same]
    exact .refl _
  · rw [same]
    exact binds _

theorem of_project {change : Project → Project} {project : ProjectId}
    (kinds : after.kinds = w.kinds) (projects : after.projects = w.projects.modify project change)
    (objects : after.objects = w.objects) (same : ∀ p, (change p).properties = p.properties) :
    w.Binds kept after := by
  refine ⟨kinds, ?_, Nat.le_of_eq (by rw [objects]), fun other _ => ?_⟩
  · intro other
    rcases project_of_modify projects other with stays | ⟨rfl, changes⟩
    · rw [stays]
    · rw [changes, same]
  · rw [object_of_same objects]
    exact .refl _

theorem has (binds : w.Binds kept after) (has : w.Has kept) : after.Has kept :=
  fun id name keeps => binds.present (has id name keeps)

theorem kindOf (binds : w.Binds kept after) (present : id < w.objects.length) :
    after.kindOf id = w.kindOf id := by
  rw [World.kindOf, binds.kinds, (binds.object id present).kind, World.kindOf]

end Binds

/-- An object that is made later has no attributes that are to be kept. -/
theorem Has.free (has : w.Has kept) (new : w.objects.length ≤ id) (name : String) :
    ¬ kept id name :=
  fun keeps => Nat.not_lt_of_ge new (has id name keeps)

theorem has_ofNone (w : World φ) : w.Has OfNone := fun _ _ => False.elim

theorem has_single (present : id < w.objects.length) (name : String) : w.Has (Single id name) := by
  rintro _ _ ⟨rfl, rfl⟩
  exact present

end World

namespace Kinds

/-- The kind of the objects that a method of a kind makes, if it makes any. Tasks that ask what is
up to date make their mappers themselves. -/
def madeBy? (ks : Kinds) (k : Kind) (method : String) : Option KindId :=
  match ks.member? k method with
  | some (holder, .nested e) =>
    e.creates.map fun id => if holder.id = .standard .upToDate then .standard .mapper else id
  | _ => none

/-- The kind of the objects that are taken in some way for nested elements. -/
def childKind? (ks : Kinds) (k : Kind) (f : ChildFactory) : Option KindId :=
  match f.origin, f.kind with
  | .adder, some id => some id
  | _, _ => ks.madeBy? k f.method

end Kinds

namespace Engine

variable {w : World φ} {id owner child : ObjectId} {project : ProjectId}

/-- An action binds, and keeps what is to be kept; what it results in is as wanted. -/
abbrev BindsBy {α : Type} (kept : ObjectId → String → Prop) (w : World φ) (action : Engine φ α)
    (wanted : World φ → α → Prop := fun _ _ => True) : Prop :=
  Leads (World.Binds kept) w action wanted

/-- What an action that binds leaves. -/
theorem BindsBy.of_run {α : Type} {kept : ObjectId → String → Prop} {w after : World φ}
    {action : Engine φ α} {wanted : World φ → α → Prop} {result : Except Fault α}
    (binds : BindsBy kept w action wanted) (ran : action.run w = (result, after)) :
    w.Binds kept after ∧ ∀ a, result = .ok a → wanted after a := by
  obtain ⟨steps, holds⟩ := binds
  rw [ran] at steps holds
  exact ⟨.of_steps steps, holds⟩

/-! Single changes. -/

theorem binds_changeObject {change : Object → Object}
    (binds : ∀ o : Object, o.Binds (kept id) (change o)) :
    BindsBy kept w (changeObject id change) :=
  .change (.of_object rfl rfl rfl binds)

/-- A new object stands behind all others. -/
theorem binds_addObject (o : Object) :
    BindsBy kept w (addObject o) fun after id =>
      id = w.objects.length ∧ id < after.objects.length ∧ (after.object id).kind = o.kind := by
  have added : ({ w with objects := w.objects ++ [o] } : World φ).objects = w.objects ++ [o] := rfl
  have stands := World.object_of_append added
  rw [BindsBy, Leads, run_addObject]
  constructor
  · refine .single ⟨rfl, fun _ => rfl, by simp, ?_⟩
    intro id present
    rw [stands, if_neg (Nat.ne_of_lt present)]
    exact .refl _
  · rintro _ ⟨⟩
    refine ⟨rfl, by simp, ?_⟩
    rw [stands, if_pos rfl]

theorem binds_log (level : LogLevel) (logger message : String) :
    BindsBy kept w (log level logger message) :=
  .change ⟨rfl, fun _ => rfl, Nat.le_refl _, fun _ _ => .refl _⟩

theorem binds_register (name : String) (object : ObjectId) :
    BindsBy kept w (register project name object) := by
  refine .look (.observe _) fun _ _ => ?_
  have named (mid : World φ) : BindsBy kept mid (changeProject project fun p =>
      { p with references := p.references.register name object }) :=
    .change (.of_project rfl rfl rfl fun _ => rfl)
  split
  · exact .bind (binds_log _ _ _) fun after _ _ _ => named after
  · exact named w

theorem binds_setSource {name : String} (free : ¬ kept id name) (source : Source) :
    BindsBy kept w (setSource id name source) := by
  refine binds_changeObject fun o => .of_free ⟨name, free⟩ rfl rfl rfl fun other keeps => ?_
  have different : name ≠ other := by
    rintro rfl
    exact free keeps
  rw [Table.find?_put, if_neg different]

theorem binds_setField {name : String} (free : ¬ kept id name) (v : Value) :
    BindsBy kept w (setField id name v) := by
  refine .look (looks_attributeOf id name) fun a _ => ?_
  refine .look (.consult _) fun taken _ => ?_
  exact binds_setSource free _

/-- The object of a kind is made last. -/
theorem binds_instantiate (k : Kind) (project : ProjectId) :
    BindsBy kept w (instantiate k project) fun after id =>
      id = w.objects.length ∧ id < after.objects.length ∧ (after.object id).kind = k.id := by
  unfold instantiate
  refine .look .get fun _ seen => ?_
  cases seen
  extract_lets missing add check
  have adds : BindsBy kept w (add ()) fun after id =>
      id = w.objects.length ∧ id < after.objects.length ∧ (after.object id).kind = k.id :=
    .look (looks_initialFields k _ _) fun fields _ => binds_addObject _
  have checks : BindsBy kept w (check ()) fun after id =>
      id = w.objects.length ∧ id < after.objects.length ∧ (after.object id).kind = k.id := by
    unfold check
    split
    · exact .look (.throw _) fun _ _ => adds
    · exact adds
  split
  · exact .look (.throw _) fun _ _ => checks
  · exact checks

/-! Values from texts. -/

theorem binds_pathListOf (has : w.Has kept) (text : String) :
    BindsBy kept w (pathListOf project text) := by
  refine .look (.observe _) fun k _ => ?_
  refine .bind (binds_instantiate k project) fun after list _ made => ?_
  have free := has.free (Nat.le_of_eq made.1.symm) "path"
  exact .bind (binds_setField free _) fun _ _ _ _ => .pure trivial

theorem binds_coerceTo (has : w.Has kept) (text : String) (type : ValueType) :
    BindsBy kept w (coerceTo project text type) := by
  unfold coerceTo
  split
  case h_1 =>
    refine .look .get fun world _ => ?_
    split
    · split
      · exact .pure trivial
      · exact .pure trivial
    · exact .pure trivial
  case h_5 => split <;> exact .pure trivial
  case h_6 => split <;> exact .pure trivial
  case h_7 => exact .look (.observe _) fun p _ => .pure trivial
  case h_9 =>
    refine .look (.observe _) fun k _ => ?_
    split
    · exact .bind (binds_pathListOf has text) fun _ _ _ _ => .pure trivial
    · exact .pure trivial
  all_goals exact .pure trivial

theorem binds_coerceFirst (has : w.Has kept) (text : String) (types : List ValueType)
    (complaints : List String) : BindsBy kept w (coerceFirst project text complaints types) := by
  induction types generalizing w complaints with
  | nil => exact .throw _
  | cons type rest ih =>
    unfold coerceFirst
    refine .bind (binds_coerceTo has text type) fun after result steps _ => ?_
    split
    · exact .pure trivial
    · exact ih ((World.Binds.of_steps steps).has has) _

/-- An object of a kind whose declarations agree has the signature of its kind. -/
theorem run_signatureOf {signature : Signature}
    (signed : Signature.ofKind w.kinds (w.kindOf id) = .ok signature) (location : Location) :
    (locating location (signatureOf id)).run w = (.ok signature, w) :=
  run_adapting_ok (run_consult_ok (by rw [signed]; rfl)) _

/-- What is wrong about the declarations of a kind is said at the place where an object of it is
used. -/
theorem run_signatureOf_error {problem : Problem}
    (wrong : Signature.ofKind w.kinds (w.kindOf id) = .error problem) (location : Location) :
    (locating location (signatureOf id)).run w = (.error (problem.faultAt location), w) := by
  have fails : (signatureOf id).run w = (.error problem.fault, w) := by
    rw [signatureOf, consult, run_bind_ok (run_get w), wrong]
    rfl
  rw [locating, adapting, run_tryCatch_error fails]
  rfl

theorem ofKind_of_signatureOf {location : Location} {signature : Signature}
    (signs : ((locating location (signatureOf id)).run w).1 = .ok signature) :
    Signature.ofKind w.kinds (w.kindOf id) = .ok signature := by
  cases signed : Signature.ofKind w.kinds (w.kindOf id) with
  | error problem =>
    rw [run_signatureOf_error signed] at signs
    cases signs
  | ok known =>
    rw [run_signatureOf signed] at signs
    cases signs
    rfl

/-- An attribute of an object, under a name that build descriptions give it, may be set. -/
def MaySet (kept : ObjectId → String → Prop) (w : World φ) (id : ObjectId) (name : String) : Prop :=
  ∀ signature a, Signature.ofKind w.kinds (w.kindOf id) = .ok signature →
    signature.attribute? name = some a → ¬ kept id a.name

theorem MaySet.transfer {after : World φ} {name : String} (may : MaySet kept w id name)
    (kinds : after.kinds = w.kinds) (kind : after.kindOf id = w.kindOf id) :
    MaySet kept after id name := by
  intro signature a signed
  rw [kinds, kind] at signed
  exact may signature a signed

theorem binds_bindAttribute {name : String} (has : w.Has kept) (may : MaySet kept w id name)
    (text : String) (location : Location) :
    BindsBy kept w (bindAttribute project id name text location) := by
  unfold bindAttribute
  refine .look (.adapting _ (looks_signatureOf id)) fun signature signs => ?_
  have signed := ofKind_of_signatureOf signs
  refine .look (.observe _) fun owner _ => ?_
  split
  · rename_i slot a _ found
    split
    · exact binds_setSource (may signature a signed found) _
    · exact .throw _
  · exact .throw _
  · exact .throw _
  · rename_i a _ found
    have free := may signature a signed found
    refine .adapting _ (.bind (binds_coerceFirst has _ _ _) fun after v steps _ => ?_)
    exact binds_setField free v

theorem binds_bindAttributes (has : w.Has kept) (present : id < w.objects.length)
    (location : Location) (attributes : List (String × String))
    (may : ∀ entry ∈ attributes, MaySet kept w id entry.1) :
    BindsBy kept w (bindAttributes project id location attributes) := by
  induction attributes generalizing w with
  | nil => exact .pure trivial
  | cons entry rest ih =>
    obtain ⟨name, text⟩ := entry
    have others := fun entry (member : entry ∈ rest) => may entry (List.mem_cons_of_mem _ member)
    unfold bindAttributes
    split
    · have first := may _ List.mem_cons_self
      refine .bind (binds_bindAttribute has first text location) fun after _ steps _ => ?_
      have binds := World.Binds.of_steps steps
      exact ih (binds.has has) (binds.present present) fun entry member =>
        (others entry member).transfer binds.kinds (binds.kindOf present)
    · exact ih has present others

/-! Nested elements. -/

theorem binds_addPart (owner part : ObjectId) : BindsBy kept w (addPart owner part) :=
  binds_changeObject fun _ =>
    ⟨rfl, List.prefix_append _ _, List.prefix_rfl, fun _ _ => rfl, fun _ => rfl⟩

theorem binds_addChild (owner : ObjectId) (method : String) (child : ObjectId) :
    BindsBy kept w (addChild owner method child) :=
  binds_changeObject fun _ =>
    ⟨rfl, List.prefix_rfl, List.prefix_append _ _, fun _ _ => rfl, fun _ => rfl⟩

/-- What is made for an owner is new. -/
abbrev IsNew (w after : World φ) (child : ObjectId) : Prop :=
  w.objects.length ≤ child ∧ child < after.objects.length

theorem binds_createMapper (owner : ObjectId) :
    BindsBy kept w (createMapper owner) fun after child => IsNew w after child ∧
      (after.object child).kind = (w.kinds.get Standard.mapper).id := by
  unfold createMapper
  refine .look (.observe _) fun _ _ => .look .get fun _ seen => ?_
  cases seen
  extract_lets make
  have makes : BindsBy kept w (make ()) fun after child => IsNew w after child ∧
      (after.object child).kind = (w.kinds.get Standard.mapper).id := by
    refine .bind (binds_instantiate _ _) fun after child _ ⟨last, present, kind⟩ => ?_
    refine .bind (binds_addPart owner child) fun _ _ steps _ => .pure ?_
    have added := World.Binds.of_steps steps
    exact ⟨⟨Nat.le_of_eq last.symm, added.present present⟩,
      (added.object child present).kind.trans kind⟩
  split
  · exact .look (.throw _) fun _ _ => makes
  · exact makes

/-- What a method of an owner makes is new, and of the kind that the method makes. -/
theorem binds_createBy (owner : ObjectId) (method : String) :
    BindsBy kept w (createBy project owner method) fun after made =>
      ∀ child, made = some child → IsNew w after child ∧
        ∃ id, w.kinds.madeBy? (w.kindOf owner) method = some id ∧
          (after.object child).kind = (w.kinds.get id).id := by
  unfold createBy
  refine .look (looks_methodOf owner method) fun found seen => ?_
  cases seen
  split
  · rename_i holder element found
    split
    · exact .throw _
    · exact .pure nofun
    · rename_i id _ creates
      have makes : w.kinds.madeBy? (w.kindOf owner) method =
          some (if holder.id = .standard .upToDate then .standard .mapper else id) := by
        simp only [Kinds.madeBy?, found, creates, Option.map_some]
      split
      · rename_i upToDate
        refine .bind (binds_createMapper owner) fun _ mapper _ made => .pure ?_
        rintro _ ⟨⟩
        rw [if_pos upToDate] at makes
        exact ⟨made.1, _, makes, made.2⟩
      · rename_i other
        rw [if_neg other] at makes
        refine .look (.observe _) fun k seen => ?_
        cases seen
        refine .bind (binds_instantiate _ project) fun _ child _ ⟨last, present, kind⟩ => ?_
        refine .bind (binds_addChild owner method child) fun _ _ steps _ => .pure ?_
        rintro _ ⟨⟩
        have added := World.Binds.of_steps steps
        exact ⟨⟨Nat.le_of_eq last.symm, added.present present⟩, _, makes,
          (added.object child present).kind.trans kind⟩
  · exact .pure nofun

theorem binds_placeChild (free : ∃ name, ¬ kept child name) (owner : ObjectId) (name : String)
    (location : Location) : BindsBy kept w (placeChild owner child name location) := by
  unfold placeChild
  refine .look .get fun _ _ => ?_
  split
  · have places : BindsBy kept w (changeObject child fun o =>
        { o with elementName := some (Text.lower name)
                 location := Location.unknown.orElse location }) :=
      binds_changeObject fun _ => .of_free free rfl rfl rfl fun _ _ => rfl
    refine .bind places fun after _ _ _ => ?_
    split
    · exact binds_changeObject fun _ => .of_free free rfl rfl rfl fun _ _ => rfl
    · exact .pure trivial
  · exact .pure trivial

/-- The object of a nested element is a new one, and of the kind of which children are taken so. -/
theorem binds_makeChild (factory : ChildFactory) (described name : String) :
    BindsBy kept w (makeChild project owner factory described name) fun after child =>
      IsNew w after child ∧ ∃ id, w.kinds.childKind? (w.kindOf owner) factory = some id ∧
        (after.object child).kind = (w.kinds.get id).id := by
  unfold makeChild
  split
  · rename_i kind adds given
    refine .look (.observe _) fun k seen => ?_
    cases seen
    have makes : BindsBy kept w (instantiate (w.kinds.get kind) project) _ := binds_instantiate _ _
    refine ⟨makes.1, fun child made => ?_⟩
    obtain ⟨last, present, same⟩ := makes.2 child made
    exact ⟨⟨Nat.le_of_eq last.symm, present⟩, kind, by simp [Kinds.childKind?, adds, given], same⟩
  · rename_i other
    have makes : w.kinds.childKind? (w.kindOf owner) factory =
        w.kinds.madeBy? (w.kindOf owner) factory.method := by
      unfold Kinds.childKind?
      split
      · exact (other _ ‹_› ‹_›).elim
      · rfl
    refine .bind (binds_createBy owner factory.method) fun _ made _ new => ?_
    split
    · rw [makes]
      exact .pure (new _ rfl)
    · exact .throw _

/-- How a nested element is taken: as the owner's signature says. -/
structure Takes (w : World φ) (owner : ObjectId) (name : String) (after : World φ)
    (h : ChildHandle) : Prop where
  new : IsNew w after h.child
  ofOwner : h.owner = owner
  unattached : h.attached = false
  declared : ∃ signature, Signature.ofKind w.kinds (w.kindOf owner) = .ok signature ∧
    signature.element? name = some h.factory
  made : ∃ id, w.kinds.childKind? (w.kindOf owner) h.factory = some id ∧
    (after.object h.child).kind = (w.kinds.get id).id

/-- If the owner is given the object, it is of the kind that the owner asks for. -/
theorem Takes.kind {name : String} {after : World φ} {h : ChildHandle}
    (takes : Takes w owner name after h) {id : KindId} (adds : h.factory.origin = .adder)
    (given : h.factory.kind = some id) : (after.object h.child).kind = (w.kinds.get id).id := by
  obtain ⟨other, same, kind⟩ := takes.made
  rw [Kinds.childKind?, adds, given] at same
  cases same
  exact kind

theorem binds_takeChild (has : w.Has kept) (name : String) (location : Location) :
    BindsBy kept w (takeChild project owner name location) (Takes w owner name) := by
  unfold takeChild
  refine .look (.adapting _ (looks_signatureOf owner)) fun signature signs => ?_
  refine .look (.observe _) fun described _ => ?_
  split
  · exact .throw _
  · rename_i factory found
    refine .bind (.adapting _ (binds_makeChild factory described name)) fun mid child _ made => ?_
    obtain ⟨⟨new, present⟩, id, ofKind, kind⟩ := made
    have free := has.free new name
    refine .bind (binds_placeChild ⟨name, free⟩ owner name location) fun after _ steps _ => .pure ?_
    have placed := World.Binds.of_steps steps
    refine ⟨⟨new, placed.present present⟩, rfl, rfl, ?_, id, ofKind, ?_⟩
    · exact ⟨signature, ofKind_of_signatureOf signs, found⟩
    · exact (placed.object child present).kind.trans kind

theorem binds_attach (h : ChildHandle) : BindsBy kept w (attach h) := by
  unfold attach
  extract_lets take
  have takes : BindsBy kept w (take ()) := by
    unfold take
    split
    · refine .look (looks_methodOf _ _) fun found _ => ?_
      split
      · split
        · exact .throw _
        · exact binds_addPart _ _
        · exact binds_addChild _ _ _
      · exact .pure trivial
    · exact .pure trivial
  split
  · exact .look (.throw _) fun _ _ => takes
  · exact takes

theorem binds_bindText (free : ¬ kept id "message") (text : String) (location : Location) :
    BindsBy kept w (bindText id text location) := by
  unfold bindText
  split
  · exact .pure trivial
  refine .look (.adapting _ (looks_signatureOf id)) fun signature _ => ?_
  split
  · exact .look (.observe _) fun owner _ => .throw _
  · refine .adapting _ (.look (looks_methodOf id _) fun found _ => ?_)
    split
    · split
      · exact .throw _
      · exact .look (.consult _) fun before _ => binds_setField free _
      · exact binds_changeObject fun _ => .of_free ⟨_, free⟩ rfl rfl rfl fun _ _ => rfl
    · exact .pure trivial

/-! Whole elements. -/

theorem binds_registerId (e : Element) (id : ObjectId) :
    BindsBy kept w (registerId project e id) := by
  unfold registerId
  split
  · exact .pure trivial
  · exact .look (.observe _) fun p _ => binds_register _ id

theorem binds_bindReference (free : ∃ name, ¬ kept id name) (e : Element) (refid : String)
    (attributes : List (String × String)) :
    BindsBy kept w (bindReference project e id refid attributes) := by
  unfold bindReference
  refine .look (.observe _) fun o _ => ?_
  extract_lets place refer withoutElements
  have refers : BindsBy kept w (refer ()) := by
    refine .bind (binds_changeObject fun _ => .of_free free rfl rfl rfl fun _ _ => rfl) ?_
    exact fun _ _ _ _ => .look (.consult _) fun _ _ => .pure trivial
  have alone : BindsBy kept w (withoutElements ()) := by
    unfold withoutElements
    split
    · exact .look (.throw _) fun _ _ => refers
    · exact refers
  split
  · exact .look (.throw _) fun _ _ => alone
  · exact alone

mutual

/-- An element is applied to an object of which nothing is to be kept. -/
theorem binds_configure {w : World φ} {id : ObjectId} (has : w.Has kept)
    (present : id < w.objects.length) (free : ∀ name, ¬ kept id name) :
    ∀ e : Element, BindsBy kept w (configure project id e)
  | ⟨tag, attributes, children, text, location⟩ => by
    unfold configure
    extract_lets e
    refine .bind (binds_registerId e id) fun _ _ steps _ => ?_
    have registered := World.Binds.of_steps steps
    refine .look (.observe _) fun p _ => ?_
    extract_lets properties resolved
    refine .look (.observe _) fun isDataType _ => ?_
    split
    · exact binds_bindReference ⟨_, free ""⟩ e _ resolved
    · have there := registered.present present
      have has := registered.has has
      refine .bind (binds_bindAttributes has there location resolved fun _ _ _ a _ _ => free a.name)
        fun _ _ steps _ => ?_
      have bound := World.Binds.of_steps steps
      refine .bind (binds_configureChildren (bound.has has) children) fun _ _ _ _ => ?_
      split
      · exact .look (.observe _) fun p _ => binds_bindText (free _) _ location
      · exact .pure trivial

/-- Nested elements set attributes of new objects only. -/
theorem binds_configureChildren {w : World φ} {owner : ObjectId} (has : w.Has kept) :
    ∀ children : List Element, BindsBy kept w (configureChildren project owner children)
  | [] => by
    unfold configureChildren
    exact .pure trivial
  | e :: rest => by
    unfold configureChildren
    refine .bind (binds_takeChild has e.tag e.location) fun _ handle steps takes => ?_
    have taken := World.Binds.of_steps steps
    refine .bind (binds_configure (taken.has has) takes.new.2 (has.free takes.new.1) e)
      fun _ _ steps _ => ?_
    have configured := World.Binds.of_steps steps
    refine .bind (binds_attach handle) fun _ _ steps _ => ?_
    have attached := World.Binds.of_steps steps
    exact binds_configureChildren ((taken.trans (configured.trans attached)).has has) rest

end

end Engine
end BuildEngine
