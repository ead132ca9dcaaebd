import BuildEngine.Binding.Configuration
import BuildEngine.Proofs.TaskAgreement

/-! Binding agrees: an element that is applied to objects that are paired makes objects that are
paired, with the same attributes and parts. -/

namespace BuildEngine

open Engine

variable {φ : Type} {s : Pairing} {w u : World φ}

/-! Which values attributes take. -/

namespace World.Like

variable {v v' : Value}

theorem accept? (like : World.Like s w u) (type : ValueType) (same : Value.Like s v v') :
    Option.Rel (Value.Like s) (type.accept? w v) (type.accept? u v') := by
  cases same with
  | @complete v complete =>
    have taken : type.accept? w v = type.accept? u v := by
      cases type <;> cases v <;> first | rfl | cases complete
    rw [taken]
    have kept {a : Value} (took : type.accept? u v = some a) : a.isComplete = true := by
      unfold ValueType.accept? at took
      split at took <;> grind [Value.isComplete]
    cases took : type.accept? u v with
    | none => exact .none
    | some a => exact .some (.complete (kept took))
  | @object i j paired =>
    cases type with
    | anything => exact .some (.object paired)
    | kind id =>
      change Option.Rel _ (if w.isA i id then some (Value.object i) else none)
        (if u.isA j id then some (Value.object j) else none)
      rw [like.isA paired]
      split
      · exact .some (.object paired)
      · exact .none
    | _ => exact .none
  | reference references =>
    cases type with
    | anything => exact .some (.reference references)
    | reference => exact .some (.reference references)
    | _ => exact .none

/-- Values like each other are taken as such, or rejected for the same reason. -/
theorem accept (like : World.Like s w u) (a : Attribute) (owner : String)
    (same : Value.Like s v v') :
    s.Results (Value.Like s) (a.accept w owner v) (a.accept u owner v') := by
  have first (types : List ValueType) : Option.Rel (Value.Like s)
      (types.findSome? fun type => type.accept? w v)
      (types.findSome? fun type => type.accept? u v') := by
    induction types with
    | nil => exact .none
    | cons type rest ih =>
      rw [List.findSome?_cons, List.findSome?_cons]
      rcases (like.accept? type same).both with ⟨left, right⟩ | ⟨x, y, left, right, taken⟩
      · rw [left, right]
        exact ih
      · rw [left, right]
        exact .some taken
  unfold Attribute.accept
  rcases (first a.accepted).both with ⟨left, right⟩ | ⟨x, y, left, right, taken⟩
  · rw [left, right, like.kinds, like.valueTypeName same]
    exact .fault rfl
  · rw [left, right]
    exact .ok taken

end World.Like

namespace Pairing

variable {i j owner owner' child child' : ObjectId} {p q : ProjectId}

section Attribute

variable (paired : s.Objects i j) (name : String)
include paired

theorem sees_attributeOf : s.Sees (φ := φ) (attributeOf i name) (attributeOf j name) Eq :=
  .observe fun like => by rw [like.kindOf paired]

theorem sees_methodOf : s.Sees (φ := φ) (methodOf i name) (methodOf j name) Eq :=
  .observe fun like => by rw [like.kinds, like.kindOf paired]

theorem agree_setSource {source source' : Source} (same : Source.Like s source source') :
    s.Agree (φ := φ) (setSource i name source) (setSource j name source') :=
  agree_changeObject paired fun _ _ like => { like with fields := like.fields.put name same }

theorem agree_setField {v v' : Value} (same : Value.Like s v v') :
    s.Agree (φ := φ) (setField i name v) (setField j name v') := by
  refine .lookSame (sees_attributeOf paired name) fun a => ?_
  refine .look (.consult fun like => ?_) fun taken taken' (same : Value.Like s taken taken') => ?_
  · rw [like.kindOf paired]
    exact like.accept a _ same
  · exact agree_setSource paired name (.value same)

end Attribute

/-! Making objects. -/

theorem sees_kind (id : KindId) :
    s.Sees (φ := φ) (observe fun w => w.kinds.get id) (observe fun w => w.kinds.get id)
      fun k k' => k = k' ∧ k.isComplete = true :=
  .observe fun like => ⟨by rw [like.kinds], Kinds.isComplete_get like.complete id⟩

theorem sees_initialFields (k : Kind) {attributes : List (String × Attribute)}
    (complete : attributes.all fun entry => entry.2.isComplete) {fields fields' : Table String Source}
    (same : Table.Like (Source.Like s) fields fields') :
    s.Sees (φ := φ) (initialFields k attributes fields) (initialFields k attributes fields')
      (Table.Like (Source.Like s)) := by
  induction attributes generalizing fields fields' with
  | nil => exact .pure same
  | cons entry rest ih =>
    obtain ⟨name, a⟩ := entry
    rw [List.all_cons, Bool.and_eq_true] at complete
    unfold initialFields
    split
    · exact ih complete.2 (same.put name .void)
    · rename_i v initial
      have value : v.isComplete = true := by
        have own := complete.1
        rw [Attribute.isComplete, initial, Bool.and_eq_true] at own
        exact own.1
      refine .bind (.consult fun like => like.accept a k.name (.complete value)) ?_
      exact fun taken taken' taken_like => ih complete.2 (same.put name (.value taken_like))

/-- Objects of a kind that are made at the same time are paired. -/
theorem agree_instantiate (projects : s.Projects p q) {k : Kind} (complete : k.isComplete = true) :
    s.Agree (φ := φ) (instantiate k p) (instantiate k q) fun t => t.Objects := by
  rw [Kind.isComplete, Bool.and_eq_true] at complete
  unfold instantiate
  refine .get fun w u like => ?_
  rw [like.kinds]
  extract_lets missing add check add' check'
  have adds : s.Agree (add ()) (add' ()) fun t => t.Objects := by
    refine .look (sees_initialFields k complete.1 .empty) fun fields fields' same => ?_
    exact agree_addObject {
      kind := rfl, project := projects, fields := same, elementName := rfl, location := rfl
      target := rfl, reference := .none, parts := .nil, children := .nil, texts := rfl }
  have checks : s.Agree (check ()) (check' ()) fun t => t.Objects := by
    unfold check check'
    split
    · exact .lookSame (.fault rfl) fun _ => adds
    · exact adds
  split
  · exact .lookSame (.fault rfl) fun _ => checks
  · exact checks

/-! Values from texts. -/

/-- What a type makes of a text: values like each other, or the same complaint. -/
inductive Coerced (s : Pairing) : Except String Value → Except String Value → Prop
  | ok {v v' : Value} (same : Value.Like s v v') : Coerced s (.ok v) (.ok v')
  | error (complaint : String) : Coerced s (.error complaint) (.error complaint)

theorem agree_pathListOf (projects : s.Projects p q) (text : String) :
    s.Agree (φ := φ) (pathListOf p text) (pathListOf q text) fun t => Value.Like t := by
  refine .look (sees_kind _) fun k k' same => ?_
  obtain ⟨rfl, complete⟩ := same
  refine .bind (agree_instantiate projects complete) fun t list list' within lists => ?_
  refine .bind (agree_setField lists "path" (.complete rfl)) fun t' _ _ within _ => ?_
  exact .pure (.object (lists.mono within))

/-- A member that a text names is complete if its enumeration is. -/
theorem coerced_enumeration {e : Enumeration} (complete : (ValueType.enumeration e).isComplete)
    (text : String) : Coerced s (e.read text) (e.read text) := by
  cases reads : e.read text with
  | ok v =>
    obtain ⟨_, member, rfl⟩ := Enumeration.exists_of_read reads
    exact .ok (.complete (List.all_eq_true.mp complete _ member))
  | error complaint => exact .error complaint

theorem agree_coerceTo (projects : s.Projects p q) (text : String) {type : ValueType}
    (complete : type.isComplete = true) :
    s.Agree (φ := φ) (coerceTo p text type) (coerceTo q text type) Coerced := by
  unfold coerceTo
  split
  case h_1 =>
    refine .get fun w u like => ?_
    rw [like.implicitBooleans]
    split
    · split
      · exact .pure (.ok (.complete rfl))
      · exact .pure (.ok (.complete rfl))
    · exact .pure (.ok (.complete rfl))
  case h_2 e => exact .pure (coerced_enumeration complete text)
  case h_3 => exact .pure (.ok (.complete rfl))
  case h_4 =>
    refine .pure ?_
    cases readFlag text with
    | ok => exact .ok (.complete rfl)
    | error => exact .error _
  case h_5 => split <;> exact .pure (by constructor <;> exact .complete rfl)
  case h_6 => split <;> exact .pure (by constructor <;> exact .complete rfl)
  case h_7 =>
    refine .look (sees_project projects) fun a a' same => .pure (.ok ?_)
    rw [Project.resolveFile, Project.resolvePath, Project.resolveFile, Project.resolvePath,
      same.directory]
    exact .complete rfl
  case h_8 => exact .pure (.ok (.reference ⟨projects, rfl, rfl⟩))
  case h_9 =>
    refine .look (sees_kind _) fun k k' same => ?_
    obtain ⟨rfl, complete⟩ := same
    split
    · exact .bind (agree_pathListOf projects text) fun _ _ _ _ same => .pure (.ok same)
    · exact .pure (.error _)
  all_goals exact .pure (.error _)

theorem agree_coerceFirst (projects : s.Projects p q) (text : String) {types : List ValueType}
    (complete : types.all ValueType.isComplete) (complaints : List String) :
    s.Agree (φ := φ) (coerceFirst p text complaints types) (coerceFirst q text complaints types)
      fun t => Value.Like t := by
  induction types generalizing s complaints with
  | nil => exact .fault rfl
  | cons type rest ih =>
    rw [List.all_cons, Bool.and_eq_true] at complete
    unfold coerceFirst
    refine .bind (agree_coerceTo projects text complete.1) fun t result result' within same => ?_
    cases same with
    | ok same => exact .pure same
    | error complaint => exact ih (projects.mono within) complete.2 _

theorem agree_coerce (projects : s.Projects p q) {a : Attribute} (complete : a.isComplete = true)
    (text : String) :
    s.Agree (φ := φ) (coerce p a text) (coerce q a text) fun t => Value.Like t := by
  rw [Attribute.isComplete, Bool.and_eq_true] at complete
  refine agree_coerceFirst projects text (List.all_eq_true.mpr fun type member => ?_) []
  exact List.all_eq_true.mp complete.2 type (List.mem_of_mem_filter member)

/-- The signatures of objects that are paired are the same, and complete. -/
theorem sees_signatureOf (paired : s.Objects i j) :
    s.Sees (φ := φ) (signatureOf i) (signatureOf j) fun a b => a = b ∧
      ∀ name x, a.attribute? name = some x → x.isComplete = true := by
  refine .consult fun {w u} like => ?_
  have kind := like.kindOf paired
  have complete : (u.kindOf j).isComplete = true := Kinds.isComplete_get (like.kinds ▸ like.complete) _
  rw [kind, like.kinds]
  cases signed : Signature.ofKind u.kinds (u.kindOf j) with
  | error problem => exact .fault rfl
  | ok signature =>
    exact .ok ⟨rfl, fun _ _ found => Signature.isComplete_of_ofKind complete signed found⟩

theorem agree_bindAttribute (projects : s.Projects p q) (paired : s.Objects i j)
    (name text : String) (location : Location) :
    s.Agree (φ := φ) (bindAttribute p i name text location)
      (bindAttribute q j name text location) := by
  unfold bindAttribute
  refine .look (.locating _ (sees_signatureOf paired)) fun signature signature' same => ?_
  obtain ⟨rfl, complete⟩ := same
  refine .lookSame (sees_describe paired) fun owner => ?_
  split
  · split
    · exact agree_setSource paired _ (.slot projects _)
    · exact .fault rfl
  · exact .fault rfl
  · exact .fault rfl
  · rename_i a _ found
    refine .adapting (.bind (agree_coerce projects (complete _ _ found) text) ?_) ?_
    · exact fun t v v' within same => agree_setField (paired.mono within) _ same
    · intro t fault fault' faults
      rw [faults.isValueFault, faults.message]
      split
      · exact .anonymous rfl
      · exact faults.placed location

theorem agree_bindAttributes (projects : s.Projects p q) (paired : s.Objects i j)
    (location : Location) (attributes : List (String × String)) :
    s.Agree (φ := φ) (bindAttributes p i location attributes)
      (bindAttributes q j location attributes) := by
  induction attributes generalizing s with
  | nil => exact .pure trivial
  | cons entry rest ih =>
    obtain ⟨name, text⟩ := entry
    unfold bindAttributes
    split
    · refine .bind (agree_bindAttribute projects paired name text location) ?_
      exact fun _ _ _ within _ => ih (projects.mono within) (paired.mono within)
    · exact ih projects paired

/-! Nested elements. -/

/-- Children that are taken in the same way, for owners that are paired. -/
structure Handles (s : Pairing) (h h' : ChildHandle) : Prop where
  child : s.Objects h.child h'.child
  owner : s.Objects h.owner h'.owner
  factory : h.factory = h'.factory
  attached : h.attached = h'.attached

theorem Handles.mono {t : Pairing} (within : s.Within t) {h h' : ChildHandle}
    (handles : Handles s h h') : Handles t h h' :=
  { handles with child := handles.child.mono within, owner := handles.owner.mono within }

theorem agree_addPart (owners : s.Objects owner owner') {part part' : ObjectId}
    (parts : s.Objects part part') :
    s.Agree (φ := φ) (addPart owner part) (addPart owner' part') :=
  agree_changeObject owners fun _ _ like =>
    { like with parts := List.rel_append like.parts (.cons parts .nil) }

theorem agree_addChild (owners : s.Objects owner owner') (method : String)
    (children : s.Objects child child') :
    s.Agree (φ := φ) (addChild owner method child) (addChild owner' method child') :=
  agree_changeObject owners fun _ _ like =>
    { like with children := List.rel_append like.children (.cons ⟨rfl, children⟩ .nil) }

theorem agree_createMapper (owners : s.Objects owner owner') :
    s.Agree (φ := φ) (createMapper owner) (createMapper owner') fun t => t.Objects := by
  unfold createMapper
  refine .look (sees_object owners) fun o o' same => ?_
  refine .get fun w u like => ?_
  have second : (o.parts.any fun part => w.isA part Standard.mapper) =
      o'.parts.any fun part => u.isA part Standard.mapper := by
    have parts := same.parts
    revert parts
    generalize o.parts = parts, o'.parts = parts'
    intro related
    induction related with
    | nil => rfl
    | cons both _ ih => rw [List.any_cons, List.any_cons, ih, like.isA both]
  rw [second, same.location, like.kinds]
  have complete := Kinds.isComplete_get (like.kinds ▸ like.complete) Standard.mapper
  extract_lets make make'
  have makes : s.Agree (make ()) (make' ()) fun t => t.Objects := by
    refine .bind (agree_instantiate same.project complete) fun t child child' within made => ?_
    refine .bind (agree_addPart (owners.mono within) made) fun t _ _ within _ => ?_
    exact .pure (made.mono within)
  split
  · exact .lookSame (.fault rfl) fun _ => makes
  · exact makes

theorem agree_createBy (projects : s.Projects p q) (owners : s.Objects owner owner')
    (method : String) :
    s.Agree (φ := φ) (createBy p owner method) (createBy q owner' method)
      fun t => Option.Rel t.Objects := by
  unfold createBy
  refine .lookSame (sees_methodOf owners method) fun found => ?_
  split
  · split
    · exact .fault rfl
    · exact .pure .none
    · split
      · exact .bind (agree_createMapper owners) fun _ _ _ _ made => .pure (.some made)
      · refine .look (sees_kind _) fun k k' same => ?_
        obtain ⟨rfl, complete⟩ := same
        refine .bind (agree_instantiate projects complete) fun t child child' within made => ?_
        refine .bind (agree_addChild (owners.mono within) method made) fun t _ _ within _ => ?_
        exact .pure (.some (made.mono within))
  · exact .pure .none

theorem agree_placeChild (owners : s.Objects owner owner') (children : s.Objects child child')
    (name : String) (location : Location) :
    s.Agree (φ := φ) (placeChild owner child name location)
      (placeChild owner' child' name location) := by
  unfold placeChild
  refine .get fun w u like => ?_
  rw [like.kindOf children, like.kindOf owners]
  split
  · extract_lets place target target'
    have targets : target = target' := (like.object owners).target
    refine .bind (agree_changeObject children fun _ _ like => ?_) fun _ _ _ within _ => ?_
    · exact { like with elementName := rfl, location := rfl }
    split
    · rw [targets]
      exact agree_changeObject (children.mono within) fun _ _ like => { like with target := rfl }
    · exact .pure trivial
  · exact .pure trivial

theorem agree_makeChild (projects : s.Projects p q) (owners : s.Objects owner owner')
    (factory : ChildFactory) (described name : String) :
    s.Agree (φ := φ) (makeChild p owner factory described name)
      (makeChild q owner' factory described name) fun t => t.Objects := by
  unfold makeChild
  split
  · refine .look (sees_kind _) fun k k' same => ?_
    obtain ⟨rfl, complete⟩ := same
    exact agree_instantiate projects complete
  · refine .bind (agree_createBy projects owners factory.method) ?_
    intro t made made' within same
    cases same with
    | none => exact .fault rfl
    | some made => exact .pure made

theorem agree_takeChild (projects : s.Projects p q) (owners : s.Objects owner owner')
    (name : String) (location : Location) :
    s.Agree (φ := φ) (takeChild p owner name location) (takeChild q owner' name location)
      Handles := by
  unfold takeChild
  refine .look (.locating _ (sees_signatureOf owners)) fun signature signature' same => ?_
  obtain ⟨rfl, -⟩ := same
  refine .lookSame (sees_describe owners) fun described => ?_
  split
  · exact .fault rfl
  · rename_i factory _
    have making := agree_makeChild (φ := φ) projects owners factory described name
    refine .bind (.locating _ making) fun t child child' within made => ?_
    have owners := owners.mono within
    refine .bind (agree_placeChild owners made name location) fun t _ _ within _ => ?_
    exact .pure ⟨made.mono within, owners.mono within, rfl, rfl⟩

theorem agree_attach {h h' : ChildHandle} (handles : Handles s h h') :
    s.Agree (φ := φ) (attach h) (attach h') := by
  unfold attach
  rw [handles.factory, handles.attached]
  extract_lets take take'
  have takes : s.Agree (take ()) (take' ()) := by
    unfold take take'
    split
    · refine .lookSame (sees_methodOf handles.owner _) fun found => ?_
      split
      · split
        · exact .fault rfl
        · exact agree_addPart handles.owner handles.child
        · exact agree_addChild handles.owner _ handles.child
      · exact .pure trivial
    · exact .pure trivial
  split
  · exact .lookSame (.fault rfl) fun _ => takes
  · exact takes

theorem agree_bindText (paired : s.Objects i j) (text : String) (location : Location) :
    s.Agree (φ := φ) (bindText i text location) (bindText j text location) := by
  unfold bindText
  split
  · exact .pure trivial
  refine .look (.locating _ (sees_signatureOf paired)) fun signature signature' same => ?_
  obtain ⟨rfl, -⟩ := same
  split
  · exact .lookSame (sees_describe paired) fun owner => .fault rfl
  · refine .locating _ (.lookSame (sees_methodOf paired _) fun found => ?_)
    split
    · split
      · exact .fault rfl
      · refine .lookSame (.consult fun like => like.readText paired _) fun before => ?_
        exact agree_setField paired _ (.complete rfl)
      · exact agree_changeObject paired fun _ _ like => { like with texts := by rw [like.texts] }
    · exact .pure trivial

/-! Whole elements. -/

theorem agree_create (projects : s.Projects p q) (e : Element) (target : Option String) :
    s.Agree (φ := φ) (create p e target) (create q e target) fun t => t.Objects := by
  unfold create
  refine .lookSame (.observe fun like => by rw [like.registry]) fun found => ?_
  split
  · exact .fault rfl
  · refine .look (sees_kind _) fun k k' same => ?_
    obtain ⟨rfl, complete⟩ := same
    have making : s.Agree (φ := φ) (do
        let _ ← consult fun w => (Signature.ofKind w.kinds k).mapError Problem.fault
        instantiate k p) (do
        let _ ← consult fun w => (Signature.ofKind w.kinds k).mapError Problem.fault
        instantiate k q) fun t => t.Objects := by
      refine .lookSame (.consult fun {w u} like => ?_) fun _ => agree_instantiate projects complete
      rw [like.kinds]
      cases Signature.ofKind u.kinds k with
      | error problem => exact .fault rfl
      | ok signature => exact .ok rfl
    refine .bind (.locating _ making) fun t id id' within made => ?_
    split
    · refine .bind (agree_changeObject made fun _ _ like => ?_) fun t _ _ within _ => ?_
      · exact { like with elementName := rfl, location := rfl, target := rfl }
      · exact .pure (made.mono within)
    · exact .pure made

theorem agree_registerId (projects : s.Projects p q) (e : Element) (paired : s.Objects i j) :
    s.Agree (φ := φ) (registerId p e i) (registerId q e j) := by
  unfold registerId
  split
  · exact .pure trivial
  · refine .look (sees_project projects) fun a a' same => ?_
    rw [same.properties]
    exact agree_register projects _ paired

theorem agree_bindReference (projects : s.Projects p q) (paired : s.Objects i j) (e : Element)
    (refid : String) (attributes : List (String × String)) :
    s.Agree (φ := φ) (bindReference p e i refid attributes)
      (bindReference q e j refid attributes) := by
  unfold bindReference
  refine .look (sees_object paired) fun o o' same => ?_
  rw [same.location]
  extract_lets place refer withoutElements refer' withoutElements'
  have refers : s.Agree (refer ()) (refer' ()) := by
    refine .bind (agree_changeObject paired fun _ _ like => ?_) fun t _ _ within _ => ?_
    · exact { like with reference := .some ⟨projects, rfl, rfl⟩ }
    · have paired := paired.mono within
      exact .look (.consult fun like => like.target paired) fun _ _ _ => .pure trivial
  have alone : s.Agree (withoutElements ()) (withoutElements' ()) := by
    unfold withoutElements withoutElements'
    split
    · exact .lookSame (.fault rfl) fun _ => refers
    · exact refers
  split
  · exact .lookSame (.fault rfl) fun _ => alone
  · exact alone

mutual

theorem agree_configure {s : Pairing} {i j : ObjectId} (projects : s.Projects p q)
    (paired : s.Objects i j) : ∀ e : Element, s.Agree (φ := φ) (configure p i e) (configure q j e)
  | ⟨tag, attributes, children, text, location⟩ => by
    unfold configure
    extract_lets e
    refine .bind (agree_registerId projects e paired) fun t _ _ within _ => ?_
    have projects := projects.mono within
    have paired := paired.mono within
    refine .look (sees_project projects) fun a a' same => ?_
    rw [same.properties]
    extract_lets properties resolved
    refine .lookSame (.observe fun like => by rw [like.kindOf paired]) fun isDataType => ?_
    split
    · exact agree_bindReference projects paired e _ resolved
    · refine .bind (agree_bindAttributes projects paired location resolved) fun t _ _ within _ => ?_
      have projects := projects.mono within
      have paired := paired.mono within
      refine .bind (agree_configureChildren projects paired children) fun t _ _ within _ => ?_
      have projects := projects.mono within
      have paired := paired.mono within
      split
      · refine .look (sees_project projects) fun a a' same => ?_
        rw [same.properties]
        exact agree_bindText paired _ location
      · exact .pure trivial

theorem agree_configureChildren {s : Pairing} {i j : ObjectId} (projects : s.Projects p q)
    (paired : s.Objects i j) : ∀ children : List Element,
      s.Agree (φ := φ) (configureChildren p i children) (configureChildren q j children)
  | [] => by
    unfold configureChildren
    exact .pure trivial
  | e :: rest => by
    unfold configureChildren
    refine .bind (agree_takeChild projects paired e.tag e.location) fun t h h' within handles => ?_
    have projects := projects.mono within
    have paired := paired.mono within
    refine .bind (agree_configure projects handles.child e) fun t _ _ within _ => ?_
    have projects := projects.mono within
    have paired := paired.mono within
    refine .bind (agree_attach (handles.mono within)) fun t _ _ within _ => ?_
    exact agree_configureChildren (projects.mono within) (paired.mono within) rest

end

end Pairing
end BuildEngine
