import BuildEngine.Binding.Configuration
import BuildEngine.Proofs.Confinement

/-! Binding is confined: an object that is configured changes, and those that are made for it. -/

namespace BuildEngine

open Engine

variable {φ : Type}

namespace Engine

theorem looks_attributeOf (id : ObjectId) (name : String) :
    Looks (attributeOf (φ := φ) id name) := .observe _

theorem looks_signatureOf (id : ObjectId) : Looks (signatureOf (φ := φ) id) := .consult _

theorem looks_methodOf (id : ObjectId) (method : String) :
    Looks (methodOf (φ := φ) id method) := .observe _

theorem looks_initialFields (k : Kind) (attributes : List (String × Attribute))
    (fields : Table String Source) : Looks (initialFields (φ := φ) k attributes fields) := by
  induction attributes generalizing fields with
  | nil => exact .pure _
  | cons entry rest ih =>
    unfold initialFields
    split
    · exact ih _
    · exact .bind (.consult _) fun taken => ih _

/-- A signature that is asked for is that of the kind. -/
theorem ofKind_of_consult {w : World φ} {k : Kind} {s : Signature}
    (seen : ((consult fun w => (Signature.ofKind w.kinds k).mapError Problem.fault).run w).1 =
      .ok s) : Signature.ofKind w.kinds k = .ok s := by
  rw [consult, run_bind_ok (run_get w)] at seen
  cases signed : Signature.ofKind w.kinds k with
  | error => rw [signed] at seen; cases seen
  | ok other =>
    rw [signed] at seen
    cases seen
    rfl

end Engine

namespace Mark

variable {m : Mark} {w : World φ} {id owner child : ObjectId} {project : ProjectId}
variable {kind : World φ → World φ → Prop} [m.Admits kind]

theorem confined_setSource (owned : m.Owns w id) (name : String) (source : Source) :
    m.Takes kind w (setSource id name source) :=
  confined_changeObject owned (fun _ => rfl) fun _ => rfl

theorem confined_setField (owned : m.Owns w id) (name : String) (v : Value) :
    m.Takes kind w (setField id name v) := by
  refine .look (looks_attributeOf id name) fun a _ => ?_
  refine .look (.consult _) fun taken _ => ?_
  exact confined_setSource owned name _

/-- What is instantiated for a project after a point is made after it, and of the kind that is asked
for. -/
theorem made_instantiate (later : m.projects ≤ project) (k : Kind) :
    m.Takes kind w (instantiate k project) fun after id =>
      m.Owns after id ∧ after.MadeFor id project ∧ after.kinds = w.kinds ∧
        (after.object id).kind = k.id := by
  unfold instantiate
  refine .look .get fun _ seen => ?_
  cases seen
  extract_lets missing add check
  have adds : m.Takes kind w (add ()) fun after id => m.Owns after id ∧ after.MadeFor id project ∧
      after.kinds = w.kinds ∧ (after.object id).kind = k.id := by
    refine .look (looks_initialFields k _ _) fun fields _ => ?_
    exact (confined_addObject later).imp fun _ _ ⟨owned, made, kinds, object⟩ =>
      ⟨owned, made, kinds, congrArg Object.kind object⟩
  have checks : m.Takes kind w (check ()) fun after id => m.Owns after id ∧
      after.MadeFor id project ∧ after.kinds = w.kinds ∧ (after.object id).kind = k.id := by
    unfold check
    split
    · exact .look (.throw _) fun _ _ => adds
    · exact adds
  split
  · exact .look (.throw _) fun _ _ => checks
  · exact checks

theorem confined_instantiate (later : m.projects ≤ project) (k : Kind) :
    m.Takes kind w (instantiate k project) m.Owns :=
  (made_instantiate later k).imp fun _ _ => And.left

/-! Values from texts. -/

theorem confined_pathListOf (later : m.projects ≤ project) (text : String) :
    m.Takes kind w (pathListOf project text) := by
  refine .look (.observe _) fun k _ => ?_
  refine .bind (confined_instantiate later k) fun after list _ owned => ?_
  exact .bind (confined_setField owned "path" _) fun _ _ _ _ => .pure trivial

theorem confined_coerceTo (later : m.projects ≤ project) (text : String) (type : ValueType) :
    m.Takes kind w (coerceTo project text type) := by
  unfold coerceTo
  split
  case h_1 =>
    refine .look .get fun world _ => ?_
    split
    · split
      · exact .pure trivial
      · exact .pure trivial
    · exact .pure trivial
  case h_5 => split <;> exact .pure trivial
  case h_6 => split <;> exact .pure trivial
  case h_7 => exact .look (.observe _) fun p _ => .pure trivial
  case h_9 =>
    refine .look (.observe _) fun k _ => ?_
    split
    · exact .bind (confined_pathListOf later text) fun _ _ _ _ => .pure trivial
    · exact .pure trivial
  all_goals exact .pure trivial

theorem confined_coerceFirst (later : m.projects ≤ project) (text : String)
    (types : List ValueType) (complaints : List String) :
    m.Takes kind w (coerceFirst project text complaints types) := by
  induction types generalizing w complaints with
  | nil => exact .throw _
  | cons type rest ih =>
    unfold coerceFirst
    refine .bind (confined_coerceTo later text type) fun after result _ _ => ?_
    split
    · exact .pure trivial
    · exact ih _

theorem confined_coerce (later : m.projects ≤ project) (a : Attribute) (text : String) :
    m.Takes kind w (coerce project a text) :=
  confined_coerceFirst later text _ _

theorem confined_bindAttribute (later : m.projects ≤ project) (owned : m.Owns w id)
    (name text : String) (location : Location) :
    m.Takes kind w (bindAttribute project id name text location) := by
  unfold bindAttribute
  refine .look (.adapting _ (looks_signatureOf id)) fun signature _ => ?_
  refine .look (.observe _) fun owner _ => ?_
  split
  · split
    · exact confined_setSource owned _ _
    · exact .throw _
  · exact .throw _
  · exact .throw _
  · refine .adapting _ (.bind (confined_coerce later _ text) fun after v steps _ => ?_)
    exact confined_setField (steps.owns owned) _ v

theorem confined_bindAttributes (later : m.projects ≤ project) (owned : m.Owns w id)
    (location : Location) (attributes : List (String × String)) :
    m.Takes kind w (bindAttributes project id location attributes) := by
  induction attributes generalizing w with
  | nil => exact .pure trivial
  | cons entry rest ih =>
    obtain ⟨name, text⟩ := entry
    unfold bindAttributes
    split
    · refine .bind (confined_bindAttribute later owned name text location) fun _ _ steps _ => ?_
      exact ih (steps.owns owned)
    · exact ih owned

/-! Nested elements. -/

theorem confined_addPart (owned : m.Owns w owner) (part : ObjectId) :
    m.Takes kind w (addPart owner part) :=
  confined_changeObject owned (fun _ => rfl) fun _ => rfl

theorem confined_addChild (owned : m.Owns w owner) (method : String) (child : ObjectId) :
    m.Takes kind w (addChild owner method child) :=
  confined_changeObject owned (fun _ => rfl) fun _ => rfl

theorem confined_createMapper (owned : m.Owns w owner) :
    m.Takes kind w (createMapper owner) m.Owns := by
  unfold createMapper
  refine .look (.observe _) fun _ seen => ?_
  cases seen
  refine .look .get fun _ seen => ?_
  cases seen
  extract_lets make
  have makes : m.Takes kind w (make ()) m.Owns := by
    refine .bind (confined_instantiate owned.2 _) fun after child steps made => ?_
    refine .bind (confined_addPart (steps.owns owned) child) fun _ _ more _ => ?_
    exact .pure (more.owns made)
  split
  · exact .look (.throw _) fun _ _ => makes
  · exact makes

theorem confined_createBy (later : m.projects ≤ project) (owned : m.Owns w owner)
    (method : String) :
    m.Takes kind w (createBy project owner method) fun after made =>
      ∀ child, made = some child → m.Owns after child := by
  unfold createBy
  refine .look (looks_methodOf owner method) fun found _ => ?_
  split
  · split
    · exact .throw _
    · exact .pure nofun
    · split
      · refine .bind (confined_createMapper owned) fun _ mapper _ made => .pure ?_
        rintro _ ⟨⟩
        exact made
      · refine .look (.observe _) fun k _ => ?_
        refine .bind (confined_instantiate later k) fun _ child steps made => ?_
        refine .bind (confined_addChild (steps.owns owned) method child) fun _ _ more _ => .pure ?_
        rintro _ ⟨⟩
        exact more.owns made
  · exact .pure nofun

theorem confined_placeChild (owned : m.Owns w child) (owner : ObjectId) (name : String)
    (location : Location) : m.Takes kind w (placeChild owner child name location) := by
  unfold placeChild
  refine .look .get fun _ seen => ?_
  cases seen
  split
  · extract_lets place
    refine .bind (confined_changeObject owned (fun _ => rfl) fun _ => rfl) fun _ _ steps _ => ?_
    split
    · exact confined_changeObject (steps.owns owned) (fun _ => rfl) fun _ => rfl
    · exact .pure trivial
  · exact .pure trivial

/-- The object of a nested element is made for its owner. -/
theorem confined_makeChild (later : m.projects ≤ project) (owned : m.Owns w owner)
    (factory : ChildFactory) (described name : String) :
    m.Takes kind w (makeChild project owner factory described name) m.Owns := by
  unfold makeChild
  split
  · exact .look (.observe _) fun k _ => confined_instantiate later k
  · refine .bind (confined_createBy later owned factory.method) fun _ made _ owns => ?_
    split
    · exact .pure (owns _ rfl)
    · exact .throw _

theorem confined_takeChild (later : m.projects ≤ project) (owned : m.Owns w owner) (name : String)
    (location : Location) :
    m.Takes kind w (takeChild project owner name location) fun after handle =>
      m.Owns after handle.child ∧ handle.owner = owner := by
  unfold takeChild
  refine .look (.adapting _ (looks_signatureOf owner)) fun signature _ => ?_
  refine .look (.observe _) fun described _ => ?_
  split
  · exact .throw _
  · rename_i factory _
    refine .bind (.adapting _ (confined_makeChild later owned factory described name)) ?_
    intro after child _ made
    refine .bind (confined_placeChild made owner name location) fun _ _ steps _ => ?_
    exact .pure ⟨steps.owns made, rfl⟩

theorem confined_attach {h : ChildHandle} (owned : m.Owns w h.owner) :
    m.Takes kind w (attach h) := by
  unfold attach
  extract_lets take
  have takes : m.Takes kind w (take ()) := by
    unfold take
    split
    · refine .look (looks_methodOf _ _) fun found _ => ?_
      split
      · split
        · exact .throw _
        · exact confined_addPart owned _
        · exact confined_addChild owned _ _
      · exact .pure trivial
    · exact .pure trivial
  split
  · exact .look (.throw _) fun _ _ => takes
  · exact takes

theorem confined_bindText (owned : m.Owns w id) (text : String) (location : Location) :
    m.Takes kind w (bindText id text location) := by
  unfold bindText
  split
  · exact .pure trivial
  refine .look (.adapting _ (looks_signatureOf id)) fun signature _ => ?_
  split
  · exact .look (.observe _) fun owner _ => .throw _
  · refine .adapting _ (.look (looks_methodOf id _) fun found _ => ?_)
    split
    · split
      · exact .throw _
      · exact .look (.consult _) fun before _ => confined_setField owned _ _
      · exact confined_changeObject owned (fun _ => rfl) fun _ => rfl
    · exact .pure trivial

/-! Whole elements. -/

/-- The declarations of a kind are checked before an object is made of it, so they agree. -/
theorem confined_create (later : m.projects ≤ project) (e : Element) (target : Option String) :
    m.Takes kind w (create project e target) fun after id =>
      m.Owns after id ∧ after.MadeFor id project ∧ after.Describes id := by
  unfold create
  refine .look (.observe _) fun found _ => ?_
  split
  · exact .throw _
  · rename_i registered _
    refine .look (.observe _) fun k seen => ?_
    cases seen
    have makes : m.Takes kind w (do
        let _ ← consult fun w' =>
          (Signature.ofKind w'.kinds (w.kinds.get registered)).mapError Problem.fault
        instantiate (w.kinds.get registered) project) fun after id =>
          m.Owns after id ∧ after.MadeFor id project ∧ after.Describes id := by
      refine .look (.consult _) fun s described => ?_
      refine (made_instantiate later _).imp fun after id ⟨owned, made, kinds, kind⟩ => ?_
      refine ⟨owned, made, registered, s, by rw [kinds]; exact kind, ?_⟩
      rw [kinds]
      exact ofKind_of_consult described
    refine .bind (.adapting _ makes) ?_
    rintro after id _ ⟨owned, made, described⟩
    split
    · refine .bind (keeps_changeObject owned (fun _ => rfl) fun _ => rfl) fun _ _ steps same => ?_
      exact .pure ⟨steps.owns owned, steps.madeFor made, described.of_same same.1 (same.2 id)⟩
    · exact .pure ⟨owned, made, described⟩

theorem confined_registerId (later : m.projects ≤ project) (e : Element) (id : ObjectId) :
    m.Takes kind w (registerId project e id) := by
  unfold registerId
  split
  · exact .pure trivial
  · exact .look (.observe _) fun p _ => confined_register later _ id

theorem confined_bindReference (owned : m.Owns w id) (e : Element) (refid : String)
    (attributes : List (String × String)) :
    m.Takes kind w (bindReference project e id refid attributes) := by
  unfold bindReference
  refine .look (.observe _) fun o _ => ?_
  extract_lets place refer withoutElements
  have refers : m.Takes kind w (refer ()) := by
    refine .bind (confined_changeObject owned (fun _ => rfl) fun _ => rfl) fun _ _ _ _ => ?_
    exact .look (.consult _) fun _ _ => .pure trivial
  have alone : m.Takes kind w (withoutElements ()) := by
    unfold withoutElements
    split
    · exact .look (.throw _) fun _ _ => refers
    · exact refers
  split
  · exact .look (.throw _) fun _ _ => alone
  · exact alone

mutual

theorem confined_configure {w : World φ} {id : ObjectId} (later : m.projects ≤ project)
    (owned : m.Owns w id) : ∀ e : Element, m.Takes kind w (configure project id e)
  | ⟨tag, attributes, children, text, location⟩ => by
    unfold configure
    extract_lets e
    refine .bind (confined_registerId later e id) fun _ _ registered _ => ?_
    refine .look (.observe _) fun p _ => ?_
    extract_lets properties resolved
    refine .look (.observe _) fun isDataType _ => ?_
    split
    · exact confined_bindReference (registered.owns owned) e _ resolved
    · have owned := registered.owns owned
      refine .bind (confined_bindAttributes later owned location resolved) fun _ _ bound _ => ?_
      have owned := bound.owns owned
      refine .bind (confined_configureChildren later owned children) fun _ _ taken _ => ?_
      split
      · exact .look (.observe _) fun p _ => confined_bindText (taken.owns owned) _ location
      · exact .pure trivial

theorem confined_configureChildren {w : World φ} {id : ObjectId} (later : m.projects ≤ project)
    (owned : m.Owns w id) :
    ∀ children : List Element, m.Takes kind w (configureChildren project id children)
  | [] => by
    unfold configureChildren
    exact .pure trivial
  | e :: rest => by
    unfold configureChildren
    refine .bind (confined_takeChild later owned e.tag e.location) fun _ handle taken made => ?_
    obtain ⟨made, same⟩ := made
    refine .bind (confined_configure later made e) fun _ _ configured _ => ?_
    have owned := configured.owns (taken.owns owned)
    refine .bind (confined_attach (same ▸ owned)) fun _ _ attached _ => ?_
    exact confined_configureChildren later (attached.owns owned) rest

end

end Mark
end BuildEngine
