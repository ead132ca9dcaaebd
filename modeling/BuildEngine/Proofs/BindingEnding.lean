import BuildEngine.Binding.Configuration
import BuildEngine.Proofs.Ending

/-! Faults with which objects are made and configured. Whatever a build description says wrong is
refused as such; what else can go wrong is that a kind has no objects, that it does not take its own
values, or that a text is added to nothing. -/

namespace BuildEngine.Engine

variable {φ : Type}

theorem admissible_accept (a : Attribute) (w : World φ) (owner : String) (v : Value) :
    Admissible Fault.isRejected (a.accept w owner v) := by
  unfold Attribute.accept
  split
  · trivial
  · rfl

theorem admissible_ofKind (ks : Kinds) (k : Kind) :
    Admissible Fault.isConfiguration ((Signature.ofKind ks k).mapError Problem.fault) :=
  .mapError (fun _ => rfl) _

/-- A kind may not take its own values. -/
theorem ends_initialFields (k : Kind) (attributes : List (String × Attribute))
    (fields : Table String Source) :
    Ends Fault.isRejected (initialFields (φ := φ) k attributes fields) := by
  induction attributes generalizing fields with
  | nil => exact .pure trivial
  | cons entry rest ih =>
    unfold initialFields
    split
    · exact ih _
    · exact .bind (.consult fun w => admissible_accept _ w _ _) fun taken _ => ih _

theorem ends_instantiate (k : Kind) (project : ProjectId) :
    Ends Fault.isOfMaking (instantiate (φ := φ) k project) := by
  unfold instantiate
  refine .bind .get fun w _ => ?_
  extract_lets missing add check
  have adds : Ends Fault.isOfMaking (add ()) :=
    .bind ((ends_initialFields k _ _).imp Fault.isOfMaking_of_isRejected) fun fields _ =>
      .bind .get fun _ _ => .bind (.modify _) fun _ _ => .pure trivial
  have checks : Ends Fault.isOfMaking (check ()) := by
    unfold check
    split
    · exact .refuse rfl
    · exact adds
  split
  · exact .refuse rfl
  · exact checks

theorem ends_signatureOf (id : ObjectId) (l : Location) :
    Ends Fault.isConfiguration (locating (φ := φ) l (signatureOf id)) :=
  .locating (.consult fun _ => admissible_ofKind _ _) fun _ _ _ may => may

theorem ends_setField (id : ObjectId) (name : String) (v : Value) :
    Ends Fault.isOfMaking (setField (φ := φ) id name v) :=
  .bind (.observe _) fun a _ => .bind (.consult fun w =>
    (admissible_accept a w _ v).imp Fault.isOfMaking_of_isRejected) fun _ _ => ends_changeObject id _

/-! Values from texts. -/

theorem ends_pathListOf (project : ProjectId) (text : String) :
    Ends Fault.isOfMaking (pathListOf (φ := φ) project text) :=
  .bind (.observe _) fun k _ => .bind (ends_instantiate k project) fun list _ =>
    .bind (ends_setField list _ _) fun _ _ => .pure trivial

theorem ends_coerceTo (project : ProjectId) (text : String) (type : ValueType) :
    Ends Fault.isOfMaking (coerceTo (φ := φ) project text type) := by
  unfold coerceTo
  split
  case h_1 =>
    refine .bind .get fun w _ => ?_
    split
    · split
      · exact .pure trivial
      · exact .pure trivial
    · exact .pure trivial
  case h_5 => split <;> exact .pure trivial
  case h_6 => split <;> exact .pure trivial
  case h_7 => exact .bind (.observe _) fun p _ => .pure trivial
  case h_9 =>
    refine .bind (.observe _) fun k _ => ?_
    split
    · exact .bind (ends_pathListOf project text) fun _ _ => .pure trivial
    · exact .pure trivial
  all_goals exact .pure trivial

/-- A text that no type takes is a value at fault, like a value that an attribute does not take. -/
theorem ends_coerceFirst (project : ProjectId) (text : String) (types : List ValueType)
    (complaints : List String) :
    Ends (fun fault => fault.isOfMaking || fault.isValueFault)
      (coerceFirst (φ := φ) project text complaints types) := by
  induction types generalizing complaints with
  | nil => exact .throw rfl
  | cons type rest ih =>
    unfold coerceFirst
    refine .bind ((ends_coerceTo project text type).imp fun _ may => by rw [may, Bool.true_or])
      fun result _ => ?_
    split
    · exact .pure trivial
    · exact ih _

/-- Sets an attribute that a signature knows from a text. -/
def assignBy (project : ProjectId) (id : ObjectId) (name text : String) (location : Location)
    (signature : Signature) : Engine φ Unit := do
  let owner ← observe (·.describe id)
  match slotName? text, signature.attribute? name with
  | some slot, some a =>
    if a.listening then setSource id a.name (.slot project slot)
    else throw ((Problem.noSlotAttribute owner name).faultAt location)
  | some _, none => throw ((Problem.noSlotAttribute owner name).faultAt location)
  | none, none => throw ((Problem.noAttribute owner name).faultAt location)
  | none, some a =>
    let explain := fun (fault : Fault) =>
      if fault.isValueFault then
        (Problem.invalidValue owner text name fault.message).faultAt location
      else fault.placed location
    adapting explain do
      setField id a.name (← coerce project a text)

theorem bindAttribute_eq (project : ProjectId) (id : ObjectId) (name text : String)
    (location : Location) : bindAttribute (φ := φ) project id name text location =
      locating location (signatureOf id) >>= assignBy project id name text location := rfl

/-- Whatever is wrong about an attribute is reported as a fault of the build description. -/
theorem ends_assignBy (project : ProjectId) (id : ObjectId) (name text : String)
    (location : Location) (signature : Signature) :
    Ends Fault.refuses (assignBy (φ := φ) project id name text location signature) := by
  unfold assignBy
  refine .bind (.observe _) fun owner _ => ?_
  split
  · split
    · exact ends_changeObject id _
    · exact .throw rfl
  · exact .throw rfl
  · exact .throw rfl
  · next a _ _ =>
    refine .adapting (.bind (ends_coerceFirst project text _ []) fun v _ =>
      (ends_setField id a.name v).imp fun _ may => by rw [may, Bool.true_or]) fun fault may => ?_
    split
    · rfl
    · next noValue =>
      rw [Bool.eq_false_iff.mpr noValue, Bool.or_false] at may
      cases fault with
      | configuration => exact Fault.endsTask_of_isOfMaking _ may
      | _ => first | exact absurd rfl noValue | cases may

theorem ends_bindAttribute (project : ProjectId) (id : ObjectId) (name text : String)
    (location : Location) :
    Ends Fault.isConfiguration (bindAttribute (φ := φ) project id name text location) :=
  .bind (ends_signatureOf id location) fun signature _ =>
    (ends_assignBy project id name text location signature).imp Fault.isConfiguration_of_refuses

theorem ends_bindAttributes (project : ProjectId) (id : ObjectId) (location : Location)
    (attributes : List (String × String)) :
    Ends Fault.isConfiguration (bindAttributes (φ := φ) project id location attributes) := by
  induction attributes with
  | nil => exact .pure trivial
  | cons entry rest ih =>
    obtain ⟨name, text⟩ := entry
    unfold bindAttributes
    split
    · exact .bind (ends_bindAttribute project id name text location) fun _ _ => ih
    · exact ih

/-! Nested elements. -/

theorem ends_createMapper (owner : ObjectId) :
    Ends Fault.isOfMaking (createMapper (φ := φ) owner) := by
  unfold createMapper
  refine .bind (.observe _) fun o _ => ?_
  refine .bind .get fun w _ => ?_
  extract_lets make
  split
  · exact .refuse rfl
  · exact .bind (ends_instantiate _ _) fun child _ =>
      .bind (ends_changeObject owner _) fun _ _ => .pure trivial

theorem ends_createBy (project : ProjectId) (owner : ObjectId) (method : String) :
    Ends Fault.isOfMaking (createBy (φ := φ) project owner method) := by
  unfold createBy
  refine .bind (.observe _) fun found _ => ?_
  split
  · split
    · exact .throw rfl
    · exact .pure trivial
    · split
      · exact .bind (ends_createMapper owner) fun _ _ => .pure trivial
      · exact .bind (.observe _) fun k _ => .bind (ends_instantiate k project) fun child _ =>
          .bind (ends_changeObject owner _) fun _ _ => .pure trivial
  · exact .pure trivial

theorem ends_makeChild (project : ProjectId) (owner : ObjectId) (factory : ChildFactory)
    (described name : String) :
    Ends Fault.isOfMaking (makeChild (φ := φ) project owner factory described name) := by
  unfold makeChild
  split
  · exact .bind (.observe _) fun k _ => ends_instantiate k project
  · refine .bind (ends_createBy project owner factory.method) fun made _ => ?_
    split
    · exact .pure trivial
    · exact .throw rfl

theorem ends_placeChild {may : Fault → Bool} (owner child : ObjectId) (name : String)
    (location : Location) : Ends may (placeChild (φ := φ) owner child name location) := by
  unfold placeChild
  refine .bind .get fun w _ => ?_
  split
  · extract_lets place
    refine .bind (ends_changeObject child _) fun _ _ => ?_
    split
    · exact ends_changeObject child _
    · exact .pure trivial
  · exact .pure trivial

/-- Makes the object of a nested element that a signature knows. -/
def takeBy (project : ProjectId) (owner : ObjectId) (name : String) (location : Location)
    (signature : Signature) : Engine φ ChildHandle := do
  let described ← observe (·.describe owner)
  match signature.element? name with
  | none => throw ((Problem.noElement described name).faultAt location)
  | some factory =>
    let child ← locating location (makeChild project owner factory described name)
    placeChild owner child name location
    return { child, owner, factory }

theorem takeChild_eq (project : ProjectId) (owner : ObjectId) (name : String)
    (location : Location) : takeChild (φ := φ) project owner name location =
      locating location (signatureOf owner) >>= takeBy project owner name location := rfl

/-- A child that is taken was not attached. -/
theorem ends_takeBy (project : ProjectId) (owner : ObjectId) (name : String)
    (location : Location) (signature : Signature) :
    Ends (fun fault => fault.refuses || fault.isOfMaking)
      (takeBy (φ := φ) project owner name location signature)
      fun handle => handle.attached = false := by
  unfold takeBy
  refine .bind (.observe _) fun described _ => ?_
  split
  · exact .throw rfl
  · next factory _ =>
    refine .bind (((ends_makeChild project owner factory described name).locating
      fun _ _ _ may => may).imp fun _ may => by rw [may, Bool.or_true]) fun child _ => ?_
    exact .bind (ends_placeChild owner child name location) fun _ _ => .pure rfl

theorem ends_takeChild (project : ProjectId) (owner : ObjectId) (name : String)
    (location : Location) :
    Ends Fault.endsMaking (takeChild (φ := φ) project owner name location)
      fun handle => handle.attached = false :=
  .bind ((ends_signatureOf owner location).imp Fault.endsMaking_of_isConfiguration)
    fun signature _ => (ends_takeBy project owner name location signature).imp
      fun fault may => by cases fault <;> first | rfl | cases may

theorem ends_attach {h : ChildHandle} (loose : h.attached = false) :
    Ends Fault.isOfMaking (attach (φ := φ) h) := by
  unfold attach
  rw [loose]
  extract_lets take
  rw [if_neg Bool.false_ne_true]
  unfold take
  split
  · refine .bind (.observe _) fun found _ => ?_
    split
    · split
      · exact .throw rfl
      · exact ends_changeObject _ _
      · exact ends_changeObject _ _
    · exact .pure trivial
  · exact .pure trivial

/-- Passes nested text to an object whose signature is known. -/
def passTextBy (id : ObjectId) (text : String) (location : Location) (signature : Signature) :
    Engine φ Unit := do
  match signature.text with
  | none => throw ((Problem.noText (← observe (·.describe id))).faultAt location)
  | some method =>
    locating location do
      match ← methodOf id method with
      | some (k, .text handler) =>
        match handler.refusal, k.id with
        | some complaint, _ => throw (Problem.stated complaint).fault
        | none, .standard _ =>
          let before ← consult fun w => w.readText id "message"
          setField id "message" (.text (before ++ text))
        | none, .declared _ => changeObject id fun o => { o with texts := o.texts ++ [text] }
      | _ => return ()

theorem bindText_eq (id : ObjectId) (text : String) (location : Location) :
    bindText (φ := φ) id text location = if Text.allBlank text then pure () else
      locating location (signatureOf id) >>= passTextBy id text location := rfl

theorem ends_passTextBy (id : ObjectId) (text : String) (location : Location)
    (signature : Signature) :
    Ends Fault.endsTask (passTextBy (φ := φ) id text location signature) := by
  unfold passTextBy
  split
  · exact .bind (.observe _) fun owner _ => .throw rfl
  · refine .locating (.bind (.observe _) fun found _ => ?_) fun _ _ _ may => may
    split
    · split
      · exact .throw rfl
      · exact .bind (ends_textOf id _) fun before _ =>
          (ends_setField id _ _).imp Fault.endsTask_of_isOfMaking
      · exact ends_changeObject id _
    · exact .pure trivial

theorem ends_bindText (id : ObjectId) (text : String) (location : Location) :
    Ends Fault.endsWork (bindText (φ := φ) id text location) := by
  rw [bindText_eq]
  split
  · exact .pure trivial
  · exact .bind ((ends_signatureOf id location).imp Fault.endsWork_of_isConfiguration)
      fun signature _ => (ends_passTextBy id text location signature).imp
        Fault.endsWork_of_endsTask

/-! Whole elements. -/

theorem ends_create (project : ProjectId) (e : Element) (target : Option String) :
    Ends Fault.endsMaking (create (φ := φ) project e target) := by
  unfold create
  refine .bind (.observe _) fun found _ => ?_
  split
  · exact .throw rfl
  · refine .bind (.observe _) fun k _ => ?_
    refine .bind (.locating (.bind ((Ends.consult fun w => admissible_ofKind w.kinds k).imp
      Fault.endsMaking_of_isConfiguration) fun _ _ =>
        (ends_instantiate k project).imp Fault.endsMaking_of_isOfMaking)
      fun _ _ _ may => may) fun id _ => ?_
    split
    · exact .bind (ends_changeObject id _) fun _ _ => .pure trivial
    · exact .pure trivial

theorem ends_registerId {may : Fault → Bool} (project : ProjectId) (e : Element) (id : ObjectId) :
    Ends may (registerId (φ := φ) project e id) := by
  unfold registerId
  split
  · exact .pure trivial
  · exact .bind (.observe _) fun p _ => ends_register project _ id

theorem ends_bindReference (project : ProjectId) (e : Element) (id : ObjectId) (refid : String)
    (attributes : List (String × String)) :
    Ends Fault.refuses (bindReference (φ := φ) project e id refid attributes) := by
  unfold bindReference
  refine .bind (.observe _) fun o _ => ?_
  extract_lets place refer withoutElements
  split
  · exact .refuse rfl
  unfold withoutElements
  split
  · exact .refuse rfl
  · exact .bind (ends_changeObject id _) fun _ _ =>
      .bind (.consult fun w => w.admissible_target id) fun _ _ => .pure trivial

mutual

theorem ends_configure (project : ProjectId) (id : ObjectId) :
    ∀ e : Element, Ends Fault.endsWork (configure (φ := φ) project id e)
  | ⟨tag, attributes, children, text, location⟩ => by
    unfold configure
    extract_lets e
    refine .bind (ends_registerId project e id) fun _ _ => ?_
    refine .bind (.observe _) fun p _ => ?_
    extract_lets properties resolved
    refine .bind (.observe _) fun isDataType _ => ?_
    split
    · exact ((ends_bindReference project e id _ resolved).imp Fault.endsTask_of_refuses).imp
        Fault.endsWork_of_endsTask
    · refine .bind ((ends_bindAttributes project id location resolved).imp
        Fault.endsWork_of_isConfiguration) fun _ _ => ?_
      refine .bind (ends_configureChildren project id children) fun _ _ => ?_
      split
      · exact .bind (.observe _) fun p _ => ends_bindText id _ location
      · exact .pure trivial

theorem ends_configureChildren (project : ProjectId) (owner : ObjectId) :
    ∀ children : List Element,
      Ends Fault.endsWork (configureChildren (φ := φ) project owner children)
  | [] => by
    unfold configureChildren
    exact .pure trivial
  | e :: rest => by
    unfold configureChildren
    refine .bind ((ends_takeChild project owner e.tag e.location).imp
      Fault.endsWork_of_endsMaking) fun handle loose => ?_
    refine .bind (ends_configure project handle.child e) fun _ _ => ?_
    refine .bind (((ends_attach loose).imp Fault.endsTask_of_isOfMaking).imp
      Fault.endsWork_of_endsTask) fun _ _ => ?_
    exact ends_configureChildren project owner rest

end

end BuildEngine.Engine
