import BuildEngine.Proofs.Awaiting

/-! Elements that hand the value of a property on under another name: tasks that set a property, and
parameters of calls. What they are given is the value as it is. -/

namespace BuildEngine

open Engine

variable {φ : Type}

/-- An element whose value is a reference to a property, under the name that it hands it on. -/
def Element.handing (tag name property : String) (location : Location) : Element :=
  { tag, attributes := [("name", name), ("value", Template.referenceTo property)], location }

theorem Element.get?_id_handing (tag name property : String) (location : Location) :
    (handing tag name property location).get? "id" = none := by
  have first : Text.sameName "name" "id" = false := by decide
  have second : Text.sameName "value" "id" = false := by decide
  simp [get?, handing, first, second]

/-- An object was given a value and a name to hand it on. -/
structure World.Hands (w : World φ) (id : ObjectId) (name value : String) : Prop where
  name : (w.object id).fields.find? "name_" = some (.value (.text name))
  value : (w.object id).fields.find? "value" = some (.value (.text value))

/-- A task that sets a property neither to a location nor over what it is set to. -/
structure World.Sets (w : World φ) (id : ObjectId) : Prop where
  location : w.isSet id "location_" = false
  override : (w.object id).fields.find? "override" = some (.value (.flag false))

/-- A task is ready to set a property of a project to a value. -/
structure World.IsReady (w : World φ) (project : ProjectId) (id : ObjectId) (name value : String) :
    Prop where
  known : w.kinds.HasStandard
  object : w.IsOf .property project id
  hands : w.Hands id name value
  sets : w.Sets id

/-- Whether the objects of a standard kind can be given values to hand on. -/
def Kinds.canHand (s : Standard) : Bool :=
  standard.hasText (standard.get s) "name" "name_" &&
    standard.hasText (standard.get s) "value" "value"

/-- Tasks that set properties: they can be made and be given values to hand on, and at first they
neither take a location nor set what is set. -/
theorem Kinds.property_seen :
    (standard.performer? (standard.get (.standard .property))).map Kind.id =
      some (.standard .property) ∧
    (standard.get (.standard .property)).isA Standard.task = true ∧
    (standard.get (.standard .property)).start?.any (fun fields =>
      match fields.find? "location_", fields.find? "override" with
      | some .void, some (.value (.flag false)) => true
      | _, _ => false) = true ∧
    isMade .property = true ∧ canHand .property = true := by
  decide +kernel

namespace World

variable {w : World φ} {id : ObjectId} {name value : String}

/-- The world in which an object has a value and a name to hand it on, besides what it had. -/
def withHanded (w : World φ) (id : ObjectId) (name value : String) : World φ :=
  (w.withSource id "name_" (.value (.text name))).withSource id "value" (.value (.text value))

@[simp] theorem project_withHanded (project : ProjectId) :
    (w.withHanded id name value).project project = w.project project := rfl

@[simp] theorem kinds_withHanded : (w.withHanded id name value).kinds = w.kinds := rfl

@[simp] theorem length_withHanded :
    (w.withHanded id name value).objects.length = w.objects.length := by
  simp [withHanded]

section Present

variable (present : id < w.objects.length)
include present

theorem object_withHanded : (w.withHanded id name value).object id =
    { w.object id with
      fields := ((w.object id).fields.put "name_" (.value (.text name))).put "value"
        (.value (.text value)) } := by
  rw [withHanded, object_withSource (by simpa using present), object_withSource present]

theorem find?_withHanded (other : String) :
    ((w.withHanded id name value).object id).fields.find? other =
      if "value" = other then some (.value (.text value))
      else if "name_" = other then some (.value (.text name))
      else (w.object id).fields.find? other := by
  rw [withHanded, find?_withSource (by simpa using present), find?_withSource present]

theorem hands_withHanded : (w.withHanded id name value).Hands id name value := by
  constructor
  · rw [find?_withHanded present]
    rfl
  · rw [find?_withHanded present]
    rfl

end Present
end World

/-- The object of a task that sets a property sets it neither to a location nor over what it is set
to, unless it was made otherwise. -/
theorem World.Readies.sets {w ready : World φ} {project : ProjectId} {target : String} {index : Nat}
    {e : Element} {id : ObjectId}
    (readies : w.Readies .property project target index e id ready)
    (made : ∀ id, (w.invocationAt project target index).object = some id → w.Sets id) :
    ready.Sets id := by
  rcases readies.start with ⟨object, rfl⟩ | starts
  · exact made id object
  · have start := Kinds.property_seen.2.2.1
    rw [starts, Option.any_some] at start
    split at start
    · rename_i location override
      exact ⟨by rw [World.isSet, location], override⟩
    · cases start

namespace Engine

variable {w : World φ} {s : Standard} {project : ProjectId} {id : ObjectId}
variable {tag name property value target : String} {index : Nat} {location : Location}

/-- Configured from a reference to a property, an object is given the value of the property. -/
theorem run_configure_handing (known : w.kinds.HasStandard) (can : Kinds.canHand s = true)
    (kind : (w.object id).kind = .standard s) (present : id < w.objects.length)
    (named : Template.IsName name) (referred : Template.IsName property)
    (held : (w.project project).properties.get? property = some value)
    (plain : slotName? value = none) :
    (configure project id (.handing tag name property location)).run w =
      (.ok (), w.withHanded id name value) := by
  rw [Kinds.canHand, Bool.and_eq_true] at can
  have canName := known.hasText can.1
  have canTake := known.hasText can.2
  rw [← World.kindOf_of_standard known kind] at canName canTake
  obtain ⟨a, first, takesName⟩ := textAttribute_of_hasText canName
  obtain ⟨b, second, takesValue⟩ := textAttribute_of_hasText canTake
  have bindsName : (bindAttribute project id "name" name location).run w = _ :=
    run_bindAttribute location takesName (slotName?_name named)
  have still : TextAttribute (w.withSource id a.name (.value (.text name))) id "value" b :=
    takesValue.transfer rfl (World.kindOf_withSource present)
  have bindsValue : (bindAttribute project id "value" value location).run _ = _ :=
    run_bindAttribute location still plain
  rw [first] at bindsName bindsValue
  rw [second] at bindsValue
  have anonymous := Element.get?_id_handing tag name property location
  have unnamed : (registerId project (.handing tag name property location) id).run w =
      (.ok (), w) := by
    rw [registerId, anonymous]
    rfl
  unfold Element.handing at unnamed ⊢
  unfold configure
  extract_lets e
  rw [run_bind_ok unnamed, run_bind_ok (run_project project w)]
  extract_lets properties resolved
  have given : resolved = [("name", name), ("value", value)] := by
    simp only [resolved, properties, List.map_cons, List.map_nil]
    rw [Properties.resolve_name named, Properties.resolve_referenceTo referred held]
  rw [run_bind_ok (run_observe _ w), given]
  have standsAlone : ([("name", name), ("value", value)].find? fun entry =>
      (w.kindOf id).isDataType && isRefidName entry.1) = none := by
    have first : isRefidName "name" = false := by decide
    have second : isRefidName "value" = false := by decide
    simp [first, second]
  rw [standsAlone]
  have bound : (bindAttributes project id location [("name", name), ("value", value)]).run w =
      (.ok (), w.withHanded id name value) := by
    have first : isIdName "name" = false := by decide
    have second : isIdName "value" = false := by decide
    simp only [bindAttributes, first, second, Bool.not_false, if_true]
    rw [run_bind_ok bindsName, run_bind_ok bindsValue]
    rfl
  simp only
  rw [run_bind_ok bound]
  rfl

/-! Tasks that set a property. -/

/-- A project that has a property is there. -/
theorem present_of_get? (held : (w.project project).properties.get? property = some value) :
    project < w.projects.length := by
  by_contra absent
  have none : w.projects[project]? = none := List.getElem?_eq_none (Nat.le_of_not_lt absent)
  rw [World.project, none] at held
  cases held

theorem project_changed {after : World φ} {change : Project → Project}
    (present : project < w.projects.length)
    (changed : after.projects = w.projects.modify project change) :
    after.project project = change (w.project project) := by
  rw [World.project_of_modify_present changed present, if_pos rfl]

/-- A property that was not set is set to the value that is given. -/
theorem run_setProperty (present : project < w.projects.length)
    (unset : (w.project project).properties.contains name = false) (value : String) :
    ∃ after, (setProperty project name value).run w = (.ok true, after) ∧
      after.kinds = w.kinds ∧ (after.project project).properties.get? name = some value := by
  have absent : (w.project project).properties.table.find? name = none := by
    simpa [Properties.contains, Table.contains] using unset
  have admitted : (w.project project).properties.admits name false = true := by
    simp [Properties.admits, Properties.isUser, absent, unset]
  unfold setProperty
  rw [run_bind_ok (run_project project w), Properties.set_of_admits admitted]
  refine ⟨_, rfl, rfl, ?_⟩
  rw [project_changed present rfl]
  simp [Properties.get?, Table.find?_put]

theorem run_defineProperty (home : (w.object id).project = project)
    (present : project < w.projects.length) (hands : w.Hands id name value) (sets : w.Sets id)
    (unset : (w.project project).properties.contains name = false) :
    ∃ after, (defineProperty id).run w = (.ok (some ⟨.succeeded, none⟩), after) ∧
      after.kinds = w.kinds ∧ (after.project project).properties.get? name = some value := by
  subst home
  have named : (textOf id "name_").run w = (.ok name, w) :=
    run_consult_ok (World.readText_of_text hands.name)
  have given : (textOf id "value").run w = (.ok value, w) :=
    run_consult_ok (World.readText_of_text hands.value)
  have byValue : (isSet id "value").run w = (.ok true, w) := by
    rw [isSet, run_observe, World.isSet_of_text hands.value]
  have noLocation : (isSet id "location_").run w = (.ok false, w) := by
    rw [isSet, run_observe, sets.location]
  have kept : (flagOf id "override").run w = (.ok false, w) :=
    run_consult_ok (by rw [World.readFlag, World.read_of_value sets.override]; rfl)
  obtain ⟨stored, stores, kinds, holds⟩ := run_setProperty present unset value
  unfold defineProperty
  rw [run_bind_ok named, run_bind_ok byValue, run_bind_ok noLocation]
  simp only [beq_iff_eq, Bool.true_eq_false, if_false, if_true]
  rw [run_bind_ok given, run_bind_ok kept, run_bind_ok (run_object id w), run_bind_ok stores]
  exact ⟨_, rfl, kinds, holds⟩

/-- The task that sets a property to the value of another one succeeds. -/
theorem run_performTask_property [FileSystem φ] (caller : Caller φ)
    (ready : w.IsReady project id name value) (present : project < w.projects.length)
    (unset : (w.project project).properties.contains name = false) :
    ∃ completion after, (performTask caller id).run w = (.ok completion, after) ∧
      completion.type = .succeeded ∧ after.kinds = w.kinds ∧
      (after.project project).properties.get? name = some value := by
  obtain ⟨known, object, hands, sets⟩ := ready
  obtain ⟨after, defines, kinds, holds⟩ := run_defineProperty object.home present hands sets unset
  have performed : ∃ k, w.kinds.performer? (w.kindOf id) = some k ∧ k.id = .standard .property := by
    obtain ⟨k, found, same⟩ := Option.map_eq_some_iff.mp Kinds.property_seen.1
    refine ⟨k, ?_, same⟩
    rw [World.kindOf_of_standard known object.kind, known.performer?]
    exact found
  obtain ⟨k, performer, standard⟩ := performed
  have works : (work caller id).run w = (.ok (some ⟨.succeeded, none⟩), after) := by
    unfold work workBy
    rw [run_bind_ok (run_observe _ w), performer]
    simp only [standard]
    exact defines
  have attempted : (attempt (work caller id)).run w =
      (.ok (.ok (some ⟨.succeeded, none⟩)), after) := by
    rw [run_attempt, works]
  unfold performTask
  rw [run_bind_ok attempted]
  refine ⟨⟨⟨.succeeded, none⟩, ?_⟩, after, rfl, rfl, kinds, holds⟩
  rintro ⟨⟩

/-- The object of a task that sets a property is made ready when it is to be performed. -/
theorem run_prepareInvocation_property
    (awaits : w.Awaits .property project target index (.handing tag name property location))
    (made : ∀ id, (w.invocationAt project target index).object = some id → w.Sets id)
    (named : Template.IsName name) (referred : Template.IsName property)
    (held : (w.project project).properties.get? property = some value)
    (plain : slotName? value = none) :
    ∃ id final, (prepareInvocation project target index).run w = (.ok (some id), final) ∧
      final.kinds = w.kinds ∧ (final.project project).properties = (w.project project).properties ∧
      final.IsReady project id name value := by
  obtain ⟨id, ready, readies, instantiates⟩ := run_instantiateInvocation awaits Kinds.property_seen.2.2.2.1
  obtain ⟨present, kind, home⟩ := readies.object
  have known : ready.kinds.HasStandard := readies.kinds ▸ awaits.known
  have sets := readies.sets made
  have configures : (configure project id (.handing tag name property location)).run ready =
      (.ok (), ready.withHanded id name value) := run_configure_handing known
    Kinds.property_seen.2.2.2.2 kind present named referred (by rw [readies.properties, held]) plain
  obtain ⟨final, changes, -, properties, objects, kinds⟩ :=
    run_changeInvocation project target index (fun i => { i with configured := true })
      (ready.withHanded id name value)
  have stands : final.object id = (ready.withHanded id name value).object id :=
    World.object_of_same objects id
  have isReady : final.IsReady project id name value := by
    refine ⟨kinds ▸ known, ?_, ?_, ?_⟩
    · have keeps : (ready.withHanded id name value).object id = _ := World.object_withHanded present
      refine ⟨?_, ?_, ?_⟩
      · rwa [objects, World.length_withHanded]
      · rw [stands, keeps, kind]
      · rw [stands, keeps, home]
    · have hands : (ready.withHanded id name value).Hands id name value :=
        World.hands_withHanded present
      exact ⟨stands ▸ hands.name, stands ▸ hands.value⟩
    · have keeps (other : String) (first : "value" ≠ other) (second : "name_" ≠ other) :
          (final.object id).fields.find? other = (ready.object id).fields.find? other := by
        rw [stands, World.find?_withHanded present, if_neg first, if_neg second]
      constructor
      · rw [World.isSet, keeps _ (by decide) (by decide)]
        exact sets.location
      · rw [keeps _ (by decide) (by decide)]
        exact sets.override
  have isTask : final.isA id Standard.task = true := by
    rw [World.isA, World.kindOf_of_standard isReady.known isReady.object.kind]
    exact Kinds.property_seen.2.1
  refine ⟨id, final, ?_, kinds.trans readies.kinds, ?_, isReady⟩
  · unfold prepareInvocation
    rw [run_bind_ok instantiates]
    simp only
    rw [invocation, run_bind_ok (run_observe _ ready), readies.element, readies.waiting]
    simp only [Bool.not_false, if_true]
    rw [run_bind_ok configures, run_bind_ok changes, run_bind_ok (run_observe _ final), isTask]
    rfl
  · rw [properties, World.project_withHanded, readies.properties]

/-- A task that sets a property to the value of another one hands the value on as it is. -/
theorem run_performInvocation_property [FileSystem φ] (caller : Caller φ)
    (awaits : w.Awaits .property project target index (.handing tag name property location))
    (made : ∀ id, (w.invocationAt project target index).object = some id → w.Sets id)
    (named : Template.IsName name) (referred : Template.IsName property)
    (held : (w.project project).properties.get? property = some value)
    (plain : slotName? value = none)
    (unset : (w.project project).properties.contains name = false) :
    ∃ completion after,
      (performInvocation caller project target index).run w = (.ok (some completion), after) ∧
      completion.type = .succeeded ∧ after.kinds = w.kinds ∧
      (after.project project).properties.get? name = some value := by
  obtain ⟨id, final, prepares, known, same, ready⟩ :=
    run_prepareInvocation_property awaits made named referred held plain
  obtain ⟨completion, after, performs, succeeded, kinds, holds⟩ := run_performTask_property caller
    ready (present_of_get? (same ▸ held)) (same ▸ unset)
  refine ⟨completion, after, ?_, succeeded, kinds.trans known, holds⟩
  unfold performInvocation
  rw [run_bind_ok prepares]
  simp only
  rw [run_map, performs]
  rfl

end Engine
end BuildEngine
