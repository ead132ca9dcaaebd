import BuildEngine.Proofs.Parameters

/-! Handing a value on. A value that a property has reaches other properties as it is, whatever
characters it consists of: by tasks that set a property to the value of another one, and by calls
that hand it down in a parameter, as often as that is done. Where it is used at last, it is still
the same. -/

namespace BuildEngine

open Engine Relation

variable {φ : Type}

/-- A property of a project at some time of a build. -/
structure Station (φ : Type) where
  world : World φ
  project : ProjectId
  name : String

/-- At a position of a target a call awaits its performance that hands the value of a property down
under another name, in a parameter that no other one has the name of. Made ready, it asks for a
project to be derived in which a target of it is to be run, and the project is. -/
inductive Calls [FileSystem φ] (w : World φ) (project : ProjectId) (target : String)
    (index depth : Nat) (name other : String) (child : ProjectId) (derived : World φ) : Prop
  | intro {ready : World φ} {e : Element} {location : Location} {id : ObjectId} {goal : String}
      {i : Inheritance} (awaits : w.Awaits .call project target index e)
      (forwards : .handing "param" other name location ∈ e.children)
      (prepared : (prepareInvocation project target index).run w = (.ok (some id), ready))
      (asks : ready.Asks id goal i) (once : NamesOnce ready id other)
      (derives : (derive (callWithin depth) (ready.object id).project i).run
        (ready.calling id goal) = (.ok child, derived))

namespace Engine

variable [FileSystem φ] {w : World φ} {id : ObjectId}

/-- What becomes of a task is said after its work; it changes nothing. -/
theorem after_performTask (caller : Caller φ) (id : ObjectId) (w : World φ) :
    ((performTask caller id).run w).2 = ((work caller id).run w).2 := by
  unfold performTask
  rw [run_bind_ok (run_attempt _ w)]
  generalize ((work caller id).run w).1 = result
  split
  · rfl
  · split
    · exact Looks.bind (.observe _) (fun _ => looks_failTask id _) _
    · rfl
  · refine Looks.bind (.observe _) (fun _ => ?_) _
    split
    · exact looks_reject id _
    · exact looks_reject id _
  · rfl

/-- A call is performed as its caller says. -/
theorem after_work_call (caller : Caller φ) (known : w.kinds.HasStandard)
    (kind : (w.object id).kind = .standard .call) :
    ((work caller id).run w).2 = ((caller id).run w).2 := by
  obtain ⟨k, found, same⟩ := Option.map_eq_some_iff.mp Kinds.performer?_call
  have performer : w.kinds.performer? (w.kindOf id) = some k := by
    rw [World.kindOf_of_standard known kind, known.performer?]
    exact found
  unfold work workBy
  rw [run_bind_ok (run_observe _ w), performer]
  simp only [same]
  rcases called : (caller id).run w with ⟨fault | _, after⟩
  · rw [run_bind_error called]
  · rw [run_bind_ok called]
    rfl

end Engine

/-- What is done of a call once its project is derived is the run of the target in it. -/
theorem Calls.after [FileSystem φ] {w derived : World φ} {project child : ProjectId}
    {target name other : String} {index depth : Nat}
    (calls : Calls w project target index depth name other child derived) :
    ∃ goal, ((performInvocation (callWithin (depth + 1)) project target index).run w).2 =
      ((execute (callWithin depth) silent child [goal]).run derived).2 := by
  obtain ⟨awaits, -, prepared, asks, -, derives⟩ := calls
  rename_i ready _ _ id goal i
  obtain ⟨kinds, kind⟩ := kind_of_prepareInvocation awaits Kinds.isMade_call prepared
  refine ⟨goal, ?_⟩
  unfold performInvocation
  rw [run_bind_ok prepared]
  simp only
  rw [run_map, after_performTask, after_work_call _ (kinds ▸ awaits.known) kind, callWithin,
    run_callTarget asks, subBuild, run_bind_ok derives]

theorem Calls.reaches [FileSystem φ] {w derived : World φ} {project child : ProjectId}
    {target name other : String} {index depth : Nat}
    (calls : Calls w project target index depth name other child derived) :
    Mark.origin.Reaches derived
      ((performInvocation (callWithin (depth + 1)) project target index).run w).2 := by
  obtain ⟨goal, after⟩ := calls.after
  have confined : Mark.origin.Confined derived (execute (callWithin depth) silent child [goal]) :=
    Mark.confined_execute (Mark.callsConfined_callWithin _ depth) (Mark.listensConfined_silent _)
      (Nat.zero_le _) [goal]
  rw [after]
  exact (confined (Mark.sealed_origin derived)).1

namespace Station

/-- The property has a value. -/
def Holds (s : Station φ) (value : String) : Prop :=
  (s.world.project s.project).properties.get? s.name = some value

variable [FileSystem φ]

/-- What takes the value of a property to another property or to a later time. -/
inductive Link : Station φ → Station φ → Prop
  /-- The build goes on, and nothing is written over the property; that of a user is safe anyway. -/
  | later {w after : World φ} {project : ProjectId} {name : String}
      (steps : Mark.origin.Reaches w after)
      (kept : (w.project project).properties.isUser name = true ∨
        (after.project project).properties.get? name = (w.project project).properties.get? name) :
      Link ⟨w, project, name⟩ ⟨after, project, name⟩
  /-- A task is performed that sets a property that was not set to the value of the property. -/
  | property {w after : World φ} {project : ProjectId} {name other target : String} {index : Nat}
      {location : Location} {caller : Caller φ} {result : Except Fault (Option Completion)}
      (named : Template.IsName other)
      (awaits : w.Awaits .property project target index (.handing "property" other name location))
      (made : ∀ id, (w.invocationAt project target index).object = some id → w.Sets id)
      (unset : (w.project project).properties.contains other = false)
      (performed : (performInvocation caller project target index).run w = (result, after)) :
      Link ⟨w, project, name⟩ ⟨after, project, other⟩
  /-- A call is performed that hands the value of the property down, and derives a project. -/
  | call {w derived : World φ} {project child : ProjectId} {name other target : String}
      {index depth : Nat} (named : Template.IsName other)
      (calls : Calls w project target index depth name other child derived) :
      Link ⟨w, project, name⟩ ⟨derived, child, other⟩

variable {s t : Station φ} {value : String}

omit [FileSystem φ] in
/-- The value of a user property stays as long as the build goes on. -/
theorem holds_of_user {w after : World φ} {project : ProjectId} {name : String}
    (steps : Mark.origin.Reaches w after)
    (user : (w.project project).properties.isUser name = true)
    (held : Holds ⟨w, project, name⟩ value) : Holds ⟨after, project, name⟩ value := by
  obtain ⟨given, found, same⟩ := Option.map_eq_some_iff.mp held
  rw [Properties.isUser, found] at user
  have stays := steps.find?_of_user (present_of_get? held) found user
  simp [Holds, Properties.get?, stays, same]

/-- What a derived project is given under a name is what it has under that name from then on. -/
theorem holds_of_derive {w derived later : World φ} {depth : Nat} {parent child : ProjectId}
    {i : Inheritance} {name : String}
    (derives : (derive (callWithin depth) parent i).run w = (.ok child, derived))
    (given : (Table.ofList i.overrides).find? name = some value)
    (further : Mark.origin.Reaches derived later) : Holds ⟨later, child, name⟩ value := by
  have calls := Mark.callsConfined_callWithin (φ := φ) Mark.origin depth
  obtain ⟨rfl, added, projects, steps⟩ := derive_reaches calls derives
  have present : w.projects.length < added.projects.length := by simp [projects]
  have begins : (added.project w.projects.length).properties.table.find? name =
      some ⟨value, true⟩ := by
    rw [World.project_of_append projects, if_pos rfl]
    exact Inheritance.find?_properties_of_override given
  have stays := (steps.trans further).find?_of_user present begins rfl
  simp [Holds, Properties.get?, stays]

/-- What a call hands down is kept from the moment its project is derived. -/
theorem holds_of_calls {w derived : World φ} {project child : ProjectId} {target : String}
    {index depth : Nat} {name other : String}
    (calls : Calls w project target index depth name other child derived)
    (named : Template.IsName other) (referred : Template.IsName name)
    (held : Holds ⟨w, project, name⟩ value) (plain : slotName? value = none) {later : World φ}
    (further : Mark.origin.Reaches derived later) : Holds ⟨later, child, other⟩ value := by
  obtain ⟨awaits, forwards, prepared, asks, once, derives⟩ := calls
  obtain ⟨param, passes⟩ :=
    passes_of_prepareInvocation awaits named referred held plain forwards prepared
  obtain ⟨kinds, -⟩ := kind_of_prepareInvocation awaits Kinds.isMade_call prepared
  exact holds_of_derive derives
    (overrides_of_passes (kinds ▸ awaits.known) passes once asks.handed) further

/-- A value that is handed on is the same afterwards. -/
theorem Link.holds (link : Link s t) (named : Template.IsName s.name) (held : s.Holds value)
    (plain : slotName? value = none) : Template.IsName t.name ∧ t.Holds value := by
  cases link with
  | @later w after project name steps kept =>
    refine ⟨named, ?_⟩
    rcases kept with user | same
    · exact holds_of_user steps user held
    · exact same.trans held
  | property other awaits made unset performed =>
    obtain ⟨completion, after, performs, -, -, holds⟩ :=
      run_performInvocation_property _ awaits made other named held plain unset
    rw [performs] at performed
    cases performed
    exact ⟨other, holds⟩
  | call other calls => exact ⟨other, holds_of_calls calls other named held plain (.refl _ _)⟩

theorem holds_of_links (links : ReflTransGen Link s t) (named : Template.IsName s.name)
    (held : s.Holds value) (plain : slotName? value = none) :
    Template.IsName t.name ∧ t.Holds value := by
  induction links with
  | refl => exact ⟨named, held⟩
  | tail _ link ih => exact link.holds ih.1 ih.2 plain

/-- A value that is no slot is handed on as it is, whatever characters it consists of, by any number
of tasks and calls, also into projects that calls derive. At the end of it the value is what an
attribute is bound to that is given as a reference to the last property: by itself, and with all that
its element says besides. A further task succeeds in handing it on, and a further call has handed it
on when it is done. -/
theorem links_hand_on (links : ReflTransGen Link s t) (named : Template.IsName s.name)
    (held : s.Holds value) (plain : slotName? value = none) :
    t.Holds value ∧
    (∀ id name a location, id < t.world.objects.length → TextAttribute t.world id name a →
      ∃ after, (bindAttribute t.project id name
          ((t.world.project t.project).properties.resolve (Template.referenceTo t.name))
          location).run t.world = (.ok (), after) ∧ after.readText id a.name = .ok value) ∧
    (∀ id e name a after, t.world.Refers id e name t.name a →
      (configure t.project id e).run t.world = (.ok (), after) →
      after.readText id a.name = .ok value) ∧
    (∀ caller other target index location, Template.IsName other →
      t.world.Awaits .property t.project target index
        (.handing "property" other t.name location) →
      (∀ id, (t.world.invocationAt t.project target index).object = some id → t.world.Sets id) →
      (t.world.project t.project).properties.contains other = false →
      ∃ completion after, (performInvocation caller t.project target index).run t.world =
        (.ok (some completion), after) ∧ completion.type = .succeeded ∧
        Holds ⟨after, t.project, other⟩ value) ∧
    (∀ target index depth other child derived, Template.IsName other →
      Calls t.world t.project target index depth t.name other child derived →
      Holds ⟨((performInvocation (callWithin (depth + 1)) t.project target index).run t.world).2,
        child, other⟩ value) := by
  obtain ⟨referred, holds⟩ := holds_of_links links named held plain
  refine ⟨holds, ?_, ?_, ?_, ?_⟩
  · intro id name a location present takes
    rw [Properties.resolve_referenceTo referred holds]
    refine ⟨_, run_bindAttribute location takes plain, World.readText_of_text ?_⟩
    rw [World.find?_withSource present, if_pos rfl]
  · intro id e name a after refers ended
    exact reads_of_configure refers referred holds plain ended
  · intro caller other target index location further awaits made unset
    obtain ⟨completion, after, performs, succeeded, -, handed⟩ :=
      run_performInvocation_property caller awaits made further referred holds plain unset
    exact ⟨completion, after, performs, succeeded, handed⟩
  · intro target index depth other child derived further calls
    exact holds_of_calls calls further referred holds plain calls.reaches

end Station

/-! A value with references in it that a task and a call hand on. -/

mutual

/-- Whether elements are the same. -/
def Element.same : Element → Element → Bool
  | ⟨tag, attributes, children, text, location⟩, ⟨tag', attributes', children', text', location'⟩ =>
    tag == tag' && attributes == attributes' && sameAll children children' && text == text' &&
      location == location'

def Element.sameAll : List Element → List Element → Bool
  | [], [] => true
  | e :: rest, e' :: rest' => e.same e' && sameAll rest rest'
  | _, _ => false

end

mutual

theorem Element.eq_of_same : ∀ {e e' : Element}, e.same e' = true → e = e'
  | ⟨_, _, _, _, _⟩, ⟨_, _, _, _, _⟩, same => by
    simp only [Element.same, Bool.and_eq_true, beq_iff_eq] at same
    obtain ⟨⟨⟨⟨rfl, rfl⟩, children⟩, rfl⟩, rfl⟩ := same
    rw [Element.eq_of_sameAll children]

theorem Element.eq_of_sameAll : ∀ {es es' : List Element}, sameAll es es' = true → es = es'
  | [], [], _ => rfl
  | e :: rest, e' :: rest', same => by
    simp only [Element.sameAll, Bool.and_eq_true] at same
    rw [Element.eq_of_same same.1, Element.eq_of_sameAll same.2]

end

namespace Sample

open Engine.Sample

/-- A value that would be another one if it were looked into. -/
def odd : String := "$$ of $\x7bq\x7d \x7b$"

def setting : Element := .handing "property" "q" "p" .unknown

def calling : Element where
  tag := "call"
  attributes := [("target", "inner")]
  children := [.handing "param" "r" "q" .unknown]

def saying : Element where
  tag := "echo"
  attributes := [("message", "$\x7br\x7d")]

def relaying : Element where
  tag := "project"
  children := [
    { tag := "target", attributes := [("name", "outer")], children := [setting, calling] },
    { tag := "target", attributes := [("name", "inner")], children := [saying] }]

/-- A project whose user gave it the value. -/
def relay : World MemoryFiles :=
  { fresh with projects := [{
      directory := .top, source := some relaying, properties := Properties.ofUser [("p", odd)]
      targets := Targets.empty.put {
        name := "outer"
        invocations := [{ element := some setting }, { element := some calling }] } }] }

/-- The value was handed on under another name. -/
def relayed : World MemoryFiles := ((performInvocation call 0 "outer" 0).run relay).2

/-- Whether nothing was made yet of an element of a standard kind at a position of a target. -/
def isUntouched (w : World φ) (s : Standard) (project : ProjectId) (target : String) (index : Nat)
    (e : Element) : Bool :=
  let i := w.invocationAt project target index
  i.element.any (·.same e) && !i.configured && i.object.isNone &&
    decide (w.registry.find? e.tag = some (.standard s))

section Untouched

variable {w : World φ} {s : Standard} {project : ProjectId} {target : String} {index : Nat}
variable {e : Element}

theorem object_of_isUntouched (untouched : isUntouched w s project target index e = true) :
    (w.invocationAt project target index).object = none := by
  simp only [isUntouched, Bool.and_eq_true] at untouched
  exact Option.isNone_iff_eq_none.mp untouched.1.2

theorem awaits_of_isUntouched (known : w.kinds.HasStandard)
    (untouched : isUntouched w s project target index e = true) :
    w.Awaits s project target index e := by
  have none := object_of_isUntouched untouched
  simp only [isUntouched, Bool.and_eq_true, Bool.not_eq_true', decide_eq_true_eq] at untouched
  obtain ⟨⟨⟨same, waiting⟩, -⟩, registered⟩ := untouched
  refine ⟨known, ?_, waiting, fun _ => registered, by simp [none]⟩
  cases found : (w.invocationAt project target index).element with
  | none =>
    rw [found] at same
    cases same
  | some e' =>
    rw [found, Option.any_some] at same
    rw [Element.eq_of_same same]

end Untouched

theorem known_relay : relay.kinds.HasStandard := by
  simpa only [relay, fresh] using .standard

theorem relay_untouched : isUntouched relay .property 0 "outer" 0 setting = true := by
  decide +kernel

theorem relay_awaits : relay.Awaits .property 0 "outer" 0 setting :=
  awaits_of_isUntouched known_relay relay_untouched

theorem relay_holds : Station.Holds ⟨relay, 0, "p"⟩ odd := by rfl

/-- Nothing has been made for what is not instantiated yet. -/
theorem relay_made (id : ObjectId) (made : (relay.invocationAt 0 "outer" 0).object = some id) :
    relay.Sets id := by
  rw [object_of_isUntouched relay_untouched] at made
  cases made

theorem setting_link : Station.Link ⟨relay, 0, "p"⟩ ⟨relayed, 0, "q"⟩ :=
  .property (by decide) relay_awaits relay_made (by rfl) (Prod.eta _).symm

theorem known_relayed : relayed.kinds.HasStandard := by
  obtain ⟨_, _, performs, -, kinds, -⟩ := run_performInvocation_property call relay_awaits
    relay_made (by decide) (by decide) relay_holds (by decide) (by rfl)
  rw [relayed, performs, kinds]
  exact known_relay

/-- The call is ready. -/
def ready : World MemoryFiles := ((prepareInvocation 0 "outer" 1).run relayed).2

/-- What the call hands down. -/
def handedDown : Inheritance where
  overrides := [("r", odd)]

/-- The call has derived a project, in which the value is to be said. -/
def derived : World MemoryFiles :=
  ((derive (callWithin 0) (ready.object 1).project handedDown).run (ready.calling 1 "inner")).2

theorem relayed_seen : isUntouched relayed .call 0 "outer" 1 calling = true ∧
    ((prepareInvocation 0 "outer" 1).run relayed).1.toOption = some (some 1) := by
  decide +kernel

theorem ready_seen : ((inheritanceOf 1).run ready).1.toOption.any (fun i =>
      i.allProperties && !i.allReferences && i.overrides == [("r", odd)] && i.references == []) =
        true ∧
    (ready.object 1).target.isSome = true ∧ ready.isSet 1 "target" = true ∧
    (ready.readText 1 "target").toOption = some "inner" ∧ (paramsOf ready 1 == [2]) = true := by
  decide +kernel

theorem derived_seen : ((derive (callWithin 0) (ready.object 1).project handedDown).run
      (ready.calling 1 "inner")).1.toOption = some 1 ∧
    derived.kinds.hasText (derived.kindOf 5) "message" "message" = true ∧
    5 < derived.objects.length ∧ ((configure 1 5 saying).run derived).1.toOption = some () := by
  decide +kernel

theorem relayed_awaits : relayed.Awaits .call 0 "outer" 1 calling :=
  awaits_of_isUntouched known_relayed relayed_seen.1

theorem ready_asks : ready.Asks 1 "inner" handedDown := by
  obtain ⟨fields, inTarget, named, goal, -⟩ := ready_seen
  obtain ⟨⟨_, _, _, _⟩, handed, same⟩ := (Option.any_eq_true _ _).mp fields
  simp only [Bool.and_eq_true, Bool.not_eq_true', beq_iff_eq] at same
  obtain ⟨⟨⟨rfl, rfl⟩, rfl⟩, rfl⟩ := same
  refine ⟨inTarget, named, ?_, ?_⟩
  · rcases read : ready.readText 1 "target" with _ | text
    · rw [read] at goal
      cases goal
    · rw [read] at goal
      cases goal
      rfl
  · rw [run_of_toOption handed, looks_inheritanceOf 1 ready]
    rfl

theorem ready_once : NamesOnce ready 1 "r" := by
  obtain ⟨-, -, -, -, params⟩ := ready_seen
  simp [NamesOnce, eq_of_beq params]

theorem calling_link : Station.Link ⟨relayed, 0, "q"⟩ ⟨derived, 1, "r"⟩ :=
  .call (by decide) (.intro relayed_awaits (List.mem_singleton.mpr rfl)
    (run_of_toOption relayed_seen.2) ready_asks ready_once (run_of_toOption derived_seen.1))

theorem derived_refers : ∃ a, a.name = "message" ∧ derived.Refers 5 saying "message" "r" a := by
  obtain ⟨-, text, present, -⟩ := derived_seen
  obtain ⟨a, named, takes⟩ := textAttribute_of_hasText text
  exact ⟨a, named, {
    present := present
    takes := takes
    given := ⟨[], [], by rfl, nofun⟩
    proper := by decide
    ofObject := fun _ => by decide
    apart := .inl rfl }⟩

end Sample

theorem Station.links_hand_on_sample :
    Holds ⟨Sample.derived, 1, "r"⟩ Sample.odd ∧
    ∃ after, (configure 1 5 Sample.saying).run Sample.derived = (.ok (), after) ∧
      after.readText 5 "message" = .ok Sample.odd := by
  obtain ⟨a, named, refers⟩ := Sample.derived_refers
  obtain ⟨-, -, -, configured⟩ := Sample.derived_seen
  have configures : (configure 1 5 Sample.saying).run Sample.derived = (.ok (), _) :=
    run_of_toOption configured
  obtain ⟨holds, -, reads, -, -⟩ :=
    links_hand_on (.tail (.single Sample.setting_link) Sample.calling_link) (by decide)
      Sample.relay_holds (by decide)
  dsimp only at reads
  have read := reads 5 Sample.saying "message" a _ refers configures
  rw [named] at read
  exact ⟨holds, _, configures, read⟩

end BuildEngine
