import BuildEngine.Proofs.Calling
import BuildEngine.Proofs.Configuring
import BuildEngine.Proofs.Handing

/-! Parameters of calls. A parameter that hands the value of a property on is taken by its call with
that value, whatever else is nested in the call, and the value is what the called project is given
under the name of the parameter. -/

namespace BuildEngine

open Engine

variable {φ : Type}

/-! How calls take parameters. -/

namespace Kinds

/-- How a call takes a parameter. -/
def takesParam (f : ChildFactory) : Bool :=
  f.origin == .adder && f.method == "add_param" && f.kind == some (.standard .param)

/-- Calls are no data types, can be made and take parameters, which can be given values to hand on. -/
theorem call_seen :
    ((Signature.ofKind standard (standard.get (.standard .call))).toOption.bind
      (·.element? "param")).any takesParam = true ∧
    (standard.member? (standard.get (.standard .call)) "add_param").any (fun found =>
      match found.2, found.1.id with
      | .nested e, .standard _ => e.refusal.isNone
      | _, _ => false) = true ∧
    (standard.get (.standard .call)).isDataType = false ∧ isMade .call = true ∧
    (standard.performer? (standard.get (.standard .call))).map Kind.id =
      some (.standard .call) ∧
    (standard.get (.standard .param)).isA Standard.param = true ∧ canHand .param = true := by
  decide +kernel

theorem element?_call : ((Signature.ofKind standard (standard.get (.standard .call))).toOption.bind
    (·.element? "param")).any takesParam = true := call_seen.1

theorem member?_call : (standard.member? (standard.get (.standard .call)) "add_param").any
    (fun found => match found.2, found.1.id with
      | .nested e, .standard _ => e.refusal.isNone
      | _, _ => false) = true := call_seen.2.1

theorem isDataType_call : (standard.get (.standard .call)).isDataType = false := call_seen.2.2.1

theorem isMade_call : isMade .call = true := call_seen.2.2.2.1

theorem performer?_call : (standard.performer? (standard.get (.standard .call))).map Kind.id =
    some (.standard .call) := call_seen.2.2.2.2.1

theorem isA_param : (standard.get (.standard .param)).isA Standard.param = true :=
  call_seen.2.2.2.2.2.1

end Kinds

namespace Engine

variable {w final : World φ} {project : ProjectId} {owner id : ObjectId}
variable {name property value : String} {location : Location}

/-- A parameter becomes a part of its call. -/
theorem run_attach_param {h : ChildHandle} (known : w.kinds.HasStandard)
    (kind : (w.object h.owner).kind = .standard .call) (taken : Kinds.takesParam h.factory = true)
    (unattached : h.attached = false) : (attach h).run w = (addPart h.owner h.child).run w := by
  rw [Kinds.takesParam, Bool.and_eq_true, Bool.and_eq_true, beq_iff_eq, beq_iff_eq] at taken
  obtain ⟨⟨origin, method⟩, -⟩ := taken
  have declared := Kinds.member?_call
  rw [← known.member?, ← World.kindOf_of_standard known kind] at declared
  unfold attach
  rw [unattached, origin, method]
  simp only [Bool.false_eq_true, if_false, if_true]
  rw [methodOf, run_bind_ok (run_observe _ w)]
  cases found : w.kinds.member? (w.kindOf h.owner) "add_param" with
  | none => rw [found] at declared; cases declared
  | some member =>
    obtain ⟨k, e⟩ := member
    rw [found, Option.any_some] at declared
    split at declared
    · rename_i e s same ofKind
      simp only at same ofKind
      subst same
      rw [Option.isNone_iff_eq_none] at declared
      simp only [declared, ofKind]
    · cases declared

end Engine

/-- A parameter with a name and a value that a call was given. -/
structure World.Passes (w : World φ) (id : ObjectId) (name value : String) (param : ObjectId) :
    Prop where
  part : param ∈ (w.object id).parts
  present : param < w.objects.length
  kind : (w.object param).kind = .standard .param
  hands : w.Hands param name value

/-- A call keeps a parameter of which the attributes are kept. -/
theorem World.Passes.later {w after : World φ} {id param : ObjectId} {name value : String}
    (passes : w.Passes id name value param) (present : id < w.objects.length)
    (binds : w.Binds (OfOne param) after) : after.Passes id name value param := by
  have same := binds.object param passes.present
  refine ⟨(binds.object id present).parts.subset passes.part, binds.present passes.present, ?_, ?_⟩
  · rw [same.kind, passes.kind]
  · constructor
    · rw [same.fields _ rfl, passes.hands.name]
    · rw [same.fields _ rfl, passes.hands.value]

namespace Engine

variable {w final : World φ} {project : ProjectId} {owner id : ObjectId}
variable {name property value : String} {location : Location}

/-- A parameter that was configured is a part of its call when it is attached. -/
theorem passes_of_attach {h : ChildHandle} (known : w.kinds.HasStandard)
    (call : (w.object h.owner).kind = .standard .call) (taken : Kinds.takesParam h.factory = true)
    (unattached : h.attached = false) (present : h.owner < w.objects.length)
    (made : h.child < w.objects.length) (kind : (w.object h.child).kind = .standard .param)
    (hands : w.Hands h.child name value) (attaches : (attach h).run w = (.ok (), final)) :
    w.Binds (OfOne h.child) final ∧ final.Passes h.owner name value h.child := by
  rw [run_attach_param known call taken unattached] at attaches
  have adds : BindsBy (OfOne h.child) w (addPart h.owner h.child) := binds_addPart _ _
  have binds := (adds.of_run attaches).1
  have same := binds.object h.child made
  refine ⟨binds, ?_, binds.present made, ?_, ?_, ?_⟩
  · cases attaches
    rw [World.object_of_modify_present rfl present, if_pos rfl]
    simp
  · rw [same.kind, kind]
  · rw [same.fields _ rfl, hands.name]
  · rw [same.fields _ rfl, hands.value]

/-- The signature of a call says that calls are given parameters. -/
theorem takesParam_of_element? (known : w.kinds.HasStandard)
    (kind : (w.object owner).kind = .standard .call) {signature : Signature} {f : ChildFactory}
    (signed : Signature.ofKind w.kinds (w.kindOf owner) = .ok signature)
    (found : signature.element? "param" = some f) : Kinds.takesParam f = true := by
  obtain ⟨own, standard⟩ := Kinds.standard_signed .call
  have same := known.ofKind standard
  rw [← World.kindOf_of_standard known kind, signed] at same
  cases same
  have taken := Kinds.element?_call
  rw [standard] at taken
  simpa [Except.toOption, found] using taken

/-- A parameter that hands the value of a property on is taken with that value. -/
theorem passes_of_nested (known : w.kinds.HasStandard)
    (kind : (w.object owner).kind = .standard .call) (present : owner < w.objects.length)
    (named : Template.IsName name) (referred : Template.IsName property)
    (held : (w.project project).properties.get? property = some value)
    (plain : slotName? value = none) {rest : List Element}
    (ended : (configureChildren project owner
      (.handing "param" name property location :: rest)).run w = (.ok (), final)) :
    ∃ param, final.Passes owner name value param := by
  obtain ⟨h, taken, configured, attached, takes, configures, attaches, ended⟩ :=
    ok_of_configureChildren_cons ended
  obtain ⟨binds, made⟩ := BindsBy.of_run
    (binds_takeChild (World.has_ofNone w) _ _ : BindsBy OfNone w _ _) takes
  have ofKind {id : KindId} : h.factory.origin = .adder → h.factory.kind = some id →
      (taken.object h.child).kind = (w.kinds.get id).id := (made h rfl).kind
  obtain ⟨new, mine, unattached, ⟨signature, signed, found⟩, -⟩ := made h rfl
  have factory := takesParam_of_element? known kind signed found
  have asked : h.factory.origin = .adder ∧ h.factory.kind = some (.standard .param) := by
    rw [Kinds.takesParam, Bool.and_eq_true, Bool.and_eq_true, beq_iff_eq, beq_iff_eq,
      beq_iff_eq] at factory
    exact ⟨factory.1.1, factory.2⟩
  have child : (taken.object h.child).kind = .standard .param := by
    rw [ofKind asked.1 asked.2]
    exact (congrArg Kind.id (known.get .param)).trans (Kinds.id_get_standard .param)
  have still : taken.kinds.HasStandard := binds.kinds ▸ known
  have gives : (configure project h.child (.handing "param" name property location)).run taken =
      (.ok (), taken.withHanded h.child name value) := run_configure_handing still
    Kinds.call_seen.2.2.2.2.2.2 child new.2 named referred (by rw [binds.properties, held]) plain
  have configuring : BindsBy OfNone taken
      (configure project h.child (.handing "param" name property location)) :=
    binds_configure (World.has_ofNone _) new.2 (fun _ => not_false) _
  have bound := (configuring.of_run configures).1
  have hands : configured.Hands h.child name value := by
    rw [gives] at configures
    cases configures
    exact World.hands_withHanded new.2
  have there := binds.present present
  have call : (configured.object h.owner).kind = .standard .call := by
    rw [mine, (bound.object owner there).kind, (binds.object owner present).kind, kind]
  obtain ⟨attaching, passes⟩ := passes_of_attach (bound.kinds ▸ still) call factory unattached
    (mine ▸ bound.present there) (bound.present new.2) ((bound.object h.child new.2).kind.trans child)
    hands attaches
  rw [mine] at passes
  have others : BindsBy (OfOne h.child) attached (configureChildren project owner rest) :=
    binds_configureChildren (by rintro _ _ rfl; exact passes.present) rest
  exact ⟨h.child, passes.later (attaching.present (bound.present there)) (others.of_run ended).1⟩

/-- A call is given the parameters that are nested in its element. -/
theorem passes_of_configure {e : Element} (known : w.kinds.HasStandard)
    (kind : (w.object id).kind = .standard .call) (present : id < w.objects.length)
    (named : Template.IsName name) (referred : Template.IsName property)
    (held : (w.project project).properties.get? property = some value)
    (plain : slotName? value = none)
    (nested : .handing "param" name property location ∈ e.children)
    (ended : (configure project id e).run w = (.ok (), final)) :
    ∃ param, final.Passes id name value param := by
  have proper : (w.kindOf id).isDataType = false := by
    rw [World.kindOf_of_standard known kind]
    exact Kinds.isDataType_call
  rcases configures_of_ok present ended with ⟨ofData, -⟩ | ⟨bound, inside, configures⟩
  · rw [proper] at ofData
    cases ofData
  have binds := configures.binds present
  have whole : BindsBy OfNone bound (configureChildren project id e.children) :=
    binds_configureChildren (World.has_ofNone _) e.children
  have still := binds.trans (whole.of_run configures.children).1
  obtain ⟨former, latter, split⟩ := List.append_of_mem nested
  have nests := configures.children
  rw [split] at nests
  obtain ⟨mid, before, after⟩ := ok_of_configureChildren_append nests
  have earlier : BindsBy OfNone bound (configureChildren project id former) :=
    binds_configureChildren (World.has_ofNone _) former
  have reaches := binds.trans (earlier.of_run before).1
  obtain ⟨param, passes⟩ := passes_of_nested (reaches.kinds ▸ known)
    ((reaches.object id present).kind.trans kind) (reaches.present present) named referred
    (by rw [reaches.properties, held]) plain after
  have different : ¬ OfOne param id "message" := by
    rintro rfl
    have both := passes.kind.symm.trans ((still.object id present).kind.trans kind)
    cases both
  exact ⟨param, passes.later (still.present present) (configures.text _ (.inr different))⟩

/-- A call that is made ready to be performed was given the parameters in its element. -/
theorem passes_of_prepareInvocation {target : String} {index : Nat} {e : Element}
    (awaits : w.Awaits .call project target index e)
    (named : Template.IsName name) (referred : Template.IsName property)
    (held : (w.project project).properties.get? property = some value)
    (plain : slotName? value = none)
    (nested : .handing "param" name property location ∈ e.children)
    (ended : (prepareInvocation project target index).run w = (.ok (some id), final)) :
    ∃ param, final.Passes id name value param := by
  obtain ⟨ready, configured, readies, configures, objects, -⟩ :=
    ok_of_prepareInvocation awaits Kinds.isMade_call ended
  obtain ⟨present, kind, -⟩ := readies.object
  obtain ⟨param, passes⟩ := passes_of_configure (readies.kinds ▸ awaits.known) kind present named
    referred (by rw [readies.properties, held]) plain nested configures
  have stands := World.object_of_same objects
  refine ⟨param, ?_, ?_, ?_, ?_, ?_⟩
  · rw [stands]
    exact passes.part
  · rw [objects]
    exact passes.present
  · rw [stands]
    exact passes.kind
  · rw [stands]
    exact passes.hands.name
  · rw [stands]
    exact passes.hands.value

end Engine

/-! What calls hand down. -/

theorem find?_lastOfEach {name value : String} {entries : List (String × String)}
    (only : ∀ entry ∈ entries, entry.1 = name → entry.2 = value)
    (given : (name, value) ∈ entries) :
    (Table.ofList (lastOfEach entries)).find? name = some value := by
  have found := Table.find?_ofList_of_only only given
  refine Table.find?_ofList_of_only ?_ (Table.mem_entries_of_find? found)
  rintro ⟨other, last⟩ member rfl
  exact Option.some.inj ((Table.find?_of_mem_entries member).symm.trans found)

namespace Engine

variable {w final : World φ} {id : ObjectId} {name value : String}

/-- A parameter has a name and a value. -/
def Gives (w : World φ) (param : ObjectId) (entry : String × String) : Prop :=
  w.readText param "name_" = .ok entry.1 ∧ w.readText param "value" = .ok entry.2

/-- The names and values that are listed are those that parameters have. -/
structure Lists (w : World φ) (params : List ObjectId) (entries : List (String × String)) : Prop where
  all : ∀ param ∈ params, ∃ entry ∈ entries, Gives w param entry
  only : ∀ entry ∈ entries, ∃ param ∈ params, Gives w param entry

theorem lists_of_overridesOf {params : List ObjectId} {entries : List (String × String)}
    (ended : (overridesOf params).run w = (.ok entries, final)) : Lists w params entries := by
  induction params generalizing entries with
  | nil =>
    cases ended
    exact ⟨nofun, nofun⟩
  | cons param rest ih =>
    unfold overridesOf at ended
    obtain ⟨_, _, names, afterName⟩ := ok_of_bind ended
    obtain ⟨name, rfl⟩ := ok_of_consult names
    obtain ⟨_, _, values, afterValue⟩ := ok_of_bind afterName
    obtain ⟨value, rfl⟩ := ok_of_consult values
    obtain ⟨_, _, others, whole⟩ := ok_of_bind afterValue
    cases whole
    obtain ⟨all, only⟩ := ih others
    constructor
    · rintro other member
      rcases List.mem_cons.mp member with rfl | later
      · exact ⟨_, List.mem_cons_self, name, value⟩
      · obtain ⟨entry, listed, gives⟩ := all other later
        exact ⟨entry, List.mem_cons_of_mem _ listed, gives⟩
    · rintro entry member
      rcases List.mem_cons.mp member with rfl | later
      · exact ⟨param, List.mem_cons_self, name, value⟩
      · obtain ⟨other, listed, gives⟩ := only entry later
        exact ⟨other, List.mem_cons_of_mem _ listed, gives⟩

/-- The parameters of a call. -/
def paramsOf (w : World φ) (id : ObjectId) : List ObjectId :=
  (w.object id).parts.filter fun part => w.isA part Standard.param

theorem overrides_of_inheritanceOf {i : Inheritance}
    (ended : (inheritanceOf id).run w = (.ok i, final)) :
    ∃ entries, i.overrides = lastOfEach entries ∧ Lists w (paramsOf w id) entries := by
  unfold inheritanceOf at ended
  rw [partsOf, run_bind_ok (run_observe _ w)] at ended
  obtain ⟨entries, _, lists, ended⟩ := ok_of_bind ended
  obtain ⟨_, _, -, ended⟩ := ok_of_bind ended
  obtain ⟨_, _, -, ended⟩ := ok_of_bind ended
  obtain ⟨_, _, -, ended⟩ := ok_of_bind ended
  obtain ⟨_, _, -, ended⟩ := ok_of_bind ended
  cases ended
  exact ⟨entries, rfl, lists_of_overridesOf lists⟩

/-- Of the parameters of a call at most one has a name. -/
def NamesOnce (w : World φ) (id : ObjectId) (name : String) : Prop :=
  ∀ param ∈ paramsOf w id, ∀ other ∈ paramsOf w id,
    w.readText param "name_" = .ok name → w.readText other "name_" = .ok name → param = other

/-- What a call is given under a name that no other parameter has is what it hands down. -/
theorem overrides_of_passes {param : ObjectId} {i : Inheritance} (known : w.kinds.HasStandard)
    (passes : w.Passes id name value param) (once : NamesOnce w id name)
    (ended : (inheritanceOf id).run w = (.ok i, final)) :
    (Table.ofList i.overrides).find? name = some value := by
  obtain ⟨entries, overrides, all, only⟩ := overrides_of_inheritanceOf ended
  have ofParam : w.isA param Standard.param = true := by
    rw [World.isA, World.kindOf_of_standard known passes.kind]
    exact Kinds.isA_param
  have mine : param ∈ paramsOf w id := List.mem_filter.mpr ⟨passes.part, ofParam⟩
  have named := World.readText_of_text passes.hands.name
  have valued := World.readText_of_text passes.hands.value
  rw [overrides]
  apply find?_lastOfEach
  · rintro ⟨_, text⟩ member rfl
    obtain ⟨other, theirs, name, value⟩ := only _ member
    cases once other theirs param mine name named
    exact Except.ok.inj (value.symm.trans valued)
  · obtain ⟨⟨_, _⟩, member, name, value⟩ := all param mine
    cases named.symm.trans name
    cases valued.symm.trans value
    exact member

end Engine
end BuildEngine
