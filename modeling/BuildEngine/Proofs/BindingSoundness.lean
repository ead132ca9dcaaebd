import BuildEngine.Binding.Configuration
import BuildEngine.Proofs.ReadingSoundness

/-! Making and configuring objects is sound. What is wrong about an element is said at the place of
the element; texts become paths below the directory of the project; and each nested element that is
taken has its place before anything else happens to it. -/

namespace BuildEngine

open Engine

variable {φ : Type}

namespace Terms

variable [FileSystem φ] {t : Terms φ} {s : Stage φ} {id : ObjectId} {name : String}

/-! Attributes. -/

section Attributes

/-- A table in which nothing stands under the name of a path. -/
def IsBlank (fields : Table String Source) : Prop :=
  ∀ name ∈ pathFields, ∀ source, fields.find? name = some source → source = .void

theorem turned_accept? (w : World φ) (type : ValueType) (v : Value) :
    type.accept? (t.turned w) v = type.accept? w v := by
  cases type <;> cases v <;> rfl

theorem turned_accept (a : Attribute) (w : World φ) (owner : String) (v : Value) :
    a.accept (t.turned w) owner v = a.accept w owner v := by
  unfold Attribute.accept
  simp only [turned_accept?]
  rfl

/-- An attribute that does not take a value says so. -/
theorem agreed_accept (a : Attribute) (s : Stage φ) (owner : String) (v : Value) :
    Agreed t.allows (a.accept s.world owner v) (a.accept (t.turned s.world) owner v)
      fun taken => a.accept s.world owner v = .ok taken := by
  refine ⟨turned_accept a s.world owner v, ?_⟩
  cases ended : a.accept s.world owner v with
  | ok taken => rfl
  | error fault =>
    unfold Attribute.accept at ended
    split at ended
    · cases ended
    · cases ended
      rfl

/-- What is known of an attribute that is found under a name. -/
theorem isOrdinary_of_find? {k : Kind} (ordinary : k.isOrdinary = true) {a : Attribute}
    (found : k.attributes.find? name = some a) : a.name = name ∧ a.isOrdinary = true := by
  rw [Kind.isOrdinary, Bool.and_eq_true] at ordinary
  have both := List.all_eq_true.mp ordinary.1 _ (Table.mem_entries_of_find? found)
  simp only [Bool.and_eq_true, beq_iff_eq] at both
  exact ⟨both.1.symm, both.2⟩

/-- An attribute that holds paths takes nothing else. -/
theorem accepted_of_path {a : Attribute} (ordinary : a.isOrdinary = true)
    (path : a.name ∈ pathFields) : a.accepted = [.path] ∧ a.initial = none := by
  unfold Attribute.isOrdinary at ordinary
  have listed : pathFields.contains a.name = true := List.contains_iff_mem.mpr path
  rw [listed] at ordinary
  simp only [Bool.and_eq_true, Bool.not_true, Bool.false_or, Option.isNone_iff_eq_none] at ordinary
  obtain ⟨_, absent, single⟩ := ordinary
  refine ⟨?_, absent⟩
  split at single
  · assumption
  · cases single

theorem sound_setSource {may : Fault → Bool} (meets : t.Meets s) {source : Source}
    (holds : name ∈ pathFields → t.HoldsPath source)
    (given : name = "srcfile" → t.mixes = true ∨ (s.element id).givesSource = true) :
    t.Sound may s (setSource id name source) := by
  have before := meets.object id
  refine sound_changeObject meets _ (fun _ => rfl) (fun known => known)
    ⟨before.parts, before.reference, ?_, before.unmixed, ?_, before.mapper⟩
  · intro other path found stored
    rw [Table.find?_put] at stored
    split at stored
    · rename_i same
      cases stored
      exact holds (same ▸ path)
    · exact before.paths other path found stored
  · by_cases same : name = "srcfile"
    · exact (given same).imp_right .inl
    · simp only [Table.find?_put, if_neg same]
      exact before.source

theorem sound_setField (meets : t.Meets s) {v : Value}
    (fits : name ∈ pathFields → ∃ p, v = .path p ∧ t.fits p = true)
    (given : name = "srcfile" → t.mixes = true ∨ (s.element id).givesSource = true) :
    t.Sound t.allows s (setField id name v) := by
  unfold setField
  apply Runs.look (.observed rfl) meets
  rintro a rfl
  apply Runs.look (.consultAgreed (agreed_accept _ s _ v)) meets
  intro taken accepted
  apply sound_setSource meets _ given
  intro path
  obtain ⟨p, rfl, absolute⟩ := fits path
  cases found : (s.world.kindOf id).attributes.find? name with
  | none =>
    rw [found] at accepted
    cases accepted
  | some a =>
    obtain ⟨rfl, ordinary⟩ := isOrdinary_of_find? (meets.kinds.isOrdinary_get _) found
    rw [found, Option.getD_some, Attribute.accept, (accepted_of_path ordinary path).1] at accepted
    cases accepted
    exact absolute

theorem sees_initialFields (k : Kind) {attributes : List (String × Attribute)}
    (ordinary : ∀ entry ∈ attributes, (entry.1 == entry.2.name && entry.2.isOrdinary) = true)
    {fields : Table String Source} (blank : IsBlank fields) :
    t.Sees t.allows s (initialFields k attributes fields) IsBlank := by
  induction attributes generalizing fields with
  | nil => exact .pure blank
  | cons entry rest ih =>
    obtain ⟨name, a⟩ := entry
    have first := ordinary _ List.mem_cons_self
    simp only [Bool.and_eq_true, beq_iff_eq] at first
    obtain ⟨rfl, fair⟩ := first
    have others := fun entry (later : entry ∈ rest) => ordinary entry (List.mem_cons_of_mem _ later)
    have stays {source : Source} (plain : a.name ∈ pathFields → source = .void) :
        IsBlank (fields.put a.name source) := by
      intro other path found stored
      rw [Table.find?_put] at stored
      split at stored
      · rename_i same
        cases stored
        exact plain (same ▸ path)
      · exact blank other path found stored
    unfold initialFields
    split
    · exact ih others (stays fun _ => rfl)
    · rename_i v starts
      apply Sees.bind (.consultAgreed (agreed_accept a s k.name v))
      intro taken _
      apply ih others
      apply stays
      intro path
      cases (accepted_of_path fair path).2.symm.trans starts

end Attributes

/-! Making objects. -/

section Making

/-- An object that is made from an element has no parts, no place and nothing that it refers to. -/
theorem sound_instantiate (meets : t.Meets s) {k : Kind} (ordinary : k.isOrdinary = true)
    (project : ProjectId) {e : Element} (unmixed : t.mixes = true ∨ e.isMixed = false) :
    t.Sound t.tolerates s (instantiate k project) fun s' id =>
      id < s'.world.objects.length ∧ s'.element id = e ∧ (s'.world.object id).kind = k.id ∧
        s'.world.projects = s.world.projects := by
  rw [Kind.isOrdinary, Bool.and_eq_true] at ordinary
  unfold instantiate
  apply Runs.get rfl
  extract_lets missing add check
  have adds : t.Sound t.tolerates s (add ()) fun s' id =>
      id < s'.world.objects.length ∧ s'.element id = e ∧ (s'.world.object id).kind = k.id ∧
        s'.world.projects = s.world.projects := by
    have blank : IsBlank (.empty : Table String Source) := by
      rintro _ _ _ ⟨⟩
    apply Runs.look ((sees_initialFields k (List.all_eq_true.mp ordinary.1) blank).imp
      (fun _ still => still) t.tolerates_of_allows) meets
    intro fields blank
    let o : Object := { kind := k.id, project, fields }
    apply (sound_addObject (o := o) meets unmixed rfl rfl blank).imp _ fun _ allowed => allowed
    rintro s' id _ ⟨meets, present, _, made, same, projects⟩
    exact ⟨meets, present, made, by rw [same], projects⟩
  have refuses (fault : Fault) (allowed : t.tolerates fault = true)
      (next : PUnit → Engine φ ObjectId) :
      t.Sound t.tolerates s ((throw fault : Engine φ PUnit) >>= next) fun s' id =>
        id < s'.world.objects.length ∧ s'.element id = e ∧ (s'.world.object id).kind = k.id ∧
          s'.world.projects = s.world.projects :=
    Runs.throw_bind allowed meets
  split
  · exact refuses _ rfl _
  unfold check
  split
  · exact refuses _ rfl _
  · exact adds

/-- The element of an object of which nothing is known. -/
theorem isMixed_default : t.mixes = true ∨ (default : Element).isMixed = false := .inr rfl

theorem sound_pathListOf (meets : t.Meets s) (project : ProjectId) (text : String) :
    t.Sound t.tolerates s (pathListOf project text) fun _ v => ∃ list, v = .object list := by
  unfold pathListOf
  apply Runs.look (.observed rfl) meets
  rintro k rfl
  apply (sound_instantiate meets (meets.kinds.isOrdinary_get _) project
    (isMixed_default (t := t))).bind
  intro s₁ list _ meets _
  have holds (v : Value) : t.Sound t.allows s₁ (setField list "path" v) := by
    apply sound_setField meets
    · exact fun path => absurd path (by decide)
    · exact fun same => absurd same (by decide)
  apply Sound.bind (holds _).tolerated
  intro s₂ _ _ meets _
  exact Runs.pure ⟨meets, list, rfl⟩

/-- A text is a path seen from the directory of the project. -/
theorem sound_coerceTo (meets : t.Meets s) (project : ProjectId) (text : String)
    (type : ValueType) :
    t.Sound t.tolerates s (coerceTo project text type) fun _ read =>
      type = .path → ∀ v, read = .ok v → ∃ p, v = .path p ∧ t.fits p = true := by
  have other {result : Except String Value} (proper : type ≠ .path) :
      t.Sound t.tolerates s (pure result) fun _ read =>
        type = .path → ∀ v, read = .ok v → ∃ p, v = .path p ∧ t.fits p = true :=
    Runs.pure ⟨meets, fun path => absurd path proper⟩
  unfold coerceTo
  split
  case h_1 =>
    apply Runs.get rfl
    split
    · split <;> exact other nofun
    · exact other nofun
  case h_5 => split <;> exact other nofun
  case h_6 => split <;> exact other nofun
  case h_7 =>
    apply Runs.look (sees_project project) meets
    rintro p rfl
    apply Runs.pure
    refine ⟨meets, ?_⟩
    rintro _ v ⟨⟩
    exact ⟨_, rfl, t.fits_join _ _ (.inl (meets.project project).directory)⟩
  case h_9 =>
    apply Runs.look (.observed rfl) meets
    intro k _
    split
    · apply (sound_pathListOf meets project text).bind
      intro s' v _ meets _
      exact Runs.pure ⟨meets, nofun⟩
    · exact other nofun
  case h_10 _ _ _ _ _ _ noPath _ _ => exact other noPath
  all_goals exact other nofun

theorem sound_coerceFirst (meets : t.Meets s) (project : ProjectId) (text : String)
    (types : List ValueType) (complaints : List String) :
    t.Sound t.tolerates s (coerceFirst project text complaints types) fun _ v =>
      (∀ type ∈ types, type = .path) → ∃ p, v = .path p ∧ t.fits p = true := by
  induction types generalizing s complaints with
  | nil => exact Runs.throw rfl meets
  | cons type rest ih =>
    unfold coerceFirst
    apply (sound_coerceTo meets project text type).bind
    intro s' read _ meets reads
    split
    · rename_i v
      apply Runs.pure
      refine ⟨meets, ?_⟩
      intro paths
      exact reads (paths type List.mem_cons_self) v rfl
    · apply (ih meets _).imp _ fun _ allowed => allowed
      intro s'' v _ ends
      refine ⟨ends.1, ?_⟩
      intro paths
      exact ends.2 fun type later => paths type (List.mem_cons_of_mem _ later)

end Making

/-! Binding attributes. -/

section Binding

theorem sees_signatureOf {may : Fault → Bool}
    (allows : ∀ problem : Problem, may problem.fault = true) :
    t.Sees may s (signatureOf id) fun signature =>
      Signature.ofKind s.world.kinds (s.world.kindOf id) = .ok signature := by
  apply Sees.consult rfl
  cases Signature.ofKind s.world.kinds (s.world.kindOf id) with
  | error problem => exact allows problem
  | ok signature => rfl

theorem sound_bindAttribute (meets : t.Meets s) {location : Location}
    (known : t.known location = true) (project : ProjectId) (text : String)
    (given : normalizeName name = "srcfile" → t.mixes = true ∨ (s.element id).givesSource = true)
    (present : id < s.world.objects.length) :
    t.Sound t.allows s (bindAttribute project id name text location) := by
  unfold bindAttribute
  apply Runs.look (.locating known (sees_signatureOf fun _ => rfl)) meets
  intro signature signed
  apply Runs.look sees_describe meets
  intro owner _
  have wrong (problem : Problem) : t.allows (problem.faultAt location) = true :=
    t.allows_faultAt known problem
  split
  · rename_i a _ found
    obtain ⟨ordinary, _⟩ := Signature.ordinary_of_attribute? (meets.kinds.isOrdinary_get _) signed
      found
    have silent : a.listening = false := by
      rw [Attribute.isOrdinary, Bool.and_eq_true] at ordinary
      simpa using ordinary.1
    rw [silent]
    exact Runs.throw (wrong _) meets
  · exact Runs.throw (wrong _) meets
  · exact Runs.throw (wrong _) meets
  · rename_i a _ found
    obtain ⟨ordinary, same⟩ := Signature.ordinary_of_attribute? (meets.kinds.isOrdinary_get _)
      signed found
    apply Runs.adapting
    · apply (sound_coerceFirst meets project text _ []).bind
      intro s' v step meets reads
      apply Runs.tolerated
      apply sound_setField meets
      · intro path
        apply reads
        rw [(accepted_of_path ordinary path).1]
        intro type member
        exact List.mem_singleton.mp (List.mem_of_mem_filter member)
      · intro called
        rw [step.element id present]
        apply given
        rw [← same, called]
        decide
    · intro fault tolerated
      split
      · exact wrong _
      · exact t.allows_placed known fault tolerated

/-- Whether one of some attributes is that of a source file. -/
def giveSource (attributes : List (String × String)) : Bool :=
  attributes.any fun entry => normalizeName entry.1 == "srcfile"

theorem sound_bindAttributes (meets : t.Meets s) {location : Location}
    (known : t.known location = true) (project : ProjectId) (attributes : List (String × String))
    (given : giveSource attributes = true →
      t.mixes = true ∨ (s.element id).givesSource = true)
    (present : id < s.world.objects.length) :
    t.Sound t.allows s (bindAttributes project id location attributes) := by
  induction attributes generalizing s with
  | nil => exact Runs.pure ⟨meets, trivial⟩
  | cons entry rest ih =>
    obtain ⟨name, text⟩ := entry
    have first (same : normalizeName name = "srcfile") :
        t.mixes = true ∨ (s.element id).givesSource = true := by
      apply given
      simp [giveSource, same]
    have others (some : giveSource rest = true) :
        t.mixes = true ∨ (s.element id).givesSource = true := by
      apply given
      rw [giveSource, List.any_cons, Bool.or_eq_true]
      exact .inr some
    unfold bindAttributes
    split
    · apply (sound_bindAttribute meets known project text first present).bind
      intro s' _ step meets _
      apply ih meets _ (Nat.lt_of_lt_of_le present step.objects_le)
      rwa [step.element id present]
    · exact ih meets others present

end Binding

/-! Nested elements. -/

section Nesting

/-- A child that was made from an element and still owes its place. -/
structure Owes (t : Terms φ) (s : Stage φ) (child : ObjectId) (e : Element) : Prop where
  meets : t.MeetsBut (· = child) s
  present : child < s.world.objects.length
  element : s.element child = e

theorem MeetsBut.weaken {owed : ObjectId → Prop} (meets : t.Meets s) : t.MeetsBut owed s where
  kinds := meets.kinds
  object id := by
    have before := meets.object id
    refine ⟨?_, before.reference, before.paths, before.unmixed, before.source, before.mapper⟩
    intro part member
    exact ⟨(before.parts part member).1, .inr (meets.part member)⟩
  project := meets.project

theorem MeetsBut.settle {child : ObjectId} (meets : t.MeetsBut (· = child) s)
    (placed : t.Placed s child) : t.Meets s where
  kinds := meets.kinds
  object id := by
    have before := meets.object id
    refine ⟨?_, before.reference, before.paths, before.unmixed, before.source, before.mapper⟩
    intro part member
    obtain ⟨present, rfl | there⟩ := before.parts part member
    · exact ⟨present, .inr placed⟩
    · exact ⟨present, .inr there⟩
  project := meets.project

/-- A part that is added may owe its place, and is no mapper unless its owner has one nested. -/
theorem runs_addPart {may : Fault → Bool} {owed : ObjectId → Prop} (meets : t.MeetsBut owed s)
    {owner part : ObjectId} (present : part < s.world.objects.length)
    (placed : owed part ∨ t.Placed s part)
    (nests : t.mixes = true ∨ (s.element owner).nestsMapper = true ∨
      s.world.isA part Standard.mapper = false) :
    t.Runs may s (addPart owner part) fun s' _ => t.MeetsBut owed s' := by
  have before := meets.object owner
  let change := fun o : Object => { o with parts := o.parts ++ [part] }
  apply (runs_changeObject meets change (fun _ => rfl) (fun known => known) ?_).imp
  · exact fun _ _ _ changed => changed.1
  · exact fun _ allowed => allowed
  · refine ⟨?_, before.reference, before.paths, before.unmixed, before.source, ?_⟩
    · intro other member
      rcases List.mem_append.mp member with old | new
      · exact before.parts other old
      · cases List.mem_singleton.mp new
        exact ⟨present, placed⟩
    · rcases nests with mixes | nested | other
      · exact .inl mixes
      · exact .inr (.inl nested)
      · refine before.mapper.imp_right (.imp_right ?_)
        intro none part' member
        rcases List.mem_append.mp member with old | new
        · exact none part' old
        · cases List.mem_singleton.mp new
          exact other

/-- Children that declared methods take are kept apart from parts. -/
theorem sound_addChild {may : Fault → Bool} (meets : t.Meets s) (owner : ObjectId)
    (method : String) (child : ObjectId) : t.Sound may s (addChild owner method child) :=
  sound_changeObject meets _ (fun _ => rfl) (fun known => known)
    ((meets.object owner).withOther rfl rfl rfl)

variable {owner : ObjectId} {e : Element}

theorem runs_createMapper (meets : t.Meets s) (present : owner < s.world.objects.length)
    (unmixed : t.mixes = true ∨ e.isMixed = false)
    (nests : t.mixes = true ∨ (s.element owner).nestsMapper = true) :
    t.Runs t.tolerates s (createMapper owner) fun s' child => t.Owes s' child e := by
  unfold createMapper
  apply Runs.look sees_object meets
  rintro o rfl
  apply Runs.get rfl
  extract_lets make
  split
  · exact Runs.throw_bind rfl meets
  · apply (sound_instantiate meets (meets.kinds.isOrdinary_get _) _ unmixed).bind
    rintro s₁ child step meets ⟨there, made, _⟩
    have nested : t.mixes = true ∨ (s₁.element owner).nestsMapper = true ∨
        s₁.world.isA child Standard.mapper = false := by
      rw [step.element owner present]
      exact nests.imp_right .inl
    have weakened : t.MeetsBut (· = child) s₁ := meets.weaken
    apply (runs_addPart weakened there (.inl rfl) nested).bind
    intro s₂ _ further owing
    apply Runs.pure
    refine ⟨owing, Nat.lt_of_lt_of_le there further.objects_le, ?_⟩
    rw [further.element child there, made]

theorem sees_methodOf {may : Fault → Bool} (meets : t.Meets s) (method : String) :
    t.Sees may s (methodOf id method) fun found =>
      ∀ k member, found = some (k, member) → member.isOrdinary method = true :=
  .observe rfl fun _ _ stands => meets.kinds.isOrdinary_of_member? stands

theorem runs_createBy (meets : t.Meets s) (present : owner < s.world.objects.length)
    (unmixed : t.mixes = true ∨ e.isMixed = false) (project : ProjectId) (method : String)
    (nests : method = "create_mapper" →
      t.mixes = true ∨ (s.element owner).nestsMapper = true) :
    t.Runs t.tolerates s (createBy project owner method) fun s' made =>
      match made with
      | none => t.Meets s'
      | some child => t.Owes s' child e := by
  unfold createBy
  apply Runs.look (sees_methodOf meets method) meets
  intro found ordinary
  split
  · rename_i k element
    have fair := ordinary _ _ rfl
    simp only [Member.isOrdinary, Bool.and_eq_true, Option.isNone_iff_eq_none] at fair
    obtain ⟨⟨⟨unrefused, making⟩, _⟩, _⟩ := fair
    split
    · rename_i complaint refused
      cases unrefused.symm.trans refused
    · exact Runs.pure meets
    · rename_i kind _ creates
      have called : method = "create_mapper" := by simpa [creates] using making
      split
      · apply (runs_createMapper meets present unmixed (nests called)).bind
        intro s' child _ owes
        exact Runs.pure owes
      · apply Runs.look (.observed rfl) meets
        rintro k' rfl
        apply (sound_instantiate meets (meets.kinds.isOrdinary_get _) project unmixed).bind
        rintro s₁ child _ meets ⟨there, made, _⟩
        apply (sound_addChild meets owner method child).bind
        intro s₂ _ further meets _
        apply Runs.pure
        refine ⟨meets.weaken, Nat.lt_of_lt_of_le there further.objects_le, ?_⟩
        rw [further.element child there, made]
  · exact Runs.pure meets

/-- A child that is made owes its place, and if it still has to be given to its owner it is no
mapper. -/
theorem runs_makeChild (meets : t.Meets s) (present : owner < s.world.objects.length)
    (unmixed : t.mixes = true ∨ e.isMixed = false) (project : ProjectId) {factory : ChildFactory}
    (ordinary : factory.IsOrdinary) (described : String)
    (nests : factory.name = "mapper" → t.mixes = true ∨ (s.element owner).nestsMapper = true) :
    t.Runs t.tolerates s (makeChild project owner factory described name) fun s' child =>
      t.Owes s' child e ∧
        (factory.origin = .adder → s'.world.isA child Standard.mapper = false) := by
  unfold makeChild
  split
  · rename_i kind adds given
    obtain ⟨_, same, other⟩ := ordinary.given adds
    cases given.symm.trans same
    apply Runs.look (.observed rfl) meets
    rintro k rfl
    apply (sound_instantiate meets (meets.kinds.isOrdinary_get _) project unmixed).imp _
      fun _ allowed => allowed
    rintro s' child step ⟨meets, there, made, kept, _⟩
    refine ⟨⟨meets.weaken, there, made⟩, ?_⟩
    intro _
    have sort := step.isA (s.world.kinds.get kind).id .mapper (by decide)
    unfold World.isA World.kindOf
    rw [kept, sort, (Terms.MeetsBut.kinds ‹t.Meets s›).isA_get_id kind (by decide),
      (Terms.MeetsBut.kinds ‹t.Meets s›).isA_get kind (by decide), other]
  · rename_i alone
    apply (runs_createBy meets present unmixed project factory.method
      fun called => nests (ordinary.made called)).bind
    intro s' made step ends
    split
    · rename_i child
      apply Runs.pure
      refine ⟨ends, ?_⟩
      intro adds
      obtain ⟨kind, given, _⟩ := ordinary.given adds
      exact (alone kind adds given).elim
    · exact Runs.throw rfl ends

/-- A child that is given its place owes nothing any more. -/
theorem sound_placeChild {may : Fault → Bool} {child : ObjectId} (owes : t.Owes s child e)
    {location : Location} (known : t.known location = true) (owner : ObjectId) (name : String) :
    t.Sound may s (placeChild owner child name location) fun s' _ => t.Placed s' child := by
  have changes {s' : Stage φ} (meets : t.Meets s') (target : Option String) :
      t.Sound may s' (changeObject child fun o => { o with target }) :=
    sound_changeObject meets _ (fun _ => rfl) (fun known => known)
      ((meets.object child).withOther rfl rfl rfl)
  unfold placeChild
  apply Runs.get rfl
  split
  · rename_i component
    extract_lets place
    have there : t.known place = true := t.known_orElse _ _ (.inr known)
    let put := fun o : Object => { o with elementName := some (Text.lower name), location := place }
    apply Runs.bind (runs_changeObject owes.meets put (fun _ => rfl) (fun _ => there)
      ((owes.meets.object child).withOther rfl rfl rfl))
    rintro s' _ step ⟨owing, changed, _⟩
    have placed : t.Placed s' child := by
      refine ⟨Nat.lt_of_lt_of_le owes.present step.objects_le, ?_⟩
      intro _
      rw [changed owes.present]
      exact there
    have meets := owing.settle placed
    split
    · apply (changes meets _).imp _ fun _ allowed => allowed
      intro s'' _ further ends
      exact ⟨ends.1, placed.later further⟩
    · exact Runs.pure ⟨meets, placed⟩
  · rename_i plain
    have placed : t.Placed s child := ⟨owes.present, fun component => absurd component plain⟩
    exact Runs.pure ⟨owes.meets.settle placed, placed⟩

/-- A nested element that is taken by its owner. -/
structure Taken (t : Terms φ) (s : Stage φ) (owner : ObjectId) (e : Element) (h : ChildHandle) :
    Prop where
  owner : h.owner = owner
  placed : t.Placed s h.child
  element : s.element h.child = e
  loose : h.attached = false
  given : h.factory.origin = .adder → s.world.isA h.child Standard.mapper = false

theorem Taken.later {s' : Stage φ} {h : ChildHandle} (taken : t.Taken s owner e h)
    (step : t.Later s s') : t.Taken s' owner e h where
  owner := taken.owner
  placed := taken.placed.later step
  element := (step.element _ taken.placed.1).trans taken.element
  loose := taken.loose
  given adds := (step.isA_object taken.placed.1 (by decide)).trans (taken.given adds)

theorem sound_takeChild (meets : t.Meets s) (present : owner < s.world.objects.length)
    (unmixed : t.mixes = true ∨ e.isMixed = false) (project : ProjectId) {location : Location}
    (known : t.known location = true)
    (nests : normalizeName name = "mapper" →
      t.mixes = true ∨ (s.element owner).nestsMapper = true) :
    t.Sound t.allows s (takeChild project owner name location) fun s' h => t.Taken s' owner e h := by
  unfold takeChild
  apply Runs.look (.locating known (sees_signatureOf fun _ => rfl)) meets
  intro signature signed
  apply Runs.look sees_describe meets
  intro described _
  split
  · exact Runs.throw (t.allows_faultAt known _) meets
  · rename_i factory found
    obtain ⟨called, ordinary⟩ := Signature.ordinary_of_element? meets.kinds signed found
    apply Runs.bind (Runs.locating known (runs_makeChild meets present unmixed project ordinary
      described fun mapper => nests (called.symm.trans mapper)))
    rintro s₁ child _ ⟨owes, given⟩
    apply (sound_placeChild owes known owner name).bind
    intro s₂ _ step meets placed
    apply Runs.pure
    refine ⟨meets, rfl, placed, ?_, rfl, ?_⟩
    · rw [step.element child owes.present, owes.element]
    · intro adds
      rw [step.isA_object owes.present (by decide), given adds]

/-- No owner refuses what it is given. -/
theorem sound_attach (meets : t.Meets s) {h : ChildHandle} (taken : t.Taken s owner e h) :
    t.Sound t.allows s (attach h) := by
  unfold attach
  rw [taken.loose]
  extract_lets take
  rw [if_neg Bool.false_ne_true]
  unfold take
  split
  · rename_i adds
    apply Runs.look (sees_methodOf meets _) meets
    intro found ordinary
    split
    · rename_i k element
      have fair := ordinary _ _ rfl
      simp only [Member.isOrdinary, Bool.and_eq_true, Option.isNone_iff_eq_none] at fair
      split
      · rename_i complaint refused
        cases fair.1.1.1.symm.trans refused
      · apply (runs_addPart meets taken.placed.1 (.inr taken.placed)
          (.inr (.inr (taken.given adds)))).imp _ fun _ allowed => allowed
        exact fun _ _ _ still => ⟨still, trivial⟩
      · exact sound_addChild meets _ _ _
    · exact Runs.pure ⟨meets, trivial⟩
  · exact Runs.pure ⟨meets, trivial⟩

end Nesting

/-! Whole elements. -/

section Elements

theorem sound_bindText (meets : t.Meets s) {location : Location}
    (known : t.known location = true) (text : String) :
    t.Sound t.allows s (bindText id text location) := by
  unfold bindText
  split
  · exact Runs.pure ⟨meets, trivial⟩
  apply Runs.look (.locating known (sees_signatureOf fun _ => rfl)) meets
  intro signature _
  split
  · apply Runs.look sees_describe meets
    intro owner _
    exact Runs.throw (t.allows_faultAt known _) meets
  · apply Runs.locating known
    apply Runs.look (sees_methodOf meets _) meets
    intro found _
    split
    · split
      · exact Runs.throw rfl meets
      · apply Runs.look ((Sees.consultAgreed (agreed_readText s id "message")).imp
          (fun _ read => read) t.tolerates_of_allows) meets
        intro before _
        apply Runs.tolerated
        apply sound_setField meets
        · exact fun path => absurd path (by decide)
        · exact fun same => absurd same (by decide)
      · exact sound_changeObject meets _ (fun _ => rfl) (fun known => known)
          ((meets.object id).withOther rfl rfl rfl)
    · exact Runs.pure ⟨meets, trivial⟩

variable {e : Element}

/-- The object of an element has the place of the element. -/
theorem sound_create (meets : t.Meets s) (welcome : t.Welcomes e) (project : ProjectId)
    (target : Option String) :
    t.Sound t.allows s (create project e target) fun s' id =>
      t.Placed s' id ∧ s'.element id = e ∧ s'.world.projects = s.world.projects := by
  obtain ⟨known, unmixed⟩ := welcome.own
  unfold create
  apply Runs.look (.observed rfl) meets
  rintro found -
  split
  · exact Runs.throw (t.allows_faultAt known _) meets
  · rename_i kind
    apply Runs.look (.observed rfl) meets
    rintro k rfl
    have makes := sound_instantiate meets (meets.kinds.isOrdinary_get kind) project unmixed
    have signs : t.Sees t.tolerates s (consult fun w =>
        (Signature.ofKind w.kinds (s.world.kinds.get kind)).mapError Problem.fault) :=
      .consult rfl (.mapError (fun _ => rfl) _)
    apply Sound.bind (Runs.locating known (Runs.look signs meets fun _ _ => makes))
    · rintro s' id step meets' ⟨present, made, kept, projects⟩
      have sort : (s'.world.kindOf id).isComponent = (s.world.kinds.get kind).isComponent := by
        have same := step.isA (s.world.kinds.get kind).id .component (by decide)
        unfold World.kindOf
        rw [kept]
        exact same.trans (meets.kinds.isA_get_id kind (by decide))
      split
      · let put := fun o : Object =>
          { o with elementName := some (Text.lower e.tag), location := e.location, target }
        apply Runs.bind (runs_changeObject meets' put (fun _ => rfl) (fun _ => known)
          ((meets'.object id).withOther rfl rfl rfl))
        rintro s'' _ further ⟨meets'', changed, same⟩
        apply Runs.pure
        refine ⟨meets'', ⟨Nat.lt_of_lt_of_le present further.objects_le, fun _ => ?_⟩, ?_, ?_⟩
        · rw [changed present]
          exact known
        · rw [further.element id present, made]
        · rw [same, projects]
      · rename_i plain
        apply Runs.pure
        refine ⟨meets', ⟨present, fun component => ?_⟩, made, projects⟩
        exact absurd (sort ▸ component) plain

theorem sound_registerId {may : Fault → Bool} (meets : t.Meets s) (project : ProjectId)
    (placed : t.Placed s id) : t.Sound may s (registerId project e id) := by
  unfold registerId
  split
  · exact Runs.pure ⟨meets, trivial⟩
  · apply Runs.look (sees_project project) meets
    intro p _
    exact sound_register meets project _ placed

theorem sound_bindReference (meets : t.Meets s) (known : t.known e.location = true)
    (project : ProjectId) (refid : String) (attributes : List (String × String)) :
    t.Sound t.allows s (bindReference project e id refid attributes) := by
  unfold bindReference
  apply Runs.look sees_object meets
  rintro o rfl
  extract_lets place refer withoutElements
  have there : t.known place = true := t.known_orElse _ _ (.inr known)
  have refuses (problem : Problem) (next : PUnit → Engine φ Unit) :
      t.Sound t.allows s ((throw (problem.faultAt place) : Engine φ PUnit) >>= next) :=
    Runs.throw_bind (t.allows_faultAt there problem) meets
  split
  · exact refuses _ _
  unfold withoutElements
  split
  · exact refuses _ _
  unfold refer
  have before := meets.object id
  let turn := fun o : Object => { o with reference := some ⟨project, refid, e.location⟩ }
  apply (sound_changeObject meets turn (fun _ => rfl) (fun known => known) ?_).bind
  · intro s' _ _ meets _
    apply Runs.look (.consultAgreed (agreed_target meets id)) meets
    intro _ _
    exact Runs.pure ⟨meets, trivial⟩
  · refine ⟨before.parts, ?_, before.paths, before.unmixed, before.source, before.mapper⟩
    rintro r ⟨⟩
    exact known

mutual

/-- Configuring an object from the element that it was made from is sound. -/
theorem sound_configure (project : ProjectId) : ∀ (e : Element) {s : Stage φ} {id : ObjectId},
    t.Meets s → t.Welcomes e → t.Placed s id → s.element id = e →
      t.Sound t.allows s (configure project id e)
  | ⟨tag, attributes, children, text, location⟩, s, id, meets, welcome, placed, made => by
    obtain ⟨known, _⟩ := welcome.own
    unfold configure
    extract_lets e
    apply (sound_registerId meets project placed).bind
    intro s₁ _ step₁ meets₁ _
    apply Runs.look (sees_project project) meets₁
    intro p _
    extract_lets properties resolved
    apply Runs.look (.observed rfl) meets₁
    intro isDataType _
    have made₁ : s₁.element id = e := (step₁.element id placed.1).trans made
    have placed₁ := placed.later step₁
    have given (some : giveSource resolved = true) :
        t.mixes = true ∨ (s₁.element id).givesSource = true := by
      refine .inr ?_
      rw [made₁]
      simpa [giveSource, resolved, Element.givesSource, e, Function.comp_def] using some
    split
    · exact sound_bindReference meets₁ known project _ resolved
    · apply (sound_bindAttributes meets₁ known project resolved given placed₁.1).bind
      intro s₂ _ step₂ meets₂ _
      have made₂ : s₂.element id = e := (step₂.element id placed₁.1).trans made₁
      have nests : ∀ child ∈ children, normalizeName child.tag = "mapper" →
          t.mixes = true ∨ (s₂.element id).nestsMapper = true := by
        intro child member called
        refine .inr ?_
        rw [made₂]
        exact List.any_eq_true.mpr ⟨child, member, by simp [called]⟩
      apply (sound_configureChildren project children meets₂ welcome.nested
        (placed₁.later step₂).1 nests).bind
      intro s₃ _ _ meets₃ _
      split
      · apply Runs.look (sees_project project) meets₃
        intro p _
        exact sound_bindText meets₃ known _
      · exact Runs.pure ⟨meets₃, trivial⟩

theorem sound_configureChildren (project : ProjectId) : ∀ (children : List Element) {s : Stage φ}
    {owner : ObjectId}, t.Meets s → (∀ child ∈ children, t.Welcomes child) →
      owner < s.world.objects.length →
      (∀ child ∈ children, normalizeName child.tag = "mapper" →
        t.mixes = true ∨ (s.element owner).nestsMapper = true) →
      t.Sound t.allows s (configureChildren project owner children)
  | [], s, owner, meets, _, _, _ => by
    unfold configureChildren
    exact Runs.pure ⟨meets, trivial⟩
  | e :: rest, s, owner, meets, welcome, present, nests => by
    have first := welcome e List.mem_cons_self
    unfold configureChildren
    apply (sound_takeChild meets present first.own.2 project first.own.1
      (nests e List.mem_cons_self)).bind
    intro s₁ handle step₁ meets₁ taken
    apply (sound_configure project e meets₁ first taken.placed taken.element).bind
    intro s₂ _ step₂ meets₂ _
    apply (sound_attach meets₂ (taken.later step₂)).bind
    intro s₃ _ step₃ meets₃ _
    have step := (step₁.trans step₂).trans step₃
    apply sound_configureChildren project rest meets₃
    · exact fun child later => welcome child (List.mem_cons_of_mem _ later)
    · exact Nat.lt_of_lt_of_le present step.objects_le
    · rw [step.element owner present]
      exact fun child later => nests child (List.mem_cons_of_mem _ later)

end

end Elements

end Terms
end BuildEngine
