import BuildEngine.Proofs.Resolution
import BuildEngine.Proofs.LikeReading
import BuildEngine.Proofs.Soundness

/-! What tasks read of a world that meets the terms of a build. No reading notices the change of the
files; what is wrong is said at a known place; and what is read as a path is one that the files may
be asked about. -/

namespace BuildEngine

open Engine

variable {φ : Type} {α β γ : Type}

/-- Two readings that agree, and end as wanted or with a fault that may be. -/
structure Agreed (may : Fault → Bool) (here there : Except Fault α)
    (wanted : α → Prop := fun _ => True) : Prop where
  same : there = here
  admissible : Admissible may here wanted

namespace Agreed

variable {may : Fault → Bool} {here there : Except Fault α} {wanted : α → Prop}
variable {later : β → Prop} {f g : α → Except Fault β}

theorem ok {a : α} (holds : wanted a) : Agreed may (.ok a) (.ok a) wanted := ⟨rfl, holds⟩

theorem error {fault : Fault} (allowed : may fault = true) :
    Agreed may (.error fault : Except Fault α) (.error fault) wanted := ⟨rfl, allowed⟩

theorem bind (first : Agreed may here there wanted)
    (rest : ∀ a, wanted a → Agreed may (f a) (g a) later) :
    Agreed may (here >>= f) (there >>= g) later := by
  obtain ⟨rfl, admissible⟩ := first
  cases there with
  | error fault => exact ⟨rfl, admissible⟩
  | ok a => exact rest a admissible

theorem map (change : α → β) (agreed : Agreed may here there wanted)
    (implies : ∀ a, wanted a → later (change a)) :
    Agreed may (here.map change) (there.map change) later := by
  obtain ⟨rfl, admissible⟩ := agreed
  cases there with
  | error fault => exact ⟨rfl, admissible⟩
  | ok a => exact ⟨rfl, implies a admissible⟩

/-- What becomes of what was read does not matter. -/
theorem mapped (change : α → β) (agreed : Agreed may here there wanted) :
    Agreed may (here.map change) (there.map change) :=
  agreed.map change fun _ _ => trivial

theorem mapM {P : β → Prop} (entries : List α)
    (each : ∀ a ∈ entries, Agreed may (f a) (g a) P) :
    Agreed may (entries.mapM f) (entries.mapM g) fun bs => ∀ b ∈ bs, P b := by
  induction entries with
  | nil => exact ok (by simp)
  | cons a rest ih =>
    rw [List.mapM_cons, List.mapM_cons]
    apply (each a List.mem_cons_self).bind
    intro b holds
    apply (ih fun a later => each a (List.mem_cons_of_mem _ later)).bind
    intro bs hold
    exact ok (List.forall_mem_cons.mpr ⟨holds, hold⟩)

end Agreed

namespace References

variable {aliasOf : ObjectId → Option String} {r : References ObjectId} {id : String}

/-- What a name leads to has a name itself. -/
theorem get?_of_resolve {last : ObjectId} (resolved : r.resolve aliasOf id = .ok last) :
    ∃ name, r.get? name = some last := by
  obtain ⟨via, leads⟩ := resolve_eq_ok_iff.mp resolved
  clear resolved
  induction leads with
  | here found _ => exact ⟨_, found⟩
  | there _ _ _ ih => exact ih

end References

namespace Terms

variable [FileSystem φ] {t : Terms φ} {may : Fault → Bool} {s : Stage φ}
variable {id : ObjectId} {name : String}

theorem Sees.consultAgreed {look : World φ → Except Fault α} {wanted : α → Prop}
    (agreed : Agreed may (look s.world) (look (t.turned s.world)) wanted) :
    t.Sees may s (Engine.consult look) wanted :=
  .consult agreed.same agreed.admissible

/-! The change of the files shows in nothing that objects and projects say of themselves. -/

section Turned

variable (w : World φ)

@[simp] theorem turned_object : (t.turned w).object id = w.object id := rfl

@[simp] theorem turned_project (project : ProjectId) :
    (t.turned w).project project = w.project project := rfl

@[simp] theorem turned_isA (kind : KindId) : (t.turned w).isA id kind = w.isA id kind := rfl

@[simp] theorem turned_isSet : (t.turned w).isSet id name = w.isSet id name := rfl

@[simp] theorem turned_describe : (t.turned w).describe id = w.describe id := rfl

@[simp] theorem turned_read : (t.turned w).read id name = w.read id name :=
  World.read_of_same (w := w) (u := t.turned w) rfl rfl rfl id name

end Turned

/-! Attributes. An attribute that holds nothing is the only one that is not read. -/

section Attributes

omit [FileSystem φ] in
theorem admissible_read (empties : ∀ owner field text, may (.empty owner field text) = true)
    (w : World φ) (id : ObjectId) (name : String) : Admissible may (w.read id name) := by
  unfold World.read
  split
  · trivial
  · next lack none =>
    cases lack with
    | empty supplier message cause =>
      unfold World.lackFault
      cases supplier <;> exact empties _ _ _
    | failed fault => exact absurd none (w.get_supplierOf _ _ _ _)

theorem agreed_read (s : Stage φ) (id : ObjectId) (name : String) :
    Agreed t.allows (s.world.read id name) ((t.turned s.world).read id name) :=
  ⟨turned_read s.world, admissible_read (fun _ _ _ => rfl) _ _ _⟩

theorem agreed_readText (s : Stage φ) (id : ObjectId) (name : String) :
    Agreed t.allows (s.world.readText id name) ((t.turned s.world).readText id name) :=
  (agreed_read s id name).mapped _

theorem agreed_readFlag (s : Stage φ) (id : ObjectId) (name : String) :
    Agreed t.allows (s.world.readFlag id name) ((t.turned s.world).readFlag id name) :=
  (agreed_read s id name).mapped _

/-- What is read under the name of a path is a path that the files may be asked about. -/
theorem agreed_readPath (meets : t.Meets s) (id : ObjectId) (path : name ∈ pathFields) :
    Agreed t.allows (s.world.readPath id name) ((t.turned s.world).readPath id name)
      fun p => t.fits p = true := by
  have holds := (meets.object id).paths name path
  have agreed := agreed_read (t := t) s id name
  unfold World.readPath
  cases found : (s.world.object id).fields.find? name with
  | none =>
    rw [turned_read, World.read_of_void (by rw [found]; rfl)]
    exact .error rfl
  | some source =>
    cases source with
    | void =>
      rw [turned_read, World.read_of_void (by rw [found]; rfl)]
      exact .error rfl
    | value v =>
      rw [turned_read, World.read_of_value found]
      cases v with
      | path p => exact .ok (holds _ found)
      | _ => exact (holds _ found).elim
    | _ => exact (holds _ found).elim

theorem sees_textOf : t.Sees t.allows s (textOf id name) :=
  .consultAgreed (agreed_readText s id name)

theorem sees_flagOf : t.Sees t.allows s (flagOf id name) :=
  .consultAgreed (agreed_readFlag s id name)

theorem sees_pathOf (meets : t.Meets s) (path : name ∈ pathFields) :
    t.Sees t.allows s (pathOf id name) fun p => t.fits p = true :=
  .consultAgreed (agreed_readPath meets id path)

theorem sees_readField : t.Sees t.allows s (readField id name) :=
  .consultAgreed (agreed_read s id name)

theorem sees_isSet :
    t.Sees may s (isSet id name) fun set => set = s.world.isSet id name :=
  .observe rfl rfl

theorem sees_object : t.Sees may s (object id) fun o => o = s.world.object id := .observe rfl rfl

theorem sees_project (project : ProjectId) :
    t.Sees may s (Engine.project project) fun p => p = s.world.project project := .observe rfl rfl

theorem sees_describe : t.Sees may s (observe fun w => w.describe id) := .observe rfl trivial

theorem sees_partsOf (kind : KindId) : t.Sees may s (partsOf id kind) fun parts =>
    parts = (s.world.object id).parts.filter fun part => s.world.isA part kind :=
  .observe rfl rfl

end Attributes

/-! Data types, and what they refer to. -/

section DataTypes

/-- An object of a kind whose objects have places is at a known one. -/
theorem Placed.located_of_isA (placed : t.Placed s id) (meets : t.Meets s) {kind : Standard}
    (derived : s.world.isA id kind = true)
    (component : (Kinds.standard.get kind).isComponent = true) : t.Located s id := by
  apply placed.located
  have known : (s.world.kinds.get kind).isComponent = true := by
    rwa [meets.kinds.isComponent_get]
  exact meets.kinds.isComponent_of_isA derived known

theorem isComponent_of_isA (meets : t.Meets s) {kind : Standard}
    (derived : s.world.isA id kind = true)
    (component : (Kinds.standard.get kind).isComponent = true) :
    (s.world.kindOf id).isComponent = true := by
  have known : (s.world.kinds.get kind).isComponent = true := by
    rwa [meets.kinds.isComponent_get]
  exact meets.kinds.isComponent_of_isA derived known

/-- What a data type at a known place stands for is a data type at a known place. -/
theorem agreed_target (meets : t.Meets s) (id : ObjectId) :
    Agreed t.allows (s.world.target id) ((t.turned s.world).target id) fun m =>
      (s.world.kindOf id).isComponent = true → t.Located s id →
        (s.world.kindOf m).isComponent = true ∧ t.Located s m := by
  refine ⟨rfl, ?_⟩
  unfold World.target
  split
  · exact fun component located => ⟨component, located⟩
  · rename_i r refers
    split
    · rename_i found leads
      intro component _
      cases resolved : s.world.resolve r.project r.id with
      | error error => cases (World.resolveAs_of_error resolved).symm.trans leads
      | ok last =>
        rw [World.resolveAs_of_ok resolved] at leads
        split at leads
        · rename_i derived
          cases leads
          obtain ⟨called, named⟩ := References.get?_of_resolve resolved
          have placed := (meets.project r.project).references called found named
          have sort : (s.world.kindOf found).isComponent = true :=
            meets.kinds.isComponent_of_isA derived component
          exact ⟨sort, placed.located sort⟩
        · cases leads
    · exact t.allows_faultAt ((meets.object id).reference r refers) _

variable (meets : t.Meets s) (located : t.Located s id)
  (component : (s.world.kindOf id).isComponent = true)
include meets located component

theorem agreed_listDirectory :
    Agreed t.allows (s.world.listDirectory id) ((t.turned s.world).listDirectory id)
      fun p => t.fits p = true := by
  unfold World.listDirectory
  apply (agreed_target meets id).bind
  intro list leads
  obtain ⟨_, there⟩ := leads component located
  rw [turned_isSet, turned_object]
  split
  · exact .error (t.allows_faultAt there.2 _)
  · exact agreed_readPath meets list (by decide)

omit meets located component in
theorem agreed_listedNames (there : t.Located s id) {path : Path} (fits : t.fits path = true) :
    Agreed t.allows (s.world.listedNames id path) ((t.turned s.world).listedNames id path) := by
  have files : FileSystem.read (t.turned s.world).files path =
      FileSystem.read s.world.files path := t.read_move _ path fits
  unfold World.listedNames
  simp only [files, turned_object, turned_project]
  cases FileSystem.read s.world.files path with
  | error error => exact .error (t.allows_faultAt there.2 _)
  | ok data =>
    refine ⟨rfl, ?_⟩
    have decodes : Admissible t.allows ((Text.decodeUtf8 data).mapError Fault.undecodable) :=
      .mapError (fun _ => rfl) _
    exact decodes.bind fun _ _ => trivial

theorem agreed_listFiles :
    Agreed t.allows (s.world.listFiles id) ((t.turned s.world).listFiles id) := by
  unfold World.listFiles
  apply (agreed_target meets id).bind
  intro list leads
  obtain ⟨sort, there⟩ := leads component located
  apply (agreed_listDirectory meets there sort).bind
  intro _ _
  rw [turned_isSet, turned_isSet, turned_object]
  extract_lets collect collect'
  have collected (given : List String) : Agreed t.allows (collect given) (collect' given) := by
    apply (Agreed.mapM _ fun part _ => agreed_readText s part "name_").bind
    intro nested _
    extract_lets check
    have checked (listed : List String) : Agreed t.allows (check listed) (check listed) := by
      unfold check
      extract_lets names
      split
      · exact .error (t.allows_faultAt there.2 _)
      · exact .ok trivial
    split
    · apply (agreed_readPath meets list (by decide)).bind
      intro path fits
      exact (agreed_listedNames there fits).bind fun listed _ => checked listed
    · exact checked []
  split
  · exact ((agreed_readText s list "files").mapped _).bind fun given _ => collected given
  · exact collected []

theorem agreed_mapper : Agreed t.allows (s.world.mapper id) ((t.turned s.world).mapper id) := by
  unfold World.mapper
  apply (agreed_target meets id).bind
  intro m leads
  obtain ⟨_, there⟩ := leads component located
  have wrong (problem : Problem) :
      t.allows (problem.faultAt (s.world.object m).location) = true :=
    t.allows_faultAt there.2 problem
  rw [turned_isSet, turned_isSet, turned_isSet, turned_object]
  extract_lets location typed typed'
  have types : Agreed t.allows (typed ()) (typed' ()) := by
    apply ((agreed_read s m "type_").mapped _).bind
    intro type _
    split
    · exact .ok trivial
    · exact .ok trivial
    extract_lets named named'
    have names : Agreed t.allows (named ()) (named' ()) := by
      apply (agreed_readText s m "to").bind
      intro derived _
      split
      · exact .ok trivial
      extract_lets made made'
      have makes : Agreed t.allows (made ()) (made' ()) := by
        apply (agreed_readText s m "from_").bind
        intro source _
        apply (agreed_readFlag s m "casesensitive").bind
        intro caseSensitive _
        exact ⟨rfl, .mapError wrong _⟩
      split
      · exact .error (wrong _)
      · exact makes
    split
    · exact .error (wrong _)
    · exact names
  split
  · exact .error (wrong _)
  · exact types

omit located component in
theorem agreed_ownLocations (id : ObjectId) :
    Agreed t.allows (s.world.ownLocations id) ((t.turned s.world).ownLocations id) := by
  unfold World.ownLocations
  rw [turned_isSet, turned_isSet, turned_object, turned_project]
  extract_lets project complete complete'
  have completes (single : List Path) :
      Agreed t.allows (complete single) (complete' single) := by
    unfold complete complete'
    split
    · exact (agreed_readText s id "path").bind fun _ _ => .ok trivial
    · exact .ok trivial
  split
  · exact ((agreed_readPath meets id (by decide)).mapped _).bind fun single _ => completes single
  · exact completes []

omit located component in
/-- The way in which a path comes to itself again is said at the place of one of its parts. -/
theorem agreed_locationsOf (levels : Nat) (passed : List ObjectId) (names : List String)
    (id : ObjectId) (within : passed = [] ∨ t.Located s id) :
    Agreed t.allows (s.world.locationsOf levels passed names id)
      ((t.turned s.world).locationsOf levels passed names id) := by
  induction levels generalizing passed names id with
  | zero => exact .ok trivial
  | succ levels ih =>
    unfold World.locationsOf
    apply (agreed_target meets id).bind
    intro path _
    extract_lets longer rest longer' rest'
    split
    · rename_i again
      refine .error (t.allows_faultAt ?_ _)
      rcases within with rfl | located
      · cases again
      · exact located.2
    · apply (agreed_ownLocations meets path).bind
      intro own _
      apply (Agreed.mapM (P := fun _ => True) _ ?_).bind fun _ _ => .ok trivial
      intro part member
      rw [turned_isA]
      split
      · rename_i derived
        have placed := meets.part member
        exact ih _ _ part (.inr (placed.located_of_isA meets derived (by decide +kernel)))
      · exact agreed_ownLocations meets part

omit located component in
theorem agreed_locations (id : ObjectId) :
    Agreed t.allows (s.world.locations id) ((t.turned s.world).locations id) :=
  (agreed_locationsOf meets _ [] [] id (.inl rfl)).mapped _

end DataTypes

end Terms
end BuildEngine
