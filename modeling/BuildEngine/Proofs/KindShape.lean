import BuildEngine.Kind.Catalogue
import BuildEngine.Proofs.Completeness

/-! The kinds that a build knows: the standard ones, and those of classes about which nothing is
known. All that their objects hold as paths are paths, none of their attributes listens to a slot,
none of their methods refuses a child, and mappers are nested in one way only. -/

namespace BuildEngine

/-- Whether an identity is that of a standard kind. -/
def KindId.isStandard : KindId → Bool
  | .standard _ => true
  | .declared _ => false

/-- The attributes that hold paths. -/
def pathFields : List String := ["file", "dir", "listfile", "srcfile", "targetfile", "location_"]

/-- Whether an attribute does not listen to slots and, if it is one of those that hold paths, takes
nothing else and starts without a value. -/
def Attribute.isOrdinary (a : Attribute) : Bool :=
  !a.listening &&
    (!pathFields.contains a.name || (a.initial.isNone && match a.accepted with
      | [.path] => true
      | _ => false))

/-- The kind of the children that a method is given, if it says so. -/
def NestedElement.givenKind? (e : NestedElement) : Option KindId :=
  match e.parameters with
  | (_, .known hint) :: _ => hint.single?.bind ValueType.constructible?
  | _ => none

/-- Whether a method refuses no child, and takes mappers only if it is the one that makes them. -/
def Member.isOrdinary (method : String) : Member → Bool
  | .nested e =>
    e.refusal.isNone && (e.creates.isNone || method == "create_mapper") &&
      (method != "create_mapper" || (e.name == some "mapper" && e.parameters.isEmpty)) &&
      e.givenKind?.all fun id => !(Kinds.standard.get id).isA Standard.mapper
  | _ => true

namespace Kind

/-- Whether all attributes and members of a kind are ordinary, and each attribute stands under its
own name. -/
def isOrdinary (k : Kind) : Bool :=
  (k.attributes.entries.all fun entry => entry.1 == entry.2.name && entry.2.isOrdinary) &&
    k.declaration.members.all fun entry => entry.2.isOrdinary entry.1

/-- A kind about which nothing is known but that its objects are objects. -/
structure IsBare (k : Kind) : Prop where
  declared : ∃ index, k.id = .declared index
  order : k.order = [k.id, Standard.object]
  attributes : k.attributes.entries = []
  members : k.declaration.members = []

end Kind

namespace Kinds

/-- The standard kinds are known, and apart from them only kinds about which nothing is known. -/
def IsExtended (ks : Kinds) : Prop :=
  ∃ more, ks.all = standard.all ++ more ∧ ∀ k ∈ more, k.IsBare

/-- What is seen of the standard kinds by going through them: they are ordinary, all are there and
no others, what is derived from a component is one, and objects are derived from nothing. -/
theorem standard_seen : standard.all.all Kind.isOrdinary = true ∧
    (standard.all.all fun k => k.id.isStandard) = true ∧
    (StandardKinds.inOrder.all fun s => (standard.find? s).isSome) = true ∧
    (StandardKinds.inOrder.all fun s => StandardKinds.inOrder.all fun t =>
      !((standard.get s).isA t && (standard.get t).isComponent) ||
        (standard.get s).isComponent) = true ∧
    (standard.get Standard.object).order = [.standard .object] := by
  decide +kernel

theorem standard_areOrdinary : standard.all.all Kind.isOrdinary = true := standard_seen.1

theorem standard_order_object : (standard.get Standard.object).order = [.standard .object] :=
  standard_seen.2.2.2.2

theorem standard_isSome_find? (s : Standard) : (standard.find? s).isSome = true :=
  List.all_eq_true.mp standard_seen.2.2.1 s (StandardKinds.mem_inOrder s)

theorem standard_find?_declared (index : Nat) : standard.find? (.declared index) = none := by
  apply List.find?_eq_none.mpr
  intro k member same
  have fixed := List.all_eq_true.mp standard_seen.2.1 k member
  rw [eq_of_beq same] at fixed
  cases fixed

theorem standard_get_declared (index : Nat) : standard.get (.declared index) = default := by
  rw [get, standard_find?_declared]
  rfl

@[simp] theorem isA_default (id : KindId) : (default : Kind).isA id = false := rfl

/-- A standard kind that is derived from a component is one. -/
theorem standard_isComponent {s t : Standard} (derived : (standard.get s).isA t = true)
    (component : (standard.get t).isComponent = true) :
    (standard.get s).isComponent = true := by
  obtain ⟨-, -, -, all, -⟩ := standard_seen
  have holds := List.all_eq_true.mp (List.all_eq_true.mp all s (StandardKinds.mem_inOrder s)) t
    (StandardKinds.mem_inOrder t)
  simpa [derived, component] using holds

variable {ks : Kinds}

theorem id_of_find? {id : KindId} {k : Kind} (found : ks.find? id = some k) : k.id = id := by
  have selected := List.find?_some found
  exact eq_of_beq selected

/-- A member of a kind is an attribute of a kind that is known, or declared by one. -/
theorem mem_of_member? {k found : Kind} {name : String} {member : Member}
    (stands : ks.member? k name = some (found, member)) :
    found ∈ ks.all ∧ (member = .plain ∨ (name, member) ∈ found.declaration.members) := by
  obtain ⟨ancestor, inherited, own⟩ := List.exists_of_findSome?_eq_some stands
  obtain ⟨id, _, known⟩ := List.mem_filterMap.mp inherited
  obtain ⟨m, listed, same⟩ := Option.map_eq_some_iff.mp own
  cases same
  refine ⟨List.mem_of_find?_eq_some known, ?_⟩
  unfold ownMember? at listed
  split at listed
  · cases listed
    exact .inl rfl
  · obtain ⟨entry, present, rfl⟩ := Option.map_eq_some_iff.mp listed
    have named : entry.1 = name := by
      have selected := List.find?_some present
      exact eq_of_beq selected
    exact .inr (named ▸ List.mem_of_find?_eq_some present)

/-- Declaring a class about which nothing is known adds a kind of that sort, where objects are
derived from nothing. -/
theorem declare_bare (order : (ks.get Standard.object).order = [.standard .object])
    {d : Declaration} (bases : d.bases = [.standard .object]) (members : d.members = []) {k : Kind}
    {more : Kinds} (declared : ks.declare d = .ok (k, more)) :
    more.all = ks.all ++ [k] ∧ k.IsBare := by
  unfold Kinds.declare make at declared
  rw [bases, List.map_singleton, order] at declared
  have last : linearise? (KindId.declared ks.nextIndex) [.standard .object]
      [[.standard .object]] = some [.declared ks.nextIndex, .standard .object] := rfl
  rw [last] at declared
  cases declared
  exact ⟨rfl, ⟨_, rfl⟩, rfl, rfl, members⟩

/-- What a build may learn about kinds: nothing, or that there is a class about which nothing is
known. -/
def Learns (ks more : Kinds) : Prop :=
  more = ks ∨ ∃ d k, d.bases = [.standard .object] ∧ d.members = [] ∧
    ks.declare d = .ok (k, more)

namespace IsExtended

theorem standard : Kinds.standard.IsExtended := ⟨[], by simp, nofun⟩

theorem find?_standard (extended : ks.IsExtended) (s : Standard) :
    ks.find? s = Kinds.standard.find? s := by
  obtain ⟨more, all, _⟩ := extended
  obtain ⟨k, found⟩ := Option.isSome_iff_exists.mp (standard_isSome_find? s)
  unfold find? at found ⊢
  rw [all, List.find?_append, found]
  rfl

theorem get_standard (extended : ks.IsExtended) (s : Standard) :
    ks.get s = Kinds.standard.get s := by
  rw [get, extended.find?_standard, get]

/-- A kind that is no standard one is one about which nothing is known. -/
theorem isBare_of_find? (extended : ks.IsExtended) {index : Nat} {k : Kind}
    (found : ks.find? (.declared index) = some k) : k.IsBare := by
  obtain ⟨more, all, bare⟩ := extended
  have absent := standard_find?_declared index
  unfold find? at found absent
  rw [all, List.find?_append, absent, Option.none_or] at found
  exact bare k (List.mem_of_find?_eq_some found)

/-- What a kind is derived from, apart from objects, does not depend on the kinds about which
nothing is known. -/
theorem isA_get (extended : ks.IsExtended) (id : KindId) {s : Standard} (proper : s ≠ .object) :
    (ks.get id).isA s = (Kinds.standard.get id).isA s := by
  cases id with
  | standard t => rw [extended.get_standard]
  | declared index =>
    rw [standard_get_declared, isA_default]
    cases found : ks.find? (.declared index) with
    | none => rw [get, found, Option.getD_none, isA_default]
    | some k =>
      have bare := extended.isBare_of_find? found
      obtain ⟨index, declared⟩ := bare.declared
      rw [get, found, Option.getD_some, Kind.isA, bare.order, declared]
      simp [proper]

theorem isComponent_get (extended : ks.IsExtended) (id : KindId) :
    (ks.get id).isComponent = (Kinds.standard.get id).isComponent :=
  extended.isA_get id (by decide)

/-- What is derived from a component is one. -/
theorem isComponent_of_isA (extended : ks.IsExtended) {id base : KindId}
    (derived : (ks.get id).isA base = true) (component : (ks.get base).isComponent = true) :
    (ks.get id).isComponent = true := by
  rw [extended.isComponent_get] at component ⊢
  cases base with
  | declared index =>
    simp [standard_get_declared, Kind.isComponent] at component
  | standard t =>
    have proper : t ≠ .object := by
      rintro rfl
      simp [Kind.isComponent, Kind.isA, standard_order_object] at component
    rw [extended.isA_get id proper] at derived
    cases id with
    | standard s => exact standard_isComponent derived component
    | declared index =>
      simp [standard_get_declared] at derived

/-- Every kind stands under its own name; where there is none, objects stand in. -/
theorem isA_get_id (extended : ks.IsExtended) (id : KindId) {s : Standard} (proper : s ≠ .object) :
    (ks.get (ks.get id).id).isA s = (ks.get id).isA s := by
  cases found : ks.find? id with
  | some k =>
    have present : ks.get id = k := by rw [get, found]; rfl
    rw [present, id_of_find? found, present]
  | none =>
    have absent : ks.get id = default := by rw [get, found]; rfl
    rw [absent, isA_default, show (default : Kind).id = .standard .object from rfl,
      extended.get_standard]
    simp [Kind.isA, standard_order_object, proper]

theorem isOrdinary_of_mem (extended : ks.IsExtended) {k : Kind} (member : k ∈ ks.all) :
    k.isOrdinary = true := by
  obtain ⟨more, all, bare⟩ := extended
  rw [all] at member
  rcases List.mem_append.mp member with fixed | added
  · exact List.all_eq_true.mp standard_areOrdinary k fixed
  · simp [Kind.isOrdinary, (bare k added).attributes, (bare k added).members]

theorem isOrdinary_get (extended : ks.IsExtended) (id : KindId) :
    (ks.get id).isOrdinary = true := by
  unfold get
  cases found : ks.find? id with
  | none => rfl
  | some k => exact extended.isOrdinary_of_mem (List.mem_of_find?_eq_some found)

/-- A member of a kind is an ordinary one. -/
theorem isOrdinary_of_member? (extended : ks.IsExtended) {k found : Kind} {name : String}
    {member : Member} (stands : ks.member? k name = some (found, member)) :
    member.isOrdinary name = true := by
  obtain ⟨known, rfl | listed⟩ := mem_of_member? stands
  · rfl
  · have ordinary := extended.isOrdinary_of_mem known
    rw [Kind.isOrdinary, Bool.and_eq_true] at ordinary
    exact List.all_eq_true.mp ordinary.2 _ listed

/-- Only standard kinds say what their objects do as tasks. -/
theorem standard_of_performer? (extended : ks.IsExtended) {k found : Kind}
    (performs : ks.performer? k = some found) : ∃ s, found.id = .standard s := by
  obtain ⟨both, member, rfl⟩ := Option.map_eq_some_iff.mp performs
  obtain ⟨ancestor, inherited, own⟩ := List.exists_of_findSome?_eq_some member
  obtain ⟨id, _, known⟩ := List.mem_filterMap.mp inherited
  obtain ⟨m, listed, rfl⟩ := Option.map_eq_some_iff.mp own
  cases id with
  | standard s => exact ⟨s, id_of_find? known⟩
  | declared index =>
    have bare := extended.isBare_of_find? known
    simp [ownMember?, Table.contains, Table.find?, bare.attributes, bare.members,
      Table.findIn] at listed

/-- Declaring a class about which nothing is known adds a kind of that sort. -/
theorem declare (extended : ks.IsExtended) {d : Declaration} (bases : d.bases = [.standard .object])
    (members : d.members = []) {k : Kind} {more : Kinds}
    (declared : ks.declare d = .ok (k, more)) : more.IsExtended := by
  have order : (ks.get Standard.object).order = [.standard .object] := by
    rw [extended.get_standard, standard_order_object]
  obtain ⟨all, new⟩ := declare_bare order bases members declared
  obtain ⟨added, old, bare⟩ := extended
  refine ⟨added ++ [k], by rw [all, old, List.append_assoc], ?_⟩
  intro kind member
  rcases List.mem_append.mp member with old | last
  · exact bare kind old
  · exact List.mem_singleton.mp last ▸ new

end IsExtended
end Kinds

/-- Whether a nested element is given, and if so no mapper, or the method that makes it makes
mappers only for elements that are called so. -/
structure ChildFactory.IsOrdinary (f : ChildFactory) : Prop where
  given : f.origin = .adder → ∃ id, f.kind = some id ∧
    (Kinds.standard.get id).isA Standard.mapper = false
  made : f.method = "create_mapper" → f.name = "mapper"

namespace Signature

variable {ks : Kinds} {k ancestor : Kind}

/-- The attributes of a signature stand under their normal names. -/
theorem key_attributesOf {attributes : List Attribute} {found after : Table String Attribute}
    (keyed : ∀ entry ∈ found.entries, entry.1 = normalizeName entry.2.name)
    (listed : attributesOf k attributes found = .ok after) :
    ∀ entry ∈ after.entries, entry.1 = normalizeName entry.2.name := by
  induction attributes generalizing found with
  | nil =>
    cases listed
    exact keyed
  | cons a rest ih =>
    unfold attributesOf at listed
    extract_lets name at listed
    split at listed
    · cases listed
    split at listed
    · cases listed
    apply ih _ listed
    intro entry member
    rcases Table.mem_entries_put member with same | old
    · rw [same]
    · exact keyed entry old

/-- The attribute that a spelling of its name selects is one of the kind's. -/
theorem stored_of_attribute? {s : Signature} {name : String} {a : Attribute}
    (signed : ofKind ks k = .ok s) (found : s.attribute? name = some a) :
    ∃ key, (key, a) ∈ k.attributes.entries ∧ normalizeName a.name = normalizeName name := by
  unfold ofKind at signed
  split at signed
  · cases signed
  rename_i attributes listed
  have entry := Table.mem_entries_of_find? found
  rw [attributes_addAncestry signed] at entry
  have keyed := key_attributesOf (by simp [Table.empty]) listed _ entry
  have own := (mem_attributesOf listed entry).resolve_right List.not_mem_nil
  obtain ⟨⟨key, declared⟩, stored, same⟩ := List.mem_map.mp own
  cases same
  exact ⟨key, stored, keyed.symm⟩

/-- What a signature of a known kind says of an attribute is true of the kind. -/
theorem ordinary_of_attribute? {s : Signature} {name : String} {a : Attribute}
    (ordinary : k.isOrdinary = true) (signed : ofKind ks k = .ok s)
    (found : s.attribute? name = some a) :
    a.isOrdinary = true ∧ normalizeName a.name = normalizeName name := by
  obtain ⟨key, stored, named⟩ := stored_of_attribute? signed found
  rw [Kind.isOrdinary, Bool.and_eq_true] at ordinary
  have both := List.all_eq_true.mp ordinary.1 (key, a) stored
  rw [Bool.and_eq_true] at both
  exact ⟨both.2, named⟩

/-- How a method takes a nested element: it makes the object itself if it has no parameter, and
otherwise its only parameter names a kind whose objects can be made. -/
theorem factoryOf_cases {method : String} {e : NestedElement} {f : ChildFactory}
    (taken : factoryOf ks ancestor method e = .ok f) :
    f.name = normalizeName (e.name.getD (elementNameOf method)) ∧ f.method = method ∧
      (e.parameters = [] ∧ f.origin = .creator ∨
        ∃ parameter type id, e.parameters = [(parameter, .known (.type type))] ∧
          type.constructible? = some id ∧ ks.openMembers (ks.get id) = [] ∧
          (ks.construction? (ks.get id)).isSome = true ∧ f.origin = .adder ∧ f.kind = some id) := by
  unfold factoryOf at taken
  extract_lets name at taken
  split at taken
  · obtain rfl := Except.ok.inj taken
    exact ⟨rfl, rfl, .inl ⟨‹_›, rfl⟩⟩
  · rename_i parameter annotation more parameters
    split at taken
    · cases taken
    split at taken
    · cases taken
    rename_i alone
    split at taken
    case h_2 => cases taken
    rename_i hint
    split at taken
    · cases taken
    rename_i type single
    split at taken
    · cases taken
    rename_i id constructible
    extract_lets child at taken
    split at taken
    · simp at taken
    rename_i closed
    split at taken
    · simp at taken
    rename_i makes
    obtain rfl := Except.ok.inj taken
    have only : more = [] := by simpa using alone
    cases hint with
    | type t =>
      cases single
      refine ⟨rfl, rfl, .inr ⟨parameter, type, id, by rw [parameters, only], constructible, ?_, ?_,
        rfl, rfl⟩⟩
      · simpa using closed
      · simpa [Option.isSome_iff_ne_none] using makes
    | _ => cases single

/-- An ordinary method takes its nested element in an ordinary way. -/
theorem ordinary_of_factoryOf {method : String} {e : NestedElement} {f : ChildFactory}
    (ordinary : (Member.nested e).isOrdinary method = true)
    (taken : factoryOf ks ancestor method e = .ok f) : f.IsOrdinary := by
  simp only [Member.isOrdinary, Bool.and_eq_true] at ordinary
  obtain ⟨⟨_, making⟩, given⟩ := ordinary
  obtain ⟨named, same, made⟩ := factoryOf_cases taken
  rcases made with ⟨_, created⟩ | ⟨parameter, type, id, parameters, constructible, _, _, adds, kind⟩
  · refine ⟨fun adds => by simp [created] at adds, fun mapper => ?_⟩
    rw [same] at mapper
    subst mapper
    simp only [bne_self_eq_false, Bool.false_or, Bool.and_eq_true, beq_iff_eq] at making
    rw [named, making.1]
    decide
  · have known : e.givenKind? = some id := by
      simp [NestedElement.givenKind?, parameters, TypeHint.single?, constructible]
    refine ⟨fun _ => ⟨id, kind, by simpa [known] using given⟩, fun mapper => ?_⟩
    rw [same] at mapper
    subst mapper
    simp [parameters] at making

/-- The nested elements of a signature stand under their names, and all are taken in an ordinary
way. -/
def IsOrdinary (s : Signature) : Prop :=
  ∀ entry ∈ s.elements.entries, entry.1 = entry.2.name ∧ entry.2.IsOrdinary

theorem ordinary_addMembers {hidden : List String} {members : List (String × Member)}
    {s after : Signature} (before : s.IsOrdinary)
    (ordinary : ∀ entry ∈ members, entry.2.isOrdinary entry.1 = true)
    (added : addMembers ks k ancestor hidden members s = .ok after) : after.IsOrdinary := by
  induction members generalizing s with
  | nil =>
    cases added
    exact before
  | cons entry rest ih =>
    obtain ⟨name, member⟩ := entry
    obtain ⟨mid, added, -, adds⟩ := addMembers_cons added
    refine ih ?_ (fun entry later => ordinary entry (List.mem_cons_of_mem _ later)) added
    intro entry stands
    rcases adds with ⟨same, -⟩ | ⟨e, f, rfl, -, -, taken, -, put⟩
    · exact before entry (same ▸ stands)
    · rw [put] at stands
      rcases Table.mem_entries_put stands with same | old
      · rw [same]
        exact ⟨rfl, ordinary_of_factoryOf (ordinary _ List.mem_cons_self) taken⟩
      · exact before entry old

theorem ordinary_addAncestry {hidden : List String} {ancestry : List Kind} {s after : Signature}
    (before : s.IsOrdinary) (ordinary : ∀ ancestor ∈ ancestry, ancestor.isOrdinary = true)
    (added : addAncestry ks k hidden ancestry s = .ok after) : after.IsOrdinary := by
  induction ancestry generalizing hidden s with
  | nil =>
    cases added
    exact before
  | cons ancestor rest ih =>
    unfold addAncestry at added
    split at added
    · cases added
    rename_i more own
    have first := ordinary ancestor List.mem_cons_self
    rw [Kind.isOrdinary, Bool.and_eq_true] at first
    have between := ordinary_addMembers before (List.all_eq_true.mp first.2) own
    exact ih between (fun other later => ordinary other (List.mem_cons_of_mem _ later)) added

/-- Nested elements are taken by their normal names, and in an ordinary way. -/
theorem ordinary_of_element? {s : Signature} {name : String} {f : ChildFactory}
    (extended : ks.IsExtended) (signed : ofKind ks k = .ok s)
    (found : s.element? name = some f) : f.name = normalizeName name ∧ f.IsOrdinary := by
  unfold ofKind at signed
  split at signed
  · cases signed
  have known : ∀ ancestor ∈ ks.ancestry k, ancestor.isOrdinary = true := by
    intro ancestor inherited
    obtain ⟨id, _, stands⟩ := List.mem_filterMap.mp inherited
    exact extended.isOrdinary_of_mem (List.mem_of_find?_eq_some stands)
  have ordinary := ordinary_addAncestry (by simp [IsOrdinary, Table.empty]) known signed
  obtain ⟨key, taken⟩ := ordinary _ (Table.mem_entries_of_find? found)
  exact ⟨key.symm, taken⟩

end Signature
end BuildEngine
