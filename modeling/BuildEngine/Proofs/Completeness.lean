import BuildEngine.Binding.Signature

/-! Values that are complete in themselves, and kinds whose declarations hold no others: such a
kind means the same in every world, whatever objects and projects there are. The standard kinds are
of that sort, declaring a class about which nothing is known adds one more, and a signature says
nothing else of the attributes of such a kind. -/

namespace BuildEngine

namespace Value

mutual

/-- Whether a value is complete in itself: no object and no project is part of it. -/
def isComplete : Value → Bool
  | list items => areComplete items
  | record fields => fieldsAreComplete fields
  | member _ _ v => isComplete v
  | reference _ | object _ => false
  | _ => true

/-- Whether all values of a list are complete in themselves. -/
def areComplete : List Value → Bool
  | [] => true
  | v :: rest => isComplete v && areComplete rest

/-- Whether all fields of a record are complete in themselves. -/
def fieldsAreComplete : List (String × Value) → Bool
  | [] => true
  | (_, v) :: rest => isComplete v && fieldsAreComplete rest

end

variable {f g : ObjectId → String}

mutual

/-- How objects are shown makes no difference to a value that is complete in itself. -/
theorem quoted_of_isComplete : ∀ v : Value, v.isComplete = true → v.quoted f = v.quoted g
  | nothing, _ | text _, _ | flag _, _ | int _, _ | real _, _ | path _, _ | moment _ _ _, _ => rfl
  | list items, complete => by
    simp only [quoted, quotedItems_of_areComplete items (by simpa [isComplete] using complete)]
  | record fields, complete => by
    simp only [quoted, quotedFields_of_areComplete fields (by simpa [isComplete] using complete)]
  | member _ _ v, complete => by
    simp only [quoted, quoted_of_isComplete v (by simpa [isComplete] using complete)]
  | reference _, complete | object _, complete => by cases complete

theorem quotedItems_of_areComplete :
    ∀ vs : List Value, areComplete vs = true → quotedItems f vs = quotedItems g vs
  | [], _ => rfl
  | [v], complete => by
    simp only [areComplete, Bool.and_eq_true] at complete
    simp only [quotedItems, quoted_of_isComplete v complete.1]
  | v :: u :: rest, complete => by
    rw [areComplete, Bool.and_eq_true] at complete
    simp only [quotedItems, quoted_of_isComplete v complete.1,
      quotedItems_of_areComplete (u :: rest) complete.2]

theorem quotedFields_of_areComplete :
    ∀ fields : List (String × Value), fieldsAreComplete fields = true →
      quotedFields f fields = quotedFields g fields
  | [], _ => rfl
  | [(_, v)], complete => by
    simp only [fieldsAreComplete, Bool.and_eq_true] at complete
    simp only [quotedFields, quoted_of_isComplete v complete.1]
  | (_, v) :: next :: rest, complete => by
    rw [fieldsAreComplete, Bool.and_eq_true] at complete
    simp only [quotedFields, quoted_of_isComplete v complete.1,
      quotedFields_of_areComplete (next :: rest) complete.2]

end

/-- How objects are shown makes no difference to the text of a value that is complete in itself. -/
theorem display_of_isComplete {v : Value} (complete : v.isComplete = true) :
    v.display f = v.display g := by
  cases v <;> first | rfl | exact quoted_of_isComplete _ complete

theorem meant_of_isComplete {v : Value} (complete : v.isComplete = true) :
    v.meant f = v.meant g := by
  have shown := display_of_isComplete (f := f) (g := g) complete
  cases v with
  | member _ _ value =>
    exact display_of_isComplete (v := value) (by simpa [isComplete] using complete)
  | _ => exact shown

theorem typeName_of_isComplete {v : Value} (complete : v.isComplete = true) :
    v.typeName f = v.typeName g := by
  cases v <;> first | rfl | cases complete

end Value

/-- Whether all values of a type that are named in it are complete in themselves. -/
def ValueType.isComplete : ValueType → Bool
  | enumeration e => e.members.all fun entry => entry.2.isComplete
  | _ => true

/-- Whether the values in the declaration of an attribute are complete in themselves. -/
def Attribute.isComplete (a : Attribute) : Bool :=
  a.initial.all Value.isComplete && a.accepted.all ValueType.isComplete

/-- Whether the value that an action writes is complete in itself. -/
def Action.isComplete : Action → Bool
  | writeSlot _ value => value.isComplete
  | _ => true

/-- Whether all values in the declaration of a kind are complete in themselves. -/
def Kind.isComplete (k : Kind) : Bool :=
  k.attributes.entries.all (fun entry => entry.2.isComplete) &&
    (k.declaration.script.getD []).all Action.isComplete

namespace Kinds

/-- Whether all values in the declarations of kinds are complete in themselves. -/
def areComplete (ks : Kinds) : Bool := ks.all.all Kind.isComplete

theorem standard_areComplete : standard.areComplete = true := by decide +kernel

variable {ks : Kinds}

theorem isComplete_get (complete : ks.areComplete = true) (id : KindId) :
    (ks.get id).isComplete = true := by
  unfold get find?
  cases found : ks.all.find? fun k => k.id == id with
  | none => rfl
  | some k => exact List.all_eq_true.mp complete k (List.mem_of_find?_eq_some found)

theorem isComplete_of_performer? (complete : ks.areComplete = true) {k found : Kind}
    (performs : ks.performer? k = some found) : found.isComplete = true := by
  obtain ⟨both, member, rfl⟩ := Option.map_eq_some_iff.mp performs
  obtain ⟨ancestor, inherited, own⟩ := List.exists_of_findSome?_eq_some member
  obtain ⟨id, _, stands⟩ := List.mem_filterMap.mp inherited
  obtain ⟨_, _, rfl⟩ := Option.map_eq_some_iff.mp own
  exact List.all_eq_true.mp complete ancestor (List.mem_of_find?_eq_some stands)

/-- Putting entries into a table adds no others. -/
theorem mem_entries_foldl_put {entries : List (String × Attribute)} {t : Table String Attribute}
    {entry : String × Attribute}
    (member : entry ∈ (entries.foldl (fun t entry => t.put entry.1 entry.2) t).entries) :
    entry ∈ entries ∨ entry ∈ t.entries := by
  induction entries generalizing t with
  | nil => exact .inr member
  | cons first rest ih =>
    rcases ih member with later | put
    · exact .inl (List.mem_cons_of_mem first later)
    rcases Table.mem_entries_put put with same | old
    · exact .inl (same ▸ List.mem_cons_self)
    · exact .inr old

/-- What a kind inherits, one of its bases has. -/
theorem mem_foldl_bases {bases : List KindId} {t : Table String Attribute}
    {entry : String × Attribute}
    (member : entry ∈ (bases.foldl (fun table base => (ks.get base).attributes.entries.foldl
      (fun t entry => t.put entry.1 entry.2) table) t).entries) :
    (∃ base, entry ∈ (ks.get base).attributes.entries) ∨ entry ∈ t.entries := by
  induction bases generalizing t with
  | nil => exact .inr member
  | cons base rest ih =>
    rcases ih member with inherited | put
    · exact .inl inherited
    · exact (mem_entries_foldl_put put).imp_left fun own => ⟨base, own⟩

/-- A declaration without attributes and actions of its own adds a kind whose values are complete,
if the others are of that sort. -/
theorem areComplete_declare (complete : ks.areComplete = true) {d : Declaration}
    (attributes : d.attributes = []) (script : d.script = none) {k : Kind} {more : Kinds}
    (declared : ks.declare d = .ok (k, more)) : more.areComplete = true := by
  have inherited : (ks.inheritedAttributes d.bases).entries.all
      (fun entry => entry.2.isComplete) = true := by
    refine List.all_eq_true.mpr fun entry member => ?_
    obtain ⟨base, own⟩ := (mem_foldl_bases member).resolve_right nofun
    have both := isComplete_get complete base
    rw [Kind.isComplete, Bool.and_eq_true] at both
    exact List.all_eq_true.mp both.1 entry own
  have made {id : KindId} (success : ks.make id d = .ok k) : k.isComplete = true := by
    unfold make at success
    split at success
    · cases success
    split at success
    · cases success
    split at success
    · rw [attributes, declareAttributes] at success
      cases success
      simp [Kind.isComplete, inherited, script]
    · cases success
      simp [Kind.isComplete, script, Table.empty]
  unfold declare at declared
  cases success : ks.make (.declared ks.nextIndex) d with
  | error => rw [success] at declared; cases declared
  | ok kind =>
    rw [success] at declared
    cases declared
    rw [areComplete, List.all_append, List.all_cons, made success]
    simpa [areComplete] using complete

end Kinds

namespace Signature

variable {ks : Kinds} {k ancestor : Kind}

/-- What the first of the members of a kind adds: the nested element that it takes, if it takes one
and is not hidden, and no attribute. -/
theorem addMembers_cons {hidden : List String} {name : String} {member : Member}
    {rest : List (String × Member)} {s after : Signature}
    (added : addMembers ks k ancestor hidden ((name, member) :: rest) s = .ok after) :
    ∃ mid, addMembers ks k ancestor hidden rest mid = .ok after ∧ mid.attributes = s.attributes ∧
      (mid.elements = s.elements ∧
          (∀ e, member = .nested e → name ∈ hidden ∨ ancestor.attributes.contains name = true) ∨
        ∃ e f, member = .nested e ∧ name ∉ hidden ∧ ancestor.attributes.contains name = false ∧
          factoryOf ks ancestor name e = .ok f ∧ s.elements.find? f.name = none ∧
          mid.elements = s.elements.put f.name f) := by
  unfold addMembers at added
  split at added
  · rename_i hides
    rw [Bool.or_eq_true, List.contains_iff_mem] at hides
    exact ⟨s, added, rfl, .inl ⟨rfl, fun _ _ => hides⟩⟩
  rename_i shows
  rw [Bool.or_eq_true, List.contains_iff_mem, not_or, Bool.not_eq_true] at shows
  split at added
  · exact ⟨s, added, rfl, .inl ⟨rfl, nofun⟩⟩
  · exact ⟨s, added, rfl, .inl ⟨rfl, nofun⟩⟩
  · split at added
    · cases added
    split at added
    · cases added
    · exact ⟨_, added, rfl, .inl ⟨rfl, nofun⟩⟩
  · split at added
    · cases added
    rename_i f taken
    split at added
    · cases added
    · exact ⟨_, added, rfl, .inr ⟨_, f, rfl, shows.1, shows.2, taken, ‹_›, rfl⟩⟩

/-- Members add no attributes. -/
theorem attributes_addMembers {hidden : List String} {members : List (String × Member)}
    {s after : Signature} (added : addMembers ks k ancestor hidden members s = .ok after) :
    after.attributes = s.attributes := by
  induction members generalizing s with
  | nil =>
    cases added
    rfl
  | cons entry rest ih =>
    obtain ⟨mid, added, same, -⟩ := addMembers_cons added
    exact (ih added).trans same

theorem attributes_addAncestry {hidden : List String} {ancestry : List Kind} {s after : Signature}
    (added : addAncestry ks k hidden ancestry s = .ok after) :
    after.attributes = s.attributes := by
  induction ancestry generalizing hidden s with
  | nil =>
    cases added
    rfl
  | cons ancestor rest ih =>
    unfold addAncestry at added
    split at added
    · cases added
    · rename_i more own
      exact (ih added).trans (attributes_addMembers own)

/-- The attributes of a kind by their normal names are those of the kind. -/
theorem mem_attributesOf {attributes : List Attribute} {found after : Table String Attribute}
    (listed : attributesOf k attributes found = .ok after) {entry : String × Attribute}
    (member : entry ∈ after.entries) : entry.2 ∈ attributes ∨ entry ∈ found.entries := by
  induction attributes generalizing found with
  | nil =>
    cases listed
    exact .inr member
  | cons a rest ih =>
    unfold attributesOf at listed
    extract_lets name at listed
    split at listed
    · cases listed
    split at listed
    · cases listed
    rcases ih listed with later | put
    · exact .inl (List.mem_cons_of_mem a later)
    rcases Table.mem_entries_put put with same | old
    · exact .inl (same ▸ List.mem_cons_self)
    · exact .inr old

/-- What a signature says of an attribute is complete if the kind is. -/
theorem isComplete_of_ofKind (complete : k.isComplete = true) {signature : Signature}
    (signed : ofKind ks k = .ok signature) {name : String} {a : Attribute}
    (found : signature.attribute? name = some a) : a.isComplete = true := by
  unfold ofKind at signed
  split at signed
  · cases signed
  rename_i attributes listed
  have entry := Table.mem_entries_of_find? found
  rw [attributes_addAncestry signed] at entry
  have own := (mem_attributesOf listed entry).resolve_right nofun
  obtain ⟨declared, stored, same⟩ := List.mem_map.mp own
  replace same : declared.2 = a := same
  rw [Kind.isComplete, Bool.and_eq_true] at complete
  exact same ▸ List.all_eq_true.mp complete.1 declared stored

end Signature

end BuildEngine
