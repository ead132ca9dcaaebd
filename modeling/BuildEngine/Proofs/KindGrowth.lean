import BuildEngine.Proofs.KnownKinds

/-! The kinds that a build can come to know: the standard ones, and whatever is declared on top of
them. Each of them is among the kinds that it is derived from, data types can be references, and
each attribute stands under its own name. -/

namespace BuildEngine

section Merging

variable {κ : Type} [DecidableEq κ] {kind other : κ} {row order bases : List κ}
variable {orders : List (List κ)}

theorem mem_withoutHead (member : other ∈ row) : other = kind ∨ other ∈ withoutHead kind row := by
  cases row with
  | nil => cases member
  | cons head rest =>
    rw [withoutHead]
    split
    · rename_i same
      exact (List.mem_cons.mp member).imp_left fun first => first.trans same
    · exact .inr member

theorem mem_of_withoutHead (member : other ∈ withoutHead kind row) : other ∈ row := by
  cases row with
  | nil => cases member
  | cons head rest =>
    rw [withoutHead] at member
    split at member
    · exact List.mem_cons_of_mem _ member
    · exact member

/-- What is left of orders of which one kind was taken, and that kind, are what was there. -/
theorem exists_mem_map_withoutHead (next : nextFree? orders = some kind) :
    (other = kind ∨ ∃ row ∈ orders.map (withoutHead kind), other ∈ row) ↔
      ∃ row ∈ orders, other ∈ row := by
  constructor
  · rintro (rfl | ⟨_, left, member⟩)
    · obtain ⟨row, listed, first⟩ := List.mem_filterMap.mp (List.mem_of_find?_eq_some next)
      exact ⟨row, listed, List.mem_of_head? first⟩
    · obtain ⟨row, listed, rfl⟩ := List.mem_map.mp left
      exact ⟨row, listed, mem_of_withoutHead member⟩
  · rintro ⟨row, listed, member⟩
    refine (mem_withoutHead member).imp_right fun left => ?_
    exact ⟨_, List.mem_map_of_mem listed, left⟩

/-- A merge holds what the merged orders hold, and nothing else. -/
theorem mem_mergeOrders? {steps : Nat} (merged : mergeOrders? steps orders = some order) :
    other ∈ order ↔ ∃ row ∈ orders, other ∈ row := by
  fun_induction mergeOrders? steps orders generalizing order with
  | case1 _ orders empty =>
    cases merged
    simp only [List.all_eq_true, List.isEmpty_iff] at empty
    refine ⟨fun member => absurd member List.not_mem_nil, ?_⟩
    rintro ⟨row, listed, member⟩
    rw [empty row listed] at member
    exact member
  | case2 orders _ more kind next ih =>
    obtain ⟨rest, merges, rfl⟩ := Option.map_eq_some_iff.mp merged
    rw [List.mem_cons, ih merges, exists_mem_map_withoutHead next]
  | case3 => cases merged

/-- The order of a kind holds the kind, its bases, and what their orders hold. -/
theorem mem_linearise? (merged : linearise? kind bases orders = some order) :
    other ∈ order ↔ other = kind ∨ other ∈ bases ∨ ∃ row ∈ orders, other ∈ row := by
  obtain ⟨rest, merges, rfl⟩ := Option.map_eq_some_iff.mp merged
  rw [List.mem_cons, mem_mergeOrders? merges]
  simp [or_comm]

theorem not_mem_withoutHead (free : (row.drop 1).contains kind = false) :
    kind ∉ withoutHead kind row := by
  cases row with
  | nil => exact List.not_mem_nil
  | cons head rest =>
    have absent : kind ∉ rest := by simpa using free
    rw [withoutHead]
    split
    · exact absent
    · rename_i other
      simp [absent, Ne.symm other]

theorem sublist_cons_withoutHead : row.Sublist (kind :: withoutHead kind row) := by
  cases row with
  | nil => exact List.nil_sublist _
  | cons head rest =>
    rw [withoutHead]
    split
    · rename_i same
      rw [same]
    · exact List.sublist_cons_self _ _

/-- A merge keeps each of the merged orders. -/
theorem sublist_mergeOrders? {steps : Nat} (merged : mergeOrders? steps orders = some order)
    (listed : row ∈ orders) : row.Sublist order := by
  fun_induction mergeOrders? steps orders generalizing row order with
  | case1 _ orders empty =>
    simp only [List.all_eq_true, List.isEmpty_iff] at empty
    rw [empty row listed]
    exact List.nil_sublist _
  | case2 orders _ more kind next ih =>
    obtain ⟨rest, merges, rfl⟩ := Option.map_eq_some_iff.mp merged
    have kept := ih merges (List.mem_map_of_mem listed)
    exact sublist_cons_withoutHead.trans (kept.cons_cons kind)
  | case3 => cases merged

/-- No kind stands twice in a merge, since none is taken that still stands in a tail. -/
theorem nodup_mergeOrders? {steps : Nat} (merged : mergeOrders? steps orders = some order) :
    order.Nodup := by
  fun_induction mergeOrders? steps orders generalizing order with
  | case1 =>
    cases merged
    exact List.nodup_nil
  | case2 orders _ more kind next ih =>
    obtain ⟨rest, merges, rfl⟩ := Option.map_eq_some_iff.mp merged
    refine List.nodup_cons.mpr ⟨fun again => ?_, ih merges⟩
    obtain ⟨_, left, inside⟩ := (mem_mergeOrders? merges).mp again
    obtain ⟨row, listed, rfl⟩ := List.mem_map.mp left
    have isFree : isFree orders kind = true := List.find?_some next
    have free := List.all_eq_true.mp isFree row listed
    exact not_mem_withoutHead (by simpa using free) inside
  | case3 => cases merged

/-- A kind stands in front of the orders of its bases, which are kept. -/
theorem exists_of_linearise? (merged : linearise? kind bases orders = some order) :
    ∃ rest, order = kind :: rest ∧ rest.Nodup ∧ (∀ row ∈ orders, row.Sublist rest) ∧
      ∀ other ∈ rest, other ∈ bases ∨ ∃ row ∈ orders, other ∈ row := by
  obtain ⟨rest, merges, rfl⟩ := Option.map_eq_some_iff.mp merged
  refine ⟨rest, rfl, nodup_mergeOrders? merges, fun row listed => ?_, fun other member => ?_⟩
  · exact sublist_mergeOrders? merges (List.mem_append_left _ listed)
  · simpa [or_comm] using (mem_mergeOrders? merges).mp member

end Merging

/-- Attributes stand under their own names. -/
def Named (attributes : Table String Attribute) : Prop :=
  ∀ entry ∈ attributes.entries, entry.1 = entry.2.name

/-- What every kind of a build is like. -/
structure Kind.IsFormed (k : Kind) : Prop where
  own : k.isA k.id = true
  referable : k.isDataType = true → k.isA Standard.referable = true
  named : Named k.attributes

namespace Kinds

/-- The standard kinds, and kinds that were declared one after another. -/
inductive Grown : Kinds → Prop where
  | standard : Grown standard
  | declare {ks more : Kinds} {d : Declaration} {k : Kind} (grown : Grown ks)
      (declared : ks.declare d = .ok (k, more)) : Grown more

theorem standard_isFormed {k : Kind} (member : k ∈ standard.all) : k.IsFormed := by
  have related : (standard.all.all fun k =>
      k.isA k.id && (!k.isDataType || k.isA Standard.referable)) = true := by
    decide +kernel
  have ordinary := List.all_eq_true.mp standard_areOrdinary k member
  have relates := List.all_eq_true.mp related k member
  rw [Kind.isOrdinary, Bool.and_eq_true] at ordinary
  rw [Bool.and_eq_true, Bool.or_eq_true, Bool.not_eq_true'] at relates
  refine ⟨relates.1, fun isDataType => ?_, fun entry stored => ?_⟩
  · refine relates.2.resolve_left fun none => ?_
    rw [isDataType] at none
    cases none
  · have both := List.all_eq_true.mp ordinary.1 entry stored
    rw [Bool.and_eq_true] at both
    exact eq_of_beq both.1

theorem all_of_declare {ks more : Kinds} {d : Declaration} {k : Kind}
    (declared : ks.declare d = .ok (k, more)) :
    ks.make (.declared ks.nextIndex) d = .ok k ∧ more.all = ks.all ++ [k] := by
  unfold declare at declared
  cases made : ks.make (.declared ks.nextIndex) d with
  | error => rw [made] at declared; cases declared
  | ok other =>
    rw [made] at declared
    cases declared
    exact ⟨rfl, rfl⟩

/-- The standard kinds stay what they are, whatever kinds are added. -/
theorem HasStandard.append {ks : Kinds} (known : ks.HasStandard) (added : List Kind) :
    HasStandard ⟨ks.all ++ added⟩ := by
  intro s
  obtain ⟨k, found⟩ := Option.isSome_iff_exists.mp (standard_isSome_find? s)
  have old := (known s).trans found
  unfold find? at old found ⊢
  rw [List.find?_append, old, found]
  rfl

theorem HasStandard.declare {ks more : Kinds} {d : Declaration} {k : Kind} (known : ks.HasStandard)
    (declared : ks.declare d = .ok (k, more)) : more.HasStandard := by
  obtain ⟨all⟩ := more
  cases (all_of_declare declared).2
  exact known.append _

theorem Grown.hasStandard {ks : Kinds} (grown : ks.Grown) : ks.HasStandard := by
  induction grown with
  | standard => exact .standard
  | declare _ declared ih => exact ih.declare declared

section Making

variable {ks : Kinds} {table after : Table String Attribute} {k : Kind} {id : KindId}
variable {d : Declaration}

theorem named_empty : Named .empty := fun _ stored => absurd stored List.not_mem_nil

theorem named_put {name : String} {a : Attribute} (named : Named table) (same : name = a.name) :
    Named (table.put name a) := by
  intro entry stored
  rcases Table.mem_entries_put stored with rfl | old
  · exact same
  · exact named entry old

theorem named_declareAttributes {kind : String} {attributes : List AttributeDeclaration}
    (named : Named table) (declared : declareAttributes kind table attributes = .ok after) :
    Named after := by
  induction attributes generalizing table with
  | nil =>
    cases declared
    exact named
  | cons d rest ih =>
    unfold declareAttributes at declared
    split at declared
    · split at declared
      · cases declared
      · exact ih named declared
    · cases declared
    · have added : Named (table.put d.name (attributeOf d)) := named_put named rfl
      exact ih added declared

theorem named_foldl_put {entries : List (String × Attribute)} (named : Named table)
    (more : ∀ entry ∈ entries, entry.1 = entry.2.name) :
    Named (entries.foldl (fun t entry => t.put entry.1 entry.2) table) := by
  induction entries generalizing table with
  | nil => exact named
  | cons first rest ih =>
    exact ih (named_put named (more first List.mem_cons_self))
      fun entry later => more entry (List.mem_cons_of_mem _ later)

theorem get_eq_default_or_mem (ks : Kinds) (id : KindId) :
    ks.get id = default ∨ ks.get id ∈ ks.all := by
  unfold get
  cases found : ks.find? id with
  | none => exact .inl rfl
  | some k => exact .inr (List.mem_of_find?_eq_some found)

theorem named_get (formed : ∀ k ∈ ks.all, k.IsFormed) (id : KindId) :
    Named (ks.get id).attributes := by
  rcases ks.get_eq_default_or_mem id with none_ | member
  · rw [none_]
    exact named_empty
  · exact (formed _ member).named

theorem named_inheritedAttributes (formed : ∀ k ∈ ks.all, k.IsFormed) (bases : List KindId) :
    Named (ks.inheritedAttributes bases) := by
  unfold inheritedAttributes
  induction bases with
  | nil => exact named_empty
  | cons base rest ih =>
    rw [List.reverse_cons, List.foldl_append]
    exact named_foldl_put ih (named_get formed base)

/-- Data types that are derived from data types can be references too. -/
theorem referable_of_order (known : ks.HasStandard) (formed : ∀ k ∈ ks.all, k.IsFormed)
    {bases order : List KindId} {index : Nat}
    (merged : linearise? (.declared index) bases (bases.map fun base => (ks.get base).order) =
      some order) (isDataType : (Standard.dataType : KindId) ∈ order) :
    (Standard.referable : KindId) ∈ order := by
  have inherits {base : KindId} (member : base ∈ bases)
      (referable : (ks.get base).isA Standard.referable = true) :
      (Standard.referable : KindId) ∈ order :=
    (mem_linearise? merged).mpr <| .inr <| .inr
      ⟨_, List.mem_map_of_mem member, List.contains_iff_mem.mp referable⟩
  rcases (mem_linearise? merged).mp isDataType with declared | base | ⟨_, listed, derived⟩
  · cases declared
  · refine inherits base ?_
    rw [known.get .dataType]
    decide +kernel
  · obtain ⟨base, member, rfl⟩ := List.mem_map.mp listed
    refine inherits member ?_
    rcases ks.get_eq_default_or_mem base with none_ | stands
    · rw [none_] at derived
      cases derived
    · exact (formed _ stands).referable (List.contains_iff_mem.mpr derived)

theorem isFormed_of_make (known : ks.HasStandard) (formed : ∀ k ∈ ks.all, k.IsFormed)
    {index : Nat} (made : ks.make (.declared index) d = .ok k) : k.IsFormed := by
  unfold make at made
  split at made
  · cases made
  split at made
  · cases made
  rename_i order merged
  have own : order.contains (.declared index) = true :=
    List.contains_iff_mem.mpr ((mem_linearise? merged).mpr (.inl rfl))
  have referable (isDataType : order.contains (.standard .dataType) = true) :
      order.contains (.standard .referable) = true :=
    List.contains_iff_mem.mpr
      (referable_of_order known formed merged (List.contains_iff_mem.mp isDataType))
  split at made
  · cases declared : declareAttributes d.name (ks.inheritedAttributes d.bases) d.attributes with
    | error => rw [declared] at made; cases made
    | ok attributes =>
      rw [declared] at made
      cases made
      exact ⟨own, referable,
        named_declareAttributes (named_inheritedAttributes formed d.bases) declared⟩
  · cases made
    exact ⟨own, referable, named_empty⟩

end Making

namespace Grown

variable {ks : Kinds} {id : KindId}

theorem isFormed (grown : ks.Grown) : ∀ k ∈ ks.all, k.IsFormed := by
  induction grown with
  | standard => exact fun k => standard_isFormed
  | @declare ks more d k grown declared ih =>
    obtain ⟨made, all⟩ := all_of_declare declared
    intro other member
    rw [all] at member
    rcases List.mem_append.mp member with old | new
    · exact ih other old
    · cases List.mem_singleton.mp new
      exact isFormed_of_make grown.hasStandard ih made

theorem named (grown : ks.Grown) (id : KindId) : Named (ks.get id).attributes :=
  named_get grown.isFormed id

/-- A data type is one of its own kind, and can be a reference. -/
theorem of_isDataType (grown : ks.Grown) (isDataType : (ks.get id).isDataType = true) :
    (ks.get id).isA id = true ∧ (ks.get id).isA Standard.referable = true := by
  cases found : ks.find? id with
  | none =>
    rw [get, found] at isDataType
    cases isDataType
  | some k =>
    have present : ks.get id = k := by rw [get, found, Option.getD_some]
    have formed := grown.isFormed k (List.mem_of_find?_eq_some found)
    rw [present] at isDataType ⊢
    refine ⟨?_, formed.referable isDataType⟩
    rw [← id_of_find? found]
    exact formed.own

end Grown

/-! Closed tables: whatever a kind names stands there too. -/

/-- Whether a kind stands in a table. -/
def knows (ks : Kinds) (id : KindId) : Bool := (ks.find? id).isSome

end Kinds

/-- The kinds of the children that a method is given or makes. -/
def Member.childKinds : Member → List KindId
  | .nested e => e.givenKind?.toList ++ e.creates.toList
  | _ => []

namespace Kinds

/-- Whether all kinds stand in a table that its kinds are derived from, and those of the children
that their methods take. -/
def isClosed (ks : Kinds) : Bool :=
  ks.all.all fun k => k.order.all ks.knows &&
    k.declaration.members.all fun entry => entry.2.childKinds.all ks.knows

theorem standard_isClosed : standard.isClosed = true := by decide +kernel

section Closed

variable {ks more : Kinds} {id : KindId}

theorem all_knows_of_get (closed : ks.isClosed = true) (id : KindId) :
    (ks.get id).order.all ks.knows = true := by
  rcases ks.get_eq_default_or_mem id with none_ | member
  · rw [none_]
    rfl
  · exact (Bool.and_eq_true_iff.mp (List.all_eq_true.mp closed _ member)).1

theorem knows_of_childKinds (closed : ks.isClosed = true) {k : Kind} (member : k ∈ ks.all)
    {entry : String × Member} (listed : entry ∈ k.declaration.members)
    (child : id ∈ entry.2.childKinds) : ks.knows id = true :=
  List.all_eq_true.mp (List.all_eq_true.mp
    (Bool.and_eq_true_iff.mp (List.all_eq_true.mp closed k member)).2 entry listed) id child

/-- What was known is still known, and the same. -/
theorem find?_of_append {added : List Kind} (all : more.all = ks.all ++ added)
    (known : ks.knows id = true) : more.find? id = ks.find? id := by
  obtain ⟨k, found⟩ := Option.isSome_iff_exists.mp known
  rw [found]
  unfold find? at found ⊢
  rw [all, List.find?_append, found]
  rfl

theorem knows_of_append {added : List Kind} (all : more.all = ks.all ++ added)
    (known : ks.knows id = true) : more.knows id = true := by
  rwa [knows, find?_of_append all known]

theorem shares_of_append {added : List Kind} (closed : ks.isClosed = true)
    (all : more.all = ks.all ++ added) : Shares ks.knows more ks where
  find _ known := find?_of_append all known
  orders id _ := all_knows_of_get closed id

theorem HasStandard.order_object (known : ks.HasStandard) :
    (ks.get Standard.object).order = [.standard .object] := by
  rw [known.get, standard_order_object]

namespace Learns

/-- Whatever is learnt comes last. -/
theorem all (learns : ks.Learns more) (known : ks.HasStandard) :
    ∃ added, more.all = ks.all ++ added ∧ ∀ k ∈ added, k.IsBare ∧ more.knows k.id = true := by
  rcases learns with rfl | ⟨d, k, bases, members, declared⟩
  · exact ⟨[], by simp, nofun⟩
  · obtain ⟨all, bare⟩ := declare_bare known.order_object bases members declared
    refine ⟨[k], all, fun other member => ?_⟩
    obtain rfl := List.mem_singleton.mp member
    refine ⟨bare, List.find?_isSome.mpr ⟨other, ?_, by simp⟩⟩
    rw [all]
    exact List.mem_append_right _ List.mem_cons_self

theorem hasStandard (learns : ks.Learns more) (known : ks.HasStandard) : more.HasStandard := by
  rcases learns with rfl | ⟨d, k, -, -, declared⟩
  · exact known
  · exact known.declare declared

theorem isClosed (learns : ks.Learns more) (known : ks.HasStandard) (closed : ks.isClosed = true) :
    more.isClosed = true := by
  obtain ⟨added, all, new⟩ := learns.all known
  refine List.all_eq_true.mpr fun k member => ?_
  rw [all] at member
  rcases List.mem_append.mp member with old | last
  · have both := Bool.and_eq_true_iff.mp (List.all_eq_true.mp closed k old)
    rw [Bool.and_eq_true]
    refine ⟨List.all_eq_true.mpr fun id derived => ?_, List.all_eq_true.mpr fun entry listed => ?_⟩
    · exact knows_of_append all (List.all_eq_true.mp both.1 id derived)
    · refine List.all_eq_true.mpr fun id child => ?_
      exact knows_of_append all (knows_of_childKinds closed old listed child)
  · obtain ⟨bare, own⟩ := new k last
    have object : more.knows Standard.object = true := by
      rw [knows, learns.hasStandard known]
      exact standard_isSome_find? .object
    simp [bare.order, bare.members, own, object]

/-- A kind with a signature keeps it, whatever is learnt. -/
theorem ofKind (learns : ks.Learns more) (known : ks.HasStandard) (closed : ks.isClosed = true)
    (stands : ks.knows id = true) {s : Signature}
    (signed : Signature.ofKind ks (ks.get id) = .ok s) :
    Signature.ofKind more (more.get id) = .ok s := by
  obtain ⟨added, all, -⟩ := learns.all known
  have shares := shares_of_append closed all
  rw [shares.get stands]
  refine shares.ofKind stands (fun k member entry listed => ?_) signed
  obtain ⟨name, nested⟩ := entry
  cases nested with
  | nested e =>
    rw [Member.givesOnly, Option.all_eq_true_iff_get]
    intro given
    refine knows_of_childKinds closed member listed (List.mem_append_left _ ?_)
    rw [Option.mem_toList]
    exact Option.get_mem given
  | _ => rfl

end Learns
end Closed
end Kinds
end BuildEngine
