import BuildEngine.Proofs.Awaiting
import BuildEngine.Proofs.KindGrowth

/-! Inheritance. A kind has the attributes that some kind in its search order declares. An attribute
that it does not declare itself it has from its leftmost base with an attribute of that name. This
is the first declaration in the search order exactly if each base that is asked on the way is
derived from the kind with the first declaration; where bases share a base, it need not be. -/

namespace BuildEngine

/-- What is found first in an order is found first in each part of it that holds it. -/
theorem find?_of_sublist {κ : Type u} {row order : List κ} {first : κ} {p : κ → Bool}
    (part : row.Sublist order) (distinct : order.Nodup) (found : order.find? p = some first)
    (member : first ∈ row) : row.find? p = some first := by
  induction part with
  | slnil => cases member
  | @cons row order head part ih =>
    obtain ⟨fresh, distinct⟩ := List.nodup_cons.mp distinct
    rw [List.find?_cons] at found
    split at found
    · cases found
      exact absurd (part.subset member) fresh
    · exact ih distinct found member
  | @cons_cons row order head part ih =>
    rw [List.find?_cons] at found ⊢
    split at found
    · exact found
    · rename_i other
      refine ih (List.nodup_cons.mp distinct).2 found ((List.mem_cons.mp member).resolve_left ?_)
      rintro rfl
      have holds := List.find?_some found
      rw [other] at holds
      cases holds

/-! ### Attributes of a declaration and of its bases -/

/-- The attribute of a name, if one is declared. -/
def AttributeDeclaration.typed? (name : String) (a : AttributeDeclaration) : Option Attribute :=
  if a.form = .typed ∧ a.name = name then some (Kinds.attributeOf a) else none

/-- The attribute of a name that a kind declares itself; the last declaration counts. -/
def Kind.ownAttribute? (k : Kind) (name : String) : Option Attribute :=
  if k.isContainer then k.declaration.attributes.reverse.findSome? (·.typed? name) else none

namespace Kinds

variable {ks : Kinds} {k : Kind} {id base owner : KindId} {name : String} {a : Attribute}

/-- Whether a kind declares an attribute itself. -/
def declares (ks : Kinds) (name : String) (id : KindId) : Bool :=
  ((ks.get id).ownAttribute? name).isSome

theorem find?_declareAttributes {kind : String} {table after : Table String Attribute}
    {attributes : List AttributeDeclaration}
    (declared : declareAttributes kind table attributes = .ok after) :
    after.find? name =
      (attributes.reverse.findSome? (·.typed? name)).or (table.find? name) := by
  induction attributes generalizing table with
  | nil =>
    cases declared
    rfl
  | cons d rest ih =>
    rw [List.reverse_cons, List.findSome?_append, Option.or_assoc]
    unfold declareAttributes at declared
    split at declared
    · rename_i form
      split at declared
      · cases declared
      · rw [ih declared]
        simp [AttributeDeclaration.typed?, form]
    · cases declared
    · rename_i form
      rw [ih declared, Table.find?_put]
      by_cases same : d.name = name
      · simp [AttributeDeclaration.typed?, form, same]
      · simp [AttributeDeclaration.typed?, same]

/-- The leftmost base that has an attribute hands it down. -/
theorem find?_inheritedAttributes (bases : List KindId) :
    (ks.inheritedAttributes bases).find? name =
      bases.findSome? fun base => (ks.get base).attributes.find? name := by
  unfold inheritedAttributes
  induction bases with
  | nil => rfl
  | cons base rest ih =>
    rw [List.reverse_cons, List.foldl_append, List.foldl_cons, List.foldl_nil,
      Table.find?_foldl_put_entries, ih, List.findSome?_cons]
    cases (ks.get base).attributes.find? name <;> rfl

/-- The bases of a kind. -/
def basesOf (ks : Kinds) (k : Kind) : List Kind := k.declaration.bases.map ks.get

/-- What a kind has follows from its declaration and from what its bases have. -/
structure Follows (ks : Kinds) (k : Kind) : Prop where
  order : linearise? k.id k.declaration.bases ((ks.basesOf k).map Kind.order) = some k.order
  attributes : k.isContainer = true → ∀ name, k.attributes.find? name =
    (k.ownAttribute? name).or ((ks.basesOf k).findSome? (·.attributes.find? name))
  plain : k.isContainer = false → k.attributes = .empty

theorem follows_of_make {d : Declaration} (made : ks.make id d = .ok k) :
    k.id = id ∧ k.declaration = d ∧ ks.Follows k := by
  unfold make at made
  split at made
  · cases made
  split at made
  · cases made
  rename_i order merged
  have merged : linearise? id d.bases ((d.bases.map ks.get).map Kind.order) = some order := by
    rwa [List.map_map]
  split at made
  · rename_i container
    cases declared : declareAttributes d.name (ks.inheritedAttributes d.bases) d.attributes with
    | error => rw [declared] at made; cases made
    | ok attributes =>
      rw [declared] at made
      cases made
      refine ⟨rfl, rfl, merged, fun _ name => ?_,
        fun plain => absurd container (ne_true_of_eq_false plain)⟩
      have own : Kind.ownAttribute? ⟨id, d, order, attributes⟩ name =
          d.attributes.reverse.findSome? (·.typed? name) := if_pos container
      rw [own, find?_declareAttributes declared, find?_inheritedAttributes, basesOf,
        List.findSome?_map]
      rfl
  · rename_i plain
    cases made
    exact ⟨rfl, rfl, merged, fun container => absurd container plain, fun _ => rfl⟩

/-- Kinds that are added to a table change nothing about those that stand there. -/
theorem basesOf_append (bases : ∀ base ∈ k.declaration.bases, ks.knows base = true)
    (added : List Kind) : basesOf ⟨ks.all ++ added⟩ k = ks.basesOf k :=
  List.map_congr_left fun base listed => by rw [get, find?_of_append rfl (bases base listed), get]

theorem Follows.append (follows : ks.Follows k)
    (bases : ∀ base ∈ k.declaration.bases, ks.knows base = true) (added : List Kind) :
    Follows ⟨ks.all ++ added⟩ k := by
  obtain ⟨order, attributes, plain⟩ := follows
  rw [← basesOf_append bases added] at order attributes
  exact ⟨order, attributes, plain⟩

/-! ### Tables in which kinds follow their bases -/

/-- The standard kinds, and kinds that were declared one after another with known kinds as bases. -/
inductive Built : Kinds → Prop where
  | standard : Built standard
  | declare {ks more : Kinds} {d : Declaration} {k : Kind} (built : Built ks)
      (bases : ∀ base ∈ d.bases, ks.knows base = true) (declared : ks.declare d = .ok (k, more)) :
      Built more

/-- Kinds that were added one after another, each of them new and derived from known kinds. -/
inductive Founded : Kinds → Prop where
  | empty : Founded {}
  | add {ks : Kinds} {k : Kind} (founded : Founded ks) (fresh : ks.knows k.id = false)
      (bases : ∀ base ∈ k.declaration.bases, ks.knows base = true) (follows : ks.Follows k) :
      Founded ⟨ks.all ++ [k]⟩

namespace Founded

/-- No two kinds have the same identity. -/
theorem find?_of_mem (founded : ks.Founded) (member : k ∈ ks.all) : ks.find? k.id = some k := by
  induction founded with
  | empty => cases member
  | @add ks last founded fresh bases follows ih =>
    rcases List.mem_append.mp member with old | new
    · have found := ih old
      rw [find?_of_append rfl (by rw [knows, found]; rfl), found]
    · obtain rfl := List.mem_singleton.mp new
      have absent : ks.all.find? (fun other => other.id == k.id) = none := by
        simpa [knows, find?] using fresh
      rw [find?, List.find?_append, absent]
      simp

theorem get_of_mem (founded : ks.Founded) (member : k ∈ ks.all) : ks.get k.id = k := by
  rw [get, founded.find?_of_mem member]
  rfl

theorem knows_of_mem (founded : ks.Founded) (member : k ∈ ks.all) : ks.knows k.id = true := by
  rw [knows, founded.find?_of_mem member]
  rfl

/-- A known kind stands under its identity. -/
theorem mem_of_knows (known : ks.knows id = true) : ks.get id ∈ ks.all ∧ (ks.get id).id = id := by
  obtain ⟨k, found⟩ := Option.isSome_iff_exists.mp known
  rw [get, found]
  exact ⟨List.mem_of_find?_eq_some found, id_of_find? found⟩

theorem follows_of_mem (founded : ks.Founded) (member : k ∈ ks.all) :
    ks.Follows k ∧ ∀ base ∈ k.declaration.bases, ks.knows base = true := by
  induction founded with
  | empty => cases member
  | @add ks last founded fresh bases follows ih =>
    obtain ⟨stands, known⟩ : ks.Follows k ∧ ∀ base ∈ k.declaration.bases, ks.knows base = true := by
      rcases List.mem_append.mp member with old | new
      · exact ih old
      · exact List.mem_singleton.mp new ▸ ⟨follows, bases⟩
    exact ⟨stands.append known _, fun base listed => knows_of_append rfl (known base listed)⟩

theorem of_make (founded : ks.Founded) {d : Declaration} (fresh : ks.knows id = false)
    (bases : ∀ base ∈ d.bases, ks.knows base = true) (made : ks.make id d = .ok k) :
    Founded ⟨ks.all ++ [k]⟩ := by
  obtain ⟨rfl, rfl, follows⟩ := follows_of_make made
  exact founded.add fresh bases follows

/-- What passes from the bases of each kind to the kind holds of all kinds. -/
theorem induction {P : Kind → Prop} (founded : ks.Founded)
    (step : ∀ k ∈ ks.all, (∀ base ∈ ks.basesOf k, P base) → P k) : ∀ k ∈ ks.all, P k := by
  -- The induction is on what the table began with; the kinds that come later do not matter to it.
  suffices parts : ∀ part : Kinds, part.Founded → ∀ added, ks.all = part.all ++ added →
      ∀ k ∈ part.all, P k from parts ks founded [] (List.append_nil _).symm
  intro part founded
  induction founded with
  | empty => exact fun _ _ _ member => absurd member List.not_mem_nil
  | @add part last founded fresh bases follows ih =>
    intro added all k member
    rw [List.append_assoc] at all
    rcases List.mem_append.mp member with old | new
    · exact ih _ all k old
    · obtain rfl := List.mem_singleton.mp new
      refine step k (by simp [all]) fun base listed => ?_
      have same : ks.basesOf k = part.basesOf k := by
        obtain ⟨kinds⟩ := ks
        cases all
        exact basesOf_append bases _
      rw [same] at listed
      obtain ⟨id, named, rfl⟩ := List.mem_map.mp listed
      exact ih _ all _ (mem_of_knows (bases id named)).1

end Founded

/-- The kinds after a standard kind was added. -/
def addStandard (ks : Kinds) (s : Standard) : Kinds :=
  match ks.add (.standard s) (StandardKinds.declaration s) with
  | .ok more => more
  | .error _ => ks

/-- Whether standard kinds can be added one after another, each of them new and with known bases. -/
def areFounded (ks : Kinds) : List Standard → Bool
  | [] => true
  | s :: rest => !ks.knows s && (StandardKinds.declaration s).bases.all ks.knows &&
    areFounded (ks.addStandard s) rest

theorem Founded.foldl (founded : ks.Founded) (kinds : List Standard)
    (areFounded : ks.areFounded kinds = true) : (kinds.foldl addStandard ks).Founded := by
  induction kinds generalizing ks with
  | nil => exact founded
  | cons s rest ih =>
    rw [Kinds.areFounded, Bool.and_eq_true, Bool.and_eq_true, Bool.not_eq_true'] at areFounded
    obtain ⟨⟨fresh, bases⟩, later⟩ := areFounded
    refine ih ?_ later
    rw [addStandard, Kinds.add]
    cases made : ks.make (.standard s) (StandardKinds.declaration s) with
    | error => exact founded
    | ok k => exact founded.of_make fresh (List.all_eq_true.mp bases) made

theorem founded_standard : standard.Founded :=
  Founded.empty.foldl StandardKinds.inOrder (by decide +kernel)

/-- The numbers of declared kinds are smaller than that of the next one. -/
def Counted (ks : Kinds) : Prop :=
  ∀ k ∈ ks.all, ∀ index, k.id = .declared index → index < ks.nextIndex

theorem Counted.fresh (counted : ks.Counted) : ks.knows (.declared ks.nextIndex) = false := by
  rw [knows, Option.isSome_eq_false_iff, Option.isNone_iff_eq_none, find?, List.find?_eq_none]
  intro k member same
  exact Nat.lt_irrefl _ (counted k member _ (eq_of_beq same))

theorem Counted.append (counted : ks.Counted) (next : k.id = .declared ks.nextIndex) :
    Counted ⟨ks.all ++ [k]⟩ := by
  have more : nextIndex ⟨ks.all ++ [k]⟩ = ks.nextIndex + 1 := by
    simp [nextIndex, List.filter_append, next]
  intro other member index declared
  rw [more]
  rcases List.mem_append.mp member with old | new
  · exact Nat.lt_succ_of_lt (counted other old index declared)
  · obtain rfl := List.mem_singleton.mp new
    rw [next] at declared
    cases declared
    exact Nat.lt_succ_self _

theorem Built.founded (built : ks.Built) : ks.Founded ∧ ks.Counted := by
  induction built with
  | standard =>
    refine ⟨founded_standard, fun k member index declared => ?_⟩
    have absent := standard_find?_declared index
    rw [← declared, founded_standard.find?_of_mem member] at absent
    cases absent
  | @declare ks more d k built bases declared ih =>
    obtain ⟨founded, counted⟩ := ih
    obtain ⟨made, all⟩ := all_of_declare declared
    obtain ⟨kinds⟩ := more
    cases all
    exact ⟨founded.of_make counted.fresh bases made, counted.append (follows_of_make made).1⟩

/-! ### Search orders -/

theorem mem_of_mem_basesOf {b : Kind} (bases : ∀ base ∈ k.declaration.bases, ks.knows base = true)
    (listed : b ∈ ks.basesOf k) : b ∈ ks.all ∧ b.id ∈ k.declaration.bases ∧ ks.get b.id = b := by
  obtain ⟨base, named, rfl⟩ := List.mem_map.mp listed
  obtain ⟨stands, same⟩ := Founded.mem_of_knows (bases base named)
  rw [same]
  exact ⟨stands, named, rfl⟩

namespace Founded

/-- No kind stands twice in an order, and all kinds of an order are known. -/
theorem order_of_mem (founded : ks.Founded) (member : k ∈ ks.all) :
    k.order.Nodup ∧ ∀ id ∈ k.order, ks.knows id = true := by
  induction founded generalizing k with
  | empty => cases member
  | @add ks last founded fresh bases follows ih =>
    have grows {id : KindId} (known : ks.knows id = true) : knows ⟨ks.all ++ [last]⟩ id = true :=
      knows_of_append rfl known
    rcases List.mem_append.mp member with old | new
    · obtain ⟨distinct, known⟩ := ih old
      exact ⟨distinct, fun id inside => grows (known id inside)⟩
    · obtain rfl := List.mem_singleton.mp new
      obtain ⟨rest, order, distinct, _, stems⟩ := exists_of_linearise? follows.order
      have known : ∀ id ∈ rest, ks.knows id = true := by
        intro id inside
        rcases stems id inside with named | ⟨_, listed, inside⟩
        · exact bases id named
        · obtain ⟨b, among, rfl⟩ := List.mem_map.mp listed
          exact (ih (mem_of_mem_basesOf bases among).1).2 id inside
      -- The kind is new, but all that its bases are derived from was known before.
      have absent : k.id ∉ rest := by
        intro again
        rw [known _ again] at fresh
        cases fresh
      have own := (founded.add fresh bases follows).knows_of_mem member
      rw [order]
      refine ⟨List.nodup_cons.mpr ⟨absent, distinct⟩, fun id inside => ?_⟩
      rcases List.mem_cons.mp inside with rfl | later
      · exact own
      · exact grows (known id later)

theorem own_mem_order (founded : ks.Founded) (member : k ∈ ks.all) : k.id ∈ k.order := by
  obtain ⟨rest, order, _⟩ := exists_of_linearise? (founded.follows_of_mem member).1.order
  rw [order]
  exact List.mem_cons_self

theorem mem_order_of_knows (founded : ks.Founded) (known : ks.knows id = true) :
    id ∈ (ks.get id).order := by
  obtain ⟨member, same⟩ := mem_of_knows known
  have own := founded.own_mem_order member
  rwa [same] at own

/-- The order of a kind starts with it, keeps the orders of its bases, and holds nothing else. -/
theorem exists_order (founded : ks.Founded) (member : k ∈ ks.all) : ∃ rest, k.order = k.id :: rest ∧
    (∀ b ∈ ks.basesOf k, b.order.Sublist k.order) ∧
      ∀ id ∈ rest, ∃ b ∈ ks.basesOf k, id ∈ b.order := by
  obtain ⟨follows, bases⟩ := founded.follows_of_mem member
  obtain ⟨rest, order, _, kept, stems⟩ := exists_of_linearise? follows.order
  refine ⟨rest, order, fun b listed => ?_, fun id inside => ?_⟩
  · rw [order]
    exact (kept _ (List.mem_map_of_mem listed)).cons k.id
  · rcases stems id inside with named | ⟨_, listed, inside⟩
    · exact ⟨_, List.mem_map_of_mem named, founded.mem_order_of_knows (bases id named)⟩
    · obtain ⟨b, among, rfl⟩ := List.mem_map.mp listed
      exact ⟨b, among, inside⟩

/-- Whatever a kind is derived from stands in its order with all that that is derived from. -/
theorem order_subset (founded : ks.Founded) :
    ∀ k ∈ ks.all, ∀ id ∈ k.order, (ks.get id).order ⊆ k.order := by
  refine founded.induction fun k member ih id inside => ?_
  obtain ⟨rest, order, kept, stems⟩ := founded.exists_order member
  have split : id = k.id ∨ id ∈ rest := by simpa [order] using inside
  rcases split with rfl | later
  · rw [founded.get_of_mem member]
    exact List.Subset.refl _
  · obtain ⟨b, listed, within⟩ := stems id later
    exact List.Subset.trans (ih b listed id within) (kept b listed).subset

end Founded

/-! ### Who hands an attribute down -/

/-- Whether a kind or one that it is derived from declares an attribute. -/
def has (ks : Kinds) (name : String) (id : KindId) : Bool := (ks.get id).order.any (ks.declares name)

/-- The kind from which a kind has an attribute: itself, if it declares the attribute, and otherwise
the one from which the leftmost of its bases that have the attribute has it. -/
inductive Hands (ks : Kinds) (name : String) : KindId → KindId → Prop where
  | own {id : KindId} (declares : ks.declares name id = true) : Hands ks name id id
  | inherit {id base owner : KindId} (none : ks.declares name id = false)
      (leftmost : (ks.get id).declaration.bases.find? (ks.has name) = some base)
      (hands : Hands ks name base owner) : Hands ks name id owner

/-- A kind declares an attribute, or the first kind in its order that does is one that the leftmost of
its bases that have the attribute is derived from, and the same holds for this base. -/
inductive Aligned (ks : Kinds) (name : String) : KindId → Prop where
  | own {id : KindId} (declares : ks.declares name id = true) : Aligned ks name id
  | inherit {id base first : KindId} (none : ks.declares name id = false)
      (leftmost : (ks.get id).declaration.bases.find? (ks.has name) = some base)
      (found : (ks.get id).order.find? (ks.declares name) = some first)
      (within : first ∈ (ks.get base).order) (later : Aligned ks name base) :
      Aligned ks name id

theorem Hands.unique {other : KindId} (first : ks.Hands name id owner)
    (second : ks.Hands name id other) : owner = other := by
  induction first with
  | own declares =>
    cases second with
    | own => rfl
    | inherit none =>
      rw [declares] at none
      cases none
  | inherit none leftmost _ ih =>
    cases second with
    | own declares =>
      rw [none] at declares
      cases declares
    | inherit _ leftmost' hands =>
      obtain rfl := Option.some.inj (leftmost.symm.trans leftmost')
      exact ih hands

namespace Founded

theorem declares_of_mem (founded : ks.Founded) (member : k ∈ ks.all) (name : String) :
    ks.declares name k.id = (k.ownAttribute? name).isSome := by
  rw [declares, founded.get_of_mem member]

/-- What is derived from a kind with attributes has attributes. -/
theorem isContainer_of_declares (founded : ks.Founded) (member : k ∈ ks.all) (inside : id ∈ k.order)
    (declares : ks.declares name id = true) : k.isContainer = true := by
  rw [Kinds.declares, Kind.ownAttribute?] at declares
  split at declares
  · rename_i container
    have among := founded.order_subset k member id inside (List.contains_iff_mem.mp container)
    exact List.contains_iff_mem.mpr among
  · cases declares

/-- A kind has the attributes that some kind in its order declares. -/
theorem isSome_find?_iff (founded : ks.Founded) (name : String) : ∀ k ∈ ks.all,
    (k.attributes.find? name).isSome = true ↔ ∃ id ∈ k.order, ks.declares name id = true := by
  refine founded.induction fun k member ih => ?_
  obtain ⟨follows, bases⟩ := founded.follows_of_mem member
  obtain ⟨rest, order, kept, stems⟩ := founded.exists_order member
  have own := founded.declares_of_mem member name
  constructor
  · intro some
    cases container : k.isContainer with
    | false =>
      rw [follows.plain container] at some
      cases some
    | true =>
      rw [follows.attributes container, Option.isSome_or, Bool.or_eq_true, ← own,
        List.isSome_findSome?, List.any_eq_true] at some
      rcases some with declares | ⟨b, listed, inherits⟩
      · exact ⟨k.id, founded.own_mem_order member, declares⟩
      · obtain ⟨id, inside, declares⟩ := (ih b listed).mp inherits
        exact ⟨id, (kept b listed).subset inside, declares⟩
  · rintro ⟨id, inside, declares⟩
    have container := founded.isContainer_of_declares member inside declares
    rw [follows.attributes container, Option.isSome_or, Bool.or_eq_true, ← own,
      List.isSome_findSome?, List.any_eq_true]
    have split : id = k.id ∨ id ∈ rest := by simpa [order] using inside
    rcases split with rfl | later
    · exact .inl declares
    · obtain ⟨b, listed, within⟩ := stems id later
      exact .inr ⟨b, listed, (ih b listed).mpr ⟨id, within, declares⟩⟩

theorem has_of_knows (founded : ks.Founded) (known : ks.knows id = true) (name : String) :
    ks.has name id = ((ks.get id).attributes.find? name).isSome := by
  rw [Bool.eq_iff_iff, founded.isSome_find?_iff name _ (mem_of_knows known).1, has, List.any_eq_true]

/-- An attribute that a kind does not declare itself is that of the leftmost base that has it. -/
theorem exists_leftmost (founded : ks.Founded) (member : k ∈ ks.all)
    (own : k.ownAttribute? name = none) (found : k.attributes.find? name = some a) :
    ∃ base ∈ k.declaration.bases, k.declaration.bases.find? (ks.has name) = some base ∧
      (ks.get base).attributes.find? name = some a := by
  obtain ⟨follows, bases⟩ := founded.follows_of_mem member
  cases container : k.isContainer with
  | false =>
    rw [follows.plain container] at found
    cases found
  | true =>
    rw [follows.attributes container, own, Option.none_or, basesOf, List.findSome?_map] at found
    obtain ⟨front, base, back, parts, found, before⟩ := List.findSome?_eq_some_iff.mp found
    have inherits : base ∈ k.declaration.bases := by simp [parts]
    have has : ks.has name base = true := by
      rw [founded.has_of_knows (bases base inherits)]
      exact Option.isSome_of_eq_some found
    have lacks : ∀ other ∈ front, (!ks.has name other) = true := by
      intro other earlier
      have inherits : other ∈ k.declaration.bases := by simp [parts, earlier]
      rw [founded.has_of_knows (bases other inherits)]
      exact congrArg (!Option.isSome ·) (before other earlier)
    have leftmost := List.find?_eq_some_iff_append.mpr ⟨has, front, back, parts, lacks⟩
    exact ⟨base, inherits, leftmost, found⟩

/-- An attribute is the one that the kind declares from which it is handed down. -/
theorem exists_hands (founded : ks.Founded) (name : String) : ∀ k ∈ ks.all, ∀ a,
    k.attributes.find? name = some a → ∃ owner ∈ k.order, ks.Hands name k.id owner ∧
      (ks.get owner).ownAttribute? name = some a := by
  refine founded.induction fun k member ih a found => ?_
  obtain ⟨follows, bases⟩ := founded.follows_of_mem member
  have declares := founded.declares_of_mem member name
  cases own : k.ownAttribute? name with
  | some b =>
    have declared := own
    rw [own] at declares
    rw [← founded.get_of_mem member] at declared
    have container := founded.isContainer_of_declares member (founded.own_mem_order member) declares
    rw [follows.attributes container, own] at found
    cases found
    exact ⟨k.id, founded.own_mem_order member, .own declares, declared⟩
  | none =>
    obtain ⟨base, inherits, leftmost, found⟩ := founded.exists_leftmost member own found
    have listed : ks.get base ∈ ks.basesOf k := List.mem_map_of_mem inherits
    obtain ⟨owner, inside, hands, declared⟩ := ih _ listed a found
    obtain ⟨_, _, kept, _⟩ := founded.exists_order member
    rw [own] at declares
    rw [(mem_of_knows (bases base inherits)).2] at hands
    rw [← founded.get_of_mem member] at leftmost
    exact ⟨owner, (kept _ listed).subset inside, .inherit declares leftmost hands, declared⟩

/-- The attribute of a name is the one that the kind declares from which it is handed down. -/
theorem find?_eq_some_iff (founded : ks.Founded) (member : k ∈ ks.all) :
    k.attributes.find? name = some a ↔ ∃ owner ∈ k.order, ks.Hands name k.id owner ∧
      (ks.get owner).ownAttribute? name = some a := by
  refine ⟨founded.exists_hands name k member a, ?_⟩
  rintro ⟨owner, inside, hands, declared⟩
  have declares : ks.declares name owner = true := Option.isSome_of_eq_some declared
  have present := (founded.isSome_find?_iff name k member).mpr ⟨owner, inside, declares⟩
  obtain ⟨b, found⟩ := Option.isSome_iff_exists.mp present
  obtain ⟨other, _, again, stands⟩ := founded.exists_hands name k member b found
  rw [hands.unique again, stands] at declared
  rw [found, declared]

/-- A base of a known kind is known, and its order is kept in that of the kind. -/
theorem base_of_leftmost (founded : ks.Founded) (known : ks.knows id = true)
    (leftmost : (ks.get id).declaration.bases.find? (ks.has name) = some base) :
    ks.knows base = true ∧ (ks.get base).order.Sublist (ks.get id).order := by
  obtain ⟨member, _⟩ := mem_of_knows known
  have inherits := List.mem_of_find?_eq_some leftmost
  obtain ⟨_, _, kept, _⟩ := founded.exists_order member
  exact ⟨(founded.follows_of_mem member).2 base inherits, kept _ (List.mem_map_of_mem inherits)⟩

/-- The kind from which an attribute is handed down stands in the order. -/
theorem mem_order_of_hands (founded : ks.Founded) (known : ks.knows id = true)
    (hands : ks.Hands name id owner) :
    owner ∈ (ks.get id).order ∧ ks.declares name owner = true := by
  induction hands with
  | own declares => exact ⟨founded.mem_order_of_knows known, declares⟩
  | inherit none leftmost hands ih =>
    obtain ⟨knows, part⟩ := founded.base_of_leftmost known leftmost
    obtain ⟨inside, declares⟩ := ih knows
    exact ⟨part.subset inside, declares⟩

/-- An attribute is that of the first kind in the order that declares it exactly if the bases that
hand it down are aligned with the orders. -/
theorem hands_first_iff (founded : ks.Founded) (known : ks.knows id = true)
    (hands : ks.Hands name id owner) :
    (ks.get id).order.find? (ks.declares name) = some owner ↔ ks.Aligned name id := by
  induction hands with
  | @own id declares =>
    obtain ⟨member, same⟩ := mem_of_knows known
    obtain ⟨rest, order, _⟩ := founded.exists_order member
    rw [order, same, List.find?_cons_of_pos declares]
    exact ⟨fun _ => .own declares, fun _ => rfl⟩
  | @inherit id base owner none leftmost hands ih =>
    obtain ⟨knows, part⟩ := founded.base_of_leftmost known leftmost
    obtain ⟨distinct, _⟩ := founded.order_of_mem (mem_of_knows known).1
    -- What comes first in the order comes first in the part of it that is the order of the base, but
    -- only if it stands there.
    constructor
    · intro found
      have within := (founded.mem_order_of_hands knows hands).1
      have first := find?_of_sublist part distinct found within
      exact .inherit none leftmost found within ((ih knows).mp first)
    · intro aligned
      cases aligned with
      | own declares =>
        rw [none] at declares
        cases declares
      | @inherit _ other first _ leftmost' found within later =>
        obtain rfl := Option.some.inj (leftmost.symm.trans leftmost')
        have same := find?_of_sublist part distinct found within
        rw [(ih knows).mpr later] at same
        rwa [← Option.some.inj same] at found

/-- Where no kind has more than one base, all bases are aligned with the orders. -/
theorem aligned_of_single (founded : ks.Founded) (known : ks.knows id = true)
    (single : ∀ other ∈ (ks.get id).order, (ks.get other).declaration.bases.length ≤ 1)
    (hands : ks.Hands name id owner) : ks.Aligned name id := by
  induction hands with
  | own declares => exact .own declares
  | @inherit id base owner none leftmost hands ih =>
    obtain ⟨knows, part⟩ := founded.base_of_leftmost known leftmost
    obtain ⟨member, same⟩ := mem_of_knows known
    obtain ⟨rest, order, _, stems⟩ := founded.exists_order member
    have inherits := List.mem_of_find?_eq_some leftmost
    have alone : (ks.get id).declaration.bases = [base] := by
      have few := single id (founded.mem_order_of_knows known)
      have some := List.length_pos_of_mem inherits
      obtain ⟨only, bases⟩ := List.length_eq_one_iff.mp (Nat.le_antisymm few some)
      rw [bases, List.mem_singleton] at inherits
      rw [bases, inherits]
    obtain ⟨inside, declares⟩ := founded.mem_order_of_hands knows hands
    obtain ⟨first, found⟩ : ∃ first, (ks.get id).order.find? (ks.declares name) = some first :=
      Option.isSome_iff_exists.mp (List.find?_isSome.mpr ⟨owner, part.subset inside, declares⟩)
    have within : first ∈ (ks.get base).order := by
      have member := List.mem_of_find?_eq_some found
      have declared := List.find?_some found
      rw [order, same, List.mem_cons] at member
      rcases member with rfl | later
      · rw [none] at declared
        cases declared
      · obtain ⟨b, listed, within⟩ := stems first later
        rw [basesOf, alone] at listed
        rwa [List.mem_singleton.mp listed] at within
    have later := ih knows fun other inside => single other (part.subset inside)
    exact .inherit none leftmost found within later

end Founded

/-- The first declaration in an order is that of the first kind which declares an attribute. -/
theorem findSome?_of_first {order : List KindId} (found : order.find? (ks.declares name) = some owner)
    (declared : (ks.get owner).ownAttribute? name = some a) :
    (order.findSome? fun id => (ks.get id).ownAttribute? name) = some a := by
  obtain ⟨_, front, back, parts, earlier⟩ := List.find?_eq_some_iff_append.mp found
  refine List.findSome?_eq_some_iff.mpr ⟨front, owner, back, parts, declared, fun id before => ?_⟩
  simpa [declares] using earlier id before

/-- Where no kind has more than one base, a kind has the first declaration in its order. -/
theorem Founded.find?_of_single (founded : ks.Founded) (member : k ∈ ks.all)
    (single : ∀ id ∈ k.order, (ks.get id).declaration.bases.length ≤ 1) (name : String) :
    k.attributes.find? name = k.order.findSome? fun id => (ks.get id).ownAttribute? name := by
  have same := founded.get_of_mem member
  have known := founded.knows_of_mem member
  cases found : k.attributes.find? name with
  | none =>
    refine (List.findSome?_eq_none_iff.mpr fun id inside => ?_).symm
    by_contra some
    have declares : ks.declares name id = true := Option.isSome_iff_ne_none.mpr some
    have present := (founded.isSome_find?_iff name k member).mpr ⟨id, inside, declares⟩
    rw [found] at present
    cases present
  | some a =>
    obtain ⟨owner, _, hands, declared⟩ := founded.exists_hands name k member a found
    have aligned := founded.aligned_of_single known (by rwa [same]) hands
    have first := (founded.hands_first_iff known hands).mpr aligned
    rw [same] at first
    exact (findSome?_of_first first declared).symm

end Kinds

/-! ### New objects -/

variable {φ : Type} {w : World φ} {k : Kind}

namespace Attribute

/-- What an attribute of a new object has its value from: its default as it takes it, or nothing. -/
def StartsFrom (a : Attribute) (w : World φ) (owner : String) (source : Source) : Prop :=
  match a.initial with
  | none => source = .void
  | some v => ∃ taken, a.accept w owner v = .ok taken ∧ source = .value taken

/-- An attribute takes its own default. -/
def TakesDefault (a : Attribute) (w : World φ) (owner : String) : Prop :=
  ∀ v, a.initial = some v → ∃ taken, a.accept w owner v = .ok taken

end Attribute

namespace Engine

theorem run_initialFields_cons (name : String) {a : Attribute} (takes : a.TakesDefault w k.name)
    (rest : List (String × Attribute)) (fields : Table String Source) :
    ∃ source, a.StartsFrom w k.name source ∧ (initialFields k ((name, a) :: rest) fields).run w =
      (initialFields k rest (fields.put name source)).run w := by
  rw [initialFields]
  unfold Attribute.StartsFrom
  cases initial : a.initial with
  | none => exact ⟨.void, rfl, rfl⟩
  | some v =>
    obtain ⟨taken, accepts⟩ := takes v initial
    refine ⟨.value taken, ⟨taken, accepts, rfl⟩, ?_⟩
    have takes : (consult fun w => a.accept w k.name v).run w = (.ok taken, w) :=
      run_consult_ok accepts
    exact run_bind_ok takes

/-- Attributes that take their defaults start from them, one after another. -/
theorem run_initialFields_of_takes {attributes : List (String × Attribute)}
    (takes : ∀ entry ∈ attributes, entry.2.TakesDefault w k.name) (fields : Table String Source)
    (distinct : (fields.keys ++ attributes.map Prod.fst).Nodup) : ∃ after added,
      (initialFields k attributes fields).run w = (.ok after, w) ∧
        after.entries = fields.entries ++ added ∧
        List.Forall₂ (fun entry field => field.1 = entry.1 ∧ entry.2.StartsFrom w k.name field.2)
          attributes added := by
  induction attributes generalizing fields with
  | nil => exact ⟨fields, [], rfl, (List.append_nil _).symm, .nil⟩
  | cons entry rest ih =>
    obtain ⟨name, a⟩ := entry
    obtain ⟨source, starts, ran⟩ :=
      run_initialFields_cons name (takes _ List.mem_cons_self) rest fields
    have absent : name ∉ fields.keys := fun again =>
      (List.nodup_append.mp distinct).2.2 name again name List.mem_cons_self rfl
    have put : (fields.put name source).entries = fields.entries ++ [(name, source)] :=
      Table.putIn_of_absent absent
    have keys : (fields.put name source).keys = fields.keys ++ [name] := by
      rw [Table.keys, put, List.map_append]
      rfl
    obtain ⟨after, added, ends, entries, follows⟩ :=
      ih (fun entry later => takes entry (List.mem_cons_of_mem _ later)) (fields.put name source)
        (by rw [keys]; simpa using distinct)
    refine ⟨after, (name, source) :: added, ran.trans ends, ?_, .cons ⟨rfl, starts⟩ follows⟩
    rw [entries, put, List.append_assoc]
    rfl

/-- An object that is made of a kind has all its attributes, and no others. -/
theorem run_instantiate_of_takes (makes : (w.kinds.construction? k).isSome = true)
    (closed : w.kinds.openMembers k = [])
    (takes : ∀ entry ∈ k.attributes.entries, entry.2.TakesDefault w k.name) (project : ProjectId) :
    ∃ fields, (instantiate k project).run w = (.ok w.objects.length,
        { w with objects := w.objects ++ [{ kind := k.id, project, fields }] }) ∧
      List.Forall₂ (fun entry field => field.1 = entry.1 ∧ entry.2.StartsFrom w k.name field.2)
        k.attributes.entries fields.entries := by
  obtain ⟨fields, added, starts, entries, follows⟩ :=
    run_initialFields_of_takes takes .empty k.attributes.nodup_keys
  obtain rfl : added = fields.entries := entries.symm
  exact ⟨fields, by rw [run_instantiate_eq makes closed, run_bind_ok starts, run_addObject], follows⟩

/-- A kind has the attributes that some kind in its order declares, each from the leftmost bases that
have it; the declaration is the first one in the order exactly if these bases are aligned with it, as
they are where no kind has more than one base. An object that is made of the kind has just these
attributes, with their defaults if they have any and without a value otherwise. -/
theorem attributes_by_leftmost_bases (built : w.kinds.Built) (member : k ∈ w.kinds.all) :
    (∀ name, k.attributes.contains name = true ↔
      ∃ id ∈ k.order, w.kinds.declares name id = true) ∧
    (∀ name a, k.attributes.find? name = some a ↔ ∃ owner ∈ k.order,
      w.kinds.Hands name k.id owner ∧ (w.kinds.get owner).ownAttribute? name = some a) ∧
    (∀ name owner, w.kinds.Hands name k.id owner →
      (k.order.find? (w.kinds.declares name) = some owner ↔ w.kinds.Aligned name k.id)) ∧
    ((∀ id ∈ k.order, (w.kinds.get id).declaration.bases.length ≤ 1) → ∀ name,
      k.attributes.find? name = k.order.findSome? fun id => (w.kinds.get id).ownAttribute? name) ∧
    ((w.kinds.construction? k).isSome = true → w.kinds.openMembers k = [] →
      (∀ entry ∈ k.attributes.entries, entry.2.TakesDefault w k.name) → ∀ project, ∃ fields,
        (instantiate k project).run w = (.ok w.objects.length,
          { w with objects := w.objects ++ [{ kind := k.id, project, fields }] }) ∧
        List.Forall₂ (fun entry field => field.1 = entry.1 ∧ entry.2.StartsFrom w k.name field.2)
          k.attributes.entries fields.entries) := by
  obtain ⟨founded, _⟩ := built.founded
  refine ⟨fun name => founded.isSome_find?_iff name k member,
    fun name a => founded.find?_eq_some_iff member, fun name owner hands => ?_,
    founded.find?_of_single member, run_instantiate_of_takes⟩
  have first := founded.hands_first_iff (founded.knows_of_mem member) hands
  rwa [founded.get_of_mem member] at first

end Engine

namespace Kinds

/-- The kinds after a declaration, which changes nothing if it fails. -/
def after (ks : Kinds) (d : Declaration) : Kinds :=
  match ks.declare d with
  | .ok (_, more) => more
  | .error _ => ks

theorem Built.after {ks : Kinds} {d : Declaration} (built : ks.Built)
    (bases : ∀ base ∈ d.bases, ks.knows base = true) : (ks.after d).Built := by
  unfold Kinds.after
  split
  · rename_i declared
    exact built.declare bases declared
  · exact built

end Kinds

namespace Sample

open StandardKinds

def shape : Declaration where
  name := "Shape"
  home := "shapes"
  bases := [Standard.container]
  attributes := [plain "label" .text, {
    name := "size", hint := .type .int, initial := some (.int 1), help := some "A number."
    hasOptions := true }]

def round : Declaration where
  name := "Round"
  home := "shapes"
  bases := [.declared 0]

def large : Declaration where
  name := "Large"
  home := "shapes"
  bases := [.declared 0]
  attributes := [{
    name := "size", hint := .type .text, initial := some (.text "large"), help := some "A word."
    hasOptions := true }]

/-- A declaration with two bases that share a base. -/
def disc : Declaration where
  name := "Disc"
  home := "shapes"
  bases := [.declared 1, .declared 2]

def shapes : Kinds := (((Kinds.standard.after shape).after round).after large).after disc

theorem shapes_built : shapes.Built :=
  (((Kinds.Built.standard.after (by decide +kernel)).after (by decide +kernel)).after
    (by decide +kernel)).after (by decide +kernel)

def drawing : World Unit where
  files := ()
  kinds := shapes

end Sample

/-- A round shape is derived from one kind only, so it has the declarations of its order; an object
that is made of it starts with the default of its size and without a label. -/
theorem Engine.attributes_by_leftmost_bases_round :
    ∃ k ∈ Sample.drawing.kinds.all, k.attributes.keys = ["label", "size"] ∧
      (∀ name, k.attributes.find? name =
        k.order.findSome? fun id => (Sample.drawing.kinds.get id).ownAttribute? name) ∧
      ∃ fields, (instantiate k 0).run Sample.drawing =
          (.ok 0, { Sample.drawing with objects := [{ kind := k.id, project := 0, fields }] }) ∧
        List.Forall₂ (fun entry field =>
            field.1 = entry.1 ∧ entry.2.StartsFrom Sample.drawing k.name field.2)
          k.attributes.entries fields.entries := by
  have known : Sample.drawing.kinds.knows (.declared 1) = true := by decide +kernel
  obtain ⟨member, _⟩ := Kinds.Founded.mem_of_knows known
  have built : Sample.drawing.kinds.Built := by
    dsimp only [Sample.drawing]
    exact Sample.shapes_built
  obtain ⟨_, _, _, first, new⟩ := attributes_by_leftmost_bases built member
  have single : ∀ id ∈ (Sample.drawing.kinds.get (.declared 1)).order,
      (Sample.drawing.kinds.get id).declaration.bases.length ≤ 1 := by
    decide +kernel
  have makes : (Sample.drawing.kinds.construction?
      (Sample.drawing.kinds.get (.declared 1))).isSome = true := by
    decide +kernel
  have closed : Sample.drawing.kinds.openMembers (Sample.drawing.kinds.get (.declared 1)) = [] := by
    decide +kernel
  have accepts : (Sample.drawing.kinds.get (.declared 1)).attributes.entries.all (fun entry =>
      entry.2.initial.all fun v => (entry.2.accept Sample.drawing "Round" v).isOk) = true := by
    decide +kernel
  have name : (Sample.drawing.kinds.get (.declared 1)).name = "Round" := by decide +kernel
  have keys : (Sample.drawing.kinds.get (.declared 1)).attributes.keys = ["label", "size"] := by
    decide +kernel
  refine ⟨_, member, keys, first single, new makes closed (fun entry stored v initial => ?_) 0⟩
  have takes := List.all_eq_true.mp accepts entry stored
  rw [initial, Option.all_some] at takes
  rw [name]
  cases taken : entry.2.accept Sample.drawing "Round" v with
  | ok value => exact ⟨value, rfl⟩
  | error => rw [taken] at takes; cases takes

/-- A kind has an attribute from its left base, which does not declare it, although the right base
does, which stands in front of the shared one in the order. -/
theorem Kinds.attribute_past_override : Sample.shapes.Built ∧ ∃ k ∈ Sample.shapes.all,
    k.order.take 4 = [.declared 3, .declared 1, .declared 2, .declared 0] ∧
    (k.attributes.find? "size").map Attribute.help = some (some "A number.") ∧
    (k.order.findSome? fun id => (Sample.shapes.get id).ownAttribute? "size").map Attribute.help =
      some (some "A word.") := by
  have known : Sample.shapes.knows (.declared 3) = true := by decide +kernel
  refine ⟨Sample.shapes_built, _, (Founded.mem_of_knows known).1, ?_, ?_, ?_⟩
  · decide +kernel
  · decide +kernel
  · decide +kernel

end BuildEngine
