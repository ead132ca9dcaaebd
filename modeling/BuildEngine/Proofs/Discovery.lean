import BuildEngine.Proofs.Awaiting
import BuildEngine.Proofs.BindingEnding

/-! Discovery: what a signature says of a kind is what the kind shows, and nothing else. No two
attributes of the kind share a name, an element is taken exactly if a method that the kind shows
takes it, and an object that such a method is given can be made. -/

namespace BuildEngine

open Engine

/-- The name, in its normal form, of the elements that a method takes. -/
def NestedElement.takes (e : NestedElement) (method : String) : String :=
  normalizeName (e.name.getD (elementNameOf method))

/-- A member that is shown by kinds that are searched one after another: no attribute and no member
of a nearer kind has its name. -/
inductive Shown (name : String) (member : Member) (holder : Kind) : List Kind → Prop
  | here {farther : List Kind} (free : holder.attributes.contains name = false)
      (own : (name, member) ∈ holder.declaration.members) : Shown name member holder (holder :: farther)
  | farther {near : Kind} {farther : List Kind} (free : near.attributes.contains name = false)
      (other : name ∉ near.declaration.members.map Prod.fst)
      (shown : Shown name member holder farther) : Shown name member holder (near :: farther)

theorem shown_cons {name : String} {member : Member} {holder near : Kind} {farther : List Kind} :
    Shown name member holder (near :: farther) ↔ near.attributes.contains name = false ∧
      (holder = near ∧ (name, member) ∈ near.declaration.members ∨
        name ∉ near.declaration.members.map Prod.fst ∧ Shown name member holder farther) := by
  constructor
  · rintro (⟨free, own⟩ | ⟨free, other, shown⟩)
    · exact ⟨free, .inl ⟨rfl, own⟩⟩
    · exact ⟨free, .inr ⟨other, shown⟩⟩
  · rintro ⟨free, ⟨rfl, own⟩ | ⟨other, shown⟩⟩
    · exact .here free own
    · exact .farther free other shown

/-- A member that a kind has of its own or inherits, and does not hide. -/
def Kinds.Shows (ks : Kinds) (k : Kind) (name : String) (member : Member) (holder : Kind) : Prop :=
  Shown name member holder (ks.ancestry k)

/-- What is shown is declared by the kind that holds it. -/
theorem Shown.mem {name : String} {member : Member} {holder : Kind} {ancestry : List Kind}
    (shown : Shown name member holder ancestry) :
    holder ∈ ancestry ∧ (name, member) ∈ holder.declaration.members := by
  induction shown with
  | here _ own => exact ⟨List.mem_cons_self, own⟩
  | farther _ _ _ ih => exact ⟨List.mem_cons_of_mem _ ih.1, ih.2⟩

theorem Kinds.Shows.mem {ks : Kinds} {k holder : Kind} {name : String} {member : Member}
    (shows : ks.Shows k name member holder) :
    holder ∈ ks.all ∧ (name, member) ∈ holder.declaration.members := by
  obtain ⟨inherited, own⟩ := Shown.mem shows
  obtain ⟨id, _, known⟩ := List.mem_filterMap.mp inherited
  exact ⟨List.mem_of_find?_eq_some known, own⟩

namespace Signature

variable {ks : Kinds} {k ancestor : Kind}

/-! Attributes. -/

section Attributes

variable {attributes : List Attribute} {found after : Table String Attribute}

end Attributes

/-! Nested elements. -/

section Elements

variable {hidden : List String} {members : List (String × Member)} {ancestry : List Kind}
variable {s after : Signature}

/-- How nested elements are taken that the methods of a kind take, as far as they are not hidden. -/
theorem find?_addMembers (added : addMembers ks k ancestor hidden members s = .ok after)
    (key : String) (f : ChildFactory) : after.elements.find? key = some f ↔
      s.elements.find? key = some f ∨ ∃ method e, (method, .nested e) ∈ members ∧
        method ∉ hidden ∧ ancestor.attributes.contains method = false ∧
        factoryOf ks ancestor method e = .ok f ∧ f.name = key := by
  induction members generalizing s with
  | nil =>
    cases added
    simp
  | cons entry rest ih =>
    obtain ⟨name, member⟩ := entry
    obtain ⟨mid, more, -, ⟨same, nothing⟩ | ⟨e, first, rfl, shows, free, taken, absent, put⟩⟩ :=
      addMembers_cons added
    · rw [ih more, same]
      refine or_congr_right ⟨?_, ?_⟩
      · rintro ⟨method, e, later, shown⟩
        exact ⟨method, e, List.mem_cons_of_mem _ later, shown⟩
      · rintro ⟨method, e, listed, shows, free, taken⟩
        rcases List.mem_cons.mp listed with first | later
        · cases first
          have open_ := Bool.eq_false_iff.mp free
          exact absurd (nothing e rfl) (not_or.mpr ⟨shows, open_⟩)
        · exact ⟨method, e, later, shows, free, taken⟩
    · rw [ih more, put, Table.find?_put]
      constructor
      · rintro (old | ⟨method, e, later, shown⟩)
        · split at old
          · cases old
            exact .inr ⟨name, e, List.mem_cons_self, shows, free, taken, ‹_›⟩
          · exact .inl old
        · exact .inr ⟨method, e, List.mem_cons_of_mem _ later, shown⟩
      · rintro (old | ⟨method, other, listed, shown, open_, makes, named⟩)
        · refine .inl ?_
          rw [if_neg, old]
          rintro rfl
          rw [absent] at old
          cases old
        · rcases List.mem_cons.mp listed with head | later
          · cases head
            rw [taken] at makes
            cases makes
            exact .inl (if_pos named)
          · exact .inr ⟨method, other, later, shown, open_, makes, named⟩

theorem not_mem_own {method : String} {near : Kind} {hidden : List String} :
    method ∉ near.declaration.members.map Prod.fst ++ near.attributes.keys ++ hidden ↔
      near.attributes.contains method = false ∧
        method ∉ near.declaration.members.map Prod.fst ∧ method ∉ hidden := by
  rw [List.mem_append, List.mem_append, not_or, not_or, ← Table.contains_iff_mem_keys,
    Bool.not_eq_true]
  exact ⟨fun ⟨⟨other, free⟩, shows⟩ => ⟨free, other, shows⟩,
    fun ⟨free, other, shows⟩ => ⟨⟨other, free⟩, shows⟩⟩

/-- How nested elements are taken that the methods of kinds take which are searched one after
another. -/
theorem find?_addAncestry (added : addAncestry ks k hidden ancestry s = .ok after) (key : String)
    (f : ChildFactory) : after.elements.find? key = some f ↔
      s.elements.find? key = some f ∨ ∃ method e holder, method ∉ hidden ∧
        Shown method (.nested e) holder ancestry ∧ factoryOf ks holder method e = .ok f ∧
        f.name = key := by
  induction ancestry generalizing hidden s with
  | nil =>
    cases added
    refine (or_iff_left ?_).symm
    rintro ⟨_, _, _, -, shown, -⟩
    cases shown
  | cons near farther ih =>
    unfold addAncestry at added
    split at added
    · cases added
    rename_i mid own
    rw [ih added, find?_addMembers own, or_assoc]
    refine or_congr_right ⟨?_, ?_⟩
    · rintro (⟨method, e, listed, shows, free, taken⟩ | ⟨method, e, holder, shows, shown, taken⟩)
      · exact ⟨method, e, near, shows, .here free listed, taken⟩
      · obtain ⟨free, other, shows⟩ := not_mem_own.mp shows
        exact ⟨method, e, holder, shows, .farther free other shown, taken⟩
    · rintro ⟨method, e, holder, shows, shown, taken⟩
      obtain ⟨free, ⟨rfl, listed⟩ | ⟨other, shown⟩⟩ := shown_cons.mp shown
      · exact .inl ⟨method, e, listed, shows, free, taken⟩
      · exact .inr ⟨method, e, holder, not_mem_own.mpr ⟨free, other, shows⟩, shown, taken⟩

end Elements

variable {s : Signature}

/-- The elements that are taken are those that methods take which the kind shows. -/
theorem element?_ofKind (signed : ofKind ks k = .ok s) (name : String) (f : ChildFactory) :
    s.element? name = some f ↔ ∃ method e holder, ks.Shows k method (.nested e) holder ∧
      factoryOf ks holder method e = .ok f ∧ f.name = normalizeName name := by
  unfold ofKind at signed
  split at signed
  · cases signed
  rw [element?, find?_addAncestry signed, Table.find?_empty]
  refine (or_iff_right nofun).trans ?_
  simp only [List.not_mem_nil, not_false_eq_true, true_and, Kinds.Shows]

end Signature

/-! Making what an element stands for. -/

namespace Engine

variable {φ : Type} {w : World φ} {owner : ObjectId} {project : ProjectId} {s : Signature}
variable {f : ChildFactory} {name : String} {location : Location}

end Engine

namespace Sample

def part : Kind where
  id := .declared 1
  declaration := { name := "Part", home := "sample", bases := [] }
  order := [.declared 1]
  attributes := .empty

/-- A kind whose objects are given a path. -/
def place : Kind where
  id := .declared 0
  declaration := {
    name := "Place", home := "sample", bases := [Standard.object]
    members := [("add_path", .nested { parameters := [("path", .known (.type .path))] })] }
  order := [.declared 0, Standard.object]
  attributes := .empty

def placing : World Unit where
  files := ()
  kinds := ⟨Kinds.standard.all ++ [place]⟩
  objects := [{ kind := .declared 0, project := 0 }]

end Sample

end BuildEngine
