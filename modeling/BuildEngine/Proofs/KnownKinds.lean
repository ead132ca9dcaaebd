import BuildEngine.Proofs.Expansion
import BuildEngine.Proofs.KindShape

/-! Known kinds: wherever the standard kinds stand among others, they have the members, the signature
and the attributes that they have among themselves, whatever the others are. -/

namespace BuildEngine

/-- Whether the children that a method is given are of a kind of some sort. -/
def Member.givesOnly (sort : KindId → Bool) : Member → Bool
  | .nested e => e.givenKind?.all sort
  | _ => true

namespace Kinds

/-- Kinds of some sort are the same in two tables, and have ancestors of that sort. -/
structure Shares (sort : KindId → Bool) (ks base : Kinds) : Prop where
  find : ∀ id, sort id = true → ks.find? id = base.find? id
  orders : ∀ id, sort id = true → (base.get id).order.all sort = true

namespace Shares

variable {sort : KindId → Bool} {ks base : Kinds} {id : KindId}

theorem get (shares : Shares sort ks base) (common : sort id = true) : ks.get id = base.get id :=
  congrArg (fun found => found.getD default) (shares.find id common)

theorem ancestry (shares : Shares sort ks base) (common : sort id = true) :
    ks.ancestry (base.get id) = base.ancestry (base.get id) := by
  apply List.filterMap_congr
  intro ancestor member
  exact shares.find ancestor (List.all_eq_true.mp (shares.orders id common) ancestor member)

theorem member? (shares : Shares sort ks base) (common : sort id = true) (name : String) :
    ks.member? (base.get id) name = base.member? (base.get id) name := by
  rw [Kinds.member?, shares.ancestry common, Kinds.member?]

theorem performer? (shares : Shares sort ks base) (common : sort id = true) :
    ks.performer? (base.get id) = base.performer? (base.get id) := by
  rw [Kinds.performer?, shares.member? common, Kinds.performer?]

theorem construction? (shares : Shares sort ks base) (common : sort id = true) :
    ks.construction? (base.get id) = base.construction? (base.get id) := by
  rw [Kinds.construction?, parameters, shares.ancestry common, Kinds.construction?, parameters]

theorem openMembers (shares : Shares sort ks base) (common : sort id = true) :
    ks.openMembers (base.get id) = base.openMembers (base.get id) := by
  simp only [Kinds.openMembers, shares.ancestry common, shares.member? common]

/-- How a nested element is taken does not depend on further kinds if its children are of a common
one. -/
theorem factoryOf (shares : Shares sort ks base) {owner : Kind} {method : String}
    {e : NestedElement} {f : ChildFactory} (given : (Member.nested e).givesOnly sort = true)
    (taken : Signature.factoryOf base owner method e = .ok f) :
    Signature.factoryOf ks owner method e = .ok f := by
  unfold Signature.factoryOf at taken ⊢
  dsimp only at taken ⊢
  split at taken
  · exact taken
  · rename_i parameters
    split at taken
    · cases taken
    rename_i evaluable
    split at taken
    · cases taken
    rename_i single
    split at taken
    case h_2 => cases taken
    rename_i hint
    split at taken
    · cases taken
    rename_i type alone
    split at taken
    · cases taken
    rename_i id constructible
    have common : sort id = true := by
      rw [Member.givesOnly, NestedElement.givenKind?, parameters] at given
      simpa [alone, constructible] using given
    rw [if_neg evaluable, if_neg single]
    simp only [shares.get common, shares.openMembers common, shares.construction? common]
    split at taken
    · cases taken
    rename_i closed
    split at taken
    · cases taken
    rename_i makes
    rw [if_neg closed, if_neg makes]
    exact taken

theorem addMembers (shares : Shares sort ks base) {k ancestor : Kind} {hidden : List String}
    {members : List (String × Member)} {s after : Signature}
    (given : ∀ entry ∈ members, entry.2.givesOnly sort = true)
    (added : Signature.addMembers base k ancestor hidden members s = .ok after) :
    Signature.addMembers ks k ancestor hidden members s = .ok after := by
  induction members generalizing s with
  | nil => exact added
  | cons entry rest ih =>
    obtain ⟨name, member⟩ := entry
    have first := given _ List.mem_cons_self
    have others := fun entry (later : entry ∈ rest) => given entry (List.mem_cons_of_mem _ later)
    unfold Signature.addMembers at added ⊢
    split at added
    · rename_i hides
      rw [if_pos hides]
      exact ih others added
    rename_i shows
    rw [if_neg shows]
    cases member with
    | plain => exact ih others added
    | required => exact ih others added
    | text handler =>
      simp only at added ⊢
      split at added
      · cases added
      split at added
      · cases added
      · rename_i free arity
        rw [if_neg arity]
        exact ih others added
    | nested e =>
      simp only at added ⊢
      split at added
      · cases added
      rename_i f taken
      rw [shares.factoryOf first taken]
      simp only
      split at added
      · cases added
      · exact ih others added

theorem addAncestry (shares : Shares sort ks base) {k : Kind} {hidden : List String}
    {ancestry : List Kind} {s after : Signature}
    (given : ∀ ancestor ∈ ancestry, ∀ entry ∈ ancestor.declaration.members,
      entry.2.givesOnly sort = true)
    (added : Signature.addAncestry base k hidden ancestry s = .ok after) :
    Signature.addAncestry ks k hidden ancestry s = .ok after := by
  induction ancestry generalizing hidden s with
  | nil => exact added
  | cons ancestor rest ih =>
    unfold Signature.addAncestry at added ⊢
    split at added
    · cases added
    rename_i more own
    rw [shares.addMembers (given ancestor List.mem_cons_self) own]
    exact ih (fun other later => given other (List.mem_cons_of_mem _ later)) added

/-- A kind has the signature that it has where there are no further kinds. -/
theorem ofKind (shares : Shares sort ks base) {signature : Signature} (common : sort id = true)
    (given : ∀ k ∈ base.all, ∀ entry ∈ k.declaration.members, entry.2.givesOnly sort = true)
    (signed : Signature.ofKind base (base.get id) = .ok signature) :
    Signature.ofKind ks (base.get id) = .ok signature := by
  unfold Signature.ofKind at signed ⊢
  split at signed
  · cases signed
  rename_i attributes listed
  rw [shares.ancestry common]
  apply shares.addAncestry _ signed
  intro ancestor inherited
  obtain ⟨id, _, found⟩ := List.mem_filterMap.mp inherited
  exact given ancestor (List.mem_of_find?_eq_some found)

end Shares

/-- The standard kinds stand under their identities. -/
def HasStandard (ks : Kinds) : Prop := ∀ s : Standard, ks.find? s = standard.find? s

/-- The standard kinds are complete: what they are derived from and what their methods are given is
among them, and they have signatures. -/
theorem standard_closed :
    (StandardKinds.inOrder.all fun s => (standard.get s).order.all KindId.isStandard) = true ∧
    (standard.all.all fun k =>
      k.declaration.members.all fun entry => entry.2.givesOnly KindId.isStandard) = true ∧
    (StandardKinds.inOrder.all fun s =>
      (Signature.ofKind standard (standard.get s)).toOption.isSome) = true := by
  decide +kernel

theorem standard_signed (s : Standard) :
    ∃ signature, Signature.ofKind standard (standard.get s) = .ok signature := by
  have isSigned := List.all_eq_true.mp standard_closed.2.2 s (StandardKinds.mem_inOrder s)
  cases signed : Signature.ofKind standard (standard.get s) with
  | error => rw [signed] at isSigned; cases isSigned
  | ok signature => exact ⟨signature, rfl⟩

namespace HasStandard

variable {ks : Kinds}

theorem standard : Kinds.standard.HasStandard := fun _ => rfl

theorem shares (known : ks.HasStandard) : Shares KindId.isStandard ks Kinds.standard where
  find
    | .standard s, _ => known s
  orders
    | .standard s, _ => List.all_eq_true.mp standard_closed.1 s (StandardKinds.mem_inOrder s)

theorem get (known : ks.HasStandard) (s : Standard) : ks.get s = Kinds.standard.get s :=
  known.shares.get rfl

theorem member? (known : ks.HasStandard) (s : Standard) (name : String) :
    ks.member? (Kinds.standard.get s) name = Kinds.standard.member? (Kinds.standard.get s) name :=
  known.shares.member? rfl name

theorem performer? (known : ks.HasStandard) (s : Standard) :
    ks.performer? (Kinds.standard.get s) = Kinds.standard.performer? (Kinds.standard.get s) :=
  known.shares.performer? rfl

theorem construction? (known : ks.HasStandard) (s : Standard) :
    ks.construction? (Kinds.standard.get s) = Kinds.standard.construction? (Kinds.standard.get s) :=
  known.shares.construction? rfl

theorem openMembers (known : ks.HasStandard) (s : Standard) :
    ks.openMembers (Kinds.standard.get s) = Kinds.standard.openMembers (Kinds.standard.get s) :=
  known.shares.openMembers rfl

theorem ofKind (known : ks.HasStandard) {s : Standard} {signature : Signature}
    (signed : Signature.ofKind Kinds.standard (Kinds.standard.get s) = .ok signature) :
    Signature.ofKind ks (Kinds.standard.get s) = .ok signature := by
  apply known.shares.ofKind rfl _ signed
  intro k member entry listed
  exact List.all_eq_true.mp (List.all_eq_true.mp standard_closed.2.1 k member) entry listed

end HasStandard

/-- Whether an attribute takes texts. -/
def takesTexts (a : Attribute) : Bool :=
  match a.accepted.filter fun type => !type.same .nothing with
  | .text :: _ => true
  | _ => false

/-- Whether a kind has an attribute that takes texts, under a name that build descriptions give it. -/
def hasText (ks : Kinds) (k : Kind) (name field : String) : Bool :=
  ((Signature.ofKind ks k).toOption.bind (·.attribute? name)).any fun a =>
    a.name == field && takesTexts a && (k.attributes.find? a.name).any takesTexts

theorem HasStandard.hasText {ks : Kinds} (known : ks.HasStandard) {s : Standard}
    {name field : String} (texts : Kinds.standard.hasText (Kinds.standard.get s) name field = true) :
    ks.hasText (Kinds.standard.get s) name field = true := by
  obtain ⟨signature, signed⟩ := standard_signed s
  have same := known.ofKind signed
  generalize Kinds.standard.get s = k at texts signed same ⊢
  unfold Kinds.hasText at texts ⊢
  rw [signed] at texts
  rw [same]
  exact texts

end Kinds

theorem Attribute.takesTexts_of_check {a : Attribute} (checked : Kinds.takesTexts a = true) :
    a.TakesTexts := by
  unfold Kinds.takesTexts at checked
  split at checked
  · rename_i rest accepted
    exact ⟨rest, accepted⟩
  · cases checked

section Objects

variable {φ : Type} {w : World φ} {id : ObjectId} {s : Standard} {name field : String}

theorem World.kindOf_of_standard (known : w.kinds.HasStandard)
    (kind : (w.object id).kind = .standard s) : w.kindOf id = Kinds.standard.get s := by
  rw [kindOf, kind]
  exact known.get s

/-- The objects of a kind have its attributes that take texts. -/
theorem textAttribute_of_hasText (texts : w.kinds.hasText (w.kindOf id) name field = true) :
    ∃ a, a.name = field ∧ Engine.TextAttribute w id name a := by
  unfold Kinds.hasText at texts
  cases signed : Signature.ofKind w.kinds (w.kindOf id) with
  | error => rw [signed] at texts; cases texts
  | ok signature =>
    rw [signed] at texts
    cases found : signature.attribute? name with
    | none => simp [Except.toOption, found] at texts
    | some a =>
      simp only [Except.toOption, Option.bind_some, found, Option.any_some, Bool.and_eq_true,
        beq_iff_eq] at texts
      obtain ⟨⟨named, takes⟩, own⟩ := texts
      cases held : (w.kindOf id).attributes.find? a.name with
      | none => rw [held] at own; cases own
      | some b =>
        rw [held, Option.any_some] at own
        exact ⟨a, named, ⟨signature, signed, found⟩, Attribute.takesTexts_of_check takes, b, held,
          Attribute.takesTexts_of_check own⟩

end Objects
end BuildEngine
