import BuildEngine.Proofs.Recording
import BuildEngine.Proofs.UserProperty

/-! Attachment: an object that is made for a nested element is given to its owner last, when the
element has been applied to it as a whole. The record of a configuration shows it: the deeds of an
element's subtree stand together, and the deed that attaches its object ends them. -/

namespace BuildEngine

open Engine

variable {φ : Type}

/-- The element at a place of a tree. -/
def Element.at? : Element → List Nat → Option Element
  | e, [] => some e
  | e, position :: rest =>
    match e.children[position]? with
    | some child => child.at? rest
    | none => none

/-! Objects that are made are new. -/

section Making

open Relation

/-- An object was made since a world was as it was. -/
def World.Makes (w after : World φ) (id : ObjectId) : Prop :=
  w.objects.length ≤ id ∧ id < after.objects.length

theorem objects_le_of_reaches {w after : World φ} (steps : Mark.origin.Reaches w after) :
    w.objects.length ≤ after.objects.length := by
  induction steps with
  | refl => exact Nat.le_refl _
  | tail _ step ih => exact Nat.le_trans ih step.objects_le

theorem World.Makes.later {w mid after : World φ} {id : ObjectId} (made : w.Makes mid id)
    (steps : Mark.origin.Reaches mid after) : w.Makes after id :=
  ⟨made.1, Nat.lt_of_lt_of_le made.2 (objects_le_of_reaches steps)⟩

namespace Engine

variable {w : World φ} {owner : ObjectId} {project : ProjectId}

/-- What an action results in is an object that it makes. -/
abbrev Making (w : World φ) (action : Engine φ ObjectId) : Prop :=
  Leads Mark.origin.Change w action w.Makes

theorem leads_of_takes {α : Type} {action : Engine φ α} {wanted : World φ → α → Prop}
    (takes : Mark.origin.Takes Mark.origin.Change w action wanted) :
    Leads Mark.origin.Change w action wanted :=
  takes (Mark.sealed_origin w)

theorem making_instantiate (k : Kind) (project : ProjectId) :
    Making w (instantiate k project) := by
  unfold instantiate
  refine .look .get fun _ seen => ?_
  cases seen
  extract_lets missing add check
  have adds : Making w (add ()) := by
    refine .look (looks_initialFields k _ _) fun fields _ => ?_
    refine ⟨.single (.newObject _ (Nat.zero_le _) rfl rfl), ?_⟩
    rintro _ ⟨⟩
    exact ⟨Nat.le_refl _, by simp [run_addObject]⟩
  have checks : Making w (check ()) := by
    unfold check
    split
    · exact .look (.throw _) fun _ _ => adds
    · exact adds
  split
  · exact .look (.throw _) fun _ _ => checks
  · exact checks

theorem making_createMapper : Making w (createMapper owner) := by
  unfold createMapper
  refine .look (.observe _) fun _ _ => .look .get fun _ _ => ?_
  extract_lets make
  have makes : Making w (make ()) := by
    refine (making_instantiate _ _).bind fun mid child _ made => ?_
    have adds := leads_of_takes (Mark.confined_addPart (Mark.owns_origin mid owner) child)
    exact adds.bind fun after _ steps _ => .pure (made.later steps)
  split
  · exact .look (.throw _) fun _ _ => makes
  · exact makes

theorem making_createBy (method : String) :
    Leads Mark.origin.Change w (createBy project owner method) fun after made =>
      ∀ child, made = some child → w.Makes after child := by
  unfold createBy
  refine .look (looks_methodOf owner method) fun found _ => ?_
  split
  · split
    · exact .throw _
    · exact .pure nofun
    · split
      · refine making_createMapper.bind fun _ mapper _ made => .pure ?_
        rintro _ ⟨⟩
        exact made
      · refine .look (.observe _) fun k _ => ?_
        refine (making_instantiate _ _).bind fun mid child _ made => ?_
        have adds := leads_of_takes
          (Mark.confined_addChild (Mark.owns_origin mid owner) method child)
        refine adds.bind fun after _ steps _ => .pure ?_
        rintro _ ⟨⟩
        exact made.later steps
  · exact .pure nofun

theorem making_makeChild (factory : ChildFactory) (described name : String) :
    Making w (makeChild project owner factory described name) := by
  unfold makeChild
  split
  · exact .look (.observe _) fun k _ => making_instantiate _ _
  · refine (making_createBy factory.method).bind fun _ made _ makes => ?_
    split
    · exact .pure (makes _ rfl)
    · exact .throw _

/-- The object of a nested element is a new one, however its owner declares the element. -/
theorem making_takeChild (name : String) (location : Location) :
    Leads Mark.origin.Change w (takeChild project owner name location) fun after handle =>
      handle.owner = owner ∧ w.Makes after handle.child := by
  unfold takeChild
  refine .look (.adapting _ (looks_signatureOf owner)) fun signature _ => ?_
  refine .look (.observe _) fun described _ => ?_
  split
  · exact .throw _
  · rename_i factory _
    refine (Leads.adapting _ (making_makeChild factory described name)).bind ?_
    intro mid child _ made
    have places := leads_of_takes
      (Mark.confined_placeChild (Mark.owns_origin mid child) owner name location)
    exact places.bind fun after _ steps _ => .pure ⟨rfl, made.later steps⟩

theorem making_create (e : Element) (target : Option String) :
    Making w (create project e target) := by
  unfold create
  refine .look (.observe _) fun found _ => ?_
  split
  · exact .throw _
  · refine .look (.observe _) fun k _ => ?_
    have makes : Making w (do
        let _ ← consult fun w => (Signature.ofKind w.kinds k).mapError Problem.fault
        instantiate k project) := .look (.consult _) fun _ _ => making_instantiate k project
    refine (makes.adapting _).bind fun mid id _ made => ?_
    split
    · have changes : Leads Mark.origin.Change mid (changeObject id fun o =>
          { o with elementName := some (Text.lower e.tag), location := e.location, target }) :=
        leads_of_takes (Mark.confined_changeObject (Mark.owns_origin mid id) (fun _ => rfl)
          fun _ => rfl)
      exact changes.bind fun after _ steps _ => .pure (made.later steps)
    · exact .pure made

end Engine
end Making

/-! The deeds with which whole elements are applied. -/

/-- The deeds that set the attributes of an object. An identity is no attribute of the object. -/
def attributeDeeds (place : List Nat) (object : ObjectId) (entries : List (String × String)) :
    List Deed :=
  (entries.filter fun entry => !isIdName entry.1).map fun entry =>
    { place, object, work := .attribute entry.1 entry.2 }

/-- The deeds for a nested element: its object is made, the element is applied to it, and it is
attached. -/
def nestedDeeds (place : List Nat) (owner : ObjectId) (h : ChildHandle) (inner : List Deed)
    (fault : Option Fault := none) : List Deed :=
  { place, object := owner, work := .child } ::
    (inner ++ [{ place, object := owner, work := .attach h, fault }])

mutual

/-- Deeds that apply an element to an object as a whole, all of them without a fault: either the
object is made a reference, or all attributes are set, then all nested elements are taken, then the
text is added. -/
inductive Applies : List Nat → ObjectId → Element → List Deed → Prop
  | reference {place : List Nat} {object : ObjectId} {e : Element} {refid : String}
      (alone : ∀ entry ∈ e.attributes, isIdName entry.1 ∨ isRefidName entry.1)
      (childless : e.children = []) (blank : Text.allBlank e.text = true) :
      Applies place object e [{ place, object, work := .reference refid }]
  | whole {place : List Nat} {object : ObjectId} {e : Element} {nested : List Deed}
      (before after : Properties)
      (children : AppliesAll place object 0 e.children nested) :
      Applies place object e
        (attributeDeeds place object
            (e.attributes.map fun entry => (entry.1, before.resolve entry.2)) ++
          (nested ++ if e.text.isEmpty then [] else
            [{ place, object, work := .text (after.resolve e.text) }]))

/-- Deeds that make an object for every nested element, apply the element to it as a whole, and
attach it, one element after another. -/
inductive AppliesAll : List Nat → ObjectId → Nat → List Element → List Deed → Prop
  | nil {place : List Nat} {owner : ObjectId} {position : Nat} :
      AppliesAll place owner position [] []
  | cons {place : List Nat} {owner : ObjectId} {position : Nat} {e : Element}
      {rest : List Element} {deeds more : List Deed} {h : ChildHandle} (mine : h.owner = owner)
      (applied : Applies (place ++ [position]) h.child e deeds)
      (others : AppliesAll place owner (position + 1) rest more) :
      AppliesAll place owner position (e :: rest)
        (nestedDeeds (place ++ [position]) owner h deeds ++ more)

end

/-! The order of deeds. -/

/-- How a deed stands to those that come after it: it succeeded, and if it attaches an object, then
neither the subtree of its element nor the object is touched any more, and later elements of the
same owner stand after its own. -/
structure Deed.Precedes (d later : Deed) : Prop where
  flawless : d.fault = none
  last : ∀ h, d.work = .attach h → ¬ d.place <+: later.place ∧ later.object ≠ h.child
  ordered : ∀ h h', d.work = .attach h → later.work = .attach h' → later.object = d.object →
    ∃ place position next,
      d.place = place ++ [position] ∧ later.place = place ++ [next] ∧ position < next

/-- Deeds in order, for the elements that are found at some places. Right before an object is
attached, the element was applied to it as a whole. -/
structure Ordered (found : List Nat → Element → Prop) (deeds : List Deed) : Prop where
  sequence : deeds.Pairwise Deed.Precedes
  applied : ∀ earlier d later h, deeds = earlier ++ d :: later → d.work = .attach h →
    h.owner = d.object ∧ ∃ e former whole, found d.place e ∧ earlier = former ++ whole ∧
      Applies d.place h.child e whole

/-- Deeds in order that apply an element at a place to an object, with the objects that are made
for them from some number on. -/
structure Orderly (found : List Nat → Element → Prop) (place : List Nat) (object low high : Nat)
    (deeds : List Deed) : Prop extends Ordered found deeds where
  there : ∀ d ∈ deeds, ∃ e, found d.place e
  objects : ∀ d ∈ deeds, d.object = object ∨ low ≤ d.object ∧ d.object < high
  attached : ∀ d ∈ deeds, ∀ h, d.work = .attach h → (low ≤ h.child ∧ h.child < high) ∧
    ∃ position rest, d.place = place ++ position :: rest ∧ (d.object = object → rest = [])

/-- Places at which elements are nested in an object, and places that come after them: none of
these is below one of those, and elements that are nested directly come in document order. -/
def Apart (place : List Nat) (former latter : List Nat → Element → Prop) : Prop :=
  ∀ position rest e later e', former (place ++ position :: rest) e → latter later e' →
    ¬ place ++ position :: rest <+: later ∧
      ∀ next, rest = [] → later = place ++ [next] → position < next

/-- A deed among deeds that follow one another is among the first or among the second. -/
theorem split_append {first second earlier later : List Deed} {d : Deed}
    (same : first ++ second = earlier ++ d :: later) :
    (∃ part, first = earlier ++ d :: part) ∨
      ∃ part, earlier = first ++ part ∧ second = part ++ d :: later := by
  rcases List.append_eq_append_iff.mp same with ⟨part, before, rest⟩ | ⟨part, before, rest⟩
  · exact .inr ⟨part, before, rest⟩
  · rcases part with _ | ⟨_, part⟩
    · refine .inr ⟨[], ?_, rest.symm⟩
      rw [before, List.append_nil, List.append_nil]
    · cases rest
      exact .inl ⟨part, before⟩

variable {found former latter : List Nat → Element → Prop} {place : List Nat}
variable {object low mid high : Nat} {deeds more : List Deed}

theorem Ordered.imp (ordered : Ordered former deeds)
    (implies : ∀ place e, former place e → found place e) : Ordered found deeds := by
  refine { ordered with applied := ?_ }
  intro earlier d later h same attaches
  obtain ⟨mine, e, before, whole, there, rest⟩ := ordered.applied earlier d later h same attaches
  exact ⟨mine, e, before, whole, implies _ _ there, rest⟩

/-- What attaches nothing may come before deeds in order. -/
theorem Ordered.cons {d : Deed} (ordered : Ordered found deeds) (flawless : d.fault = none)
    (plain : ∀ h, d.work ≠ .attach h) : Ordered found (d :: deeds) where
  sequence := by
    refine List.pairwise_cons.mpr ⟨fun later _ => ⟨flawless, ?_, ?_⟩, ordered.sequence⟩
    · exact fun h attaches => absurd attaches (plain h)
    · exact fun h _ attaches => absurd attaches (plain h)
  applied earlier d' later h same attaches := by
    rcases List.cons_eq_append_iff.mp same with ⟨_, first⟩ | ⟨part, rfl, rest⟩
    · cases first
      exact absurd attaches (plain h)
    · obtain ⟨mine, e, before, whole, there, rfl, applied⟩ :=
        ordered.applied part d' later h rest attaches
      exact ⟨mine, e, d :: before, whole, there, rfl, applied⟩

namespace Orderly

theorem nil : Orderly found place object low high [] where
  sequence := .nil
  applied earlier d later h same := by simp at same
  there := nofun
  objects := nofun
  attached := nofun

theorem single {d : Deed} {e : Element} (mine : d.object = object) (here : found d.place e)
    (plain : ∀ h, d.work ≠ .attach h) : Orderly found place object low high [d] where
  sequence := List.pairwise_singleton _ _
  applied earlier d' later h same attaches := by
    have this : d' = d := List.mem_singleton.mp (same ▸ by simp)
    exact absurd (this ▸ attaches) (plain h)
  there := by simpa using ⟨e, here⟩
  objects := by simp [mine]
  attached := by simpa using fun h attaches => absurd attaches (plain h)

theorem imp (orderly : Orderly former place object low high deeds)
    (implies : ∀ place e, former place e → found place e) :
    Orderly found place object low high deeds where
  toOrdered := orderly.toOrdered.imp implies
  there d member := (orderly.there d member).imp fun e => implies d.place e
  objects := orderly.objects
  attached := orderly.attached

/-- Deeds for places that come first, and deeds for later ones. -/
theorem append (first : Orderly former place object low mid deeds)
    (second : Orderly latter place object mid high more) (present : object < low)
    (grows : low ≤ mid) (further : mid ≤ high) (flawless : ∀ d ∈ deeds, d.fault = none)
    (apart : Apart place former latter) (covers : ∀ place e, former place e → found place e)
    (covers' : ∀ place e, latter place e → found place e) :
    Orderly found place object low high (deeds ++ more) where
  sequence := by
    refine List.pairwise_append.mpr ⟨first.sequence, second.sequence, ?_⟩
    intro d before later after
    obtain ⟨e', there⟩ := second.there later after
    refine ⟨flawless d before, ?_, ?_⟩
    · intro h attaches
      obtain ⟨made, position, rest, same, -⟩ := first.attached d before h attaches
      obtain ⟨e, here⟩ := first.there d before
      rw [same] at here ⊢
      refine ⟨(apart position rest e later.place e' here there).1, ?_⟩
      rcases second.objects later after with same | new <;> dsimp only [ObjectId] at * <;> omega
    · intro h h' attaches attaches' same
      have both : d.object = object ∧ later.object = object := by
        rcases first.objects d before with mine | made <;>
          rcases second.objects later after with mine' | made' <;>
            dsimp only [ObjectId] at * <;> omega
      obtain ⟨-, position, rest, this, none_⟩ := first.attached d before h attaches
      obtain ⟨-, next, rest', that, none'⟩ := second.attached later after h' attaches'
      obtain ⟨e, here⟩ := first.there d before
      rw [this] at here
      rw [none' both.2] at that
      have increases := (apart position rest e later.place e' here there).2 next (none_ both.1) that
      exact ⟨place, position, next, none_ both.1 ▸ this, that, increases⟩
  applied earlier d later h same attaches := by
    rcases split_append same with ⟨part, before⟩ | ⟨part, rfl, after⟩
    · exact (first.toOrdered.imp covers).applied earlier d part h before attaches
    · obtain ⟨mine, e, former, whole, there, rfl, applied⟩ :=
        (second.toOrdered.imp covers').applied part d later h after attaches
      exact ⟨mine, e, deeds ++ former, whole, there, by simp, applied⟩
  there d member := by
    rcases List.mem_append.mp member with before | after
    · exact (first.there d before).imp fun e => covers d.place e
    · exact (second.there d after).imp fun e => covers' d.place e
  objects d member := by
    rcases List.mem_append.mp member with before | after
    · rcases first.objects d before with same | made
      · exact .inl same
      · exact .inr ⟨made.1, Nat.lt_of_lt_of_le made.2 further⟩
    · rcases second.objects d after with same | made
      · exact .inl same
      · exact .inr ⟨Nat.le_trans grows made.1, made.2⟩
  attached d member h attaches := by
    rcases List.mem_append.mp member with before | after
    · obtain ⟨made, put⟩ := first.attached d before h attaches
      exact ⟨⟨made.1, Nat.lt_of_lt_of_le made.2 further⟩, put⟩
    · obtain ⟨made, put⟩ := second.attached d after h attaches
      exact ⟨⟨Nat.le_trans grows made.1, made.2⟩, put⟩

variable {h : ChildHandle} {owner made start position : Nat} {below : List Nat} {e : Element}

/-- Objects may be new from an earlier number on. -/
theorem since (orderly : Orderly found place object low high deeds) (earlier : start ≤ low) :
    Orderly found place object start high deeds where
  toOrdered := orderly.toOrdered
  there := orderly.there
  objects d member := (orderly.objects d member).imp_right fun new =>
    ⟨Nat.le_trans earlier new.1, new.2⟩
  attached d member h attaches := by
    obtain ⟨new, there⟩ := orderly.attached d member h attaches
    exact ⟨⟨Nat.le_trans earlier new.1, new.2⟩, there⟩

/-- The deed that attaches an object comes last of those for its element. -/
theorem attach (inner : Orderly found below h.child made high deeds) (mine : h.owner = owner)
    (present : owner < made) (new : owner < h.child) (flawless : ∀ d ∈ deeds, d.fault = none)
    (here : found below e) (whole : Applies below h.child e deeds) (fault : Option Fault) :
    Ordered found (deeds ++ [{ place := below, object := owner, work := .attach h, fault }]) where
  sequence := by
    refine List.pairwise_append.mpr ⟨inner.sequence, List.pairwise_singleton _ _, ?_⟩
    intro d before later after
    cases List.mem_singleton.mp after
    refine ⟨flawless d before, ?_, ?_⟩
    · intro h' attaches
      obtain ⟨range, position, rest, there, -⟩ := inner.attached d before h' attaches
      constructor
      · rw [there, List.prefix_iff_eq_append]
        simp
      · have later := range.1
        dsimp only [ObjectId] at *
        omega
    · intro h' _ attaches _ same
      rcases inner.objects d before with other | other <;> dsimp only [ObjectId] at * <;> omega
  applied earlier d later h' same attaches := by
    rcases split_append same with ⟨part, before⟩ | ⟨part, rfl, after⟩
    · exact inner.applied earlier d part h' before attaches
    · obtain ⟨rfl, last⟩ | ⟨rest, _, none_⟩ := List.append_eq_cons_iff.mp after.symm
      · cases last
        cases attaches
        exact ⟨mine, e, [], deeds, here, by simp, whole⟩
      · simp at none_

/-- Deeds for a nested element are in order among those for the element that it is nested in. -/
theorem within {child : Nat} (inner : Orderly found (place ++ [position]) child made high deeds)
    (present : object < start) (new : start ≤ child ∧ child < made) (grows : made ≤ high) :
    Orderly found place object start high deeds where
  toOrdered := inner.toOrdered
  there := inner.there
  objects d member := by
    rcases inner.objects d member with same | other <;> dsimp only [ObjectId] at * <;> omega
  attached d member h attaches := by
    obtain ⟨range, further, rest, there, -⟩ := inner.attached d member h attaches
    have later := Nat.le_trans (Nat.le_of_lt (Nat.lt_of_le_of_lt new.1 new.2)) range.1
    refine ⟨⟨later, range.2⟩, position, further :: rest, by simp [there], ?_⟩
    intro mine
    rcases inner.objects d member with same | other <;> dsimp only [ObjectId] at * <;> omega

/-- What attaches nothing may come before deeds in order. -/
theorem cons {d : Deed} (orderly : Orderly found place object low high deeds)
    (mine : d.object = object) (here : found d.place e) (flawless : d.fault = none)
    (plain : ∀ h, d.work ≠ .attach h) : Orderly found place object low high (d :: deeds) where
  toOrdered := orderly.toOrdered.cons flawless plain
  there := List.forall_mem_cons.mpr ⟨⟨e, here⟩, orderly.there⟩
  objects := List.forall_mem_cons.mpr ⟨.inl mine, orderly.objects⟩
  attached := List.forall_mem_cons.mpr
    ⟨fun h attaches => absurd attaches (plain h), orderly.attached⟩

/-- The deeds for a nested element, from the one that makes its object to the one that attaches it,
are in order among those for the element that it is nested in. -/
theorem nested (inner : Orderly found (place ++ [position]) h.child made mid deeds)
    (mine : h.owner = object) (present : object < start) (new : start ≤ h.child ∧ h.child < made)
    (grows : made ≤ mid) (further : mid ≤ high) (flawless : ∀ d ∈ deeds, d.fault = none)
    (here : found (place ++ [position]) e) (whole : Applies (place ++ [position]) h.child e deeds)
    (fault : Option Fault) :
    Orderly found place object start high
      (nestedDeeds (place ++ [position]) object h deeds fault) := by
  have inside := inner.within present new grows
  have before := Nat.lt_of_lt_of_le present (Nat.le_trans new.1 (Nat.le_of_lt new.2))
  have ordered : Ordered found
      (deeds ++ [{ place := place ++ [position], object, work := .attach h, fault }]) :=
    inner.attach mine before (Nat.lt_of_lt_of_le present new.1) flawless here whole fault
  refine Orderly.cons (e := e) ⟨ordered, ?_, ?_, ?_⟩ rfl here rfl fun _ attaches => nomatch attaches
  · exact List.forall_mem_append.mpr ⟨inside.there, by simpa using ⟨e, here⟩⟩
  · refine List.forall_mem_append.mpr ⟨fun d member => ?_, by simp⟩
    exact (inside.objects d member).imp_right fun new =>
      ⟨new.1, Nat.lt_of_lt_of_le new.2 further⟩
  · refine List.forall_mem_append.mpr ⟨fun d member h' attaches => ?_, ?_⟩
    · obtain ⟨range, there⟩ := inside.attached d member h' attaches
      exact ⟨⟨range.1, Nat.lt_of_lt_of_le range.2 further⟩, there⟩
    · refine List.forall_mem_singleton.mpr ?_
      rintro _ ⟨⟩
      have there := Nat.lt_of_lt_of_le new.2 (Nat.le_trans grows further)
      exact ⟨⟨new.1, there⟩, position, [], rfl, fun _ => rfl⟩

end Orderly
end BuildEngine
