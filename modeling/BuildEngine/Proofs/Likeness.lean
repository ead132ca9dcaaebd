import BuildEngine.Proofs.Change
import BuildEngine.Proofs.Completeness
import Mathlib.Data.List.Forall2

/-! Likeness: two worlds that agree on what was made in them since two points of a build. The objects
and projects that were made then are paired in their order; values, objects, projects and faults
are like each other if they are the same up to that pairing. What is older may differ in any way,
since nothing that is paired leads to it. -/

theorem Option.Rel.imp {α β : Type} {R S : α → β → Prop} (implies : ∀ a b, R a b → S a b)
    {a : Option α} {b : Option β} (related : Option.Rel R a b) : Option.Rel S a b := by
  cases related with
  | none => exact .none
  | some both => exact .some (implies _ _ both)

/-- Related options are both empty, or hold related values. -/
theorem Option.Rel.both {α β : Type} {R : α → β → Prop} {a : Option α} {b : Option β}
    (related : Option.Rel R a b) :
    (a = Option.none ∧ b = Option.none) ∨ ∃ x y, a = Option.some x ∧ b = Option.some y ∧ R x y := by
  cases related with
  | none => exact .inl ⟨rfl, rfl⟩
  | some both => exact .inr ⟨_, _, rfl, rfl, both⟩

/-- Related lists have related entries at each position. -/
theorem List.Forall₂.rel_getElem? {α β : Type} {R : α → β → Prop} {as : List α} {bs : List β}
    (related : List.Forall₂ R as bs) (index : Nat) : Option.Rel R as[index]? bs[index]? := by
  induction related generalizing index with
  | nil => exact .none
  | cons both _ ih =>
    cases index with
    | zero => exact .some both
    | succ index => simpa using ih index

namespace BuildEngine

variable {φ : Type}

/-- How many objects and projects were made in two worlds since a point in each of them. -/
structure Pairing where
  left : Mark
  right : Mark
  objects : Nat
  projects : Nat

namespace Pairing

variable {s t u : Pairing} {i j i' j' : Nat}

/-- Two objects that were made at the same place since the two points. -/
def Objects (s : Pairing) (i j : ObjectId) : Prop :=
  ∃ k, k < s.objects ∧ i = s.left.objects + k ∧ j = s.right.objects + k

/-- Two projects that were made at the same place since the two points. -/
def Projects (s : Pairing) (p q : ProjectId) : Prop :=
  ∃ k, k < s.projects ∧ p = s.left.projects + k ∧ q = s.right.projects + k

/-- A pairing of at least as many objects and projects. -/
structure Within (s t : Pairing) : Prop where
  left : t.left = s.left
  right : t.right = s.right
  objects : s.objects ≤ t.objects
  projects : s.projects ≤ t.projects

theorem Within.refl (s : Pairing) : s.Within s := ⟨rfl, rfl, Nat.le_refl _, Nat.le_refl _⟩

theorem Within.trans (first : s.Within t) (second : t.Within u) : s.Within u :=
  ⟨second.left.trans first.left, second.right.trans first.right,
    Nat.le_trans first.objects second.objects, Nat.le_trans first.projects second.projects⟩

theorem Objects.mono (within : s.Within t) (paired : s.Objects i j) : t.Objects i j := by
  obtain ⟨k, made, rfl, rfl⟩ := paired
  exact ⟨k, Nat.lt_of_lt_of_le made within.objects, by rw [within.left], by rw [within.right]⟩

theorem Projects.mono (within : s.Within t) (paired : s.Projects i j) : t.Projects i j := by
  obtain ⟨k, made, rfl, rfl⟩ := paired
  exact ⟨k, Nat.lt_of_lt_of_le made within.projects, by rw [within.left], by rw [within.right]⟩

/-- Objects are paired one to one. -/
theorem Objects.eq_iff (first : s.Objects i j) (second : s.Objects i' j') : i = i' ↔ j = j' := by
  obtain ⟨k, _, rfl, rfl⟩ := first
  obtain ⟨l, _, rfl, rfl⟩ := second
  simp

theorem Projects.eq_iff (first : s.Projects i j) (second : s.Projects i' j') : i = i' ↔ j = j' := by
  obtain ⟨k, _, rfl, rfl⟩ := first
  obtain ⟨l, _, rfl, rfl⟩ := second
  simp

end Pairing

/-! Tables, of which the values are like each other. -/

namespace Table

variable {κ α β γ δ : Type} {R : α → β → Prop} {S : γ → δ → Prop}

/-- Tables with the same keys in the same order, and with values that are related. -/
def Like (R : α → β → Prop) (t : Table κ α) (u : Table κ β) : Prop :=
  List.Forall₂ (fun a b => a.1 = b.1 ∧ R a.2 b.2) t.entries u.entries

theorem Like.mono {R' : α → β → Prop} {t : Table κ α} {u : Table κ β} (like : Like R t u)
    (implies : ∀ a b, R a b → R' a b) : Like R' t u :=
  like.imp fun _ _ both => ⟨both.1, implies _ _ both.2⟩

theorem Like.empty : Like (κ := κ) R .empty .empty := .nil

theorem Like.keys {t : Table κ α} {u : Table κ β} (like : Like R t u) : t.keys = u.keys :=
  List.forall₂_eq_eq_eq ▸ (List.forall₂_map_left_iff.mpr
    (List.forall₂_map_right_iff.mpr (like.imp fun _ _ both => both.1)))

theorem Like.size {t : Table κ α} {u : Table κ β} (like : Like R t u) : t.size = u.size :=
  like.length_eq

variable [DecidableEq κ]

theorem forall₂_findIn {entries : List (κ × α)} {others : List (κ × β)}
    (like : List.Forall₂ (fun a b => a.1 = b.1 ∧ R a.2 b.2) entries others) (key : κ) :
    Option.Rel R (findIn key entries) (findIn key others) := by
  induction like with
  | nil => exact .none
  | @cons a b _ _ both _ ih =>
    obtain ⟨same, related⟩ := both
    unfold findIn
    by_cases found : a.1 = key
    · rw [if_pos found, if_pos (same ▸ found)]
      exact .some related
    · rw [if_neg found, if_neg (same ▸ found)]
      exact ih

theorem Like.find? {t : Table κ α} {u : Table κ β} (like : Like R t u) (key : κ) :
    Option.Rel R (t.find? key) (u.find? key) :=
  forall₂_findIn like key

theorem Like.contains {t : Table κ α} {u : Table κ β} (like : Like R t u) (key : κ) :
    t.contains key = u.contains key := by
  have found := like.find? key
  unfold Table.contains
  revert found
  generalize t.find? key = a, u.find? key = b
  rintro ⟨⟩ <;> rfl

theorem forall₂_putIn {entries : List (κ × α)} {others : List (κ × β)}
    (like : List.Forall₂ (fun a b => a.1 = b.1 ∧ R a.2 b.2) entries others) (key : κ)
    {a : α} {b : β} (related : R a b) :
    List.Forall₂ (fun a b => a.1 = b.1 ∧ R a.2 b.2) (putIn key a entries) (putIn key b others) := by
  induction like with
  | nil => exact .cons ⟨rfl, related⟩ .nil
  | @cons x y _ _ both rest ih =>
    obtain ⟨same, stored⟩ := both
    unfold putIn
    by_cases found : x.1 = key
    · rw [if_pos found, if_pos (same ▸ found)]
      exact .cons ⟨rfl, related⟩ rest
    · rw [if_neg found, if_neg (same ▸ found)]
      exact .cons ⟨same, stored⟩ ih

theorem Like.put {t : Table κ α} {u : Table κ β} (like : Like R t u) (key : κ) {a : α} {b : β}
    (related : R a b) : Like R (t.put key a) (u.put key b) :=
  forall₂_putIn like key related

end Table

/-! Values. -/

/-- References to the same name in projects that are paired. -/
structure Reference.Like (s : Pairing) (r q : Reference) : Prop where
  project : s.Projects r.project q.project
  id : r.id = q.id
  location : r.location = q.location

/-- Values that are the same up to a pairing. -/
inductive Value.Like (s : Pairing) : Value → Value → Prop
  | complete {v : Value} (complete : v.isComplete = true) : Like s v v
  | object {i j : ObjectId} (paired : s.Objects i j) : Like s (.object i) (.object j)
  | reference {r q : Reference} (like : Reference.Like s r q) : Like s (.reference r) (.reference q)

/-- Sources of the same value. No attribute has its value from another one. -/
inductive Source.Like (s : Pairing) : Source → Source → Prop
  | void : Like s .void .void
  | value {v u : Value} (like : Value.Like s v u) : Like s (.value v) (.value u)
  | slot {p q : ProjectId} (paired : s.Projects p q) (name : String) :
      Like s (.slot p name) (.slot q name)

/-- Objects that are the same up to a pairing. -/
structure Object.Like (s : Pairing) (a b : Object) : Prop where
  kind : a.kind = b.kind
  project : s.Projects a.project b.project
  fields : Table.Like (Source.Like s) a.fields b.fields
  elementName : a.elementName = b.elementName
  location : a.location = b.location
  target : a.target = b.target
  reference : Option.Rel (Reference.Like s) a.reference b.reference
  parts : List.Forall₂ s.Objects a.parts b.parts
  children : List.Forall₂ (fun c d => c.1 = d.1 ∧ s.Objects c.2 d.2) a.children b.children
  texts : a.texts = b.texts

/-- The same names for objects that are paired, and slots with values like each other. -/
structure References.Like (s : Pairing) (r q : References ObjectId) : Prop where
  objects : Table.Like s.Objects r.objects q.objects
  slots : Table.Like (Value.Like s) r.slots q.slots

/-- Invocations of the same element, with objects that are paired. -/
structure Invocation.Like (s : Pairing) (a b : Invocation) : Prop where
  element : a.element = b.element
  object : Option.Rel s.Objects a.object b.object
  configured : a.configured = b.configured

/-- Targets of the same declaration, with invocations like each other. -/
structure Target.Like (s : Pairing) (t u : Target) : Prop where
  name : t.name = u.name
  depends : t.depends = u.depends
  ifCondition : t.ifCondition = u.ifCondition
  unlessCondition : t.unlessCondition = u.unlessCondition
  description : t.description = u.description
  location : t.location = u.location
  invocations : List.Forall₂ (Invocation.Like s) t.invocations u.invocations

/-- The same targets, each like the other one of its name. -/
def Targets.Like (s : Pairing) (ts us : Targets) : Prop :=
  Table.Like (Target.Like s) ts.table us.table

/-- Projects that are the same up to a pairing. On whose behalf they run makes no difference. -/
structure Project.Like (s : Pairing) (p q : Project) : Prop where
  directory : p.directory = q.directory
  name : p.name = q.name
  description : p.description = q.description
  defaultTarget : p.defaultTarget = q.defaultTarget
  source : p.source = q.source
  buildFile : p.buildFile = q.buildFile
  parent : p.parent.isSome = q.parent.isSome
  haltOnFailure : p.haltOnFailure = q.haltOnFailure
  properties : p.properties = q.properties
  references : References.Like s p.references q.references
  targets : Targets.Like s p.targets q.targets
  root : Target.Like s p.root q.root

namespace Fault

/-- Whether a fault names no object as that whose attribute holds nothing. -/
def isAnonymous : Fault → Bool
  | empty (some _) .. => false
  | build _ _ cause => cause.isAnonymous
  | _ => true

/-- Faults that are the same up to a pairing. -/
inductive Like (s : Pairing) : Fault → Fault → Prop
  | anonymous {fault : Fault} (anonymous : fault.isAnonymous = true) : Like s fault fault
  | empty {i j : ObjectId} (paired : s.Objects i j) (field text : String) :
      Like s (.empty (some i) field text) (.empty (some j) field text)
  | build {fault other : Fault} (target : String) (task : Option String)
      (like : Like s fault other) : Like s (.build target task fault) (.build target task other)

end Fault

/-- Worlds that are the same but for what is older than a pairing, and for what is only told of. -/
structure World.Like (s : Pairing) (w u : World φ) : Prop where
  files : w.files = u.files
  kinds : w.kinds = u.kinds
  registry : w.registry = u.registry
  implicitBooleans : w.implicitBooleans = u.implicitBooleans
  keepGoing : w.keepGoing = u.keepGoing
  here : w.here = u.here
  complete : w.kinds.areComplete = true
  leftObjects : w.objects.length = s.left.objects + s.objects
  rightObjects : u.objects.length = s.right.objects + s.objects
  leftProjects : w.projects.length = s.left.projects + s.projects
  rightProjects : u.projects.length = s.right.projects + s.projects
  object : ∀ {i j}, s.Objects i j → Object.Like s (w.object i) (u.object j)
  project : ∀ {p q}, s.Projects p q → Project.Like s (w.project p) (u.project q)

/-! Likeness for a pairing is likeness for every larger one. -/

section Mono

variable {s t : Pairing}

theorem Reference.Like.mono (within : s.Within t) {r q : Reference} (like : Reference.Like s r q) :
    Reference.Like t r q :=
  { like with project := like.project.mono within }

theorem Value.Like.mono (within : s.Within t) {v u : Value} (like : Value.Like s v u) :
    Value.Like t v u := by
  cases like with
  | complete complete => exact .complete complete
  | object paired => exact .object (paired.mono within)
  | reference like => exact .reference (like.mono within)

theorem Source.Like.mono (within : s.Within t) {v u : Source} (like : Source.Like s v u) :
    Source.Like t v u := by
  cases like with
  | void => exact .void
  | value like => exact .value (like.mono within)
  | slot paired name => exact .slot (paired.mono within) name

theorem Object.Like.mono (within : s.Within t) {a b : Object} (like : Object.Like s a b) :
    Object.Like t a b :=
  { like with
    project := like.project.mono within
    fields := Table.Like.mono like.fields fun _ _ => .mono within
    reference := like.reference.imp fun _ _ => .mono within
    parts := like.parts.imp fun _ _ => .mono within
    children := like.children.imp fun _ _ both => ⟨both.1, both.2.mono within⟩ }

theorem References.Like.mono (within : s.Within t) {r q : References ObjectId}
    (like : References.Like s r q) : References.Like t r q where
  objects := Table.Like.mono like.objects fun _ _ => .mono within
  slots := Table.Like.mono like.slots fun _ _ => .mono within

theorem Invocation.Like.mono (within : s.Within t) {a b : Invocation}
    (like : Invocation.Like s a b) : Invocation.Like t a b :=
  { like with object := like.object.imp fun _ _ => .mono within }

theorem Target.Like.mono (within : s.Within t) {a b : Target} (like : Target.Like s a b) :
    Target.Like t a b :=
  { like with invocations := like.invocations.imp fun _ _ => .mono within }

theorem Project.Like.mono (within : s.Within t) {p q : Project} (like : Project.Like s p q) :
    Project.Like t p q :=
  { like with
    references := like.references.mono within
    targets := Table.Like.mono like.targets fun _ _ => .mono within
    root := like.root.mono within }

theorem Fault.Like.mono (within : s.Within t) {fault other : Fault}
    (like : Fault.Like s fault other) : Fault.Like t fault other := by
  induction like with
  | anonymous anonymous => exact .anonymous anonymous
  | empty paired field text => exact .empty (paired.mono within) field text
  | build target task _ ih => exact .build target task ih

end Mono

namespace Fault.Like

variable {s : Pairing} {fault other : Fault}

/-- Faults like each other say the same. -/
theorem message (like : Fault.Like s fault other) : fault.message = other.message := by
  induction like with
  | anonymous => rfl
  | empty => rfl
  | build target task _ ih =>
    cases task with
    | none => exact congrArg (fun text => s!"target \"{target}\" failed: {text}") ih
    | some name =>
      exact congrArg (fun text => if name.isEmpty then s!"target \"{target}\" failed: {text}"
        else s!"task \"{name}\" of target \"{target}\" failed: {text}") ih

theorem location (like : Fault.Like s fault other) : fault.location = other.location := by
  induction like with
  | anonymous => rfl
  | empty => rfl
  | build target task _ ih => exact ih

theorem isBuildFault (like : Fault.Like s fault other) :
    fault.isBuildFault = other.isBuildFault := by
  cases like <;> rfl

theorem isValueFault (like : Fault.Like s fault other) :
    fault.isValueFault = other.isValueFault := by
  cases like <;> rfl

theorem placed (like : Fault.Like s fault other) (l : Location) :
    Fault.Like s (fault.placed l) (other.placed l) := by
  cases like with
  | anonymous anonymous =>
    refine .anonymous ?_
    cases fault with
    | configuration => rfl
    | _ => exact anonymous
  | empty paired field text => exact .empty paired field text
  | build target task like => exact .build target task like

end Fault.Like

end BuildEngine
