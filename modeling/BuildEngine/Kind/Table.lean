import BuildEngine.Kind.Basic

/-!
The kinds of a build, and how a declaration adds one. A kind inherits the attributes of its bases;
where several bases have an attribute of one name, the leftmost base decides, and an attribute that
the declaration gives itself decides over all bases.
-/

namespace BuildEngine

/-! ### The order in which a kind and its bases are searched

The orders of the bases are merged, together with the list of the bases itself, so that each order
is kept: the next kind is the first head that stands in no tail. -/

section Linearisation

variable {κ : Type u} [DecidableEq κ]

/-- Whether a kind may come next: it stands behind no other one. -/
def isFree (orders : List (List κ)) (kind : κ) : Bool :=
  orders.all fun order => !(order.drop 1).contains kind

/-- The next kind of a merge: the first head that is free. -/
def nextFree? (orders : List (List κ)) : Option κ :=
  (orders.filterMap List.head?).find? (isFree orders)

def withoutHead (kind : κ) : List κ → List κ
  | [] => []
  | head :: rest => if head = kind then rest else head :: rest

/-- Merges orders, in at most the given number of steps. -/
def mergeOrders? (steps : Nat) (orders : List (List κ)) : Option (List κ) :=
  if orders.all List.isEmpty then some []
  else
    match steps, nextFree? orders with
    | more + 1, some kind => (mergeOrders? more (orders.map (withoutHead kind))).map (kind :: ·)
    | _, _ => none

/-- The search order of a kind whose bases have the given orders. Each step of the merge takes at
least one entry away, so their number bounds the steps. -/
def linearise? (kind : κ) (bases : List κ) (orders : List (List κ)) : Option (List κ) :=
  let rows := orders ++ [bases]
  (mergeOrders? rows.flatten.length rows).map (kind :: ·)

end Linearisation

/-! ### Declarations -/

/-- Why a declaration makes no kind. -/
inductive KindError where
  /-- A base is given twice. -/
  | repeatedBase (name : String)
  /-- The orders of the bases contradict each other. -/
  | unordered (bases : List String)
  /-- A field that is no attribute has the options of one. -/
  | untypedOptions (kind field : String)
  /-- An attribute does not say of what type its values are. -/
  | bareAttribute (kind field : String)
  deriving Repr, DecidableEq, Inhabited

namespace KindError

/-- The message about a declaration that makes no kind. -/
def message : KindError → String
  | repeatedBase name => s!"duplicate base class {name}"
  | unordered bases =>
    "Cannot create a consistent method resolution\norder (MRO) for bases " ++ ", ".intercalate bases
  | untypedOptions kind field =>
    s!"{kind}.{field} has property options but is not typed as a Property"
  | bareAttribute kind field => s!"{kind}.{field} must be annotated as Property[T], got <hint>"

end KindError

/-- The kinds of a build, oldest first. -/
structure Kinds where
  all : List Kind := []

namespace Kinds

instance : Inhabited Kinds := ⟨{}⟩

/-- The kind of an identity. -/
def find? (ks : Kinds) (id : KindId) : Option Kind := ks.all.find? fun k => k.id == id

/-- The kind of an identity, or one without any features. -/
def get (ks : Kinds) (id : KindId) : Kind := (ks.find? id).getD default

def nameOf (ks : Kinds) (id : KindId) : String := (ks.get id).name

/-- The last declared kind of a name. -/
def named? (ks : Kinds) (name : String) : Option Kind :=
  ks.all.reverse.find? fun k => k.name == name

/-- The number of declared kinds, which is the number of the next one. -/
def nextIndex (ks : Kinds) : Nat :=
  (ks.all.filter fun k => match k.id with | .declared _ => true | .standard _ => false).length

/-- An attribute as a kind has it. -/
def attributeOf (d : AttributeDeclaration) : Attribute :=
  ⟨d.name, d.hint.accepted, d.initial, d.listening, d.help⟩

def declareAttributes (kind : String) (inherited : Table String Attribute) :
    List AttributeDeclaration → Except KindError (Table String Attribute)
  | [] => .ok inherited
  | d :: rest =>
    match d.form with
    | .untyped =>
      if d.hasOptions then .error (.untypedOptions kind d.name)
      else declareAttributes kind inherited rest
    | .bare => .error (.bareAttribute kind d.name)
    | .typed => declareAttributes kind (inherited.put d.name (attributeOf d)) rest

/-- The attributes that bases hand down; what stands further left is put later and so decides. -/
def inheritedAttributes (ks : Kinds) (bases : List KindId) : Table String Attribute :=
  bases.reverse.foldl
    (fun table base =>
      (ks.get base).attributes.entries.foldl (fun t entry => t.put entry.1 entry.2) table)
    .empty

/-- The first kind that stands twice in a list. -/
def repeated? : List KindId → Option KindId
  | [] => none
  | id :: rest => if rest.contains id then some id else repeated? rest

def make (ks : Kinds) (id : KindId) (d : Declaration) : Except KindError Kind :=
  match repeated? d.bases with
  | some base => .error (.repeatedBase (ks.nameOf base))
  | none =>
    match linearise? id d.bases (d.bases.map fun base => (ks.get base).order) with
    | none => .error (.unordered (d.bases.map ks.nameOf))
    | some order =>
      if order.contains (.standard .container) then
        (declareAttributes d.name (ks.inheritedAttributes d.bases) d.attributes).map
          fun attributes => ⟨id, d, order, attributes⟩
      else .ok ⟨id, d, order, .empty⟩

def add (ks : Kinds) (id : KindId) (d : Declaration) : Except KindError Kinds :=
  (ks.make id d).map fun kind => ⟨ks.all ++ [kind]⟩

/-- Adds the kind that a declaration makes, under an identity of its own. -/
def declare (ks : Kinds) (d : Declaration) : Except KindError (Kind × Kinds) :=
  (ks.make (.declared ks.nextIndex) d).map fun kind => (kind, ⟨ks.all ++ [kind]⟩)

/-- The kinds that are searched for the members of a kind, nearest first. -/
def ancestry (ks : Kinds) (k : Kind) : List Kind := k.order.filterMap ks.find?

/-- A kind's own member of a name; attributes hide members. -/
def ownMember? (k : Kind) (name : String) : Option Member :=
  if k.attributes.contains name then some .plain
  else (k.declaration.members.find? fun entry => entry.1 == name).map Prod.snd

/-- The nearest kind that has a member of a name, with the member. -/
def member? (ks : Kinds) (k : Kind) (name : String) : Option (Kind × Member) :=
  (ks.ancestry k).findSome? fun ancestor =>
    (ownMember? ancestor name).map fun found => (ancestor, found)

/-- The members that a kind leaves to kinds further down, by name. -/
def openMembers (ks : Kinds) (k : Kind) : List String :=
  let names := (ks.ancestry k).flatMap fun ancestor => ancestor.declaration.members.filterMap
    fun entry => match entry.2 with
      | .required => some entry.1
      | _ => none
  let isOpen := fun name => match ks.member? k name with
    | some (_, .required) => true
    | _ => false
  (names.eraseDups.filter isOpen).mergeSort (fun a b => decide (a ≤ b))

/-- How objects of a kind can be made: from nothing, or from their project. -/
inductive Construction where
  | default
  | project
  deriving Repr, DecidableEq

/-- The parameters with which objects of a kind are made. -/
def parameters (ks : Kinds) (k : Kind) : List Parameter :=
  ((ks.ancestry k).findSome? fun ancestor => ancestor.declaration.initializer).getD []

/-- How objects of a kind are made, if nothing but their project need be given. -/
def construction? (ks : Kinds) (k : Kind) : Option Construction :=
  match (ks.parameters k).filter Parameter.isRequired with
  | [] => some .default
  | [p] => if p.takesProject then some .project else none
  | _ => none

/-- The nearest kind that says what the objects of a kind do as tasks. -/
def performer? (ks : Kinds) (k : Kind) : Option Kind :=
  (ks.member? k "execute").map Prod.fst

end Kinds
end BuildEngine
