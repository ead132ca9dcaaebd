import BuildEngine.Value

/-!
Suppliers: cells that give a value when they are asked for it, or are empty. A supplier knows the
suppliers that it is derived from; its lineage lists them breadth first, once for every way in
which they are reached.
-/

namespace BuildEngine

open BuildEngine.Text

/-- Why a computation gives no value: it has none, or it failed with an error. -/
inductive Signal (ε : Type) where
  | absent (message : Option String)
  | failed (error : ε)
  deriving Repr, Inhabited

/-- A supplier. Suppliers other than fixed values are told apart by their numbers, slots by the
cells that they read. -/
inductive Supplier (σ ε : Type) where
  /-- A fixed value. -/
  | fixed (value : Value) (parents : List (Supplier σ ε))
  /-- No value, perhaps because of an error. -/
  | void (number : Nat) (cause : Option ε) (parents : List (Supplier σ ε))
  /-- A value that is computed on each reading. -/
  | computed (number : Nat) (label : String) (compute : Except (Signal ε) Value)
      (parents : List (Supplier σ ε))
  /-- A value that is made from the value of another supplier. -/
  | mapped (number : Nat) (label : String) (transform : Value → Except (Signal ε) Value)
      (source : Supplier σ ε)
  /-- A cell that producers write to. -/
  | slot (cell : σ) (name : String)
  /-- An attribute of an object, which reads the supplier that it was last set to. -/
  | field (number : Nat) (owner name : String) (source : Supplier σ ε)

/-- A reading without a value: the supplier that is empty with a message of its own and the error
behind it, or an error of a computation. -/
inductive Lack (σ ε : Type) where
  | empty (supplier : Supplier σ ε) (message : Option String) (cause : Option ε)
  | failed (error : ε)

def withoutTrailingUnderscores (name : String) : String :=
  String.ofList (name.toList.reverse.dropWhile (· == '_')).reverse

namespace Supplier

variable {σ ε : Type}

/-- A supplier as messages show it; `shown` names the objects. -/
def text (shown : ObjectId → String) : Supplier σ ε → String
  | fixed value _ => s!"Supplier.of({value.quoted shown})"
  | void .. => "Supplier.void()"
  | computed _ label _ _ => s!"OfCallableSupplier({label})"
  | mapped _ label _ source => s!"MapSupplier({label}, {source.text shown})"
  | slot _ name => s!"Slot({quote name})"
  | field _ owner name _ => s!"Property({owner}.{name})"

/-- The suppliers that a supplier is derived from directly. An attribute also names those that
its own source is derived from. -/
def parents : Supplier σ ε → List (Supplier σ ε)
  | fixed _ ps | void _ _ ps | computed _ _ _ ps => ps
  | mapped _ _ _ source => [source]
  | slot .. => []
  | field _ _ _ source => source :: source.parents

/-- The message about an attribute that is read without having a value. -/
def notSet (name : String) : String :=
  s!"the {quote (withoutTrailingUnderscores name)} attribute is not set"

/-- Reads a supplier; `slots` holds what was written to the slots. A supplier that is made from
an empty one reports itself as empty. -/
def get (slots : σ → Value) : Supplier σ ε → Except (Lack σ ε) Value
  | fixed value _ => .ok value
  | void number cause ps => .error (.empty (void number cause ps) none cause)
  | computed number _ compute _ =>
    match compute with
    | .ok value => .ok value
    | .error (.absent message) => .error (.empty (void number none []) message none)
    | .error (.failed error) => .error (.failed error)
  | mapped number label transform source =>
    let nothing := Lack.empty (mapped number label transform source) none none
    match source.get slots with
    | .error (.failed error) => .error (.failed error)
    | .error (.empty ..) => .error nothing
    | .ok value =>
      match transform value with
      | .ok result => .ok result
      | .error (.absent _) => .error nothing
      | .error (.failed error) => .error (.failed error)
  | slot cell _ => .ok (slots cell)
  | field number owner name source =>
    match source.get slots with
    | .ok value => .ok value
    | .error (.failed error) => .error (.failed error)
    | .error (.empty ..) =>
      .error (.empty (field number owner name source) (some (notSet name)) none)

/-- The value of a supplier, or a fallback if it is empty. -/
def getOr (slots : σ → Value) (fallback : Value) (s : Supplier σ ε) : Except ε Value :=
  match s.get slots with
  | .ok value => .ok value
  | .error (.empty ..) => .ok fallback
  | .error (.failed error) => .error error

/-- Whether reading a supplier finds it empty. -/
def isEmpty (slots : σ → Value) (s : Supplier σ ε) : Except ε Bool :=
  match s.get slots with
  | .ok _ => .ok false
  | .error (.empty ..) => .ok true
  | .error (.failed error) => .error error

/-- Whether a supplier was never given a value. -/
def isVoid : Supplier σ ε → Bool
  | void .. => true
  | _ => false

/-- Fixed values are equal when their values are; every other supplier equals only itself. -/
def same [BEq σ] : Supplier σ ε → Supplier σ ε → Bool
  | fixed v _, fixed w _ => v.same w
  | slot c _, slot d _ => c == d
  | void n .., void m .. | computed n .., computed m .. | mapped n .., mapped m .. => n == m
  | field n _ f _, field m _ g _ => n == m && f == g
  | _, _ => false

mutual

/-- An upper bound for the steps that the lineage of a supplier takes. -/
def weight : Supplier σ ε → Nat
  | fixed _ ps | void _ _ ps | computed _ _ _ ps => weights ps + 1
  | mapped _ _ _ source => weight source + 1
  | slot .. => 1
  | field _ _ _ source => 2 * weight source + 1

/-- The bounds of several suppliers together. -/
def weights : List (Supplier σ ε) → Nat
  | [] => 0
  | s :: rest => weight s + weights rest

end

theorem weights_append (ss ts : List (Supplier σ ε)) :
    weights (ss ++ ts) = weights ss + weights ts := by
  induction ss with
  | nil => simp [weights]
  | cons s rest ih => simp [weights, ih, Nat.add_assoc]

theorem weights_parents_lt (s : Supplier σ ε) : weights s.parents < s.weight := by
  fun_induction parents s with
  | case1 => simp [weight]
  | case2 => simp [weight]
  | case3 => simp [weight]
  | case4 => simp [weight, weights]
  | case5 => simp [weight, weights]
  | case6 _ _ _ source ih =>
    simp only [weight, weights]
    omega

/-- The suppliers of a worklist and all they are derived from, each with its direct parents, in
the order in which a breadth-first walk comes to them. -/
def lineageOf : List (Supplier σ ε) → List (Supplier σ ε × List (Supplier σ ε))
  | [] => []
  | s :: rest => (s, s.parents) :: lineageOf (rest ++ s.parents)
  termination_by work => weights work
  decreasing_by
    rw [weights_append, weights]
    have := weights_parents_lt s
    omega

/-- A supplier and all it is derived from, each with its direct parents. -/
def lineage (s : Supplier σ ε) : List (Supplier σ ε × List (Supplier σ ε)) := lineageOf [s]

end Supplier

def Lack.emptyText {σ ε : Type} (shown : ObjectId → String) (supplier : Supplier σ ε) :
    Option String → String
  | some message =>
    if message.isEmpty then s!"{supplier.text shown} is empty"
    else s!"{message} ({supplier.text shown})"
  | none => s!"{supplier.text shown} is empty"

/-- What is expected when nothing else is said about a value that must be there. -/
def expectedSomething : String := "expected not-None"

/-- A value that must be there, or the complaint about its absence. -/
def Value.required (complaint : String := expectedSomething) : Value → Except String Value
  | .nothing => .error complaint
  | v => .ok v

end BuildEngine
