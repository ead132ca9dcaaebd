import BuildEngine.Value

/-!
Values as documents: records with named fields, lists, texts, numbers and truth values. What is not
there is read as nothing, so that a document may leave out what it does not say.
-/

namespace BuildEngine.Value

def fields : Value → List (String × Value)
  | record fs => fs
  | _ => []

def field? (v : Value) (name : String) : Option Value :=
  (v.fields.find? fun entry => entry.1 == name).map Prod.snd

/-- The field of a name, or nothing. -/
def field (v : Value) (name : String) : Value := (v.field? name).getD .nothing

def hasField (v : Value) (name : String) : Bool := (v.field? name).isSome

def items : Value → List Value
  | list vs => vs
  | _ => []

/-- The item at a position of a list, or nothing. -/
def item (v : Value) (index : Nat) : Value := v.items[index]?.getD .nothing

def text? : Value → Option String
  | text s => some s
  | _ => none

/-- The text that a value is, or the empty text. -/
def textOrEmpty (v : Value) : String := v.text?.getD ""

/-- The integer that a value is. -/
def int? : Value → Option Int
  | int n => some n
  | _ => none

/-- The number of things that a value stands for, or nought. -/
def count (v : Value) : Nat := (v.int?.getD 0).toNat

def isTrue : Value → Bool
  | flag b => b
  | _ => false

/-- Whether a document allows something: it does, unless it says that it does not. -/
def allows (v : Value) (name : String) : Bool := !v.hasField name || (v.field name).isTrue

/-- How much a value counts: numbers and truth values as such, and other values by their length. -/
def amount : Value → Int
  | int n => n
  | flag b => if b then 1 else 0
  | text s => s.length
  | list vs => vs.length
  | record fs => fs.length
  | _ => 0

def isNothing : Value → Bool
  | nothing => true
  | _ => false

def texts (v : Value) : List String := v.items.map textOrEmpty

/-- The text in a field, or the empty text. -/
def textField (v : Value) (name : String) : String := (v.field name).textOrEmpty

def textFields (v : Value) : List (String × String) :=
  v.fields.map fun entry => (entry.1, entry.2.textOrEmpty)

/-- A text, or nothing. -/
def ofText? (s : Option String) : Value := (s.map text).getD nothing

def ofTexts (ss : List String) : Value := list (ss.map text)

/-- A list of texts in their order. -/
def ofSortedTexts (ss : List String) : Value := ofTexts (ss.mergeSort fun a b => decide (a ≤ b))

def ofFlags (bs : List Bool) : Value := list (bs.map flag)

def ofTextPairs (pairs : List (String × String)) : Value :=
  list (pairs.map fun entry => ofTexts [entry.1, entry.2])

instance : Coe String Value := ⟨text⟩
instance : Coe Bool Value := ⟨flag⟩
instance : Coe (List String) Value := ⟨ofTexts⟩
instance : Coe (List Value) Value := ⟨list⟩

theorem texts_ofTexts (ss : List String) : (ofTexts ss).texts = ss := by
  simp [texts, ofTexts, items, Function.comp_def, textOrEmpty, text?]

theorem text?_ofText? (s : Option String) : (ofText? s).text? = s := by
  cases s <;> rfl

end BuildEngine.Value
