import BuildEngine.Proofs.BindingConfinement

/-! Recorded configuration: what configuring an element does to objects, deed by deed. Recording
changes nothing: it ends as configuration without a record does, in the same world. -/

namespace BuildEngine

/-- What is done to an object for an element. -/
inductive Work where
  | attribute (name text : String)
  | reference (refid : String)
  /-- The object of a nested element is made. -/
  | child
  /-- The object of a nested element is attached: if the element is declared by an adder, the adder
  is called with it. -/
  | attach (handle : ChildHandle)
  | text (text : String)

/-- Work that is done for the element at a place of a tree, to an object, and the fault that it
ends with. A place is the way down the tree, in positions among nested elements. -/
structure Deed where
  place : List Nat
  object : ObjectId
  work : Work
  fault : Option Fault := none

/-- An action on a world that keeps a record. -/
abbrev Recorder (φ : Type) := ExceptT Fault (StateM (World φ × List Deed))

namespace Recorder

variable {φ : Type} {α β : Type}

def run (recorder : Recorder φ α) (w : World φ) (record : List Deed) :
    Except Fault α × World φ × List Deed :=
  (ExceptT.run recorder).run (w, record)

/-- Performs an action that the record leaves out. -/
def aside (action : Engine φ α) : Recorder φ α := ExceptT.mk fun (w, record) =>
  let (result, after) := action.run w
  (result, after, record)

/-- The fault that something ended with. -/
def faultOf : Except Fault α → Option Fault
  | .ok _ => none
  | .error fault => some fault

/-- Performs an action and records it, whether it succeeds or not. -/
def noting (place : List Nat) (object : ObjectId) (work : Work) (action : Engine φ α) :
    Recorder φ α := ExceptT.mk fun (w, record) =>
  let (result, after) := action.run w
  (result, after, record ++ [{ place, object, work, fault := faultOf result }])

theorem run_noting (place : List Nat) (object : ObjectId) (work : Work) (action : Engine φ α)
    (w : World φ) (record : List Deed) :
    (noting place object work action).run w record = ((action.run w).1, (action.run w).2,
      record ++ [{ place, object, work, fault := faultOf (action.run w).1 }]) := rfl

/-! The functions of a configuration, with a record of what they do to objects. -/

def bindAttributes (project : ProjectId) (id : ObjectId) (place : List Nat)
    (location : Location) : List (String × String) → Recorder φ Unit
  | [] => return ()
  | (name, text) :: rest => do
    if !isIdName name then
      noting place id (.attribute name text) (Engine.bindAttribute project id name text location)
    bindAttributes project id place location rest

mutual

def configure (project : ProjectId) (id : ObjectId) (place : List Nat) :
    Element → Recorder φ Unit
  | ⟨tag, attributes, children, text, location⟩ => do
    let e : Element := ⟨tag, attributes, children, text, location⟩
    aside (Engine.registerId project e id)
    let properties := (← aside (Engine.project project)).properties
    let resolved := attributes.map fun entry => (entry.1, properties.resolve entry.2)
    let isDataType ← aside (Engine.observe fun w => (w.kindOf id).isDataType)
    match resolved.find? fun entry => isDataType && isRefidName entry.1 with
    | some (_, refid) =>
      noting place id (.reference refid) (Engine.bindReference project e id refid resolved)
    | none =>
      bindAttributes project id place location resolved
      configureChildren project id place 0 children
      if !text.isEmpty then
        let properties := (← aside (Engine.project project)).properties
        let text := properties.resolve text
        noting place id (.text text) (Engine.bindText id text location)

def configureChildren (project : ProjectId) (owner : ObjectId) (place : List Nat)
    (position : Nat) : List Element → Recorder φ Unit
  | [] => return ()
  | e :: rest => do
    let below := place ++ [position]
    let handle ← noting below owner .child (Engine.takeChild project owner e.tag e.location)
    configure project handle.child below e
    noting below owner (.attach handle) (Engine.attach handle)
    configureChildren project owner place (position + 1) rest

end

/-- The element at the root of a tree is nested in an object. -/
def configureChild (project : ProjectId) (owner : ObjectId) (e : Element) :
    Recorder φ ObjectId := do
  let handle ← noting [] owner .child (Engine.takeChild project owner e.tag e.location)
  configure project handle.child [] e
  noting [] owner (.attach handle) (Engine.attach handle)
  return handle.child

def createConfigured (project : ProjectId) (e : Element) : Recorder φ ObjectId := do
  let id ← aside (Engine.create project e)
  configure project id [] e
  return id

/-! Rules for recorders: each does what an action does. -/

/-- A recorder does what an action does from a world on, and adds deeds to the record that are as
wanted. -/
def Keeps (recorder : Recorder φ α) (action : Engine φ α) (w : World φ)
    (wanted : List Deed → Except Fault α → World φ → Prop) : Prop :=
  ∃ deeds, (∀ record, recorder.run w record =
      ((action.run w).1, (action.run w).2, record ++ deeds)) ∧
    wanted deeds (action.run w).1 (action.run w).2

theorem run_bind_ok {recorder : Recorder φ α} {next : α → Recorder φ β} {w after : World φ}
    {record more : List Deed} {a : α} (first : recorder.run w record = (.ok a, after, more)) :
    (recorder >>= next).run w record = (next a).run after more := by
  change (match recorder (w, record) with
    | (result, state) => ExceptT.bindCont next result state) = _
  rw [show recorder (w, record) = (.ok a, after, more) from first]
  rfl

theorem run_bind_error {recorder : Recorder φ α} {next : α → Recorder φ β} {w after : World φ}
    {record more : List Deed} {fault : Fault}
    (first : recorder.run w record = (.error fault, after, more)) :
    (recorder >>= next).run w record = (.error fault, after, more) := by
  change (match recorder (w, record) with
    | (result, state) => ExceptT.bindCont next result state) = _
  rw [show recorder (w, record) = (.error fault, after, more) from first]
  rfl

namespace Keeps

variable {recorder : Recorder φ α} {next : α → Recorder φ β} {action : Engine φ α}
variable {onward : α → Engine φ β} {w : World φ}
variable {wanted : List Deed → Except Fault α → World φ → Prop}
variable {further : List Deed → Except Fault β → World φ → Prop}

theorem pure {a : α} (holds : wanted [] (.ok a) w) :
    Keeps (pure a) (pure a : Engine φ α) w wanted :=
  ⟨[], fun record => by rw [List.append_nil]; rfl, holds⟩

theorem aside (holds : wanted [] (action.run w).1 (action.run w).2) :
    Keeps (aside action) action w wanted :=
  ⟨[], fun record => by rw [List.append_nil]; rfl, holds⟩

theorem noting {place : List Nat} {object : ObjectId} {work : Work}
    (succeeds : ∀ a after, action.run w = (.ok a, after) →
      wanted [{ place, object, work }] (.ok a) after)
    (fails : ∀ fault after, action.run w = (.error fault, after) →
      wanted [{ place, object, work, fault }] (.error fault) after) :
    Keeps (noting place object work action) action w wanted := by
  rcases ended : action.run w with ⟨fault | a, after⟩
  · refine ⟨[{ place, object, work, fault }], ?_, by rw [ended]; exact fails fault after ended⟩
    intro record
    rw [run_noting, ended]
    rfl
  · refine ⟨[{ place, object, work }], ?_, by rw [ended]; exact succeeds a after ended⟩
    intro record
    rw [run_noting, ended]
    rfl

theorem imp {other : List Deed → Except Fault α → World φ → Prop}
    (keeps : Keeps recorder action w wanted)
    (implies : ∀ deeds result after, wanted deeds result after → other deeds result after) :
    Keeps recorder action w other := by
  obtain ⟨deeds, same, holds⟩ := keeps
  exact ⟨deeds, same, implies _ _ _ holds⟩

/-- What comes first is recorded first; after a fault nothing is done any more. -/
theorem bind (first : Keeps recorder action w wanted)
    (fails : ∀ deeds fault after, wanted deeds (.error fault) after →
      further deeds (.error fault) after)
    (rest : ∀ deeds a after, wanted deeds (.ok a) after →
      Keeps (next a) (onward a) after fun more result final =>
        further (deeds ++ more) result final) :
    Keeps (recorder >>= next) (action >>= onward) w further := by
  obtain ⟨deeds, same, holds⟩ := first
  rcases ended : action.run w with ⟨fault | a, after⟩
  · simp only [ended] at same holds
    refine ⟨deeds, ?_, ?_⟩
    · intro record
      rw [run_bind_error (same record), Engine.run_bind_error ended]
    · rw [Engine.run_bind_error ended]
      exact fails deeds fault after holds
  · simp only [ended] at same holds
    obtain ⟨more, onwards, finally_⟩ := rest deeds a after holds
    refine ⟨deeds ++ more, ?_, ?_⟩
    · intro record
      rw [run_bind_ok (same record), onwards, Engine.run_bind_ok ended, List.append_assoc]
    · rw [Engine.run_bind_ok ended]
      exact finally_

/-- What the record leaves out, and what succeeds, leaves the record to the rest. -/
theorem look {a : α} {after : World φ} (succeeds : action.run w = (.ok a, after))
    (rest : Keeps (next a) (onward a) after further) :
    Keeps (Recorder.aside action >>= next) (action >>= onward) w further := by
  have looks : Keeps (Recorder.aside action) action w fun deeds result final =>
      deeds = [] ∧ result = .ok a ∧ final = after := .aside (by simp [succeeds])
  apply looks.bind
  · rintro _ fault final ⟨_, same, _⟩
    cases same
  · rintro _ _ _ ⟨rfl, same, rfl⟩
    cases same
    exact rest

end Keeps
end Recorder
end BuildEngine
