import BuildEngine.Properties
import Mathlib.Data.List.Induction

/-! Precedence. Of all that is written to a property, in whatever order and between whatever else is
written, one value is kept: the last of the user, or else the first that was handed down, or else the
last that was written over what was there, or else the first. -/

namespace BuildEngine

/-- How a property is written: set, perhaps over what is there, given by the user, or handed down. -/
inductive Manner where
  | set (override : Bool)
  | user
  | inherited
  deriving DecidableEq

/-- A write to a store of properties. -/
structure Write where
  manner : Manner
  name : String
  value : String

/-- The values that are written to a property in a manner, in their order. -/
def Write.values (manner : Manner) (name : String) (writes : List Write) : List String :=
  (writes.filter fun w => w.manner = manner ∧ w.name = name).map (·.value)

namespace Properties

/-- The store after a write. -/
def write (p : Properties) (w : Write) : Properties :=
  match w.manner with
  | .set override => (p.set w.name w.value override).2
  | .user => p.setUser w.name w.value
  | .inherited => p.setInherited w.name w.value

/-- The store after writes to an empty one. -/
def written (writes : List Write) : Properties := writes.foldl write empty

end Properties

namespace Write

variable {name : String} {writes : List Write} {w : Write}

theorem values_snoc (manner : Manner) (writes : List Write) (w : Write) :
    values manner name (writes ++ [w]) =
      values manner name writes ++ if w.manner = manner ∧ w.name = name then [w.value] else [] := by
  unfold values
  rw [List.filter_append, List.map_append]
  congr 1
  by_cases taken : w.manner = manner ∧ w.name = name
  · simp [taken]
  · simp [taken]

theorem values_snoc_of_ne (manner : Manner) (writes : List Write) (other : w.name ≠ name) :
    values manner name (writes ++ [w]) = values manner name writes := by
  rw [values_snoc, if_neg fun both => other both.2, List.append_nil]

theorem values_ne_nil_iff {manner : Manner} :
    values manner name writes ≠ [] ↔ ∃ w ∈ writes, w.manner = manner ∧ w.name = name := by
  simp [values, List.filter_eq_nil_iff]

/-- The value of a property that counts as given by the user. -/
def given? (name : String) (writes : List Write) : Option String :=
  (values .user name writes).getLast?.or (values .inherited name writes).head?

/-- The value that a property is set to, as far as neither the user nor a calling build gives one. -/
def set? (name : String) (writes : List Write) : Option String :=
  (values (.set true) name writes).getLast?.or (values (.set false) name writes).head?

/-- What is kept of all writes to a property. -/
def kept (name : String) (writes : List Write) : Option Property :=
  ((given? name writes).map (⟨·, true⟩)).or ((set? name writes).map (⟨·, false⟩))

theorem given?_snoc (writes : List Write) (manner : Manner) (name value : String) :
    given? name (writes ++ [⟨manner, name, value⟩]) =
      match manner with
      | .user => some value
      | .inherited => (given? name writes).or (some value)
      | .set _ => given? name writes := by
  unfold given?
  cases manner with
  | user => simp [values_snoc]
  | inherited => simp [values_snoc]
  | set => simp [values_snoc]

theorem set?_snoc (writes : List Write) (manner : Manner) (name value : String) :
    set? name (writes ++ [⟨manner, name, value⟩]) =
      match manner with
      | .set true => some value
      | .set false => (set? name writes).or (some value)
      | .user | .inherited => set? name writes := by
  unfold set?
  cases manner with
  | user => simp [values_snoc]
  | inherited => simp [values_snoc]
  | set override => cases override <;> simp [values_snoc]

end Write

namespace Properties

variable {name : String} {writes : List Write} {w : Write}

theorem find?_write_of_ne (p : Properties) (other : w.name ≠ name) :
    (p.write w).table.find? name = p.table.find? name := by
  unfold write
  cases w.manner with
  | set override => exact (find?_set ..).trans (if_neg fun both => other both.1)
  | user => exact (find?_setUser ..).trans (if_neg other)
  | inherited => exact (find?_setInherited ..).trans (if_neg fun both => other both.1)

theorem isUser_of_kept {p : Properties} (held : p.table.find? name = Write.kept name writes) :
    p.isUser name = (Write.given? name writes).isSome := by
  rw [Properties.isUser, held, Write.kept]
  cases Write.given? name writes <;> cases Write.set? name writes <;> rfl

/-- A write to a property of which it is known what was kept before. -/
theorem find?_write {p : Properties} (held : p.table.find? name = Write.kept name writes)
    (manner : Manner) (value : String) :
    (p.write ⟨manner, name, value⟩).table.find? name =
      Write.kept name (writes ++ [⟨manner, name, value⟩]) := by
  have contains : p.contains name =
      ((Write.given? name writes).isSome || (Write.set? name writes).isSome) := by
    rw [Properties.contains, Table.contains, held, Write.kept]
    cases Write.given? name writes <;> cases Write.set? name writes <;> rfl
  rw [Write.kept, Write.given?_snoc, Write.set?_snoc]
  unfold write
  cases manner with
  | user =>
    rw [find?_setUser, if_pos rfl]
    rfl
  | inherited =>
    rw [find?_setInherited, isUser_of_kept held, held, Write.kept]
    cases Write.given? name writes <;> simp
  | set override =>
    rw [find?_set, admits, isUser_of_kept held, contains, held, Write.kept]
    cases Write.given? name writes with
    | some given => simp
    | none => cases Write.set? name writes <;> cases override <;> simp

/-- What a store holds under a name does not depend on how the writes to the name and to others are
interleaved. -/
theorem find?_written (name : String) (writes : List Write) :
    (written writes).table.find? name = Write.kept name writes := by
  induction writes using List.reverseRecOn with
  | nil => rfl
  | append_singleton writes w ih =>
    rw [written, List.foldl_append, List.foldl_cons, List.foldl_nil, ← written]
    by_cases same : w.name = name
    · obtain ⟨manner, _, value⟩ := w
      cases same
      exact find?_write ih manner value
    · rw [find?_write_of_ne _ same, ih]
      simp only [Write.kept, Write.given?, Write.set?, Write.values_snoc_of_ne _ _ same]

theorem isUser_written (name : String) (writes : List Write) :
    (written writes).isUser name = true ↔
      ∃ w ∈ writes, w.name = name ∧ (w.manner = .user ∨ w.manner = .inherited) := by
  rw [isUser_of_kept (find?_written name writes), Write.given?, Option.isSome_or, Bool.or_eq_true,
    List.getLast?_isSome, List.isSome_head?]
  simp only [Write.values_ne_nil_iff]
  constructor
  · rintro (⟨w, member, manner, named⟩ | ⟨w, member, manner, named⟩)
    · exact ⟨w, member, named, .inl manner⟩
    · exact ⟨w, member, named, .inr manner⟩
  · rintro ⟨w, member, named, manner | manner⟩
    · exact .inl ⟨w, member, manner, named⟩
    · exact .inr ⟨w, member, manner, named⟩

theorem contains_of_isUser {p : Properties} (user : p.isUser name = true) :
    p.contains name = true := by
  obtain ⟨stored, found, -⟩ := (Option.any_eq_true _ _).mp user
  rw [contains, Table.contains, found]
  rfl

theorem set_stores_iff (p : Properties) (name value : String) (override : Bool) :
    (p.set name value override).1 = true ↔
      p.isUser name = false ∧ (p.contains name = false ∨ override = true) := by
  have stored : (p.set name value override).1 = p.admits name override := by
    unfold set
    cases p.admits name override <;> rfl
  rw [stored, admits, Bool.and_eq_true, Bool.not_eq_true', Bool.or_eq_true, Bool.not_eq_true']
  exact and_congr_right fun _ => or_comm

theorem set_of_not_stored {p : Properties} {name value : String} {override : Bool}
    (refused : (p.set name value override).1 = false) : (p.set name value override).2 = p := by
  unfold set at refused ⊢
  split
  · rename_i admitted
    rw [if_pos admitted] at refused
    cases refused
  · rfl

/-- Whatever is written to properties, in any order, the value of each is that of the last write of the
user, or else the first that was handed down, or else the last that overrides, or else the first. It
is a property of the user if the user or a calling build wrote it, and then it is set. A value that is
set is stored unless the property is one of the user or is set and not overridden; otherwise the store
stays as it is. -/
theorem written_closed_form (writes : List Write) :
    let p := written writes
    (∀ name, p.get? name =
      ((((Write.values .user name writes).getLast?).or (Write.values .inherited name writes).head?).or
        (Write.values (.set true) name writes).getLast?).or
          (Write.values (.set false) name writes).head?) ∧
    (∀ name, p.isUser name = true ↔
      ∃ w ∈ writes, w.name = name ∧ (w.manner = .user ∨ w.manner = .inherited)) ∧
    (∀ name, p.isUser name = true → p.contains name = true) ∧
    ∀ name value override,
      ((p.set name value override).1 = true ↔
        p.isUser name = false ∧ (p.contains name = false ∨ override = true)) ∧
      ((p.set name value override).1 = false → (p.set name value override).2 = p) := by
  refine ⟨fun name => ?_, (isUser_written · writes), fun _ => contains_of_isUser,
    fun name value override => ⟨set_stores_iff _ name value override, set_of_not_stored⟩⟩
  rw [get?, find?_written, Write.kept, Write.given?, Write.set?, Option.map_or]
  simp only [Option.map_map, Function.comp_def, Option.map_id', Option.or_assoc]

end Properties
end BuildEngine
