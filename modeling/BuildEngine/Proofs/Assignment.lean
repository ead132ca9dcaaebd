import BuildEngine.Proofs.Conversion
import BuildEngine.Proofs.KindGrowth

/-! What it is to set an attribute from a text: the attribute comes to hold what its types make of
the text, as it is, or to follow a slot that the text consists of. Apart from that objects are made,
and nothing else happens; when a setting fails, the attribute is left alone too. -/

namespace BuildEngine

open Engine

variable {φ : Type}

/-- Nothing happened but that objects were made. -/
def World.Gains (w after : World φ) : Prop :=
  ∃ more, after = { w with objects := w.objects ++ more }

namespace World.Gains

variable {w mid after : World φ} {id : ObjectId}

theorem refl (w : World φ) : w.Gains w := ⟨[], by rw [List.append_nil]⟩

theorem trans (first : w.Gains mid) (second : mid.Gains after) : w.Gains after := by
  obtain ⟨some, rfl⟩ := first
  obtain ⟨more, rfl⟩ := second
  exact ⟨some ++ more, by rw [List.append_assoc]⟩

theorem kinds (gains : w.Gains after) : after.kinds = w.kinds := by
  obtain ⟨more, rfl⟩ := gains
  rfl

theorem projects (gains : w.Gains after) : after.projects = w.projects := by
  obtain ⟨more, rfl⟩ := gains
  rfl

theorem grows (gains : w.Gains after) : w.objects.length ≤ after.objects.length := by
  obtain ⟨more, rfl⟩ := gains
  simp

theorem object (gains : w.Gains after) (present : id < w.objects.length) :
    after.object id = w.object id := by
  obtain ⟨more, rfl⟩ := gains
  rw [World.object, List.getElem?_append_left present, World.object]

theorem kindOf (gains : w.Gains after) (present : id < w.objects.length) :
    after.kindOf id = w.kindOf id := by
  rw [World.kindOf, gains.kinds, gains.object present, World.kindOf]

end World.Gains

namespace Engine

variable {α β : Type} {w mid after : World φ} {project : ProjectId} {id : ObjectId} {text : String}

/-! Turning a text into a value does nothing but make objects. -/

/-- An action that does nothing but make objects. -/
def Makes (action : Engine φ α) : Prop := ∀ w : World φ, w.Gains (action.run w).2

namespace Makes

theorem of_looks {action : Engine φ α} (looks : Looks action) : Makes action := by
  intro w
  rw [looks w]
  exact .refl w

theorem pure (a : α) : Makes (pure a : Engine φ α) := of_looks (.pure a)

theorem bind {action : Engine φ α} {next : α → Engine φ β} (first : Makes action)
    (then_ : ∀ a, Makes (next a)) : Makes (action >>= next) := by
  intro w
  have gains := first w
  rcases ended : action.run w with ⟨fault | a, mid⟩
  · rw [run_bind_error ended]
    rwa [ended] at gains
  · rw [run_bind_ok ended]
    rw [ended] at gains
    exact gains.trans (then_ a mid)

end Makes

/-- An object is made, or nothing happens. -/
theorem run_instantiate_cases (k : Kind) (project : ProjectId) (w : World φ) :
    (∃ fault, (instantiate k project).run w = (.error fault, w)) ∨
      ∃ o, (instantiate k project).run w =
        (.ok w.objects.length, { w with objects := w.objects ++ [o] }) := by
  unfold instantiate
  rw [run_bind_ok (run_get w)]
  extract_lets missing add check
  have adds : (∃ fault, (add ()).run w = (.error fault, w)) ∨ ∃ o, (add ()).run w =
      (.ok w.objects.length, { w with objects := w.objects ++ [o] }) := by
    have same := looks_initialFields k k.attributes.entries .empty w
    rcases ended : (initialFields k k.attributes.entries .empty).run w with ⟨fault | fields, mid⟩
    · rw [ended] at same
      cases same
      exact .inl ⟨fault, run_bind_error ended⟩
    · rw [ended] at same
      cases same
      exact .inr ⟨_, run_bind_ok ended⟩
  have checks : (∃ fault, (check ()).run w = (.error fault, w)) ∨ ∃ o, (check ()).run w =
      (.ok w.objects.length, { w with objects := w.objects ++ [o] }) := by
    unfold check
    split
    · exact .inl ⟨_, run_bind_error (run_throw _ w)⟩
    · exact adds
  split
  · exact .inl ⟨_, run_bind_error (run_throw _ w)⟩
  · exact checks

/-- An attribute is set to what it takes a value as, or nothing happens. -/
theorem run_setField_cases (id : ObjectId) (name : String) (v : Value) (w : World φ) :
    (∃ fault, (setField id name v).run w = (.error fault, w)) ∨
      ∃ taken, (setField id name v).run w = (.ok (), w.withSource id name (.value taken)) ∧
        (((w.kindOf id).attributes.find? name).getD default).accept w (w.kindOf id).name v =
          .ok taken := by
  rw [setField, attributeOf, run_bind_ok (run_observe _ w)]
  cases accepted : (((w.kindOf id).attributes.find? name).getD default).accept w
      (w.kindOf id).name v with
  | error fault =>
    exact .inl ⟨fault, run_bind_error (run_consult_error accepted)⟩
  | ok taken =>
    exact .inr ⟨taken, run_bind_ok (run_consult_ok accepted), rfl⟩

/-- The object that was made last is changed. -/
theorem withSource_append (w : World φ) (o : Object) (name : String) (source : Source) :
    ({ w with objects := w.objects ++ [o] } : World φ).withSource w.objects.length name source =
      { w with objects := w.objects ++ [{ o with fields := o.fields.put name source }] } := by
  have last (objects : List Object) (change : Object → Object) :
      (objects ++ [o]).modify objects.length change = objects ++ [change o] := by
    induction objects with
    | nil => rfl
    | cons first rest ih => exact congrArg (first :: ·) ih
  rw [World.withSource, last]

theorem makes_pathListOf (project : ProjectId) (text : String) :
    Makes (pathListOf project text : Engine φ Value) := by
  intro w
  unfold pathListOf
  rw [run_bind_ok (run_observe _ w)]
  rcases run_instantiate_cases (w.kinds.get Standard.pathList) project w with
    ⟨fault, fails⟩ | ⟨o, makes⟩
  · rw [run_bind_error fails]
    exact .refl w
  rw [run_bind_ok makes]
  rcases run_setField_cases w.objects.length "path" (.text text)
      { w with objects := w.objects ++ [o] } with ⟨fault, fails⟩ | ⟨taken, sets, -⟩
  · rw [run_bind_error fails]
    exact ⟨[o], rfl⟩
  · rw [run_bind_ok sets, withSource_append]
    exact ⟨_, rfl⟩

theorem makes_coerceTo (project : ProjectId) (text : String) (type : ValueType) :
    Makes (coerceTo project text type : Engine φ _) := by
  unfold coerceTo
  split
  case h_1 =>
    refine .bind (.of_looks .get) fun w => ?_
    split
    · split
      · exact .pure _
      · exact .pure _
    · exact .pure _
  case h_5 => split <;> exact .pure _
  case h_6 => split <;> exact .pure _
  case h_7 => exact .bind (.of_looks (.observe _)) fun p => .pure _
  case h_9 =>
    refine .bind (.of_looks (.observe _)) fun k => ?_
    split
    · exact .bind (makes_pathListOf project text) fun _ => .pure _
    · exact .pure _
  all_goals exact .pure _

theorem makes_coerceFirst (project : ProjectId) (text : String) (complaints : List String)
    (types : List ValueType) : Makes (coerceFirst project text complaints types : Engine φ _) := by
  induction types generalizing complaints with
  | nil => exact .of_looks (.throw _)
  | cons type rest ih =>
    unfold coerceFirst
    refine .bind (makes_coerceTo project text type) fun result => ?_
    split
    · exact .pure _
    · exact ih _

/-! An attribute that accepts what was made of a text holds it as it is. -/

theorem accept?_eq_none_or_of_ne_text {v : Value} (noText : ∀ s, v ≠ .text s) (type : ValueType)
    (u : World φ) : type.accept? u v = none ∨ type.accept? u v = some v := by
  by_cases path : type = .path
  · subst path
    cases v with
    | text s => exact absurd rfl (noText s)
    | path => exact .inr rfl
    | _ => exact .inl rfl
  · exact ValueType.accept?_eq_none_or path u v

/-- The type that made a value of a text takes this value as it is, if it is a text. -/
theorem accept?_of_coerceTo {type : ValueType} {v : Value}
    (reads : (coerceTo project text type).run w = (.ok (.ok v), after)) :
    (∀ s, v ≠ .text s) ∨ ∀ u : World φ, type.accept? u v = some v := by
  cases type with
  | anything => exact .inr fun _ => rfl
  | text =>
    cases reads
    exact .inr fun _ => rfl
  | reference | path =>
    cases reads
    exact .inl nofun
  | flag =>
    unfold coerceTo at reads
    cases read : readFlag text with
    | error =>
      rw [read] at reads
      cases reads
    | ok =>
      rw [read] at reads
      cases reads
      exact .inl nofun
  | int =>
    unfold coerceTo at reads
    cases read : Number.readInt (Text.trim text) with
    | error =>
      rw [read] at reads
      cases reads
    | ok =>
      rw [read] at reads
      cases reads
      exact .inl nofun
  | real =>
    unfold coerceTo at reads
    cases read : Number.readReal (Text.trim text) with
    | error =>
      rw [read] at reads
      cases reads
    | ok =>
      rw [read] at reads
      cases reads
      exact .inl nofun
  | enumeration e =>
    have asked : coerceTo (φ := φ) project text (.enumeration e) = pure (e.read text) := rfl
    rw [asked] at reads
    cases read : e.read text with
    | error =>
      rw [read] at reads
      cases reads
    | ok member =>
      rw [read] at reads
      cases reads
      obtain ⟨_, _, rfl⟩ := Enumeration.exists_of_read read
      exact .inl nofun
  | kind id =>
    obtain ⟨k, mid, -, reads⟩ := ok_of_bind reads
    split at reads
    · obtain ⟨made, final, makes, reads⟩ := ok_of_bind reads
      cases reads
      obtain ⟨k, seen, -, makes⟩ := ok_of_bind makes
      obtain ⟨list, there, -, makes⟩ := ok_of_bind makes
      obtain ⟨_, set, -, makes⟩ := ok_of_bind makes
      cases makes
      exact .inl nofun
    · cases reads
  | nothing | bytes | list => cases reads

/-- The first type that makes a value of a text comes before any type of paths. -/
theorem accept?_of_coerceFirst {types : List ValueType} {complaints : List String} {v : Value}
    (coerced : (coerceFirst project text complaints types).run w = (.ok v, after)) :
    ∃ earlier type later, types = earlier ++ type :: later ∧
      (∀ other ∈ earlier, other ≠ .path) ∧
      ((∀ s, v ≠ .text s) ∨ ∀ u : World φ, type.accept? u v = some v) := by
  induction types generalizing w complaints with
  | nil => cases coerced
  | cons type rest ih =>
    unfold coerceFirst at coerced
    obtain ⟨result, mid, ran, coerced⟩ := ok_of_bind coerced
    cases result with
    | ok read =>
      cases coerced
      exact ⟨[], type, rest, rfl, List.forall_mem_nil _, accept?_of_coerceTo ran⟩
    | error complaint =>
      obtain ⟨earlier, reading, later, rfl, noPath, takes⟩ := ih coerced
      refine ⟨type :: earlier, reading, later, rfl, ?_, takes⟩
      refine List.forall_mem_cons.mpr ⟨?_, noPath⟩
      -- a type of paths makes a path of whatever text it is given
      rintro rfl
      cases ran

/-- What is made of a text for an attribute is what the attribute takes it as, if it takes it. -/
theorem taken_of_coerce {a : Attribute} {v taken : Value} {u : World φ} {owner : String}
    (coerced : (coerce project a text).run w = (.ok v, after))
    (accepted : a.accept u owner v = .ok taken) : taken = v := by
  obtain ⟨earlier, type, later, types, noPath, takes⟩ := accept?_of_coerceFirst coerced
  have found : a.accepted.findSome? (fun type => type.accept? u v) = some taken := by
    unfold Attribute.accept at accepted
    split at accepted
    · cases accepted
      assumption
    · cases accepted
  rcases takes with noText | takes
  -- no type changes a value that is no text, so it does not matter which type takes the value
  · obtain ⟨other, -, taking⟩ := List.exists_of_findSome?_eq_some found
    rcases accept?_eq_none_or_of_ne_text noText other u with none_ | same
    · rw [none_] at taking
      cases taking
    · exact Option.some.inj (taking.symm.trans same)
  -- only a type of paths changes a text, and none comes before the type that takes it as it is
  · obtain ⟨before, rest, all, earlier', rest'⟩ := List.filter_eq_append_iff.mp types
    obtain ⟨absent, behind, rest'', none_, -, -⟩ := List.filter_eq_cons_iff.mp rest'
    have noPath : ∀ other ∈ before ++ absent, other ≠ .path := by
      rintro _ member rfl
      rcases List.mem_append.mp member with member | member
      · refine noPath .path ?_ rfl
        rw [← earlier']
        exact List.mem_filter.mpr ⟨member, rfl⟩
      · exact none_ _ member rfl
    rw [all, rest'', ← List.append_assoc, ValueType.findSome?_accept? noPath (takes u)] at found
    exact (Option.some.inj found).symm

end Engine

/-- Where an attribute has its value from when it is set from a text: from a slot that the text
consists of, if the attribute listens, or else from the text itself. -/
inductive Attribute.Takes (a : Attribute) (project : ProjectId) (w : World φ) (text : String) :
    Source → Prop where
  | slot {slot : String} (named : slotName? text = some slot) (listens : a.listening = true) :
      a.Takes project w text (.slot project slot)
  | literal {v : Value} {after : World φ} (plain : slotName? text = none)
      (coerced : (coerce project a text).run w = (.ok v, after)) :
      a.Takes project w text (.value v)

/-- A name selects an attribute of an object. -/
def World.Selects (w : World φ) (id : ObjectId) (name : String) (a : Attribute) : Prop :=
  ∃ signature, Signature.ofKind w.kinds (w.kindOf id) = .ok signature ∧
    signature.attribute? name = some a

/-- An attribute that a name selects stands under its own name. -/
theorem World.Selects.own {w : World φ} {id : ObjectId} {name : String} {a : Attribute}
    (grown : w.kinds.Grown) (selects : w.Selects id name a) :
    (w.kindOf id).attributes.find? a.name = some a := by
  obtain ⟨signature, signed, found⟩ := selects
  obtain ⟨key, stored, -⟩ := Signature.stored_of_attribute? signed found
  have named : key = a.name := grown.named _ (key, a) stored
  rw [← named]
  exact Table.find?_of_mem_entries stored

namespace Engine

variable {w after : World φ} {project : ProjectId} {id : ObjectId} {name text : String}
variable {location : Location}

/-- A setting that fails makes objects at most. One that succeeds lets the attribute have its value
from what the text denotes, and does nothing else but make objects. -/
theorem bindAttribute_cases (grown : w.kinds.Grown) (project : ProjectId) (id : ObjectId)
    (name text : String) (location : Location) :
    (∃ fault after, (bindAttribute project id name text location).run w = (.error fault, after) ∧
      w.Gains after) ∨
    ∃ a mid source, w.Selects id name a ∧ w.Gains mid ∧
      (bindAttribute project id name text location).run w =
        (.ok (), mid.withSource id a.name source) ∧
      (id < w.objects.length → a.Takes project w text source) := by
  unfold bindAttribute
  cases signs : Signature.ofKind w.kinds (w.kindOf id) with
  | error problem =>
    have fails : (signatureOf id).run w = (.error problem.fault, w) :=
      run_consult_error (by rw [signs]; rfl)
    exact .inl ⟨_, w, run_bind_error (run_tryCatch_error fails), .refl w⟩
  | ok signature =>
    have signed : (locating location (signatureOf id)).run w = (.ok signature, w) :=
      run_adapting_ok (run_consult_ok (by rw [signs]; rfl)) _
    rw [run_bind_ok signed, run_bind_ok (run_observe _ w)]
    split
    · rename_i slot a named found
      split
      · rename_i listens
        exact .inr ⟨a, w, _, ⟨signature, signs, found⟩, .refl w, rfl, fun _ => .slot named listens⟩
      · exact .inl ⟨_, w, rfl, .refl w⟩
    · exact .inl ⟨_, w, rfl, .refl w⟩
    · exact .inl ⟨_, w, rfl, .refl w⟩
    · rename_i a plain found
      have selects : w.Selects id name a := ⟨signature, signs, found⟩
      have gains := makes_coerceFirst project text []
        (a.accepted.filter fun type => !type.same .nothing) w
      rcases coerced : (coerce project a text).run w with ⟨fault | v, mid⟩
      · rw [coerce] at coerced
        rw [coerced] at gains
        exact .inl ⟨_, mid, run_tryCatch_error (run_bind_error coerced), gains⟩
      · have makes : w.Gains mid := by
          rw [coerce] at coerced
          rwa [coerced] at gains
        rcases run_setField_cases id a.name v mid with ⟨fault, fails⟩ | ⟨taken, sets, accepted⟩
        · exact .inl ⟨_, mid, run_tryCatch_error ((run_bind_ok coerced).trans fails), makes⟩
        · refine .inr ⟨a, mid, _, selects, makes,
            run_adapting_ok ((run_bind_ok coerced).trans sets) _, fun present => ?_⟩
          rw [makes.kindOf present, selects.own grown] at accepted
          cases taken_of_coerce coerced accepted
          exact .literal plain coerced

end Engine

end BuildEngine
