import BuildEngine.Proofs.BindingConfinement
import BuildEngine.Proofs.LikeReading

/-! Expansion: a reference to a property stands for the value of the property, whatever characters
the value consists of. An attribute that takes texts holds such a value as it is. -/

namespace BuildEngine

open Engine

variable {φ : Type}

namespace Template

/-- A name that templates can refer to. -/
def IsName (name : String) : Prop := name ≠ "" ∧ ∀ c ∈ name.toList, isNameChar c = true

-- By way of the characters of the name: all characters there are would be tried otherwise.
instance : DecidablePred IsName := fun name =>
  decidable_of_iff (name ≠ "" ∧ name.toList.all isNameChar = true)
    (and_congr_right fun _ => List.all_eq_true)

/-- The template that consists of a reference to a property. -/
def referenceTo (name : String) : String := "$\x7b" ++ name ++ "\x7d"

theorem closedName?_of_plain {name : List Char} (some : name ≠ [])
    (plain : ∀ c ∈ name, isNameChar c = true) (rest : List Char) :
    closedName? (name ++ '}' :: rest) = .some (name, rest) := by
  have taken : (name ++ '}' :: rest).takeWhile isNameChar = name := by
    rw [List.takeWhile_append_of_pos plain, List.takeWhile_cons_of_neg (by decide),
      List.append_nil]
  have dropped : (name ++ '}' :: rest).dropWhile isNameChar = '}' :: rest := by
    rw [List.dropWhile_append_of_pos plain, List.dropWhile_cons_of_neg (by decide)]
  unfold closedName?
  rw [taken, dropped]
  cases name with
  | nil => exact absurd rfl some
  | cons c cs => rfl

theorem pieces_reference {name : List Char} (some : name ≠ [])
    (plain : ∀ c ∈ name, isNameChar c = true) (rest : List Char) :
    pieces ('$' :: '{' :: (name ++ '}' :: rest)) = .reference name :: pieces rest := by
  rw [pieces]
  split
  · rename_i after read
    rw [closedName?_of_plain some plain] at read
    cases read
    rfl
  · rename_i read
    rw [closedName?_of_plain some plain] at read
    cases read

theorem pieces_cons_of_ne {c : Char} (different : c ≠ '$') (rest : List Char) :
    pieces (c :: rest) = .char c :: pieces rest := by
  rw [pieces]
  · exact fun _ same => absurd same different
  · exact fun _ same => absurd same different

theorem pieces_plain {cs : List Char} (plain : ∀ c ∈ cs, isNameChar c = true) :
    pieces cs = cs.map .char := by
  induction cs with
  | nil => rw [pieces]; rfl
  | cons c rest ih =>
    have first := plain c List.mem_cons_self
    have different : c ≠ '$' := by rintro rfl; cases first
    rw [pieces_cons_of_ne different, ih fun c member => plain c (List.mem_cons_of_mem _ member)]
    rfl

variable {lookup : String → Option String} {name value : String}

theorem pieces_referenceTo (named : IsName name) (rest : List Char) :
    pieces ((referenceTo name).toList ++ rest) = .reference name.toList :: pieces rest := by
  have some : name.toList ≠ [] := fun none => named.1 (String.toList_eq_nil_iff.mp none)
  have spelled : (referenceTo name).toList ++ rest = '$' :: '{' :: (name.toList ++ '}' :: rest) := by
    simp [referenceTo]
  rw [spelled, pieces_reference some named.2]

/-- What a reference stands for is not looked into. -/
theorem expand_referenceTo (named : IsName name) (held : lookup name = some value) :
    expand lookup (referenceTo name) = value := by
  have pieces := pieces_referenceTo named []
  rw [List.append_nil, Template.pieces] at pieces
  rw [expand, pieces]
  simp [Piece.expand, held]

/-- A name stands for itself. -/
theorem expand_name (named : IsName name) : expand lookup name = name := by
  rw [expand, pieces_plain named.2, List.flatMap_map]
  simp [Piece.expand]

end Template

namespace Properties

variable {p : Properties} {name value : String}

theorem resolve_referenceTo (named : Template.IsName name) (held : p.get? name = some value) :
    p.resolve (Template.referenceTo name) = value :=
  Template.expand_referenceTo named held

theorem resolve_name (named : Template.IsName name) : p.resolve name = name :=
  Template.expand_name named

end Properties

/-- A name is no slot. -/
theorem slotName?_name {name : String} (named : Template.IsName name) : slotName? name = none := by
  have plain := named.2
  unfold slotName?
  split
  · rename_i rest spelled
    have brace := plain '{' (by rw [spelled]; simp)
    cases brace
  · rfl

/-! Attributes that take texts. -/

/-- The first type that texts are tried as is that of texts. -/
def Attribute.TakesTexts (a : Attribute) : Prop :=
  ∃ rest, a.accepted.filter (fun type => !type.same .nothing) = .text :: rest

theorem ValueType.accept?_nothing (w : World φ) {type : ValueType}
    (absent : type.same .nothing = true)
    (text : String) : type.accept? w (.text text) = none := by
  cases type <;> first | rfl | cases absent

/-- An attribute that takes texts holds a text as it is. -/
theorem Attribute.accept_text {a : Attribute} (texts : a.TakesTexts) (w : World φ)
    (owner text : String) : a.accept w owner (.text text) = .ok (.text text) := by
  have found (types rest : List ValueType)
      (first : types.filter (fun type => !type.same .nothing) = .text :: rest) :
      types.findSome? (fun type => type.accept? w (.text text)) = some (.text text) := by
    induction types with
    | nil => cases first
    | cons type others ih =>
      rw [List.filter_cons] at first
      split at first
      · cases first
        rfl
      · rename_i absent
        rw [List.findSome?_cons, ValueType.accept?_nothing w (by simpa using absent)]
        exact ih first
  obtain ⟨rest, first⟩ := texts
  rw [accept, found a.accepted rest first]

/-- The world in which an attribute of an object has its value from a source. -/
def World.withSource (w : World φ) (id : ObjectId) (name : String) (source : Source) : World φ :=
  { w with objects := w.objects.modify id fun o => { o with fields := o.fields.put name source } }

namespace World

variable {w : World φ} {id : ObjectId} {name : String} {source : Source}

@[simp] theorem length_withSource :
    (w.withSource id name source).objects.length = w.objects.length := by
  simp [withSource]

@[simp] theorem project_withSource (project : ProjectId) :
    (w.withSource id name source).project project = w.project project := rfl

@[simp] theorem kinds_withSource : (w.withSource id name source).kinds = w.kinds := rfl

/-- The object has the attribute, and is otherwise what it was. -/
theorem object_withSource (present : id < w.objects.length) :
    (w.withSource id name source).object id =
      { w.object id with fields := (w.object id).fields.put name source } := by
  rw [object_of_modify_present rfl present, if_pos rfl]

theorem kindOf_withSource (present : id < w.objects.length) :
    (w.withSource id name source).kindOf id = w.kindOf id := by
  rw [kindOf, object_withSource present]
  rfl

theorem find?_withSource (present : id < w.objects.length) (other : String) :
    ((w.withSource id name source).object id).fields.find? other =
      if name = other then some source else (w.object id).fields.find? other := by
  rw [object_withSource present, Table.find?_put]

/-! Readings of texts. -/

variable {value : String}

theorem readText_of_text (found : (w.object id).fields.find? name = some (.value (.text value))) :
    w.readText id name = .ok value := by
  rw [readText, read_of_value found]
  rfl

theorem isSet_of_text (found : (w.object id).fields.find? name = some (.value (.text value))) :
    w.isSet id name = true := by
  rw [isSet, found]

end World

namespace Engine

variable {w : World φ} {id : ObjectId} {a : Attribute}

theorem run_consult_ok {α : Type} {look : World φ → Except Fault α} {a : α}
    (seen : look w = .ok a) : (consult look).run w = (.ok a, w) := by
  rw [consult, run_bind_ok (run_get w), seen]
  rfl

theorem run_consult_error {α : Type} {look : World φ → Except Fault α} {fault : Fault}
    (seen : look w = .error fault) : (consult look).run w = (.error fault, w) := by
  rw [consult, run_bind_ok (run_get w), seen]
  rfl

theorem run_adapting_ok {α : Type} {action : Engine φ α} {after : World φ} {result : α}
    (ended : action.run w = (.ok result, after)) (change : Fault → Fault) :
    (adapting change action).run w = (.ok result, after) :=
  run_tryCatch_ok ended

/-- What succeeds as a whole succeeds step by step. -/
theorem ok_of_bind {α β : Type} {action : Engine φ α} {next : α → Engine φ β} {w after : World φ}
    {b : β} (ended : (action >>= next).run w = (.ok b, after)) :
    ∃ a mid, action.run w = (.ok a, mid) ∧ (next a).run mid = (.ok b, after) := by
  rcases first : action.run w with ⟨fault | a, mid⟩
  · rw [run_bind_error first] at ended
    cases ended
  · rw [run_bind_ok first] at ended
    exact ⟨a, mid, rfl, ended⟩

theorem ok_of_consult {α : Type} {look : World φ → Except Fault α} {a : α}
    {after : World φ}
    (ended : (consult look).run w = (.ok a, after)) : look w = .ok a ∧ after = w := by
  rw [consult, run_bind_ok (run_get w)] at ended
  cases seen : look w with
  | error fault => rw [seen] at ended; cases ended
  | ok seen' =>
    rw [seen] at ended
    cases ended
    exact ⟨rfl, rfl⟩

/-- What the kind of an object says of an attribute that takes texts. -/
structure TextAttribute (w : World φ) (id : ObjectId) (name : String) (a : Attribute) : Prop where
  signed : ∃ signature, Signature.ofKind w.kinds (w.kindOf id) = .ok signature ∧
    signature.attribute? name = some a
  texts : a.TakesTexts
  own : ∃ b, (w.kindOf id).attributes.find? a.name = some b ∧ b.TakesTexts

/-- An object of a kind takes texts wherever it has its kind. -/
theorem TextAttribute.transfer {after : World φ} {name : String}
    (takes : TextAttribute w id name a) (kinds : after.kinds = w.kinds)
    (kind : after.kindOf id = w.kindOf id) : TextAttribute after id name a := by
  obtain ⟨signed, texts, own⟩ := takes
  exact ⟨by rwa [kinds, kind], texts, by rwa [kind]⟩

/-- A text that is no slot is what the attribute holds, character by character. -/
theorem run_bindAttribute {project : ProjectId} {name text : String} (location : Location)
    (takes : TextAttribute w id name a) (plain : slotName? text = none) :
    (bindAttribute project id name text location).run w =
      (.ok (), w.withSource id a.name (.value (.text text))) := by
  obtain ⟨⟨signature, signed, found⟩, ⟨rest, first⟩, b, own, accepting⟩ := takes
  unfold bindAttribute
  have signs : (locating location (signatureOf id)).run w = (.ok signature, w) :=
    run_adapting_ok (run_consult_ok (by rw [signed]; rfl)) _
  rw [run_bind_ok signs, run_bind_ok (run_observe _ w), plain, found]
  apply run_adapting_ok
  have coerces : (coerce project a text).run w = (.ok (.text text), w) := by
    rw [coerce, first, coerceFirst]
    rfl
  rw [run_bind_ok coerces, setField, attributeOf, run_bind_ok (run_observe _ w), own]
  have accepts : (consult fun w => b.accept w (w.kindOf id).name (.text text)).run w =
      (.ok (.text text), w) := run_consult_ok (b.accept_text accepting w _ text)
  exact run_bind_ok accepts

end Engine
end BuildEngine

/-! Escaping. A template may be put together from literal texts, in which each dollar sign is doubled,
and from references, in any order: what it is expanded to is put together from what they stand for. -/

namespace BuildEngine
namespace Template

/-- A character as it is written in a template to stand for itself. -/
def escapeChar (c : Char) : List Char := if c = '$' then ['$', '$'] else [c]

/-- A text as it is written in a template to stand for itself: with each dollar sign doubled. -/
def escape (text : String) : String := String.ofList (text.toList.flatMap escapeChar)

/-- A part that a template is put together from. -/
inductive Segment where
  | literal (text : String)
  | reference (name : String) (named : IsName name)

namespace Segment

/-- How a part is written. -/
def written : Segment → String
  | literal text => escape text
  | reference name _ => referenceTo name

/-- What a part stands for: a reference to a property that is not set stays as it is written. -/
def meaning (lookup : String → Option String) : Segment → String
  | literal text => text
  | reference name _ => (lookup name).getD (referenceTo name)

/-- The pieces that a part is read as. -/
def pieces : Segment → List Piece
  | literal text => text.toList.map .char
  | reference name _ => [.reference name.toList]

end Segment

theorem pieces_escapeChar (c : Char) (rest : List Char) :
    pieces (escapeChar c ++ rest) = .char c :: pieces rest := by
  by_cases dollar : c = '$'
  · cases dollar
    exact pieces.eq_2 rest
  · rw [escapeChar, if_neg dollar]
    exact pieces_cons_of_ne dollar rest

theorem pieces_escaped (cs rest : List Char) :
    pieces (cs.flatMap escapeChar ++ rest) = cs.map .char ++ pieces rest := by
  induction cs with
  | nil => rfl
  | cons c cs ih =>
    rw [List.flatMap_cons, List.append_assoc, pieces_escapeChar, ih, List.map_cons, List.cons_append]

/-- The reader is through with a part when it comes to the next, whatever that begins with. -/
theorem pieces_written (s : Segment) (rest : List Char) :
    pieces (s.written.toList ++ rest) = s.pieces ++ pieces rest := by
  cases s with
  | literal text =>
    rw [Segment.written, escape, String.toList_ofList]
    exact pieces_escaped text.toList rest
  | reference name named => exact pieces_referenceTo named rest

theorem pieces_join_written (segments : List Segment) :
    pieces (String.join (segments.map Segment.written)).toList = segments.flatMap Segment.pieces := by
  induction segments with
  | nil => rw [List.map_nil, String.join_nil, String.toList_empty, pieces, List.flatMap_nil]
  | cons s rest ih =>
    rw [List.map_cons, String.join_cons, String.toList_append, pieces_written, ih, List.flatMap_cons]

variable (lookup : String → Option String)

theorem flatMap_expand_char (cs : List Char) :
    (cs.map Piece.char).flatMap (Piece.expand lookup) = cs := by
  rw [List.flatMap_map]
  exact List.flatMap_singleton' cs

theorem flatMap_expand_pieces (s : Segment) :
    s.pieces.flatMap (Piece.expand lookup) = (s.meaning lookup).toList := by
  cases s with
  | literal text => exact flatMap_expand_char lookup text.toList
  | reference name named =>
    rw [Segment.pieces, List.flatMap_singleton, Piece.expand, String.ofList_toList, Segment.meaning]
    cases lookup name with
    | some value => rfl
    | none => simp [referenceTo]

theorem expand_join_written (segments : List Segment) :
    expand lookup (String.join (segments.map Segment.written)) =
      String.join (segments.map (Segment.meaning lookup)) := by
  rw [← String.toList_inj, expand, pieces_join_written, String.toList_ofList, String.toList_join,
    List.flatMap_assoc, List.flatMap_map]
  exact congrArg (segments.flatMap ·) (funext (flatMap_expand_pieces lookup))

theorem expand_escape (text : String) : expand lookup (escape text) = text := by
  have alone := expand_join_written lookup [.literal text]
  simpa [Segment.written, Segment.meaning] using alone

end Template

/-- Resolving a template that is put together from literal texts and references gives the texts and the
values, which are not looked into, where a reference to a property that is not set stays. A text in
which each dollar sign is doubled gives the text. -/
theorem Properties.resolve_segments (p : Properties) :
    (∀ segments : List Template.Segment,
      p.resolve (String.join (segments.map Template.Segment.written)) =
        String.join (segments.map (Template.Segment.meaning p.get?))) ∧
    ∀ text, p.resolve (Template.escape text) = text :=
  ⟨Template.expand_join_written p.get?, Template.expand_escape p.get?⟩

end BuildEngine
