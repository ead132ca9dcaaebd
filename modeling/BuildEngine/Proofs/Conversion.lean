import BuildEngine.Proofs.Awaiting

/-! Conversion: an attribute that accepts several types turns a text into a value of the first type
that reads it, and then takes that value as it is, although the types are asked twice and in
different ways. A text that none of the types reads changes nothing. -/

namespace BuildEngine

open Engine

variable {φ : Type}

namespace ValueType

/-- The types of which texts can give values: plain ones, enumerations, and lists of paths. -/
def isReadable : ValueType → Bool
  | anything | text | flag | int | real | path | reference | enumeration _ => true
  | kind id => id == Standard.pathList
  | _ => false

/-- Only a type of paths takes a value as another one. -/
theorem accept?_eq_none_or {type : ValueType} (noPath : type ≠ path) (w : World φ) (v : Value) :
    type.accept? w v = none ∨ type.accept? w v = some v := by
  cases type with
  | path => exact absurd rfl noPath
  | enumeration e =>
    cases v with
    | member f n value =>
      by_cases same : e.name = f
      · exact .inr (if_pos same)
      · exact .inl (if_neg same)
    | _ => exact .inl rfl
  | kind id =>
    cases v with
    | object o =>
      cases isA : w.isA o id with
      | true => exact .inr (if_pos isA)
      | false => exact .inl (if_neg (by simp [isA]))
    | _ => exact .inl rfl
  | anything => exact .inr rfl
  | _ => cases v <;> first | exact .inl rfl | exact .inr rfl

/-- The first type that takes a value at all decides what the value is taken as. -/
theorem findSome?_accept? {earlier later : List ValueType} {type : ValueType} {w : World φ}
    {v : Value} (noPath : ∀ other ∈ earlier, other ≠ path) (taken : type.accept? w v = some v) :
    (earlier ++ type :: later).findSome? (fun type => type.accept? w v) = some v := by
  induction earlier with
  | nil => rw [List.nil_append, List.findSome?_cons, taken]
  | cons first rest ih =>
    rw [List.cons_append, List.findSome?_cons]
    rcases accept?_eq_none_or (noPath first List.mem_cons_self) w v with none_ | same
    · rw [none_]
      exact ih fun other member => noPath other (List.mem_cons_of_mem _ member)
    · rw [same]

end ValueType

namespace Engine

variable {w mid after : World φ} {project : ProjectId} {id : ObjectId} {text name : String}
variable {type : ValueType} {types : List ValueType} {a : Attribute} {v : Value}

/-- A type makes a value of a text. For a list of paths an object is made. -/
def Reads (w : World φ) (project : ProjectId) (text : String) (type : ValueType) (v : Value)
    (after : World φ) : Prop :=
  (coerceTo project text type).run w = (.ok (.ok v), after)

/-- A type makes nothing of a text, and nothing changes. -/
def Refuses (w : World φ) (project : ProjectId) (text : String) (type : ValueType) : Prop :=
  ∃ complaint, (coerceTo project text type).run w = (.ok (.error complaint), w)

/-- The first of some types that makes a value of a text. -/
def ReadsFirst (w : World φ) (project : ProjectId) (text : String) (types : List ValueType)
    (v : Value) (after : World φ) : Prop :=
  ∃ earlier type later, types = earlier ++ type :: later ∧
    (∀ other ∈ earlier, Refuses w project text other) ∧ Reads w project text type v after

theorem Refuses.ne_path (refuses : Refuses w project text type) : type ≠ .path := by
  rintro rfl
  obtain ⟨complaint, ran⟩ := refuses
  cases ran

theorem run_setField (own : (w.kindOf id).attributes.find? name = some a)
    (takes : a.accept w (w.kindOf id).name v = .ok v) :
    (setField id name v).run w = (.ok (), w.withSource id name (.value v)) := by
  rw [setField, attributeOf, run_bind_ok (run_observe _ w), own]
  exact run_bind_ok (run_consult_ok takes)

/-- A list of paths can be made wherever the standard kinds are known. -/
theorem run_pathListOf (known : w.kinds.HasStandard) (project : ProjectId) (text : String) :
    ∃ after, (pathListOf project text).run w = (.ok (.object w.objects.length), after) ∧
      (ValueType.kind Standard.pathList).accept? after (.object w.objects.length) =
        some (.object w.objects.length) := by
  have made : Kinds.isMade .pathList = true := by decide +kernel
  obtain ⟨fields, -, instantiates⟩ := run_instantiate known made project
  generalize added : ({ w with
    objects := w.objects ++ [{ kind := .standard .pathList, project, fields }] } : World φ) = mid
    at instantiates
  have kinds : mid.kinds = w.kinds := by rw [← added]
  have appends : mid.objects =
      w.objects ++ [{ kind := .standard .pathList, project, fields }] := by rw [← added]
  have stands := World.object_of_append appends
  have present : w.objects.length < mid.objects.length := by simp [← added]
  have knows : mid.kinds.HasStandard := kinds ▸ known
  have kindOf : mid.kindOf w.objects.length = Kinds.standard.get Standard.pathList :=
    World.kindOf_of_standard knows (by rw [stands, if_pos rfl])
  have hasPath : mid.kinds.hasText (mid.kindOf w.objects.length) "path" "path" = true := by
    rw [kindOf]
    exact knows.hasText (by decide +kernel)
  obtain ⟨b, named, takes⟩ := textAttribute_of_hasText hasPath
  obtain ⟨c, own, texts⟩ := takes.own
  rw [named] at own
  have sets := run_setField own (c.accept_text texts mid _ text)
  refine ⟨mid.withSource w.objects.length "path" (.value (.text text)), ?_, ?_⟩
  · unfold pathListOf
    rw [run_bind_ok (run_observe _ w),
      show w.kinds.get Standard.pathList = _ from known.get .pathList,
      run_bind_ok instantiates, run_bind_ok sets]
    rfl
  · have isA : (mid.withSource w.objects.length "path" (.value (.text text))).isA
        w.objects.length Standard.pathList = true := by
      rw [World.isA, World.kindOf_withSource present, kindOf]
      decide +kernel
    exact if_pos isA

/-- Every type of which texts can give values reads a text or refuses it. What it reads it takes as a
value, and as it is. -/
theorem reads_or_refuses (known : w.kinds.HasStandard) (project : ProjectId) (text : String)
    (readable : type.isReadable = true) : Refuses w project text type ∨
      ∃ v after, Reads w project text type v after ∧ type.accept? after v = some v := by
  cases type with
  | anything =>
    refine .inr ?_
    unfold Reads coerceTo
    rw [run_bind_ok (run_get w)]
    split
    · split
      · exact ⟨_, w, rfl, rfl⟩
      · exact ⟨_, w, rfl, rfl⟩
    · exact ⟨_, w, rfl, rfl⟩
  | text => exact .inr ⟨_, w, rfl, rfl⟩
  | reference => exact .inr ⟨_, w, rfl, rfl⟩
  | path => exact .inr ⟨_, w, rfl, rfl⟩
  | flag =>
    unfold Refuses Reads coerceTo
    cases readFlag text with
    | error complaint => exact .inl ⟨complaint, rfl⟩
    | ok b => exact .inr ⟨_, w, rfl, rfl⟩
  | int =>
    unfold Refuses Reads coerceTo
    cases Number.readInt (Text.trim text) with
    | error error => exact .inl ⟨error.message, rfl⟩
    | ok n => exact .inr ⟨_, w, rfl, rfl⟩
  | real =>
    unfold Refuses Reads coerceTo
    cases Number.readReal (Text.trim text) with
    | error error => exact .inl ⟨error.message, rfl⟩
    | ok x => exact .inr ⟨_, w, rfl, rfl⟩
  | enumeration e =>
    have asked : coerceTo (φ := φ) project text (.enumeration e) = pure (e.read text) := rfl
    unfold Refuses Reads
    rw [asked]
    cases read : e.read text with
    | error complaint => exact .inl ⟨complaint, rfl⟩
    | ok v =>
      obtain ⟨_, _, rfl⟩ := Enumeration.exists_of_read read
      exact .inr ⟨_, w, rfl, if_pos rfl⟩
  | kind id =>
    cases eq_of_beq readable
    obtain ⟨after, ran, taken⟩ := run_pathListOf known project text
    refine .inr ⟨_, after, ?_, taken⟩
    have isA : (w.kinds.get Standard.pathList).isA Standard.pathList = true := by
      rw [known.get .pathList]
      decide +kernel
    unfold Reads coerceTo
    rw [run_bind_ok (run_observe _ w), if_pos isA, run_bind_ok ran]
    rfl
  | nothing | bytes | list => cases readable

/-- Types are asked one after another until one reads the text. -/
theorem run_coerceFirst (known : w.kinds.HasStandard) (project : ProjectId) (text : String)
    (readable : ∀ type ∈ types, type.isReadable = true) (complaints : List String) :
    (∃ reason, (coerceFirst project text complaints types).run w = (.error (.value reason), w) ∧
      ∀ type ∈ types, Refuses w project text type) ∨
    ∃ v after, (coerceFirst project text complaints types).run w = (.ok v, after) ∧
      ∃ earlier type later, types = earlier ++ type :: later ∧
        (∀ other ∈ earlier, Refuses w project text other) ∧
        Reads w project text type v after ∧ type.accept? after v = some v := by
  induction types generalizing complaints with
  | nil => exact .inl ⟨_, rfl, nofun⟩
  | cons first rest ih =>
    unfold coerceFirst
    rcases reads_or_refuses known project text (readable first List.mem_cons_self) with
      refuses | ⟨v, after, reads, taken⟩
    · obtain ⟨complaint, ran⟩ := refuses
      rw [run_bind_ok ran]
      rcases ih (fun type member => readable type (List.mem_cons_of_mem _ member))
        (complaints ++ [complaint]) with ⟨reason, fails, all⟩ | ⟨v, after, succeeds, found⟩
      · exact .inl ⟨reason, fails, List.forall_mem_cons.mpr ⟨⟨complaint, ran⟩, all⟩⟩
      · obtain ⟨earlier, type, later, rfl, before, reads⟩ := found
        exact .inr ⟨v, after, succeeds, first :: earlier, type, later, rfl,
          List.forall_mem_cons.mpr ⟨⟨complaint, ran⟩, before⟩, reads⟩
    · rw [run_bind_ok reads]
      exact .inr ⟨v, after, rfl, [], first, rest, rfl, nofun, reads, taken⟩

theorem run_coerce (known : w.kinds.HasStandard) (project : ProjectId) (text : String)
    (readable : ∀ type ∈ a.accepted, type.isReadable = true) :
    (∃ reason, (coerce project a text).run w = (.error (.value reason), w) ∧
      ∀ type ∈ a.accepted, Refuses w project text type) ∨
    ∃ v after, (coerce project a text).run w = (.ok v, after) ∧
      ∃ earlier type later, a.accepted = earlier ++ type :: later ∧
        (∀ other ∈ earlier, Refuses w project text other) ∧
        Reads w project text type v after ∧ type.accept? after v = some v := by
  have all : a.accepted.filter (fun type => !type.same .nothing) = a.accepted := by
    refine List.filter_eq_self.mpr fun type member => ?_
    have fits := readable type member
    cases type <;> first | rfl | cases fits
  unfold coerce
  rw [all]
  exact run_coerceFirst known project text readable []

/-- An attribute takes a value that its types make of a text as it is. -/
theorem accept_of_reads {owner : String} {earlier later : List ValueType}
    (types : a.accepted = earlier ++ type :: later)
    (before : ∀ other ∈ earlier, Refuses w project text other)
    (taken : type.accept? after v = some v) : a.accept after owner v = .ok v := by
  rw [Attribute.accept, types,
    ValueType.findSome?_accept? (fun other member => (before other member).ne_path) taken]

/-- A text is turned into a value of the first accepted type that reads it, whatever the types are and
in whatever order, and the attribute then holds exactly that value. If one of the types reads the
text, there is such a value. If none does, setting the attribute from the text is refused as a fault
of the build description and changes nothing; only a text that consists of a slot lets an attribute
that listens follow the slot, whatever the types make of the text. -/
theorem bindAttribute_by_first_type {signature : Signature} (known : w.kinds.HasStandard)
    (present : id < w.objects.length)
    (signed : Signature.ofKind w.kinds (w.kindOf id) = .ok signature)
    (selected : signature.attribute? name = some a)
    (own : (w.kindOf id).attributes.find? a.name = some a)
    (readable : ∀ type ∈ a.accepted, type.isReadable = true)
    (project : ProjectId) (text : String) (location : Location) :
    (∀ v after, (coerce project a text).run w = (.ok v, after) →
      ReadsFirst w project text a.accepted v after ∧
      ∃ final, (setField id a.name v).run after = (.ok (), final) ∧
        (final.object id).fields.find? a.name = some (.value v) ∧ final.read id a.name = .ok v) ∧
    ((∃ type ∈ a.accepted, ¬ Refuses w project text type) →
      ∃ v after, (coerce project a text).run w = (.ok v, after)) ∧
    ((∀ type ∈ a.accepted, Refuses w project text type) →
      (slotName? text = none ∨ a.listening = false) → ∃ problem place,
        (bindAttribute project id name text location).run w =
          (.error (.configuration problem place), w)) ∧
    ∀ slot, slotName? text = some slot → a.listening = true →
      (bindAttribute project id name text location).run w =
        (.ok (), w.withSource id a.name (.slot project slot)) := by
  have signs : (locating location (signatureOf id)).run w = (.ok signature, w) :=
    run_adapting_ok (run_consult_ok (by rw [signed]; rfl)) _
  have coerced := run_coerce known project text readable
  refine ⟨fun v after ended => ?_, ?_, fun refused plain => ?_, fun slot slots listens => ?_⟩
  · rcases coerced with ⟨reason, fails, -⟩ | ⟨v, after, succeeds, found⟩
    · rw [fails] at ended
      cases ended
    rw [succeeds] at ended
    cases ended
    obtain ⟨earlier, type, later, types, before, reads, taken⟩ := found
    refine ⟨⟨earlier, type, later, types, before, reads⟩, ?_⟩
    obtain ⟨binds, -⟩ := BindsBy.of_run
      (binds_coerceFirst (World.has_ofNone w) text _ [] : BindsBy OfNone w _ _) succeeds
    have there := binds.present present
    have known : (after.kindOf id).attributes.find? a.name = some a := by
      rwa [binds.kindOf present]
    have sets := run_setField known (accept_of_reads types before taken)
    have held : ((after.withSource id a.name (.value v)).object id).fields.find? a.name =
        some (.value v) := by rw [World.find?_withSource there, if_pos rfl]
    exact ⟨_, sets, held, World.read_of_value held⟩
  · rintro ⟨type, member, reads⟩
    rcases coerced with ⟨reason, -, refused⟩ | ⟨v, after, succeeds, -⟩
    · exact absurd (refused type member) reads
    · exact ⟨v, after, succeeds⟩
  · unfold bindAttribute
    rw [run_bind_ok signs, run_bind_ok (run_observe _ w), selected]
    cases slots : slotName? text with
    | some slot =>
      have deaf : a.listening = false := plain.resolve_left (by simp [slots])
      simp only [deaf, Bool.false_eq_true, if_false]
      exact ⟨_, _, rfl⟩
    | none =>
      rcases coerced with ⟨reason, fails, -⟩ | ⟨v, after, -, found⟩
      · simp only
        rw [adapting, run_tryCatch_error (run_bind_error fails)]
        exact ⟨_, _, rfl⟩
      · obtain ⟨earlier, type, later, types, -, reads, -⟩ := found
        obtain ⟨complaint, ran⟩ := refused type (by simp [types])
        cases ran.symm.trans reads
  · unfold bindAttribute
    rw [run_bind_ok signs, run_bind_ok (run_observe _ w), selected, slots]
    simp only [listens, if_true]
    rfl

end Engine

/-! A kind with an attribute that listens and takes whole numbers and truth values. -/

theorem Kinds.hasStandard_append (more : List Kind) :
    (⟨Kinds.standard.all ++ more⟩ : Kinds).HasStandard := by
  intro s
  obtain ⟨k, found⟩ := Option.isSome_iff_exists.mp (standard_isSome_find? s)
  unfold Kinds.find? at found ⊢
  rw [List.find?_append, found]
  rfl

namespace Sample

def counter : Declaration where
  name := "Counter"
  home := "counting"
  bases := [Standard.component]
  attributes := [{ name := "count", hint := .union [.type .int, .type .flag], listening := true }]

def counterKind : Kind := ((Kinds.standard.make (.declared 0) counter).toOption).getD default

def counting : World Unit where
  files := ()
  kinds := ⟨Kinds.standard.all ++ [counterKind]⟩
  projects := [{ directory := .top }]
  objects := [{ kind := .declared 0, project := 0, fields := .ofList [("count", .void)] }]

/-- A text that consists of a slot. -/
def slotText : String := "%\x7bx\x7d"

/-- Whether an attribute listens and takes whole numbers and truth values, in this order. -/
def counts (a : Attribute) : Bool :=
  match a.accepted with
  | [.int, .flag] => a.listening
  | _ => false

theorem counting_seen : ∃ signature a,
    Signature.ofKind counting.kinds (counting.kindOf 0) = .ok signature ∧
      signature.attribute? "count" = some a ∧
      (counting.kindOf 0).attributes.find? a.name = some a ∧
      a.accepted = [.int, .flag] ∧ a.listening = true := by
  have signs : ((Signature.ofKind counting.kinds (counting.kindOf 0)).toOption.bind
      (·.attribute? "count")).isSome = true := by decide +kernel
  have fits : (counting.kindOf 0).attributes.entries.all
      (fun entry => entry.1 == entry.2.name && counts entry.2) = true := by decide +kernel
  generalize counting.kindOf 0 = k at signs fits ⊢
  cases signed : Signature.ofKind counting.kinds k with
  | error => rw [signed] at signs; cases signs
  | ok signature =>
    obtain ⟨a, found⟩ := Option.isSome_iff_exists.mp (by rwa [signed] at signs)
    obtain ⟨key, stored, -⟩ := Signature.stored_of_attribute? (s := signature) signed found
    have both := List.all_eq_true.mp fits (key, a) stored
    obtain ⟨named, counting⟩ := (Bool.and_eq_true _ _).mp both
    refine ⟨signature, a, rfl, found, ?_, ?_⟩
    · rw [← eq_of_beq named]
      exact Table.find?_of_mem_entries stored
    · unfold counts at counting
      split at counting
      · exact ⟨‹_›, counting⟩
      · cases counting

/-- Neither a whole number nor a truth value is written as a slot. -/
theorem slotText_refused : Refuses counting 0 slotText .int ∧ Refuses counting 0 slotText .flag := by
  constructor
  · have fails : (Number.readInt (Text.trim slotText)).toOption = none := by decide +kernel
    unfold Refuses coerceTo
    cases read : Number.readInt (Text.trim slotText) with
    | ok => rw [read] at fails; cases fails
    | error error => exact ⟨error.message, rfl⟩
  · have fails : (readFlag slotText).toOption = none := by decide +kernel
    unfold Refuses coerceTo
    cases read : readFlag slotText with
    | ok => rw [read] at fails; cases fails
    | error complaint => exact ⟨complaint, rfl⟩

end Sample

/-- A text that no type reads is not refused if it consists of a slot and the attribute listens. -/
theorem Engine.bindAttribute_follows_slot : ∃ signature a,
    Signature.ofKind Sample.counting.kinds (Sample.counting.kindOf 0) = .ok signature ∧
      signature.attribute? "count" = some a ∧
      (∀ type ∈ a.accepted, Refuses Sample.counting 0 Sample.slotText type) ∧
      ((bindAttribute 0 0 "count" Sample.slotText .unknown).run Sample.counting).1.isOk = true := by
  obtain ⟨signature, a, signed, found, -, accepted, -⟩ := Sample.counting_seen
  refine ⟨signature, a, signed, found, ?_, by decide +kernel⟩
  rw [accepted]
  simpa using Sample.slotText_refused

/-- A text that is no whole number becomes a truth value, and the attribute then holds it. -/
theorem Engine.bindAttribute_by_first_type_reads_flag : ∃ a, a.accepted = [.int, .flag] ∧
    ∃ v after, (coerce 0 a "yes").run Sample.counting = (.ok v, after) ∧
      ReadsFirst Sample.counting 0 "yes" a.accepted v after ∧
      ∃ final, (setField 0 a.name v).run after = (.ok (), final) ∧
        final.read 0 a.name = .ok v := by
  obtain ⟨signature, a, signed, found, own, accepted, -⟩ := Sample.counting_seen
  have known : Sample.counting.kinds.HasStandard := Kinds.hasStandard_append _
  have readable : ∀ type ∈ a.accepted, type.isReadable = true := by
    rw [accepted]
    decide
  have present : 0 < Sample.counting.objects.length := Nat.zero_lt_one
  obtain ⟨returns, reads, -⟩ := bindAttribute_by_first_type known present signed found own readable
    0 "yes" .unknown
  obtain ⟨v, after, ended⟩ := reads ⟨.flag, by simp [accepted], fun ⟨complaint, ran⟩ => by
    have read : readFlag "yes" = .ok true := by decide +kernel
    rw [coerceTo, read] at ran
    cases ran⟩
  obtain ⟨first, final, sets, -, held⟩ := returns v after ended
  exact ⟨a, accepted, v, after, ended, first, final, sets, held⟩

end BuildEngine
