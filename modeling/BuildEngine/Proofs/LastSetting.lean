import BuildEngine.Proofs.Assignment
import Mathlib.Data.List.Induction

/-! What attributes hold when they are set again and again while slots are written: each reading is
determined by the setting that succeeded last, and by what was last written to the slot that this
one names. -/

namespace BuildEngine

open Engine

variable {φ : Type}

/-- A step in a project: an attribute is set from a text, or a slot is written. -/
inductive Setting where
  | assign (id : ObjectId) (name text : String) (location : Location)
  | write (slot : String) (value : Value)

namespace Setting

variable {w : World φ} {project : ProjectId} {id : ObjectId} {field : String}

def perform (project : ProjectId) : Setting → Engine φ Unit
  | assign id name text location => bindAttribute project id name text location
  | write slot value => changeProject project fun p =>
    { p with references := p.references.writeSlot slot value }

/-- A step sets an attribute of an object from a text, and succeeds. -/
def Sets (project : ProjectId) (w : World φ) (step : Setting) (id : ObjectId) (a : Attribute)
    (text : String) : Prop :=
  id < w.objects.length ∧ ∃ name location, step = .assign id name text location ∧
    w.Selects id name a ∧ ((step.perform project).run w).1 = .ok ()

/-- The value that a step writes to a slot. -/
def writes? (slot : String) : Setting → Option Value
  | assign .. => none
  | write name value => if name = slot then some value else none

end Setting

namespace World

/-- The world after some steps, each of which may have failed. -/
def afterSettings (project : ProjectId) (w : World φ) (steps : List Setting) : World φ :=
  steps.foldl (fun w step => ((step.perform project).run w).2) w

/-- No step sets an attribute. -/
def Spares (project : ProjectId) (w : World φ) (steps : List Setting) (id : ObjectId)
    (field : String) : Prop :=
  ∀ earlier step later, steps = earlier ++ step :: later →
    ∀ a text, step.Sets project (w.afterSettings project earlier) id a text → a.name ≠ field

/-- The last step that sets an attribute of an object sets it from a text, in some world. -/
def LastSets (project : ProjectId) (w : World φ) (steps : List Setting) (id : ObjectId)
    (a : Attribute) (text : String) (before : World φ) : Prop :=
  ∃ earlier step later, steps = earlier ++ step :: later ∧
    before = w.afterSettings project earlier ∧ step.Sets project before id a text ∧
    (w.afterSettings project (earlier ++ [step])).Spares project later id a.name

end World

namespace Setting

variable {w : World φ} {project : ProjectId} {id : ObjectId} {a : Attribute} {field text : String}
variable {step : Setting}

/-! What a single step does. -/

theorem binds_perform (project : ProjectId) (step : Setting) :
    w.Binds OfNone ((step.perform project).run w).2 := by
  cases step with
  | assign id name text location =>
    have binds : BindsBy OfNone w (bindAttribute project id name text location) :=
      binds_bindAttribute (World.has_ofNone w) (fun _ _ _ _ => False.elim) text location
    exact (binds.of_run rfl).1
  | write slot value => exact .of_project rfl rfl rfl fun _ => rfl

/-- An attribute that a step sets has its value from what the text denotes. -/
theorem Sets.source (grown : w.kinds.Grown) (sets : step.Sets project w id a text) :
    ∃ source, a.Takes project w text source ∧
      (((step.perform project).run w).2.object id).fields.find? a.name = some source := by
  obtain ⟨present, name, location, rfl, ⟨signature, signed, found⟩, succeeds⟩ := sets
  rcases bindAttribute_cases grown project id name text location with
    ⟨fault, after, fails, -⟩ | ⟨b, mid, source, ⟨signature', signed', found'⟩, gains, ran, takes⟩
  · rw [perform, fails] at succeeds
    cases succeeds
  · cases signed.symm.trans signed'
    cases found.symm.trans found'
    refine ⟨source, takes present, ?_⟩
    have there := Nat.lt_of_lt_of_le present gains.grows
    rw [perform, ran, World.find?_withSource there, if_pos rfl]

/-- A step leaves alone what it does not set. -/
theorem find?_perform (grown : w.kinds.Grown) (present : id < w.objects.length)
    (spares : ∀ a text, step.Sets project w id a text → a.name ≠ field) :
    (((step.perform project).run w).2.object id).fields.find? field =
      (w.object id).fields.find? field := by
  cases step with
  | write slot value => rfl
  | assign other name text location =>
    rw [perform]
    rcases bindAttribute_cases grown project other name text location with
      ⟨fault, after, fails, gains⟩ | ⟨a, mid, source, selects, gains, ran, -⟩
    · rw [fails, gains.object present]
    · have there := Nat.lt_of_lt_of_le present gains.grows
      rw [ran]
      -- the attribute that is set may be one of another object, or another one of this object
      by_cases same : other = id
      · subst same
        have different : a.name ≠ field :=
          spares a text ⟨present, name, location, rfl, selects, by rw [perform, ran]⟩
        rw [World.find?_withSource there, if_neg different, gains.object present]
      · rw [World.object_of_modify_present rfl there, if_neg same, gains.object present]

theorem slotValue_perform (grown : w.kinds.Grown) (present : project < w.projects.length)
    (step : Setting) (slot : String) :
    ((step.perform project).run w).2.projects.length = w.projects.length ∧
      ((step.perform project).run w).2.slotValue (project, slot) =
        (step.writes? slot).getD (w.slotValue (project, slot)) := by
  cases step with
  | write name value =>
    have changes : ((perform project (write name value)).run w).2.projects =
        w.projects.modify project fun p =>
          { p with references := p.references.writeSlot name value } := rfl
    refine ⟨by rw [changes, List.length_modify], ?_⟩
    rw [World.slotValue, World.project_of_modify_present changes present, if_pos rfl,
      References.slot_writeSlot]
    by_cases same : name = slot
    · rw [writes?, if_pos same, if_pos same, Option.getD_some]
    · rw [writes?, if_neg same, if_neg same, Option.getD_none, World.slotValue]
  | assign id name text location =>
    have same : ((bindAttribute project id name text location).run w).2.projects = w.projects := by
      rcases bindAttribute_cases grown project id name text location with
        ⟨fault, after, fails, gains⟩ | ⟨a, mid, source, selects, gains, ran, -⟩
      · rw [fails, gains.projects]
      · rw [ran]
        exact gains.projects
    refine ⟨congrArg List.length same, ?_⟩
    rw [perform, World.slotValue, World.project_of_same same]
    rfl

end Setting

namespace World

variable {w : World φ} {project : ProjectId} {id : ObjectId} {field : String}
variable {steps : List Setting}

/-! What a run of steps does. -/

theorem binds_afterSettings (project : ProjectId) (w : World φ) (steps : List Setting) :
    w.Binds OfNone (w.afterSettings project steps) := by
  induction steps generalizing w with
  | nil => exact .refl w
  | cons step rest ih => exact (Setting.binds_perform project step).trans (ih _)

theorem grown_afterSettings (grown : w.kinds.Grown) (project : ProjectId) (steps : List Setting) :
    (w.afterSettings project steps).kinds.Grown := by
  rwa [(w.binds_afterSettings project steps).kinds]

theorem afterSettings_append (earlier later : List Setting) :
    w.afterSettings project (earlier ++ later) =
      (w.afterSettings project earlier).afterSettings project later :=
  List.foldl_append

theorem afterSettings_concat (step : Setting) :
    w.afterSettings project (steps ++ [step]) =
      ((step.perform project).run (w.afterSettings project steps)).2 :=
  afterSettings_append steps [step]

/-- No step sets an attribute if the last one does not, nor any of those before it. -/
theorem Spares.concat {step : Setting} (spares : w.Spares project steps id field)
    (last : ∀ a text, step.Sets project (w.afterSettings project steps) id a text →
      a.name ≠ field) : w.Spares project (steps ++ [step]) id field := by
  intro earlier other later split
  rcases List.eq_nil_or_concat' later with rfl | ⟨before, final, rfl⟩
  · obtain ⟨rfl, same⟩ := List.append_inj' split rfl
    cases same
    exact last
  · rw [← List.cons_append, ← List.append_assoc] at split
    obtain ⟨rfl, -⟩ := List.append_inj' split rfl
    exact spares earlier other before rfl

theorem Spares.nil : w.Spares project [] id field := by
  intro earlier step later split
  cases earlier <;> cases split

/-- What no step sets stays as it is. -/
theorem find?_afterSettings (grown : w.kinds.Grown) (present : id < w.objects.length)
    (spares : w.Spares project steps id field) :
    ((w.afterSettings project steps).object id).fields.find? field =
      (w.object id).fields.find? field := by
  induction steps using List.reverseRecOn with
  | nil => rfl
  | append_singleton steps step ih =>
    have before : w.Spares project steps id field := by
      rintro earlier other later rfl
      exact spares earlier other (later ++ [step]) (by simp)
    have there := (w.binds_afterSettings project steps).present present
    rw [afterSettings_concat, Setting.find?_perform (grown_afterSettings grown project steps) there
      (spares steps step [] rfl), ih before]

/-- Either no step sets an attribute, or there is one that sets it last. -/
theorem spares_or_lastSets (project : ProjectId) (w : World φ) (steps : List Setting)
    (id : ObjectId) (field : String) : w.Spares project steps id field ∨
      ∃ a text before, a.name = field ∧ w.LastSets project steps id a text before := by
  induction steps using List.reverseRecOn with
  | nil => exact .inl .nil
  | append_singleton steps step ih =>
    by_cases sets : ∃ a text, a.name = field ∧
        step.Sets project (w.afterSettings project steps) id a text
    · obtain ⟨a, text, named, sets⟩ := sets
      exact .inr ⟨a, text, _, named, steps, step, [], rfl, rfl, sets, .nil⟩
    · have last : ∀ a text, step.Sets project (w.afterSettings project steps) id a text →
          a.name ≠ field := fun a text does named => sets ⟨a, text, named, does⟩
      -- the step is one more of those that come after the last setting
      rcases ih with spares | ⟨a, text, before, rfl, earlier, setting, later, rfl, at_, does, rest⟩
      · exact .inl (spares.concat last)
      have extended : earlier ++ setting :: later ++ [step] =
          earlier ++ setting :: (later ++ [step]) := by simp
      refine .inr ⟨a, text, before, rfl, earlier, setting, _, extended, at_, does, rest.concat ?_⟩
      rw [← afterSettings_append, List.append_assoc, List.singleton_append]
      exact last

theorem slotValue_afterSettings (grown : w.kinds.Grown) (present : project < w.projects.length)
    (steps : List Setting) (slot : String) :
    (w.afterSettings project steps).projects.length = w.projects.length ∧
      (w.afterSettings project steps).slotValue (project, slot) =
        (steps.filterMap (Setting.writes? slot)).getLast?.getD (w.slotValue (project, slot)) := by
  induction steps using List.reverseRecOn with
  | nil => exact ⟨rfl, rfl⟩
  | append_singleton steps step ih =>
    obtain ⟨count, holds⟩ := ih
    obtain ⟨same, value⟩ := Setting.slotValue_perform (grown_afterSettings grown project steps)
      (count.symm ▸ present) step slot
    rw [afterSettings_concat]
    refine ⟨same.trans count, ?_⟩
    rw [value, holds, List.filterMap_append]
    cases writes : step.writes? slot with
    | none => simp [writes]
    | some v => simp [writes]

/-- The last setting of an attribute decides where it has its value from. -/
theorem LastSets.source {a : Attribute} {text : String} {before : World φ} (grown : w.kinds.Grown)
    (sets : w.LastSets project steps id a text before) :
    ∃ source, a.Takes project before text source ∧
      ((w.afterSettings project steps).object id).fields.find? a.name = some source := by
  obtain ⟨earlier, step, later, rfl, rfl, does, spares⟩ := sets
  obtain ⟨source, takes, held⟩ := does.source (grown_afterSettings grown project earlier)
  refine ⟨source, takes, ?_⟩
  have present := (Setting.binds_perform project step).present does.1
  rw [← afterSettings_concat] at held present
  rw [← held, ← List.singleton_append, ← List.append_assoc, afterSettings_append]
  exact find?_afterSettings (grown_afterSettings grown project _) present spares

end World

/-- A source that is no slot and no other attribute. -/
def Source.isOwn : Source → Bool
  | .void | .value _ => true
  | _ => false

/-- The reading of an attribute of its own does not depend on projects. -/
theorem World.read_of_isOwn {w : World φ} {id : ObjectId} {name : String}
    (own : (((w.object id).fields.find? name).getD .void).isOwn = true) (projects : List Project) :
    ({ w with projects } : World φ).read id name = w.read id name := by
  generalize seen : ((w.object id).fields.find? name).getD .void = source at own
  cases source with
  | void =>
    rw [read_of_void seen, read_of_void (w := { w with projects }) seen]
    rfl
  | value v =>
    have found : (w.object id).fields.find? name = some (.value v) := by
      cases stored : (w.object id).fields.find? name with
      | none => rw [stored] at seen; cases seen
      | some source => rw [stored] at seen; cases seen; rfl
    rw [read_of_value found, read_of_value (w := { w with projects }) found]
  | slot | field => cases own

/-- While attributes are set from texts and slots are written, in whatever order and with whatever
failures, what an attribute is read as is determined by the setting that succeeded last. If its text
is a slot, the attribute listens and is read as what the slot holds now, be it written before or
after, so all attributes that follow a slot are read alike; a slot holds what was last written to
it. Otherwise the attribute is read as the value that its types made of the text. What no step sets
is left as it is. A setting that fails does nothing but make objects. An attribute that does not
listen is read without regard to what the slots of projects hold. -/
theorem World.read_by_last_setting {w : World φ} {project : ProjectId} (grown : w.kinds.Grown)
    (present : project < w.projects.length) (steps : List Setting) :
    (∀ id a text before, w.LastSets project steps id a text before →
      (∀ slot, slotName? text = some slot → a.listening = true ∧
        (w.afterSettings project steps).read id a.name =
          .ok ((w.afterSettings project steps).slotValue (project, slot))) ∧
      (slotName? text = none → ∃ v after, (coerce project a text).run before = (.ok v, after) ∧
        (w.afterSettings project steps).read id a.name = .ok v)) ∧
    (∀ slot, (w.afterSettings project steps).slotValue (project, slot) =
      (steps.filterMap (Setting.writes? slot)).getLast?.getD (w.slotValue (project, slot))) ∧
    (∀ id field, id < w.objects.length →
      (w.Spares project steps id field ∧
        ((w.afterSettings project steps).object id).fields.find? field =
          (w.object id).fields.find? field) ∨
      ∃ a text before, a.name = field ∧ w.LastSets project steps id a text before) ∧
    (∀ id name text location fault after,
      (bindAttribute project id name text location).run (w.afterSettings project steps) =
        (.error fault, after) → (w.afterSettings project steps).Gains after) ∧
    ∀ id field a, id < w.objects.length → (w.kindOf id).attributes.find? field = some a →
      a.listening = false → (((w.object id).fields.find? field).getD .void).isOwn = true →
      ∀ projects, ({ w.afterSettings project steps with projects } : World φ).read id field =
        (w.afterSettings project steps).read id field := by
  refine ⟨fun id a text before sets => ?_, (slotValue_afterSettings grown present steps · |>.2),
    fun id field there => ?_, fun id name text location fault after ended => ?_,
    fun id field a there found deaf own projects => ?_⟩
  · obtain ⟨source, takes, held⟩ := sets.source grown
    cases takes with
    | slot named listens =>
      refine ⟨fun slot named' => ?_, fun plain => ?_⟩
      · cases named.symm.trans named'
        exact ⟨listens, read_of_slot held⟩
      · cases plain.symm.trans named
    | literal plain coerced =>
      refine ⟨fun slot named => ?_, fun _ => ⟨_, _, coerced, read_of_value held⟩⟩
      cases plain.symm.trans named
  · rcases w.spares_or_lastSets project steps id field with spares | sets
    · exact .inl ⟨spares, find?_afterSettings grown there spares⟩
    · exact .inr sets
  · have kinds := grown_afterSettings grown project steps
    rcases bindAttribute_cases kinds project id name text location with
      ⟨other, final, fails, gains⟩ | ⟨a, mid, source, -, -, ran, -⟩
    · cases fails.symm.trans ended
      exact gains
    · cases ran.symm.trans ended
  · apply read_of_isOwn
    rcases w.spares_or_lastSets project steps id field with
      spares | ⟨b, text, before, rfl, sets⟩
    · rwa [find?_afterSettings grown there spares]
    · obtain ⟨source, takes, held⟩ := sets.source grown
      obtain ⟨earlier, step, later, -, rfl, ⟨-, name, location, -, selects, -⟩, -⟩ := sets
      have same := selects.own (grown_afterSettings grown project earlier)
      rw [(w.binds_afterSettings project earlier).kindOf there, found] at same
      cases same
      rw [held]
      cases takes with
      | slot _ listens => rw [deaf] at listens; cases listens
      | literal => rfl

namespace Sample

theorem counting_grown : counting.kinds.Grown := by
  have declares : (Kinds.standard.declare counter).isOk = true := by decide +kernel
  have first : Kinds.standard.nextIndex = 0 := by decide +kernel
  cases declared : Kinds.standard.declare counter with
  | error => rw [declared] at declares; cases declares
  | ok both =>
    obtain ⟨made, all⟩ := Kinds.all_of_declare declared
    rw [first] at made
    have kinds : counting.kinds = both.2 := by
      rw [counting, counterKind, made, Kinds.mk.injEq, all]
      rfl
    rw [kinds]
    exact .declare .standard declared

/-- A count follows a slot that is written later, and is then set to what is no count. -/
def settings : List Setting :=
  [.assign 0 "count" slotText .unknown, .write "x" (.int 7), .assign 0 "count" "many" .unknown]

theorem settings_lastSets : ∃ a, a.name = "count" ∧
    counting.LastSets 0 settings 0 a slotText counting := by
  obtain ⟨signature, a, signed, found, own, -⟩ := counting_seen
  have names : (counting.kindOf 0).attributes.entries.all (·.1 == "count") = true := by
    decide +kernel
  have named : a.name = "count" :=
    eq_of_beq (List.all_eq_true.mp names _ (Table.mem_entries_of_find? own))
  refine ⟨a, named, [], _, _, rfl, rfl, ⟨Nat.zero_lt_one, "count", .unknown, rfl,
    ⟨signature, signed, found⟩, ?_⟩, ?_⟩
  · have succeeds : ((bindAttribute 0 0 "count" slotText .unknown).run counting).1.isOk = true := by
      decide +kernel
    rw [Setting.perform]
    cases ended : ((bindAttribute 0 0 "count" slotText .unknown).run counting).1 with
    | error => rw [ended] at succeeds; cases succeeds
    | ok => rfl
  · have fails : ((bindAttribute 0 0 "count" "many" .unknown).run (counting.afterSettings 0
        [.assign 0 "count" slotText .unknown, .write "x" (.int 7)])).1.isOk = false := by
      decide +kernel
    have writes : (counting.afterSettings 0 [.assign 0 "count" slotText .unknown]).Spares 0
        ([] ++ [.write "x" (.int 7)]) 0 a.name := by
      refine World.Spares.nil.concat ?_
      rintro _ _ ⟨-, _, _, assigns, -⟩
      cases assigns
    refine writes.concat ?_
    rintro _ _ ⟨-, _, _, assigns, -, succeeds⟩
    cases assigns
    rw [List.nil_append, ← World.afterSettings_append, List.singleton_append,
      Setting.perform] at succeeds
    rw [succeeds] at fails
    cases fails

end Sample

open Sample in
theorem World.read_by_last_setting_counting :
    (counting.kinds.Grown ∧ 0 < counting.projects.length) ∧
      (counting.afterSettings 0 settings).read 0 "count" = .ok (.int 7) := by
  have present : 0 < counting.projects.length := Nat.zero_lt_one
  obtain ⟨follows, holds, -⟩ := World.read_by_last_setting counting_grown present settings
  obtain ⟨a, named, last⟩ := settings_lastSets
  obtain ⟨-, reads⟩ := (follows 0 a slotText counting last).1 "x" (by decide +kernel)
  refine ⟨⟨counting_grown, present⟩, ?_⟩
  rw [← named, reads, holds]
  rfl

end BuildEngine
