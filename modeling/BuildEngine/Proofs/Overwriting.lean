import BuildEngine.Proofs.Attachment
import BuildEngine.Proofs.BindingFrame

/-! Overwriting: attributes are given to an object without a look at the attributes that it has. What
they were before makes no difference to what is done, and shows only where nothing is written. -/

namespace BuildEngine

open Engine

namespace Table

variable {κ : Type u} {α : Type v} [DecidableEq κ]

/-- A table with entries put one after another. -/
def putAll (t : Table κ α) (entries : List (κ × α)) : Table κ α :=
  entries.foldl (fun t entry => t.put entry.1 entry.2) t

theorem putAll_cons (t : Table κ α) (entry : κ × α) (rest : List (κ × α)) :
    t.putAll (entry :: rest) = (t.put entry.1 entry.2).putAll rest := rfl

theorem putAll_append (t : Table κ α) (first second : List (κ × α)) :
    t.putAll (first ++ second) = (t.putAll first).putAll second :=
  List.foldl_append

theorem keys_putAll_congr {s t : Table κ α} {entries others : List (κ × α)}
    (keys : s.keys = t.keys) (same : entries.map Prod.fst = others.map Prod.fst) :
    (s.putAll entries).keys = (t.putAll others).keys := by
  induction entries generalizing s t others with
  | nil =>
    obtain rfl := List.map_eq_nil_iff.mp same.symm
    exact keys
  | cons entry rest ih =>
    cases others with
    | nil => cases same
    | cons other rest' =>
      obtain ⟨first, rest_same⟩ := List.cons.inj same
      replace first : entry.1 = other.1 := first
      have put : (s.put entry.1 entry.2).keys = (t.put other.1 other.2).keys := by
        rw [keys_put, keys_put, keys, first]
      rw [putAll_cons, putAll_cons]
      exact ih put rest_same

theorem mem_keys_putAll {t : Table κ α} {entries : List (κ × α)} {key : κ}
    (member : key ∈ t.keys ∨ key ∈ entries.map Prod.fst) : key ∈ (t.putAll entries).keys := by
  induction entries generalizing t with
  | nil => exact member.resolve_right List.not_mem_nil
  | cons entry rest ih =>
    apply ih
    rw [keys_put]
    rcases member with old | new
    · split <;> simp [old]
    · rcases List.mem_cons.mp new with rfl | later
      · left
        split
        · assumption
        · simp
      · exact .inr later

/-- Keys that are there already keep their places. -/
theorem keys_putAll_of_mem {t : Table κ α} {entries : List (κ × α)}
    (known : ∀ entry ∈ entries, entry.1 ∈ t.keys) : (t.putAll entries).keys = t.keys := by
  induction entries generalizing t with
  | nil => rfl
  | cons entry rest ih =>
    obtain ⟨first, others⟩ := List.forall_mem_cons.mp known
    have keeps : (t.put entry.1 entry.2).keys = t.keys := by rw [keys_put, if_pos first]
    exact (ih fun other member => keeps ▸ others other member).trans keeps

theorem find?_putAll_congr {s t : Table κ α} {entries : List (κ × α)} {key : κ}
    (same : key ∈ entries.map Prod.fst ∨ s.find? key = t.find? key) :
    (s.putAll entries).find? key = (t.putAll entries).find? key := by
  induction entries generalizing s t with
  | nil => exact same.resolve_left List.not_mem_nil
  | cons entry rest ih =>
    apply ih
    rw [find?_put, find?_put]
    by_cases first : entry.1 = key
    · exact .inr (by rw [if_pos first, if_pos first])
    · rw [if_neg first, if_neg first]
      rcases same with member | same
      · exact .inl ((List.mem_cons.mp member).resolve_left (Ne.symm first))
      · exact .inr same

theorem find?_putAll_of_not_mem {t : Table κ α} {entries : List (κ × α)} {key : κ}
    (other : key ∉ entries.map Prod.fst) : (t.putAll entries).find? key = t.find? key := by
  induction entries generalizing t with
  | nil => rfl
  | cons entry rest ih =>
    rw [List.map_cons, List.mem_cons, not_or] at other
    exact (ih other.2).trans (by rw [find?_put, if_neg (Ne.symm other.1)])

/-- What was put before under the first of the keys under which values are put shows nowhere. -/
theorem putAll_again (t : Table κ α) {first second : List (κ × α)}
    (keys : first.map Prod.fst <+: second.map Prod.fst) :
    (t.putAll first).putAll second = t.putAll second := by
  apply ext_find?
  · obtain ⟨again, ⟨others, split⟩, same⟩ := List.prefix_map_iff.mp keys
    have known : ∀ entry ∈ again, entry.1 ∈ (t.putAll first).keys := fun entry member => by
      refine mem_keys_putAll (.inr ?_)
      rw [same]
      exact List.mem_map_of_mem member
    have before : ((t.putAll first).putAll again).keys = (t.putAll again).keys :=
      (keys_putAll_of_mem known).trans (keys_putAll_congr rfl same)
    rw [← split, putAll_append, putAll_append]
    exact keys_putAll_congr before rfl
  · intro key
    apply find?_putAll_congr
    by_cases put : key ∈ first.map Prod.fst
    · exact .inl (keys.subset put)
    · exact .inr (find?_putAll_of_not_mem put)

end Table

variable {φ : Type} {α β : Type}

/-- The world in which an object is changed. -/
def World.changed (w : World φ) (id : ObjectId) (change : Object → Object) : World φ :=
  { w with objects := w.objects.modify id change }

/-- The world in which an object has other attributes. -/
def World.withFields (w : World φ) (id : ObjectId) (fields : Table String Source) : World φ :=
  w.changed id fun o => { o with fields }

namespace World

variable {w : World φ} {id : ObjectId} {change other : Object → Object}

theorem objects_changed (w : World φ) (id : ObjectId) (change : Object → Object) :
    (w.changed id change).objects = w.objects.modify id change := rfl

theorem object_changed (present : id < w.objects.length) :
    (w.changed id change).object id = change (w.object id) := by
  rw [object_of_modify_present (w.objects_changed id change) present, if_pos rfl]

theorem object_changed_eq_or (w : World φ) (id other : ObjectId) (change : Object → Object) :
    (w.changed id change).object other = w.object other ∨
      (w.changed id change).object other = change (w.object other) :=
  (object_of_modify (w.objects_changed id change) other).imp_right And.right

/-- A change of an object that is still of its kind leaves the kinds of all objects. -/
theorem kindOf_changed (w : World φ) (id other : ObjectId) (change : Object → Object)
    (kind : ∀ o, (change o).kind = o.kind) :
    (w.changed id change).kindOf other = w.kindOf other := by
  rw [kindOf, kindOf]
  rcases object_changed_eq_or w id other change with same | same <;> rw [same]
  · rfl
  · rw [kind]
    rfl

theorem changed_changed (w : World φ) (id : ObjectId) (first second : Object → Object) :
    (w.changed id first).changed id second = w.changed id (second ∘ first) := by
  unfold changed
  simp only [List.modify_modify_eq]

/-- Changes that make the same of an object make the same of the world. -/
theorem changed_congr (same : change (w.object id) = other (w.object id)) :
    w.changed id change = w.changed id other := by
  have objects : w.objects.modify id change = w.objects.modify id other := by
    refine List.ext_getElem? fun position => ?_
    rw [List.getElem?_modify, List.getElem?_modify]
    by_cases here : id = position
    · subst here
      cases found : w.objects[id]? with
      | none => rfl
      | some o =>
        have stands : w.object id = o := by simp [object, found]
        simp [← stands, same]
    · simp [here]
  rw [changed, objects, changed]

/-- A change that makes nothing else of an object changes nothing. -/
theorem changed_of_same (same : change (w.object id) = w.object id) : w.changed id change = w := by
  have objects : w.objects.modify id (fun o => o) = w.objects :=
    List.ext_getElem? fun position => by simp [List.getElem?_modify]
  have none : w.changed id change = w.changed id fun o => o := changed_congr same
  rw [none, changed, objects]

theorem changed_comm {i j : ObjectId} (apart : i ≠ j) (w : World φ)
    (first second : Object → Object) :
    (w.changed i first).changed j second = (w.changed j second).changed i first := by
  have objects : (w.objects.modify i first).modify j second =
      (w.objects.modify j second).modify i first := by
    refine List.ext_getElem? fun position => ?_
    simp only [List.getElem?_modify]
    cases w.objects[position]? with
    | none => rfl
    | some o =>
      by_cases here : i = position
      · have there : j ≠ position := fun same => apart (here.trans same.symm)
        simp [here, there]
      · simp [here]
  rw [changed, changed, changed, changed, objects]

/-- What attributes an object has makes no difference to its kind. -/
theorem kindOf_withFields (w : World φ) (id other : ObjectId) (fields : Table String Source) :
    (w.withFields id fields).kindOf other = w.kindOf other :=
  kindOf_changed w id other _ fun _ => rfl

theorem describe_withFields (w : World φ) (id other : ObjectId) (fields : Table String Source) :
    (w.withFields id fields).describe other = w.describe other := by
  have kind := kindOf_withFields w id other fields
  rcases object_changed_eq_or w id other fun o => { o with fields } with same | same <;>
    rw [withFields] at kind ⊢ <;> rw [describe, describe, typeName, typeName, kind, same]

theorem isA_withFields (w : World φ) (id other : ObjectId) (fields : Table String Source)
    (kind : KindId) : (w.withFields id fields).isA other kind = w.isA other kind := by
  rw [isA, isA, kindOf_withFields]

theorem typeName_withFields (w : World φ) (id : ObjectId) (fields : Table String Source) :
    (w.withFields id fields).typeName = w.typeName :=
  funext fun other => by rw [typeName, typeName, kindOf_withFields]

theorem withFields_self (w : World φ) (id : ObjectId) :
    w.withFields id (w.object id).fields = w :=
  changed_of_same rfl

end World

theorem ValueType.accept?_withFields (type : ValueType) (w : World φ) (id : ObjectId)
    (fields : Table String Source) (v : Value) :
    type.accept? (w.withFields id fields) v = type.accept? w v := by
  unfold accept?
  split <;> first | rfl | rw [World.isA_withFields]

theorem Attribute.accept_withFields (a : Attribute) (w : World φ) (id : ObjectId)
    (fields : Table String Source) (owner : String) (v : Value) :
    a.accept (w.withFields id fields) owner v = a.accept w owner v := by
  unfold accept
  simp only [ValueType.accept?_withFields, World.typeName_withFields]
  rfl

namespace Engine

/-- An action does to the attributes of an object that entries are put, and nothing else to the
object. It does so whatever the attributes are. -/
structure Writes (id : ObjectId) (w : World φ) (action : Engine φ α)
    (entries : List (String × Source)) : Prop where
  present : id < (action.run w).2.objects.length
  object : (action.run w).2.object id =
    { w.object id with fields := (w.object id).fields.putAll entries }
  blind : ∀ fields, action.run (w.withFields id fields) =
    ((action.run w).1, (action.run w).2.withFields id (fields.putAll entries))

/-- An action does nothing to an object, and does the same whatever attributes the object has. -/
abbrev Overlooks (id : ObjectId) (w : World φ) (action : Engine φ α) : Prop := Writes id w action []

namespace Writes

variable {id : ObjectId} {w after : World φ} {action : Engine φ α} {next : α → Engine φ β}
variable {entries more : List (String × Source)}

theorem pure (present : id < w.objects.length) (a : α) : Overlooks id w (pure a : Engine φ α) :=
  ⟨present, rfl, fun _ => rfl⟩

theorem throw (present : id < w.objects.length) (fault : Fault) :
    Overlooks id w (throw fault : Engine φ α) :=
  ⟨present, rfl, fun _ => rfl⟩

theorem bind_ok {a : α} (first : Writes id w action entries) (ran : action.run w = (.ok a, after))
    (rest : Writes id after (next a) more) :
    Writes id w (action >>= next) (entries ++ more) := by
  obtain ⟨-, object, blind⟩ := first
  rw [ran] at object blind
  obtain ⟨present, object', blind'⟩ := rest
  refine ⟨?_, ?_, fun fields => ?_⟩
  · rwa [run_bind_ok ran]
  · rw [run_bind_ok ran, object', object, Table.putAll_append]
  · rw [run_bind_ok (blind fields), run_bind_ok ran, blind', Table.putAll_append]

theorem bind_error {fault : Fault} (first : Writes id w action entries)
    (ran : action.run w = (.error fault, after)) : Writes id w (action >>= next) entries := by
  obtain ⟨present, object, blind⟩ := first
  rw [ran] at present object blind
  refine ⟨?_, ?_, fun fields => ?_⟩
  · rwa [run_bind_error ran]
  · rwa [run_bind_error ran]
  · rw [run_bind_error (blind fields), run_bind_error ran]

theorem adapting (writes : Writes id w action entries) (change : Fault → Fault) :
    Writes id w (adapting change action) entries := by
  obtain ⟨present, object, blind⟩ := writes
  rcases ran : action.run w with ⟨fault | a, after⟩
  · rw [ran] at present object blind
    have fails : (Engine.adapting change action).run w = (.error (change fault), after) := by
      rw [Engine.adapting, run_tryCatch_error ran]
      rfl
    refine ⟨?_, ?_, fun fields => ?_⟩
    · rwa [fails]
    · rwa [fails]
    · rw [fails, Engine.adapting, run_tryCatch_error (blind fields)]
      rfl
  · rw [ran] at present object blind
    have succeeds := run_adapting_ok ran change
    refine ⟨?_, ?_, fun fields => ?_⟩
    · rwa [succeeds]
    · rwa [succeeds]
    · rw [run_adapting_ok (blind fields), succeeds]

end Writes

namespace Overlooks

variable {id : ObjectId} {w after : World φ} {action : Engine φ α} {next : α → Engine φ β}
variable {entries : List (String × Source)}

/-- What an action that overlooks an object is followed by is done in a world with the object. -/
theorem bind (first : Overlooks id w action)
    (rest : ∀ a after, action.run w = (.ok a, after) → id < after.objects.length →
      Overlooks id after (next a)) : Overlooks id w (action >>= next) := by
  rcases ran : action.run w with ⟨fault | a, after⟩
  · exact first.bind_error ran
  · have present := first.present
    rw [ran] at present
    exact first.bind_ok ran (rest a after ran present)

theorem observe (present : id < w.objects.length) {look : World φ → α}
    (blind : ∀ fields, look (w.withFields id fields) = look w) : Overlooks id w (observe look) :=
  ⟨present, rfl, fun fields => by rw [run_observe, run_observe, blind]; rfl⟩

theorem consult (present : id < w.objects.length) {look : World φ → Except Fault α}
    (blind : ∀ fields, look (w.withFields id fields) = look w) : Overlooks id w (consult look) := by
  have same (fields) : (Engine.consult look).run (w.withFields id fields) =
      (((Engine.consult look).run w).1, w.withFields id fields) := by
    unfold Engine.consult
    rw [run_bind_ok (run_get _), run_bind_ok (run_get w), blind]
    cases look w <;> rfl
  have looks : ((Engine.consult look).run w).2 = w := Looks.consult look w
  exact ⟨by rwa [looks], by rw [looks]; rfl, fun fields => by rw [same, looks]; rfl⟩

/-- What is done with the world itself may only see what does not depend on the attributes. -/
theorem get_bind {next : World φ → Engine φ β}
    (blind : ∀ fields, next (w.withFields id fields) = next w)
    (rest : Writes id w (next w) entries) :
    Writes id w (get >>= next) entries := by
  obtain ⟨present, object, unseen⟩ := rest
  have goes : (get >>= next).run w = (next w).run w := run_bind_ok (run_get w)
  refine ⟨by rwa [goes], by rw [goes, object], fun fields => ?_⟩
  rw [run_bind_ok (run_get _), blind, goes, unseen]

end Overlooks

section Actions

variable {id other : ObjectId} {w : World φ} {project : ProjectId}

theorem run_changeObject (id : ObjectId) (change : Object → Object) (w : World φ) :
    (changeObject id change).run w = (.ok (), w.changed id change) := rfl

theorem overlooks_changeObject (present : id < w.objects.length) (apart : id ≠ other)
    (change : Object → Object) : Overlooks id w (changeObject other change) := by
  refine ⟨?_, ?_, fun fields => ?_⟩
  · rwa [run_changeObject, World.changed, List.length_modify]
  · rw [run_changeObject, World.changed, World.object_of_modify_present (w := w) rfl present,
      if_neg (Ne.symm apart)]
    rfl
  · rw [run_changeObject, run_changeObject, World.withFields, World.changed_comm apart]
    rfl

theorem modify_append_of_lt {α : Type} {entries : List α} {i : Nat} (inside : i < entries.length)
    (change : α → α) (last : α) :
    (entries ++ [last]).modify i change = entries.modify i change ++ [last] := by
  induction entries generalizing i with
  | nil => cases inside
  | cons first rest ih =>
    cases i with
    | zero => rfl
    | succ i => exact congrArg (first :: ·) (ih (Nat.lt_of_succ_lt_succ inside))

theorem overlooks_addObject (present : id < w.objects.length) (o : Object) :
    Overlooks id w (addObject o) := by
  have longer : id < (w.objects ++ [o]).length := by
    rw [List.length_append]
    exact Nat.lt_add_right _ present
  refine ⟨longer, ?_, fun fields => ?_⟩
  · rw [run_addObject, World.object_of_append (w := w) rfl, if_neg (Nat.ne_of_lt present)]
    rfl
  · rw [run_addObject, run_addObject]
    unfold World.withFields World.changed
    simp only [List.length_modify, modify_append_of_lt present]
    rfl

theorem overlooks_setField (present : id < w.objects.length) (apart : id ≠ other) (name : String)
    (v : Value) : Overlooks id w (setField other name v) := by
  refine .bind (.observe present fun fields => by rw [World.kindOf_withFields]) ?_
  refine fun a after _ there => ?_
  refine .bind (.consult there fun fields => by
    rw [Attribute.accept_withFields, World.kindOf_withFields]) fun taken _ _ there => ?_
  exact overlooks_changeObject there apart _

theorem overlooks_initialFields (present : id < w.objects.length) (k : Kind)
    (attributes : List (String × Attribute)) (fields : Table String Source) :
    Overlooks id w (initialFields k attributes fields) := by
  induction attributes generalizing w fields with
  | nil => exact .pure present _
  | cons entry rest ih =>
    unfold initialFields
    split
    · exact ih present _
    · refine .bind (.consult present fun _ => by rw [Attribute.accept_withFields]) ?_
      exact fun taken _ _ there => ih there _

theorem overlooks_instantiate (present : id < w.objects.length) (k : Kind) (project : ProjectId) :
    Overlooks id w (instantiate k project) := by
  refine .get_bind (fun _ => rfl) ?_
  extract_lets missing add check
  have adds : Overlooks id w (add ()) :=
    .bind (overlooks_initialFields present k _ _) fun fields _ _ there => overlooks_addObject there _
  have checks : Overlooks id w (check ()) := by
    unfold check
    split
    · exact Overlooks.bind (.throw present _) fun _ _ ran => nomatch ran
    · exact adds
  split
  · exact Overlooks.bind (.throw present _) fun _ _ ran => nomatch ran
  · exact checks

theorem overlooks_pathListOf (present : id < w.objects.length) (text : String) :
    Overlooks id w (pathListOf project text) := by
  refine .bind (.observe present fun _ => rfl) fun k after looked there => ?_
  refine .bind (overlooks_instantiate there k project) fun list made ran there' => ?_
  obtain ⟨-, last⟩ := BindsBy.of_run (binds_instantiate k project : BindsBy OfNone after _ _) ran
  have apart : id ≠ list := by
    rw [(last list rfl).1]
    exact Nat.ne_of_lt there
  exact .bind (overlooks_setField there' apart _ _) fun _ _ _ present => .pure present _

theorem overlooks_coerceTo (present : id < w.objects.length) (text : String) (type : ValueType) :
    Overlooks id w (coerceTo project text type) := by
  unfold coerceTo
  split
  case h_1 =>
    refine .get_bind (fun _ => rfl) ?_
    split
    · split
      · exact .pure present _
      · exact .pure present _
    · exact .pure present _
  case h_5 => split <;> exact .pure present _
  case h_6 => split <;> exact .pure present _
  case h_7 => exact .bind (.observe present fun _ => rfl) fun p _ _ there => .pure there _
  case h_9 =>
    refine .bind (.observe present fun _ => rfl) fun k _ _ there => ?_
    split
    · exact .bind (overlooks_pathListOf there text) fun _ _ _ there => .pure there _
    · exact .pure there _
  all_goals exact .pure present _

theorem overlooks_coerceFirst (present : id < w.objects.length) (text : String)
    (types : List ValueType) (complaints : List String) :
    Overlooks id w (coerceFirst project text complaints types) := by
  induction types generalizing w complaints with
  | nil => exact .throw present _
  | cons type rest ih =>
    unfold coerceFirst
    refine .bind (overlooks_coerceTo present text type) fun result _ _ there => ?_
    split
    · exact .pure there _
    · exact ih there _

theorem overlooks_signatureOf (present : id < w.objects.length) (location : Location) :
    Overlooks id w (locating location (signatureOf other)) :=
  Writes.adapting (Overlooks.consult present fun _ => by rw [World.kindOf_withFields]; rfl) _

end Actions

/-- An action writes attributes of some names in turn, all of them unless it ends with a fault. It
does so whatever attributes the object has. -/
def Assigns (id : ObjectId) (w : World φ) (action : Engine φ α) (names : List String) : Prop :=
  ∃ entries, Writes id w action entries ∧ entries.map Prod.fst <+: names ∧
    ∀ a, (action.run w).1 = .ok a → entries.map Prod.fst = names

namespace Assigns

variable {id : ObjectId} {w : World φ} {action : Engine φ α} {next : α → Engine φ β}
variable {names more : List String}

theorem of_overlooks (overlooks : Overlooks id w action) : Assigns id w action [] :=
  ⟨[], overlooks, List.nil_prefix, fun _ _ => rfl⟩

theorem throw (present : id < w.objects.length) (fault : Fault) :
    Assigns id w (MonadExcept.throw fault : Engine φ α) names :=
  ⟨[], .throw present fault, List.nil_prefix, nofun⟩

theorem bind (first : Assigns id w action names)
    (rest : ∀ a after, action.run w = (.ok a, after) → id < after.objects.length →
      Assigns id after (next a) more) : Assigns id w (action >>= next) (names ++ more) := by
  obtain ⟨entries, writes, begins, all⟩ := first
  rcases ran : action.run w with ⟨fault | a, after⟩
  · refine ⟨entries, writes.bind_error ran, begins.trans (List.prefix_append _ _), ?_⟩
    rw [run_bind_error ran]
    exact nofun
  · have present := writes.present
    rw [ran] at present all
    obtain ⟨entries', writes', begins', all'⟩ := rest a after ran present
    have whole := all a rfl
    refine ⟨entries ++ entries', writes.bind_ok ran writes', ?_, fun b ended => ?_⟩
    · rw [List.map_append, whole]
      exact (List.prefix_append_right_inj names).mpr begins'
    · rw [run_bind_ok ran] at ended
      rw [List.map_append, whole, all' b ended]

theorem look (first : Overlooks id w action)
    (rest : ∀ a after, action.run w = (.ok a, after) → id < after.objects.length →
      Assigns id after (next a) names) : Assigns id w (action >>= next) names :=
  (of_overlooks first).bind rest

theorem adapting (assigns : Assigns id w action names) (change : Fault → Fault) :
    Assigns id w (adapting change action) names := by
  obtain ⟨entries, writes, begins, all⟩ := assigns
  refine ⟨entries, writes.adapting change, begins, fun a ended => ?_⟩
  rcases ran : action.run w with ⟨fault | b, after⟩
  · rw [Engine.adapting, run_tryCatch_error ran] at ended
    cases ended
  · exact all b (by rw [ran])

end Assigns

section Attributes

variable {id : ObjectId} {w : World φ} {project : ProjectId}

theorem assigns_setSource (present : id < w.objects.length) (name : String) (source : Source) :
    Assigns id w (setSource id name source) [name] := by
  have ran (u : World φ) : (setSource id name source).run u =
      (.ok (), u.changed id fun o => { o with fields := o.fields.put name source }) := rfl
  refine ⟨[(name, source)], ⟨?_, ?_, fun fields => ?_⟩, List.prefix_rfl, fun _ _ => rfl⟩
  · rwa [ran, World.changed, List.length_modify]
  · rw [ran, World.object_changed present]
    rfl
  · rw [ran, ran, World.withFields, World.withFields, World.changed_changed, World.changed_changed]
    rfl

theorem assigns_setField (present : id < w.objects.length) (name : String) (v : Value) :
    Assigns id w (setField id name v) [name] := by
  refine .look (.observe present fun fields => by rw [World.kindOf_withFields]) ?_
  refine fun a after _ there => .look (.consult there fun fields => ?_) ?_
  · rw [Attribute.accept_withFields, World.kindOf_withFields]
  · exact fun taken _ _ there => assigns_setSource there name _

/-- The attribute that is meant by a name, as far as there is one. -/
def assigned (signed : Except Problem Signature) (name : String) : List String :=
  ((signed.toOption.bind (·.attribute? name)).map Attribute.name).toList

/-- The attributes that the attributes of an element mean, in order. -/
def assignedBy (signed : Except Problem Signature) (attributes : List (String × String)) :
    List String :=
  (attributes.filter fun entry => !isIdName entry.1).flatMap fun entry => assigned signed entry.1

theorem assigns_bindAttribute (present : id < w.objects.length) (name text : String)
    (location : Location) : Assigns id w (bindAttribute project id name text location)
      (assigned (Signature.ofKind w.kinds (w.kindOf id)) name) := by
  unfold bindAttribute
  refine .look (overlooks_signatureOf present location) fun signature after signs there => ?_
  have signed := ofKind_of_signatureOf (by rw [signs])
  refine .look (.observe there fun fields => World.describe_withFields _ _ _ _) ?_
  intro owner _ _ there
  split
  · rename_i slot a _ found
    rw [signed, assigned, Except.toOption, Option.bind_some, found]
    split
    · exact assigns_setSource there a.name _
    · exact .throw there _
  · exact .throw there _
  · exact .throw there _
  · rename_i a _ found
    rw [signed, assigned, Except.toOption, Option.bind_some, found]
    refine .adapting (.look (overlooks_coerceFirst there text _ _) fun v _ _ there => ?_) _
    exact assigns_setField there a.name v

theorem assigns_bindAttributes (present : id < w.objects.length) (location : Location)
    (attributes : List (String × String)) :
    Assigns id w (bindAttributes project id location attributes)
      (assignedBy (Signature.ofKind w.kinds (w.kindOf id)) attributes) := by
  induction attributes generalizing w with
  | nil => exact .of_overlooks (.pure present _)
  | cons entry rest ih =>
    obtain ⟨name, text⟩ := entry
    unfold bindAttributes
    cases identity : isIdName name with
    | true =>
      have names : assignedBy (Signature.ofKind w.kinds (w.kindOf id)) ((name, text) :: rest) =
          assignedBy (Signature.ofKind w.kinds (w.kindOf id)) rest := by
        simp [assignedBy, identity]
      rw [names]
      exact ih present
    | false =>
      have names : assignedBy (Signature.ofKind w.kinds (w.kindOf id)) ((name, text) :: rest) =
          assigned (Signature.ofKind w.kinds (w.kindOf id)) name ++
            assignedBy (Signature.ofKind w.kinds (w.kindOf id)) rest := by
        simp [assignedBy, identity]
      rw [names]
      refine (assigns_bindAttribute present name text location).bind fun _ after ran there => ?_
      obtain ⟨binds, -⟩ := BindsBy.of_run (binds_bindAttribute (World.has_ofNone w)
        (fun _ _ _ _ => not_false) text location : BindsBy OfNone w _ _) ran
      rw [← binds.kinds, ← binds.kindOf present]
      exact ih there

end Attributes
end Engine
end BuildEngine
