import BuildEngine.DataType
import BuildEngine.Proofs.Likeness
import Mathlib.Data.List.Perm.Subperm

/-! Readings of worlds that are like each other: whatever is asked about objects that are paired has
the same answer in both, or one that differs only in the numbers of objects and projects. -/

namespace BuildEngine

variable {φ : Type} {α β γ δ : Type}

namespace Pairing

/-- Results that are like each other: both as wanted, or faults like each other. -/
inductive Results (s : Pairing) (wanted : α → β → Prop) : Except Fault α → Except Fault β → Prop
  | ok {a : α} {b : β} (related : wanted a b) : Results s wanted (.ok a) (.ok b)
  | error {fault other : Fault} (like : Fault.Like s fault other) :
      Results s wanted (.error fault) (.error other)

namespace Results

variable {s t : Pairing} {wanted : α → β → Prop} {later : γ → δ → Prop}

/-- A fault that names no object is like itself. -/
theorem fault {fault : Fault} (anonymous : fault.isAnonymous = true) :
    s.Results wanted (.error fault) (.error fault) :=
  .error (.anonymous anonymous)

theorem imp {others : α → β → Prop} {a : Except Fault α} {b : Except Fault β}
    (results : s.Results wanted a b) (implies : ∀ x y, wanted x y → others x y) :
    s.Results others a b := by
  cases results with
  | ok related => exact .ok (implies _ _ related)
  | error like => exact .error like

theorem bind {a : Except Fault α} {b : Except Fault β} {f : α → Except Fault γ}
    {g : β → Except Fault δ} (first : s.Results wanted a b)
    (rest : ∀ x y, wanted x y → s.Results later (f x) (g y)) :
    s.Results later (a >>= f) (b >>= g) := by
  cases first with
  | ok related => exact rest _ _ related
  | error like => exact .error like

/-- The rest after a step that has the same result on both sides. -/
theorem bindSame {a b : Except Fault α} {f : α → Except Fault γ} {g : α → Except Fault δ}
    (first : s.Results Eq a b) (rest : ∀ x, s.Results later (f x) (g x)) :
    s.Results later (a >>= f) (b >>= g) :=
  first.bind fun x _ same => same ▸ rest x

theorem map {a : Except Fault α} {b : Except Fault β} {f : α → γ} {g : β → δ}
    (results : s.Results wanted a b) (implies : ∀ x y, wanted x y → later (f x) (g y)) :
    s.Results later (a.map f) (b.map g) := by
  cases results with
  | ok related => exact .ok (implies _ _ related)
  | error like => exact .error like

theorem mapM {f : α → Except Fault γ} {g : β → Except Fault δ} {as : List α} {bs : List β}
    (related : List.Forall₂ wanted as bs)
    (each : ∀ a b, wanted a b → s.Results later (f a) (g b)) :
    s.Results (List.Forall₂ later) (as.mapM f) (bs.mapM g) := by
  induction related with
  | nil => exact .ok .nil
  | @cons a b _ _ both _ ih =>
    rw [List.mapM_cons, List.mapM_cons]
    refine (each a b both).bind fun x y first => ?_
    exact ih.bind fun xs ys rest => .ok (.cons first rest)

theorem mapMSame {f g : α → Except Fault γ} (as : List α) (each : ∀ a, s.Results Eq (f a) (g a)) :
    s.Results Eq (as.mapM f) (as.mapM g) := by
  induction as with
  | nil => exact .ok rfl
  | cons a rest ih =>
    rw [List.mapM_cons, List.mapM_cons]
    exact (each a).bindSame fun _ => ih.bindSame fun _ => .ok rfl

end Results

variable {s : Pairing} {is js : List ObjectId} {i j : ObjectId}

/-- Distinct objects that are paired are no more than there are. -/
theorem length_le_of_nodup (paired : List.Forall₂ s.Objects is js) (distinct : is.Nodup) :
    is.length ≤ s.objects := by
  have inside : is ⊆ List.range' s.left.objects s.objects := by
    intro i member
    induction paired with
    | nil => cases member
    | cons both _ ih =>
      rcases List.mem_cons.mp member with rfl | later
      · obtain ⟨k, made, rfl, _⟩ := both
        exact List.mem_range'_1.mpr ⟨Nat.le_add_right _ _, Nat.add_lt_add_left made _⟩
      · exact ih (List.nodup_cons.mp distinct).2 later
  have bound := (List.subperm_of_subset distinct inside).length_le
  rwa [List.length_range'] at bound

/-- Lists hold paired objects at the same places. -/
theorem contains_eq (passed : List.Forall₂ s.Objects is js) (paired : s.Objects i j) :
    is.contains i = js.contains j := by
  induction passed with
  | nil => rfl
  | cons both _ ih =>
    rw [List.contains_cons, List.contains_cons, ih]
    have same := paired.eq_iff both
    congr 1
    exact Bool.eq_iff_iff.mpr (by simpa using same)

end Pairing

namespace World

variable {w : World φ} {id : ObjectId} {name : String}

/-! What a name leads to, if it has to be of a kind. -/

theorem resolveAs_of_ok {p : ProjectId} {found : ObjectId} {kind : KindId}
    (leads : w.resolve p name = .ok found) :
    w.resolveAs p name kind = if w.isA found kind then .ok found
      else .error (.mismatch name (w.kinds.nameOf kind) (w.typeName found)) := by
  unfold resolve at leads
  rw [resolveAs, References.resolveAs, leads]
  rfl

theorem resolveAs_of_error {p : ProjectId} {error : ReferenceError} {kind : KindId}
    (fails : w.resolve p name = .error error) : w.resolveAs p name kind = .error error := by
  unfold resolve at fails
  rw [resolveAs, References.resolveAs, fails]
  rfl

/-! Readings of an attribute, by where it has its value from. -/

theorem read_of_value {v : Value} (found : (w.object id).fields.find? name = some (.value v)) :
    w.read id name = .ok v := by
  simp [read, fieldSupplier, supplierOf, found, Supplier.get]

theorem read_of_slot {p : ProjectId} {slot : String}
    (found : (w.object id).fields.find? name = some (.slot p slot)) :
    w.read id name = .ok (w.slotValue (p, slot)) := by
  simp [read, fieldSupplier, supplierOf, found, Supplier.get]

theorem read_of_void (found : ((w.object id).fields.find? name).getD .void = .void) :
    w.read id name = .error (.empty (some id) name
      (Lack.emptyText (σ := ProjectId × String) (ε := Fault) w.shown
        (.field id (w.kindOf id).name name (.void 0 none [])) (some (Supplier.notSet name)))) := by
  simp [read, fieldSupplier, supplierOf, found, Supplier.get, lackFault]

/-! Readings in another world, in which objects, kinds and slots are the same. -/

variable {u : World φ} (objects : u.objects = w.objects) (kinds : u.kinds = w.kinds)
include objects kinds

theorem supplierOf_of_same (steps : Nat) (source : Source) :
    u.supplierOf steps source = w.supplierOf steps source := by
  induction steps generalizing source with
  | zero => cases source <;> rfl
  | succ steps ih =>
    cases source with
    | field id name => simp only [supplierOf, kindOf, object, objects, kinds, ih]
    | _ => rfl

theorem read_of_same (slots : u.slotValue = w.slotValue) (id : ObjectId) (name : String) :
    u.read id name = w.read id name := by
  have fields : u.fieldCount = w.fieldCount := by rw [fieldCount, objects, fieldCount]
  have supplier : u.fieldSupplier id name = w.fieldSupplier id name := by
    rw [fieldSupplier, supplierOf_of_same objects kinds, fields, fieldSupplier]
  have objectOf (other : ObjectId) : u.object other = w.object other := by
    rw [object, objects, object]
  have kind (other : ObjectId) : u.kindOf other = w.kindOf other := by
    rw [kindOf, objectOf, kinds, kindOf]
  have shown : u.shown = w.shown := by
    funext other
    rw [World.shown, World.shown, nameOf, nameOf, typeName, typeName, objectOf, kind]
  unfold read
  rw [supplier, slots]
  split
  · rfl
  · simp only [lackFault, shown]

end World

namespace World.Like

variable {s : Pairing} {w u : World φ} {i j : ObjectId} {p q : ProjectId}

section Object

variable (like : World.Like s w u) (paired : s.Objects i j)
include like paired

theorem kindOf : w.kindOf i = u.kindOf j := by
  rw [World.kindOf, World.kindOf, like.kinds, (like.object paired).kind]

theorem isA (kind : KindId) : w.isA i kind = u.isA j kind := by
  rw [World.isA, World.isA, like.kindOf paired]

theorem typeName : w.typeName i = u.typeName j := by
  rw [World.typeName, World.typeName, like.kindOf paired]

theorem describe : w.describe i = u.describe j := by
  unfold World.describe
  rw [like.kindOf paired, like.typeName paired, (like.object paired).elementName]

theorem nameOf : w.nameOf i = u.nameOf j := by
  unfold World.nameOf
  rw [like.typeName paired, (like.object paired).elementName]

theorem shown : w.shown i = u.shown j := by
  unfold World.shown
  rw [like.kindOf paired, like.nameOf paired, like.typeName paired, (like.object paired).location]

theorem loggerOf : w.loggerOf i = u.loggerOf j := by
  unfold World.loggerOf
  rw [like.typeName paired, (like.object paired).elementName]

theorem aliasOf : w.aliasOf i = u.aliasOf j := by
  unfold World.aliasOf
  rw [like.kindOf paired]
  split
  · rcases (like.object paired).reference.both with ⟨left, right⟩ | ⟨r, r', left, right, same⟩
    · rw [left, right]
    · rw [left, right]
      exact congrArg some same.id
  · rfl

theorem isSet (name : String) : w.isSet i name = u.isSet j name := by
  unfold World.isSet
  rcases ((like.object paired).fields.find? name).both with
    ⟨left, right⟩ | ⟨source, other, left, right, same⟩
  · rw [left, right]
  · rw [left, right]
    cases same <;> rfl

end Object

theorem slotValue (like : World.Like s w u) (paired : s.Projects p q) (name : String) :
    Value.Like s (w.slotValue (p, name)) (u.slotValue (q, name)) := by
  unfold World.slotValue References.slot
  rcases ((like.project paired).references.slots.find? name).both with
    ⟨left, right⟩ | ⟨v, v', left, right, same⟩
  · rw [left, right]
    exact .complete rfl
  · rw [left, right]
    exact same

theorem display (like : World.Like s w u) {v v' : Value} (same : Value.Like s v v') :
    v.display w.shown = v'.display u.shown := by
  cases same with
  | complete complete => exact Value.display_of_isComplete complete
  | object paired => exact like.shown paired
  | reference same => exact congrArg (fun id => s!"Reference({Text.quote id})") same.id

theorem meant (like : World.Like s w u) {v v' : Value} (same : Value.Like s v v') :
    v.meant w.shown = v'.meant u.shown := by
  cases same with
  | complete complete => exact Value.meant_of_isComplete complete
  | object paired => exact like.shown paired
  | reference same => exact congrArg (fun id => s!"Reference({Text.quote id})") same.id

theorem valueTypeName (like : World.Like s w u) {v v' : Value} (same : Value.Like s v v') :
    v.typeName w.typeName = v'.typeName u.typeName := by
  cases same with
  | complete complete => exact Value.typeName_of_isComplete complete
  | object paired => exact like.typeName paired
  | reference => rfl

section Read

variable (like : World.Like s w u) (paired : s.Objects i j) (name : String)
include like paired

theorem read : s.Results (Value.Like s) (w.read i name) (u.read j name) := by
  have void (left : ((w.object i).fields.find? name).getD .void = .void)
      (right : ((u.object j).fields.find? name).getD .void = .void) :
      s.Results (Value.Like s) (w.read i name) (u.read j name) := by
    rw [World.read_of_void left, World.read_of_void right, like.kindOf paired]
    exact .error (.empty paired name _)
  rcases ((like.object paired).fields.find? name).both with
    ⟨left, right⟩ | ⟨source, other, left, right, same⟩
  · exact void (by rw [left]; rfl) (by rw [right]; rfl)
  · cases same with
    | void => exact void (by rw [left]; rfl) (by rw [right]; rfl)
    | value same =>
      rw [World.read_of_value left, World.read_of_value right]
      exact .ok same
    | slot projects slot =>
      rw [World.read_of_slot left, World.read_of_slot right]
      exact .ok (like.slotValue projects slot)

theorem readText : s.Results Eq (w.readText i name) (u.readText j name) :=
  (like.read paired name).map fun _ _ same => like.display same

theorem readFlag : s.Results Eq (w.readFlag i name) (u.readFlag j name) := by
  refine (like.read paired name).map fun v v' same => ?_
  cases same <;> rfl

theorem readPath : s.Results Eq (w.readPath i name) (u.readPath j name) := by
  refine (like.read paired name).map fun v v' same => ?_
  have text := like.display same
  cases same with
  | complete complete =>
    split
    · rfl
    · exact congrArg Path.ofString text
  | object paired => exact congrArg Path.ofString text
  | reference same => exact congrArg Path.ofString text

end Read

end World.Like

theorem Value.Like.integer? {s : Pairing} {v v' : Value} (same : Value.Like s v v') :
    v.integer? = v'.integer? := by
  cases same <;> rfl

/-- A name is taken from another object on both sides or on none. -/
theorem References.Like.replaces {s : Pairing} {r q : References ObjectId}
    (like : References.Like s r q) (name : String) {i j : ObjectId} (paired : s.Objects i j) :
    r.replaces name i = q.replaces name j := by
  unfold References.replaces References.get?
  rcases (like.objects.find? name).both with ⟨left, right⟩ | ⟨old, old', left, right, same⟩
  · rw [left, right]
    rfl
  · rw [left, right]
    exact congrArg not (Bool.eq_iff_iff.mpr (by simpa using same.eq_iff paired))

/-- Names that lead along the same aliases lead to related objects, or fail in the same way. -/
theorem References.Like.follow {s : Pairing} {r q : References ObjectId}
    (like : References.Like s r q) {f g : ObjectId → Option String}
    (aliases : ∀ {i j}, s.Objects i j → f i = g j) (steps : Nat) (passed : List String)
    (id : String) :
    (∃ i j, r.follow f steps passed id = .ok i ∧ q.follow g steps passed id = .ok j ∧
      s.Objects i j) ∨
    ∃ error, r.follow f steps passed id = .error error ∧
      q.follow g steps passed id = .error error := by
  induction steps generalizing passed id with
  | zero =>
    unfold References.follow References.get?
    by_cases seen : id ∈ passed
    · exact .inr ⟨.cycle (passed ++ [id]), by rw [if_pos seen], by rw [if_pos seen]⟩
    rw [if_neg seen, if_neg seen]
    rcases (like.objects.find? id).both with ⟨left, right⟩ | ⟨i, j, left, right, paired⟩
    · exact .inr ⟨.notFound id passed, by rw [left], by rw [right]⟩
    · exact .inr ⟨.cycle (passed ++ [id]), by rw [left], by rw [right]⟩
  | succ more ih =>
    unfold References.follow References.get?
    by_cases seen : id ∈ passed
    · exact .inr ⟨.cycle (passed ++ [id]), by rw [if_pos seen], by rw [if_pos seen]⟩
    rw [if_neg seen, if_neg seen]
    rcases (like.objects.find? id).both with ⟨left, right⟩ | ⟨i, j, left, right, paired⟩
    · exact .inr ⟨.notFound id passed, by rw [left], by rw [right]⟩
    · rw [left, right]
      simp only [aliases paired]
      cases g j with
      | none => exact .inl ⟨i, j, rfl, rfl, paired⟩
      | some next => exact ih (passed ++ [id]) next

namespace World.Like

variable {s : Pairing} {w u : World φ} {i j : ObjectId} {p q : ProjectId}

theorem resolve (like : World.Like s w u) (projects : s.Projects p q) (id : String) :
    (∃ i j, w.resolve p id = .ok i ∧ u.resolve q id = .ok j ∧ s.Objects i j) ∨
      ∃ error, w.resolve p id = .error error ∧ u.resolve q id = .error error := by
  have references := (like.project projects).references
  have sizes : (w.project p).references.objects.size = (u.project q).references.objects.size :=
    references.objects.size
  unfold World.resolve References.resolve
  rw [sizes]
  exact references.follow (fun paired => like.aliasOf paired) _ _ id

/-- A name leads to objects that are paired, or its use fails in the same way. -/
theorem resolveAs (like : World.Like s w u) (projects : s.Projects p q) (id : String)
    (kind : KindId) :
    (∃ i j, w.resolveAs p id kind = .ok i ∧ u.resolveAs q id kind = .ok j ∧ s.Objects i j) ∨
      ∃ error, w.resolveAs p id kind = .error error ∧ u.resolveAs q id kind = .error error := by
  rcases like.resolve projects id with ⟨i, j, left, right, paired⟩ | ⟨error, left, right⟩
  · rw [World.resolveAs_of_ok left, World.resolveAs_of_ok right, like.isA paired, like.kinds,
      like.typeName paired]
    split
    · exact .inl ⟨i, j, rfl, rfl, paired⟩
    · exact .inr ⟨_, rfl, rfl⟩
  · exact .inr ⟨error, World.resolveAs_of_error left, World.resolveAs_of_error right⟩

theorem target (like : World.Like s w u) (paired : s.Objects i j) :
    s.Results s.Objects (w.target i) (u.target j) := by
  unfold World.target
  rcases (like.object paired).reference.both with ⟨left, right⟩ | ⟨r, r', left, right, same⟩
  · rw [left, right]
    exact .ok paired
  · rw [left, right, (like.object paired).kind]
    simp only [same.id, same.location]
    rcases like.resolveAs same.project r'.id (u.object j).kind with
      ⟨i, j, left, right, found⟩ | ⟨error, left, right⟩
    · rw [left, right]
      exact .ok found
    · rw [left, right]
      exact .fault rfl

/-! Lists of files. -/

theorem listDirectory (like : World.Like s w u) (paired : s.Objects i j) :
    s.Results Eq (w.listDirectory i) (u.listDirectory j) := by
  unfold World.listDirectory
  refine (like.target paired).bind fun list other lists => ?_
  rw [like.isSet lists, (like.object lists).location]
  split
  · exact .fault rfl
  · exact like.readPath lists "dir"

theorem listedNames [FileSystem φ] (like : World.Like s w u) (paired : s.Objects i j)
    (path : Path) : s.Results Eq (w.listedNames i path) (u.listedNames j path) := by
  have properties := (like.project (like.object paired).project).properties
  unfold World.listedNames
  simp only [like.files, (like.object paired).location, properties]
  cases FileSystem.read u.files path with
  | error error => exact .error (.anonymous rfl)
  | ok data =>
    simp only
    cases Text.decodeUtf8 data with
    | error error => exact .error (.anonymous rfl)
    | ok text => exact .ok rfl

theorem listFiles [FileSystem φ] (like : World.Like s w u) (paired : s.Objects i j) :
    s.Results Eq (w.listFiles i) (u.listFiles j) := by
  unfold World.listFiles
  refine (like.target paired).bind fun list other lists => ?_
  refine (like.listDirectory lists).bindSame fun _ => ?_
  rw [like.isSet lists, like.isSet lists, (like.object lists).location]
  extract_lets collect collect'
  have collected (given : List String) : s.Results Eq (collect given) (collect' given) := by
    have named := Pairing.Results.mapM (like.object lists).parts fun _ _ parts =>
      like.readText parts "name_"
    refine named.bind fun nested nested' same => ?_
    rw [List.forall₂_eq_eq_eq] at same
    subst same
    extract_lets check
    have checked (listed : List String) : s.Results Eq (check listed) (check listed) := by
      unfold check
      extract_lets names
      split
      · exact .fault rfl
      · exact .ok rfl
    split
    · refine (like.readPath lists "listfile").bindSame fun path => ?_
      exact (like.listedNames lists path).bindSame checked
    · exact checked []
  split
  · refine Pairing.Results.bindSame ?_ collected
    exact (like.readText lists "files").map fun _ _ same => by rw [same]
  · exact collected []

/-! Lists of locations. -/

theorem ownLocations (like : World.Like s w u) (paired : s.Objects i j) :
    s.Results Eq (w.ownLocations i) (u.ownLocations j) := by
  have directory := (like.project (like.object paired).project).directory
  unfold World.ownLocations
  rw [like.isSet paired, like.isSet paired]
  extract_lets project more project' more'
  have rest (single : List Path) : s.Results Eq (more single) (more' single) := by
    unfold more more'
    split
    · refine (like.readText paired "path").bindSame fun text => .ok ?_
      have resolve : project.resolveFile = project'.resolveFile := by
        funext path
        rw [Project.resolveFile, Project.resolvePath, Project.resolveFile, Project.resolvePath,
          directory]
      rw [resolve]
    · exact .ok rfl
  split
  · refine Pairing.Results.bindSame ?_ rest
    exact (like.readPath paired "location_").map fun _ _ same => by rw [same]
  · exact rest []

theorem chainName (like : World.Like s w u) (paired : s.Objects i j) :
    w.chainName i = u.chainName j := by
  unfold World.chainName
  rw [like.describe paired]
  rcases (like.object paired).reference.both with ⟨left, right⟩ | ⟨r, r', left, right, same⟩
  · rw [left, right]
  · rw [left, right]
    simp only [same.id]

/-- The number of levels makes no difference as long as there are more than objects to come. -/
theorem locationsOf (like : World.Like s w u) (levels levels' : Nat)
    {passed passed' : List ObjectId} (together : List.Forall₂ s.Objects passed passed')
    (distinct : passed.Nodup) (left : s.objects < passed.length + levels)
    (right : s.objects < passed.length + levels') (names : List String)
    (paired : s.Objects i j) :
    s.Results Eq (w.locationsOf levels passed names i) (u.locationsOf levels' passed' names j) := by
  induction levels generalizing levels' passed passed' names i j with
  | zero =>
    have bound := Pairing.length_le_of_nodup together distinct
    omega
  | succ more ih =>
    obtain ⟨more', rfl⟩ : ∃ more', levels' = more' + 1 := by
      have bound := Pairing.length_le_of_nodup together distinct
      exact ⟨levels' - 1, by omega⟩
    unfold World.locationsOf
    refine (like.target paired).bind fun path path' paths => ?_
    rw [like.chainName paired, (like.object paired).location, Pairing.contains_eq together paths]
    extract_lets longer rest rest'
    split
    · exact .fault rfl
    · rename_i fresh
      refine (like.ownLocations paths).bindSame fun own => ?_
      refine Pairing.Results.bind ?_ fun _ _ same => .ok (congrArg (own ++ List.flatten ·) same)
      refine (Pairing.Results.mapM (like.object paths).parts fun part part' parts => ?_).imp
        fun _ _ same => List.forall₂_eq_eq_eq ▸ same
      rw [like.isA parts]
      split
      · have once : (passed ++ [path]).Nodup := by
          rw [← Pairing.contains_eq together paths] at fresh
          have absent : path ∉ passed := by simpa using fresh
          exact (List.perm_append_singleton path passed).nodup_iff.mpr
            (List.nodup_cons.mpr ⟨absent, distinct⟩)
        refine ih more' (List.rel_append together (.cons paths .nil)) once ?_ ?_ longer parts
        · rw [List.length_append, List.length_singleton]
          omega
        · rw [List.length_append, List.length_singleton]
          omega
      · exact like.ownLocations parts

theorem locations (like : World.Like s w u) (paired : s.Objects i j) :
    s.Results Eq (w.locations i) (u.locations j) := by
  unfold World.locations
  refine (like.locationsOf _ _ .nil .nil ?_ ?_ [] paired).map fun _ _ same => by rw [same]
  · rw [like.leftObjects, List.length_nil]
    omega
  · rw [like.rightObjects, List.length_nil]
    omega

theorem mapper (like : World.Like s w u) (paired : s.Objects i j) :
    s.Results Eq (w.mapper i) (u.mapper j) := by
  unfold World.mapper
  refine (like.target paired).bind fun m m' mappers => ?_
  rw [like.isSet mappers, like.isSet mappers, like.isSet mappers, (like.object mappers).location]
  extract_lets location typed typed'
  have types : s.Results Eq (typed ()) (typed' ()) := by
    refine Pairing.Results.bindSame ((like.read mappers _).map fun _ _ => like.meant) ?_
    intro type
    split
    · exact .ok rfl
    · exact .ok rfl
    extract_lets named named'
    have names : s.Results Eq (named ()) (named' ()) := by
      refine (like.readText mappers "to").bindSame fun derived => ?_
      split
      · exact .ok rfl
      extract_lets made made'
      have makes : s.Results Eq (made ()) (made' ()) := by
        refine (like.readText mappers "from_").bindSame fun source => ?_
        refine (like.readFlag mappers "casesensitive").bindSame fun caseSensitive => ?_
        split
        · cases Mapper.ofGlob source derived caseSensitive with
          | error => exact .fault rfl
          | ok => exact .ok rfl
        · cases Mapper.ofRegexp source derived caseSensitive with
          | error => exact .fault rfl
          | ok => exact .ok rfl
      split
      · exact .fault rfl
      · exact makes
    split
    · exact .fault rfl
    · exact names
  split
  · exact .fault rfl
  · exact types

end World.Like
end BuildEngine
