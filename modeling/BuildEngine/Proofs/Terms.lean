import BuildEngine.Proofs.Ending
import BuildEngine.Proofs.KindShape

/-! The terms on which builds are run: the places that faults may have, the paths that the files may
be asked about, and a change of the files and of the directory of the run that nothing may notice.
A world meets them if all that is kept in it does: its objects, with what they are made of, and its
projects, with the elements that stand in their targets. -/

namespace BuildEngine

variable {φ : Type}

namespace Element

/-- Whether an element has an attribute for a source file. -/
def givesSource (e : Element) : Bool :=
  e.attributes.any fun entry => normalizeName entry.1 == "srcfile"

/-- Whether a mapper is nested in an element. -/
def nestsMapper (e : Element) : Bool := e.children.any fun child => normalizeName child.tag == "mapper"

/-- Whether an element has both. -/
def isMixed (e : Element) : Bool := e.givesSource && e.nestsMapper

/-- An element of which something is true, as it is of all elements nested in it. -/
inductive All (P : Element → Prop) : Element → Prop
  | node {e : Element} (own : P e) (nested : ∀ child ∈ e.children, All P child) : All P e

namespace All

variable {P : Element → Prop} {e : Element}

theorem own (all : e.All P) : P e := by
  cases all
  assumption

theorem nested (all : e.All P) : ∀ child ∈ e.children, child.All P := by
  cases all
  assumption

theorem imp {Q : Element → Prop} (all : e.All P) (implies : ∀ e, P e → Q e) : e.All Q := by
  induction all with
  | node own _ ih => exact .node (implies _ own) ih

end All
end Element

/-- What a build is held to. -/
structure Terms (φ : Type) [FileSystem φ] where
  /-- The places that faults may have. -/
  known : Location → Bool
  /-- The paths that the files may be asked about. -/
  fits : Path → Bool
  /-- Whether an element may have a source file and a mapper. -/
  mixes : Bool
  /-- How the files are changed. -/
  move : φ → φ
  /-- How the directory of the run is changed. -/
  look : Path → Path
  known_orElse : ∀ l other : Location, known l = true ∨ known other = true →
    known (l.orElse other) = true
  fits_top : fits .top = true
  fits_join : ∀ base p : Path, fits base = true ∨ fits p = true → fits (base.join p) = true
  join_look : ∀ here p : Path, fits p = true → (look here).join p = here.join p
  contains_move : ∀ (files : φ) p, fits p = true ∨ mixes = true →
    FileSystem.contains (move files) p = FileSystem.contains files p
  modified_move : ∀ (files : φ) p, fits p = true ∨ mixes = true →
    FileSystem.modified (move files) p = FileSystem.modified files p
  isDirectory_move : ∀ (files : φ) p, fits p = true →
    FileSystem.isDirectory (move files) p = FileSystem.isDirectory files p
  children_move : ∀ (files : φ) p, fits p = true →
    FileSystem.children (move files) p = FileSystem.children files p
  children_fit : ∀ (files : φ) p found, fits p = true → FileSystem.children files p = .ok found →
    ∀ child ∈ found, fits child = true
  read_move : ∀ (files : φ) p, fits p = true →
    FileSystem.read (move files) p = FileSystem.read files p
  delete_move : ∀ (files : φ) p, fits p = true →
    FileSystem.delete (move files) p = (FileSystem.delete files p).map move
  write_move : ∀ (files : φ) p data, fits p = true →
    FileSystem.write (move files) p data = (FileSystem.write files p data).map move
  touch_move : ∀ (files : φ) p time, fits p = true →
    FileSystem.touch (move files) p time = (FileSystem.touch files p time).map move
  depth_move : ∀ files : φ, FileSystem.depth (move files) = FileSystem.depth files

/-- A world with the elements from which its objects were made. -/
structure Stage (φ : Type) where
  world : World φ
  element : ObjectId → Element

namespace Terms

variable [FileSystem φ] (t : Terms φ)

/-- Elements that may be built: each is at a known place, and none mixes what may not be mixed. -/
def Welcomes (e : Element) : Prop :=
  e.All fun e => t.known e.location = true ∧ (t.mixes = true ∨ e.isMixed = false)

/-- A world with other files, run in another directory. -/
def turned (w : World φ) : World φ := { w with files := t.move w.files, here := t.look w.here }

/-- An object whose place is known. -/
def Located (s : Stage φ) (id : ObjectId) : Prop :=
  id < s.world.objects.length ∧ t.known (s.world.object id).location = true

/-- An object whose place is known if it has one. -/
def Placed (s : Stage φ) (id : ObjectId) : Prop :=
  id < s.world.objects.length ∧
    ((s.world.kindOf id).isComponent = true → t.known (s.world.object id).location = true)

/-- What may stand under the name of a path. -/
def HoldsPath : Source → Prop
  | .void => True
  | .value (.path p) => t.fits p = true
  | _ => False

/-- What is kept of an object that was made from an element, where some objects that it has as parts
may still owe their places. -/
structure ObjectMeets (owed : ObjectId → Prop) (s : Stage φ) (o : Object) (e : Element) : Prop where
  parts : ∀ part ∈ o.parts, part < s.world.objects.length ∧ (owed part ∨ t.Placed s part)
  reference : ∀ r, o.reference = some r → t.known r.location = true
  paths : ∀ name ∈ pathFields, ∀ source, o.fields.find? name = some source → t.HoldsPath source
  unmixed : t.mixes = true ∨ e.isMixed = false
  source : t.mixes = true ∨ e.givesSource = true ∨
    ∀ source, o.fields.find? "srcfile" = some source → source = .void
  mapper : t.mixes = true ∨ e.nestsMapper = true ∨
    ∀ part ∈ o.parts, s.world.isA part Standard.mapper = false

/-- What is kept of something that stands in a target. -/
structure InvocationMeets (s : Stage φ) (i : Invocation) : Prop where
  welcome : ∀ e, i.element = some e → t.Welcomes e
  object : ∀ id, i.object = some id → t.Placed s id
  origin : ∀ id e, i.object = some id → i.element = some e → s.element id = e

/-- What is kept of a project. -/
structure ProjectMeets (s : Stage φ) (p : Project) : Prop where
  directory : t.fits p.directory = true
  source : ∀ e, p.source = some e → t.Welcomes e
  references : ∀ name id, p.references.get? name = some id → t.Placed s id
  invocations : ∀ name target, p.target? name = some target →
    ∀ i ∈ target.invocations, t.InvocationMeets s i

/-- What is kept of a world, where some objects may still owe their places. -/
structure MeetsBut (owed : ObjectId → Prop) (s : Stage φ) : Prop where
  kinds : s.world.kinds.IsExtended
  object : ∀ id, t.ObjectMeets owed s (s.world.object id) (s.element id)
  project : ∀ id, t.ProjectMeets s (s.world.project id)

/-- What is kept of a world. -/
abbrev Meets (s : Stage φ) : Prop := t.MeetsBut (fun _ => False) s

/-- What stays when a build goes on: objects keep their kinds, the elements from which they were
made and their places, and no kind becomes one of another sort. -/
structure Later (s s' : Stage φ) : Prop where
  objects_le : s.world.objects.length ≤ s'.world.objects.length
  element : ∀ id < s.world.objects.length, s'.element id = s.element id
  kind : ∀ id < s.world.objects.length, (s'.world.object id).kind = (s.world.object id).kind
  located : ∀ id < s.world.objects.length, t.known (s.world.object id).location = true →
    t.known (s'.world.object id).location = true
  isA : ∀ (id : KindId) (kind : Standard), kind ≠ .object →
    (s'.world.kinds.get id).isA kind = (s.world.kinds.get id).isA kind

variable {t}

namespace Later

variable {s s' s'' : Stage φ} {id : ObjectId}

theorem refl (t : Terms φ) (s : Stage φ) : t.Later s s :=
  ⟨Nat.le_refl _, fun _ _ => rfl, fun _ _ => rfl, fun _ _ known => known, fun _ _ _ => rfl⟩

theorem trans (first : t.Later s s') (second : t.Later s' s'') : t.Later s s'' where
  objects_le := Nat.le_trans first.objects_le second.objects_le
  element id present := by
    have still := Nat.lt_of_lt_of_le present first.objects_le
    rw [second.element id still, first.element id present]
  kind id present := by
    have still := Nat.lt_of_lt_of_le present first.objects_le
    rw [second.kind id still, first.kind id present]
  located id present known := by
    have still := Nat.lt_of_lt_of_le present first.objects_le
    exact second.located id still (first.located id present known)
  isA id kind proper := (second.isA id kind proper).trans (first.isA id kind proper)

/-- An object is of the same sort as before. -/
theorem isA_object (step : t.Later s s') (present : id < s.world.objects.length) {kind : Standard}
    (proper : kind ≠ .object) : s'.world.isA id kind = s.world.isA id kind := by
  unfold World.isA World.kindOf
  rw [step.kind id present, step.isA _ _ proper]

end Later

variable {s s' : Stage φ} {id : ObjectId}

theorem Located.later (located : t.Located s id) (step : t.Later s s') : t.Located s' id :=
  ⟨Nat.lt_of_lt_of_le located.1 step.objects_le, step.located id located.1 located.2⟩

theorem Placed.later (placed : t.Placed s id) (step : t.Later s s') : t.Placed s' id := by
  refine ⟨Nat.lt_of_lt_of_le placed.1 step.objects_le, ?_⟩
  intro component
  have same : (s'.world.kindOf id).isComponent = (s.world.kindOf id).isComponent :=
    step.isA_object placed.1 (by decide)
  exact step.located id placed.1 (placed.2 (same ▸ component))

theorem Placed.located (placed : t.Placed s id)
    (component : (s.world.kindOf id).isComponent = true) : t.Located s id :=
  ⟨placed.1, placed.2 component⟩

theorem MeetsBut.part {part : ObjectId} (meets : t.Meets s)
    (member : part ∈ (s.world.object id).parts) : t.Placed s part :=
  ((meets.object id).parts part member).2.resolve_left not_false

theorem ObjectMeets.later {owed : ObjectId → Prop} {o : Object} {e : Element}
    (meets : t.ObjectMeets owed s o e) (step : t.Later s s') : t.ObjectMeets owed s' o e where
  parts part member := by
    obtain ⟨present, placed⟩ := meets.parts part member
    exact ⟨Nat.lt_of_lt_of_le present step.objects_le, placed.imp_right (·.later step)⟩
  reference := meets.reference
  paths := meets.paths
  unmixed := meets.unmixed
  source := meets.source
  mapper := by
    apply meets.mapper.imp_right
    apply Or.imp_right
    intro none part member
    rw [step.isA_object (meets.parts part member).1 (by decide)]
    exact none part member

theorem InvocationMeets.later {i : Invocation} (meets : t.InvocationMeets s i)
    (step : t.Later s s') : t.InvocationMeets s' i where
  welcome := meets.welcome
  object id made := (meets.object id made).later step
  origin id e made from_ := by
    rw [step.element id (meets.object id made).1]
    exact meets.origin id e made from_

theorem ProjectMeets.later {p : Project} (meets : t.ProjectMeets s p) (step : t.Later s s') :
    t.ProjectMeets s' p where
  directory := meets.directory
  source := meets.source
  references name id named := (meets.references name id named).later step
  invocations name target found i member := (meets.invocations name target found i member).later step

theorem ProjectMeets.default : t.ProjectMeets s default where
  directory := t.fits_top
  source _ found := nomatch found
  references _ _ found := nomatch found
  invocations name target found i member := by
    unfold Project.target? at found
    split at found
    · cases found
      cases member
    · cases found

end Terms
end BuildEngine
