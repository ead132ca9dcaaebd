import BuildEngine.Proofs.ReadingSoundness
import BuildEngine.Run.Invocation

/-! The work of tasks is sound. Tasks ask the files about paths that they read of their attributes,
about what is joined to a directory, and about what a mapper names: only the last need a directory to
be seen from. What they complain about is said at their own places. -/

namespace BuildEngine

open Engine

variable {φ : Type} [FileSystem φ] {t : Terms φ}

namespace Terms

/-- Paths that may be asked for being there, and for their times. -/
def Asks (t : Terms φ) (p : Path) : Prop := t.fits p = true ∨ t.mixes = true

end Terms

/-! What is asked about files. -/

namespace Staleness

variable {files : φ} {base : Option Path} {mapper : Option Mapper} {derived : Option Path}
variable {sources : List Path}

omit [FileSystem φ] in
theorem agreed_ask {α : Type} {may : Fault → Bool} (error : ∀ e, may (.file e) = true)
    {here there : Except FileError α} (same : there = here) :
    Agreed may (ask here) (ask there) :=
  ⟨by rw [same], .mapError error here⟩

theorem agreed_modified {path : Path} (asks : t.Asks path) :
    Agreed t.tolerates (ask (FileSystem.modified files path))
      (ask (FileSystem.modified (t.move files) path)) :=
  agreed_ask (fun _ => rfl) (t.modified_move files path asks)

theorem agreed_sourcePath {name : Path} (asks : t.Asks ((base.map (·.join name)).getD name)) :
    Agreed t.tolerates (sourcePath files base name) (sourcePath (t.move files) base name) t.Asks := by
  unfold sourcePath
  extract_lets path
  rw [t.contains_move files path asks]
  split
  · exact .ok asks
  · exact .error rfl

theorem agreed_isOlder {derived source : Path} (asks : t.Asks derived) (asksSource : t.Asks source) :
    Agreed t.tolerates (isOlder files derived source) (isOlder (t.move files) derived source) := by
  unfold isOlder
  rw [t.contains_move files derived asks]
  split
  · exact .ok trivial
  · apply (agreed_modified asks).bind
    intro written _
    apply (agreed_modified asksSource).bind
    intro changed _
    exact .ok trivial

theorem agreed_isAnyOlder {source : Path} (asksSource : t.Asks source) (derived : List Path)
    (asks : ∀ path ∈ derived, t.Asks path) :
    Agreed t.tolerates (isAnyOlder files source derived)
      (isAnyOlder (t.move files) source derived) := by
  induction derived with
  | nil => exact .ok trivial
  | cons path rest ih =>
    unfold isAnyOlder
    apply (agreed_isOlder (asks path List.mem_cons_self) asksSource).bind
    intro older _
    split
    · exact .ok trivial
    · exact ih fun path later => asks path (List.mem_cons_of_mem _ later)

/-- What a mapper names is seen from the directory of the sources; without one, it may be anything. -/
theorem agreed_staleSources (mapper : Mapper)
    (within : t.mixes = true ∨ ∃ directory, base = some directory ∧ t.fits directory = true)
    (sources : List Path) :
    Agreed t.tolerates (staleSources files mapper base none sources)
      (staleSources (t.move files) mapper base none sources) := by
  have asks (name : Path) : t.Asks ((base.map (·.join name)).getD name) := by
    rcases within with mixes | ⟨directory, rfl, fits⟩
    · exact .inr mixes
    · exact .inl (t.fits_join directory name (.inl fits))
  induction sources with
  | nil => exact .ok trivial
  | cons name rest ih =>
    unfold staleSources
    apply (agreed_sourcePath (asks name)).bind
    intro source asksSource
    extract_lets root derived
    have asksDerived : ∀ path ∈ derived, t.Asks path := by
      intro path member
      obtain ⟨other, _, rfl⟩ := List.mem_map.mp member
      exact asks (.ofString other)
    apply (agreed_isAnyOlder asksSource derived asksDerived).bind
    intro stale _
    apply ih.bind
    intro others _
    exact .ok trivial

theorem agreed_isAnyNewer (time : Number.Binary64) (sources : List Path)
    (asks : ∀ path ∈ sources, t.Asks path) :
    Agreed t.tolerates (isAnyNewer files time sources)
      (isAnyNewer (t.move files) time sources) := by
  induction sources with
  | nil => exact .ok trivial
  | cons source rest ih =>
    unfold isAnyNewer
    apply (agreed_modified (asks source List.mem_cons_self)).bind
    intro written _
    split
    · exact .ok trivial
    · exact ih fun path later => asks path (List.mem_cons_of_mem _ later)

/-- Whether files are up to date does not depend on the directory of the run, if there is a directory
from which names are seen, or the sources are paths of their own and no mapper names others. -/
theorem agreed_isUpToDate (derivedFits : ∀ path, derived = some path → t.fits path = true)
    (sees : t.mixes = true ∨ (∃ directory, base = some directory ∧ t.fits directory = true) ∨
      mapper = none ∧ base = none ∧ ∀ name ∈ sources, t.fits name = true) :
    Agreed t.tolerates (isUpToDate files derived mapper base sources)
      (isUpToDate (t.move files) derived mapper base sources) := by
  unfold isUpToDate
  split
  · have within : t.mixes = true ∨ ∃ directory, base = some directory ∧ t.fits directory = true := by
      rcases sees with mixes | within | ⟨none, _⟩
      · exact .inl mixes
      · exact .inr within
      · cases none
    exact (agreed_staleSources _ within sources).map _ fun _ _ => trivial
  · exact .error rfl
  · rename_i path
    have asks : t.Asks path := .inl (derivedFits path rfl)
    have asksSource (name : Path) (member : name ∈ sources) :
        t.Asks ((base.map (·.join name)).getD name) := by
      rcases sees with mixes | ⟨directory, rfl, fits⟩ | ⟨_, rfl, fit⟩
      · exact .inr mixes
      · exact .inl (t.fits_join directory name (.inl fits))
      · exact .inl (fit name member)
    rw [t.contains_move files path asks]
    split
    · exact .ok trivial
    · have paths : Agreed t.tolerates (sources.mapM (sourcePath files base))
          (sources.mapM (sourcePath (t.move files) base)) fun paths =>
            ∀ path ∈ paths, t.Asks path :=
        .mapM _ fun name member => agreed_sourcePath (asksSource name member)
      apply paths.bind
      intro paths asksPaths
      apply (agreed_modified asks).bind
      intro time _
      apply (agreed_isAnyNewer time paths asksPaths).bind
      intro newer _
      exact .ok trivial

end Staleness

namespace Terms

variable {s : Stage φ} {id : ObjectId} {name : String}

/-! What all tasks share. -/

section Shared

theorem sees_projectOf {may : Fault → Bool} : t.Sees may s (projectOf id) := by
  apply sees_object.bind
  intro o _
  exact .observe rfl trivial

theorem sees_absolutePath {may : Fault → Bool} {path : Path} (fits : t.fits path = true) :
    t.Sees may s (absolutePath path) :=
  .observe (t.join_look _ path fits) trivial

theorem sees_isDirectory {may : Fault → Bool} {path : Path} (fits : t.fits path = true) :
    t.Sees may s (isDirectory path) :=
  .observe (t.isDirectory_move _ path fits) trivial

theorem sees_isThere {may : Fault → Bool} {path : Path} (fits : t.fits path = true) :
    t.Sees may s (observe fun w => FileSystem.contains w.files path) :=
  .observe (t.contains_move _ path (.inl fits)) trivial

theorem sees_entryAt {may : Fault → Bool} {path : Path} (fits : t.fits path = true) :
    t.Sees may s (entryAt path) :=
  (sees_isDirectory fits).bind fun _ _ => .pure trivial

variable (located : t.Located s id)
include located

/-- A task complains at its own place. -/
theorem sees_reject {α : Type} {wanted : α → Prop} (problem : Problem) :
    t.Sees t.allows s (reject id problem) wanted := by
  apply sees_object.bind
  rintro o rfl
  exact .throw (t.allows_faultAt located.2 problem)

/-- A task fails at its own place. -/
theorem sees_failTask {α : Type} {wanted : α → Prop} (message : String) :
    t.Sees t.allows s (failTask id message) wanted := by
  apply sees_object.bind
  rintro o rfl
  exact .throw (t.allows_failure located.2 message)

theorem sees_rejectIf (holds : Bool) (problem : Problem) :
    t.Sees t.allows s (rejectIf id holds problem) := by
  unfold rejectIf
  split
  · exact sees_reject located problem
  · exact .pure trivial

theorem sees_checkPolicy : t.Sees t.allows s (checkPolicy id) := by
  unfold checkPolicy
  apply sees_flagOf.bind
  intro quiet _
  split
  · apply sees_flagOf.bind
    intro strict _
    split
    · exact sees_reject located _
    · exact .pure trivial
  · exact .pure trivial

variable (meets : t.Meets s)
include meets

/-- What comes after a rejection does not matter. -/
theorem runs_reject_bind {α β : Type} {wanted : Stage φ → β → Prop} {next : α → Engine φ β}
    (problem : Problem) : t.Runs t.allows s (reject id problem >>= next) wanted := by
  have never : t.Sees t.allows s (reject id problem) fun _ : α => False :=
    sees_reject located problem
  apply Runs.look never meets
  exact fun _ never => never.elim

theorem sound_tolerate (message : String) : t.Sound t.allows s (tolerate id message) := by
  unfold tolerate
  apply Runs.look sees_object meets
  intro o _
  apply Runs.look sees_flagOf meets
  intro strict _
  apply Runs.look (sees_project _) meets
  intro p _
  split
  · exact (sees_failTask located message).sound meets
  apply Runs.look sees_flagOf meets
  intro quiet _
  split
  · exact sound_logOf meets _ _
  apply (sound_logOf meets _ _).bind
  intro s₁ _ _ meets _
  apply Runs.look sees_isSet meets
  intro given _
  split
  · apply Runs.look sees_textOf meets
    intro name _
    apply (sound_setProperty meets _ name _ _).bind
    intro s₂ _ _ meets _
    exact Runs.pure ⟨meets, trivial⟩
  · exact Runs.pure ⟨meets, trivial⟩

omit located in
/-- The lists and the mappers of a task are at known places. -/
theorem located_part {kind : Standard} {part : ObjectId}
    (component : (Kinds.standard.get kind).isComponent = true)
    (member : part ∈ (s.world.object id).parts.filter fun part => s.world.isA part kind) :
    t.Located s part ∧ (s.world.kindOf part).isComponent = true := by
  obtain ⟨nested, derived⟩ := List.mem_filter.mp member
  exact ⟨(meets.part nested).located_of_isA meets derived component,
    isComponent_of_isA meets derived component⟩

end Shared

/-! The small tasks. -/

section Small

variable (meets : t.Meets s)
include meets

theorem sound_echo : t.Sound t.allows s (echo id) := by
  unfold echo
  apply Runs.look sees_textOf meets
  intro message _
  apply Runs.look sees_isSet meets
  intro toFile _
  split
  · apply Runs.look (.consultAgreed ((agreed_read s id "level").mapped _)) meets
    intro level _
    apply (sound_logOf meets _ _).bind
    intro s' _ _ meets _
    exact Runs.pure ⟨meets, trivial⟩
  · apply Runs.look (sees_pathOf meets (by decide)) meets
    intro path fits
    apply Runs.look sees_flagOf meets
    intro append _
    have writes (before : ByteArray) : t.Sound t.allows s (do
        changeFiles (φ := φ) fun files => FileSystem.write files path (before ++ message.toUTF8)
        return (none : Option TaskStatus)) := by
      apply (sound_changeFiles meets (t.write_move _ path _ fits)).bind
      intro s' _ _ meets _
      exact Runs.pure ⟨meets, trivial⟩
    apply Runs.look (sees_isThere fits) meets
    intro present _
    split
    · apply Runs.look (sees_readFiles (t.read_move _ path fits) fun _ _ => trivial) meets
      intro before _
      exact writes before
    · exact writes _

theorem sound_touch : t.Sound t.allows s (touch id) := by
  unfold touch
  apply Runs.look sees_isSet meets
  intro given _
  extract_lets touchAt
  have touches (time : Option Number.Binary64) : t.Sound t.allows s (touchAt time) := by
    apply Runs.look (sees_pathOf meets (by decide)) meets
    intro path fits
    apply (sound_logOf meets _ _).bind
    intro s₁ _ _ meets _
    apply (sound_changeFiles meets (t.touch_move _ path time fits)).bind
    intro s₂ _ _ meets _
    exact Runs.pure ⟨meets, trivial⟩
  split
  · apply Runs.look sees_readField meets
    intro millis _
    split
    · exact touches _
    · exact Runs.throw rfl meets
  · exact touches _

variable (located : t.Located s id)
include located

theorem sound_fail : t.Sound t.allows s (fail id) := by
  unfold fail
  apply Runs.look sees_projectOf meets
  intro p _
  extract_lets properties failing otherwise
  have fails : t.Sound t.allows s (failing ()) := by
    apply Runs.look sees_textOf meets
    intro message _
    exact (sees_failTask located _).sound meets
  have goesOn : t.Sound t.allows s (otherwise ()) := by
    apply Runs.look sees_isSet meets
    intro given _
    split
    · apply Runs.look sees_textOf meets
      intro name _
      split
      · exact Runs.pure ⟨meets, trivial⟩
      · exact fails
    · exact fails
  apply Runs.look sees_isSet meets
  intro given _
  split
  · apply Runs.look sees_textOf meets
    intro name _
    split
    · exact Runs.pure ⟨meets, trivial⟩
    · exact goesOn
  · exact goesOn

theorem sound_defineProperty : t.Sound t.allows s (defineProperty id) := by
  unfold defineProperty
  apply Runs.look sees_textOf meets
  intro name _
  apply Runs.look sees_isSet meets
  intro byValue _
  apply Runs.look sees_isSet meets
  intro byLocation _
  extract_lets store choose
  have stores (value : String) : t.Sound t.allows s (store value) := by
    apply Runs.look sees_flagOf meets
    intro override _
    apply Runs.look sees_object meets
    intro o _
    apply (sound_setProperty meets _ name value override).bind
    intro s₁ stored _ meets _
    split
    · apply (sound_logOf meets _ _).bind
      intro s₂ _ _ meets _
      exact Runs.pure ⟨meets, trivial⟩
    · exact Runs.pure ⟨meets, trivial⟩
  have chooses : t.Sound t.allows s (choose ()) := by
    unfold choose
    split
    · apply Runs.look sees_textOf meets
      intro value _
      exact stores value
    · apply Runs.look (sees_pathOf meets (by decide)) meets
      intro path fits
      apply Runs.look (sees_absolutePath fits) meets
      intro absolute _
      exact stores absolute.text
  split
  · apply Runs.look sees_describe meets
    intro described _
    exact runs_reject_bind located meets _
  · exact chooses

end Small

/-! Deleting. What is deleted lies where the files may be asked about it: it was read of an
attribute, listed in such a directory, or joined to one. -/

section Delete

/-- The directories above a path lie in the base. -/
theorem admissible_directoriesBetween {base : Path} (fits : t.fits base = true)
    (path : Path) : Admissible t.allows (directoriesBetween base path) fun above =>
      ∀ p ∈ above, t.fits p = true := by
  unfold directoriesBetween
  split
  · intro p member
    obtain ⟨_, _, rfl⟩ := List.mem_map.mp member
    exact t.fits_join base _ (.inl fits)
  · rfl

variable (meets : t.Meets s) (located : t.Located s id)
include meets located

theorem sound_deleteEntry {path : Path} (fits : t.fits path = true) (entry : Entry) :
    t.Sound t.allows s (deleteEntry tolerate id path entry) := by
  unfold deleteEntry
  apply Runs.look sees_flagOf meets
  intro verbose _
  extract_lets level
  apply (sound_logOf meets _ _).bind
  intro s₁ _ step₁ meets _
  apply (sound_changeFiles meets (t.delete_move _ path fits)).attempt.bind
  intro s₂ result step₂ meets ended
  have there := (located.later step₁).later step₂
  split
  · exact Runs.pure ⟨meets, trivial⟩
  · apply (sound_tolerate there meets _).bind
    intro s₃ _ _ meets _
    exact Runs.pure ⟨meets, trivial⟩
  · exact Runs.throw ended meets

theorem sound_deleteBelow (levels : Nat) {path : Path} (fits : t.fits path = true) :
    t.Sound t.allows s (deleteBelow tolerate id levels path) := by
  induction levels generalizing s path with
  | zero => exact Runs.pure ⟨meets, trivial⟩
  | succ levels ih =>
    unfold deleteBelow
    apply Runs.look (sees_readFiles (t.children_move _ path fits)
      fun found listed => t.children_fit _ path found fits listed) meets
    intro children fit
    refine (Sound.forIn children _ meets ?_).bind fun s' _ _ meets _ => Runs.pure ⟨meets, trivial⟩
    intro s₁ child _ step meets member
    have there := located.later step
    apply Runs.look (sees_isDirectory (fit child member)) meets
    intro isDirectory _
    extract_lets delete
    have deletes (s₂ : Stage φ) (further : t.Later s₁ s₂) (meets : t.Meets s₂) :
        t.Sound t.allows s₂ (delete ()) := by
      apply Runs.look (sees_entryAt (fit child member)) meets
      intro entry _
      apply (sound_deleteEntry meets (there.later further) (fit child member) entry).bind
      intro s₃ _ _ meets _
      exact Runs.pure ⟨meets, trivial⟩
    split
    · apply (ih meets there (fit child member)).bind
      intro s₂ _ further meets _
      exact deletes s₂ further meets
    · exact deletes s₁ (.refl t s₁) meets

theorem sound_deleteDirectory {path : Path} (fits : t.fits path = true) :
    t.Sound t.allows s (deleteDirectory tolerate id path) := by
  unfold deleteDirectory
  apply Runs.look (sees_isDirectory fits) meets
  intro isDirectory _
  split
  · apply Runs.look (sees_absolutePath fits) meets
    intro absolute _
    exact sound_tolerate located meets _
  · have depth : t.Sees t.allows s (observe fun w => FileSystem.depth w.files) :=
      .observe (t.depth_move _) trivial
    apply Runs.look depth meets
    intro levels _
    apply (sound_deleteBelow meets located levels fits).bind
    intro s₁ _ step meets _
    apply (sound_deleteEntry meets (located.later step) fits _).bind
    intro s₂ _ _ meets _
    exact Runs.pure ⟨meets, trivial⟩

theorem sound_deleteFile {path : Path} (fits : t.fits path = true) :
    t.Sound t.allows s (deleteFile tolerate id path) := by
  unfold deleteFile
  apply Runs.look (sees_isThere fits) meets
  intro present _
  split
  · apply Runs.look (sees_absolutePath fits) meets
    intro absolute _
    exact sound_tolerate located meets _
  · apply Runs.look (sees_isDirectory fits) meets
    intro isDirectory _
    split
    · exact sound_logOf meets _ _
    · apply (sound_deleteEntry meets located fits _).bind
      intro s₁ _ _ meets _
      exact Runs.pure ⟨meets, trivial⟩

theorem sound_deleteEmpty (paths : List Path) (fit : ∀ path ∈ paths, t.fits path = true) :
    t.Sound t.allows s (deleteEmpty tolerate id paths) := by
  induction paths generalizing s with
  | nil => exact Runs.pure ⟨meets, trivial⟩
  | cons path rest ih =>
    have fits := fit path List.mem_cons_self
    unfold deleteEmpty
    apply Runs.look (sees_isDirectory fits) meets
    intro isDirectory _
    extract_lets count deleteIf
    have counts (s₁ : Stage φ) (step : t.Later s s₁) (meets : t.Meets s₁) (deleted : Bool) :
        t.Sound t.allows s₁ (count deleted) := by
      apply (ih meets (located.later step) fun path later =>
        fit path (List.mem_cons_of_mem _ later)).bind
      intro s₂ _ _ meets _
      exact Runs.pure ⟨meets, trivial⟩
    have deletes (isEmpty : Bool) : t.Sound t.allows s (deleteIf isEmpty) := by
      unfold deleteIf
      split
      · apply (sound_deleteEntry meets located fits _).bind
        intro s₁ deleted step meets _
        exact counts s₁ step meets deleted
      · exact counts s (.refl t s) meets false
    split
    · apply Runs.look (sees_readFiles (t.children_move _ path fits) fun _ _ => trivial) meets
      intro children _
      exact deletes children.isEmpty
    · exact deletes false

theorem sound_deleteNamed {base : Path} (fits : t.fits base = true) (names : List String) :
    t.Sound t.allows s (deleteNamed tolerate id base names) fun _ above =>
      ∀ p ∈ above, t.fits p = true := by
  induction names generalizing s with
  | nil => exact Runs.pure ⟨meets, by simp⟩
  | cons name rest ih =>
    unfold deleteNamed
    extract_lets path goOn
    have within : t.fits path = true := t.fits_join base _ (.inl fits)
    have goesOn (s₁ : Stage φ) (step : t.Later s s₁) (meets : t.Meets s₁) :
        t.Sound t.allows s₁ (goOn ()) fun _ above => ∀ p ∈ above, t.fits p = true := by
      have between : t.Sees t.allows s₁ (consult fun _ => directoriesBetween base path)
          fun above => ∀ p ∈ above, t.fits p = true :=
        .consult rfl (admissible_directoriesBetween fits path)
      apply Runs.look between meets
      intro above fit
      apply (ih meets (located.later step)).bind
      intro s₂ others _ meets fitOthers
      apply Runs.pure
      refine ⟨meets, ?_⟩
      intro p member
      rcases List.mem_append.mp (List.mem_eraseDups.mp member) with own | other
      · exact fit p own
      · exact fitOthers p other
    apply Runs.look (sees_isThere within) meets
    intro present _
    apply Runs.look (sees_isDirectory within) meets
    intro isDirectory _
    split
    · apply (sound_deleteEntry meets located within _).bind
      intro s₁ _ step meets _
      exact goesOn s₁ step meets
    · exact goesOn s (.refl t s) meets

theorem sound_deleteList {list : ObjectId} (there : t.Located s list)
    (component : (s.world.kindOf list).isComponent = true) :
    t.Sound t.allows s (deleteList tolerate id list) := by
  unfold deleteList
  apply Runs.look (.consultAgreed (agreed_listDirectory meets there component)) meets
  intro base fits
  apply Runs.look (.consultAgreed (agreed_listFiles meets there component)) meets
  intro names _
  apply (sound_logOf meets _ _).bind
  intro s₁ _ step₁ meets _
  apply (sound_deleteNamed meets (located.later step₁) fits names).bind
  intro s₂ directories step₂ meets fit
  apply Runs.look sees_flagOf meets
  intro alsoEmpty _
  split
  · have still := (located.later step₁).later step₂
    apply (sound_deleteEmpty meets still _ fun p member =>
      fit p (List.mem_mergeSort.mp member)).bind
    intro s₃ count _ meets _
    split
    · exact sound_logOf meets _ _
    · exact Runs.pure ⟨meets, trivial⟩
  · exact Runs.pure ⟨meets, trivial⟩

theorem sound_deleteGivenFile (given : Bool) :
    t.Sound t.allows s (deleteGivenFile tolerate id given) := by
  unfold deleteGivenFile
  split
  · apply Runs.look (sees_pathOf meets (by decide)) meets
    intro path fits
    exact sound_deleteFile meets located fits
  · exact Runs.pure ⟨meets, trivial⟩

theorem sound_deleteGivenDirectory (given : Bool) :
    t.Sound t.allows s (deleteGivenDirectory tolerate id given) := by
  unfold deleteGivenDirectory
  split
  · apply Runs.look (sees_pathOf meets (by decide)) meets
    intro path fits
    exact sound_deleteDirectory meets located fits
  · exact Runs.pure ⟨meets, trivial⟩

theorem sound_deleteLists {lists : List ObjectId}
    (there : ∀ list ∈ lists, t.Located s list ∧ (s.world.kindOf list).isComponent = true) :
    t.Sound t.allows s (deleteLists tolerate id lists) := by
  refine (Sound.forIn _ _ meets ?_).bind fun s' _ _ meets _ => Runs.pure ⟨meets, trivial⟩
  intro s₁ list _ onward meets₁ member
  obtain ⟨known, sort⟩ := there list member
  have component : (s₁.world.kindOf list).isComponent = true :=
    (onward.isA_object known.1 (by decide)).trans sort
  apply (sound_deleteList meets₁ (located.later onward) (known.later onward) component).attempt.bind
  intro s₂ result later meets₂ ended
  split
  · exact Runs.pure ⟨meets₂, trivial⟩
  · apply (sound_tolerate (located.later (onward.trans later)) meets₂ _).bind
    intro s₃ _ _ meets₃ _
    exact Runs.pure ⟨meets₃, trivial⟩
  · exact Runs.throw ended meets₂

theorem sound_delete : t.Sound t.allows s (delete tolerate id) := by
  rw [delete_eq]
  apply Runs.look (sees_partsOf _) meets
  rintro lists rfl
  apply Runs.look sees_isSet meets
  intro file _
  apply Runs.look sees_isSet meets
  intro directory _
  apply Runs.look (sees_rejectIf located _ _) meets
  intro _ _
  apply Runs.look (sees_checkPolicy located) meets
  intro _ _
  apply (sound_deleteGivenFile meets located file).bind
  intro s₁ _ step₁ meets₁ _
  apply (sound_deleteGivenDirectory meets₁ (located.later step₁) directory).bind
  intro s₂ _ step₂ meets₂ _
  have onward := step₁.trans step₂
  apply sound_deleteLists meets₂ (located.later onward)
  intro list member
  obtain ⟨known, sort⟩ := located_part meets (by decide +kernel) member
  exact ⟨known.later onward, (onward.isA_object known.1 (by decide)).trans sort⟩

end Delete

/-! Asking whether files are current. -/

section UpToDate

theorem sees_isAbsent {derived : Option Path}
    (fits : ∀ path, derived = some path → t.fits path = true) :
    t.Sees t.allows s (isAbsent derived) := by
  cases derived with
  | some path =>
    exact .observe (congrArg Bool.not (t.contains_move _ path (.inl (fits path rfl)))) trivial
  | none => exact .pure trivial

theorem sees_isUpToDate {derived : Option Path} {mapper : Option Mapper} {base : Option Path}
    {sources : List Path} (fits : ∀ path, derived = some path → t.fits path = true)
    (asks : t.mixes = true ∨ (∃ directory, base = some directory ∧ t.fits directory = true) ∨
      mapper = none ∧ base = none ∧ ∀ name ∈ sources, t.fits name = true) :
    t.Sees t.tolerates s (consult fun w =>
      Staleness.isUpToDate w.files derived mapper base sources) :=
  .consultAgreed (Staleness.agreed_isUpToDate fits asks)

variable (meets : t.Meets s)
include meets

theorem sees_areListsCurrent {derived : Option Path} {mapper : Option Mapper}
    (fits : ∀ path, derived = some path → t.fits path = true) (lists : List ObjectId)
    (there : ∀ list ∈ lists, t.Located s list ∧ (s.world.kindOf list).isComponent = true) :
    t.Sees t.tolerates s (areListsCurrent derived mapper lists) := by
  induction lists with
  | nil => exact .pure trivial
  | cons list rest ih =>
    obtain ⟨located, component⟩ := there list List.mem_cons_self
    have names : t.Sees t.allows s (consult (·.listFiles list)) :=
      .consultAgreed (agreed_listFiles meets located component)
    have directory : t.Sees t.allows s (consult (·.listDirectory list)) fun p => t.fits p = true :=
      .consultAgreed (agreed_listDirectory meets located component)
    unfold areListsCurrent
    apply (names.imp (fun _ holds => holds) t.tolerates_of_allows).bind
    intro names _
    apply (directory.imp (fun _ holds => holds) t.tolerates_of_allows).bind
    intro base within
    extract_lets sources
    apply (sees_isUpToDate fits (.inr (.inl ⟨base, rfl, within⟩))).bind
    intro current _
    split
    · exact ih fun list later => there list (List.mem_cons_of_mem _ later)
    · exact .pure trivial

theorem sees_derivedPath (byTarget : Bool) :
    t.Sees t.allows s (derivedPath id byTarget) fun derived =>
      ∀ path, derived = some path → t.fits path = true := by
  unfold derivedPath
  split
  · apply (sees_pathOf meets (by decide)).map some
    rintro path fits _ ⟨⟩
    exact fits
  · exact .pure nofun

theorem sees_firstMapper {mappers : List ObjectId}
    (there : ∀ m ∈ mappers, t.Located s m ∧ (s.world.kindOf m).isComponent = true) :
    t.Sees t.allows s (firstMapper mappers) fun mapper => mappers = [] → mapper = none := by
  cases mappers with
  | nil => exact .pure fun _ => rfl
  | cons m _ =>
    obtain ⟨located, component⟩ := there m List.mem_cons_self
    exact Sees.map some (.consultAgreed (agreed_mapper meets located component)) fun _ _ => nofun

/-- Where a single source is compared, either no mapper is asked or the element of the task mixes
both. -/
theorem sees_areSourcesCurrent {lists : List ObjectId} {bySource : Bool} {derived : Option Path}
    {mapper : Option Mapper} (fits : ∀ path, derived = some path → t.fits path = true)
    (listed : ∀ list ∈ lists, t.Located s list ∧ (s.world.kindOf list).isComponent = true)
    (unmixed : bySource = true → mapper = none ∨ t.mixes = true) :
    t.Sees t.tolerates s (areSourcesCurrent id lists bySource derived mapper) := by
  unfold areSourcesCurrent
  apply (sees_areListsCurrent meets fits lists listed).bind
  intro current _
  split
  · exact .pure trivial
  split
  · exact .pure trivial
  · rename_i given
    apply ((sees_pathOf meets (by decide)).imp (fun _ holds => holds) t.tolerates_of_allows).bind
    intro source fitsSource
    apply sees_isUpToDate fits
    rcases unmixed (by simpa using given) with none | mixes
    · exact .inr (.inr ⟨none, rfl, by simpa using fitsSource⟩)
    · exact .inl mixes

/-- A task with a source file and a mapper was made from an element that mixes them. -/
theorem mixes_of_source_of_mapper (source : s.world.isSet id "srcfile" = true)
    {m : ObjectId} (member : m ∈ (s.world.object id).parts)
    (derived : s.world.isA m Standard.mapper = true) : t.mixes = true := by
  have kept := meets.object id
  rcases kept.unmixed with mixes | unmixed
  · exact mixes
  rcases kept.source with mixes | givesSource | none
  · exact mixes
  · rcases kept.mapper with mixes | nestsMapper | none
    · exact mixes
    · simp [Element.isMixed, givesSource, nestsMapper] at unmixed
    · rw [none m member] at derived
      cases derived
  · unfold World.isSet at source
    cases found : (s.world.object id).fields.find? "srcfile" with
    | none =>
      rw [found] at source
      cases source
    | some held =>
      rw [found, none held found] at source
      cases source

variable (located : t.Located s id)
include located

theorem sees_checkSource (bySource : Bool) : t.Sees t.allows s (checkSource id bySource) := by
  unfold checkSource
  split
  · apply (sees_pathOf meets (by decide)).bind
    intro source fits
    apply (sees_isThere fits).bind
    intro present _
    apply (sees_absolutePath fits).bind
    intro absolute _
    exact sees_rejectIf located _ _
  · exact .pure trivial

theorem sees_isDerivedCurrent {lists mappers : List ObjectId} {bySource : Bool}
    {derived : Option Path} (fits : ∀ path, derived = some path → t.fits path = true)
    (listed : ∀ list ∈ lists, t.Located s list ∧ (s.world.kindOf list).isComponent = true)
    (maps : ∀ m ∈ mappers, t.Located s m ∧ (s.world.kindOf m).isComponent = true)
    (mixes : bySource = true → mappers ≠ [] → t.mixes = true) :
    t.Sees t.allows s (isDerivedCurrent id lists mappers bySource derived) := by
  unfold isDerivedCurrent
  apply (sees_isAbsent fits).bind
  intro absent _
  split
  · exact .pure trivial
  apply (sees_checkSource meets located bySource).bind
  intro _ _
  apply (sees_firstMapper meets maps).bind
  intro mapper found
  apply sees_object.bind
  rintro o rfl
  apply Sees.locating located.2
  apply sees_areSourcesCurrent meets fits listed
  intro given
  by_cases none : mappers = []
  · exact .inl (found none)
  · exact .inr (mixes given none)

theorem sees_isCurrent : t.Sees t.allows s (isCurrent id) := by
  rw [isCurrent_eq]
  apply (sees_partsOf _).bind
  rintro lists rfl
  apply (sees_partsOf _).bind
  rintro mappers rfl
  apply sees_isSet.bind
  intro bySource given
  apply sees_isSet.bind
  intro byTarget _
  apply (sees_rejectIf located _ _).bind
  intro _ _
  apply (sees_rejectIf located _ _).bind
  intro _ _
  apply (sees_rejectIf located _ _).bind
  intro _ _
  apply (sees_derivedPath meets byTarget).bind
  intro derived fits
  apply sees_isDerivedCurrent meets located fits
  · exact fun list => located_part meets (by decide +kernel)
  · exact fun m => located_part meets (by decide +kernel)
  · intro isGiven nests
    obtain ⟨m, member⟩ := List.exists_mem_of_ne_nil _ nests
    obtain ⟨nested, isMapper⟩ := List.mem_filter.mp member
    exact mixes_of_source_of_mapper meets (given ▸ isGiven) nested isMapper

theorem sound_checkUpToDate : t.Sound t.allows s (checkUpToDate id) := by
  unfold checkUpToDate
  apply Runs.look sees_textOf meets
  intro name _
  apply Runs.look (sees_isCurrent meets located) meets
  intro current _
  split
  · exact Runs.pure ⟨meets, trivial⟩
  apply Runs.look sees_object meets
  intro o _
  apply Runs.look sees_textOf meets
  intro value _
  apply (sound_setProperty meets _ name value _).bind
  intro s₁ _ _ meets _
  apply Runs.look (sees_partsOf _) meets
  intro mappers _
  split
  · apply Runs.look (sees_pathOf meets (by decide)) meets
    intro path _
    apply (sound_logOf meets _ _).bind
    intro s₂ _ _ meets _
    exact Runs.pure ⟨meets, trivial⟩
  · apply (sound_logOf meets _ _).bind
    intro s₂ _ _ meets _
    exact Runs.pure ⟨meets, trivial⟩

end UpToDate

/-! Definitions. -/

section Definition

variable (meets : t.Meets s)
include meets

theorem sound_kindOfClass (c : ClassName) : t.Sound t.allows s (kindOfClass c) := by
  unfold kindOfClass
  split
  · exact Runs.pure ⟨meets, trivial⟩
  · exact sound_declareKind meets rfl rfl

variable (located : t.Located s id)
include located

theorem sees_definedClass : t.Sees t.allows s (definedClass id) := by
  unfold definedClass
  apply sees_isSet.bind
  intro given _
  extract_lets lookUp
  have looksUp : t.Sees t.allows s (lookUp ()) := by
    apply sees_textOf.bind
    intro name _
    split
    · exact .pure trivial
    · apply sees_describe.bind
      intro owner _
      exact sees_reject located _
  split
  · apply sees_readField.bind
    intro classpath _
    split
    · apply (Sees.consultAgreed (agreed_locations meets _)).bind
      intro _ _
      exact looksUp
    · exact looksUp
  · exact looksUp

theorem sound_define (asTask : Bool) : t.Sound t.allows s (define asTask id) := by
  unfold define
  apply Runs.look sees_textOf meets
  intro name _
  apply Runs.look (sees_definedClass meets located) meets
  intro found _
  extract_lets add
  have adds (s₁ : Stage φ) (step : t.Later s s₁) (meets : t.Meets s₁)
      (change : Registry → Except RegistrationError Registry) : t.Sound t.allows s₁ (add change) := by
    have registers : t.Sound t.allows s₁ (tryCatch (changeRegistry change) fun fault => do
        let owner ← observe (·.describe id)
        reject id (.noRegistration owner fault.message)) := by
      apply (sound_changeRegistry meets change).tryCatch
      intro s₂ fault further meets _
      apply Runs.look sees_describe meets
      intro owner _
      exact (sees_reject (located.later (step.trans further)) _).sound meets
    apply registers.bind
    intro s₂ _ _ meets _
    apply (sound_logOf meets _ _).bind
    intro s₃ _ _ meets _
    exact Runs.pure ⟨meets, trivial⟩
  split
  · split
    · rw [pure_bind]
      exact adds s (.refl t s) meets _
    · rw [pure_bind]
      exact adds s (.refl t s) meets _
  · apply (sound_kindOfClass meets found).bind
    intro s₁ _ step meets _
    rw [pure_bind]
    exact adds s₁ step meets _

end Definition

/-! Whole tasks. -/

section Tasks

variable {caller : Caller φ} (meets : t.Meets s) (located : t.Located s id)
variable (calls : t.Sound t.allows s (caller id))
include meets located calls

/-- Work that a kind has to do is that of a standard one. -/
theorem sound_work : t.Sound t.allows s (work caller id) := by
  unfold work workBy
  apply Runs.look (.observed rfl) meets
  intro performer performs
  split
  · exact Runs.pure ⟨meets, trivial⟩
  · rename_i k
    obtain ⟨kind, standard⟩ := meets.kinds.standard_of_performer? performs.symm
    split
    · rename_i declared
      cases standard.symm.trans declared
    · apply calls.bind
      intro s' _ _ meets _
      exact Runs.pure ⟨meets, trivial⟩
    · exact sound_delete meets located
    · exact sound_echo meets
    · exact sound_fail meets located
    · exact sound_defineProperty meets located
    · exact sound_touch meets
    · exact sound_checkUpToDate meets located
    · apply Runs.look (.observed rfl) meets
      intro asTask _
      exact sound_define meets located asTask
    · exact Runs.pure ⟨meets, trivial⟩

/-- An attribute that is read without having a value is missed at the place of the task. -/
theorem sound_performTask : t.Sound t.allows s (performTask caller id) := by
  unfold performTask
  apply (sound_work meets located calls).attempt.bind
  intro s₁ result step meets ended
  have there := located.later step
  split
  · exact Runs.pure ⟨meets, trivial⟩
  · split
    · apply Runs.look sees_describe meets
      intro described _
      exact (sees_failTask there _).sound meets
    · exact Runs.pure ⟨meets, trivial⟩
  · apply Runs.look sees_describe meets
    intro described _
    split
    · exact (sees_reject there _).sound meets
    · exact (sees_reject there _).sound meets
  · exact Runs.throw ended meets

end Tasks

end Terms
end BuildEngine
