import BuildEngine.Proofs.FileTree
import BuildEngine.Proofs.Inquiry
import BuildEngine.Task.Delete

/-! Removal: files in memory lose some paths and stay as they are otherwise. Deleting something that
holds nothing removes its path and no other; whatever is deleted then, one thing after another, the
removed paths add up. -/

namespace BuildEngine

namespace MemoryFiles

variable {m mid after : MemoryFiles} {gone more : Path → Prop} {path p : Path}

/-- Some paths are gone; everything else that was there is there, files with their content and
time. -/
structure Removes (gone : Path → Prop) (m after : MemoryFiles) : Prop where
  now : after.now = m.now
  files : ∀ p file, after.files.find? p = some file ↔ m.files.find? p = some file ∧ ¬ gone p
  directories : ∀ p, after.isDirectory p = true ↔ m.isDirectory p = true ∧ ¬ gone p

theorem contains_files_iff : m.files.contains p = true ↔ ∃ file, m.files.find? p = some file := by
  rw [Table.contains, Option.isSome_iff_exists]

namespace Removes

theorem refl (m : MemoryFiles) : m.Removes (fun _ => False) m :=
  ⟨rfl, by simp, by simp⟩

theorem isFile_iff (removes : m.Removes gone after) :
    after.files.contains p = true ↔ m.files.contains p = true ∧ ¬ gone p := by
  simp only [contains_files_iff, removes.files, exists_and_right]

theorem contains_iff (removes : m.Removes gone after) :
    after.contains p = true ↔ m.contains p = true ∧ ¬ gone p := by
  rw [MemoryFiles.contains_iff, MemoryFiles.contains_iff, removes.isFile_iff,
    removes.directories, or_and_right]

theorem trans (first : m.Removes gone mid) (second : mid.Removes more after) :
    m.Removes (fun p => gone p ∨ more p) after where
  now := second.now.trans first.now
  files p file := by rw [second.files, first.files, and_assoc, not_or]
  directories p := by rw [second.directories, first.directories, and_assoc, not_or]

/-- Only what is there can be lost. -/
theorem congr (removes : m.Removes gone after)
    (same : ∀ p, m.contains p = true → (gone p ↔ more p)) : m.Removes more after where
  now := removes.now
  files p file := by
    rw [removes.files]
    refine and_congr_right fun found => not_congr (same p ?_)
    exact MemoryFiles.contains_iff.mpr (.inl (contains_files_iff.mpr ⟨file, found⟩))
  directories p := by
    rw [removes.directories]
    refine and_congr_right fun directory => not_congr (same p ?_)
    exact MemoryFiles.contains_iff.mpr (.inr directory)

/-- If what lies below a lost path is lost too, everything still lies in directories. -/
theorem isRooted (removes : m.Removes gone after) (rooted : m.IsRooted)
    (whole : ∀ p q, m.contains p = true → p.isBelow q = true → gone q → gone p) :
    after.IsRooted := by
  intro p q there below
  obtain ⟨old, kept⟩ := removes.contains_iff.mp there
  refine (removes.directories q).mpr ⟨rooted p q old below, fun lost => ?_⟩
  exact kept (whole p q old below lost)

theorem isSeparate (removes : m.Removes gone after) (separate : m.IsSeparate) :
    after.IsSeparate where
  apart p is := by
    rw [← Bool.not_eq_true, removes.directories, separate.apart p (removes.isFile_iff.mp is).1]
    nofun
  bare p q is there :=
    separate.bare p q (removes.isFile_iff.mp is).1 (removes.contains_iff.mp there).1

end Removes

/-- A path that holds nothing has no children. -/
theorem held_eq_nil (bare : ∀ p, m.contains p = true → p.isBelow path = false) :
    m.held path = [] := by
  rw [List.eq_nil_iff_forall_not_mem]
  intro p member
  obtain ⟨there, name, rfl⟩ := mem_held.mp member
  have below : (⟨path.anchor, path.names ++ [name]⟩ : Path).isBelow path = true :=
    Path.isBelow_iff_exists.mpr ⟨name, [], rfl⟩
  rw [bare _ there] at below
  cases below

/-- Whatever is there and holds nothing can be deleted, and nothing else is lost. -/
theorem exists_delete (separate : m.IsSeparate) (there : m.contains path = true)
    (bare : ∀ p, m.contains p = true → p.isBelow path = false) :
    ∃ after, m.delete path = .ok after ∧ m.Removes (· = path) after := by
  cases is : m.files.contains path with
  | true =>
    refine ⟨{ m with files := m.files.erase path }, if_pos is, rfl, fun p file => ?_, fun p => ?_⟩
    · change (m.files.erase path).find? p = some file ↔ _
      rw [Table.find?_erase]
      split
      · rename_i same
        simp [same]
      · rename_i other
        exact (and_iff_left (Ne.symm other)).symm
    · refine ⟨fun directory => ⟨directory, ?_⟩, And.left⟩
      rintro rfl
      have old : m.isDirectory p = true := directory
      rw [separate.apart p is] at old
      cases old
  | false =>
    have directory := (MemoryFiles.contains_iff.mp there).resolve_left (by simp [is])
    refine ⟨{ m with directories := m.directories.filter (· != path) }, ?_, rfl, fun p file => ?_,
      fun p => ?_⟩
    · rw [delete, if_neg (ne_true_of_eq_false is), children_of_isDirectory directory,
        held_eq_nil bare]
    · refine ⟨fun found => ⟨found, ?_⟩, And.left⟩
      rintro rfl
      rw [contains_files_iff.mpr ⟨file, found⟩] at is
      cases is
    · rw [isDirectory_filter, and_comm]

end MemoryFiles

/-- The world without some paths of its files. Nothing else has changed but what was logged. -/
structure World.Without (w : World MemoryFiles) (gone : Path → Prop) (after : World MemoryFiles) :
    Prop where
  files : w.files.Removes gone after.files
  rest : after = { w with files := after.files, logged := after.logged }

/-- An attribute holds a value of its own. -/
def Source.isValue : Source → Bool
  | value _ => true
  | _ => false

/-- The attributes of a delete task can be read: each that is set, and all that have defaults. -/
structure World.IsConfigured {φ : Type} (w : World φ) (id : ObjectId) : Prop where
  given : ∀ name ∈ ["quiet", "failonerror", "includeemptydirs", "verbose"], w.isSet id name = true
  readable : ∀ name, w.isSet id name = true → ∃ v, w.read id name = .ok v

namespace World

section Configured

variable {φ : Type} {w u : World φ} {id : ObjectId} {name : String}

/-- Attributes that hold values can be read. -/
theorem exists_read_of_values
    (values : (w.object id).fields.entries.all (·.2.isValue) = true)
    (set : w.isSet id name = true) : ∃ v, w.read id name = .ok v := by
  cases found : (w.object id).fields.find? name with
  | none => simp [isSet, found] at set
  | some source =>
    have plain := List.all_eq_true.mp values _ (Table.mem_entries_of_find? found)
    cases source with
    | value v => exact ⟨v, read_of_value found⟩
    | _ => cases plain

theorem IsConfigured.flag (configured : w.IsConfigured id) (name : String)
    (member : name ∈ ["quiet", "failonerror", "includeemptydirs", "verbose"]) :
    ∃ flag, w.readFlag id name = .ok flag := by
  obtain ⟨v, reads⟩ := configured.readable name (configured.given name member)
  rw [readFlag, reads]
  exact ⟨_, rfl⟩

theorem IsConfigured.ofSame (configured : w.IsConfigured id) (objects : u.objects = w.objects)
    (kinds : u.kinds = w.kinds) (slots : u.slotValue = w.slotValue) : u.IsConfigured id := by
  have set (name : String) : u.isSet id name = w.isSet id name := by
    rw [isSet, object_of_same objects, isSet]
  refine ⟨fun name member => (set name).trans (configured.given name member), fun name given => ?_⟩
  rw [read_of_same objects kinds slots]
  exact configured.readable name ((set name).symm.trans given)

end Configured

namespace Without

variable {w mid after : World MemoryFiles} {gone more : Path → Prop} {id : ObjectId}

theorem refl (w : World MemoryFiles) : w.Without (fun _ => False) w := ⟨.refl w.files, rfl⟩

theorem trans (first : w.Without gone mid) (second : mid.Without more after) :
    w.Without (fun p => gone p ∨ more p) after := by
  refine ⟨first.files.trans second.files, ?_⟩
  rw [second.rest, first.rest]

theorem congr (without : w.Without gone after)
    (same : ∀ p, w.files.contains p = true → (gone p ↔ more p)) : w.Without more after :=
  ⟨without.files.congr same, without.rest⟩

/-- What was logged before or afterwards makes no difference. -/
theorem ofLogged {logged : Array LogRecord} (without : { w with logged }.Without gone after) :
    w.Without gone after := ⟨without.files, without.rest⟩

theorem thenLogged (without : w.Without gone after) (logged : Array LogRecord) :
    w.Without gone { after with logged } := by
  refine ⟨without.files, ?_⟩
  rw [without.rest]

theorem read (without : w.Without gone after) (other : ObjectId) (name : String) :
    after.read other name = w.read other name := by
  have slots : after.slotValue = w.slotValue := by
    rw [without.rest]
    rfl
  exact read_of_same (by rw [without.rest]) (by rw [without.rest]) slots other name

theorem isConfigured (without : w.Without gone after) (configured : w.IsConfigured id) :
    after.IsConfigured id := by
  rw [without.rest]
  exact configured.ofSame rfl rfl rfl

end Without
end World

/-- Files in which everything is where it belongs, and a delete task that can read its
attributes. -/
structure World.IsOrderly (w : World MemoryFiles) (id : ObjectId) : Prop where
  configured : w.IsConfigured id
  rooted : w.files.IsRooted
  separate : w.files.IsSeparate

theorem World.IsOrderly.thenLogged {w : World MemoryFiles} {id : ObjectId}
    (orderly : w.IsOrderly id) (logged : Array LogRecord) : { w with logged }.IsOrderly id :=
  ⟨orderly.configured.ofSame rfl rfl rfl, orderly.rooted, orderly.separate⟩

theorem World.IsOrderly.without {w after : World MemoryFiles} {id : ObjectId} {gone : Path → Prop}
    (orderly : w.IsOrderly id) (without : w.Without gone after)
    (whole : ∀ p q, w.files.contains p = true → p.isBelow q = true → gone q → gone p) :
    after.IsOrderly id where
  configured := without.isConfigured orderly.configured
  rooted := without.files.isRooted orderly.rooted whole
  separate := without.files.isSeparate orderly.separate

namespace Engine

section Achieving

variable {φ α β γ : Type} {w : World φ} {action : Engine φ α} {next : α → Engine φ β}
variable {wanted mid : α → World φ → Prop} {final : β → World φ → Prop}

/-- From a world, an action ends with a result, such that what is wanted holds of the result and of
the world that it leaves. -/
def Achieves (w : World φ) (action : Engine φ α) (wanted : α → World φ → Prop) : Prop :=
  ∃ a after, action.run w = (.ok a, after) ∧ wanted a after

namespace Achieves

theorem pure {a : α} (holds : wanted a w) : Achieves w (pure a) wanted := ⟨a, w, rfl, holds⟩

theorem bind (first : Achieves w action mid)
    (rest : ∀ a after, mid a after → Achieves after (next a) final) :
    Achieves w (action >>= next) final := by
  obtain ⟨a, after, ran, holds⟩ := first
  obtain ⟨b, last, ran', holds'⟩ := rest a after holds
  exact ⟨b, last, (run_bind_ok ran).trans ran', holds'⟩

/-- What is only looked at leaves the world to the rest. -/
theorem look {a : α} (seen : action.run w = (.ok a, w)) (rest : Achieves w (next a) final) :
    Achieves w (action >>= next) final := by
  obtain ⟨b, after, ran, holds⟩ := rest
  exact ⟨b, after, (run_bind_ok seen).trans ran, holds⟩

theorem imp (achieves : Achieves w action mid) (implies : ∀ a after, mid a after → wanted a after) :
    Achieves w action wanted := by
  obtain ⟨a, after, ran, holds⟩ := achieves
  exact ⟨a, after, ran, implies a after holds⟩

end Achieves

theorem run_logOf (id : ObjectId) (level : LogLevel) (message : String) (w : World φ) :
    (logOf id level message).run w =
      (.ok (), { w with logged := w.logged.push ⟨level, w.loggerOf id, message⟩ }) := rfl

/-- A loop goes on after its first turn. -/
theorem Achieves.forIn_cons {body : α → PUnit → Engine φ (ForInStep PUnit)} {first : α}
    {rest : List α} {mid : World φ → Prop} {final : PUnit → World φ → Prop}
    (turn : Achieves w (body first ⟨⟩) fun step after => step = .yield ⟨⟩ ∧ mid after)
    (others : ∀ after, mid after → Achieves after (forIn rest PUnit.unit body) final) :
    Achieves w (forIn (first :: rest) PUnit.unit body) final := by
  rw [List.forIn_cons]
  refine .bind turn fun step after both => ?_
  obtain ⟨rfl, holds⟩ := both
  exact others after holds

/-- An attempt at what ends with a result has it. -/
theorem Achieves.attempt (achieves : Achieves w action mid) :
    Achieves w action.attempt fun result after => ∃ a, result = .ok a ∧ mid a after := by
  obtain ⟨a, after, ran, holds⟩ := achieves
  refine ⟨.ok a, after, ?_, a, rfl, holds⟩
  rw [run_attempt, ran]

/-- What is logged leaves the rest as it is. -/
theorem Achieves.log {next : Unit → Engine φ β} (id : ObjectId) (level : LogLevel)
    (message : String) (rest : ∀ logged, Achieves { w with logged } (next ()) final) :
    Achieves w (logOf id level message >>= next) final := by
  rw [Achieves, run_bind_ok (run_logOf id level message w)]
  exact rest _

theorem run_changeFiles_ok {operation : φ → Except FileError φ} {files : φ}
    (allowed : operation w.files = .ok files) :
    (changeFiles operation).run w = (.ok (), { w with files }) := by
  rw [changeFiles, run_bind_ok (run_get w), allowed]
  rfl

theorem run_checkPolicy_ok {id : ObjectId} (configured : w.IsConfigured id)
    (policy : ¬ (w.readFlag id "quiet" = .ok true ∧ w.readFlag id "failonerror" = .ok true)) :
    (checkPolicy id).run w = (.ok (), w) := by
  obtain ⟨quiet, reads⟩ := configured.flag "quiet" (by simp)
  obtain ⟨strict, reads'⟩ := configured.flag "failonerror" (by simp)
  unfold checkPolicy flagOf
  rw [run_bind_ok (run_consult_ok reads)]
  cases quiet with
  | false => rfl
  | true =>
    rw [if_pos rfl, run_bind_ok (run_consult_ok reads')]
    cases strict with
    | false => rfl
    | true => exact absurd ⟨reads, reads'⟩ policy

end Achieving

variable {w : World MemoryFiles} {id : ObjectId} {path : Path} (leave : Policy MemoryFiles)

theorem run_isThere (path : Path) :
    (isThere path).run w = (.ok (w.files.contains path), w) := rfl

theorem run_isDirectory (path : Path) :
    (isDirectory path).run w = (.ok (w.files.isDirectory path), w) := rfl

theorem run_entryAt (path : Path) : (entryAt path).run w =
    (.ok (if w.files.isDirectory path then .directory else .file), w) := rfl

theorem run_children (directory : w.files.isDirectory path = true) :
    (readFiles fun files => FileSystem.children files path).run w = (.ok (w.files.held path), w) := by
  rw [readFiles, run_bind_ok (run_get w),
    show FileSystem.children w.files path = _ from MemoryFiles.children_of_isDirectory directory]
  rfl

/-- What is there and holds nothing is deleted, and nothing is left to the failure policy. -/
theorem achieves_deleteEntry (orderly : w.IsOrderly id) (there : w.files.contains path = true)
    (bare : ∀ p, w.files.contains p = true → p.isBelow path = false) (entry : Entry) :
    Achieves w (deleteEntry leave id path entry) fun deleted after =>
      deleted = true ∧ w.Without (· = path) after := by
  obtain ⟨verbose, reads⟩ := orderly.configured.flag "verbose" (by simp)
  obtain ⟨files, deletes, removes⟩ := MemoryFiles.exists_delete orderly.separate there bare
  unfold deleteEntry
  refine .look (run_consult_ok reads) ?_
  extract_lets level
  let logged := w.logged.push ⟨level, w.loggerOf id, s!"Deleting {path.text}"⟩
  have changes : (changeFiles fun files => FileSystem.delete files path).run { w with logged } =
      (.ok (), { w with files, logged }) := run_changeFiles_ok deletes
  refine ⟨true, { w with files, logged }, ?_, rfl, removes, rfl⟩
  rw [run_bind_ok (run_logOf id level _ w), run_bind_ok (run_attempt _ _), changes]
  rfl

end Engine

/-- Files and directories are apart if no file that is listed is a directory. -/
theorem MemoryFiles.apart_of_keys {m : MemoryFiles}
    (checked : m.files.keys.all (fun p => !m.isDirectory p) = true) (p : Path)
    (is : m.files.contains p = true) : m.isDirectory p = false := by
  have member := (Table.contains_iff_mem_keys m.files p).mp is
  simpa using List.all_eq_true.mp checked p member

namespace Sample

/-- A delete task that does not stop at errors, with some attributes and lists. -/
def deletion (given : List (String × Source)) (lists : List ObjectId) : Object where
  kind := Standard.delete
  project := 0
  fields := .ofList ([
    ("quiet", .value (.flag false)), ("failonerror", .value (.flag false)),
    ("includeemptydirs", .value (.flag false)), ("verbose", .value (.flag false))] ++ given)
  parts := lists

end Sample
end BuildEngine
