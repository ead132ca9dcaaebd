import BuildEngine.Files.Memory
import BuildEngine.Settings.Basic
import Mathlib.Data.List.Nodup
import Mathlib.Data.Option.Basic
import Mathlib.Logic.Relation

/-! Saving settings. A configuration file into which settings are put gives them back when it is
loaded, whatever it held before; but a target that is run if none is named stays in the file if the
settings have none to put in its place. What is written in a file and read again is taken to be the
same, except for the order of entries. -/

namespace BuildEngine

open BuildEngine.Text

namespace Toml

/-- Values that differ at most in the order in which tables hold their entries. -/
inductive UpToOrder : Value → Value → Prop
  | refl (v : Value) : UpToOrder v v
  | list {vs ws : List Value} (each : List.Forall₂ UpToOrder vs ws) :
      UpToOrder (.list vs) (.list ws)
  | record {es fs : Entries} (names : (es.map Prod.fst).Perm (fs.map Prod.fst))
      (each : ∀ name, Option.Rel UpToOrder (valueAt? name es) (valueAt? name fs)) :
      UpToOrder (.record es) (.record fs)

/-- Entries are written as a text that is read as the same entries, in some order. -/
def Keeps (entries : Entries) : Prop :=
  ∃ text back, write entries = .ok text ∧ read text.toList = .ok back ∧
    UpToOrder (.record entries) (.record back)

namespace UpToOrder

variable {v : Value} {es fs : Entries}

theorem of_text {s : String} (alike : UpToOrder (.text s) v) : v = .text s := by
  cases alike
  rfl

theorem of_flag {b : Bool} (alike : UpToOrder (.flag b) v) : v = .flag b := by
  cases alike
  rfl

theorem of_record (alike : UpToOrder (.record es) v) :
    ∃ fs, v = .record fs ∧ (es.map Prod.fst).Perm (fs.map Prod.fst) ∧
      ∀ name, Option.Rel UpToOrder (valueAt? name es) (valueAt? name fs) := by
  cases alike with
  | refl =>
    refine ⟨es, rfl, .refl _, fun name => ?_⟩
    cases valueAt? name es with
    | none => exact .none
    | some w => exact .some (.refl w)
  | record names each => exact ⟨_, rfl, names, each⟩

theorem of_some {found : Option Value} (alike : Option.Rel UpToOrder (some v) found) :
    ∃ w, found = some w ∧ UpToOrder v w := by
  rcases alike with ⟨same⟩
  exact ⟨_, rfl, same⟩

theorem of_text? {given : Option String} {found : Option Value}
    (alike : Option.Rel UpToOrder (given.map Value.text) found) :
    found = given.map Value.text := by
  cases given with
  | none => cases alike; rfl
  | some s =>
    rcases alike with ⟨same⟩
    rw [same.of_text]
    rfl

end UpToOrder

theorem valueAt?_eq_findIn (name : String) (entries : Entries) :
    valueAt? name entries = Table.findIn name entries := by
  induction entries with
  | nil => rfl
  | cons entry rest ih =>
    unfold valueAt? at ih ⊢
    rw [Table.findIn, ← ih, List.find?_cons]
    by_cases same : entry.1 = name
    · simp [same]
    · rw [beq_false_of_ne same, if_neg same]

end Toml

namespace SettingsFile

variable {φ : Type} [FileSystem φ]

/-- A file at a path has a text, with lines that end as they should. -/
structure Shows (files : φ) (path : Path) (text : String) : Prop where
  isThere : (SettingsFile.mk path none).isThere files = true
  data : ∃ data stored, FileSystem.read files path = .ok data ∧ decodeUtf8 data = .ok stored ∧
    unifyLineEnds stored.toList = text.toList

/-- A text that is written to a file at a path is there afterwards. -/
def ReadsBack (files : φ) (path : Path) (text : String) : Prop :=
  ∃ after, FileSystem.write files path text.toUTF8 = .ok after ∧ Shows after path text

theorem Shows.allEntries {files : φ} {path : Path} {text : String} {entries : Toml.Entries}
    (shown : Shows files path text) (read : Toml.read text.toList = .ok entries) :
    (SettingsFile.mk path none).allEntries files = .ok entries := by
  obtain ⟨isThere, data, stored, found, decoded, unified⟩ := shown
  have entries : (SettingsFile.mk path none).readEntries files = .ok entries := by
    rw [readEntries, isThere, found]
    simp [bind, Except.bind, Except.mapError, decoded, unified, read]
  rw [SettingsFile.allEntries, loaded, entries]
  rfl

end SettingsFile

namespace Settings

section

variable {φ : Type} [FileSystem φ] {files : φ} {path : Path} {s old : Settings}
variable {prior back : Toml.Entries}

/-- Settings that are equal, in whatever order they have their properties. -/
structure Same (s t : Settings) : Prop where
  buildFile : s.buildFile = t.buildFile
  defaultTarget : s.defaultTarget = t.defaultTarget
  implicitBooleans : s.implicitBooleans = t.implicitBooleans
  keepGoing : s.keepGoing = t.keepGoing
  properties : ∀ name, s.properties.find? name = t.properties.find? name

/-- What there is at a key after settings were put into entries. -/
theorem valueAt?_entriesOver (s : Settings) (prior : Toml.Entries) :
    Toml.valueAt? "build_file" (s.entriesOver prior) = some (.text s.buildFile) ∧
    Toml.valueAt? "default_target" (s.entriesOver prior) =
      (s.defaultTarget.map Value.text).or (Toml.valueAt? "default_target" prior) ∧
    Toml.valueAt? "implicit_booleans" (s.entriesOver prior) = some (.flag s.implicitBooleans) ∧
    Toml.valueAt? "keep_going" (s.entriesOver prior) = some (.flag s.keepGoing) ∧
    Toml.valueAt? "properties" (s.entriesOver prior) =
      some (.record (s.properties.entries.map fun entry => (entry.1, .text entry.2))) := by
  unfold entriesOver
  cases s.defaultTarget with
  | none => simp [Toml.valueAt?_putEntry]
  | some name => simp [Toml.valueAt?_putEntry]

theorem textAt?_eq_ok_iff {key : String} {text : Option String} :
    textAt? path prior key = .ok text ↔ Toml.valueAt? key prior = text.map Value.text := by
  unfold textAt?
  cases text <;> split <;> simp_all

theorem flagAt_of_valueAt? {key : String} {b : Bool}
    (there : Toml.valueAt? key prior = some (.flag b)) : flagAt path prior key = .ok b := by
  rw [flagAt, there]

/-- The target of settings is the one in the file that they come from. -/
theorem textAt?_of_ofEntries (made : ofEntries path prior = .ok old) :
    textAt? path prior "default_target" = .ok old.defaultTarget := by
  simp only [ofEntries, bind, Except.bind, pure, Except.pure] at made
  split at made
  · cases made
  split at made
  · cases made
  next target _ found =>
    rw [found]
    repeat' split at made
    all_goals cases made
    all_goals rfl

/-- Entries of a configuration file as properties, with each value as a text. -/
def asProperties (entries : Toml.Entries) : Table String String :=
  .ofList (entries.map fun entry => (entry.1, entry.2.display fun _ => ""))

theorem ofEntries_of_values {s : Settings} {inner : Toml.Entries}
    (buildFile : textAt? path back "build_file" = .ok (some s.buildFile))
    (target : textAt? path back "default_target" = .ok s.defaultTarget)
    (implicit : flagAt path back "implicit_booleans" = .ok s.implicitBooleans)
    (keepGoing : flagAt path back "keep_going" = .ok s.keepGoing)
    (properties : Toml.valueAt? "properties" back = some (.record inner)) :
    ofEntries path back = .ok { s with properties := asProperties inner } := by
  rw [ofEntries, buildFile, target, implicit, keepGoing, properties, asProperties, Table.ofList,
    List.foldl_map]
  rfl

/-- Properties that were put into entries come back, in some order. -/
theorem find?_asProperties {given : Table String String} {v : Value}
    (alike : Toml.UpToOrder (.record (given.entries.map fun entry => (entry.1, .text entry.2))) v) :
    ∃ inner, v = .record inner ∧ ∀ name, (asProperties inner).find? name = given.find? name := by
  obtain ⟨inner, rfl, names, each⟩ := alike.of_record
  refine ⟨inner, rfl, fun name => ?_⟩
  have distinct : (inner.map Prod.fst).Nodup := by
    rw [← names.nodup_iff, List.map_map]
    exact given.distinct
  have found : Table.findIn name inner = (given.find? name).map Value.text := by
    rw [← Toml.valueAt?_eq_findIn]
    apply Toml.UpToOrder.of_text?
    have alike := each name
    rwa [Toml.valueAt?_eq_findIn name (List.map _ _), Table.findIn_map] at alike
  rw [asProperties, Table.find?_ofList (by rwa [List.map_map]), Table.findIn_map, found]
  cases given.find? name with
  | none => rfl
  | some => rfl

/-- Entries into which settings were put, and that were written and read since, give these settings,
with the target that was there before if the settings have none. -/
theorem ofEntries_of_alike (s : Settings) {kept : Option String}
    (target : textAt? path prior "default_target" = .ok kept)
    (alike : Toml.UpToOrder (.record (s.entriesOver prior)) (.record back)) :
    ∃ again, ofEntries path back = .ok again ∧
      again.Same { s with defaultTarget := s.defaultTarget.or kept } := by
  -- All that loading asks for are single keys, which were kept whatever the order of the entries.
  obtain ⟨_, ⟨⟩, -, each⟩ := alike.of_record
  obtain ⟨buildFile, defaultTarget, implicit, keepGoing, properties⟩ := s.valueAt?_entriesOver prior
  rw [textAt?_eq_ok_iff.mp target, ← Option.map_or] at defaultTarget
  have text {key : String} {given : Option String}
      (put : Toml.valueAt? key (s.entriesOver prior) = given.map Value.text) :
      textAt? path back key = .ok given :=
    textAt?_eq_ok_iff.mpr (Toml.UpToOrder.of_text? (put ▸ each key))
  have other {key : String} {v : Value} (put : Toml.valueAt? key (s.entriesOver prior) = some v) :
      ∃ w, Toml.valueAt? key back = some w ∧ Toml.UpToOrder v w :=
    Toml.UpToOrder.of_some (put ▸ each key)
  have flag {key : String} {b : Bool}
      (put : Toml.valueAt? key (s.entriesOver prior) = some (.flag b)) :
      flagAt path back key = .ok b := by
    obtain ⟨w, found, alike⟩ := other put
    exact flagAt_of_valueAt? (alike.of_flag ▸ found)
  obtain ⟨w, found, alike⟩ := other properties
  obtain ⟨inner, rfl, listed⟩ := find?_asProperties alike
  exact ⟨_, ofEntries_of_values (s := { s with defaultTarget := s.defaultTarget.or kept })
    (text buildFile) (text defaultTarget) (flag implicit) (flag keepGoing) found,
    rfl, rfl, rfl, rfl, listed⟩

theorem load_of_entries (there : (SettingsFile.mk path none).allEntries files = .ok prior) :
    (load files path).2 = ofEntries path prior := by
  rw [load, there]

theorem save_of_entries (there : (SettingsFile.mk path none).allEntries files = .ok prior)
    {text : String} (written : Toml.write (s.entriesOver prior) = .ok text) {after : φ}
    (wrote : FileSystem.write files path text.toUTF8 = .ok after) :
    s.save files path = .ok after := by
  rw [save, there]
  change ((Toml.write (s.entriesOver prior)).mapError SettingsFault.unwritable >>= fun text =>
    (FileSystem.write files path text.toUTF8).mapError SettingsFault.file) = .ok after
  rw [written]
  change (FileSystem.write files path text.toUTF8).mapError SettingsFault.file = .ok after
  rw [wrote]
  rfl

/-- Settings that come with another target are the same only if there is no other target. -/
theorem same_iff_of_kept {again : Settings} {kept : Option String}
    (same : again.Same { s with defaultTarget := s.defaultTarget.or kept }) :
    again.Same s ↔ (s.defaultTarget = none → kept = none) := by
  have target : again.defaultTarget = s.defaultTarget.or kept := same.defaultTarget
  constructor
  · intro alike unset
    rw [← alike.defaultTarget, target] at unset
    exact (Option.or_eq_none_iff.mp unset).2
  · intro none_kept
    refine ⟨same.buildFile, ?_, same.implicitBooleans, same.keepGoing, same.properties⟩
    rw [target]
    cases set : s.defaultTarget with
    | none => exact none_kept set
    | some => rfl

end

namespace Sample

/-- A text, a truth value or a table without entries. -/
inductive Shape where
  | text (s : String)
  | flag (b : Bool)
  | empty
  deriving DecidableEq

def Shape.value : Shape → Value
  | text s => .text s
  | flag b => .flag b
  | empty => .record []

/-- The shape of a value that is as plain as that. Values are not compared as such. -/
def shape? : Value → Option Shape
  | .text s => some (.text s)
  | .flag b => some (.flag b)
  | .record [] => some .empty
  | .record (_ :: _) | .nothing | .int _ | .real _ | .path _ | .list _ | .moment _ _ _
  | .member _ _ _ | .reference _ | .object _ => none

theorem value_of_shape? {v : Value} {shape : Shape} (known : shape? v = some shape) :
    v = shape.value := by
  unfold shape? at known
  split at known <;> cases known <;> rfl

theorem entries_of_shapes {entries : Toml.Entries} {shapes : List (String × Shape)}
    (same : (entries.map fun entry => (entry.1, shape? entry.2)) =
      shapes.map fun shape => (shape.1, some shape.2)) :
    entries = shapes.map fun shape => (shape.1, shape.2.value) := by
  induction shapes generalizing entries with
  | nil => exact List.map_eq_nil_iff.mp same
  | cons shape rest ih =>
    obtain ⟨⟨name, v⟩, others, rfl, first, later⟩ := List.map_eq_cons_iff.mp same
    obtain ⟨rfl, known⟩ := Prod.mk.inj first
    have plain : v = shape.2.value := value_of_shape? known
    rw [List.map_cons, ih later, plain]

theorem read_of_shapes {source : List Char} (shapes : List (String × Shape))
    (shown : (Toml.read source).toOption.map (·.map fun entry => (entry.1, shape? entry.2)) =
      some (shapes.map fun shape => (shape.1, some shape.2))) :
    Toml.read source = .ok (shapes.map fun shape => (shape.1, shape.2.value)) := by
  cases read : Toml.read source with
  | error => rw [read] at shown; cases shown
  | ok entries =>
    rw [read] at shown
    exact congrArg Except.ok (entries_of_shapes (Option.some.inj shown))

def path : Path := .ofString "/work/anvil.toml"

def priorText : String := "default_target = \"dist\"\n"

/-- Files with a configuration that has nothing but a target. -/
def files : MemoryFiles := MemoryFiles.write {} path priorText.toUTF8

def prior : Toml.Entries := [("default_target", .text "dist")]

/-- Settings with a target of their own. -/
def testing : Settings := { defaultTarget := some "test", keepGoing := true }

def testingText : String :=
  "default_target = \"test\"\nbuild_file = \"build.xml\"\nimplicit_booleans = false\n" ++
    "keep_going = true\n\n[properties]\n"

/-- What the file has after settings without a target were saved to it. -/
def keptText : String :=
  "default_target = \"dist\"\nbuild_file = \"build.xml\"\nimplicit_booleans = false\n" ++
    "keep_going = false\n\n[properties]\n"

theorem prior_there : (SettingsFile.mk path none).allEntries files = .ok prior := by
  have shown : SettingsFile.Shows files path priorText :=
    ⟨rfl, _, priorText, rfl, by decide +kernel, rfl⟩
  exact shown.allEntries (read_of_shapes [("default_target", .text "dist")] (by decide +kernel))

theorem prior_loads : (load files path).2 = .ok { defaultTarget := some "dist" } := by
  rw [load_of_entries prior_there]
  rfl

theorem readsBack {text : String} (decoded : decodeUtf8 text.toUTF8 = .ok text)
    (unified : unifyLineEnds text.toList = text.toList) :
    SettingsFile.ReadsBack files path text :=
  ⟨_, rfl, rfl, text.toUTF8, text, rfl, decoded, unified⟩

theorem testing_written : Toml.write (testing.entriesOver prior) = .ok testingText := by
  decide +kernel

theorem testing_read : Toml.read testingText.toList = .ok (testing.entriesOver prior) :=
  read_of_shapes [("default_target", .text "test"), ("build_file", .text "build.xml"),
    ("implicit_booleans", .flag false), ("keep_going", .flag true), ("properties", .empty)]
    (by decide +kernel)

theorem kept_written : Toml.write (entriesOver {} prior) = .ok keptText := by
  decide +kernel

theorem kept_read : Toml.read keptText.toList = .ok (entriesOver {} prior) :=
  read_of_shapes [("default_target", .text "dist"), ("build_file", .text "build.xml"),
    ("implicit_booleans", .flag false), ("keep_going", .flag false), ("properties", .empty)]
    (by decide +kernel)

end Sample

variable {φ : Type} [FileSystem φ] {files : φ} {path : Path} {old : Settings}
variable {prior : Toml.Entries}

/-- Whatever a configuration file holds that can be loaded: settings that are saved to it are loaded
from it again, with the target that it had before if they have none. So they are the same settings
unless they have no target and the file had one. -/
theorem load_save (s : Settings)
    (there : (SettingsFile.mk path none).allEntries files = .ok prior)
    (loads : (load files path).2 = .ok old) (keeps : Toml.Keeps (s.entriesOver prior))
    (readsBack : ∀ text, Toml.write (s.entriesOver prior) = .ok text →
      SettingsFile.ReadsBack files path text) :
    ∃ after again, s.save files path = .ok after ∧ (load after path).2 = .ok again ∧
      again.Same { s with defaultTarget := s.defaultTarget.or old.defaultTarget } ∧
      (again.Same s ↔ (s.defaultTarget = none → old.defaultTarget = none)) := by
  obtain ⟨text, back, written, read, alike⟩ := keeps
  obtain ⟨after, wrote, shown⟩ := readsBack text written
  rw [load_of_entries there] at loads
  obtain ⟨again, made, same⟩ := ofEntries_of_alike s (textAt?_of_ofEntries loads) alike
  refine ⟨after, again, save_of_entries there written wrote, ?_, same, same_iff_of_kept same⟩
  rw [load_of_entries (shown.allEntries read), made]

theorem load_save_testing : ∃ after again,
    Sample.testing.save Sample.files Sample.path = .ok after ∧
      (load after Sample.path).2 = .ok again ∧ again.Same Sample.testing := by
  have keeps : Toml.Keeps (Sample.testing.entriesOver Sample.prior) :=
    ⟨_, _, Sample.testing_written, Sample.testing_read, .refl _⟩
  have readsBack : ∀ text, Toml.write (Sample.testing.entriesOver Sample.prior) = .ok text →
      SettingsFile.ReadsBack Sample.files Sample.path text := by
    intro text written
    rw [Sample.testing_written] at written
    cases written
    exact Sample.readsBack (by decide +kernel) (by decide +kernel)
  obtain ⟨after, again, saved, loaded, -, same_iff⟩ :=
    load_save Sample.testing Sample.prior_there Sample.prior_loads keeps readsBack
  exact ⟨after, again, saved, loaded, same_iff.mpr nofun⟩

/-- Settings without a target that are saved to a file with one are loaded with that target, though
the file is written and read as it should be. -/
theorem load_save_kept : ∃ old after again, (load Sample.files Sample.path).2 = .ok old ∧
    Toml.Keeps (entriesOver {} Sample.prior) ∧
    SettingsFile.ReadsBack Sample.files Sample.path Sample.keptText ∧
    save {} Sample.files Sample.path = .ok after ∧ (load after Sample.path).2 = .ok again ∧
    again.defaultTarget = some "dist" ∧ ¬again.Same {} := by
  have readsBack : SettingsFile.ReadsBack Sample.files Sample.path Sample.keptText :=
    Sample.readsBack (by decide +kernel) (by decide +kernel)
  obtain ⟨after, wrote, shown⟩ := id readsBack
  refine ⟨_, after, { defaultTarget := some "dist" }, Sample.prior_loads,
    ⟨_, _, Sample.kept_written, Sample.kept_read, .refl _⟩, readsBack,
    save_of_entries Sample.prior_there Sample.kept_written wrote, ?_, rfl, ?_⟩
  · rw [load_of_entries (shown.allEntries Sample.kept_read)]
    rfl
  · rintro ⟨-, target, -⟩
    cases target

end Settings
end BuildEngine
