import BuildEngine.Settings.File
import BuildEngine.Table

/-!
Settings of builds: the build description, the target that is run if none is named, and user
properties. They come from a configuration file, and from what is asked for besides.
-/

namespace BuildEngine

open BuildEngine.Text

/-- The settings of a build. -/
structure Settings where
  buildFile : String := "build.xml"
  defaultTarget : Option String := none
  implicitBooleans : Bool := false
  keepGoing : Bool := false
  properties : Table String String := .empty

namespace Settings

instance : Inhabited Settings := ⟨{}⟩

variable {φ : Type} [FileSystem φ]

/-- The name of the configuration file next to a build description. -/
def fileName : String := "anvil.toml"

/-- The keys that settings have. -/
def keys : List String :=
  ["build_file", "default_target", "implicit_booleans", "keep_going", "properties"]

/-- The warning about keys that settings do not have, if there are any. -/
def unknownText? (path : Path) (entries : Toml.Entries) : Option String :=
  let unknown := (entries.map Prod.fst).filter (!keys.contains ·)
  let listed := ", ".intercalate (unknown.mergeSort fun a b => decide (a ≤ b))
  if unknown.isEmpty then none else some s!"{path.text}: ignoring unknown keys {listed}"

/-- The text at a key, if the key is there. -/
def textAt? (path : Path) (entries : Toml.Entries) (key : String) :
    Except SettingsFault (Option String) :=
  match Toml.valueAt? key entries with
  | none => .ok none
  | some (.text s) => .ok (some s)
  | some v => .error (.wrongType path "str" key v.settingType)

/-- The truth value at a key, or the one that does not hold. -/
def flagAt (path : Path) (entries : Toml.Entries) (key : String) : Except SettingsFault Bool :=
  match Toml.valueAt? key entries with
  | none => .ok false
  | some (.flag b) => .ok b
  | some v => .error (.wrongType path "bool" key v.settingType)

/-- The settings in the entries of a configuration file. -/
def ofEntries (path : Path) (entries : Toml.Entries) : Except SettingsFault Settings := do
  let buildFile ← textAt? path entries "build_file"
  let defaultTarget ← textAt? path entries "default_target"
  let implicitBooleans ← flagAt path entries "implicit_booleans"
  let keepGoing ← flagAt path entries "keep_going"
  let properties ← match Toml.valueAt? "properties" entries with
    | none => pure []
    | some (.record inner) => pure inner
    | some v => throw (.noTable path "properties" v.settingType)
  return {
    buildFile := buildFile.getD "build.xml", defaultTarget, implicitBooleans, keepGoing
    properties := properties.foldl (fun t (name, v) => t.put name (v.display fun _ => "")) .empty }

/-- Loads settings from a configuration file, with the warning that there may be. Without a file
there are the settings that hold anyway. The warning comes even if the settings are of no use. -/
def load (files : φ) (path : Path) : Option String × Except SettingsFault Settings :=
  let file : SettingsFile := { path }
  match file.allEntries files with
  | .error fault => (none, .error fault)
  | .ok entries => (unknownText? path entries, ofEntries path entries)

/-- The entries of a configuration file after settings were put into them. -/
def entriesOver (s : Settings) (entries : Toml.Entries) : Toml.Entries :=
  let target := s.defaultTarget.map fun name => ("default_target", Value.text name)
  let properties := s.properties.entries.map fun (name, v) => (name, Value.text v)
  let given := [("build_file", Value.text s.buildFile)] ++ target.toList ++
    [("implicit_booleans", .flag s.implicitBooleans), ("keep_going", .flag s.keepGoing),
      ("properties", .record properties)]
  given.foldl (fun all entry => Toml.putEntry entry.1 entry.2 all) entries

/-- Saves settings to a configuration file, which keeps what it holds besides. -/
def save (s : Settings) (files : φ) (path : Path) : Except SettingsFault φ := do
  let file : SettingsFile := { path }
  let entries ← file.allEntries files
  { file with entries := some (s.entriesOver entries) }.save files

end Settings

/-- What is asked for besides the configuration file. -/
structure SettingsRequest where
  buildFile : Option Path := none
  configFile : Option Path := none
  properties : Table String String := .empty
  keepGoing : Bool := false

namespace SettingsRequest

instance : Inhabited SettingsRequest := ⟨{}⟩

/-- The configuration file: the one that is asked for, or the one next to the build description. -/
def configPath (r : SettingsRequest) : Path :=
  match r.configFile, r.buildFile with
  | some path, _ => path
  | none, some path => path.parent.join (.ofString Settings.fileName)
  | none, none => .ofString Settings.fileName

/-- Settings with what is asked for besides, which goes before what they say. -/
def applied (r : SettingsRequest) (s : Settings) : Settings :=
  { s with
    buildFile := (r.buildFile.map Path.text).getD s.buildFile
    keepGoing := s.keepGoing || r.keepGoing
    properties := r.properties.entries.foldl (fun t (name, v) => t.put name v) s.properties }

end SettingsRequest

/-- A property in the form `name=value`. Without a sign the value is that of a flag which holds;
there is none without a name. -/
def readDefinition? (s : String) : Option (String × String) :=
  let name := s.toList.takeWhile (· != '=')
  let rest := s.toList.dropWhile (· != '=')
  let value := if rest.isEmpty then "true" else String.ofList (rest.drop 1)
  if name.isEmpty then none else some (String.ofList name, value)

end BuildEngine
