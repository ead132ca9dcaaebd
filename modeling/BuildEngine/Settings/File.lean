import BuildEngine.Document.Basic
import BuildEngine.Files.Access
import BuildEngine.Text.Lines
import BuildEngine.Text.Utf8
import BuildEngine.Toml.Document
import BuildEngine.Toml.Writer

/-!
Configuration files: their entries are read when they are first needed and are kept from then on,
whatever becomes of the file; a file that does not exist has no entries.
-/

namespace BuildEngine

open BuildEngine.Text

/-- Why a configuration file is of no use. -/
inductive SettingsFault where
  | malformed (path : Path) (detail : String)
  /-- The value of a key has the wrong type. -/
  | wrongType (path : Path) (expected key actual : String)
  | noTable (path : Path) (key actual : String)
  /-- The bytes of the file are no text. -/
  | undecodable (error : Utf8Error)
  | absent (key : String)
  /-- A value has a type that a file cannot hold. -/
  | unwritable (type : String)
  | file (error : FileError)
  deriving Repr, DecidableEq, Inhabited

/-- The message about a configuration file that is of no use. -/
def SettingsFault.message : SettingsFault → String
  | malformed path detail => s!"{path.text}: {detail}"
  | wrongType path expected key actual =>
    s!"{path.text}: expected {expected} for {quote key}, got {actual}"
  | noTable path key actual => s!"{path.text}: expected a table at {quote key}, got {actual}"
  | undecodable error => error.message
  | absent key => quote key
  | unwritable type => Toml.unwritableText type
  | file error => error.message

/-- The name of the type of a configured value. -/
def Value.settingType (v : Value) : String := v.typeName fun _ => "object"

/-- A configuration file, with its entries once they were read. -/
structure SettingsFile where
  path : Path
  entries : Option Toml.Entries := none

namespace SettingsFile

variable {φ : Type} [FileSystem φ]

/-- A configuration file as messages show it. -/
def text (f : SettingsFile) : String := s!"TomlConfigFile({quote f.path.text})"

/-- Whether there is a file at the path. -/
def isThere (f : SettingsFile) (files : φ) : Bool :=
  FileSystem.contains files f.path && !FileSystem.isDirectory files f.path

def readEntries (f : SettingsFile) (files : φ) : Except SettingsFault Toml.Entries := do
  if !f.isThere files then return []
  let data ← (FileSystem.read files f.path).mapError SettingsFault.file
  let source := unifyLineEnds (← (decodeUtf8 data).mapError SettingsFault.undecodable).toList
  (Toml.read source).mapError fun flaw => .malformed f.path (flaw.message source)

/-- The file with its entries, which are read unless they were. -/
def loaded (f : SettingsFile) (files : φ) : Except SettingsFault (Toml.Entries × SettingsFile) :=
  match f.entries with
  | some entries => .ok (entries, f)
  | none => (f.readEntries files).map fun entries => (entries, { f with entries := some entries })

/-- The entries, which are read unless they were. -/
def allEntries (f : SettingsFile) (files : φ) : Except SettingsFault Toml.Entries :=
  (f.loaded files).map Prod.fst

def get (f : SettingsFile) (files : φ) (key : String) : Except SettingsFault Value := do
  match Toml.valueAt? key (← f.allEntries files) with
  | some v => return v
  | none => throw (.absent key)

/-- The entries of the table at a key; there are none if the key is not there. -/
def table (f : SettingsFile) (files : φ) (key : String) : Except SettingsFault Toml.Entries := do
  match Toml.valueAt? key (← f.allEntries files) with
  | some (.record inner) => return inner
  | some v => throw (.noTable f.path key v.settingType)
  | none => return []

def put (f : SettingsFile) (files : φ) (key : String) (v : Value) :
    Except SettingsFault SettingsFile := do
  let entries ← f.allEntries files
  return { f with entries := some (Toml.putEntry key v entries) }

/-- Removes a key. -/
def erase (f : SettingsFile) (files : φ) (key : String) : Except SettingsFault SettingsFile := do
  let entries ← f.allEntries files
  if (Toml.valueAt? key entries).isNone then throw (.absent key)
  return { f with entries := some (entries.filter fun entry => entry.1 != key) }

/-- Writes the entries to the file. -/
def save (f : SettingsFile) (files : φ) : Except SettingsFault φ := do
  let text ← (Toml.write (← f.allEntries files)).mapError SettingsFault.unwritable
  (FileSystem.write files f.path text.toUTF8).mapError SettingsFault.file

end SettingsFile
end BuildEngine
