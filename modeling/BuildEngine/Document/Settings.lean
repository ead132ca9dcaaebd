import BuildEngine.Document.Value
import BuildEngine.Settings.Basic

/-!
The document form of settings and of configuration files.
-/

namespace BuildEngine

namespace Settings

def toDocument (s : Settings) : Value := .list [
  .text s.buildFile, .ofText? s.defaultTarget, .flag s.implicitBooleans, .flag s.keepGoing,
  .ofTextPairs s.properties.entries]

/-- Settings in which a field has the value that a document gives. -/
def withField (s : Settings) (name : String) (v : Value) : Settings :=
  match name with
  | "build_file" => { s with buildFile := v.textOrEmpty }
  | "default_target" => { s with defaultTarget := v.text? }
  | "implicit_booleans" => { s with implicitBooleans := v.isTrue }
  | "keep_going" => { s with keepGoing := v.isTrue }
  | _ => { s with properties := .ofList v.textFields }

end Settings

/-- What a document asks for besides a configuration file: the build description and the
configuration file, whose places it names, properties, and whether to keep going. -/
def SettingsRequest.ofDocument (place : String → Path) (v : Value) : SettingsRequest where
  buildFile := (v.item 0).text?.map place
  configFile := (v.item 1).text?.map place
  properties := .ofList (v.item 2).textFields
  keepGoing := (v.item 3).isTrue

/-- What a document tells about a configuration file: whether it is there, how many entries it has,
and their keys. -/
def SettingsFile.summary {φ : Type} [FileSystem φ] (f : SettingsFile) (files : φ)
    (entries : Toml.Entries) : Value :=
  .list [.flag (f.isThere files), .int entries.length, .ofTexts (entries.map Prod.fst)]

end BuildEngine
