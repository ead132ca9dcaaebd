import BuildEngine.CommandLine.Arguments
import BuildEngine.CommandLine.Ending
import BuildEngine.Description
import BuildEngine.Run.Listing

/-!
The build tool: from a command line and the files to what is printed, logged and written.
-/

namespace BuildEngine.CommandLine

/-- What a run of the build tool comes to. -/
structure Outcome (φ : Type) where
  status : Value
  /-- The least level of messages that are logged, once it is known. -/
  level : Option LogLevel := none
  printed : String := ""
  errors : String := ""
  logged : List LogRecord := []
  files : φ

variable {φ : Type} [FileSystem φ]

namespace Tool

/-- Logs what settings complain about. -/
def logComplaint : Option String → Engine φ Unit
  | some text => Engine.log .warning Engine.ownLogger text
  | none => return ()

/-- A fault of a configuration file: one of the configuration, unless the file system is at
fault. -/
def settingsFault (f : SettingsFault) : Fault :=
  match f with
  | .file error => .file error
  | _ => (Problem.badConfiguration f.message).fault

/-- The settings that a command line asks for. -/
def settings (r : SettingsRequest) : Engine φ Settings := do
  let (complaint, loaded) ← Engine.observe fun w => Settings.load w.files r.configPath
  logComplaint complaint
  match loaded with
  | .ok s => return r.applied s
  | .error f => throw (settingsFault f)

def print (text : String) : Engine φ Unit := modify fun w => { w with printed := w.printed ++ text }

/-- Writes settings to the configuration file. -/
def writeSettings (r : SettingsRequest) (s : Settings) : Engine φ Unit := do
  match ← Engine.observe fun w => s.save w.files r.configPath with
  | .ok files => do
    modify fun w => { w with files }
    print s!"wrote {r.configPath.text}\n"
  | .error (.file error) => throw (.file error)
  | .error f => throw (.value f.message)

/-- Loads the build description that settings name. -/
def loadProject (s : Settings) : Engine φ ProjectId := do
  modify fun w => { w with implicitBooleans := s.implicitBooleans, keepGoing := s.keepGoing }
  let path ← Engine.observe fun w => w.here.join (.ofString s.buildFile)
  let e ← Engine.consult fun w => Element.ofFile w.files path
  Engine.loadProject e s.properties.entries path.parent (some path)

/-- The targets to run: those that are asked for, or the one that the settings name. -/
def goals (r : Request) (s : Settings) : List String :=
  if r.targets.isEmpty then (s.defaultTarget.filter (!·.isEmpty)).toList else r.targets

/-- Does what a command line asks for. The result is a status and what is written to the stream
for errors. -/
def run (plainly : Bool) (r : Request) : Engine φ (Int × String) := do
  let s ← settings r.settings
  if r.writeConfig then
    writeSettings r.settings s
    return (0, "")
  let project ← loadProject s
  if r.listTargets then
    print ((← Engine.project project).listing plainly)
    return (0, "")
  let result ← Engine.build project (goals r s)
  let (text, errors) := resultText plainly result
  print text
  return (statusOf result.outcome, errors)

/-- The world in which the build tool runs, with the standard tasks and types. -/
def world (plainly : Bool) (here : Path) (files : φ) : World φ where
  files
  here
  registry := Registry.addStandard {}
  observer := .reporter { style := .onTerminal plainly }

/-- The name and the version of the build tool. -/
def versionText : String := s!"anvil {Project.version}\n"

/-- What is printed in place of an explanation of the options. -/
def usageText : String := "<usage>"

end Tool

/-- Runs the build tool on a command line, in a directory of a file system. -/
def run (plainly : Bool) (here : Path) (files : φ) (args : List String) : Outcome φ :=
  match Request.ofArguments args with
  | .error .help => { status := .int 0, printed := Tool.usageText, files }
  | .error .version => { status := .int 0, printed := Tool.versionText, files }
  | .error .usage => { status := .int 2, errors := Tool.usageText, files }
  | .ok r =>
    let level := r.verbosity.level
    let (result, w) := Engine.run (Tool.run plainly r) (Tool.world plainly here files)
    let (errors, words) := match result with
      | .ok (code, errors) => (errors, Ending.lastWords plainly (.status (.int code)))
      | .error fault => ("", Ending.lastWords plainly (.fault fault))
    let logged := (w.logged.toList ++ words.logged).filter fun record =>
      decide (level.weight ≤ record.level.weight)
    { status := words.status, level := some level, printed := w.printed
      errors := errors ++ words.errors, logged, files := w.files }

end BuildEngine.CommandLine
