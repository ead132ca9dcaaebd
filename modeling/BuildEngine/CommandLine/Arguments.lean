import BuildEngine.CommandLine.Options
import BuildEngine.Kind.Basic
import BuildEngine.Settings.Basic

/-!
The command line of the build tool: its options, and what a command line asks for.
-/

namespace BuildEngine.CommandLine

/-- What an option of the build tool means. -/
inductive Meaning where
  | help | version | moreVerbose | lessVerbose | buildFile | configFile | property | keepGoing
  | listTargets | writeConfig
  deriving Repr, DecidableEq

def messageRules : List (OptionRule Meaning) := [
  { meaning := .moreVerbose, names := ["-v"] }, { meaning := .lessVerbose, names := ["-q"] }]

def helpRule : OptionRule Meaning := { meaning := .help, names := ["-h", "--help"] }

/-- The options of the build tool. -/
def rules : List (OptionRule Meaning) :=
  [helpRule, { meaning := .version, names := ["--version"] }] ++ messageRules ++ [
    { meaning := .buildFile, names := ["-f", "--file"], takesValue := true },
    { meaning := .configFile, names := ["--config"], takesValue := true },
    { meaning := .property, names := ["-D"], takesValue := true },
    { meaning := .keepGoing, names := ["-k", "--keep-going"] },
    { meaning := .listTargets, names := ["-l", "--list"] },
    { meaning := .writeConfig, names := ["--init-config"] }]

/-- How many messages are wanted. -/
structure Verbosity where
  more : Int := 0
  less : Int := 0
  deriving Repr, DecidableEq, Inhabited

/-- The least level of the messages that are wanted. -/
def Verbosity.level (v : Verbosity) : LogLevel :=
  let surplus := v.more - v.less
  if 1 < surplus then .debug
  else if 0 < surplus then .info
  else if surplus = 0 then .warning
  else .error

/-- What a command line asks for. -/
structure Request where
  verbosity : Verbosity := { more := 1 }
  settings : SettingsRequest := {}
  listTargets : Bool := false
  writeConfig : Bool := false
  targets : List String := []

instance : Inhabited Request := ⟨{}⟩

/-- Why a command line asks for nothing. -/
inductive Stop where
  | help
  | version
  /-- It is not understood. -/
  | usage
  deriving Repr, DecidableEq

namespace Request

def withOption (r : Request) : Meaning → Option String → Except Stop Request
  | .help, _ => .error .help
  | .version, _ => .error .version
  | .moreVerbose, _ => .ok { r with verbosity.more := r.verbosity.more + 1 }
  | .lessVerbose, _ => .ok { r with verbosity.less := r.verbosity.less + 1 }
  | .buildFile, value =>
    .ok { r with settings.buildFile := value.map Path.ofString }
  | .configFile, value =>
    .ok { r with settings.configFile := value.map Path.ofString }
  | .property, value =>
    match value.bind readDefinition? with
    | some (name, text) =>
      .ok { r with settings.properties := r.settings.properties.put name text }
    | none => .error .usage
  | .keepGoing, _ => .ok { r with settings.keepGoing := true }
  | .listTargets, _ => .ok { r with listTargets := true }
  | .writeConfig, _ => .ok { r with writeConfig := true }

/-- A request with options, up to the first that stops it. -/
def withOptions (r : Request) : List (Meaning × Option String) → Except Stop Request
  | [] => .ok r
  | (meaning, value) :: rest =>
    match r.withOption meaning value with
    | .ok next => next.withOptions rest
    | .error stop => .error stop

/-- What a command line asks for, over what is asked for anyway. Flaws show when all options were
read. -/
def ofReading (r : Request) (reading : Reading Meaning) : Except Stop Request :=
  match r.withOptions reading.options with
  | .ok asked => if reading.isFlawed then .error .usage else .ok { asked with targets := reading.words }
  | .error stop => .error stop

/-- What a command line asks for. -/
def ofArguments (args : List String) : Except Stop Request := ofReading {} (read rules args)

end Request

/-- How many messages a command line asks for that has no other options and no words, over a number
that are wanted anyway. -/
def Verbosity.ofArguments (more : Int) (args : List String) : Except Stop Verbosity :=
  match Request.ofReading { verbosity := { more } } (read (helpRule :: messageRules) args) with
  | .ok r => if r.targets.isEmpty then .ok r.verbosity else .error .usage
  | .error stop => .error stop

end BuildEngine.CommandLine
