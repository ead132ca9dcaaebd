import BuildEngine.Run.Build
import BuildEngine.Text.Colour
import BuildEngine.World

/-!
Endings: with what status and with what words the build tool ends, whatever happened.
-/

namespace BuildEngine.CommandLine

open BuildEngine.Text

/-- How the build tool comes to its end. -/
inductive Ending where
  /-- It is asked to end with a status, which should be an integer. -/
  | status (code : Value)
  | fault (f : Fault)
  deriving Inhabited

/-- What the build tool says at its end. -/
structure LastWords where
  status : Value
  /-- What is written to the stream for errors. -/
  errors : String := ""
  logged : List LogRecord := []
  deriving Inhabited

namespace Ending

/-- The log message about a fault that none but the tool itself has to answer for. -/
def unexpectedText : String :=
  "An unexpected error occurred in the Anvil CLI. This is likely a bug in Anvil or in a task " ++
    "that was loaded with <taskdef>.\n\n"

def errorLines (plainly : Bool) (headline message : String) : String :=
  let mark := coloured plainly "error:" (some .red)
  coloured plainly headline (some .red) [.bold] ++ s!"\n{mark} {message}\n"

/-- What the build tool says at its end: truth values count as integers, and other statuses that
are none as a failure. -/
def lastWords (plainly : Bool) : Ending → LastWords
  | status code =>
    if code.integer?.isSome then { status := code }
    else
      let shown := code.quoted fun _ => "object"
      { status := .int 1
        logged := [⟨.warning, Engine.ownLogger, s!"SystemExit.code is not an integer: {shown}"⟩] }
  | fault .interrupted =>
    { status := .int 130, errors := coloured plainly "interrupted" (some .red) ++ "\n" }
  | fault (.configuration problem l) => {
      status := .int 2
      errors := errorLines plainly "BUILD ABORTED" (Fault.configuration problem l).message }
  | fault _ =>
    { status := .int 3, logged := [⟨.error, Engine.ownLogger, unexpectedText⟩] }

end Ending

/-- The status that tells how a build ended. -/
def statusOf : BuildOutcome → Int
  | .success => 0
  | .failed => 1
  | .aborted => 2

/-- What is said about the result of a build: for readers, and to the stream for errors. -/
def resultText (plainly : Bool) (r : BuildResult) : String × String :=
  match r.outcome with
  | .success => (coloured plainly "BUILD SUCCESSFUL" (some .green) [.bold] ++ "\n", "")
  | outcome =>
    let headline := if outcome = .failed then "BUILD FAILED" else "BUILD ABORTED"
    ("\n", Ending.errorLines plainly headline (r.message.getD "None"))

end BuildEngine.CommandLine
