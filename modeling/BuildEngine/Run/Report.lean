import BuildEngine.Run.Event
import BuildEngine.Table
import BuildEngine.Text.Colour
import BuildEngine.Text.Plural

/-!
Reports: what is printed about runs while they go on, and a summary at the end of each. A report
remembers the states of targets over all runs that it is given.
-/

namespace BuildEngine

open BuildEngine.Text

/-- How a report is written. -/
structure ReportStyle where
  /-- What stands in front of the lines about targets. -/
  mark : String := ">"
  status : TargetStatus → String := TargetStatus.text
  header : String → String := id
  duration : String → String := id
  /-- How the time is written that a target took; a run itself knows no time. -/
  elapsed : String := "[T]"

def TargetState.colour : TargetState → Colour
  | .pending | .ready | .running => .magenta
  | .skipped => .yellow
  | .done => .green
  | .failed | .aborted => .red

def TargetStatus.colouredText (plainly : Bool) (s : TargetStatus) : String :=
  coloured plainly s.state.name (some s.state.colour) ++ remark s.message

/-- The style of reports on terminals, which may show colours or not. -/
def ReportStyle.onTerminal (plainly : Bool) : ReportStyle where
  status := TargetStatus.colouredText plainly
  header s := coloured plainly s (some .cyan) [.bold, .underlined]
  duration s := coloured plainly s (some .cyan)

/-- A report, with what it remembers of all runs so far. -/
structure Report where
  style : ReportStyle := {}
  /-- The last status of every target that came to an end. -/
  status : Table String TargetStatus := .empty
  /-- The targets that were started in some run. -/
  started : List String := []
  /-- The targets whose duration is known. -/
  timed : List String := []

namespace Report

instance : Inhabited Report := ⟨{}⟩

/-- The title above the targets that were aborted. -/
def notExecutedTitle : String := "Targets that were not executed due to failures"

/-- The blanks in front of lines that are set under a marked one. -/
def indent (r : Report) : String := "".pushn ' ' (r.style.mark.length + 1)

def printed (lines : List String) : String := String.join (lines.map (· ++ "\n"))

def titleLines (r : Report) (title : String) : List String := ["", r.style.header title, ""]

/-- The targets of the summary: all that were not aborted when they were last seen. -/
def executed (r : Report) : List (String × TargetStatus) :=
  r.status.entries.filter fun entry => entry.2.state != .aborted

def summaryLine (r : Report) (entry : String × TargetStatus) : String :=
  let duration := if r.timed.contains entry.1 then r.style.duration r.style.elapsed else ""
  s!"{r.indent}{entry.1} {r.style.status entry.2} {duration}"

/-- The lines at the end of a run. -/
def summaryLines (r : Report) (notExecuted : List String) : List String :=
  let aborted :=
    if notExecuted.isEmpty then []
    else r.titleLines notExecutedTitle ++ notExecuted.map (r.indent ++ ·)
  let count := r.executed.length
  let targets := pluralize "target" count
  r.titleLines "Build summary" ++ r.executed.map r.summaryLine ++ aborted ++
    ["", s!"{count} {targets} run, {notExecuted.length} not executed"]

/-- What a report prints at an event, and what it remembers. -/
def tell (r : Report) : Event → Report × String
  | .beforeBuild project _ => (r, printed (r.titleLines s!"Build {project}"))
  | .beforeTarget target =>
    ({ r with started := target :: r.started }, printed [s!"{r.style.mark} {target}:"])
  | .beforeTask .. => (r, "")
  | .afterTask _ _ task status =>
    if status.type = .succeeded then (r, "")
    else
      let remark := TargetStatus.remark status.message
      (r, printed [s!"{r.indent}[{task}] {status.type.name}{remark}"])
  | .afterTarget target status =>
    let text :=
      if status.state = .skipped then
        printed [s!"{r.style.mark} {target}: {r.style.status status}"]
      else ""
    let timed := if r.started.contains target then target :: r.timed else r.timed
    ({ r with status := r.status.put target status, timed }, text)
  | .afterBuild _ notExecuted => (r, printed (r.summaryLines notExecuted))

end Report
end BuildEngine
