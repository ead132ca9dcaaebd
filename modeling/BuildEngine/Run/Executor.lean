import BuildEngine.Run.Invocation

/-!
Running targets. Targets run one after another in the order of the graph, each one unless its
conditions keep it from running. When a target failed, the others are aborted; a run that keeps
going aborts only those that depend on something that did not complete. How the tasks in targets
are performed, and who is told about it, are parameters here.
-/

namespace BuildEngine

/-- The fault of targets that cannot be ordered, in a project of a name. -/
def GraphError.fault (project : String) : GraphError → Fault
  | unknownGoal name => (Problem.unknownTarget name project).fault
  | unknownDependency name user location =>
    (Problem.unknownDependency name project user).faultAt location
  | cycle names location => (Problem.dependencyCycle names).faultAt location
  | absent name => .absentTarget name

/-- A target of a project, which has to be there. -/
def Project.target (p : Project) (name : String) : Except Fault Target :=
  match p.targets.find? name with
  | some t => .ok t
  | none => .error (Problem.unknownTarget name p.name).fault

/-- How a run of targets stands after some of them. -/
inductive Standing where
  | completed
  /-- A target failed; the fault is that of the first one. -/
  | failed (fault : Fault)
  /-- Nothing more is run, because of a fault that is none of a target. -/
  | stopped (fault : Fault)

namespace Standing

/-- Whether some target failed. -/
def hasFailed : Standing → Bool
  | failed _ => true
  | _ => false

/-- How a run stands after a further target, where the first failure counts. -/
def andThen : Standing → Standing → Standing
  | completed, latest => latest
  | _, stopped fault => stopped fault
  | earlier, _ => earlier

end Standing

namespace TargetGraph

/-- A target of a graph, which has to be there. -/
def get (g : TargetGraph) (targets : Targets) (name : String) : Except Fault Target :=
  match g.find? targets name with
  | some t => .ok t
  | none => .error (.absentTarget name)

/-- The targets of a trimmed graph as they are run. -/
def executionOrder (g : TargetGraph) (targets : Targets) : Except Fault (List Target) :=
  g.order.mapM (g.get targets)

/-- Gives a target a status, unless it came to an end before. -/
def changeStatus (g : TargetGraph) (name : String) (status : TargetStatus) :
    Except Fault TargetGraph :=
  let state := (g.statusOf name).state
  if state.isFinal then .error (.settledTarget name state.name)
  else .ok (g.withStatus name status)

/-- Lets a target run. -/
def start (g : TargetGraph) (name : String) : Except Fault TargetGraph := do
  (← g.changeStatus name ⟨.ready, none⟩).changeStatus name ⟨.running, none⟩

/-- Why a target is aborted when its turn comes, if it is. -/
def obstacle? (g : TargetGraph) (keepGoing : Bool) (outcome : Standing) (name : String) :
    Option String :=
  if outcome.hasFailed && !keepGoing then some "build aborted"
  else
    ((g.prerequisites name).find? fun n => !(g.statusOf n).state.isOk).map fun n =>
      s!"dependency {Text.quote n} did not complete"

end TargetGraph

namespace Engine

variable {φ : Type}

/-- Who is told about the events of a run. -/
abbrev Audience (φ : Type) := Event → Engine φ Unit

/-- Performs what stands in a target at some positions, one after another. The result is the first
fault with the name of what it arose in; nothing is performed after it. -/
def performIn (perform : Performer φ) (tell : Audience φ) (project : ProjectId) (target : String) :
    List Nat → Engine φ (Option (String × Fault))
  | [] => return none
  | position :: rest => do
    tell (.beforeTask target position (← observe (·.taskAt project target position)))
    match ← attempt (perform project target position) with
    | .ok (some completion) =>
      let task ← observe (·.taskAt project target position)
      tell (.afterTask target position task completion.toTaskStatus)
      performIn perform tell project target rest
    | .ok none => performIn perform tell project target rest
    | .error fault =>
      let task ← observe (·.taskAt project target position)
      tell (.afterTask target position task ⟨.failed, none⟩)
      return some (task, fault)

def positions (project : ProjectId) (target : String) : Engine φ (List Nat) :=
  observe fun w => List.range (w.invocationCount project target)

@[simp] theorem run_positions (project : ProjectId) (target : String) (w : World φ) :
    (positions project target).run w =
      (.ok (List.range (w.invocationCount project target)), w) := rfl

/-- The remark about a target that failed. -/
def failureText (fault : Fault) : String :=
  if fault.isBuildFault then fault.message else s!"unhandled exception: {fault.message}"

def settle (tell : Audience φ) (g : TargetGraph) (target : String) (status : TargetStatus)
    (outcome : Standing) : Engine φ (TargetGraph × Standing) := do
  match g.changeStatus target status with
  | .error fault => return (g, .stopped fault)
  | .ok settled =>
    tell (.afterTarget target status)
    return (settled, outcome)

/-- Runs a target whose dependencies have completed. -/
def runTarget (perform : Performer φ) (tell : Audience φ) (project : ProjectId) (g : TargetGraph)
    (target : Target) : Engine φ (TargetGraph × Standing) := do
  match (← Engine.project project).guard? target with
  | some reason => settle tell g target.name ⟨.skipped, some reason⟩ .completed
  | none =>
    match g.start target.name with
    | .error fault => return (g, .stopped fault)
    | .ok running =>
      tell (.beforeTarget target.name)
      match ← performIn perform tell project target.name (← positions project target.name) with
      | none => settle tell running target.name ⟨.done, none⟩ .completed
      | some (_, .interrupted) => return (running, .stopped .interrupted)
      | some (task, fault) =>
        settle tell running target.name ⟨.failed, some (failureText fault)⟩
          (.failed (.build target.name (some task) fault))

/-- Runs a target when its turn comes, or aborts it. -/
def takeTurn (perform : Performer φ) (tell : Audience φ) (project : ProjectId) (keepGoing : Bool)
    (g : TargetGraph) (outcome : Standing) (target : Target) :
    Engine φ (TargetGraph × Standing) := do
  match g.obstacle? keepGoing outcome target.name with
  | some reason => settle tell g target.name ⟨.aborted, some reason⟩ outcome
  | none =>
    let (g, latest) ← runTarget perform tell project g target
    return (g, outcome.andThen latest)

/-- Lets targets take their turns one after another. -/
def runTargets (perform : Performer φ) (tell : Audience φ) (project : ProjectId)
    (keepGoing : Bool) :
    List Target → TargetGraph → Standing → Engine φ (TargetGraph × Standing)
  | [], g, outcome => return (g, outcome)
  | target :: rest, g, outcome => do
    match ← takeTurn perform tell project keepGoing g outcome target with
    | (g, .stopped fault) => return (g, .stopped fault)
    | (g, outcome) => runTargets perform tell project keepGoing rest g outcome

/-- Runs the targets of a trimmed graph between the announcements of the begin and the end. The
result is what became of the targets, and how the run stands. -/
def conduct (perform : Performer φ) (tell : Audience φ) (project : ProjectId) (keepGoing : Bool)
    (targets : Targets) (g : TargetGraph) : Engine φ (TargetGraph × Standing) := do
  tell (.beforeBuild (← Engine.project project).name g.order)
  let (g, outcome) ←
    match g.executionOrder targets with
    | .ok members => runTargets perform tell project keepGoing members g .completed
    | .error fault => pure (g, .stopped fault)
  tell (.afterBuild g.isComplete g.notExecuted)
  return (g, outcome)

/-- Runs the targets of a trimmed graph, and ends with the fault of the first one that failed. -/
def runGraph (perform : Performer φ) (tell : Audience φ) (project : ProjectId) (keepGoing : Bool)
    (targets : Targets) (g : TargetGraph) : Engine φ Unit := do
  match (← conduct perform tell project keepGoing targets g).2 with
  | .completed => return ()
  | .failed fault | .stopped fault => throw fault

/-- Runs targets of a project and what they depend on. Nothing is run if some of them is missing
or depends on itself. Projects that run on behalf of others do not keep going. -/
def executeBy (perform : Performer φ) (tell : Audience φ) (project : ProjectId)
    (goals : List String) : Engine φ Unit := do
  let p ← Engine.project project
  match (TargetGraph.ofTargets p.targets).trim p.targets goals with
  | .error error => throw (error.fault p.name)
  | .ok g =>
    runGraph perform tell project ((← get).keepGoing && !p.haltOnFailure) p.targets g

/-- Runs targets of a project and what they depend on, where tasks call targets in some way. -/
def execute [FileSystem φ] (caller : Caller φ) (tell : Audience φ) (project : ProjectId)
    (goals : List String) : Engine φ Unit :=
  executeBy (performInvocation caller) tell project goals

end Engine
end BuildEngine
