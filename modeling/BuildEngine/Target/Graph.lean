import BuildEngine.Target.Status
import BuildEngine.Target.Basic

/-!
The graph of targets: an edge leads from a target to one that depends on it. Trimming a graph to
some goals keeps them and all they depend on, finds the order in which they run, and rejects goals
that depend on something that does not exist or on a cycle.
-/

namespace BuildEngine

/-- Why targets cannot be ordered. -/
inductive GraphError where
  | unknownGoal (name : String)
  | unknownDependency (name user : String) (location : Location)
  | cycle (names : List String) (location : Location)
  /-- The project has a target that was added after the graph was made. -/
  | absent (name : String)
  deriving Repr, DecidableEq, Inhabited

/-- A graph over targets, with what became of them. -/
structure TargetGraph where
  nodes : List String := []
  edges : List (String × String) := []
  /-- The execution order; empty unless the graph is trimmed. -/
  order : List String := []
  status : Table String TargetStatus := .empty

namespace TargetGraph

instance : Inhabited TargetGraph := ⟨{}⟩

/-- Adds a member to the end of a list unless it is in it. -/
def insertNew {α : Type} [BEq α] (as : List α) (a : α) : List α :=
  if as.contains a then as else as ++ [a]

/-- Adds all targets, and the edges between targets that are there. -/
def populate (g : TargetGraph) (targets : Targets) : TargetGraph :=
  let nodes := targets.keys.foldl insertNew g.nodes
  let links := targets.values.flatMap fun t =>
    (t.depends.filter nodes.contains).map fun dependency => (dependency, t.name)
  { g with nodes, edges := links.foldl insertNew g.edges }

def ofTargets (targets : Targets) : TargetGraph := populate {} targets

/-- The targets that a target depends on directly. -/
def dependencies (g : TargetGraph) (name : String) : List String :=
  (g.edges.filter fun edge => edge.2 == name).map Prod.fst

/-- The targets that depend on a target directly. -/
def dependents (g : TargetGraph) (name : String) : List String :=
  (g.edges.filter fun edge => edge.1 == name).map Prod.snd

def find? (g : TargetGraph) (targets : Targets) (name : String) : Option Target :=
  if g.nodes.contains name then targets.find? name else none

/-- The names in execution order, or all names if there is none. -/
def names (g : TargetGraph) : List String := if g.order.isEmpty then g.nodes else g.order

/-- The part of a walk's path that starts at a name. -/
def cycleAt (path : List String) (name : String) : List String :=
  path.dropWhile (· != name) ++ [name]

mutual

/-- Walks a target and its dependencies depth first, for a number of levels: `path` leads to the
target, `order` holds the targets whose walk is complete, each after its dependencies. -/
def visit (g : TargetGraph) (targets : Targets) (levels : Nat) (path order : List String)
    (name : String) : Except GraphError (List String) :=
  if path.contains name then
    let location := ((g.find? targets name).map (·.location)).getD .unknown
    .error (.cycle (cycleAt path name) location)
  else if order.contains name then .ok order
  else
    match levels, g.find? targets name with
    | below + 1, some target => do
      return (← visitAll g targets below target (path ++ [name]) order target.depends) ++ [name]
    | _, _ => .error (.absent name)
  termination_by (levels, 0)

/-- Walks dependencies of a target one after another. -/
def visitAll (g : TargetGraph) (targets : Targets) (levels : Nat) (user : Target)
    (path order : List String) : List String → Except GraphError (List String)
  | [] => .ok order
  | dependency :: rest => do
    if !targets.contains dependency then
      throw (.unknownDependency dependency user.name user.location)
    visitAll g targets levels user path (← visit g targets levels path order dependency) rest
  termination_by rest => (levels, rest.length + 1)

end

/-- The targets that goals need, each after its dependencies. No path repeats a target, so there
are never more levels than targets. -/
def orderOf (g : TargetGraph) (targets : Targets) (goals : List String) :
    Except GraphError (List String) :=
  goals.foldlM
    (fun order goal =>
      if g.nodes.contains goal then visit g targets (g.nodes.length + 1) [] order goal
      else .error (.unknownGoal goal))
    []

/-- The part of a graph with the given order. -/
def restrict (g : TargetGraph) (order : List String) : TargetGraph where
  nodes := g.nodes.filter order.contains
  edges := g.nodes.flatMap fun source =>
    (g.edges.filter fun edge => edge.1 == source).filter fun edge =>
      order.contains edge.1 && order.contains edge.2
  order := order
  status := .ofList (order.map fun name => (name, {}))

/-- The part of a graph that goals need, in its execution order. -/
def trim (g : TargetGraph) (targets : Targets) (goals : List String) :
    Except GraphError TargetGraph :=
  (g.orderOf targets goals).map g.restrict

mutual

/-- Searches a cycle from a target along the edges, for a number of levels: `path` leads to the
target and `explored` holds those from which no cycle is reached. -/
def searchCycle (g : TargetGraph) (levels : Nat) (path explored : List String) (name : String) :
    Except (List String) (List String) :=
  if path.contains name then .error (cycleAt path name)
  else if explored.contains name then .ok explored
  else
    match levels with
    | 0 => .ok explored
    | below + 1 => do
      return (← searchCycles g below (path ++ [name]) explored (g.dependents name)) ++ [name]
  termination_by (levels, 0)

def searchCycles (g : TargetGraph) (levels : Nat) (path explored : List String) :
    List String → Except (List String) (List String)
  | [] => .ok explored
  | name :: rest => do
    searchCycles g levels path (← searchCycle g levels path explored name) rest
  termination_by rest => (levels, rest.length + 1)

end

/-- The steps from each of some names to the next one. -/
def stepsAlong (names : List String) : List (String × String) := names.zip names.tail

/-- The edges of a cycle of the graph, one after another from the target at which it closes. -/
def cycle? (g : TargetGraph) : Option (List (String × String)) :=
  match g.searchCycles (g.nodes.length + 1) [] [] g.nodes with
  | .ok _ => none
  | .error cycle => some (stepsAlong cycle)

/-- The first dependency of some target that does not exist. -/
def missingDependency? (targets : Targets) (members : List Target) : Option GraphError :=
  members.findSome? fun t =>
    (t.depends.find? (!targets.contains ·)).map fun dependency =>
      .unknownDependency dependency t.name t.location

/-- The names on a cycle of which the edges are given, closed with the first of them. -/
def namesAlong (edges : List (String × String)) : List String :=
  edges.map Prod.fst ++ (edges.head?.map Prod.fst).toList

/-- Checks all targets of the graph for dependencies that do not exist, and for cycles by a search
that gives the edges of one. -/
def validateBy (search : TargetGraph → Option (List (String × String))) (g : TargetGraph)
    (targets : Targets) : Except GraphError Unit :=
  match missingDependency? targets (g.names.filterMap (g.find? targets)) with
  | some error => .error error
  | none =>
    match search g with
    | none => .ok ()
    | some edges =>
      let cycle := namesAlong edges
      let closing := (cycle.head?.bind (g.find? targets)).map (·.location)
      .error (.cycle cycle (closing.getD .unknown))

def validate (g : TargetGraph) (targets : Targets) : Except GraphError Unit :=
  g.validateBy cycle? targets

/-- Takes names from a stack, for a number of steps; each new one is followed by what it depends
on, the last dependency first. -/
def prerequisitesFrom (g : TargetGraph) (steps : Nat) (stack seen : List String) : List String :=
  match steps, stack with
  | more + 1, name :: rest =>
    if seen.contains name then prerequisitesFrom g more rest seen
    else prerequisitesFrom g more ((g.dependencies name).reverse ++ rest) (seen ++ [name])
  | _, _ => seen

/-- All targets that a target depends on, directly or not. Each edge is put on the stack at most
once for the walk and once for the start, which bounds the steps. -/
def prerequisites (g : TargetGraph) (name : String) : List String :=
  g.prerequisitesFrom (2 * g.edges.length + 1) (g.dependencies name).reverse []

/-- What became of a target. -/
def statusOf (g : TargetGraph) (name : String) : TargetStatus :=
  (g.status.find? name).getD {}

def withStatus (g : TargetGraph) (name : String) (status : TargetStatus) : TargetGraph :=
  { g with status := g.status.put name status }

/-- The targets that have not come to an end. -/
def pending (g : TargetGraph) : List String := g.names.filter fun n => !(g.statusOf n).state.isFinal

def failed (g : TargetGraph) : List String := g.names.filter fun n => (g.statusOf n).state == .failed

/-- The targets that were aborted. -/
def notExecuted (g : TargetGraph) : List String :=
  g.names.filter fun n => (g.statusOf n).state == .aborted

/-- Whether every target was executed or skipped. -/
def isComplete (g : TargetGraph) : Bool := g.names.all fun n => (g.statusOf n).state.isOk

end TargetGraph
end BuildEngine
