import BuildEngine.Proofs.Announcement
import BuildEngine.Proofs.Outcome
import BuildEngine.Proofs.UserProperty

/-! Summaries of runs that share a report. A report remembers how targets ended in all runs, and the
summary at the end of a run lists whatever it remembers; but which targets were not executed is told
by the graph of that run alone. So a summary is about its run exactly as long as nothing is
remembered of targets that are no part of the run. -/

namespace BuildEngine

open Engine

namespace TargetGraph

variable {runs : List TargetGraph} {g : TargetGraph} {name : String}

/-- What became of the targets of a trimmed graph, in their order. -/
def outcomes (g : TargetGraph) : List (String × TargetStatus) :=
  g.order.map fun name => (name, g.statusOf name)

/-- The status that a target had at the end of the last run that it was part of. The runs are told
by the graphs that they leave. -/
def latest? (runs : List TargetGraph) (name : String) : Option TargetStatus :=
  (runs.reverse.find? (·.order.contains name)).map (·.statusOf name)

/-- How targets ended in some runs, one after another. -/
def remembered (runs : List TargetGraph) : Table String TargetStatus :=
  .ofList (runs.flatMap outcomes)

theorem latest?_concat (runs : List TargetGraph) (g : TargetGraph) (name : String) :
    latest? (runs ++ [g]) name =
      if name ∈ g.order then some (g.statusOf name) else latest? runs name := by
  rw [latest?, List.reverse_concat, List.find?_cons, latest?]
  by_cases member : name ∈ g.order
  · simp [member]
  · simp [member]

theorem remembered_concat (runs : List TargetGraph) (g : TargetGraph) :
    remembered (runs ++ [g]) =
      g.outcomes.foldl (fun t entry => t.put entry.1 entry.2) (remembered runs) := by
  rw [remembered, List.flatMap_append, Table.ofList, List.foldl_append, List.flatMap_singleton]
  rfl

theorem find?_remembered (runs : List TargetGraph) (name : String) :
    (remembered runs).find? name = latest? runs name := by
  -- A later run overwrites what an earlier one left, so the induction is from the last run.
  induction runs using List.reverseRecOn with
  | nil => rfl
  | append_singleton runs g ih =>
    rw [remembered_concat, latest?_concat]
    by_cases member : name ∈ g.order
    · rw [if_pos member]
      refine Table.find?_foldl_put _ _ ?_ (.inr (List.mem_map_of_mem member))
      rintro _ stored rfl
      obtain ⟨_, _, rfl⟩ := List.mem_map.mp stored
      rfl
    · rw [if_neg member, Table.find?_foldl_put_of_absent, ih]
      rwa [outcomes, List.map_map, Function.comp_def, List.map_id']

end TargetGraph

namespace Report

variable {r : Report} {g : TargetGraph} {runs : List TargetGraph} {name : String}
variable {status : TargetStatus}

/-- A summary is about a run: it lists exactly the targets that were not aborted in the run, each
once with the status that it was given there, and the numbers in it add up to all targets of the
run. -/
structure Sums (r : Report) (g : TargetGraph) : Prop where
  listed : ∀ name status, (name, status) ∈ r.executed ↔
    name ∈ g.order ∧ g.statusOf name = status ∧ status.state ≠ .aborted
  once : (r.executed.map Prod.fst).Nodup
  counts : r.executed.length + g.notExecuted.length = g.order.length

/-- What a summary lists that is no part of a run. -/
def strays (r : Report) (g : TargetGraph) : List (String × TargetStatus) :=
  r.executed.filter fun entry => !g.order.contains entry.1

theorem mem_executed_iff :
    (name, status) ∈ r.executed ↔ r.status.find? name = some status ∧ status.state ≠ .aborted := by
  rw [executed, List.mem_filter]
  refine and_congr ⟨Table.find?_of_mem_entries, Table.mem_entries_of_find?⟩ ?_
  simp

theorem nodup_executed (r : Report) : (r.executed.map Prod.fst).Nodup :=
  r.status.distinct.sublist (List.filter_sublist.map Prod.fst)

/-- What is listed of the targets of a run are those that were not aborted. -/
theorem executed_of_order (distinct : g.order.Nodup)
    (recalls : ∀ name ∈ g.order, r.status.find? name = some (g.statusOf name)) :
    ((r.executed.filter fun entry => g.order.contains entry.1).map Prod.fst).Perm
      (g.order.filter fun name => !((g.statusOf name).state == .aborted)) := by
  refine (List.perm_ext_iff_of_nodup ?_ (distinct.filter _)).mpr fun name => ?_
  · exact r.nodup_executed.sublist (List.filter_sublist.map Prod.fst)
  simp only [List.mem_map, List.mem_filter]
  constructor
  · rintro ⟨⟨name, status⟩, ⟨listed, inside⟩, rfl⟩
    have member : name ∈ g.order := by simpa using inside
    obtain ⟨found, taken⟩ := mem_executed_iff.mp listed
    rw [recalls name member] at found
    cases found
    exact ⟨member, by simpa using taken⟩
  · rintro ⟨member, taken⟩
    refine ⟨(name, g.statusOf name), ⟨mem_executed_iff.mpr ⟨recalls name member, ?_⟩, ?_⟩, rfl⟩
    · simpa using taken
    · simpa using member

/-- The numbers in a summary add up to the targets of a run and what else is listed. -/
theorem length_executed (distinct : g.order.Nodup) (names : g.names = g.order)
    (recalls : ∀ name ∈ g.order, r.status.find? name = some (g.statusOf name)) :
    r.executed.length + g.notExecuted.length = g.order.length + (r.strays g).length := by
  have part := (executed_of_order distinct recalls).length_eq
  rw [List.length_map] at part
  have listed := List.length_eq_length_filter_add (l := r.executed)
    fun entry => g.order.contains entry.1
  have all := List.length_eq_length_filter_add (l := g.order)
    fun name => (g.statusOf name).state == .aborted
  rw [TargetGraph.notExecuted, names, strays]
  omega

theorem mem_executed_concat_iff
    (recalls : ∀ name, r.status.find? name = TargetGraph.latest? (runs ++ [g]) name) :
    (name, status) ∈ r.executed ↔ status.state ≠ .aborted ∧
      ((name ∈ g.order ∧ g.statusOf name = status) ∨
        (name ∉ g.order ∧ TargetGraph.latest? runs name = some status)) := by
  rw [mem_executed_iff, recalls, TargetGraph.latest?_concat]
  by_cases member : name ∈ g.order
  · simp [member, and_comm]
  · simp [member, and_comm]

/-- A summary is about the last run exactly if all targets that are no part of it were aborted in the
last run that they were part of. -/
theorem sums_iff (distinct : g.order.Nodup) (names : g.names = g.order)
    (recalls : ∀ name, r.status.find? name = TargetGraph.latest? (runs ++ [g]) name) :
    r.Sums g ↔ ∀ name ∉ g.order, ∀ status,
      TargetGraph.latest? runs name = some status → status.state = .aborted := by
  have listed {name : String} {status : TargetStatus} :=
    @mem_executed_concat_iff r g runs name status recalls
  constructor
  · intro sums name outside status earlier
    by_contra taken
    have inside := (sums.listed name status).mp (listed.mpr ⟨taken, .inr ⟨outside, earlier⟩⟩)
    exact outside inside.1
  · intro forgotten
    have inside {name : String} {status : TargetStatus} (member : (name, status) ∈ r.executed) :
        name ∈ g.order ∧ g.statusOf name = status := by
      obtain ⟨taken, own | ⟨outside, earlier⟩⟩ := listed.mp member
      · exact own
      · exact absurd (forgotten name outside status earlier) taken
    have none : r.strays g = [] := by
      refine List.filter_eq_nil_iff.mpr fun entry member => ?_
      simpa using (inside member).1
    refine ⟨fun name status => ?_, r.nodup_executed, ?_⟩
    · rw [listed]
      constructor
      · rintro ⟨taken, own | ⟨outside, earlier⟩⟩
        · exact ⟨own.1, own.2, taken⟩
        · exact absurd (forgotten name outside status earlier) taken
      · rintro ⟨member, same, taken⟩
        exact ⟨taken, .inl ⟨member, same⟩⟩
    · have counts := length_executed (r := r) distinct names fun name member => by
        rw [recalls, TargetGraph.latest?_concat, if_pos member]
      rw [counts, none]
      rfl

/-- An event changes what a report remembers if it is the end of a target. -/
theorem status_tell (r : Report) (event : Event) :
    (r.tell event).1.status =
      (Step.ended? (.told event)).elim r.status fun entry => r.status.put entry.1 entry.2 := by
  cases event with
  | afterTask _ _ _ status =>
    rw [tell]
    split <;> rfl
  | _ => rfl

end Report

/-! What is done on behalf of projects tells nobody, so that a report hears of nothing but runs. -/

namespace Mark

variable {φ : Type} {m : Mark} {w after : World φ}

/-- A step of the engine of which the observer of the world does not hear. -/
def Unheard (m : Mark) (w after : World φ) : Prop :=
  m.Change w after ∧ after.observer = w.observer

instance admits_unheard (m : Mark) : m.Admits (m.Unheard (φ := φ)) where
  change step := step.1
  aside _ projects objects observer := ⟨.aside projects objects, observer⟩
  object id change later kind home _ projects objects observer :=
    ⟨.object id change later kind home projects objects, observer⟩
  project id change later written _ _ held _ projects objects observer :=
    ⟨.project id change later written (fun o holds => (held o holds).imp_right And.left) projects
      objects, observer⟩
  newObject o home _ projects objects observer := ⟨.newObject o home projects objects, observer⟩
  newProject p _ empty _ projects objects observer :=
    ⟨.newProject p empty projects objects, observer⟩

theorem observer_of_unheard (steps : Relation.ReflTransGen m.Unheard w after) :
    after.observer = w.observer := by
  induction steps with
  | refl => rfl
  | tail _ step ih => exact step.2.trans ih

end Mark

namespace Engine

variable {φ : Type}

theorem run_notify (event : Event) (w : World φ) :
    (notify event).run w = (.ok (), match w.observer with
      | .silent => w
      | .recorder => { w with events := w.events.push event }
      | .reporter report => { w with
          observer := .reporter (report.tell event).1
          printed := w.printed ++ (report.tell event).2 }) := rfl

theorem run_notify_reporter {w : World φ} {r : Report} (observer : w.observer = .reporter r)
    (event : Event) : (notify event).run w = (.ok (), { w with
      observer := .reporter (r.tell event).1, printed := w.printed ++ (r.tell event).2 }) := by
  rw [run_notify, observer]

theorem projects_notify (event : Event) (w : World φ) :
    ((notify event).run w).2.projects = w.projects := by
  rw [run_notify]
  cases w.observer <;> rfl

section Unheard

variable [FileSystem φ]

/-- Performing what stands in targets, and all that is called there, is not heard of. -/
theorem performInvocation_unheard (project : ProjectId) (target : String) (position : Nat)
    (w : World φ) :
    ((performInvocation call project target position).run w).2.observer = w.observer := by
  have calls : Mark.origin.CallsTake Mark.origin.Unheard (call (φ := φ)) :=
    fun _ id _ => Mark.confined_callWithin _ id
  exact Mark.observer_of_unheard (Mark.performsConfined_performInvocation calls w project target
    position (Nat.zero_le _) (Mark.sealed_origin w)).1

theorem loadProject_unheard (e : Element) (properties : List (String × String)) (directory : Path)
    (buildFile : Option Path) (w : World φ) :
    ((loadProject e properties directory buildFile).run w).2.observer = w.observer := by
  have calls : Mark.origin.CallsTake Mark.origin.Unheard (call (φ := φ)) :=
    fun _ id _ => Mark.confined_callWithin _ id
  suffices leads : Leads Mark.origin.Unheard w (loadProject e properties directory buildFile) from
    Mark.observer_of_unheard leads.1
  unfold loadProject
  refine .look (.observe _) fun here _ => ?_
  have adds (p : Project) (empty : ∀ o, ¬ p.Holds o) :
      Leads Mark.origin.Unheard w (addProject p) := by
    rw [Leads, run_addProject]
    exact ⟨.single ⟨.newProject p empty rfl rfl, rfl⟩, fun _ _ => trivial⟩
  refine .bind (adds _ (Project.not_holds_new rfl rfl)) fun after project _ _ => ?_
  have loads := Mark.confined_load calls (Nat.zero_le project) e (Mark.sealed_origin after)
  exact .bind (loads.adapting _) fun _ _ _ _ => .pure trivial

end Unheard

variable {perform : Performer φ} {project : ProjectId} {goals : List String} {ts : Targets}
variable {g final : TargetGraph} {members : List Target} {steps : List Step} {r : Report}
variable {w after : World φ}

/-- After some steps a report remembers the ends of targets that were told in them. -/
theorem Plays.report (plays : Plays perform notify project w steps after)
    (unheard : ∀ target position w,
      ((perform project target position).run w).2.observer = w.observer)
    (observer : w.observer = .reporter r) :
    ∃ later, after.observer = .reporter later ∧
      later.status =
        (steps.filterMap Step.ended?).foldl (fun t entry => t.put entry.1 entry.2) r.status := by
  induction plays generalizing r with
  | done => exact ⟨r, observer, rfl⟩
  | @told event steps _ _ _ heard _ ih =>
    rw [run_notify_reporter observer] at heard
    cases heard
    obtain ⟨later, reported, status⟩ := ih rfl
    refine ⟨later, reported, ?_⟩
    rw [status, Report.status_tell, List.filterMap_cons]
    cases Step.ended? (.told event) <;> rfl
  | @performed target position _ _ w _ _ ended _ ih =>
    have same := unheard target position w
    rw [ended] at same
    exact ih (same.trans observer)

theorem Course.names {keepGoing : Bool} {outcome last : Standing} {tell : Audience φ}
    (course : Course perform tell project keepGoing members g outcome w steps final last after) :
    final.names = g.names := by
  induction course with
  | finished => rfl
  | stopped => rfl
  | turn _ _ _ _ ih => exact ih

/-- A run of a graph in which nothing is interrupted ends with a summary of what the report
remembers then, which is what it remembered before and how the targets of the run ended. -/
theorem conduct_report (keepGoing : Bool) (handled : Handled perform notify project w)
    (unheard : ∀ target position w,
      ((perform project target position).run w).2.observer = w.observer)
    (ready : Ready ts g members) (observer : w.observer = .reporter r) :
    ∃ final last after before later,
      (conduct perform notify project keepGoing ts g).run w = (.ok (final, last), after) ∧
      final.order = g.order ∧ final.names = g.names ∧ after.observer = .reporter later ∧
      after.printed = before ++ Report.printed (later.summaryLines final.notExecuted) ∧
      later.status = final.outcomes.foldl (fun t entry => t.put entry.1 entry.2) r.status := by
  obtain ⟨steps, final, last, w₀, w₁, after, begun, course, ended, run⟩ :=
    conduct_course perform project keepGoing notify_quiet ready w
  have plays := Plays.told begun course.plays
  -- Without a fault that interrupts it, the course went through all targets, and all were told.
  have calm : Calm ([.told (.beforeBuild (w.project project).name g.order)] ++ steps) :=
    plays.calm handled
  obtain ⟨later, reported, status⟩ := plays.report unheard observer
  rw [run_notify_reporter reported] at ended
  cases ended
  refine ⟨final, last, _, w₁.printed, later, run, course.order, course.names, rfl, rfl, ?_⟩
  have told := course.ended ready.distinct (course.goesOn trivial calm.right)
  have outcomes : final.outcomes = members.map fun t => (t.name, final.statusOf t.name) := by
    rw [TargetGraph.outcomes, course.order, ← ready.names, List.map_map]
    rfl
  rw [status, outcomes, ← told]
  rfl

/-- The targets of a graph that was trimmed to some goals are those that are ordered. -/
theorem names_of_trim
    (success : (TargetGraph.ofTargets ts).trim ts goals = .ok g) : g.names = g.order := by
  obtain ⟨-, restricted⟩ := TargetGraph.serves_of_trim (TargetGraph.covers_ofTargets ts) success
  cases order : g.order with
  | cons => simp [TargetGraph.names, order]
  | nil =>
    rw [TargetGraph.names, order, restricted, TargetGraph.restrict, order]
    simp

/-- Nothing stands in the targets of a project. -/
def Idle (w : World φ) (project : ProjectId) : Prop :=
  ∀ target position, w.invocationAt project target position = default

theorem Idle.of_same (idle : Idle w project) (same : after.projects = w.projects) :
    Idle after project := by
  intro target position
  rw [← idle target position, World.invocationAt, World.project_of_same same, World.invocationAt]

theorem performInvocation_idle [FileSystem φ] (idle : Idle w project) (caller : Caller φ)
    (target : String) (position : Nat) :
    (performInvocation caller project target position).run w = (.ok none, w) := by
  have made : (instantiateInvocation project target position).run w = (.ok none, w) := by
    rw [instantiateInvocation, invocation, run_bind_ok (run_observe _ w), idle]
    rfl
  have prepared : (prepareInvocation project target position).run w = (.ok none, w) := by
    rw [prepareInvocation, run_bind_ok made]
    rfl
  rw [performInvocation, run_bind_ok prepared]
  rfl

theorem Plays.projects_of_idle [FileSystem φ] {caller : Caller φ} {steps : List Step}
    (plays : Plays (performInvocation caller) notify project w steps after)
    (idle : Idle w project) : after.projects = w.projects := by
  induction plays with
  | done => rfl
  | @told event _ w _ _ heard _ ih =>
    have same := projects_notify event w
    rw [heard] at same
    exact (ih (idle.of_same same)).trans same
  | performed ended _ ih =>
    rw [performInvocation_idle idle] at ended
    cases ended
    exact ih idle

theorem handled_of_idle [FileSystem φ] (idle : Idle w project) (caller : Caller φ) :
    Handled (performInvocation caller) notify project w := by
  intro steps reached plays target position
  rw [performInvocation_idle (idle.of_same (plays.projects_of_idle idle))]
  nofun

/-- A build in which nothing is interrupted is aborted and changes nothing, or it runs a graph. -/
theorem buildBy_conducts {tell : Audience φ} (quiet : NeverFaults tell)
    (handled : Handled perform tell project w) (goals : List String) :
    let p := w.project project
    let wanted := goalsOf p goals
    (∃ result, (buildBy perform tell project goals).run w = (.ok result, w) ∧
      result.outcome = .aborted) ∨
    (wanted ≠ [] ∧ ∃ g result final last after,
      (TargetGraph.ofTargets p.targets).trim p.targets wanted = .ok g ∧
      (buildBy perform tell project goals).run w = (.ok result, after) ∧
      (conduct perform tell project (w.keepGoing && !p.haltOnFailure) p.targets g).run w =
        (.ok (final, last), after)) := by
  intro p wanted
  by_cases empty : wanted = []
  · exact .inl ⟨_, buildBy_of_none empty, rfl⟩
  cases ordering : (TargetGraph.ofTargets p.targets).trim p.targets wanted with
  | error error =>
    have justified := TargetGraph.justified_of_trim (TargetGraph.covers_ofTargets _) ordering
    obtain ⟨result, told, aborted⟩ := justified.ofFault? p.name
    exact .inl ⟨result, buildBy_of_some empty (executeBy_of_error ordering) told, aborted⟩
  | ok g =>
    obtain ⟨result, final, last, after, built, run, _⟩ := buildBy_of_ok quiet handled empty ordering
    exact .inr ⟨empty, g, result, final, last, after, rfl, built, run⟩

variable [FileSystem φ]

/-- Worlds that runs lead to which share a report, one after another and whatever is done in
between, by whatever goals of whatever projects. The runs are told by the graphs that they leave;
none is interrupted. -/
inductive Shares : World φ → List TargetGraph → Prop
  | start {w : World φ} {r : Report} (observer : w.observer = .reporter r)
      (fresh : r.status = .empty) : Shares w []
  | aside {w after : World φ} {runs : List TargetGraph} (before : Shares w runs)
      (observer : after.observer = w.observer) : Shares after runs
  | run {w after : World φ} {runs : List TargetGraph} (before : Shares w runs) {project : ProjectId}
      {goals : List String} {g final : TargetGraph} {last : Standing}
      (handled : Handled (performInvocation call) notify project w)
      (wanted : goalsOf (w.project project) goals ≠ [])
      (success : (TargetGraph.ofTargets (w.project project).targets).trim
        (w.project project).targets (goalsOf (w.project project) goals) = .ok g)
      (conducts : (conduct (performInvocation call) notify project
        (w.keepGoing && !(w.project project).haltOnFailure) (w.project project).targets g).run w =
          (.ok (final, last), after)) : Shares after (runs ++ [final])

namespace Shares

variable {runs : List TargetGraph}

/-- Build descriptions may be loaded between runs. -/
theorem load (before : Shares w runs) (e : Element) (properties : List (String × String))
    (directory : Path) (buildFile : Option Path) :
    Shares ((loadProject e properties directory buildFile).run w).2 runs :=
  before.aside (loadProject_unheard e properties directory buildFile w)

/-- A shared report remembers how targets ended in all runs. -/
theorem report (shares : Shares w runs) :
    ∃ r, w.observer = .reporter r ∧ r.status = TargetGraph.remembered runs := by
  induction shares with
  | start observer fresh => exact ⟨_, observer, fresh⟩
  | aside _ observer ih =>
    obtain ⟨r, reported, status⟩ := ih
    exact ⟨r, observer.trans reported, status⟩
  | @run w after runs _ project goals g final last handled _ success conducts ih =>
    obtain ⟨r, reported, status⟩ := ih
    obtain ⟨members, ready⟩ := ready_of_trim success
    obtain ⟨_, _, _, _, later, same, _, _, observer, _, remembers⟩ := conduct_report
      (w.keepGoing && !(w.project project).haltOnFailure) handled
      (performInvocation_unheard project) ready reported
    cases conducts.symm.trans same
    refine ⟨later, observer, ?_⟩
    rw [remembers, status, TargetGraph.remembered_concat]

end Shares

/-! Two targets with nothing in them. -/

namespace Sample

/-- Two targets that have nothing to do with each other, and nothing in them. -/
def chores : Targets := (Targets.empty.put { name := "lint" }).put { name := "docs" }

def choresOf (name : String) : TargetGraph := (TargetGraph.ofTargets chores).restrict [name]

/-- A project with the two targets, and a report. -/
def reported : World MemoryFiles :=
  { files := {}, observer := .reporter {}, projects := [{ directory := .top, targets := chores }] }

theorem trim_chores {name : String} (either : name = "lint" ∨ name = "docs") :
    (TargetGraph.ofTargets chores).trim chores [name] = .ok (choresOf name) := by
  have lint : chores.find? "lint" = some { name := "lint" } := rfl
  have docs : chores.find? "docs" = some { name := "docs" } := rfl
  have nodes : (TargetGraph.ofTargets chores).nodes = ["lint", "docs"] := by decide
  rcases either with rfl | rfl
  · simp [TargetGraph.trim, TargetGraph.orderOf, TargetGraph.visit, TargetGraph.visitAll,
      TargetGraph.find?, nodes, lint, Except.map]
    rfl
  · simp [TargetGraph.trim, TargetGraph.orderOf, TargetGraph.visit, TargetGraph.visitAll,
      TargetGraph.find?, nodes, docs, Except.map]
    rfl

theorem idle_reported (w : World MemoryFiles) (same : w.projects = reported.projects) :
    Idle w 0 := by
  intro target position
  rw [World.invocationAt, World.project_of_same same]
  cases found : (reported.project 0).target? target with
  | none => rfl
  | some t =>
    have empty : t.invocations = [] := by
      unfold Project.target? at found
      split at found
      · cases found
        rfl
      · have stored := Table.mem_entries_of_find? found
        change (target, t) ∈ [("lint", { name := "lint" }), ("docs", { name := "docs" })] at stored
        simp only [List.mem_cons, Prod.mk.injEq, List.not_mem_nil, or_false] at stored
        rcases stored with ⟨-, rfl⟩ | ⟨-, rfl⟩
        · rfl
        · rfl
    rw [Option.bind_some, empty]
    rfl

/-- A run of one of the targets. -/
def runOf (name : String) (w : World MemoryFiles) :
    Except Fault (TargetGraph × Standing) × World MemoryFiles :=
  (conduct (performInvocation call) notify 0 (w.keepGoing && !(w.project 0).haltOnFailure) chores
    (choresOf name)).run w

/-- The world after the first of the targets ran. -/
def linted : World MemoryFiles := (runOf "lint" reported).2

/-- The targets in the last summary. -/
def listed (w : World MemoryFiles) : List String :=
  match w.observer with
  | .reporter r => r.executed.map Prod.fst
  | _ => []

theorem executed_of_listed {w : World MemoryFiles} {first : String} {rest : List String}
    (lists : listed w = first :: rest) :
    ∃ r, w.observer = .reporter r ∧ r.executed.map Prod.fst = first :: rest := by
  unfold listed at lists
  split at lists
  · next r observer => exact ⟨r, observer, lists⟩
  · cases lists

theorem listed_linted : listed linted = ["lint"] := by decide +kernel

theorem listed_both : listed (runOf "docs" linted).2 = ["lint", "docs"] := by decide +kernel

/-- A build of one of the targets runs it. -/
theorem build_chores {w : World MemoryFiles} (same : w.projects = reported.projects) {name : String}
    (either : name = "lint" ∨ name = "docs") :
    ∃ result final last, (build 0 [name]).run w = (.ok result, (runOf name w).2) ∧
      runOf name w = (.ok (final, last), (runOf name w).2) ∧ final.order = [name] := by
  have project : w.project 0 = reported.project 0 := World.project_of_same same 0
  have trimmed : (TargetGraph.ofTargets (w.project 0).targets).trim (w.project 0).targets
      (goalsOf (w.project 0) [name]) = .ok (choresOf name) := by
    rw [project]
    exact trim_chores either
  obtain ⟨_, ready⟩ := ready_of_trim (trim_chores either)
  obtain ⟨_, final, last, _, _, after, _, course, _, conducts⟩ := conduct_course
    (performInvocation call) 0 (w.keepGoing && !(w.project 0).haltOnFailure) notify_quiet ready w
  have targets : chores = (w.project 0).targets := (congrArg Project.targets project).symm
  have wanted : goalsOf (w.project 0) [name] ≠ [] := by simp [goalsOf]
  obtain ⟨result, _, _, _, built, run, _⟩ := buildBy_of_ok notify_quiet
    (handled_of_idle (idle_reported w same) call) wanted trimmed
  rw [targets] at conducts
  cases run.symm.trans conducts
  refine ⟨result, final, last, ?_, ?_, course.order⟩
  · rw [runOf, targets, conducts]
    exact built
  · rw [runOf, targets, conducts]

theorem projects_linted : linted.projects = reported.projects := by
  obtain ⟨_, ready⟩ := ready_of_trim (trim_chores (.inl rfl))
  obtain ⟨_, _, _, _, _, _, begun, course, ended, run⟩ :=
    conduct_course (performInvocation call) 0 false notify_quiet ready reported
  have plays := Plays.told begun (course.plays.append (.single ended))
  have same : linted = _ := congrArg Prod.snd run
  rw [same]
  exact plays.projects_of_idle (idle_reported reported rfl)

end Sample

/-- A build in a world in which earlier runs share a report is aborted and changes nothing, or it
ends with a summary that is printed last. The summary lists how each target ended in the last run
that it was part of, unless it was aborted there; the numbers in it add up to the targets of the run
and what is listed besides. So it is about this run exactly if every target of an earlier run that
is no part of this one was aborted when it was last seen. -/
theorem build_sums_up {earlier : List TargetGraph} (shares : Shares w earlier) (project : ProjectId)
    (goals : List String) (handled : Handled (performInvocation call) notify project w) :
    let p := w.project project
    ∃ result after, (build project goals).run w = (.ok result, after) ∧
      ((result.outcome = .aborted ∧ after = w) ∨
        ∃ g final last before r,
          (TargetGraph.ofTargets p.targets).trim p.targets (goalsOf p goals) = .ok g ∧
          (conduct (performInvocation call) notify project (w.keepGoing && !p.haltOnFailure)
            p.targets g).run w = (.ok (final, last), after) ∧
          Shares after (earlier ++ [final]) ∧ final.order = g.order ∧
          after.observer = .reporter r ∧
          after.printed = before ++ Report.printed (r.summaryLines final.notExecuted) ∧
          (∀ name status, (name, status) ∈ r.executed ↔
            TargetGraph.latest? (earlier ++ [final]) name = some status ∧
              status.state ≠ .aborted) ∧
          (r.executed.map Prod.fst).Nodup ∧
          r.executed.length + final.notExecuted.length =
            final.order.length + (r.strays final).length ∧
          (r.Sums final ↔ ∀ name ∉ final.order, ∀ status,
            TargetGraph.latest? earlier name = some status → status.state = .aborted)) := by
  intro p
  obtain ⟨result, built, aborted⟩ | ⟨wanted, g, result, final, last, after, success, built, run⟩ :=
    buildBy_conducts notify_quiet handled goals
  · exact ⟨result, w, built, .inl ⟨aborted, rfl⟩⟩
  obtain ⟨r₀, observer, status⟩ := shares.report
  obtain ⟨members, ready⟩ := ready_of_trim success
  obtain ⟨_, _, _, before, r, same, order, names, reported, printed, remembers⟩ := conduct_report
    (w.keepGoing && !p.haltOnFailure) handled (performInvocation_unheard project) ready observer
  cases run.symm.trans same
  have recalls : ∀ name, r.status.find? name =
      TargetGraph.latest? (earlier ++ [final]) name := by
    intro name
    rw [remembers, status, ← TargetGraph.remembered_concat, TargetGraph.find?_remembered]
  have distinct : final.order.Nodup := order ▸ ready.ordered.nodup
  have named : final.names = final.order := by rw [names, order, names_of_trim success]
  refine ⟨result, after, built, .inr ⟨g, final, last, before, r, success, run,
    .run shares handled wanted success run, order, reported, printed, ?_, r.nodup_executed, ?_,
    Report.sums_iff distinct named recalls⟩⟩
  · intro name status
    rw [Report.mem_executed_iff, recalls]
  · refine Report.length_executed distinct named fun name member => ?_
    rw [recalls, TargetGraph.latest?_concat, if_pos member]

theorem build_sums_up_first : ∃ result after final before r,
    (build 0 ["lint"]).run Sample.reported = (.ok result, after) ∧ Shares after [final] ∧
    after.observer = .reporter r ∧ r.Sums final ∧
    after.printed = before ++ Report.printed (r.summaryLines final.notExecuted) := by
  have handled := handled_of_idle (Sample.idle_reported Sample.reported rfl) call
  obtain ⟨result, after, built, ⟨-, unchanged⟩ | ran⟩ :=
    build_sums_up (.start rfl rfl) 0 ["lint"] handled
  · obtain ⟨_, _, _, run, _⟩ := Sample.build_chores (w := Sample.reported) rfl (.inl rfl)
    cases built.symm.trans run
    have lists := Sample.listed_linted
    rw [Sample.linted, unchanged] at lists
    cases lists
  · obtain ⟨_, final, _, before, r, _, _, shares, _, observer, printed, _, _, _, sums⟩ := ran
    exact ⟨result, after, final, before, r, built, shares, observer, sums.mpr nofun, printed⟩

/-- After builds of two targets that have nothing to do with each other the second summary lists
both of them, though the second run has one target. -/
theorem build_sums_stray : ∃ first second after final last r,
    (build 0 ["lint"]).run Sample.reported = (.ok first, Sample.linted) ∧
    Handled (performInvocation call) notify 0 Sample.linted ∧
    (build 0 ["docs"]).run Sample.linted = (.ok second, after) ∧
    Sample.runOf "docs" Sample.linted = (.ok (final, last), after) ∧ final.order = ["docs"] ∧
    after.observer = .reporter r ∧ r.executed.map Prod.fst = ["lint", "docs"] ∧ ¬ r.Sums final := by
  obtain ⟨first, _, _, built, _⟩ := Sample.build_chores (w := Sample.reported) rfl (.inl rfl)
  obtain ⟨second, final, last, again, run, order⟩ :=
    Sample.build_chores Sample.projects_linted (.inr rfl)
  obtain ⟨r, observer, lists⟩ := Sample.executed_of_listed Sample.listed_both
  refine ⟨first, second, _, final, last, r, built,
    handled_of_idle (Sample.idle_reported _ Sample.projects_linted) call, again, run, order,
    observer, lists, fun sums => ?_⟩
  -- One target was run, but two are listed.
  have counts := sums.counts
  have two := congrArg List.length lists
  rw [List.length_map] at two
  rw [two, order] at counts
  change 2 + _ = 1 at counts
  omega

end Engine
end BuildEngine
