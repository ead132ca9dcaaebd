import BuildEngine.Proofs.Walk
import BuildEngine.Run.Executor

/-! Trimming a graph to goals. It succeeds exactly if everything that the goals need is declared and
none of it lies on a cycle; the order that it finds then holds what is needed, each target after
all that it depends on. -/

namespace BuildEngine.TargetGraph

open Relation

variable {ts : Targets} {g trimmed : TargetGraph} {goals order : List String}

private theorem orderOf_step (covers : g.Covers ts) {goal : String} (member : goal ∈ goals)
    (ordered : ts.Ordered order) (inside : order ⊆ g.nodes)
    (needed : ∀ name ∈ order, ts.Needed goals name) :
    Walked g ts goals [] order [goal]
      (if g.nodes.contains goal then visit g ts (g.nodes.length + 1) [] order goal
        else .error (.unknownGoal goal)) := by
  split
  · rename_i node
    have walking : Walking g ts goals (g.nodes.length + 1) [] order :=
      ⟨ordered, inside, needed, .nil, nofun, List.nodup_nil, nofun, nofun, by simp⟩
    exact visit_walked covers walking (List.contains_iff_mem.mp node) (.of_mem member)
      (List.isChain_singleton _)
  · rename_i absent
    exact .refused ⟨member, by simpa using absent⟩

private theorem orderOf_fold (covers : g.Covers ts) {part : List String} (some : part ⊆ goals)
    (ordered : ts.Ordered order) (inside : order ⊆ g.nodes)
    (needed : ∀ name ∈ order, ts.Needed goals name) :
    Walked g ts goals [] order part
      (part.foldlM
        (fun order goal =>
          if g.nodes.contains goal then visit g ts (g.nodes.length + 1) [] order goal
          else .error (.unknownGoal goal))
        order) := by
  induction part generalizing order with
  | nil => exact .finished ordered inside needed (List.Subset.refl _) (List.nil_subset _) nofun
  | cons goal rest ih =>
    rw [List.foldlM_cons]
    refine (orderOf_step covers (some List.mem_cons_self) ordered inside needed).bind ?_
    intro longer ordered inside needed _
    exact ih (List.subset_of_cons_subset some) ordered inside needed

/-- Ordering goals finishes all of them, or its complaint is justified. -/
theorem orderOf_walked (covers : g.Covers ts) (goals : List String) :
    Walked g ts goals [] [] goals (g.orderOf ts goals) :=
  orderOf_fold covers (List.Subset.refl goals) .nil (List.nil_subset _) nofun

/-- An order that goals were given in a graph: it is ordered, and holds exactly what they need. -/
structure Serves (g : TargetGraph) (ts : Targets) (goals order : List String) : Prop where
  ordered : ts.Ordered order
  inside : order ⊆ g.nodes
  exact : ∀ name, name ∈ order ↔ ts.Needed goals name

theorem serves_of_trim (covers : g.Covers ts) (success : g.trim ts goals = .ok trimmed) :
    Serves g ts goals trimmed.order ∧ trimmed = g.restrict trimmed.order := by
  have walked := orderOf_walked covers goals
  rw [trim] at success
  generalize g.orderOf ts goals = result at walked success
  cases walked with
  | refused justified => cases success
  | @finished order ordered inside needed _ complete _ =>
    have same : g.restrict order = trimmed := Except.ok.inj success
    subst same
    refine ⟨⟨ordered, inside, fun name => ⟨needed name, ?_⟩⟩, rfl⟩
    rintro ⟨goal, member, path⟩
    exact ordered.mem_of_reflTransGen (complete member) path

theorem justified_of_trim (covers : g.Covers ts) {error : GraphError}
    (failure : g.trim ts goals = .error error) : Justified g ts goals error := by
  have walked := orderOf_walked covers goals
  rw [trim] at failure
  generalize g.orderOf ts goals = result at walked failure
  cases walked with
  | refused justified => exact Except.error.inj failure ▸ justified
  | finished => cases failure

/-- Everything that goals need is declared, and none of it lies on a cycle. -/
structure Sound (ts : Targets) (goals : List String) : Prop where
  named : ∀ goal ∈ goals, ts.contains goal = true
  listed : ∀ user, ts.Needed goals user → ∀ dependency, ts.Depends user dependency →
    ts.contains dependency = true
  acyclic : ∀ name, ts.Needed goals name → ¬ TransGen ts.Depends name name

theorem Serves.sound (serves : Serves g ts goals order) : Sound ts goals where
  named _ member := serves.ordered.declared ((serves.exact _).mpr (.of_mem member))
  listed _ needed _ edge :=
    serves.ordered.declared (serves.ordered.closed ((serves.exact _).mpr needed) edge)
  acyclic _ needed := serves.ordered.acyclic ((serves.exact _).mpr needed)

theorem Justified.not_sound {error : GraphError} (justified : Justified g ts goals error)
    (inside : ∀ goal ∈ goals, ts.contains goal = true → goal ∈ g.nodes) : ¬ Sound ts goals := by
  intro sound
  cases error with
  | unknownGoal name => exact justified.2 (inside name justified.1 (sound.named name justified.1))
  | unknownDependency name user location =>
    obtain ⟨needed, edge, missing, _⟩ := justified
    rw [sound.listed user needed name edge] at missing
    cases missing
  | cycle names location =>
    obtain ⟨first, member, path⟩ := justified.1.transGen
    exact sound.acyclic first (justified.2 first member) path
  | absent name => exact justified

/-- Trimming a graph that has the goals succeeds if they are sound. -/
theorem Sound.trim (sound : Sound ts goals) (covers : g.Covers ts)
    (inside : ∀ goal ∈ goals, ts.contains goal = true → goal ∈ g.nodes) :
    ∃ trimmed, g.trim ts goals = .ok trimmed := by
  cases result : g.trim ts goals with
  | ok trimmed => exact ⟨trimmed, rfl⟩
  | error error => exact absurd sound ((justified_of_trim covers result).not_sound inside)

theorem trim_succeeds_iff_sound :
    (∃ trimmed, (ofTargets ts).trim ts goals = .ok trimmed) ↔ Sound ts goals := by
  constructor
  · rintro ⟨trimmed, success⟩
    exact (serves_of_trim (covers_ofTargets ts) success).1.sound
  · intro sound
    exact sound.trim (covers_ofTargets ts) fun _ _ => mem_nodes_ofTargets.mpr

private theorem mapM_get {names : List String}
    (there : ∀ name ∈ names, ∃ t, ts.find? name = some t ∧ g.find? ts name = some t) :
    ∃ members, names.mapM (g.get ts) = .ok members ∧ members.map Target.name = names ∧
      ∀ t ∈ members, ts.find? t.name = some t := by
  induction names with
  | nil => exact ⟨[], rfl, rfl, nofun⟩
  | cons name rest ih =>
    obtain ⟨t, declared, found⟩ := there name List.mem_cons_self
    obtain ⟨members, success, names, declarations⟩ :=
      ih fun other member => there other (List.mem_cons_of_mem name member)
    have same := Targets.name_of_find? declared
    have got : g.get ts name = .ok t := by rw [get, found]
    refine ⟨t :: members, ?_, ?_, ?_⟩
    · rw [List.mapM_cons, got, success]
      rfl
    · rw [List.map_cons, same, names]
    · intro other member
      rcases List.mem_cons.mp member with first | later
      · rw [first, same, declared]
      · exact declarations other later

/-- The targets of a trimmed graph are there when they are to be run. -/
theorem executionOrder_of_trim (covers : g.Covers ts) (success : g.trim ts goals = .ok trimmed) :
    ∃ members, trimmed.executionOrder ts = .ok members ∧
      members.map Target.name = trimmed.order ∧ ∀ t ∈ members, ts.find? t.name = some t := by
  obtain ⟨serves, same⟩ := serves_of_trim covers success
  apply mapM_get
  intro name member
  obtain ⟨t, declared, found⟩ := covers.find? (serves.inside member)
  have node : name ∈ (g.restrict trimmed.order).nodes :=
    List.mem_filter.mpr ⟨serves.inside member, List.contains_iff_mem.mpr member⟩
  refine ⟨t, declared, ?_⟩
  rw [same, TargetGraph.find?, if_pos (List.contains_iff_mem.mpr node), declared]

/-- Trimming to goals succeeds exactly if everything that they need is declared and none of it lies
on a cycle. The order is then without repetitions, holds what is needed, and has all that a target
depends on before it. A cycle that is reported is one and is needed, and other complaints name
something that is missing. -/
theorem trim_exact (ts : Targets) (goals : List String) :
    ((∃ trimmed, (ofTargets ts).trim ts goals = .ok trimmed) ↔
      (∀ goal ∈ goals, ts.contains goal = true) ∧
      (∀ user, ts.Needed goals user → ∀ dependency, ts.Depends user dependency →
        ts.contains dependency = true) ∧
      ∀ name, ts.Needed goals name → ¬ TransGen ts.Depends name name) ∧
    (∀ trimmed, (ofTargets ts).trim ts goals = .ok trimmed →
      ∃ members, trimmed.executionOrder ts = .ok members ∧ (members.map Target.name).Nodup ∧
        (∀ name, name ∈ members.map Target.name ↔ ts.Needed goals name) ∧
        ∀ pre user post, members = pre ++ user :: post → ∀ dependency,
          TransGen ts.Depends user.name dependency → dependency ∈ pre.map Target.name) ∧
    ∀ error, (ofTargets ts).trim ts goals = .error error →
      match error with
      | .cycle names _ =>
        (∃ first middle, names = first :: (middle ++ [first])) ∧ names.IsChain ts.Depends ∧
          ∀ name ∈ names, ts.Needed goals name
      | .unknownGoal name => name ∈ goals ∧ ts.contains name = false
      | .unknownDependency name user _ =>
        ts.Needed goals user ∧ ts.Depends user name ∧ ts.contains name = false
      | .absent _ => False := by
  refine ⟨?_, ?_, ?_⟩
  · rw [trim_succeeds_iff_sound]
    constructor
    · rintro ⟨named, listed, acyclic⟩
      exact ⟨named, listed, acyclic⟩
    · rintro ⟨named, listed, acyclic⟩
      exact ⟨named, listed, acyclic⟩
  · intro trimmed success
    obtain ⟨serves, _⟩ := serves_of_trim (covers_ofTargets ts) success
    obtain ⟨members, runs, names, _⟩ := executionOrder_of_trim (covers_ofTargets ts) success
    refine ⟨members, runs, names ▸ serves.ordered.nodup, names ▸ serves.exact, ?_⟩
    intro pre user post split dependency path
    have split : trimmed.order = pre.map Target.name ++ user.name :: post.map Target.name := by
      rw [← names, split, List.map_append, List.map_cons]
    exact serves.ordered.before_trans split path
  · intro error failure
    have justified := justified_of_trim (covers_ofTargets ts) failure
    cases error with
    | cycle names location => exact ⟨justified.1.closed, justified.1.linked, justified.2⟩
    | unknownGoal name =>
      refine ⟨justified.1, ?_⟩
      exact Bool.eq_false_iff.mpr fun declared => justified.2 (mem_nodes_ofTargets.mpr declared)
    | unknownDependency name user location => exact ⟨justified.1, justified.2.1, justified.2.2.1⟩
    | absent name => exact justified

end BuildEngine.TargetGraph
