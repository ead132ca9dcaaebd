import BuildEngine.Proofs.CycleSearch
import BuildEngine.Proofs.Trimming

/-! The check of all targets. It fails exactly if trimming to all targets does, whatever search for
cycles it uses. What it reports of a cycle runs along the edges, from a target to one that depends
on it, while a walk over the dependencies reports a cycle the other way around. -/

namespace BuildEngine.TargetGraph

open Relation

variable {ts : Targets} {search : TargetGraph → Option (List (String × String))}
variable {dependency user : String} {names : List String} {location : Location}

theorem missingDependency?_eq_none_iff {members : List Target} :
    missingDependency? ts members = none ↔
      ∀ t ∈ members, ∀ dependency ∈ t.depends, ts.contains dependency = true := by
  simp [missingDependency?]

theorem mem_members_ofTargets {t : Target} :
    t ∈ (ofTargets ts).names.filterMap ((ofTargets ts).find? ts) ↔ ts.find? t.name = some t := by
  have names : (ofTargets ts).names = (ofTargets ts).nodes := rfl
  rw [names, List.mem_filterMap]
  constructor
  · rintro ⟨name, node, found⟩
    obtain ⟨declared, same, there⟩ := (covers_ofTargets ts).find? node
    cases Option.some.inj (there.symm.trans found)
    rwa [Targets.name_of_find? same]
  · intro found
    have node : t.name ∈ (ofTargets ts).nodes :=
      mem_nodes_ofTargets.mpr ((ts.contains_iff_find? _).mpr ⟨t, found⟩)
    refine ⟨t.name, node, ?_⟩
    rw [TargetGraph.find?, if_pos (List.contains_iff_mem.mpr node), found]

/-- Every name that a target lists is declared. -/
def ListsDeclared (ts : Targets) : Prop :=
  ∀ user dependency, ts.Depends user dependency → ts.contains dependency = true

theorem missingDependency?_ofTargets :
    missingDependency? ts ((ofTargets ts).names.filterMap ((ofTargets ts).find? ts)) = none ↔
      ListsDeclared ts := by
  rw [missingDependency?_eq_none_iff]
  constructor
  · rintro complete user dependency ⟨t, found, listed⟩
    have same := Targets.name_of_find? found
    exact complete t (mem_members_ofTargets.mpr (same ▸ found)) dependency listed
  · intro complete t member dependency listed
    exact complete t.name dependency ⟨t, mem_members_ofTargets.mp member, listed⟩

/-- Where all that is listed is declared, the edges are the dependencies turned around. -/
theorem drawn_iff_depends (complete : ListsDeclared ts) :
    (ofTargets ts).Drawn dependency user ↔ ts.Depends user dependency := by
  rw [Drawn, mem_edges_ofTargets]
  exact ⟨And.left, fun edge => ⟨edge, complete user dependency edge⟩⟩

/-- A search for cycles gives nothing exactly if no target depends on itself, directly or not. -/
theorem search_eq_none_iff (complete : ListsDeclared ts)
    (finds : (ofTargets ts).Finds (search (ofTargets ts))) :
    search (ofTargets ts) = none ↔ ∀ name, ¬ TransGen ts.Depends name name := by
  have around : (ofTargets ts).Drawn = Function.swap ts.Depends := by
    funext dependency user
    exact propext (drawn_iff_depends complete)
  have same {name : String} :
      TransGen (ofTargets ts).Drawn name name ↔ TransGen ts.Depends name name := by
    rw [around, transGen_swap]
  constructor
  · intro none name path
    obtain ⟨middle, chain⟩ := Targets.exists_closed_of_transGen (same.mpr path)
    rw [none] at finds
    exact finds _ (isRound_stepsAlong chain)
  · intro acyclic
    cases found : search (ofTargets ts) with
    | none => rfl
    | some edges =>
      rw [found] at finds
      obtain ⟨name, path⟩ := IsRound.transGen finds
      exact absurd (same.mp path) (acyclic name)

/-- Trimming to all targets asks that all that is listed is declared and that no target depends on
itself. -/
theorem sound_keys_iff :
    Sound ts ts.keys ↔ ListsDeclared ts ∧ ∀ name, ¬ TransGen ts.Depends name name := by
  have needed : ∀ {user dependency}, ts.Depends user dependency → ts.Needed ts.keys user := by
    rintro user dependency ⟨t, found, _⟩
    exact .of_mem ((ts.contains_iff_mem_keys user).mp ((ts.contains_iff_find? user).mpr ⟨t, found⟩))
  constructor
  · intro sound
    refine ⟨fun user dependency edge => sound.listed user (needed edge) dependency edge, ?_⟩
    intro name path
    obtain ⟨next, edge, _⟩ := TransGen.head'_iff.mp path
    exact sound.acyclic name (needed edge) path
  · rintro ⟨complete, acyclic⟩
    exact ⟨fun goal member => (ts.contains_iff_mem_keys goal).mpr member,
      fun user _ dependency edge => complete user dependency edge, fun name _ => acyclic name⟩

/-- The check of all targets succeeds exactly if trimming to all targets would. -/
theorem validateBy_eq_ok_iff (finds : (ofTargets ts).Finds (search (ofTargets ts))) :
    (ofTargets ts).validateBy search ts = .ok () ↔ Sound ts ts.keys := by
  rw [sound_keys_iff, ← missingDependency?_ofTargets, validateBy]
  cases missing : missingDependency? ts
      ((ofTargets ts).names.filterMap ((ofTargets ts).find? ts)) with
  | some error => simp
  | none =>
    rw [← search_eq_none_iff (missingDependency?_ofTargets.mp missing) finds]
    cases search (ofTargets ts) <;> simp

/-- A program fails exactly if another one does when one succeeds exactly if the other one does. -/
private theorem failed_iff {α β : Type} {one : Except GraphError α} {other : Except GraphError β}
    (same : (∃ result, one = .ok result) ↔ ∃ result, other = .ok result) :
    (∃ error, one = .error error) ↔ ∃ error, other = .error error := by
  cases one <;> cases other <;> simp_all

theorem validateBy_fails_iff (finds : (ofTargets ts).Finds (search (ofTargets ts))) :
    (∃ error, (ofTargets ts).validateBy search ts = .error error) ↔
      ∃ error, (ofTargets ts).trim ts ts.keys = .error error := by
  apply failed_iff
  rw [trim_succeeds_iff_sound, ← validateBy_eq_ok_iff finds]
  exact ⟨fun ⟨_, success⟩ => success, fun success => ⟨(), success⟩⟩

/-- The check of all targets fails exactly if trimming to all targets fails, whatever search for
cycles it uses, provided that the search gives a cycle of the graph if there is one and nothing
otherwise. The search along the edges is one. -/
theorem validate_agrees_with_trim (ts : Targets) :
    (∀ search, (ofTargets ts).Finds (search (ofTargets ts)) →
      ((∃ error, (ofTargets ts).validateBy search ts = .error error) ↔
        ∃ error, (ofTargets ts).trim ts ts.keys = .error error)) ∧
    ((∃ error, (ofTargets ts).validate ts = .error error) ↔
      ∃ error, (ofTargets ts).trim ts ts.keys = .error error) :=
  ⟨fun _ finds => validateBy_fails_iff finds,
    validateBy_fails_iff (finds_cycle? (joins_ofTargets ts))⟩

/-- Three targets, each of which depends on the next one. -/
def triangle : Targets :=
  ((Targets.empty.put { name := "a", depends := ["b"] }).put { name := "b", depends := ["c"] }).put
    { name := "c", depends := ["a"] }

theorem validate_triangle :
    (ofTargets triangle).validate triangle = .error (.cycle ["a", "c", "b", "a"] .unknown) := by
  have nodes : (ofTargets triangle).nodes = ["a", "b", "c"] := by decide
  have edges : (ofTargets triangle).edges = [("b", "a"), ("c", "b"), ("a", "c")] := by decide
  have found : (ofTargets triangle).cycle? = some [("a", "c"), ("c", "b"), ("b", "a")] := by
    simp [cycle?, searchCycles, searchCycle, dependents, nodes, edges]
    rfl
  rw [validate, validateBy, found]
  rfl

theorem validate_agrees_with_trim_triangle :
    (ofTargets triangle).Finds (ofTargets triangle).cycle? ∧
    (∃ error, (ofTargets triangle).validateBy cycle? triangle = .error error) ∧
      ∃ error, (ofTargets triangle).trim triangle triangle.keys = .error error := by
  have finds := finds_cycle? (joins_ofTargets triangle)
  have failure : ∃ error, (ofTargets triangle).validateBy cycle? triangle = .error error :=
    ⟨_, validate_triangle⟩
  exact ⟨finds, failure, ((validate_agrees_with_trim triangle).1 cycle? finds).mp failure⟩

/-! ### What is reported of a cycle -/

/-- A cycle that the check reports is one that its search gave. -/
theorem edges_of_validateBy (failure : (ofTargets ts).validateBy search ts =
    .error (.cycle names location)) :
    ∃ edges, search (ofTargets ts) = some edges ∧ names = namesAlong edges := by
  rw [validateBy] at failure
  cases missing : missingDependency? ts
      ((ofTargets ts).names.filterMap ((ofTargets ts).find? ts)) with
  | some error =>
    obtain ⟨t, _, reported⟩ := List.exists_of_findSome?_eq_some missing
    obtain ⟨dependency, _, rfl⟩ := Option.map_eq_some_iff.mp reported
    simp [missing] at failure
  | none =>
    cases found : search (ofTargets ts) with
    | none => simp [missing, found] at failure
    | some edges =>
      simp only [missing, found, Except.error.injEq, GraphError.cycle.injEq] at failure
      exact ⟨edges, rfl, failure.1.symm⟩

/-- A list that ends where it begins does so when it is read backwards. -/
private theorem closed_reverse {names : List String}
    (closed : ∃ first middle, names = first :: (middle ++ [first])) :
    ∃ first middle, names.reverse = first :: (middle ++ [first]) := by
  obtain ⟨first, middle, rfl⟩ := closed
  exact ⟨first, middle.reverse, by simp⟩

/-- What the check reports as a cycle is one if it is read backwards. -/
theorem isCycle_reverse_of_validateBy (finds : (ofTargets ts).Finds (search (ofTargets ts)))
    (failure : (ofTargets ts).validateBy search ts = .error (.cycle names location)) :
    ts.IsCycle names.reverse := by
  obtain ⟨edges, found, rfl⟩ := edges_of_validateBy failure
  rw [found] at finds
  obtain ⟨closed, chain⟩ := IsRound.along finds
  refine ⟨closed_reverse closed, List.isChain_reverse.mpr ?_⟩
  exact chain.imp fun dependency user edge => (mem_edges_ofTargets.mp edge).1

/-- A cycle of one or two targets reads the same in both directions. -/
theorem isCycle_of_reverse {names : List String} (cycle : ts.IsCycle names.reverse)
    (short : names.length ≤ 3) : ts.IsCycle names := by
  have whole := closed_reverse cycle.closed
  have linked := cycle.linked
  rw [List.reverse_reverse] at whole
  obtain ⟨first, middle, rfl⟩ := whole
  have palindrome : (first :: (middle ++ [first])).reverse = first :: (middle ++ [first]) := by
    cases middle with
    | nil => rfl
    | cons other rest =>
      cases rest with
      | nil => rfl
      | cons _ _ =>
        simp only [List.length_cons, List.length_append, List.length_nil] at short
        omega
  rw [palindrome] at linked
  exact ⟨⟨first, middle, rfl⟩, linked⟩

/-- A cycle that the check of all targets reports ends where it begins, and is read backwards: each
target in it is one that the next target lists. Only a cycle of one or two targets can be read both
ways. A cycle that trimming reports is read forwards: each target in it lists the next one. -/
theorem reported_cycles_read (ts : Targets) :
    (∀ search, (ofTargets ts).Finds (search (ofTargets ts)) → ∀ names location,
      (ofTargets ts).validateBy search ts = .error (.cycle names location) →
        ts.IsCycle names.reverse ∧ (names.length ≤ 3 → ts.IsCycle names)) ∧
    (∀ names location, (ofTargets ts).validate ts = .error (.cycle names location) →
      ts.IsCycle names.reverse ∧ (names.length ≤ 3 → ts.IsCycle names)) ∧
    ∀ goals names location, (ofTargets ts).trim ts goals = .error (.cycle names location) →
      ts.IsCycle names := by
  have read {search} (finds : (ofTargets ts).Finds (search (ofTargets ts))) {names location}
      (failure : (ofTargets ts).validateBy search ts = .error (.cycle names location)) :
      ts.IsCycle names.reverse ∧ (names.length ≤ 3 → ts.IsCycle names) := by
    have backwards := isCycle_reverse_of_validateBy finds failure
    exact ⟨backwards, isCycle_of_reverse backwards⟩
  refine ⟨fun search finds names location failure => read finds failure, ?_, ?_⟩
  · intro names location failure
    exact read (finds_cycle? (joins_ofTargets ts)) failure
  · intro goals names location failure
    exact (justified_of_trim (covers_ofTargets ts) failure).1

theorem trim_triangle : (ofTargets triangle).trim triangle triangle.keys =
    .error (.cycle ["a", "b", "c", "a"] .unknown) := by
  have nodes : (ofTargets triangle).nodes = ["a", "b", "c"] := by decide
  have keys : triangle.keys = ["a", "b", "c"] := by decide
  have a : triangle.find? "a" = some { name := "a", depends := ["b"] } := rfl
  have b : triangle.find? "b" = some { name := "b", depends := ["c"] } := rfl
  have c : triangle.find? "c" = some { name := "c", depends := ["a"] } := rfl
  simp [trim, orderOf, visit, visitAll, TargetGraph.find?, nodes, keys, a, b, c]
  rfl

/-- Two targets that depend on each other. -/
def couple : Targets :=
  (Targets.empty.put { name := "x", depends := ["y"] }).put { name := "y", depends := ["x"] }

theorem validate_couple :
    (ofTargets couple).validate couple = .error (.cycle ["x", "y", "x"] .unknown) := by
  have nodes : (ofTargets couple).nodes = ["x", "y"] := by decide
  have edges : (ofTargets couple).edges = [("y", "x"), ("x", "y")] := by decide
  have found : (ofTargets couple).cycle? = some [("x", "y"), ("y", "x")] := by
    simp [cycle?, searchCycles, searchCycle, dependents, nodes, edges]
    rfl
  rw [validate, validateBy, found]
  rfl

theorem reported_cycles_read_triangle :
    ((ofTargets triangle).Finds (ofTargets triangle).cycle? ∧
      (ofTargets triangle).validateBy cycle? triangle =
        .error (.cycle ["a", "c", "b", "a"] .unknown) ∧
      triangle.IsCycle ["a", "b", "c", "a"]) ∧
    ((ofTargets triangle).trim triangle triangle.keys =
        .error (.cycle ["a", "b", "c", "a"] .unknown) ∧
      triangle.IsCycle ["a", "b", "c", "a"]) ∧
    ((ofTargets couple).validate couple = .error (.cycle ["x", "y", "x"] .unknown) ∧
      ["x", "y", "x"].length ≤ 3 ∧ couple.IsCycle ["x", "y", "x"]) := by
  have finds := finds_cycle? (joins_ofTargets triangle)
  refine ⟨⟨finds, validate_triangle, ?_⟩, ⟨trim_triangle, ?_⟩, validate_couple, by decide, ?_⟩
  · exact ((reported_cycles_read triangle).1 cycle? finds _ _ validate_triangle).1
  · exact (reported_cycles_read triangle).2.2 _ _ _ trim_triangle
  · exact ((reported_cycles_read couple).2.1 _ _ validate_couple).2 (by decide)

/-- Of the cycle that is reported for the three targets, the first one does not list the next. -/
theorem validate_reads_backwards :
    (ofTargets triangle).Finds (ofTargets triangle).cycle? ∧
    (ofTargets triangle).validate triangle = .error (.cycle ["a", "c", "b", "a"] .unknown) ∧
      ¬ ["a", "c", "b", "a"].IsChain triangle.Depends := by
  refine ⟨finds_cycle? (joins_ofTargets triangle), validate_triangle, fun chain => ?_⟩
  have first : triangle.Depends "a" "c" := (List.isChain_cons_cons.mp chain).1
  have found : triangle.find? "a" = some { name := "a", depends := ["b"] } := rfl
  exact absurd ((Targets.depends_iff found).mp first) (by decide)

end BuildEngine.TargetGraph
