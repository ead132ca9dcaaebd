import BuildEngine.Proofs.Trimming

/-! What a target depends on in a graph, directly or not. The search along the edges comes to its end
within its steps: each one takes a name from the stack, and only names that are new put others on
it. It finds all that a target depends on, once each, also where targets depend on each other. -/

namespace BuildEngine.TargetGraph

open Relation

variable {ts : Targets} {g : TargetGraph} {goals order seen stack : List String}
variable {name user dependency : String} {steps : Nat}

/-- The edges of a graph as a relation between a target and what it depends on. -/
def Lists (g : TargetGraph) (user dependency : String) : Prop := dependency ∈ g.dependencies user

/-- The edges of targets that a search has not come to. -/
private def untaken (g : TargetGraph) (seen : List String) : Nat :=
  g.edges.countP fun edge => !seen.contains edge.2

private theorem length_dependencies (g : TargetGraph) (name : String) :
    (g.dependencies name).length = g.edges.countP fun edge => edge.2 == name := by
  rw [dependencies, List.length_map, List.countP_eq_length_filter]

private theorem untaken_snoc (new : name ∉ seen) :
    untaken g (seen ++ [name]) + (g.dependencies name).length = untaken g seen := by
  rw [length_dependencies, untaken, untaken]
  induction g.edges with
  | nil => rfl
  | cons edge rest ih =>
    simp only [List.countP_cons]
    by_cases same : edge.2 = name
    · have absent : edge.2 ∉ seen := same ▸ new
      simp [same, new] at ih ⊢
      omega
    · simp [same] at ih ⊢
      omega

theorem prerequisitesFrom_seen {more : Nat} {rest : List String} (old : name ∈ seen) :
    g.prerequisitesFrom (more + 1) (name :: rest) seen = g.prerequisitesFrom more rest seen := by
  rw [prerequisitesFrom, if_pos (List.contains_iff_mem.mpr old)]

theorem prerequisitesFrom_new {more : Nat} {rest : List String} (new : name ∉ seen) :
    g.prerequisitesFrom (more + 1) (name :: rest) seen =
      g.prerequisitesFrom more ((g.dependencies name).reverse ++ rest) (seen ++ [name]) := by
  rw [prerequisitesFrom, if_neg (by simpa using new)]

/-- A search that goes on until its stack is empty, however many steps that takes: a name that was
found before is dropped, a new one is found and followed by what it depends on. -/
inductive Searches (g : TargetGraph) : List String → List String → List String → Prop
  | done {seen : List String} : Searches g [] seen seen
  | again {name : String} {rest seen found : List String} (old : name ∈ seen)
      (onward : Searches g rest seen found) : Searches g (name :: rest) seen found
  | take {name : String} {rest seen found : List String} (new : name ∉ seen)
      (onward : Searches g ((g.dependencies name).reverse ++ rest) (seen ++ [name]) found) :
      Searches g (name :: rest) seen found

/-- Steps for all names on the stack and all edges of new targets let a search come to its end. -/
private theorem searches_prerequisitesFrom (budget : stack.length + untaken g seen ≤ steps) :
    g.Searches stack seen (g.prerequisitesFrom steps stack seen) := by
  induction steps generalizing stack seen with
  | zero =>
    have empty : stack = [] := List.length_eq_zero_iff.mp (by omega)
    subst empty
    rw [prerequisitesFrom.eq_def]
    exact .done
  | succ more ih =>
    cases stack with
    | nil =>
      rw [prerequisitesFrom.eq_def]
      exact .done
    | cons top rest =>
      rw [List.length_cons] at budget
      by_cases old : top ∈ seen
      · rw [prerequisitesFrom_seen old]
        exact .again old (ih (by omega))
      · rw [prerequisitesFrom_new old]
        have taken := untaken_snoc (g := g) old
        apply Searches.take old (ih _)
        simp only [List.length_append, List.length_reverse]
        omega

/-- The search for the prerequisites of a target comes to its end. -/
theorem searches_prerequisites (g : TargetGraph) (name : String) :
    g.Searches (g.dependencies name).reverse [] (g.prerequisites name) := by
  have bound : (g.dependencies name).length ≤ g.edges.length := by
    rw [length_dependencies]
    exact List.countP_le_length
  have all : untaken g [] ≤ g.edges.length := List.countP_le_length
  apply searches_prerequisitesFrom
  rw [List.length_reverse]
  omega

namespace Searches

variable {found : List String}

/-- A search finds nothing twice. -/
theorem nodup (search : g.Searches stack seen found) (distinct : seen.Nodup) : found.Nodup := by
  induction search with
  | done => exact distinct
  | again _ _ ih => exact ih distinct
  | take new _ ih =>
    apply ih
    rw [← List.concat_eq_append]
    exact distinct.concat new

/-- Everything that a search finds is reached from the names on its stack. -/
theorem reached (search : g.Searches stack seen found) (member : name ∈ found) :
    name ∈ seen ∨ ∃ start ∈ stack, ReflTransGen g.Lists start name := by
  induction search with
  | done => exact .inl member
  | again _ _ ih =>
    rcases ih member with earlier | ⟨start, waiting, path⟩
    · exact .inl earlier
    · exact .inr ⟨start, List.mem_cons_of_mem _ waiting, path⟩
  | @take top rest _ _ _ _ ih =>
    rcases ih member with earlier | ⟨start, waiting, path⟩
    · rcases List.mem_append.mp earlier with earlier | last
      · exact .inl earlier
      · exact .inr ⟨top, List.mem_cons_self, List.mem_singleton.mp last ▸ .refl⟩
    · rcases List.mem_append.mp waiting with listed | later
      · have edge : g.Lists top start := List.mem_reverse.mp listed
        exact .inr ⟨top, List.mem_cons_self, .head edge path⟩
      · exact .inr ⟨start, List.mem_cons_of_mem top later, path⟩

/-- A search keeps what was found before and finds all of its stack. -/
theorem finds (search : g.Searches stack seen found) : seen ⊆ found ∧ stack ⊆ found := by
  induction search with
  | done => exact ⟨List.Subset.refl _, List.nil_subset _⟩
  | again old _ ih => exact ⟨ih.1, List.cons_subset.mpr ⟨ih.1 old, ih.2⟩⟩
  | take _ _ ih =>
    obtain ⟨kept, first⟩ := List.append_subset.mp ih.1
    refine ⟨kept, List.cons_subset.mpr ⟨first List.mem_cons_self, ?_⟩⟩
    exact (List.append_subset.mp ih.2).2

/-- What a search finds it finds together with all that that depends on, if this was so of what was
found before or is still on the stack. -/
theorem closed (search : g.Searches stack seen found)
    (before : ∀ user ∈ seen, ∀ dependency, g.Lists user dependency →
      dependency ∈ seen ∨ dependency ∈ stack) :
    ∀ user ∈ found, ∀ dependency, g.Lists user dependency → dependency ∈ found := by
  induction search with
  | done =>
    intro user member dependency edge
    exact (before user member dependency edge).resolve_right List.not_mem_nil
  | again old _ ih =>
    apply ih
    intro user member dependency edge
    rcases before user member dependency edge with earlier | waiting
    · exact .inl earlier
    · rcases List.mem_cons.mp waiting with same | later
      · exact .inl (same ▸ old)
      · exact .inr later
  | take _ _ ih =>
    apply ih
    intro user member dependency edge
    rcases List.mem_append.mp member with earlier | last
    · rcases before user earlier dependency edge with earlier | waiting
      · exact .inl (List.mem_append_left _ earlier)
      · rcases List.mem_cons.mp waiting with same | later
        · exact .inl (by simp [same])
        · exact .inr (List.mem_append_right _ later)
    · rw [List.mem_singleton.mp last] at edge
      exact .inr (List.mem_append_left _ (List.mem_reverse.mpr edge))

end Searches

/-- The prerequisites of a target are all that is reached from it along the edges of the graph. -/
theorem mem_prerequisites :
    dependency ∈ g.prerequisites user ↔ TransGen g.Lists user dependency := by
  have search := g.searches_prerequisites user
  rw [TransGen.head'_iff]
  constructor
  · intro found
    rcases search.reached found with none | ⟨start, member, path⟩
    · cases none
    · exact ⟨start, List.mem_reverse.mp member, path⟩
  · rintro ⟨start, edge, path⟩
    have complete := search.closed nofun
    have first := search.finds.2 (List.mem_reverse.mpr edge)
    induction path with
    | refl => exact first
    | tail _ edge ih => exact complete _ ih _ edge

theorem nodup_prerequisites (g : TargetGraph) (name : String) : (g.prerequisites name).Nodup :=
  (g.searches_prerequisites name).nodup List.nodup_nil

/-- In the graph of all targets, the search along the edges finds the declared targets that a target
depends on. -/
theorem mem_prerequisites_ofTargets :
    dependency ∈ (ofTargets ts).prerequisites user ↔
      ts.contains dependency = true ∧ TransGen ts.Depends user dependency := by
  have lists {user dependency : String} : (ofTargets ts).Lists user dependency ↔
      ts.Depends user dependency ∧ ts.contains dependency = true :=
    mem_dependencies.trans mem_edges_ofTargets
  rw [mem_prerequisites]
  constructor
  · intro path
    induction path with
    | single edge => exact ⟨(lists.mp edge).2, .single (lists.mp edge).1⟩
    | tail _ edge ih => exact ⟨(lists.mp edge).2, ih.2.tail (lists.mp edge).1⟩
  · rintro ⟨declared, path⟩
    induction path with
    | single edge => exact .single (lists.mpr ⟨edge, declared⟩)
    | tail _ edge ih =>
      -- Whatever lists something is declared, so the whole path runs along edges.
      have user := (ts.contains_iff_find? _).mpr (edge.imp fun _ lists => lists.1)
      exact (ih user).tail (lists.mpr ⟨edge, declared⟩)

/-- In a trimmed graph, the search along the edges finds what the declarations say that a target
depends on. -/
theorem mem_prerequisites_of_trim {trimmed : TargetGraph}
    (success : (ofTargets ts).trim ts goals = .ok trimmed) (member : user ∈ trimmed.order) :
    dependency ∈ trimmed.prerequisites user ↔ TransGen ts.Depends user dependency := by
  obtain ⟨serves, same⟩ := serves_of_trim (covers_ofTargets ts) success
  have lists {user dependency : String} (member : user ∈ trimmed.order) :
      trimmed.Lists user dependency ↔ ts.Depends user dependency := by
    rw [same]
    exact mem_dependencies_restrict serves.ordered member
  rw [mem_prerequisites]
  constructor
  · intro path
    have inside : TransGen ts.Depends user dependency ∧ dependency ∈ trimmed.order := by
      induction path with
      | single edge =>
        have edge := (lists member).mp edge
        exact ⟨.single edge, serves.ordered.closed member edge⟩
      | tail _ edge ih =>
        have edge := (lists ih.2).mp edge
        exact ⟨ih.1.tail edge, serves.ordered.closed ih.2 edge⟩
    exact inside.1
  · intro path
    induction path with
    | single edge => exact .single ((lists member).mpr edge)
    | tail path edge ih =>
      have inner := serves.ordered.mem_of_reflTransGen member path.to_reflTransGen
      exact ih.tail ((lists inner).mpr edge)

/-- What a target of a graph depends on is in the graph. -/
theorem isSome_find?_of_trim {trimmed : TargetGraph}
    (success : (ofTargets ts).trim ts goals = .ok trimmed) (member : name ∈ trimmed.order) :
    (trimmed.find? ts name).isSome = true := by
  obtain ⟨serves, same⟩ := serves_of_trim (covers_ofTargets ts) success
  have node : name ∈ (ofTargets ts).nodes := serves.inside member
  obtain ⟨t, found⟩ := (ts.contains_iff_find? name).mp (mem_nodes_ofTargets.mp node)
  have kept : name ∈ trimmed.nodes := by
    rw [same]
    exact List.mem_filter.mpr ⟨node, List.contains_iff_mem.mpr member⟩
  rw [TargetGraph.find?, if_pos (List.contains_iff_mem.mpr kept), found]
  rfl

/-- The search for what a target depends on comes to its end in any project, with cycles or without,
and finds each declared target that is reached over the declarations once, and no other. A target
is among its own prerequisites exactly if it depends on itself. In the graph that goals were trimmed
to, the search finds the same targets as in the graph of all targets: all that the declarations
lead to, and never the target itself. All that is found is there to be run. -/
theorem prerequisites_exact (ts : Targets) :
    (∀ user, (ofTargets ts).Searches ((ofTargets ts).dependencies user).reverse []
        ((ofTargets ts).prerequisites user) ∧
      ((ofTargets ts).prerequisites user).Nodup ∧
      ∀ name, (name ∈ (ofTargets ts).prerequisites user ↔
          ts.contains name = true ∧ TransGen ts.Depends user name) ∧
        (name ∈ (ofTargets ts).prerequisites user →
          ((ofTargets ts).find? ts name).isSome = true)) ∧
    ∀ goals trimmed, (ofTargets ts).trim ts goals = .ok trimmed → ∀ user ∈ trimmed.order,
      trimmed.Searches (trimmed.dependencies user).reverse [] (trimmed.prerequisites user) ∧
      (trimmed.prerequisites user).Nodup ∧
      (trimmed.prerequisites user).Perm ((ofTargets ts).prerequisites user) ∧
      user ∉ trimmed.prerequisites user ∧
      ∀ name, (name ∈ trimmed.prerequisites user ↔ TransGen ts.Depends user name) ∧
        (name ∈ trimmed.prerequisites user → (trimmed.find? ts name).isSome = true) := by
  refine ⟨fun user => ⟨searches_prerequisites _ _, nodup_prerequisites _ _, fun name => ?_⟩, ?_⟩
  · refine ⟨mem_prerequisites_ofTargets, fun found => ?_⟩
    obtain ⟨t, declared, there⟩ := (covers_ofTargets ts).find?
      (mem_nodes_ofTargets.mpr (mem_prerequisites_ofTargets.mp found).1)
    rw [there]
    rfl
  · intro goals trimmed success user member
    obtain ⟨serves, _⟩ := serves_of_trim (covers_ofTargets ts) success
    have leads {name : String} : name ∈ trimmed.prerequisites user ↔
        TransGen ts.Depends user name := mem_prerequisites_of_trim success member
    have inside {name : String} (path : TransGen ts.Depends user name) : name ∈ trimmed.order :=
      serves.ordered.mem_of_reflTransGen member path.to_reflTransGen
    refine ⟨searches_prerequisites _ _, nodup_prerequisites _ _, ?_, ?_, fun name => ⟨leads, ?_⟩⟩
    · rw [List.perm_ext_iff_of_nodup (nodup_prerequisites _ _) (nodup_prerequisites _ _)]
      intro name
      rw [leads, mem_prerequisites_ofTargets]
      exact ⟨fun path => ⟨serves.ordered.declared (inside path), path⟩, And.right⟩
    · exact fun own => serves.ordered.acyclic member (leads.mp own)
    · exact fun found => isSome_find?_of_trim success (inside (leads.mp found))

/-- Pages and a menu that depend on each other, and a release that asks for one target twice. -/
def looped : Targets :=
  ((((Targets.empty.put { name := "pages", depends := ["menu", "style"] }).put
    { name := "menu", depends := ["pages"] }).put
    { name := "release", depends := ["notes", "style", "notes"] }).put
    { name := "notes", depends := ["style"] }).put { name := "style" }

theorem prerequisites_exact_looped :
    ("pages" ∈ (ofTargets looped).prerequisites "pages" ↔
      looped.contains "pages" = true ∧ TransGen looped.Depends "pages" "pages") ∧
    ∃ trimmed, (ofTargets looped).trim looped ["release"] = .ok trimmed ∧
      "release" ∈ trimmed.order ∧
      (trimmed.prerequisites "release").Perm ((ofTargets looped).prerequisites "release") ∧
      "release" ∉ trimmed.prerequisites "release" := by
  have success : (ofTargets looped).trim looped ["release"] =
      .ok ((ofTargets looped).restrict ["style", "notes", "release"]) := by
    have nodes : (ofTargets looped).nodes = ["pages", "menu", "release", "notes", "style"] := by
      decide
    have release : looped.find? "release" =
        some { name := "release", depends := ["notes", "style", "notes"] } := rfl
    have notes : looped.find? "notes" = some { name := "notes", depends := ["style"] } := rfl
    have style : looped.find? "style" = some { name := "style" } := rfl
    simp [trim, orderOf, visit, visitAll, TargetGraph.find?, nodes, release, notes, style]
    rfl
  have member : "release" ∈ ["style", "notes", "release"] := by decide
  obtain ⟨whole, part⟩ := prerequisites_exact looped
  obtain ⟨_, _, same, absent, _⟩ := part _ _ success _ member
  exact ⟨((whole "pages").2.2 "pages").1, _, success, member, same, absent⟩

end BuildEngine.TargetGraph
