import BuildEngine.Target.Graph
import Mathlib.Data.List.Chain
import Mathlib.Data.List.Nodup
import Mathlib.Logic.Relation

/-! What the declarations of targets say about dependencies, apart from any graph or walk: which
names goals need, what a cycle is, and which orders put every dependency first. -/

namespace BuildEngine.Targets

open Relation

/-- A target lists a name among those that it depends on. -/
def Depends (ts : Targets) (user dependency : String) : Prop :=
  ∃ t, ts.find? user = some t ∧ dependency ∈ t.depends

/-- Goals need themselves and all that is reached from them over dependencies. -/
def Needed (ts : Targets) (goals : List String) (name : String) : Prop :=
  ∃ goal ∈ goals, ReflTransGen ts.Depends goal name

/-- A list that ends where it begins, and in which each target lists the next name. -/
structure IsCycle (ts : Targets) (names : List String) : Prop where
  closed : ∃ first middle, names = first :: (middle ++ [first])
  linked : names.IsChain ts.Depends

/-- An order in which every target is declared, new, and later than all that it lists. -/
inductive Ordered (ts : Targets) : List String → Prop
  | nil : Ordered ts []
  | snoc {order : List String} {name : String} {t : Target} (earlier : Ordered ts order)
      (fresh : name ∉ order) (found : ts.find? name = some t)
      (complete : ∀ dependency ∈ t.depends, dependency ∈ order) : Ordered ts (order ++ [name])

variable {ts : Targets} {goals order : List String} {name user dependency : String}

theorem depends_iff {t : Target} (found : ts.find? user = some t) :
    ts.Depends user dependency ↔ dependency ∈ t.depends := by
  constructor
  · rintro ⟨other, same, listed⟩
    rw [Option.some.inj (found.symm.trans same)]
    exact listed
  · intro listed
    exact ⟨t, found, listed⟩

theorem Needed.of_mem (member : name ∈ goals) : ts.Needed goals name :=
  ⟨name, member, .refl⟩

theorem Needed.tail (needed : ts.Needed goals user) (edge : ts.Depends user dependency) :
    ts.Needed goals dependency := by
  obtain ⟨goal, member, path⟩ := needed
  exact ⟨goal, member, path.tail edge⟩

/-- Where a chain ends as it begins, the first name is reached from itself. -/
theorem transGen_of_closed {r : String → String → Prop} {names middle : List String}
    {first : String} (closed : names = first :: (middle ++ [first])) (linked : names.IsChain r) :
    TransGen r first first := by
  subst closed
  cases middle with
  | nil => exact .single (List.isChain_cons_cons.mp linked).1
  | cons next rest =>
    obtain ⟨edge, later⟩ := List.isChain_cons_cons.mp linked
    have path : ReflTransGen r next first := by
      simpa using List.relationReflTransGen_of_exists_isChain _ later (List.cons_ne_nil _ _)
    exact .head' edge path

/-- A name that is reached from itself begins and ends a chain. -/
theorem exists_closed_of_transGen {r : String → String → Prop} {first : String}
    (path : TransGen r first first) : ∃ middle, (first :: (middle ++ [first])).IsChain r := by
  obtain ⟨next, edge, onward⟩ := TransGen.head'_iff.mp path
  obtain ⟨rest, linked, last⟩ := List.exists_isChain_cons_of_relationReflTransGen onward
  refine ⟨(next :: rest).dropLast, ?_⟩
  have whole := List.dropLast_append_getLast (List.cons_ne_nil next rest)
  rw [last] at whole
  rw [whole]
  exact List.isChain_cons_cons.mpr ⟨edge, linked⟩

/-- A target on a cycle is reached from itself. -/
theorem IsCycle.transGen {names : List String} (cycle : ts.IsCycle names) :
    ∃ first ∈ names, TransGen ts.Depends first first := by
  obtain ⟨first, middle, closed⟩ := cycle.closed
  exact ⟨first, closed ▸ List.mem_cons_self, transGen_of_closed closed cycle.linked⟩

namespace Ordered

theorem nodup (ordered : ts.Ordered order) : order.Nodup := by
  induction ordered with
  | nil => exact List.nodup_nil
  | snoc _ fresh _ _ ih =>
    rw [← List.concat_eq_append]
    exact ih.concat fresh

theorem declared (ordered : ts.Ordered order) (member : name ∈ order) :
    ts.contains name = true := by
  induction ordered with
  | nil => cases member
  | snoc _ _ found _ ih =>
    rcases List.mem_append.mp member with earlier | last
    · exact ih earlier
    · rw [List.mem_singleton.mp last]
      exact (ts.contains_iff_find? _).mpr ⟨_, found⟩

/-- Wherever a target stands in the order, what it lists stands before it. -/
theorem before (ordered : ts.Ordered order) {pre post : List String}
    (split : order = pre ++ user :: post) (edge : ts.Depends user dependency) :
    dependency ∈ pre := by
  induction ordered generalizing pre post with
  | nil => simp at split
  | @snoc earlier last t ordered fresh found complete ih =>
    rcases List.eq_nil_or_concat post with none | ⟨rest, final, same⟩
    · subst none
      obtain ⟨sameOrder, sameLast⟩ := List.append_inj' split rfl
      rw [← sameOrder]
      have same : user = last := (List.cons.inj sameLast).1.symm
      subst same
      exact complete _ ((depends_iff found).mp edge)
    · subst same
      have longer : earlier ++ [last] = (pre ++ user :: rest) ++ [final] := by simpa using split
      exact ih (List.append_inj' longer rfl).1

theorem closed (ordered : ts.Ordered order) (member : user ∈ order)
    (edge : ts.Depends user dependency) : dependency ∈ order := by
  obtain ⟨pre, post, split⟩ := List.append_of_mem member
  rw [split]
  exact List.mem_append_left _ (ordered.before split edge)

/-- All that a target depends on stands before it, directly listed or not. -/
theorem before_trans (ordered : ts.Ordered order) {pre post : List String}
    (split : order = pre ++ user :: post) (path : TransGen ts.Depends user dependency) :
    dependency ∈ pre := by
  induction path with
  | single edge => exact ordered.before split edge
  | tail _ edge ih =>
    obtain ⟨first, second, inner⟩ := List.append_of_mem ih
    subst inner
    rw [List.append_assoc, List.cons_append] at split
    exact List.mem_append_left _ (ordered.before split edge)

theorem acyclic (ordered : ts.Ordered order) (member : name ∈ order) :
    ¬ TransGen ts.Depends name name := by
  intro path
  obtain ⟨pre, post, split⟩ := List.append_of_mem member
  have distinct := ordered.nodup
  rw [split, List.nodup_append] at distinct
  exact distinct.2.2 name (ordered.before_trans split path) name List.mem_cons_self rfl

theorem mem_of_reflTransGen (ordered : ts.Ordered order) (member : user ∈ order)
    (path : ReflTransGen ts.Depends user dependency) : dependency ∈ order := by
  induction path with
  | refl => exact member
  | tail _ edge ih => exact ordered.closed ih edge

end Ordered
end BuildEngine.Targets

/-! The nodes and edges of target graphs, seen from the declarations that they were made from: of
the graph of all targets, and of the part of it that an order keeps. -/

namespace BuildEngine.TargetGraph

variable {α : Type} [BEq α] [LawfulBEq α]

theorem mem_insertNew {as : List α} {a b : α} : b ∈ insertNew as a ↔ b ∈ as ∨ b = a := by
  unfold insertNew
  split
  · rename_i present
    constructor
    · exact .inl
    · rintro (old | rfl)
      · exact old
      · exact List.contains_iff_mem.mp present
  · simp

theorem mem_foldl_insertNew {added as : List α} {b : α} :
    b ∈ added.foldl insertNew as ↔ b ∈ as ∨ b ∈ added := by
  induction added generalizing as with
  | nil => simp
  | cons a rest ih =>
    rw [List.foldl_cons, ih, mem_insertNew, List.mem_cons, or_assoc]

theorem foldl_insertNew_of_nodup {added as : List α} (distinct : (as ++ added).Nodup) :
    added.foldl insertNew as = as ++ added := by
  induction added generalizing as with
  | nil => simp
  | cons a rest ih =>
    have fresh : a ∉ as := fun member =>
      (List.nodup_append.mp distinct).2.2 a member a List.mem_cons_self rfl
    rw [List.foldl_cons, insertNew, if_neg (by simpa using fresh), ih (by simpa using distinct),
      List.append_assoc, List.singleton_append]

variable {ts : Targets} {g : TargetGraph} {name user dependency : String}

/-- The nodes of a graph are declared, and it has all declared targets that its nodes list. -/
structure Covers (g : TargetGraph) (ts : Targets) : Prop where
  declared : ∀ name ∈ g.nodes, ts.contains name = true
  closed : ∀ user ∈ g.nodes, ∀ dependency, ts.Depends user dependency →
    ts.contains dependency = true → dependency ∈ g.nodes

theorem Covers.find? (covers : g.Covers ts) (node : name ∈ g.nodes) :
    ∃ t, ts.find? name = some t ∧ g.find? ts name = some t := by
  obtain ⟨t, found⟩ := (ts.contains_iff_find? name).mp (covers.declared name node)
  refine ⟨t, found, ?_⟩
  rw [TargetGraph.find?, if_pos (List.contains_iff_mem.mpr node), found]

theorem nodes_ofTargets (ts : Targets) : (ofTargets ts).nodes = ts.keys :=
  foldl_insertNew_of_nodup ts.nodup_keys

theorem mem_nodes_ofTargets : name ∈ (ofTargets ts).nodes ↔ ts.contains name = true := by
  rw [nodes_ofTargets, ts.contains_iff_mem_keys]

theorem covers_ofTargets (ts : Targets) : (ofTargets ts).Covers ts where
  declared _ node := mem_nodes_ofTargets.mp node
  closed _ _ _ _ declared := mem_nodes_ofTargets.mpr declared

/-- An edge leads from a declared target to one that lists it. -/
theorem mem_edges_ofTargets :
    (dependency, user) ∈ (ofTargets ts).edges ↔
      ts.Depends user dependency ∧ ts.contains dependency = true := by
  have nodes : ts.keys.foldl insertNew [] = ts.keys := nodes_ofTargets ts
  simp only [ofTargets, populate, nodes, mem_foldl_insertNew, List.not_mem_nil, false_or,
    List.mem_flatMap, List.mem_map, List.mem_filter, List.contains_iff_mem, Prod.mk.injEq]
  constructor
  · rintro ⟨t, member, listed, ⟨inList, node⟩, rfl, rfl⟩
    exact ⟨⟨t, Targets.mem_values_iff.mp member, inList⟩, (ts.contains_iff_mem_keys _).mpr node⟩
  · rintro ⟨⟨t, found, inList⟩, declared⟩
    have same := Targets.name_of_find? found
    refine ⟨t, Targets.mem_values_iff.mpr (same ▸ found), dependency, ⟨inList, ?_⟩, rfl, same⟩
    exact (ts.contains_iff_mem_keys _).mp declared

theorem mem_dependencies : dependency ∈ g.dependencies name ↔ (dependency, name) ∈ g.edges := by
  simp only [dependencies, List.mem_map, List.mem_filter, beq_iff_eq, Prod.exists,
    exists_and_right, exists_eq_right]

theorem mem_edges_restrict {order : List String} :
    (dependency, user) ∈ (g.restrict order).edges ↔
      dependency ∈ g.nodes ∧ (dependency, user) ∈ g.edges ∧ dependency ∈ order ∧ user ∈ order := by
  simp only [restrict, List.mem_flatMap, List.mem_filter, beq_iff_eq, Bool.and_eq_true,
    List.contains_iff_mem]
  constructor
  · rintro ⟨source, node, ⟨edge, rfl⟩, kept⟩
    exact ⟨node, edge, kept⟩
  · rintro ⟨node, edge, kept⟩
    exact ⟨dependency, node, ⟨edge, rfl⟩, kept⟩

/-- In the part of all targets that a finished order keeps, a target has the dependencies that it
lists. -/
theorem mem_dependencies_restrict {order : List String} (ordered : ts.Ordered order)
    (member : user ∈ order) :
    dependency ∈ ((ofTargets ts).restrict order).dependencies user ↔
      ts.Depends user dependency := by
  rw [mem_dependencies, mem_edges_restrict, mem_edges_ofTargets, mem_nodes_ofTargets]
  constructor
  · rintro ⟨_, ⟨edge, _⟩, _⟩
    exact edge
  · intro edge
    have kept := ordered.closed member edge
    have declared := ordered.declared kept
    exact ⟨declared, ⟨edge, declared⟩, kept, member⟩

end BuildEngine.TargetGraph
