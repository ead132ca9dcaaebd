import BuildEngine.Proofs.Walk

/-! The search for a cycle along the edges of a graph. What it gives is a round: edges that lead back
to where they start. If it gives nothing, it has explored all names in an order in which no edge leads
onward, so there is no round. -/

namespace BuildEngine.TargetGraph

open Relation

variable {g : TargetGraph} {path explored names : List String} {name user : String}
variable {edges : List (String × String)} {levels : Nat}

/-- An edge of a graph, from a target to one that depends on it. -/
def Drawn (g : TargetGraph) (dependency user : String) : Prop := (dependency, user) ∈ g.edges

/-- The edges of a graph join its nodes. -/
def Joins (g : TargetGraph) : Prop :=
  ∀ dependency user, g.Drawn dependency user → dependency ∈ g.nodes ∧ user ∈ g.nodes

/-- Edges of a graph that follow one another and lead back to where they start. -/
structure IsRound (g : TargetGraph) (edges : List (String × String)) : Prop where
  drawn : edges ⊆ g.edges
  linked : edges.IsChain fun edge next => edge.2 = next.1
  closed : ∃ first last, edges.head? = some first ∧ edges.getLast? = some last ∧ last.2 = first.1

/-- What is asked of a search for cycles in a graph: the edges of one if there is one, and nothing
otherwise. -/
def Finds (g : TargetGraph) : Option (List (String × String)) → Prop
  | some edges => g.IsRound edges
  | none => ∀ edges, ¬ g.IsRound edges

theorem mem_dependents : user ∈ g.dependents name ↔ g.Drawn name user := by
  simp only [dependents, Drawn, List.mem_map, List.mem_filter, beq_iff_eq, Prod.exists,
    exists_eq_right]

theorem joins_ofTargets (ts : Targets) : (ofTargets ts).Joins := by
  intro dependency user edge
  obtain ⟨⟨t, found, _⟩, declared⟩ := mem_edges_ofTargets.mp edge
  exact ⟨mem_nodes_ofTargets.mpr declared,
    mem_nodes_ofTargets.mpr ((ts.contains_iff_find? user).mpr ⟨t, found⟩)⟩

/-! ### Rounds as lists of names -/

/-- The names along edges that follow one another, up to where the last of them leads. -/
theorem isChain_names {last : String × String} (drawn : edges ⊆ g.edges)
    (linked : edges.IsChain fun edge next => edge.2 = next.1) (ends : edges.getLast? = some last) :
    (edges.map Prod.fst ++ [last.2]).IsChain g.Drawn := by
  induction edges with
  | nil => cases ends
  | cons edge rest ih =>
    have here : g.Drawn edge.1 edge.2 := drawn List.mem_cons_self
    cases rest with
    | nil =>
      cases Option.some.inj ends
      exact List.isChain_pair.mpr here
    | cons next later =>
      obtain ⟨same, linked⟩ := List.isChain_cons_cons.mp linked
      have onward := ih (List.subset_of_cons_subset drawn) linked (by simpa using ends)
      exact List.isChain_cons_cons.mpr ⟨same ▸ here, onward⟩

/-- A round read as a list of names: it ends where it begins, and each name has an edge to the
next. -/
theorem IsRound.along (round : g.IsRound edges) :
    (∃ first middle, namesAlong edges = first :: (middle ++ [first])) ∧
      (namesAlong edges).IsChain g.Drawn := by
  obtain ⟨first, last, starts, ends, back⟩ := round.closed
  have chain := isChain_names round.drawn round.linked ends
  obtain ⟨rest, rfl⟩ := List.head?_eq_some_iff.mp starts
  rw [back] at chain
  exact ⟨⟨first.1, rest.map Prod.fst, rfl⟩, chain⟩

theorem IsRound.transGen (round : g.IsRound edges) : ∃ name, TransGen g.Drawn name name := by
  obtain ⟨⟨first, middle, closed⟩, chain⟩ := round.along
  exact ⟨first, Targets.transGen_of_closed closed chain⟩

/-- The steps along a chain of names are edges that follow one another. -/
theorem stepsAlong_drawn (chain : names.IsChain g.Drawn) :
    stepsAlong names ⊆ g.edges ∧ (stepsAlong names).IsChain fun edge next => edge.2 = next.1 := by
  induction names with
  | nil => exact ⟨List.nil_subset _, .nil⟩
  | cons name rest ih =>
    cases rest with
    | nil => exact ⟨List.nil_subset _, .nil⟩
    | cons next later =>
      obtain ⟨edge, chain⟩ := List.isChain_cons_cons.mp chain
      obtain ⟨drawn, linked⟩ := ih chain
      refine ⟨List.cons_subset.mpr ⟨edge, drawn⟩, ?_⟩
      cases later with
      | nil => exact List.isChain_singleton _
      | cons _ _ => exact List.isChain_cons_cons.mpr ⟨rfl, linked⟩

/-- The steps along names lead from the first of them to the last. -/
theorem stepsAlong_ends (first last : String) (middle : List String) : ∃ next before,
    (stepsAlong (first :: (middle ++ [last]))).head? = some (first, next) ∧
      (stepsAlong (first :: (middle ++ [last]))).getLast? = some (before, last) := by
  induction middle generalizing first with
  | nil => exact ⟨last, first, rfl, rfl⟩
  | cons name rest ih =>
    obtain ⟨next, before, _, ends⟩ := ih name
    have step : stepsAlong (first :: (name :: rest ++ [last])) =
        (first, name) :: stepsAlong (name :: (rest ++ [last])) := rfl
    exact ⟨name, before, rfl, by rw [step, List.getLast?_cons, ends]; rfl⟩

theorem isRound_stepsAlong {first : String} {middle : List String}
    (chain : (first :: (middle ++ [first])).IsChain g.Drawn) :
    g.IsRound (stepsAlong (first :: (middle ++ [first]))) := by
  obtain ⟨drawn, linked⟩ := stepsAlong_drawn chain
  obtain ⟨next, before, starts, ends⟩ := stepsAlong_ends first first middle
  exact ⟨drawn, linked, _, _, starts, ends, rfl⟩

/-! ### What a search explores -/

/-- An order in which each name is new and comes after all that its edges lead to. -/
inductive Explored (g : TargetGraph) : List String → Prop
  | nil : Explored g []
  | snoc {order : List String} {name : String} (earlier : Explored g order) (fresh : name ∉ order)
      (complete : ∀ user ∈ g.dependents name, user ∈ order) : Explored g (order ++ [name])

theorem Explored.closed (explored : Explored g names) (member : name ∈ names)
    (edge : g.Drawn name user) : user ∈ names := by
  induction explored with
  | nil => cases member
  | snoc _ _ complete ih =>
    rcases List.mem_append.mp member with earlier | last
    · exact List.mem_append_left _ (ih earlier)
    · rw [List.mem_singleton.mp last] at edge
      exact List.mem_append_left _ (complete user (mem_dependents.mpr edge))

theorem Explored.acyclic (explored : Explored g names) (member : name ∈ names) :
    ¬ TransGen g.Drawn name name := by
  induction explored with
  | nil => cases member
  | @snoc order last explored fresh complete ih =>
    rcases List.mem_append.mp member with earlier | same
    · exact ih earlier
    · rw [List.mem_singleton.mp same]
      intro path
      obtain ⟨next, edge, onward⟩ := TransGen.head'_iff.mp path
      have inside : ∀ {other}, ReflTransGen g.Drawn next other → other ∈ order := by
        intro other onward
        induction onward with
        | refl => exact complete next (mem_dependents.mpr edge)
        | tail _ edge ih => exact explored.closed ih edge
      exact fresh (inside onward)

/-! ### The search -/

/-- What holds while a search stands at the end of a path. -/
structure Searching (g : TargetGraph) (levels : Nat) (path explored : List String) : Prop where
  all : Explored g explored
  there : PathIn g.nodes g.Drawn levels path explored

/-- What a search ends with that has to explore some names: they are explored, or there is a list of
names along edges that ends where it begins. -/
inductive Searched (g : TargetGraph) (path explored names : List String) :
    Except (List String) (List String) → Prop
  | finished {longer : List String} (all : Explored g longer) (kept : explored ⊆ longer)
      (complete : names ⊆ longer) (unfinished : ∀ name ∈ path, name ∉ longer) :
      Searched g path explored names (.ok longer)
  | found {cycle : List String} (closed : ∃ first middle, cycle = first :: (middle ++ [first]))
      (linked : cycle.IsChain g.Drawn) : Searched g path explored names (.error cycle)

theorem searchCycle_reentered (again : name ∈ path) :
    g.searchCycle levels path explored name = .error (cycleAt path name) := by
  rw [searchCycle.eq_def, if_pos (List.contains_iff_mem.mpr again)]

theorem searchCycle_explored (off : name ∉ path) (done : name ∈ explored) :
    g.searchCycle levels path explored name = .ok explored := by
  rw [searchCycle.eq_def, if_neg (by simpa using off), if_pos (List.contains_iff_mem.mpr done)]

theorem searchCycle_new (off : name ∉ path) (new : name ∉ explored) :
    g.searchCycle (levels + 1) path explored name =
      (g.searchCycles levels (path ++ [name]) explored (g.dependents name)).map (· ++ [name]) := by
  rw [searchCycle.eq_def, if_neg (by simpa using off), if_neg (by simpa using new)]
  rfl

theorem searchCycles_nil : g.searchCycles levels path explored [] = .ok explored := by
  rw [searchCycles]

theorem searchCycles_cons {rest : List String} :
    g.searchCycles levels path explored (name :: rest) =
      (g.searchCycle levels path explored name >>= fun longer =>
        g.searchCycles levels path longer rest) := by
  rw [searchCycles]

/-- Searching from names one after another, if single searches do well. -/
private theorem searchCycles_searched
    (search : ∀ {explored name}, Searching g levels path explored → name ∈ names →
      Searched g path explored [name] (g.searchCycle levels path explored name))
    (searching : Searching g levels path explored) :
    Searched g path explored names (g.searchCycles levels path explored names) := by
  induction names generalizing explored with
  | nil =>
    rw [searchCycles_nil]
    exact .finished searching.all (List.Subset.refl _) (List.nil_subset _)
      searching.there.unfinished
  | cons name rest ih =>
    rw [searchCycles_cons]
    have first := search searching List.mem_cons_self
    generalize g.searchCycle levels path explored name = result at first
    cases first with
    | found closed linked => exact .found closed linked
    | @finished longer all kept complete unfinished =>
      have later := ih (fun searching member => search searching (List.mem_cons_of_mem _ member))
        ⟨all, { searching.there with unfinished := unfinished }⟩
      change Searched g path explored (name :: rest) (g.searchCycles levels path longer rest)
      generalize g.searchCycles levels path longer rest = result at later
      cases later with
      | found closed linked => exact .found closed linked
      | finished all keptMore completeMore unfinished =>
        refine .finished all (List.Subset.trans kept keptMore) ?_ unfinished
        exact List.cons_subset.mpr ⟨keptMore (complete List.mem_cons_self), completeMore⟩

/-- A search from a name explores it, or finds names along edges that end where they begin. -/
theorem searchCycle_searched (joins : g.Joins) (searching : Searching g levels path explored)
    (node : name ∈ g.nodes) (linked : (path ++ [name]).IsChain g.Drawn) :
    Searched g path explored [name] (g.searchCycle levels path explored name) := by
  induction levels generalizing path explored name with
  | zero => exact absurd rfl searching.there.levels_ne_zero
  | succ below ih =>
    by_cases again : name ∈ path
    · rw [searchCycle_reentered again]
      obtain ⟨closed, chain, _⟩ := cycleAt_closes linked again
      exact .found closed chain
    · by_cases done : name ∈ explored
      · rw [searchCycle_explored again done]
        exact .finished searching.all (List.Subset.refl _) (by simpa using done)
          searching.there.unfinished
      · rw [searchCycle_new again done]
        have deeper := searching.there.descend node linked again done
        have all : Searched g (path ++ [name]) explored (g.dependents name)
            (g.searchCycles below (path ++ [name]) explored (g.dependents name)) := by
          refine searchCycles_searched (fun {explored user} searching member => ?_)
            ⟨searching.all, deeper⟩
          have edge := mem_dependents.mp member
          exact ih searching (joins name user edge).2 (isChain_concat searching.there.linked edge)
        generalize g.searchCycles below (path ++ [name]) explored (g.dependents name) = result
          at all
        cases all with
        | found closed linked => exact .found closed linked
        | finished all kept complete unfinished =>
          have fresh := unfinished name (by simp)
          refine .finished (all.snoc fresh complete) ?_ (by simp) ?_
          · exact List.Subset.trans kept (List.subset_append_left _ _)
          · intro other member inOrder
            rcases List.mem_append.mp inOrder with earlier | last
            · exact unfinished other (List.mem_append_left _ member) earlier
            · exact again (List.mem_singleton.mp last ▸ member)

/-- The search along the edges does what is asked of a search for cycles. -/
theorem finds_cycle? (joins : g.Joins) : g.Finds g.cycle? := by
  have searching : Searching g (g.nodes.length + 1) [] [] :=
    ⟨.nil, .nil, List.nodup_nil, List.nil_subset _, nofun, by simp⟩
  have searched : Searched g [] [] g.nodes
      (g.searchCycles (g.nodes.length + 1) [] [] g.nodes) :=
    searchCycles_searched (fun searching node =>
      searchCycle_searched joins searching node (List.isChain_singleton _)) searching
  rw [cycle?]
  generalize g.searchCycles (g.nodes.length + 1) [] [] g.nodes = result at searched
  cases searched with
  | found closed linked =>
    obtain ⟨first, middle, rfl⟩ := closed
    exact isRound_stepsAlong linked
  | finished all _ complete _ =>
    intro edges round
    obtain ⟨name, path⟩ := round.transGen
    obtain ⟨next, edge, _⟩ := TransGen.head'_iff.mp path
    exact all.acyclic (complete (joins name next edge).1) path

end BuildEngine.TargetGraph
