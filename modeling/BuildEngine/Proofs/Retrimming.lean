import BuildEngine.Proofs.Turn

/-! Trimming again. The order that goals are given depends on the declarations only, not on the
graph, so in a trimmed graph goals are given the same order as in the graph of all targets, and the
part that is kept for them is the same. -/

namespace BuildEngine.Targets

variable {ts : Targets} {order names more longer middle other : List String}

/-- Walking names one after another, each after what it lists, ends with a longer order than the one
it began with. -/
inductive Walks (ts : Targets) : List String → List String → List String → Prop
  | nil {order : List String} : Walks ts order [] order
  | old {order rest longer : List String} {name : String} (done : name ∈ order)
      (onward : Walks ts order rest longer) : Walks ts order (name :: rest) longer
  | new {order rest inner longer : List String} {name : String} {t : Target} (fresh : name ∉ order)
      (found : ts.find? name = some t) (first : Walks ts order t.depends inner)
      (onward : Walks ts (inner ++ [name]) rest longer) : Walks ts order (name :: rest) longer

namespace Walks

/-- There is only one order that a walk can end with. -/
theorem unique (first : ts.Walks order names longer) (second : ts.Walks order names other) :
    longer = other := by
  induction first generalizing other with
  | nil =>
    cases second with
    | nil => rfl
  | old done _ ih =>
    cases second with
    | old _ onward => exact ih onward
    | new fresh _ _ _ => exact absurd done fresh
  | new fresh found _ _ ihFirst ihOnward =>
    cases second with
    | old done _ => exact absurd done fresh
    | new _ again first onward =>
      cases Option.some.inj (found.symm.trans again)
      cases ihFirst first
      exact ihOnward onward

theorem append (first : ts.Walks order names middle) (second : ts.Walks middle more longer) :
    ts.Walks order (names ++ more) longer := by
  induction first with
  | nil => exact second
  | old done _ ih => exact .old done (ih second)
  | new fresh found inner _ _ ih => exact .new fresh found inner (ih second)

theorem finished (done : names ⊆ order) : ts.Walks order names order := by
  induction names with
  | nil => exact .nil
  | cons name rest ih =>
    exact .old (done List.mem_cons_self) (ih (List.subset_of_cons_subset done))

end Walks

/-- Walking the names of a finished order gives the order again. -/
theorem Ordered.walks (ordered : ts.Ordered order) : ts.Walks [] order order := by
  induction ordered with
  | nil => exact .nil
  | snoc _ fresh found complete ih => exact ih.append (.new fresh found (.finished complete) .nil)

end BuildEngine.Targets

namespace BuildEngine.TargetGraph

variable {ts : Targets} {g trimmed : TargetGraph} {goals path order less longer : List String}
variable {name : String} {levels : Nat}

theorem find?_of_find? {t : Target} (found : g.find? ts name = some t) :
    ts.find? name = some t := by
  rw [TargetGraph.find?] at found
  split at found
  · exact found
  · cases found

/-- A walk from a name succeeds if the name is finished, or if the walk from what it lists does. -/
theorem cases_of_visit (success : visit g ts levels path order name = .ok longer) :
    (name ∈ order ∧ longer = order) ∨
      ∃ below t inner, levels = below + 1 ∧ name ∉ order ∧ ts.find? name = some t ∧
        visitAll g ts below t (path ++ [name]) order t.depends = .ok inner ∧
        longer = inner ++ [name] := by
  by_cases again : name ∈ path
  · rw [visit_reentered again] at success
    cases success
  · by_cases done : name ∈ order
    · rw [visit_finished again done] at success
      exact .inl ⟨done, (Except.ok.inj success).symm⟩
    · rw [visit.eq_def, if_neg (by simpa using again), if_neg (by simpa using done)] at success
      split at success
      · rename_i below t found
        cases inner : visitAll g ts below t (path ++ [name]) order t.depends with
        | error error =>
          rw [inner] at success
          cases success
        | ok inside =>
          rw [inner] at success
          have same := Except.ok.inj success
          exact .inr ⟨below, t, inside, rfl, done, find?_of_find? found, inner, same.symm⟩
      · cases success

/-- Walking names one after another, if walks from single names do as the declarations say. -/
private theorem walks_of_visitAll {user : Target} {names : List String}
    (walk : ∀ {order longer name}, visit g ts levels path order name = .ok longer →
      ts.Walks order [name] longer)
    (success : visitAll g ts levels user path order names = .ok longer) :
    ts.Walks order names longer := by
  induction names generalizing order with
  | nil =>
    rw [visitAll_nil] at success
    cases success
    exact .nil
  | cons dependency rest ih =>
    cases declared : ts.contains dependency with
    | false =>
      rw [visitAll_unknown declared] at success
      cases success
    | true =>
      rw [visitAll_known declared] at success
      cases visited : visit g ts levels path order dependency with
      | error error =>
        rw [visited] at success
        cases success
      | ok middle =>
        rw [visited] at success
        exact (walk visited).append (ih success)

/-- The order that a walk through a graph ends with depends neither on the graph nor on the path. -/
theorem walks_of_visit (success : visit g ts levels path order name = .ok longer) :
    ts.Walks order [name] longer := by
  induction levels generalizing path order longer name with
  | zero =>
    obtain ⟨done, rfl⟩ | ⟨below, t, inner, none, _⟩ := cases_of_visit success
    · exact .old done .nil
    · cases none
  | succ levels ih =>
    obtain ⟨done, rfl⟩ | ⟨below, t, inner, same, fresh, found, inside, rfl⟩ :=
      cases_of_visit success
    · exact .old done .nil
    · cases same
      exact .new fresh found (walks_of_visitAll ih inside) .nil

private theorem walks_of_foldlM (success : goals.foldlM
    (fun order goal =>
      if g.nodes.contains goal then visit g ts (g.nodes.length + 1) [] order goal
      else .error (.unknownGoal goal)) order = .ok longer) : ts.Walks order goals longer := by
  induction goals generalizing order with
  | nil =>
    cases success
    exact .nil
  | cons goal rest ih =>
    rw [List.foldlM_cons] at success
    split at success
    · cases visited : visit g ts (g.nodes.length + 1) [] order goal with
      | error error =>
        rw [visited] at success
        cases success
      | ok middle =>
        rw [visited] at success
        exact (walks_of_visit visited).append (ih success)
    · cases success

theorem walks_of_trim (success : g.trim ts goals = .ok trimmed) :
    ts.Walks [] goals trimmed.order := by
  rw [trim] at success
  cases found : g.orderOf ts goals with
  | error error =>
    rw [found] at success
    cases success
  | ok order =>
    rw [found] at success
    cases success
    exact walks_of_foldlM found

/-! ### The part of a part -/

/-- The part of a graph that an order keeps has all that its targets list. -/
theorem covers_restrict (serves : Serves g ts goals order) : (g.restrict order).Covers ts where
  declared name node := by
    obtain ⟨_, kept⟩ := List.mem_filter.mp node
    exact serves.ordered.declared (List.contains_iff_mem.mp kept)
  closed user node dependency edge _ := by
    obtain ⟨_, kept⟩ := List.mem_filter.mp node
    have member := serves.ordered.closed (List.contains_iff_mem.mp kept) edge
    exact List.mem_filter.mpr ⟨serves.inside member, List.contains_iff_mem.mpr member⟩

/-- The edges of a part that start at a target: those of the graph that the part keeps. -/
theorem filter_edges_restrict (distinct : g.nodes.Nodup) (node : name ∈ g.nodes) :
    (g.restrict order).edges.filter (·.1 == name) =
      (g.edges.filter (·.1 == name)).filter fun edge =>
        order.contains edge.1 && order.contains edge.2 := by
  -- The edges stand in groups by the targets where they start, and each target has one group.
  have others {front : List String} (apart : name ∉ front) : (front.flatMap fun source =>
      ((g.edges.filter (·.1 == source)).filter fun edge =>
        order.contains edge.1 && order.contains edge.2).filter (·.1 == name)) = [] := by
    rw [List.flatMap_eq_nil_iff]
    intro source member
    rw [List.filter_eq_nil_iff]
    intro edge kept same
    have starts := (List.mem_filter.mp (List.mem_filter.mp kept).1).2
    rw [beq_iff_eq] at starts same
    exact apart (same ▸ starts ▸ member)
  obtain ⟨front, back, split⟩ := List.append_of_mem node
  rw [split, List.nodup_append, List.nodup_cons] at distinct
  have before : name ∉ front := fun member => distinct.2.2 name member name List.mem_cons_self rfl
  rw [restrict, List.filter_flatMap, split, List.flatMap_append, List.flatMap_cons, others before,
    others distinct.2.1.1, List.nil_append, List.append_nil, List.filter_filter,
    List.filter_filter, List.filter_filter]
  exact List.filter_congr fun edge _ => by cases edge.1 == name <;> simp

/-- Names for which nothing is made can be left out. -/
private theorem flatMap_filter_of_nil {names : List String} {keeps : String → Bool}
    {make : String → List (String × String)} (idle : ∀ name, keeps name = false → make name = []) :
    (names.filter keeps).flatMap make = names.flatMap make := by
  induction names with
  | nil => rfl
  | cons name rest ih =>
    cases kept : keeps name with
    | false =>
      rw [List.filter_cons_of_neg (by simp [kept]), List.flatMap_cons, idle name kept, ih,
        List.nil_append]
    | true => rw [List.filter_cons_of_pos kept, List.flatMap_cons, List.flatMap_cons, ih]

/-- The part of a part is a part of the whole. -/
theorem restrict_restrict (distinct : g.nodes.Nodup) (part : less ⊆ order) :
    (g.restrict order).restrict less = g.restrict less := by
  have inner (name : String) : (less.contains name && order.contains name) = less.contains name := by
    cases kept : less.contains name with
    | false => rfl
    | true => exact List.contains_iff_mem.mpr (part (List.contains_iff_mem.mp kept))
  have nodes : ((g.restrict order).restrict less).nodes = (g.restrict less).nodes := by
    change (g.nodes.filter order.contains).filter less.contains = g.nodes.filter less.contains
    rw [List.filter_filter]
    exact List.filter_congr fun name _ => inner name
  have groups : ∀ name ∈ g.nodes.filter order.contains,
      ((g.restrict order).edges.filter (·.1 == name)).filter
          (fun edge => less.contains edge.1 && less.contains edge.2) =
        (g.edges.filter (·.1 == name)).filter fun edge =>
          less.contains edge.1 && less.contains edge.2 := by
    intro name node
    rw [filter_edges_restrict distinct (List.mem_filter.mp node).1, List.filter_filter]
    refine List.filter_congr fun edge _ => ?_
    have swap : (less.contains edge.1 && less.contains edge.2 &&
        (order.contains edge.1 && order.contains edge.2)) =
      ((less.contains edge.1 && order.contains edge.1) &&
        (less.contains edge.2 && order.contains edge.2)) := by ac_rfl
    rw [swap, inner, inner]
  have edges : ((g.restrict order).restrict less).edges = (g.restrict less).edges := by
    change ((g.nodes.filter order.contains).flatMap fun name => _) = g.nodes.flatMap fun name => _
    rw [List.flatMap_congr groups]
    refine flatMap_filter_of_nil fun name dropped => List.filter_eq_nil_iff.mpr ?_
    intro edge member kept
    have starts : edge.1 = name := beq_iff_eq.mp (List.mem_filter.mp member).2
    rw [Bool.and_eq_true, starts, ← inner, dropped, Bool.and_false] at kept
    cases kept.1
  exact (TargetGraph.mk.injEq ..).mpr ⟨nodes, edges, rfl, rfl⟩

/-! ### Trimming composes -/

theorem sound_of_subset (serves : Serves g ts goals order) (part : less ⊆ order) :
    Sound ts less := by
  have inside {name : String} (needed : ts.Needed less name) : name ∈ order := by
    obtain ⟨goal, member, path⟩ := needed
    exact serves.ordered.mem_of_reflTransGen (part member) path
  exact ⟨fun goal member => serves.ordered.declared (part member),
    fun user needed dependency edge =>
      serves.ordered.declared (serves.ordered.closed (inside needed) edge),
    fun name needed => serves.ordered.acyclic (inside needed)⟩

/-- Trimming to the order of some goals gives the part for the goals again. -/
theorem trim_order (success : (ofTargets ts).trim ts goals = .ok trimmed) :
    (ofTargets ts).trim ts trimmed.order = .ok trimmed := by
  obtain ⟨serves, same⟩ := serves_of_trim (covers_ofTargets ts) success
  obtain ⟨again, trims⟩ :=
    trim_succeeds_iff_sound.mpr (sound_of_subset serves (List.Subset.refl trimmed.order))
  have order := serves.ordered.walks.unique (walks_of_trim trims)
  obtain ⟨_, sameAgain⟩ := serves_of_trim (covers_ofTargets ts) trims
  rw [trims, sameAgain, ← order, ← same]

/-- Trimming a part to some of its targets is trimming the whole to them. -/
theorem trim_trim (success : (ofTargets ts).trim ts goals = .ok trimmed)
    (part : less ⊆ trimmed.order) :
    ∃ lesser, trimmed.trim ts less = .ok lesser ∧ (ofTargets ts).trim ts less = .ok lesser := by
  obtain ⟨serves, same⟩ := serves_of_trim (covers_ofTargets ts) success
  have sound := sound_of_subset serves part
  have covers : trimmed.Covers ts := same ▸ covers_restrict serves
  have inside : ∀ goal ∈ less, ts.contains goal = true → goal ∈ trimmed.nodes := by
    intro goal member _
    rw [same]
    exact List.mem_filter.mpr
      ⟨serves.inside (part member), List.contains_iff_mem.mpr (part member)⟩
  obtain ⟨lesser, trims⟩ := sound.trim covers inside
  obtain ⟨whole, trimsWhole⟩ := trim_succeeds_iff_sound.mpr sound
  have order := (walks_of_trim trims).unique (walks_of_trim trimsWhole)
  obtain ⟨servesLess, sameLess⟩ := serves_of_trim covers trims
  obtain ⟨_, sameWhole⟩ := serves_of_trim (covers_ofTargets ts) trimsWhole
  have kept : lesser.order ⊆ trimmed.order := by
    intro name member
    exact List.contains_iff_mem.mp (List.mem_filter.mp (same ▸ servesLess.inside member)).2
  have nodes : (ofTargets ts).nodes.Nodup := nodes_ofTargets ts ▸ ts.nodup_keys
  have sameParts : trimmed.restrict lesser.order = (ofTargets ts).restrict lesser.order :=
    (congrArg (·.restrict lesser.order) same).trans (restrict_restrict nodes kept)
  refine ⟨lesser, trims, ?_⟩
  rw [trimsWhole, sameWhole, ← order, ← sameParts, ← sameLess]

/-- Trimming composes: of the part of all targets that some goals need, trimming to its order gives
the same part again, and trimming the part to any of its targets succeeds and gives the same graph,
with the same nodes, edges, order and states, as trimming the graph of all targets to them. The
states are those of targets that wait. -/
theorem trim_composes {ts : Targets} {goals : List String} {trimmed : TargetGraph}
    (success : (ofTargets ts).trim ts goals = .ok trimmed) :
    (ofTargets ts).trim ts trimmed.order = .ok trimmed ∧
    ∀ less ⊆ trimmed.order, ∃ lesser, trimmed.trim ts less = .ok lesser ∧
      (ofTargets ts).trim ts less = .ok lesser ∧ ∀ name, lesser.statusOf name = {} := by
  refine ⟨trim_order success, fun less part => ?_⟩
  obtain ⟨lesser, trims, trimsWhole⟩ := trim_trim success part
  obtain ⟨_, same⟩ := serves_of_trim (covers_ofTargets ts) trimsWhole
  exact ⟨lesser, trims, trimsWhole, fun name => same ▸ statusOf_restrict lesser.order⟩

/-- Targets of which one is asked for twice over, and before what it lists. -/
def diamond : Targets :=
  (((Targets.empty.put { name := "dist", depends := ["docs", "lib"] }).put
    { name := "docs", depends := ["init"] }).put { name := "lib", depends := ["init", "docs"] }).put
    { name := "init" }

theorem trim_composes_diamond : ∃ trimmed,
    (ofTargets diamond).trim diamond ["lib", "dist"] = .ok trimmed ∧
    ["lib", "init", "lib"] ⊆ trimmed.order ∧
    (ofTargets diamond).trim diamond trimmed.order = .ok trimmed ∧
    ∃ lesser, trimmed.trim diamond ["lib", "init", "lib"] = .ok lesser ∧
      (ofTargets diamond).trim diamond ["lib", "init", "lib"] = .ok lesser ∧
      ∀ name, lesser.statusOf name = {} := by
  have success : (ofTargets diamond).trim diamond ["lib", "dist"] =
      .ok ((ofTargets diamond).restrict ["init", "docs", "lib", "dist"]) := by
    have nodes : (ofTargets diamond).nodes = ["dist", "docs", "lib", "init"] := by decide
    have dist : diamond.find? "dist" = some { name := "dist", depends := ["docs", "lib"] } := rfl
    have docs : diamond.find? "docs" = some { name := "docs", depends := ["init"] } := rfl
    have lib : diamond.find? "lib" = some { name := "lib", depends := ["init", "docs"] } := rfl
    have init : diamond.find? "init" = some { name := "init" } := rfl
    simp [trim, orderOf, visit, visitAll, TargetGraph.find?, nodes, dist, docs, lib, init]
    rfl
  have part : ["lib", "init", "lib"] ⊆ ["init", "docs", "lib", "dist"] := by decide
  exact ⟨_, success, part, (trim_composes success).1, (trim_composes success).2 _ part⟩

end BuildEngine.TargetGraph
