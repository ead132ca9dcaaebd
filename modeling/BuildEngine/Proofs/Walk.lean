import BuildEngine.Proofs.Dependency

/-! The depth-first walk. One statement says all that a walk from a name can end with: an order
that is longer by targets whose dependencies come first, or a complaint that the declarations bear
out. Names on the path stay out of the order, and there are fewer of them than targets. -/

namespace BuildEngine.TargetGraph

variable {ts : Targets} {g : TargetGraph} {goals path order : List String} {name : String}
variable {levels : Nat}

/-- What the declarations say about a complaint of walks through a graph that start from goals. -/
def Justified (g : TargetGraph) (ts : Targets) (goals : List String) : GraphError → Prop
  | .unknownGoal name => name ∈ goals ∧ name ∉ g.nodes
  | .unknownDependency name user location =>
    ts.Needed goals user ∧ ts.Depends user name ∧ ts.contains name = false ∧
      ∃ t, ts.find? user = some t ∧ t.location = location
  | .cycle names _ => ts.IsCycle names ∧ ∀ name ∈ names, ts.Needed goals name
  | .absent _ => False

/-- What holds while a walk stands at the end of a path, with targets finished in an order. The
levels that are left make up for the length of the path. -/
structure Walking (g : TargetGraph) (ts : Targets) (goals : List String) (levels : Nat)
    (path order : List String) : Prop where
  ordered : ts.Ordered order
  inside : order ⊆ g.nodes
  needed : ∀ name ∈ order, ts.Needed goals name
  linked : path.IsChain ts.Depends
  wanted : ∀ name ∈ path, ts.Needed goals name
  distinct : path.Nodup
  nodes : ∀ name ∈ path, name ∈ g.nodes
  unfinished : ∀ name ∈ path, name ∉ order
  budget : g.nodes.length < levels + path.length

/-- What a walk ends with that began with an order and has to finish some names. -/
inductive Walked (g : TargetGraph) (ts : Targets) (goals path order names : List String) :
    Except GraphError (List String) → Prop
  | finished {longer : List String} (ordered : ts.Ordered longer) (inside : longer ⊆ g.nodes)
      (needed : ∀ name ∈ longer, ts.Needed goals name) (kept : order ⊆ longer)
      (complete : names ⊆ longer) (unfinished : ∀ name ∈ path, name ∉ longer) :
      Walked g ts goals path order names (.ok longer)
  | refused {error : GraphError} (justified : Justified g ts goals error) :
      Walked g ts goals path order names (.error error)

theorem visit_reentered (again : name ∈ path) :
    visit g ts levels path order name =
      .error (.cycle (cycleAt path name) (((g.find? ts name).map (·.location)).getD .unknown)) := by
  rw [visit.eq_def, if_pos (List.contains_iff_mem.mpr again)]

theorem visit_finished (off : name ∉ path) (done : name ∈ order) :
    visit g ts levels path order name = .ok order := by
  rw [visit.eq_def, if_neg (by simpa using off), if_pos (List.contains_iff_mem.mpr done)]

theorem visit_new {t : Target} (off : name ∉ path) (new : name ∉ order)
    (found : g.find? ts name = some t) :
    visit g ts (levels + 1) path order name =
      (visitAll g ts levels t (path ++ [name]) order t.depends).map (· ++ [name]) := by
  rw [visit.eq_def, if_neg (by simpa using off), if_neg (by simpa using new)]
  simp only [found]
  rfl

theorem visitAll_nil {user : Target} : visitAll g ts levels user path order [] = .ok order := by
  rw [visitAll]

theorem visitAll_unknown {user : Target} {rest : List String}
    (missing : ts.contains name = false) :
    visitAll g ts levels user path order (name :: rest) =
      .error (.unknownDependency name user.name user.location) := by
  rw [visitAll]
  simp only [missing, Bool.not_false, if_true]
  rfl

theorem visitAll_known {user : Target} {rest : List String}
    (declared : ts.contains name = true) :
    visitAll g ts levels user path order (name :: rest) =
      (visit g ts levels path order name >>= fun longer =>
        visitAll g ts levels user path longer rest) := by
  rw [visitAll]
  simp only [declared, Bool.not_true, Bool.false_eq_true, if_false]

/-- A target that depends on nothing is all that a graph keeps for it. -/
theorem trim_of_independent (alone : (ts.find? name).map (·.depends) = some []) :
    (ofTargets ts).trim ts [name] = .ok ((ofTargets ts).restrict [name]) := by
  obtain ⟨t, found, none⟩ := Option.map_eq_some_iff.mp alone
  have node : name ∈ (ofTargets ts).nodes :=
    mem_nodes_ofTargets.mpr ((ts.contains_iff_find? name).mpr ⟨t, found⟩)
  have there : (ofTargets ts).find? ts name = some t := by
    rw [TargetGraph.find?, if_pos (List.contains_iff_mem.mpr node), found]
  rw [trim, orderOf, List.foldlM_cons, if_pos (List.contains_iff_mem.mpr node),
    visit_new List.not_mem_nil List.not_mem_nil there, none, visitAll_nil]
  rfl

/-- The part of a path from a name on, closed with the name, leads from the name back to it over
names on the path. -/
theorem cycleAt_closes {r : String → String → Prop} (linked : (path ++ [name]).IsChain r)
    (again : name ∈ path) :
    (∃ first middle, cycleAt path name = first :: (middle ++ [first])) ∧
      (cycleAt path name).IsChain r ∧ cycleAt path name ⊆ path := by
  obtain ⟨front, back, rfl, early⟩ := List.eq_append_cons_of_mem again
  have same : cycleAt (front ++ name :: back) name = name :: (back ++ [name]) := by
    rw [cycleAt, List.dropWhile_append_of_pos (by grind), List.dropWhile_cons_of_neg (by simp),
      List.cons_append]
  rw [same]
  rw [List.append_assoc, List.cons_append] at linked
  refine ⟨⟨name, back, rfl⟩, linked.right_of_append, ?_⟩
  intro member inCycle
  simp only [List.mem_cons, List.mem_append, List.not_mem_nil, or_false] at inCycle ⊢
  tauto

/-- A path goes on over one more link. -/
theorem isChain_concat {r : String → String → Prop} {front : List String} {last next : String}
    (linked : (front ++ [last]).IsChain r) (link : r last next) :
    ((front ++ [last]) ++ [next]).IsChain r := by
  refine linked.append (List.isChain_singleton _) ?_
  intro before isLast after isNext
  rw [List.getLast?_concat] at isLast
  rw [← Option.some.inj isLast, ← Option.some.inj isNext]
  exact link

/-- A path over distinct nodes that are not done. The levels that are left make up for its
length. -/
structure PathIn (nodes : List String) (r : String → String → Prop) (levels : Nat)
    (path done : List String) : Prop where
  linked : path.IsChain r
  distinct : path.Nodup
  inside : path ⊆ nodes
  unfinished : ∀ name ∈ path, name ∉ done
  budget : nodes.length < levels + path.length

namespace PathIn

variable {nodes done : List String} {r : String → String → Prop}

/-- A path without levels left would be longer than there are nodes. -/
theorem levels_ne_zero (there : PathIn nodes r levels path done) : levels ≠ 0 := by
  have budget := there.budget
  have bound := there.distinct.length_le_of_subset there.inside
  omega

/-- A path goes on to a new node with one level less. -/
theorem descend (there : PathIn nodes r (levels + 1) path done) (node : name ∈ nodes)
    (linked : (path ++ [name]).IsChain r) (off : name ∉ path) (new : name ∉ done) :
    PathIn nodes r levels (path ++ [name]) done where
  linked := linked
  distinct := by
    rw [← List.concat_eq_append]
    exact there.distinct.concat off
  inside := List.append_subset.mpr ⟨there.inside, by simpa using node⟩
  unfinished := by
    intro other member
    rcases List.mem_append.mp member with earlier | last
    · exact there.unfinished other earlier
    · rwa [List.mem_singleton.mp last]
  budget := by
    have budget := there.budget
    rw [List.length_append, List.length_singleton]
    omega

end PathIn

namespace Walking

theorem there (walking : Walking g ts goals levels path order) :
    PathIn g.nodes ts.Depends levels path order :=
  ⟨walking.linked, walking.distinct, walking.nodes, walking.unfinished, walking.budget⟩

/-- The order may grow by finished targets while a walk stands at the end of its path. -/
theorem grow {longer : List String} (walking : Walking g ts goals levels path order)
    (ordered : ts.Ordered longer) (inside : longer ⊆ g.nodes)
    (needed : ∀ name ∈ longer, ts.Needed goals name)
    (unfinished : ∀ name ∈ path, name ∉ longer) : Walking g ts goals levels path longer :=
  { walking with ordered, inside, needed, unfinished }

/-- A walk goes on to a new name with one level less. -/
theorem descend (walking : Walking g ts goals (levels + 1) path order) (node : name ∈ g.nodes)
    (needed : ts.Needed goals name) (linked : (path ++ [name]).IsChain ts.Depends)
    (off : name ∉ path) (new : name ∉ order) :
    Walking g ts goals levels (path ++ [name]) order := by
  have deeper := walking.there.descend node linked off new
  refine ⟨walking.ordered, walking.inside, walking.needed, deeper.linked, ?_, deeper.distinct,
    fun _ member => deeper.inside member, deeper.unfinished, deeper.budget⟩
  intro other member
  rcases List.mem_append.mp member with earlier | last
  · exact walking.wanted other earlier
  · rwa [List.mem_singleton.mp last]

end Walking

theorem Walked.bind {names more : List String} {result : Except GraphError (List String)}
    {next : List String → Except GraphError (List String)}
    (first : Walked g ts goals path order names result)
    (second : ∀ longer, ts.Ordered longer → longer ⊆ g.nodes →
      (∀ name ∈ longer, ts.Needed goals name) → (∀ name ∈ path, name ∉ longer) →
      Walked g ts goals path longer more (next longer)) :
    Walked g ts goals path order (names ++ more) (result >>= next) := by
  cases first with
  | refused justified => exact .refused justified
  | @finished longer ordered inside needed kept complete unfinished =>
    change Walked g ts goals path order (names ++ more) (next longer)
    generalize same : next longer = final
    have rest := same ▸ second longer ordered inside needed unfinished
    cases rest with
    | refused justified => exact .refused justified
    | finished ordered inside needed keptMore completeMore unfinished =>
      refine .finished ordered inside needed (List.Subset.trans kept keptMore) ?_ unfinished
      exact List.append_subset.mpr ⟨List.Subset.trans complete keptMore, completeMore⟩

/-- Walking the dependencies of the target at the end of the path, if single walks do well. -/
private theorem visitAll_walked {front : List String} {user : Target} {names : List String}
    (covers : g.Covers ts) (found : ts.find? user.name = some user)
    (walk : ∀ {order name}, Walking g ts goals levels (front ++ [user.name]) order →
      name ∈ g.nodes → ts.Needed goals name →
      ((front ++ [user.name]) ++ [name]).IsChain ts.Depends →
      Walked g ts goals (front ++ [user.name]) order [name]
        (visit g ts levels (front ++ [user.name]) order name))
    (walking : Walking g ts goals levels (front ++ [user.name]) order)
    (listed : names ⊆ user.depends) :
    Walked g ts goals (front ++ [user.name]) order names
      (visitAll g ts levels user (front ++ [user.name]) order names) := by
  have onPath : user.name ∈ front ++ [user.name] := by simp
  induction names generalizing order with
  | nil =>
    rw [visitAll_nil]
    exact .finished walking.ordered walking.inside walking.needed (List.Subset.refl _)
      (List.nil_subset _) walking.unfinished
  | cons dependency rest ih =>
    have edge : ts.Depends user.name dependency := ⟨user, found, listed List.mem_cons_self⟩
    cases declared : ts.contains dependency with
    | false =>
      rw [visitAll_unknown declared]
      exact .refused ⟨walking.wanted _ onPath, edge, declared, user, found, rfl⟩
    | true =>
      rw [visitAll_known declared]
      have node := covers.closed _ (walking.nodes _ onPath) _ edge declared
      have needed := (walking.wanted _ onPath).tail edge
      have linked := isChain_concat walking.linked edge
      refine (walk walking node needed linked).bind fun longer ordered inside all unfinished => ?_
      exact ih (walking.grow ordered inside all unfinished) (List.subset_of_cons_subset listed)

/-- A walk finishes the name that it goes to, with all that it depends on before it, or its
complaint is justified. -/
theorem visit_walked (covers : g.Covers ts) (walking : Walking g ts goals levels path order)
    (node : name ∈ g.nodes) (needed : ts.Needed goals name)
    (linked : (path ++ [name]).IsChain ts.Depends) :
    Walked g ts goals path order [name] (visit g ts levels path order name) := by
  induction levels generalizing path order name with
  | zero => exact absurd rfl walking.there.levels_ne_zero
  | succ below ih =>
    by_cases again : name ∈ path
    · rw [visit_reentered again]
      obtain ⟨closed, chain, onPath⟩ := cycleAt_closes linked again
      exact .refused ⟨⟨closed, chain⟩, fun other member => walking.wanted other (onPath member)⟩
    · by_cases done : name ∈ order
      · rw [visit_finished again done]
        exact .finished walking.ordered walking.inside walking.needed (List.Subset.refl _)
          (by simpa using done) walking.unfinished
      · obtain ⟨t, declared, found⟩ := covers.find? node
        have same := Targets.name_of_find? declared
        subst same
        rw [visit_new again done found]
        have deeper := walking.descend node needed linked again done
        have all := visitAll_walked covers declared
          (fun walking node needed linked => ih walking node needed linked) deeper
          (List.Subset.refl t.depends)
        generalize visitAll g ts below t (path ++ [t.name]) order t.depends = result at all
        cases all with
        | refused justified => exact .refused justified
        | finished ordered inside allNeeded kept complete unfinished =>
          have fresh := unfinished t.name (by simp)
          refine .finished (ordered.snoc fresh declared complete) ?_ ?_ ?_ (by simp) ?_
          · exact List.append_subset.mpr ⟨inside, by simpa using node⟩
          · intro other member
            rcases List.mem_append.mp member with earlier | last
            · exact allNeeded other earlier
            · rwa [List.mem_singleton.mp last]
          · exact List.Subset.trans kept (List.subset_append_left _ _)
          · intro other member inOrder
            rcases List.mem_append.mp inOrder with earlier | last
            · exact unfinished other (List.mem_append_left _ member) earlier
            · exact again (List.mem_singleton.mp last ▸ member)

end BuildEngine.TargetGraph
