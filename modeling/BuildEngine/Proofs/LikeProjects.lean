import BuildEngine.Proofs.LikeReading
import BuildEngine.Proofs.Walk
import BuildEngine.Run.Build

/-! Projects that are like each other: the same targets stand in them in the same order with the
same dependencies, so their graphs are the same; and the same elements declare the same in them. -/

namespace BuildEngine

variable {φ : Type} {s : Pairing}

namespace Targets.Like

variable {ts us : Targets}

theorem keys (like : Targets.Like s ts us) : ts.keys = us.keys := Table.Like.keys like

theorem find? (like : Targets.Like s ts us) (name : String) :
    Option.Rel (Target.Like s) (ts.find? name) (us.find? name) :=
  Table.Like.find? like name

theorem contains (like : Targets.Like s ts us) (name : String) :
    ts.contains name = us.contains name :=
  Table.Like.contains like name

theorem values (like : Targets.Like s ts us) : List.Forall₂ (Target.Like s) ts.values us.values :=
  List.forall₂_map_left_iff.mpr (List.forall₂_map_right_iff.mpr (like.imp fun _ _ both => both.2))

theorem put (like : Targets.Like s ts us) {t t' : Target} (same : Target.Like s t t') :
    Targets.Like s (ts.put t) (us.put t') := by
  change Table.Like (Target.Like s) (ts.table.put t.name t) (us.table.put t'.name t')
  rw [same.name]
  exact Table.Like.put like _ same

theorem changeInvocations (like : Targets.Like s ts us) (name : String)
    {change change' : List Invocation → List Invocation}
    (keeps : ∀ as bs, List.Forall₂ (Invocation.Like s) as bs →
      List.Forall₂ (Invocation.Like s) (change as) (change' bs)) :
    Targets.Like s (ts.changeInvocations name change) (us.changeInvocations name change') := by
  unfold Targets.changeInvocations
  rcases (like.find? name).both with ⟨left, right⟩ | ⟨t, t', left, right, same⟩
  · rw [left, right]
    exact like
  · rw [left, right]
    exact like.put { same with invocations := keeps _ _ same.invocations }

end Targets.Like

/-! Graphs of targets. -/

namespace TargetGraph

variable {g : TargetGraph} {ts us : Targets}

theorem ofTargets_of_like (like : Targets.Like s ts us) : ofTargets ts = ofTargets us := by
  have links (nodes : List String) : (ts.values.flatMap fun t =>
      (t.depends.filter nodes.contains).map fun dependency => (dependency, t.name)) =
      us.values.flatMap fun t =>
        (t.depends.filter nodes.contains).map fun dependency => (dependency, t.name) := by
    have values := like.values
    revert values
    generalize ts.values = as, us.values = bs
    intro related
    induction related with
    | nil => rfl
    | cons both _ ih => rw [List.flatMap_cons, List.flatMap_cons, ih, both.depends, both.name]
  unfold ofTargets populate
  rw [like.keys]
  simp only [links]

theorem find?_of_like (like : Targets.Like s ts us) (name : String) :
    Option.Rel (Target.Like s) (g.find? ts name) (g.find? us name) := by
  unfold TargetGraph.find?
  split
  · exact like.find? name
  · exact .none

theorem location_of_like (like : Targets.Like s ts us) (name : String) :
    ((g.find? ts name).map (·.location)).getD .unknown =
      ((g.find? us name).map (·.location)).getD .unknown := by
  rcases (find?_of_like (g := g) like name).both with ⟨left, right⟩ | ⟨t, t', left, right, same⟩
  · rw [left, right]
  · rw [left, right]
    exact same.location

theorem visitAll_of_like (like : Targets.Like s ts us) {levels : Nat} {user user' : Target}
    (users : Target.Like s user user') (path : List String)
    (each : ∀ order name, visit g ts levels path order name = visit g us levels path order name)
    (order names : List String) :
    visitAll g ts levels user path order names = visitAll g us levels user' path order names := by
  induction names generalizing order with
  | nil => rw [visitAll_nil, visitAll_nil]
  | cons name rest ih =>
    have declared := like.contains name
    cases known : us.contains name with
    | false =>
      rw [visitAll_unknown (declared.trans known), visitAll_unknown known, users.name,
        users.location]
    | true =>
      rw [visitAll_known (declared.trans known), visitAll_known known, each]
      simp only [ih]

/-- A walk takes the same way through targets that are like each other. -/
theorem visit_of_like (like : Targets.Like s ts us) (levels : Nat) (path order : List String)
    (name : String) : visit g ts levels path order name = visit g us levels path order name := by
  induction levels generalizing path order name with
  | zero =>
    rw [visit.eq_def, visit.eq_def g us, location_of_like like]
  | succ below ih =>
    by_cases again : name ∈ path
    · rw [visit_reentered again, visit_reentered again, location_of_like like]
    by_cases done : name ∈ order
    · rw [visit_finished again done, visit_finished again done]
    rcases (find?_of_like (g := g) like name).both with ⟨left, right⟩ | ⟨t, t', left, right, same⟩
    · rw [visit.eq_def, visit.eq_def g us, left, right]
    · rw [visit_new again done left, visit_new again done right, same.depends,
        visitAll_of_like like same _ (ih (path ++ [name]))]

theorem trim_of_like (like : Targets.Like s ts us) (goals : List String) :
    g.trim ts goals = g.trim us goals := by
  unfold trim orderOf
  simp only [visit_of_like like]

theorem executionOrder_of_like (like : Targets.Like s ts us) :
    s.Results (List.Forall₂ (Target.Like s)) (g.executionOrder ts) (g.executionOrder us) := by
  unfold executionOrder
  refine Pairing.Results.mapM (List.forall₂_eq_eq_eq ▸ rfl) fun name name' same => ?_
  cases same
  unfold TargetGraph.get
  rcases (find?_of_like (g := g) like name).both with ⟨left, right⟩ | ⟨t, t', left, right, same⟩
  · rw [left, right]
    exact .fault rfl
  · rw [left, right]
    exact .ok same

end TargetGraph

/-! What stands in projects, and what elements declare in them. -/

namespace Project.Like

variable {p p' : Project}

theorem target? (like : Project.Like s p p') (name : String) :
    Option.Rel (Target.Like s) (p.target? name) (p'.target? name) := by
  unfold Project.target?
  split
  · exact .some like.root
  · exact like.targets.find? name

theorem changeInvocations (like : Project.Like s p p') (name : String)
    {change change' : List Invocation → List Invocation}
    (keeps : ∀ as bs, List.Forall₂ (Invocation.Like s) as bs →
      List.Forall₂ (Invocation.Like s) (change as) (change' bs)) :
    Project.Like s (p.changeInvocations name change) (p'.changeInvocations name change') := by
  unfold Project.changeInvocations
  split
  · exact { like with root := { like.root with invocations := keeps _ _ like.root.invocations } }
  · exact { like with targets := like.targets.changeInvocations name keeps }

theorem guard? (like : Project.Like s p p') {t t' : Target} (same : Target.Like s t t') :
    p.guard? t = p'.guard? t' := by
  unfold Project.guard?
  rw [like.properties, same.ifCondition, same.unlessCondition]

theorem withOwnProperties (like : Project.Like s p p') :
    Project.Like s p.withOwnProperties p'.withOwnProperties := by
  have properties : p.withOwnProperties.properties = p'.withOwnProperties.properties := by
    unfold Project.withOwnProperties
    simp only [like.properties, like.name, like.directory, like.buildFile]
  exact { like with properties }

theorem describedBy (like : Project.Like s p p') (e : Element) :
    Project.Like s (p.describedBy e) (p'.describedBy e) := by
  have resolved : p.resolveFile = p'.resolveFile := by
    funext path
    rw [Project.resolveFile, Project.resolvePath, Project.resolveFile, Project.resolvePath,
      like.directory]
  unfold Project.describedBy
  refine withOwnProperties { like with
    source := rfl, name := ?_, defaultTarget := rfl, description := rfl, directory := ?_ }
  · simp only [like.directory, like.parent, resolved]
  · simp only [like.name]

/-- A target is declared without objects. -/
theorem ofElement (e : Element) :
    s.Results (Target.Like s) (Target.ofElement e) (Target.ofElement e) := by
  unfold Target.ofElement
  split
  · exact .fault rfl
  extract_lets name declare
  have declared : s.Results (Target.Like s) (declare ()) (declare ()) := by
    refine .ok ⟨rfl, rfl, rfl, rfl, rfl, rfl, ?_⟩
    exact List.forall₂_map_left_iff.mpr (List.forall₂_map_right_iff.mpr
      (List.forall₂_same.mpr fun _ _ => ⟨rfl, .none, rfl⟩))
  split
  · exact .fault rfl
  · exact declared

theorem addElement (like : Project.Like s p p') (e : Element) :
    s.Results (Project.Like s) (p.addElement e) (p'.addElement e) := by
  unfold Project.addElement
  split
  · refine (ofElement e).bind fun t t' same => ?_
    unfold Project.addTarget
    rw [same.name, same.location, like.targets.contains]
    split
    · exact .fault rfl
    · exact .ok { like with targets := like.targets.put same }
  · exact .ok { like with description := rfl }
  · have last : List.Forall₂ (Invocation.Like s) [{ element := some e }] [{ element := some e }] :=
      .cons ⟨rfl, .none, rfl⟩ .nil
    exact .ok { like with
      root := { like.root with invocations := List.rel_append like.root.invocations last } }

/-- Elements declare the same, up to the same one that declares something wrong. -/
theorem addElements (like : Project.Like s p p') (elements : List Element) :
    Project.Like s (p.addElements elements).1 (p'.addElements elements).1 ∧
      Option.Rel (Fault.Like s) (p.addElements elements).2 (p'.addElements elements).2 := by
  induction elements generalizing p p' with
  | nil => exact ⟨like, .none⟩
  | cons e rest ih =>
    have added := like.addElement e
    unfold Project.addElements
    revert added
    generalize p.addElement e = left, p'.addElement e = right
    rintro (⟨more⟩ | ⟨faults⟩)
    · exact ih more
    · exact ⟨like, .some faults⟩

end Project.Like
end BuildEngine
