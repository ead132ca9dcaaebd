import BuildEngine.Files.Memory
import BuildEngine.Proofs.Resolution
import BuildEngine.Proofs.UserProperty

/-! Named objects that a project hands down. A project that runs on behalf of another one gets the
entries of its caller as they are, so an alias leads to what its target is called where it is
resolved, be that the caller or not. -/

namespace BuildEngine

open Engine

variable {φ : Type} {w after : World φ} {parent child : ProjectId}

namespace Inheritance

/-- The name in the caller of what is forwarded under a name. Later forwards replace earlier
ones. -/
def forwardedAs (name : String) : List (String × String) → Option String
  | [] => none
  | entry :: rest =>
    (forwardedAs name rest).or (if givenName entry = name then some entry.1 else none)

/-- A name of the caller is handed down under a name to a project with names of its own: it is
forwarded as that, or it is neither replaced by a forward nor taken while all names are handed
down. -/
def HandsDown (i : Inheritance) (own : References ObjectId) (id name : String) : Prop :=
  forwardedAs name i.references = some id ∨
    forwardedAs name i.references = none ∧ i.allReferences = true ∧ own.get? name = none ∧ id = name

end Inheritance

namespace World

/-- A project that was not made has no build description. -/
theorem project_made {e : Element} (source : (w.project parent).source = some e) :
    parent < w.projects.length := by
  by_contra unmade
  rw [project_unmade (Nat.le_of_not_lt unmade)] at source
  cases source

end World

namespace Mark

/-- The point that a build has come to. -/
def now (w : World φ) : Mark := ⟨w.objects.length, w.projects.length⟩

theorem sealed_now (w : World φ) : (now w).Sealed w := by
  refine ⟨Nat.le_refl _, Nat.le_refl _, fun project unmade id holds => ?_⟩
  rw [World.project_unmade unmade] at holds
  exact absurd holds (Project.not_holds_new rfl rfl id)

end Mark

/-- Of all projects only one has changed, and its names stand for the given objects. -/
structure Renamed (w after : World φ) (child : ProjectId) (entries : String → Option ObjectId) :
    Prop where
  present : child < after.projects.length
  others : ∀ project, project ≠ child → after.project project = w.project project
  names : ∀ name, (after.project child).references.get? name = entries name

namespace Engine

variable {references : List (String × String)}

theorem run_register (present : child < w.projects.length) (name : String) (object : ObjectId) :
    ∃ after, (register child name object).run w = (.ok (), after) ∧
      Renamed w after child fun other =>
        if name = other then some object else (w.project child).references.get? other := by
  have named {v after : World φ} (same : v.projects = w.projects)
      (written : after.projects = v.projects.modify child fun p =>
        { p with references := p.references.register name object }) :
      Renamed w after child fun other =>
        if name = other then some object else (w.project child).references.get? other := by
    refine ⟨by simpa [written, same] using present, fun project different => ?_, fun other => ?_⟩
    · rcases World.project_of_modify written project with kept | ⟨changed, _⟩
      · rw [kept, World.project_of_same same]
      · exact absurd changed different
    · rw [World.project_of_modify_present written (by rwa [same]), if_pos rfl,
        World.project_of_same same]
      exact References.get?_register _ _ _ _
  unfold register
  rw [run_bind_ok (run_project child w)]
  split
  · exact ⟨_, rfl, named rfl rfl⟩
  · exact ⟨_, rfl, named rfl rfl⟩

/-- Names that are handed down are added to those that a project has of its own. -/
theorem run_handDown (present : child < w.projects.length) (entries : List (String × ObjectId)) :
    ∃ after, (handDown child entries).run w = (.ok (), after) ∧
      Renamed w after child fun name =>
        ((w.project child).references.get? name).or (Table.findIn name entries) := by
  induction entries generalizing w with
  | nil => exact ⟨w, rfl, present, fun _ _ => rfl, fun _ => Option.or_none.symm⟩
  | cons entry rest ih =>
    obtain ⟨id, object⟩ := entry
    cases own : (w.project child).references.get? id with
    | some taken =>
      obtain ⟨after, ran, given⟩ := ih present
      refine ⟨after, ?_, given.present, given.others, fun name => ?_⟩
      · have skipped : (w.project child).references.contains id = true := by
          rw [References.contains, Table.contains, ← References.get?, own]
          rfl
        rw [handDown, run_bind_ok (run_project child w), skipped]
        exact ran
      · rw [given.names, Table.findIn]
        by_cases same : id = name
        · simp [← same, own]
        · simp [same]
    | none =>
      obtain ⟨between, registered, named⟩ := run_register present id object
      obtain ⟨after, ran, given⟩ := ih named.present
      refine ⟨after, ?_, given.present, fun project different => ?_, fun name => ?_⟩
      · have free : (w.project child).references.contains id = false := by
          rw [References.contains, Table.contains, ← References.get?, own]
          rfl
        rw [handDown, run_bind_ok (run_project child w), free]
        exact (run_bind_ok registered).trans ran
      · rw [given.others project different, named.others project different]
      · rw [given.names, named.names, Table.findIn]
        by_cases same : id = name
        · simp [← same, own]
        · simp [same]

/-- A name to which something was forwarded stands for what the last forward found in the caller;
the other names stay. -/
theorem renamed_forward (present : child < w.projects.length) (apart : parent ≠ child)
    (success : (forward parent child references).run w = (.ok (), after)) :
    Renamed w after child fun name =>
      match Inheritance.forwardedAs name references with
      | some id => (w.project parent).references.get? id
      | none => (w.project child).references.get? name := by
  induction references generalizing w with
  | nil =>
    cases success
    exact ⟨present, fun _ _ => rfl, fun _ => rfl⟩
  | cons entry rest ih =>
    unfold forward at success
    rw [run_bind_ok (run_project parent w)] at success
    split at success
    · cases success
    · rename_i object found
      obtain ⟨between, registered, named⟩ :=
        run_register present (Inheritance.givenName entry) object
      rw [run_bind_ok registered] at success
      have given := ih named.present success
      refine ⟨given.present, fun project different => ?_, fun name => ?_⟩
      · rw [given.others project different, named.others project different]
      · rw [given.names, named.others parent apart, named.names, Inheritance.forwardedAs]
        cases Inheritance.forwardedAs name rest with
        | some id => rfl
        | none =>
          by_cases same : Inheritance.givenName entry = name
          · simp [same, found]
          · simp [same]

variable [FileSystem φ] {caller : Caller φ} {e : Element} {i : Inheritance}

/-- What a project finds under a name once a build description is loaded into it and names are
handed down to it. -/
theorem renamed_furnish (apart : parent ≠ child)
    (success : (furnish caller parent child e i).run w = (.ok (), after)) :
    ∃ loaded, (load caller child e).run w = (.ok (), loaded) ∧
      (child < loaded.projects.length → Renamed loaded after child fun name =>
        match Inheritance.forwardedAs name i.references with
        | some id => (loaded.project parent).references.get? id
        | none => ((loaded.project child).references.get? name).or
            (if i.allReferences then (loaded.project parent).references.get? name else none)) := by
  unfold furnish at success
  rcases ended : (load caller child e).run w with ⟨fault | _, loaded⟩
  · rw [run_bind_error ended] at success
    cases success
  refine ⟨loaded, rfl, fun present => ?_⟩
  rw [run_bind_ok ended] at success
  split at success
  · rename_i all
    obtain ⟨between, ran, given⟩ :=
      run_handDown present (loaded.project parent).references.objects.entries
    rw [run_bind_ok (run_project parent loaded), run_bind_ok ran] at success
    have named := renamed_forward given.present apart success
    refine ⟨named.present, fun project different => ?_, fun name => ?_⟩
    · rw [named.others project different, given.others project different]
    · rw [named.names, given.others parent apart, given.names, if_pos all]
      rfl
  · rename_i few
    have named := renamed_forward present apart success
    refine ⟨named.present, named.others, fun name => ?_⟩
    rw [named.names, if_neg few, Option.or_none]

/-- A derived project has the names of its own build description and those that its caller, which
stays as it was, hands down to it. -/
theorem renamed_derive (calls : (Mark.now w).CallsTake (Mark.now w).Change caller)
    (success : (derive caller parent i).run w = (.ok child, after)) :
    ∃ e loaded, (w.project parent).source = some e ∧
      (load caller child e).run ((addProject (i.heir parent (w.project parent))).run w).2 =
        (.ok (), loaded) ∧
      after.project parent = w.project parent ∧
      ∀ name, (after.project child).references.get? name =
        match Inheritance.forwardedAs name i.references with
        | some id => (w.project parent).references.get? id
        | none => ((loaded.project child).references.get? name).or
            (if i.allReferences then (w.project parent).references.get? name else none) := by
  obtain ⟨rfl, e, source, furnished⟩ := furnish_of_derive success
  rw [run_addProject] at furnished ⊢
  generalize start : ({ w with projects := w.projects ++ [_] } : World φ) = added at furnished ⊢
  have older : parent < w.projects.length := World.project_made source
  have apart : parent ≠ w.projects.length := Nat.ne_of_lt older
  obtain ⟨loaded, loading, renamed⟩ := renamed_furnish apart furnished
  have adding : (Mark.now w).Reaches w added := by
    refine .single (.newProject (i.heir parent (w.project parent)) ?_ (by rw [← start]) ?_)
    · exact Project.not_holds_new rfl rfl
    · rw [← start]
  have steps : (Mark.now w).Reaches added loaded := by
    have confined : (Mark.now w).Confined added (load caller w.projects.length e) :=
      Mark.confined_load calls (Nat.le_refl _) e
    have reached := (confined (adding.isSealed (Mark.sealed_now w))).1
    rwa [loading] at reached
  have kept : loaded.project parent = w.project parent :=
    (adding.trans steps).project_old (Mark.sealed_now w) older
  have present : w.projects.length < loaded.projects.length := by
    refine Nat.lt_of_lt_of_le ?_ steps.projects_le
    simp [← start]
  have given := renamed present
  rw [kept] at given
  exact ⟨e, loaded, source, loading, (given.others parent apart).trans kept, given.names⟩

/-- What is handed down to a derived project is the entry of its caller. Where that is an object
declared as such, the name leads to it in both. Where it is an alias, the name leads to what the
target of the alias leads to among the names of the derived project: to the object of the caller
exactly if the target does, and in particular if all names on the way have the same entries. -/
theorem derive_denotes {depth : Nat} {derived : World φ}
    (success : (derive (callWithin depth) parent i).run w = (.ok child, derived)) :
    let given := (w.project parent).references
    let named := (derived.project child).references
    (derived.project parent).references = given ∧
    ∃ e loaded, (w.project parent).source = some e ∧
      (load (callWithin depth) child e).run
        ((addProject (i.heir parent (w.project parent))).run w).2 = (.ok (), loaded) ∧
      ∀ id name, i.HandsDown (loaded.project child).references id name →
        named.get? name = given.get? id ∧
        (∀ object, derived.resolve parent id = .ok object →
          (derived.resolve child name = .ok object ↔
            ∀ entry target, given.get? id = some entry → derived.aliasOf entry = some target →
              derived.resolve child target = .ok object)) ∧
        (∀ via object, given.Leads derived.aliasOf id via object →
          (∀ passed ∈ via, named.get? passed = given.get? passed) →
          derived.resolve child name = .ok object) := by
  intro given named
  have calls := Mark.callsConfined_callWithin (φ := φ) (Mark.now w) depth
  obtain ⟨e, loaded, source, loading, kept, names⟩ := renamed_derive calls success
  have stays : (derived.project parent).references = given := by rw [kept]
  refine ⟨stays, e, loaded, source, loading, fun id name handed => ?_⟩
  have same : named.get? name = given.get? id := by
    rcases handed with forwarded | ⟨free, all, absent, rfl⟩
    · rw [names, forwarded]
    · rw [names, free]
      simp [all, absent, given]
  refine ⟨same, fun object resolved => ?_, fun via object leads alike => ?_⟩
  · rw [World.resolve, stays] at resolved
    exact References.resolve_eq_ok_iff_of_get?_eq same resolved
  · exact References.resolve_eq_ok_iff.mpr ⟨via, leads.carry same alike⟩

/-! A caller with a file list and an alias of it, in a build description that names nothing. -/

namespace Sample

def owning : World MemoryFiles :=
  { fresh with
    projects := [{
      directory := .top, source := some { tag := "project" }
      references := { objects := .ofList [("sources", 0), ("alias", 1)] } }]
    objects := [
      { kind := Standard.fileList, project := 0 },
      { kind := Standard.fileList, project := 0, reference := some ⟨0, "sources", .unknown⟩ }] }

end Sample

theorem derive_denotes_sample :
    let i : Inheritance := { allReferences := true, references := [("alias", "files")] }
    let derived := ((derive (callWithin 0) 0 i).run Sample.owning).2
    derived.resolve 1 "files" = .ok 0 := by
  intro i derived
  have ended : ((derive (callWithin 0) 0 i).run Sample.owning).1.toOption = some 1 := by
    decide +kernel
  obtain ⟨_, e, loaded, _, _, denotes⟩ := derive_denotes (run_of_toOption ended)
  obtain ⟨_, _, along⟩ := denotes "alias" "files" (.inl rfl)
  have points : derived.aliasOf 1 = some "sources" := by decide +kernel
  have plain : derived.aliasOf 0 = none := by decide +kernel
  have leads : (Sample.owning.project 0).references.Leads derived.aliasOf "alias" ["sources"] 0 :=
    .there rfl points (.here rfl plain)
  refine along ["sources"] 0 leads fun passed member => ?_
  rw [List.mem_singleton.mp member]
  decide +kernel

/-- Forwarded alone, an alias of the caller is lost: its target is looked for in the derived
project. -/
theorem derive_loses_alias :
    let i : Inheritance := { references := [("alias", "files")] }
    let derived := ((derive (callWithin 0) 0 i).run Sample.owning).2
    derived.resolve 0 "alias" = .ok 0 ∧
      derived.resolve 1 "files" = .error (.notFound "sources" ["files"]) := by
  decide +kernel

end Engine
end BuildEngine
