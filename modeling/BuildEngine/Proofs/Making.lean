import BuildEngine.Proofs.Awaiting

/-! Making: a value that is complete in itself is taken alike in every world, so the objects of a
standard kind are made alike wherever that is. -/

namespace BuildEngine

open Engine

variable {φ : Type}

theorem ValueType.accept?_of_isComplete {v : Value} (complete : v.isComplete = true)
    (type : ValueType) (w u : World φ) : type.accept? w v = type.accept? u v := by
  cases type <;> cases v <;> first | rfl | cases complete

theorem Attribute.accept_of_isComplete {a : Attribute} {v taken : Value} {owner : String}
    {w : World φ} (complete : v.isComplete = true) (accepts : a.accept w owner v = .ok taken)
    (u : World φ) : a.accept u owner v = .ok taken := by
  have same : (fun type : ValueType => type.accept? u v) = fun type => type.accept? w v :=
    funext fun type => ValueType.accept?_of_isComplete complete type u w
  unfold accept at accepts ⊢
  rw [same]
  split at accepts
  · exact accepts
  · cases accepts

namespace Engine

theorem run_initialFields_of_isComplete {k : Kind} {w mid : World φ}
    {attributes : List (String × Attribute)} {fields made : Table String Source}
    (complete : attributes.all (fun entry => entry.2.isComplete) = true)
    (ended : (initialFields k attributes fields).run w = (.ok made, mid)) (u : World φ) :
    (initialFields k attributes fields).run u = (.ok made, u) := by
  induction attributes generalizing fields with
  | nil =>
    cases ended
    rfl
  | cons entry rest ih =>
    obtain ⟨name, a⟩ := entry
    rw [List.all_cons, Bool.and_eq_true] at complete
    unfold initialFields at ended ⊢
    split
    · rename_i initial
      rw [initial] at ended
      exact ih complete.2 ended
    · rename_i v initial
      rw [initial] at ended
      simp only at ended
      obtain ⟨taken, after, accepts, goes⟩ := ok_of_bind ended
      obtain ⟨accepts, rfl⟩ := ok_of_consult accepts
      have own : v.isComplete = true := by
        have both := complete.1
        rw [Attribute.isComplete, Bool.and_eq_true, initial] at both
        exact both.1
      have again := Attribute.accept_of_isComplete own accepts u
      rw [run_bind_ok (run_consult_ok again)]
      exact ih complete.2 goes

/-- Making an object of a standard kind asks the standard kinds alone whether it can be made. -/
theorem run_instantiate_standard {w : World φ} (known : w.kinds.HasStandard) (s : Standard)
    (project : ProjectId) :
    let k := Kinds.standard.get s
    let missing := Kinds.standard.openMembers k
    (instantiate k project).run w = (
      if (Kinds.standard.construction? k).isNone then throw (Problem.inconstructible k.name).fault
      else if !missing.isEmpty then throw (.abstractKind k.name missing)
      else do
        let fields ← initialFields k k.attributes.entries .empty
        addObject { kind := .standard s, project, fields } : Engine φ ObjectId).run w := by
  intro k missing
  unfold instantiate
  rw [run_bind_ok (run_get w)]
  extract_lets missing' add check
  have complete : missing' = missing := known.openMembers _
  rw [known.construction?]
  unfold check add
  rw [complete, Kinds.id_get_standard]
  split
  · rfl
  · split <;> rfl

/-- The objects of a standard kind are made alike wherever the standard kinds are known. -/
theorem run_instantiate_anywhere {s : Standard} {project : ProjectId} {id : ObjectId}
    {w mid : World φ} (known : w.kinds.HasStandard)
    (made : (instantiate (Kinds.standard.get s) project).run w = (.ok id, mid)) :
    ∃ fields, id = w.objects.length ∧
      mid = { w with objects := w.objects ++ [{ kind := .standard s, project, fields }] } ∧
      ∀ u : World φ, u.kinds.HasStandard →
        (instantiate (Kinds.standard.get s) project).run u = (.ok u.objects.length,
          { u with objects := u.objects ++ [{ kind := .standard s, project, fields }] }) := by
  have complete := Kinds.isComplete_get Kinds.standard_areComplete (.standard s)
  rw [Kind.isComplete, Bool.and_eq_true] at complete
  rw [run_instantiate_standard known] at made
  split at made
  · cases made
  rename_i constructible
  split at made
  · cases made
  rename_i closed
  obtain ⟨fields, after, starts, adds⟩ := ok_of_bind made
  have again := run_initialFields_of_isComplete complete.1 starts
  cases starts.symm.trans (again w)
  cases adds
  refine ⟨fields, rfl, rfl, fun u known' => ?_⟩
  rw [run_instantiate_standard known', if_neg constructible, if_neg closed,
    run_bind_ok (again u), run_addObject]

/-- An element of a standard kind is made into the same object wherever that is. -/
theorem run_create_anywhere {s : Standard} {project : ProjectId} {e : Element}
    {target : Option String} {id : ObjectId} {w mid : World φ} (known : w.kinds.HasStandard)
    (registered : w.registry.find? e.tag = some (.standard s))
    (made : (create project e target).run w = (.ok id, mid)) :
    ∃ o, (o.kind = .standard s ∧ o.parts = [] ∧ o.children = []) ∧ id = w.objects.length ∧
      mid = { w with objects := w.objects ++ [o] } ∧
      ∀ u : World φ, u.kinds.HasStandard → u.registry.find? e.tag = some (.standard s) →
        (create project e target).run u =
          (.ok u.objects.length, { u with objects := u.objects ++ [o] }) := by
  rcases instantiates : (instantiate (Kinds.standard.get s) project).run w with ⟨fault | n, after⟩
  · obtain ⟨signature, signed⟩ := Kinds.standard_signed s
    have signs : (consult fun w : World φ =>
        (Signature.ofKind w.kinds (Kinds.standard.get s)).mapError Problem.fault).run w =
          (.ok signature, w) := run_consult_ok (by rw [known.ofKind signed]; rfl)
    have stands : w.kinds.get (.standard s) = Kinds.standard.get s := known.get s
    generalize Kinds.standard.get s = k at instantiates signs stands
    have fails : (locating e.location do
        let _ ← consult fun w => (Signature.ofKind w.kinds k).mapError Problem.fault
        instantiate k project).run w = _ :=
      run_tryCatch_error ((run_bind_ok signs).trans instantiates)
    unfold create at made
    rw [run_bind_ok (run_observe _ w), registered] at made
    simp only at made
    rw [run_bind_ok (run_observe _ w), stands, run_bind_error fails] at made
    cases made
  obtain ⟨fields, -, -, anywhere⟩ := run_instantiate_anywhere known instantiates
  have goes (u : World φ) (known : u.kinds.HasStandard)
      (registered : u.registry.find? e.tag = some (.standard s)) :=
    run_create_of_instantiate known registered (anywhere u known) target
  cases made.symm.trans (goes w known registered)
  refine ⟨_, ?_, rfl, rfl, goes⟩
  split <;> exact ⟨rfl, rfl, rfl⟩

end Engine

end BuildEngine
