import BuildEngine.Proofs.Confinement
import BuildEngine.Proofs.LikeReading

/-! Actions that agree: from worlds that are like each other they lead to worlds that are like each
other, where what they make is paired too, and they end with the same result or the same fault. As
for confined actions there is one rule for each way to put actions together, and one for each
action of which all others are made. -/

namespace BuildEngine

open Engine

variable {φ : Type} {α β γ δ : Type}

namespace Pairing

variable {s : Pairing}

/-! Actions that only look at worlds. -/

/-- Actions that see what is as wanted in worlds that are like each other, and leave them so. -/
def Sees (s : Pairing) (action : Engine φ α) (other : Engine φ β) (wanted : α → β → Prop) : Prop :=
  ∀ w u, World.Like s w u → (action.run w).2 = w ∧ (other.run u).2 = u ∧
    s.Results wanted (action.run w).1 (other.run u).1

namespace Sees

variable {action : Engine φ α} {other : Engine φ β} {wanted : α → β → Prop} {later : γ → δ → Prop}
variable {f : α → Engine φ γ} {g : β → Engine φ δ}

theorem pure {a : α} {b : β} (related : wanted a b) :
    s.Sees (φ := φ) (pure a) (pure b) wanted :=
  fun _ _ _ => ⟨rfl, rfl, .ok related⟩

theorem throw {fault fault' : Fault} (like : Fault.Like s fault fault') :
    s.Sees (φ := φ) (throw fault) (throw fault') wanted :=
  fun _ _ _ => ⟨rfl, rfl, .error like⟩

/-- A fault that names no object is thrown on both sides. -/
theorem fault {fault : Fault} (anonymous : fault.isAnonymous = true) :
    s.Sees (φ := φ) (MonadExcept.throw fault) (MonadExcept.throw fault) wanted :=
  throw (.anonymous anonymous)

theorem observe {look : World φ → α} {look' : World φ → β}
    (seen : ∀ {w u}, World.Like s w u → wanted (look w) (look' u)) :
    s.Sees (observe look) (observe look') wanted :=
  fun _ _ like => ⟨rfl, rfl, .ok (seen like)⟩

theorem consult {look : World φ → Except Fault α} {look' : World φ → Except Fault β}
    (seen : ∀ {w u}, World.Like s w u → s.Results wanted (look w) (look' u)) :
    s.Sees (consult look) (consult look') wanted := by
  intro w u like
  refine ⟨Looks.consult look w, Looks.consult look' u, ?_⟩
  have results := seen like
  rw [Engine.consult, Engine.consult, run_bind_ok (run_get w), run_bind_ok (run_get u)]
  revert results
  generalize look w = left, look' u = right
  rintro (⟨related⟩ | ⟨like⟩)
  · exact .ok related
  · exact .error like

/-- The same files give the same answers. -/
theorem readFiles (operation : φ → Except FileError α) :
    s.Sees (readFiles operation) (readFiles operation) Eq := by
  intro w u like
  refine ⟨Looks.readFiles operation w, Looks.readFiles operation u, ?_⟩
  rw [Engine.readFiles, run_bind_ok (run_get w), run_bind_ok (run_get u), like.files]
  cases operation u.files with
  | ok result => exact .ok rfl
  | error error => exact .fault rfl

theorem bind (first : s.Sees action other wanted)
    (rest : ∀ a b, wanted a b → s.Sees (f a) (g b) later) :
    s.Sees (action >>= f) (other >>= g) later := by
  intro w u like
  obtain ⟨left, right, results⟩ := first w u like
  rcases ended : action.run w with ⟨fault | a, after⟩ <;>
    rcases ended' : other.run u with ⟨fault' | b, after'⟩ <;>
    rw [ended] at results left <;> rw [ended'] at results right <;> cases results
  · rename_i faults
    rw [run_bind_error ended, run_bind_error ended']
    exact ⟨left, right, .error faults⟩
  · rename_i related
    subst left right
    rw [run_bind_ok ended, run_bind_ok ended']
    exact rest a b related _ _ like

theorem bindSame {other : Engine φ α} {g : α → Engine φ δ} (first : s.Sees action other Eq)
    (rest : ∀ a, s.Sees (f a) (g a) later) : s.Sees (action >>= f) (other >>= g) later :=
  first.bind fun a _ same => same ▸ rest a

theorem map {change : α → γ} {change' : β → δ} (sees : s.Sees action other wanted)
    (implies : ∀ a b, wanted a b → later (change a) (change' b)) :
    s.Sees (change <$> action) (change' <$> other) later := by
  intro w u like
  obtain ⟨left, right, results⟩ := sees w u like
  rw [run_map, run_map]
  exact ⟨left, right, results.map implies⟩

theorem adapting {change change' : Fault → Fault} (sees : s.Sees action other wanted)
    (keeps : ∀ fault fault', Fault.Like s fault fault' → Fault.Like s (change fault) (change' fault')) :
    s.Sees (adapting change action) (adapting change' other) wanted := by
  intro w u like
  obtain ⟨left, right, results⟩ := sees w u like
  rcases ended : action.run w with ⟨fault | a, after⟩ <;>
    rcases ended' : other.run u with ⟨fault' | b, after'⟩ <;>
    rw [ended] at results left <;> rw [ended'] at results right <;> cases results
  · rename_i faults
    rw [Engine.adapting, Engine.adapting, run_tryCatch_error ended, run_tryCatch_error ended']
    exact ⟨left, right, .error (keeps _ _ faults)⟩
  · rename_i related
    rw [Engine.adapting, Engine.adapting, run_tryCatch_ok ended, run_tryCatch_ok ended']
    exact ⟨left, right, .ok related⟩

theorem locating (l : Location) (sees : s.Sees action other wanted) :
    s.Sees (locating l action) (locating l other) wanted :=
  sees.adapting fun _ _ like => like.placed l

end Sees

/-! Actions that change worlds. -/

/-- Actions that lead from worlds like each other to worlds like each other, for a larger pairing
with which what they result in is as wanted. -/
def Agree (s : Pairing) (action : Engine φ α) (other : Engine φ β)
    (wanted : Pairing → α → β → Prop := fun _ _ _ => True) : Prop :=
  ∀ w u, World.Like s w u → ∃ t, s.Within t ∧ World.Like t (action.run w).2 (other.run u).2 ∧
    t.Results (wanted t) (action.run w).1 (other.run u).1

namespace Agree

variable {action : Engine φ α} {other : Engine φ β} {wanted : Pairing → α → β → Prop}
variable {later : Pairing → γ → δ → Prop} {f : α → Engine φ γ} {g : β → Engine φ δ}

theorem sees {wanted : α → β → Prop} (sees : s.Sees action other wanted) :
    s.Agree action other fun _ => wanted := by
  intro w u like
  obtain ⟨left, right, results⟩ := sees w u like
  exact ⟨s, .refl s, by rwa [left, right], results⟩

theorem pure {a : α} {b : β} (related : wanted s a b) :
    s.Agree (φ := φ) (pure a) (pure b) wanted :=
  fun _ _ like => ⟨s, .refl s, like, .ok related⟩

theorem throw {fault fault' : Fault} (faults : Fault.Like s fault fault') :
    s.Agree (φ := φ) (throw fault) (throw fault') wanted :=
  fun _ _ like => ⟨s, .refl s, like, .error faults⟩

theorem fault {fault : Fault} (anonymous : fault.isAnonymous = true) :
    s.Agree (φ := φ) (MonadExcept.throw fault) (MonadExcept.throw fault) wanted :=
  throw (.anonymous anonymous)

theorem mono {weaker : Pairing → α → β → Prop} (agree : s.Agree action other wanted)
    (implies : ∀ t a b, s.Within t → wanted t a b → weaker t a b) :
    s.Agree action other weaker := by
  intro w u like
  obtain ⟨t, within, after, results⟩ := agree w u like
  exact ⟨t, within, after, results.imp fun a b => implies t a b within⟩

theorem bind (first : s.Agree action other wanted)
    (rest : ∀ t a b, s.Within t → wanted t a b → t.Agree (f a) (g b) later) :
    s.Agree (action >>= f) (other >>= g) later := by
  intro w u like
  obtain ⟨t, within, like, results⟩ := first w u like
  rcases ended : action.run w with ⟨fault | a, after⟩ <;>
    rcases ended' : other.run u with ⟨fault' | b, after'⟩ <;>
    rw [ended, ended'] at results like <;> cases results
  · rename_i faults
    rw [run_bind_error ended, run_bind_error ended']
    exact ⟨t, within, like, .error faults⟩
  · rename_i related
    rw [run_bind_ok ended, run_bind_ok ended']
    obtain ⟨t', within', like, results⟩ := rest t a b within related _ _ like
    exact ⟨t', within.trans within', like, results⟩

/-- What is only looked at leaves the pairing to the rest. -/
theorem look {wanted : α → β → Prop} (sees : s.Sees action other wanted)
    (rest : ∀ a b, wanted a b → s.Agree (f a) (g b) later) :
    s.Agree (action >>= f) (other >>= g) later := by
  intro w u like
  obtain ⟨left, right, results⟩ := sees w u like
  rcases ended : action.run w with ⟨fault | a, after⟩ <;>
    rcases ended' : other.run u with ⟨fault' | b, after'⟩ <;>
    rw [ended] at results left <;> rw [ended'] at results right <;> cases results <;>
    subst left right
  · rename_i faults
    rw [run_bind_error ended, run_bind_error ended']
    exact ⟨s, .refl s, like, .error faults⟩
  · rename_i related
    rw [run_bind_ok ended, run_bind_ok ended']
    exact rest a b related _ _ like

theorem lookSame {other : Engine φ α} {g : α → Engine φ δ} (sees : s.Sees action other Eq)
    (rest : ∀ a, s.Agree (f a) (g a) later) : s.Agree (action >>= f) (other >>= g) later :=
  look sees fun a _ same => same ▸ rest a

/-- The rest of actions that look at whole worlds. -/
theorem get {f : World φ → Engine φ γ} {g : World φ → Engine φ δ}
    (rest : ∀ w u, World.Like s w u → s.Agree (f w) (g u) later) :
    s.Agree (get >>= f) (get >>= g) later := by
  intro w u like
  rw [run_bind_ok (run_get w), run_bind_ok (run_get u)]
  exact rest w u like w u like

theorem map {change : α → γ} {change' : β → δ} (agree : s.Agree action other wanted)
    (implies : ∀ t a b, wanted t a b → later t (change a) (change' b)) :
    s.Agree (change <$> action) (change' <$> other) later := by
  intro w u like
  obtain ⟨t, within, like, results⟩ := agree w u like
  rw [run_map, run_map]
  exact ⟨t, within, like, results.map (implies t)⟩

theorem tryCatch {handler : Fault → Engine φ α} {handler' : Fault → Engine φ β}
    (first : s.Agree action other wanted)
    (handled : ∀ t fault fault', s.Within t → Fault.Like t fault fault' →
      t.Agree (handler fault) (handler' fault') wanted) :
    s.Agree (tryCatch action handler) (tryCatch other handler') wanted := by
  intro w u like
  obtain ⟨t, within, like, results⟩ := first w u like
  rcases ended : action.run w with ⟨fault | a, after⟩ <;>
    rcases ended' : other.run u with ⟨fault' | b, after'⟩ <;>
    rw [ended, ended'] at results like <;> cases results
  · rename_i faults
    rw [run_tryCatch_error ended, run_tryCatch_error ended']
    obtain ⟨t', within', like, results⟩ := handled t fault fault' within faults _ _ like
    exact ⟨t', within.trans within', like, results⟩
  · rename_i related
    rw [run_tryCatch_ok ended, run_tryCatch_ok ended']
    exact ⟨t, within, like, .ok related⟩

theorem adapting {change change' : Fault → Fault} (agree : s.Agree action other wanted)
    (keeps : ∀ t fault fault', Fault.Like t fault fault' →
      Fault.Like t (change fault) (change' fault')) :
    s.Agree (adapting change action) (adapting change' other) wanted :=
  agree.tryCatch fun t fault fault' _ faults => .throw (keeps t fault fault' faults)

theorem locating (l : Location) (agree : s.Agree action other wanted) :
    s.Agree (locating l action) (locating l other) wanted :=
  agree.adapting fun _ _ _ faults => faults.placed l

theorem attempt (agree : s.Agree action other wanted) :
    s.Agree (attempt action) (attempt other) fun t => t.Results (wanted t) := by
  intro w u like
  obtain ⟨t, within, like, results⟩ := agree w u like
  rw [run_attempt, run_attempt]
  exact ⟨t, within, like, .ok results⟩

/-- A loop over entries that are related. -/
theorem forIn {R : γ → δ → Prop} {body : γ → PUnit → Engine φ (ForInStep PUnit)}
    {body' : δ → PUnit → Engine φ (ForInStep PUnit)} {entries : List γ} {entries' : List δ}
    (related : List.Forall₂ R entries entries')
    (each : ∀ t entry entry', s.Within t → R entry entry' →
      t.Agree (body entry ()) (body' entry' ()) fun _ => Eq) :
    s.Agree (forIn entries () body) (forIn entries' () body') := by
  induction related generalizing s with
  | nil => exact pure trivial
  | @cons entry entry' _ _ both _ ih =>
    rw [List.forIn_cons, List.forIn_cons]
    refine (each s entry entry' (.refl s) both).bind fun t step _ within same => ?_
    subst same
    cases step with
    | done => exact pure trivial
    | yield => exact ih fun t' entry entry' more => each t' entry entry' (within.trans more)

end Agree

/-! The actions of which all others are made. -/

section Primitive

variable {i j : ObjectId} {p q : ProjectId}

theorem present_left {w u : World φ} (like : World.Like s w u) (paired : s.Objects i j) :
    i < w.objects.length := by
  obtain ⟨k, made, rfl, _⟩ := paired
  rw [like.leftObjects]
  exact Nat.add_lt_add_left made _

theorem present_right {w u : World φ} (like : World.Like s w u) (paired : s.Objects i j) :
    j < u.objects.length := by
  obtain ⟨k, made, _, rfl⟩ := paired
  rw [like.rightObjects]
  exact Nat.add_lt_add_left made _

theorem project_present_left {w u : World φ} (like : World.Like s w u)
    (projects : s.Projects p q) : p < w.projects.length := by
  obtain ⟨k, made, rfl, _⟩ := projects
  rw [like.leftProjects]
  exact Nat.add_lt_add_left made _

theorem project_present_right {w u : World φ} (like : World.Like s w u)
    (projects : s.Projects p q) : q < u.projects.length := by
  obtain ⟨k, made, _, rfl⟩ := projects
  rw [like.rightProjects]
  exact Nat.add_lt_add_left made _

theorem Agree.step {change change' : World φ → World φ}
    (keeps : ∀ w u, World.Like s w u → World.Like s (change w) (change' u)) :
    s.Agree (modify change) (modify change') :=
  fun w u like => ⟨s, .refl s, keeps w u like, .ok trivial⟩

/-- What is logged makes no difference. -/
theorem agree_log (level level' : LogLevel) (logger logger' message message' : String) :
    s.Agree (φ := φ) (log level logger message) (log level' logger' message') :=
  .step fun _ _ like => { like with object := like.object, project := like.project }

/-- Nor does it matter who is told what. -/
theorem agree_notify (event event' : Event) :
    s.Agree (φ := φ) (notify event) (notify event') := by
  refine .step fun w u like => ?_
  cases w.observer <;> cases u.observer <;>
    exact { like with object := like.object, project := like.project }

theorem Agree.set {w u : World φ} (like : World.Like s w u) : s.Agree (set w : Engine φ PUnit) (set u) :=
  fun _ _ _ => ⟨s, .refl s, like, .ok trivial⟩

theorem agree_changeFiles (operation : φ → Except FileError φ) :
    s.Agree (changeFiles operation) (changeFiles operation) := by
  refine .get fun w u like => ?_
  rw [like.files]
  cases operation u.files with
  | error error => exact .fault rfl
  | ok files => exact .set { like with files := rfl, object := like.object, project := like.project }

theorem agree_changeRegistry (change : Registry → Except RegistrationError Registry) :
    s.Agree (φ := φ) (changeRegistry change) (changeRegistry change) := by
  refine .get fun w u like => ?_
  rw [like.registry]
  cases change u.registry with
  | error error => exact .fault rfl
  | ok registry =>
    exact .set { like with registry := rfl, object := like.object, project := like.project }

/-- A class about which nothing is known is declared as the same kind on both sides. -/
theorem agree_declareKind {d : Declaration} (attributes : d.attributes = [])
    (script : d.script = none) :
    s.Agree (φ := φ) (declareKind d) (declareKind d) fun _ => Eq := by
  refine .get fun w u like => ?_
  have same := like.kinds
  rw [same]
  cases declared : u.kinds.declare d with
  | error error => exact .fault rfl
  | ok both =>
    obtain ⟨kind, more⟩ := both
    have complete := Kinds.areComplete_declare (same ▸ like.complete) attributes script declared
    refine .bind (.set ?_) fun _ _ _ _ _ => .pure rfl
    exact { like with kinds := rfl, complete, object := like.object, project := like.project }

/-- Objects that are paired are changed in the same way. -/
theorem agree_changeObject (paired : s.Objects i j) {change change' : Object → Object}
    (keeps : ∀ o o', Object.Like s o o' → Object.Like s (change o) (change' o')) :
    s.Agree (φ := φ) (changeObject i change) (changeObject j change') := by
  refine .step fun w u like => ?_
  refine { like with leftObjects := ?_, rightObjects := ?_, object := ?_, project := like.project }
  · rw [List.length_modify, like.leftObjects]
  · rw [List.length_modify, like.rightObjects]
  · intro i' j' others
    rw [World.object_of_modify_present rfl (present_left like others),
      World.object_of_modify_present rfl (present_right like others)]
    have same := paired.eq_iff others
    by_cases changed : i = i'
    · rw [if_pos changed, if_pos (same.mp changed)]
      exact keeps _ _ (like.object others)
    · rw [if_neg changed, if_neg (changed ∘ same.mpr)]
      exact like.object others

theorem agree_changeProject (projects : s.Projects p q) {change change' : Project → Project}
    (keeps : ∀ p p', Project.Like s p p' → Project.Like s (change p) (change' p')) :
    s.Agree (φ := φ) (changeProject p change) (changeProject q change') := by
  refine .step fun w u like => ?_
  refine { like with leftProjects := ?_, rightProjects := ?_, object := like.object, project := ?_ }
  · rw [List.length_modify, like.leftProjects]
  · rw [List.length_modify, like.rightProjects]
  · intro p' q' others
    rw [World.project_of_modify_present rfl (project_present_left like others),
      World.project_of_modify_present rfl (project_present_right like others)]
    have same := projects.eq_iff others
    by_cases changed : p = p'
    · rw [if_pos changed, if_pos (same.mp changed)]
      exact keeps _ _ (like.project others)
    · rw [if_neg changed, if_neg (changed ∘ same.mpr)]
      exact like.project others

/-- Objects that are like each other and are added at the same time are paired. -/
theorem agree_addObject {o o' : Object} (objects : Object.Like s o o') :
    s.Agree (φ := φ) (addObject o) (addObject o') fun t => t.Objects := by
  intro w u like
  let t : Pairing := { s with objects := s.objects + 1 }
  have within : s.Within t := ⟨rfl, rfl, Nat.le_succ _, Nat.le_refl _⟩
  refine ⟨t, within, ?_, .ok ⟨s.objects, Nat.lt_succ_self _, like.leftObjects, like.rightObjects⟩⟩
  refine { like with
    leftObjects := ?_, rightObjects := ?_, object := ?_
    project := fun projects => (like.project projects).mono within }
  · exact (List.length_append ..).trans (congrArg (· + 1) like.leftObjects)
  · exact (List.length_append ..).trans (congrArg (· + 1) like.rightObjects)
  · have left (i) : ((addObject o).run w).2.object i =
        if i = w.objects.length then o else w.object i := World.object_of_append rfl i
    have right (j) : ((addObject o').run u).2.object j =
        if j = u.objects.length then o' else u.object j := World.object_of_append rfl j
    rintro i j ⟨k, made, rfl, rfl⟩
    rw [left, right, like.leftObjects, like.rightObjects]
    rcases Nat.lt_succ_iff_lt_or_eq.mp made with old | rfl
    · rw [if_neg fun same => Nat.ne_of_lt old (Nat.add_left_cancel same),
        if_neg fun same => Nat.ne_of_lt old (Nat.add_left_cancel same)]
      exact (like.object ⟨k, old, rfl, rfl⟩).mono within
    · rw [if_pos rfl, if_pos rfl]
      exact objects.mono within

theorem agree_addProject {p p' : Project} (projects : Project.Like s p p') :
    s.Agree (φ := φ) (addProject p) (addProject p') fun t => t.Projects := by
  intro w u like
  let t : Pairing := { s with projects := s.projects + 1 }
  have within : s.Within t := ⟨rfl, rfl, Nat.le_refl _, Nat.le_succ _⟩
  refine ⟨t, within, ?_, .ok ⟨s.projects, Nat.lt_succ_self _, like.leftProjects, like.rightProjects⟩⟩
  refine { like with
    leftProjects := ?_, rightProjects := ?_, project := ?_
    object := fun paired => (like.object paired).mono within }
  · exact (List.length_append ..).trans (congrArg (· + 1) like.leftProjects)
  · exact (List.length_append ..).trans (congrArg (· + 1) like.rightProjects)
  · have left (i) : ((addProject p).run w).2.project i =
        if i = w.projects.length then p else w.project i := World.project_of_append rfl i
    have right (j) : ((addProject p').run u).2.project j =
        if j = u.projects.length then p' else u.project j := World.project_of_append rfl j
    rintro i j ⟨k, made, rfl, rfl⟩
    rw [left, right, like.leftProjects, like.rightProjects]
    rcases Nat.lt_succ_iff_lt_or_eq.mp made with old | rfl
    · rw [if_neg fun same => Nat.ne_of_lt old (Nat.add_left_cancel same),
        if_neg fun same => Nat.ne_of_lt old (Nat.add_left_cancel same)]
      exact (like.project ⟨k, old, rfl, rfl⟩).mono within
    · rw [if_pos rfl, if_pos rfl]
      exact projects.mono within

theorem sees_project (projects : s.Projects p q) :
    s.Sees (φ := φ) (project p) (project q) (Project.Like s) :=
  .observe fun like => like.project projects

theorem sees_object (paired : s.Objects i j) :
    s.Sees (φ := φ) (object i) (object j) (Object.Like s) :=
  .observe fun like => like.object paired

theorem agree_setProperty (projects : s.Projects p q) (name value : String) (override : Bool) :
    s.Agree (φ := φ) (setProperty p name value override) (setProperty q name value override)
      fun _ => Eq := by
  refine .look (sees_project projects) fun a b same => ?_
  rw [same.properties]
  refine .bind (agree_changeProject projects fun _ _ like => { like with properties := rfl }) ?_
  exact fun _ _ _ _ _ => .pure rfl

theorem agree_register (projects : s.Projects p q) (name : String) (paired : s.Objects i j) :
    s.Agree (φ := φ) (register p name i) (register q name j) := by
  have named {t : Pairing} (within : s.Within t) : t.Agree (φ := φ)
      (changeProject p fun p => { p with references := p.references.register name i })
      (changeProject q fun p => { p with references := p.references.register name j }) := by
    refine agree_changeProject (projects.mono within) fun _ _ like => ?_
    exact { like with references := { like.references with
      objects := like.references.objects.put name (paired.mono within) } }
  refine .look (sees_project projects) fun a b same => ?_
  rw [same.references.replaces name paired]
  split
  · exact .bind (agree_log _ _ _ _ _ _) fun t _ _ within _ => named within
  · exact named (.refl s)

end Primitive
end Pairing
end BuildEngine
