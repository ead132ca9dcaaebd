import BuildEngine.Proofs.Confinement

/-! Delegation: what is done on behalf of a project from some point on. The projects that are made
for it halt on failures for good, and hold no objects but those that were made for them. -/

namespace BuildEngine

open Relation

variable {φ : Type}

namespace Mark

variable {m : Mark} {w after : World φ} {id : ObjectId} {project : ProjectId}

/-- A step that is taken on behalf of a project. -/
structure Delegates (m : Mark) (w after : World φ) : Prop where
  change : m.Change w after
  halts : ∀ p < w.projects.length,
    (after.project p).haltOnFailure = (w.project p).haltOnFailure
  fresh : ∀ p < after.projects.length, w.projects.length ≤ p →
    (after.project p).haltOnFailure = true
  held : ∀ p id, (after.project p).Holds id → (w.project p).Holds id ∨ w.MadeFor id p

/-- Whatever leaves the projects of a world alone is a step on behalf of any project. -/
theorem Delegates.ofSame (change : m.Change w after) (projects : after.projects = w.projects) :
    m.Delegates w after where
  change := change
  halts p _ := by rw [World.project_of_same projects]
  fresh p below above := absurd (projects ▸ below) (Nat.not_lt_of_le above)
  held p id holds := .inl (by rwa [← World.project_of_same projects])

instance admits_delegates (m : Mark) : m.Admits (m.Delegates (φ := φ)) where
  change step := step.change
  aside _ projects objects _ := .ofSame (.aside projects objects) projects
  object id change later kind home _ projects objects _ :=
    .ofSame (.object id change later kind home projects objects) projects
  project id change later written halts _ held _ projects objects _ := {
    change := .project id change later written (fun o holds => (held o holds).imp_right And.left)
      projects objects
    halts := fun p _ => by
      rcases World.project_of_modify projects p with same | ⟨rfl, same⟩
      · rw [same]
      · rw [same, halts]
    fresh := fun p below above => by
      rw [projects, List.length_modify] at below
      exact absurd below (Nat.not_lt_of_le above)
    held := fun p o holds => by
      rcases World.project_of_modify projects p with same | ⟨rfl, same⟩
      · exact .inl (same ▸ holds)
      · exact (held o (same ▸ holds)).imp_right fun made => made.2.1 }
  newObject o home _ projects objects _ := .ofSame (.newObject o home projects objects) projects
  newProject p halts empty _ projects objects _ := {
    change := .newProject p empty projects objects
    halts := fun other below => by
      rw [World.project_of_append projects, if_neg (Nat.ne_of_lt below)]
    fresh := fun other below above => by
      rw [projects, List.length_append] at below
      have last := Nat.le_antisymm (Nat.le_of_lt_succ below) above
      rw [World.project_of_append projects, if_pos last, halts]
    held := fun other o holds => by
      rw [World.project_of_append projects] at holds
      split at holds
      · exact absurd holds (empty o)
      · exact .inl holds }

/-- A world in which the projects after a point halt on failures, and hold only objects that were
made for them. -/
structure Halting (m : Mark) (w : World φ) : Prop where
  halts : ∀ p < w.projects.length, m.projects ≤ p → (w.project p).haltOnFailure = true
  held : ∀ p, m.projects ≤ p → ∀ id, (w.project p).Holds id → w.MadeFor id p

theorem Delegates.halting (step : m.Delegates w after) (before : m.Halting w) :
    m.Halting after where
  halts p below later := by
    by_cases old : p < w.projects.length
    · rw [step.halts p old, before.halts p old later]
    · exact step.fresh p below (Nat.le_of_not_lt old)
  held p later id holds := by
    rcases step.held p id holds with held | made
    · exact step.change.madeFor (before.held p later id held)
    · exact step.change.madeFor made

/-- However far a build goes on behalf of a project, its projects halt on failures. -/
theorem Halting.later (before : m.Halting w) (steps : ReflTransGen m.Delegates w after) :
    m.Halting after := by
  induction steps with
  | refl => exact before
  | tail _ step ih => exact step.halting ih

end Mark

/-- A task of a project that halts on failures: nothing that goes wrong in it is tolerated. -/
structure World.Strict (w : World φ) (id : ObjectId) : Prop where
  present : id < w.objects.length
  home : (w.object id).project < w.projects.length
  halts : (w.project (w.object id).project).haltOnFailure = true

namespace Mark

variable {m : Mark} {w after : World φ} {id : ObjectId} {project : ProjectId}

theorem Delegates.strict (step : m.Delegates w after) (strict : w.Strict id) : after.Strict id := by
  have made : w.MadeFor id (w.object id).project := ⟨strict.present, rfl⟩
  obtain ⟨present, home⟩ := step.change.madeFor made
  refine ⟨present, ?_, ?_⟩
  · rw [home]
    exact Nat.lt_of_lt_of_le strict.home step.change.projects_le
  · rw [home, step.halts _ strict.home, strict.halts]

/-- What was made for one of the projects after a point is strict. -/
theorem Halting.strict (halting : m.Halting w) (later : m.projects ≤ project)
    (present : project < w.projects.length) (made : w.MadeFor id project) : w.Strict id where
  present := made.1
  home := made.2 ▸ present
  halts := made.2 ▸ halting.halts project present later

end Mark

theorem World.Strict.later {m : Mark} {w after : World φ} {id : ObjectId} (strict : w.Strict id)
    (steps : ReflTransGen m.Delegates w after) : after.Strict id := by
  induction steps with
  | refl => exact strict
  | tail _ step ih => exact step.strict ih

end BuildEngine
