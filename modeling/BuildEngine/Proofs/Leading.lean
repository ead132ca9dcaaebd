import BuildEngine.Task.Basic
import Mathlib.Logic.Relation

/-! Actions that lead from world to world by steps of some kind. One rule for each way to put
actions together, whatever the steps are; what a kind of steps keeps then follows for whole runs. -/

namespace BuildEngine

open Relation

variable {φ : Type} {α β : Type}

namespace Engine

/-- An action that changes nothing. -/
def Looks (action : Engine φ α) : Prop := ∀ w, (action.run w).2 = w

namespace Looks

theorem pure (a : α) : Looks (pure a : Engine φ α) := fun _ => rfl

theorem throw (fault : Fault) : Looks (throw fault : Engine φ α) := fun _ => rfl

theorem observe (look : World φ → α) : Looks (observe look) := fun _ => rfl

theorem consult (look : World φ → Except Fault α) : Looks (consult look) := by
  intro w
  rw [Engine.consult, run_bind_ok (run_get w)]
  cases look w <;> rfl

theorem readFiles (operation : φ → Except FileError α) : Looks (readFiles operation) := by
  intro w
  rw [Engine.readFiles, run_bind_ok (run_get w)]
  cases operation w.files <;> rfl

theorem get : Looks (get : Engine φ (World φ)) := fun _ => rfl

theorem bind {action : Engine φ α} {next : α → Engine φ β} (first : Looks action)
    (then_ : ∀ a, Looks (next a)) : Looks (action >>= next) := by
  intro w
  have same := first w
  rcases ended : action.run w with ⟨fault | a, after⟩
  · rw [run_bind_error ended]
    rwa [ended] at same
  · rw [run_bind_ok ended, then_ a after]
    rwa [ended] at same

theorem map (change : α → β) {action : Engine φ α} (looks : Looks action) :
    Looks (change <$> action) := by
  intro w
  rw [run_map]
  exact looks w

theorem adapting (change : Fault → Fault) {action : Engine φ α} (looks : Looks action) :
    Looks (adapting change action) := by
  intro w
  have same := looks w
  rcases ended : action.run w with ⟨fault | a, after⟩
  · rw [Engine.adapting, run_tryCatch_error ended]
    rwa [ended] at same
  · rw [Engine.adapting, run_tryCatch_ok ended]
    rwa [ended] at same

end Looks
/-- An action takes steps from a world, and what it results in is as wanted. -/
def Leads (step : World φ → World φ → Prop) (w : World φ) (action : Engine φ α)
    (wanted : World φ → α → Prop := fun _ _ => True) : Prop :=
  ReflTransGen step w (action.run w).2 ∧
    ∀ a, (action.run w).1 = .ok a → wanted (action.run w).2 a

namespace Leads

variable {step : World φ → World φ → Prop} {w : World φ}
variable {action : Engine φ α} {next : α → Engine φ β} {wanted : World φ → α → Prop}
variable {later : World φ → β → Prop}

theorem looks (looks : Looks action) : Leads step w action := by
  rw [Leads, looks w]
  exact ⟨.refl, fun _ _ => trivial⟩

theorem pure {a : α} (holds : wanted w a) : Leads step w (pure a) wanted := by
  refine ⟨.refl, ?_⟩
  rintro _ ⟨⟩
  exact holds

theorem throw (fault : Fault) : Leads step w (throw fault : Engine φ α) wanted :=
  ⟨.refl, nofun⟩

/-- A change of the world that is a single step. -/
theorem change {change : World φ → World φ} (single : step w (change w)) :
    Leads step w (modify change) :=
  ⟨.single single, fun _ _ => trivial⟩

theorem bind (first : Leads step w action wanted)
    (rest : ∀ after a, ReflTransGen step w after → wanted after a →
      Leads step after (next a) later) : Leads step w (action >>= next) later := by
  obtain ⟨steps, holds⟩ := first
  rw [Leads]
  rcases ended : action.run w with ⟨fault | a, after⟩
  · rw [run_bind_error ended]
    rw [ended] at steps
    exact ⟨steps, nofun⟩
  · rw [run_bind_ok ended]
    rw [ended] at steps holds
    obtain ⟨more, done⟩ := rest after a steps (holds a rfl)
    exact ⟨steps.trans more, done⟩

/-- What is only looked at leaves the world to the rest. -/
theorem look (looks : Looks action)
    (rest : ∀ a, (action.run w).1 = .ok a → Leads step w (next a) later) :
    Leads step w (action >>= next) later := by
  have same := looks w
  rw [Leads]
  rcases ended : action.run w with ⟨fault | a, after⟩
  · rw [run_bind_error ended]
    rw [ended] at same
    exact ⟨same ▸ .refl, nofun⟩
  · rw [run_bind_ok ended]
    rw [ended] at same
    subst same
    exact rest a (by rw [ended])

theorem map (change : α → β) (leads : Leads step w action wanted)
    (implies : ∀ after a, wanted after a → later after (change a)) :
    Leads step w (change <$> action) later := by
  obtain ⟨steps, holds⟩ := leads
  rw [Leads, run_map]
  refine ⟨steps, ?_⟩
  intro b ended
  cases result : (action.run w).1 with
  | error => rw [result] at ended; cases ended
  | ok a =>
    rw [result] at ended
    cases ended
    exact implies _ a (holds a result)

theorem tryCatch {handler : Fault → Engine φ α} (first : Leads step w action wanted)
    (handled : ∀ after fault, ReflTransGen step w after →
      Leads step after (handler fault) wanted) :
    Leads step w (tryCatch action handler) wanted := by
  obtain ⟨steps, holds⟩ := first
  rw [Leads]
  rcases ended : action.run w with ⟨fault | a, after⟩
  · rw [run_tryCatch_error ended]
    rw [ended] at steps
    obtain ⟨more, done⟩ := handled after fault steps
    exact ⟨steps.trans more, done⟩
  · rw [run_tryCatch_ok ended]
    rw [ended] at steps holds
    exact ⟨steps, holds⟩

theorem adapting (change : Fault → Fault) (leads : Leads step w action wanted) :
    Leads step w (adapting change action) wanted :=
  leads.tryCatch fun _ _ _ => throw _

theorem attempt (leads : Leads step w action wanted) :
    Leads step w (attempt action) fun after result => ∀ a, result = .ok a → wanted after a := by
  obtain ⟨steps, holds⟩ := leads
  rw [Leads, run_attempt]
  refine ⟨steps, ?_⟩
  rintro _ ⟨⟩ a ended
  exact holds a ended

theorem forIn {γ : Type} {body : γ → β → Engine φ (ForInStep β)} (entries : List γ) (start : β)
    (each : ∀ after entry b, ReflTransGen step w after → Leads step after (body entry b)) :
    Leads step w (forIn entries start body) := by
  induction entries generalizing w start with
  | nil => exact pure trivial
  | cons entry rest ih =>
    rw [List.forIn_cons]
    refine (each w entry start .refl).bind fun after step steps _ => ?_
    cases step with
    | done => exact pure trivial
    | yield b => exact ih b fun final entry b more => each final entry b (steps.trans more)

/-- What is done for one of the entries stays done, if steps keep it and the other entries do not end
the loop. -/
theorem forIn_of_mem {γ : Type} {body : γ → β → Engine φ (ForInStep β)} {done : World φ → Prop}
    (keeps : ∀ w after, step w after → done w → done after) {entries : List γ} {entry : γ}
    (member : entry ∈ entries) (start : β)
    (each : ∀ after other b, ReflTransGen step w after →
      Leads step after (body other b) fun _ r => ∃ b, r = .yield b)
    (does : ∀ after b, ReflTransGen step w after →
      Leads step after (body entry b) fun final _ => done final) :
    Leads step w (ForIn.forIn entries start body) fun after _ => done after := by
  have stays {w after : World φ} (steps : ReflTransGen step w after) (holds : done w) :
      done after := by
    induction steps with
    | refl => exact holds
    | tail _ step ih => exact keeps _ _ step ih
  induction entries generalizing w start with
  | nil => cases member
  | cons first rest ih =>
    rw [List.forIn_cons]
    have goesOn := each w first start .refl
    have others {after : World φ} (steps : ReflTransGen step w after) (b : β) :
        Leads step after (ForIn.forIn rest b body) :=
      forIn rest b fun final other b more =>
        ⟨(each final other b (steps.trans more)).1, fun _ _ => trivial⟩
    rcases List.mem_cons.mp member with rfl | later
    · have both : Leads step w (body entry start) fun after r =>
          (∃ b, r = .yield b) ∧ done after :=
        ⟨goesOn.1, fun r ended => ⟨goesOn.2 r ended, (does w start .refl).2 r ended⟩⟩
      refine both.bind ?_
      rintro after _ steps ⟨⟨b, rfl⟩, holds⟩
      obtain ⟨more, -⟩ := others steps b
      exact ⟨more, fun _ _ => stays more holds⟩
    · refine goesOn.bind ?_
      rintro after _ steps ⟨b, rfl⟩
      exact ih later b (fun final other b more => each final other b (steps.trans more))
        fun final b more => does final b (steps.trans more)

end Leads
end Engine
end BuildEngine
