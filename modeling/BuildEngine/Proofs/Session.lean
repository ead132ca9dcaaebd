import BuildEngine.Proofs.RunSoundness

/-! Sessions: worlds to which loading build descriptions and building leads from one in which nothing
was loaded, whatever becomes of the files in between. What is loaded is of some sort, and so are the
directories that it is loaded in. Faults that come up in a session whose build descriptions have
their places are at known places. -/

namespace BuildEngine

open Engine

variable {φ : Type} [FileSystem φ]

/-- A world that a session leads to. -/
inductive Session (welcome : Element → Prop) (fits : Path → Prop) : World φ → Prop
  | start {w : World φ} (kinds : w.kinds = .standard) (projects : w.projects = [])
      (objects : w.objects = []) : Session welcome fits w
  /-- Neither the files nor what is registered, logged or told about is part of what is loaded. -/
  | aside {w after : World φ} (before : Session welcome fits w) (kinds : after.kinds = w.kinds)
      (projects : after.projects = w.projects) (objects : after.objects = w.objects) :
      Session welcome fits after
  | load {w : World φ} (before : Session welcome fits w) {e : Element} (welcomes : welcome e)
      (properties : List (String × String)) {directory : Path} (within : fits directory)
      (buildFile : Option Path) :
      Session welcome fits ((loadProject e properties directory buildFile).run w).2
  | build {w : World φ} (before : Session welcome fits w) (project : ProjectId)
      (goals : List String) : Session welcome fits ((build project goals).run w).2

theorem Session.imp {welcome welcome' : Element → Prop} {fits fits' : Path → Prop} {w : World φ}
    (session : Session welcome fits w) (welcomes : ∀ e, welcome e → welcome' e)
    (within : ∀ p, fits p → fits' p) : Session welcome' fits' w := by
  induction session with
  | start kinds projects objects => exact .start kinds projects objects
  | aside _ kinds projects objects ih => exact .aside ih kinds projects objects
  | load _ wanted properties fit buildFile ih =>
    exact .load ih (welcomes _ wanted) properties (within _ fit) buildFile
  | build _ project goals ih => exact .build ih project goals

namespace Terms

variable {t : Terms φ} {s : Stage φ}

/-- Nothing is owed where nothing was loaded. -/
theorem meets_new {w : World φ} (kinds : w.kinds = .standard) (projects : w.projects = [])
    (objects : w.objects = []) : t.Meets ⟨w, fun _ => default⟩ where
  kinds := kinds ▸ .standard
  object id := by
    have none : w.object id = default := by
      unfold World.object
      rw [objects]
      rfl
    rw [none]
    exact ⟨nofun, nofun, nofun, isMixed_default, .inr (.inr nofun), .inr (.inr nofun)⟩
  project id := by
    have none : w.project id = default := by
      unfold World.project
      rw [projects]
      rfl
    rw [none]
    exact .default

/-- What an action that is sound leads to meets the terms, however it ends. -/
theorem Runs.meets {α : Type} {may : Fault → Bool} {action : Engine φ α}
    (sound : t.Sound may s action) :
    ∃ s' : Stage φ, s'.world = (action.run s.world).2 ∧ t.Meets s' := by
  obtain ⟨result, s', here, _, _, ends⟩ := sound
  refine ⟨s', by rw [here], ?_⟩
  cases result with
  | ok a => exact ends.1
  | error fault => exact ends.2

/-- Every world of a session meets the terms, if what is loaded in it does. -/
theorem meets_session {w : World φ} (session : Session t.Welcomes (t.fits · = true) w) :
    ∃ s : Stage φ, s.world = w ∧ t.Meets s := by
  induction session with
  | start kinds projects objects => exact ⟨_, rfl, meets_new kinds projects objects⟩
  | aside _ kinds projects objects ih =>
    obtain ⟨s, rfl, meets⟩ := ih
    exact ⟨⟨_, s.element⟩, rfl, meets.ofSame objects kinds projects⟩
  | load _ welcomes properties within buildFile ih =>
    obtain ⟨s, rfl, meets⟩ := ih
    exact (sound_loadProject meets welcomes properties within buildFile).meets
  | build _ project goals ih =>
    obtain ⟨s, rfl, meets⟩ := ih
    exact (sound_build meets project goals).meets

end Terms
end BuildEngine
