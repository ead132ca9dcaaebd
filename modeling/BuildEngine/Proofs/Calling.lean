import BuildEngine.Proofs.Completion
import BuildEngine.Proofs.Forwarding

/-! Calls as their caller sees them: nothing that was there before a call is touched by it, however
the call ends. -/

namespace BuildEngine

open Engine BuildEngine.Text

variable {φ : Type} {w after : World φ}

namespace Mark

/-- Whatever was there at a point is there later, as it was. -/
theorem Reaches.prefix_now (steps : (now w).Reaches w after) :
    w.projects <+: after.projects ∧ w.objects <+: after.objects := by
  obtain ⟨projects, objects⟩ := steps.old (sealed_now w)
  rw [show (now w).projects = w.projects.length from rfl, List.take_length] at projects
  rw [show (now w).objects = w.objects.length from rfl, List.take_length] at objects
  exact ⟨projects ▸ List.take_prefix _ _, objects ▸ List.take_prefix _ _⟩

end Mark

namespace World

theorem project_of_prefix (kept : w.projects <+: after.projects) {project : ProjectId}
    (present : project < w.projects.length) : after.project project = w.project project := by
  obtain ⟨more, same⟩ := kept
  rw [World.project, ← same, List.getElem?_append_left present, World.project]

theorem object_of_prefix (kept : w.objects <+: after.objects) {id : ObjectId}
    (present : id < w.objects.length) : after.object id = w.object id := by
  obtain ⟨more, same⟩ := kept
  rw [World.object, ← same, List.getElem?_append_left present, World.object]

end World

namespace Engine

variable [FileSystem φ]

/-- What a call leaves begins with all projects and objects that were there before it. -/
theorem kept_callWithin (depth : Nat) (id : ObjectId) (w : World φ) :
    let after := ((callWithin depth id).run w).2
    w.projects <+: after.projects ∧ w.objects <+: after.objects := by
  have confined : (Mark.now w).Confined w (callWithin depth id) := Mark.confined_callWithin depth id
  exact (confined (Mark.sealed_now w)).1.prefix_now

/-- A call touches no project and no object that was there before it, be it in the project of the
call or in another one: neither properties with the marks of the user, nor names and slots, nor
targets with what stands in them, how far that was made and configured, and its objects. That is so
however deep calls lead, and wherever the call or one that it leads to ends with a fault. -/
theorem callWithin_keeps_caller (depth : Nat) (id : ObjectId) (w : World φ) :
    let after := ((callWithin depth id).run w).2
    (∀ project < w.projects.length, after.project project = w.project project) ∧
      ∀ object < w.objects.length, after.object object = w.object object := by
  obtain ⟨projects, objects⟩ := kept_callWithin depth id w
  exact ⟨fun _ => World.project_of_prefix projects, fun _ => World.object_of_prefix objects⟩

end Engine

/-- What a call asks for: it stands in a target, names another one, and says what is handed down. -/
structure World.Asks (w : World φ) (id : ObjectId) (goal : String) (i : Inheritance) : Prop where
  inTarget : (w.object id).target.isSome = true
  named : w.isSet id "target" = true
  goal : w.readText id "target" = .ok goal
  handed : (inheritanceOf id).run w = (.ok i, w)

/-- What stands in a target is there. -/
theorem World.Asks.present {w : World φ} {id : ObjectId} {goal : String} {i : Inheritance}
    (asks : w.Asks id goal i) : id < w.objects.length := by
  by_contra absent
  have none : w.objects[id]? = none := List.getElem?_eq_none (Nat.le_of_not_lt absent)
  have inTarget := asks.inTarget
  rw [World.object, none] at inTarget
  cases inTarget

/-- The world in which a call runs what it asks for: the call was logged, and nothing else. -/
def World.calling (w : World φ) (id : ObjectId) (goal : String) : World φ :=
  { w with
    logged := w.logged.push ⟨.debug, w.loggerOf id,
      s!"Calling target {quote goal} of project {quote (w.project (w.object id).project).name}"⟩ }

/-- The fault with which a call ends if what it asks for ends with a fault. -/
def Fault.ofCall (goal : String) (location : Location) (fault : Fault) : Fault :=
  if fault.isBuildFault then
    location.failure s!"calling target {quote goal} failed: {fault.message}"
  else fault

namespace Engine

variable [FileSystem φ] {caller : Caller φ} {id : ObjectId} {goal : String} {i : Inheritance}

/-- A call ends as what it asks for ends, but says of faults of the build that they are its own. -/
theorem run_callTarget (asks : w.Asks id goal i) :
    (callTarget caller id).run w =
      let ran := (subBuild caller silent (w.object id).project i [goal]).run (w.calling id goal)
      (ran.1.mapError (Fault.ofCall goal (ran.2.object id).location), ran.2) := by
  obtain ⟨target, inTarget⟩ := Option.isSome_iff_exists.mp asks.inTarget
  have given : (isSet id "target").run w = (.ok true, w) := by
    rw [isSet, run_observe, asks.named]
  have named : (some <$> textOf id "target").run w = (.ok (some goal), w) := by
    rw [run_map, textOf, consult, run_bind_ok (run_get w), asks.goal]
    rfl
  have announced : (logOf id .debug s!"Calling target {quote goal} of project {quote
      (w.project (w.object id).project).name}").run w = (.ok (), w.calling id goal) := rfl
  unfold callTarget
  rw [run_bind_ok (run_object id w), run_bind_ok given]
  simp only [if_pos, inTarget]
  rw [run_bind_ok named]
  simp only [Option.map_some, Option.getD_some]
  rw [run_bind_ok asks.handed, run_bind_ok (run_project _ w), run_bind_ok announced,
    run_bind_ok (run_attempt _ _)]
  rcases (subBuild caller silent (w.object id).project i [goal]).run (w.calling id goal)
    with ⟨fault | _, after⟩
  · simp only [Except.mapError, Fault.ofCall]
    split
    · rfl
    · rfl
  · rfl

/-- What a call asks for returned if the call did. -/
theorem subBuild_of_callTarget (asks : w.Asks id goal i) {a : Unit}
    (returned : (callTarget caller id).run w = (.ok a, after)) :
    (subBuild caller silent (w.object id).project i [goal]).run (w.calling id goal) =
      (.ok a, after) := by
  rw [run_callTarget asks] at returned
  rcases ran : (subBuild caller silent (w.object id).project i [goal]).run (w.calling id goal)
    with ⟨fault | _, mid⟩
  · rw [ran] at returned
    cases returned
  · rw [ran] at returned
    exact returned

/-! A call that fails after something was set on its behalf. -/

namespace Sample

/-- A project with a call of a target that inherits all properties. -/
def callerOf (e : Element) : World MemoryFiles :=
  { fresh with
    projects := [{
      directory := .top, source := some e, properties := Properties.ofUser [("level", "3")] }]
    objects := [{
      kind := Standard.call, project := 0, target := some "main", elementName := some "call"
      fields := .ofList [("target", .value (.text "all")), ("inheritall", .value (.flag true)),
        ("inheritrefs", .value (.flag false))] }] }

def breaking : Element where
  tag := "project"
  children := [slow, { tag := "fail" }, { tag := "target", attributes := [("name", "all")] }]

end Sample

theorem callWithin_keeps_caller_sample :
    let ended := (callWithin 1 0).run (Sample.callerOf Sample.breaking)
    (ended.1.toOption = none ∧ ended.2.projects.length = 2) ∧
      ended.2.project 0 = (Sample.callerOf Sample.breaking).project 0 := by
  obtain ⟨projects, _⟩ := callWithin_keeps_caller 1 0 (Sample.callerOf Sample.breaking)
  exact ⟨by decide +kernel, projects 0 Nat.zero_lt_one⟩

end Engine
end BuildEngine
