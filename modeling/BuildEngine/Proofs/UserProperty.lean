import BuildEngine.Files.Memory
import BuildEngine.Proofs.RunConfinement

/-! User properties. What the user gives a project when it is loaded, and what a calling build hands
down to the one that runs on its behalf, stays for as long as the build goes on, whatever is written
over it. -/

namespace BuildEngine

open Engine

variable {φ : Type}

namespace Properties

variable {name value : String}

/-- User values put into a store are found in it as in a table to which the same is done. -/
theorem find?_foldl_setUser (entries : List (String × String)) (t : Table String String)
    (p : Properties) (same : p.table.find? name = (t.find? name).map (⟨·, true⟩)) :
    (entries.foldl (fun store entry => store.setUser entry.1 entry.2) p).table.find? name =
      ((entries.foldl (fun t entry => t.put entry.1 entry.2) t).find? name).map (⟨·, true⟩) := by
  induction entries generalizing t p with
  | nil => exact same
  | cons entry rest ih =>
    refine ih (t.put entry.1 entry.2) (p.setUser entry.1 entry.2) ?_
    simp only [setUser, Table.find?_put]
    split
    · rfl
    · exact same

/-- Of the user values that are given for a name the last one counts. -/
theorem find?_ofUser (entries : List (String × String)) (name : String) :
    (ofUser entries).table.find? name =
      ((Table.ofList entries).find? name).map (⟨·, true⟩) :=
  find?_foldl_setUser entries .empty {} rfl

/-- What is handed down leaves user properties as they are. -/
theorem find?_foldl_setInherited_of_user {given : Property} (entries : List (String × String))
    (p : Properties) (found : p.table.find? name = some given) (user : given.isUser = true) :
    (entries.foldl (fun store entry => store.setInherited entry.1 entry.2) p).table.find? name =
      some given := by
  induction entries generalizing p with
  | nil => exact found
  | cons entry rest ih =>
    refine ih _ ?_
    rw [find?_setInherited, if_neg, found]
    rintro ⟨rfl, other⟩
    simp [isUser, found, user] at other

/-- What is handed down under a name that no user value has becomes a user value. -/
theorem find?_foldl_setInherited (entries : List (String × String)) (p : Properties)
    (distinct : (entries.map Prod.fst).Nodup) (member : (name, value) ∈ entries)
    (free : p.table.find? name = none) :
    (entries.foldl (fun store entry => store.setInherited entry.1 entry.2) p).table.find? name =
      some ⟨value, true⟩ := by
  induction entries generalizing p with
  | nil => cases member
  | cons entry rest ih =>
    rw [List.map_cons, List.nodup_cons] at distinct
    rcases List.mem_cons.mp member with first | later
    · subst first
      refine find?_foldl_setInherited_of_user rest _ ?_ rfl
      rw [find?_setInherited, if_pos ⟨rfl, by simp [isUser, free]⟩]
    · have different : entry.1 ≠ name := fun same =>
        distinct.1 (same ▸ List.mem_map_of_mem later)
      refine ih _ distinct.2 later ?_
      rw [find?_setInherited, if_neg fun both => different both.1, free]

/-- What a store holds under a name is among its names and values. -/
theorem mem_toList_of_get? {p : Properties} (found : p.get? name = some value) :
    (name, value) ∈ p.toList := by
  obtain ⟨stored, here, rfl⟩ := Option.map_eq_some_iff.mp found
  exact List.mem_map.mpr ⟨(name, stored), Table.mem_entries_of_find? here, rfl⟩

theorem nodup_toList (p : Properties) : (p.toList.map Prod.fst).Nodup := by
  rw [toList, List.map_map]
  exact p.table.distinct

end Properties

namespace Inheritance

variable {i : Inheritance} {p : Project} {name value : String}

/-- An override wins over all that could be handed down. -/
theorem find?_properties_of_override (given : (Table.ofList i.overrides).find? name = some value) :
    (i.properties p).table.find? name = some ⟨value, true⟩ := by
  have overridden : (Properties.ofUser i.overrides).table.find? name = some ⟨value, true⟩ := by
    rw [Properties.find?_ofUser, given]
    rfl
  unfold properties
  extract_lets given
  split
  · exact Properties.find?_foldl_setInherited_of_user _ _ overridden rfl
  · exact overridden

/-- What a project has of itself is not handed down; all else that is set is, unless it is
overridden. -/
theorem find?_properties_of_inherited (all : i.allProperties = true)
    (free : (Table.ofList i.overrides).find? name = none) (foreign : name ∉ Project.ownProperties)
    (held : p.properties.get? name = some value) :
    (i.properties p).table.find? name = some ⟨value, true⟩ := by
  have absent : (Properties.ofUser i.overrides).table.find? name = none := by
    rw [Properties.find?_ofUser, free]
    rfl
  unfold properties
  extract_lets given
  rw [if_pos all]
  refine Properties.find?_foldl_setInherited _ _ ?_ ?_ absent
  · exact p.properties.nodup_toList.sublist (List.filter_sublist.map Prod.fst)
  · refine List.mem_filter.mpr ⟨Properties.mem_toList_of_get? held, ?_⟩
    simpa using foreign

end Inheritance

namespace Mark

/-- The begin of all builds. -/
def origin : Mark := ⟨0, 0⟩

theorem sealed_origin (w : World φ) : origin.Sealed w :=
  ⟨Nat.zero_le _, Nat.zero_le _, fun _ _ _ _ => ⟨Nat.zero_le _, Nat.zero_le _⟩⟩

theorem owns_origin (w : World φ) (id : ObjectId) : origin.Owns w id :=
  ⟨Nat.zero_le _, Nat.zero_le _⟩

end Mark

namespace Engine

theorem run_of_toOption {α : Type} {action : Engine φ α} {w : World φ} {a : α}
    (ended : (action.run w).1.toOption = some a) : action.run w = (.ok a, (action.run w).2) := by
  rcases run : action.run w with ⟨fault | result, after⟩
  · rw [run] at ended
    cases ended
  · rw [run] at ended
    cases ended
    rfl

variable [FileSystem φ]

/-- The world after runs of targets, each in the world that the one before it left. -/
def afterRuns (project : ProjectId) (runs : List (List String)) (w : World φ) : World φ :=
  runs.foldl (fun w goals => ((build project goals).run w).2) w

theorem afterRuns_reaches (project : ProjectId) (runs : List (List String)) (w : World φ) :
    Mark.origin.Reaches w (afterRuns project runs w) := by
  induction runs generalizing w with
  | nil => exact .refl _ w
  | cons goals rest ih =>
    have confined : Mark.origin.Confined w (build project goals) :=
      Mark.confined_build (Nat.zero_le _) goals
    exact (confined (Mark.sealed_origin w)).1.trans (ih _)

/-- Loading adds a project with the given properties, and goes on from there by steps of the
engine. -/
theorem loadProject_reaches {e : Element} {user : List (String × String)} {directory : Path}
    {buildFile : Option Path} {w loaded : World φ} {project : ProjectId}
    (loading : (loadProject e user directory buildFile).run w = (.ok project, loaded)) :
    project = w.projects.length ∧ ∃ p added, p.properties = .ofUser user ∧
      added.projects = w.projects ++ [p] ∧ Mark.origin.Reaches added loaded := by
  unfold loadProject at loading
  rw [run_bind_ok (run_observe _ w), run_bind_ok (run_addProject _ w)] at loading
  extract_lets explain at loading
  generalize start : ({ w with projects := w.projects ++ [_] } : World φ) = added at loading
  have calls : Mark.origin.CallsTake Mark.origin.Change (call (φ := φ)) :=
    Mark.callsConfined_callWithin _ _
  have confined : Mark.origin.Confined added (adapting explain (load call w.projects.length e)) :=
    (Mark.confined_load calls (Nat.zero_le _) e).adapting explain
  have steps := (confined (Mark.sealed_origin added)).1
  rcases ended : (adapting explain (load call w.projects.length e)).run added
    with ⟨fault | _, after⟩
  · rw [run_bind_error ended] at loading
    cases loading
  · rw [run_bind_ok ended] at loading
    cases loading
    rw [ended] at steps
    exact ⟨rfl, _, added, rfl, by rw [← start], steps⟩

/-- What the user gives when a build description is loaded stays, whatever the description says and
whatever is run of it afterwards. -/
theorem build_keeps_user {e : Element} {user : List (String × String)} {directory : Path}
    {buildFile : Option Path} {w loaded : World φ} {project : ProjectId}
    (loading : (loadProject e user directory buildFile).run w = (.ok project, loaded))
    (runs : List (List String)) {name value : String}
    (given : (Table.ofList user).find? name = some value) :
    let later := (afterRuns project runs loaded).project project
    later.properties.get? name = some value ∧ later.properties.isUser name = true := by
  intro later
  obtain ⟨rfl, p, added, properties, projects, steps⟩ := loadProject_reaches loading
  have found : (added.project w.projects.length).properties.table.find? name =
      some ⟨value, true⟩ := by
    rw [World.project_of_append projects, if_pos rfl, properties, Properties.find?_ofUser, given]
    rfl
  have present : w.projects.length < added.projects.length := by simp [projects]
  have kept : later.properties.table.find? name = some ⟨value, true⟩ :=
    (steps.trans (afterRuns_reaches _ runs loaded)).find?_of_user present found rfl
  exact ⟨by simp [Properties.get?, kept], by simp [Properties.isUser, kept]⟩

/-! A build description that writes over the mode in which it is built, at once and in a target. -/

namespace Sample

def slow : Element where
  tag := "property"
  attributes := [("name", "mode"), ("value", "slow"), ("override", "true")]

def description : Element where
  tag := "project"
  children := [slow, { tag := "target", attributes := [("name", "all")], children := [slow] }]

def fresh : World MemoryFiles := { files := {}, registry := Registry.addStandard {} }

end Sample

theorem build_keeps_user_sample :
    let loaded := ((loadProject Sample.description [("mode", "fast")] .top).run Sample.fresh).2
    let later := (afterRuns 0 [["all"], ["none"], ["all"]] loaded).project 0
    later.properties.get? "mode" = some "fast" ∧ later.properties.isUser "mode" = true := by
  have ended : ((loadProject Sample.description [("mode", "fast")] .top).run
      Sample.fresh).1.toOption = some 0 := by decide +kernel
  exact build_keeps_user (run_of_toOption ended) _ rfl

/-- A derived project is the last one made, and the build description of its caller was loaded into
it. -/
theorem furnish_of_derive {caller : Caller φ} {parent child : ProjectId} {i : Inheritance}
    {w derived : World φ} (success : (derive caller parent i).run w = (.ok child, derived)) :
    child = w.projects.length ∧ ∃ e, (w.project parent).source = some e ∧
      (furnish caller parent child e i).run
        ((addProject (i.heir parent (w.project parent))).run w).2 = (.ok (), derived) := by
  unfold derive at success
  rw [run_bind_ok (run_project parent w)] at success
  split at success
  · cases success
  rename_i e source
  rw [run_bind_ok (run_addProject _ w)] at success
  rcases ended : (furnish caller parent w.projects.length e i).run
    ((addProject (i.heir parent (w.project parent))).run w).2 with ⟨fault | _, after⟩
  · rw [run_addProject] at ended
    rw [run_bind_error ended] at success
    cases success
  · rw [run_addProject] at ended
    rw [run_bind_ok ended] at success
    cases success
    exact ⟨rfl, e, source, by rw [run_addProject]; exact ended⟩

/-- A project that runs on behalf of another one starts with what that one hands down, and goes on
from there by steps of the engine. -/
theorem derive_reaches {caller : Caller φ} (calls : Mark.origin.CallsTake Mark.origin.Change caller)
    {parent child : ProjectId} {i : Inheritance} {w derived : World φ}
    (success : (derive caller parent i).run w = (.ok child, derived)) :
    child = w.projects.length ∧ ∃ added,
      added.projects = w.projects ++ [i.heir parent (w.project parent)] ∧
      Mark.origin.Reaches added derived := by
  obtain ⟨rfl, e, _, furnished⟩ := furnish_of_derive success
  rw [run_addProject] at furnished
  generalize start : ({ w with projects := w.projects ++ [_] } : World φ) = added at furnished
  have confined : Mark.origin.Confined added (furnish caller parent w.projects.length e i) :=
    Mark.confined_furnish calls parent (Nat.zero_le _) e i
  have steps := (confined (Mark.sealed_origin added)).1
  rw [furnished] at steps
  exact ⟨rfl, added, by rw [← start], steps⟩

/-- From the moment a project is derived, as far as the build goes on, overrides have their values,
and if all properties are handed down so have those that the caller had set. A run of targets of
the derived project goes on from there, whoever listens to it. -/
theorem derive_hands_down {depth : Nat} {parent child : ProjectId} {i : Inheritance}
    {w derived : World φ}
    (success : (derive (callWithin depth) parent i).run w = (.ok child, derived)) :
    (∀ later, Mark.origin.Reaches derived later → ∀ name value,
      ((Table.ofList i.overrides).find? name = some value →
        (later.project child).properties.get? name = some value) ∧
      ((Table.ofList i.overrides).find? name = none → i.allProperties = true →
        name ∉ Project.ownProperties → (w.project parent).properties.get? name = some value →
        (later.project child).properties.get? name = some value)) ∧
    ∀ tell, Mark.origin.ListensConfined tell → ∀ goals, Mark.origin.Reaches derived
      ((execute (callWithin depth) tell child goals).run derived).2 := by
  have calls := Mark.callsConfined_callWithin (φ := φ) Mark.origin depth
  obtain ⟨rfl, added, projects, steps⟩ := derive_reaches calls success
  have present : w.projects.length < added.projects.length := by simp [projects]
  have start : added.project w.projects.length = i.heir parent (w.project parent) := by
    rw [World.project_of_append projects, if_pos rfl]
  have kept {later : World φ} (further : Mark.origin.Reaches derived later) {name value : String}
      (handed : (i.properties (w.project parent)).table.find? name = some ⟨value, true⟩) :
      (later.project w.projects.length).properties.get? name = some value := by
    have begins : (added.project w.projects.length).properties.table.find? name =
        some ⟨value, true⟩ := by rwa [start]
    have stays := (steps.trans further).find?_of_user present begins rfl
    simp [Properties.get?, stays]
  refine ⟨fun later further name value => ⟨fun given => ?_, fun free all foreign held => ?_⟩, ?_⟩
  · exact kept further (Inheritance.find?_properties_of_override given)
  · exact kept further (Inheritance.find?_properties_of_inherited all free foreign held)
  · intro tell listens goals
    have confined : Mark.origin.Confined derived
        (execute (callWithin depth) tell w.projects.length goals) :=
      Mark.confined_execute calls listens (Nat.zero_le _) goals
    exact (confined (Mark.sealed_origin derived)).1

namespace Sample

/-- A project that its user builds at a level, and whose description writes over modes. -/
def calling : World MemoryFiles :=
  { fresh with projects := [{
      directory := .top, source := some description
      properties := Properties.ofUser [("level", "3"), ("mode", "slow")] }] }

end Sample

theorem derive_hands_down_sample :
    let derived := ((derive (callWithin 0) 0 { overrides := [("mode", "fast")] }).run
      Sample.calling).2
    let later := ((execute (callWithin 0) notify 1 ["all"]).run derived).2
    (later.project 1).properties.get? "mode" = some "fast" ∧
      (later.project 1).properties.get? "level" = some "3" := by
  have ended : ((derive (callWithin 0) 0 { overrides := [("mode", "fast")] }).run
      Sample.calling).1.toOption = some 1 := by decide +kernel
  obtain ⟨holds, runs⟩ := derive_hands_down (run_of_toOption ended)
  have reached := runs notify (Mark.listensConfined_notify _) ["all"]
  exact ⟨(holds _ reached "mode" "fast").1 rfl,
    (holds _ reached "level" "3").2 rfl rfl (by decide) rfl⟩

end Engine
end BuildEngine
