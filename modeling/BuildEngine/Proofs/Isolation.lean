import BuildEngine.Files.Memory
import BuildEngine.Proofs.RunAgreement

/-! Isolation: a build that runs on behalf of a project and inherits nothing from it depends on the
build description, the directory, the files and what is registered, and on nothing else of its
caller. -/

namespace BuildEngine

open Engine

variable {φ : Type} {w u : World φ}

/-- Worlds that share all that is not kept in projects and objects. -/
structure World.Shares (w u : World φ) : Prop where
  files : w.files = u.files
  kinds : w.kinds = u.kinds
  registry : w.registry = u.registry
  implicitBooleans : w.implicitBooleans = u.implicitBooleans
  keepGoing : w.keepGoing = u.keepGoing
  here : w.here = u.here

/-- Projects that are made from the same build description in the same place. -/
structure Project.SameBuild (p q : Project) (e : Element) : Prop where
  left : p.source = some e
  right : q.source = some e
  directory : p.directory = q.directory
  buildFile : p.buildFile = q.buildFile

/-- Runs that both succeeded, or ended with faults that say the same. -/
def SameEnding (t : Pairing) (a b : Except Fault Unit) : Prop :=
  (a = .ok () ∧ b = .ok ()) ∨ ∃ fault fault', a = .error fault ∧ b = .error fault' ∧
    Fault.Like t fault fault' ∧ fault.message = fault'.message ∧ fault.location = fault'.location

theorem SameEnding.ofResults {t : Pairing} {a b : Except Fault Unit} {wanted : Unit → Unit → Prop}
    (results : t.Results wanted a b) : SameEnding t a b := by
  cases results with
  | ok => exact .inl ⟨rfl, rfl⟩
  | error faults => exact .inr ⟨_, _, rfl, rfl, faults, faults.message, faults.location⟩

namespace Pairing

/-- The pairing of two worlds before anything more is made in them. -/
def between (w u : World φ) : Pairing where
  left := ⟨w.objects.length, w.projects.length⟩
  right := ⟨u.objects.length, u.projects.length⟩
  objects := 0
  projects := 0

theorem like_between (shared : w.Shares u) (complete : w.kinds.areComplete = true) :
    World.Like (between w u) w u where
  files := shared.files
  kinds := shared.kinds
  registry := shared.registry
  implicitBooleans := shared.implicitBooleans
  keepGoing := shared.keepGoing
  here := shared.here
  complete := complete
  leftObjects := rfl
  rightObjects := rfl
  leftProjects := rfl
  rightProjects := rfl
  object := fun ⟨_, made, _⟩ => absurd made (Nat.not_lt_zero _)
  project := fun ⟨_, made, _⟩ => absurd made (Nat.not_lt_zero _)

end Pairing

namespace Engine

variable [FileSystem φ]

/-- What follows when a project was made on behalf of another one that hands nothing down. -/
theorem run_subBuild {caller : Caller φ} {tell : Audience φ} {parent : ProjectId}
    {overrides : List (String × String)} {goals : List String} {e : Element}
    (source : (w.project parent).source = some e) :
    let i : Inheritance := { allProperties := false, overrides }
    (subBuild caller tell parent i goals).run w =
      (load caller w.projects.length e >>= fun _ =>
        execute caller tell w.projects.length goals).run
          ((addProject (i.heir parent (w.project parent))).run w).2 := by
  intro i
  unfold subBuild derive furnish
  rw [bind_assoc, run_bind_ok (run_project parent w), source]
  simp only [bind_assoc, pure_bind]
  rw [run_bind_ok (run_addProject _ w)]
  rfl

/-- A build that inherits nothing but overrides makes nothing of what its caller holds. Callers may
differ in all that is theirs: from worlds that share files, kinds and registrations, what two such
builds make can be paired in its order, so that all that is paired is the same. Kinds are shared as
they are, so none may have an object of one of the worlds in its declaration; the standard kinds do
not. -/
theorem subBuild_isolated {p q : ProjectId} {e : Element} (shared : w.Shares u)
    (complete : w.kinds.areComplete = true) (same : (w.project p).SameBuild (u.project q) e)
    (overrides : List (String × String)) (depth : Nat) {tell : Audience φ}
    (listens : Pairing.ListensAgree tell) (goals : List String) :
    let i : Inheritance := { allProperties := false, overrides }
    let a := (subBuild (callWithin depth) tell p i goals).run w
    let b := (subBuild (callWithin depth) tell q i goals).run u
    let callee := a.2.project w.projects.length
    let callee' := b.2.project u.projects.length
    ∃ t, (Pairing.between w u).Within t ∧ SameEnding t a.1 b.1 ∧
      callee.properties = callee'.properties ∧
      References.Like t callee.references callee'.references ∧
      (∀ i j, t.Objects i j → Object.Like t (a.2.object i) (b.2.object j)) ∧
      a.2.files = b.2.files ∧ a.2.registry = b.2.registry ∧ a.2.kinds = b.2.kinds := by
  intro i a b callee callee'
  have heirs : Project.Like (Pairing.between w u) (i.heir p (w.project p)) (i.heir q (u.project q)) :=
    Pairing.like_heir same.directory same.buildFile (same.left.trans same.right.symm) rfl p q
  obtain ⟨s, within, like, results⟩ :=
    Pairing.agree_addProject heirs w u (Pairing.like_between shared complete)
  obtain ⟨children⟩ := results
  have calls := Pairing.callsAgree_callWithin (φ := φ) depth
  have rest : s.Agree
      (load (callWithin depth) w.projects.length e >>= fun _ =>
        execute (callWithin depth) tell w.projects.length goals)
      (load (callWithin depth) u.projects.length e >>= fun _ =>
        execute (callWithin depth) tell u.projects.length goals) :=
    .bind (Pairing.agree_load calls children e) fun t _ _ more _ =>
      Pairing.agree_execute calls listens (children.mono more) goals
  obtain ⟨t, more, like, results⟩ := rest _ _ like
  rw [← run_subBuild same.left, ← run_subBuild same.right] at like results
  have callees := like.project (children.mono more)
  exact ⟨t, within.trans more, .ofResults results, callees.properties, callees.references,
    fun _ _ paired => like.object paired, like.files, like.registry, like.kinds⟩

/-! A build description that writes what it knows of its caller to a file. -/

namespace Sample

def telling : Element where
  tag := "project"
  children := [{ tag := "target", attributes := [("name", "all")], children := [
    { tag := "echo", attributes := [("message", "${mode} ${secret}"), ("file", "/told")] }] }]

def worldOf (projects : List Project) (objects : List Object) : World MemoryFiles :=
  { files := {}, registry := Registry.addStandard {}, projects, objects }

/-- A caller with a secret. -/
def confiding : World MemoryFiles := worldOf [{
  directory := .top
  source := some telling
  properties := Properties.ofUser [("secret", "42"), ("mode", "slow")] }] []

/-- A caller with a named object, which was made after an older project. -/
def reserved : World MemoryFiles := worldOf [{ directory := .top }, {
  directory := .top
  source := some telling
  references := { objects := .ofList [("secret", 0)] } }] [{ kind := Standard.fileList, project := 1 }]

theorem kinds_worldOf (projects : List Project) (objects : List Object) :
    (worldOf projects objects).kinds = .standard := by
  unfold worldOf
  with_reducible rfl

theorem shared : confiding.Shares reserved where
  files := rfl
  kinds := (kinds_worldOf _ _).trans (kinds_worldOf _ _).symm
  registry := rfl
  implicitBooleans := rfl
  keepGoing := rfl
  here := rfl

end Sample

theorem subBuild_isolated_sample :
    let i : Inheritance := { allProperties := false, overrides := [("mode", "fast")] }
    let a := (subBuild (callWithin 0) notify 0 i ["all"]).run Sample.confiding
    let b := (subBuild (callWithin 0) notify 1 i ["all"]).run Sample.reserved
    a.2.files = b.2.files ∧ (a.2.project 1).properties = (b.2.project 2).properties := by
  have complete : Sample.confiding.kinds.areComplete = true := by
    rw [Sample.confiding, Sample.kinds_worldOf]
    exact Kinds.standard_areComplete
  have same : (Sample.confiding.project 0).SameBuild (Sample.reserved.project 1) Sample.telling :=
    ⟨rfl, rfl, rfl, rfl⟩
  have isolated := subBuild_isolated Sample.shared complete same [("mode", "fast")] 0
    Pairing.listensAgree_notify ["all"]
  obtain ⟨t, _, _, properties, _, _, files, _⟩ := isolated
  have first : Sample.confiding.projects.length = 1 := rfl
  have second : Sample.reserved.projects.length = 2 := rfl
  rw [first, second] at properties
  exact ⟨files, properties⟩

end Engine
end BuildEngine
