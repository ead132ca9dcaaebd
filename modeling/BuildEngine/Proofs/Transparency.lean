import BuildEngine.Files.Memory
import BuildEngine.Proofs.Resolution
import BuildEngine.Proofs.KindGrowth
import BuildEngine.Proofs.Nesting

/-! Transparency of aliases. A data type that is an alias of another one, be it over further
aliases, lists the files, names the locations and maps the names that the other one does. -/

namespace BuildEngine

variable {φ α β : Type}

/-- Two readings come to the same: to one result, to one fault, or each to a fault of something that
leads back to itself. -/
inductive Alike : Except Fault α → Except Fault α → Prop where
  | same (reading : Except Fault α) : Alike reading reading
  | circles {fault other : Fault} (cycle : fault.isCycle = true) (cycle' : other.isCycle = true) :
      Alike (.error fault) (.error other)

namespace Alike

variable {one other : Except Fault α} {next next' : α → Except Fault β}

theorem bind (first : Alike one other) (then_ : ∀ a, Alike (next a) (next' a)) :
    Alike (one >>= next) (other >>= next') := by
  cases first with
  | same =>
    cases one with
    | error fault => exact .same (.error fault)
    | ok a => exact then_ a
  | circles cycle cycle' => exact .circles cycle cycle'

theorem map (change : α → β) (alike : Alike one other) :
    Alike (one.map change) (other.map change) := by
  cases alike with
  | same => exact .same _
  | circles cycle cycle' => exact .circles cycle cycle'

theorem gathered {f g : α → Except Fault (List β)} {xs : List α}
    (each : ∀ x ∈ xs, Alike (f x) (g x)) :
    Alike (BuildEngine.gathered f xs) (BuildEngine.gathered g xs) := by
  induction xs with
  | nil => exact .same _
  | cons x xs ih =>
    rw [gathered_cons, gathered_cons]
    refine (each x List.mem_cons_self).bind fun own => ?_
    refine (ih fun y later => each y (List.mem_cons_of_mem _ later)).bind fun more => ?_
    exact .same _

end Alike

namespace World

/-- A data type of a project stands for one that is no alias: it is that one, or it refers by name
to one of its own kind that stands for it. -/
inductive StandsFor (w : World φ) (project : ProjectId) : ObjectId → ObjectId → Prop where
  | itself {id : ObjectId} (plain : (w.object id).reference = none) : StandsFor w project id id
  | further {id next last : ObjectId} {r : Reference} (refers : (w.object id).reference = some r)
      (home : r.project = project)
      (named : (w.project project).references.get? r.id = some next)
      (kind : (w.object next).kind = (w.object id).kind)
      (rest : StandsFor w project next last) : StandsFor w project id last

variable {w : World φ} {project : ProjectId} {id other last path : ObjectId}

namespace StandsFor

theorem plain (stands : w.StandsFor project id last) : (w.object last).reference = none := by
  induction stands with
  | itself plain => exact plain
  | further _ _ _ _ _ ih => exact ih

theorem kindOf (stands : w.StandsFor project id last) : w.kindOf last = w.kindOf id := by
  induction stands with
  | itself => rfl
  | further _ _ _ kind _ ih => rw [ih, World.kindOf, kind, World.kindOf]

/-- A name of a data type leads to what the data type stands for. -/
theorem leads {name : String} (stands : w.StandsFor project id last)
    (referable : (w.kindOf id).isA Standard.referable = true)
    (named : (w.project project).references.get? name = some id) :
    ∃ via, References.Leads w.aliasOf (w.project project).references name via last := by
  induction stands generalizing name with
  | @itself id plain =>
    have ends : w.aliasOf id = none := by rw [aliasOf, if_pos referable, plain, Option.map_none]
    exact ⟨[], .here named ends⟩
  | @further id next last r refers home named' kind rest ih =>
    have points : w.aliasOf id = some r.id := by
      rw [aliasOf, if_pos referable, refers, Option.map_some]
    have same : w.kindOf next = w.kindOf id := by rw [World.kindOf, kind, World.kindOf]
    obtain ⟨via, leads⟩ := ih (same ▸ referable) named'
    exact ⟨r.id :: via, .there named points leads⟩

theorem target (grown : w.kinds.Grown) (isDataType : (w.kindOf id).isDataType = true)
    (stands : w.StandsFor project id last) : w.target id = .ok last := by
  cases stands with
  | itself plain =>
    unfold World.target
    rw [plain]
  | @further _ next _ r refers home named kind rest =>
    obtain ⟨own, referable⟩ := grown.of_isDataType isDataType
    have same : w.kindOf next = w.kindOf id := by rw [World.kindOf, kind, World.kindOf]
    obtain ⟨via, leads⟩ := rest.leads (same ▸ referable) named
    have resolved := References.resolve_eq_ok_iff.mpr ⟨via, leads⟩
    have fits : w.isA last (w.object id).kind = true := by
      rw [World.isA, rest.kindOf, same]
      exact own
    have found : w.resolveAs r.project r.id (w.object id).kind = .ok last := by
      rw [home, resolveAs, References.resolveAs, resolved]
      exact if_pos fits
    unfold World.target
    rw [refers]
    simp only [found]

end StandsFor

theorem target_of_plain (plain : (w.object id).reference = none) : w.target id = .ok id := by
  unfold target
  rw [plain]

theorem locationsOf_of_error {fault : Fault} (fails : w.target id = .error fault) (levels : Nat)
    (passed : List ObjectId) (names : List String) :
    w.locationsOf (levels + 1) passed names id = .error fault := by
  rw [locationsOf, fails]
  rfl

/-- What a path lists depends on what it stands for only. The names that led to it come up nowhere
but in the fault of a circle. -/
theorem locationsOf_alike (levels : Nat) (passed : List ObjectId) (names names' : List String)
    (same : w.target id = w.target other) :
    Alike (w.locationsOf levels passed names id) (w.locationsOf levels passed names' other) := by
  induction levels generalizing passed names names' id other with
  | zero => exact .same _
  | succ levels ih =>
    cases leads : w.target id with
    | error fault =>
      rw [locationsOf_of_error leads, locationsOf_of_error (same ▸ leads)]
      exact .same _
    | ok path =>
      have leads' := same ▸ leads
      by_cases seen : path ∈ passed
      · rw [locationsOf_of_mem leads seen, locationsOf_of_mem leads' seen]
        exact .circles rfl rfl
      · rw [locationsOf_of_not_mem leads seen, locationsOf_of_not_mem leads' seen]
        refine (Alike.same _).bind fun own => ?_
        refine (Alike.gathered fun part _ => ?_).bind fun nested => .same _
        unfold partLocations
        split
        · exact ih _ _ _ rfl
        · exact .same _

/-- An alias is no other thing than what it stands for, over however many aliases of its kind that
may be: it has its directory and its files, it maps names as it does, and it lists its locations, or
both fail. The faults are the same ones, but that circles are told by the names that lead there. -/
theorem aliases_transparent [FileSystem φ] (grown : w.kinds.Grown)
    (isDataType : (w.kindOf id).isDataType = true) (stands : w.StandsFor project id last) :
    w.listDirectory id = w.listDirectory last ∧ w.listFiles id = w.listFiles last ∧
      (∀ name, (w.mapper id).map (·.map name) = (w.mapper last).map (·.map name)) ∧
      Alike (w.locations id) (w.locations last) := by
  have leads := stands.target grown isDataType
  have same : w.target id = w.target last := leads.trans (target_of_plain stands.plain).symm
  refine ⟨?_, ?_, fun name => ?_, (locationsOf_alike _ _ _ _ same).map _⟩
  · rw [listDirectory, same, listDirectory]
  · rw [listFiles, same, listFiles]
  · rw [mapper, same, mapper]

namespace Sample

/-- An alias of an alias of a list of two files. -/
def aliased : World MemoryFiles where
  files := {}
  projects := [{
    directory := .top, references := { objects := .ofList [("middle", 1), ("last", 2)] } }]
  objects := [
    { kind := Standard.fileList, project := 0, reference := some ⟨0, "middle", .unknown⟩ },
    { kind := Standard.fileList, project := 0, reference := some ⟨0, "last", .unknown⟩ },
    { kind := Standard.fileList, project := 0
      fields := .ofList [
        ("dir", .value (.path ⟨.root, ["src"]⟩)), ("files", .value (.text "a.c, b.c"))] }]

theorem aliased_standsFor : aliased.StandsFor 0 0 2 :=
  .further rfl rfl rfl rfl (.further rfl rfl rfl rfl (.itself rfl))

end Sample

open Sample in
theorem aliases_transparent_sample :
    (aliased.kinds.Grown ∧ (aliased.kindOf 0).isDataType = true ∧ aliased.StandsFor 0 0 2) ∧
      (aliased.listFiles 0).toOption = some ["a.c", "b.c"] := by
  have grown : aliased.kinds.Grown := by simpa only [aliased] using .standard
  have isDataType : (aliased.kindOf 0).isDataType = true := by decide +kernel
  obtain ⟨-, files, -⟩ := aliases_transparent grown isDataType aliased_standsFor
  refine ⟨⟨grown, isDataType, aliased_standsFor⟩, ?_⟩
  rw [files]
  decide +kernel

end World
end BuildEngine
