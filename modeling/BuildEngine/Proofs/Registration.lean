import BuildEngine.Registry
import Mathlib.Data.List.Induction

/-! Registration again and again. The two tables of a registry are one map: what a name denotes, in
whatever case it is written, is what was registered under it last, as a task or as a type. What is
refused changes nothing. -/

namespace BuildEngine

open BuildEngine.Text

/-- A request to register something under a name, as a task or as a type. -/
structure Registration where
  asTask : Bool
  name : String
  candidate : Registry.Candidate

namespace Registration

/-- The name that a registration is about, in lower case. -/
def key (c : Registration) : String := lower c.name

/-- The kind that is registered. Without one the registration is refused: tasks are registered as
tasks, and other kinds as types. -/
def kind? (c : Registration) : Option Kind :=
  match c.candidate with
  | .kind k => if k.isTask = c.asTask then some k else none
  | .other _ => none

/-- What is registered is no kind, or it is what some kinds say of its identity. -/
def IsKnown (ks : Kinds) (c : Registration) : Prop :=
  ∀ k, c.candidate = .kind k → ks.get k.id = k

/-- The last registration under a name that is not refused. -/
def last? (key : String) (calls : List Registration) : Option Registration :=
  calls.reverse.find? fun c => c.key == key && c.kind?.isSome

/-- What a name denotes after some registrations. -/
def denoted? (key : String) (calls : List Registration) : Option KindId :=
  (last? key calls).bind fun c => c.kind?.map (·.id)

variable {c : Registration} {calls : List Registration} {key : String} {k : Kind}

theorem kind?_eq_some_iff :
    c.kind? = some k ↔ c.candidate = .kind k ∧ k.isTask = c.asTask := by
  unfold kind?
  cases candidate : c.candidate with
  | other => simp
  | kind k' =>
    simp only [Option.ite_none_right_eq_some, Option.some.injEq, Registry.Candidate.kind.injEq]
    constructor
    · rintro ⟨sort, rfl⟩
      exact ⟨rfl, sort⟩
    · rintro ⟨rfl, sort⟩
      exact ⟨sort, rfl⟩

theorem last?_concat (key : String) (calls : List Registration) (c : Registration) :
    last? key (calls ++ [c]) =
      if c.key = key ∧ c.kind?.isSome = true then some c else last? key calls := by
  rw [last?, List.reverse_concat, List.find?_cons, last?]
  by_cases counts : c.key = key ∧ c.kind?.isSome = true
  · simp [counts]
  · rw [if_neg counts, show (c.key == key && c.kind?.isSome) = false by simpa using counts]

theorem mem_of_last? (found : last? key calls = some c) : c ∈ calls :=
  List.mem_reverse.mp (List.mem_of_find?_eq_some found)

end Registration

namespace Registry

open Registration

def register (r : Registry) (c : Registration) : Except RegistrationError Registry :=
  if c.asTask then r.addTask c.name c.candidate else r.addType c.name c.candidate

/-- The registry after a registration, which may be refused. -/
def after (r : Registry) (c : Registration) : Registry :=
  match r.register c with
  | .ok next => next
  | .error _ => r

/-- An empty registry after some registrations. -/
def afterAll (calls : List Registration) : Registry := calls.foldl after {}

/-- The table of the tasks, or that of the types. -/
def side (r : Registry) : Bool → Table String KindId
  | true => r.tasks
  | false => r.types

variable {r : Registry} {c : Registration} {calls : List Registration} {key : String} {k : Kind}

/-- Whether a registration is refused depends on nothing but what is registered. -/
theorem refused_iff (r : Registry) (c : Registration) :
    (∃ error, r.register c = .error error) ↔ c.kind? = none := by
  rcases c with ⟨asTask, name, k | shown⟩
  · cases asTask <;> cases sort : k.isTask <;>
      simp [register, addTask, addType, kind?, sort]
  · cases asTask <;> simp [register, addTask, addType, kind?]

/-- What is refused changes nothing. -/
theorem after_of_refused (refused : c.kind? = none) : r.after c = r := by
  obtain ⟨error, ended⟩ := (refused_iff r c).mpr refused
  rw [after, ended]

/-- What is registered stands in the table of its sort, and its name in no other one. -/
theorem find?_after (registered : c.kind? = some k) (b : Bool) (key : String) :
    ((r.after c).side b).find? key =
      if c.key = key then if c.asTask = b then some k.id else none else (r.side b).find? key := by
  obtain ⟨candidate, sort⟩ := kind?_eq_some_iff.mp registered
  rcases c with ⟨asTask, name, _⟩
  cases candidate
  cases asTask <;> cases b <;>
    simp_all [after, register, addTask, addType, side, Table.find?_put, Table.find?_erase,
      Registration.key]

theorem afterAll_concat (calls : List Registration) (c : Registration) :
    afterAll (calls ++ [c]) = (afterAll calls).after c := by
  rw [afterAll, List.foldl_append]
  rfl

/-- A table holds what was registered last under a name, if that is of its sort. -/
theorem find?_afterAll (calls : List Registration) (b : Bool) (key : String) :
    ((afterAll calls).side b).find? key =
      (last? key calls).bind fun c => if c.asTask = b then c.kind?.map (·.id) else none := by
  induction calls using List.reverseRecOn with
  | nil => cases b <;> rfl
  | append_singleton calls c ih =>
    rw [afterAll_concat, last?_concat]
    cases registered : c.kind? with
    | none =>
      rw [after_of_refused registered, ih]
      simp
    | some k =>
      rw [find?_after registered, ih]
      by_cases same : c.key = key
      · simp [same, registered]
      · simp [same]

/-- Whatever a table holds was registered in it. -/
theorem registered_of_mem {b : Bool} {id : KindId} (member : id ∈ ((afterAll calls).side b).values) :
    ∃ c ∈ calls, ∃ k, c.candidate = .kind k ∧ k.isTask = b ∧ k.id = id := by
  obtain ⟨entry, stored, rfl⟩ := List.mem_map.mp member
  have found := Table.find?_of_mem_entries stored
  rw [find?_afterAll] at found
  obtain ⟨c, last, taken⟩ := Option.bind_eq_some_iff.mp found
  split at taken
  · next sort =>
    obtain ⟨k, registered, same⟩ := Option.map_eq_some_iff.mp taken
    obtain ⟨candidate, isTask⟩ := kind?_eq_some_iff.mp registered
    exact ⟨c, mem_of_last? last, k, candidate, isTask.trans sort, same⟩
  · cases taken

theorem isTask_of_mem {ks : Kinds} (known : ∀ c ∈ calls, c.IsKnown ks) {b : Bool} {id : KindId}
    (member : id ∈ ((afterAll calls).side b).values) : (ks.get id).isTask = b := by
  obtain ⟨c, called, k, candidate, isTask, rfl⟩ := registered_of_mem member
  rw [known c called k candidate, isTask]

/-- No name stands in both tables. -/
theorem apart_afterAll (calls : List Registration) (key : String) :
    (afterAll calls).tasks.contains key = false ∨ (afterAll calls).types.contains key = false := by
  have tasks := find?_afterAll calls true key
  have types := find?_afterAll calls false key
  cases last : last? key calls with
  | none =>
    rw [last] at tasks
    exact .inl (congrArg Option.isSome tasks)
  | some c =>
    rw [last] at tasks types
    cases sort : c.asTask with
    | false =>
      rw [Option.bind_some, if_neg (by simp [sort])] at tasks
      exact .inl (congrArg Option.isSome tasks)
    | true =>
      rw [Option.bind_some, if_neg (by simp [sort])] at types
      exact .inr (congrArg Option.isSome types)

/-- A name denotes what was registered last under it. -/
theorem find?_eq_denoted? (calls : List Registration) (name : String) :
    (afterAll calls).find? name = denoted? (lower name) calls := by
  have tasks := find?_afterAll calls true (lower name)
  have types := find?_afterAll calls false (lower name)
  rw [find?, denoted?]
  change (((afterAll calls).side true).find? _).or (((afterAll calls).side false).find? _) = _
  rw [tasks, types]
  cases last? (lower name) calls with
  | none => rfl
  | some c =>
    cases sort : c.asTask with
    | false => simp [sort]
    | true => simp [sort]

/-- Whatever is registered in whatever order, in a registry that was empty: no name stands in both
tables; every spelling of a name denotes what was registered last under it, or nothing; one table
holds nothing but tasks and the other one no task; and what is refused, which is all that is of the
wrong sort, changes nothing. -/
theorem afterAll_is_map (ks : Kinds) (calls : List Registration)
    (known : ∀ c ∈ calls, c.IsKnown ks) :
    (∀ key, (afterAll calls).tasks.contains key = false ∨
      (afterAll calls).types.contains key = false) ∧
    (∀ name, (afterAll calls).find? name = denoted? (lower name) calls) ∧
    (∀ id ∈ (afterAll calls).tasks.values, (ks.get id).isTask = true) ∧
    (∀ id ∈ (afterAll calls).types.values, (ks.get id).isTask = false) ∧
    ∀ earlier c later, calls = earlier ++ c :: later →
      ((∃ error, (afterAll earlier).register c = .error error) ↔ c.kind? = none) ∧
      ((∃ error, (afterAll earlier).register c = .error error) →
        afterAll (earlier ++ [c]) = afterAll earlier) := by
  refine ⟨apart_afterAll calls, find?_eq_denoted? calls, ?_, ?_, ?_⟩
  · exact fun _ member => isTask_of_mem (b := true) known member
  · exact fun _ member => isTask_of_mem (b := false) known member
  · intro earlier c _ _
    refine ⟨refused_iff _ c, fun refused => ?_⟩
    rw [afterAll_concat, after_of_refused ((refused_iff _ c).mp refused)]

namespace Sample

/-- A task. -/
def step : Kind :=
  ⟨.declared 0, { name := "Step", home := "fixtures", bases := [.standard .task] },
    [.declared 0, .standard .task], .empty⟩

/-- A kind that is none of tasks. -/
def record : Kind :=
  ⟨.declared 1, { name := "Record", home := "fixtures", bases := [.standard .object] },
    [.declared 1, .standard .object], .empty⟩

/-- A task is registered, a type takes its name in another spelling, and what is of the wrong sort
is refused. -/
def mixed : List Registration := [⟨true, "Step", .kind step⟩, ⟨false, "STEP", .kind record⟩,
  ⟨true, "step", .kind record⟩, ⟨false, "step", .kind step⟩, ⟨true, "step", .other "1"⟩]

theorem mixed_known : ∀ c ∈ mixed, c.IsKnown ⟨[step, record]⟩ := by
  intro c called k candidate
  simp only [mixed, List.mem_cons, List.not_mem_nil, or_false] at called
  rcases called with rfl | rfl | rfl | rfl | rfl <;> cases candidate <;> rfl

end Sample

theorem afterAll_is_map_sample : (afterAll Sample.mixed).find? "sTEP" = some (.declared 1) ∧
    (afterAll Sample.mixed).tasks.contains "step" = false := by
  obtain ⟨apart, denotes, _⟩ := afterAll_is_map _ Sample.mixed Sample.mixed_known
  have found : (afterAll Sample.mixed).types.contains "step" = true := by decide +kernel
  refine ⟨(denotes "sTEP").trans (by decide +kernel), (apart "step").resolve_right ?_⟩
  rw [found]
  nofun

end Registry
end BuildEngine
