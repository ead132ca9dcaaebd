import BuildEngine.Proofs.Dependency

/-! What becomes of targets that end one after another in an order that puts dependencies first,
seen from which of them fail. The rule that aborts a target looks at what came before it; who is
aborted in the end follows from that by induction on the place in the order. -/

namespace BuildEngine

open Relation

/-- What holds of each member of a list if it holds of those before it holds of all of them. -/
theorem forall_mem_of_earlier {α : Type} {motive : α → Prop} {as : List α}
    (step : ∀ pre a post, as = pre ++ a :: post → (∀ earlier ∈ pre, motive earlier) → motive a) :
    ∀ a ∈ as, motive a := by
  suffices initial : ∀ pre post, as = pre ++ post → ∀ a ∈ pre, motive a from
    initial as [] (List.append_nil as).symm
  intro pre
  induction pre using List.reverseRecOn with
  | nil => nofun
  | append_singleton pre last ih =>
    intro post split a member
    rw [List.append_assoc, List.singleton_append] at split
    have earlier := ih (last :: post) split
    rcases List.mem_append.mp member with before | same
    · exact earlier a before
    · rw [List.mem_singleton.mp same]
      exact step pre last post split earlier

/-- All targets of an order came to an end, and those were aborted that came after a failure, unless
the run keeps going, or that depend on something that did not complete. -/
structure Settled (ts : Targets) (keepGoing : Bool) (order : List String)
    (state : String → TargetState) : Prop where
  ordered : ts.Ordered order
  final : ∀ name ∈ order, (state name).isFinal = true
  aborted : ∀ pre name post, order = pre ++ name :: post → (state name = .aborted ↔
    (keepGoing = false ∧ ∃ earlier ∈ pre, state earlier = .failed) ∨
      ∃ dependency, TransGen ts.Depends name dependency ∧ (state dependency).isOk = false)

/-- A target comes first in an order among those that failed. -/
def FirstFailed (order : List String) (state : String → TargetState) (name : String) : Prop :=
  ∃ pre post, order = pre ++ name :: post ∧ (∀ earlier ∈ pre, state earlier ≠ .failed) ∧
    state name = .failed

variable {order pre post : List String} {state : String → TargetState} {name : String}

theorem FirstFailed.mem (first : FirstFailed order state name) : name ∈ order := by
  obtain ⟨pre, post, rfl, _⟩ := first
  exact List.mem_append_right pre List.mem_cons_self

theorem FirstFailed.failed (first : FirstFailed order state name) : state name = .failed := by
  obtain ⟨_, _, _, _, failed⟩ := first
  exact failed

/-- A target that did not fail changes nothing about which one was the first. -/
theorem FirstFailed.cons {other : String} (passed : state other ≠ .failed)
    (first : FirstFailed order state name) : FirstFailed (other :: order) state name := by
  obtain ⟨pre, post, rfl, earlier, failed⟩ := first
  exact ⟨other :: pre, post, rfl, List.forall_mem_cons.mpr ⟨passed, earlier⟩, failed⟩

/-- Either no target failed or one of them was the first. -/
theorem exists_firstFailed (order : List String) (state : String → TargetState) :
    (∀ name ∈ order, state name ≠ .failed) ∨ ∃ name, FirstFailed order state name := by
  cases search : order.find? (state · == .failed) with
  | none =>
    left
    intro name member failed
    have passed := List.find?_eq_none.mp search name member
    simp [failed] at passed
  | some name =>
    right
    obtain ⟨failed, pre, post, split, passed⟩ := List.find?_eq_some_iff_append.mp search
    refine ⟨name, pre, post, split, ?_, by simpa using failed⟩
    intro earlier member
    simpa using passed earlier member

theorem TargetState.isOk_iff_of_isFinal {s : TargetState} (final : s.isFinal = true) :
    s.isOk = true ↔ s ≠ .failed ∧ s ≠ .aborted := by
  cases s <;> simp_all [isOk, isFinal]

namespace Settled

variable {ts : Targets} {keepGoing : Bool}

/-- As long as no target fails, all of them complete. -/
theorem isOk_of_before (settled : Settled ts keepGoing order state) (split : order = pre ++ post)
    (passed : ∀ name ∈ pre, state name ≠ .failed) : ∀ name ∈ pre, (state name).isOk = true := by
  apply forall_mem_of_earlier
  intro before name after inner earlier
  have place : order = before ++ name :: (after ++ post) := by
    rw [split, inner, List.append_assoc, List.cons_append]
  have member : name ∈ order := place ▸ List.mem_append_right _ List.mem_cons_self
  rw [TargetState.isOk_iff_of_isFinal (settled.final name member)]
  refine ⟨passed name (inner ▸ List.mem_append_right _ List.mem_cons_self), ?_⟩
  intro aborted
  rcases (settled.aborted before name _ place).mp aborted with halted | blocked
  · obtain ⟨_, former, member, failed⟩ := halted
    exact passed former (inner ▸ List.mem_append_left _ member) failed
  · obtain ⟨dependency, path, incomplete⟩ := blocked
    rw [earlier dependency (settled.ordered.before_trans place path)] at incomplete
    cases incomplete

/-- All targets complete exactly if none fails. -/
theorem isOk_iff (settled : Settled ts keepGoing order state) :
    (∀ name ∈ order, (state name).isOk = true) ↔ ∀ name ∈ order, state name ≠ .failed := by
  constructor
  · intro complete name member failed
    have ok := complete name member
    rw [failed] at ok
    cases ok
  · exact settled.isOk_of_before (List.append_nil order).symm

/-- A run that does not keep going either completes or halts at the first failure. -/
theorem halts (settled : Settled ts false order state) :
    (∀ name ∈ order, (state name).isOk = true) ∨
      ∃ pre name post, order = pre ++ name :: post ∧
        (∀ earlier ∈ pre, (state earlier).isOk = true) ∧ state name = .failed ∧
        ∀ later ∈ post, state later = .aborted := by
  rcases exists_firstFailed order state with passed | ⟨name, pre, post, split, passed, failed⟩
  · exact .inl (settled.isOk_iff.mpr passed)
  · refine .inr ⟨pre, name, post, split, settled.isOk_of_before split passed, failed, ?_⟩
    intro later member
    obtain ⟨between, rest, inner⟩ := List.append_of_mem member
    have place : order = (pre ++ name :: between) ++ later :: rest := by simp [split, inner]
    exact (settled.aborted _ later rest place).mpr (.inl ⟨rfl, name, by simp, failed⟩)

/-- A run that keeps going aborts those that depend on a failure. -/
theorem aborted_iff (settled : Settled ts true order state) :
    ∀ name ∈ order, (state name = .aborted ↔
      ∃ dependency, TransGen ts.Depends name dependency ∧ state dependency = .failed) := by
  apply forall_mem_of_earlier
  intro pre name post split earlier
  rw [settled.aborted pre name post split]
  constructor
  · rintro (⟨impossible, _⟩ | ⟨dependency, path, incomplete⟩)
    · cases impossible
    · have before := settled.ordered.before_trans split path
      have member : dependency ∈ order := split ▸ List.mem_append_left _ before
      by_cases failed : state dependency = .failed
      · exact ⟨dependency, path, failed⟩
      · have aborted : state dependency = .aborted := by
          by_contra other
          rw [(TargetState.isOk_iff_of_isFinal (settled.final dependency member)).mpr
            ⟨failed, other⟩] at incomplete
          cases incomplete
        obtain ⟨origin, further, failed⟩ := (earlier dependency before).mp aborted
        exact ⟨origin, path.trans further, failed⟩
  · rintro ⟨dependency, path, failed⟩
    refine .inr ⟨dependency, path, ?_⟩
    rw [failed]
    rfl

end Settled
end BuildEngine
