import BuildEngine.Files.Disk
import BuildEngine.Proofs.Currency

/-! Freshness: what comes of asking whether what is derived from sources is current, be it a file or
what a mapper names, over any files that have a time wherever they are. A missing source is a fault,
wherever it stands among the sources; otherwise what is derived is judged source by source. -/

namespace BuildEngine

open BuildEngine.Number

/-- File systems in which whatever is there has a time. -/
class FileSystem.IsDated (φ : Type) [FileSystem φ] : Prop where
  exists_time {files : φ} {path : Path} (there : FileSystem.contains files path = true) :
    ∃ time, FileSystem.modified files path = .ok time

instance : FileSystem.IsDated MemoryFiles where
  exists_time there := by
    obtain ⟨time, known⟩ := MemoryFiles.exists_timeOf? there
    exact ⟨time, MemoryFiles.modified_of_timeOf? known⟩

instance : FileSystem.IsDated Disk where
  exists_time {files path} there := by
    change (files.entry path).isOk = true at there
    change ∃ time, (do return (← files.entry path).time) = Except.ok time
    cases found : files.entry path with
    | error => rw [found] at there; cases there
    | ok entry => exact ⟨entry.time, rfl⟩

/-- Names of sources, and the directory from which they are seen. -/
structure Sources where
  base : Option Path
  names : List Path

/-- What is asked of sources: whether a file is current that is derived from them, or whether all is
that a mapper names. -/
structure Inquiry where
  derived : Option Path
  rule : Option Mapper

section Judging

variable {φ : Type} [FileSystem φ]

/-- Something derived is there and was not written before its source. -/
def Staleness.Follows (files : φ) (source derived : Path) : Prop :=
  FileSystem.contains files derived = true ∧ ∀ time written,
    FileSystem.modified files source = .ok time → FileSystem.modified files derived = .ok written →
      written.lt time = false

/-- All sources are there. -/
def Sources.Complete (files : φ) (s : Sources) : Prop :=
  ∀ name ∈ s.names, FileSystem.contains files (Staleness.seenFrom s.base name) = true

namespace Inquiry

/-- What is derived from a source. With a mapper, this is what the mapper names and nothing else. -/
def derivedOf (q : Inquiry) (s : Sources) (name : Path) : List Path :=
  match q.rule with
  | some mapper => Staleness.derivedFrom mapper s.base none name
  | none => q.derived.toList

/-- All that is derived from some sources is current. -/
def Current (files : φ) (q : Inquiry) (s : Sources) : Prop :=
  ∀ name ∈ s.names, ∀ derived ∈ q.derivedOf s name,
    Staleness.Follows files (Staleness.seenFrom s.base name) derived

end Inquiry

/-- A source is said to be missing. -/
def Fault.IsMissingSource (fault : Fault) : Prop :=
  ∃ path place, fault = .configuration (.missingSource path) place

namespace Staleness

variable {files : φ} {base : Option Path} {names : List Path} {source derived : Path}

theorem sourcePath_cases (files : φ) (base : Option Path) (name : Path) :
    (FileSystem.contains files (seenFrom base name) = true ∧
      sourcePath files base name = .ok (seenFrom base name)) ∨
    (FileSystem.contains files (seenFrom base name) = false ∧
      ∃ fault : Fault, fault.IsMissingSource ∧ sourcePath files base name = .error fault) := by
  unfold sourcePath
  cases there : FileSystem.contains files (seenFrom base name) with
  | true => exact .inl ⟨rfl, if_pos there⟩
  | false => exact .inr ⟨rfl, _, ⟨_, _, rfl⟩, if_neg (ne_true_of_eq_false there)⟩

/-- What is asked of sources ends with the fault of a missing one, if one is missing, and otherwise
as wanted. -/
def Settles {α : Type} (files : φ) (s : Sources) (result : Except Fault α) (wanted : α → Prop) :
    Prop :=
  (¬ s.Complete files ∧ ∃ fault : Fault, fault.IsMissingSource ∧ result = .error fault) ∨
    (s.Complete files ∧ ∃ a, result = .ok a ∧ wanted a)

namespace Settles

variable {α β : Type} {s : Sources} {result : Except Fault α} {next : α → Except Fault β}
variable {wanted : α → Prop} {later : β → Prop}

theorem bind (settles : Settles files s result wanted)
    (then_ : ∀ a, s.Complete files → wanted a → ∃ b, next a = .ok b ∧ later b) :
    Settles files s (result >>= next) later := by
  rcases settles with ⟨incomplete, fault, missing, rfl⟩ | ⟨complete, a, rfl, holds⟩
  · exact .inl ⟨incomplete, fault, missing, rfl⟩
  · exact .inr ⟨complete, then_ a complete holds⟩

/-- The first source is looked for before the others. -/
theorem cons {name : Path} {next : Path → Except Fault β}
    (rest : FileSystem.contains files (seenFrom base name) = true →
      Settles files ⟨base, names⟩ (next (seenFrom base name)) later) :
    Settles files ⟨base, name :: names⟩ (sourcePath files base name >>= next) later := by
  have split : Sources.Complete files ⟨base, name :: names⟩ ↔
      FileSystem.contains files (seenFrom base name) = true ∧
        Sources.Complete files ⟨base, names⟩ := List.forall_mem_cons
  unfold Settles
  rw [split]
  rcases sourcePath_cases files base name with ⟨there, found⟩ | ⟨absent, fault, missing, fails⟩
  · rw [found, and_iff_right there]
    exact rest there
  · refine .inl ⟨fun complete => ?_, fault, missing, by rw [fails]; rfl⟩
    rw [absent] at complete
    cases complete.1

end Settles

theorem settles_mapM_sourcePath (files : φ) (base : Option Path) (names : List Path) :
    Settles files ⟨base, names⟩ (names.mapM (sourcePath files base))
      (· = names.map (seenFrom base)) := by
  induction names with
  | nil => exact .inr ⟨nofun, [], rfl, rfl⟩
  | cons name rest ih =>
    rw [List.mapM_cons]
    refine .cons fun _ => ih.bind fun paths _ same => ?_
    exact ⟨_, rfl, by rw [same, List.map_cons]⟩

theorem follows_iff {time written : Binary64}
    (present : FileSystem.contains files derived = true)
    (known : FileSystem.modified files source = .ok time)
    (held : FileSystem.modified files derived = .ok written) :
    Follows files source derived ↔ written.lt time = false := by
  refine ⟨fun follows => follows.2 time written known held, fun fresh => ⟨present, ?_⟩⟩
  intro time' written' known' held'
  cases known.symm.trans known'
  cases held.symm.trans held'
  exact fresh

variable [FileSystem.IsDated φ]

theorem isOlder_of_there (there : FileSystem.contains files source = true) (derived : Path) :
    ∃ older, isOlder files derived source = .ok older ∧
      (older = false ↔ Follows files source derived) := by
  obtain ⟨time, known⟩ := FileSystem.IsDated.exists_time there
  unfold isOlder
  cases present : FileSystem.contains files derived with
  | false =>
    refine ⟨true, rfl, nofun, fun follows => ?_⟩
    exact absurd follows.1 (ne_true_of_eq_false present)
  | true =>
    obtain ⟨written, held⟩ := FileSystem.IsDated.exists_time present
    exact ⟨written.lt time, by rw [known, held]; rfl, (follows_iff present known held).symm⟩

theorem isAnyOlder_of_there (there : FileSystem.contains files source = true)
    (paths : List Path) : ∃ older, isAnyOlder files source paths = .ok older ∧
      (older = false ↔ ∀ derived ∈ paths, Follows files source derived) := by
  induction paths with
  | nil => exact ⟨false, rfl, fun _ => nofun, fun _ => rfl⟩
  | cons first rest ih =>
    obtain ⟨older, asked, judged⟩ := isOlder_of_there there first
    obtain ⟨others, looked, sum⟩ := ih
    rw [isAnyOlder, asked, List.forall_mem_cons, ← judged, ← sum]
    cases older with
    | true => exact ⟨true, rfl, by simp⟩
    | false => exact ⟨others, looked, by simp⟩

theorem isAnyNewer_of_there {time : Binary64} (present : FileSystem.contains files derived = true)
    (written : FileSystem.modified files derived = .ok time) {paths : List Path}
    (there : ∀ source ∈ paths, FileSystem.contains files source = true) :
    ∃ newer, isAnyNewer files time paths = .ok newer ∧
      (newer = false ↔ ∀ source ∈ paths, Follows files source derived) := by
  induction paths with
  | nil => exact ⟨false, rfl, fun _ => nofun, fun _ => rfl⟩
  | cons source rest ih =>
    obtain ⟨first, others⟩ := List.forall_mem_cons.mp there
    obtain ⟨saved, known⟩ := FileSystem.IsDated.exists_time first
    obtain ⟨newer, looked, sum⟩ := ih others
    rw [isAnyNewer, known, List.forall_mem_cons, follows_iff present known written, ← sum]
    change ∃ newer, (if time.lt saved = true then _ else _) = _ ∧ _
    cases time.lt saved with
    | true => exact ⟨true, rfl, by simp⟩
    | false => exact ⟨newer, looked, by simp⟩

theorem settles_staleSources (files : φ) (mapper : Mapper) (base : Option Path)
    (names : List Path) :
    Settles files ⟨base, names⟩ (staleSources files mapper base none names) fun stale =>
      stale = [] ↔ ∀ name ∈ names, ∀ derived ∈ derivedFrom mapper base none name,
        Follows files (seenFrom base name) derived := by
  induction names with
  | nil => exact .inr ⟨nofun, [], rfl, fun _ => nofun, fun _ => rfl⟩
  | cons name rest ih =>
    refine Settles.cons fun there => ?_
    obtain ⟨older, asked, judged⟩ :=
      isAnyOlder_of_there there (derivedFrom mapper base none name)
    change Settles files _ (do
      let stale ← isAnyOlder files (seenFrom base name) (derivedFrom mapper base none name)
      let others ← staleSources files mapper base none rest
      return if stale then seenFrom base name :: others else others) _
    rw [asked]
    refine ih.bind fun others _ sum => ⟨_, rfl, ?_⟩
    rw [List.forall_mem_cons, ← judged, ← sum]
    cases older <;> simp

/-- Whether what is derived from sources is current is settled, if it is known what that is. -/
theorem settles_isUpToDate {q : Inquiry} (given : q.derived.isSome = true ∨ q.rule.isSome = true)
    (there : ∀ path, q.derived = some path → FileSystem.contains files path = true)
    (s : Sources) :
    Settles files s (isUpToDate files q.derived q.rule s.base s.names) fun current =>
      current = true ↔ q.Current files s := by
  unfold Inquiry.Current Inquiry.derivedOf
  cases rule : q.rule with
  | some mapper =>
    change Settles files s
      (staleSources files mapper s.base none s.names >>= fun stale => .ok stale.isEmpty) _
    refine (settles_staleSources files mapper s.base s.names).bind fun stale _ judged => ?_
    exact ⟨_, rfl, by rw [List.isEmpty_iff, judged]⟩
  | none =>
    obtain ⟨path, derives⟩ := Option.isSome_iff_exists.mp (given.resolve_right (by simp [rule]))
    have present := there path derives
    obtain ⟨time, written⟩ := FileSystem.IsDated.exists_time present
    rw [derives, isUpToDate, present, written]
    refine (settles_mapM_sourcePath files s.base s.names).bind fun paths complete same => ?_
    subst same
    have found : ∀ source ∈ s.names.map (seenFrom s.base),
        FileSystem.contains files source = true := List.forall_mem_map.mpr complete
    obtain ⟨newer, looked, judged⟩ := isAnyNewer_of_there present written found
    refine ⟨!newer, ?_, by simpa using judged⟩
    change (do return !(← isAnyNewer files time (s.names.map (seenFrom s.base)))) = Except.ok !newer
    rw [looked]
    rfl

end Staleness
end Judging
end BuildEngine
