import BuildEngine.Files.Memory
import BuildEngine.Proofs.Leading
import BuildEngine.Staleness

/-! Currency: which sources are newer than what is derived from them, over files in memory. What is
evaluated step by step, with a fault as soon as a source is missing, has a closed form: a missing
source decides, wherever it stands, and otherwise each source is judged for itself. -/

namespace BuildEngine

open BuildEngine.Number Engine

namespace MemoryFiles

variable {m : MemoryFiles} {path : Path}

/-- The time of what is at a path, if there is something; directories are as old as can be. -/
def timeOf? (m : MemoryFiles) (path : Path) : Option Binary64 :=
  match m.files.find? path with
  | some file => some file.time
  | none => if m.isDirectory path then some .zero else none

theorem isSome_timeOf? (m : MemoryFiles) (path : Path) :
    (m.timeOf? path).isSome = m.contains path := by
  unfold timeOf? contains Table.contains
  cases m.files.find? path with
  | some file => rfl
  | none => cases m.isDirectory path <;> rfl

theorem timeOf?_eq_none : m.timeOf? path = none ↔ m.contains path = false := by
  rw [← isSome_timeOf?, Option.isSome_eq_false_iff, Option.isNone_iff_eq_none]

/-- Whatever is there has a time. -/
theorem exists_timeOf? (there : m.contains path = true) : ∃ time, m.timeOf? path = some time :=
  Option.isSome_iff_exists.mp ((isSome_timeOf? m path).trans there)

theorem modified_of_timeOf? {time : Binary64} (found : m.timeOf? path = some time) :
    m.modified path = .ok time := by
  unfold timeOf? at found
  unfold modified
  cases stored : m.files.find? path with
  | some file =>
    rw [stored] at found
    exact congrArg Except.ok (Option.some.inj found)
  | none =>
    rw [stored] at found
    by_cases directory : m.isDirectory path = true
    · simp only [directory, if_true] at found ⊢
      exact congrArg Except.ok (Option.some.inj found)
    · simp [directory] at found

end MemoryFiles

namespace Staleness

/-- The path of a source: its name, seen from the base if there is one. -/
def seenFrom (base : Option Path) (name : Path) : Path := (base.map (·.join name)).getD name

/-- The paths that a mapper derives from the name of a source, seen from the destination, or from the
base if there is none. -/
def derivedFrom (mapper : Mapper) (base destination : Option Path) (name : Path) : List Path :=
  (mapper.map name.text).map fun other => seenFrom (destination.or base) (.ofString other)

/-- Whether a derived file is missing or strictly older than its source. -/
def isBehind (m : MemoryFiles) (source derived : Path) : Bool :=
  match m.timeOf? derived, m.timeOf? source with
  | some written, some time => written.lt time
  | found, _ => found.isNone

/-- Whether a derived file is missing or strictly older than the source of a name. -/
def isStale (m : MemoryFiles) (mapper : Mapper) (base destination : Option Path) (name : Path) :
    Bool :=
  (derivedFrom mapper base destination name).any (isBehind m (seenFrom base name))

/-- The first source that is missing. -/
def missing? (m : MemoryFiles) (base : Option Path) (names : List Path) : Option Path :=
  (names.map (seenFrom base)).find? (!m.contains ·)

variable {m : MemoryFiles} {mapper : Mapper} {base destination : Option Path} {names : List Path}

theorem missing?_eq_none_iff :
    missing? m base names = none ↔ ∀ name ∈ names, m.contains (seenFrom base name) = true := by
  simp [missing?]

theorem sourcePath_eq (m : MemoryFiles) (base : Option Path) (name : Path) :
    sourcePath m base name =
      if m.contains (seenFrom base name) then .ok (seenFrom base name)
      else .error (Problem.missingSource (seenFrom base name)).fault := rfl

theorem isOlder_eq {source : Path} (there : m.contains source = true) (derived : Path) :
    isOlder m derived source = .ok (isBehind m source derived) := by
  obtain ⟨time, known⟩ := MemoryFiles.exists_timeOf? there
  have asked : FileSystem.modified m source = .ok time := MemoryFiles.modified_of_timeOf? known
  unfold isOlder isBehind
  rw [known]
  cases written : m.timeOf? derived with
  | none =>
    have absent : FileSystem.contains m derived = false := MemoryFiles.timeOf?_eq_none.mp written
    rw [absent]
    rfl
  | some old =>
    have present : FileSystem.contains m derived = true := by
      change m.contains derived = true
      rw [← MemoryFiles.isSome_timeOf?, written]
      rfl
    have answered : FileSystem.modified m derived = .ok old :=
      MemoryFiles.modified_of_timeOf? written
    rw [present, answered, asked]
    rfl

/-- Looking at derived files one after another is looking whether any of them is behind. -/
theorem isAnyOlder_eq {source : Path} (there : m.contains source = true) (derived : List Path) :
    isAnyOlder m source derived = .ok (derived.any (isBehind m source)) := by
  induction derived with
  | nil => rfl
  | cons first rest ih =>
    rw [isAnyOlder, isOlder_eq there, List.any_cons]
    cases isBehind m source first with
    | true => rfl
    | false => exact ih

/-- The stale sources are those that are stale each by itself, unless a source is missing. -/
theorem staleSources_eq (m : MemoryFiles) (mapper : Mapper) (base destination : Option Path)
    (names : List Path) :
    staleSources m mapper base destination names =
      match missing? m base names with
      | some path => .error (Problem.missingSource path).fault
      | none => .ok ((names.filter (isStale m mapper base destination)).map (seenFrom base)) := by
  induction names with
  | nil => rfl
  | cons name rest ih =>
    unfold staleSources missing?
    rw [sourcePath_eq, List.map_cons, List.find?_cons]
    cases there : m.contains (seenFrom base name) with
    | false => rfl
    | true =>
      have judged : isAnyOlder m (seenFrom base name) (derivedFrom mapper base destination name) =
          .ok (isStale m mapper base destination name) := isAnyOlder_eq there _
      change (do
        let stale ← isAnyOlder m (seenFrom base name) (derivedFrom mapper base destination name)
        let others ← staleSources m mapper base destination rest
        return if stale then seenFrom base name :: others else others) = _
      rw [judged, ih]
      simp only [Bool.not_true, missing?, List.filter_cons]
      cases (rest.map (seenFrom base)).find? (!m.contains ·) with
      | some path => rfl
      | none => cases isStale m mapper base destination name <;> rfl

/-- The paths of sources that are all there. -/
theorem mapM_sourcePath_eq (m : MemoryFiles) (base : Option Path) (names : List Path) :
    names.mapM (sourcePath m base) =
      match missing? m base names with
      | some path => .error (Problem.missingSource path).fault
      | none => .ok (names.map (seenFrom base)) := by
  induction names with
  | nil => rfl
  | cons name rest ih =>
    unfold missing?
    rw [List.mapM_cons, ih, sourcePath_eq, List.map_cons, List.find?_cons]
    cases m.contains (seenFrom base name) with
    | false => rfl
    | true =>
      simp only [if_pos, Bool.not_true, missing?]
      cases (rest.map (seenFrom base)).find? (!m.contains ·) <;> rfl

/-- Whether a source is strictly newer than a time. -/
def isNewer (m : MemoryFiles) (time : Binary64) (source : Path) : Bool :=
  (m.timeOf? source).any time.lt

theorem isAnyNewer_eq {time : Binary64} {sources : List Path}
    (there : ∀ source ∈ sources, m.contains source = true) :
    isAnyNewer m time sources = .ok (sources.any (isNewer m time)) := by
  induction sources with
  | nil => rfl
  | cons source rest ih =>
    obtain ⟨written, known⟩ := MemoryFiles.exists_timeOf? (there source List.mem_cons_self)
    have asked : FileSystem.modified m source = .ok written := MemoryFiles.modified_of_timeOf? known
    have newer : isNewer m time source = time.lt written := by rw [isNewer, known, Option.any_some]
    rw [isAnyNewer, asked, List.any_cons, newer,
      ih fun other later => there other (List.mem_cons_of_mem _ later)]
    change (if time.lt written = true then _ else _) = _
    cases time.lt written <;> rfl

theorem isUpToDate_mapped (m : MemoryFiles) (mapper : Mapper) (base derived : Option Path)
    (names : List Path) :
    isUpToDate m derived (some mapper) base names =
      (staleSources m mapper base none names).map (·.isEmpty) := rfl

/-- A single derived file that is missing decides before any source is looked for. -/
theorem isUpToDate_of_absent {derived : Path} (absent : m.contains derived = false) :
    isUpToDate m (some derived) none base names = .ok false := by
  have unseen : FileSystem.contains m derived = false := absent
  unfold isUpToDate
  dsimp only
  rw [unseen]
  rfl

theorem isUpToDate_of_present {derived : Path} {time : Binary64}
    (known : m.timeOf? derived = some time) :
    isUpToDate m (some derived) none base names =
      match missing? m base names with
      | some path => .error (Problem.missingSource path).fault
      | none => .ok !(names.any fun name => isNewer m time (seenFrom base name)) := by
  have present : FileSystem.contains m derived = true := by
    change m.contains derived = true
    rw [← MemoryFiles.isSome_timeOf?, known]
    rfl
  have asked : FileSystem.modified m derived = .ok time := MemoryFiles.modified_of_timeOf? known
  unfold isUpToDate
  dsimp only
  rw [present, asked, mapM_sourcePath_eq]
  cases absent : missing? m base names with
  | some path => rfl
  | none =>
    have there : ∀ source ∈ names.map (seenFrom base), m.contains source = true := by
      simpa using missing?_eq_none_iff.mp absent
    change (do return !(← isAnyNewer m time (names.map (seenFrom base))) : Except Fault Bool) = _
    rw [isAnyNewer_eq there, List.any_map]
    rfl

end Staleness
end BuildEngine
