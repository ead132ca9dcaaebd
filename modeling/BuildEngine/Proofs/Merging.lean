import BuildEngine.Proofs.Currency

/-! Merging. A mapper that maps all names to the text of a path derives that path, since a path is
read back from its text; so asking whether the path is as new as its sources is asking whether all
that the mapper derives from them is. -/

namespace BuildEngine

open BuildEngine.Number

namespace Text

/-- A text has the fields that are put between single cuts in it, whatever cuts stand in front. -/
theorem fields_of_intercalate {names : List String} {front : List Char} {cut : Char → Bool}
    {c : Char} (cuts : cut c = true) (fronts : ∀ d ∈ front, cut d = true)
    (whole : ∀ name ∈ names, name ≠ "" ∧ ∀ d ∈ name.toList, cut d = false) :
    fields cut (String.ofList (front ++ [c].intercalate (names.map String.toList))) = names := by
  have pieces : (splitOn cut (front ++ [c].intercalate (names.map String.toList))).filter
      (!·.isEmpty) = names.map String.toList := by
    induction front with
    | cons d front ih =>
      have first := fronts d List.mem_cons_self
      rw [List.cons_append, splitOn, if_pos first, List.filter_cons_of_neg (by simp)]
      exact ih fun d later => fronts d (List.mem_cons_of_mem _ later)
    | nil =>
      rw [List.nil_append]
      by_cases none_ : names = []
      · subst none_
        rfl
      · have uncut : ∀ piece ∈ names.map String.toList, ∀ d ∈ piece, cut d = false := by
          simpa using fun name member => (whole name member).2
        rw [splitOn_intercalate (by simpa using none_) cuts uncut]
        refine List.filter_eq_self.mpr ?_
        simpa using fun name member => (whole name member).1
  rw [fields, String.toList_ofList, pieces, List.map_map]
  simp [Function.comp_def]

end Text

namespace Path

variable {p : Path}

/-- The names of a path can stand between slashes: none is empty, is a point, or has a slash. -/
def IsProper (p : Path) : Prop :=
  ∀ name ∈ p.names, name ≠ "" ∧ name ≠ "." ∧ ∀ c ∈ name.toList, (c == '/') = false

/-- Whatever is read as a path is proper. -/
theorem isProper_ofString (s : String) : (ofString s).IsProper := by
  intro name member
  obtain ⟨field, kept⟩ := List.mem_filter.mp member
  obtain ⟨piece, among, rfl⟩ := List.mem_map.mp field
  obtain ⟨listed, some⟩ := List.mem_filter.mp among
  refine ⟨fun none => ?_, by simpa using kept, ?_⟩
  · simp [String.ofList_eq_empty_iff.mp none] at some
  · rw [String.toList_ofList]
    exact Text.whole_of_mem_splitOn listed

theorem readAnchor_append (a : Anchor) {cs : List Char}
    (plain : ∀ c ∈ cs.head?, (c == '/') = false) : readAnchor (a.text.toList ++ cs) = a := by
  have none_ : cs.takeWhile (· == '/') = [] := by
    cases cs with
    | nil => rfl
    | cons c rest => exact List.takeWhile_cons_of_neg (by simpa using plain c rfl)
  cases a <;> simp [readAnchor, Anchor.text, none_]

/-- A proper path is read back from its text. -/
theorem ofString_text (proper : p.IsProper) : ofString p.text = p := by
  obtain ⟨anchor, names⟩ := p
  unfold text
  split
  · rename_i here
    obtain ⟨rfl, rfl⟩ := here
    decide +kernel
  · have written : anchor.text ++ String.intercalate "/" names =
        String.ofList (anchor.text.toList ++ ['/'].intercalate (names.map String.toList)) := by
      apply String.toList_injective
      simp [String.toList_intercalate]
    have plain : ∀ c ∈ (['/'].intercalate (names.map String.toList)).head?, (c == '/') = false := by
      cases names with
      | nil => exact fun _ none => absurd none (by simp)
      | cons name rest =>
        obtain ⟨some, -, whole⟩ := proper name List.mem_cons_self
        obtain ⟨c, more, spelled⟩ :=
          List.exists_cons_of_ne_nil (mt String.toList_eq_nil_iff.mp some)
        have first := whole c (spelled ▸ List.mem_cons_self)
        cases rest <;> simpa [spelled] using first
    have slashes : ∀ c ∈ anchor.text.toList, (c == '/') = true := by
      cases anchor <;> simp [Anchor.text]
    rw [ofString, written, String.toList_ofList, readAnchor_append anchor plain,
      Text.fields_of_intercalate (by rfl) slashes fun name member =>
        ⟨(proper name member).1, (proper name member).2.2⟩]
    rw [List.filter_eq_self.mpr]
    simpa using fun name member => (proper name member).2.1

end Path

namespace Staleness

variable {m : MemoryFiles} {base : Option Path} {names : List Path} {target source name : Path}

theorem derivedFrom_merge (proper : target.IsProper) (absolute : target.isAbsolute = true)
    (base : Option Path) (name : Path) :
    derivedFrom (.merge target.text) base none name = [target] := by
  change [seenFrom (Option.or none base) (.ofString target.text)] = [target]
  rw [Path.ofString_text proper, Option.none_or]
  cases base with
  | none => rfl
  | some directory => exact congrArg (fun path => [path]) (Path.join_of_isAbsolute absolute)

/-- With all names mapped to one path, a missing source decides, and otherwise all is current if the
path is behind none of the sources. -/
theorem isUpToDate_merge (proper : target.IsProper) (absolute : target.isAbsolute = true)
    (m : MemoryFiles) (base derived : Option Path) (names : List Path) :
    isUpToDate m derived (some (.merge target.text)) base names =
      match missing? m base names with
      | some path => .error (Problem.missingSource path).fault
      | none => .ok !(names.any fun name => isBehind m (seenFrom base name) target) := by
  have stale (name : Path) : isStale m (.merge target.text) base none name =
      isBehind m (seenFrom base name) target := by
    rw [isStale, derivedFrom_merge proper absolute, List.any_cons, List.any_nil, Bool.or_false]
  rw [isUpToDate_mapped, staleSources_eq]
  cases missing? m base names with
  | some path => rfl
  | none =>
    refine congrArg Except.ok (Bool.eq_iff_iff.mpr ?_)
    simp [stale]

/-- That a path is older than a source is that the source is newer than the path. -/
theorem isBehind_eq_isNewer {written : Binary64} (known : m.timeOf? target = some written) :
    isBehind m source target = isNewer m written source := by
  unfold isBehind isNewer
  rw [known]
  cases m.timeOf? source <;> rfl

theorem isBehind_of_absent (absent : m.contains target = false) :
    isBehind m source target = true := by
  unfold isBehind
  rw [MemoryFiles.timeOf?_eq_none.mpr absent]
  cases m.timeOf? source <;> rfl

/-- Asking whether a path is as new as its sources, and asking so of all that a mapper derives which
maps every name to the text of the path, have one answer wherever there is a source and all sources
are there. They differ only where the path is missing and so is a source, or there is no source. -/
theorem isUpToDate_agrees_with_merge (proper : target.IsProper)
    (absolute : target.isAbsolute = true) (m : MemoryFiles) (base : Option Path)
    (names : List Path) :
    (names ≠ [] → (∀ name ∈ names, m.contains (seenFrom base name) = true) → ∃ answer,
      isUpToDate m (some target) none base names = .ok answer ∧
        isUpToDate m none (some (.merge target.text)) base names = .ok answer) ∧
    (isUpToDate m (some target) none base names =
        isUpToDate m none (some (.merge target.text)) base names ↔
      m.contains target = true ∨
        names ≠ [] ∧ ∀ name ∈ names, m.contains (seenFrom base name) = true) := by
  rw [isUpToDate_merge proper absolute, ← missing?_eq_none_iff]
  cases known : m.timeOf? target with
  | some written =>
    have there : m.contains target = true := by
      rw [← MemoryFiles.isSome_timeOf?, known]
      rfl
    have same : (fun name => isBehind m (seenFrom base name) target) =
        fun name => isNewer m written (seenFrom base name) :=
      funext fun _ => isBehind_eq_isNewer known
    rw [isUpToDate_of_present known, same]
    refine ⟨fun _ complete => ?_, fun _ => .inl there, fun _ => rfl⟩
    rw [complete]
    exact ⟨_, rfl, rfl⟩
  | none =>
    have absent := MemoryFiles.timeOf?_eq_none.mp known
    rw [isUpToDate_of_absent absent]
    simp only [isBehind_of_absent absent, absent, Bool.false_eq_true, false_or]
    cases missing? m base names with
    | some path => simp
    | none => cases names <;> simp

/-- A file that was written when its only source was. -/
def built : MemoryFiles where
  files := .ofList [(⟨.root, ["src", "a.c"]⟩, {}), (⟨.root, ["app"]⟩, {})]

def builtApp : Path := .ofString "/app"

theorem isUpToDate_agrees_with_merge_built :
    (builtApp.IsProper ∧ builtApp.isAbsolute = true ∧
      built.contains (seenFrom (some ⟨.root, ["src"]⟩) (.ofString "a.c")) = true) ∧
    isUpToDate built (some builtApp) none (some ⟨.root, ["src"]⟩) [.ofString "a.c"] = .ok true ∧
    isUpToDate built none (some (.merge builtApp.text)) (some ⟨.root, ["src"]⟩) [.ofString "a.c"] =
      .ok true := by
  have proper : builtApp.IsProper := Path.isProper_ofString "/app"
  have absolute : builtApp.isAbsolute = true := by decide +kernel
  have there : built.contains (seenFrom (some ⟨.root, ["src"]⟩) (.ofString "a.c")) = true := by
    decide +kernel
  obtain ⟨answer, plain, merged⟩ := (isUpToDate_agrees_with_merge proper absolute built
    (some ⟨.root, ["src"]⟩) [.ofString "a.c"]).1 (List.cons_ne_nil _ _) (by simpa using there)
  have current : (isUpToDate built (some builtApp) none (some ⟨.root, ["src"]⟩)
      [.ofString "a.c"]).toOption = some true := by
    decide +kernel
  rw [plain] at current
  cases current
  exact ⟨⟨proper, absolute, there⟩, plain, merged⟩

end Staleness
end BuildEngine
