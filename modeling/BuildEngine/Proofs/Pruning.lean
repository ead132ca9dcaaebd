import BuildEngine.Proofs.TreeRemoval

/-! Removal of listed files together with the directories that they leave empty. Each directory
between the files and their base is looked at once, the deepest first, so when its turn comes all that
could still be removed from below it is gone: what it holds then, it holds in the end. -/

namespace BuildEngine

namespace Path

variable {p q base rest : Path}

theorem join_of_relative (relative : p.isAbsolute = false) :
    base.join p = ⟨base.anchor, base.names ++ p.names⟩ := by
  rw [join, if_neg (ne_true_of_eq_false relative)]

theorem anchor_of_relative (relative : p.isAbsolute = false) : p.anchor = .relative := by
  simpa [isAbsolute] using relative

theorem relativeTo_join (relative : p.isAbsolute = false) :
    (base.join p).relativeTo? base = some p := by
  rw [join_of_relative relative, relativeTo?, if_pos ⟨rfl, by simp⟩, List.drop_left]
  obtain ⟨_, names⟩ := p
  cases anchor_of_relative relative
  rfl

/-- What lies below a base is what is joined to it, but for the base itself. -/
theorem isBelow_iff_join :
    q.isBelow base = true ↔ ∃ rest : Path, rest.isAbsolute = false ∧ rest ≠ .here ∧
      base.join rest = q := by
  rw [isBelow_iff_exists]
  constructor
  · rintro ⟨name, names, rfl⟩
    exact ⟨⟨.relative, name :: names⟩, rfl, by simp [here], join_of_relative rfl⟩
  · rintro ⟨⟨_, names⟩, relative, other, rfl⟩
    cases anchor_of_relative relative
    cases names with
    | nil => exact absurd rfl other
    | cons name names => exact ⟨name, names, join_of_relative rfl⟩

theorem isBelow_join (relative : p.isAbsolute = false) (relative' : rest.isAbsolute = false) :
    (base.join p).isBelow (base.join rest) = true ↔ p.isBelow rest = true := by
  rw [join_of_relative relative, join_of_relative relative', isBelow_iff, isBelow_iff,
    anchor_of_relative relative, anchor_of_relative relative']
  simp

/-- What lies below a path has more parts. -/
theorem parts_lt_of_isBelow (below : p.isBelow q = true) : q.parts.length < p.parts.length := by
  obtain ⟨anchor, -, longer⟩ := isBelow_iff.mp below
  have same : p.isAbsolute = q.isAbsolute := by rw [isAbsolute, isAbsolute, anchor]
  unfold parts
  rw [same]
  split <;> simpa using longer

end Path

namespace MemoryFiles

variable {m mid after : MemoryFiles} {gone : Path → Prop} {first p : Path} {rest : List Path}

/-- A candidate was a directory, and holds nothing in the end. -/
structure Vacated (m : MemoryFiles) (candidates : List Path) (after : MemoryFiles) (p : Path) :
    Prop where
  candidate : p ∈ candidates
  directory : m.isDirectory p = true
  bare : ∀ q, after.contains q = true → q.isBelow p = false

/-- Directories that are no deeper than one that holds something leave that to it. -/
theorem Vacated.cons_iff_of_occupied (removes : m.Removes (m.Vacated rest after) after)
    (deepest : ∀ q ∈ rest, q.parts.length ≤ first.parts.length)
    (occupied : m.isDirectory first = true → ∃ q, m.contains q = true ∧ q.isBelow first = true) :
    m.Vacated (first :: rest) after p ↔ m.Vacated rest after p := by
  constructor
  · rintro ⟨candidate, directory, bare⟩
    refine ⟨(List.mem_cons.mp candidate).resolve_left ?_, directory, bare⟩
    rintro rfl
    obtain ⟨q, there, below⟩ := occupied directory
    have still : after.contains q = true := removes.contains_iff.mpr ⟨there, fun lost =>
      absurd (Path.parts_lt_of_isBelow below) (Nat.not_lt.mpr (deepest q lost.candidate))⟩
    rw [bare q still] at below
    cases below
  · rintro ⟨candidate, directory, bare⟩
    exact ⟨List.mem_cons_of_mem first candidate, directory, bare⟩

/-- A directory that holds nothing goes before the others. -/
theorem Vacated.cons_iff_of_bare (removes : m.Removes (· = first) mid)
    (further : mid.Removes (mid.Vacated rest after) after) (directory : m.isDirectory first = true)
    (bare : ∀ q, m.contains q = true → q.isBelow first = false) :
    m.Vacated (first :: rest) after p ↔ p = first ∨ mid.Vacated rest after p := by
  have old (q : Path) (there : after.contains q = true) : m.contains q = true :=
    (removes.contains_iff.mp (further.contains_iff.mp there).1).1
  constructor
  · rintro ⟨candidate, is, empty⟩
    refine or_iff_not_imp_left.mpr fun other => ?_
    exact ⟨(List.mem_cons.mp candidate).resolve_left other,
      (removes.directories p).mpr ⟨is, other⟩, empty⟩
  · rintro (rfl | ⟨candidate, is, empty⟩)
    · exact ⟨List.mem_cons_self, directory, fun q there => bare q (old q there)⟩
    · exact ⟨List.mem_cons_of_mem first candidate, ((removes.directories p).mp is).1, empty⟩

/-- What is there and is no directory is a file. -/
theorem IsSeparate.isFile_iff (separate : m.IsSeparate) (path : Path) :
    (m.contains path && !m.isDirectory path) = true ↔ m.files.contains path = true := by
  rw [Bool.and_eq_true, contains_iff, Bool.not_eq_true']
  constructor
  · rintro ⟨there, noDirectory⟩
    exact there.resolve_right (ne_true_of_eq_false noDirectory)
  · intro is
    exact ⟨.inl is, separate.apart path is⟩

/-- What goes if the files of a list are removed, together with the directories between them and their
base that hold nothing in the end. -/
inductive Pruned (m : MemoryFiles) (base : Path) (names : List String) (after : MemoryFiles)
    (p : Path) : Prop where
  | file {name : String} (listed : name ∈ names) (same : p = base / Path.ofString name)
      (is : m.files.contains p = true)
  | directory {name : String} (listed : name ∈ names)
      (above : (base / Path.ofString name).isBelow p = true) (below : p.isBelow base = true)
      (is : m.isDirectory p = true) (bare : ∀ q, after.contains q = true → q.isBelow p = false)

/-- The files of the list go first, then the directories. -/
theorem pruned_iff {base : Path} {names : List String} {candidates : List Path}
    (separate : m.IsSeparate) (removes : m.Removes (fun p =>
      (∃ name ∈ names, p = base / Path.ofString name) ∧ m.files.contains p = true) mid)
    (mem_candidates : ∀ q, q ∈ candidates ↔
      q.isBelow base = true ∧ ∃ name ∈ names, (base / Path.ofString name).isBelow q = true) :
    ((∃ name ∈ names, p = base / Path.ofString name) ∧ m.files.contains p = true) ∨
      mid.Vacated candidates after p ↔ m.Pruned base names after p := by
  constructor
  · rintro (⟨⟨name, listed, same⟩, is⟩ | ⟨candidate, directory, bare⟩)
    · exact .file listed same is
    · obtain ⟨below, name, listed, above⟩ := (mem_candidates p).mp candidate
      exact .directory listed above below ((removes.directories p).mp directory).1 bare
  · rintro (⟨listed, same, is⟩ | ⟨listed, above, below, is, bare⟩)
    · exact .inl ⟨⟨_, listed, same⟩, is⟩
    · refine .inr ⟨(mem_candidates p).mpr ⟨below, _, listed, above⟩, ?_, bare⟩
      refine (removes.directories p).mpr ⟨is, fun lost => ?_⟩
      rw [separate.apart p lost.2] at is
      cases is

end MemoryFiles

/-- A delete task that is given one list of files, and deletes the directories that they leave
empty. -/
structure World.DeletesListed {φ : Type} [FileSystem φ] (w : World φ) (id list : ObjectId)
    (base : Path) (names : List String) : Prop where
  configured : w.IsConfigured id
  policy : ¬ (w.readFlag id "quiet" = .ok true ∧ w.readFlag id "failonerror" = .ok true)
  file : w.isSet id "file" = false
  directory : w.isSet id "dir" = false
  lists : w.partsOf id Standard.fileList = [list]
  base : w.listDirectory list = .ok base
  names : w.listFiles list = .ok names
  thorough : w.readFlag id "includeemptydirs" = .ok true

namespace Engine

variable {w : World MemoryFiles} {id list : ObjectId} {base path : Path} {names : List String}
variable (leave : Policy MemoryFiles)

/-- The directories between a base and a path that is joined to it are those below the one and above
the other. -/
theorem exists_directoriesBetween (base : Path) {p : Path} (relative : p.isAbsolute = false) :
    ∃ between, directoriesBetween base (base.join p) = .ok between ∧
      ∀ q, q ∈ between ↔ q.isBelow base = true ∧ (base.join p).isBelow q = true := by
  refine ⟨_, by rw [directoriesBetween, Path.relativeTo_join relative], fun q => ?_⟩
  simp only [List.mem_map, List.mem_filter, Path.mem_parents, bne_iff_ne]
  constructor
  · rintro ⟨rest, ⟨below, other⟩, rfl⟩
    have relative' : rest.isAbsolute = false := by
      rw [Path.isAbsolute, ← (Path.isBelow_iff.mp below).1]
      exact relative
    exact ⟨Path.isBelow_iff_join.mpr ⟨rest, relative', other, rfl⟩,
      (Path.isBelow_join relative relative').mpr below⟩
  · rintro ⟨below, above⟩
    obtain ⟨rest, relative', other, rfl⟩ := Path.isBelow_iff_join.mp below
    exact ⟨rest, ⟨(Path.isBelow_join relative relative').mp above, other⟩, rfl⟩

/-- The names of a list that are files are removed, and the directories between these names and the
base come up. -/
theorem achieves_deleteNamed (orderly : w.IsOrderly id)
    (relative : ∀ name ∈ names, (Path.ofString name).isAbsolute = false) :
    Achieves w (deleteNamed leave id base names) fun between after =>
      (∀ q, q ∈ between ↔
        q.isBelow base = true ∧ ∃ name ∈ names, (base / Path.ofString name).isBelow q = true) ∧
      w.Without (fun p => (∃ name ∈ names, p = base / Path.ofString name) ∧
        w.files.files.contains p = true) after := by
  induction names generalizing w with
  | nil => exact .pure ⟨by simp, (World.Without.refl w).congr fun p _ => by simp⟩
  | cons name rest ih =>
    have here := relative name List.mem_cons_self
    have later other (member : other ∈ rest) := relative other (List.mem_cons_of_mem name member)
    obtain ⟨above, known, mem_above⟩ := exists_directoriesBetween base here
    unfold deleteNamed
    extract_lets path goOn
    refine .look (run_isThere path) (.look (run_isDirectory path) ?_)
    have goesOn {v : World MemoryFiles}
        (without : w.Without (fun p => p = path ∧ w.files.files.contains p = true) v) :
        Achieves v (goOn ()) fun between after =>
          (∀ q, q ∈ between ↔ q.isBelow base = true ∧
            ∃ other ∈ name :: rest, (base / Path.ofString other).isBelow q = true) ∧
          w.Without (fun p => (∃ other ∈ name :: rest, p = base / Path.ofString other) ∧
            w.files.files.contains p = true) after := by
      have still := orderly.without without fun p q there below lost => by
        rw [orderly.separate.bare q p lost.2 there] at below
        cases below
      refine .look (run_consult_ok known) (.bind (ih still later) ?_)
      rintro between after ⟨mem_between, more⟩
      refine .pure ⟨fun q => ?_, (without.trans more).congr fun p there => ?_⟩
      · rw [List.mem_eraseDups, List.mem_append, mem_above, mem_between, List.exists_mem_cons_iff,
          ← and_or_left]
        rfl
      · rw [without.files.isFile_iff, List.exists_mem_cons_iff]
        constructor
        · rintro (⟨same, is⟩ | ⟨listed, is, -⟩)
          · exact ⟨.inl same, is⟩
          · exact ⟨.inr listed, is⟩
        · rintro ⟨listed, is⟩
          by_cases same : p = path
          · exact .inl ⟨same, is⟩
          · exact .inr ⟨listed.resolve_left same, is, fun lost => same lost.1⟩
    split
    · rename_i file
      have is := (orderly.separate.isFile_iff path).mp file
      refine .bind (achieves_deleteEntry leave orderly (MemoryFiles.contains_iff.mpr (.inl is))
        (orderly.separate.bare path · is) .file) ?_
      rintro _ v ⟨-, without⟩
      refine goesOn (without.congr fun p _ => ⟨?_, And.left⟩)
      rintro rfl
      exact ⟨rfl, is⟩
    · rename_i noFile
      refine goesOn ((World.Without.refl w).congr fun p _ => ⟨False.elim, ?_⟩)
      rintro ⟨rfl, is⟩
      exact noFile ((orderly.separate.isFile_iff path).mpr is)

/-- Directories in an order in which deeper ones come first are removed if they hold nothing in the
end. -/
theorem achieves_deleteEmpty {candidates : List Path} (orderly : w.IsOrderly id)
    (deepestFirst : candidates.Pairwise fun p q => q.parts.length ≤ p.parts.length) :
    Achieves w (deleteEmpty leave id candidates) fun _ after =>
      w.Without (w.files.Vacated candidates after.files) after := by
  induction candidates generalizing w with
  | nil =>
    refine .pure ((World.Without.refl w).congr fun p _ => ⟨False.elim, fun vacated => ?_⟩)
    cases vacated.candidate
  | cons first rest ih =>
    obtain ⟨deepest, deepestFirst⟩ := List.pairwise_cons.mp deepestFirst
    unfold deleteEmpty
    extract_lets goOn decide
    have kept (occupied : w.files.isDirectory first = true →
        ∃ p, w.files.contains p = true ∧ p.isBelow first = true) :
        Achieves w (goOn false) fun _ after =>
          w.Without (w.files.Vacated (first :: rest) after.files) after := by
      refine .bind (ih orderly deepestFirst) fun _ after without => .pure ?_
      refine without.congr fun p _ => ?_
      rw [MemoryFiles.Vacated.cons_iff_of_occupied without.files deepest occupied]
    refine .look (run_isDirectory first) ?_
    split
    · rename_i directory
      refine .look (run_children directory) (.look rfl ?_)
      by_cases bare : ∀ p, w.files.contains p = true → p.isBelow first = false
      · rw [MemoryFiles.held_eq_nil bare]
        have there : w.files.contains first = true := MemoryFiles.contains_iff.mpr (.inr directory)
        refine .bind (achieves_deleteEntry leave orderly there bare .directory) ?_
        rintro _ v ⟨-, without⟩
        have still := orderly.without without fun p q there below lost => by
          rw [lost, bare p there] at below
          cases below
        refine .bind (ih still deepestFirst) fun _ after more => .pure ?_
        refine (without.trans more).congr fun p _ => ?_
        rw [MemoryFiles.Vacated.cons_iff_of_bare without.files more.files directory bare]
      · push Not at bare
        obtain ⟨p, there, below⟩ := bare
        obtain ⟨child, member, -⟩ := (orderly.rooted.isBelow_iff there).mp (by simpa using below)
        rw [List.isEmpty_eq_false_iff_exists_mem.mpr ⟨child, member⟩]
        exact .look rfl (kept fun _ => ⟨p, there, by simpa using below⟩)
    · rename_i noDirectory
      exact .look rfl (.look rfl (kept (absurd · noDirectory)))

theorem achieves_deleteList (orderly : w.IsOrderly id) (found : w.listDirectory list = .ok base)
    (listed : w.listFiles list = .ok names) (thorough : w.readFlag id "includeemptydirs" = .ok true)
    (relative : ∀ name ∈ names, (Path.ofString name).isAbsolute = false) :
    Achieves w (deleteList leave id list) fun _ after =>
      w.Without (w.files.Pruned base names after.files) after := by
  unfold deleteList
  refine .look (run_consult_ok found) (.look (run_consult_ok listed) ?_)
  extract_lets files
  refine .log id .info _ fun logged => ?_
  refine .bind (achieves_deleteNamed leave (orderly.thenLogged logged) relative) ?_
  rintro between v ⟨mem_between, named⟩
  have without := named.ofLogged
  have still := orderly.without without fun p q there below lost => by
    rw [orderly.separate.bare q p lost.2 there] at below
    cases below
  have reads : v.readFlag id "includeemptydirs" = .ok true := by
    rw [World.readFlag, without.read]
    exact thorough
  refine .look (run_consult_ok reads) ?_
  rw [if_pos rfl]
  extract_lets deepestFirst
  have ordered : deepestFirst.Pairwise fun p q => q.parts.length ≤ p.parts.length := by
    have sorted := @List.pairwise_mergeSort Path
      (fun p q => decide (q.parts.length ≤ p.parts.length)) (by grind) (by grind) between
    simpa using sorted
  refine .bind (achieves_deleteEmpty leave still ordered) fun count after more => ?_
  have whole : w.Without (w.files.Pruned base names after.files) after := by
    refine (without.trans more).congr fun p _ => ?_
    refine MemoryFiles.pruned_iff orderly.separate without.files fun q => ?_
    rw [List.mem_mergeSort, mem_between]
  split
  · exact ⟨(), _, rfl, whole.thenLogged _⟩
  · exact .pure whole

/-- A task that deletes the files of a list removes those of its names that are files, and the
directories between these names and the base that hold nothing in the end. Nothing is left to its
failure policy, and nothing else changes but what is logged: the base stays, and so do named
directories that are above no name. -/
theorem delete_prunes_list (deletes : w.DeletesListed id list base names) (rooted : w.files.IsRooted)
    (apart : ∀ p, w.files.files.contains p = true → w.files.isDirectory p = false)
    (relative : ∀ name ∈ names, (Path.ofString name).isAbsolute = false) :
    ∃ after, (delete leave id).run w = (.ok none, after) ∧
      w.Without (w.files.Pruned base names after.files) after := by
  obtain ⟨configured, policy, file, directory, lists, found, listed, thorough⟩ := deletes
  have separate := rooted.isSeparate_iff.mpr apart
  suffices achieves : Achieves w (delete leave id) fun status after =>
      status = none ∧ w.Without (w.files.Pruned base names after.files) after by
    obtain ⟨_, after, ran, rfl, without⟩ := achieves
    exact ⟨after, ran, without⟩
  unfold delete
  refine .look (run_observe _ w) (.look (run_observe _ w) (.look (run_observe _ w) ?_))
  unfold World.partsOf at lists
  rw [lists, file, directory]
  refine .look (run_checkPolicy_ok configured policy) ?_
  have task : w.IsOrderly id := ⟨configured, rooted, separate⟩
  have attempted := (achieves_deleteList leave task found listed thorough relative).attempt
  refine .bind (.forIn_cons (.bind attempted ?_) fun after
      (pruned : w.Without (w.files.Pruned base names after.files) after) => .pure pruned)
    fun _ _ pruned => .pure ⟨rfl, pruned⟩
  rintro _ after ⟨_, rfl, pruned⟩
  exact .pure ⟨rfl, pruned⟩

end Engine

namespace Sample

/-- A task that deletes listed files: directories that it leaves empty hold each other, one was empty
before, one still holds a file, and one is listed itself. -/
def pruning : World MemoryFiles where
  files := MemoryFiles.afterAll .zero [
    .write ⟨.root, ["src", "a", "b", "c.o"]⟩ .empty, .write ⟨.root, ["src", "a", "d.o"]⟩ .empty,
    .makeDirectory ⟨.root, ["src", "x", "y"]⟩, .makeDirectory ⟨.root, ["src", "new"]⟩,
    .write ⟨.root, ["src", "p", "q", "r.o"]⟩ .empty, .write ⟨.root, ["src", "p", "s.o"]⟩ .empty]
  projects := [{ directory := .top }]
  objects := [deletion [("includeemptydirs", .value (.flag true))] [1],
    sourceList "a/b/c.o, a/d.o, x/y/none.o, p/q/r.o, new"]

theorem pruning_deletes : pruning.DeletesListed 0 1 ⟨.root, ["src"]⟩
    ["a/b/c.o", "a/d.o", "x/y/none.o", "p/q/r.o", "new"] where
  configured := ⟨by decide +kernel, fun _ => World.exists_read_of_values (by decide +kernel)⟩
  policy both := by
    have lenient : (pruning.readFlag 0 "quiet").toOption = some false := by decide +kernel
    rw [both.1] at lenient
    cases lenient
  file := by decide +kernel
  directory := by decide +kernel
  lists := by decide +kernel
  base := ok_of_toOption (by decide +kernel)
  names := ok_of_toOption (by decide +kernel)
  thorough := ok_of_toOption (by decide +kernel)

end Sample

open Sample

theorem Engine.delete_prunes_list_nested :
    (pruning.DeletesListed 0 1 ⟨.root, ["src"]⟩
        ["a/b/c.o", "a/d.o", "x/y/none.o", "p/q/r.o", "new"] ∧ pruning.files.IsRooted ∧
      (∀ p, pruning.files.files.contains p = true → pruning.files.isDirectory p = false) ∧
      ∀ name ∈ ["a/b/c.o", "a/d.o", "x/y/none.o", "p/q/r.o", "new"],
        (Path.ofString name).isAbsolute = false) ∧
    ∃ after, (delete failTask 0).run pruning = (.ok none, after) ∧
      pruning.Without (pruning.files.Pruned ⟨.root, ["src"]⟩
        ["a/b/c.o", "a/d.o", "x/y/none.o", "p/q/r.o", "new"] after.files) after := by
  have rooted : pruning.files.IsRooted := MemoryFiles.isRooted_afterAll _ _
  have apart := @MemoryFiles.apart_of_keys pruning.files (by decide +kernel)
  have relative : ∀ name ∈ ["a/b/c.o", "a/d.o", "x/y/none.o", "p/q/r.o", "new"],
      (Path.ofString name).isAbsolute = false := by decide +kernel
  exact ⟨⟨pruning_deletes, rooted, apart, relative⟩,
    delete_prunes_list failTask pruning_deletes rooted apart relative⟩

end BuildEngine
