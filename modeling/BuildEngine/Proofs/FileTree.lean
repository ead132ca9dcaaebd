import BuildEngine.Files.Memory
import BuildEngine.Proofs.Nesting
import Mathlib.Data.List.Induction
import Mathlib.Data.List.Lex
import Mathlib.Data.List.Perm.Subperm
import Mathlib.Data.String.Basic

/-! Files in memory as a tree. Whatever is done to them, everything lies in directories, so a walk
from a directory lists what lies below it: each thing once, a directory after what it holds, and what
one directory holds in its order. That nothing is a file and a directory at once is not seen to by
what is done: it holds for as long as nothing is put where there is something of the other sort, or
below a file. -/

namespace BuildEngine

namespace Path

variable {p q base : Path}

theorem isBelow_iff : p.isBelow base = true ↔
    p.anchor = base.anchor ∧ base.names <+: p.names ∧ base.names.length < p.names.length := by
  simp [isBelow, and_assoc]

theorem not_isBelow_self (p : Path) : p.isBelow p = false := by
  simp [isBelow]

theorem isBelow_trans (first : p.isBelow q = true) (second : q.isBelow base = true) :
    p.isBelow base = true := by
  obtain ⟨anchor, names, longer⟩ := isBelow_iff.mp first
  obtain ⟨anchor', names', longer'⟩ := isBelow_iff.mp second
  exact isBelow_iff.mpr ⟨anchor.trans anchor', names'.trans names, Nat.lt_trans longer' longer⟩

/-- The directories above a path are the paths that it lies below. -/
theorem mem_parents : q ∈ p.parents ↔ p.isBelow q = true := by
  rw [isBelow_iff, parents, List.mem_map]
  constructor
  · rintro ⟨n, inside, rfl⟩
    rw [List.mem_range] at inside
    refine ⟨rfl, List.take_prefix .., ?_⟩
    rw [List.length_take]
    omega
  · rintro ⟨anchor, names, longer⟩
    refine ⟨p.names.length - 1 - q.names.length, List.mem_range.mpr (by omega), ?_⟩
    have length : p.names.length - 1 - (p.names.length - 1 - q.names.length) = q.names.length := by
      omega
    rw [length, ← List.prefix_iff_eq_take.mp names, anchor]

/-- The names by which a path is longer than one that it lies below. -/
theorem isBelow_iff_exists : p.isBelow base = true ↔
    ∃ name rest, p = ⟨base.anchor, base.names ++ name :: rest⟩ := by
  rw [isBelow_iff]
  constructor
  · rintro ⟨anchor, ⟨rest, names⟩, longer⟩
    cases rest with
    | nil => exact absurd longer (by simp [← names])
    | cons name rest =>
      obtain ⟨_, _⟩ := p
      exact ⟨name, rest, by rw [names, ← anchor]⟩
  · rintro ⟨name, rest, rfl⟩
    exact ⟨rfl, List.prefix_append .., by simp⟩

/-- What a directory holds are the paths that are longer by one name. -/
theorem held_iff {child : Path} : (child.parent = base ∧ child ≠ base) ↔
    ∃ name, child = ⟨base.anchor, base.names ++ [name]⟩ := by
  constructor
  · rintro ⟨rfl, other⟩
    obtain ⟨anchor, names⟩ := child
    cases names using List.reverseRecOn with
    | nil => exact absurd rfl other
    | append_singleton names name => exact ⟨name, by simp [parent]⟩
  · rintro ⟨name, rfl⟩
    refine ⟨by simp [parent], fun same => ?_⟩
    have length := congrArg (fun p => p.names.length) same
    simp at length

/-- A path below another one is held by it, or lies below what is held by it. -/
theorem exists_held (below : p.isBelow base = true) :
    ∃ child : Path, child.parent = base ∧ child ≠ base ∧ (p = child ∨ p.isBelow child = true) := by
  obtain ⟨name, rest, rfl⟩ := isBelow_iff_exists.mp below
  obtain ⟨held, other⟩ := held_iff.mpr ⟨name, rfl⟩
  refine ⟨_, held, other, ?_⟩
  cases rest with
  | nil => exact .inl rfl
  | cons next rest => exact .inr (isBelow_iff_exists.mpr ⟨next, rest, by simp⟩)

end Path

/-- What can be done to files. -/
inductive FileDeed where
  | write (path : Path) (data : ByteArray)
  | touch (path : Path) (time : Option Number.Binary64)
  | makeDirectory (path : Path)
  | delete (path : Path)

namespace MemoryFiles

/-- The files after something is done to them. What is refused changes nothing. -/
def after (m : MemoryFiles) : FileDeed → MemoryFiles
  | .write path data => m.write path data
  | .touch path time => m.touch path time
  | .makeDirectory path => m.makeDirectory path
  | .delete path => (m.delete path).toOption.getD m

/-- The files after one thing is done to them after another, from none at all. -/
def afterAll (now : Number.Binary64) (deeds : List FileDeed) : MemoryFiles :=
  deeds.foldl after { now }

/-- Whatever is below a path, the path is a directory. -/
def IsRooted (m : MemoryFiles) : Prop :=
  ∀ p q, m.contains p = true → p.isBelow q = true → m.isDirectory q = true

/-- Nothing is a file and a directory, and nothing lies below a file. -/
structure IsSeparate (m : MemoryFiles) : Prop where
  apart : ∀ p, m.files.contains p = true → m.isDirectory p = false
  bare : ∀ p q, m.files.contains p = true → m.contains q = true → q.isBelow p = false

/-- Something lies below a file. -/
def IsUnderFile (m : MemoryFiles) (path : Path) : Prop :=
  ∃ file, m.files.contains file = true ∧ path.isBelow file = true

/-- A path is taken by something of the other sort than what a deed puts there, or lies below a
file. -/
def Clashes (m : MemoryFiles) : FileDeed → Prop
  | .write path _ | .touch path _ => m.isDirectory path = true ∨ m.IsUnderFile path
  | .makeDirectory path => m.files.contains path = true ∨ m.IsUnderFile path
  | .delete _ => False

variable {m : MemoryFiles} {path p q : Path} {deed : FileDeed}

/-! What is there after each deed. -/

theorem contains_iff : m.contains p = true ↔ m.files.contains p = true ∨ m.isDirectory p = true := by
  rw [contains, Bool.or_eq_true]

theorem mem_addDirectory {directories : List Path} :
    q ∈ addDirectory directories path ↔ q = path ∨ q ∈ directories := by
  unfold addDirectory
  split
  · rename_i known
    refine ⟨.inr, ?_⟩
    rintro (rfl | old)
    · exact List.contains_iff_mem.mp known
    · exact old
  · rw [List.mem_append, List.mem_singleton, or_comm]

theorem mem_foldl_addDirectory {more directories : List Path} :
    q ∈ more.foldl addDirectory directories ↔ q ∈ more ∨ q ∈ directories := by
  induction more generalizing directories with
  | nil => simp
  | cons first rest ih => rw [List.foldl_cons, ih, mem_addDirectory, List.mem_cons, or_assoc,
      or_left_comm]

theorem isDirectory_withParents :
    (m.withParents path).isDirectory q = true ↔ path.isBelow q = true ∨ m.isDirectory q = true := by
  unfold withParents isDirectory
  rw [List.contains_iff_mem, List.contains_iff_mem, mem_foldl_addDirectory, Path.mem_parents]

theorem isDirectory_makeDirectory : (m.makeDirectory path).isDirectory q = true ↔
    q = path ∨ path.isBelow q = true ∨ m.isDirectory q = true := by
  unfold makeDirectory
  rw [isDirectory_withParents]
  unfold isDirectory
  rw [List.contains_iff_mem, List.contains_iff_mem, mem_addDirectory, or_left_comm]

theorem contains_files_put {file : StoredFile} :
    (m.files.put path file).contains q = true ↔ q = path ∨ m.files.contains q = true := by
  unfold Table.contains
  rw [Table.find?_put]
  split
  · rename_i same
    simp [same]
  · rename_i other
    simp [Ne.symm other]

theorem contains_files_erase :
    (m.files.erase path).contains q = true ↔ q ≠ path ∧ m.files.contains q = true := by
  unfold Table.contains
  rw [Table.find?_erase]
  split
  · rename_i same
    simp [same]
  · rename_i other
    simp [Ne.symm other]

theorem isDirectory_filter :
    isDirectory { m with directories := m.directories.filter (· != path) } q = true ↔
      q ≠ path ∧ m.isDirectory q = true := by
  simp [isDirectory, and_comm]

/-- The files with a file at a path, and the directories above it. -/
def withFile (m : MemoryFiles) (path : Path) (file : StoredFile) : MemoryFiles :=
  { m.withParents path with files := m.files.put path file }

theorem contains_files_withFile {file : StoredFile} :
    (m.withFile path file).files.contains q = true ↔ q = path ∨ m.files.contains q = true :=
  contains_files_put

theorem isDirectory_withFile {file : StoredFile} : (m.withFile path file).isDirectory q = true ↔
    path.isBelow q = true ∨ m.isDirectory q = true :=
  isDirectory_withParents

/-- What a path holds, sorted. -/
def held (m : MemoryFiles) (path : Path) : List Path :=
  (m.paths.filter fun p => p.parent == path && p != path).mergeSort Path.le

theorem children_of_isDirectory (directory : m.isDirectory path = true) :
    m.children path = .ok (m.held path) := by
  rw [children, if_pos directory, held]

theorem mem_paths : p ∈ m.paths ↔ m.contains p = true := by
  rw [paths, List.mem_eraseDups, List.mem_append, contains_iff, ← Table.contains_iff_mem_keys,
    isDirectory, List.contains_iff_mem]

/-- What a path holds is what is there under paths that are longer by one name. -/
theorem mem_held : p ∈ m.held path ↔
    m.contains p = true ∧ ∃ name, p = ⟨path.anchor, path.names ++ [name]⟩ := by
  rw [held, List.mem_mergeSort, List.mem_filter, mem_paths, ← Path.held_iff]
  simp

/-- Nothing lies below a directory that holds nothing. -/
theorem IsRooted.not_isBelow (rooted : m.IsRooted) (empty : m.children path = .ok [])
    (there : m.contains p = true) : p.isBelow path = false := by
  rw [← Bool.not_eq_true]
  intro below
  obtain ⟨child, held, other, lies⟩ := Path.exists_held below
  have stored : m.contains child = true := by
    rcases lies with rfl | under
    · exact there
    · exact contains_iff.mpr (.inr (rooted p child there under))
  have member : child ∈ m.held path := mem_held.mpr ⟨stored, Path.held_iff.mp ⟨held, other⟩⟩
  rw [children_of_isDirectory (rooted p path there below)] at empty
  rw [Except.ok.inj empty] at member
  cases member

/-- What deleting does: it takes a file away, or else a directory that holds nothing; or it is
refused. -/
theorem after_delete (m : MemoryFiles) (path : Path) : m.after (.delete path) = m ∨
    m.after (.delete path) = { m with files := m.files.erase path } ∨
    (m.children path = .ok [] ∧ m.files.contains path = false ∧
      m.after (.delete path) = { m with directories := m.directories.filter (· != path) }) := by
  have whole : m.after (.delete path) = (m.delete path).toOption.getD m := rfl
  rw [whole, delete]
  split
  · exact .inr (.inl rfl)
  · rename_i noFile
    split
    · exact .inl rfl
    · rename_i empty
      exact .inr (.inr ⟨empty, by simpa using noFile, rfl⟩)
    · exact .inl rfl

/-! Everything lies in directories. -/

/-- What is put somewhere together with the directories above it lies in directories. -/
theorem IsRooted.add {more : MemoryFiles} (rooted : m.IsRooted) (path : Path)
    (keeps : ∀ q, m.isDirectory q = true → more.isDirectory q = true)
    (above : ∀ q, path.isBelow q = true → more.isDirectory q = true)
    (only : ∀ p, more.contains p = true → p = path ∨ path.isBelow p = true ∨ m.contains p = true) :
    more.IsRooted := by
  intro p q there below
  rcases only p there with rfl | higher | old
  · exact above q below
  · exact above q (Path.isBelow_trans higher below)
  · exact keeps q (rooted p q old below)

theorem IsRooted.withFile (rooted : m.IsRooted) (path : Path) (file : StoredFile) :
    (m.withFile path file).IsRooted := by
  refine rooted.add path (fun q old => isDirectory_withFile.mpr (.inr old))
    (fun q below => isDirectory_withFile.mpr (.inl below)) fun p there => ?_
  rw [contains_iff, contains_files_withFile, isDirectory_withFile] at there
  rw [contains_iff]
  tauto

theorem IsRooted.makeDirectory (rooted : m.IsRooted) (path : Path) :
    (m.makeDirectory path).IsRooted := by
  refine rooted.add path (fun q old => isDirectory_makeDirectory.mpr (.inr (.inr old)))
    (fun q below => isDirectory_makeDirectory.mpr (.inr (.inl below))) fun p there => ?_
  rw [contains_iff, isDirectory_makeDirectory] at there
  rw [contains_iff]
  rcases there with file | rest
  · exact .inr (.inr (.inl file))
  · tauto

theorem IsRooted.delete (rooted : m.IsRooted) (path : Path) : (m.after (.delete path)).IsRooted := by
  intro p q there below
  rcases after_delete m path with same | file | ⟨empty, noFile, directory⟩
  · rw [same] at there ⊢
    exact rooted p q there below
  · rw [file, contains_iff, contains_files_erase] at there
    rw [file]
    exact rooted p q (contains_iff.mpr (there.imp_left And.right)) below
  · rw [directory, contains_iff, isDirectory_filter] at there
    rw [directory, isDirectory_filter]
    have old : m.contains p = true := contains_iff.mpr (there.imp_right And.right)
    refine ⟨?_, rooted p q old below⟩
    rintro rfl
    rw [rooted.not_isBelow empty old] at below
    cases below

theorem IsRooted.after (rooted : m.IsRooted) (deed : FileDeed) : (m.after deed).IsRooted := by
  cases deed with
  | write path data => exact rooted.withFile path ⟨data, m.now⟩
  | touch path time => exact rooted.withFile path _
  | makeDirectory path => exact rooted.makeDirectory path
  | delete path => exact rooted.delete path

theorem afterAll_concat (now : Number.Binary64) (past : List FileDeed) (deed : FileDeed) :
    afterAll now (past ++ [deed]) = (afterAll now past).after deed := by
  rw [afterAll, List.foldl_append, List.foldl_cons, List.foldl_nil, afterAll]

theorem isRooted_afterAll (now : Number.Binary64) (deeds : List FileDeed) :
    (afterAll now deeds).IsRooted := by
  induction deeds using List.reverseRecOn with
  | nil => exact fun p q there _ => by cases there
  | append_singleton past deed ih =>
    rw [afterAll_concat]
    exact ih.after deed

/-! Files apart from directories. -/

/-- A file that something lies below is a directory too. -/
theorem IsRooted.isSeparate_iff (rooted : m.IsRooted) :
    m.IsSeparate ↔ ∀ p, m.files.contains p = true → m.isDirectory p = false := by
  refine ⟨IsSeparate.apart, fun apart => ⟨apart, fun p q file there => ?_⟩⟩
  rw [← Bool.not_eq_true]
  intro below
  exact absurd (rooted q p there below) (by simp [apart p file])

theorem isSeparate_withFile_iff (rooted : m.IsRooted) (separate : m.IsSeparate) (path : Path)
    (file : StoredFile) : (m.withFile path file).IsSeparate ↔
      ¬(m.isDirectory path = true ∨ m.IsUnderFile path) := by
  rw [(rooted.withFile path file).isSeparate_iff]
  constructor
  · rintro apart (directory | ⟨other, is, below⟩)
    · have still : (m.withFile path file).isDirectory path = true :=
        isDirectory_withFile.mpr (.inr directory)
      rw [apart path (contains_files_withFile.mpr (.inl rfl))] at still
      cases still
    · have now : (m.withFile path file).isDirectory other = true :=
        isDirectory_withFile.mpr (.inl below)
      rw [apart other (contains_files_withFile.mpr (.inr is))] at now
      cases now
  · intro free p is
    rw [← Bool.not_eq_true, isDirectory_withFile]
    rintro (below | old)
    · rcases contains_files_withFile.mp is with rfl | before
      · rw [Path.not_isBelow_self] at below
        cases below
      · exact free (.inr ⟨p, before, below⟩)
    · rcases contains_files_withFile.mp is with rfl | before
      · exact free (.inl old)
      · rw [separate.apart p before] at old
        cases old

theorem isSeparate_makeDirectory_iff (rooted : m.IsRooted) (separate : m.IsSeparate) (path : Path) :
    (m.makeDirectory path).IsSeparate ↔ ¬(m.files.contains path = true ∨ m.IsUnderFile path) := by
  rw [(rooted.makeDirectory path).isSeparate_iff]
  constructor
  · rintro apart (is | ⟨other, is, below⟩)
    · have now : (m.makeDirectory path).isDirectory path = true :=
        isDirectory_makeDirectory.mpr (.inl rfl)
      rw [apart path is] at now
      cases now
    · have now : (m.makeDirectory path).isDirectory other = true :=
        isDirectory_makeDirectory.mpr (.inr (.inl below))
      rw [apart other is] at now
      cases now
  · intro free p is
    rw [← Bool.not_eq_true, isDirectory_makeDirectory]
    rintro (rfl | below | old)
    · exact free (.inl is)
    · exact free (.inr ⟨p, is, below⟩)
    · rw [separate.apart p is] at old
      cases old

/-- What is deleted leaves the rest as it was. -/
theorem IsSeparate.delete (separate : m.IsSeparate) (path : Path) :
    (m.after (.delete path)).IsSeparate := by
  rcases after_delete m path with same | file | ⟨-, -, directory⟩
  · rw [same]
    exact separate
  · rw [file]
    refine ⟨fun p is => separate.apart p (contains_files_erase.mp is).2, fun p q is there => ?_⟩
    rw [contains_iff, contains_files_erase] at there
    exact separate.bare p q (contains_files_erase.mp is).2
      (contains_iff.mpr (there.imp_left And.right))
  · rw [directory]
    refine ⟨fun p is => ?_, fun p q is there => ?_⟩
    · rw [← Bool.not_eq_true, isDirectory_filter]
      rintro ⟨-, old⟩
      rw [separate.apart p is] at old
      cases old
    · rw [contains_iff, isDirectory_filter] at there
      exact separate.bare p q is (contains_iff.mpr (there.imp_right And.right))

/-- Files and directories stay apart in one step exactly if the step meets nothing of the other
sort. -/
theorem isSeparate_after_iff (rooted : m.IsRooted) (separate : m.IsSeparate) (deed : FileDeed) :
    (m.after deed).IsSeparate ↔ ¬m.Clashes deed := by
  cases deed with
  | write path data => exact isSeparate_withFile_iff rooted separate path _
  | touch path time => exact isSeparate_withFile_iff rooted separate path _
  | makeDirectory path => exact isSeparate_makeDirectory_iff rooted separate path
  | delete path => exact ⟨fun _ => id, fun _ => separate.delete path⟩

/-- Whatever is done to files, everything lies in directories, so a file that something lies below is
a directory too. Files and directories are apart throughout exactly if nothing is ever put where
there is something of the other sort, or below a file. -/
theorem isSeparate_throughout_iff (now : Number.Binary64) (deeds : List FileDeed) :
    (afterAll now deeds).IsRooted ∧
      ((∀ past, past <+: deeds → (afterAll now past).IsSeparate) ↔
        ∀ past deed, past ++ [deed] <+: deeds → ¬(afterAll now past).Clashes deed) := by
  refine ⟨isRooted_afterAll now deeds, fun separate past deed begins => ?_, fun free past => ?_⟩
  · have before := separate past ((List.prefix_append past [deed]).trans begins)
    have later := separate (past ++ [deed]) begins
    rw [afterAll_concat] at later
    exact (isSeparate_after_iff (isRooted_afterAll now past) before deed).mp later
  · induction past using List.reverseRecOn with
    | nil => exact fun _ => ⟨nofun, nofun⟩
    | append_singleton past deed ih =>
      intro begins
      have before := ih ((List.prefix_append past [deed]).trans begins)
      rw [afterAll_concat]
      exact (isSeparate_after_iff (isRooted_afterAll now past) before deed).mpr
        (free past deed begins)

/-- Writing below a file is not refused. The file is a directory then as well, and something lies
below it. -/
theorem write_below_file :
    let file : Path := ⟨.root, ["a"]⟩
    let inside : Path := ⟨.root, ["a", "b"]⟩
    let m := afterAll .zero [.touch file none, .write inside .empty]
    m.files.contains file = true ∧ m.isDirectory file = true ∧
      m.contains inside = true ∧ inside.isBelow file = true ∧ ¬m.IsSeparate := by
  refine ⟨by decide, by decide, by decide, by decide, fun separate => ?_⟩
  exact absurd (separate.apart ⟨.root, ["a"]⟩ (by decide)) (by decide)

end MemoryFiles

/-! Walks. -/

namespace Path

variable {p q base child : Path}

/-- A path is another one or lies below it. -/
def IsWithin (p base : Path) : Prop := p.anchor = base.anchor ∧ base.names <+: p.names

theorem isWithin_iff : p.IsWithin base ↔ p = base ∨ p.isBelow base = true := by
  rw [isBelow_iff]
  constructor
  · rintro ⟨anchor, names⟩
    rcases Nat.lt_or_ge base.names.length p.names.length with longer | shorter
    · exact .inr ⟨anchor, names, longer⟩
    · left
      obtain ⟨_, _⟩ := p
      obtain ⟨_, _⟩ := base
      cases anchor
      cases names.eq_of_length_le shorter
      rfl
  · rintro (rfl | ⟨anchor, names, -⟩)
    · exact ⟨rfl, List.prefix_refl _⟩
    · exact ⟨anchor, names⟩

theorem IsWithin.trans (first : p.IsWithin q) (second : q.IsWithin base) : p.IsWithin base :=
  ⟨first.1.trans second.1, second.2.trans first.2⟩

/-- A path lies within one path of a length at most. -/
theorem IsWithin.unique {other : Path} (first : p.IsWithin base) (second : p.IsWithin other)
    (length : base.names.length = other.names.length) : base = other := by
  obtain ⟨_, _⟩ := base
  obtain ⟨_, _⟩ := other
  cases first.1.symm.trans second.1
  cases (List.prefix_of_prefix_length_le first.2 second.2 length.le).eq_of_length length
  rfl

/-- The directory that holds a path below another one lies within that one. -/
theorem isWithin_parent (below : p.isBelow base = true) : p.parent.IsWithin base := by
  obtain ⟨name, rest, rfl⟩ := isBelow_iff_exists.mp below
  refine ⟨rfl, ?_⟩
  rw [parent, List.dropLast_append_of_ne_nil (List.cons_ne_nil name rest)]
  exact List.prefix_append ..

theorem isBelow_parent (below : p.isBelow base = true) : p.isBelow p.parent = true := by
  obtain ⟨name, rest, rfl⟩ := isBelow_iff_exists.mp below
  refine isBelow_iff.mpr ⟨rfl, List.dropLast_prefix _, ?_⟩
  simp [parent]

/-- Distinct paths in order of which none comes after the other one: the first comes before. -/
theorem lt_of_le {other : Path} (ordered : p.le other = true) (different : p ≠ other)
    (anchor : p.anchor = other.anchor) : p.lt other = true := by
  have parts : p.parts ≠ other.parts := by
    obtain ⟨_, _⟩ := p
    obtain ⟨_, _⟩ := other
    cases anchor
    intro same
    apply different
    unfold Path.parts at same
    split at same <;> simp_all [isAbsolute]
  simp only [le, lt, Bool.not_eq_true', decide_eq_false_iff_not, decide_eq_true_eq] at ordered ⊢
  exact lt_of_le_of_ne (not_lt.mp ordered) parts

theorem total_le (p q : Path) : (p.le q || q.le p) = true := by
  simp only [le, lt, Bool.or_eq_true, Bool.not_eq_true', decide_eq_false_iff_not]
  exact (le_total p.parts q.parts).imp not_lt.mpr not_lt.mpr

theorem trans_le (first : p.le q = true) (second : q.le base = true) : p.le base = true := by
  simp only [le, lt, Bool.not_eq_true', decide_eq_false_iff_not, not_lt] at first second ⊢
  exact le_trans first second

end Path

namespace MemoryFiles

open FileSystem

variable {m : MemoryFiles} {path p q directory child : Path} {level : Nat}

/-! What a directory holds. -/

theorem pairwise_held (m : MemoryFiles) (path : Path) :
    (m.held path).Pairwise fun p q => p.lt q = true := by
  have sorted : (m.held path).Pairwise fun p q => p.le q = true :=
    @List.pairwise_mergeSort _ Path.le (fun _ _ _ => Path.trans_le) Path.total_le _
  have distinct : (m.held path).Nodup := by
    rw [held, (List.mergeSort_perm _ _).nodup_iff]
    exact (firsts_eraseDups _).distinct.filter _
  refine (sorted.and distinct).imp_of_mem fun first second both => ?_
  obtain ⟨-, name, rfl⟩ := mem_held.mp first
  obtain ⟨-, other, rfl⟩ := mem_held.mp second
  exact Path.lt_of_le both.1 both.2 rfl

/-! Walks. -/

/-- What lies below a path, over a number of levels. -/
def below (m : MemoryFiles) : Nat → Path → List Path
  | 0, _ => []
  | level + 1, path => (m.held path).flatMap fun child =>
      (if m.isDirectory child then m.below level child else []) ++ [child]

theorem mapM_ok {α β : Type} {f : α → Except FileError β} {g : α → β} {as : List α}
    (each : ∀ a ∈ as, f a = .ok (g a)) : as.mapM f = .ok (as.map g) := by
  induction as with
  | nil => rfl
  | cons a rest ih =>
    rw [List.mapM_cons, each a List.mem_cons_self,
      ih fun other later => each other (List.mem_cons_of_mem a later)]
    rfl

theorem walkTo_eq (isDirectory : m.isDirectory path = true) :
    walkTo m level path = .ok (m.below level path) := by
  induction level generalizing path with
  | zero => rfl
  | succ level ih =>
    have listed : FileSystem.children m path = .ok (m.held path) :=
      children_of_isDirectory isDirectory
    rw [walkTo, listed, below, List.flatMap_def]
    refine (congrArg (fun found => Except.map List.flatten found) (mapM_ok ?_)).trans rfl
    intro child _
    change (if m.isDirectory child = true then _ else _) = _
    split
    · rename_i nested
      rw [ih nested]
      rfl
    · rfl

/-- A walk over some levels lists what lies below a path and no further down. -/
theorem mem_below (rooted : m.IsRooted) : p ∈ m.below level path ↔
    m.contains p = true ∧ p.isBelow path = true ∧ p.names.length ≤ path.names.length + level := by
  induction level generalizing path with
  | zero =>
    refine ⟨nofun, fun ⟨_, below, bound⟩ => ?_⟩
    exact absurd (Path.isBelow_iff.mp below).2.2 (Nat.not_lt.mpr bound)
  | succ level ih =>
    rw [below, List.mem_flatMap]
    constructor
    · rintro ⟨child, member, listed⟩
      obtain ⟨there, name, rfl⟩ := mem_held.mp member
      have under : (⟨path.anchor, path.names ++ [name]⟩ : Path).isBelow path = true :=
        Path.isBelow_iff_exists.mpr ⟨name, [], rfl⟩
      rcases List.mem_append.mp listed with inside | same
      · split at inside
        · obtain ⟨stored, lower, bound⟩ := ih.mp inside
          refine ⟨stored, Path.isBelow_trans lower under, ?_⟩
          simp only [List.length_append, List.length_singleton] at bound
          omega
        · cases inside
      · cases List.mem_singleton.mp same
        exact ⟨there, under, by simp⟩
    · rintro ⟨there, lies, bound⟩
      obtain ⟨child, isHeld, other, within⟩ := Path.exists_held lies
      obtain ⟨name, rfl⟩ := Path.held_iff.mp ⟨isHeld, other⟩
      refine ⟨_, mem_held.mpr ⟨?_, name, rfl⟩, ?_⟩
      · rcases within with rfl | lower
        · exact there
        · exact contains_iff.mpr (.inr (rooted p _ there lower))
      · rcases within with rfl | lower
        · exact List.mem_append_right _ List.mem_cons_self
        · rw [if_pos (rooted p _ there lower)]
          refine List.mem_append_left _ (ih.mpr ⟨there, lower, ?_⟩)
          simp only [List.length_append, List.length_singleton]
          omega

/-- A path may be listed before another one: that one is none that it holds, directly or not, and if
one directory holds both, they are in order. -/
structure Precedes (p q : Path) : Prop where
  other : p ≠ q
  whole : q.isBelow p = false
  ordered : p.parent = q.parent → p.lt q = true

/-- What lies within one thing that a directory holds precedes what lies within a later one. -/
theorem precedes_of_lt {first second : Path} {name next : String}
    (held : first = ⟨path.anchor, path.names ++ [name]⟩)
    (held' : second = ⟨path.anchor, path.names ++ [next]⟩) (before : first.lt second = true)
    (within : p.IsWithin first) (within' : q.IsWithin second) : Precedes p q := by
  have length : first.names.length = second.names.length := by simp [held, held']
  have irreflexive : ¬second.lt second = true := by simp [Path.lt]
  have apart {other : Path} (one : other.IsWithin first) : ¬other.IsWithin second := by
    intro two
    rw [one.unique two length] at before
    exact irreflexive before
  refine ⟨?_, ?_, ?_⟩
  · rintro rfl
    exact apart within within'
  · rw [← Bool.not_eq_true]
    intro below
    exact apart ((Path.isWithin_iff.mpr (.inr below)).trans within) within'
  · intro same
    rcases Path.isWithin_iff.mp within with rfl | below
    · rcases Path.isWithin_iff.mp within' with rfl | below'
      · exact before
      · -- The directory of the one is the path, that of the other one lies further down.
        have lower := (Path.isWithin_parent below').2.length_le
        rw [← same, held, held'] at lower
        simp [Path.parent] at lower
    · have lower := Path.isWithin_parent below
      rcases Path.isWithin_iff.mp within' with rfl | below'
      · have longer := lower.2.length_le
        rw [same, held, held'] at longer
        simp [Path.parent] at longer
      · rw [same] at lower
        exact absurd (Path.isWithin_parent below') (apart lower)

/-- What lies below a path that is held by another one precedes it. -/
theorem precedes_of_isBelow {name : String} (held : child = ⟨path.anchor, path.names ++ [name]⟩)
    (below : p.isBelow child = true) : Precedes p child := by
  have longer := (Path.isBelow_iff.mp below).2.2
  refine ⟨?_, ?_, ?_⟩
  · rintro rfl
    rw [Path.not_isBelow_self] at below
    cases below
  · rw [← Bool.not_eq_true]
    intro above
    exact absurd (Path.isBelow_iff.mp above).2.2 (Nat.lt_asymm longer)
  · intro same
    have lower := (Path.isWithin_parent below).2.length_le
    rw [same, held] at lower
    simp [Path.parent] at lower

theorem pairwise_below (m : MemoryFiles) (level : Nat) (path : Path) (rooted : m.IsRooted) :
    (m.below level path).Pairwise Precedes := by
  induction level generalizing path with
  | zero => exact .nil
  | succ level ih =>
    have within {child p : Path} (listed : p ∈ (if m.isDirectory child then m.below level child
        else []) ++ [child]) : p.IsWithin child := by
      rw [Path.isWithin_iff]
      rcases List.mem_append.mp listed with inside | same
      · split at inside
        · exact .inr ((mem_below rooted).mp inside).2.1
        · cases inside
      · exact .inl (List.mem_singleton.mp same)
    rw [below, List.pairwise_flatMap]
    constructor
    · intro child member
      obtain ⟨-, name, held⟩ := mem_held.mp member
      split
      · refine List.pairwise_append.mpr ⟨ih child, List.pairwise_singleton .., ?_⟩
        intro p inside q last
        cases List.mem_singleton.mp last
        exact precedes_of_isBelow held ((mem_below rooted).mp inside).2.1
      · exact List.pairwise_singleton ..
    · refine (pairwise_held m path).imp_of_mem fun first second before p listed q listed' => ?_
      obtain ⟨-, name, held⟩ := mem_held.mp first
      obtain ⟨-, next, held'⟩ := mem_held.mp second
      exact precedes_of_lt held held' before (within listed) (within listed')

/-! The budget of a walk. -/

/-- A directory has at least as many directories within and above it as it has names. -/
theorem length_lt_of_isDirectory (rooted : m.IsRooted) (isDirectory : m.isDirectory path = true) :
    path.names.length < m.directories.length := by
  have above {q : Path} (member : q ∈ path :: path.parents) : q ∈ m.directories := by
    rw [← List.contains_iff_mem]
    rcases List.mem_cons.mp member with rfl | higher
    · exact isDirectory
    · exact rooted path q (contains_iff.mpr (.inr isDirectory)) (Path.mem_parents.mp higher)
  have distinct : (path :: path.parents).Nodup := by
    refine List.nodup_cons.mpr ⟨fun own => ?_, ?_⟩
    · rw [Path.mem_parents, Path.not_isBelow_self] at own
      cases own
    · refine List.Nodup.map_on (fun n small k small' same => ?_) List.nodup_range
      rw [List.mem_range] at small small'
      have lengths := congrArg (fun p => p.names.length) same
      simp only [List.length_take] at lengths
      omega
  have fits := (distinct.subperm fun q => above).length_le
  rw [List.length_cons, Path.parents, List.length_map, List.length_range] at fits
  exact fits

/-- More levels than directories are nested change nothing. -/
theorem below_of_deep (rooted : m.IsRooted) (isDirectory : m.isDirectory path = true)
    (deep : m.directories.length ≤ path.names.length + level) :
    m.below (level + 1) path = m.below level path := by
  induction level generalizing path with
  | zero => exact absurd (length_lt_of_isDirectory rooted isDirectory) (Nat.not_lt.mpr deep)
  | succ level ih =>
    rw [below, below]
    refine List.flatMap_congr fun child member => ?_
    split
    · rename_i nested
      obtain ⟨-, name, rfl⟩ := mem_held.mp member
      rw [ih nested]
      simp only [List.length_append, List.length_singleton]
      omega
    · rfl

/-- The budget of a walk is no bound: any number of levels from it on gives the same. -/
theorem below_of_depth_le (rooted : m.IsRooted) (isDirectory : m.isDirectory path = true)
    (deep : FileSystem.depth m ≤ level) : m.below level path = m.below (FileSystem.depth m) path := by
  induction deep with
  | refl => rfl
  | step deep ih =>
    rw [below_of_deep rooted isDirectory, ih]
    have bound : m.directories.length + 1 ≤ _ := deep
    omega

/-- All that lies below a directory and nothing else, each thing once, what something holds before
it, and what one directory holds in its order. -/
structure IsListing (m : MemoryFiles) (directory : Path) (found : List Path) : Prop where
  distinct : found.Nodup
  entries : ∀ p, p ∈ found ↔ m.contains p = true ∧ p.isBelow directory = true
  whole : found.Pairwise fun earlier later => later.isBelow earlier = false
  ordered : found.Pairwise fun earlier later =>
    earlier.parent = later.parent → earlier.lt later = true

theorem isListing_below (rooted : m.IsRooted) (directory : Path) :
    m.IsListing directory (m.below (depth m) directory) := by
  have ordered := pairwise_below m (depth m) directory rooted
  refine ⟨ordered.imp Precedes.other, fun p => ?_, ordered.imp Precedes.whole,
    ordered.imp Precedes.ordered⟩
  rw [mem_below rooted]
  refine ⟨fun ⟨there, lies, _⟩ => ⟨there, lies⟩, fun ⟨there, lies⟩ => ⟨there, lies, ?_⟩⟩
  -- What holds the path is a directory, so there are at least as many directories as it has names.
  have bound := length_lt_of_isDirectory rooted (rooted p _ there (Path.isBelow_parent lies))
  have budget : depth m = m.directories.length + 1 := rfl
  rw [Path.parent, List.length_dropLast] at bound
  omega

/-- Whatever was done to files, a walk from a directory lists what lies below it. It ends by itself:
with more levels than its budget it lists the same. -/
theorem walk_afterAll (now : Number.Binary64) (deeds : List FileDeed) (directory : Path)
    (isDirectory : (afterAll now deeds).isDirectory directory = true) :
    ∃ found, walk (afterAll now deeds) directory = .ok found ∧
      (∀ level, depth (afterAll now deeds) ≤ level →
        walkTo (afterAll now deeds) level directory = .ok found) ∧
      (afterAll now deeds).IsListing directory found := by
  have rooted := isRooted_afterAll now deeds
  refine ⟨_, walkTo_eq isDirectory, fun level deep => ?_, isListing_below rooted directory⟩
  rw [walkTo_eq isDirectory, below_of_depth_le rooted isDirectory deep]

/-- A walk from the root over a path that is a file and a directory, and over what was left when
deleting was refused. -/
theorem walk_afterAll_mixed :
    let deeds : List FileDeed := [.touch ⟨.root, ["a"]⟩ none, .write ⟨.root, ["a", "b"]⟩ .empty,
      .makeDirectory ⟨.root, ["a.c", "d"]⟩, .delete ⟨.root, ["a.c"]⟩]
    let m := afterAll .zero deeds
    m.isDirectory .top = true ∧ ∃ found, walk m .top = .ok found ∧
      (∀ level, depth m ≤ level → walkTo m level .top = .ok found) ∧ m.IsListing .top found :=
  ⟨by decide +kernel, walk_afterAll .zero _ .top (by decide +kernel)⟩

end MemoryFiles
end BuildEngine
