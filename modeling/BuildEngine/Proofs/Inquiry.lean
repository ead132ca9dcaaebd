import BuildEngine.Proofs.Expansion
import BuildEngine.Proofs.Freshness
import BuildEngine.Task.UpToDate
import Mathlib.Data.List.Forall2

/-! Inquiries: what comes of a task that asks whether all that is derived from lists of sources is
current. The lists are looked at one after another, and the first one that is not current, or of
which a source is missing, decides; so a source that is missing behind it is overlooked. -/

namespace BuildEngine

section Judging

variable {φ : Type} [FileSystem φ]

namespace Inquiry

variable {files : φ} {q : Inquiry} {sources : List Sources} {result : Except Fault Bool}

/-- If some sources are there and yet something derived is not current, others are there too. -/
def Heeds (files : φ) (q : Inquiry) (s other : Sources) : Prop :=
  s.Complete files → ¬ q.Current files s → other.Complete files

/-- What comes of looking at sources one list after another: the first list that is not current, or
of which a source is missing, decides. -/
inductive Ends (files : φ) (q : Inquiry) : List Sources → Except Fault Bool → Prop where
  | all : Ends files q [] (.ok true)
  | onward {s : Sources} {more : List Sources} {result : Except Fault Bool}
      (complete : s.Complete files) (current : q.Current files s)
      (rest : Ends files q more result) : Ends files q (s :: more) result
  | stale {s : Sources} {more : List Sources} (complete : s.Complete files)
      (stale : ¬ q.Current files s) : Ends files q (s :: more) (.ok false)
  | missing {s : Sources} {more : List Sources} {fault : Fault} (incomplete : ¬ s.Complete files)
      (missing : fault.IsMissingSource) : Ends files q (s :: more) (.error fault)

namespace Ends

/-- A fault may be given a place. -/
theorem placed (ends : q.Ends files sources result) (l : Location) :
    q.Ends files sources (result.mapError (Fault.placed l)) := by
  induction ends with
  | all => exact .all
  | onward complete current _ ih => exact .onward complete current ih
  | stale complete stale => exact .stale complete stale
  | missing incomplete missing =>
    obtain ⟨path, place, rfl⟩ := missing
    exact .missing incomplete ⟨path, _, rfl⟩

theorem isMissingSource (ends : q.Ends files sources result) {fault : Fault}
    (fails : result = .error fault) : fault.IsMissingSource := by
  induction ends with
  | all | stale => cases fails
  | onward _ _ _ ih => exact ih fails
  | missing _ missing =>
    cases fails
    exact missing

/-- All is current exactly if all sources are there and each list is current. -/
theorem true_iff (ends : q.Ends files sources result) :
    result = .ok true ↔ ∀ s ∈ sources, s.Complete files ∧ q.Current files s := by
  induction ends with
  | all => exact ⟨fun _ => nofun, fun _ => rfl⟩
  | onward complete current _ ih =>
    rw [ih, List.forall_mem_cons, and_iff_right ⟨complete, current⟩]
  | stale complete stale =>
    refine ⟨nofun, fun all => absurd (all _ List.mem_cons_self).2 stale⟩
  | missing incomplete _ =>
    refine ⟨nofun, fun all => absurd (all _ List.mem_cons_self).1 incomplete⟩

/-- A missing source is told exactly if all lists before that of the source are current. -/
theorem error_iff (ends : q.Ends files sources result) :
    (∃ fault, result = .error fault) ↔ ∃ earlier s later, sources = earlier ++ s :: later ∧
      (∀ other ∈ earlier, other.Complete files ∧ q.Current files other) ∧ ¬ s.Complete files := by
  induction ends with
  | all =>
    refine ⟨fun ⟨_, fails⟩ => (nomatch fails), ?_⟩
    rintro ⟨earlier, s, later, split, -⟩
    cases earlier <;> cases split
  | @onward s more _ complete current _ ih =>
    rw [ih]
    constructor
    · rintro ⟨earlier, other, later, rfl, before, incomplete⟩
      exact ⟨s :: earlier, other, later, rfl,
        List.forall_mem_cons.mpr ⟨⟨complete, current⟩, before⟩, incomplete⟩
    · rintro ⟨earlier, other, later, split, before, incomplete⟩
      cases earlier with
      | nil =>
        cases split
        exact absurd complete incomplete
      | cons first earlier =>
        cases split
        exact ⟨earlier, other, later, rfl, (List.forall_mem_cons.mp before).2, incomplete⟩
  | @stale s more complete stale =>
    refine ⟨fun ⟨_, fails⟩ => (nomatch fails), ?_⟩
    rintro ⟨earlier, other, later, split, before, incomplete⟩
    cases earlier with
    | nil =>
      cases split
      exact absurd complete incomplete
    | cons first earlier =>
      cases split
      exact absurd (before _ List.mem_cons_self).2 stale
  | @missing s more fault incomplete _ =>
    exact ⟨fun _ => ⟨[], s, more, rfl, nofun, incomplete⟩, fun _ => ⟨fault, rfl⟩⟩

/-- Where nothing is missing behind a stale list, whatever source is missing is told. -/
theorem error_iff_of_heeds (ends : q.Ends files sources result)
    (heeds : sources.Pairwise (q.Heeds files)) :
    (∃ fault, result = .error fault) ↔ ∃ s ∈ sources, ¬ s.Complete files := by
  induction ends with
  | all => exact ⟨fun ⟨_, fails⟩ => (nomatch fails), fun ⟨_, member, _⟩ => (nomatch member)⟩
  | onward complete _ _ ih =>
    rw [ih (List.pairwise_cons.mp heeds).2, List.exists_mem_cons_iff _ _ _]
    exact (or_iff_right (not_not_intro complete)).symm
  | stale complete stale =>
    refine ⟨fun ⟨_, fails⟩ => (nomatch fails), ?_⟩
    rintro ⟨s, member, incomplete⟩
    rcases List.mem_cons.mp member with rfl | later
    · exact absurd complete incomplete
    · exact absurd ((List.pairwise_cons.mp heeds).1 s later complete stale) incomplete
  | missing incomplete _ =>
    exact ⟨fun _ => ⟨_, List.mem_cons_self, incomplete⟩, fun _ => ⟨_, rfl⟩⟩

/-- Where nothing is missing behind a stale list, the order of the lists makes no difference. -/
theorem toOption_of_perm {sources' : List Sources} {result' : Except Fault Bool}
    (ends : q.Ends files sources result) (ends' : q.Ends files sources' result')
    (perm : sources.Perm sources') (heeds : sources.Pairwise (q.Heeds files))
    (heeds' : sources'.Pairwise (q.Heeds files)) : result.toOption = result'.toOption := by
  have fails : (∃ fault, result = .error fault) ↔ ∃ fault, result' = .error fault := by
    rw [ends.error_iff_of_heeds heeds, ends'.error_iff_of_heeds heeds']
    simp only [perm.mem_iff]
  have succeeds : result = .ok true ↔ result' = .ok true := by
    rw [ends.true_iff, ends'.true_iff]
    simp only [perm.mem_iff]
  rcases result with fault | current <;> rcases result' with fault' | current'
  · rfl
  · simp at fails
  · simp at fails
  · cases current <;> cases current' <;> simp_all

end Ends
end Inquiry
end Judging

section Asking

variable {φ : Type}

/-- The parts of an object that are of a kind. -/
def World.partsOf (w : World φ) (id : ObjectId) (kind : KindId) : List ObjectId :=
  (w.object id).parts.filter fun part => w.isA part kind

variable [FileSystem φ]

/-- A list of files is valid, and names some sources. -/
def World.Names (w : World φ) (list : ObjectId) (s : Sources) : Prop :=
  ∃ names base, w.listFiles list = .ok names ∧ w.listDirectory list = .ok base ∧
    s = ⟨some base, names.map .ofString⟩

/-- The sources of a task that has some lists: those that the lists name, or else a single file. -/
inductive World.Sourced (w : World φ) (id : ObjectId) : List ObjectId → List Sources → Prop where
  | file {path : Path} (given : w.isSet id "srcfile" = true)
      (reads : w.readPath id "srcfile" = .ok path) : Sourced w id [] [⟨none, [path]⟩]
  | lists {lists : List ObjectId} {sources : List Sources} (absent : w.isSet id "srcfile" = false)
      (some : lists ≠ []) (named : List.Forall₂ w.Names lists sources) : Sourced w id lists sources

/-- The single file that is derived, if a task gives one. -/
inductive World.Derives (w : World φ) (id : ObjectId) : Option Path → Prop where
  | file {path : Path} (given : w.isSet id "targetfile" = true)
      (reads : w.readPath id "targetfile" = .ok path) : Derives w id (some path)
  | none (absent : w.isSet id "targetfile" = false) : Derives w id none

/-- What a mapper stands for, if there is one. -/
inductive World.Rules (w : World φ) : List ObjectId → Option Mapper → Prop where
  | mapper {m : ObjectId} {more : List ObjectId} {mapper : Mapper}
      (reads : w.mapper m = .ok mapper) : Rules w (m :: more) (some mapper)
  | none : Rules w [] none

/-- A task has valid attributes and nested elements, with which it asks something of sources: of one
source or of some lists, with a file that is derived from them or with a mapper. -/
structure World.Inquires (w : World φ) (id : ObjectId) (q : Inquiry) (sources : List Sources) :
    Prop where
  given : q.derived.isSome = true ∨ q.rule.isSome = true
  derived : w.Derives id q.derived
  rule : w.Rules (w.partsOf id Standard.mapper) q.rule
  sources : w.Sourced id (w.partsOf id Standard.fileList) sources

/-- A task gives a single source exactly if it has no lists. -/
theorem World.Sourced.isEmpty_eq {w : World φ} {id : ObjectId} {lists : List ObjectId}
    {sources : List Sources} (sourced : w.Sourced id lists sources) :
    lists.isEmpty = w.isSet id "srcfile" := by
  cases sourced with
  | file given => rw [given]; rfl
  | lists absent some_ => rw [absent, List.isEmpty_eq_false_iff.mpr some_]

omit [FileSystem φ] in
theorem World.Derives.isSome_eq {w : World φ} {id : ObjectId} {derived : Option Path}
    (derives : w.Derives id derived) : derived.isSome = w.isSet id "targetfile" := by
  cases derives with
  | file given => rw [given]; rfl
  | none absent => rw [absent]; rfl

omit [FileSystem φ] in
theorem World.Rules.isSome_eq {w : World φ} {mappers : List ObjectId} {rule : Option Mapper}
    (rules : w.Rules mappers rule) : rule.isSome = !mappers.isEmpty := by
  cases rules <;> rfl

end Asking

namespace Engine

variable {φ : Type} [FileSystem φ] {w : World φ} {id : ObjectId} {q : Inquiry}
variable {lists mappers : List ObjectId} {sources : List Sources} {action : Engine φ Bool}

omit [FileSystem φ] in
theorem run_derivedPath {derived : Option Path} (derives : w.Derives id derived) :
    (derivedPath id (w.isSet id "targetfile")).run w = (.ok derived, w) := by
  unfold derivedPath
  cases derives with
  | file given reads =>
    rw [given, if_pos rfl, run_map, pathOf, run_consult_ok reads]
    rfl
  | none absent =>
    rw [absent]
    rfl

omit [FileSystem φ] in
theorem run_firstMapper {rule : Option Mapper} (rules : w.Rules mappers rule) :
    (firstMapper mappers).run w = (.ok rule, w) := by
  cases rules with
  | mapper reads =>
    rw [firstMapper, run_map, run_consult_ok reads]
    rfl
  | none => rfl

theorem run_isAbsent {derived : Option Path}
    (there : ∀ path, derived = some path → FileSystem.contains w.files path = true) :
    (isAbsent derived).run w = (.ok false, w) := by
  cases derived with
  | some path => rw [isAbsent, run_observe, there path rfl]; rfl
  | none => rfl

/-- An action changes nothing and ends as looking at sources does, one list after another. -/
def Decides (w : World φ) (q : Inquiry) (sources : List Sources) (action : Engine φ Bool) : Prop :=
  ∃ result, action.run w = (result, w) ∧ q.Ends w.files sources result

namespace Decides

/-- What is looked at first leaves the answer to the rest. -/
theorem after {α : Type} {look : Engine φ α} {next : α → Engine φ Bool} {a : α}
    (seen : look.run w = (.ok a, w)) (rest : Decides w q sources (next a)) :
    Decides w q sources (look >>= next) := by
  unfold Decides
  rwa [run_bind_ok seen]

theorem locating (decides : Decides w q sources action) (location : Location) :
    Decides w q sources (locating location action) := by
  obtain ⟨result, ran, ends⟩ := decides
  refine ⟨_, ?_, ends.placed location⟩
  cases result with
  | error fault => exact run_tryCatch_error ran
  | ok current => exact run_tryCatch_ok ran

/-- The sources of a list are looked at before those of others. -/
theorem cons {s : Sources} {asked : World φ → Except Fault Bool} {next : Bool → Engine φ Bool}
    (settles : Staleness.Settles w.files s (asked w) fun current =>
      current = true ↔ q.Current w.files s)
    (onward : Decides w q sources (next true)) (stops : next false = pure false) :
    Decides w q (s :: sources) (consult asked >>= next) := by
  rcases settles with ⟨incomplete, fault, missing, fails⟩ | ⟨complete, current, asked, judged⟩
  · exact ⟨_, run_bind_error (run_consult_error fails), .missing incomplete missing⟩
  · refine .after (run_consult_ok asked) ?_
    cases current with
    | true =>
      obtain ⟨result, ran, ends⟩ := onward
      exact ⟨result, ran, .onward complete (judged.mp rfl) ends⟩
    | false =>
      rw [stops]
      exact ⟨_, rfl, .stale complete fun current => nomatch judged.mpr current⟩

end Decides

/-- A single source is looked for first, and told if it is missing. -/
theorem decides_checkSource (sourced : w.Sourced id lists sources)
    (decides : Decides w q sources action) :
    Decides w q sources (checkSource id (w.isSet id "srcfile") >>= fun _ => action) := by
  unfold checkSource
  cases sourced with
  | lists absent => rwa [absent]
  | @file path given reads =>
    rw [given, if_pos rfl, bind_assoc]
    refine .after (run_consult_ok reads) ?_
    rw [bind_assoc]
    refine .after (run_observe _ w) ?_
    rw [bind_assoc]
    refine .after (run_observe _ w) ?_
    cases present : FileSystem.contains w.files path with
    | true => exact decides
    | false =>
      refine ⟨_, rfl, .missing (fun complete => ?_) ⟨_, _, rfl⟩⟩
      exact ne_true_of_eq_false present (complete path List.mem_cons_self)

variable [FileSystem.IsDated φ]

theorem decides_areListsCurrent (given : q.derived.isSome = true ∨ q.rule.isSome = true)
    (there : ∀ path, q.derived = some path → FileSystem.contains w.files path = true)
    (named : List.Forall₂ w.Names lists sources) :
    Decides w q sources (areListsCurrent q.derived q.rule lists) := by
  induction named with
  | nil => exact ⟨_, rfl, .all⟩
  | @cons list s lists sources names _ ih =>
    obtain ⟨names, base, listed, located, rfl⟩ := names
    unfold areListsCurrent
    refine .after (run_consult_ok listed) (.after (run_consult_ok located) ?_)
    extract_lets paths
    exact .cons (Staleness.settles_isUpToDate given there ⟨some base, paths⟩) ih rfl

/-- What is derived from the sources of a task is looked at list by list, or file by file. -/
theorem decides_areSourcesCurrent (given : q.derived.isSome = true ∨ q.rule.isSome = true)
    (there : ∀ path, q.derived = some path → FileSystem.contains w.files path = true)
    (sourced : w.Sourced id lists sources) :
    Decides w q sources
      (areSourcesCurrent id lists (w.isSet id "srcfile") q.derived q.rule) := by
  unfold areSourcesCurrent
  cases sourced with
  | @file path given' reads =>
    rw [given']
    refine .after (run_pure true w) (.after (run_consult_ok reads) ?_)
    rw [← bind_pure (consult _)]
    exact .cons (Staleness.settles_isUpToDate given there ⟨none, [path]⟩) ⟨_, rfl, .all⟩ rfl
  | lists absent _ named =>
    rw [absent]
    obtain ⟨result, ran, ends⟩ := decides_areListsCurrent given there named
    cases result with
    | error fault => exact ⟨_, run_bind_error ran, ends⟩
    | ok current =>
      refine .after ran ?_
      cases current <;> exact ⟨_, rfl, ends⟩

theorem decides_isDerivedCurrent (given : q.derived.isSome = true ∨ q.rule.isSome = true)
    (there : ∀ path, q.derived = some path → FileSystem.contains w.files path = true)
    (rules : w.Rules mappers q.rule) (sourced : w.Sourced id lists sources) :
    Decides w q sources
      (isDerivedCurrent id lists mappers (w.isSet id "srcfile") q.derived) := by
  unfold isDerivedCurrent
  refine .after (run_isAbsent there) (decides_checkSource sourced ?_)
  refine .after (run_firstMapper rules) (.after (run_object id w) (.locating ?_ _))
  exact decides_areSourcesCurrent given there sourced

/-- A task asks what it says, list by list. -/
theorem decides_isCurrent (asks : w.Inquires id q sources)
    (there : ∀ path, q.derived = some path → FileSystem.contains w.files path = true) :
    Decides w q sources (isCurrent id) := by
  obtain ⟨given, derived, rules, sourced⟩ := asks
  rw [isCurrent_eq]
  refine .after (run_observe _ w) (.after (run_observe _ w) ?_)
  refine .after (run_observe _ w) (.after (run_observe _ w) ?_)
  refine .after (run_rejectIf ?_) (.after (run_rejectIf ?_) (.after (run_rejectIf ?_) ?_))
  · exact sourced.isEmpty_eq ▸ Bool.and_not_self _
  · exact sourced.isEmpty_eq ▸ Bool.not_and_self _
  · rcases given with byTarget | byMapper
    · rw [← derived.isSome_eq, byTarget]
      rfl
    · rw [rules.isSome_eq, Bool.not_eq_true'] at byMapper
      exact Bool.and_eq_false_imp.mpr fun _ => byMapper
  refine .after (run_derivedPath derived) ?_
  exact decides_isDerivedCurrent given there rules sourced

/-- A task that asks of several lists of sources tells that a source is missing exactly if all lists
before that of the source are complete and current; otherwise all is current exactly if each list is
complete and current. So a missing source is told, wherever it stands, as long as none is missing
behind a complete list that is not current; and then it makes no difference in which order the lists
come. -/
theorem isCurrent_outcome (asks : w.Inquires id q sources)
    (there : ∀ path, q.derived = some path → FileSystem.contains w.files path = true) :
    ((isCurrent id).run w).2 = w ∧
    (∀ fault, ((isCurrent id).run w).1 = .error fault → fault.IsMissingSource) ∧
    ((∃ fault, ((isCurrent id).run w).1 = .error fault) ↔
      ∃ earlier s later, sources = earlier ++ s :: later ∧
        (∀ other ∈ earlier, other.Complete w.files ∧ q.Current w.files other) ∧
        ¬ s.Complete w.files) ∧
    (((isCurrent id).run w).1 = .ok true ↔
      ∀ s ∈ sources, s.Complete w.files ∧ q.Current w.files s) ∧
    (sources.Pairwise (q.Heeds w.files) →
      ((∃ fault, ((isCurrent id).run w).1 = .error fault) ↔ ∃ s ∈ sources, ¬ s.Complete w.files) ∧
      ∀ (u : World φ) (task : ObjectId) (others : List Sources), u.files = w.files →
        u.Inquires task q others → sources.Perm others → others.Pairwise (q.Heeds w.files) →
        ((isCurrent task).run u).1.toOption = ((isCurrent id).run w).1.toOption) := by
  obtain ⟨result, ran, ends⟩ := decides_isCurrent asks there
  rw [ran]
  refine ⟨rfl, fun _ => ends.isMissingSource, ends.error_iff, ends.true_iff,
    fun heeds => ⟨ends.error_iff_of_heeds heeds, ?_⟩⟩
  intro u task others files asks' perm heeds'
  obtain ⟨result', ran', ends'⟩ := decides_isCurrent asks' (by rwa [files])
  rw [files] at ends'
  rw [ran']
  exact (ends.toOption_of_perm ends' perm heeds heeds').symm

end Engine

namespace Sample

def app : Path := ⟨.root, ["app"]⟩

def sourceList (name : String) : Object where
  kind := Standard.fileList
  project := 0
  fields := .ofList [("dir", .value (.path ⟨.root, ["src"]⟩)), ("files", .value (.text name))]

/-- Two tasks that ask of the same lists, in different orders: of a source that is newer than what
is derived from it, and of one that is missing. -/
def asking : World MemoryFiles where
  files := {
    files := .ofList [
      (⟨.root, ["src", "a.c"]⟩, { time := .ofInt 2 }), (app, { time := .ofInt 1 })] }
  projects := [{ directory := .top }]
  objects := [
    { kind := Standard.upToDate, project := 0
      fields := .ofList [("targetfile", .value (.path app))], parts := [2, 3] },
    { kind := Standard.upToDate, project := 0
      fields := .ofList [("targetfile", .value (.path app))], parts := [3, 2] },
    sourceList "a.c", sourceList "missing.c"]

def listed (name : String) : Sources := ⟨some ⟨.root, ["src"]⟩, [.ofString name]⟩

theorem ok_of_toOption {α : Type} {result : Except Fault α} {a : α}
    (ended : result.toOption = some a) : result = .ok a := by
  cases result with
  | error => cases ended
  | ok =>
    cases ended
    rfl

theorem asking_names : asking.Names 2 (listed "a.c") ∧ asking.Names 3 (listed "missing.c") := by
  have files : (asking.listFiles 2).toOption = some ["a.c"] ∧
      (asking.listFiles 3).toOption = some ["missing.c"] := by decide +kernel
  have directories : (asking.listDirectory 2).toOption = some ⟨.root, ["src"]⟩ ∧
      (asking.listDirectory 3).toOption = some ⟨.root, ["src"]⟩ := by decide +kernel
  exact ⟨⟨_, _, ok_of_toOption files.1, ok_of_toOption directories.1, rfl⟩,
    ⟨_, _, ok_of_toOption files.2, ok_of_toOption directories.2, rfl⟩⟩

theorem asking_inquires :
    asking.Inquires 0 ⟨some app, none⟩ [listed "a.c", listed "missing.c"] ∧
      asking.Inquires 1 ⟨some app, none⟩ [listed "missing.c", listed "a.c"] := by
  have derived : (asking.isSet 0 "targetfile" = true ∧
        (asking.readPath 0 "targetfile").toOption = some app) ∧
      asking.isSet 1 "targetfile" = true ∧
        (asking.readPath 1 "targetfile").toOption = some app := by decide +kernel
  have absent : asking.isSet 0 "srcfile" = false ∧ asking.isSet 1 "srcfile" = false := by
    decide +kernel
  have parts : (asking.partsOf 0 Standard.mapper = [] ∧
        asking.partsOf 0 Standard.fileList = [2, 3]) ∧
      asking.partsOf 1 Standard.mapper = [] ∧ asking.partsOf 1 Standard.fileList = [3, 2] := by
    decide +kernel
  obtain ⟨first, second⟩ := asking_names
  refine ⟨⟨.inl rfl, .file derived.1.1 (ok_of_toOption derived.1.2), ?_, ?_⟩,
    ⟨.inl rfl, .file derived.2.1 (ok_of_toOption derived.2.2), ?_, ?_⟩⟩
  · rw [parts.1.1]
    exact .none
  · rw [parts.1.2]
    exact .lists absent.1 (List.cons_ne_nil _ _) (.cons first (.cons second .nil))
  · rw [parts.2.1]
    exact .none
  · rw [parts.2.2]
    exact .lists absent.2 (List.cons_ne_nil _ _) (.cons second (.cons first .nil))

theorem missing_incomplete : ¬ (listed "missing.c").Complete asking.files := by
  intro complete
  have there := complete (.ofString "missing.c") List.mem_cons_self
  have absent : FileSystem.contains asking.files
      (Staleness.seenFrom (some ⟨.root, ["src"]⟩) (.ofString "missing.c")) = false := by
    decide +kernel
  exact ne_true_of_eq_false absent there

end Sample

open Sample

/-- A missing source is told, if its list comes first. -/
theorem Engine.isCurrent_outcome_told :
    (asking.Inquires 1 ⟨some app, none⟩ [listed "missing.c", listed "a.c"] ∧
      FileSystem.contains asking.files app = true) ∧
    ∃ fault, ((isCurrent 1).run asking).1 = .error fault := by
  have there : FileSystem.contains asking.files app = true := by decide +kernel
  have derives : ∀ path, some app = some path → FileSystem.contains asking.files path = true := by
    rintro _ ⟨⟩
    exact there
  obtain ⟨-, -, told, -⟩ := isCurrent_outcome asking_inquires.2 derives
  exact ⟨⟨asking_inquires.2, there⟩, told.mpr ⟨[], _, _, rfl, nofun, missing_incomplete⟩⟩

/-- A missing source is overlooked behind a list that is not current, while it is told if the lists
come in the other order. -/
theorem Engine.isCurrent_overlooks :
    (asking.Inquires 0 ⟨some app, none⟩ [listed "a.c", listed "missing.c"] ∧
      asking.Inquires 1 ⟨some app, none⟩ [listed "missing.c", listed "a.c"] ∧
      FileSystem.contains asking.files app = true ∧
      ¬ (listed "missing.c").Complete asking.files) ∧
    ((isCurrent 0).run asking).1 = .ok false ∧
      ((isCurrent 1).run asking).1.isOk = false := by
  have ends : ((isCurrent 0).run asking).1.toOption = some false ∧
      ((isCurrent 1).run asking).1.isOk = false := by decide +kernel
  exact ⟨⟨asking_inquires.1, asking_inquires.2, by decide +kernel, missing_incomplete⟩,
    ok_of_toOption ends.1, ends.2⟩

end BuildEngine
