import BuildEngine.Supplier
import Mathlib.Data.List.Nodup
import Mathlib.Data.List.Lattice
import Mathlib.Data.List.Pairwise
import Mathlib.Data.List.Perm.Basic

/-! The lineage of a supplier. It lists the ends of all ways that lead from the supplier over direct
parents, shorter ways first, so that a supplier stands in it once for every way. Nothing is listed
twice exactly if no two suppliers of the lineage share a parent. -/

namespace BuildEngine

variable {ι σ ε : Type}

/-- Suppliers at places of their own. Suppliers at different places may look alike, as fixed values
do that are equal; one that several others are derived from has one place. -/
structure Derivation (ι σ ε : Type) where
  supplier : ι → Supplier σ ε
  /-- The places of the direct parents. -/
  sources : ι → List ι
  parents_supplier : ∀ place, (supplier place).parents = (sources place).map supplier
  /-- An attribute names its source, and again what that names. -/
  sources_field : ∀ place number owner name source,
    supplier place = .field number owner name source →
      ∃ origin, sources place = origin :: sources origin

namespace Derivation

open Supplier

variable {d : Derivation ι σ ε} {place other start : ι} {level : List ι} {steps : Nat}

/-- One place is reached from another over direct parents, in a number of steps. -/
inductive Ascends (d : Derivation ι σ ε) : Nat → ι → ι → Prop
  | here {place : ι} : Ascends d 0 place place
  | step {steps : Nat} {place next last : ι} (parent : next ∈ d.sources place)
      (onward : Ascends d steps next last) : Ascends d (steps + 1) place last

/-- What is said of a place in a lineage: its supplier with the direct parents. -/
def entry (d : Derivation ι σ ε) (place : ι) : Supplier σ ε × List (Supplier σ ε) :=
  (d.supplier place, (d.sources place).map d.supplier)

/-- No two of the suppliers that are reached from a place share a parent, and none names a parent
twice. -/
structure Branches (d : Derivation ι σ ε) (start : ι) : Prop where
  single : ∀ place steps, d.Ascends steps start place → (d.sources place).Nodup
  apart : ∀ place other steps more, d.Ascends steps start place → d.Ascends more start other →
    place ≠ other → (d.sources place).Disjoint (d.sources other)

theorem Ascends.snoc (path : d.Ascends steps start place) (parent : other ∈ d.sources place) :
    d.Ascends (steps + 1) start other := by
  induction path with
  | here => exact .step parent .here
  | step first _ ih => exact .step first (ih parent)

/-! ### Levels -/

theorem weights_sources_lt (d : Derivation ι σ ε) (place : ι) :
    weights ((d.sources place).map d.supplier) < (d.supplier place).weight := by
  rw [← d.parents_supplier]
  exact weights_parents_lt _

theorem weights_next_le (d : Derivation ι σ ε) (level : List ι) :
    weights ((level.flatMap d.sources).map d.supplier) + level.length ≤
      weights (level.map d.supplier) := by
  induction level with
  | nil => simp
  | cons place rest ih =>
    have first := d.weights_sources_lt place
    simp only [List.flatMap_cons, List.map_append, weights_append, List.map_cons, weights,
      List.length_cons]
    omega

/-- Going from level to level, from suppliers to all their direct parents, comes to an end. -/
theorem level_induction {motive : List ι → Prop} (nil : motive [])
    (next : ∀ level, motive (level.flatMap d.sources) → motive level) (level : List ι) :
    motive level := by
  induction bound : weights (level.map d.supplier) using Nat.strongRecOn
    generalizing level with
  | ind total ih =>
    cases level with
    | nil => exact nil
    | cons place rest =>
      have lighter := d.weights_next_le (place :: rest)
      rw [List.length_cons] at lighter
      exact next _ (ih _ (by omega) _ rfl)

/-- The ends of the ways of a number of steps that begin on a level, one for each way. -/
def rank (d : Derivation ι σ ε) (level : List ι) : Nat → List ι
  | 0 => level
  | steps + 1 => rank d (level.flatMap d.sources) steps

theorem mem_rank : place ∈ d.rank level steps ↔ ∃ start ∈ level, d.Ascends steps start place := by
  induction steps generalizing level with
  | zero =>
    constructor
    · exact fun member => ⟨place, member, .here⟩
    · rintro ⟨start, member, path⟩
      cases path
      exact member
  | succ steps ih =>
    rw [rank, ih]
    constructor
    · rintro ⟨next, member, path⟩
      obtain ⟨start, first, parent⟩ := List.mem_flatMap.mp member
      exact ⟨start, first, .step parent path⟩
    · rintro ⟨start, member, path⟩
      cases path with
      | step parent onward => exact ⟨_, List.mem_flatMap.mpr ⟨start, member, parent⟩, onward⟩

/-- Parents are lighter, so no way leads back to where it began. -/
theorem Ascends.weight_le (path : d.Ascends steps start place) :
    steps + (d.supplier place).weight ≤ (d.supplier start).weight := by
  induction path with
  | here => simp
  | @step steps start next last parent _ ih =>
    have lighter := d.weights_sources_lt start
    obtain ⟨front, back, split⟩ := List.append_of_mem parent
    rw [split] at lighter
    simp only [List.map_append, List.map_cons, weights_append, weights] at lighter
    omega

/-! ### The listing of places -/

/-- The places that a lineage lists, from a worklist. -/
def listing (d : Derivation ι σ ε) : List ι → List ι
  | [] => []
  | place :: rest => place :: listing d (rest ++ d.sources place)
  termination_by work => weights (work.map d.supplier)
  decreasing_by
    have := d.weights_sources_lt place
    rw [List.map_append, weights_append, List.map_cons, weights]
    omega

/-- A lineage lists the suppliers at the places of the listing, with their direct parents. -/
theorem lineageOf_map (d : Derivation ι σ ε) (work : List ι) :
    lineageOf (work.map d.supplier) = (d.listing work).map d.entry := by
  fun_induction listing d work with
  | case1 => simp [lineageOf]
  | case2 place rest ih =>
    rw [List.map_cons, lineageOf, d.parents_supplier, ← List.map_append, ih, List.map_cons, entry]

theorem listing_append (d : Derivation ι σ ε) (level later : List ι) :
    d.listing (level ++ later) = level ++ d.listing (later ++ level.flatMap d.sources) := by
  induction level generalizing later with
  | nil => simp
  | cons place rest ih =>
    rw [List.cons_append, listing, List.append_assoc, ih, List.cons_append, List.flatMap_cons,
      List.append_assoc]

/-- A listing goes through a level before it goes on to the parents. -/
theorem listing_level (d : Derivation ι σ ε) (level : List ι) :
    d.listing level = level ++ d.listing (level.flatMap d.sources) := by
  simpa using d.listing_append level []

/-- A listing is made of levels, one after another until there is nothing left. -/
theorem listing_eq_ranks (d : Derivation ι σ ε) (level : List ι) : ∃ depth,
    d.rank level depth = [] ∧ d.listing level = (List.range depth).flatMap (d.rank level) := by
  induction level using d.level_induction with
  | nil => exact ⟨0, rfl, by simp [listing]⟩
  | next level ih =>
    obtain ⟨depth, last, listed⟩ := ih
    refine ⟨depth + 1, last, ?_⟩
    rw [listing_level, listed, List.range_succ_eq_map, List.flatMap_cons, List.flatMap_map]
    rfl

theorem mem_listing :
    place ∈ d.listing level ↔ ∃ start ∈ level, ∃ steps, d.Ascends steps start place := by
  induction level using d.level_induction with
  | nil => simp [listing]
  | next level ih =>
    rw [listing_level, List.mem_append, ih]
    constructor
    · rintro (member | ⟨next, member, steps, path⟩)
      · exact ⟨place, member, 0, .here⟩
      · obtain ⟨start, first, parent⟩ := List.mem_flatMap.mp member
        exact ⟨start, first, steps + 1, .step parent path⟩
    · rintro ⟨start, member, steps, path⟩
      cases path with
      | here => exact .inl member
      | step parent onward =>
        exact .inr ⟨_, List.mem_flatMap.mpr ⟨start, member, parent⟩, _, onward⟩

/-- Whatever stands before the first mention of a place is reached in no more steps. -/
theorem ascends_of_before {front back : List ι} (split : d.listing level = front ++ place :: back)
    (first : place ∉ front) (begins : start ∈ level) (path : d.Ascends steps start place)
    (before : other ∈ front) : ∃ begin ∈ level, ∃ fewer ≤ steps, d.Ascends fewer begin other := by
  induction level using d.level_induction generalizing front start steps with
  | nil => cases begins
  | next level ih =>
    by_cases early : other ∈ level
    · exact ⟨other, early, 0, Nat.zero_le _, .here⟩
    · rw [listing_level] at split
      rcases List.append_eq_append_iff.mp split with ⟨more, same, rest⟩ | ⟨more, same, _⟩
      · have late : place ∉ level := fun member => first (same ▸ List.mem_append_left _ member)
        cases path with
        | here => exact absurd begins late
        | step parent onward =>
          rw [same] at first before
          obtain ⟨next, member, fewer, less, path⟩ := ih rest
            (fun member => first (List.mem_append_right _ member))
            (List.mem_flatMap.mpr ⟨_, begins, parent⟩) onward
            ((List.mem_append.mp before).resolve_left early)
          obtain ⟨begin, begins, parent⟩ := List.mem_flatMap.mp member
          exact ⟨begin, begins, fewer + 1, by omega, .step parent path⟩
      · exact absurd (same ▸ List.mem_append_left _ before) early

/-! ### Repetitions -/

/-- A listing holds its first level, and once more each parent of each of its members. -/
theorem listing_perm (d : Derivation ι σ ε) (level : List ι) :
    (d.listing level).Perm (level ++ (d.listing level).flatMap d.sources) := by
  induction level using d.level_induction with
  | nil => simp [listing]
  | next level ih =>
    rw [listing_level, List.flatMap_append]
    exact ih.append_left level

/-- If no two members share a parent, and the first level is new, a listing repeats nothing. -/
theorem nodup_listing (distinct : level.Nodup)
    (single : ∀ place ∈ d.listing level, (d.sources place).Nodup)
    (apart : ∀ place ∈ d.listing level, ∀ other ∈ d.listing level, place ≠ other →
      (d.sources place).Disjoint (d.sources other))
    (new : ∀ place ∈ d.listing level, (d.sources place).Disjoint level) :
    (d.listing level).Nodup := by
  induction level using d.level_induction with
  | nil => simp [listing]
  | next level ih =>
    have members : d.listing level = level ++ d.listing (level.flatMap d.sources) :=
      d.listing_level level
    have upper {place : ι} (member : place ∈ level) : place ∈ d.listing level :=
      members ▸ List.mem_append_left _ member
    have lower {place : ι} (member : place ∈ d.listing (level.flatMap d.sources)) :
        place ∈ d.listing level := members ▸ List.mem_append_right _ member
    -- What is listed further on is a parent of something, and the first level holds no parents.
    have separate : level.Disjoint (d.listing (level.flatMap d.sources)) := by
      intro place first later
      rcases List.mem_append.mp ((d.listing_perm _).mem_iff.mp later) with parent | parent
      · obtain ⟨child, member, parent⟩ := List.mem_flatMap.mp parent
        exact new child (upper member) parent first
      · obtain ⟨child, member, parent⟩ := List.mem_flatMap.mp parent
        exact new child (lower member) parent first
    have next : (level.flatMap d.sources).Nodup := by
      refine List.nodup_flatMap.mpr ⟨fun place member => single place (upper member), ?_⟩
      refine distinct.imp_of_mem ?_
      exact fun first second different => apart _ (upper first) _ (upper second) different
    rw [members]
    refine List.nodup_append'.mpr ⟨distinct, ih next ?_ ?_ ?_, separate⟩
    · exact fun place member => single place (lower member)
    · exact fun place member other others => apart place (lower member) other (lower others)
    · intro place member parent parents level
      obtain ⟨child, first, again⟩ := List.mem_flatMap.mp level
      have different : place ≠ child := by
        rintro rfl
        exact separate first member
      exact apart place (lower member) child (upper first) different parents again

/-- The listing from a place repeats nothing exactly if what is reached from it shares no parents. -/
theorem nodup_listing_iff : (d.listing [start]).Nodup ↔ d.Branches start := by
  have reached {place : ι} : place ∈ d.listing [start] ↔ ∃ steps, d.Ascends steps start place := by
    simp [mem_listing]
  constructor
  · intro distinct
    have parents := (List.nodup_append'.mp ((d.listing_perm [start]).nodup_iff.mp distinct)).2.1
    obtain ⟨single, apart⟩ := List.nodup_flatMap.mp parents
    refine ⟨fun place steps path => single place (reached.mpr ⟨steps, path⟩), ?_⟩
    intro place other steps more path others different
    have symmetric : Std.Symm (Function.onFun List.Disjoint d.sources) :=
      ⟨fun _ _ disjoint => List.Disjoint.symm disjoint⟩
    exact apart.forall (reached.mpr ⟨steps, path⟩) (reached.mpr ⟨more, others⟩) different
  · intro branches
    apply nodup_listing (List.nodup_singleton start)
    · intro place member
      obtain ⟨steps, path⟩ := reached.mp member
      exact branches.single place steps path
    · intro place member other others different
      obtain ⟨steps, path⟩ := reached.mp member
      obtain ⟨more, longer⟩ := reached.mp others
      exact branches.apart place other steps more path longer different
    · intro place member parent listed first
      obtain ⟨steps, path⟩ := reached.mp member
      rw [List.mem_singleton.mp first] at listed
      have back := (path.snoc listed).weight_le
      omega

/-- An attribute whose source has parents names them before the source does, so every lineage that
comes to it repeats something. -/
theorem repeats_of_field {number : Nat} {owner name : String} {source : Supplier σ ε}
    (path : d.Ascends steps start place)
    (reads : d.supplier place = .field number owner name source) (derived : source.parents ≠ []) :
    ¬(d.listing [start]).Nodup := by
  intro distinct
  obtain ⟨origin, named⟩ := d.sources_field _ _ _ _ _ reads
  have origins := d.parents_supplier place
  rw [reads, named, List.map_cons, parents] at origins
  obtain ⟨first, rest⟩ := List.cons.inj origins
  have parent : origin ∈ d.sources place := named ▸ List.mem_cons_self
  have different : place ≠ origin := by
    rintro rfl
    have lighter := (Ascends.step parent .here).weight_le
    omega
  have branches := nodup_listing_iff.mp distinct
  have apart := branches.apart place origin _ _ path (path.snoc parent) different
  cases shared : d.sources origin with
  | nil => exact derived (by rw [rest, shared, List.map_nil])
  | cons common more =>
    have member : common ∈ d.sources origin := shared ▸ List.mem_cons_self
    exact apart (named ▸ List.mem_cons_of_mem origin member) member

/-- The lineage of a supplier always comes to its end. It gives each supplier together with its
direct parents, and lists the suppliers that are reached over direct parents and no others: the
supplier itself, then the ends of all ways of one step, of two steps, and so on, one entry for each
way. So nothing stands before the first mention of a supplier that is more steps away; and nothing
is mentioned twice exactly if no two suppliers of the lineage share a parent, as an attribute and its
source do whenever the source has parents. -/
theorem lineage_by_ways (d : Derivation ι σ ε) (start : ι) :
    (d.supplier start).lineage = (d.listing [start]).map d.entry ∧
    (∃ depth, d.rank [start] depth = [] ∧
      d.listing [start] = (List.range depth).flatMap (d.rank [start])) ∧
    (∀ steps place, place ∈ d.rank [start] steps ↔ d.Ascends steps start place) ∧
    (d.listing [start]).head? = some start ∧
    (∀ place, place ∈ d.listing [start] ↔ ∃ steps, d.Ascends steps start place) ∧
    (∀ front place back, d.listing [start] = front ++ place :: back → place ∉ front →
      ∀ steps, d.Ascends steps start place → ∀ other ∈ front,
        ∃ fewer ≤ steps, d.Ascends fewer start other) ∧
    ((d.listing [start]).Nodup ↔ d.Branches start) ∧
    ∀ steps place number owner name source, d.Ascends steps start place →
      d.supplier place = .field number owner name source → source.parents ≠ [] →
        ¬(d.listing [start]).Nodup := by
  refine ⟨d.lineageOf_map [start], d.listing_eq_ranks [start], ?_, ?_, ?_, ?_, nodup_listing_iff,
    fun _ _ _ _ _ _ => repeats_of_field⟩
  · simp [mem_rank]
  · rw [listing]
    rfl
  · simp [mem_listing]
  · intro front place back split first steps path other before
    simpa using ascends_of_before split first (List.mem_singleton_self start) path before

end Derivation

/-- The places of a word, of two suppliers that are made from it, and of one that stems from both. -/
inductive Label where
  | word | loud | size | both

namespace Label

def wordSupplier : Supplier Nat Empty := .fixed (.text "abc") []

def loudSupplier : Supplier Nat Empty :=
  .mapped 1 "fn:upper" (fun _ => .ok (.text "ABC")) wordSupplier

def sizeSupplier : Supplier Nat Empty := .mapped 2 "fn:len" (fun _ => .ok (.int 3)) wordSupplier

def bothSupplier : Supplier Nat Empty :=
  .computed 3 "fn:const:x" (.ok (.text "x")) [loudSupplier, sizeSupplier]

def derivation : Derivation Label Nat Empty where
  supplier
    | word => wordSupplier
    | loud => loudSupplier
    | size => sizeSupplier
    | both => bothSupplier
  sources
    | word => []
    | loud | size => [word]
    | both => [loud, size]
  parents_supplier place := by cases place <;> rfl
  sources_field place _ _ _ _ same := by cases place <;> cases same

/-- What is made from a word and nothing else shares no parents, and its lineage repeats nothing. -/
theorem lineage_by_ways_loud :
    loudSupplier.lineage = [(loudSupplier, [wordSupplier]), (wordSupplier, [])] ∧
      derivation.Branches loud := by
  obtain ⟨lineage, _, _, _, _, _, single, _⟩ := derivation.lineage_by_ways loud
  have listed : derivation.listing [loud] = [loud, word] := by
    simp [Derivation.listing, derivation]
  rw [listed] at lineage single
  exact ⟨lineage, single.mp (by simp)⟩

/-- The word that two suppliers are made from stands twice in the lineage of what stems from both. -/
theorem lineage_repeats_shared :
    bothSupplier.lineage = [(bothSupplier, [loudSupplier, sizeSupplier]),
      (loudSupplier, [wordSupplier]), (sizeSupplier, [wordSupplier]), (wordSupplier, []),
      (wordSupplier, [])] ∧
    ¬(derivation.listing [both]).Nodup := by
  have listed : derivation.listing [both] = [both, loud, size, word, word] := by
    simp [Derivation.listing, derivation]
  have lineage := derivation.lineageOf_map [both]
  rw [listed] at lineage
  exact ⟨lineage, by simp [listed]⟩

end Label

end BuildEngine
