import BuildEngine.Proofs.Ending
import Mathlib.Data.List.Nodup
import Mathlib.Data.List.Perm.Subperm
import Mathlib.Logic.Relation

/-! Nesting. A path lists the locations of the paths that are nested in it, depth first, each once. Paths
may share others; only a path that contains itself has no list. -/

namespace BuildEngine

open Relation

variable {φ α β γ : Type}

/-! First occurrences. -/

/-- The entries of a list without repetitions, by where they come up first. -/
structure Firsts [BEq α] (all firsts : List α) : Prop where
  distinct : firsts.Nodup
  entries : ∀ a, a ∈ firsts ↔ a ∈ all
  ordered : firsts.Pairwise fun a b => all.idxOf a < all.idxOf b

section Firsts

variable [BEq α] [LawfulBEq α]

/-- Leaving out other entries does not change which of two comes first. -/
theorem idxOf_lt_of_filter {p : α → Bool} {a b : α} {l : List α} (keeps : p a = true)
    (keeps' : p b = true) (before : (l.filter p).idxOf a < (l.filter p).idxOf b) :
    l.idxOf a < l.idxOf b := by
  induction l with
  | nil => exact before
  | cons c rest ih =>
    cases kept : p c with
    | true =>
      rw [List.filter_cons_of_pos kept, List.idxOf_cons, List.idxOf_cons] at before
      rw [List.idxOf_cons, List.idxOf_cons]
      cases same : c == b with
      | true => rw [same] at before; exact absurd before (Nat.not_lt_zero _)
      | false =>
        rw [same] at before
        cases same' : c == a with
        | true => exact Nat.succ_pos _
        | false =>
          rw [same'] at before
          exact Nat.succ_lt_succ (ih (Nat.lt_of_succ_lt_succ before))
    | false =>
      have other {d : α} (keeps : p d = true) : (c == d) = false :=
        beq_eq_false_iff_ne.mpr fun same => by rw [same, keeps] at kept; cases kept
      rw [List.filter_cons_of_neg (ne_true_of_eq_false kept)] at before
      rw [List.idxOf_cons, List.idxOf_cons, other keeps, other keeps']
      exact Nat.succ_lt_succ (ih before)

theorem idxOf_cons_of_other {a c : α} {rest : List α} (other : (!a == c) = true) :
    (c :: rest).idxOf a = rest.idxOf a + 1 := by
  have different : (c == a) = false := by
    rw [BEq.comm]
    exact Bool.not_eq_true' _ ▸ other
  rw [List.idxOf_cons, different]
  rfl

theorem eraseDups_ordered (l : List α) :
    l.eraseDups.Pairwise fun a b => l.idxOf a < l.idxOf b := by
  -- On the length: of what follows an entry, its repetitions are left out first.
  induction size : l.length using Nat.strongRecOn generalizing l with
  | ind size' ih =>
    cases l with
    | nil => exact .nil
    | cons c rest =>
      have other {a : α} (member : a ∈ (rest.filter fun b => !b == c).eraseDups) :
          (!a == c) = true := (List.mem_filter.mp (List.mem_eraseDups.mp member)).2
      have shorter : (rest.filter fun b => !b == c).length < size' := by
        rw [← size]
        exact Nat.lt_succ_of_le (List.length_filter_le ..)
      rw [List.eraseDups_cons, List.pairwise_cons]
      refine ⟨fun a member => ?_, (ih _ shorter _ rfl).imp_of_mem fun first second before => ?_⟩
      · rw [idxOf_cons_of_other (other member), List.idxOf_cons_self]
        exact Nat.succ_pos _
      · rw [idxOf_cons_of_other (other first), idxOf_cons_of_other (other second)]
        exact Nat.succ_lt_succ (idxOf_lt_of_filter (other first) (other second) before)

theorem firsts_eraseDups (l : List α) : Firsts l l.eraseDups where
  distinct := (eraseDups_ordered l).imp fun before same => by
    rw [same] at before
    exact Nat.lt_irrefl _ before
  entries := fun _ => List.mem_eraseDups
  ordered := eraseDups_ordered l

end Firsts

/-! Results of one reading after another. -/

section Results

variable {first : Except Fault α} {next : α → Except Fault β} {result : β} {fault : Fault}

theorem ok_of_bind (ended : (first >>= next) = .ok result) :
    ∃ a, first = .ok a ∧ next a = .ok result := by
  cases first with
  | error => cases ended
  | ok a => exact ⟨a, rfl, ended⟩

theorem error_of_bind (failed : (first >>= next) = .error fault) :
    first = .error fault ∨ ∃ a, first = .ok a ∧ next a = .error fault := by
  cases first with
  | error => cases failed; exact .inl rfl
  | ok a => exact .inr ⟨a, rfl, failed⟩

theorem ok_of_map {change : α → β} (ended : first.map change = .ok result) :
    ∃ a, first = .ok a ∧ change a = result := by
  cases first with
  | error => cases ended
  | ok a => exact ⟨a, rfl, Except.ok.inj ended⟩

theorem map_bind (first : Except Fault α) (change : α → γ) (next : γ → Except Fault β) :
    first.map change >>= next = first >>= fun a => next (change a) := by
  cases first <;> rfl

theorem error_of_map {change : α → β} (failed : first.map change = .error fault) :
    first = .error fault := by
  cases first with
  | error => cases failed; rfl
  | ok => cases failed

end Results

/-- The lists of several objects in one. -/
def gathered (f : α → Except Fault (List β)) (xs : List α) : Except Fault (List β) :=
  (xs.mapM f).map List.flatten

section Gathered

variable {f : α → Except Fault (List β)} {x : α} {xs ys : List α} {found : List β} {fault : Fault}

theorem gathered_cons (f : α → Except Fault (List β)) (x : α) (xs : List α) :
    gathered f (x :: xs) = do
      let own ← f x
      let more ← gathered f xs
      return own ++ more := by
  unfold gathered
  rw [List.mapM_cons]
  cases f x with
  | error => rfl
  | ok own => cases xs.mapM f <;> rfl

theorem gathered_append (f : α → Except Fault (List β)) (xs ys : List α) :
    gathered f (xs ++ ys) = do
      let own ← gathered f xs
      let more ← gathered f ys
      return own ++ more := by
  induction xs with
  | nil =>
    rw [List.nil_append]
    cases gathered f ys <;> rfl
  | cons x xs ih =>
    rw [List.cons_append, gathered_cons, gathered_cons, ih]
    simp only [bind_assoc, pure_bind, List.append_assoc]

/-- What is gathered is there in full. -/
theorem gathered_eq_ok (gathers : gathered f xs = .ok found) :
    ∃ each, List.Forall₂ (fun x own => f x = .ok own) xs each ∧ found = each.flatten := by
  induction xs generalizing found with
  | nil =>
    cases gathers
    exact ⟨[], .nil, rfl⟩
  | cons x xs ih =>
    rw [gathered_cons] at gathers
    obtain ⟨own, first, gathers⟩ := ok_of_bind gathers
    obtain ⟨more, others, gathers⟩ := ok_of_bind gathers
    obtain ⟨each, all, rfl⟩ := ih others
    cases gathers
    exact ⟨own :: each, .cons first all, rfl⟩

theorem ok_of_gathered (gathers : gathered f xs = .ok found) (member : x ∈ xs) :
    ∃ own, f x = .ok own := by
  obtain ⟨each, all, -⟩ := gathered_eq_ok gathers
  clear gathers
  induction all with
  | nil => cases member
  | cons first _ ih =>
    rcases List.mem_cons.mp member with rfl | later
    · exact ⟨_, first⟩
    · exact ih later

theorem gathered_eq_error (fails : gathered f xs = .error fault) : ∃ x ∈ xs, f x = .error fault := by
  induction xs with
  | nil => cases fails
  | cons x xs ih =>
    rw [gathered_cons] at fails
    rcases error_of_bind fails with first | ⟨own, -, fails⟩
    · exact ⟨x, List.mem_cons_self, first⟩
    rcases error_of_bind fails with others | ⟨more, -, fails⟩
    · obtain ⟨y, member, second⟩ := ih others
      exact ⟨y, List.mem_cons_of_mem _ member, second⟩
    · cases fails

end Gathered

/-- Faults of something that leads back to itself. -/
def Fault.isCycle : Fault → Bool
  | configuration (.reference (.cycle _)) _ => true
  | _ => false

namespace World

/-- A path nests another: one of its parts is a path that stands for the other one. -/
def Nests (w : World φ) (path other : ObjectId) : Prop :=
  ∃ part ∈ (w.object path).parts, w.isA part Standard.pathList = true ∧ w.target part = .ok other

/-- Nested in a path, at whatever depth, or the path itself, is a path that contains itself. -/
def Circular (w : World φ) (path : ObjectId) : Prop :=
  ∃ other, ReflTransGen w.Nests path other ∧ TransGen w.Nests other other

/-- All that is nested as a path, at whatever depth, stands for something. -/
def NestingLeads (w : World φ) (path : ObjectId) : Prop :=
  ∀ other, ReflTransGen w.Nests path other → ∀ part ∈ (w.object other).parts,
    w.isA part Standard.pathList = true → ∃ next, w.target part = .ok next

/-- An object from which a path has locations: a path that is nested in it, or an element of one. -/
inductive Contributes (w : World φ) (path : ObjectId) : ObjectId → Prop where
  | path {other : ObjectId} (within : ReflTransGen w.Nests path other) : Contributes w path other
  | element {other part : ObjectId} (within : ReflTransGen w.Nests path other)
      (member : part ∈ (w.object other).parts) (plain : w.isA part Standard.pathList = false) :
      Contributes w path part

/-- The objects to whose own locations parts come, depth first, in the order of declaration. -/
inductive Unfolds (w : World φ) : List ObjectId → List ObjectId → Prop where
  | nil : Unfolds w [] []
  | element {part : ObjectId} {parts rest : List ObjectId}
      (plain : w.isA part Standard.pathList = false) (others : Unfolds w parts rest) :
      Unfolds w (part :: parts) (part :: rest)
  | path {part path : ObjectId} {parts inner rest : List ObjectId}
      (nested : w.isA part Standard.pathList = true) (leads : w.target part = .ok path)
      (within : Unfolds w (w.object path).parts inner) (others : Unfolds w parts rest) :
      Unfolds w (part :: parts) (path :: inner ++ rest)

/-- An object has locations of its own: the one that it names, then those of which it has a text. -/
def Spells (w : World φ) (id : ObjectId) (own : List Path) : Prop :=
  ∃ single several, own = single ++ several ∧
    (if w.isSet id "location_" = true then
      ∃ location, w.readPath id "location_" = .ok location ∧ single = [location]
    else single = []) ∧
    if w.isSet id "path" = true then
      ∃ text, w.readText id "path" = .ok text ∧
        several = (splitLocations text).map (w.project (w.object id).project).resolveFile
    else several = []

variable {w : World φ} {id path other part : ObjectId} {passed : List ObjectId}
variable {names : List String} {levels : Nat} {fault : Fault}

theorem spells_of_ownLocations {own : List Path} (found : w.ownLocations id = .ok own) :
    w.Spells id own := by
  unfold ownLocations at found
  extract_lets project complete at found
  have completes {single : List Path} (found : complete single = .ok own) :
      ∃ several, own = single ++ several ∧
        if w.isSet id "path" = true then
          ∃ text, w.readText id "path" = .ok text ∧
            several = (splitLocations text).map project.resolveFile
        else several = [] := by
    unfold complete at found
    split at found
    · rename_i listed
      obtain ⟨text, read, found⟩ := ok_of_bind found
      cases found
      exact ⟨_, rfl, (if_pos listed).mpr ⟨text, read, rfl⟩⟩
    · rename_i unlisted
      cases found
      exact ⟨[], (List.append_nil _).symm, (if_neg unlisted).mpr rfl⟩
  split at found
  · rename_i located
    obtain ⟨single, reads, found⟩ := ok_of_bind found
    obtain ⟨location, read, rfl⟩ := ok_of_map reads
    obtain ⟨several, spelled, lists⟩ := completes found
    exact ⟨[location], several, spelled, (if_pos located).mpr ⟨location, read, rfl⟩, lists⟩
  · rename_i unlocated
    obtain ⟨several, spelled, lists⟩ := completes found
    exact ⟨[], several, spelled, (if_neg unlocated).mpr rfl, lists⟩

/-- The locations of a part of a path. -/
def partLocations (w : World φ) (levels : Nat) (passed : List ObjectId) (names : List String)
    (part : ObjectId) : Except Fault (List Path) :=
  if w.isA part Standard.pathList then w.locationsOf levels passed names part
  else w.ownLocations part

theorem locationsOf_of_mem (leads : w.target id = .ok path) (seen : path ∈ passed) :
    w.locationsOf (levels + 1) passed names id =
      .error ((Problem.reference (.cycle (names ++ [w.chainName id]))).faultAt
        (w.object id).location) := by
  rw [locationsOf, leads]
  exact if_pos (List.contains_iff_mem.mpr seen)

theorem locationsOf_of_not_mem (leads : w.target id = .ok path) (new : path ∉ passed) :
    w.locationsOf (levels + 1) passed names id = do
      let own ← w.ownLocations path
      let nested ← gathered (w.partLocations levels (passed ++ [path]) (names ++ [w.chainName id]))
        (w.object path).parts
      return own ++ nested := by
  rw [locationsOf, leads]
  refine (if_neg fun again => new (List.contains_iff_mem.mp again)).trans ?_
  exact congrArg (w.ownLocations path >>= ·) (funext fun own =>
    (map_bind _ List.flatten fun more => pure (own ++ more)).symm)

/-- No path nested in a path, nor the path itself, led to it or contains itself. -/
def Clear (w : World φ) (passed : List ObjectId) (path : ObjectId) : Prop :=
  ∀ other, ReflTransGen w.Nests path other → other ∉ passed ∧ ¬TransGen w.Nests other other

theorem NestingLeads.of_nests (leads : w.NestingLeads path) (nests : w.Nests path other) :
    w.NestingLeads other :=
  fun next within => leads next (.head nests within)

theorem Clear.of_nests (clear : w.Clear passed path) (nests : w.Nests path other) :
    w.Clear (passed ++ [path]) other := by
  intro next within
  obtain ⟨new, ends⟩ := clear next (.head nests within)
  refine ⟨fun seen => ?_, ends⟩
  rcases List.mem_append.mp seen with before | now
  · exact new before
  · cases List.mem_singleton.mp now
    exact (clear path .refl).2 (.head' nests within)

/-- The paths that led somewhere are so many that the levels do not run out: they are different
objects. -/
structure Room (w : World φ) (levels : Nat) (passed : List ObjectId) : Prop where
  distinct : passed.Nodup
  present : ∀ path ∈ passed, path < w.objects.length
  enough : w.objects.length < levels + passed.length

theorem Room.levels_ne_zero (room : w.Room levels passed) : levels ≠ 0 := by
  rintro rfl
  have taken : passed ⊆ List.range w.objects.length := fun path member =>
    List.mem_range.mpr (room.present path member)
  have bound := (List.subperm_of_subset room.distinct taken).length_le
  rw [List.length_range] at bound
  have enough := room.enough
  omega

theorem lt_length_of_mem_parts (member : part ∈ (w.object path).parts) :
    path < w.objects.length := by
  by_contra absent
  rw [object, List.getElem?_eq_none (Nat.le_of_not_lt absent)] at member
  cases member

theorem Room.next (room : w.Room (levels + 1) passed) (new : path ∉ passed)
    (member : part ∈ (w.object path).parts) : w.Room levels (passed ++ [path]) where
  distinct := by
    rw [← List.concat_eq_append]
    exact (List.nodup_concat passed path).mpr ⟨new, room.distinct⟩
  present := fun other listed => by
    rcases List.mem_append.mp listed with before | now
    · exact room.present other before
    · cases List.mem_singleton.mp now
      exact lt_length_of_mem_parts member
  enough := by
    have enough := room.enough
    rw [List.length_append, List.length_singleton]
    omega

/-- A path that does not come to itself has the locations of all that it unfolds to. -/
theorem locationsOf_of_clear (leads : w.target id = .ok path) (nested : w.NestingLeads path)
    (clear : w.Clear passed path) (room : w.Room levels passed) :
    ∃ within, w.Unfolds (w.object path).parts within ∧
      w.locationsOf levels passed names id = gathered w.ownLocations (path :: within) := by
  induction levels generalizing passed names id path with
  | zero => exact absurd rfl room.levels_ne_zero
  | succ levels ih =>
    have new := (clear path .refl).1
    -- The parts are gone through in their order, each with the levels that are left.
    have unfolds (parts : List ObjectId) (among : parts ⊆ (w.object path).parts) :
        ∃ within, w.Unfolds parts within ∧
          gathered (w.partLocations levels (passed ++ [path]) (names ++ [w.chainName id])) parts =
            gathered w.ownLocations within := by
      induction parts with
      | nil => exact ⟨[], .nil, rfl⟩
      | cons part parts rest =>
        obtain ⟨within, others, same⟩ := rest fun _ later => among (List.mem_cons_of_mem _ later)
        have member := among List.mem_cons_self
        rw [gathered_cons, same]
        cases kind : w.isA part Standard.pathList with
        | false =>
          refine ⟨part :: within, .element kind others, ?_⟩
          rw [gathered_cons, partLocations, if_neg (ne_true_of_eq_false kind)]
        | true =>
          obtain ⟨next, leads'⟩ := nested path .refl part member kind
          have nests : w.Nests path next := ⟨part, member, kind, leads'⟩
          obtain ⟨inner, unfolded, found⟩ :=
            ih leads' (nested.of_nests nests) (clear.of_nests nests) (room.next new member)
          refine ⟨next :: inner ++ within, .path kind leads' unfolded others, ?_⟩
          rw [gathered_append, partLocations, if_pos kind, found]
    obtain ⟨within, unfolded, same⟩ := unfolds (w.object path).parts fun _ member => member
    refine ⟨within, unfolded, ?_⟩
    rw [locationsOf_of_not_mem leads new, same, gathered_cons]

/-- A path that has locations at all does not come to itself. -/
theorem clear_of_locationsOf {found : List Path} (leads : w.target id = .ok path)
    (room : w.Room levels passed) (listed : w.locationsOf levels passed names id = .ok found) :
    w.Clear passed path := by
  induction levels generalizing passed names id path found with
  | zero => exact absurd rfl room.levels_ne_zero
  | succ levels ih =>
    by_cases seen : path ∈ passed
    · rw [locationsOf_of_mem leads seen] at listed
      cases listed
    rw [locationsOf_of_not_mem leads seen] at listed
    obtain ⟨_, _, rest⟩ := ok_of_bind listed
    obtain ⟨_, gathers, _⟩ := ok_of_bind rest
    have onward {next : ObjectId} (nests : w.Nests path next) : w.Clear (passed ++ [path]) next := by
      obtain ⟨part, member, kind, leads'⟩ := nests
      obtain ⟨own, lists⟩ := ok_of_gathered gathers member
      rw [partLocations, if_pos kind] at lists
      exact ih leads' (room.next seen member) lists
    intro other within
    rcases within.cases_head with rfl | ⟨next, nests, rest⟩
    · refine ⟨seen, fun circle => ?_⟩
      obtain ⟨next, nests, back⟩ := TransGen.head'_iff.mp circle
      exact (onward nests path back).1 (List.mem_append_right _ List.mem_cons_self)
    · obtain ⟨new, ends⟩ := onward nests other rest
      exact ⟨fun before => new (List.mem_append_left _ before), ends⟩

theorem Contributes.of_nests (nests : w.Nests path other) (contributes : w.Contributes other part) :
    w.Contributes path part := by
  cases contributes with
  | path within => exact .path (.head nests within)
  | element within member plain => exact .element (.head nests within) member plain

/-- A path has no locations for one of two reasons only. -/
theorem fails_of_locationsOf (leads : w.target id = .ok path) (nested : w.NestingLeads path)
    (fails : w.locationsOf levels passed names id = .error fault) :
    fault.isCycle = true ∨ ∃ part, w.Contributes path part ∧ w.ownLocations part = .error fault := by
  induction levels generalizing passed names id path with
  | zero => cases fails
  | succ levels ih =>
    by_cases seen : path ∈ passed
    · rw [locationsOf_of_mem leads seen] at fails
      cases fails
      exact .inl rfl
    rw [locationsOf_of_not_mem leads seen] at fails
    rcases error_of_bind fails with own | ⟨_, _, rest⟩
    · exact .inr ⟨path, .path .refl, own⟩
    rcases error_of_bind rest with gathers | ⟨_, _, none⟩
    · obtain ⟨part, member, broken⟩ := gathered_eq_error gathers
      cases kind : w.isA part Standard.pathList with
      | false =>
        rw [partLocations, if_neg (ne_true_of_eq_false kind)] at broken
        exact .inr ⟨part, .element .refl member kind, broken⟩
      | true =>
        rw [partLocations, if_pos kind] at broken
        obtain ⟨next, leads'⟩ := nested path .refl part member kind
        have nests : w.Nests path next := ⟨part, member, kind, leads'⟩
        refine (ih leads' (nested.of_nests nests) broken).imp_right ?_
        rintro ⟨within, contributes, empty⟩
        exact ⟨within, contributes.of_nests nests, empty⟩
    · cases none

theorem isCycle_of_ownLocations (fails : w.ownLocations id = .error fault) :
    fault.isCycle = false := by
  have empty := w.empties_ownLocations id
  rw [fails] at empty
  cases fault with
  | empty => rfl
  | _ => cases empty

theorem clear_iff : w.Clear [] path ↔ ¬w.Circular path := by
  constructor
  · rintro clear ⟨other, within, circle⟩
    exact (clear other within).2 circle
  · intro ends other within
    exact ⟨List.not_mem_nil, fun circle => ends ⟨other, within, circle⟩⟩

theorem Room.start (w : World φ) : w.Room (w.objects.length + 2) [] where
  distinct := List.nodup_nil
  present := fun _ member => absurd member List.not_mem_nil
  enough := by omega

/-- Where every nested path stands for something, a path has locations unless it leads to one that
contains itself, which is a fault of its own, or an attribute is empty that is read. The locations are
those that it and its parts name, depth first and in the order of declaration, each where it comes up
first. However many ways lead to a path that is shared, it is no circle: if all attributes can be read,
the fault means one, and everything else has locations. -/
theorem locations_of_nesting (leads : w.target id = .ok path) (nested : w.NestingLeads path) :
    (∀ fault, w.locations id = .error fault →
      (fault.isCycle = true ∧ w.Circular path) ∨
        ∃ part, w.Contributes path part ∧ w.ownLocations part = .error fault) ∧
    (∀ found, w.locations id = .ok found → ¬w.Circular path ∧
      ∃ within spelled, w.Unfolds (w.object path).parts within ∧
        List.Forall₂ w.Spells (path :: within) spelled ∧ Firsts spelled.flatten found) ∧
    ((∀ part, w.Contributes path part → ∃ own, w.ownLocations part = .ok own) →
      ((∃ fault, w.locations id = .error fault ∧ fault.isCycle = true) ↔ w.Circular path) ∧
      (¬w.Circular path → ∃ found, w.locations id = .ok found)) := by
  have fails (fault : Fault) (failed : w.locations id = .error fault) :
      (fault.isCycle = true ∧ w.Circular path) ∨
        ∃ part, w.Contributes path part ∧ w.ownLocations part = .error fault := by
    rcases fails_of_locationsOf leads nested (error_of_map failed) with cycle | empty
    · by_cases circular : w.Circular path
      · exact .inl ⟨cycle, circular⟩
      · -- Without a circle the fault is one of an attribute.
        obtain ⟨within, unfolds, same⟩ :=
          locationsOf_of_clear leads nested (clear_iff.mpr circular) (.start w)
        have gathers := same.symm.trans (error_of_map failed)
        obtain ⟨part, -, broken⟩ := gathered_eq_error gathers
        rw [isCycle_of_ownLocations broken] at cycle
        cases cycle
    · exact .inr empty
  have lists (found : List Path) (listed : w.locations id = .ok found) : ¬w.Circular path ∧
      ∃ within spelled, w.Unfolds (w.object path).parts within ∧
        List.Forall₂ w.Spells (path :: within) spelled ∧ Firsts spelled.flatten found := by
    obtain ⟨all, gathers, rfl⟩ := ok_of_map listed
    have clear := clear_of_locationsOf leads (.start w) gathers
    obtain ⟨within, unfolds, same⟩ :=
      locationsOf_of_clear leads nested clear (.start w)
    obtain ⟨spelled, each, rfl⟩ := gathered_eq_ok (same.symm.trans gathers)
    exact ⟨clear_iff.mp clear, within, spelled, unfolds, each.imp fun _ _ => spells_of_ownLocations,
      firsts_eraseDups _⟩
  refine ⟨fails, lists, fun readable => ?_⟩
  have circular {fault : Fault} (failed : w.locations id = .error fault) :
      fault.isCycle = true ∧ w.Circular path := by
    refine (fails fault failed).resolve_right ?_
    rintro ⟨part, contributes, broken⟩
    obtain ⟨own, reads⟩ := readable part contributes
    cases broken.symm.trans reads
  cases ended : w.locations id with
  | error fault =>
    obtain ⟨cycle, circle⟩ := circular ended
    exact ⟨⟨fun _ => circle, fun _ => ⟨fault, rfl, cycle⟩⟩, fun ends => absurd circle ends⟩
  | ok found =>
    obtain ⟨ends, -⟩ := lists found ended
    refine ⟨⟨?_, fun circle => absurd circle ends⟩, fun _ => ⟨found, rfl⟩⟩
    rintro ⟨_, failed, _⟩
    cases failed

/-! A path that comes to another one by two ways, of which the second may also lead back to it. -/

namespace Sample

/-- A path of an alias, of a path with an alias in it, which leads to a name, and of an element. -/
def shelf (name : String) : World Unit where
  files := ()
  projects := [{
    directory := .top, references := { objects := .ofList [("outer", 0), ("shared", 3)] } }]
  objects := [
    { kind := Standard.pathList, project := 0, parts := [1, 2, 4] },
    { kind := Standard.pathList, project := 0, reference := some ⟨0, "shared", .unknown⟩ },
    { kind := Standard.pathList, project := 0, parts := [5] },
    { kind := Standard.pathList, project := 0
      fields := .ofList [("path", .value (.text "a:b"))] },
    { kind := Standard.pathElement, project := 0
      fields := .ofList [("location_", .value (.path ⟨.root, ["c"]⟩))] },
    { kind := Standard.pathList, project := 0, reference := some ⟨0, name, .unknown⟩ }]

/-- Whether all objects can be read, and all their parts stand for something. -/
def isSound (w : World Unit) : Bool :=
  (List.range w.objects.length).all fun id =>
    (w.ownLocations id).toOption.isSome &&
      (w.object id).parts.all fun part => (w.target part).toOption.isSome

theorem isSome_toOption {result : Except Fault α} (some : result.toOption.isSome = true) :
    ∃ a, result = .ok a := by
  cases result with
  | ok a => exact ⟨a, rfl⟩
  | error => cases some

theorem nestingLeads_of_isSound {w : World Unit} (sound : isSound w = true) (path : ObjectId) :
    w.NestingLeads path := by
  intro other _ part member _
  have present := List.mem_range.mpr (lt_length_of_mem_parts member)
  have leads := (Bool.and_eq_true _ _ ▸ List.all_eq_true.mp sound other present).2
  exact isSome_toOption (List.all_eq_true.mp leads part member)

theorem ownLocations_of_isSound {w : World Unit} (sound : isSound w = true) (part : ObjectId) :
    ∃ own, w.ownLocations part = .ok own := by
  by_cases present : part < w.objects.length
  · have checked := List.all_eq_true.mp sound part (List.mem_range.mpr present)
    exact isSome_toOption ((Bool.and_eq_true _ _ ▸ checked).1)
  · have bare : w.object part = default := by
      rw [object, List.getElem?_eq_none (Nat.le_of_not_lt present), Option.getD_none]
    have unset (name : String) : w.isSet part name = false := by
      rw [isSet, bare]
      rfl
    unfold ownLocations
    rw [unset, unset]
    exact ⟨[], rfl⟩

/-- Whether the first object is a path that is rejected because of a circle. -/
def isRejected (w : World Unit) : Bool :=
  match w.locations 0 with
  | .error fault => fault.isCycle
  | .ok _ => false

theorem shelf_seen : isSound (shelf "shared") = true ∧ isSound (shelf "outer") = true ∧
    ((shelf "shared").locations 0).toOption =
      some [⟨.root, ["a"]⟩, ⟨.root, ["b"]⟩, ⟨.root, ["c"]⟩] ∧
    isRejected (shelf "outer") = true := by
  decide +kernel

end Sample

open Sample in
theorem locations_of_nesting_sample :
    ((shelf "shared").target 0 = .ok 0 ∧ (shelf "shared").NestingLeads 0 ∧
      (∀ part, (shelf "shared").Contributes 0 part →
        ∃ own, (shelf "shared").ownLocations part = .ok own) ∧
      ¬(shelf "shared").Circular 0) ∧
    (shelf "outer").target 0 = .ok 0 ∧ (shelf "outer").NestingLeads 0 ∧
      (∀ part, (shelf "outer").Contributes 0 part →
        ∃ own, (shelf "outer").ownLocations part = .ok own) ∧
      (shelf "outer").Circular 0 := by
  obtain ⟨sharing, circling, listed, rejected⟩ := shelf_seen
  have shared := nestingLeads_of_isSound sharing 0
  have outer := nestingLeads_of_isSound circling 0
  have reads {w : World Unit} (sound : isSound w = true) (part : ObjectId)
      (_ : w.Contributes 0 part) := ownLocations_of_isSound sound part
  refine ⟨⟨rfl, shared, reads sharing, fun circle => ?_⟩, rfl, outer, reads circling, ?_⟩
  · have leads : (shelf "shared").target 0 = .ok 0 := rfl
    obtain ⟨fault, failed, _⟩ :=
      ((locations_of_nesting leads shared).2.2 (reads sharing)).1.mpr circle
    rw [failed] at listed
    cases listed
  · have leads : (shelf "outer").target 0 = .ok 0 := rfl
    unfold isRejected at rejected
    cases ended : (shelf "outer").locations 0 with
    | ok => rw [ended] at rejected; cases rejected
    | error fault =>
      rw [ended] at rejected
      exact ((locations_of_nesting leads outer).2.2 (reads circling)).1.mp ⟨fault, ended, rejected⟩

end World
end BuildEngine
