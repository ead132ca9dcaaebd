import BuildEngine.References
import Mathlib.Data.List.Nodup
import Mathlib.Data.List.Perm.Subperm

/-! What a name comes to. Following aliases ends in one of four ways: at an object, at an object of
another kind than the wanted one, at a name that nobody has, or at a name that was passed before. -/

namespace BuildEngine
namespace References

variable {α : Type}

/-- A name leads over names, itself the first of them, to a last one, where it may go on. -/
inductive Passes (aliasOf : α → Option String) (r : References α) :
    String → List String → String → Prop where
  | here {id : String} : Passes aliasOf r id [] id
  | there {id next last : String} {names : List String} {object : α}
      (found : r.get? id = some object) (points : aliasOf object = some next)
      (rest : Passes aliasOf r next names last) : Passes aliasOf r id (id :: names) last

/-- What a name comes to, where an object of some kind may be wanted. -/
inductive Outcome (aliasOf : α → Option String) (r : References α)
    (wanted : Option (Expectation α)) (id : String) : Except ReferenceError α → Prop where
  | object {last : String} {names : List String} {object : α}
      (passes : Passes aliasOf r id names last) (found : r.get? last = some object)
      (plain : aliasOf object = none) (fits : ∀ e ∈ wanted, e.accepts object = true) :
      Outcome aliasOf r wanted id (.ok object)
  | mismatch {last : String} {names : List String} {object : α} {e : Expectation α}
      (passes : Passes aliasOf r id names last) (found : r.get? last = some object)
      (plain : aliasOf object = none) (asked : e ∈ wanted) (other : e.accepts object = false) :
      Outcome aliasOf r wanted id (.error (.mismatch id e.name (e.kindOf object)))
  | missing {last : String} {names : List String}
      (passes : Passes aliasOf r id names last) (absent : r.get? last = none) :
      Outcome aliasOf r wanted id (.error (.notFound last names))
  | circle {last : String} {names : List String}
      (passes : Passes aliasOf r id names last) (distinct : names.Nodup) (again : last ∈ names) :
      Outcome aliasOf r wanted id (.error (.cycle (names ++ [last])))

variable {aliasOf : α → Option String} {r : References α} {wanted : Option (Expectation α)}
variable {id last name : String} {names : List String} {object : α}

/-- From a name nothing leads on: nobody has it, or its object is no alias. -/
def Stops (aliasOf : α → Option String) (r : References α) (id : String) : Prop :=
  ∀ object, r.get? id = some object → aliasOf object = none

theorem Stops.of_absent (absent : r.get? id = none) : Stops aliasOf r id := by
  intro object found
  rw [absent] at found
  cases found

theorem Stops.of_plain (found : r.get? id = some object) (plain : aliasOf object = none) :
    Stops aliasOf r id := by
  intro other found'
  rwa [← Option.some.inj (found.symm.trans found')]

namespace Passes

theorem snoc {next : String} (passes : Passes aliasOf r id names last)
    (found : r.get? last = some object) (points : aliasOf object = some next) :
    Passes aliasOf r id (names ++ [last]) next := by
  induction passes with
  | here => exact .there found points .here
  | there found' points' _ ih => exact .there found' points' (ih found)

theorem contains (passes : Passes aliasOf r id names last) (member : name ∈ names) :
    r.contains name = true := by
  induction passes with
  | here => cases member
  | there found _ _ ih =>
    rcases List.mem_cons.mp member with rfl | later
    · exact Option.isSome_of_mem found
    · exact ih later

/-- From each name that is passed something leads on. -/
theorem not_stops (passes : Passes aliasOf r id names last) (member : name ∈ names) :
    ¬Stops aliasOf r name := by
  induction passes with
  | here => cases member
  | there found points _ ih =>
    rcases List.mem_cons.mp member with rfl | later
    · intro stops
      cases points.symm.trans (stops _ found)
    · exact ih later

theorem of_stops (passes : Passes aliasOf r id names last) (stops : Stops aliasOf r id) :
    names = [] ∧ last = id := by
  cases passes with
  | here => exact ⟨rfl, rfl⟩
  | there found points _ => cases points.symm.trans (stops _ found)

/-- Of two ways from a name one goes on where the other ends. -/
theorem meet {last' : String} {names' : List String} (one : Passes aliasOf r id names last)
    (other : Passes aliasOf r id names' last') :
    (∃ rest, names' = names ++ rest ∧ Passes aliasOf r last rest last') ∨
      ∃ rest, names = names' ++ rest ∧ Passes aliasOf r last' rest last := by
  induction one generalizing names' with
  | here => exact .inl ⟨names', rfl, other⟩
  | there found points rest ih =>
    cases other with
    | here => exact .inr ⟨_, rfl, .there found points rest⟩
    | there found' points' rest' =>
      cases Option.some.inj (found.symm.trans found')
      cases Option.some.inj (points.symm.trans points')
      rcases ih rest' with ⟨more, rfl, onward⟩ | ⟨more, rfl, onward⟩
      · exact .inl ⟨more, rfl, onward⟩
      · exact .inr ⟨more, rfl, onward⟩

/-- The way to a name where nothing leads on is the only one. -/
theorem unique {last' : String} {names' : List String} (one : Passes aliasOf r id names last)
    (other : Passes aliasOf r id names' last') (ends : Stops aliasOf r last)
    (ends' : Stops aliasOf r last') : names' = names ∧ last' = last := by
  rcases one.meet other with ⟨rest, rfl, onward⟩ | ⟨rest, rfl, onward⟩
  · obtain ⟨rfl, rfl⟩ := onward.of_stops ends
    exact ⟨List.append_nil _, rfl⟩
  · obtain ⟨rfl, rfl⟩ := onward.of_stops ends'
    exact ⟨(List.append_nil _).symm, rfl⟩

/-- A name that is passed leads on to where the way ends. -/
theorem onward (passes : Passes aliasOf r id names last) (member : name ∈ names) :
    ∃ rest, Passes aliasOf r name rest last ∧ rest.length ≤ names.length := by
  induction passes with
  | here => cases member
  | there found points rest ih =>
    rcases List.mem_cons.mp member with rfl | later
    · exact ⟨_, .there found points rest, Nat.le_refl _⟩
    · obtain ⟨beyond, passes, shorter⟩ := ih later
      exact ⟨beyond, passes, Nat.le_succ_of_le shorter⟩

/-- On the way to a name where nothing leads on no name comes up twice. -/
theorem nodup (passes : Passes aliasOf r id names last) (ends : Stops aliasOf r last) :
    names.Nodup := by
  induction passes with
  | here => exact List.nodup_nil
  | there found points rest ih =>
    refine List.nodup_cons.mpr ⟨fun again => ?_, ih ends⟩
    -- The name would lead to the end by a shorter way than its own.
    obtain ⟨_, shortcut, shorter⟩ := rest.onward again
    rw [((Passes.there found points rest).unique shortcut ends ends).1] at shorter
    exact Nat.not_succ_le_self _ shorter

/-- Where one way from a name ends for good, no other comes to a name again. -/
theorem not_again {last' : String} {names' : List String} (one : Passes aliasOf r id names last)
    (ends : Stops aliasOf r last) (other : Passes aliasOf r id names' last') : last' ∉ names' := by
  intro again
  rcases other.meet one with ⟨rest, rfl, onward⟩ | ⟨rest, rfl, onward⟩
  · cases onward with
    | here => exact one.not_stops (List.mem_append_left _ again) ends
    | there =>
      have apart := (List.nodup_append.mp (one.nodup ends)).2.2
      exact apart _ again _ List.mem_cons_self rfl
  · obtain ⟨rfl, rfl⟩ := onward.of_stops ends
    exact other.not_stops again ends

/-- Of two ways that come to a name again, both for the first time, one is the other. -/
theorem unique_again {last' : String} {names' : List String} (one : Passes aliasOf r id names last)
    (other : Passes aliasOf r id names' last') (distinct : names.Nodup) (distinct' : names'.Nodup)
    (again : last ∈ names) (again' : last' ∈ names') : names' = names ∧ last' = last := by
  rcases one.meet other with ⟨rest, rfl, onward⟩ | ⟨rest, rfl, onward⟩
  · cases onward with
    | here => exact ⟨List.append_nil _, rfl⟩
    | there =>
      exact ((List.nodup_append.mp distinct').2.2 _ again _ List.mem_cons_self rfl).elim
  · cases onward with
    | here => exact ⟨(List.append_nil _).symm, rfl⟩
    | there =>
      exact ((List.nodup_append.mp distinct).2.2 _ again' _ List.mem_cons_self rfl).elim

/-- There are more names than a way passes without coming to one again. -/
theorem length_lt_size (passes : Passes aliasOf r id names last) (distinct : names.Nodup)
    (new : last ∉ names) (found : r.get? last = some object) : names.length < r.objects.size := by
  have taken : last :: names ⊆ r.objects.keys := fun name member => by
    rw [← Table.contains_iff_mem_keys]
    rcases List.mem_cons.mp member with rfl | before
    · exact Option.isSome_of_mem found
    · exact passes.contains before
  have bound :=
    (List.subperm_of_subset (List.nodup_cons.mpr ⟨new, distinct⟩) taken).length_le
  rwa [Table.keys, List.length_map] at bound

end Passes

/-- A way that is at its end: nothing leads on, or for the first time it comes to a name again. -/
structure Ends (aliasOf : α → Option String) (r : References α) (id : String) (names : List String)
    (last : String) : Prop where
  passes : Passes aliasOf r id names last
  ended : Stops aliasOf r last ∨ names.Nodup ∧ last ∈ names

/-- An object that a name leads to, if it is of the kind that is wanted. -/
def checked (wanted : Option (Expectation α)) (id : String) (object : α) :
    Except ReferenceError α :=
  match wanted with
  | none => .ok object
  | some e =>
    if e.accepts object then .ok object else .error (.mismatch id e.name (e.kindOf object))

/-- What comes of a name whose way is at its end. -/
def verdict (aliasOf : α → Option String) (r : References α) (wanted : Option (Expectation α))
    (id : String) (names : List String) (last : String) : Except ReferenceError α :=
  match r.get? last with
  | none => .error (.notFound last names)
  | some object =>
    match aliasOf object with
    | none => checked wanted id object
    | some _ => .error (.cycle (names ++ [last]))

theorem Ends.unique {last' : String} {names' : List String} (one : Ends aliasOf r id names last)
    (other : Ends aliasOf r id names' last') : names' = names ∧ last' = last := by
  rcases one.ended with stops | ⟨distinct, again⟩
  · rcases other.ended with stops' | ⟨-, again'⟩
    · exact one.passes.unique other.passes stops stops'
    · exact (one.passes.not_again stops other.passes again').elim
  · rcases other.ended with stops' | ⟨distinct', again'⟩
    · exact (other.passes.not_again stops' one.passes again).elim
    · exact one.passes.unique_again other.passes distinct distinct' again again'

theorem verdict_of_absent (absent : r.get? last = none) :
    verdict aliasOf r wanted id names last = .error (.notFound last names) := by
  unfold verdict
  rw [absent]

theorem verdict_of_again (passes : Passes aliasOf r id names last) (again : last ∈ names) :
    verdict aliasOf r wanted id names last = .error (.cycle (names ++ [last])) := by
  have leads := passes.not_stops again
  unfold verdict
  cases found : r.get? last with
  | none => exact (leads (.of_absent found)).elim
  | some object =>
    cases points : aliasOf object with
    | none => exact (leads (.of_plain found points)).elim
    | some next => simp only [points]

theorem verdict_of_plain (found : r.get? last = some object) (plain : aliasOf object = none) :
    verdict aliasOf r wanted id names last = checked wanted id object := by
  simp only [verdict, found, plain]

theorem resolveAs_eq_checked {e : Expectation α} :
    r.resolveAs aliasOf e id = (r.resolve aliasOf id).bind (checked (some e) id) := by
  unfold resolveAs
  cases r.resolve aliasOf id with
  | error => rfl
  | ok object => rfl

theorem verdict_bind_checked {e : Expectation α} :
    (verdict aliasOf r none id names last).bind (checked (some e) id) =
      verdict aliasOf r (some e) id names last := by
  unfold verdict
  cases r.get? last with
  | none => rfl
  | some object => cases plain : aliasOf object <;> simp only [plain] <;> rfl

theorem checked_of_fits (fits : ∀ e ∈ wanted, e.accepts object = true) :
    checked wanted id object = .ok object := by
  cases wanted with
  | none => rfl
  | some e => exact if_pos (fits e rfl)

theorem checked_of_other {e : Expectation α} (asked : e ∈ wanted) (other : e.accepts object = false) :
    checked wanted id object = .error (.mismatch id e.name (e.kindOf object)) := by
  cases asked
  exact if_neg (ne_true_of_eq_false other)

theorem Outcome.of_plain (passes : Passes aliasOf r id names last)
    (found : r.get? last = some object) (plain : aliasOf object = none) :
    Outcome aliasOf r wanted id (checked wanted id object) := by
  by_cases fits : ∀ e ∈ wanted, e.accepts object = true
  · rw [checked_of_fits fits]
    exact .object passes found plain fits
  · simp only [not_forall, Bool.not_eq_true] at fits
    obtain ⟨e, asked, other⟩ := fits
    rw [checked_of_other asked other]
    exact .mismatch passes found plain asked other

/-- A way ends as one of the four outcomes has it. -/
theorem Ends.outcome (ends : Ends aliasOf r id names last) :
    Outcome aliasOf r wanted id (verdict aliasOf r wanted id names last) := by
  rcases ends.ended with stops | ⟨distinct, again⟩
  · cases found : r.get? last with
    | none =>
      rw [verdict_of_absent found]
      exact .missing ends.passes found
    | some object =>
      rw [verdict_of_plain found (stops object found)]
      exact .of_plain ends.passes found (stops object found)
  · rw [verdict_of_again ends.passes again]
    exact .circle ends.passes distinct again

theorem Outcome.ends {result : Except ReferenceError α} (comes : Outcome aliasOf r wanted id result) :
    ∃ names last, Ends aliasOf r id names last ∧
      verdict aliasOf r wanted id names last = result := by
  cases comes with
  | object passes found plain fits =>
    refine ⟨_, _, ⟨passes, .inl (.of_plain found plain)⟩, ?_⟩
    rw [verdict_of_plain found plain, checked_of_fits fits]
  | mismatch passes found plain asked other =>
    refine ⟨_, _, ⟨passes, .inl (.of_plain found plain)⟩, ?_⟩
    rw [verdict_of_plain found plain, checked_of_other asked other]
  | missing passes absent =>
    exact ⟨_, _, ⟨passes, .inl (.of_absent absent)⟩, verdict_of_absent absent⟩
  | circle passes distinct again =>
    exact ⟨_, _, ⟨passes, .inr ⟨distinct, again⟩⟩, verdict_of_again passes again⟩

section Follow

variable {next start : String} {passed : List String} {steps more : Nat}

theorem follow_of_mem (seen : id ∈ passed) :
    r.follow aliasOf steps passed id = .error (.cycle (passed ++ [id])) := by
  unfold follow
  rw [if_pos seen]

theorem follow_of_absent (new : id ∉ passed) (absent : r.get? id = none) :
    r.follow aliasOf steps passed id = .error (.notFound id passed) := by
  unfold follow
  rw [if_neg new, absent]

theorem follow_of_plain (new : id ∉ passed) (found : r.get? id = some object)
    (plain : aliasOf object = none) : r.follow aliasOf (more + 1) passed id = .ok object := by
  simp [follow, new, found, plain]

theorem follow_of_alias (new : id ∉ passed) (found : r.get? id = some object)
    (points : aliasOf object = some next) :
    r.follow aliasOf (more + 1) passed id = r.follow aliasOf more (passed ++ [id]) next := by
  simp [follow, new, found, points]

theorem follow_of_stuck (passes : Passes aliasOf r start passed id) (distinct : passed.Nodup)
    (stuck : id ∈ passed ∨ r.get? id = none) :
    ∃ names last, Ends aliasOf r start names last ∧
      r.follow aliasOf steps passed id = verdict aliasOf r none start names last := by
  by_cases seen : id ∈ passed
  · refine ⟨passed, id, ⟨passes, .inr ⟨distinct, seen⟩⟩, ?_⟩
    rw [follow_of_mem seen, verdict_of_again passes seen]
  · have absent := stuck.resolve_left seen
    refine ⟨passed, id, ⟨passes, .inl (.of_absent absent)⟩, ?_⟩
    rw [follow_of_absent seen absent, verdict_of_absent absent]

/-- Following aliases goes on with the way that led to a name. It passed no name twice, so the steps
do not run out before a name that is registered. -/
theorem follow_eq_verdict (passes : Passes aliasOf r start passed id) (distinct : passed.Nodup)
    (enough : r.objects.size ≤ passed.length + steps) :
    ∃ names last, Ends aliasOf r start names last ∧
      r.follow aliasOf steps passed id = verdict aliasOf r none start names last := by
  induction steps generalizing passed id with
  | zero =>
    by_cases stuck : id ∈ passed ∨ r.get? id = none
    · exact follow_of_stuck passes distinct stuck
    · obtain ⟨new, held⟩ := not_or.mp stuck
      obtain ⟨object, found⟩ := Option.ne_none_iff_exists'.mp held
      exact absurd (passes.length_lt_size distinct new found) (Nat.not_lt.mpr enough)
  | succ more ih =>
    by_cases stuck : id ∈ passed ∨ r.get? id = none
    · exact follow_of_stuck passes distinct stuck
    · obtain ⟨new, held⟩ := not_or.mp stuck
      obtain ⟨object, found⟩ := Option.ne_none_iff_exists'.mp held
      cases points : aliasOf object with
      | none =>
        refine ⟨passed, id, ⟨passes, .inl (.of_plain found points)⟩, ?_⟩
        rw [follow_of_plain new found points, verdict_of_plain found points]
        rfl
      | some next =>
        rw [follow_of_alias new found points]
        refine ih (passes.snoc found points) ?_ ?_
        · rw [← List.concat_eq_append]
          exact List.Nodup.concat new distinct
        · rw [List.length_append, List.length_singleton]
          omega

end Follow

theorem resolve_eq_verdict (aliasOf : α → Option String) (r : References α) (id : String) :
    ∃ names last, Ends aliasOf r id names last ∧
      r.resolve aliasOf id = verdict aliasOf r none id names last :=
  follow_eq_verdict .here List.nodup_nil (Nat.le_of_eq (Nat.zero_add _).symm)

/-- The outcomes exclude each other. -/
theorem Outcome.iff_of_ends {result : Except ReferenceError α} (ends : Ends aliasOf r id names last) :
    verdict aliasOf r wanted id names last = result ↔ Outcome aliasOf r wanted id result := by
  constructor
  · rintro rfl
    exact ends.outcome
  · intro comes
    obtain ⟨names', last', ends', rfl⟩ := comes.ends
    obtain ⟨rfl, rfl⟩ := ends.unique ends'
    rfl

theorem resolve_eq_iff {result : Except ReferenceError α} :
    r.resolve aliasOf id = result ↔ Outcome aliasOf r none id result := by
  obtain ⟨names, last, ends, resolved⟩ := resolve_eq_verdict aliasOf r id
  rw [resolved]
  exact Outcome.iff_of_ends ends

theorem resolveAs_eq_iff {e : Expectation α} {result : Except ReferenceError α} :
    r.resolveAs aliasOf e id = result ↔ Outcome aliasOf r (some e) id result := by
  obtain ⟨names, last, ends, resolved⟩ := resolve_eq_verdict aliasOf r id
  rw [resolveAs_eq_checked, resolved, verdict_bind_checked]
  exact Outcome.iff_of_ends ends

/-- Names lead in a circle exactly when a way comes to a name again, be it for the first time or
not. -/
theorem Outcome.cycle_iff :
    (∃ chain, Outcome aliasOf r wanted id (.error (.cycle chain))) ↔
      ∃ names last, Passes aliasOf r id names last ∧ last ∈ names := by
  constructor
  · rintro ⟨_, comes⟩
    cases comes with
    | circle passes _ again => exact ⟨_, _, passes, again⟩
  · rintro ⟨names, last, passes, again⟩
    obtain ⟨names', last', ends, -⟩ := resolve_eq_verdict aliasOf r id
    rcases ends.ended with stops | ⟨distinct, again'⟩
    · exact (ends.passes.not_again stops passes again).elim
    · exact ⟨_, .circle ends.passes distinct again'⟩

/-- Whatever names are aliases of whatever others, a name comes to one thing. Its aliases lead to an
object, which is the result if it is of the kind that is wanted and a mismatch if it is not; or to a
name that nobody has; or, for the first time, to a name that was passed before, which is so exactly
when they come to any name again. -/
theorem resolved_by_walk (aliasOf : α → Option String) (r : References α) (id : String) :
    (∀ result, r.resolve aliasOf id = result ↔ Outcome aliasOf r none id result) ∧
    (∀ e result, r.resolveAs aliasOf e id = result ↔ Outcome aliasOf r (some e) id result) ∧
    ((∃ chain, r.resolve aliasOf id = .error (.cycle chain)) ↔
      ∃ names last, Passes aliasOf r id names last ∧ last ∈ names) ∧
    ∀ e, (∃ chain, r.resolveAs aliasOf e id = .error (.cycle chain)) ↔
      ∃ names last, Passes aliasOf r id names last ∧ last ∈ names := by
  refine ⟨fun _ => resolve_eq_iff, fun _ _ => resolveAs_eq_iff, ?_, fun e => ?_⟩
  · simp only [resolve_eq_iff, Outcome.cycle_iff]
  · simp only [resolveAs_eq_iff, Outcome.cycle_iff]

/-- The circle need not come back to where it was entered from. -/
example :
    let r : References (Option String) :=
      (({} : References _).register "a" (some "b") |>.register "b" (some "c")).register "c" (some "b")
    r.resolve (·) "a" = .error (.cycle ["a", "b", "c", "b"]) := by
  rfl

end References
end BuildEngine

/-! Chains of aliases: the names that a name leads through to an object, and that resolving a name
follows them. -/

namespace BuildEngine
namespace References

variable {α : Type}

/-- A name leads through further names to an object that is no alias. -/
inductive Leads (aliasOf : α → Option String) (r : References α) :
    String → List String → α → Prop where
  | here {id : String} {last : α} (found : r.get? id = some last) (plain : aliasOf last = none) :
      Leads aliasOf r id [] last
  | there {id next : String} {via : List String} {object last : α}
      (found : r.get? id = some object) (points : aliasOf object = some next)
      (rest : Leads aliasOf r next via last) : Leads aliasOf r id (next :: via) last

variable {aliasOf : α → Option String} {r q : References α}
variable {id name next : String} {via : List String} {object last : α}

namespace Leads

theorem of_alias (leads : Leads aliasOf r id via last) (found : r.get? id = some object)
    (points : aliasOf object = some next) :
    ∃ rest, via = next :: rest ∧ Leads aliasOf r next rest last := by
  cases leads with
  | here found' plain =>
    rw [Option.some.inj (found'.symm.trans found), points] at plain
    cases plain
  | there found' points' rest =>
    rw [Option.some.inj (found'.symm.trans found), points] at points'
    cases points'
    exact ⟨_, rfl, rest⟩

/-- The way from a name stays the same where the names on it have the same objects. -/
theorem carry (leads : Leads aliasOf r id via last) (start : q.get? name = r.get? id)
    (same : ∀ passed ∈ via, q.get? passed = r.get? passed) : Leads aliasOf q name via last := by
  induction leads generalizing name with
  | here found plain => exact .here (start.trans found) plain
  | there found points _ ih =>
    have further := ih (same _ List.mem_cons_self) fun passed later =>
      same passed (List.mem_cons_of_mem _ later)
    exact .there (start.trans found) points further

end Leads

theorem Leads.passes (leads : Leads aliasOf r id via last) :
    ∃ names name, Passes aliasOf r id names name ∧ r.get? name = some last ∧ aliasOf last = none := by
  induction leads with
  | here found plain => exact ⟨[], _, .here, found, plain⟩
  | there found points _ ih =>
    obtain ⟨names, name, passes, ends⟩ := ih
    exact ⟨_, name, .there found points passes, ends⟩

theorem Passes.leads {names : List String} (passes : Passes aliasOf r id names name)
    (found : r.get? name = some last) (plain : aliasOf last = none) :
    ∃ via, Leads aliasOf r id via last := by
  induction passes with
  | here => exact ⟨[], .here found plain⟩
  | there found' points _ ih =>
    obtain ⟨via, rest⟩ := ih found
    exact ⟨_, .there found' points rest⟩

/-- A name is resolved to an object exactly when it leads there. -/
theorem resolve_eq_ok_iff :
    r.resolve aliasOf id = .ok last ↔ ∃ via, Leads aliasOf r id via last := by
  rw [resolve_eq_iff]
  constructor
  · intro comes
    cases comes with
    | object passes found plain _ => exact passes.leads found plain
  · rintro ⟨via, leads⟩
    obtain ⟨names, name, passes, found, plain⟩ := leads.passes
    exact .object passes found plain fun _ asked => by cases asked

/-- An alias is resolved to what its target is resolved to. -/
theorem resolve_eq_ok_iff_of_alias (found : r.get? id = some object)
    (points : aliasOf object = some next) :
    r.resolve aliasOf id = .ok last ↔ r.resolve aliasOf next = .ok last := by
  simp only [resolve_eq_ok_iff]
  constructor
  · rintro ⟨_, leads⟩
    obtain ⟨via, _, rest⟩ := leads.of_alias found points
    exact ⟨via, rest⟩
  · rintro ⟨via, rest⟩
    exact ⟨next :: via, .there found points rest⟩

/-- A name to which another registry gives the object of a name that leads somewhere leads there
too, unless the object is an alias whose target leads elsewhere in the other registry. -/
theorem resolve_eq_ok_iff_of_get?_eq (same : q.get? name = r.get? id)
    (resolved : r.resolve aliasOf id = .ok last) :
    q.resolve aliasOf name = .ok last ↔
      ∀ object next, r.get? id = some object → aliasOf object = some next →
        q.resolve aliasOf next = .ok last := by
  obtain ⟨via, leads⟩ := resolve_eq_ok_iff.mp resolved
  cases leads with
  | here found plain =>
    have here : q.resolve aliasOf name = .ok last :=
      resolve_eq_ok_iff.mpr ⟨[], .here (same.trans found) plain⟩
    refine ⟨fun _ object next found' points => ?_, fun _ => here⟩
    rw [Option.some.inj (found'.symm.trans found), plain] at points
    cases points
  | @there _ target _ entry _ found points _ =>
    rw [resolve_eq_ok_iff_of_alias (same.trans found) points]
    constructor
    · intro there object next found' points'
      rw [Option.some.inj (found'.symm.trans found), points] at points'
      cases points'
      exact there
    · intro all
      exact all entry target found points

end References
end BuildEngine
