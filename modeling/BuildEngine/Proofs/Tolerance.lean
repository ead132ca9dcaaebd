import BuildEngine.Proofs.Delegation
import BuildEngine.Proofs.UserProperty

/-! Tolerance: a task of a project that halts on failures never leaves a problem to its failure
policy and goes on. So whatever the policy did instead, work that succeeds would be the same. -/

namespace BuildEngine

open Engine Relation

variable {φ : Type} {α β γ : Type}

/-- A strict task stays strict while something is done on behalf of a project. -/
theorem World.Strict.after {w after : World φ} {id : ObjectId} (strict : w.Strict id)
    {action : Engine φ α} {wanted : World φ → α → Prop} {result : Except Fault α}
    (takes : Mark.origin.Takes Mark.origin.Delegates w action wanted)
    (ran : action.run w = (result, after)) : after.Strict id := by
  have steps := (takes (Mark.sealed_origin w)).1
  rw [ran] at steps
  exact strict.later steps

namespace Engine

/-- Whenever an action ends with a result, another one ends with it in the same world. -/
def Follows (w : World φ) (action other : Engine φ α) : Prop :=
  ∀ a after, action.run w = (.ok a, after) → other.run w = (.ok a, after)

namespace Follows

variable {w : World φ} {id : ObjectId} {action other : Engine φ α} {next next' : α → Engine φ β}

theorem refl (action : Engine φ α) : Follows w action action := fun _ _ ended => ended

/-- An action that ends with a fault is followed by any other. -/
theorem ofFault (fails : ∀ a after, action.run w ≠ (.ok a, after)) : Follows w action other :=
  fun a after ended => absurd ended (fails a after)

theorem bind (first : Follows w action other)
    (rest : ∀ a after, action.run w = (.ok a, after) → Follows after (next a) (next' a)) :
    Follows w (action >>= next) (other >>= next') := by
  intro b final ended
  rcases ran : action.run w with ⟨fault | a, after⟩
  · rw [run_bind_error ran] at ended
    cases ended
  · rw [run_bind_ok ran] at ended
    rw [run_bind_ok (first a after ran)]
    exact rest a after ran b final ended

theorem look {first : Engine φ α} (looks : Looks first) (rest : ∀ a, Follows w (next a) (next' a)) :
    Follows w (first >>= next) (first >>= next') := by
  refine (refl first).bind fun a after ran => ?_
  have same : after = w := by simpa only [ran] using looks w
  exact same ▸ rest a

/-- What strict tasks go on with is done in a world in which they are strict. -/
theorem then_ {wanted : World φ → α → Prop} (strict : w.Strict id)
    (takes : Mark.origin.Takes Mark.origin.Delegates w action wanted)
    (first : Follows w action other)
    (rest : ∀ a after, after.Strict id → Follows after (next a) (next' a)) :
    Follows w (action >>= next) (other >>= next') :=
  first.bind fun a after ran => rest a after (strict.after takes ran)

/-- An attempt differs from another one only if the action ends with a fault. -/
theorem attempt {next next' : Except Fault α → Engine φ β} (first : Follows w action other)
    (fails : ∀ fault after, action.run w = (.error fault, after) →
      ∀ b final, (next (.error fault)).run after ≠ (.ok b, final))
    (rest : ∀ a after, Follows after (next (.ok a)) (next' (.ok a))) :
    Follows w (attempt action >>= next) (Engine.attempt other >>= next') := by
  intro b final ended
  rw [run_bind_ok (run_attempt action w)] at ended
  rcases ran : action.run w with ⟨fault | a, after⟩
  · rw [ran] at ended
    exact absurd ended (fails fault after ran b final)
  · rw [ran] at ended
    rw [run_bind_ok (run_attempt other w), first a after ran]
    exact rest a after b final ended

theorem forIn {body body' : γ → β → Engine φ (ForInStep β)} (strict : w.Strict id)
    (entries : List γ) (start : β)
    (takes : ∀ after entry b, Mark.origin.Takes Mark.origin.Delegates after (body entry b))
    (each : ∀ after entry b, after.Strict id → Follows after (body entry b) (body' entry b)) :
    Follows w (forIn entries start body) (forIn entries start body') := by
  induction entries generalizing w start with
  | nil => exact refl _
  | cons entry rest ih =>
    rw [List.forIn_cons, List.forIn_cons]
    refine then_ strict (takes w entry start) (each w entry start strict) ?_
    intro step after strict
    cases step with
    | done => exact refl _
    | yield b => exact ih strict b

end Follows

variable {w : World φ} {id : ObjectId} (leave : Policy φ)

/-- What goes on after an action that ends with a fault ends with it too. -/
theorem bind_fails {action : Engine φ α} {next : α → Engine φ β}
    (fails : ∀ a after, action.run w ≠ (.ok a, after)) (b : β) (final : World φ) :
    (action >>= next).run w ≠ (.ok b, final) := by
  rcases ran : action.run w with ⟨fault | a, after⟩
  · rw [run_bind_error ran]
    nofun
  · exact absurd ran (fails a after)

/-- Nothing is tolerated in a project that halts on failures. -/
theorem tolerate_fails (strict : w.Strict id) (message : String) (a : Unit) (after : World φ) :
    (tolerate id message).run w ≠ (.ok a, after) := by
  intro ended
  unfold tolerate at ended
  rw [run_bind_ok (run_object id w)] at ended
  rcases flag : (flagOf id "failonerror").run w with ⟨fault | failing, same⟩
  · rw [run_bind_error flag] at ended
    cases ended
  · have kept := looks_flagOf id "failonerror" w
    rw [flag] at kept
    subst kept
    rw [run_bind_ok flag, run_bind_ok (run_project _ _), strict.halts, Bool.or_true, if_pos rfl,
      run_bind_error (run_failTask id message _)] at ended
    cases ended

theorem follows_tolerate (strict : w.Strict id) (message : String) (other : Engine φ Unit) :
    Follows w (tolerate id message) other :=
  .ofFault (tolerate_fails strict message)

section Delete

variable [FileSystem φ]

theorem follows_deleteEntry (strict : w.Strict id) (path : Path) (entry : Entry) :
    Follows w (deleteEntry tolerate id path entry) (deleteEntry leave id path entry) := by
  unfold deleteEntry
  refine .look (looks_flagOf id _) fun verbose => ?_
  extract_lets level
  refine .then_ strict (Mark.confined_logOf id _ _) (.refl _) fun _ _ strict => ?_
  refine .then_ strict (Mark.confined_changeFiles _).attempt (.refl _) fun result _ strict => ?_
  split
  · exact .refl _
  · exact .bind (follows_tolerate strict _ _) fun _ _ _ => .refl _
  · exact .refl _

theorem follows_deleteBelow (strict : w.Strict id) (levels : Nat) (path : Path) :
    Follows w (deleteBelow tolerate id levels path) (deleteBelow leave id levels path) := by
  induction levels generalizing w path with
  | zero => exact .refl _
  | succ levels ih =>
    unfold deleteBelow
    have owned (w : World φ) := Mark.owns_origin w id
    refine .look (.readFiles _) fun children => ?_
    refine .bind (.forIn strict children _ (fun after child _ => ?_) fun after child _ strict => ?_)
      fun _ _ _ => .refl _
    · refine .look (Mark.looks_isDirectory child) fun isDirectory _ => ?_
      have deletes (w : World φ) : Mark.origin.Takes Mark.origin.Delegates w (do
          let _ ← deleteEntry tolerate id child (← entryAt child)
          pure (ForInStep.yield PUnit.unit)) :=
        .look (Mark.looks_entryAt child) fun entry _ =>
          .bind (Mark.confined_deleteEntry (owned w) child entry) fun _ _ _ _ => .pure trivial
      split
      · exact .bind (Mark.confined_deleteBelow (owned _) levels child) fun _ _ _ _ => deletes _
      · exact deletes _
    · refine .look (Mark.looks_isDirectory child) fun isDirectory => ?_
      have deletes {w : World φ} (strict : w.Strict id) : Follows w
          (do
            let _ ← deleteEntry tolerate id child (← entryAt child)
            pure (ForInStep.yield PUnit.unit))
          (do
            let _ ← deleteEntry leave id child (← entryAt child)
            pure (ForInStep.yield PUnit.unit)) :=
        .look (Mark.looks_entryAt child) fun entry =>
          .bind (follows_deleteEntry leave strict child entry) fun _ _ _ => .refl _
      split
      · exact .then_ strict (Mark.confined_deleteBelow (owned _) levels child) (ih strict child)
          fun _ _ strict => deletes strict
      · exact deletes strict

theorem follows_deleteDirectory (strict : w.Strict id) (path : Path) :
    Follows w (deleteDirectory tolerate id path) (deleteDirectory leave id path) := by
  unfold deleteDirectory
  refine .look (Mark.looks_isDirectory path) fun isDirectory => ?_
  split
  · exact .look (.observe _) fun absolute => follows_tolerate strict _ _
  · refine .look (.observe _) fun depth => ?_
    refine .then_ strict (Mark.confined_deleteBelow (Mark.owns_origin w id) depth path)
      (follows_deleteBelow leave strict depth path) fun _ _ strict => ?_
    exact .bind (follows_deleteEntry leave strict _ _) fun _ _ _ => .refl _

theorem follows_deleteFile (strict : w.Strict id) (path : Path) :
    Follows w (deleteFile tolerate id path) (deleteFile leave id path) := by
  unfold deleteFile
  refine .look (Mark.looks_isThere path) fun present => ?_
  split
  · exact .look (.observe _) fun absolute => follows_tolerate strict _ _
  · refine .look (Mark.looks_isDirectory path) fun isDirectory => ?_
    split
    · exact .refl _
    · exact .bind (follows_deleteEntry leave strict _ _) fun _ _ _ => .refl _

theorem follows_deleteEmpty (strict : w.Strict id) (paths : List Path) :
    Follows w (deleteEmpty tolerate id paths) (deleteEmpty leave id paths) := by
  induction paths generalizing w with
  | nil => exact .refl _
  | cons path rest ih =>
    unfold deleteEmpty
    refine .look (Mark.looks_isDirectory path) fun isDirectory => ?_
    extract_lets count deleteIf count' deleteIf'
    have deletes (isEmpty : Bool) : Follows w (deleteIf isEmpty) (deleteIf' isEmpty) := by
      unfold deleteIf deleteIf'
      split
      · refine .then_ strict (Mark.confined_deleteEntry (Mark.owns_origin w id) path .directory)
          (follows_deleteEntry leave strict _ _) fun deleted _ strict => ?_
        exact .bind (ih strict) fun _ _ _ => .refl _
      · exact .look (.pure _) fun deleted => .bind (ih strict) fun _ _ _ => .refl _
    split
    · exact .look (.readFiles _) fun children => deletes children.isEmpty
    · exact deletes false

theorem follows_deleteNamed (strict : w.Strict id) (base : Path) (names : List String) :
    Follows w (deleteNamed tolerate id base names) (deleteNamed leave id base names) := by
  induction names generalizing w with
  | nil => exact .refl _
  | cons name rest ih =>
    unfold deleteNamed
    extract_lets path goOn goOn'
    have goesOn {after : World φ} (strict : after.Strict id) :
        Follows after (goOn ()) (goOn' ()) :=
      .look (.consult _) fun above => .bind (ih strict) fun _ _ _ => .refl _
    refine .look (Mark.looks_isThere path) fun present => ?_
    refine .look (Mark.looks_isDirectory path) fun isDirectory => ?_
    split
    · exact .then_ strict (Mark.confined_deleteEntry (Mark.owns_origin w id) _ _)
        (follows_deleteEntry leave strict _ _) fun _ _ strict => goesOn strict
    · exact goesOn strict

theorem follows_deleteList (strict : w.Strict id) (list : ObjectId) :
    Follows w (deleteList tolerate id list) (deleteList leave id list) := by
  unfold deleteList
  refine .look (.consult _) fun base => ?_
  refine .look (.consult _) fun names => ?_
  refine .then_ strict (Mark.confined_logOf id _ _) (.refl _) fun _ _ strict => ?_
  refine .then_ strict (Mark.confined_deleteNamed (Mark.owns_origin _ id) base names)
    (follows_deleteNamed leave strict base names) fun directories _ strict => ?_
  refine .look (looks_flagOf id _) fun alsoEmpty => ?_
  split
  · exact .bind (follows_deleteEmpty leave strict _) fun _ _ _ => .refl _
  · exact .refl _

theorem follows_deleteGivenFile (strict : w.Strict id) (given : Bool) :
    Follows w (deleteGivenFile tolerate id given) (deleteGivenFile leave id given) := by
  unfold deleteGivenFile
  split
  · exact .look (looks_pathOf id _) fun path => follows_deleteFile leave strict path
  · exact .refl _

theorem follows_deleteGivenDirectory (strict : w.Strict id) (given : Bool) :
    Follows w (deleteGivenDirectory tolerate id given) (deleteGivenDirectory leave id given) := by
  unfold deleteGivenDirectory
  split
  · exact .look (looks_pathOf id _) fun path => follows_deleteDirectory leave strict path
  · exact .refl _

theorem follows_deleteLists (strict : w.Strict id) (lists : List ObjectId) :
    Follows w (deleteLists tolerate id lists) (deleteLists leave id lists) := by
  have owned (w : World φ) := Mark.owns_origin w id
  refine .bind (.forIn strict lists _ (fun after list _ => ?_) fun after list _ strict => ?_)
    fun _ _ _ => .refl _
  · refine .bind (Mark.confined_deleteList (owned _) list).attempt fun _ _ _ _ => ?_
    split
    · exact .pure trivial
    · exact .bind (Mark.confined_tolerate (owned _) _) fun _ _ _ _ => .pure trivial
    · exact .throw _
  · refine .attempt (follows_deleteList leave strict list) (fun fault after ran b final => ?_)
      fun _ _ => .refl _
    have strict := strict.after (Mark.confined_deleteList (owned _) list) ran
    cases fault with
    | configuration => exact bind_fails (tolerate_fails strict _) b final
    | _ => nofun

theorem follows_delete (strict : w.Strict id) :
    Follows w (delete tolerate id) (delete leave id) := by
  rw [delete_eq tolerate, delete_eq leave]
  refine .look (.observe _) fun lists => ?_
  refine .look (looks_isSet id _) fun file => .look (looks_isSet id _) fun directory => ?_
  refine .look (looks_rejectIf id _ _) fun _ => .look (looks_checkPolicy id) fun _ => ?_
  refine .then_ strict (Mark.confined_deleteGivenFile (Mark.owns_origin w id) file)
    (follows_deleteGivenFile leave strict file) fun _ after strict => ?_
  exact .then_ strict (Mark.confined_deleteGivenDirectory (Mark.owns_origin after id) directory)
    (follows_deleteGivenDirectory leave strict directory) fun _ _ strict =>
      follows_deleteLists leave strict lists

end Delete

theorem follows_perform (strict : w.Strict id) (action : Action) :
    Follows w (perform tolerate id action) (perform leave id action) := by
  cases action with
  | handleError message => exact follows_tolerate strict message _
  | _ => exact .refl _

theorem follows_performAll (strict : w.Strict id) (script : List Action) :
    Follows w (performAll tolerate id script) (performAll leave id script) := by
  induction script generalizing w with
  | nil => exact .refl _
  | cons action rest ih =>
    have owned := Mark.owns_origin w id
    cases action with
    | report type message => exact .refl _
    | _ =>
      exact .then_ strict (Mark.confined_perform owned _) (follows_perform leave strict _)
        fun _ _ strict => ih strict

/-- Work of a strict task that succeeds would be the same under any failure policy: nothing was left
to the policy. -/
theorem follows_work [FileSystem φ] (caller : Caller φ) (strict : w.Strict id) :
    Follows w (work caller id) (workBy leave caller id) := by
  unfold work workBy
  refine .look (.observe _) fun found => ?_
  split
  · exact .refl _
  split
  · exact follows_performAll leave strict _
  · exact .refl _
  · exact follows_delete leave strict
  all_goals exact .refl _

end Engine
end BuildEngine
