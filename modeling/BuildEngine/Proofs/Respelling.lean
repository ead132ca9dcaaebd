import BuildEngine.Proofs.Attachment
import Mathlib.Data.List.Forall2

/-! Respelling: how the names of attributes are written makes no difference to what configuring does,
as long as they have the same normal form. Only the names with a meaning of their own have to be
recognised as such in both spellings, since they are compared in another way. -/

namespace BuildEngine

open Engine Text

section Names

/-- A character that has no other case stands in lower-case text wherever it stood before. -/
theorem Text.mem_lowerAux {c : Char} (plain : c.toNat ≤ 127) (same : c.toLower = c) :
    ∀ {cs : List Char} (before : List Char), c ∈ cs → c ∈ lowerAux before cs
  | first :: rest, before, member => by
    rw [lowerAux]
    rcases List.mem_cons.mp member with rfl | later
    · have dotless : c.toNat ≠ 304 := by omega
      have noSigma : c.toNat ≠ 931 := by omega
      simp [dotless, noSigma, toLower, plain, same]
    · exact List.mem_append_right _ (mem_lowerAux plain same (first :: before) later)

/-- Lower case is the normal form of a name that has neither underscores nor dashes. -/
theorem normalizeName_of_lower {name word : String} (lowered : lower name = word)
    (plain : '_' ∉ word.toList ∧ '-' ∉ word.toList) : normalizeName name = word := by
  have without {c : Char} (ascii : c.toNat ≤ 127) (same : c.toLower = c) (other : c ∉ word.toList) :
      c ∉ name.toList := by
    refine fun member => other ?_
    rw [← lowered, lower, String.toList_ofList]
    exact mem_lowerAux ascii same [] member
  have all : name.toList.filter (fun c => c != '_' && c != '-') = name.toList := by
    refine List.filter_eq_self.mpr fun c member => ?_
    rw [Bool.and_eq_true, bne_iff_ne, bne_iff_ne]
    constructor
    · rintro rfl
      exact without (by decide) (by decide) plain.1 member
    · rintro rfl
      exact without (by decide) (by decide) plain.2 member
  rw [normalizeName, all, String.ofList_toList, lowered]

theorem normalizeName_of_isIdName {name : String} (identity : isIdName name = true) :
    normalizeName name = "id" :=
  normalizeName_of_lower (eq_of_beq identity) (by decide)

theorem normalizeName_of_isRefidName {name : String} (refers : isRefidName name = true) :
    normalizeName name = "refid" :=
  normalizeName_of_lower (eq_of_beq refers) (by decide)

end Names

/-- Two attributes of elements that differ in how their name is spelled. On objects of some kinds
only, `refid` has a meaning of its own. -/
structure Respelled (ofData : Bool) (a b : String × String) : Prop where
  value : a.2 = b.2
  normal : normalizeName a.1 = normalizeName b.1
  naming : normalizeName a.1 = "id" → isIdName a.1 = isIdName b.1
  referring : ofData = true → normalizeName a.1 = "refid" → isRefidName a.1 = isRefidName b.1

/-- Two elements that differ in how the names of attributes are spelled, in them and in what is nested
in them. -/
inductive Element.Respells : Bool → Element → Element → Prop
  | intro {ofData : Bool} {tag text : String} {location : Location}
    {attributes attributes' : List (String × String)} {children children' : List Element}
    (spelled : List.Forall₂ (Respelled ofData) attributes attributes')
    (nested : List.Forall₂ (Element.Respells true) children children') :
    Respells ofData ⟨tag, attributes, children, text, location⟩
      ⟨tag, attributes', children', text, location⟩

namespace Element.Respells

variable {ofData : Bool} {e f : Element}

theorem tag (respells : e.Respells ofData f) : e.tag = f.tag := by
  cases respells
  rfl

theorem location (respells : e.Respells ofData f) : e.location = f.location := by
  cases respells
  rfl

end Element.Respells

namespace Respelled

variable {ofData : Bool} {a b : String × String} {entries entries' : List (String × String)}

theorem isIdName_eq (spelled : Respelled ofData a b) : isIdName a.1 = isIdName b.1 := by
  by_cases named : normalizeName a.1 = "id"
  · exact spelled.naming named
  · have first := mt normalizeName_of_isIdName named
    have second := mt normalizeName_of_isIdName (spelled.normal ▸ named)
    rw [Bool.eq_false_iff.mpr first, Bool.eq_false_iff.mpr second]

theorem isRefidName_eq (spelled : Respelled true a b) : isRefidName a.1 = isRefidName b.1 := by
  by_cases named : normalizeName a.1 = "refid"
  · exact spelled.referring rfl named
  · have first := mt normalizeName_of_isRefidName named
    have second := mt normalizeName_of_isRefidName (spelled.normal ▸ named)
    rw [Bool.eq_false_iff.mpr first, Bool.eq_false_iff.mpr second]

/-- The values under names that are recognised in both spellings are found alike. -/
theorem find?_eq (recognised : String → Bool)
    (all : List.Forall₂ (Respelled ofData) entries entries')
    (kept : ∀ {a b}, Respelled ofData a b → recognised a.1 = recognised b.1) :
    (entries.find? fun entry => recognised entry.1).map Prod.snd =
      (entries'.find? fun entry => recognised entry.1).map Prod.snd := by
  induction all with
  | nil => rfl
  | cons first _ ih =>
    rw [List.find?_cons, List.find?_cons, ← kept first]
    split
    · exact congrArg some first.value
    · exact ih

theorem any_eq (all : List.Forall₂ (Respelled true) entries entries') :
    (entries.any fun entry => !isIdName entry.1 && !isRefidName entry.1) =
      entries'.any fun entry => !isIdName entry.1 && !isRefidName entry.1 := by
  induction all with
  | nil => rfl
  | cons first _ ih =>
    rw [List.any_cons, List.any_cons, ih, first.isIdName_eq, first.isRefidName_eq]

/-- Values may be replaced alike in both spellings. -/
theorem map (change : String → String) (all : List.Forall₂ (Respelled ofData) entries entries') :
    List.Forall₂ (Respelled ofData) (entries.map fun entry => (entry.1, change entry.2))
      (entries'.map fun entry => (entry.1, change entry.2)) := by
  refine List.forall₂_map_left_iff.mpr (List.forall₂_map_right_iff.mpr (all.imp ?_))
  exact fun a b spelled => { spelled with value := congrArg change spelled.value }

end Respelled

variable {φ : Type} {α β : Type}

namespace Engine

/-- Two actions have the same result, whatever fault they end with, and leave the same world. -/
def Alike (w : World φ) (action other : Engine φ α) : Prop :=
  (action.run w).1.toOption = (other.run w).1.toOption ∧ (action.run w).2 = (other.run w).2

namespace Alike

variable {w : World φ} {action other : Engine φ α} {next next' : α → Engine φ β}

theorem refl (action : Engine φ α) : Alike w action action := ⟨rfl, rfl⟩

theorem throw (fault fault' : Fault) : Alike w (throw fault : Engine φ α) (throw fault') :=
  ⟨rfl, rfl⟩

theorem bind (first : Alike w action other)
    (rest : ∀ a after, action.run w = (.ok a, after) → Alike after (next a) (next' a)) :
    Alike w (action >>= next) (other >>= next') := by
  obtain ⟨results, worlds⟩ := first
  rcases ran : action.run w with ⟨fault | a, after⟩ <;>
    rcases ran' : other.run w with ⟨fault' | a', after'⟩ <;> rw [ran, ran'] at results worlds
  · rw [Alike, run_bind_error ran, run_bind_error ran']
    exact ⟨rfl, worlds⟩
  · cases results
  · cases results
  · cases results
    cases worlds
    rw [Alike, run_bind_ok ran, run_bind_ok ran']
    exact rest a after ran

theorem adapting (change change' : Fault → Fault) (alike : Alike w action other) :
    Alike w (adapting change action) (adapting change' other) := by
  obtain ⟨results, worlds⟩ := alike
  rcases ran : action.run w with ⟨fault | a, after⟩ <;>
    rcases ran' : other.run w with ⟨fault' | a', after'⟩ <;> rw [ran, ran'] at results worlds
  · rw [Alike, Engine.adapting, Engine.adapting, run_tryCatch_error ran, run_tryCatch_error ran']
    exact ⟨rfl, worlds⟩
  · cases results
  · cases results
  · cases results
    cases worlds
    rw [Alike, Engine.adapting, Engine.adapting, run_tryCatch_ok ran, run_tryCatch_ok ran']
    exact ⟨rfl, rfl⟩

end Alike

section Respelling

variable {w : World φ} {project : ProjectId} {id : ObjectId}

/-- An attribute is found by the normal form of its name. The spelling shows in faults alone. -/
theorem alike_bindAttribute {name name' : String} (normal : normalizeName name = normalizeName name')
    (text : String) (location : Location) :
    Alike w (bindAttribute project id name text location)
      (bindAttribute project id name' text location) := by
  unfold bindAttribute
  refine (Alike.refl _).bind fun signature _ _ => (Alike.refl _).bind fun owner _ _ => ?_
  have found : signature.attribute? name' = signature.attribute? name := by
    rw [Signature.attribute?, Signature.attribute?, normal]
  rw [found]
  split
  · split
    · exact .refl _
    · exact .throw _ _
  · exact .throw _ _
  · exact .throw _ _
  · exact (Alike.refl _).adapting _ _

theorem alike_bindAttributes {ofData : Bool} {entries entries' : List (String × String)}
    (all : List.Forall₂ (Respelled ofData) entries entries') (location : Location) :
    Alike w (bindAttributes project id location entries)
      (bindAttributes project id location entries') := by
  induction all generalizing w with
  | nil => exact .refl _
  | @cons a b _ _ first _ ih =>
    obtain ⟨name, text⟩ := a
    obtain ⟨name', text'⟩ := b
    obtain rfl : text = text' := first.value
    have same : isIdName name = isIdName name' := first.isIdName_eq
    unfold bindAttributes
    rw [same]
    split
    · exact (alike_bindAttribute first.normal text location).bind fun _ _ _ => ih
    · exact ih

theorem registerId_respelled {ofData : Bool} {e f : Element}
    (spelled : List.Forall₂ (Respelled ofData) e.attributes f.attributes) :
    (registerId project e id : Engine φ Unit) = registerId project f id := by
  have same : e.get? "id" = f.get? "id" :=
    Respelled.find?_eq isIdName spelled Respelled.isIdName_eq
  unfold registerId
  rw [same]

theorem bindReference_respelled {e f : Element} {entries entries' : List (String × String)}
    (place : e.location = f.location) (nests : e.children.isEmpty = f.children.isEmpty)
    (wording : e.text = f.text) (spelled : List.Forall₂ (Respelled true) entries entries')
    (refid : String) : (bindReference project e id refid entries : Engine φ Unit) =
      bindReference project f id refid entries' := by
  unfold bindReference
  rw [place, nests, wording, Respelled.any_eq spelled]

mutual

theorem alike_configure : ∀ {e f : Element} {w : World φ} {id : ObjectId} {ofData : Bool},
    e.Respells ofData f → ((w.kindOf id).isDataType = true → ofData = true) →
      Alike w (configure project id e) (configure project id f)
  | ⟨tag, attributes, children, text, location⟩, ⟨_, attributes', children', _, _⟩, w, id, ofData,
    .intro spelled nested, ofKind => by
    unfold configure
    extract_lets e f
    refine .bind ?_ fun _ after named => ?_
    · rw [registerId_respelled (e := e) (f := f) spelled]
      exact .refl _
    cases (run_registerId project e id w).symm.trans named
    have kind := World.kindOf_named w project e id id
    refine (Alike.refl _).bind fun p _ looked => ?_
    cases looked
    extract_lets properties resolved resolved'
    have place : e.location = f.location := rfl
    have wording : e.text = f.text := rfl
    have nests : e.children.isEmpty = f.children.isEmpty := by
      cases nested <;> rfl
    have both : List.Forall₂ (Respelled ofData) resolved resolved' :=
      Respelled.map properties.resolve spelled
    clear_value resolved resolved'
    refine (Alike.refl _).bind fun isDataType here looked => ?_
    have data : isDataType = true → ofData = true := by
      cases looked
      exact fun known => ofKind (kind ▸ known)
    have kept {a b : String × String} (spelled : Respelled ofData a b) :
        (isDataType && isRefidName a.1) = (isDataType && isRefidName b.1) := by
      cases isDataType with
      | true => exact (data rfl ▸ spelled).isRefidName_eq
      | false => rfl
    have finds : (resolved.find? fun entry => isDataType && isRefidName entry.1).map Prod.snd =
        (resolved'.find? fun entry => isDataType && isRefidName entry.1).map Prod.snd :=
      Respelled.find?_eq (fun name => isDataType && isRefidName name) both kept
    cases refers : resolved.find? fun entry => isDataType && isRefidName entry.1 with
    | some entry =>
      rw [refers] at finds
      obtain ⟨entry', refers', same⟩ := Option.map_eq_some_iff.mp finds.symm
      have found := List.find?_some refers
      rw [Bool.and_eq_true] at found
      have strict := data found.1
      have binds (refid : String) : (bindReference project e id refid resolved : Engine φ Unit) =
          bindReference project f id refid resolved' :=
        bindReference_respelled place nests wording (strict ▸ both) refid
      rw [refers']
      simp only [same, binds]
      exact .refl _
    | none =>
      rw [refers] at finds
      rw [Option.map_eq_none_iff.mp finds.symm]
      refine (alike_bindAttributes both location).bind fun _ _ _ => ?_
      exact (alike_configureChildren nested).bind fun _ _ _ => .refl _

theorem alike_configureChildren : ∀ {children children' : List Element} {w : World φ}
    {id : ObjectId}, List.Forall₂ (Element.Respells true) children children' →
      Alike w (configureChildren project id children) (configureChildren project id children')
  | [], _, _, _, .nil => .refl _
  | e :: rest, _, w, id, .cons (b := f) first others => by
    unfold configureChildren
    rw [← first.tag, ← first.location]
    refine (Alike.refl _).bind fun handle _ _ => ?_
    refine (alike_configure first fun _ => rfl).bind fun _ _ _ => ?_
    exact (Alike.refl _).bind fun _ _ _ => alike_configureChildren others

end

/-- Attribute names are matched without regard to case, underscores and dashes: however they are
respelled, in an element and in what is nested in it, configuring fails in both spellings or in
neither, and leaves the same world, with the same attribute values, the same named objects and the
same reference. Only a spelling of `id`, and on data types of `refid`, has to be recognised in both
spellings or in neither, since these names are compared in lower case alone. -/
theorem configure_respelled {e f : Element} (respells : e.Respells (w.kindOf id).isDataType f)
    (project : ProjectId) :
    ((configure project id e).run w).1.isOk = ((configure project id f).run w).1.isOk ∧
      ((configure project id e).run w).2 = ((configure project id f).run w).2 := by
  obtain ⟨results, worlds⟩ : Alike w (configure project id e) (configure project id f) :=
    alike_configure respells fun known => known
  refine ⟨?_, worlds⟩
  cases ended : ((configure project id e).run w).1 <;>
    cases ended' : ((configure project id f).run w).1 <;> rw [ended, ended'] at results <;>
      first | rfl | cases results

end Respelling

end Engine

namespace Sample

/-- A message, and a list of paths. -/
def desk : World Unit where
  files := ()
  kinds := .standard
  projects := [{ directory := .top }]
  objects := [
    { kind := .standard .echo, project := 0, fields := .ofList [("message", .value (.text ""))] },
    { kind := .standard .pathList, project := 0, fields := .ofList [("path", .void)] }]

/-- An element with a single attribute. -/
def marked (tag name value : String) : Element := { tag, attributes := [(name, value)] }

end Sample

theorem Engine.configure_respelled_message :
    ((configure 0 0 (Sample.marked "echo" "mes-sage" "a")).run Sample.desk).1.isOk = true ∧
      ((configure 0 0 (Sample.marked "echo" "mes-sage" "a")).run Sample.desk).2 =
        ((configure 0 0 (Sample.marked "echo" "Message_" "a")).run Sample.desk).2 := by
  have spelled (ofData : Bool) : Respelled ofData ("mes-sage", "a") ("Message_", "a") :=
    ⟨rfl, by decide +kernel, by decide +kernel, fun _ => by decide +kernel⟩
  have respells (ofData : Bool) : (Sample.marked "echo" "mes-sage" "a").Respells ofData
      (Sample.marked "echo" "Message_" "a") := .intro (.cons (spelled ofData) .nil) .nil
  exact ⟨by decide +kernel, (configure_respelled (respells _) 0).2⟩

/-- A name with a meaning of its own is not recognised in every spelling. -/
theorem Engine.configure_reserved_name :
    normalizeName "i_d" = normalizeName "id" ∧
      ((configure 0 0 (Sample.marked "echo" "id" "a")).run Sample.desk).1.isOk = true ∧
      ((configure 0 0 (Sample.marked "echo" "i_d" "a")).run Sample.desk).1.isOk = false := by
  decide +kernel

end BuildEngine
