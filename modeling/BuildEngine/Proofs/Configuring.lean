import BuildEngine.Proofs.Attachment
import BuildEngine.Proofs.BindingFrame

/-! Configuration that succeeds. An object that is configured from an element has the attributes
that the element gives it last; one that is given by a reference to a property is the value of the
property, character by character. -/

namespace BuildEngine

open Engine

variable {φ : Type}

/-- Attributes with the references in their values replaced. -/
def Properties.resolved (p : Properties) (attributes : List (String × String)) :
    List (String × String) :=
  attributes.map fun entry => (entry.1, p.resolve entry.2)

namespace Engine

variable {w final : World φ} {project : ProjectId} {owner id : ObjectId} {location : Location}

/-- Attributes that are given one after another are bound one after another. -/
theorem ok_of_bindAttributes_append {former latter : List (String × String)}
    (ended : (bindAttributes project id location (former ++ latter)).run w = (.ok (), final)) :
    ∃ mid, (bindAttributes project id location former).run w = (.ok (), mid) ∧
      (bindAttributes project id location latter).run mid = (.ok (), final) := by
  induction former generalizing w with
  | nil => exact ⟨w, rfl, ended⟩
  | cons entry rest ih =>
    obtain ⟨name, text⟩ := entry
    rw [List.cons_append, bindAttributes] at ended
    rw [bindAttributes]
    split at ended
    · rename_i proper
      obtain ⟨_, bound, binds, others⟩ := ok_of_bind ended
      obtain ⟨mid, first, second⟩ := ih others
      refine ⟨mid, ?_, second⟩
      rw [if_pos proper, run_bind_ok binds]
      exact first
    · rename_i identity
      obtain ⟨mid, first, second⟩ := ih ended
      refine ⟨mid, ?_, second⟩
      rw [if_neg identity]
      exact first

/-- Elements that stand one after another are taken one after another. -/
theorem ok_of_configureChildren_append {former latter : List Element}
    (ended : (configureChildren project owner (former ++ latter)).run w = (.ok (), final)) :
    ∃ mid, (configureChildren project owner former).run w = (.ok (), mid) ∧
      (configureChildren project owner latter).run mid = (.ok (), final) := by
  induction former generalizing w with
  | nil => exact ⟨w, rfl, ended⟩
  | cons e rest ih =>
    rw [List.cons_append, configureChildren] at ended
    obtain ⟨h, taken, takes, ended⟩ := ok_of_bind ended
    obtain ⟨_, configured, configures, ended⟩ := ok_of_bind ended
    obtain ⟨_, attached, attaches, ended⟩ := ok_of_bind ended
    obtain ⟨mid, first, second⟩ := ih ended
    refine ⟨mid, ?_, second⟩
    rw [configureChildren, run_bind_ok takes, run_bind_ok configures, run_bind_ok attaches]
    exact first

/-- A nested element is taken, configured and attached. -/
theorem ok_of_configureChildren_cons {e : Element} {rest : List Element}
    (ended : (configureChildren project owner (e :: rest)).run w = (.ok (), final)) :
    ∃ h taken configured attached,
      (takeChild project owner e.tag e.location).run w = (.ok h, taken) ∧
      (configure project h.child e).run taken = (.ok (), configured) ∧
      (attach h).run configured = (.ok (), attached) ∧
      (configureChildren project owner rest).run attached = (.ok (), final) := by
  rw [configureChildren] at ended
  obtain ⟨h, taken, takes, ended⟩ := ok_of_bind ended
  obtain ⟨_, configured, configures, ended⟩ := ok_of_bind ended
  obtain ⟨_, attached, attaches, ended⟩ := ok_of_bind ended
  exact ⟨h, taken, configured, attached, takes, configures, attaches, ended⟩

/-- What comes of an object that is configured and is no reference: its attributes are bound, then
its nested elements are taken, and then its text is. -/
structure Configures (project : ProjectId) (id : ObjectId) (e : Element)
    (w bound nested final : World φ) : Prop where
  attributes : ∃ registered, w.Binds OfNone registered ∧
    (bindAttributes project id e.location
      ((w.project project).properties.resolved e.attributes)).run registered = (.ok (), bound)
  children : (configureChildren project id e.children).run bound = (.ok (), nested)
  text : ∀ kept, e.text = "" ∨ ¬ kept id "message" → nested.Binds kept final

theorem Configures.binds {e : Element} {bound nested : World φ}
    (configures : Configures project id e w bound nested final) (present : id < w.objects.length) :
    w.Binds OfNone bound := by
  obtain ⟨registered, binds, attaches⟩ := configures.attributes
  have attaching : BindsBy OfNone registered (bindAttributes project id e.location
      ((w.project project).properties.resolved e.attributes)) :=
    binds_bindAttributes (World.has_ofNone _) (binds.present present) _ _
      fun _ _ _ _ _ _ => not_false
  exact binds.trans (attaching.of_run attaches).1

/-- What is configured with success is a reference that has no other attributes, or none. -/
theorem configures_of_ok {e : Element} (present : id < w.objects.length)
    (ended : (configure project id e).run w = (.ok (), final)) :
    ((w.kindOf id).isDataType = true ∧
      ∀ entry ∈ e.attributes, isIdName entry.1 ∨ isRefidName entry.1) ∨
      ∃ bound nested, Configures project id e w bound nested final := by
  obtain ⟨tag, attributes, children, text, location⟩ := e
  unfold configure at ended
  extract_lets e at ended
  obtain ⟨_, registered, registers, ended⟩ := ok_of_bind ended
  have first : BindsBy OfNone w (registerId project e id) := binds_registerId e id
  obtain ⟨binds, -⟩ := first.of_run registers
  rw [run_bind_ok (run_project project registered)] at ended
  extract_lets properties resolved at ended
  rw [run_bind_ok (run_observe _ registered), binds.kindOf present] at ended
  split at ended
  · rename_i name refid found
    left
    obtain ⟨alone, -⟩ := alone_of_bindReference ended
    have chosen := List.find?_some found
    rw [Bool.and_eq_true] at chosen
    refine ⟨chosen.1, fun entry member => ?_⟩
    have given : (entry.1, properties.resolve entry.2) ∈ resolved := List.mem_map_of_mem member
    have either := alone _ given
    exact either
  · right
    obtain ⟨_, bound, attributes, ended⟩ := ok_of_bind ended
    obtain ⟨_, nested, nests, ended⟩ := ok_of_bind ended
    refine ⟨bound, nested, ⟨registered, binds, ?_⟩, nests, ?_⟩
    · rw [← binds.properties]
      exact attributes
    · intro kept free
      split at ended
      · rename_i given
        rw [run_bind_ok (run_project project nested)] at ended
        have free := free.resolve_left (by rintro rfl; cases given)
        exact ((binds_bindText free _ location).of_run ended).1
      · cases ended
        exact .refl _

end Engine

/-- An element gives an attribute of an object that takes texts as a reference to a property, and
gives it nothing else after that. -/
structure World.Refers (w : World φ) (id : ObjectId) (e : Element) (name property : String)
    (a : Attribute) : Prop where
  present : id < w.objects.length
  takes : TextAttribute w id name a
  given : ∃ former latter,
    e.attributes = former ++ (name, Template.referenceTo property) :: latter ∧
      ∀ entry ∈ latter, MaySet (Single id a.name) w id entry.1
  proper : isIdName name = false
  ofObject : (w.kindOf id).isDataType = true → isRefidName name = false
  apart : e.text = "" ∨ a.name ≠ "message"

namespace Engine

variable {w final : World φ} {project : ProjectId} {id : ObjectId}

/-- An attribute that is given as a reference to a property is the value of the property. -/
theorem reads_of_configure {e : Element} {name property value : String} {a : Attribute}
    (refers : w.Refers id e name property a) (referred : Template.IsName property)
    (held : (w.project project).properties.get? property = some value)
    (plain : slotName? value = none)
    (ended : (configure project id e).run w = (.ok (), final)) :
    final.readText id a.name = .ok value := by
  obtain ⟨former, latter, attributes, others⟩ := refers.given
  have present := refers.present
  rcases configures_of_ok present ended with ⟨ofData, alone⟩ | ⟨bound, nested, configures⟩
  · have either := alone _ (attributes ▸ List.mem_append_right former List.mem_cons_self)
    simp [refers.proper, refers.ofObject ofData] at either
  obtain ⟨registered, binds, attaches⟩ := configures.attributes
  let p := (w.project project).properties
  have resolved : p.resolved e.attributes =
      p.resolved former ++ (name, value) :: p.resolved latter := by
    simp [Properties.resolved, attributes, p, Properties.resolve_referenceTo referred held]
  rw [resolved] at attaches
  obtain ⟨before, first, second⟩ := ok_of_bindAttributes_append attaches
  have early : BindsBy OfNone registered
      (bindAttributes project id e.location (p.resolved former)) :=
    binds_bindAttributes (World.has_ofNone _) (binds.present present) _ _
      fun _ _ _ _ _ _ => not_false
  have reaches := binds.trans (early.of_run first).1
  have there := reaches.present present
  have takes := refers.takes.transfer reaches.kinds (reaches.kindOf present)
  rw [bindAttributes, refers.proper] at second
  simp only [Bool.not_false, if_true] at second
  rw [run_bind_ok (run_bindAttribute _ takes plain)] at second
  generalize given : before.withSource id a.name (.value (.text value)) = with_ at second
  have holds : (with_.object id).fields.find? a.name = some (.value (.text value)) := by
    rw [← given, World.find?_withSource there, if_pos rfl]
  have still : id < with_.objects.length := by simpa [← given] using there
  have kinds : with_.kinds = w.kinds := by rw [← given, World.kinds_withSource, reaches.kinds]
  have kind : with_.kindOf id = w.kindOf id := by
    rw [← given, World.kindOf_withSource there, reaches.kindOf present]
  -- Neither further attributes nor nested elements nor the text change the attribute again.
  have later : BindsBy (Single id a.name) with_
      (bindAttributes project id e.location (p.resolved latter)) := by
    refine binds_bindAttributes (World.has_single still _) still _ _ fun entry member => ?_
    obtain ⟨written, listed, rfl⟩ := List.mem_map.mp member
    exact (others written listed).transfer kinds kind
  have inside : BindsBy (Single id a.name) bound (configureChildren project id e.children) :=
    binds_configureChildren (((later.of_run second).1).has (World.has_single still _)) _
  have whole := (later.of_run second).1.trans ((inside.of_run configures.children).1.trans
    (configures.text _ (refers.apart.imp_right fun other same => other same.2.symm)))
  apply World.readText_of_text
  rw [(whole.object id still).fields _ ⟨rfl, rfl⟩, holds]

end Engine
end BuildEngine
