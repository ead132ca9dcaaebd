import BuildEngine.Proofs.BindingEnding
import BuildEngine.Proofs.DeedOrder

/-! Attachment: an object that is made for a nested element is given to its owner last, when the
element has been applied to it as a whole, and is left alone from then on; the nested elements of
an owner come in document order; after a fault nothing is attached any more. -/

namespace BuildEngine

open Engine

variable {φ : Type}

/-! Places of elements. -/

/-- An element stands at a place of a tree whose root stands at a place itself. -/
def Element.Below (e : Element) (place : List Nat) (there : List Nat) (x : Element) : Prop :=
  ∃ rest, there = place ++ rest ∧ e.at? rest = some x

/-- An element stands at a place below elements that are nested at some positions from one on. -/
def Element.Among (children : List Element) (place : List Nat) (position : Nat)
    (there : List Nat) (x : Element) : Prop :=
  ∃ skipped rest child, children[skipped]? = some child ∧
    there = place ++ (position + skipped) :: rest ∧ child.at? rest = some x

/-- An element stands at a place and no other one does. -/
def Element.Only (e : Element) (place : List Nat) (there : List Nat) (x : Element) : Prop :=
  there = place ∧ x = e

section Places

variable {e x : Element} {rest children : List Element} {place there : List Nat} {position : Nat}
variable {former latter : List Nat → Element → Prop}

theorem Element.below_of_only (only : e.Only place there x) : e.Below place there x := by
  obtain ⟨rfl, rfl⟩ := only
  exact ⟨[], (List.append_nil _).symm, rfl⟩

theorem Element.below_of_among (among : Among e.children place 0 there x) :
    e.Below place there x := by
  obtain ⟨skipped, rest, child, found, rfl, inside⟩ := among
  refine ⟨skipped :: rest, by rw [Nat.zero_add], ?_⟩
  rw [Element.at?, found]
  exact inside

theorem Element.among_of_below (below : e.Below (place ++ [position]) there x) :
    Among (e :: rest) place position there x := by
  obtain ⟨inner, rfl, inside⟩ := below
  exact ⟨0, inner, e, rfl, by simp, inside⟩

theorem Element.among_cons (among : Among rest place (position + 1) there x) :
    Among (e :: rest) place position there x := by
  obtain ⟨skipped, inner, child, found, rfl, inside⟩ := among
  exact ⟨skipped + 1, inner, child, found, by rw [Nat.add_assoc, Nat.add_comm 1], inside⟩

theorem apart_of_only (later : List Nat → Element → Prop) :
    Apart place (e.Only place) later := by
  rintro position rest e later e' ⟨same, -⟩ -
  simp at same

theorem only_apart (former : List Nat → Element → Prop) : Apart place former (e.Only place) := by
  rintro position rest e later e' - ⟨rfl, -⟩
  constructor
  · simp [List.prefix_iff_eq_append]
  · intro next _ same
    simp at same

/-- What is nested in one element stands apart from what is nested in later ones. -/
theorem below_apart :
    Apart place (e.Below (place ++ [position])) (Element.Among rest place (position + 1)) := by
  rintro first inner x there y ⟨tail, same, -⟩ ⟨skipped, further, child, -, rfl, -⟩
  have here : first = position := by
    rw [List.append_assoc, List.append_cancel_left_eq] at same
    exact (List.cons.inj same).1
  subst here
  constructor
  · intro before
    have heads := (List.prefix_append_right_inj place).mp before
    have := (List.cons_prefix_cons.mp heads).1
    omega
  · intro next _ same
    rw [List.append_cancel_left_eq] at same
    have := (List.cons.inj same).1
    omega

end Places

/-! What configuration does, deed by deed. -/

/-- How deeds end: all of them succeed, or the last of them fails, with the fault that ends the
whole. -/
structure Concludes (deeds : List Deed) (ended : Option Fault) : Prop where
  flawless : ended = none → ∀ d ∈ deeds, d.fault = none
  failed : ∀ fault, ended = some fault →
    ∃ former last, deeds = former ++ [last] ∧ last.fault = some fault

/-- Deeds that apply something to an object in order, up to a fault or as a whole. -/
structure Proceeds (found : List Nat → Element → Prop) (place : List Nat) (object : ObjectId)
    (whole : List Deed → Prop) (w : World φ) (deeds : List Deed) (result : Except Fault Unit)
    (after : World φ) : Prop where
  orderly : Orderly found place object w.objects.length after.objects.length deeds
  ends : Concludes deeds (Recorder.faultOf result)
  grows : w.objects.length ≤ after.objects.length
  whole : result = .ok () → whole deeds

section Proceeding

variable {found former latter : List Nat → Element → Prop} {place : List Nat} {id : ObjectId}
variable {whole begun done : List Deed → Prop} {w : World φ}
variable {deeds more : List Deed} {mid after : World φ}

theorem Concludes.nil : Concludes [] none := ⟨fun _ => nofun, nofun⟩

theorem Concludes.append {ended : Option Fault} (flawless : ∀ d ∈ deeds, d.fault = none)
    (second : Concludes more ended) : Concludes (deeds ++ more) ended := by
  constructor
  · intro succeeds
    exact List.forall_mem_append.mpr ⟨flawless, second.flawless succeeds⟩
  · intro fault fails
    obtain ⟨before, last, rfl, failed⟩ := second.failed fault fails
    exact ⟨deeds ++ before, last, (List.append_assoc _ _ _).symm, failed⟩

theorem Concludes.cons {d : Deed} {ended : Option Fault} (flawless : d.fault = none)
    (rest : Concludes deeds ended) : Concludes (d :: deeds) ended := by
  have first : ∀ only ∈ [d], only.fault = none := by simpa using flawless
  exact Concludes.append first rest

theorem Concludes.single (d : Deed) : Concludes [d] d.fault :=
  ⟨fun succeeds => by simpa using succeeds, fun _ fails => ⟨[], d, rfl, fails⟩⟩

theorem Proceeds.nil (complete : whole []) : Proceeds found place id whole w [] (.ok ()) w :=
  ⟨.nil, .nil, Nat.le_refl _, fun _ => complete⟩

theorem Proceeds.since {start : World φ} {result : Except Fault Unit}
    (proceeds : Proceeds found place id whole w deeds result after)
    (earlier : start.objects.length ≤ w.objects.length) :
    Proceeds found place id whole start deeds result after :=
  ⟨proceeds.orderly.since earlier, proceeds.ends, Nat.le_trans earlier proceeds.grows,
    proceeds.whole⟩

theorem Proceeds.imp {result : Except Fault Unit}
    (proceeds : Proceeds former place id begun w deeds result after)
    (covers : ∀ place e, former place e → found place e)
    (complete : begun deeds → whole deeds) : Proceeds found place id whole w deeds result after :=
  ⟨proceeds.orderly.imp covers, proceeds.ends, proceeds.grows,
    fun ended => complete (proceeds.whole ended)⟩

/-- After a fault nothing has been applied as a whole. -/
theorem Proceeds.broken {fault : Fault}
    (proceeds : Proceeds former place id begun w deeds (.error fault) after)
    (covers : ∀ place e, former place e → found place e) :
    Proceeds found place id whole w deeds (.error fault) after :=
  ⟨proceeds.orderly.imp covers, proceeds.ends, proceeds.grows, nofun⟩

theorem Proceeds.append {result : Except Fault Unit} (present : id < w.objects.length)
    (first : Proceeds former place id begun w deeds (.ok ()) mid)
    (second : Proceeds latter place id done mid more result after)
    (apart : Apart place former latter) (covers : ∀ place e, former place e → found place e)
    (covers' : ∀ place e, latter place e → found place e)
    (complete : begun deeds → done more → whole (deeds ++ more)) :
    Proceeds found place id whole w (deeds ++ more) result after where
  orderly := first.orderly.append second.orderly present first.grows second.grows
    (first.ends.flawless rfl) apart covers covers'
  ends := .append (first.ends.flawless rfl) second.ends
  grows := Nat.le_trans first.grows second.grows
  whole ended := complete (first.whole rfl) (second.whole ended)

/-- What comes first is done first, and the rest only if it succeeds. -/
theorem Proceeds.bind {recorder : Recorder φ Unit} {action : Engine φ Unit}
    {next : Unit → Recorder φ Unit} {onward : Unit → Engine φ Unit}
    (present : id < w.objects.length)
    (first : recorder.Keeps action w (Proceeds former place id begun w))
    (rest : ∀ mid, w.objects.length ≤ mid.objects.length →
      (next ()).Keeps (onward ()) mid (Proceeds latter place id done mid))
    (apart : Apart place former latter) (covers : ∀ place e, former place e → found place e)
    (covers' : ∀ place e, latter place e → found place e)
    (complete : ∀ deeds more, begun deeds → done more → whole (deeds ++ more)) :
    (recorder >>= next).Keeps (action >>= onward) w (Proceeds found place id whole w) := by
  apply first.bind
  · intro deeds fault after proceeds
    exact proceeds.broken covers
  · intro deeds _ mid proceeds
    apply (rest mid proceeds.grows).imp
    intro more result after continues
    exact proceeds.append present continues apart covers covers' (complete deeds more)

/-- A single deed that attaches nothing. -/
theorem keeps_deed {e : Element} {work : Work} {action : Engine φ Unit}
    (plain : ∀ h, work ≠ .attach h) (leads : Leads Mark.origin.Change w action) :
    (Recorder.noting place id work action).Keeps action w
      (Proceeds (e.Only place) place id (· = [{ place, object := id, work }]) w) := by
  have grows := objects_le_of_reaches leads.1
  apply Recorder.Keeps.noting
  · intro _ after ended
    rw [ended] at grows
    exact ⟨.single rfl ⟨rfl, rfl⟩ plain, .single _, grows, fun _ => rfl⟩
  · intro fault after ended
    rw [ended] at grows
    exact ⟨.single rfl ⟨rfl, rfl⟩ plain, .single _, grows, nofun⟩

end Proceeding

section Configuring

variable {w : World φ} {id owner : ObjectId} {place : List Nat} {e : Element}

theorem keeps_bindAttributes (project : ProjectId) (location : Location)
    (entries : List (String × String)) (present : id < w.objects.length) :
    (Recorder.bindAttributes project id place location entries).Keeps
      (Engine.bindAttributes project id location entries) w
      (Proceeds (e.Only place) place id (· = attributeDeeds place id entries) w) := by
  induction entries generalizing w with
  | nil => exact .pure (.nil rfl)
  | cons entry rest ih =>
    obtain ⟨name, text⟩ := entry
    unfold Recorder.bindAttributes Engine.bindAttributes
    cases identity : isIdName name with
    | true =>
      apply (ih present).imp
      intro deeds result after proceeds
      apply proceeds.imp fun _ _ there => there
      rintro rfl
      simp [attributeDeeds, identity]
    | false =>
      have binds := leads_of_takes (Mark.confined_bindAttribute (Nat.zero_le project)
        (Mark.owns_origin w id) name text location)
      have plain (h : ChildHandle) : Work.attribute name text ≠ .attach h := by
        rintro ⟨⟩
      apply Proceeds.bind present (keeps_deed (e := e) plain binds)
        (fun mid grows => ih (Nat.lt_of_lt_of_le present grows)) (apart_of_only _)
        (fun _ _ there => there) fun _ _ there => there
      rintro _ _ rfl rfl
      simp [attributeDeeds, identity]

/-- What is made a reference has no other attributes, no nested elements and no text. -/
theorem alone_of_bindReference {project : ProjectId} {refid : String}
    {attributes : List (String × String)} {after : World φ}
    (ended : (bindReference project e id refid attributes).run w = (.ok (), after)) :
    (∀ entry ∈ attributes, isIdName entry.1 ∨ isRefidName entry.1) ∧ e.children = [] ∧
      Text.allBlank e.text = true := by
  unfold bindReference at ended
  rw [run_bind_ok (run_object id w)] at ended
  extract_lets there refer alone at ended
  split at ended
  · rw [run_bind_error (run_throw _ _)] at ended
    cases ended
  · rename_i others
    unfold alone at ended
    split at ended
    · rw [run_bind_error (run_throw _ _)] at ended
      cases ended
    · rename_i nests
      simp only [List.any_eq_true, Bool.and_eq_true, Bool.not_eq_true', not_exists, not_and,
        Bool.not_eq_false] at others
      simp only [Bool.or_eq_true, Bool.not_eq_true', not_or, Bool.not_eq_false,
        List.isEmpty_iff] at nests
      refine ⟨fun entry member => ?_, nests⟩
      cases identity : isIdName entry.1 with
      | true => exact .inl rfl
      | false => exact .inr (others entry member identity)

/-- What making the object of a nested element records. -/
structure TakesChild (place : List Nat) (owner : ObjectId) (w : World φ) (deeds : List Deed)
    (result : Except Fault ChildHandle) (after : World φ) : Prop where
  single : deeds = [{ place, object := owner, work := .child, fault := Recorder.faultOf result }]
  grows : w.objects.length ≤ after.objects.length
  makes : ∀ h, result = .ok h → h.owner = owner ∧ w.Makes after h.child

theorem keeps_takeChild (project : ProjectId) (name : String) (location : Location) :
    (Recorder.noting place owner .child (takeChild project owner name location)).Keeps
      (takeChild project owner name location) w (TakesChild place owner w) := by
  obtain ⟨steps, makes⟩ : Leads Mark.origin.Change w (takeChild project owner name location) _ :=
    making_takeChild name location
  have grows := objects_le_of_reaches steps
  apply Recorder.Keeps.noting
  · intro h after ended
    rw [ended] at grows makes
    exact ⟨rfl, grows, fun _ same => makes _ same⟩
  · intro fault after ended
    rw [ended] at grows
    exact ⟨rfl, grows, nofun⟩

theorem keeps_attach (h : ChildHandle) :
    (Recorder.noting place owner (.attach h) (attach h)).Keeps (attach h) w
      fun deeds result after => deeds =
          [{ place, object := owner, work := .attach h, fault := Recorder.faultOf result }] ∧
        w.objects.length ≤ after.objects.length := by
  have attaches := leads_of_takes (Mark.confined_attach (Mark.owns_origin w h.owner))
  have grows := objects_le_of_reaches attaches.1
  apply Recorder.Keeps.noting
  · intro _ after ended
    rw [ended] at grows
    exact ⟨rfl, grows⟩
  · intro fault after ended
    rw [ended] at grows
    exact ⟨rfl, grows⟩

/-- Deeds that apply an element to an object that is made for it, and attach the object. -/
def Nests (place : List Nat) (owner : ObjectId) (e : Element) (deeds : List Deed) : Prop :=
  ∃ h inner, h.owner = owner ∧ Applies place h.child e inner ∧
    deeds = nestedDeeds place owner h inner

/-- A nested element that was applied as a whole is attached, with success or not. -/
theorem Proceeds.nested {position : Nat} {h : ChildHandle} {inner : List Deed}
    {mid last after : World φ} (present : owner < w.objects.length) (mine : h.owner = owner)
    (made : w.Makes mid h.child)
    (applied : Proceeds (e.Below (place ++ [position])) (place ++ [position]) h.child
      (Applies (place ++ [position]) h.child e) mid inner (.ok ()) last)
    (grows : last.objects.length ≤ after.objects.length) (result : Except Fault Unit) :
    Proceeds (e.Below (place ++ [position])) place owner (Nests (place ++ [position]) owner e) w
      (nestedDeeds (place ++ [position]) owner h inner (Recorder.faultOf result)) result after where
  orderly := applied.orderly.nested mine present made applied.grows grows
    (applied.ends.flawless rfl) (Element.below_of_only ⟨rfl, rfl⟩) (applied.whole rfl) _
  ends := .cons rfl (.append (applied.ends.flawless rfl) (.single _))
  grows := by
    have before := Nat.le_of_lt (Nat.lt_of_le_of_lt made.1 made.2)
    exact Nat.le_trans before (Nat.le_trans applied.grows grows)
  whole ended := by
    subst ended
    exact ⟨h, inner, mine, applied.whole rfl, rfl⟩

/-- The world in which an object has the name that an element gives it. -/
def World.named (w : World φ) (project : ProjectId) (e : Element) (id : ObjectId) : World φ :=
  match e.get? "id" with
  | none => w
  | some template =>
    let p := w.project project
    let name := p.properties.resolve template
    let warning : LogRecord := ⟨.warning, ownLogger, References.replacedText name⟩
    { w with
      logged := if p.references.replaces name id then w.logged.push warning else w.logged
      projects := w.projects.modify project fun p =>
        { p with references := p.references.register name id } }

theorem World.objects_named (w : World φ) (project : ProjectId) (e : Element) (id : ObjectId) :
    (w.named project e id).objects = w.objects := by
  unfold World.named
  split <;> rfl

theorem World.kinds_named (w : World φ) (project : ProjectId) (e : Element) (id : ObjectId) :
    (w.named project e id).kinds = w.kinds := by
  unfold World.named
  split <;> rfl

theorem World.kindOf_named (w : World φ) (project : ProjectId) (e : Element) (id other : ObjectId) :
    (w.named project e id).kindOf other = w.kindOf other := by
  unfold World.named
  split <;> rfl

/-- Naming an object always succeeds, and changes no objects. -/
theorem run_registerId (project : ProjectId) (e : Element) (id : ObjectId) (w : World φ) :
    (registerId project e id).run w = (.ok (), w.named project e id) := by
  unfold registerId World.named
  cases e.get? "id" with
  | none => rfl
  | some template =>
    simp only
    rw [run_bind_ok (run_project project w), register, run_bind_ok (run_project project w)]
    generalize (w.project project).properties.resolve template = name
    cases (w.project project).references.replaces name id <;> rfl

theorem keeps_bindReference (project : ProjectId) (refid : String) (p : Properties) :
    let resolved := e.attributes.map fun entry => (entry.1, p.resolve entry.2)
    (Recorder.noting place id (.reference refid) (bindReference project e id refid resolved)).Keeps
      (bindReference project e id refid resolved) w
      (Proceeds (e.Below place) place id (Applies place id e) w) := by
  intro resolved
  have binds : Leads Mark.origin.Change w (bindReference project e id refid resolved) :=
    leads_of_takes (Mark.confined_bindReference (Mark.owns_origin w id) e refid resolved)
  have grows := objects_le_of_reaches binds.1
  have here : e.Below place place e := Element.below_of_only ⟨rfl, rfl⟩
  apply Recorder.Keeps.noting
  · intro _ after ended
    obtain ⟨alone, childless, blank⟩ := alone_of_bindReference ended
    rw [ended] at grows
    refine ⟨.single rfl here fun _ => nofun, .single _, grows, fun _ => ?_⟩
    refine .reference (fun entry member => ?_) childless blank
    exact alone (entry.1, p.resolve entry.2) (List.mem_map.mpr ⟨entry, member, rfl⟩)
  · intro fault after ended
    rw [ended] at grows
    exact ⟨.single rfl here fun _ => nofun, .single _, grows, nofun⟩

/-- Deeds that add the text of an element, if it has any. -/
def AddsText (place : List Nat) (object : ObjectId) (text : String) (deeds : List Deed) : Prop :=
  ∃ p : Properties, deeds = if text.isEmpty then [] else
    [{ place, object, work := .text (p.resolve text) }]

theorem keeps_bindText (project : ProjectId) (text : String) (location : Location) :
    Recorder.Keeps (do
      if !text.isEmpty then
        let properties := (← Recorder.aside (Engine.project project)).properties
        let text := properties.resolve text
        Recorder.noting place id (.text text) (Engine.bindText id text location)) (do
      if !text.isEmpty then
        let properties := (← Engine.project project).properties
        bindText id (properties.resolve text) location) w
      (Proceeds (e.Only place) place id (AddsText place id text) w) := by
  cases empty : text.isEmpty with
  | true => exact .pure (.nil ⟨{}, by simp [empty]⟩)
  | false =>
    apply Recorder.Keeps.look (run_project project w)
    let properties := (w.project project).properties
    have plain : ∀ h, Work.text (properties.resolve text) ≠ .attach h := fun _ => nofun
    have binds := leads_of_takes (Mark.confined_bindText (Mark.owns_origin w id)
      (properties.resolve text) location)
    apply (keeps_deed plain binds).imp
    intro deeds result after proceeds
    apply proceeds.imp fun _ _ there => there
    rintro rfl
    exact ⟨properties, by simp [empty]⟩

/-- Deeds that apply what stands in an element: nested elements, then text. -/
def AppliesContents (place : List Nat) (object : ObjectId) (e : Element) (deeds : List Deed) :
    Prop :=
  ∃ nested text, AppliesAll place object 0 e.children nested ∧ AddsText place object e.text text ∧
    deeds = nested ++ text

/-- The text of an element is added after all that is nested in it. -/
theorem keeps_contents {recorder : Recorder φ Unit} {action : Engine φ Unit}
    {next : Unit → Recorder φ Unit} {onward : Unit → Engine φ Unit}
    (present : id < w.objects.length)
    (nested : recorder.Keeps action w (Proceeds (Element.Among e.children place 0) place id
      (AppliesAll place id 0 e.children) w))
    (text : ∀ mid, (next ()).Keeps (onward ()) mid
      (Proceeds (e.Only place) place id (AddsText place id e.text) mid)) :
    (recorder >>= next).Keeps (action >>= onward) w
      (Proceeds (e.Below place) place id (AppliesContents place id e) w) :=
  Proceeds.bind present nested (fun mid _ => text mid) (only_apart _)
    (fun _ _ => Element.below_of_among) (fun _ _ => Element.below_of_only)
    fun nested text all added => ⟨nested, text, all, added, rfl⟩

mutual

/-- Configuring an object from an element applies the element to it in order. -/
theorem keeps_configure (project : ProjectId) : ∀ (e : Element) (place : List Nat) {w : World φ}
    {id : ObjectId}, id < w.objects.length →
      (Recorder.configure project id place e).Keeps (Engine.configure project id e) w
        (Proceeds (e.Below place) place id (Applies place id e) w)
  | ⟨tag, attributes, children, text, location⟩, place, w, id, present => by
    unfold Recorder.configure Engine.configure
    extract_lets e
    have registered := run_registerId project e id w
    have grows : w.objects.length ≤ (w.named project e id).objects.length :=
      Nat.le_of_eq (by rw [World.objects_named])
    generalize w.named project e id = first at registered grows
    have there := Nat.lt_of_lt_of_le present grows
    apply Recorder.Keeps.look registered
    apply Recorder.Keeps.look (run_project project first)
    extract_lets properties resolved
    apply Recorder.Keeps.look (run_observe _ first)
    refine Recorder.Keeps.imp ?_ fun _ _ _ proceeds => Proceeds.since proceeds grows
    cases found : resolved.find? fun entry =>
        (first.kindOf id).isDataType && isRefidName entry.1 with
    | some refers => exact keeps_bindReference project refers.2 properties
    | none =>
      apply Proceeds.bind there (keeps_bindAttributes (e := e) project location resolved there)
      · intro mid grows
        have there := Nat.lt_of_lt_of_le there grows
        exact keeps_contents (e := e) there (keeps_configureChildren project children place 0 there)
          fun mid => keeps_bindText project text location
      · exact apart_of_only _
      · exact fun _ _ => Element.below_of_only
      · exact fun _ _ there => there
      · rintro _ _ rfl ⟨nested, text, all, ⟨after, rfl⟩, rfl⟩
        exact .whole properties after all

theorem keeps_configureChildren (project : ProjectId) : ∀ (children : List Element)
    (place : List Nat) (position : Nat) {w : World φ} {owner : ObjectId},
      owner < w.objects.length →
      (Recorder.configureChildren project owner place position children).Keeps
        (Engine.configureChildren project owner children) w
        (Proceeds (Element.Among children place position) place owner
          (AppliesAll place owner position children) w)
  | [], place, position, w, owner, present => by
    unfold Recorder.configureChildren Engine.configureChildren
    exact .pure (.nil .nil)
  | e :: rest, place, position, w, owner, present => by
    unfold Recorder.configureChildren Engine.configureChildren
    have here : Element.Among (e :: rest) place position (place ++ [position]) e :=
      Element.among_of_below (Element.below_of_only ⟨rfl, rfl⟩)
    extract_lets below
    apply (keeps_takeChild project e.tag e.location).bind
    · rintro _ fault mid ⟨rfl, grows, -⟩
      exact ⟨.single rfl here fun _ => nofun, .single _, grows, nofun⟩
    rintro _ h mid ⟨rfl, grows, makes⟩
    obtain ⟨mine, made⟩ := makes h rfl
    apply (keeps_configure project e (place ++ [position]) made.2).bind
    · intro inner fault last applied
      have inside : Orderly (Element.Among (e :: rest) place position) place owner
          w.objects.length last.objects.length inner :=
        (applied.orderly.imp fun _ _ => Element.among_of_below).within present made applied.grows
      exact ⟨inside.cons rfl here rfl fun _ => nofun, .cons rfl applied.ends,
        Nat.le_trans grows applied.grows, nofun⟩
    intro inner _ last applied
    apply (keeps_attach h).bind
    · rintro _ fault after ⟨rfl, further⟩
      have nested := Proceeds.nested present mine made applied further (.error fault)
      exact nested.broken fun _ _ => Element.among_of_below
    rintro _ _ after ⟨rfl, further⟩
    have nested := Proceeds.nested present mine made applied further (.ok ())
    have there := Nat.lt_of_lt_of_le present nested.grows
    apply (keeps_configureChildren project rest place (position + 1) there).imp
    intro more result final others
    have joined : Proceeds (Element.Among (e :: rest) place position) place owner
        (AppliesAll place owner position (e :: rest)) w
        (nestedDeeds below owner h inner ++ more) result final := by
      apply nested.append present others below_apart (fun _ _ => Element.among_of_below)
        fun _ _ => Element.among_cons
      rintro ⟨h, inner, mine, applied, same⟩ whole
      rw [same]
      exact .cons mine applied whole
    simpa [nestedDeeds, Recorder.faultOf] using joined

end

end Configuring

/-! Whole requests. -/

/-- What is asked of the configurator: to make an object for an element, to let an owner nest one,
or to configure one that is there. -/
inductive Request where
  | made (e : Element)
  | nested (owner : ObjectId) (e : Element)
  | given (id : ObjectId) (e : Element)

namespace Request

def element : Request → Element
  | made e => e
  | nested _ e => e
  | given _ e => e

/-- The owner or the object of a request is there. -/
def IsPresent (w : World φ) : Request → Prop
  | made _ => True
  | nested owner _ => owner < w.objects.length
  | given id _ => id < w.objects.length

def configure (project : ProjectId) : Request → Engine φ ObjectId
  | made e => Engine.createConfigured project e
  | nested owner e => Engine.configureChild project owner e
  | given id e => do
    Engine.configure project id e
    return id

/-- A request that is recorded. -/
def record (project : ProjectId) : Request → Recorder φ ObjectId
  | made e => Recorder.createConfigured project e
  | nested owner e => Recorder.configureChild project owner e
  | given id e => do
    Recorder.configure project id [] e
    return id

end Request

/-- What the record of a request says: its deeds are in order, and it ends with its last deed,
unless it fails before the first one. -/
structure Answers (root : Element) (deeds : List Deed) (ended : Option Fault) : Prop where
  ordered : Ordered (root.Below []) deeds
  concludes : Concludes deeds ended ∨ deeds = []

section Requests

variable {w : World φ} {id owner : ObjectId} {root : Element} {deeds earlier later : List Deed}

theorem keeps_given (project : ProjectId) (e : Element) (present : id < w.objects.length) :
    (Request.record project (.given id e)).Keeps (Request.configure project (.given id e)) w
      fun deeds result _ => Answers e deeds (Recorder.faultOf result) := by
  apply (keeps_configure project e [] present).bind
  · intro deeds fault after proceeds
    exact ⟨proceeds.orderly.toOrdered, .inl proceeds.ends⟩
  · intro deeds _ after proceeds
    refine .pure ?_
    rw [List.append_nil]
    exact ⟨proceeds.orderly.toOrdered, .inl proceeds.ends⟩

theorem keeps_made (project : ProjectId) (e : Element) :
    (Request.record project (.made e)).Keeps (Request.configure project (.made e)) w
      fun deeds result _ => Answers e deeds (Recorder.faultOf result) := by
  obtain ⟨_, makes⟩ : Making w (create project e) := making_create e none
  have creates : (Recorder.aside (create project e)).Keeps (create project e) w
      fun deeds result after => deeds = [] ∧ ∀ id, result = .ok id → w.Makes after id :=
    .aside ⟨rfl, makes⟩
  apply creates.bind
  · rintro _ fault after ⟨rfl, -⟩
    have orderly : Orderly (e.Below []) [] 0 0 0 [] := .nil
    exact ⟨orderly.toOrdered, .inr rfl⟩
  · rintro _ id after ⟨rfl, made⟩
    exact keeps_given project e (made id rfl).2

/-- The root of a tree is attached to its owner after everything else. -/
theorem keeps_nested (project : ProjectId) (e : Element) (present : owner < w.objects.length) :
    (Request.record project (.nested owner e)).Keeps (Request.configure project (.nested owner e))
      w fun deeds result _ => Answers e deeds (Recorder.faultOf result) := by
  have here : e.Below [] [] e := Element.below_of_only ⟨rfl, rfl⟩
  apply (keeps_takeChild project e.tag e.location).bind
  · rintro _ fault mid ⟨rfl, -, -⟩
    have orderly : Orderly (e.Below []) [] owner 0 0
        [{ place := [], object := owner, work := .child, fault := some fault }] :=
      .single rfl here fun _ => nofun
    exact ⟨orderly.toOrdered, .inl (.single _)⟩
  rintro _ h mid ⟨rfl, grows, makes⟩
  obtain ⟨mine, made⟩ := makes h rfl
  apply (keeps_configure project e [] made.2).bind
  · intro inner fault last applied
    exact ⟨applied.orderly.toOrdered.cons rfl fun _ => nofun, .inl (.cons rfl applied.ends)⟩
  intro inner _ last applied
  have attached (fault : Option Fault) := applied.orderly.attach mine
    (Nat.lt_of_lt_of_le present (Nat.le_trans made.1 (Nat.le_of_lt made.2)))
    (Nat.lt_of_lt_of_le present made.1) (applied.ends.flawless rfl) here (applied.whole rfl) fault
  have ends (attaches : Deed) : Concludes (inner ++ [attaches]) attaches.fault :=
    .append (applied.ends.flawless rfl) (.single attaches)
  apply (keeps_attach h).bind
  · rintro _ fault after ⟨rfl, -⟩
    exact ⟨(attached fault).cons rfl fun _ => nofun, .inl (.cons rfl (ends _))⟩
  · rintro _ _ after ⟨rfl, -⟩
    refine .pure ?_
    rw [List.append_nil]
    exact ⟨(attached none).cons rfl fun _ => nofun, .inl (.cons rfl (ends _))⟩

theorem keeps_request (project : ProjectId) (request : Request) (present : request.IsPresent w) :
    (request.record project).Keeps (request.configure project) w
      fun deeds result _ => Answers request.element deeds (Recorder.faultOf result) := by
  cases request with
  | made e => exact keeps_made project e
  | nested owner e => exact keeps_nested project e present
  | given id e => exact keeps_given project e present

/-- A deed that attaches an object comes last: the element was applied to the object as a whole, it
is attached once, and from then on nothing below the element and nothing that is done to the object
is recorded. Elements of the same owner that are attached later come later in the document. -/
structure Deed.AttachesLast (root : Element) (earlier : List Deed) (d : Deed) (h : ChildHandle)
    (later : List Deed) : Prop where
  owner : h.owner = d.object
  applied : ∃ e former whole, root.at? d.place = some e ∧ earlier = former ++ whole ∧
    Applies d.place h.child e whole
  flawless : ∀ other ∈ earlier, other.fault = none
  once : ∀ other ∈ earlier ++ later, ∀ h', other.work = .attach h' → other.place ≠ d.place
  finished : ∀ other ∈ later, ¬ d.place <+: other.place ∧ other.object ≠ h.child
  inOrder : ∀ other ∈ later, ∀ h', other.work = .attach h' → other.object = d.object →
    ∃ place position next,
      d.place = place ++ [position] ∧ other.place = place ++ [next] ∧ position < next

variable {d : Deed} {h : ChildHandle}

theorem Ordered.attachesLast (ordered : Ordered (root.Below []) (earlier ++ d :: later))
    (attaches : d.work = .attach h) : d.AttachesLast root earlier h later := by
  obtain ⟨-, second, before⟩ := List.pairwise_append.mp ordered.sequence
  have after := (List.pairwise_cons.mp second).1
  have before : ∀ other ∈ earlier, other.Precedes d :=
    fun other member => before other member d List.mem_cons_self
  obtain ⟨owner, e, former, whole, ⟨_, same, there⟩, split, applied⟩ :=
    ordered.applied earlier d later h rfl attaches
  constructor
  · exact owner
  · exact ⟨e, former, whole, by rwa [same], split, applied⟩
  · exact fun other member => (before other member).flawless
  · intro other member h' attaches' same
    rcases List.mem_append.mp member with first | last
    · exact ((before other first).last h' attaches').1 (same ▸ List.prefix_rfl)
    · exact ((after other last).last h attaches).1 (same ▸ List.prefix_rfl)
  · exact fun other member => (after other member).last h attaches
  · exact fun other member h' => (after other member).ordered h h' attaches

/-- A deed that fails is the last one, and nothing that it stands below was attached. -/
theorem Answers.fails {ended : Option Fault} {fault : Fault}
    (answers : Answers root (earlier ++ d :: later) ended) (failed : d.fault = some fault) :
    later = [] ∧ ended = some fault ∧
      ∀ other ∈ earlier, ∀ h, other.work = .attach h → ¬ other.place <+: d.place := by
  obtain ⟨-, second, before⟩ := List.pairwise_append.mp answers.ordered.sequence
  have last : later = [] := by
    cases later with
    | nil => rfl
    | cons next rest =>
      have precedes := (List.pairwise_cons.mp second).1 next List.mem_cons_self
      exact absurd (failed.symm.trans precedes.flawless) nofun
  subst last
  refine ⟨rfl, ?_, ?_⟩
  · have concludes : Concludes (earlier ++ [d]) ended := by simpa using answers.concludes
    cases ended with
    | none =>
      have none_ := concludes.flawless rfl d (by simp)
      exact absurd (failed.symm.trans none_) nofun
    | some other =>
      obtain ⟨former, last, same, fails⟩ := concludes.failed other rfl
      cases (List.append_inj' same rfl).2
      rw [← fails, failed]
  · intro other member h attaches
    exact ((before other member d List.mem_cons_self).last h attaches).1

end Requests

/-- Whatever is asked of the configurator, the record of what it does to objects shows that every
nested element is attached to its owner last, that the elements of an owner are attached in document
order, and that after a fault neither the element that it happens in nor one around it is attached.
The record is that of the configuration itself: the same things are done, with the same result. -/
theorem configure_attaches_last (project : ProjectId) (request : Request) (w : World φ)
    (present : request.IsPresent w) :
    ∃ deeds result after, (request.configure project).run w = (result, after) ∧
      (request.record project).run w [] = (result, after, deeds) ∧
      (∀ earlier d later h, deeds = earlier ++ d :: later → d.work = .attach h →
        d.AttachesLast request.element earlier h later) ∧
      (∀ earlier d later fault, deeds = earlier ++ d :: later → d.fault = some fault →
        later = [] ∧ result = .error fault ∧
          ∀ other ∈ earlier, ∀ h, other.work = .attach h → ¬ other.place <+: d.place) ∧
      (∀ fault, result = .error fault →
        deeds = [] ∨ ∃ earlier d, deeds = earlier ++ [d] ∧ d.fault = some fault) := by
  obtain ⟨deeds, recorded, answers⟩ := keeps_request project request present
  have record := recorded []
  rcases ended : (request.configure project).run w with ⟨result, after⟩
  rw [ended] at record answers
  refine ⟨deeds, result, after, rfl, record, ?_, ?_, ?_⟩
  · rintro earlier d later h rfl attaches
    exact answers.ordered.attachesLast attaches
  · rintro earlier d later fault rfl failed
    obtain ⟨last, stopped, unattached⟩ := answers.fails failed
    refine ⟨last, ?_, unattached⟩
    cases result <;> cases stopped
    rfl
  · rintro fault rfl
    rcases answers.concludes with concludes | none_
    · exact .inr (concludes.failed fault rfl)
    · exact .inl none_

/-! A list of files, nested in a task, in which a file is nested. -/

namespace Sample

def listing : Element where
  tag := "filelist"
  attributes := [("dir", "src")]
  children := [{ tag := "file", attributes := [("name", "a.c")] }]

def owning : World Unit where
  files := ()
  projects := [{ directory := .top }]
  objects := [{ kind := Standard.delete, project := 0 }]

/-- The child that a deed attaches, and how its element is declared. -/
def attachedBy (d : Deed) : Option (ObjectId × ChildOrigin) :=
  match d.work with
  | .attach h => some (h.child, h.factory.origin)
  | _ => none

/-- The file is attached to the list, and then the list to the task. -/
theorem listing_recorded : (((Request.record 0 (.nested 0 listing)).run owning []).2.2.map
    fun d => (d.place, d.object, attachedBy d)) =
      [([], 0, none), ([], 1, none), ([0], 1, none), ([0], 2, none), ([0], 1, some (2, .adder))] ++
        [([], 0, some (1, .adder))] := by
  decide +kernel

end Sample

theorem configure_attaches_last_sample :
    Request.IsPresent Sample.owning (.nested 0 Sample.listing) ∧
      ∃ earlier d h, ((Request.record 0 (.nested 0 Sample.listing)).run Sample.owning []).2.2 =
          earlier ++ [d] ∧ d.work = .attach h ∧ h.factory.origin = .adder ∧
        earlier.length = 5 ∧ d.AttachesLast Sample.listing earlier h [] := by
  have present : Request.IsPresent Sample.owning (.nested 0 Sample.listing) := Nat.zero_lt_one
  refine ⟨present, ?_⟩
  obtain ⟨deeds, _, _, _, record, attaches, _⟩ :=
    configure_attaches_last 0 (.nested 0 Sample.listing) Sample.owning present
  have recorded := Sample.listing_recorded
  rw [record] at recorded ⊢
  obtain ⟨earlier, rest, rfl, first, last⟩ := List.map_eq_append_iff.mp recorded
  obtain ⟨d, rfl, shown⟩ := List.map_eq_singleton_iff.mp last
  have long : earlier.length = 5 := by simpa using congrArg List.length first
  simp only [Prod.mk.injEq, Sample.attachedBy] at shown
  obtain ⟨-, -, origin⟩ := shown
  split at origin
  · rename_i h attached
    have declared := congrArg Prod.snd (Option.some.inj origin)
    exact ⟨earlier, d, h, rfl, attached, declared, long, attaches earlier d [] h rfl attached⟩
  · cases origin

end BuildEngine
