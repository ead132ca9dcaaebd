import BuildEngine.DataType
import Mathlib.Data.List.Chain
import Mathlib.Data.List.DropRight

/-! Splitting a text into locations. Every semicolon divides, and every colon but that of a drive: a
single letter is put together with a slash behind its colon. It is put together with nothing, too: a
letter that stands alone keeps the colon behind it if the next divider or the end follows. Apart from
that, names with any dividers between them are read back. -/

namespace BuildEngine

open Text

namespace Text

variable {c : Char} {cs : List Char}

/-- The code points of blanks. -/
def blanks : List Nat :=
  [9, 10, 11, 12, 13, 28, 29, 30, 31, 32, 0x85, 0xa0, 0x1680, 0x2000, 0x2001, 0x2002, 0x2003,
    0x2004, 0x2005, 0x2006, 0x2007, 0x2008, 0x2009, 0x200a, 0x2028, 0x2029, 0x202f, 0x205f, 0x3000]

/-- A letter is no blank. -/
theorem isBlank_of_isLetter (letter : isLetter c = true) : isBlank c = false := by
  have apart : (blanks.all fun n => !isLetter (Char.ofNat n)) = true := by decide +kernel
  rw [Bool.eq_false_iff]
  intro blank
  have member : c.toNat ∈ blanks := by
    simp only [isBlank, Bool.or_eq_true, Bool.and_eq_true, decide_eq_true_eq, beq_iff_eq] at blank
    simp only [blanks, List.mem_cons, List.not_mem_nil, or_false]
    omega
  have none := List.all_eq_true.mp apart _ member
  rw [Char.ofNat_toNat, letter] at none
  cases none

/-- A text without blanks around it. -/
structure IsTrim (cs : List Char) : Prop where
  front : ∀ c ∈ cs.head?, isBlank c = false
  back : ∀ c ∈ cs.getLast?, isBlank c = false

instance (cs : List Char) : Decidable (IsTrim cs) :=
  decidable_of_iff (cs.head?.all (!isBlank ·) = true ∧ cs.getLast?.all (!isBlank ·) = true) <| by
    simp only [Option.all_eq_true, Bool.not_eq_true']
    exact ⟨fun ⟨front, back⟩ => ⟨front, back⟩, fun ⟨front, back⟩ => ⟨front, back⟩⟩

theorem trimChars_eq_rdropWhile (cs : List Char) :
    trimChars cs = (cs.dropWhile isBlank).rdropWhile isBlank := rfl

theorem isTrim_trimChars (cs : List Char) : IsTrim (trimChars cs) := by
  rw [trimChars_eq_rdropWhile]
  constructor
  · intro c first
    obtain ⟨blank, whole⟩ := List.rdropWhile_prefix isBlank (cs.dropWhile isBlank)
    have head : (cs.dropWhile isBlank).head? = some c := by
      rw [← whole, List.head?_append, first]
      rfl
    have stops := List.head?_dropWhile_not isBlank cs
    rw [head] at stops
    exact stops
  · intro c last
    obtain ⟨some, rfl⟩ := List.mem_getLast?_eq_getLast last
    exact Bool.eq_false_iff.mpr (List.rdropWhile_last_not isBlank _ some)

theorem trimChars_of_isTrim (trim : IsTrim cs) : trimChars cs = cs := by
  have front : cs.dropWhile isBlank = cs := by
    cases cs with
    | nil => rfl
    | cons c rest => exact List.dropWhile_cons_of_neg (by simpa using trim.front c rfl)
  rw [trimChars_eq_rdropWhile, front, List.rdropWhile_eq_self_iff]
  intro some
  exact Bool.eq_false_iff.mp (trim.back _ (List.getLast?_eq_some_getLast some))

/-- What is left of a text without the blanks around it is part of it. -/
theorem trimChars_subset (cs : List Char) : trimChars cs ⊆ cs := fun _ member =>
  (List.dropWhile_sublist _).subset ((List.rdropWhile_prefix _ _).subset member)

theorem rdropWhile_cons (keeps : isBlank c = false) :
    (c :: cs).rdropWhile isBlank = c :: cs.rdropWhile isBlank := by
  rw [List.rdropWhile, List.reverse_cons, List.dropWhile_append]
  split
  · rename_i none
    rw [List.isEmpty_iff] at none
    simp [List.rdropWhile, none, keeps]
  · simp [List.rdropWhile]

theorem trimChars_cons (keeps : isBlank c = false) :
    trimChars (c :: cs) = c :: cs.rdropWhile isBlank := by
  rw [trimChars_eq_rdropWhile, List.dropWhile_cons_of_neg (by simp [keeps]), rdropWhile_cons keeps]

end Text

/-! ### Pieces of a text -/

/-- What divides locations. -/
def isDivider (c : Char) : Bool := c == ':' || c == ';'

/-- What follows the colon of a drive. -/
def isSlash (c : Char) : Bool := c == '\\' || c == '/'

/-- The pieces of a text, where letters are put together with what follows as a drive does. -/
def locationPieces (text : List Char) : List (List Char) :=
  (splitOn (· == ';') text).flatMap fun chunk => joinDrives (splitOn (· == ':') chunk)

/-- Pieces without the blanks around them, as far as anything is left. -/
def keptOf (pieces : List (List Char)) : List (List Char) :=
  (pieces.map trimChars).filter (!·.isEmpty)

theorem splitLocations_eq (text : String) :
    splitLocations text = (keptOf (locationPieces text.toList)).map String.ofList := rfl

section Joining

variable {c : Char} {piece next : List Char} {pieces more : List (List Char)}

theorem joinDrives_drive (letter : isLetter c = true) (slash : ∀ d ∈ next.head?, isSlash d = true) :
    joinDrives ([c] :: next :: more) = (c :: ':' :: next) :: joinDrives more := by
  rw [joinDrives, if_pos]
  rw [letter, Bool.true_and, Option.all_eq_true]
  exact slash

/-- A piece is kept as it is if it is no letter, or if something other than a slash follows. -/
theorem joinDrives_keep (keeps : ∀ c, piece = [c] → isLetter c = true →
    ∃ d ∈ next.head?, isSlash d = false) :
    joinDrives (piece :: next :: more) = piece :: joinDrives (next :: more) := by
  match piece with
  | [] => rw [joinDrives.eq_2 _ _ (by simp)]
  | [c] =>
    rw [joinDrives, if_neg]
    rw [Bool.and_eq_true, Option.all_eq_true]
    rintro ⟨letter, slash⟩
    obtain ⟨d, head, other⟩ := keeps c rfl letter
    have again : isSlash d = true := slash d head
    rw [again] at other
    cases other
  | c :: d :: rest => rw [joinDrives.eq_2 _ _ (by simp)]

theorem joinDrives_nil : joinDrives [] = [] := by
  rw [joinDrives]

theorem joinDrives_singleton (piece : List Char) : joinDrives [piece] = [piece] := by
  rw [joinDrives.eq_2 _ _ (by simp), joinDrives_nil]

theorem joinDrives_nil_cons (more : List (List Char)) :
    joinDrives ([] :: more) = [] :: joinDrives more := by
  rw [joinDrives.eq_2 _ _ (by simp)]

/-- Where the next piece begins with something other than a slash, drives are joined separately. -/
theorem joinDrives_append {d : Char} (head : next.head? = some d) (other : isSlash d = false) :
    joinDrives (pieces ++ next :: more) = joinDrives pieces ++ joinDrives (next :: more) := by
  have kept (piece : List Char) :
      joinDrives (piece :: next :: more) = piece :: joinDrives (next :: more) :=
    joinDrives_keep fun _ _ _ => ⟨d, head, other⟩
  fun_induction joinDrives pieces with
  | case1 c first rest drive ih =>
    rw [List.cons_append, List.cons_append, joinDrives, if_pos drive, ih, List.cons_append]
  | case2 c first rest drive ih =>
    rw [List.cons_append, List.cons_append, joinDrives, if_neg drive, ← List.cons_append, ih,
      List.cons_append]
  | case3 piece rest alone ih =>
    cases rest with
    | nil =>
      rw [joinDrives_nil]
      exact kept piece
    | cons first rest =>
      rw [List.cons_append, List.cons_append, joinDrives.eq_2 _ _ (by grind), ← List.cons_append, ih,
        List.cons_append]
  | case4 => rfl

/-- A joined piece is one of the pieces, or a letter with a colon and the piece behind it. -/
theorem mem_joinDrives (member : piece ∈ joinDrives pieces) : piece ∈ pieces ∨
    ∃ before c next after, pieces = before ++ [c] :: next :: after ∧ isLetter c = true ∧
      (∀ d ∈ next.head?, isSlash d = true) ∧ piece = c :: ':' :: next := by
  fun_induction joinDrives pieces with
  | case1 c first rest drive ih =>
    rw [Bool.and_eq_true, Option.all_eq_true] at drive
    rcases List.mem_cons.mp member with rfl | later
    · exact .inr ⟨[], c, first, rest, rfl, drive.1, drive.2, rfl⟩
    · rcases ih later with old | ⟨before, b, next, after, rfl, joined⟩
      · exact .inl (List.mem_cons_of_mem _ (List.mem_cons_of_mem _ old))
      · exact .inr ⟨[c] :: first :: before, b, next, after, rfl, joined⟩
  | case2 c first rest drive ih =>
    rcases List.mem_cons.mp member with rfl | later
    · exact .inl List.mem_cons_self
    · rcases ih later with old | ⟨before, b, next, after, parts, joined⟩
      · exact .inl (List.mem_cons_of_mem _ old)
      · exact .inr ⟨[c] :: before, b, next, after, by rw [parts, List.cons_append], joined⟩
  | case3 first rest alone ih =>
    rcases List.mem_cons.mp member with rfl | later
    · exact .inl List.mem_cons_self
    · rcases ih later with old | ⟨before, b, next, after, rfl, joined⟩
      · exact .inl (List.mem_cons_of_mem _ old)
      · exact .inr ⟨first :: before, b, next, after, rfl, joined⟩
  | case4 => cases member

end Joining

/-! ### Entries -/

section Entries

variable {c letter : Char} {name text rest before entry : List Char}

/-- A letter that stands alone between dividers, with a colon behind it and no name behind that. -/
def Dangles (text : List Char) (letter : Char) : Prop :=
  isLetter letter = true ∧ ∃ before after, text = before ++ letter :: ':' :: after ∧
    (∀ c ∈ before.getLast?, isDivider c = true) ∧ ∀ c ∈ after.head?, isDivider c = true

/-- A name is a single letter. -/
def IsLone (name : List Char) : Prop := ∃ c, name = [c] ∧ isLetter c = true

/-- A name as it can stand between dividers. -/
structure IsName (name : List Char) : Prop where
  some : name ≠ []
  trim : IsTrim name
  whole : ∀ c ∈ name, isDivider c = false

instance (name : List Char) : Decidable (IsLone name) :=
  decidable_of_iff (name.length = 1 ∧ name.all isLetter = true) <| by
    constructor
    · intro ⟨one, letters⟩
      obtain ⟨c, rfl⟩ := List.length_eq_one_iff.mp one
      exact ⟨c, rfl, by simpa using letters⟩
    · rintro ⟨c, rfl, letter⟩
      simp [letter]

instance (name : List Char) : Decidable (IsName name) :=
  decidable_of_iff (name ≠ [] ∧ IsTrim name ∧ name.all (!isDivider ·) = true) <| by
    simp only [List.all_eq_true, Bool.not_eq_true']
    exact ⟨fun ⟨filled, trim, whole⟩ => ⟨filled, trim, whole⟩,
      fun ⟨filled, trim, whole⟩ => ⟨filled, trim, whole⟩⟩

theorem locationPieces_semicolon (before rest : List Char) :
    locationPieces (before ++ ';' :: rest) = locationPieces before ++ locationPieces rest := by
  rw [locationPieces, splitOn_append rfl, List.flatMap_append]
  rfl

theorem not_colon_of_whole (keeps : isDivider c = false) : (c == ':') = false ∧ (c == ';') = false :=
  Bool.or_eq_false_iff.mp keeps

/-- Text without dividers is one piece. -/
theorem locationPieces_of_whole (whole : ∀ c ∈ text, isDivider c = false) :
    locationPieces text = [text] := by
  rw [locationPieces, splitOn_of_whole fun c member => (not_colon_of_whole (whole c member)).2,
    List.flatMap_singleton,
    splitOn_of_whole fun c member => (not_colon_of_whole (whole c member)).1, joinDrives_singleton]

/-- A colon joins the last chunk before it and the first one behind it, of which the pieces are put
together; the first piece behind the colon is what stands there in front of a divider. -/
theorem exists_locationPieces_colon (before rest : List Char) : ∃ front pieces more back,
    locationPieces before = front ++ joinDrives pieces ∧
    locationPieces rest = joinDrives (rest.takeWhile (!isDivider ·) :: more) ++ back ∧
    locationPieces (before ++ ':' :: rest) =
      front ++ joinDrives (pieces ++ rest.takeWhile (!isDivider ·) :: more) ++ back ∧
    ((∀ c ∈ before, isDivider c = false) → front = [] ∧ pieces = [before]) := by
  obtain ⟨front, last, back, ends, begins, joined⟩ :=
    exists_splitOn_join (· == ';') ':' before rest rfl
  obtain ⟨more, first⟩ := exists_splitOn_eq_cons (· == ':') (rest.takeWhile (!· == ';'))
  have inner : (rest.takeWhile (!· == ';')).takeWhile (!· == ':') =
      rest.takeWhile (!isDivider ·) := by
    rw [List.takeWhile_takeWhile]
    congr
    funext c
    simp [isDivider, Bool.beq_eq_decide_eq]
  rw [inner] at first
  let joinedPieces := fun chunk => joinDrives (splitOn (· == ':') chunk)
  refine ⟨front.flatMap joinedPieces, splitOn (· == ':') last, more, back.flatMap joinedPieces,
    ?_, ?_, ?_, ?_⟩
  · rw [locationPieces, ends, List.flatMap_append, List.flatMap_singleton]
  · rw [locationPieces, begins, List.flatMap_cons, first]
  · rw [locationPieces, joined, List.flatMap_append, List.flatMap_cons, splitOn_append rfl, first,
      List.append_assoc]
  · intro whole
    rw [splitOn_of_whole fun c member => (not_colon_of_whole (whole c member)).2] at ends
    cases front with
    | nil =>
      obtain ⟨rfl, _⟩ := List.cons.inj ends
      exact ⟨rfl, splitOn_of_whole fun c member => (not_colon_of_whole (whole c member)).1⟩
    | cons first front => exact absurd ends (by simp)

/-- No divider and no slash is a letter. -/
theorem plain_of_isLetter (letter : isLetter c = true) : isDivider c = false ∧ isSlash c = false := by
  have marks : isLetter ':' = false ∧ isLetter ';' = false ∧ isLetter '\\' = false ∧
      isLetter '/' = false := by
    decide +kernel
  constructor
  · rw [isDivider, Bool.or_eq_false_iff, beq_eq_false_iff_ne, beq_eq_false_iff_ne]
    constructor
    · rintro rfl
      simp [marks] at letter
    · rintro rfl
      simp [marks] at letter
  · rw [isSlash, Bool.or_eq_false_iff, beq_eq_false_iff_ne, beq_eq_false_iff_ne]
    constructor
    · rintro rfl
      simp [marks] at letter
    · rintro rfl
      simp [marks] at letter

theorem keptOf_append (front back : List (List Char)) :
    keptOf (front ++ back) = keptOf front ++ keptOf back := by
  rw [keptOf, List.map_append, List.filter_append]
  rfl

theorem keptOf_nil_cons (pieces : List (List Char)) : keptOf ([] :: pieces) = keptOf pieces := rfl

theorem keptOf_cons {pieces : List (List Char)} (some : name ≠ []) (trim : IsTrim name) :
    keptOf (name :: pieces) = name :: keptOf pieces := by
  rw [keptOf, List.map_cons, trimChars_of_isTrim trim, List.filter_cons_of_pos (by simpa using some)]
  rfl

theorem isTrim_letter (letter : isLetter c = true) : IsTrim [c, ':'] :=
  ⟨by simpa using isBlank_of_isLetter letter, by simp; decide⟩

/-! ### Names and dividers -/

theorem divider_cases (divider : isDivider c = true) : c = ':' ∨ c = ';' := by
  simpa [isDivider] using divider

/-- Dividers in front of a text do not matter. -/
theorem keptOf_divider (divider : isDivider c = true) :
    keptOf (locationPieces (c :: rest)) = keptOf (locationPieces rest) := by
  rcases divider_cases divider with rfl | rfl
  · obtain ⟨front, pieces, more, back, _, begins, joined, whole⟩ :=
      exists_locationPieces_colon [] rest
    obtain ⟨rfl, rfl⟩ := whole (by simp)
    rw [List.nil_append, List.nil_append, List.singleton_append, joinDrives_nil_cons] at joined
    rw [joined, begins, List.cons_append, keptOf_nil_cons]
  · have halves := locationPieces_semicolon [] rest
    have empty : locationPieces [] = [[]] := locationPieces_of_whole (by simp)
    rw [List.nil_append, empty, List.singleton_append] at halves
    rw [halves, keptOf_nil_cons]

theorem keptOf_dividers {run : List Char} (dividers : ∀ c ∈ run, isDivider c = true) :
    keptOf (locationPieces (run ++ rest)) = keptOf (locationPieces rest) := by
  induction run with
  | nil => rfl
  | cons c run ih =>
    rw [List.cons_append, keptOf_divider (dividers c List.mem_cons_self)]
    exact ih fun c later => dividers c (List.mem_cons_of_mem _ later)

theorem keptOf_name_semicolon (isName : IsName name) :
    keptOf (locationPieces (name ++ ';' :: rest)) = name :: keptOf (locationPieces rest) := by
  rw [locationPieces_semicolon, locationPieces_of_whole isName.whole, List.singleton_append,
    keptOf_cons isName.some isName.trim]

/-- A name with a colon behind it is kept, unless it is a letter and a slash or nothing follows. -/
theorem keptOf_name_colon (isName : IsName name)
    (keeps : IsLone name → ∃ d ∈ rest.head?, isDivider d = false ∧ isSlash d = false) :
    keptOf (locationPieces (name ++ ':' :: rest)) = name :: keptOf (locationPieces rest) := by
  obtain ⟨front, pieces, more, back, _, begins, joined, whole⟩ :=
    exists_locationPieces_colon name rest
  obtain ⟨rfl, rfl⟩ := whole isName.whole
  rw [joined, begins, List.nil_append, List.singleton_append, joinDrives_keep, List.cons_append,
    keptOf_cons isName.some isName.trim]
  intro c alone letter
  obtain ⟨d, head, plain, other⟩ := keeps ⟨c, alone, letter⟩
  obtain ⟨tail, rfl⟩ := List.head?_eq_some_iff.mp head
  exact ⟨d, by rw [List.takeWhile_cons_of_pos (by simp [plain])]; rfl, other⟩

/-- A letter keeps the colon behind it if nothing stands between that and the next divider. -/
theorem keptOf_letter_colon (letter : isLetter c = true)
    (bare : ∀ d ∈ rest.head?, isDivider d = true) :
    keptOf (locationPieces (c :: ':' :: rest)) = [c, ':'] :: keptOf (locationPieces rest) := by
  obtain ⟨front, pieces, more, back, _, begins, joined, whole⟩ :=
    exists_locationPieces_colon [c] rest
  obtain ⟨rfl, rfl⟩ := whole (by simpa using (plain_of_isLetter letter).1)
  have nothing : rest.takeWhile (!isDivider ·) = [] := by
    cases rest with
    | nil => rfl
    | cons d rest => exact List.takeWhile_cons_of_neg (by simp [bare d rfl])
  rw [nothing, List.nil_append, List.singleton_append, List.singleton_append,
    joinDrives_drive letter (by simp)] at joined
  rw [nothing, joinDrives_nil_cons] at begins
  rw [joined, begins, List.cons_append, List.cons_append, keptOf_nil_cons,
    keptOf_cons (by simp) (isTrim_letter letter)]

/-- A colon in front of something other than a slash divides, whatever stands before it. -/
theorem keptOf_colon_letter (letter : isLetter c = true) :
    keptOf (locationPieces (before ++ ':' :: c :: rest)) =
      keptOf (locationPieces before) ++ keptOf (locationPieces (c :: rest)) := by
  obtain ⟨front, pieces, more, back, ends, begins, joined, _⟩ :=
    exists_locationPieces_colon before (c :: rest)
  obtain ⟨plain, other⟩ := plain_of_isLetter letter
  rw [List.takeWhile_cons_of_pos (by simp [plain])] at begins joined
  rw [joined, ends, begins, joinDrives_append rfl other, ← keptOf_append]
  simp only [List.append_assoc]

/-! ### What the locations of a text are like -/

/-- A letter dangles if the piece behind it has nothing in it. -/
theorem dangles_of_pieces {chunk : List Char} {front back : List (List Char)}
    (letter : isLetter c = true) (listed : chunk ∈ splitOn (· == ';') text)
    (parts : splitOn (· == ':') chunk = front ++ [c] :: [] :: back) : Dangles text c := by
  obtain ⟨head, tail, rfl, starts, stops⟩ := exists_of_mem_splitOn listed
  obtain ⟨before, d, after, rfl, begins, colon, behind⟩ := exists_of_splitOn_eq_pair parts
  obtain rfl : d = ':' := by simpa using colon
  refine ⟨letter, head ++ before, after ++ tail, by simp, ?_, ?_⟩
  · intro e last
    rw [List.getLast?_append] at last
    rcases Option.or_eq_some_iff.mp last with own | ⟨_, outer⟩
    · exact Bool.or_eq_true_iff.mpr (.inl (begins e own))
    · exact Bool.or_eq_true_iff.mpr (.inr (starts e outer))
  · obtain ⟨more, first⟩ := exists_splitOn_eq_cons (· == ':') after
    rw [behind] at first
    intro e next
    cases after with
    | nil => exact Bool.or_eq_true_iff.mpr (.inr (stops e next))
    | cons f after =>
      obtain rfl : f = e := by simpa using next
      refine Bool.or_eq_true_iff.mpr (.inl ?_)
      by_contra keeps
      rw [List.takeWhile_cons_of_pos (by simpa using keeps)] at first
      cases (List.cons.inj first).1

/-- A piece has no dividers, or is a letter with a colon and what stands behind that: a slash and
more, or nothing. -/
theorem mem_locationPieces {piece : List Char} (member : piece ∈ locationPieces text) :
    (∀ c ∈ piece, isDivider c = false) ∨
      ∃ c next, piece = c :: ':' :: next ∧ isLetter c = true ∧ (∀ d ∈ next, isDivider d = false) ∧
        (∀ d ∈ next.head?, isSlash d = true) ∧ (next = [] → Dangles text c) := by
  obtain ⟨chunk, listed, member⟩ := List.mem_flatMap.mp member
  have plain {piece : List Char} (member : piece ∈ splitOn (· == ':') chunk) :
      ∀ c ∈ piece, isDivider c = false := by
    intro c inside
    obtain ⟨front, back, parts, _⟩ := exists_of_mem_splitOn member
    have among : c ∈ chunk := by simp [parts, inside]
    exact Bool.or_eq_false_iff.mpr
      ⟨whole_of_mem_splitOn member c inside, whole_of_mem_splitOn listed c among⟩
  rcases mem_joinDrives member with old | ⟨before, c, next, after, parts, letter, slash, rfl⟩
  · exact .inl (plain old)
  · have inside : next ∈ splitOn (· == ':') chunk := by simp [parts]
    refine .inr ⟨c, next, rfl, letter, plain inside, slash, ?_⟩
    rintro rfl
    exact dangles_of_pieces letter listed parts

/-- What a location is like: it is there, has no blanks around it and no semicolon, and a colon only
behind a single letter in front of a slash, as a drive has it. -/
structure IsLocation (entry : List Char) : Prop where
  some : entry ≠ []
  trim : IsTrim entry
  whole : ';' ∉ entry
  drive : ':' ∉ entry ∨ ∃ letter slash rest, entry = letter :: ':' :: slash :: rest ∧
    isLetter letter = true ∧ isSlash slash = true ∧ ':' ∉ rest

/-- Every entry is a location, or a letter that dangles with the colon behind it. -/
theorem mem_keptOf (member : entry ∈ keptOf (locationPieces text)) :
    IsLocation entry ∨ ∃ letter, entry = [letter, ':'] ∧ Dangles text letter := by
  obtain ⟨listed, some⟩ := List.mem_filter.mp member
  obtain ⟨piece, among, rfl⟩ := List.mem_map.mp listed
  have some : trimChars piece ≠ [] := by simpa using some
  have trim := isTrim_trimChars piece
  have apart {c : Char} (divider : isDivider c = true) {cs : List Char}
      (whole : ∀ c ∈ cs, isDivider c = false) : c ∉ cs := by
    intro inside
    rw [whole c inside] at divider
    cases divider
  rcases mem_locationPieces among with whole | ⟨c, next, rfl, letter, whole, slash, dangles⟩
  · have whole : ∀ c ∈ trimChars piece, isDivider c = false :=
      fun c inside => whole c (trimChars_subset piece inside)
    exact .inl ⟨some, trim, apart rfl whole, .inl (apart rfl whole)⟩
  · have colon : isBlank ':' = false := by decide
    have shape : trimChars (c :: ':' :: next) = c :: ':' :: next.rdropWhile isBlank := by
      rw [trimChars_cons (isBlank_of_isLetter letter), rdropWhile_cons colon]
    cases next with
    | nil => exact .inr ⟨c, shape, dangles rfl⟩
    | cons d rest =>
      have marks : isSlash d = true := slash d rfl
      have keeps : isBlank d = false := by
        rcases (Bool.or_eq_true_iff.mp marks) with same | same <;> rw [eq_of_beq same] <;> decide
      have inner : ∀ e ∈ rest.rdropWhile isBlank, isDivider e = false := fun e inside =>
        whole e (List.mem_cons_of_mem d ((List.rdropWhile_prefix _ _).subset inside))
      rw [rdropWhile_cons keeps] at shape
      refine .inl ⟨some, trim, ?_, .inr ⟨c, d, _, shape, letter, marks, apart rfl inner⟩⟩
      have first : c ≠ ';' := by
        rintro rfl
        cases (plain_of_isLetter letter).1
      have second : d ≠ ';' := by
        rintro rfl
        cases marks
      have third := apart (c := ';') rfl inner
      simp [shape, first.symm, second.symm, third]

/-- The letters that dangle are the entries with a colon and nothing behind it. -/
theorem mem_keptOf_iff_dangles :
    [letter, ':'] ∈ keptOf (locationPieces text) ↔ Dangles text letter := by
  constructor
  · intro member
    rcases mem_keptOf member with location | ⟨other, same, dangles⟩
    · rcases location.drive with none | ⟨_, _, _, same, _⟩
      · exact absurd (by simp) none
      · exact absurd same (by simp)
    · obtain rfl : letter = other := by simpa using same
      exact dangles
  · rintro ⟨isLetter, before, after, rfl, begins, bare⟩
    have alone : [letter, ':'] ∈ keptOf (locationPieces (letter :: ':' :: after)) := by
      rw [keptOf_letter_colon isLetter bare]
      exact List.mem_cons_self
    rcases List.eq_nil_or_concat before with rfl | ⟨front, d, rfl⟩
    · exact alone
    · have divider : isDivider d = true := begins d (by simp)
      rw [List.concat_eq_append, List.append_assoc, List.singleton_append]
      rcases divider_cases divider with rfl | rfl
      · rw [keptOf_colon_letter isLetter]
        exact List.mem_append_right _ alone
      · rw [locationPieces_semicolon, keptOf_append]
        exact List.mem_append_right _ alone

/-! ### Names with dividers between them -/

/-- A name is read as it is, or as a single letter with the colon behind it. -/
def Reads (name entry : List Char) : Prop :=
  entry = name ∨ ∃ letter, name = [letter] ∧ entry = [letter, ':']

/-- A name with dividers behind it is read apart from the names that follow, which are neither cut
off by a divider of their own nor begin with a slash if the name is a single letter. -/
theorem exists_reads {run : List Char} (isName : IsName name)
    (dividers : ∀ c ∈ run, isDivider c = true) (ends : run = [] → text = [])
    (next : ∀ d ∈ text.head?, isDivider d = false ∧ (IsLone name → isSlash d = false)) :
    ∃ entry, Reads name entry ∧
      keptOf (locationPieces (name ++ (run ++ text))) = entry :: keptOf (locationPieces text) := by
  cases run with
  | nil =>
    obtain rfl := ends rfl
    have nothing : keptOf (locationPieces []) = [] := by
      rw [locationPieces_of_whole (by simp)]
      rfl
    refine ⟨name, .inl rfl, ?_⟩
    rw [nothing, List.append_nil, List.append_nil, locationPieces_of_whole isName.whole,
      keptOf_cons isName.some isName.trim]
    rfl
  | cons c run =>
    have rest : keptOf (locationPieces (run ++ text)) = keptOf (locationPieces text) :=
      keptOf_dividers fun d inner => dividers d (List.mem_cons_of_mem c inner)
    rw [List.cons_append, ← rest]
    rcases divider_cases (dividers c List.mem_cons_self) with rfl | rfl
    · by_cases bare : IsLone name ∧ ∀ d ∈ (run ++ text).head?, isDivider d = true
      · obtain ⟨⟨letter, rfl, isLetter⟩, bare⟩ := bare
        exact ⟨_, .inr ⟨letter, rfl, rfl⟩, keptOf_letter_colon isLetter bare⟩
      · refine ⟨name, .inl rfl, keptOf_name_colon isName fun lone => ?_⟩
        cases run with
        | nil =>
          cases text with
          | nil => exact absurd ⟨lone, by simp⟩ bare
          | cons d text =>
            obtain ⟨plain, other⟩ := next d rfl
            exact ⟨d, rfl, plain, other lone⟩
        | cons d run =>
          have divider := dividers d (by simp)
          exact absurd ⟨lone, by simpa using divider⟩ bare
    · exact ⟨name, .inl rfl, keptOf_name_semicolon isName⟩

/-- Two names are kept apart by dividers, and no slash follows directly on a single letter. -/
def KeptApart (row next : String × List Char) : Prop :=
  row.2 ≠ [] ∧ (IsLone row.1.toList → ∀ c ∈ next.1.toList.head?, isSlash c = false)

instance (row next : String × List Char) : Decidable (KeptApart row next) :=
  decidable_of_iff (row.2 ≠ [] ∧
      (IsLone row.1.toList → next.1.toList.head?.all (!isSlash ·) = true)) <| by
    simp only [Option.all_eq_true, Bool.not_eq_true']
    rfl

/-- Names with dividers behind each of them, and further dividers in front of all. -/
structure IsLaidOut (front : List Char) (rows : List (String × List Char)) : Prop where
  front : ∀ c ∈ front, isDivider c = true
  names : ∀ row ∈ rows, IsName row.1.toList
  dividers : ∀ row ∈ rows, ∀ c ∈ row.2, isDivider c = true
  apart : rows.IsChain KeptApart

instance (front : List Char) (rows : List (String × List Char)) : Decidable (IsLaidOut front rows) :=
  decidable_of_iff (front.all isDivider = true ∧ (∀ row ∈ rows, IsName row.1.toList) ∧
      (∀ row ∈ rows, row.2.all isDivider = true) ∧ rows.IsChain KeptApart) <| by
    simp only [List.all_eq_true]
    exact ⟨fun ⟨front, names, dividers, apart⟩ => ⟨front, names, dividers, apart⟩,
      fun ⟨front, names, dividers, apart⟩ => ⟨front, names, dividers, apart⟩⟩

/-- The text of names and of the dividers around them. -/
def laidOut (front : List Char) (rows : List (String × List Char)) : List Char :=
  front ++ rows.flatMap fun row => row.1.toList ++ row.2

theorem laidOut_cons (row : String × List Char) (rows : List (String × List Char)) :
    laidOut [] (row :: rows) = row.1.toList ++ (row.2 ++ laidOut [] rows) :=
  List.append_assoc ..

/-- Names with dividers between them are read one by one, but for the colons behind single letters. -/
theorem reads_laidOut {front : List Char} {rows : List (String × List Char)}
    (laid : IsLaidOut front rows) : List.Forall₂ Reads (rows.map fun row => row.1.toList)
      (keptOf (locationPieces (laidOut front rows))) := by
  have inner : keptOf (locationPieces (laidOut front rows)) =
      keptOf (locationPieces (laidOut [] rows)) := keptOf_dividers laid.front
  rw [inner]
  obtain ⟨_, names, dividers, apart⟩ := laid
  clear inner
  induction rows with
  | nil =>
    have nothing : locationPieces (laidOut [] []) = [[]] :=
      locationPieces_of_whole (by simp [laidOut])
    rw [nothing]
    exact .nil
  | cons row rows ih =>
    obtain ⟨between, later⟩ := List.isChain_cons.mp apart
    have ends : row.2 = [] → laidOut [] rows = [] := by
      intro none
      cases rows with
      | nil => rfl
      | cons next rows => exact absurd none (between next rfl).1
    have follows : ∀ d ∈ (laidOut [] rows).head?,
        isDivider d = false ∧ (IsLone row.1.toList → isSlash d = false) := by
      intro d head
      cases rows with
      | nil => cases head
      | cons next rows =>
        have isName := names next (by simp)
        obtain ⟨e, more, same⟩ := List.exists_cons_of_ne_nil isName.some
        rw [laidOut_cons, same] at head
        obtain rfl : e = d := by simpa using head
        have first : e ∈ next.1.toList.head? := by simp [same]
        exact ⟨isName.whole e (by simp [same]), fun lone => (between next rfl).2 lone e first⟩
    obtain ⟨entry, reads, splits⟩ :=
      exists_reads (names row List.mem_cons_self) (dividers row List.mem_cons_self) ends follows
    rw [laidOut_cons, splits]
    exact .cons reads (ih (fun row among => names row (List.mem_cons_of_mem _ among))
      (fun row among => dividers row (List.mem_cons_of_mem _ among)) later)

theorem eq_of_reads {names entries : List (List Char)} (reads : List.Forall₂ Reads names entries)
    (none : ∀ letter, [letter, ':'] ∉ entries) : entries = names := by
  induction reads with
  | nil => rfl
  | cons first _ ih =>
    rw [ih fun letter kept => none letter (List.mem_cons_of_mem _ kept)]
    rcases first with rfl | ⟨letter, _, rfl⟩
    · rfl
    · exact absurd List.mem_cons_self (none letter)

/-- The names are read back as they are unless one of the letters dangles. -/
theorem keptOf_laidOut_iff {front : List Char} {rows : List (String × List Char)}
    (laid : IsLaidOut front rows) :
    keptOf (locationPieces (laidOut front rows)) = rows.map (fun row => row.1.toList) ↔
      ∀ letter, ¬Dangles (laidOut front rows) letter := by
  constructor
  · intro same letter dangles
    rw [← mem_keptOf_iff_dangles, same] at dangles
    obtain ⟨row, among, name⟩ := List.mem_map.mp dangles
    have colon := (laid.names row among).whole ':' (by simp [name])
    cases colon
  · intro none
    refine eq_of_reads (reads_laidOut laid) fun letter kept => ?_
    exact none letter (mem_keptOf_iff_dangles.mp kept)

end Entries

/-- What a text is split into: locations with a colon only as a drive has it, and a letter with a
colon wherever one dangles. Names with dividers between and around them are read one by one, and just
as they are unless a letter dangles. -/
theorem splitLocations_divides (text : String) :
    (∀ entry ∈ splitLocations text, IsLocation entry.toList ∨
      ∃ letter, entry.toList = [letter, ':'] ∧ Dangles text.toList letter) ∧
    (∀ letter, String.ofList [letter, ':'] ∈ splitLocations text ↔ Dangles text.toList letter) ∧
    ∀ front rows, text.toList = laidOut front rows → IsLaidOut front rows →
      List.Forall₂ Reads (rows.map fun row => row.1.toList)
        ((splitLocations text).map String.toList) ∧
      (splitLocations text = rows.map Prod.fst ↔ ∀ letter, ¬Dangles text.toList letter) := by
  have entries : (splitLocations text).map String.toList = keptOf (locationPieces text.toList) := by
    simp [splitLocations_eq, Function.comp_def]
  have listed (entry : String) :
      entry ∈ splitLocations text ↔ entry.toList ∈ keptOf (locationPieces text.toList) := by
    rw [← entries, List.mem_map_of_injective fun _ _ => String.toList_injective]
  refine ⟨?_, ?_, ?_⟩
  · intro entry member
    exact mem_keptOf ((listed entry).mp member)
  · intro letter
    rw [listed, String.toList_ofList, mem_keptOf_iff_dangles]
  · intro front rows same laid
    rw [entries, same]
    refine ⟨reads_laidOut laid, ?_⟩
    have apart : Function.Injective String.toList := fun _ _ => String.toList_injective
    rw [← keptOf_laidOut_iff laid, ← same, ← entries, ← (List.map_injective_iff.mpr apart).eq_iff,
      List.map_map]
    rfl

/-- Three names, one of them a letter with a semicolon and more behind it, are read back. -/
theorem splitLocations_divides_three :
    IsLaidOut [':'] [("lib", [':']), ("c", [';', ':']), ("opt", [';'])] ∧
      splitLocations ":lib:c;:opt;" = ["lib", "c", "opt"] ∧
      ∀ letter, ¬Dangles ":lib:c;:opt;".toList letter := by
  have laid : IsLaidOut [':'] [("lib", [':']), ("c", [';', ':']), ("opt", [';'])] := by
    decide +kernel
  have read : splitLocations ":lib:c;:opt;" = ["lib", "c", "opt"] := by decide +kernel
  obtain ⟨_, back⟩ := (splitLocations_divides ":lib:c;:opt;").2.2 _ _ (by decide +kernel) laid
  exact ⟨laid, read, back.mp read⟩

/-- A single letter in front of an empty piece keeps its colon, so two names are not read back. -/
theorem splitLocations_dangling_letter :
    splitLocations "a::b" = ["a:", "b"] ∧ ¬IsLocation "a:".toList ∧
      "a::b".toList = laidOut [] [("a", [':', ':']), ("b", [])] ∧
      IsLaidOut [] [("a", [':', ':']), ("b", [])] := by
  refine ⟨by decide +kernel, ?_, by decide +kernel, by decide +kernel⟩
  intro location
  rcases location.drive with none | ⟨_, _, _, same, _⟩
  · exact none (by decide +kernel)
  · exact absurd (congrArg List.length same) (by simp)

end BuildEngine
