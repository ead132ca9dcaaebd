/-!
Blanks and what is cut along them: trimming a text, and splitting it into fields. The blanks are
the white space of every script, the line ends and the four information separators. What is split
between members that cut is split independently on both sides, and what stands in between without
cutting joins two pieces.
-/

namespace BuildEngine.Text

def isBlank (c : Char) : Bool :=
  let n := c.toNat
  (9 ≤ n && n ≤ 13) || (28 ≤ n && n ≤ 32) || n == 0x85 || n == 0xa0 || n == 0x1680 ||
    (0x2000 ≤ n && n ≤ 0x200a) || n == 0x2028 || n == 0x2029 || n == 0x202f || n == 0x205f ||
    n == 0x3000

/-- A text without the blanks around it. -/
def trimChars (cs : List Char) : List Char :=
  ((cs.dropWhile isBlank).reverse.dropWhile isBlank).reverse

/-- A text without the blanks around it. -/
def trim (s : String) : String :=
  String.ofList (trimChars s.toList)

def allBlank (s : String) : Bool :=
  s.toList.all isBlank

/-- The pieces of a list between the members that `cut` selects; always at least one piece. -/
def splitOn (cut : α → Bool) : List α → List (List α)
  | [] => [[]]
  | a :: rest =>
    if cut a then [] :: splitOn cut rest
    else
      match splitOn cut rest with
      | piece :: pieces => (a :: piece) :: pieces
      | [] => [[a]]

theorem splitOn_ne_nil (cut : α → Bool) (as : List α) : splitOn cut as ≠ [] := by
  cases as with
  | nil => simp [splitOn]
  | cons a rest =>
    unfold splitOn
    split
    · simp
    · split <;> simp

/-- The nonempty pieces of a text between the characters that `cut` selects. -/
def fields (cut : Char → Bool) (s : String) : List String :=
  ((splitOn cut s.toList).filter (!·.isEmpty)).map String.ofList

/-! ### Pieces -/

variable {α : Type} {cut : α → Bool} {piece rest as bs : List α} {c : α}

theorem splitOn_cons_cut (cuts : cut c = true) :
    splitOn cut (c :: rest) = [] :: splitOn cut rest := by
  rw [splitOn, if_pos cuts]

theorem splitOn_cons_keep {first : List α} {more : List (List α)} (keeps : cut c = false)
    (pieces : splitOn cut rest = first :: more) :
    splitOn cut (c :: rest) = (c :: first) :: more := by
  rw [splitOn, if_neg (ne_true_of_eq_false keeps), pieces]

/-- The first piece is what stands in front of everything that cuts. -/
theorem exists_splitOn_eq_cons (cut : α → Bool) (as : List α) :
    ∃ more, splitOn cut as = as.takeWhile (!cut ·) :: more := by
  induction as with
  | nil => exact ⟨[], rfl⟩
  | cons a rest ih =>
    cases cuts : cut a with
    | true => exact ⟨_, by rw [splitOn_cons_cut cuts, List.takeWhile_cons_of_neg (by simp [cuts])]⟩
    | false =>
      obtain ⟨more, pieces⟩ := ih
      refine ⟨more, ?_⟩
      rw [splitOn_cons_keep cuts pieces, List.takeWhile_cons_of_pos (by simp [cuts])]

/-- Two lists with something between them that cuts are split one after the other. -/
theorem splitOn_append (cuts : cut c = true) :
    splitOn cut (as ++ c :: bs) = splitOn cut as ++ splitOn cut bs := by
  induction as with
  | nil => exact splitOn_cons_cut cuts
  | cons a rest ih =>
    rw [List.cons_append]
    cases first : cut a with
    | true => rw [splitOn_cons_cut first, splitOn_cons_cut first, ih, List.cons_append]
    | false =>
      obtain ⟨more, pieces⟩ := exists_splitOn_eq_cons cut rest
      rw [pieces, List.cons_append] at ih
      rw [splitOn_cons_keep first pieces, splitOn_cons_keep first ih, List.cons_append]

/-- What does not cut joins the last piece in front of it and the first one behind it. -/
theorem exists_splitOn_join (cut : α → Bool) (c : α) (as bs : List α) (keeps : cut c = false) :
    ∃ front last back, splitOn cut as = front ++ [last] ∧
      splitOn cut bs = bs.takeWhile (!cut ·) :: back ∧
      splitOn cut (as ++ c :: bs) = front ++ (last ++ c :: bs.takeWhile (!cut ·)) :: back := by
  obtain ⟨back, after⟩ := exists_splitOn_eq_cons cut bs
  induction as with
  | nil => exact ⟨[], [], back, rfl, after, splitOn_cons_keep keeps after⟩
  | cons a rest ih =>
    obtain ⟨front, last, _, before, again, joined⟩ := ih
    obtain ⟨_, rfl⟩ := List.cons.inj (after.symm.trans again)
    cases first : cut a with
    | true =>
      refine ⟨[] :: front, last, back, ?_, after, ?_⟩
      · rw [splitOn_cons_cut first, before, List.cons_append]
      · rw [List.cons_append, splitOn_cons_cut first, joined, List.cons_append]
    | false =>
      cases front with
      | nil =>
        refine ⟨[], a :: last, back, splitOn_cons_keep first before, after, ?_⟩
        exact splitOn_cons_keep first joined
      | cons head front =>
        refine ⟨(a :: head) :: front, last, back, splitOn_cons_keep first before, after, ?_⟩
        exact splitOn_cons_keep first joined

theorem splitOn_of_whole (whole : ∀ c ∈ piece, cut c = false) : splitOn cut piece = [piece] := by
  induction piece with
  | nil => rfl
  | cons first more ih =>
    have uncut := ih fun c later => whole c (List.mem_cons_of_mem _ later)
    exact splitOn_cons_keep (whole first List.mem_cons_self) uncut

theorem splitOn_append_cut (whole : ∀ c ∈ piece, cut c = false) (cuts : cut c = true) :
    splitOn cut (piece ++ c :: rest) = piece :: splitOn cut rest := by
  rw [splitOn_append cuts, splitOn_of_whole whole, List.singleton_append]

/-- Pieces with something between them that cuts are cut into these pieces again. -/
theorem splitOn_intercalate {pieces : List (List α)} (some : pieces ≠ []) (cuts : cut c = true)
    (whole : ∀ piece ∈ pieces, ∀ c ∈ piece, cut c = false) :
    splitOn cut ([c].intercalate pieces) = pieces := by
  induction pieces with
  | nil => exact absurd rfl some
  | cons piece more ih =>
    have first := whole piece List.mem_cons_self
    cases more with
    | nil => rw [List.intercalate_singleton, splitOn_of_whole first]
    | cons next more =>
      rw [List.intercalate_cons_cons, List.append_assoc, List.singleton_append,
        splitOn_append_cut first cuts,
        ih (List.cons_ne_nil _ _) fun piece later => whole piece (List.mem_cons_of_mem _ later)]

/-- No piece holds anything that cuts. -/
theorem whole_of_mem_splitOn {as : List α} (member : piece ∈ splitOn cut as) :
    ∀ c ∈ piece, cut c = false := by
  induction as generalizing piece with
  | nil =>
    cases List.mem_singleton.mp member
    exact fun _ none => absurd none List.not_mem_nil
  | cons a as ih =>
    unfold splitOn at member
    split at member
    · rcases List.mem_cons.mp member with rfl | later
      · exact fun _ none => absurd none List.not_mem_nil
      · exact ih later
    · rename_i keeps
      split at member
      · rename_i first more pieces
        rw [pieces] at ih
        rcases List.mem_cons.mp member with rfl | later
        · intro c among
          rcases List.mem_cons.mp among with rfl | further
          · exact Bool.eq_false_iff.mpr keeps
          · exact ih List.mem_cons_self c further
        · exact ih (List.mem_cons_of_mem _ later)
      · rename_i none
        exact absurd none (splitOn_ne_nil cut as)

theorem eq_of_splitOn_eq_singleton (alone : splitOn cut as = [piece]) : as = piece := by
  induction as generalizing piece with
  | nil => exact (List.cons.inj alone).1
  | cons a rest ih =>
    cases cuts : cut a with
    | true =>
      rw [splitOn_cons_cut cuts] at alone
      exact absurd (List.cons.inj alone).2 (splitOn_ne_nil cut rest)
    | false =>
      obtain ⟨more, pieces⟩ := exists_splitOn_eq_cons cut rest
      rw [splitOn_cons_keep cuts pieces] at alone
      obtain ⟨first, none⟩ := List.cons.inj alone
      rw [none] at pieces
      rw [ih pieces, first]

/-- Where the pieces are parted, something cuts. -/
theorem exists_of_splitOn_eq_append {front back : List (List α)}
    (parts : splitOn cut as = front ++ back) (before : front ≠ []) (after : back ≠ []) :
    ∃ bs c cs, as = bs ++ c :: cs ∧ cut c = true ∧ splitOn cut bs = front ∧
      splitOn cut cs = back := by
  induction as generalizing front with
  | nil =>
    have one := congrArg List.length parts
    rw [List.length_append] at one
    have first := List.length_pos_iff.mpr before
    have second := List.length_pos_iff.mpr after
    simp only [splitOn, List.length_singleton] at one
    omega
  | cons a rest ih =>
    obtain ⟨head, front, rfl⟩ := List.exists_cons_of_ne_nil before
    cases cuts : cut a with
    | true =>
      rw [splitOn_cons_cut cuts, List.cons_append] at parts
      obtain ⟨rfl, later⟩ := List.cons.inj parts
      cases front with
      | nil => exact ⟨[], a, rest, rfl, cuts, rfl, later⟩
      | cons next front =>
        obtain ⟨bs, c, cs, rfl, inner, left, right⟩ := ih later (List.cons_ne_nil _ _)
        exact ⟨a :: bs, c, cs, rfl, inner, by rw [splitOn_cons_cut cuts, left], right⟩
    | false =>
      obtain ⟨more, pieces⟩ := exists_splitOn_eq_cons cut rest
      rw [splitOn_cons_keep cuts pieces, List.cons_append] at parts
      obtain ⟨rfl, later⟩ := List.cons.inj parts
      rw [later, ← List.cons_append] at pieces
      obtain ⟨bs, c, cs, rfl, inner, left, right⟩ := ih pieces (List.cons_ne_nil _ _)
      exact ⟨a :: bs, c, cs, rfl, inner, splitOn_cons_keep cuts left, right⟩

/-- The first of two neighbouring pieces stands behind a member that cuts, or at the front, and
another one parts it from what the second piece begins. -/
theorem exists_of_splitOn_eq_pair {before after : List (List α)} {next : List α}
    (parts : splitOn cut as = before ++ piece :: next :: after) : ∃ front c back,
    as = front ++ piece ++ c :: back ∧ (∀ c ∈ front.getLast?, cut c = true) ∧ cut c = true ∧
      splitOn cut back = next :: after := by
  have halves : splitOn cut as = (before ++ [piece]) ++ next :: after := by simpa using parts
  obtain ⟨bs, c, back, rfl, cuts, left, right⟩ :=
    exists_of_splitOn_eq_append halves (by simp) (List.cons_ne_nil _ _)
  cases before with
  | nil => exact ⟨[], c, back, by rw [eq_of_splitOn_eq_singleton left]; rfl, by simp, cuts, right⟩
  | cons first before =>
    obtain ⟨front, d, last, rfl, inner, _, alone⟩ :=
      exists_of_splitOn_eq_append left (List.cons_ne_nil _ _) (List.cons_ne_nil _ _)
    rw [eq_of_splitOn_eq_singleton alone]
    exact ⟨front ++ [d], c, back, by simp, by simpa using inner, cuts, right⟩

/-- A piece stands between members that cut, or at an end. -/
theorem exists_of_mem_splitOn (member : piece ∈ splitOn cut as) : ∃ front back,
    as = front ++ piece ++ back ∧ (∀ c ∈ front.getLast?, cut c = true) ∧
      ∀ c ∈ back.head?, cut c = true := by
  obtain ⟨before, after, parts⟩ := List.append_of_mem member
  have inner {cs : List α} (pieces : splitOn cut cs = piece :: after) :
      ∃ back, cs = piece ++ back ∧ ∀ c ∈ back.head?, cut c = true := by
    cases after with
    | nil => exact ⟨[], by simp [eq_of_splitOn_eq_singleton pieces], by simp⟩
    | cons next after =>
      have parts : splitOn cut cs = [piece] ++ next :: after := pieces
      obtain ⟨bs, c, rest, rfl, cuts, left, _⟩ :=
        exists_of_splitOn_eq_append parts (List.cons_ne_nil _ _) (List.cons_ne_nil _ _)
      exact ⟨c :: rest, by rw [eq_of_splitOn_eq_singleton left], by simpa using cuts⟩
  cases before with
  | nil =>
    obtain ⟨back, rfl, behind⟩ := inner parts
    exact ⟨[], back, rfl, by simp, behind⟩
  | cons first before =>
    obtain ⟨bs, c, cs, rfl, cuts, _, right⟩ :=
      exists_of_splitOn_eq_append parts (List.cons_ne_nil _ _) (List.cons_ne_nil _ _)
    obtain ⟨back, rfl, behind⟩ := inner right
    exact ⟨bs ++ [c], back, by simp, by simpa using cuts, behind⟩

end BuildEngine.Text
