import BuildEngine.Text.Case

/-! Lower case, character by character. What becomes of a character depends on what stands around
it only for a capital sigma, and only a dotted capital I becomes two characters. So the length of a
lower-case form is known from the text, and wherever two lower-case forms agree, they agree piece by
piece, up to how the small sigma at the end of a word is written. -/

namespace BuildEngine.Text

variable {front : List Char}

/-- The small sigma that is written at the end of a word, written like any other. -/
def evenSigma (c : Char) : Char := if c = 'ς' then 'σ' else c

/-- What a character becomes in lower case if each sigma is written like any other. -/
def evenForm (c : Char) : List Char :=
  if c = 'İ' then ['i', '\u0307'] else if c = 'Σ' then ['σ'] else [evenSigma (toLower c)]

/-- The lower-case form of a text in which each sigma is written like any other. -/
def evenLower (s : String) : String := String.ofList ((lower s).toList.map evenSigma)

/-- What becomes of the first character, with what was read and what follows. -/
theorem lowerAux_cons (before : List Char) (c : Char) (rest : List Char) :
    lowerAux before (c :: rest) =
      (if c = 'İ' then ['i', '\u0307']
        else if c = 'Σ' then [if nextIsCased before && !nextIsCased rest then 'ς' else 'σ']
        else [toLower c]) ++ lowerAux (c :: before) rest := by
  have dotted : c.toNat = 304 ↔ c = 'İ' := Char.toNat_inj (d := 'İ')
  have sigma : c.toNat = 931 ↔ c = 'Σ' := Char.toNat_inj (d := 'Σ')
  rw [lowerAux]
  simp only [dotted, sigma]
  split
  · rfl
  · split
    · cases nextIsCased before && !nextIsCased rest <;> rfl
    · rfl

/-- Up to how a sigma is written, each character has a lower-case form of its own. -/
theorem map_evenSigma_lowerAux (before cs : List Char) :
    (lowerAux before cs).map evenSigma = cs.flatMap evenForm := by
  induction cs generalizing before with
  | nil => rfl
  | cons c rest ih =>
    rw [lowerAux_cons, List.map_append, ih, List.flatMap_cons]
    congr 1
    rw [evenForm]
    split
    · rfl
    · split
      · cases nextIsCased before && !nextIsCased rest <;> rfl
      · rfl

theorem toList_evenLower (s : String) : (evenLower s).toList = s.toList.flatMap evenForm := by
  rw [evenLower, lower, String.toList_ofList, String.toList_ofList, map_evenSigma_lowerAux]

/-- Only a dotted capital I becomes two characters. -/
theorem length_flatMap_evenForm (cs : List Char) :
    (cs.flatMap evenForm).length = cs.length + cs.count 'İ' := by
  induction cs with
  | nil => rfl
  | cons c rest ih =>
    have form : (evenForm c).length = 1 + if c = 'İ' then 1 else 0 := by
      rw [evenForm]
      split
      · rfl
      · split <;> rfl
    rw [List.flatMap_cons, List.length_append, form, ih, List.length_cons, List.count_cons]
    simp only [beq_iff_eq]
    omega

theorem length_lowerAux (before cs : List Char) :
    (lowerAux before cs).length = cs.length + cs.count 'İ' := by
  rw [← length_flatMap_evenForm, ← map_evenSigma_lowerAux before, List.length_map]

theorem length_lower (s : String) : (lower s).length = s.length + s.toList.count 'İ' := by
  rw [lower, String.length_ofList, length_lowerAux, String.length_toList]

/-- The lower-case form of a text without a capital sigma does not depend on what stands around it,
and what stands behind it becomes what it would become elsewhere. -/
theorem lowerAux_append (plain : 'Σ' ∉ front) (before other rest : List Char) :
    lowerAux before (front ++ rest) =
      lowerAux other front ++ lowerAux (front.reverse ++ before) rest := by
  induction front generalizing before other with
  | nil => rfl
  | cons c later ih =>
    obtain ⟨different, plain⟩ := not_or.mp fun either => plain (List.mem_cons.mpr either)
    rw [List.cons_append, lowerAux_cons, lowerAux_cons, ih plain (c :: before) (c :: other),
      List.reverse_cons, List.append_assoc, List.append_assoc, if_neg (Ne.symm different),
      if_neg (Ne.symm different)]
    rfl

/-- Whatever a text becomes, what stands behind it comes after that. -/
theorem exists_lowerAux_append (before front rest : List Char) :
    ∃ first, lowerAux before (front ++ rest) =
      first ++ lowerAux (front.reverse ++ before) rest := by
  induction front generalizing before with
  | nil => exact ⟨[], rfl⟩
  | cons c later ih =>
    obtain ⟨first, same⟩ := ih (c :: before)
    rw [List.cons_append, lowerAux_cons, same, List.reverse_cons, List.append_assoc]
    exact ⟨_, (List.append_assoc ..).symm⟩

/-! ### Where lower-case forms agree -/

/-- A text is another one but for the case: their lower-case forms are the same up to how a sigma is
written, and exactly the same unless the text has a capital sigma. -/
structure FitsLower (s pattern : String) : Prop where
  even : evenLower s = evenLower pattern
  exact : 'Σ' ∉ s.toList → lower s = lower pattern

variable {start ending pattern more : String}

theorem evenLower_eq_iff {s t : String} :
    evenLower s = evenLower t ↔ s.toList.flatMap evenForm = t.toList.flatMap evenForm := by
  rw [← String.toList_inj, toList_evenLower, toList_evenLower]

/-- Texts with the same lower-case form up to how a sigma is written become equally long. -/
theorem FitsLower.length_eq {s : String} (fits : FitsLower s pattern) :
    s.length + s.toList.count 'İ' = pattern.length + pattern.toList.count 'İ' := by
  have same := congrArg List.length (evenLower_eq_iff.mp fits.even)
  rwa [length_flatMap_evenForm, length_flatMap_evenForm, String.length_toList,
    String.length_toList] at same

/-- Where the lower-case form of a text starts with that of a pattern, the start of the text that
becomes as long as the pattern fits it. -/
theorem FitsLower.of_start (agree : lower (start ++ ending) = lower pattern ++ more)
    (long : start.length + start.toList.count 'İ' = pattern.length + pattern.toList.count 'İ') :
    FitsLower start pattern := by
  rw [← String.length_toList, ← String.length_toList] at long
  have agree := congrArg String.toList agree
  simp only [lower, String.toList_append, String.toList_ofList] at agree
  constructor
  · have even := congrArg (List.map evenSigma) agree
    rw [List.map_append, map_evenSigma_lowerAux, map_evenSigma_lowerAux, List.flatMap_append]
      at even
    rw [evenLower_eq_iff]
    exact (List.append_inj even (by rw [length_flatMap_evenForm, length_flatMap_evenForm, long])).1
  · intro plain
    rw [lowerAux_append plain [] []] at agree
    have same := (List.append_inj agree (by rw [length_lowerAux, length_lowerAux, long])).1
    rw [lower, lower, same]

/-- Where the lower-case form of a text ends with that of a pattern, the end of the text that
becomes as long as the pattern fits it. -/
theorem FitsLower.of_end (agree : lower (start ++ ending) = more ++ lower pattern)
    (long : ending.length + ending.toList.count 'İ' = pattern.length + pattern.toList.count 'İ') :
    FitsLower ending pattern := by
  rw [← String.length_toList, ← String.length_toList] at long
  have agree := congrArg String.toList agree
  simp only [lower, String.toList_append, String.toList_ofList] at agree
  constructor
  · have even := congrArg (List.map evenSigma) agree
    rw [List.map_append, map_evenSigma_lowerAux, map_evenSigma_lowerAux, List.flatMap_append]
      at even
    rw [evenLower_eq_iff]
    exact (List.append_inj' even (by rw [length_flatMap_evenForm, length_flatMap_evenForm, long])).2
  · intro plain
    obtain ⟨first, split⟩ := exists_lowerAux_append [] start.toList ending.toList
    have alone (before : List Char) :
        lowerAux before ending.toList = lowerAux [] ending.toList := by
      simpa [lowerAux] using lowerAux_append plain before [] []
    rw [split, alone] at agree
    have same := (List.append_inj' agree (by rw [length_lowerAux, length_lowerAux, long])).2
    rw [lower, lower, same]

end BuildEngine.Text
