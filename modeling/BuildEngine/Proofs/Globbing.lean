import BuildEngine.Proofs.LowerCase
import BuildEngine.Proofs.Merging
import Mathlib.Data.List.DropRight

/-! Globs: mappers of patterns with a star. A name is mapped if it is the text in front of the star,
something that the star stands for, and the text behind the star, which have to stand side by side;
then the same stands in the place of the other star, so the mapper of the patterns in the other order
leads back. -/

namespace BuildEngine

open BuildEngine.Text

/-- A text with exactly one star is read as the texts around it. -/
theorem StarPattern.ofString?_around {s front back : String} (once : s.toList.count '*' = 1)
    (around : s = front ++ "*" ++ back) : ofString? s = some ⟨front, back, true⟩ := by
  have split : s.toList = front.toList ++ '*' :: back.toList := by
    rw [around]
    simp
  rw [split, List.count_append, List.count_cons_self] at once
  have whole {piece : List Char} (free : piece.count '*' = 0) : ∀ c ∈ piece, (c == '*') = false := by
    intro c inside
    exact beq_eq_false_iff_ne.mpr fun same => List.count_eq_zero.mp free (same ▸ inside)
  rw [ofString?, split, splitOn_append_cut (whole (by omega)) rfl,
    splitOn_of_whole (whole (by omega))]
  simp

theorem StarPattern.exists_around {s : String} (once : s.toList.count '*' = 1) :
    ∃ front back, s = front ++ "*" ++ back ∧ ofString? s = some ⟨front, back, true⟩ := by
  have member : '*' ∈ s.toList := List.count_pos_iff.mp (by omega)
  obtain ⟨front, back, split⟩ := List.append_of_mem member
  have around : s = String.ofList front ++ "*" ++ String.ofList back := by
    rw [← String.toList_inj, split]
    simp
  exact ⟨_, _, around, ofString?_around once around⟩

namespace Mapper

variable {source derived : StarPattern} {name : String}

/-- A name that starts with one text and ends with another one is made of both, with something
between them, exactly if there is room for both in it. -/
theorem exists_between_iff {front back whole : List Char} :
    (front.length + back.length ≤ whole.length ∧ front <+: whole ∧ back <:+ whole) ↔
      ∃ middle, whole = front ++ middle ++ back := by
  constructor
  · rintro ⟨room, ⟨rest, rfl⟩, ends⟩
    rw [List.length_append, Nat.add_le_add_iff_left] at room
    obtain ⟨middle, rfl⟩ := List.suffix_of_suffix_length_le ends (List.suffix_append front rest) room
    exact ⟨middle, (List.append_assoc ..).symm⟩
  · rintro ⟨middle, rfl⟩
    refine ⟨by simp only [List.length_append]; omega, ?_, List.suffix_append ..⟩
    rw [List.append_assoc]
    exact List.prefix_append ..

/-- What is compared of a text: its lower-case form, unless case counts. -/
def compared (caseSensitive : Bool) (s : String) : String := if caseSensitive then s else lower s

/-- A name fits a pattern with a star exactly if it is the text in front, anything, and the text
behind, side by side, as they are compared. -/
theorem isMatch_iff_compared (hasStar : source.hasStar = true) (caseSensitive : Bool) :
    isMatch source caseSensitive name = true ↔ ∃ middle, compared caseSensitive name =
      compared caseSensitive source.before ++ middle ++ compared caseSensitive source.after := by
  have spelled : isMatch source caseSensitive name = true ↔
      ∃ middle, (compared caseSensitive name).toList =
        (compared caseSensitive source.before).toList ++ middle ++
          (compared caseSensitive source.after).toList := by
    rw [← exists_between_iff, isMatch]
    simp [compared, hasStar, and_assoc]
  rw [spelled]
  constructor
  · rintro ⟨middle, same⟩
    refine ⟨String.ofList middle, ?_⟩
    rw [← String.toList_inj, same]
    simp
  · rintro ⟨middle, same⟩
    exact ⟨middle.toList, by simp [same]⟩

theorem isMatch_iff (hasStar : source.hasStar = true) :
    isMatch source true name = true ↔ ∃ middle, name = source.before ++ middle ++ source.after :=
  isMatch_iff_compared hasStar true

theorem slice_between (front middle back : List Char) :
    slice (front ++ middle ++ back) front.length
      ((front ++ middle ++ back).length - back.length : Int) = middle := by
  have stop : ((front ++ middle ++ back).length - back.length : Int) =
      (front ++ middle).length := by
    simp only [List.length_append]
    omega
  rw [stop, slice, if_neg (by omega), Int.toNat_natCast, List.take_left, List.drop_left]

/-- What stands between texts of the lengths of those around the one star is put in the place of the
other star. -/
theorem globbed_of_lengths (hasStar : source.hasStar = true) (hasStar' : derived.hasStar = true)
    {front middle back : String} (before : front.length = source.before.length)
    (after : back.length = source.after.length) :
    globbed source derived (front ++ middle ++ back) =
      derived.before ++ middle ++ derived.after := by
  have cut := slice_between front.toList middle.toList back.toList
  rw [String.length_toList, before, String.length_toList, after] at cut
  rw [globbed, if_pos (by rw [hasStar, hasStar']; rfl)]
  extract_lets stop
  have same : slice (front ++ middle ++ back).toList source.before.length stop =
      middle.toList := by
    simpa [stop, ← String.length_toList] using cut
  rw [same, String.ofList_toList]

/-- What a glob makes of a name: nothing, unless the name fits the first pattern. -/
theorem map_glob (hasStar : source.hasStar = true) (hasStar' : derived.hasStar = true) :
    ((glob source derived true).map name ≠ [] ↔
      ∃ middle, name = source.before ++ middle ++ source.after) ∧
    ∀ middle, name = source.before ++ middle ++ source.after →
      (glob source derived true).map name = [derived.before ++ middle ++ derived.after] := by
  rw [map]
  constructor
  · rw [← isMatch_iff hasStar]
    split <;> simp_all
  · rintro middle rfl
    rw [if_pos ((isMatch_iff hasStar).mpr ⟨middle, rfl⟩), globbed_of_lengths hasStar hasStar' rfl rfl]

/-- A glob of two patterns with one star each maps a name exactly if the name is the text in front of
the first star, anything, and the text behind it. It maps the name to the same between the texts
around the other star, and the glob of the patterns in the other order maps that to the name. -/
theorem glob_leads_back (source derived : String) (once : source.toList.count '*' = 1)
    (once' : derived.toList.count '*' = 1) (name : String) :
    ∃ front back front' back' there home,
      source = front ++ "*" ++ back ∧ derived = front' ++ "*" ++ back' ∧
      ofGlob source derived true = .ok there ∧ ofGlob derived source true = .ok home ∧
      (there.map name ≠ [] ↔ ∃ middle, name = front ++ middle ++ back) ∧
      ∀ middle, name = front ++ middle ++ back →
        there.map name = [front' ++ middle ++ back'] ∧
          home.map (front' ++ middle ++ back') = [name] := by
  obtain ⟨front, back, split, reads⟩ := StarPattern.exists_around once
  obtain ⟨front', back', split', reads'⟩ := StarPattern.exists_around once'
  refine ⟨front, back, front', back', _, _, split, split', by rw [ofGlob, reads, reads'],
    by rw [ofGlob, reads, reads'], (map_glob rfl rfl).1, fun middle same => ⟨?_, ?_⟩⟩
  · exact (map_glob rfl rfl).2 middle same
  · rw [same]
    exact (map_glob rfl rfl).2 middle rfl

/-- The texts around a star may be empty, and in a name that is too short they would overlap. -/
theorem glob_leads_back_short : ("a*a".toList.count '*' = 1 ∧ "*.o".toList.count '*' = 1) ∧
    ∃ front back front' back' there home,
      "a*a" = front ++ "*" ++ back ∧ "*.o" = front' ++ "*" ++ back' ∧
      ofGlob "a*a" "*.o" true = .ok there ∧ ofGlob "*.o" "a*a" true = .ok home ∧
      (there.map "a" ≠ [] ↔ ∃ middle, "a" = front ++ middle ++ back) ∧
      ∀ middle, "a" = front ++ middle ++ back →
        there.map "a" = [front' ++ middle ++ back'] ∧
          home.map (front' ++ middle ++ back') = ["a"] :=
  ⟨by decide, glob_leads_back "a*a" "*.o" (by decide) (by decide) "a"⟩

end Mapper

/-! ### Globs for which case does not count

The match is found in the lower-case form of a name, but what stands for the star is cut out of the
name itself, by the lengths of the texts around the star. The cut is where the pattern matched exactly
if as many characters of the name as the texts have become as long in lower case as the texts do: only
a dotted capital I becomes two characters. -/

namespace Mapper

variable {name front back : String}

/-- A list with room for a start and an end is made of both, with something between them. -/
theorem exists_middle {whole : List Char} {first last : Nat} (room : first + last ≤ whole.length) :
    ∃ middle, whole = whole.take first ++ middle ++ whole.rtake last := by
  refine ⟨(whole.drop first).take (whole.length - last - first), ?_⟩
  have ending : whole.rtake last = (whole.drop first).drop (whole.length - last - first) := by
    rw [List.rtake, List.drop_drop]
    congr 1
    omega
  rw [ending, List.append_assoc, List.take_append_drop, List.take_append_drop]

/-- A start and an end of a list that overlap hold all of it. -/
theorem count_le_of_overlap {whole : List Char} {first last : Nat}
    (overlap : whole.length ≤ first + last) (c : Char) :
    whole.count c ≤ (whole.take first).count c + (whole.rtake last).count c := by
  have inside : whole.drop first = (whole.rtake last).drop (first - (whole.length - last)) := by
    rw [List.rtake, List.drop_drop]
    congr 1
    omega
  have split := congrArg (List.count c) (List.take_append_drop first whole).symm
  have fewer := ((whole.rtake last).drop_sublist (first - (whole.length - last))).count_le c
  rw [List.count_append, inside] at split
  omega

/-- A name whose lower-case form has room for those of two texts has room for the texts, if as much
of it at both ends becomes as long as they do. -/
theorem room_of_count {between : String} (agree : lower name = lower front ++ between ++ lower back)
    (starts : (name.toList.take front.length).count 'İ' = front.toList.count 'İ')
    (ends : (name.toList.rtake back.length).count 'İ' = back.toList.count 'İ') :
    front.length + back.length ≤ name.toList.length := by
  have long := congrArg String.length agree
  rw [String.length_append, String.length_append, length_lower, length_lower, length_lower] at long
  by_contra narrow
  have counts : name.toList.count 'İ' ≤
      (name.toList.take front.length).count 'İ' + (name.toList.rtake back.length).count 'İ' :=
    count_le_of_overlap (by omega) 'İ'
  rw [String.length_toList] at narrow
  omega

/-- The ends of such a name, cut by the lengths of the texts, fit them. -/
theorem exists_fits {between : String} (agree : lower name = lower front ++ between ++ lower back)
    (starts : (name.toList.take front.length).count 'İ' = front.toList.count 'İ')
    (ends : (name.toList.rtake back.length).count 'İ' = back.toList.count 'İ') :
    ∃ start middle ending, name = start ++ middle ++ ending ∧
      (start.length = front.length ∧ FitsLower start front) ∧
      (ending.length = back.length ∧ FitsLower ending back) := by
  have room := room_of_count agree starts ends
  obtain ⟨middle, split⟩ := exists_middle room
  have before : (String.ofList (name.toList.take front.length)).length = front.length := by
    rw [String.length_ofList, List.length_take]
    omega
  have after : (String.ofList (name.toList.rtake back.length)).length = back.length := by
    rw [String.length_ofList, List.rtake, List.length_drop]
    omega
  have whole : name = String.ofList (name.toList.take front.length) ++ String.ofList middle ++
      String.ofList (name.toList.rtake back.length) := by
    rw [← String.ofList_append, ← String.ofList_append, ← split, String.ofList_toList]
  refine ⟨_, _, _, whole, ⟨before, ?_⟩, after, ?_⟩
  · rw [whole, String.append_assoc, String.append_assoc] at agree
    exact .of_start agree (by rw [before, String.toList_ofList, starts])
  · rw [whole] at agree
    exact .of_end agree (by rw [after, String.toList_ofList, ends])

/-- A glob for which case does not count maps a name to one name if the lower-case forms fit. -/
theorem map_caseless (source derived : StarPattern) (name : String)
    (hasStar : source.hasStar = true) :
    ((glob source derived false).map name ≠ [] ↔
      ∃ between, lower name = lower source.before ++ between ++ lower source.after) ∧
    ∀ r ∈ (glob source derived false).map name, r = globbed source derived name := by
  have fits : isMatch source false name = true ↔
      ∃ between, lower name = lower source.before ++ between ++ lower source.after :=
    isMatch_iff_compared hasStar false
  rw [← fits]
  cases matched : isMatch source false name <;> simp [map, matched]

/-- A glob of two patterns with one star each, for which case does not count, maps a name exactly if
the lower-case form of the name is that of the text in front of the first star, anything, and that
of the text behind it. What stands for the star is cut out of the name by the lengths of the two
texts; there the texts fit but for the case exactly if that many characters of the name, at its start
and at its end, hold as many dotted capital I's as the texts do. -/
theorem glob_cuts_by_length {source derived front back front' back' : String}
    (once : source.toList.count '*' = 1) (once' : derived.toList.count '*' = 1)
    (around : source = front ++ "*" ++ back) (around' : derived = front' ++ "*" ++ back')
    (name : String) :
    ∃ there, ofGlob source derived false = .ok there ∧
      (there.map name ≠ [] ↔ ∃ between, lower name = lower front ++ between ++ lower back) ∧
      ∀ r ∈ there.map name,
        ((name.toList.take front.length).count 'İ' = front.toList.count 'İ' ∧
            (name.toList.rtake back.length).count 'İ' = back.toList.count 'İ' ↔
          ∃ start middle ending, name = start ++ middle ++ ending ∧
            r = front' ++ middle ++ back' ∧
            start.length = front.length ∧ FitsLower start front ∧
            ending.length = back.length ∧ FitsLower ending back) := by
  have reads := StarPattern.ofString?_around once around
  have reads' := StarPattern.ofString?_around once' around'
  obtain ⟨fits, cuts⟩ := map_caseless ⟨front, back, true⟩ ⟨front', back', true⟩ name rfl
  refine ⟨glob ⟨front, back, true⟩ ⟨front', back', true⟩ false, by rw [ofGlob, reads, reads'], fits,
    fun r mapped => ?_⟩
  have cut := cuts r mapped
  obtain ⟨between, agree⟩ := fits.mp (List.ne_nil_of_mem mapped)
  constructor
  · rintro ⟨starts, ends⟩
    obtain ⟨start, middle, ending, rfl, ⟨before, fitsStart⟩, after, fitsEnd⟩ :=
      exists_fits agree starts ends
    refine ⟨start, middle, ending, rfl, ?_, before, fitsStart, after, fitsEnd⟩
    rw [cut, globbed_of_lengths rfl rfl before after]
  · rintro ⟨start, middle, ending, rfl, _, before, fitsStart, after, fitsEnd⟩
    have starts := fitsStart.length_eq
    have ends := fitsEnd.length_eq
    rw [String.toList_append, String.toList_append]
    constructor
    · rw [List.append_assoc, List.take_left' (by rw [String.length_toList, before])]
      omega
    · rw [List.rtake, List.drop_left' (by simp only [List.length_append, String.length_toList]; omega)]
      omega

/-- A dotted capital I that fits one of the pattern, and case that differs elsewhere. -/
theorem glob_cuts_by_length_dotted :
    ("İL*.c".toList.count '*' = 1 ∧ "b/*.o".toList.count '*' = 1 ∧ "İL*.c" = "İL" ++ "*" ++ ".c" ∧
      "b/*.o" = "b/" ++ "*" ++ ".o") ∧
    ∃ there, ofGlob "İL*.c" "b/*.o" false = .ok there ∧ "b/a.o" ∈ there.map "İla.C" ∧
      ("İla.C".toList.take "İL".length).count 'İ' = "İL".toList.count 'İ' ∧
      ("İla.C".toList.rtake ".c".length).count 'İ' = ".c".toList.count 'İ' ∧
      ∃ start middle ending, "İla.C" = start ++ middle ++ ending ∧
        "b/a.o" = "b/" ++ middle ++ ".o" ∧ start.length = "İL".length ∧ FitsLower start "İL" ∧
        ending.length = ".c".length ∧ FitsLower ending ".c" := by
  have once : "İL*.c".toList.count '*' = 1 := by decide
  have once' : "b/*.o".toList.count '*' = 1 := by decide
  have around : "İL*.c" = "İL" ++ "*" ++ ".c" := by decide
  have around' : "b/*.o" = "b/" ++ "*" ++ ".o" := by decide
  refine ⟨⟨once, once', around, around'⟩, ?_⟩
  obtain ⟨there, made, _, cuts⟩ := glob_cuts_by_length once once' around around' "İla.C"
  have same : ofGlob "İL*.c" "b/*.o" false =
      .ok (glob ⟨"İL", ".c", true⟩ ⟨"b/", ".o", true⟩ false) := rfl
  cases Except.ok.inj (made.symm.trans same)
  have maps : (glob ⟨"İL", ".c", true⟩ ⟨"b/", ".o", true⟩ false).map "İla.C" = ["b/a.o"] := by
    decide
  have mapped := maps.symm ▸ List.mem_singleton_self "b/a.o"
  have starts : ("İla.C".toList.take "İL".length).count 'İ' = "İL".toList.count 'İ' := by decide
  have ends : ("İla.C".toList.rtake ".c".length).count 'İ' = ".c".toList.count 'İ' := by decide
  exact ⟨_, made, mapped, starts, ends, (cuts _ mapped).mp ⟨starts, ends⟩⟩

/-- A dotted capital I in the pattern that fits two characters of the name: what is cut out begins
with the slash that the text in front of the star ends with, and no cut where the pattern fits leaves
that. -/
theorem glob_cuts_elsewhere : ∃ there, ofGlob "İzmir/*.c" "build/*.o" false = .ok there ∧
    there.map "i\u0307zmir/main.c" = ["build//main.o"] ∧
    ¬ ∃ start middle ending, "i\u0307zmir/main.c" = start ++ middle ++ ending ∧
      lower start = lower "İzmir/" ∧ lower ending = lower ".c" ∧
      "build//main.o" = "build/" ++ middle ++ ".o" := by
  refine ⟨glob ⟨"İzmir/", ".c", true⟩ ⟨"build/", ".o", true⟩ false, rfl, by decide, ?_⟩
  rintro ⟨start, middle, ending, whole, first, last, made⟩
  have dotless := congrArg (fun s => s.toList.count 'İ') whole
  have long := congrArg String.length whole
  have starts := congrArg String.length first
  have ends := congrArg String.length last
  have cut := congrArg String.length made
  simp only [length_lower, String.length_append, String.toList_append, List.count_append]
    at dotless long starts ends cut
  have counts : "i\u0307zmir/main.c".toList.count 'İ' = 0 ∧ "İzmir/".toList.count 'İ' = 1 ∧
      ".c".toList.count 'İ' = 0 := by decide
  have lengths : "i\u0307zmir/main.c".length = 13 ∧ "İzmir/".length = 6 ∧ ".c".length = 2 ∧
      "build//main.o".length = 13 ∧ "build/".length = 6 ∧ ".o".length = 2 := by decide
  -- The start would be seven characters long and the end two, which leaves four for the middle.
  omega

end Mapper
end BuildEngine
