import BuildEngine.Files.Disk

/-! A disk says the same about absolute paths from wherever it is seen, and what is done to it at
absolute paths does not depend on that either. -/

namespace BuildEngine.Disk

/-- A disk from which relative paths are seen from another directory. -/
def seenFrom (d : Disk) (here : Path) : Disk := { d with here }

variable (d : Disk) (here : Path) {p : Path}

@[simp] theorem entry_of_seenFrom (place : DiskPlace) :
    Disk.entry? (d.seenFrom here) place = Disk.entry? d place := rfl

@[simp] theorem follow_seenFrom (start : DiskPlace) (names : List String) :
    (d.seenFrom here).follow start names = d.follow start names := by
  induction names generalizing start with
  | nil => rfl
  | cons name rest ih => simp only [follow, entry_of_seenFrom, ih]

@[simp] theorem namesIn_seenFrom (place : DiskPlace) :
    (d.seenFrom here).namesIn place = d.namesIn place := rfl

section Absolute

variable (absolute : p.isAbsolute = true)
include absolute

theorem find_seenFrom : (d.seenFrom here).find p = d.find p := by
  simp only [find, follow_seenFrom, Path.join_of_isAbsolute absolute]

theorem entry_seenFrom : (d.seenFrom here).entry p = d.entry p := by
  simp only [entry, find_seenFrom d here absolute, entry_of_seenFrom]

theorem findNew_seenFrom : (d.seenFrom here).findNew p = d.findNew p := by
  simp only [findNew, find_seenFrom d here absolute, follow_seenFrom, entry_of_seenFrom,
    Path.join_of_isAbsolute absolute]

theorem isDirectory_seenFrom : (d.seenFrom here).isDirectory p = d.isDirectory p := by
  simp only [isDirectory, entry_seenFrom d here absolute]

theorem children_seenFrom : (d.seenFrom here).children p = d.children p := by
  simp only [children, find_seenFrom d here absolute, entry_of_seenFrom, namesIn_seenFrom]

theorem delete_seenFrom :
    (d.seenFrom here).delete p = (d.delete p).map (·.seenFrom here) := by
  unfold delete
  rw [find_seenFrom d here absolute]
  cases d.find p with
  | error error => rfl
  | ok place =>
    change (if (!(d.namesIn place).isEmpty) = true then _ else _) = Except.map _ (ite _ _ _)
    cases (d.namesIn place).isEmpty <;> rfl

theorem makeDirectory_seenFrom :
    (d.seenFrom here).makeDirectory p = (d.makeDirectory p).map (·.seenFrom here) := by
  unfold makeDirectory
  rw [findNew_seenFrom d here absolute]
  cases d.findNew p with
  | error error => rfl
  | ok place =>
    change (if ( d.entry? place).isSome = true then _ else _) = Except.map _ (ite _ _ _)
    cases ( d.entry? place).isSome <;> rfl

omit absolute in
/-- What is made is looked at only if a directory above is missing. -/
theorem makeDirectories_of_ok {more : Disk} (made : d.makeDirectory p = .ok more) (levels : Nat) :
    d.makeDirectories levels p = .ok more := by
  rw [makeDirectories.eq_def]
  simp only [made]

omit absolute in
theorem makeDirectories_of_error {error : FileError} (refused : d.makeDirectory p = .error error)
    {levels : Nat} (other : levels = 0 ∨ ∀ path, error ≠ .system .noEntry path) :
    d.makeDirectories levels p = if d.isDirectory p then .ok d else .error error := by
  rw [makeDirectories.eq_def]
  simp only [refused]
  split
  · rename_i same
    cases same
  · rename_i same
    cases same
    rcases other with none | other
    · cases none
    · exact absurd rfl (other _)
  · rename_i same
    cases same
    rfl

omit absolute in
theorem makeDirectories_of_missing {path : Path}
    (refused : d.makeDirectory p = .error (.system .noEntry path)) (above : Nat) :
    d.makeDirectories (above + 1) p = (d.makeDirectories above p.parent).bind fun more =>
      match more.makeDirectory p with
      | .ok made => .ok made
      | .error error => if more.isDirectory p then .ok more else .error error := by
  rw [makeDirectories.eq_def]
  simp only [refused]
  rfl

/-- The directories above an absolute path are absolute too. -/
theorem makeDirectories_seenFrom (levels : Nat) :
    (d.seenFrom here).makeDirectories levels p =
      (d.makeDirectories levels p).map (·.seenFrom here) := by
  have step {p : Path} (absolute : p.isAbsolute = true) (levels : Nat)
      (ih : ∀ above, levels = above + 1 → (d.seenFrom here).makeDirectories above p.parent =
        (d.makeDirectories above p.parent).map (·.seenFrom here)) :
      (d.seenFrom here).makeDirectories levels p =
        (d.makeDirectories levels p).map (·.seenFrom here) := by
    have one := makeDirectory_seenFrom d here absolute
    cases made : d.makeDirectory p with
    | ok more =>
      rw [made] at one
      rw [makeDirectories_of_ok d made, makeDirectories_of_ok _ one]
      rfl
    | error error =>
      rw [made] at one
      by_cases missing : ∃ above path, levels = above + 1 ∧ error = .system .noEntry path
      · obtain ⟨above, path, rfl, rfl⟩ := missing
        rw [makeDirectories_of_missing d made, makeDirectories_of_missing _ one, ih above rfl]
        cases d.makeDirectories above p.parent with
        | error error => rfl
        | ok more =>
          simp only [Except.map, Except.bind, makeDirectory_seenFrom more here absolute,
            isDirectory_seenFrom more here absolute]
          cases more.makeDirectory p with
          | ok made => rfl
          | error error => cases more.isDirectory p <;> rfl
      · have other : levels = 0 ∨ ∀ path, error ≠ .system .noEntry path := by
          cases levels with
          | zero => exact .inl rfl
          | succ above => exact .inr fun path same => missing ⟨above, path, rfl, same⟩
        rw [makeDirectories_of_error d made other, makeDirectories_of_error _ one other,
          isDirectory_seenFrom d here absolute]
        split <;> rfl
  induction levels generalizing p with
  | zero => exact step absolute 0 nofun
  | succ above ih =>
    apply step absolute
    rintro _ ⟨⟩
    exact ih ((Path.isAbsolute_parent p).trans absolute)

theorem withParents_seenFrom :
    (d.seenFrom here).withParents p = (d.withParents p).map (·.seenFrom here) :=
  makeDirectories_seenFrom d here ((Path.isAbsolute_parent p).trans absolute) _

theorem write_seenFrom (data : ByteArray) :
    (d.seenFrom here).write p data = (d.write p data).map (·.seenFrom here) := by
  unfold write
  rw [withParents_seenFrom d here absolute]
  cases d.withParents p with
  | error error => rfl
  | ok more =>
    change (more.seenFrom here).writeFile p data = (more.writeFile p data).map _
    simp only [writeFile, findNew_seenFrom more here absolute, entry_of_seenFrom]
    cases more.findNew p with
    | error error => rfl
    | ok place =>
      simp only [bind, Except.bind]
      cases more.entry? place with
      | none => rfl
      | some entry => cases entry <;> rfl

theorem touch_seenFrom (time : Option Number.Binary64) :
    (d.seenFrom here).touch p time = (d.touch p time).map (·.seenFrom here) := by
  unfold touch
  rw [withParents_seenFrom d here absolute]
  cases d.withParents p with
  | error error => rfl
  | ok more =>
    change ((more.seenFrom here).findNew p >>= _) = Except.map _ (more.findNew p >>= _)
    rw [findNew_seenFrom more here absolute]
    cases more.findNew p <;> rfl

theorem isAbsolute_children {found : List Path} (listed : d.children p = .ok found) :
    ∀ child ∈ found, child.isAbsolute = true := by
  unfold children at listed
  cases there : d.find p with
  | error error =>
    rw [there] at listed
    cases listed
  | ok place =>
    simp only [there, bind, Except.bind] at listed
    split at listed
    · cases listed
      intro child member
      obtain ⟨name, _, rfl⟩ := List.mem_map.mp (List.mem_mergeSort.mp member)
      exact Path.isAbsolute_join absolute
    · cases listed

end Absolute

end BuildEngine.Disk
