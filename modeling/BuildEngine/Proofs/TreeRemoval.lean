import BuildEngine.Proofs.Removal

/-! Removal of a directory with all that it holds, where what a directory holds is listed when it is
come to, while deleting goes on. Each thing is deleted after what it holds, so nothing stands in the
way, and nothing outside of the directory is touched. -/

namespace BuildEngine

namespace Path

variable {p q base : Path}

theorem IsWithin.refl (p : Path) : p.IsWithin p := ⟨rfl, List.prefix_refl _⟩

theorem isWithin_of_isBelow (below : p.isBelow q = true) (within : q.IsWithin base) :
    p.IsWithin base :=
  (isWithin_iff.mpr (.inr below)).trans within

end Path

namespace MemoryFiles

variable {m : MemoryFiles} {path p : Path}

theorem nodup_held (m : MemoryFiles) (path : Path) : (m.held path).Nodup := by
  refine (pairwise_held m path).imp fun before same => ?_
  simp [same, Path.lt] at before

theorem of_mem_held (member : p ∈ m.held path) : m.contains p = true ∧
    p.names.length = path.names.length + 1 ∧ p.isBelow path = true := by
  obtain ⟨there, name, rfl⟩ := mem_held.mp member
  exact ⟨there, by simp, Path.isBelow_iff_exists.mpr ⟨name, [], rfl⟩⟩

/-- What lies below a path lies within something that the path holds. -/
theorem IsRooted.isBelow_iff (rooted : m.IsRooted) (there : m.contains p = true) :
    p.isBelow path = true ↔ ∃ child ∈ m.held path, p.IsWithin child := by
  constructor
  · intro below
    obtain ⟨child, inside, other, lies⟩ := Path.exists_held below
    refine ⟨child, mem_held.mpr ⟨?_, Path.held_iff.mp ⟨inside, other⟩⟩, Path.isWithin_iff.mpr lies⟩
    rcases lies with rfl | under
    · exact there
    · exact contains_iff.mpr (.inr (rooted p child there under))
  · rintro ⟨child, member, within⟩
    obtain ⟨-, -, lower⟩ := of_mem_held member
    rcases Path.isWithin_iff.mp within with rfl | below
    · exact lower
    · exact Path.isBelow_trans below lower

end MemoryFiles

/-- A delete task that is given a directory and nothing else. -/
structure World.DeletesDirectory {φ : Type} (w : World φ) (id : ObjectId) (path : Path) : Prop where
  configured : w.IsConfigured id
  policy : ¬ (w.readFlag id "quiet" = .ok true ∧ w.readFlag id "failonerror" = .ok true)
  file : w.isSet id "file" = false
  directory : w.isSet id "dir" = true
  reads : w.readPath id "dir" = .ok path
  lists : w.partsOf id Standard.fileList = []

namespace Engine

variable {w : World MemoryFiles} {id : ObjectId} {path : Path} (leave : Policy MemoryFiles)

/-- If each of some things next to each other is removed with what lies below it, all are. -/
theorem achieves_forIn_siblings {body : Path → PUnit → Engine MemoryFiles (ForInStep PUnit)}
    {siblings : List Path} (orderly : w.IsOrderly id) (distinct : siblings.Nodup)
    (level : ∀ p ∈ siblings, p.names.length = path.names.length + 1)
    (there : ∀ p ∈ siblings, w.files.contains p = true)
    (each : ∀ v gone, w.Without gone v → v.IsOrderly id → ∀ p ∈ siblings,
      v.files.contains p = true → Achieves v (body p ⟨⟩) fun step after =>
        step = .yield ⟨⟩ ∧ v.Without (·.IsWithin p) after) :
    Achieves w (forIn siblings PUnit.unit body) fun _ after =>
      w.Without (fun p => ∃ sibling ∈ siblings, p.IsWithin sibling) after := by
  induction siblings generalizing w with
  | nil => exact .pure ((World.Without.refl w).congr fun p _ => by simp)
  | cons first rest ih =>
    obtain ⟨new, distinct⟩ := List.nodup_cons.mp distinct
    refine .forIn_cons (each w _ (.refl w) orderly first List.mem_cons_self
      (there first List.mem_cons_self)) fun v without => ?_
    have whole (p q : Path) (_ : w.files.contains p = true) (below : p.isBelow q = true)
        (within : q.IsWithin first) : p.IsWithin first := Path.isWithin_of_isBelow below within
    have still (p : Path) (later : p ∈ rest) : v.files.contains p = true := by
      refine without.files.contains_iff.mpr ⟨there p (List.mem_cons_of_mem first later), ?_⟩
      intro within
      have lengths := (level p (List.mem_cons_of_mem first later)).trans
        (level first List.mem_cons_self).symm
      cases (Path.IsWithin.refl p).unique within lengths
      exact new later
    refine (ih (orderly.without without whole) distinct
      (fun p later => level p (List.mem_cons_of_mem first later)) still
      fun u gone further orderly p later =>
        each u _ (without.trans further) orderly p (List.mem_cons_of_mem first later)).imp ?_
    intro _ after more
    refine (without.trans more).congr fun p _ => ?_
    rw [List.exists_mem_cons_iff]

/-- A path below which everything was removed can be deleted. -/
theorem achieves_deleteEmptied {emptied : World MemoryFiles}
    (without : w.Without (fun p => p.isBelow path = true) emptied) (orderly : emptied.IsOrderly id)
    (there : w.files.contains path = true) (entry : Entry) :
    Achieves emptied (deleteEntry leave id path entry) fun _ after =>
      w.Without (·.IsWithin path) after := by
  have still : emptied.files.contains path = true :=
    without.files.contains_iff.mpr ⟨there, by simp [Path.not_isBelow_self]⟩
  refine (achieves_deleteEntry leave orderly still (fun p there => ?_) entry).imp ?_
  · rw [← Bool.not_eq_true]
    exact (without.files.contains_iff.mp there).2
  · intro _ after deleted
    refine (without.trans deleted.2).congr fun p _ => ?_
    rw [Path.isWithin_iff, or_comm]

/-- What lies below a directory is removed, if it reaches down over no more than some levels. -/
theorem achieves_deleteBelow (levels : Nat) (orderly : w.IsOrderly id)
    (directory : w.files.isDirectory path = true)
    (deep : ∀ p, w.files.contains p = true → p.isBelow path = true →
      p.names.length ≤ path.names.length + levels) :
    Achieves w (deleteBelow leave id levels path) fun _ after =>
      w.Without (fun p => p.isBelow path = true) after := by
  induction levels generalizing w path with
  | zero =>
    refine .pure ((World.Without.refl w).congr fun p there => ⟨False.elim, fun below => ?_⟩)
    exact absurd (Path.isBelow_iff.mp below).2.2 (Nat.not_lt.mpr (deep p there below))
  | succ levels ih =>
    unfold deleteBelow
    refine .look (run_children directory) (.bind (achieves_forIn_siblings orderly
      (w.files.nodup_held path) (fun p member => (MemoryFiles.of_mem_held member).2.1)
      (fun p member => (MemoryFiles.of_mem_held member).1) ?_) ?_)
    · -- One of the things that the directory holds, in the world in which its turn comes.
      intro v gone without orderly child member there
      obtain ⟨-, length, lower⟩ := MemoryFiles.of_mem_held member
      have shallow (p : Path) (there : v.files.contains p = true) (below : p.isBelow child = true) :
          p.names.length ≤ child.names.length + levels := by
        have bound := deep p (without.files.contains_iff.mp there).1 (Path.isBelow_trans below lower)
        omega
      refine .look (run_isDirectory child) ?_
      extract_lets goOn
      have goesOn {u : World MemoryFiles} (emptied : v.Without (fun p => p.isBelow child = true) u)
          (orderly : u.IsOrderly id) : Achieves u (goOn ()) fun step after =>
            step = .yield ⟨⟩ ∧ v.Without (·.IsWithin child) after := by
        exact .look (run_entryAt child) (.bind (achieves_deleteEmptied leave emptied orderly there _)
          fun _ _ gone => .pure ⟨rfl, gone⟩)
      split
      · rename_i nested
        refine .bind (ih orderly nested shallow) fun _ u emptied => ?_
        exact goesOn emptied (orderly.without emptied fun p q _ => Path.isBelow_trans)
      · rename_i noDirectory
        have isFile := (MemoryFiles.contains_iff.mp there).resolve_right noDirectory
        refine goesOn ((World.Without.refl v).congr fun p there => ⟨False.elim, ?_⟩) orderly
        rw [orderly.separate.bare child p isFile there]
        nofun
    · intro _ after without
      exact .pure (without.congr fun p there => (orderly.rooted.isBelow_iff there).symm)

theorem achieves_deleteDirectory (orderly : w.IsOrderly id)
    (directory : w.files.isDirectory path = true) :
    Achieves w (deleteDirectory leave id path) fun _ after => w.Without (·.IsWithin path) after := by
  have there : w.files.contains path = true := MemoryFiles.contains_iff.mpr (.inr directory)
  unfold deleteDirectory
  refine .look (run_isDirectory path) ?_
  rw [directory]
  refine .look (run_observe _ w) (.bind (achieves_deleteBelow leave _ orderly directory ?_) ?_)
  · intro p there below
    have isDirectory := orderly.rooted p p.parent there (Path.isBelow_parent below)
    have bound := MemoryFiles.length_lt_of_isDirectory orderly.rooted isDirectory
    have budget : FileSystem.depth w.files = w.files.directories.length + 1 := rfl
    rw [Path.parent, List.length_dropLast] at bound
    omega
  · intro _ emptied without
    have still := orderly.without without fun p q _ => Path.isBelow_trans
    exact .bind (achieves_deleteEmptied leave without still there .directory)
      fun _ _ gone => .pure gone

/-- A task that deletes a directory removes the directory and all that lies below it, and leaves
nothing to its failure policy, whatever that is. All other files stay with their content and time, all
other directories stay, and nothing else changes but what is logged. -/
theorem delete_removes_directory (deletes : w.DeletesDirectory id path) (rooted : w.files.IsRooted)
    (apart : ∀ p, w.files.files.contains p = true → w.files.isDirectory p = false)
    (directory : w.files.isDirectory path = true) :
    ∃ after, (delete leave id).run w = (.ok none, after) ∧ w.Without (·.IsWithin path) after := by
  obtain ⟨configured, policy, file, given, reads, lists⟩ := deletes
  have separate := rooted.isSeparate_iff.mpr apart
  suffices achieves : Achieves w (delete leave id) fun status after =>
      status = none ∧ w.Without (·.IsWithin path) after by
    obtain ⟨_, after, ran, rfl, without⟩ := achieves
    exact ⟨after, ran, without⟩
  unfold delete
  refine .look (run_observe _ w) (.look (run_observe _ w) (.look (run_observe _ w) ?_))
  unfold World.partsOf at lists
  rw [lists, file, given]
  refine .look (run_checkPolicy_ok configured policy) (.look (run_consult_ok reads) ?_)
  refine .bind (achieves_deleteDirectory leave ⟨configured, rooted, separate⟩ directory) ?_
  exact fun _ _ gone => .pure ⟨rfl, gone⟩

end Engine

namespace Sample

/-- A task that deletes a directory with files in it and below it. -/
def clearing : World MemoryFiles where
  files := MemoryFiles.afterAll .zero [
    .write ⟨.root, ["work", "out", "a.o"]⟩ .empty,
    .write ⟨.root, ["work", "out", "lib", "b.o"]⟩ .empty,
    .makeDirectory ⟨.root, ["work", "out", "new"]⟩, .write ⟨.root, ["work", "out.log"]⟩ .empty]
  projects := [{ directory := .top }]
  objects := [deletion [("dir", .value (.path ⟨.root, ["work", "out"]⟩))] []]

theorem clearing_deletes : clearing.DeletesDirectory 0 ⟨.root, ["work", "out"]⟩ where
  configured := ⟨by decide +kernel, fun _ => World.exists_read_of_values (by decide +kernel)⟩
  policy both := by
    have lenient : (clearing.readFlag 0 "quiet").toOption = some false := by decide +kernel
    rw [both.1] at lenient
    cases lenient
  file := by decide +kernel
  directory := by decide +kernel
  reads := ok_of_toOption (by decide +kernel)
  lists := by decide +kernel

end Sample

/-- Neither a policy that fails the task nor any other one is asked for anything. -/
theorem Engine.delete_removes_directory_clearing :
    (Sample.clearing.DeletesDirectory 0 ⟨.root, ["work", "out"]⟩ ∧ Sample.clearing.files.IsRooted ∧
      (∀ p, Sample.clearing.files.files.contains p = true →
        Sample.clearing.files.isDirectory p = false) ∧
      Sample.clearing.files.isDirectory ⟨.root, ["work", "out"]⟩ = true) ∧
    ∃ after, (delete failTask 0).run Sample.clearing = (.ok none, after) ∧
      Sample.clearing.Without (·.IsWithin ⟨.root, ["work", "out"]⟩) after := by
  have rooted : Sample.clearing.files.IsRooted := MemoryFiles.isRooted_afterAll _ _
  have apart := @MemoryFiles.apart_of_keys Sample.clearing.files (by decide +kernel)
  have directory : Sample.clearing.files.isDirectory ⟨.root, ["work", "out"]⟩ = true := by
    decide +kernel
  exact ⟨⟨Sample.clearing_deletes, rooted, apart, directory⟩,
    delete_removes_directory failTask Sample.clearing_deletes rooted apart directory⟩

end BuildEngine
