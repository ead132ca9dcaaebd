/-!
Tables: entries under distinct keys, in the order in which the keys were first put. Putting a key
again replaces its value and keeps its place; erasing a key and putting it again moves it to the
end.
-/

namespace BuildEngine

/-- Entries under distinct keys, oldest key first. -/
structure Table (κ : Type u) (α : Type v) where
  entries : List (κ × α)
  distinct : (entries.map Prod.fst).Nodup

namespace Table

variable {κ : Type u} {α : Type v}

/-- The table without entries. -/
def empty : Table κ α := ⟨[], List.nodup_nil⟩

instance : Inhabited (Table κ α) := ⟨empty⟩

/-- The keys, oldest first. -/
def keys (t : Table κ α) : List κ := t.entries.map Prod.fst

/-- The values, in the order of their keys. -/
def values (t : Table κ α) : List α := t.entries.map Prod.snd

/-- The number of entries. -/
def size (t : Table κ α) : Nat := t.entries.length

theorem nodup_keys (t : Table κ α) : t.keys.Nodup := t.distinct

theorem ext {s t : Table κ α} (same : s.entries = t.entries) : s = t := by
  cases s
  cases t
  cases same
  rfl

variable [DecidableEq κ]

/-- The value that a list of entries holds under a key. -/
def findIn (key : κ) : List (κ × α) → Option α
  | [] => none
  | (k, value) :: rest => if k = key then some value else findIn key rest

/-- The value under a key. -/
def find? (t : Table κ α) (key : κ) : Option α := findIn key t.entries

/-- Whether a key has an entry. -/
def contains (t : Table κ α) (key : κ) : Bool := (t.find? key).isSome

/-- Entries with the value under a key replaced, or with a new entry at the end. -/
def putIn (key : κ) (value : α) : List (κ × α) → List (κ × α)
  | [] => [(key, value)]
  | (k, old) :: rest => if k = key then (key, value) :: rest else (k, old) :: putIn key value rest

theorem mem_putIn_keys {key k : κ} {value : α} {entries : List (κ × α)} :
    k ∈ (putIn key value entries).map Prod.fst ↔ k = key ∨ k ∈ entries.map Prod.fst := by
  induction entries with
  | nil => simp [putIn]
  | cons entry rest ih =>
    by_cases same : entry.1 = key
    · rw [putIn, if_pos same]
      simp [same]
    · rw [putIn, if_neg same]
      simp only [List.map_cons, List.mem_cons, ih]
      constructor
      · rintro (h | h | h) <;> simp [h]
      · rintro (h | h | h) <;> simp [h]

theorem nodup_putIn {key : κ} {value : α} {entries : List (κ × α)}
    (distinct : (entries.map Prod.fst).Nodup) : ((putIn key value entries).map Prod.fst).Nodup := by
  induction entries with
  | nil => simp [putIn]
  | cons entry rest ih =>
    simp only [List.map_cons, List.nodup_cons] at distinct
    by_cases same : entry.1 = key
    · rw [putIn, if_pos same]
      simpa [← same] using distinct
    · rw [putIn, if_neg same]
      simp only [List.map_cons, List.nodup_cons, mem_putIn_keys, not_or]
      exact ⟨⟨same, distinct.1⟩, ih distinct.2⟩

def put (t : Table κ α) (key : κ) (value : α) : Table κ α :=
  ⟨putIn key value t.entries, nodup_putIn t.distinct⟩

def erase (t : Table κ α) (key : κ) : Table κ α where
  entries := t.entries.filter fun entry => !decide (entry.1 = key)
  distinct := t.distinct.sublist (List.filter_sublist.map Prod.fst)

/-- The table that entries give when they are put one after another. -/
def ofList (entries : List (κ × α)) : Table κ α :=
  entries.foldl (fun t entry => t.put entry.1 entry.2) empty

theorem findIn_putIn (key k : κ) (value : α) (entries : List (κ × α)) :
    findIn k (putIn key value entries) = if key = k then some value else findIn k entries := by
  induction entries with
  | nil => simp [putIn, findIn]
  | cons entry rest ih =>
    by_cases same : entry.1 = key
    · rw [putIn, if_pos same]
      simp only [findIn, same]
      split <;> rfl
    · rw [putIn, if_neg same]
      simp only [findIn, ih]
      by_cases found : entry.1 = k
      · rw [if_pos found, if_pos found, if_neg]
        exact fun h => same (found.trans h.symm)
      · rw [if_neg found, if_neg found]

/-- What is put under a key is found there, and nothing else changes. -/
theorem find?_put (t : Table κ α) (key k : κ) (value : α) :
    (t.put key value).find? k = if key = k then some value else t.find? k :=
  findIn_putIn key k value t.entries

theorem putIn_putIn (key : κ) (old new : α) (entries : List (κ × α)) :
    putIn key new (putIn key old entries) = putIn key new entries := by
  induction entries with
  | nil => simp [putIn]
  | cons entry rest ih =>
    by_cases same : entry.1 = key
    · simp [putIn, same]
    · simp [putIn, same, ih]

/-- Only the last value that is put under a key counts. -/
theorem put_put (t : Table κ α) (key : κ) (old new : α) :
    (t.put key old).put key new = t.put key new :=
  ext (putIn_putIn key old new t.entries)

theorem find?_empty (key : κ) : (empty : Table κ α).find? key = none := rfl

theorem findIn_erase (key k : κ) (entries : List (κ × α)) :
    findIn k (entries.filter fun entry => !decide (entry.1 = key)) =
      if key = k then none else findIn k entries := by
  induction entries with
  | nil => simp [findIn]
  | cons entry rest ih =>
    by_cases gone : entry.1 = key
    · rw [List.filter_cons_of_neg (by simpa using gone), ih, findIn]
      by_cases found : key = k
      · simp [found]
      · simp [found, gone]
    · rw [List.filter_cons_of_pos (by simpa using gone), findIn, ih, findIn]
      by_cases found : entry.1 = k
      · rw [if_pos found, if_pos found, if_neg]
        exact fun h => gone (found.trans h.symm)
      · rw [if_neg found, if_neg found]

/-- An erased key is not found, and nothing else changes. -/
theorem find?_erase (t : Table κ α) (key k : κ) :
    (t.erase key).find? k = if key = k then none else t.find? k :=
  findIn_erase key k t.entries

theorem mem_keys_iff_findIn (key : κ) (entries : List (κ × α)) :
    key ∈ entries.map Prod.fst ↔ (findIn key entries).isSome = true := by
  induction entries with
  | nil => simp [findIn]
  | cons entry rest ih =>
    rw [findIn]
    by_cases found : entry.1 = key
    · simp [found]
    · simp only [List.map_cons, List.mem_cons, if_neg found, ← ih]
      simp [Ne.symm found]

theorem findIn_map {β : Type w} (f : α → β) (key : κ) (entries : List (κ × α)) :
    findIn key (entries.map fun entry => (entry.1, f entry.2)) = (findIn key entries).map f := by
  induction entries with
  | nil => rfl
  | cons entry rest ih =>
    rw [List.map_cons, findIn, findIn, ih]
    split <;> rfl

theorem mem_of_findIn {key : κ} {value : α} {entries : List (κ × α)}
    (found : findIn key entries = some value) : (key, value) ∈ entries := by
  induction entries with
  | nil => simp [findIn] at found
  | cons entry rest ih =>
    rw [findIn] at found
    split at found
    · rename_i same
      rw [← same, ← Option.some.inj found]
      exact List.mem_cons_self
    · exact List.mem_cons_of_mem entry (ih found)

theorem findIn_of_mem {entry : κ × α} {entries : List (κ × α)}
    (distinct : (entries.map Prod.fst).Nodup) (member : entry ∈ entries) :
    findIn entry.1 entries = some entry.2 := by
  induction entries with
  | nil => cases member
  | cons first rest ih =>
    rw [List.map_cons, List.nodup_cons] at distinct
    rw [findIn]
    rcases List.mem_cons.mp member with same | later
    · rw [← same, if_pos rfl]
    · have different : first.1 ≠ entry.1 := fun same =>
        distinct.1 (same ▸ List.mem_map_of_mem later)
      rw [if_neg different]
      exact ih distinct.2 later

theorem mem_putIn {key : κ} {value : α} {entry : κ × α} {entries : List (κ × α)}
    (member : entry ∈ putIn key value entries) : entry = (key, value) ∨ entry ∈ entries := by
  induction entries with
  | nil => exact .inl (List.mem_singleton.mp member)
  | cons first rest ih =>
    rw [putIn] at member
    split at member
    · rcases List.mem_cons.mp member with new | old
      · exact .inl new
      · exact .inr (List.mem_cons_of_mem first old)
    · rcases List.mem_cons.mp member with same | later
      · exact .inr (same ▸ List.mem_cons_self)
      · exact (ih later).imp_right (List.mem_cons_of_mem first)

theorem mem_entries_of_find? {t : Table κ α} {key : κ} {value : α}
    (found : t.find? key = some value) : (key, value) ∈ t.entries :=
  mem_of_findIn found

/-- An entry of a table is found under its key. -/
theorem find?_of_mem_entries {t : Table κ α} {entry : κ × α} (member : entry ∈ t.entries) :
    t.find? entry.1 = some entry.2 :=
  findIn_of_mem t.distinct member

/-- Putting a value adds no other entry. -/
theorem mem_entries_put {t : Table κ α} {key : κ} {value : α} {entry : κ × α}
    (member : entry ∈ (t.put key value).entries) : entry = (key, value) ∨ entry ∈ t.entries :=
  mem_putIn member

/-- A key is held exactly when it is among the keys. -/
theorem contains_iff_mem_keys (t : Table κ α) (key : κ) : t.contains key = true ↔ key ∈ t.keys :=
  (mem_keys_iff_findIn key t.entries).symm

theorem keys_put (t : Table κ α) (key : κ) (value : α) :
    (t.put key value).keys = if key ∈ t.keys then t.keys else t.keys ++ [key] := by
  suffices listed : ∀ entries : List (κ × α), (putIn key value entries).map Prod.fst =
      if key ∈ entries.map Prod.fst then entries.map Prod.fst
      else entries.map Prod.fst ++ [key] from listed t.entries
  intro entries
  induction entries with
  | nil => rfl
  | cons entry rest ih =>
    by_cases same : entry.1 = key
    · simp [putIn, same]
    · simp only [putIn, if_neg same, List.map_cons, ih, List.mem_cons, Ne.symm same, false_or]
      split <;> rfl

/-- The entries are what is found under the keys. -/
theorem map_entries (t : Table κ α) :
    t.entries.map (fun entry => (entry.1, some entry.2)) =
      t.keys.map fun key => (key, t.find? key) := by
  rw [keys, List.map_map]
  exact List.map_congr_left fun entry member => by rw [Function.comp, find?_of_mem_entries member]

/-- Two tables are the same if they have the same keys in the same order and what is found is the
same. -/
theorem ext_find? {s t : Table κ α} (keys : s.keys = t.keys)
    (same : ∀ key, s.find? key = t.find? key) : s = t := by
  have entries : s.entries.map (fun entry => (entry.1, some entry.2)) =
      t.entries.map fun entry => (entry.1, some entry.2) := by
    rw [map_entries, map_entries, keys]
    simp only [same]
  refine ext ((List.map_inj_right ?_).mp entries)
  rintro ⟨_, _⟩ ⟨_, _⟩ same
  cases same
  rfl

/-- A key that is given one value only has it, whatever else is put. -/
theorem find?_foldl_put {key : κ} {value : α} (entries : List (κ × α)) (t : Table κ α)
    (only : ∀ entry ∈ entries, entry.1 = key → entry.2 = value)
    (given : t.find? key = some value ∨ (key, value) ∈ entries) :
    (entries.foldl (fun t entry => t.put entry.1 entry.2) t).find? key = some value := by
  induction entries generalizing t with
  | nil => exact given.resolve_right List.not_mem_nil
  | cons first rest ih =>
    apply ih
    · exact fun entry member => only entry (List.mem_cons_of_mem _ member)
    · rw [find?_put]
      by_cases same : first.1 = key
      · exact .inl (by rw [if_pos same, only first List.mem_cons_self same])
      · rw [if_neg same]
        apply given.imp_right
        rintro member
        rcases List.mem_cons.mp member with rfl | later
        · exact absurd rfl same
        · exact later

theorem find?_ofList_of_only {key : κ} {value : α} {entries : List (κ × α)}
    (only : ∀ entry ∈ entries, entry.1 = key → entry.2 = value)
    (given : (key, value) ∈ entries) : (ofList entries).find? key = some value :=
  find?_foldl_put entries .empty only (.inr given)

/-- A key that is not put stays as it was. -/
theorem find?_foldl_put_of_absent {key : κ} {entries : List (κ × α)} (t : Table κ α)
    (absent : key ∉ entries.map Prod.fst) :
    (entries.foldl (fun t entry => t.put entry.1 entry.2) t).find? key = t.find? key := by
  induction entries generalizing t with
  | nil => rfl
  | cons first rest ih =>
    rw [List.map_cons, List.mem_cons, not_or] at absent
    rw [List.foldl_cons, ih _ absent.2, find?_put, if_neg (Ne.symm absent.1)]

/-- Entries under distinct keys are found as they are given. -/
theorem find?_ofList {entries : List (κ × α)} (distinct : (entries.map Prod.fst).Nodup) (key : κ) :
    (ofList entries).find? key = findIn key entries := by
  by_cases given : key ∈ entries.map Prod.fst
  · obtain ⟨value, found⟩ := Option.isSome_iff_exists.mp ((mem_keys_iff_findIn key entries).mp given)
    rw [found]
    refine find?_ofList_of_only ?_ (mem_of_findIn found)
    rintro entry member rfl
    exact Option.some.inj ((findIn_of_mem distinct member).symm.trans found)
  · rw [ofList, find?_foldl_put_of_absent _ given]
    cases found : findIn key entries with
    | none => rfl
    | some value => exact absurd (List.mem_map_of_mem (mem_of_findIn found)) given

/-- All entries of a table are put, and what they leave is found as before. -/
theorem find?_foldl_put_entries (s t : Table κ α) (key : κ) :
    (s.entries.foldl (fun t entry => t.put entry.1 entry.2) t).find? key =
      (s.find? key).or (t.find? key) := by
  cases found : s.find? key with
  | some value =>
    refine find?_foldl_put s.entries t ?_ (.inr (mem_entries_of_find? found))
    rintro entry member rfl
    exact Option.some.inj ((find?_of_mem_entries member).symm.trans found)
  | none =>
    refine find?_foldl_put_of_absent t fun member => ?_
    have held := (contains_iff_mem_keys s key).mpr member
    rw [contains, found] at held
    cases held

/-- A new key is put at the end. -/
theorem putIn_of_absent {key : κ} {value : α} {entries : List (κ × α)}
    (absent : key ∉ entries.map Prod.fst) : putIn key value entries = entries ++ [(key, value)] := by
  induction entries with
  | nil => rfl
  | cons entry rest ih =>
    rw [List.map_cons, List.mem_cons, not_or] at absent
    rw [putIn, if_neg (Ne.symm absent.1), ih absent.2, List.cons_append]

end Table
end BuildEngine
