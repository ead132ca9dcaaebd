import BuildEngine.DataType
import BuildEngine.Staleness
import BuildEngine.Task.Basic

/-!
Asking whether files are current: the sources are one file or the files of lists, and what is
derived from them is one file or what a mapper names.
-/

namespace BuildEngine.Engine

variable {φ : Type} [FileSystem φ]

/-- Whether what is derived from the files of each list is current. -/
def areListsCurrent (derived : Option Path) (mapper : Option Mapper) :
    List ObjectId → Engine φ Bool
  | [] => return true
  | list :: rest => do
    let names ← consult (·.listFiles list)
    let base ← consult (·.listDirectory list)
    let sources := names.map Path.ofString
    if ← consult fun w => Staleness.isUpToDate w.files derived mapper (some base) sources then
      areListsCurrent derived mapper rest
    else return false

/-- Whether all that a task asks about is current. -/
def isCurrent (id : ObjectId) : Engine φ Bool := do
  let lists ← partsOf id Standard.fileList
  let mappers ← partsOf id Standard.mapper
  let bySource ← isSet id "srcfile"
  let byTarget ← isSet id "targetfile"
  if lists.isEmpty && !bySource then reject id .nothingToCompare
  if !lists.isEmpty && bySource then reject id .twoSources
  if !byTarget && mappers.isEmpty then reject id .nothingToCompareWith
  let derived ← if byTarget then some <$> pathOf id "targetfile" else pure none
  if let some path := derived then
    if !(← observe fun w => FileSystem.contains w.files path) then return false
  if bySource then
    let source ← pathOf id "srcfile"
    if !(← observe fun w => FileSystem.contains w.files source) then
      reject id (.missingSource (← absolutePath source))
  let mapper ← match mappers with
    | m :: _ => some <$> consult (·.mapper m)
    | [] => pure none
  locating (← object id).location do
    if !(← areListsCurrent derived mapper lists) then return false
    if !bySource then return true
    let source ← pathOf id "srcfile"
    consult fun w => Staleness.isUpToDate w.files derived mapper none [source]

/-! The stages of `isCurrent`, each as an action of its own. -/

section Stages

omit [FileSystem φ] in
/-- The single file that is derived, if a task gives one. -/
def derivedPath (id : ObjectId) (byTarget : Bool) : Engine φ (Option Path) :=
  if byTarget then some <$> pathOf id "targetfile" else return none

omit [FileSystem φ] in
/-- What the first of some mappers stands for. -/
def firstMapper : List ObjectId → Engine φ (Option Mapper)
  | m :: _ => some <$> consult (·.mapper m)
  | [] => return none

/-- Whether a derived file is not there. -/
def isAbsent : Option Path → Engine φ Bool
  | some path => observe fun w => !FileSystem.contains w.files path
  | none => return false

/-- Refuses a task whose single source is not there. -/
def checkSource (id : ObjectId) (bySource : Bool) : Engine φ Unit := do
  if bySource then
    let source ← pathOf id "srcfile"
    let present ← observe fun w => FileSystem.contains w.files source
    rejectIf id (!present) (.missingSource (← absolutePath source))

/-- Whether what is derived from the sources of a task is current. -/
def areSourcesCurrent (id : ObjectId) (lists : List ObjectId) (bySource : Bool)
    (derived : Option Path) (mapper : Option Mapper) : Engine φ Bool := do
  if !(← areListsCurrent derived mapper lists) then return false
  if !bySource then return true
  let source ← pathOf id "srcfile"
  consult fun w => Staleness.isUpToDate w.files derived mapper none [source]

/-- Whether all is current, once it is known what is derived. -/
def isDerivedCurrent (id : ObjectId) (lists mappers : List ObjectId) (bySource : Bool)
    (derived : Option Path) : Engine φ Bool := do
  if ← isAbsent derived then return false
  checkSource id bySource
  let mapper ← firstMapper mappers
  locating (← object id).location (areSourcesCurrent id lists bySource derived mapper)

theorem isCurrent_eq (id : ObjectId) : isCurrent (φ := φ) id = (do
    let lists ← partsOf id Standard.fileList
    let mappers ← partsOf id Standard.mapper
    let bySource ← isSet id "srcfile"
    let byTarget ← isSet id "targetfile"
    rejectIf id (lists.isEmpty && !bySource) .nothingToCompare
    rejectIf id (!lists.isEmpty && bySource) .twoSources
    rejectIf id (!byTarget && mappers.isEmpty) .nothingToCompareWith
    let derived ← derivedPath id byTarget
    isDerivedCurrent id lists mappers bySource derived) := by
  unfold isCurrent
  refine bind_congr fun lists => bind_congr fun mappers => bind_congr fun bySource =>
    bind_congr fun byTarget => ?_
  extract_lets compare withTarget oneTarget oneSource
  have compares : compare = isDerivedCurrent id lists mappers bySource := by
    funext derived
    unfold compare
    extract_lets ask byMapper check
    have maps : byMapper = fun _ => firstMapper mappers >>= ask := by
      funext _
      unfold byMapper
      cases mappers <;> rfl
    have checks : check = fun _ => checkSource id bySource >>= byMapper := by
      funext _
      unfold check checkSource
      clear_value byMapper
      cases bySource
      · rfl
      · change _ = (pathOf id "srcfile" >>= _) >>= byMapper
        rw [bind_assoc]
        refine bind_congr fun source => ?_
        rw [bind_assoc]
        refine bind_congr fun present => ?_
        cases present <;> rfl
    rw [checks, maps]
    cases derived <;> rfl
  have targets : withTarget = fun _ => derivedPath id byTarget >>= compare := by
    funext _
    unfold withTarget
    cases byTarget <;> rfl
  have targeted : oneTarget =
      fun _ => rejectIf id (!byTarget && mappers.isEmpty) .nothingToCompareWith >>= withTarget :=
    funext fun _ => (rejectIf_bind withTarget).symm
  have sourced : oneSource =
      fun _ => rejectIf id (!lists.isEmpty && bySource) .twoSources >>= oneTarget :=
    funext fun _ => (rejectIf_bind oneTarget).symm
  rw [← rejectIf_bind, sourced, targeted, targets, compares]

end Stages

/-- Sets a property if all that a task asks about is current. -/
def checkUpToDate (id : ObjectId) : Engine φ (Option TaskStatus) := do
  let name ← textOf id "property_"
  if !(← isCurrent id) then return some ⟨.succeeded, none⟩
  let _ ← setProperty (← object id).project name (← textOf id "value") true
  if (← partsOf id Standard.mapper).isEmpty then
    let path ← pathOf id "targetfile"
    logOf id .debug ("File \"" ++ path.text ++ "\" is up-to-date.")
  else logOf id .debug "All target files are up-to-date."
  return some ⟨.upToDate, none⟩

end BuildEngine.Engine
