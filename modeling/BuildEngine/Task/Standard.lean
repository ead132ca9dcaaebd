import BuildEngine.Task.Basic
import BuildEngine.Text.Utf8

/-!
The small tasks: logging or writing a message, failing, setting a property, and touching a file.
-/

namespace BuildEngine

open BuildEngine.Text BuildEngine.Number

/-- The time of a number of milliseconds, unless it is too large for one. -/
def Number.Binary64.ofMilliseconds? (n : Int) : Option Binary64 :=
  match Binary64.ofRatio (decide (n < 0)) n.natAbs 1000 with
  | .finite negative mantissa exponent => some (.finite negative mantissa exponent)
  | _ => none

namespace Engine

variable {φ : Type}

/-- Logs a message, or writes it to a file. -/
def echo [FileSystem φ] (id : ObjectId) : Engine φ (Option TaskStatus) := do
  let message ← textOf id "message"
  if !(← isSet id "file") then
    let level ← consult fun w => (w.read id "level").map (Value.meant w.shown)
    logOf id (.ofText level) message
  else
    let path ← pathOf id "file"
    let append ← flagOf id "append"
    let before ←
      if append && (← observe fun w => FileSystem.contains w.files path) then
        readFiles fun files => FileSystem.read files path
      else pure .empty
    changeFiles fun files => FileSystem.write files path (before ++ message.toUTF8)
  return none

/-- Why a condition on a property keeps a task from doing its work. -/
def skipped (name : String) (isSet : Bool) : TaskStatus :=
  let state := if isSet then "is set" else "is not set"
  ⟨.skipped, some s!"property {quote name} {state}"⟩

/-- Fails, unless a condition keeps the task from it. -/
def fail (id : ObjectId) : Engine φ (Option TaskStatus) := do
  let properties := (← projectOf id).properties
  if ← isSet id "if_" then
    let name ← textOf id "if_"
    if !properties.contains name then return some (skipped name false)
  if ← isSet id "unless" then
    let name ← textOf id "unless"
    if properties.contains name then return some (skipped name true)
  let message := trim (← textOf id "message")
  failTask id (if message.isEmpty then "No message" else message)

/-- Sets a property to a value or to the absolute path of a location. -/
def defineProperty (id : ObjectId) : Engine φ (Option TaskStatus) := do
  let name ← textOf id "name_"
  let byValue ← isSet id "value"
  if byValue == (← isSet id "location_") then
    reject id (.valueOrLocation (← observe (·.describe id)))
  let value ←
    if byValue then textOf id "value"
    else pure (← absolutePath (← pathOf id "location_")).text
  let override ← flagOf id "override"
  if ← setProperty (← object id).project name value override then
    logOf id .debug s!"Set property {name} = {value}"
    return some ⟨.succeeded, none⟩
  return some ⟨.skipped, some s!"property {quote name} is already set"⟩

/-- Makes a file unless it is there, and sets its time. -/
def touch [FileSystem φ] (id : ObjectId) : Engine φ (Option TaskStatus) := do
  let time ←
    if ← isSet id "millis" then
      match (← readField id "millis").integer?.bind Binary64.ofMilliseconds? with
      | some time => pure (some time)
      | none => throw .tooLarge
    else pure none
  let path ← pathOf id "file"
  logOf id .debug s!"Touching {path.text}"
  changeFiles fun files => FileSystem.touch files path time
  return none

end Engine
end BuildEngine
