import BuildEngine.Value

/-!
Dates and times in TOML. A moment is a date, a time of day, or both, with the offset from universal
time if it is known. It is written with two digits for each part and a space between date and time.
-/

namespace BuildEngine.Toml

/-- A time of day, to the millionth of a second. -/
structure TimeOfDay where
  hour : Nat
  minute : Nat
  second : Nat
  micro : Nat
  deriving Repr, DecidableEq, Inhabited

/-- A date of the calendar. -/
structure Date where
  year : Nat
  month : Nat
  day : Nat
  deriving Repr, DecidableEq, Inhabited

/-- Reads a number of exactly so many digits that lies between two bounds. -/
def readFixed? (width low high : Nat) (cs : List Char) : Option (Nat × List Char) :=
  let digits := cs.take width
  let n := digits.foldl (fun n c => n * 10 + (c.toNat - 48)) 0
  if digits.length = width ∧ digits.all Char.isDigit ∧ low ≤ n ∧ n ≤ high then
    some (n, cs.drop width)
  else none

def readMark? (mark : Char) : List Char → Option (List Char)
  | c :: rest => if c = mark then some rest else none
  | [] => none

/-- A number with leading noughts. -/
def padded (width n : Nat) : String :=
  let digits := toString n
  "".pushn '0' (width - digits.length) ++ digits

namespace Date

def isLeap (year : Nat) : Bool := year % 4 == 0 && (year % 100 != 0 || year % 400 == 0)

def daysIn (year month : Nat) : Nat :=
  if month = 2 then if isLeap year then 29 else 28
  else if [4, 6, 9, 11].contains month then 30
  else 31

/-- Whether the calendar has a date. -/
def isValid (d : Date) : Bool := 1 ≤ d.year && d.day ≤ daysIn d.year d.month

/-- Reads the form of a date, whether or not the calendar has it. -/
def read? (cs : List Char) : Option (Date × List Char) := do
  let (year, cs) ← readFixed? 4 0 9999 cs
  let (month, cs) ← readFixed? 2 1 12 (← readMark? '-' cs)
  let (day, cs) ← readFixed? 2 1 31 (← readMark? '-' cs)
  return (⟨year, month, day⟩, cs)

def text (d : Date) : String := s!"{padded 4 d.year}-{padded 2 d.month}-{padded 2 d.day}"

def parts (d : Date) : List String := [toString d.year, toString d.month, toString d.day]

end Date

namespace TimeOfDay

/-- Reads the fraction of a second in millionths; digits behind the sixth do not count. -/
def readFraction (cs : List Char) : Nat × List Char :=
  match cs with
  | '.' :: rest =>
    let digits := rest.takeWhile Char.isDigit
    if digits.isEmpty then (0, cs)
    else
      let kept := (digits ++ List.replicate 6 '0').take 6
      (kept.foldl (fun n c => n * 10 + (c.toNat - 48)) 0, rest.dropWhile Char.isDigit)
  | _ => (0, cs)

def read? (cs : List Char) : Option (TimeOfDay × List Char) := do
  let (hour, cs) ← readFixed? 2 0 23 cs
  let (minute, cs) ← readFixed? 2 0 59 (← readMark? ':' cs)
  let (second, cs) ← readFixed? 2 0 59 (← readMark? ':' cs)
  let (micro, cs) := readFraction cs
  return (⟨hour, minute, second, micro⟩, cs)

def text (t : TimeOfDay) : String :=
  let fraction := if t.micro = 0 then "" else s!".{padded 6 t.micro}"
  s!"{padded 2 t.hour}:{padded 2 t.minute}:{padded 2 t.second}{fraction}"

/-- The parts of a time of day, without seconds if there are none of them. -/
def parts (t : TimeOfDay) : List String :=
  let shown := if t.micro ≠ 0 then [t.hour, t.minute, t.second, t.micro]
    else if t.second ≠ 0 then [t.hour, t.minute, t.second]
    else [t.hour, t.minute]
  shown.map toString

end TimeOfDay

/-- Reads an offset from universal time in minutes, if there is one. -/
def readOffset? (cs : List Char) : Option Int × List Char :=
  let signed := fun (rest : List Char) (sign : Int) =>
    match readFixed? 2 0 23 rest with
    | some (hours, ':' :: more) =>
      match readFixed? 2 0 59 more with
      | some (minutes, more) => (some (sign * (hours * 60 + minutes : Nat)), more)
      | none => (none, cs)
    | _ => (none, cs)
  match cs with
  | 'Z' :: rest | 'z' :: rest => (some 0, rest)
  | '+' :: rest => signed rest 1
  | '-' :: rest => signed rest (-1)
  | _ => (none, cs)

def offsetText (minutes : Int) : String :=
  let sign := if minutes < 0 then "-" else "+"
  s!"{sign}{padded 2 (minutes.natAbs / 60)}:{padded 2 (minutes.natAbs % 60)}"

/-- An offset as it is quoted: in seconds, after a whole day if it is negative. -/
def offsetQuotation (minutes : Int) : String :=
  if minutes = 0 then "datetime.timezone.utc"
  else
    let span := if minutes < 0 then s!"days=-1, seconds={86400 + minutes * 60}"
      else s!"seconds={minutes * 60}"
    s!"datetime.timezone(datetime.timedelta({span}))"

/-- A moment of a type as a value: its text, and a quotation that lists its parts. -/
def momentValue (type shown : String) (parts : List String) : Value :=
  let listed := ", ".intercalate parts
  .moment type shown s!"datetime.{type}({listed})"

/-- Reads what may follow a date: a time of day with an offset, if there is one. -/
def readDayTime? : List Char → Option (TimeOfDay × Option Int × List Char)
  | c :: cs =>
    if c == 'T' || c == 't' || c == ' ' then
      (TimeOfDay.read? cs).map fun (time, rest) =>
        let (offset, rest) := readOffset? rest
        (time, offset, rest)
    else none
  | [] => none

/-- Reads a moment, if a text starts with the form of one. There is no value if the calendar lacks
the date. -/
def readMoment? (cs : List Char) : Option (Option Value × List Char) :=
  match Date.read? cs with
  | some (date, rest) =>
    let known := fun (v : Value) => if date.isValid then some v else none
    match readDayTime? rest with
    | none => some (known (momentValue "date" date.text date.parts), rest)
    | some (time, offset, rest) =>
      let zone := offset.elim "" offsetText
      let parts := date.parts ++ time.parts ++
        (offset.map fun minutes => s!"tzinfo={offsetQuotation minutes}").toList
      some (known (momentValue "datetime" s!"{date.text} {time.text}{zone}" parts), rest)
  | none =>
    (TimeOfDay.read? cs).map fun (time, rest) =>
      (some (momentValue "time" time.text time.parts), rest)

end BuildEngine.Toml
