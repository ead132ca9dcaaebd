import BuildEngine.Text.Digit

/-!
Options on a command line. An option is selected by one of its names, or by the start of a long name
that starts no other one; letters of options without values may stand behind one dash. What selects
no option is a word, and so is everything behind two dashes that stand alone. Words may come in one
place only.
-/

namespace BuildEngine.CommandLine

/-- An option: what it means, its names, and whether a value belongs to it. -/
structure OptionRule (κ : Type) where
  meaning : κ
  names : List String
  takesValue : Bool := false
  deriving Repr

/-- A value that is written together with the name of its option, with or without a sign of equality
in front. -/
structure JoinedValue where
  text : String
  hasSign : Bool
  deriving Repr, DecidableEq

/-- What an argument on a command line is. -/
inductive Argument (κ : Type) where
  | word (text : String)
  /-- Two dashes that stand alone. -/
  | dashes
  | option (rule : OptionRule κ) (name : String) (value : Option JoinedValue)
  /-- It looks like an option, and there is none of that name. -/
  | unknown
  deriving Repr

/-- What a command line says: the options in their order, with their values, and the words. -/
structure Reading (κ : Type) where
  options : List (κ × Option String) := []
  words : List String := []
  /-- Whether the command line is flawed, behind the options. -/
  isFlawed : Bool := false
  deriving Repr

namespace Reading

variable {κ : Type}

/-- A flawed command line. -/
def flawed : Reading κ := { isFlawed := true }

def after (options : List (κ × Option String)) (r : Reading κ) : Reading κ :=
  { r with options := options ++ r.options }

end Reading

variable {κ : Type}

def ruleNamed? (rules : List (OptionRule κ)) (name : String) : Option (OptionRule κ) :=
  rules.find? fun rule => rule.names.contains name

/-- A text before the first sign of equality, and what follows the sign if there is one. -/
def splitSign (s : String) : String × Option String :=
  let name := s.toList.takeWhile (· != '=')
  match s.toList.dropWhile (· != '=') with
  | [] => (s, none)
  | _ :: rest => (String.ofList name, some (String.ofList rest))

/-- Whether a text starts with two dashes. -/
def isLong (s : String) : Bool := s.startsWith "--"

/-- The options, each with the name, that a text behind a dash may mean. -/
def candidates (rules : List (OptionRule κ)) (s : String) : List (Argument κ) :=
  let named := rules.flatMap fun rule => rule.names.map fun name => (rule, name)
  if isLong s then
    let (start, value) := splitSign s
    (named.filter fun entry => entry.2.startsWith start).map fun (rule, name) =>
      .option rule name (value.map fun text => ⟨text, true⟩)
  else
    let letter := String.ofList (s.toList.take 2)
    let rest := String.ofList (s.toList.drop 2)
    named.filterMap fun (rule, name) =>
      if name = letter then some (.option rule name (some ⟨rest, false⟩))
      else if name.startsWith s then some (.option rule name none)
      else none

/-- Whether a text is a negative number, in front of a line end perhaps. -/
def isNegativeNumber (s : String) : Bool :=
  let line := fun (cs : List Char) => if cs.getLast? = some '\n' then cs.dropLast else cs
  match s.toList with
  | '-' :: cs =>
    let body := line cs
    let fraction := (body.dropWhile (· != '.')).drop 1
    let isNumber := fun (cs : List Char) => !cs.isEmpty && cs.all Text.isDigit
    isNumber body || (body.contains '.' && (body.takeWhile (· != '.')).all Text.isDigit &&
      isNumber fraction)
  | _ => false

/-- What an argument in front of two dashes is, unless it may be several options. -/
def classify? (rules : List (OptionRule κ)) (s : String) : Option (Argument κ) :=
  if !s.startsWith "-" || s = "-" then some (.word s)
  else
    match ruleNamed? rules s, splitSign s with
    | some rule, _ => some (.option rule s none)
    | none, (name, value) =>
      match value, ruleNamed? rules name with
      | some text, some rule => some (.option rule name (some ⟨text, true⟩))
      | _, _ =>
        match candidates rules s with
        | [found] => some found
        | _ :: _ :: _ => none
        | [] => if isNegativeNumber s || s.contains ' ' then some (.word s) else some .unknown

/-- What the arguments are, unless one of them may be several options. -/
def classifyAll? (rules : List (OptionRule κ)) : List String → Option (List (Argument κ))
  | [] => some []
  | s :: rest =>
    if s = "--" then some (.dashes :: rest.map .word)
    else
      match classify? rules s, classifyAll? rules rest with
      | some argument, some others => some (argument :: others)
      | _, _ => none

/-- What comes of letters behind one dash. -/
inductive Letters (κ : Type) where
  /-- All of them are options; the last one may have a value. -/
  | taken (options : List (κ × Option String))
  /-- The value of the last option is yet to come. -/
  | awaiting (options : List (κ × Option String)) (last : κ)
  /-- Some of them are options, and one is none. -/
  | unknown (options : List (κ × Option String))
  /-- An option has a value that it does not take. -/
  | refused

namespace Letters

def behind (option : κ × Option String) : Letters κ → Letters κ
  | taken options => taken (option :: options)
  | .awaiting options last => .awaiting (option :: options) last
  | unknown options => unknown (option :: options)
  | refused => refused

/-- Reads letters behind that of an option; a sign of equality stands in front of a value. -/
def read (rules : List (OptionRule κ)) (rule : OptionRule κ) : Bool → List Char → Letters κ
  | _, [] =>
    if rule.takesValue then taken [(rule.meaning, some "")] else refused
  | hasSign, letter :: rest =>
    if rule.takesValue then taken [(rule.meaning, some (String.ofList (letter :: rest)))]
    else if hasSign || letter = '-' then refused
    else
      match ruleNamed? rules (String.ofList ['-', letter]) with
      | none => unknown [(rule.meaning, none)]
      | some next =>
        behind (rule.meaning, none) (match rest with
          | [] => if next.takesValue then .awaiting [] next.meaning else taken [(next.meaning, none)]
          | '=' :: value => read rules next true value
          | more => read rules next false more)

end Letters

/-- Where a reader of arguments stands with respect to the words. -/
inductive WordPlace where
  | before | among | behind
  deriving DecidableEq, Repr

def WordPlace.afterOption : WordPlace → WordPlace
  | before => before
  | among | behind => behind

def readArguments (rules : List (OptionRule κ)) : WordPlace → List (Argument κ) → Reading κ
  | _, [] => {}
  | place, .word s :: rest =>
    let others := readArguments rules (if place = .behind then .behind else .among) rest
    if place = .behind then { others with isFlawed := true }
    else { others with words := s :: others.words }
  | place, .dashes :: rest =>
    let others := readArguments rules (if place = .behind then .behind else .among) rest
    if place = .behind then { others with isFlawed := true } else others
  | place, .unknown :: rest =>
    { readArguments rules place.afterOption rest with isFlawed := true }
  | place, .option rule name value :: rest =>
    let place := place.afterOption
    let withNext := fun (options : List (κ × Option String)) (last : κ) =>
      match rest with
      | .word s :: rest => (readArguments rules place rest).after (options ++ [(last, some s)])
      | _ => .flawed
    match value with
    | none =>
      if rule.takesValue then withNext [] rule.meaning
      else (readArguments rules place rest).after [(rule.meaning, none)]
    | some joined =>
      if rule.takesValue then
        (readArguments rules place rest).after [(rule.meaning, some joined.text)]
      else if isLong name then .flawed
      else
        match Letters.read rules rule joined.hasSign joined.text.toList with
        | .taken options => (readArguments rules place rest).after options
        | .awaiting options last => withNext options last
        | .unknown options =>
          { (readArguments rules place rest).after options with isFlawed := true }
        | .refused => .flawed

/-- Reads a command line. -/
def read (rules : List (OptionRule κ)) (args : List String) : Reading κ :=
  match classifyAll? rules args with
  | some arguments => readArguments rules .before arguments
  | none => .flawed

end BuildEngine.CommandLine
