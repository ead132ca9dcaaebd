import BuildEngine.Number.Literal
import BuildEngine.Pattern.Flaw
import BuildEngine.Pattern.Search

/-!
Reading written patterns. A pattern is read token by token, where a backslash and the character
behind it are one token; a flaw is reported at the place at which it is noticed.
-/

namespace BuildEngine

open BuildEngine.Text

/-- A token of a written pattern. -/
inductive PatternToken where
  | char (c : Char)
  | escape (c : Char)
  deriving Repr, DecidableEq, Inhabited

namespace PatternToken

/-- A token as it is written. -/
def text : PatternToken → String
  | char c => c.toString
  | escape c => String.ofList ['\\', c]

def size : PatternToken → Nat
  | char _ => 1
  | escape _ => 2

def isCharOf (select : Char → Bool) : PatternToken → Bool
  | char c => select c
  | escape _ => false

end PatternToken

/-- A switch in a written pattern. -/
inductive PatternFlag where
  | ignoreCase | locale | lines | dotAll | verbose | ascii | template | unicode
  deriving Repr, DecidableEq, Inhabited

namespace PatternFlag

/-- The flag of a letter. -/
def ofChar? : Char → Option PatternFlag
  | 'i' => some ignoreCase
  | 'L' => some locale
  | 'm' => some lines
  | 's' => some dotAll
  | 'x' => some verbose
  | 'a' => some ascii
  | 't' => some template
  | 'u' => some unicode
  | _ => none

def isAlphabet (f : PatternFlag) : Bool := f == ascii || f == locale || f == unicode

/-- How letters are compared under some flags. -/
def folding (flags : List PatternFlag) : Folding :=
  if flags.contains ignoreCase then if flags.contains ascii then .ascii else .full else .exact

end PatternFlag

/-- What is known while a pattern is read. -/
structure PatternReading where
  rest : List (Nat × PatternToken)
  /-- The length of the pattern. -/
  size : Nat
  /-- Whether a backslash ends the pattern. -/
  dangling : Bool
  flags : List PatternFlag
  /-- The widths of the groups, the first one numbered 0 for the whole pattern; those of open
  groups are not known. -/
  widths : List (Option Width) := [none]
  names : List (String × Nat) := []
  /-- The number of groups at the start of the outermost part that looks behind. -/
  barrier : Option Nat := none
  /-- Groups that are asked about, with the places of the questions. -/
  questions : List (Nat × Nat) := []
  /-- Whether a part that looks behind has matches of several widths. -/
  loose : Bool := false

/-- A step of reading a pattern. -/
abbrev PatternReader := StateT PatternReading (Except PatternError)

namespace PatternReader

/-- Reports a flaw at a place. -/
def failAt {α : Type} (flaw : PatternFlaw) (position : Nat) : PatternReader α :=
  throw ⟨flaw, some position⟩

/-- The position of the next token. -/
def tell : PatternReader Nat := do
  let r ← get
  return (r.rest.head?.map Prod.fst).getD r.size

/-- Reports a flaw a number of characters before the next token. -/
def fail {α : Type} (flaw : PatternFlaw) (back : Nat := 0) : PatternReader α := do
  failAt flaw ((← tell) - back)

/-- The next token. -/
def peek : PatternReader (Option PatternToken) := do return (← get).rest.head?.map Prod.snd

/-- Goes on to a later place. A backslash at the end is noticed when it is next. -/
def moveTo (rest : List (Nat × PatternToken)) : PatternReader Unit := do
  let r ← get
  if rest.isEmpty && r.dangling then failAt .danglingEscape (r.size - 1)
  set { r with rest }

def next : PatternReader (Option PatternToken) := do
  match (← get).rest with
  | [] => return none
  | (_, token) :: rest => do
    moveTo rest
    return some token

/-- Takes the next token if it is a certain character. -/
def accept (c : Char) : PatternReader Bool := do
  match (← get).rest with
  | (_, .char d) :: rest => if c = d then moveTo rest; return true else return false
  | _ => return false

/-- Takes characters of a kind, no more than a number of them. -/
def takeChars (most : Nat) (select : Char → Bool) : PatternReader (List Char) := do
  let tokens := ((← get).rest.take most).takeWhile fun token => token.2.isCharOf select
  if !tokens.isEmpty then moveTo ((← get).rest.drop tokens.length)
  return tokens.filterMap fun
    | (_, .char c) => some c
    | _ => none

def takeName (terminator : Char) (what : String) : PatternReader String := do
  let isEnd := fun (token : Nat × PatternToken) => token.2 == .char terminator
  let rest := (← get).rest
  let tokens := rest.takeWhile fun token => !isEnd token
  let name := String.join (tokens.map fun token => token.2.text)
  match rest.drop tokens.length with
  | [] => do
    moveTo []
    if name.isEmpty then fail (.missing what) else fail (.unterminatedName terminator) name.length
  | _ :: after => do
    moveTo after
    if name.isEmpty then fail (.missing what) 1
    return name

def isGroupName (name : String) : Bool :=
  match name.toList with
  | [] => false
  | c :: rest => (isLetter c || c == '_') && rest.all isWord

/-- Checks that a name, which was just read, can be given to a group. -/
def checkGroupName (name : String) : PatternReader Unit := do
  if !isGroupName name then fail (.badGroupName name) (name.length + 1)

def isClosed (r : PatternReading) (group : Nat) : Bool := (r.widths[group]?.join).isSome

/-- Checks that a part that looks behind does not refer to a group of its own. -/
def checkBarrier (group : Nat) : PatternReader Unit := do
  let r ← get
  match r.barrier with
  | none => return ()
  | some barrier =>
    if !isClosed r group then fail .openGroup
    if barrier ≤ group then fail .lookBehindGroup

def openGroup (name : Option String) : PatternReader Nat := do
  let r ← get
  let index := r.widths.length
  match name with
  | none => set { r with widths := r.widths ++ [none] }
  | some name =>
    match r.names.find? fun entry => entry.1 == name with
    | some (_, first) => fail (.redefinedGroup name index first) (name.length + 1)
    | none => set { r with widths := r.widths ++ [none], names := r.names ++ [(name, index)] }
  return index

/-- The widths of groups as far as they are known. -/
def groupWidth (r : PatternReading) (group : Nat) : Width := (r.widths[group]?.join).getD {}

def closeGroup (index : Nat) (body : Node) : PatternReader Unit :=
  modify fun r =>
    { r with widths := r.widths.set index (some (body.width (groupWidth r))) }

def isOctal (c : Char) : Bool := '0' ≤ c && c ≤ '7'

def isHexadecimal (c : Char) : Bool := c.isDigit || ('a' ≤ c && c ≤ 'f') || ('A' ≤ c && c ≤ 'F')

/-- The value of a digit. -/
def digitOf (c : Char) : Nat :=
  if c.isDigit then c.toNat - 48 else if c.isUpper then c.toNat - 55 else c.toNat - 87

def numberOf (base : Nat) (digits : List Char) : Nat :=
  digits.foldl (fun n c => n * base + digitOf c) 0

/-- An escape with further characters, as it is written. -/
def escapeText (c : Char) (more : List Char) : String := String.ofList ('\\' :: c :: more)

/-- The code point of an escape with a fixed number of hexadecimal digits. -/
def readHexadecimal (start : Nat) (c : Char) (digits : Nat) : PatternReader Nat := do
  let more ← takeChars digits isHexadecimal
  if more.length != digits then failAt (.incompleteEscape (escapeText c more)) start
  let code := numberOf 16 more
  if 0x10ffff < code then failAt (.badEscape (escapeText c more)) start
  return code

/-- The code point of an escape with octal digits. -/
def readOctal (start : Nat) (c : Char) : PatternReader Nat := do
  let more ← takeChars 2 isOctal
  let code := numberOf 8 (c :: more)
  if 0o377 < code then failAt (.octalRange (escapeText c more)) start
  return code

/-- The code points of the escapes that stand for control characters. -/
def controlEscape? : Char → Option Nat
  | 'a' => some 7
  | 'b' => some 8
  | 'f' => some 12
  | 'n' => some 10
  | 'r' => some 13
  | 't' => some 9
  | 'v' => some 11
  | '\\' => some 92
  | _ => none

/-- The named class of an escape, and whether it is negated. -/
def classEscape? : Char → Option (CharClass × Bool)
  | 'd' => some (.digit, false)
  | 'D' => some (.digit, true)
  | 's' => some (.blank, false)
  | 'S' => some (.blank, true)
  | 'w' => some (.word, false)
  | 'W' => some (.word, true)
  | _ => none

/-- The code point of an escape that has the same meaning inside and outside of sets. -/
def readCommonEscape (start : Nat) (c : Char) : PatternReader Nat := do
  match c with
  | 'x' => readHexadecimal start c 2
  | 'u' => readHexadecimal start c 4
  | 'U' => readHexadecimal start c 8
  | 'N' => do
    if !(← accept '{') then fail (.missing "\x7b")
    failAt (.unknownCharacter (← takeName '}' "character name")) start
  | _ =>
    if c.isAlphanum then failAt (.badEscape (escapeText c [])) start else return c.toNat

/-- What an escape stands for inside of a set. -/
def readSetEscape (flags : List PatternFlag) (start : Nat) (c : Char) : PatternReader CharItem := do
  match controlEscape? c, classEscape? c with
  | some code, _ => return .range code code
  | none, some (cls, negated) => return .member cls (flags.contains .ascii) negated
  | none, none =>
    let code ← if isOctal c then readOctal start c else readCommonEscape start c
    return .range code code

/-- What a part of a pattern can be repeated as. -/
inductive Repeatability where
  | repeatable
  /-- A place cannot be repeated. -/
  | place
  /-- A repetition cannot be repeated directly. -/
  | repetition
  deriving DecidableEq

/-- A part of a sequence. -/
abbrev Part := Node × Repeatability

def charPart (flags : List PatternFlag) (code : Nat) : Part :=
  (.one (.single code (PatternFlag.folding flags)), .repeatable)

def readGroupNumber (flags : List PatternFlag) (start : Nat) (c : Char) : PatternReader Part := do
  let second ← takeChars 1 Char.isDigit
  let isOctalStart := isOctal c && second.length == 1 && second.all isOctal
  let third ← if isOctalStart then takeChars 1 isOctal else pure []
  let digits := c :: (second ++ third)
  if !third.isEmpty then
    let code := numberOf 8 digits
    if 0o377 < code then failAt (.octalRange (escapeText c (second ++ third))) start
    return charPart flags code
  let group := numberOf 10 digits
  let r ← get
  if r.widths.length ≤ group then failAt (.invalidGroup group) (start + 1)
  if !isClosed r group then failAt .openGroup start
  checkBarrier group
  return (.again group (PatternFlag.folding flags), .repeatable)

/-- What an escape stands for outside of sets. -/
def readEscape (flags : List PatternFlag) (start : Nat) (c : Char) : PatternReader Part := do
  let asciiOnly := flags.contains .ascii
  match c with
  | 'A' => return (.boundary (.start false), .place)
  | 'Z' => return (.boundary .textEnd, .place)
  | 'b' => return (.boundary (.word asciiOnly false), .place)
  | 'B' => return (.boundary (.word asciiOnly true), .place)
  | _ =>
    match classEscape? c, controlEscape? c with
    | some (cls, negated), _ =>
      return (.one { items := [.member cls asciiOnly negated] }, .repeatable)
    | none, some code => return charPart flags code
    | none, none =>
      if c = '0' then return charPart flags (← readOctal start c)
      else if c.isDigit then readGroupNumber flags start c
      else return charPart flags (← readCommonEscape start c)

/-- What a token stands for inside of a set. -/
def readSetToken (flags : List PatternFlag) (start : Nat) : PatternToken → PatternReader CharItem
  | .char c => return .range c.toNat c.toNat
  | .escape c => readSetEscape flags start c

/-- The members of a set up to its closing bracket, for a number of tokens; `start` is the place
of the opening one. -/
def readSetItems (flags : List PatternFlag) (start : Nat) :
    Nat → List CharItem → PatternReader (List CharItem)
  | 0, _ => failAt .unterminatedSet start
  | more + 1, items => do
    let place ← tell
    match ← next with
    | none => failAt .unterminatedSet start
    | some token =>
      if token = .char ']' && !items.isEmpty then return items
      let first ← readSetToken flags place token
      if !(← accept '-') then readSetItems flags start more (items ++ [first])
      else
        let place ← tell
        match ← next with
        | none => failAt .unterminatedSet start
        | some final =>
          if final = .char ']' then return items ++ [first, .range 45 45]
          let last ← readSetToken flags place final
          let flaw := PatternFlaw.badRange token.text final.text
          match first, last with
          | .range low _, .range high _ =>
            if high < low then fail flaw (token.size + 1 + final.size)
            readSetItems flags start more (items ++ [.range low high])
          | _, _ => fail flaw (token.size + 1 + final.size)

/-- A set behind its opening bracket. -/
def readSet (flags : List PatternFlag) (start : Nat) : PatternReader Node := do
  let negated ← accept '^'
  let items ← readSetItems flags start ((← get).rest.length + 1) []
  return .one { items, negated, folding := PatternFlag.folding flags }

/-- The greatest number of repetitions that can be asked for. -/
def repeatLimit : Nat := 4294967295

/-- The numbers of repetitions in braces, behind the opening one; nothing is read if there are
none. -/
def readBounds : PatternReader (Option (Nat × Option Nat)) := do
  let before ← get
  let here ← tell
  if (← peek) == some (.char '}') then return none
  let size := before.rest.length
  let low ← takeChars size Char.isDigit
  let high ← if ← accept ',' then takeChars size Char.isDigit else pure low
  if !(← accept '}') then
    set before
    return none
  let least := numberOf 10 low
  let most := if high.isEmpty then none else some (numberOf 10 high)
  if repeatLimit ≤ least || most.any (repeatLimit ≤ ·) then throw ⟨.hugeRepeat, none⟩
  if most.any (· < least) then failAt .swappedRepeat here
  return some (least, most)

/-- Whether less or nothing but the most repetitions are wanted. -/
def readAppetite : PatternReader Appetite := do
  if ← accept '?' then return .reluctant
  if ← accept '+' then return .possessive
  return .greedy

/-- Repeats the last part of a sequence, whose parts are listed backwards. -/
def repeatLast (start least : Nat) (most : Option Nat) : List Part → PatternReader (List Part)
  | [] => failAt .nothingToRepeat start
  | (body, kind) :: before => do
    match kind with
    | .place => failAt .nothingToRepeat start
    | .repetition => failAt .multipleRepeat start
    | .repeatable =>
      return (.repeated least most (← readAppetite) body, .repetition) :: before

/-- A letter of a flag, or a complaint about what stands there. -/
def flagOf (token : PatternToken) (otherwise : PatternFlaw) : PatternReader PatternFlag := do
  match token with
  | .escape _ => fail otherwise token.size
  | .char c =>
    match PatternFlag.ofChar? c with
    | some flag => return flag
    | none => fail (if isLetter c then .unknownFlag else otherwise) token.size

/-- Flags that are turned on, with the character that ends them, for a number of tokens. -/
def readFlagsOn : Nat → List PatternFlag → PatternToken → PatternReader (List PatternFlag × Char)
  | 0, _, _ => fail .missingFlagEnd
  | more + 1, flags, token => do
    match token with
    | .char ')' => return (flags, ')')
    | .char '-' => return (flags, '-')
    | .char ':' => return (flags, ':')
    | _ =>
      let flag ← flagOf token .missingFlagEnd
      if flag = .locale then fail .localeFlag
      let all := flags ++ [flag]
      if flag.isAlphabet && all.any fun f => f.isAlphabet && f != flag then fail .clashingFlags
      match ← next with
      | none => fail .missingFlagEnd
      | some token => readFlagsOn more all token

/-- Flags that are turned off, for a number of tokens. -/
def readFlagsOff : Nat → List PatternFlag → PatternToken → PatternReader (List PatternFlag)
  | 0, _, _ => fail (.missing ":")
  | more + 1, flags, token => do
    if token = .char ':' && !flags.isEmpty then return flags
    let flag ← flagOf token (if flags.isEmpty then .missingFlag else .missing ":")
    if flag.isAlphabet then fail .alphabetOff
    match ← next with
    | none => fail (.missing ":")
    | some token => readFlagsOff more (flags ++ [flag]) token

/-- Flags that are turned on and off for a group, or on for the whole pattern. -/
def readFlags (token : PatternToken) :
    PatternReader (List PatternFlag × Option (List PatternFlag)) := do
  let size := (← get).rest.length + 2
  let (on, finish) ←
    if token = .char '-' then pure ([], '-') else readFlagsOn size [] token
  if finish = ')' then return (on, none)
  if on.contains .template then fail .globalFlagOn 1
  let off ←
    if finish = '-' then
      match ← next with
      | none => fail .missingFlag
      | some token => readFlagsOff size [] token
    else pure []
  if off.contains .template then fail .globalFlagOff 1
  if on.any off.contains then fail .onAndOff 1
  return (on, some off)

/-- The flags inside of a group that turns some on and some off. -/
def combine (flags on off : List PatternFlag) : List PatternFlag :=
  let kept := if on.any (·.isAlphabet) then flags.filter (!·.isAlphabet) else flags
  (kept ++ on).filter fun flag => !off.contains flag

/-- The group that a condition asks about, behind its opening parenthesis. -/
def readCondition : PatternReader Nat := do
  let name ← takeName ')' "group name"
  let back := name.length + 1
  if isGroupName name then
    match (← get).names.find? fun entry => entry.1 == name with
    | some (_, group) => return group
    | none => fail (.unknownGroupName name) back
  else
    match Number.readInt (trim name) with
    | .error _ => fail (.badGroupName name) back
    | .ok number =>
      if number < 0 then fail (.badGroupName name) back
      if number = 0 then fail .badGroupNumber back
      let group := number.toNat
      let place := (← tell) - back
      modify fun r =>
        if r.questions.any fun q => q.1 == group then r
        else { r with questions := r.questions ++ [(group, place)] }
      return group

/-- Closes a parenthesis that was opened at a place. -/
def close (start : Nat) : PatternReader Unit := do
  if !(← accept ')') then failAt .unterminatedGroup start

/-- Skips a comment that was opened at a place. -/
def skipComment (start : Nat) : PatternReader Unit := do
  let rest := (← get).rest
  match rest.dropWhile fun token => token.2 != .char ')' with
  | [] => do
    moveTo []
    failAt .unterminatedComment start
  | _ :: after => moveTo after

/-- What an opening parenthesis with a question mark leads to. -/
inductive Opening where
  /-- The part is complete. -/
  | complete (part : Option Part)
  | group (name : Option String)
  | plain (flags : List PatternFlag)
  | atomic
  | look (back negated : Bool)
  | condition
  /-- Flags for the whole pattern. -/
  | global (flags : List PatternFlag)

/-- A named group, or a reference to one. -/
def readNamed (flags : List PatternFlag) (start : Nat) : PatternReader Opening := do
  if ← accept '<' then
    let name ← takeName '>' "group name"
    checkGroupName name
    return .group name
  if ← accept '=' then
    let name ← takeName ')' "group name"
    checkGroupName name
    let r ← get
    match r.names.find? fun entry => entry.1 == name with
    | none => fail (.unknownGroupName name) (name.length + 1)
    | some (_, group) =>
      if !isClosed r group then fail .openGroup (name.length + 1)
      checkBarrier group
      return .complete (some (.again group (PatternFlag.folding flags), .repeatable))
  match ← next with
  | none => fail .unexpectedEnd
  | some token => failAt (.unknownExtension ("P" ++ token.text)) (start + 1)

/-- What stands behind an opening parenthesis and a question mark. -/
def readOpening (flags : List PatternFlag) (start : Nat) : PatternReader Opening := do
  match ← next with
  | none => fail .unexpectedEnd
  | some token =>
    match token with
    | .char 'P' => readNamed flags start
    | .char ':' => return .plain flags
    | .char '#' => do
      skipComment start
      return .complete none
    | .char '=' => return .look false false
    | .char '!' => return .look false true
    | .char '<' => do
      match ← next with
      | none => fail .unexpectedEnd
      | some (.char '=') => return .look true false
      | some (.char '!') => return .look true true
      | some other => failAt (.unknownExtension ("<" ++ other.text)) (start + 1)
    | .char '(' => return .condition
    | .char '>' => return .atomic
    | .char c =>
      if c != '-' && (PatternFlag.ofChar? c).isNone then
        failAt (.unknownExtension token.text) (start + 1)
      match ← readFlags token with
      | (on, none) => return .global on
      | (on, some off) => return .plain (combine flags on off)
    | .escape _ => failAt (.unknownExtension token.text) (start + 1)

/-- Whether a character is passed over in verbose patterns. -/
def isSpace (c : Char) : Bool := c.toNat == 32 || (9 ≤ c.toNat && c.toNat ≤ 13)

/-- Skips a comment in a verbose pattern, which ends with the line. -/
def skipLine : PatternReader Unit := do
  let rest := (← get).rest
  moveTo ((rest.dropWhile fun token => token.2 != .char '\n').drop 1)

mutual

/-- Alternatives up to a closing parenthesis or the end, for a number of steps. -/
def readAlternatives (top : Bool) :
    Nat → List PatternFlag → List Node → PatternReader Node
  | 0, _, _ => fail .unexpectedEnd
  | more + 1, flags, branches => do
    let branch ← readSequence (top && branches.isEmpty) more flags []
    let all := branches ++ [branch]
    if ← accept '|' then
      let global := (← get).flags
      readAlternatives top more (if top then global else flags) all
    else return .alternatives all

/-- Parts up to a bar, a closing parenthesis or the end; `parts` lists those before, backwards.
Flags for the whole pattern can stand before the first part. -/
def readSequence (first : Bool) : Nat → List PatternFlag → List Part → PatternReader Node
  | 0, _, _ => fail .unexpectedEnd
  | more + 1, flags, parts => do
    let start ← tell
    match ← peek with
    | none | some (.char '|') | some (.char ')') =>
      return .sequence (parts.reverse.map Prod.fst)
    | some token => do
      let _ ← next
      let goOn := fun (part : Part) => readSequence first more flags (part :: parts)
      let verbose := flags.contains .verbose
      match token with
      | .escape c => goOn (← readEscape flags start c)
      | .char '(' => readParenthesis first more flags parts start
      | .char '[' => goOn (← readSet flags start, .repeatable)
      | .char '.' =>
        goOn (.one (if flags.contains .dotAll then .all else .withinLine), .repeatable)
      | .char '^' => goOn (.boundary (.start (flags.contains .lines)), .place)
      | .char '$' => goOn (.boundary (.stop (flags.contains .lines)), .place)
      | .char '*' => readSequence first more flags (← repeatLast start 0 none parts)
      | .char '+' => readSequence first more flags (← repeatLast start 1 none parts)
      | .char '?' => readSequence first more flags (← repeatLast start 0 (some 1) parts)
      | .char '{' => do
        match ← readBounds with
        | none => goOn (charPart flags '{'.toNat)
        | some (least, most) =>
          readSequence first more flags (← repeatLast start least most parts)
      | .char c =>
        if verbose && isSpace c then readSequence first more flags parts
        else if verbose && c == '#' then do
          skipLine
          readSequence first more flags parts
        else goOn (charPart flags c.toNat)

/-- A part in parentheses, behind the opening one, and the parts after it. -/
def readParenthesis (first : Bool) :
    Nat → List PatternFlag → List Part → Nat → PatternReader Node
  | 0, _, _, _ => fail .unexpectedEnd
  | more + 1, flags, parts, start => do
    let opening ← if ← accept '?' then readOpening flags start else pure (.group none)
    match opening with
    | .complete part => readSequence first more flags (part.toList ++ parts)
    | .global on => do
      modify fun r => { r with flags := (r.flags ++ on).eraseDups }
      if !first || !parts.isEmpty then failAt .lateFlags start
      readSequence first more (← get).flags parts
    | .group name => do
      let index ← openGroup name
      let body ← readAlternatives false more flags []
      close start
      closeGroup index body
      readSequence first more flags ((.group index body, .repeatable) :: parts)
    | .plain inner => do
      let body ← readAlternatives false more inner []
      close start
      readSequence first more flags ((body, .repeatable) :: parts)
    | .atomic => do
      let body ← readAlternatives false more flags []
      close start
      readSequence first more flags ((.atomic body, .repeatable) :: parts)
    | .look back negated => do
      let barrier := (← get).barrier
      if back && barrier.isNone then
        modify fun r => { r with barrier := some r.widths.length }
      let body ← readAlternatives false more flags []
      if back && barrier.isNone then modify fun r => { r with barrier := none }
      close start
      if !back then
        readSequence first more flags ((.ahead negated body, .repeatable) :: parts)
      else
        match (body.width (groupWidth (← get))).fixed? with
        | some width =>
          readSequence first more flags ((.behind negated width body, .repeatable) :: parts)
        | none => do
          modify fun r => { r with loose := true }
          readSequence first more flags ((.empty, .repeatable) :: parts)
    | .condition => do
      let group ← readCondition
      checkBarrier group
      let present ← readSequence false more flags []
      let absent ←
        if ← accept '|' then
          let absent ← readSequence false more flags []
          if (← peek) == some (.char '|') then fail .manyBranches
          pure absent
        else pure .empty
      close start
      readSequence first more flags ((.choice group present absent, .repeatable) :: parts)

end

/-- A whole pattern. -/
def readPattern : PatternReader Pattern := do
  moveTo (← get).rest
  let steps := 3 * (← get).rest.length + 8
  let root ← readAlternatives true steps (← get).flags []
  let r ← get
  if r.flags.contains .ascii && r.flags.contains .unicode then throw ⟨.clashingAlphabets, none⟩
  if (← peek).isSome then fail .unbalanced
  match r.questions.find? fun q => r.widths.length ≤ q.1 with
  | some (group, place) => failAt (.invalidGroup group) place
  | none =>
    if r.loose then throw ⟨.looseLookBehind, none⟩
    return ⟨root, r.widths.length - 1⟩

end PatternReader

/-- The tokens of a written pattern from a position on, and whether a backslash ends it. -/
def PatternToken.scan (position : Nat) : List Char → List (Nat × PatternToken) × Bool
  | [] => ([], false)
  | ['\\'] => ([], true)
  | '\\' :: c :: rest =>
    let (tokens, dangling) := scan (position + 2) rest
    ((position, .escape c) :: tokens, dangling)
  | c :: rest =>
    let (tokens, dangling) := scan (position + 1) rest
    ((position, .char c) :: tokens, dangling)

/-- Reads a pattern, which may ignore case throughout. -/
def Pattern.ofString (s : String) (ignoreCase : Bool := false) : Except PatternError Pattern :=
  let (rest, dangling) := PatternToken.scan 0 s.toList
  let flags := if ignoreCase then [PatternFlag.ignoreCase] else []
  (PatternReader.readPattern.run { rest, size := s.length, dangling, flags }).map Prod.fst

end BuildEngine
