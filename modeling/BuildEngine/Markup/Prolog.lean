import BuildEngine.Markup.Reference

/-!
What may stand in front of the elements of a document, and around them: the declaration of the
markup itself, comments, instructions to programs, and the declaration of the document's type,
where entities are declared.
-/

namespace BuildEngine.Markup.Reader

/-- Takes the rest of a comment of which `taken` was read, backwards. Two dashes end it, and
nothing else may follow them. -/
def readCommentFrom (taken : List Char) : Nat → Reader Unit
  | 0 => fail
  | steps + 1 => do
    match ← rest with
    | [] => failUnfinished taken.reverse
    | '-' :: '-' :: '>' :: after => moveTo after
    | '-' :: '-' :: _ => failDashes taken.reverse
    | '\r' :: '\n' :: after => do
      moveTo after
      readCommentFrom ('\n' :: taken) steps
    | c :: after => do
      if !isLegal c then fail
      moveTo after
      readCommentFrom (c :: taken) steps
where
  /-- Whether all characters are ASCII ones. -/
  isPlain (text : List Char) : Bool := text.all fun c => c.toNat < 0x80
  /-- Reports a comment that is not finished. Its start is shown when it is more than plain text. -/
  failUnfinished (text : List Char) : Reader Unit :=
    let rest := text.dropWhile fun c => c.toNat < 0x80
    if rest.length ≤ 2 then fail
    else failShowing ("\n<!--".toList ++ fitting shownSize (text.take (text.length - 2)))
  /-- Reports two dashes in a comment. Of what stands in front of them the message shows the lines
  below the first one. -/
  failDashes (text : List Char) : Reader Unit :=
    let below := (fitting shownSize text).dropWhile (· != '\n')
    if !isPlain text || below.isEmpty then fail else failShowing below

/-- Takes the rest of a comment. -/
def readComment : Reader Unit := do readCommentFrom [] ((← rest).length + 1)

/-- Takes legal characters up to a word and the word itself. -/
def skipTo (word : String) : Nat → Reader Unit
  | 0 => fail
  | steps + 1 => do
    if ← accept word then return ()
    match ← rest with
    | [] => fail
    | c :: after => do
      if !isLegal c then fail
      moveTo after
      skipTo word steps

/-- Takes the rest of an instruction. Its name has no colon and is not that of the declaration of
the markup. -/
def readInstruction : Reader Unit := do
  let name ← readName
  if name.contains ':' || name.map Char.toLower == ['x', 'm', 'l'] then fail
  if ← accept "?>" then return ()
  expectSpace
  skipTo "?>" ((← rest).length + 1)

/-- Takes spaces, comments and instructions. -/
def skipMiscellany : Nat → Reader Unit
  | 0 => return ()
  | steps + 1 => do
    let _ ← skipSpace
    if ← accept "<?" then
      readInstruction
      skipMiscellany steps
    else if ← accept "<!--" then
      readComment
      skipMiscellany steps

/-- Takes a word with an equals sign behind it, which may have spaces around it. -/
def readAssigned (word : String) : Reader Unit := do
  expect word
  let _ ← skipSpace
  expect "="
  let _ ← skipSpace

/-- Whether a text is the number of a version that can be read. -/
def isVersion (version : List Char) : Bool :=
  match version with
  | '1' :: '.' :: rest => rest.all Char.isDigit
  | _ => false

/-- Takes the declaration of the markup behind its first word; the result is the encoding that it
names. -/
def readDeclaration : Reader (Option String) := do
  expectSpace
  readAssigned "version"
  let version ← readQuoted fun c => c.isDigit || c == '.'
  if !isVersion version then fail
  if ← accept "?>" then return none
  expectSpace
  let encoding ←
    if "encoding".toList.isPrefixOf (← rest) then do
      readAssigned "encoding"
      let name ← readQuoted fun c => c.isAlphanum || c == '.' || c == '_' || c == '-'
      if !(name.head?.any Char.isAlpha) then fail
      pure (some (String.ofList name))
    else pure none
  if ← accept "?>" then return encoding
  if encoding.isSome then expectSpace
  if "standalone".toList.isPrefixOf (← rest) then
    readAssigned "standalone"
    let word ← readQuoted Char.isAlpha
    if String.ofList word != "yes" && String.ofList word != "no" then fail
    let _ ← skipSpace
  expect "?>"
  return encoding

/-- Takes the declaration of the markup, if there is one. -/
def readDeclaration? : Reader (Option String) := do
  let cs ← rest
  if "<?xml".toList.isPrefixOf cs && ((cs.drop 5).head?.any isSpace) then
    expect "<?xml"
    readDeclaration
  else return none

/-- Takes the place of something outside of the document; the result tells whether one is given. -/
def readExternalPlace : Reader Bool := do
  if ← accept "SYSTEM" then
    expectSpace
    let _ ← readQuoted isLegal
    return true
  if ← accept "PUBLIC" then
    expectSpace
    let _ ← readQuoted isLegal
    if (← peek).any isSpace then
      let _ ← skipSpace
      if (← peek).any fun c => c == '"' || c == '\'' then
        let _ ← readQuoted isLegal
    return true
  return false

/-- The text of an entity with the characters that are given by their codes, and with references
to entities as they are. -/
def readEntityText : Nat → List Char → Reader (List Char)
  | 0, _ => fail
  | steps + 1, taken => do
    match ← rest with
    | [] => return taken.reverse
    | '\r' :: '\n' :: after => do
      moveTo after
      readEntityText steps ('\n' :: taken)
    | '&' :: '#' :: after => do
      moveTo ('#' :: after)
      match ← readReferent with
      | .char c => readEntityText steps (c :: taken)
      | .entity _ => fail
    | '&' :: after => do
      moveTo after
      let name ← readName
      expect ";"
      readEntityText steps (';' :: (name.reverse ++ '&' :: taken))
    | c :: after => do
      if c == '%' || !isLegal c then fail
      moveTo after
      readEntityText steps ((if c == '\r' then '\n' else c) :: taken)

/-- Takes the declaration of an entity behind its first word. -/
def readEntity (es : Entities) : Reader Entities := do
  expectSpace
  let isParameter ← accept "%"
  if isParameter then expectSpace
  let name ← readName
  if name.contains ':' then fail
  expectSpace
  let text? ←
    if ← readExternalPlace then do
      if ← skipSpace then
        if ← accept "NDATA" then
          expectSpace
          let _ ← readName
      pure none
    else do
      let quoted ← readQuoted isLegal
      pure (some (← here (within quoted (readEntityText (quoted.length + 1) []))))
  let _ ← skipSpace
  expect ">"
  if isParameter then return es
  return { es with texts := es.texts ++ [(name, text?.getD [])] }

/-- Takes the rest of a declaration that says nothing about entities. -/
def skipDeclaration : Nat → Reader Unit
  | 0 => fail
  | steps + 1 => do
    match ← peek with
    | none => fail
    | some '>' => expect ">"
    | some '"' | some '\'' => do
      let _ ← readQuoted isLegal
      skipDeclaration steps
    | some c => do
      if c == '<' || !isLegal c then fail
      moveTo ((← rest).drop 1)
      skipDeclaration steps

/-- Takes the declarations inside of the declaration of a document's type. -/
def readDeclarations : Nat → Entities → Reader Entities
  | 0, _ => fail
  | steps + 1, es => do
    let _ ← skipSpace
    if ← accept "]" then return es
    if ← accept "<!--" then
      readComment
      readDeclarations steps es
    else if ← accept "<?" then
      readInstruction
      readDeclarations steps es
    else if ← accept "<!ENTITY" then
      readDeclarations steps (← readEntity es)
    else if ← accept "%" then
      let _ ← readName
      expect ";"
      readDeclarations steps { es with isOpen := true }
    else
      for word in ["<!ELEMENT", "<!ATTLIST", "<!NOTATION"] do
        if ← accept word then
          expectSpace
          skipDeclaration ((← rest).length + 1)
          return ← readDeclarations steps es
      fail

/-- Takes the declaration of a document's type behind its first word. -/
def readDocumentType : Reader Entities := do
  let _ ← skipSpace
  let _ ← readName
  let _ ← skipSpace
  let isOpen ← readExternalPlace
  let _ ← skipSpace
  let es : Entities := { isOpen }
  if ← accept "[" then
    let declared ← readDeclarations ((← rest).length + 1) es
    let _ ← skipSpace
    expect ">"
    return declared
  expect ">"
  return es

end BuildEngine.Markup.Reader
