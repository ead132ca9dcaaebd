import BuildEngine.Document.Value
import BuildEngine.Binding.Signature
import BuildEngine.Run.Event

/-!
The document form of kinds: how a document declares one, and what a document tells about its
attributes and its signature. A declaration can go wrong in one way only: it names a kind that is
not known. The name of that kind is the error.
-/

namespace BuildEngine

def Kinds.required (ks : Kinds) (name : String) : Except String Kind :=
  match ks.named? name with
  | some k => .ok k
  | none => .error name

namespace TypeHint

/-- The types with a name of their own. -/
def named? : String → Option TypeHint
  | "str" => some (.type .text)
  | "bool" => some (.type .flag)
  | "int" => some (.type .int)
  | "float" => some (.type .real)
  | "Path" => some (.type .path)
  | "object" | "Any" => some (.type .anything)
  | "None" => some (.type .nothing)
  | "bytes" => some (.type .bytes)
  | "list" => some (.type .list)
  | "list[str]" => some .listOf
  | "Reference" => some (.type .reference)
  | "LogLevel" => some (.type (.enumeration logLevels))
  | "MapperType" => some (.type (.enumeration mapperTypes))
  | _ => none

mutual

def ofDocument (ks : Kinds) : Value → Except String TypeHint
  | .text name =>
    match named? name with
    | some hint => .ok hint
    | none => (ks.required name).map fun k => .type (.kind k.id)
  | .record [("union", .list vs)] => (ofDocuments ks vs).map .union
  | .record [("optional", v)] => (ofDocument ks v).map fun hint => .union [hint, .type .nothing]
  | .record [("literal", .list vs)] => .ok (.oneOf vs)
  | v => .ok (.type (.enumeration ⟨(v.field "enum").textOrEmpty, (v.field "values").fields⟩))

def ofDocuments (ks : Kinds) : List Value → Except String (List TypeHint)
  | [] => .ok []
  | v :: rest =>
    match ofDocument ks v, ofDocuments ks rest with
    | .ok hint, .ok hints => .ok (hint :: hints)
    | .error name, _ => .error name
    | _, .error name => .error name

end

mutual

def enumerations : TypeHint → List Enumeration
  | .type (.enumeration e) => [e]
  | .union hints => enumerationsOf hints
  | _ => []

def enumerationsOf : List TypeHint → List Enumeration
  | [] => []
  | hint :: rest => enumerations hint ++ enumerationsOf rest

end

end TypeHint

/-- The enumerations that the declarations of kinds mention. -/
def Kinds.enumerations (ks : Kinds) : List Enumeration :=
  ks.all.flatMap fun k => k.declaration.attributes.flatMap fun a => a.hint.enumerations

def Annotation.ofDocument (ks : Kinds) : Value → Except String Annotation
  | .nothing => .ok .missing
  | .text "?" => .ok .unknown
  | v => (TypeHint.ofDocument ks v).map .known

/-- The attribute that a document declares, where some enumerations are known. -/
def AttributeDeclaration.ofDocument (ks : Kinds) (known : List Enumeration) (v : Value) :
    Except String AttributeDeclaration := do
  let form := if (v.field "plain").isTrue then AttributeForm.untyped
    else if (v.field "bare").isTrue then .bare else .typed
  let hint ← if form = .bare then pure (.type .anything)
    else TypeHint.ofDocument ks (v.field "type")
  let given := (v.field? "default").or (v.field? "factory")
  return {
    name := (v.field "name").textOrEmpty, hint, form
    initial := given.map (.ofDocument (known ++ hint.enumerations))
    listening := (v.field "listening").isTrue
    help := (v.field "help").text?
    hasOptions := given.isSome || v.hasField "listening" || v.hasField "help" }

def AttributeDeclaration.ofDocuments (ks : Kinds) (known : List Enumeration) :
    List Value → Except String (List AttributeDeclaration)
  | [] => .ok []
  | v :: rest => do
    let declared ← ofDocument ks known v
    return declared :: (← ofDocuments ks (known ++ declared.hint.enumerations) rest)

/-- The nested element that a document declares, with its method. -/
def NestedElement.ofDocument (ks : Kinds) (v : Value) : Except String (String × Member) := do
  let parameters ← (v.field "params").items.mapM fun p => do
    return ((p.item 0).textOrEmpty, ← Annotation.ofDocument ks (p.item 1))
  let returns ← Annotation.ofDocument ks (v.field "returns")
  let creates ← (v.field "creates").text?.mapM fun name => (·.id) <$> ks.required name
  return ((v.field "method").textOrEmpty, .nested {
    name := (v.field "element").text?, parameters, returns, creates
    refusal := (v.field "raises").text? })

/-- The handler of nested text that a document declares, with its method. -/
def TextHandler.ofDocument (v : Value) : String × Member :=
  match v with
  | .text name => (name, .text {})
  | v => ((v.field "method").textOrEmpty, .text {
      parameters := (v.field? "params").elim 1 Value.count
      refusal := (v.field "raises").text? })

namespace Parameter

/-- The parameters in a written list: those in front of a slash are given by their position only,
those behind a star by their name only. -/
def ofTexts (keyword : Bool) (taken : List Parameter) : List String → List Parameter
  | [] => taken
  | "" :: rest => ofTexts keyword taken rest
  | "/" :: rest => ofTexts keyword (taken.map fun p => { p with mode := .positional }) rest
  | "*" :: rest => ofTexts true taken rest
  | piece :: rest =>
    if piece.startsWith "*" then
      let name := String.ofList (piece.toList.dropWhile (· == '*'))
      ofTexts true (taken ++ [{ name, mode := .variadic }]) rest
    else
      let name := Text.trim (String.ofList (piece.toList.takeWhile (· != '=')))
      let mode := if keyword then .keyword else .ordinary
      ofTexts keyword (taken ++ [{ name, hasDefault := piece.contains '=', mode }]) rest

def ofText (list : String) : List Parameter :=
  ofTexts false [] (((Text.splitOn (· == ',') list.toList).map Text.trimChars).map String.ofList)

end Parameter

/-- The outcome of a name. -/
def StatusType.named (name : String) : StatusType :=
  ([.failed, .skipped, .upToDate, .warning].find? fun t => t.name == name).getD .succeeded

/-- The action that a document describes: a word and what it is about. -/
def Action.ofDocument (v : Value) : Action :=
  let first := (v.item 1).textOrEmpty
  let second := (v.item 2).textOrEmpty
  match (v.item 0).textOrEmpty with
  | "set" => .setProperty first ((v.item 2).display fun _ => "")
  | "log" => .log (.ofText (Text.lower first)) second
  | "fail" => .fail first
  | "config_error" => .reject first
  | "crash" => .crash first
  | "interrupt" => .interrupt
  | "status" => .report (.named first) (v.item 2).text?
  | "read" => .read first
  | "read_child" => .readChild (v.item 1).count second
  | "slot" => .writeSlot first (v.item 2)
  | "handle_error" => .handleError first
  | "check_policy" => .checkPolicy
  | "text" => .storeText first
  | _ => .resolve first

namespace Declaration

/-- The script that a document describes, if it describes one. -/
def scriptOf (v : Value) : Option (List Action) :=
  (v.field? "execute").map fun actions => actions.items.map Action.ofDocument

/-- The declaration that a document gives, in a module. -/
def ofDocument (home : String) (ks : Kinds) (v : Value) : Except String Declaration := do
  let names := match v.field "base" with
    | .nothing => ["PropertyContainer"]
    | .text name => [name]
    | several => several.texts
  let bases ← names.mapM fun name => (·.id) <$> ks.required name
  let attributes ← AttributeDeclaration.ofDocuments ks ks.enumerations (v.field "attrs").items
  let nested ← (v.field "elements").items.mapM (NestedElement.ofDocument ks)
  let handlers := (v.field "text").items.map TextHandler.ofDocument
  let plain := (v.field "override").texts ++ if v.hasField "execute" then ["execute"] else []
  let required := if (v.field "abstract").isTrue then [("run", Member.required)] else []
  return {
    name := (v.field "name").textOrEmpty, home, bases, attributes
    members := nested ++ handlers ++ plain.map (fun name => (name, .plain)) ++ required
    initializer := (v.field "init").text?.map Parameter.ofText
    script := scriptOf v }

end Declaration

def Kinds.attributesDocument (ks : Kinds) (k : Kind) : Value :=
  .list (k.attributes.values.map fun a => .list [
    .text a.name, .ofTexts (a.accepted.map (ValueType.name ks.nameOf)), .flag a.initial.isSome,
    .flag a.listening, .ofText? a.help])

/-- The name of the way in which objects are made. -/
def Kinds.Construction.name : Kinds.Construction → String
  | default => "default"
  | project => "project"

/-- The name of the way in which a child comes about. -/
def ChildOrigin.name : ChildOrigin → String
  | creator => "CREATOR"
  | adder => "ADDER"

def Signature.toDocument (ks : Kinds) (s : Signature) : Value := .record [
  ("attributes", .list (s.attributes.entries.map fun (key, a) =>
    .list [.text key, .text a.name, .flag a.listening])),
  ("elements", .list (s.elements.entries.map fun (key, f) =>
    .list [.text key, .text f.name, .text f.origin.name, .text f.method,
      .ofText? (f.kind.map ks.nameOf)])),
  ("text", .list [.flag s.text.isSome, .ofText? s.text]),
  ("cached", .flag true)]

end BuildEngine
