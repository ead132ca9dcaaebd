import BuildEngine.Document.Basic
import BuildEngine.Mapper
import BuildEngine.Problem

/-!
The document form of mappers: the type of a mapper, what it maps to, and from which names.
-/

namespace BuildEngine.Mapper

def ofDocument (v : Value) : Except Problem Mapper :=
  let source := (v.field "from").textOrEmpty
  let derived := (v.field "to").textOrEmpty
  let caseSensitive := v.allows "casesensitive"
  match (v.field "type").textOrEmpty with
  | "flatten" => .ok .flatten
  | "merge" => .ok (.merge derived)
  | "glob" => ofGlob source derived caseSensitive
  | "regexp" => ofRegexp source derived caseSensitive
  | _ => .ok .identity

end BuildEngine.Mapper
