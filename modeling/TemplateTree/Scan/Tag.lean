import TemplateTree.Scan.Basic
import TemplateTree.Tag
import TemplateTree.Text.Bytes

namespace TemplateTree.Scan

def hasQuotes (quote : Char) (s : List Char) : Bool :=
  2 ≤ Text.byteLength s && s.head? == some quote && s.getLast? == some quote

def unquote (s : List Char) : Scan (List Char) :=
  if hasQuotes '\'' s || hasQuotes '"' s then slice s 1 (Text.byteLength s - 1)
  else return s

def hint (word : List Char) : Scan (String × String) :=
  if word.count ':' = 1 then
    match Text.cut? [':'] word with
    | none => fail (.malformedType (String.ofList word))
    | some (key, value) =>
        if (Text.trim key).isEmpty then fail (.malformedType (String.ofList word))
        else do
          let value ← unquote (Text.trim value)
          return (String.ofList (Text.trim key), Text.singleQuoted (String.ofList value))
  else fail (.malformedType (String.ofList word))

def typeHints (arguments : List Char) : Scan TypeHints :=
  if (Text.trim arguments).isEmpty then fail .noTypes
  else do
    let entries ← (Text.words arguments).mapM hint
    return TypeHints.ofList entries

/-- What stands in front of the first `mark`. -/
def before? (mark s : List Char) : Scan (Option (List Char)) :=
  match Text.offset? mark s with
  | none => return none
  | some offset => do
      let before ← sliceTo s offset
      return some before

/-- What stands behind the first `mark`. -/
def behind? (mark s : List Char) : Scan (Option (List Char)) :=
  match Text.offset? mark s with
  | none => return none
  | some offset => do
      let after ← sliceFrom s (offset + Text.byteLength mark)
      return some after

def scopes (object : List Char) : Scan (List String) := do
  match ← behind? "scopes:".toList object with
  | none => return []
  | some rest =>
      match Text.trimStart rest with
      | '[' :: array =>
          match ← before? [']'] array with
          | none => fail .missingScopesBracket
          | some listed =>
              return (Text.items (fun scope => Text.stripQuotes (Text.trim scope)) listed).map
                String.ofList
      | _ => return []

def object (object : List Char) : Scan Inheritance := do
  match ← behind? "template:".toList object with
  | none => fail .missingTemplateKey
  | some rest =>
      let value := (← before? [','] rest).getD rest
      let scopes ← scopes object
      return ⟨String.ofList (Text.stripQuotes (Text.trim value)), scopes⟩

def inheritance (arguments : List Char) : Scan Inheritance :=
  let trimmed := Text.trim arguments
  if trimmed.head? = some '{' then
    match Text.lastOffset? '}' trimmed with
    | none => fail .mismatchedBraces
    | some close => do
        let inside ← slice trimmed 1 close
        object (Text.trim inside)
  else ofExcept (Inheritance.readPath trimmed)

def ofKeyword (arguments : List Char) : Keyword → Scan Tag
  | .inherits => do
      let declaration ← inheritance arguments
      return .leaf (.inherits declaration)
  | .types => do
      let hints ← typeHints arguments
      return .leaf (.types hints)
  | keyword => ofExcept (Tag.ofKeyword arguments keyword)

def tag (body : List Char) : Scan Tag :=
  match Keyword.ofWord? (Tag.keyword body) with
  | some keyword => ofKeyword (Tag.arguments body) keyword
  | none => return .unrecognized

end TemplateTree.Scan
