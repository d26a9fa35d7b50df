import TemplateTree.Error
import TemplateTree.Text.Basic

namespace TemplateTree

/-- The declaration that a template extends another one, in some scopes only when scopes are
named.  It is written as a path, or as an object in braces. -/
structure Inheritance where
  template : String
  scopes : List String := []
deriving DecidableEq

namespace Inheritance

/-- The path of the template without a leading segment such as `@Bundle/`.  A
bundle name that no path follows stays as it is. -/
def relativePath (declaration : Inheritance) : String :=
  match declaration.template.toList with
  | '@' :: name =>
      match name.dropWhile (· != '/') with
      | [] => declaration.template
      | _ :: path => String.ofList path
  | _ => declaration.template

/-- A key is found wherever it first stands in the object. -/
def readScopes (object : List Char) : Except Error (List String) :=
  match Text.cut? "scopes:".toList object with
  | none => .ok []
  | some (_, rest) =>
      match Text.trimStart rest with
      | '[' :: array =>
          match Text.cut? [']'] array with
          | none => .error .missingScopesBracket
          | some (scopes, _) =>
              .ok ((Text.items (fun scope => Text.stripQuotes (Text.trim scope))
                scopes).map String.ofList)
      | _ => .ok []

/-- The template of an object ends at the next comma. -/
def readObject (object : List Char) : Except Error Inheritance :=
  match Text.cut? "template:".toList object with
  | none => .error .missingTemplateKey
  | some (_, rest) =>
      let value := rest.takeWhile (· != ',')
      (readScopes object).map fun scopes =>
        ⟨String.ofList (Text.stripQuotes (Text.trim value)), scopes⟩

def readPath (arguments : List Char) : Except Error Inheritance :=
  match Text.words arguments with
  | [] => .error .missingTemplatePath
  | path :: _ => .ok ⟨String.ofList (Text.stripQuotes path), []⟩

def read (arguments : List Char) : Except Error Inheritance :=
  match Text.trim arguments with
  | '{' :: rest =>
      match Text.beforeLast? '}' rest with
      | none => .error .mismatchedBraces
      | some object => readObject (Text.trim object)
  | path => readPath path

end Inheritance

end TemplateTree
