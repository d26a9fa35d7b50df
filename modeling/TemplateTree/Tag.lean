import TemplateTree.Inheritance
import TemplateTree.Node.Basic
import TemplateTree.TypeHints

namespace TemplateTree

inductive Keyword where
  | autoescape
  | block
  | deprecated
  | inherits
  | loop
  | set
  | types
  | closing (scope : Scope)
deriving DecidableEq

namespace Keyword

def spelling : Keyword → String
  | .autoescape => "autoescape"
  | .block => "block"
  | .deprecated => "deprecated"
  | .inherits => "sw_extends"
  | .loop => "for"
  | .set => "set"
  | .types => "types"
  | .closing scope => scope.endKeyword

def all : List Keyword :=
  [.autoescape, .block, .deprecated, .inherits, .loop, .set, .types,
   .closing .block, .closing .loop, .closing .capture, .closing .autoescape]

def ofWord? (word : List Char) : Option Keyword :=
  all.find? fun keyword => keyword.spelling.toList == word

theorem ofWord?_spelling (keyword : Keyword) :
    ofWord? keyword.spelling.toList = some keyword := by
  cases keyword with
  | closing scope => cases scope <;> decide
  | _ => decide

theorem ofWord?_eq_some_iff {word : List Char} {keyword : Keyword} :
    ofWord? word = some keyword ↔ word = keyword.spelling.toList := by
  constructor
  · intro found
    have same := List.find?_some found
    exact (eq_of_beq same).symm
  · rintro rfl
    exact ofWord?_spelling keyword

end Keyword

/-- What the body of a tag alone decides.  Whether an end tag closes a scope depends on where it
stands. -/
inductive Tag where
  | leaf (content : Leaf)
  | opens (header : Header)
  | closes (scope : Scope)
  /-- A `for` that does not say what it runs over. -/
  | loopWithoutIn
  | unrecognized
deriving DecidableEq

namespace Tag

def keyword (body : List Char) : List Char :=
  body.takeWhile fun c => !Text.isBlank c

/-- What follows the first word, trimmed. -/
def arguments (body : List Char) : List Char :=
  Text.trim (body.dropWhile fun c => !Text.isBlank c)

/-- Comma lists on both sides of the first equals sign, or the variables of a
capture when there is none. -/
def set (arguments : List Char) : Tag :=
  match Text.cut? ['='] arguments with
  | some (targets, values) =>
      .leaf (.assign ((Text.items Text.trim targets).map String.ofList)
        ((Text.items Text.trim values).map String.ofList))
  | none =>
      .opens (.capture ((Text.items Text.trim arguments).map String.ofList) [])

/-- The first `in` between two spaces separates the item from the collection. -/
def loop (arguments : List Char) : Tag :=
  match Text.cut? " in ".toList arguments with
  | some (item, collection) =>
      if (Text.trim item).isEmpty || (Text.trim collection).isEmpty then
        .loopWithoutIn
      else
        .opens (.loop (String.ofList (Text.trim item))
          (String.ofList (Text.trim collection)))
  | none => .loopWithoutIn

def block (arguments : List Char) : Tag :=
  match Text.words arguments with
  | [] => .unrecognized
  | name :: _ => .opens (.block (String.ofList name))

def autoescape (arguments : List Char) : Tag :=
  .opens (.autoescape ((Text.words arguments).head?.map String.ofList))

def deprecated (arguments : List Char) : Tag :=
  .leaf (.deprecated (String.ofList (Text.stripQuotes arguments)))

def ofKeyword (arguments : List Char) : Keyword → Except Error Tag
  | .autoescape => .ok (autoescape arguments)
  | .block => .ok (block arguments)
  | .deprecated =>
      .ok (if arguments.isEmpty then .unrecognized else deprecated arguments)
  | .inherits =>
      (Inheritance.read arguments).map fun declaration =>
        .leaf (.inherits declaration)
  | .loop => .ok (loop arguments)
  | .set => .ok (if arguments.isEmpty then .unrecognized else set arguments)
  | .types => (TypeHints.read arguments).map fun hints => .leaf (.types hints)
  | .closing scope => .ok (.closes scope)

def ofBody (body : List Char) : Except Error Tag :=
  match Keyword.ofWord? (keyword body) with
  | some keyword => ofKeyword (arguments body) keyword
  | none => .ok .unrecognized

end Tag

def Leaf.ofExpression (body : List Char) : Leaf :=
  if body = "parent()".toList then .parent else .print (String.ofList body)

end TemplateTree
