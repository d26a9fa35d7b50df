import TemplateTree.Node.Basic
import TemplateTree.Text.Basic
import TemplateTree.Text.Escaped

namespace TemplateTree

/-- Escaping applies when no strategy is given. -/
def defaultStrategy : String := "html"

def strategyName : Option String → String
  | none => defaultStrategy
  | some strategy => String.ofList (Text.stripQuotes strategy.toList)

def Leaf.summary : Leaf → String
  | .text run => "Text(" ++ Text.quoted run ++ ")"
  | .whitespace run => "Whitespace(" ++ Text.quoted run ++ ")"
  | .parent => "Parent"
  | .inherits ⟨template, []⟩ =>
      "Extends(template: " ++ Text.quoted template ++ ")"
  | .inherits ⟨template, scopes⟩ =>
      "Extends(template: " ++ Text.quoted template ++ ", scopes: " ++
        Text.quotedList scopes ++ ")"
  | .print expression => "Print(" ++ expression ++ ")"
  | .deprecated message => "Deprecated(" ++ Text.quoted message ++ ")"
  | .assign targets values =>
      "Set(inline, variables: " ++ Text.quotedList targets ++ ", values: " ++
        Text.quotedList values ++ ")"
  | .types hints => "Types(" ++ Text.quotedEntries hints.entries ++ ")"

def Header.summary : Header → String
  | .block name => "Block(name: " ++ name ++ ")"
  | .loop item collection =>
      "For(variable: " ++ item ++ ", collection: " ++ collection ++ ")"
  | .capture targets _ =>
      "Set(block, variables: " ++ Text.quotedList targets ++ ")"
  | .autoescape strategy =>
      "Autoescape(strategy: " ++ strategyName strategy ++ ")"

namespace Outline

structure Line where
  depth : Nat
  summary : String
deriving DecidableEq

def Line.render (line : Line) : String :=
  String.ofList (List.replicate (2 * line.depth) ' ') ++ line.summary ++ "\n"

end Outline

mutual

def Node.lines (depth : Nat) : Node → List Outline.Line
  | .leaf content => [⟨depth, content.summary⟩]
  | .scope header children =>
      ⟨depth, header.summary⟩ :: Template.lines (depth + 1) children

def Template.lines (depth : Nat) : Template → List Outline.Line
  | [] => []
  | node :: rest => node.lines depth ++ Template.lines depth rest

end

def Template.outline (template : Template) : String :=
  String.join ((Template.lines 0 template).map Outline.Line.render)

end TemplateTree
