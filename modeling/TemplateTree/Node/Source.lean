import TemplateTree.Delimiter
import TemplateTree.Node.Basic
import TemplateTree.Text.Basic

namespace TemplateTree

/-! Text is written as it stands.  Every other construct has one canonical spelling. -/

/-- The arguments of an inheritance declaration: the path alone, or an object
when there are scopes. -/
def Inheritance.source (declaration : Inheritance) : String :=
  if declaration.scopes.isEmpty then Text.singleQuoted declaration.template
  else
    "\x7b template: " ++ Text.singleQuoted declaration.template ++
      ", scopes: [" ++
      Text.listed (declaration.scopes.map Text.singleQuoted) ++ "] \x7d"

def TypeHints.source (hints : TypeHints) : String :=
  String.join (hints.entries.map fun (key, value) => " " ++ key ++ ":" ++ value)

def Leaf.source : Leaf → String
  | .text run => run
  | .whitespace run => run
  | .parent => Delimiter.expression.enclose "parent()"
  | .inherits declaration =>
      Delimiter.statement.enclose ("sw_extends " ++ declaration.source)
  | .print expression => Delimiter.expression.enclose expression
  | .deprecated message =>
      Delimiter.statement.enclose ("deprecated " ++ Text.singleQuoted message)
  | .assign targets values =>
      Delimiter.statement.enclose
        ("set " ++ Text.listed targets ++ " = " ++ Text.listed values)
  | .types hints => Delimiter.statement.enclose ("types" ++ hints.source)

def Header.body : Header → String
  | .block name => "block " ++ name
  | .loop item collection => "for " ++ item ++ " in " ++ collection
  | .capture targets _ => "set " ++ Text.listed targets
  | .autoescape none => "autoescape"
  | .autoescape (some strategy) => "autoescape " ++ strategy

def Header.source (header : Header) : String :=
  Delimiter.statement.enclose header.body

def Scope.endTag (scope : Scope) : String :=
  Delimiter.statement.enclose scope.endKeyword

mutual

def Node.source : Node → String
  | .leaf content => content.source
  | .scope header children =>
      header.source ++ String.join (Template.sources children) ++
        header.scope.endTag

def Template.sources : Template → List String
  | [] => []
  | node :: rest => node.source :: Template.sources rest

end

def Template.source (template : Template) : String :=
  String.join template.sources

theorem Node.source_scope (header : Header) (children : Template) :
    Node.source (.scope header children) =
      header.source ++ children.source ++ header.scope.endTag := by
  rw [Node.source, Template.source]

theorem Template.source_nil : Template.source [] = "" := rfl

theorem Template.source_cons (node : Node) (rest : Template) :
    Template.source (node :: rest) = node.source ++ Template.source rest := by
  simp only [Template.source, Template.sources, String.join_cons]

theorem Template.source_append (left right : Template) :
    Template.source (left ++ right) =
      Template.source left ++ Template.source right := by
  induction left with
  | nil => simp [source_nil]
  | cons node rest ih =>
      simp only [List.cons_append, source_cons, ih, String.append_assoc]

theorem Template.toList_source_eq_flatMap (template : Template) :
    template.source.toList = template.flatMap fun node => node.source.toList := by
  induction template with
  | nil => rfl
  | cons node rest ih => rw [source_cons, String.toList_append, ih, List.flatMap_cons]

end TemplateTree
