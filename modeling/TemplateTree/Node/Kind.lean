import TemplateTree.Node.Basic

namespace TemplateTree

inductive Kind where
  | text
  | whitespace
  | block
  | parent
  | inherits
  | loop
  | print
  | deprecated
  | set
  | autoescape
  | types
deriving DecidableEq

namespace Kind

def all : List Kind :=
  [.text, .whitespace, .block, .parent, .inherits, .loop, .print, .deprecated,
   .set, .autoescape, .types]

def name : Kind → String
  | .text => "text"
  | .whitespace => "whitespace"
  | .block => "block"
  | .parent => "parent"
  | .inherits => "extends"
  | .loop => "for"
  | .print => "print"
  | .deprecated => "deprecated"
  | .set => "set"
  | .autoescape => "autoescape"
  | .types => "types"

def ofName? (name : String) : Option Kind :=
  all.find? fun kind => kind.name == name

theorem mem_all (kind : Kind) : kind ∈ all := by
  cases kind <;> simp [all]

theorem ofName?_name (kind : Kind) : ofName? kind.name = some kind := by
  cases kind <;> rfl

end Kind

def Leaf.kind : Leaf → Kind
  | .text _ => .text
  | .whitespace _ => .whitespace
  | .parent => .parent
  | .inherits _ => .inherits
  | .print _ => .print
  | .deprecated _ => .deprecated
  | .assign _ _ => .set
  | .types _ => .types

def Scope.kind : Scope → Kind
  | .block => .block
  | .loop => .loop
  | .capture => .set
  | .autoescape => .autoescape

/-- Assignments and captures are both of the kind `set`. -/
def Node.kind : Node → Kind
  | .leaf content => content.kind
  | .scope header _ => header.scope.kind

end TemplateTree
