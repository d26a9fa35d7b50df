import TemplateTree.Node.Basic

namespace TemplateTree

/-! A search goes into blocks and into no other scope: a node is visible if it is an outermost
node or a child of a visible block. -/

mutual

/-- Puts the nodes that are found in front of `tail`. -/
def Node.findOnto (test : Node → Bool) : Node → List Node → List Node
  | .scope (.block name) children, tail =>
      let inside := Template.findOnto test children tail
      if test (.scope (.block name) children) then
        .scope (.block name) children :: inside
      else inside
  | node, tail => if test node then node :: tail else tail

def Template.findOnto (test : Node → Bool) : Template → List Node → List Node
  | [], tail => tail
  | node :: rest, tail =>
      node.findOnto test (Template.findOnto test rest tail)

end

def Template.find (test : Node → Bool) (template : Template) : List Node :=
  template.findOnto test []

mutual

/-- A node and what can be seen inside it, each block before its content. -/
def Node.visible : Node → List Node
  | .scope (.block name) children =>
      .scope (.block name) children :: Template.visible children
  | node => [node]

def Template.visible : Template → List Node
  | [] => []
  | node :: rest => node.visible ++ Template.visible rest

end

structure Block where
  name : String
  children : Template
deriving DecidableEq

namespace Node

def asBlock? : Node → Option Block
  | .scope (.block name) children => some ⟨name, children⟩
  | _ => none

def asInheritance? : Node → Option Inheritance
  | .leaf (.inherits declaration) => some declaration
  | _ => none

end Node

namespace Template

def withoutWhitespace (template : Template) : List Node :=
  template.find fun node => !node.isWhitespace

def blocks (template : Template) : List Block :=
  (template.find fun node => node.asBlock?.isSome).filterMap Node.asBlock?

def blockNames (template : Template) : List String :=
  template.blocks.map Block.name

def block? (template : Template) (name : String) : Option Block :=
  template.blocks.find? fun block => block.name == name

def inheritance? (template : Template) : Option Inheritance :=
  (template.find fun node => node.asInheritance?.isSome).findSome?
    Node.asInheritance?

/-- Follows a path of indexes into the children of nodes.  The first index
selects an outermost node. -/
def at? (template : Template) : List Nat → Option Node
  | [] => none
  | [index] => template[index]?
  | index :: next :: path => do
      let node ← template[index]?
      let children ← node.children?
      at? children (next :: path)

end Template

/-- Whitespace apart, the block shows nothing but the content of the block of
the same name in the extended template. -/
def Block.delegatesToParent (block : Block) : Bool :=
  block.children.withoutWhitespace == [.leaf .parent]

end TemplateTree
