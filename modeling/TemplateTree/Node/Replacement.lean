import TemplateTree.Node.Basic
import TemplateTree.Node.Kind
import TemplateTree.Node.Query
import TemplateTree.Node.Source

namespace TemplateTree

section Rewrite

variable {m : Type → Type} [Monad m]

mutual

/-- Calls the visitor for every visible node, with the children of a block before the block,
and puts its answers in the places of the nodes.  A block is handed over with its children
already rewritten. -/
def Node.rewriteM (visit : Node → m Node) : Node → m Node
  | .scope (.block name) children => do
      let rewritten ← Template.rewriteM visit children
      visit (.scope (.block name) rewritten)
  | node => visit node

def Template.rewriteM (visit : Node → m Node) : Template → m Template
  | [] => return []
  | node :: rest => do
      let head ← node.rewriteM visit
      let tail ← Template.rewriteM visit rest
      return head :: tail

end

end Rewrite

/-- Every condition that is given must hold. -/
structure Filter where
  kind : Option String := none
  containing : Option String := none
  whitespace : Option Bool := none
deriving DecidableEq

def Filter.accepts (filter : Filter) (node : Node) : Bool :=
  filter.kind.all (fun name => node.kind.name == name) &&
    filter.containing.all (fun mark =>
      Text.occurs mark.toList node.source.toList) &&
    filter.whitespace.all (fun expected => node.isWhitespace == expected)

inductive Replacement where
  | same
  /-- A block that delegates to its parent becomes a text that calls the block
  by its name. -/
  | delegation
  | substitute (node : Node)
  /-- The node becomes the only child of a new block. -/
  | wrap (name : String)
  /-- The name of a block gets an ending. -/
  | rename (ending : String)
  /-- A scope becomes a text that holds the source of its children. -/
  | unwrap
deriving DecidableEq

namespace Replacement

def blockCall (name : String) : Node :=
  .leaf (.text (Delimiter.expression.enclose ("block(\"" ++ name ++ "\")")))

def delegate (node : Node) : Node :=
  match node.asBlock? with
  | some block => if block.delegatesToParent then blockCall block.name else node
  | none => node

def apply : Replacement → Node → Node
  | .same, node => node
  | .delegation, node => delegate node
  | .substitute replacement, _ => replacement
  | .wrap name, node => .scope (.block name) [node]
  | .rename ending, .scope (.block name) children =>
      .scope (.block (name ++ ending)) children
  | .rename _, node => node
  | .unwrap, .scope _ children => .leaf (.text (Template.source children))
  | .unwrap, node => node

end Replacement

namespace Template

/-- Replaces the nodes that the filter accepts.  The answer holds the rewritten
template and all nodes in the order and form in which they were visited. -/
def replace (template : Template) (filter : Filter)
    (replacement : Replacement) : Template × List Node :=
  let visit (node : Node) : StateM (List Node) Node := do
    modify (node :: ·)
    return if filter.accepts node then replacement.apply node else node
  let (rewritten, visited) := (template.rewriteM visit).run []
  (rewritten, visited.reverse)

end Template

end TemplateTree
