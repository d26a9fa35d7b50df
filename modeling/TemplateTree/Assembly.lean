import TemplateTree.Piece
import TemplateTree.Text.Bytes

namespace TemplateTree

/-! Building a tree with an explicit stack.  A tag that enters a scope pushes a frame; an end
tag that leaves it pops the frame and puts the finished scope where the frame was opened. -/

/-- An open scope, with the nodes that stand before it in the scope around it. -/
structure Frame where
  header : Header
  before : Template
deriving DecidableEq

structure Assembly where
  position : Nat := 0
  /-- The nodes of the innermost open scope so far. -/
  nodes : Template := []
  /-- The open scopes, innermost first. -/
  frames : List Frame := []
deriving DecidableEq

namespace Assembly

def scope? (assembly : Assembly) : Option Scope :=
  assembly.frames.head?.map fun frame => frame.header.scope

def apply (assembly : Assembly) : Effect → Assembly
  | .adds nodes => { assembly with nodes := assembly.nodes ++ nodes }
  | .enters header =>
      { assembly with
        nodes := []
        frames := ⟨header, assembly.nodes⟩ :: assembly.frames }
  | .leaves =>
      match assembly.frames with
      | [] => assembly
      | frame :: outer =>
          { assembly with
            nodes := frame.before ++ [.scope frame.header assembly.nodes]
            frames := outer }

def move (assembly : Assembly) (passed : List Char) : Assembly :=
  { assembly with position := assembly.position + Text.byteLength passed }

def step (assembly : Assembly) : Piece → Outcome Assembly
  | .text run => return (assembly.move run).apply (.adds (.ofText run))
  | .tag delimiter inside =>
      let next := assembly.move (delimiter.wrap inside)
      next.apply <$>
        Effect.ofInside next.scope? delimiter inside next.position
  | .unclosed delimiter _ => .fail (.unclosedTag delimiter assembly.position)

def close (nodes : Template) : List Frame → Outcome Template
  | [] => return nodes
  | frame :: outer => do
      Outcome.note (.scopeLeftOpen frame.header.scope)
      close (frame.before ++ [.scope frame.header nodes]) outer

def run (assembly : Assembly) : List Piece → Outcome Template
  | [] => close assembly.nodes assembly.frames
  | piece :: rest => do
      let next ← assembly.step piece
      next.run rest

end Assembly

def Template.assemble (source : String) : Outcome Template :=
  Assembly.run {} (Piece.cut source.toList)

end TemplateTree
