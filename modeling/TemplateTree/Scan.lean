import TemplateTree.Delimiter
import TemplateTree.Effect
import TemplateTree.Scan.Basic
import TemplateTree.Scan.Tag

namespace TemplateTree.Scan

/-- What the tag from `start` to `stop` does in the scope in which it stands. -/
def effect (s : List Char) (scope : Option Scope) (delimiter : Delimiter) (body : List Char)
    (start stop : Nat) : Scan Effect :=
  let asText : Scan Effect := do
    let source ← slice s start stop
    let kept ← plain source
    return .adds kept
  match delimiter with
  | .expression => return .adds [.leaf (.ofExpression body)]
  | .statement => do
      match ← tag body with
      | .leaf content => return .adds [.leaf content]
      | .opens header => return .enters header
      | .closes closed => if scope = some closed then return .leaves else asText
      | .loopWithoutIn => asText
      | .unrecognized => asText

inductive Round where
  | last (nodes : Template)
  /-- The text before the tag, what the tag does, and where reading goes on. -/
  | tag (before : Template) (effect : Effect) (next : Nat)
deriving DecidableEq

/-- A round reads up to the end of the next tag. -/
def round (s : List Char) (scope : Option Scope) (position : Nat) : Scan Round := do
  let rest ← sliceFrom s position
  match Delimiter.leftmost? rest with
  | none =>
      let nodes ← plain rest
      return .last nodes
  | some (offset, delimiter) =>
      let passed ← sliceTo rest offset
      let before ← plain passed
      let start := position + offset
      let inside := start + 2
      let behind ← sliceFrom s inside
      match Text.offset? delimiter.closer behind with
      | none => fail (.unclosedTag delimiter start)
      | some length =>
          let stop := inside + length + 2
          let body ← slice s inside (inside + length)
          let effect ← effect s scope delimiter (Text.trim body) start stop
          return .tag before effect stop

def nodes (s : List Char) (scope : Option Scope) (position : Nat) : Scan (Template × Nat) :=
  if position < Text.byteLength s then do
    match ← round s scope position with
    | .last nodes => return (nodes, Text.byteLength s)
    | .tag before .leaves next => return (before, next)
    | .tag before (.adds added) next =>
        let ⟨next, _⟩ ← advance s position next
        let (later, stop) ← nodes s scope next
        return (before ++ added ++ later, stop)
    | .tag before (.enters header) next =>
        let ⟨next, _⟩ ← advance s position next
        let (children, middle) ← nodes s (some header.scope) next
        let ⟨middle, _⟩ ← advance s position middle
        let (later, stop) ← nodes s scope middle
        return (before ++ .scope header children :: later, stop)
  else return ([], position)
termination_by Text.byteLength s - position

def parse (source : String) : Scan Template := do
  let (nodes, _) ← nodes source.toList none 0
  return nodes

end TemplateTree.Scan
