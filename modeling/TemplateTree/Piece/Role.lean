import TemplateTree.Node.Source
import TemplateTree.Piece

namespace TemplateTree

/-! What each piece of a template is, given the scopes that are open before it, from the
innermost outwards. -/

inductive Role where
  | plain
  | leaf (content : Leaf)
  | opening (header : Header)
  | ending (scope : Scope)
  | kept
  | faulty
deriving DecidableEq

namespace Role

def ofTag (scope : Option Scope) : Tag → Role
  | .leaf content => .leaf content
  | .opens header => .opening header
  | .closes closed => if scope = some closed then .ending closed else .kept
  | .loopWithoutIn => .kept
  | .unrecognized => .kept

def ofPiece (scope : Option Scope) : Piece → Role
  | .text _ => .plain
  | .tag .expression inside => .leaf (.ofExpression (Text.trim inside))
  | .tag .statement inside =>
      match Tag.ofBody (Text.trim inside) with
      | .ok tag => ofTag scope tag
      | .error _ => .faulty
  | .unclosed _ _ => .faulty

def scopesAfter (scopes : List Scope) : Role → List Scope
  | .opening header => header.scope :: scopes
  | .ending _ => scopes.tail
  | _ => scopes

def respell (piece : Piece) : Role → List Char
  | .leaf content => content.source.toList
  | .opening header => header.source.toList
  | .ending scope => scope.endTag.toList
  | .plain => piece.source
  | .kept => piece.source
  | .faulty => piece.source

end Role

namespace Piece

def roles (scopes : List Scope) : List Piece → List (Piece × Role)
  | [] => []
  | piece :: rest =>
      let role := Role.ofPiece scopes.head? piece
      (piece, role) :: roles (role.scopesAfter scopes) rest

def openScopes (scopes : List Scope) : List Piece → List Scope
  | [] => scopes
  | piece :: rest =>
      openScopes ((Role.ofPiece scopes.head? piece).scopesAfter scopes) rest

end Piece

namespace Template

def openScopes (source : String) : List Scope :=
  Piece.openScopes [] (Piece.cut source.toList)

/-- The canonical source, piece by piece, with the end tags that are missing. -/
def respell (source : String) : String :=
  String.ofList
    ((Piece.roles [] (Piece.cut source.toList)).flatMap fun (piece, role) =>
      role.respell piece) ++
    String.join ((openScopes source).map Scope.endTag)

end Template

end TemplateTree
