import TemplateTree.Delimiter
import TemplateTree.Node.Basic
import TemplateTree.Outcome
import TemplateTree.Tag

namespace TemplateTree

/-- What a tag does to the scope in which it stands. -/
inductive Effect where
  | adds (nodes : Template)
  | enters (header : Header)
  | leaves
deriving DecidableEq

namespace Effect

def keptAsText (record : Record) (source : List Char) : Outcome Effect := do
  Outcome.note record
  return .adds (.ofText source)

/-- The effect of a statement tag inside `scope`, given its trimmed body, its
source and the position behind it. -/
def ofTag (scope : Option Scope) (body source : List Char) (position : Nat) :
    Tag → Outcome Effect
  | .leaf content => return .adds [.leaf content]
  | .opens header => do
      Outcome.note (.scopeEntered header.scope position)
      return .enters header
  | .closes closed =>
      if scope = some closed then return .leaves
      else keptAsText (.orphanedEnd closed) source
  | .loopWithoutIn =>
      keptAsText (.loopWithoutIn (String.ofList body)) source
  | .unrecognized =>
      keptAsText (.unrecognized (String.ofList body)) source

def ofStatement (scope : Option Scope) (inside : List Char) (position : Nat) :
    Outcome Effect := do
  let body := Text.trim inside
  Outcome.note (.statementTag (String.ofList (Tag.keyword body)) position)
  let tag ← Outcome.ofExcept (Tag.ofBody body)
  ofTag scope body (Delimiter.statement.wrap inside) position tag

def ofExpression (inside : List Char) : Effect :=
  .adds [.leaf (.ofExpression (Text.trim inside))]

def ofInside (scope : Option Scope) (delimiter : Delimiter)
    (inside : List Char) (position : Nat) : Outcome Effect :=
  match delimiter with
  | .statement => ofStatement scope inside position
  | .expression => return ofExpression inside

theorem ofInside_ne_leaves (delimiter : Delimiter) (inside : List Char)
    (position : Nat) :
    (ofInside none delimiter inside position).result ≠ .ok .leaves := by
  cases delimiter with
  | expression => simp [ofInside, ofExpression, Pure.pure, Outcome.ok]
  | statement =>
      simp only [ofInside, ofStatement, Bind.bind, Outcome.bind, Outcome.note,
        Outcome.ofExcept]
      rcases Tag.ofBody (Text.trim inside) with error | tag
      · simp
      · cases tag <;>
          simp [ofTag, keptAsText, Pure.pure, Outcome.ok, Bind.bind,
            Outcome.bind, Outcome.note]

end Effect

end TemplateTree
