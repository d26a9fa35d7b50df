import TemplateTree.Node.Replacement
import TemplateTree.Reading

namespace TemplateTree

inductive Edit where
  | parse (source : String)
  | append (source : String)
  | load (template : Template)
  | push (node : Node)
  | clear
  | insert (index : Nat) (node : Node)
  | remove (index : Nat)
  /-- The outermost nodes that the filter accepts stay. -/
  | keep (filter : Filter)
  | reparse
deriving DecidableEq

namespace Edit

inductive Failure where
  | unreadable (error : Error)
  | outOfRange
deriving DecidableEq

def apply (template : Template) : Edit → Except Failure Template
  | .parse source => (Template.parse source).mapError .unreadable
  | .append source =>
      ((Template.parse source).mapError .unreadable).map (template ++ ·)
  | .load loaded => .ok loaded
  | .push node => .ok (template ++ [node])
  | .clear => .ok []
  | .insert index node =>
      if index ≤ template.length then .ok (template.insertIdx index node)
      else .error .outOfRange
  | .remove index =>
      if index < template.length then .ok (template.eraseIdx index)
      else .error .outOfRange
  | .keep filter => .ok (template.filter filter.accepts)
  | .reparse => (Template.parse template.source).mapError .unreadable

end Edit

end TemplateTree
