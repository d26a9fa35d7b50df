import TemplateTree.Piece.Role
import TemplateTree.Proofs.Stack

namespace TemplateTree

/-! A tree as the sequence of what is met on a walk through it, where a scope is met twice.
The walk determines the tree (`Template.eq_of_events`), and `Template.parse_eq_ok_iff_events`
reduces statements about reading to statements about flat lists. -/

inductive Event where
  | leaf (content : Leaf)
  | opening (header : Header)
  | ending (scope : Scope)
deriving DecidableEq

def Event.source : Event → List Char
  | .leaf content => content.source.toList
  | .opening header => header.source.toList
  | .ending scope => scope.endTag.toList

mutual

def Node.events : Node → List Event
  | .leaf content => [.leaf content]
  | .scope header children =>
      .opening header :: (Template.events children ++ [.ending header.scope])

def Template.events : Template → List Event
  | [] => []
  | node :: rest => node.events ++ Template.events rest

end

namespace Template

theorem events_append (left right : Template) :
    Template.events (left ++ right) =
      Template.events left ++ Template.events right := by
  induction left with
  | nil => rfl
  | cons node rest ih =>
      simp only [List.cons_append, events, ih, List.append_assoc]

theorem events_singleton (node : Node) :
    Template.events [node] = node.events := by
  simp only [events, List.append_nil]

end Template

def Node.first : Node → Event
  | .leaf content => .leaf content
  | .scope header _ => .opening header

def Node.last : Node → Event
  | .leaf content => .leaf content
  | .scope header _ => .ending header.scope

theorem Node.head?_events (node : Node) : node.events.head? = some node.first := by
  cases node with
  | leaf content => rfl
  | scope header children => rfl

theorem Node.getLast?_events (node : Node) :
    node.events.getLast? = some node.last := by
  cases node with
  | leaf content => rfl
  | scope header children =>
      rw [Node.events, ← List.cons_append, List.getLast?_concat, Node.last]

namespace Template

theorem head?_events (template : Template) :
    template.events.head? = template.head?.map Node.first := by
  cases template with
  | nil => rfl
  | cons node rest =>
      have nonempty : node.events ≠ [] := by
        intro empty
        have first := node.head?_events
        rw [empty] at first
        cases first
      rw [Template.events, List.head?_append_of_ne_nil _ nonempty, node.head?_events]
      rfl

theorem getLast?_events (template : Template) :
    template.events.getLast? = template.getLast?.map Node.last := by
  induction template using List.reverseRecOn with
  | nil => rfl
  | append_singleton front node _ =>
      rw [events_append, events_singleton, List.getLast?_append,
        node.getLast?_events, List.getLast?_concat]
      rfl

end Template

mutual

/-- A node and all nodes inside it, at any depth, each scope before its children. -/
def Node.preorder : Node → List Node
  | .leaf content => [.leaf content]
  | .scope header children => .scope header children :: Template.preorder children

def Template.preorder : Template → List Node
  | [] => []
  | node :: rest => node.preorder ++ Template.preorder rest

end

section Counting

variable {test : Event → Bool}

mutual

theorem Node.countP_events (atEnd : ∀ scope, test (.ending scope) = false) (node : Node) :
    node.events.countP test = node.preorder.countP fun inner => test inner.first := by
  cases node with
  | leaf content => simp only [Node.events, Node.preorder, List.countP_singleton, Node.first]
  | scope header children =>
      have inside := Template.countP_events atEnd children
      simp only [Node.events, Node.preorder, List.countP_cons, List.countP_append,
        List.countP_nil, inside, atEnd, Node.first]
      rfl

/-- Each node is met once, apart from the ends of the scopes. -/
theorem Template.countP_events (atEnd : ∀ scope, test (.ending scope) = false)
    (template : Template) :
    template.events.countP test = template.preorder.countP fun node => test node.first := by
  cases template with
  | nil => rfl
  | cons node rest =>
      rw [Template.events, Template.preorder, List.countP_append, List.countP_append,
        Node.countP_events atEnd node, Template.countP_events atEnd rest]

end

end Counting

mutual

theorem Node.toList_source (node : Node) :
    node.source.toList = node.events.flatMap Event.source := by
  cases node with
  | leaf content => simp [Node.source, Node.events, Event.source]
  | scope header children =>
      rw [Node.source_scope, String.toList_append, String.toList_append,
        Template.toList_source children]
      simp [Node.events, Event.source]

theorem Template.toList_source (template : Template) :
    template.source.toList = template.events.flatMap Event.source := by
  cases template with
  | nil => rfl
  | cons node rest =>
      rw [Template.source_cons, String.toList_append, Node.toList_source node,
        Template.toList_source rest, Template.events, List.flatMap_append]

end

namespace Stack

/-- The stack after one more step of a walk through a tree. -/
def replay (stack : Stack) : Event → Stack
  | .leaf content => stack.put [.leaf content]
  | .opening header => stack.push header
  | .ending _ => stack.pop

theorem put_append (stack : Stack) (left right : Template) :
    stack.put (left ++ right) = (stack.put left).put right := by
  simp only [put, List.append_assoc]

end Stack

mutual

theorem Node.foldl_replay (node : Node) (stack : Stack) :
    node.events.foldl Stack.replay stack = stack.put [node] := by
  cases node with
  | leaf content => rfl
  | scope header children =>
      rw [Node.events, List.foldl_cons, List.foldl_append,
        Template.foldl_replay children]
      rfl

/-- The walk through a tree builds the tree. -/
theorem Template.foldl_replay (template : Template) (stack : Stack) :
    template.events.foldl Stack.replay stack = stack.put template := by
  cases template with
  | nil => simp [Template.events, Stack.put]
  | cons node rest =>
      rw [Template.events, List.foldl_append, Node.foldl_replay node,
        Template.foldl_replay rest, ← Stack.put_append]
      rfl

end

theorem Template.eq_of_events {left right : Template}
    (same : left.events = right.events) : left = right := by
  have built := left.foldl_replay {}
  rw [same, right.foldl_replay {}] at built
  simpa [Stack.put] using congrArg Stack.nodes built.symm

def Frame.events (frame : Frame) : List Event :=
  frame.before.events ++ [.opening frame.header]

namespace Stack

/-- What has been met so far. -/
def events (stack : Stack) : List Event :=
  stack.frames.reverse.flatMap Frame.events ++ stack.nodes.events

theorem events_put (stack : Stack) (nodes : Template) :
    (stack.put nodes).events = stack.events ++ nodes.events := by
  simp only [events, put, Template.events_append, List.append_assoc]

theorem events_push (stack : Stack) (header : Header) :
    (stack.push header).events = stack.events ++ [.opening header] := by
  simp [events, push, Frame.events, Template.events]

theorem scopes_push (stack : Stack) (header : Header) :
    (stack.push header).scopes = header.scope :: stack.scopes := rfl

theorem scopes_pop (stack : Stack) : stack.pop.scopes = stack.scopes.tail := by
  obtain ⟨nodes, _ | ⟨frame, outer⟩⟩ := stack <;> rfl

theorem events_pop (stack : Stack) {scope : Scope}
    (innermost : stack.scopes.head? = some scope) :
    stack.pop.events = stack.events ++ [.ending scope] := by
  obtain ⟨nodes, _ | ⟨frame, outer⟩⟩ := stack
  · simp [scopes] at innermost
  · obtain rfl : frame.header.scope = scope := by simpa [scopes] using innermost
    simp [events, pop, Frame.events, Template.events_append,
      Template.events_singleton, Node.events]

theorem events_finish (stack : Stack) :
    stack.finish.events = stack.events ++ stack.scopes.map Event.ending := by
  obtain ⟨nodes, frames⟩ := stack
  induction frames generalizing nodes with
  | nil => simp [finish, close, events, scopes]
  | cons frame outer ih =>
      have popped := events_pop ⟨nodes, frame :: outer⟩ rfl
      calc
        _ = (pop ⟨nodes, frame :: outer⟩).finish.events := rfl
        _ = _ := by
          rw [pop, ih]
          rw [pop] at popped
          rw [popped]
          simp [scopes]

end Stack

namespace Token

/-- What a token adds to the walk inside `scope`. -/
def events (scope : Option Scope) : Token → List Event
  | .text run => Template.events (.ofText run)
  | .leaf content => [.leaf content]
  | .opens header => [.opening header]
  | .closes closed source =>
      if scope = some closed then [.ending closed]
      else Template.events (.ofText source)

def scopesAfter (scopes : List Scope) : Token → List Scope
  | .text _ => scopes
  | .leaf _ => scopes
  | .opens header => header.scope :: scopes
  | .closes closed _ => if scopes.head? = some closed then scopes.tail else scopes

end Token

namespace Stack

theorem events_step (stack : Stack) (token : Token) :
    (stack.step token).events =
      stack.events ++ token.events stack.scopes.head? := by
  cases token with
  | text run => exact stack.events_put _
  | leaf content => exact stack.events_put _
  | opens header => exact stack.events_push header
  | closes closed source =>
      simp only [step, Token.events]
      split
      · rename_i innermost
        exact stack.events_pop innermost
      · exact stack.events_put _

theorem scopes_step (stack : Stack) (token : Token) :
    (stack.step token).scopes = token.scopesAfter stack.scopes := by
  cases token with
  | text run => rfl
  | leaf content => rfl
  | opens header => exact stack.scopes_push header
  | closes closed source =>
      simp only [step, Token.scopesAfter]
      split
      · exact stack.scopes_pop
      · rfl

end Stack

/-- What the pieces add to the walk through a tree inside the open scopes,
which end behind them. -/
def Piece.events? (scopes : List Scope) : List Piece → Option (List Event)
  | [] => some (scopes.map Event.ending)
  | piece :: rest =>
      piece.token?.bind fun token =>
        (events? (token.scopesAfter scopes) rest).map
          (token.events scopes.head? ++ ·)

theorem Piece.events?_cons {piece : Piece} {token : Token}
    (means : piece.token? = some token) (scopes : List Scope)
    (rest : List Piece) :
    Piece.events? scopes (piece :: rest) =
      (Piece.events? (token.scopesAfter scopes) rest).map
        (token.events scopes.head? ++ ·) := by
  rw [events?, means, Option.bind_some]

theorem Piece.events?_cons_eq_none {piece : Piece} (faulty : piece.token? = none)
    (scopes : List Scope) (rest : List Piece) :
    Piece.events? scopes (piece :: rest) = none := by
  rw [events?, faulty, Option.bind_none]

theorem Stack.events_foldl (stack : Stack) (pieces : List Piece) :
    ((pieces.mapM Piece.token?).map fun tokens =>
        (tokens.foldl Stack.step stack).finish.events) =
      (Piece.events? stack.scopes pieces).map (stack.events ++ ·) := by
  induction pieces generalizing stack with
  | nil =>
      simp only [List.mapM_nil, Piece.events?, Option.pure_def, Option.map_some,
        List.foldl_nil, stack.events_finish]
  | cons piece rest ih =>
      cases means : piece.token? with
      | none =>
          rw [Piece.events?_cons_eq_none means, List.mapM_cons, means]
          rfl
      | some token =>
          have later := ih (stack.step token)
          rw [stack.scopes_step] at later
          rw [Piece.events?_cons means, Option.map_map, List.mapM_cons, means]
          calc
            _ = (rest.mapM Piece.token?).map fun tokens =>
                (tokens.foldl Stack.step (stack.step token)).finish.events := by
              cases rest.mapM Piece.token? <;> rfl
            _ = _ := by
              rw [later, stack.events_step]
              congr 1
              funext events
              simp only [Function.comp_apply, List.append_assoc]

theorem Template.parse_eq_ok_iff_events {source : String}
    {template : Template} :
    Template.parse source = .ok template ↔
      Piece.events? [] (Piece.cut source.toList) = some template.events := by
  have walked := Stack.events_foldl {} (Piece.cut source.toList)
  have same : (Template.stacked? source).map Template.events =
      Piece.events? [] (Piece.cut source.toList) := by
    rw [Template.stacked?, Option.map_map]
    exact walked.trans (by simp [Stack.events, Stack.scopes, Template.events])
  rw [← Outcome.toOption_eq_some_iff, Template.toOption_parse, ← same]
  constructor
  · intro built
    rw [built]
    rfl
  · intro met
    obtain ⟨other, built, walk⟩ := Option.map_eq_some_iff.mp met
    rw [built, Template.eq_of_events walk]

end TemplateTree
