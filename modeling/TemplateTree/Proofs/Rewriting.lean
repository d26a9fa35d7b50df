import TemplateTree.Node.Replacement
import TemplateTree.Proofs.Visible

namespace TemplateTree

/-! What a walk does is told by its calls: one for each position, with what the visitor is given
there and what it answers. -/

/-- A call of a visitor: the node it is given, and the node it answers with. -/
structure Call where
  given : Node
  answer : Node

variable {σ : Type} {visit : Node → StateM σ Node} {before middle after : σ}

/-- Calls that are made one after another, each with the state that the one before left. -/
inductive Calls (visit : Node → StateM σ Node) : σ → List Call → σ → Prop
  | nil {state : σ} : Calls visit state [] state
  | cons {before middle after : σ} {call : Call} {later : List Call}
      (made : (visit call.given).run before = (call.answer, middle))
      (rest : Calls visit middle later after) :
      Calls visit before (call :: later) after

theorem Calls.append {first later : List Call} (left : Calls visit before first middle)
    (right : Calls visit middle later after) :
    Calls visit before (first ++ later) after := by
  induction left with
  | nil => exact right
  | cons made _ ih => exact .cons made (ih right)

/-- A node as a visitor is given it: a block holds the answers for its children in their
place, and any other node is as it was. -/
def Node.withAnswers (answer : Nat → Node) : Node → Node
  | .scope (.block name) children =>
      .scope (.block name) ((List.range children.length).map answer)
  | node => node

theorem Node.withAnswers_of_asBlock? {node : Node} {answer : Nat → Node}
    (notBlock : node.asBlock? = none) : node.withAnswers answer = node := by
  cases node with
  | leaf content => rfl
  | scope header children =>
      cases header with
      | block name => cases notBlock
      | _ => rfl

/-- At every position where a node is found, the visitor is given this node. -/
def HandedOver (find : Position → Option Node) (calls : Position → Call) : Prop :=
  ∀ position node, find position = some node →
    (calls position).given =
      node.withAnswers fun index => (calls (position ++ [index])).answer

namespace Position

def closed (inner : Position → Call) (last : Call) : Position → Call
  | [] => last
  | index :: inside => inner (index :: inside)

def joined (first rest : Position → Call) : Position → Call
  | [] => rest []
  | 0 :: inside => first inside
  | (index + 1) :: inside => rest (index :: inside)

theorem joined_next (first rest : Position → Call) (position : Position) :
    joined first rest position.next = rest position := by
  cases position <;> rfl

end Position

theorem run_bind_of_run {α β : Type} {first : StateM σ α} {value : α} {next : α → StateM σ β}
    (made : first.run before = (value, middle)) :
    (first >>= next).run before = (next value).run middle := by
  rw [StateT.run_bind, made]
  rfl

theorem Node.exists_call {node : Node} (visit : Node → StateM σ Node) (before : σ)
    (notBlock : node.asBlock? = none) :
    ∃ calls after, Calls visit before (node.positions.map calls) after ∧
      (node.rewriteM visit).run before = ((calls []).answer, after) ∧
      HandedOver node.visibleAt? calls := by
  rcases made : (visit node).run before with ⟨answer, after⟩
  have alone : node.positions = [[]] ∧ node.rewriteM visit = visit node := by
    cases node with
    | leaf content => exact ⟨rfl, rfl⟩
    | scope header children =>
        cases header with
        | block name => cases notBlock
        | _ => exact ⟨rfl, rfl⟩
  refine ⟨fun _ => ⟨node, answer⟩, after, ?_, ?_, ?_⟩
  · rw [alone.1]
    exact .cons made .nil
  · rw [alone.2, made]
  · intro position inner found
    cases position with
    | nil =>
        cases found
        exact (Node.withAnswers_of_asBlock? notBlock).symm
    | cons index inside =>
        rw [Node.visibleAt?, notBlock] at found
        cases found

mutual

theorem Node.exists_calls (visit : Node → StateM σ Node) (node : Node) (before : σ) :
    ∃ calls after, Calls visit before (node.positions.map calls) after ∧
      (node.rewriteM visit).run before = ((calls []).answer, after) ∧
      HandedOver node.visibleAt? calls := by
  cases node with
  | leaf content => exact Node.exists_call visit before rfl
  | scope header children =>
      cases header with
      | loop item collection => exact Node.exists_call visit before rfl
      | capture targets values => exact Node.exists_call visit before rfl
      | autoescape strategy => exact Node.exists_call visit before rfl
      | block name =>
          obtain ⟨inner, middle, innerMade, innerRun, innerGiven⟩ :=
            Template.exists_calls visit children before
          let block : Node := .scope (.block name)
            ((List.range children.length).map fun index => (inner [index]).answer)
          rcases made : (visit block).run middle with ⟨answer, after⟩
          let calls := Position.closed inner ⟨block, answer⟩
          have inChildren : (Template.positions children).map calls =
              (Template.positions children).map inner := by
            refine List.map_congr_left fun position member => ?_
            cases position with
            | nil => exact absurd member (Template.nil_not_mem_positions children)
            | cons index inside => rfl
          refine ⟨calls, after, ?_, ?_, ?_⟩
          · rw [Node.positions, List.map_append, inChildren]
            exact innerMade.append (.cons made .nil)
          · rw [Node.rewriteM, run_bind_of_run innerRun, made]
            rfl
          · intro position node found
            cases position with
            | nil =>
                cases found
                rfl
            | cons index inside => exact innerGiven (index :: inside) node found

theorem Template.exists_calls (visit : Node → StateM σ Node) (template : Template)
    (before : σ) :
    ∃ calls after, Calls visit before (template.positions.map calls) after ∧
      (template.rewriteM visit).run before =
        ((List.range template.length).map fun index => (calls [index]).answer, after) ∧
      HandedOver template.visibleAt? calls := by
  cases template with
  | nil =>
      refine ⟨fun _ => ⟨.leaf .parent, .leaf .parent⟩, before, .nil, rfl, ?_⟩
      intro position node found
      cases position with
      | nil => cases found
      | cons index inside =>
          rw [Template.visibleAt?_cons] at found
          cases found
  | cons node rest =>
      obtain ⟨first, middle, firstMade, firstRun, firstGiven⟩ :=
        Node.exists_calls visit node before
      obtain ⟨later, after, laterMade, laterRun, laterGiven⟩ :=
        Template.exists_calls visit rest middle
      let calls := Position.joined first later
      have inRest : (Template.positions rest).map (calls ∘ Position.next) =
          (Template.positions rest).map later :=
        List.map_congr_left fun position _ => Position.joined_next first later position
      refine ⟨calls, after, ?_, ?_, ?_⟩
      · rw [Template.positions, List.map_append, List.map_map, List.map_map, inRest]
        exact firstMade.append laterMade
      · rw [Template.rewriteM, run_bind_of_run firstRun, run_bind_of_run laterRun,
          List.length_cons, List.range_succ_eq_map, List.map_cons, List.map_map]
        rfl
      · intro position inner found
        cases position with
        | nil =>
            rw [Template.visibleAt?_nil] at found
            cases found
        | cons index inside =>
            cases index with
            | zero =>
                rw [Template.visibleAt?_first] at found
                exact firstGiven inside inner found
            | succ index =>
                rw [← Position.next, Template.visibleAt?_next] at found
                exact laterGiven (index :: inside) inner found

end

/-- Rewriting calls the visitor once for each visible node, from the inside out, and nowhere
else, and puts its answers in the places of the nodes. -/
theorem Template.rewriteM_visits_inside_out (visit : Node → StateM σ Node) (template : Template)
    (before : σ) :
    template.positions.Nodup ∧ template.positions.Pairwise Position.Before ∧
      (∀ position, position ∈ template.positions ↔ (template.visibleAt? position).isSome) ∧
      ∃ calls after, Calls visit before (template.positions.map calls) after ∧
        HandedOver template.visibleAt? calls ∧
        (template.rewriteM visit).run before =
          ((List.range template.length).map fun index => (calls [index]).answer, after) := by
  obtain ⟨calls, after, made, rewritten, given⟩ := template.exists_calls visit before
  have inOrder := template.pairwise_positions
  refine ⟨inOrder.imp ?_, inOrder, template.mem_positions_iff, calls, after, made,
    given, rewritten⟩
  intro left right earlier same
  exact Position.not_before_self right (same ▸ earlier)

/-- Rewrites with a visitor whose answer depends on the node alone. -/
def Template.rewrite (change : Node → Node) (template : Template) : Template :=
  Id.run (template.rewriteM fun node => pure (change node))

def Node.rewrite (change : Node → Node) (node : Node) : Node :=
  Id.run (node.rewriteM fun inner => pure (change inner))

section Rewrite

variable {change : Node → Node} {node : Node} {rest : Template}

theorem Template.rewrite_cons :
    Template.rewrite change (node :: rest) = node.rewrite change :: rest.rewrite change := rfl

theorem Template.rewrite_eq_map (template : Template) :
    template.rewrite change = template.map (Node.rewrite change) := by
  induction template with
  | nil => rfl
  | cons node rest ih => rw [rewrite_cons, ih, List.map_cons]

theorem Node.rewrite_block {name : String} {children : Template} :
    Node.rewrite change (.scope (.block name) children) =
      change (.scope (.block name) (children.rewrite change)) := rfl

theorem Node.rewrite_of_asBlock? (notBlock : node.asBlock? = none) :
    node.rewrite change = change node := by
  cases node with
  | leaf content => rfl
  | scope header children =>
      cases header with
      | block name => cases notBlock
      | _ => rfl

end Rewrite

mutual

theorem Node.run_rewriteM_fst {change : Node → Node}
    (answers : ∀ node state, ((visit node).run state).1 = change node) (node : Node)
    (before : σ) : ((node.rewriteM visit).run before).1 = node.rewrite change := by
  cases node with
  | leaf content => exact answers _ before
  | scope header children =>
      cases header with
      | block name =>
          have inside := Template.run_rewriteM_fst answers children before
          rcases made : (Template.rewriteM visit children).run before with ⟨rewritten, middle⟩
          rw [made] at inside
          rw [Node.rewriteM, run_bind_of_run made, answers, Node.rewrite_block, ← inside]
      | _ => exact answers _ before

/-- A visitor whose answers do not depend on the state rewrites as it does without one. -/
theorem Template.run_rewriteM_fst {change : Node → Node}
    (answers : ∀ node state, ((visit node).run state).1 = change node) (template : Template)
    (before : σ) : ((template.rewriteM visit).run before).1 = template.rewrite change := by
  cases template with
  | nil => rfl
  | cons node rest =>
      have first := Node.run_rewriteM_fst answers node before
      rcases made : (node.rewriteM visit).run before with ⟨head, middle⟩
      have later := Template.run_rewriteM_fst answers rest middle
      rcases others : (Template.rewriteM visit rest).run middle with ⟨tail, after⟩
      rw [made] at first
      rw [others] at later
      rw [Template.rewriteM, run_bind_of_run made, run_bind_of_run others,
        Template.rewrite_cons, ← first, ← later]
      rfl

end

mutual

theorem Node.rewrite_eq_self {change : Node → Node} (node : Node)
    (unchanged : ∀ inner ∈ node.visible, change inner = inner) :
    node.rewrite change = node := by
  cases node with
  | leaf content => exact unchanged _ List.mem_cons_self
  | scope header children =>
      cases header with
      | block name =>
          obtain ⟨outside, inside⟩ := List.forall_mem_cons.mp unchanged
          rw [Node.rewrite_block, Template.rewrite_eq_self children inside, outside]
      | _ => exact unchanged _ List.mem_cons_self

theorem Template.rewrite_eq_self {change : Node → Node} (template : Template)
    (unchanged : ∀ node ∈ template.visible, change node = node) :
    template.rewrite change = template := by
  cases template with
  | nil => rfl
  | cons node rest =>
      obtain ⟨first, later⟩ := List.forall_mem_append.mp unchanged
      rw [Template.rewrite_cons, Node.rewrite_eq_self node first,
        Template.rewrite_eq_self rest later]

end

section Measure

variable {β : Type} {change : Node → Node} {measure own : Node → List β}

mutual

theorem Node.measure_rewrite
    (alone : ∀ node, node.asBlock? = none → measure (change node) = own node)
    (block : ∀ name children rewritten, measure (change (.scope (.block name) rewritten)) =
      own (.scope (.block name) children) ++ rewritten.flatMap measure)
    (node : Node) : measure (node.rewrite change) = node.visible.flatMap own := by
  cases node with
  | leaf content =>
      rw [Node.rewrite_of_asBlock? rfl, Node.visible_of_asBlock? rfl, List.flatMap_singleton,
        alone _ rfl]
  | scope header children =>
      cases header with
      | block name =>
          have inside := Template.measure_rewrite alone block children
          rw [Node.rewrite_block, block name children, inside, Node.visible, List.flatMap_cons]
      | _ =>
          rw [Node.rewrite_of_asBlock? rfl, Node.visible_of_asBlock? rfl,
            List.flatMap_singleton, alone _ rfl]

/-- What a rewritten template amounts to is collected from the visible nodes, when a block
adds something of its own to what its rewritten children amount to. -/
theorem Template.measure_rewrite
    (alone : ∀ node, node.asBlock? = none → measure (change node) = own node)
    (block : ∀ name children rewritten, measure (change (.scope (.block name) rewritten)) =
      own (.scope (.block name) children) ++ rewritten.flatMap measure)
    (template : Template) :
    (template.rewrite change).flatMap measure = template.visible.flatMap own := by
  cases template with
  | nil => rfl
  | cons node rest =>
      have first := Node.measure_rewrite alone block node
      have later := Template.measure_rewrite alone block rest
      rw [Template.rewrite_cons, List.flatMap_cons, Template.visible, List.flatMap_append, first,
        later]

end

end Measure

end TemplateTree
