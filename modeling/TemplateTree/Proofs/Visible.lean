import TemplateTree.Node.Query

namespace TemplateTree

theorem Node.eq_of_asBlock? {node : Node} {block : Block}
    (isBlock : node.asBlock? = some block) :
    node = .scope (.block block.name) block.children := by
  cases node with
  | leaf content => cases isBlock
  | scope header children =>
      cases header with
      | block name =>
          cases isBlock
          rfl
      | _ => cases isBlock

mutual

theorem Node.findOnto_eq (test : Node → Bool) (node : Node) (tail : List Node) :
    node.findOnto test tail = node.visible.filter test ++ tail := by
  cases node with
  | leaf content =>
      simp only [Node.findOnto, Node.visible, List.filter_cons, List.filter_nil]
      split <;> rfl
  | scope header children =>
      cases header with
      | block name =>
          have inside := Template.findOnto_eq test children tail
          simp only [Node.findOnto, Node.visible, List.filter_cons, inside]
          split <;> rfl
      | _ =>
          simp only [Node.findOnto, Node.visible, List.filter_cons, List.filter_nil]
          split <;> rfl

theorem Template.findOnto_eq (test : Node → Bool) (template : Template) (tail : List Node) :
    template.findOnto test tail = template.visible.filter test ++ tail := by
  cases template with
  | nil => rfl
  | cons node rest =>
      have later := Template.findOnto_eq test rest tail
      have first := Node.findOnto_eq test node ((Template.visible rest).filter test ++ tail)
      rw [Template.findOnto, later, first, Template.visible, List.filter_append,
        List.append_assoc]

end

theorem Template.find_eq_filter_visible (test : Node → Bool) (template : Template) :
    template.find test = template.visible.filter test := by
  rw [find, findOnto_eq, List.append_nil]

theorem Node.visible_of_asBlock? {node : Node} (notBlock : node.asBlock? = none) :
    node.visible = [node] := by
  cases node with
  | leaf content => rfl
  | scope header children =>
      cases header with
      | block name => cases notBlock
      | _ => rfl

theorem Template.visible_of_asBlock? {template : Template}
    (noBlock : ∀ node ∈ template, node.asBlock? = none) : template.visible = template := by
  induction template with
  | nil => rfl
  | cons node rest ih =>
      obtain ⟨first, others⟩ := List.forall_mem_cons.mp noBlock
      rw [Template.visible, Node.visible_of_asBlock? first, ih others]
      rfl

theorem Node.mem_visible (node : Node) : node ∈ node.visible := by
  cases node with
  | leaf content => exact List.mem_cons_self
  | scope header children => cases header <;> exact List.mem_cons_self

theorem Template.mem_visible {template : Template} {node : Node} (member : node ∈ template) :
    node ∈ template.visible := by
  induction template with
  | nil => exact absurd member List.not_mem_nil
  | cons first rest ih =>
      rw [visible]
      rcases List.mem_cons.mp member with rfl | later
      · exact List.mem_append_left _ (Node.mem_visible _)
      · exact List.mem_append_right _ (ih later)

abbrev Position := List Nat

namespace Position

/-- From the inside out: what stands in a block comes before the block, and neighbours come
in their order. -/
def Before : Position → Position → Prop
  | [], _ => False
  | _ :: _, [] => True
  | first :: inside, second :: other =>
      first < second ∨ first = second ∧ Before inside other

instance decidableBefore : (left right : Position) → Decidable (Before left right)
  | [], _ => isFalse id
  | _ :: _, [] => isTrue trivial
  | _ :: inside, _ :: other =>
      have := decidableBefore inside other
      inferInstanceAs (Decidable (_ ∨ _ ∧ _))

/-- The same place when one more node stands in front of the outermost nodes. -/
def next : Position → Position
  | [] => []
  | index :: inside => (index + 1) :: inside

theorem next_eq_nil_iff {position : Position} : position.next = [] ↔ position = [] := by
  cases position <;> simp [next]

theorem next_eq_cons_iff {position inside : Position} {index : Nat} :
    position.next = index :: inside ↔
      ∃ previous, index = previous + 1 ∧ position = previous :: inside := by
  cases position with
  | nil => simp [next]
  | cons first others => grind [next]

theorem before_next_iff {left right : Position} :
    Before left.next right.next ↔ Before left right := by
  cases left <;> cases right <;> simp [next, Before]

theorem not_before_self (position : Position) : ¬Before position position := by
  induction position with
  | nil => exact id
  | cons index inside ih => simp [Before, ih]

end Position

/-- The node at a position, if the way to it leads through blocks only. -/
def Template.visibleAt? (template : Template) : Position → Option Node
  | [] => none
  | [index] => template[index]?
  | index :: following :: inside => do
      let node ← template[index]?
      let block ← node.asBlock?
      visibleAt? block.children (following :: inside)

/-- The same inside a node, which itself stands at the empty position. -/
def Node.visibleAt? (node : Node) : Position → Option Node
  | [] => some node
  | index :: inside =>
      node.asBlock?.bind fun block => block.children.visibleAt? (index :: inside)

namespace Template

variable {node : Node} {rest : Template} {inside : Position}

theorem visibleAt?_nil (template : Template) : template.visibleAt? [] = none := by
  cases template <;> rfl

theorem visibleAt?_cons (template : Template) (index : Nat) (inside : Position) :
    template.visibleAt? (index :: inside) =
      template[index]?.bind fun node => node.visibleAt? inside := by
  cases inside with
  | nil => simp [visibleAt?, Node.visibleAt?]
  | cons following inside => rfl

theorem visibleAt?_first :
    visibleAt? (node :: rest) (0 :: inside) = node.visibleAt? inside := by
  rw [visibleAt?_cons, List.getElem?_cons_zero, Option.bind_some]

theorem visibleAt?_next (node : Node) (rest : Template) (position : Position) :
    visibleAt? (node :: rest) position.next = rest.visibleAt? position := by
  cases position with
  | nil => rw [Position.next, visibleAt?_nil, visibleAt?_nil]
  | cons index inside =>
      rw [Position.next, visibleAt?_cons, List.getElem?_cons_succ, ← visibleAt?_cons]

end Template

theorem Node.visibleAt?_of_children {name : String} {children : Template}
    {position : Position} {node : Node} (found : children.visibleAt? position = some node) :
    Node.visibleAt? (.scope (.block name) children) position = some node := by
  cases position with
  | nil =>
      rw [Template.visibleAt?_nil] at found
      cases found
  | cons index inside => exact found

mutual

def Node.positions : Node → List Position
  | .scope (.block _) children => Template.positions children ++ [[]]
  | _ => [[]]

def Template.positions : Template → List Position
  | [] => []
  | node :: rest =>
      node.positions.map (0 :: ·) ++ (Template.positions rest).map Position.next

end

mutual

theorem Node.mem_positions_iff (node : Node) (position : Position) :
    position ∈ node.positions ↔ (node.visibleAt? position).isSome := by
  cases node with
  | leaf content => cases position <;> simp [Node.positions, Node.visibleAt?, Node.asBlock?]
  | scope header children =>
      cases header with
      | block name =>
          have inChildren := Template.mem_positions_iff children position
          cases position with
          | nil => simp [Node.positions, Node.visibleAt?]
          | cons index inside =>
              simpa [Node.positions, Node.visibleAt?, Node.asBlock?] using inChildren
      | _ => cases position <;> simp [Node.positions, Node.visibleAt?, Node.asBlock?]

theorem Template.mem_positions_iff (template : Template) (position : Position) :
    position ∈ template.positions ↔ (template.visibleAt? position).isSome := by
  cases template with
  | nil => cases position <;> simp [Template.positions, Template.visibleAt?_nil,
      Template.visibleAt?_cons]
  | cons node rest =>
      have inRest := Template.mem_positions_iff rest
      cases position with
      | nil => simp [Template.positions, Position.next_eq_nil_iff, inRest,
          Template.visibleAt?_nil]
      | cons index inside =>
          cases index with
          | zero =>
              have inNode := Node.mem_positions_iff node inside
              simp [Template.positions, Position.next_eq_cons_iff, inNode,
                Template.visibleAt?_first]
          | succ index =>
              have later := Template.visibleAt?_next node rest (index :: inside)
              rw [Position.next] at later
              simp [Template.positions, Position.next_eq_cons_iff, inRest, later]

end

theorem Template.nil_not_mem_positions (template : Template) : [] ∉ template.positions := by
  rw [Template.mem_positions_iff, Template.visibleAt?_nil]
  simp

mutual

theorem Node.pairwise_positions (node : Node) :
    node.positions.Pairwise Position.Before := by
  cases node with
  | leaf content => simp [Node.positions]
  | scope header children =>
      cases header with
      | block name =>
          refine List.pairwise_append.mpr
            ⟨Template.pairwise_positions children, List.pairwise_singleton _ _, ?_⟩
          intro inner member outer isLast
          rw [List.mem_singleton.mp isLast]
          cases inner with
          | nil => exact absurd member (Template.nil_not_mem_positions children)
          | cons index inside => trivial
      | _ => simp [Node.positions]

/-- The positions come from the inside out, so none comes twice. -/
theorem Template.pairwise_positions (template : Template) :
    template.positions.Pairwise Position.Before := by
  cases template with
  | nil => exact List.Pairwise.nil
  | cons node rest =>
      have inNode := Node.pairwise_positions node
      have inRest := Template.pairwise_positions rest
      refine List.pairwise_append.mpr ⟨?_, ?_, ?_⟩
      · simpa [List.pairwise_map, Position.Before] using inNode
      · simpa [List.pairwise_map, Position.before_next_iff] using inRest
      · intro left inLeft right inRight
        obtain ⟨inside, _, rfl⟩ := List.mem_map.mp inLeft
        obtain ⟨other, isOther, rfl⟩ := List.mem_map.mp inRight
        cases other with
        | nil => exact absurd isOther (Template.nil_not_mem_positions rest)
        | cons index others => exact Or.inl (Nat.succ_pos index)

end

/-- The nodes in the loop are not visible, and the block comes after its children. -/
example :
    Template.positions
        [.scope (.block "a") [.leaf .parent, .scope (.loop "i" "rows") [.leaf .parent]],
          .leaf (.text "b")] =
      [[0, 0], [0, 1], [0], [1]] := by decide

end TemplateTree
