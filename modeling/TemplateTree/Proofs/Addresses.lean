import TemplateTree.Proofs.Events
import TemplateTree.Proofs.Queries

namespace TemplateTree

def Node.at? (node : Node) : Position → Option Node
  | [] => some node
  | index :: inside => node.children?.bind fun children => children.at? (index :: inside)

namespace Template

variable {node : Node} {rest : Template} {inside : Position}

theorem at?_nil (template : Template) : template.at? [] = none := by
  cases template <;> rfl

theorem at?_cons (template : Template) (index : Nat) (inside : Position) :
    template.at? (index :: inside) = template[index]?.bind fun node => node.at? inside := by
  cases inside with
  | nil => simp [at?, Node.at?]
  | cons following inside => rfl

theorem at?_first : at? (node :: rest) (0 :: inside) = node.at? inside := by
  rw [at?_cons, List.getElem?_cons_zero, Option.bind_some]

theorem at?_next (node : Node) (rest : Template) (position : Position) :
    at? (node :: rest) position.next = rest.at? position := by
  cases position with
  | nil => rw [Position.next, at?_nil, at?_nil]
  | cons index inside => rw [Position.next, at?_cons, List.getElem?_cons_succ, ← at?_cons]

end Template

mutual

/-- The nodes with their positions, each scope before its children. -/
def Node.addressed : Node → List (Position × Node)
  | .leaf content => [([], .leaf content)]
  | .scope header children => ([], .scope header children) :: Template.addressed children

def Template.addressed : Template → List (Position × Node)
  | [] => []
  | node :: rest =>
      (node.addressed.map fun (inside, inner) => (0 :: inside, inner)) ++
        (Template.addressed rest).map fun (position, inner) => (position.next, inner)

end

mutual

theorem Node.map_addressed (node : Node) : node.addressed.map Prod.snd = node.preorder := by
  cases node with
  | leaf content => rfl
  | scope header children =>
      rw [Node.addressed, List.map_cons, Template.map_addressed children, Node.preorder]

theorem Template.map_addressed (template : Template) :
    template.addressed.map Prod.snd = template.preorder := by
  cases template with
  | nil => rfl
  | cons node rest =>
      rw [Template.addressed, Template.preorder, ← Node.map_addressed node,
        ← Template.map_addressed rest, List.map_append, List.map_map, List.map_map]
      rfl

end

mutual

theorem Node.mem_addressed_iff (node : Node) (position : Position) (inner : Node) :
    (position, inner) ∈ node.addressed ↔ node.at? position = some inner := by
  cases node with
  | leaf content =>
      cases position <;> simp [Node.addressed, Node.at?, Node.children?, eq_comm]
  | scope header children =>
      have inChildren := Template.mem_addressed_iff children position inner
      cases position with
      | nil => simp [Node.addressed, Node.at?, inChildren, Template.at?_nil, eq_comm]
      | cons index inside => simp [Node.addressed, Node.at?, Node.children?, inChildren]

theorem Template.mem_addressed_iff (template : Template) (position : Position) (inner : Node) :
    (position, inner) ∈ template.addressed ↔ template.at? position = some inner := by
  cases template with
  | nil => cases position <;> simp [Template.addressed, Template.at?_nil, Template.at?_cons]
  | cons node rest =>
      have inRest (position : Position) := Template.mem_addressed_iff rest position inner
      cases position with
      | nil => simp [Template.addressed, Position.next_eq_nil_iff, inRest, Template.at?_nil]
      | cons index inside =>
          cases index with
          | zero =>
              have inNode := Node.mem_addressed_iff node inside inner
              simp [Template.addressed, Position.next_eq_cons_iff, inNode, Template.at?_first]
          | succ index =>
              have later := Template.at?_next node rest (index :: inside)
              rw [Position.next] at later
              simp [Template.addressed, Position.next_eq_cons_iff, inRest, later]

end

theorem Template.exists_cons_of_mem_addressed {template : Template} {position : Position}
    {inner : Node} (listed : (position, inner) ∈ template.addressed) :
    ∃ index inside, position = index :: inside := by
  rw [Template.mem_addressed_iff] at listed
  cases position with
  | nil =>
      rw [Template.at?_nil] at listed
      cases listed
  | cons index inside => exact ⟨index, inside, rfl⟩

mutual

theorem Node.pairwise_addressed (node : Node) :
    (node.addressed.map Prod.fst).Pairwise (· < ·) := by
  cases node with
  | leaf content => exact List.pairwise_singleton _ _
  | scope header children =>
      refine List.pairwise_cons.mpr ⟨fun place member => ?_,
        Template.pairwise_addressed children⟩
      obtain ⟨⟨position, inner⟩, listed, rfl⟩ := List.mem_map.mp member
      obtain ⟨index, inside, rfl⟩ := Template.exists_cons_of_mem_addressed listed
      exact List.nil_lt_cons index inside

/-- The positions come in document order, so none comes twice. -/
theorem Template.pairwise_addressed (template : Template) :
    (template.addressed.map Prod.fst).Pairwise (· < ·) := by
  cases template with
  | nil => exact List.Pairwise.nil
  | cons node rest =>
      have inNode := Node.pairwise_addressed node
      have inRest := Template.pairwise_addressed rest
      rw [Template.addressed, List.map_append, List.map_map, List.map_map]
      refine List.pairwise_append.mpr ⟨?_, ?_, ?_⟩
      · simpa [List.pairwise_map] using inNode
      · simpa [List.pairwise_map, Position.next_lt_next_iff] using inRest
      · intro left inLeft right inRight
        obtain ⟨⟨inside, _⟩, _, rfl⟩ := List.mem_map.mp inLeft
        obtain ⟨⟨position, inner⟩, listed, rfl⟩ := List.mem_map.mp inRight
        obtain ⟨index, others, rfl⟩ := Template.exists_cons_of_mem_addressed listed
        exact List.cons_lt_cons_iff.mpr (Or.inl (Nat.succ_pos index))

end

/-- The block in the loop comes after the loop, which is in another block. -/
example :
    (Template.addressed
        [.scope (.block "a") [.scope (.loop "i" "rows") [.scope (.block "b") []],
          .leaf .parent]]).map Prod.fst =
      [[0], [0, 0], [0, 0, 0], [0, 1]] := by decide

end TemplateTree
