import TemplateTree.Proofs.Rewriting

namespace TemplateTree

/-! Whether a block delegates is asked when its children are already rewritten, and by a search
that goes into the blocks among them.  Both come to the same as looking at the children the
block had: a block among them counts as content whether or not it has been replaced. -/

/-- Apart from whitespace, the content of the parent block is the only child. -/
def HoldsParentAlone (children : Template) : Prop :=
  ∃ before after, children = before ++ .leaf .parent :: after ∧
    ∀ child ∈ before ++ after, ∃ run, child = .leaf (.whitespace run)

theorem holdsParentAlone_iff {children : Template} :
    HoldsParentAlone children ↔
      children.filter (fun child => !child.isWhitespace) = [.leaf .parent] := by
  simp only [List.filter_eq_cons_iff, List.filter_eq_nil_iff, HoldsParentAlone,
    ← Node.isWhitespace_iff, List.forall_mem_append]
  constructor
  · rintro ⟨before, after, whole, inFront, behind⟩
    exact ⟨before, after, whole, by simpa using inFront, rfl, by simpa using behind⟩
  · rintro ⟨before, after, whole, inFront, _, behind⟩
    exact ⟨before, after, whole, by simpa using inFront, by simpa using behind⟩

instance (children : Template) : Decidable (HoldsParentAlone children) :=
  decidable_of_iff _ holdsParentAlone_iff.symm

theorem HoldsParentAlone.asBlock?_eq_none {children : Template} {child : Node}
    (alone : HoldsParentAlone children) (member : child ∈ children) :
    child.asBlock? = none := by
  obtain ⟨before, after, rfl, white⟩ := alone
  rw [List.mem_append, List.mem_cons] at member
  rcases member with inFront | rfl | behind
  · obtain ⟨run, rfl⟩ := white child (List.mem_append_left _ inFront)
    rfl
  · rfl
  · obtain ⟨run, rfl⟩ := white child (List.mem_append_right _ behind)
    rfl

/-- The search for content goes into blocks, but then it has found a block already. -/
theorem Block.delegatesToParent_iff {block : Block} :
    block.delegatesToParent = true ↔ HoldsParentAlone block.children := by
  have searched : block.delegatesToParent = true ↔
      HoldsParentAlone block.children.visible := by
    rw [delegatesToParent, beq_iff_eq, Template.withoutWhitespace,
      Template.find_eq_filter_visible, holdsParentAlone_iff]
  rw [searched]
  constructor
  · intro alone
    have noBlock : ∀ child ∈ block.children, child.asBlock? = none :=
      fun child member => alone.asBlock?_eq_none (Template.mem_visible member)
    rwa [Template.visible_of_asBlock? noBlock] at alone
  · intro alone
    rwa [Template.visible_of_asBlock? fun child => alone.asBlock?_eq_none]

namespace Replacement

variable {name : String} {children : Template} {node : Node}

theorem delegate_block :
    delegate (.scope (.block name) children) =
      if HoldsParentAlone children then blockCall name else .scope (.block name) children := by
  simp only [delegate, Node.asBlock?, Block.delegatesToParent_iff]

theorem delegate_of_asBlock? (notBlock : node.asBlock? = none) : delegate node = node := by
  rw [delegate, notBlock]

end Replacement

open Replacement

/-- Every visible block that delegates to its parent becomes a call of the block. -/
def Template.delegated (template : Template) : Template := template.rewrite delegate

def Node.delegated (node : Node) : Node := node.rewrite delegate

theorem Template.delegated_eq_map (template : Template) :
    template.delegated = template.map Node.delegated := template.rewrite_eq_map

theorem Node.delegated_of_asBlock? {node : Node} (notBlock : node.asBlock? = none) :
    node.delegated = node := by
  rw [delegated, rewrite_of_asBlock? notBlock, delegate_of_asBlock? notBlock]

theorem Node.isWhitespace_delegated (node : Node) :
    node.delegated.isWhitespace = node.isWhitespace := by
  cases node with
  | leaf content => rfl
  | scope header children =>
      cases header with
      | block name =>
          rw [delegated, rewrite_block, delegate_block]
          split <;> rfl
      | _ => rfl

theorem Node.delegated_eq_parent_iff {node : Node} :
    node.delegated = .leaf .parent ↔ node = .leaf .parent := by
  cases node with
  | leaf content => rfl
  | scope header children =>
      cases header with
      | block name =>
          rw [delegated, rewrite_block, delegate_block]
          split <;> simp [blockCall]
      | _ => rfl

/-- What is replaced inside a block has no say in whether the block is replaced. -/
theorem holdsParentAlone_delegated_iff {children : Template} :
    HoldsParentAlone children.delegated ↔ HoldsParentAlone children := by
  have sameTest : ((fun child : Node => !child.isWhitespace) ∘ Node.delegated) =
      fun child => !child.isWhitespace :=
    funext fun child => congrArg (!·) child.isWhitespace_delegated
  rw [holdsParentAlone_iff, Template.delegated_eq_map, List.filter_map, sameTest,
    List.map_eq_singleton_iff, holdsParentAlone_iff]
  simp only [Node.delegated_eq_parent_iff, exists_eq_right]

theorem Node.delegated_block (name : String) (children : Template) :
    Node.delegated (.scope (.block name) children) =
      if HoldsParentAlone children then blockCall name
      else .scope (.block name) children.delegated := by
  rw [delegated, rewrite_block, delegate_block, ← Template.delegated]
  simp only [holdsParentAlone_delegated_iff]

theorem Node.not_delegatesToParent_of_delegated {node : Node} {block : Block}
    (isBlock : node.delegated.asBlock? = some block) : ¬block.delegatesToParent := by
  rw [Block.delegatesToParent_iff]
  cases node with
  | leaf content => cases isBlock
  | scope header children =>
      cases header with
      | block name =>
          rw [delegated_block] at isBlock
          split at isBlock
          · cases isBlock
          · rename_i notAlone
            cases isBlock
            rwa [holdsParentAlone_delegated_iff]
      | _ => cases isBlock

mutual

theorem Node.delegated_delegated (node : Node) : node.delegated.delegated = node.delegated := by
  cases node with
  | leaf content => rfl
  | scope header children =>
      cases header with
      | block name =>
          have inside := Template.delegated_delegated children
          rw [Node.delegated_block]
          split
          · rfl
          · rename_i notAlone
            rw [← holdsParentAlone_delegated_iff] at notAlone
            rw [Node.delegated_block, if_neg notAlone, inside]
      | _ => rfl

theorem Template.delegated_delegated (template : Template) :
    template.delegated.delegated = template.delegated := by
  cases template with
  | nil => rfl
  | cons node rest =>
      have first := Node.delegated_delegated node
      have later := Template.delegated_delegated rest
      simp only [Template.delegated_eq_map, List.map_cons] at later ⊢
      rw [first, later]

end

namespace Template

variable {template : Template} {position inside : Position} {index : Nat} {node : Node}

theorem visibleAt?_delegated_cons (template : Template) (index : Nat) (inside : Position) :
    template.delegated.visibleAt? (index :: inside) =
      template[index]?.bind fun node => node.delegated.visibleAt? inside := by
  rw [visibleAt?_cons, delegated_eq_map, List.getElem?_map, Option.bind_map]
  rfl

theorem exists_of_visibleAt?_delegated
    (found : template.delegated.visibleAt? position = some node) :
    ∃ original, template.visibleAt? position = some original ∧
      node = original.delegated := by
  induction position generalizing template with
  | nil =>
      rw [visibleAt?_nil] at found
      cases found
  | cons index inside ih =>
      rw [visibleAt?_delegated_cons] at found
      obtain ⟨outer, isOuter, inOuter⟩ := Option.bind_eq_some_iff.mp found
      rw [visibleAt?_cons, isOuter, Option.bind_some]
      cases inside with
      | nil =>
          cases inOuter
          exact ⟨outer, rfl, rfl⟩
      | cons following inside =>
          cases isBlock : outer.asBlock? with
          | none =>
              rw [Node.delegated_of_asBlock? isBlock, Node.visibleAt?, isBlock] at inOuter
              cases inOuter
          | some block =>
              obtain ⟨name, children⟩ := block
              rw [Node.eq_of_asBlock? isBlock, Node.delegated_block] at inOuter
              split at inOuter
              · cases inOuter
              · rw [Node.visibleAt?, isBlock]
                exact ih inOuter

/-- What stood in a block that was replaced is gone, and nothing else. -/
theorem visibleAt?_delegated (found : template.visibleAt? position = some node) :
    template.delegated.visibleAt? position = some node.delegated ∨
      ∃ name children,
        template.visibleAt? position.dropLast = some (.scope (.block name) children) ∧
          HoldsParentAlone children ∧ node ∈ children := by
  induction position generalizing template with
  | nil =>
      rw [visibleAt?_nil] at found
      cases found
  | cons index inside ih =>
      rw [visibleAt?_cons] at found
      obtain ⟨outer, isOuter, inOuter⟩ := Option.bind_eq_some_iff.mp found
      rw [visibleAt?_delegated_cons, isOuter, Option.bind_some]
      cases inside with
      | nil =>
          cases inOuter
          exact Or.inl rfl
      | cons following inside =>
          rw [Node.visibleAt?] at inOuter
          obtain ⟨⟨name, children⟩, isBlock, inBlock⟩ := Option.bind_eq_some_iff.mp inOuter
          rw [Node.eq_of_asBlock? isBlock, Node.delegated_block]
          have outside := Node.eq_of_asBlock? isBlock
          by_cases alone : HoldsParentAlone children
          · rw [visibleAt?_cons] at inBlock
            obtain ⟨child, isChild, inChild⟩ := Option.bind_eq_some_iff.mp inBlock
            have member := List.mem_of_getElem? isChild
            cases inside with
            | nil =>
                cases inChild
                exact Or.inr ⟨name, children, by rw [← outside]; exact isOuter, alone, member⟩
            | cons deeper inside =>
                rw [Node.visibleAt?, alone.asBlock?_eq_none member] at inChild
                cases inChild
          · rw [if_neg alone]
            rcases ih inBlock with kept | gone
            · exact Or.inl kept
            · obtain ⟨inner, others, found, rest⟩ := gone
              refine Or.inr ⟨inner, others, ?_, rest⟩
              rw [List.dropLast_cons_of_ne_nil (List.cons_ne_nil _ _), visibleAt?_cons, isOuter,
                Option.bind_some, outside]
              exact Node.visibleAt?_of_children found

/-- Blocks that delegate to their parent are replaced, whatever stands inside other blocks,
and everything else stays where and as it is. -/
theorem delegated_complete_and_idempotent (template : Template) :
    (∀ position name children,
        template.delegated.visibleAt? position = some (.scope (.block name) children) →
          ¬Block.delegatesToParent ⟨name, children⟩) ∧
      template.delegated.delegated = template.delegated ∧
      (∀ position name children,
        template.visibleAt? position = some (.scope (.block name) children) →
          template.delegated.visibleAt? position =
            some (if HoldsParentAlone children then blockCall name
              else .scope (.block name) (delegated children))) ∧
      (∀ position node, template.visibleAt? position = some node → node.asBlock? = none →
        template.delegated.visibleAt? position = some node ∨
          ∃ name children,
            template.visibleAt? position.dropLast = some (.scope (.block name) children) ∧
              HoldsParentAlone children) ∧
      ∀ position, template.visibleAt? position = none →
        template.delegated.visibleAt? position = none := by
  refine ⟨?_, template.delegated_delegated, ?_, ?_, ?_⟩
  · intro position name children found
    obtain ⟨original, _, replaced⟩ := exists_of_visibleAt?_delegated found
    exact Node.not_delegatesToParent_of_delegated (by rw [← replaced]; rfl)
  · intro position name children found
    rcases visibleAt?_delegated found with kept | gone
    · rw [kept, Node.delegated_block]
    · obtain ⟨outer, others, _, alone, member⟩ := gone
      have notBlock := alone.asBlock?_eq_none member
      cases notBlock
  · intro position node found notBlock
    rcases visibleAt?_delegated found with kept | gone
    · rw [kept, Node.delegated_of_asBlock? notBlock]
      exact Or.inl rfl
    · obtain ⟨name, children, isOuter, alone, _⟩ := gone
      exact Or.inr ⟨name, children, isOuter, alone⟩
  · intro position unseen
    cases found : template.delegated.visibleAt? position with
    | none => rfl
    | some node =>
        obtain ⟨original, seen, _⟩ := exists_of_visibleAt?_delegated found
        rw [unseen] at seen
        cases seen

/-- The inner block delegates, and the outer one has it for content. -/
example :
    delegated [.scope (.block "a") [.leaf (.whitespace " "), .scope (.block "b") [.leaf .parent]]] =
      [.scope (.block "a") [.leaf (.whitespace " "), blockCall "b"]] := by decide

end Template

end TemplateTree
