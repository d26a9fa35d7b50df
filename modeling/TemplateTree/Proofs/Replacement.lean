import TemplateTree.Proofs.Delegation
import TemplateTree.Proofs.Queries
import TemplateTree.Proofs.Text.Search

namespace TemplateTree

theorem Filter.accepts_iff {filter : Filter} {node : Node} :
    filter.accepts node = true ↔
      (∀ name ∈ filter.kind, node.kind.name = name) ∧
        (∀ mark ∈ filter.containing, mark.toList <:+: node.source.toList) ∧
        ∀ expected ∈ filter.whitespace,
          (expected = true ↔ ∃ run, node = .leaf (.whitespace run)) := by
  have white (expected : Bool) : (node.isWhitespace == expected) = true ↔
      (expected = true ↔ ∃ run, node = .leaf (.whitespace run)) := by
    rw [beq_iff_eq, ← Node.isWhitespace_iff, Bool.eq_iff_iff]
    exact iff_comm
  simp only [accepts, Bool.and_eq_true, Option.all_eq_true, beq_iff_eq, Text.occurs_iff, white,
    and_assoc, Option.mem_def]

/-- A visitor that keeps the nodes it is given, latest first. -/
def logged (change : Node → Node) (node : Node) : StateM (List Node) Node := do
  modify (node :: ·)
  return change node

theorem Calls.of_logged {change : Node → Node} {before after : List Node} {calls : List Call}
    (made : Calls (logged change) before calls after) :
    after = (calls.map Call.given).reverse ++ before ∧
      ∀ call ∈ calls, call.answer = change call.given := by
  induction made with
  | nil => simp
  | @cons before middle after call later first rest ih =>
      obtain ⟨answer, state⟩ := Prod.mk.inj first
      obtain ⟨whole, answers⟩ := ih
      constructor
      · rw [whole, ← state]
        simp
      · exact List.forall_mem_cons.mpr ⟨answer.symm, answers⟩

namespace Replacement

/-- Nodes that the filter does not accept stay. -/
def within (filter : Filter) (replacement : Replacement) (node : Node) : Node :=
  if filter.accepts node then replacement.apply node else node

end Replacement

def Node.blockName? (node : Node) : Option String := node.asBlock?.map Block.name

/-- What a visible node spells between its tags and outside the visible nodes in it. -/
def Node.ownSource : Node → String
  | .leaf content => content.source
  | .scope (.block _) _ => ""
  | .scope _ children => Template.source children

theorem Template.visible_eq_flatMap (template : Template) :
    template.visible = template.flatMap Node.visible := by
  induction template with
  | nil => rfl
  | cons node rest ih => rw [visible, ih, List.flatMap_cons]

/-- The names of the visible blocks in a node, and its own name before them. -/
def Node.blockNames (node : Node) : List String := node.visible.filterMap Node.blockName?

theorem Node.blockNames_of_asBlock? {node : Node} (notBlock : node.asBlock? = none) :
    node.blockNames = [] := by
  rw [blockNames, visible_of_asBlock? notBlock, List.filterMap_cons_none, List.filterMap_nil]
  rw [blockName?, notBlock, Option.map_none]

theorem Template.blockNames_eq (template : Template) :
    template.blockNames = template.visible.filterMap Node.blockName? := by
  rw [blockNames, blocks_eq, List.map_filterMap]
  rfl

theorem Template.blockNames_eq_flatMap (template : Template) :
    template.blockNames = template.flatMap Node.blockNames := by
  rw [blockNames_eq, visible_eq_flatMap, List.filterMap_flatMap]
  rfl

theorem Node.blockNames_block (name : String) (children : Template) :
    Node.blockNames (.scope (.block name) children) = name :: children.flatMap Node.blockNames := by
  rw [← Template.blockNames_eq_flatMap, Template.blockNames_eq]
  rfl

open Replacement

theorem Replacement.within_rename_of_asBlock? {filter : Filter} {ending : String} {node : Node}
    (notBlock : node.asBlock? = none) : within filter (.rename ending) node = node := by
  have kept : apply (.rename ending) node = node := by
    cases node with
    | leaf content => rfl
    | scope header children =>
        cases header with
        | block name => cases notBlock
        | _ => rfl
  rw [within, kept, ite_self]

namespace Template

variable {template : Template} {filter : Filter} {replacement : Replacement}

theorem replace_eq (template : Template) (filter : Filter) (replacement : Replacement) :
    template.replace filter replacement =
      (((template.rewriteM (logged (replacement.within filter))).run []).1,
        ((template.rewriteM (logged (replacement.within filter))).run []).2.reverse) := rfl

/-- Replacing rewrites with what the replacement makes of a single node. -/
theorem replace_fst : (template.replace filter replacement).1 =
    template.rewrite (replacement.within filter) := by
  rw [replace_eq]
  exact template.run_rewriteM_fst (fun _ _ => rfl) []

/-- The nodes that are visited are those that stand at the positions, from the inside out,
with the replacements for the nodes inside them. -/
theorem replace_calls (template : Template) (filter : Filter) (replacement : Replacement) :
    ∃ calls : Position → Call, HandedOver template.visibleAt? calls ∧
      (∀ position ∈ template.positions,
        (calls position).answer = replacement.within filter (calls position).given) ∧
      template.replace filter replacement =
        ((List.range template.length).map fun index => (calls [index]).answer,
          template.positions.map fun position => (calls position).given) := by
  obtain ⟨calls, after, made, rewritten, given⟩ :=
    template.exists_calls (logged (replacement.within filter)) []
  obtain ⟨visited, answers⟩ := made.of_logged
  refine ⟨calls, given, List.forall_mem_map.mp answers, ?_⟩
  rw [replace_eq, rewritten, visited]
  simp

theorem replace_fst_of_rejected
    (rejected : ∀ node ∈ template.visible, filter.accepts node = false) :
    (template.replace filter replacement).1 = template := by
  rw [replace_fst]
  refine template.rewrite_eq_self fun node member => ?_
  rw [Replacement.within, rejected node member, if_neg Bool.false_ne_true]

theorem replace_same_fst : (template.replace filter .same).1 = template := by
  rw [replace_fst]
  refine template.rewrite_eq_self fun node _ => ?_
  rw [Replacement.within, Replacement.apply, ite_self]

/-- Every block gets the ending, and no other name changes. -/
theorem blockNames_replace_rename {ending : String}
    (blocks : ∀ name children, filter.accepts (.scope (.block name) children) = true) :
    (template.replace filter (.rename ending)).1.blockNames =
      template.blockNames.map (· ++ ending) := by
  have renamed : (template.rewrite (within filter (.rename ending))).blockNames =
      template.visible.flatMap fun node => (node.blockName?.map (· ++ ending)).toList := by
    rw [blockNames_eq_flatMap]
    refine measure_rewrite ?_ ?_ template
    · intro node notBlock
      rw [within_rename_of_asBlock? notBlock, Node.blockNames_of_asBlock? notBlock,
        Node.blockName?, notBlock]
      rfl
    · intro name children rewritten
      rw [within, if_pos (blocks name rewritten), apply, Node.blockNames_block]
      rfl
  rw [replace_fst, renamed, blockNames_eq, List.map_filterMap, List.filterMap_eq_flatMap_toList]

section All

variable (all : ∀ node, filter.accepts node = true)

include all

theorem replace_fst_of_accepts :
    (template.replace filter replacement).1 = template.rewrite replacement.apply := by
  have applied : replacement.within filter = replacement.apply :=
    funext fun node => if_pos (all node)
  rw [replace_fst, applied]

theorem replace_delegation : (template.replace filter .delegation).1 = template.delegated :=
  replace_fst_of_accepts all

theorem replace_substitute {node : Node} :
    (template.replace filter (.substitute node)).1 = List.replicate template.length node := by
  rw [replace_fst_of_accepts all, rewrite_eq_map]
  refine List.eq_replicate_iff.mpr ⟨List.length_map .., List.forall_mem_map.mpr ?_⟩
  intro inner _
  cases inner with
  | leaf content => rfl
  | scope header children => cases header <;> rfl

/-- Each visible node gets a block of its own around it. -/
theorem blockNames_replace_wrap {name : String} :
    (template.replace filter (.wrap name)).1.blockNames =
      template.visible.flatMap fun node => name :: node.blockName?.toList := by
  rw [replace_fst_of_accepts all, blockNames_eq_flatMap]
  refine measure_rewrite ?_ ?_ template
  · intro node notBlock
    rw [apply, Node.blockNames_block, List.flatMap_singleton,
      Node.blockNames_of_asBlock? notBlock, Node.blockName?, notBlock]
    rfl
  · intro outer children rewritten
    rw [apply, Node.blockNames_block, List.flatMap_singleton, Node.blockNames_block]
    rfl

/-- The tags of the visible scopes are gone, and nothing else. -/
theorem replace_unwrap :
    (∀ node ∈ (template.replace filter .unwrap).1, ∃ content, node = .leaf content) ∧
      (template.replace filter .unwrap).1.source =
        String.join (template.visible.map Node.ownSource) := by
  rw [replace_fst_of_accepts all]
  constructor
  case right =>
    apply String.toList_injective
    rw [toList_source_eq_flatMap, String.toList_join, List.flatMap_map]
    refine measure_rewrite ?_ ?_ template
    · intro node notBlock
      cases node with
      | leaf content => rfl
      | scope header children =>
          cases header with
          | block name => cases notBlock
          | _ => rfl
    · intro name children rewritten
      exact toList_source_eq_flatMap rewritten
  case left =>
    rw [rewrite_eq_map, List.forall_mem_map]
    intro node _
    cases node with
    | leaf content => exact ⟨content, rfl⟩
    | scope header children => cases header <;> exact ⟨_, rfl⟩

end All

end Template

end TemplateTree
