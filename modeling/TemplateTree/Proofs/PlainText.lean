import TemplateTree.Proofs.Scan.Slice

namespace TemplateTree

open Text

/-- A run that is not empty and whose characters are of its kind. -/
def Node.IsRun : Node → Prop
  | .leaf (.text run) => run.toList ≠ [] ∧ Uniform false run.toList
  | .leaf (.whitespace run) => run.toList ≠ [] ∧ Uniform true run.toList
  | _ => False

namespace Node

variable {node : Node} {run : List Char} {blank : Bool}

theorem toList_source_ofRun (run : List Char) :
    (Node.source (.leaf (.ofRun run))).toList = run :=
  Leaf.toList_source_ofRun run

theorem isRun_ofRun (nonempty : run ≠ []) (uniform : Uniform blank run) :
    (Node.leaf (.ofRun run)).IsRun ∧ (Node.leaf (.ofRun run)).isWhitespace = blank := by
  cases blank with
  | true =>
      rw [Leaf.ofRun_of_blank uniform, IsRun, String.toList_ofList]
      exact ⟨⟨nonempty, uniform⟩, rfl⟩
  | false =>
      rw [Leaf.ofRun_of_isWord ⟨nonempty, uniform⟩, IsRun, String.toList_ofList]
      exact ⟨⟨nonempty, uniform⟩, rfl⟩

theorem IsRun.uniform (isRun : node.IsRun) :
    node.source.toList ≠ [] ∧ Uniform node.isWhitespace node.source.toList := by
  unfold IsRun at isRun
  split at isRun
  · exact isRun
  · exact isRun
  · exact isRun.elim

theorem IsRun.eq_ofRun (isRun : node.IsRun) : node = .leaf (.ofRun node.source.toList) := by
  unfold IsRun at isRun
  split at isRun
  · rw [source, Leaf.source, Leaf.ofRun_of_isWord isRun, String.ofList_toList]
  · rw [source, Leaf.source, Leaf.ofRun_of_blank isRun.2, String.ofList_toList]
  · exact isRun.elim

end Node

/-- The nodes are runs that spell the text, and neighbours are of different kinds. -/
structure Template.Partitions (text : String) (nodes : Template) : Prop where
  spells : Template.source nodes = text
  runs : ∀ node ∈ nodes, node.IsRun
  alternate : nodes.IsChain fun left right => left.isWhitespace ≠ right.isWhitespace

namespace Template

variable {nodes : Template}

theorem partitions_ofText (text : String) : Partitions text (.ofText text.toList) := by
  obtain ⟨pieces, chain⟩ := (runs_eq_iff.mp rfl : _ ∧ Alternating (Text.runs text.toList)).2
  constructor
  case spells =>
    apply String.toList_injective
    rw [toList_source_eq_flatMap, List.flatMap_def, ofText, List.map_map]
    simp only [Function.comp_def, Node.toList_source_ofRun, List.map_id', flatten_runs]
  case runs =>
    intro node member
    obtain ⟨run, inRuns, rfl⟩ := List.mem_map.mp member
    obtain ⟨nonempty, blank, uniform⟩ := pieces run inRuns
    exact (Node.isRun_ofRun nonempty uniform).1
  case alternate =>
    rw [ofText, List.isChain_map]
    refine chain.imp_of_mem_imp fun left right inLeft inRight meets => ?_
    obtain ⟨blank, isLeft, isRight⟩ := meets
    rw [(Node.isRun_ofRun (pieces left inLeft).1 isLeft).2,
      (Node.isRun_ofRun (pieces right inRight).1 isRight).2]
    simp

theorem Partitions.alternating {text : String} (partitions : Partitions text nodes) :
    Alternating (nodes.map fun node => node.source.toList) := by
  constructor
  · intro part member
    obtain ⟨node, inNodes, rfl⟩ := List.mem_map.mp member
    obtain ⟨nonempty, uniform⟩ := (partitions.runs node inNodes).uniform
    exact ⟨nonempty, _, uniform⟩
  · rw [List.isChain_map]
    refine partitions.alternate.imp_of_mem_imp fun left right inLeft inRight different => ?_
    have isRight := (partitions.runs right inRight).uniform.2
    rw [Bool.eq_not.mpr different.symm] at isRight
    exact ⟨_, (partitions.runs left inLeft).uniform.2, isRight⟩

theorem Partitions.eq_ofText {text : String} (partitions : Partitions text nodes) :
    nodes = .ofText text.toList := by
  have cut := runs_flatten partitions.alternating
  rw [← List.flatMap_def, ← toList_source_eq_flatMap, partitions.spells] at cut
  rw [ofText, cut, List.map_map]
  have same : ∀ node ∈ nodes, .leaf (.ofRun node.source.toList) = node :=
    fun node member => (partitions.runs node member).eq_ofRun.symm
  exact ((List.map_congr_left same).trans (List.map_id' nodes)).symm

/-- Plain text is cut into the only runs that take turns and spell it, also by the loop that
goes through the text by byte positions. -/
theorem eq_ofText_iff {text : String} :
    (nodes = .ofText text.toList ↔ Partitions text nodes) ∧
      (Scan.plain text.toList = .ok nodes ↔ Partitions text nodes) := by
  have runs : nodes = .ofText text.toList ↔ Partitions text nodes :=
    ⟨fun same => same ▸ partitions_ofText text, Partitions.eq_ofText⟩
  refine ⟨runs, ?_⟩
  rw [Scan.plain_eq, Except.ok.injEq, eq_comm, runs]

end Template

end TemplateTree
