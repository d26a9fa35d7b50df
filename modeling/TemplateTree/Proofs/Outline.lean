import TemplateTree.Node.Kind
import TemplateTree.Node.Outline
import TemplateTree.Proofs.Addresses
import TemplateTree.Proofs.Text.Items
import TemplateTree.Text.Escaped

namespace TemplateTree

/-! The lines of the children of a node are those that follow its own line and stand further in,
so the lines determine at which positions there are nodes and what is said of them. -/

namespace Text

theorem lineFeed_not_mem_toDigits (n : Nat) : '\n' ∉ Nat.toDigits 16 n := by
  induction n using Nat.strongRecOn with
  | ind n ih =>
      rw [Nat.toDigits_eq_if (by decide)]
      split
      · exact List.mem_singleton.not.mpr (Nat.digitChar_ne '\n' rfl).symm
      · rename_i long
        rw [List.mem_append, List.mem_singleton, not_or]
        exact ⟨ih (n / 16) (by omega), (Nat.digitChar_ne '\n' rfl).symm⟩

theorem lineFeed_not_mem_escaped (c : Char) : '\n' ∉ escaped c := by
  fun_cases escaped c
  case case7 =>
    have digits := lineFeed_not_mem_toDigits c.toNat
    simpa using digits
  case case8 _ _ _ _ notLineFeed _ _ => exact List.mem_singleton.not.mpr (Ne.symm notLineFeed)
  all_goals decide

theorem lineFeed_not_mem_quoted (s : String) : '\n' ∉ (quoted s).toList := by
  have inside : ∀ c ∈ s.toList, '\n' ∉ escaped c := fun c _ => lineFeed_not_mem_escaped c
  simpa [quoted] using inside

theorem lineFeed_not_mem_quotedList (values : List String) : '\n' ∉ (quotedList values).toList := by
  have inside : '\n' ∉ (listed (values.map quoted)).toList := by
    refine not_mem_listed (by decide) (by decide) fun value member => ?_
    obtain ⟨s, _, rfl⟩ := List.mem_map.mp member
    exact lineFeed_not_mem_quoted s
  simpa [quotedList] using inside

theorem lineFeed_not_mem_quotedEntries (entries : List (String × String)) :
    '\n' ∉ (quotedEntries entries).toList := by
  have inside : '\n' ∉ (listed (entries.map fun entry =>
      quoted entry.1 ++ ": " ++ quoted entry.2)).toList := by
    refine not_mem_listed (by decide) (by decide) fun value member => ?_
    obtain ⟨entry, _, rfl⟩ := List.mem_map.mp member
    simp [lineFeed_not_mem_quoted]
  simpa [quotedEntries] using inside

end Text

open Outline

def Kind.heading : Kind → String
  | .text => "Text"
  | .whitespace => "Whitespace"
  | .block => "Block"
  | .parent => "Parent"
  | .inherits => "Extends"
  | .loop => "For"
  | .print => "Print"
  | .deprecated => "Deprecated"
  | .set => "Set"
  | .autoescape => "Autoescape"
  | .types => "Types"

namespace Kind

theorem heading_eq_of_prefix {left right : Kind}
    (starts : left.heading.toList <+: right.heading.toList) : left = right := by
  have apart : ∀ left ∈ all, ∀ right ∈ all,
      left.heading.toList <+: right.heading.toList → left = right := by decide +kernel
  exact apart left (mem_all left) right (mem_all right) starts

theorem exists_heading_eq_cons (kind : Kind) :
    ∃ c rest, kind.heading.toList = c :: rest ∧ c ≠ ' ' := by
  cases kind <;> exact ⟨_, _, rfl, by decide⟩

end Kind

theorem Text.prefix_toList_append {left right : String} {rest : List Char}
    (starts : left.toList <+: right.toList) : left.toList <+: right.toList ++ rest :=
  starts.trans (List.prefix_append _ _)

theorem Leaf.heading_prefix_summary (content : Leaf) :
    content.kind.heading.toList <+: content.summary.toList := by
  -- `unfold`, since deriving the equations of a summary would evaluate the escapes in it.
  cases content with
  | parent => exact List.prefix_refl _
  | inherits declaration =>
      obtain ⟨template, _ | ⟨scope, scopes⟩⟩ := declaration <;>
        unfold Leaf.summary <;>
        simp only [String.toList_append, List.append_assoc, Leaf.kind, Kind.heading] <;>
        exact Text.prefix_toList_append (by decide +kernel)
  | _ =>
      unfold Leaf.summary
      simp only [String.toList_append, List.append_assoc, Leaf.kind, Kind.heading]
      exact Text.prefix_toList_append (by decide +kernel)

theorem Header.heading_prefix_summary (header : Header) :
    header.scope.kind.heading.toList <+: header.summary.toList := by
  cases header <;>
    unfold Header.summary <;>
    simp only [String.toList_append, List.append_assoc, Header.scope, Scope.kind,
      Kind.heading] <;>
    exact Text.prefix_toList_append (by decide +kernel)

theorem lineFeed_not_mem_strategyName {strategy : Option String}
    (oneLine : ∀ s ∈ strategy, '\n' ∉ s.toList) : '\n' ∉ (strategyName strategy).toList := by
  cases strategy with
  | none => decide +kernel
  | some strategy =>
      rw [strategyName, String.toList_ofList]
      exact fun member => oneLine strategy rfl ((Text.strip_isInfix _ _).subset member)

namespace Node

def summary : Node → String
  | .leaf content => content.summary
  | .scope header _ => header.summary

/-- The nodes inside a node; there are none inside a leaf. -/
def inner (node : Node) : Template := node.children?.getD []

/-- What the line of a node shows as it is, without quotes. -/
def bare : Node → List String
  | .leaf (.print expression) => [expression]
  | .scope (.block name) _ => [name]
  | .scope (.loop item collection) _ => [item, collection]
  | .scope (.autoescape strategy) _ => strategy.toList
  | _ => []

theorem heading_prefix_summary (node : Node) :
    node.kind.heading.toList <+: node.summary.toList := by
  cases node with
  | leaf content => exact content.heading_prefix_summary
  | scope header children => exact header.heading_prefix_summary

theorem kind_eq_of_summary_eq {left right : Node} (same : left.summary = right.summary) :
    left.kind = right.kind := by
  have starts := left.heading_prefix_summary
  rw [same] at starts
  rcases List.prefix_or_prefix_of_prefix starts right.heading_prefix_summary with
    shorter | longer
  · exact Kind.heading_eq_of_prefix shorter
  · exact (Kind.heading_eq_of_prefix longer).symm

open Text in
theorem lineFeed_not_mem_summary (node : Node) (oneLine : ∀ s ∈ node.bare, '\n' ∉ s.toList) :
    '\n' ∉ node.summary.toList := by
  cases node with
  | leaf content =>
      rw [summary]
      cases content with
      | inherits declaration =>
          obtain ⟨template, _ | ⟨scope, scopes⟩⟩ := declaration <;>
            unfold Leaf.summary <;>
            simp [lineFeed_not_mem_quoted, lineFeed_not_mem_quotedList]
      | print expression =>
          unfold Leaf.summary
          simpa [bare] using oneLine
      | _ =>
          unfold Leaf.summary
          simp [lineFeed_not_mem_quoted, lineFeed_not_mem_quotedList,
            lineFeed_not_mem_quotedEntries]
  | scope header children =>
      rw [summary]
      cases header with
      | autoescape strategy =>
          have noLineFeed : '\n' ∉ (strategyName strategy).toList :=
            lineFeed_not_mem_strategyName (by simpa [bare] using oneLine)
          unfold Header.summary
          simpa using noLineFeed
      | capture targets values =>
          unfold Header.summary
          simp [lineFeed_not_mem_quotedList]
      | _ =>
          unfold Header.summary
          simpa [bare] using oneLine

end Node

/-- Nothing that the outline shows without quotes contains a line feed. -/
def Template.OneLine (template : Template) : Prop :=
  ∀ node ∈ template.preorder, ∀ s ∈ node.bare, '\n' ∉ s.toList

instance (template : Template) : Decidable template.OneLine :=
  inferInstanceAs (Decidable (∀ node ∈ template.preorder, ∀ s ∈ node.bare, '\n' ∉ s.toList))

theorem Node.lines_eq_cons (node : Node) (depth : Nat) :
    node.lines depth = ⟨depth, node.summary⟩ :: Template.lines (depth + 1) node.inner := by
  cases node with
  | leaf content => rfl
  | scope header children => rfl

mutual

theorem Node.lines_eq_map (node : Node) (depth : Nat) :
    node.lines depth = node.addressed.map fun (inside, inner) =>
      ⟨depth + inside.length, inner.summary⟩ := by
  cases node with
  | leaf content => rfl
  | scope header children =>
      rw [Node.lines, Template.lines_eq_map children, Node.addressed, List.map_cons]
      congr 1
      refine List.map_congr_left fun ⟨position, inner⟩ listed => ?_
      obtain ⟨index, inside, rfl⟩ := Template.exists_cons_of_mem_addressed listed
      simp only [List.length_cons, Nat.add_sub_cancel, Nat.add_right_comm depth 1, Nat.add_assoc]

/-- A node stands as deep as there are scopes around it. -/
theorem Template.lines_eq_map (template : Template) (depth : Nat) :
    Template.lines depth template = template.addressed.map fun (position, node) =>
      ⟨depth + (position.length - 1), node.summary⟩ := by
  cases template with
  | nil => rfl
  | cons node rest =>
      have sameLength (position : Position) : position.next.length = position.length := by
        cases position <;> rfl
      rw [Template.lines, Node.lines_eq_map node, Template.lines_eq_map rest,
        Template.addressed, List.map_append, List.map_map, List.map_map]
      simp only [Function.comp_def, List.length_cons, Nat.add_sub_cancel, sameLength]

end

namespace Template

variable {template left right : Template} {depth : Nat}

theorem depth_le_of_mem_lines {line : Line} (member : line ∈ Template.lines depth template) :
    depth ≤ line.depth := by
  rw [lines_eq_map] at member
  obtain ⟨⟨position, node⟩, _, rfl⟩ := List.mem_map.mp member
  exact Nat.le_add_right _ _

/-- The lines that follow a node's own line and stand further in are those of its children. -/
theorem takeWhile_lines (inner rest : Template) (depth : Nat) :
    (Template.lines (depth + 1) inner ++ Template.lines depth rest).takeWhile
        (fun line => depth < line.depth) =
      Template.lines (depth + 1) inner := by
  have further : ∀ line ∈ Template.lines (depth + 1) inner, decide (depth < line.depth) = true :=
    fun line member => decide_eq_true (depth_le_of_mem_lines member)
  rw [List.takeWhile_append_of_pos further]
  cases rest with
  | nil => exact List.append_nil _
  | cons node rest => simp [Template.lines, Node.lines_eq_cons]

/-- Equal lines come from nodes of which the same is said, with equal lines inside them. -/
theorem map_eq_of_lines_eq (same : Template.lines depth left = Template.lines depth right) :
    (left.map fun node => (node.summary, Template.lines (depth + 1) node.inner)) =
      right.map fun node => (node.summary, Template.lines (depth + 1) node.inner) := by
  induction left generalizing right with
  | nil =>
      cases right with
      | nil => rfl
      | cons node rest =>
          rw [Template.lines, Template.lines, Node.lines_eq_cons] at same
          cases same
  | cons node rest ih =>
      cases right with
      | nil =>
          rw [Template.lines, Template.lines, Node.lines_eq_cons] at same
          cases same
      | cons other others =>
          simp only [Template.lines, Node.lines_eq_cons, List.cons_append, List.cons.injEq,
            Line.mk.injEq, true_and] at same
          obtain ⟨sameSummary, sameLines⟩ := same
          -- The children end where the lines come back to the depth of their node.
          have sameInner := congrArg (List.takeWhile fun line => depth < line.depth) sameLines
          rw [takeWhile_lines, takeWhile_lines] at sameInner
          rw [sameInner] at sameLines
          have later := ih (List.append_cancel_left sameLines)
          rw [List.map_cons, List.map_cons, sameSummary, sameInner, later]

theorem at?_cons_eq_inner (node : Node) (index : Nat) (inside : Position) :
    node.at? (index :: inside) = node.inner.at? (index :: inside) := by
  cases node with
  | leaf content => cases inside <;> rfl
  | scope header children => rfl

theorem map_summary_at? (same : Template.lines depth left = Template.lines depth right)
    (position : Position) :
    (left.at? position).map Node.summary = (right.at? position).map Node.summary := by
  induction position generalizing depth left right with
  | nil => rw [at?_nil, at?_nil]
  | cons index inside ih =>
      have entry := congrArg (fun entries => entries[index]?) (map_eq_of_lines_eq same)
      simp only [List.getElem?_map] at entry
      rw [at?_cons, at?_cons]
      cases here : left[index]? with
      | none =>
          rw [here] at entry
          rw [Option.map_eq_none_iff.mp entry.symm]
      | some node =>
          rw [here] at entry
          obtain ⟨other, there, pair⟩ := Option.map_eq_some_iff.mp entry.symm
          obtain ⟨sameSummary, sameInner⟩ := Prod.mk.inj pair
          rw [there]
          cases inside with
          | nil => exact congrArg some sameSummary.symm
          | cons following inside =>
              simp only [Option.bind_some, at?_cons_eq_inner]
              exact (ih sameInner).symm

end Template

namespace Outline

def Line.text (line : Line) : List Char :=
  List.replicate (2 * line.depth) ' ' ++ line.summary.toList

def Line.ofText (text : List Char) : Line :=
  ⟨(text.takeWhile (· == ' ')).length / 2, String.ofList (text.dropWhile (· == ' '))⟩

/-- The line stands in by two spaces for each level, and starts with the kind. -/
structure Shows (line : List Char) (depth : Nat) (kind : Kind) : Prop where
  indentation : line.takeWhile (· == ' ') = List.replicate (2 * depth) ' '
  heading : kind.heading.toList <+: line.drop (2 * depth)

theorem takeWhile_text (node : Node) (depth : Nat) :
    (Line.text ⟨depth, node.summary⟩).takeWhile (· == ' ') = List.replicate (2 * depth) ' ' := by
  obtain ⟨c, rest, isHeading, notSpace⟩ := node.kind.exists_heading_eq_cons
  obtain ⟨details, isSummary⟩ := node.heading_prefix_summary
  have spaces : ∀ c ∈ List.replicate (2 * depth) ' ', (c == ' ') = true := by
    intro c member
    exact beq_iff_eq.mpr (List.eq_of_mem_replicate member)
  rw [Line.text, ← isSummary, isHeading, List.takeWhile_append_of_pos spaces]
  simp [notSpace]

theorem shows_text (node : Node) (depth : Nat) :
    Shows (Line.text ⟨depth, node.summary⟩) depth node.kind := by
  constructor
  case indentation => exact takeWhile_text node depth
  case heading =>
    have indented : (List.replicate (2 * depth) ' ').length = 2 * depth := List.length_replicate
    rw [Line.text, List.drop_left' indented]
    exact node.heading_prefix_summary

theorem ofText_text (node : Node) (depth : Nat) :
    Line.ofText (Line.text ⟨depth, node.summary⟩) = ⟨depth, node.summary⟩ := by
  have indented := takeWhile_text node depth
  have behind : (Line.text ⟨depth, node.summary⟩).dropWhile (· == ' ') = node.summary.toList := by
    have whole := (Line.text ⟨depth, node.summary⟩).takeWhile_append_dropWhile (p := (· == ' '))
    rw [indented] at whole
    exact List.append_cancel_left whole
  rw [Line.ofText, indented, behind, List.length_replicate, String.ofList_toList,
    Nat.mul_div_cancel_left depth (by decide)]

theorem splitOn_flatMap {lines : List Line} (oneLine : ∀ line ∈ lines, '\n' ∉ line.text) :
    (lines.flatMap fun line => line.text ++ ['\n']).splitOn '\n' =
      lines.map Line.text ++ [[]] := by
  induction lines with
  | nil => rfl
  | cons line rest ih =>
      rw [List.flatMap_cons, List.append_assoc, List.singleton_append,
        List.splitOn_append_cons_self,
        List.splitOn_eq_singleton (oneLine line List.mem_cons_self),
        ih fun later member => oneLine later (List.mem_cons_of_mem _ member)]
      rfl

end Outline

namespace Template

variable {template left right : Template}

theorem toList_outline (template : Template) :
    template.outline.toList = (Template.lines 0 template).flatMap fun line =>
      line.text ++ ['\n'] := by
  rw [outline, String.toList_join, List.flatMap_map]
  congr 1
  funext line
  simp [Line.render, Line.text]

theorem splitOn_outline (oneLine : template.OneLine) :
    template.outline.toList.splitOn '\n' =
      (template.addressed.map fun (position, node) =>
        Line.text ⟨position.length - 1, node.summary⟩) ++ [[]] := by
  have noLineFeed : ∀ line ∈ Template.lines 0 template, '\n' ∉ line.text := by
    intro line member
    rw [lines_eq_map] at member
    obtain ⟨⟨position, node⟩, listed, rfl⟩ := List.mem_map.mp member
    have inTemplate : node ∈ template.preorder := by
      rw [← template.map_addressed]
      exact List.mem_map_of_mem listed
    have inSummary := node.lineFeed_not_mem_summary (oneLine node inTemplate)
    rw [Line.text, List.mem_append, List.mem_replicate, not_or]
    exact ⟨fun space => absurd space.2 (by decide), inSummary⟩
  rw [toList_outline, splitOn_flatMap noLineFeed, lines_eq_map, List.map_map]
  simp only [Function.comp_def, Nat.zero_add]

theorem lines_eq_of_outline (oneLine : template.OneLine) :
    Template.lines 0 template =
      (template.outline.toList.splitOn '\n').dropLast.map Line.ofText := by
  rw [splitOn_outline oneLine, List.dropLast_concat, List.map_map, lines_eq_map]
  simp only [Function.comp_def, Outline.ofText_text, Nat.zero_add]

theorem map_kind_at? (same : Template.lines 0 left = Template.lines 0 right)
    (position : Position) :
    (left.at? position).map Node.kind = (right.at? position).map Node.kind := by
  have said := map_summary_at? same position
  cases here : left.at? position with
  | none =>
      rw [here] at said
      rw [Option.map_eq_none_iff.mp said.symm]
  | some node =>
      rw [here] at said
      obtain ⟨other, there, sameSummary⟩ := Option.map_eq_some_iff.mp said.symm
      rw [there]
      exact congrArg some (Node.kind_eq_of_summary_eq sameSummary).symm

/-- The lines show the nodes one by one, in document order, each with its depth and kind. -/
structure ShownBy (template : Template) (lines : List (List Char))
    (entries : List (Position × Node)) : Prop where
  each : ∀ position node, (position, node) ∈ entries ↔ template.at? position = some node
  inOrder : (entries.map Prod.fst).Pairwise (· < ·)
  shown : List.Forall₂ (fun line (entry : Position × Node) =>
    Shows line (entry.1.length - 1) entry.2.kind) lines entries

/-- The outline shows each node at its depth, and so determines where nodes of which kinds
stand. -/
theorem outline_shows_nodes (oneLine : template.OneLine) :
    (∃ lines entries, template.outline.toList.splitOn '\n' = lines ++ [[]] ∧
        template.ShownBy lines entries) ∧
      ∀ other : Template, other.OneLine → other.outline = template.outline →
        ∀ position, (other.at? position).map Node.kind = (template.at? position).map Node.kind := by
  refine ⟨⟨_, template.addressed, splitOn_outline oneLine, ?_⟩, ?_⟩
  · constructor
    case each => exact template.mem_addressed_iff
    case inOrder => exact template.pairwise_addressed
    case shown =>
      rw [List.forall₂_map_left_iff]
      exact List.forall₂_same.mpr fun entry _ => shows_text entry.2 _
  · intro other otherOneLine sameOutline position
    refine map_kind_at? ?_ position
    rw [lines_eq_of_outline oneLine, lines_eq_of_outline otherOneLine, sameOutline]

/-- The strategy that applies when none is given can be told from one in quotes only in the
source. -/
theorem outline_shows_nodes_of_strategy :
    OneLine [.scope (.autoescape none) [.leaf (.print "x")]] ∧
      OneLine [.scope (.autoescape (some "'html'")) [.leaf (.print "x")]] ∧
      outline [.scope (.autoescape (some "'html'")) [.leaf (.print "x")]] =
        outline [.scope (.autoescape none) [.leaf (.print "x")]] ∧
      (∃ lines entries,
        (outline [.scope (.autoescape none) [.leaf (.print "x")]]).toList.splitOn '\n' =
            lines ++ [[]] ∧
          ShownBy [.scope (.autoescape none) [.leaf (.print "x")]] lines entries) ∧
      ∀ position,
        (at? [.scope (.autoescape (some "'html'")) [.leaf (.print "x")]] position).map Node.kind =
          (at? [.scope (.autoescape none) [.leaf (.print "x")]] position).map Node.kind := by
  have oneLine : OneLine [.scope (.autoescape none) [.leaf (.print "x")]] := by decide +kernel
  have otherOneLine : OneLine [.scope (.autoescape (some "'html'")) [.leaf (.print "x")]] := by
    decide +kernel
  have sameOutline : outline [.scope (.autoescape (some "'html'")) [.leaf (.print "x")]] =
      outline [.scope (.autoescape none) [.leaf (.print "x")]] := by decide +kernel
  obtain ⟨shown, determined⟩ := outline_shows_nodes oneLine
  exact ⟨oneLine, otherOneLine, sameOutline, shown, determined _ otherOneLine sameOutline⟩

/-- A line feed in a run is escaped, so the run stays on one line. -/
example :
    outline [.scope (.block "a") [.leaf (.text "b"), .leaf (.whitespace "\n")]] =
      "Block(name: a)\n  Text(\"b\")\n  Whitespace(\"\\n\")\n" := by decide +kernel

end Template

end TemplateTree
