import Mathlib.Data.List.Lex
import TemplateTree.Proofs.Visible

namespace TemplateTree

mutual

def Node.places : Node → List Position
  | .scope (.block _) children => [] :: Template.places children
  | _ => [[]]

def Template.places : Template → List Position
  | [] => []
  | node :: rest => node.places.map (0 :: ·) ++ (Template.places rest).map Position.next

end

namespace Position

theorem next_lt_next_iff {left right : Position} : left.next < right.next ↔ left < right := by
  cases left <;> cases right <;> simp [next, List.cons_lt_cons_iff]

end Position

mutual

theorem Node.perm_places (node : Node) : node.places.Perm node.positions := by
  cases node with
  | leaf content => exact .refl _
  | scope header children =>
      cases header with
      | block name =>
          have inside := Template.perm_places children
          exact (inside.cons []).trans (List.perm_append_singleton [] _).symm
      | _ => exact .refl _

/-- The positions from the outside in are those from the inside out. -/
theorem Template.perm_places (template : Template) :
    template.places.Perm template.positions := by
  cases template with
  | nil => exact .refl _
  | cons node rest =>
      have first := Node.perm_places node
      have later := Template.perm_places rest
      exact (first.map _).append (later.map _)

end

mutual

theorem Node.pairwise_places (node : Node) : node.places.Pairwise (· < ·) := by
  cases node with
  | leaf content => exact List.pairwise_singleton _ _
  | scope header children =>
      cases header with
      | block name =>
          refine List.pairwise_cons.mpr ⟨fun place member => ?_,
            Template.pairwise_places children⟩
          have position := (Template.perm_places children).mem_iff.mp member
          cases place with
          | nil => exact absurd position (Template.nil_not_mem_positions children)
          | cons index inside => exact List.nil_lt_cons index inside
      | _ => exact List.pairwise_singleton _ _

/-- What is met later stands later, or inside. -/
theorem Template.pairwise_places (template : Template) :
    template.places.Pairwise (· < ·) := by
  cases template with
  | nil => exact List.Pairwise.nil
  | cons node rest =>
      have inNode := Node.pairwise_places node
      have inRest := Template.pairwise_places rest
      refine List.pairwise_append.mpr ⟨?_, ?_, ?_⟩
      · simpa [List.pairwise_map] using inNode
      · simpa [List.pairwise_map, Position.next_lt_next_iff] using inRest
      · intro left inLeft right inRight
        obtain ⟨inside, _, rfl⟩ := List.mem_map.mp inLeft
        obtain ⟨other, isOther, rfl⟩ := List.mem_map.mp inRight
        have position := (Template.perm_places rest).mem_iff.mp isOther
        cases other with
        | nil => exact absurd position (Template.nil_not_mem_positions rest)
        | cons index others => exact List.cons_lt_cons_iff.mpr (Or.inl (Nat.succ_pos index))

end

mutual

theorem Node.map_places (node : Node) :
    node.places.map node.visibleAt? = node.visible.map some := by
  cases node with
  | leaf content => rfl
  | scope header children =>
      cases header with
      | block name =>
          have inside : (Template.places children).map
              (Node.visibleAt? (.scope (.block name) children)) =
                (Template.places children).map (Template.visibleAt? children) := by
            refine List.map_congr_left fun place member => ?_
            have position := (Template.perm_places children).mem_iff.mp member
            cases place with
            | nil => exact absurd position (Template.nil_not_mem_positions children)
            | cons index others => rfl
          rw [Node.places, Node.visible, List.map_cons, List.map_cons, inside,
            Template.map_places children]
          rfl
      | _ => rfl

theorem Template.map_places (template : Template) :
    template.places.map template.visibleAt? = template.visible.map some := by
  cases template with
  | nil => rfl
  | cons node rest =>
      have first : (fun inside => Template.visibleAt? (node :: rest) (0 :: inside)) =
          node.visibleAt? := funext fun _ => Template.visibleAt?_first
      have later : (fun position : Position => Template.visibleAt? (node :: rest) position.next) =
          Template.visibleAt? rest := funext (Template.visibleAt?_next node rest)
      rw [Template.places, Template.visible, List.map_append, List.map_append, List.map_map,
        List.map_map, ← Node.map_places node, ← Template.map_places rest, ← first, ← later]
      rfl

end

/-- The walk meets each visible node once, in document order. -/
def Template.Meets (template : Template) (walk : List Node) : Prop :=
  ∃ places : List Position,
    places.Pairwise (· < ·) ∧
      (∀ place, place ∈ places ↔ (template.visibleAt? place).isSome) ∧
      places.map template.visibleAt? = walk.map some

theorem Template.meets_visible (template : Template) : template.Meets template.visible := by
  refine ⟨template.places, template.pairwise_places, fun place => ?_, template.map_places⟩
  rw [template.perm_places.mem_iff, template.mem_positions_iff]

/-- There is only one order in which the positions increase. -/
theorem Template.Meets.eq_of_meets {template : Template} {walk other : List Node}
    (meets : template.Meets walk) (alsoMeets : template.Meets other) : walk = other := by
  obtain ⟨places, increasing, visible, nodes⟩ := meets
  obtain ⟨others, otherIncreasing, otherVisible, otherNodes⟩ := alsoMeets
  have perm : places.Perm others := by
    refine (List.perm_ext_iff_of_nodup (increasing.imp ne_of_lt)
      (otherIncreasing.imp ne_of_lt)).mpr fun place => ?_
    rw [visible, otherVisible]
  have same : places = others :=
    perm.eq_of_pairwise (fun left right _ _ less greater => absurd greater (lt_asymm less))
      increasing otherIncreasing
  apply List.map_injective_iff.mpr fun _ _ => Option.some.inj
  rw [← nodes, ← otherNodes, same]

/-- The queries answer what they select from the walk. -/
structure Template.Answers (template : Template) (walk : List Node) : Prop where
  find : ∀ test, template.find test = walk.filter test
  withoutWhitespace : template.withoutWhitespace = walk.filter fun
    | .leaf (.whitespace _) => false
    | _ => true
  blockNames : template.blockNames = walk.filterMap fun
    | .scope (.block name) _ => some name
    | _ => none
  /-- The first block of the name. -/
  block?_eq_some_iff : ∀ name block, template.block? name = some block ↔
    block.name = name ∧ ∃ before after,
      walk = before ++ .scope (.block name) block.children :: after ∧
        ∀ children, .scope (.block name) children ∉ before
  block?_eq_none_iff : ∀ name, template.block? name = none ↔ name ∉ template.blockNames
  /-- The first declaration. -/
  inheritance?_eq_some_iff : ∀ declaration, template.inheritance? = some declaration ↔
    ∃ before after, walk = before ++ .leaf (.inherits declaration) :: after ∧
      ∀ other, .leaf (.inherits other) ∉ before
  inheritance?_eq_none_iff : template.inheritance? = none ↔
    ∀ declaration, .leaf (.inherits declaration) ∉ walk

theorem Node.asInheritance?_eq_some_iff {node : Node} {declaration : Inheritance} :
    node.asInheritance? = some declaration ↔ node = .leaf (.inherits declaration) := by
  constructor
  · intro found
    cases node with
    | leaf content =>
        cases content with
        | inherits other => rw [Option.some.inj found]
        | _ => cases found
    | scope header children => cases found
  · rintro rfl
    rfl

theorem Node.forall_asInheritance?_eq_none_iff {nodes : List Node} :
    (∀ node ∈ nodes, node.asInheritance? = none) ↔
      ∀ declaration, .leaf (.inherits declaration) ∉ nodes := by
  constructor
  · intro none declaration member
    cases none _ member
  · intro absent node member
    rw [Option.eq_none_iff_forall_ne_some]
    intro declaration declares
    obtain rfl := asInheritance?_eq_some_iff.mp declares
    exact absent declaration member

namespace Template

/-- Looking first for the nodes that are of a kind changes nothing. -/
theorem filterMap_find {α : Type} (select : Node → Option α) (template : Template) :
    (template.find fun node => (select node).isSome).filterMap select =
      template.visible.filterMap select := by
  rw [find_eq_filter_visible, List.filterMap_filter]
  congr 1
  funext node
  cases select node <;> rfl

theorem blocks_eq (template : Template) :
    template.blocks = template.visible.filterMap Node.asBlock? :=
  template.filterMap_find Node.asBlock?

theorem inheritance?_eq_findSome? (template : Template) :
    template.inheritance? = template.visible.findSome? Node.asInheritance? := by
  rw [inheritance?, ← List.head?_filterMap, ← List.head?_filterMap, filterMap_find]

theorem block?_eq_none_iff (template : Template) (name : String) :
    template.block? name = none ↔ name ∉ template.blockNames := by
  simp only [block?, blockNames, List.find?_eq_none, List.mem_map, beq_iff_eq, not_exists,
    not_and]

/-- The first block of the name among the blocks is the first one in the walk. -/
theorem block?_eq_some_iff {template : Template} {name : String} {block : Block} :
    template.block? name = some block ↔
      block.name = name ∧ ∃ before after,
        template.visible = before ++ .scope (.block name) block.children :: after ∧
          ∀ children, .scope (.block name) children ∉ before := by
  rw [block?, blocks_eq, List.find?_filterMap, Option.bind_eq_some_iff]
  constructor
  · rintro ⟨node, found, isBlock⟩
    obtain ⟨named, before, after, whole, first⟩ := List.find?_eq_some_iff_append.mp found
    obtain rfl := Node.eq_of_asBlock? isBlock
    obtain rfl : block.name = name := eq_of_beq named
    refine ⟨rfl, before, after, whole, fun children inFront => ?_⟩
    simpa [Node.asBlock?] using first _ inFront
  · rintro ⟨rfl, before, after, whole, first⟩
    refine ⟨.scope (.block block.name) block.children, ?_, rfl⟩
    refine List.find?_eq_some_iff_append.mpr ⟨beq_self_eq_true _, before, after, whole, ?_⟩
    intro node inFront
    cases isBlock : node.asBlock? with
    | none => rfl
    | some other =>
        obtain rfl := Node.eq_of_asBlock? isBlock
        have different : other.name ≠ block.name := fun same =>
          first other.children (same ▸ inFront)
        simpa using different

theorem inheritance?_eq_some_iff {template : Template} {declaration : Inheritance} :
    template.inheritance? = some declaration ↔
      ∃ before after, template.visible = before ++ .leaf (.inherits declaration) :: after ∧
        ∀ other, .leaf (.inherits other) ∉ before := by
  rw [inheritance?_eq_findSome?, List.findSome?_eq_some_iff]
  constructor
  · rintro ⟨before, node, after, whole, declares, first⟩
    obtain rfl := Node.asInheritance?_eq_some_iff.mp declares
    exact ⟨before, after, whole, Node.forall_asInheritance?_eq_none_iff.mp first⟩
  · rintro ⟨before, after, whole, first⟩
    exact ⟨before, _, after, whole, rfl, Node.forall_asInheritance?_eq_none_iff.mpr first⟩

/-- All queries agree with the one walk over the visible nodes. -/
theorem queries_answer_from_walk (template : Template) :
    (∀ walk, template.Meets walk ↔ walk = template.visible) ∧
      template.Answers template.visible := by
  refine ⟨fun walk => ⟨fun meets => meets.eq_of_meets template.meets_visible,
    fun same => same ▸ template.meets_visible⟩, ?_⟩
  constructor
  case find => exact fun test => find_eq_filter_visible test template
  case withoutWhitespace =>
    rw [withoutWhitespace, find_eq_filter_visible]
    congr 1
    funext node
    cases node with
    | leaf content => cases content <;> rfl
    | scope header children => rfl
  case blockNames =>
    rw [blockNames, blocks_eq, List.map_filterMap]
    congr 1
    funext node
    cases node with
    | leaf content => rfl
    | scope header children => cases header <;> rfl
  case block?_eq_some_iff => exact fun name block => block?_eq_some_iff
  case block?_eq_none_iff => exact template.block?_eq_none_iff
  case inheritance?_eq_some_iff => exact fun declaration => inheritance?_eq_some_iff
  case inheritance?_eq_none_iff =>
    rw [inheritance?_eq_findSome?, List.findSome?_eq_none_iff, Node.forall_asInheritance?_eq_none_iff]

/-- The block in the loop is not met, and the outer block is met before the inner one. -/
example :
    blockNames
        [.scope (.block "a") [.scope (.loop "i" "rows") [.scope (.block "b") []],
          .scope (.block "c") []]] =
      ["a", "c"] := by decide

end Template

end TemplateTree
