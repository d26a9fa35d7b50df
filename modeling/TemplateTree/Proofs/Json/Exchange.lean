import TemplateTree.Json.Import
import TemplateTree.Proofs.Tag.TypeHints

namespace TemplateTree

namespace Json

theorem stringList?_ofStrings (values : List String) :
    stringList? (some (ofStrings values)) = some values :=
  strings?_map values

theorem entries?_map (entries : List (String × String)) :
    entries? (entries.map fun (key, value) => (key, .string value)) = some entries := by
  induction entries with
  | nil => rfl
  | cons entry rest ih =>
      rw [entries?] at ih
      rw [entries?, List.map_cons, List.mapM_cons, ih]
      rfl

end Json

theorem Leaf.ofPayload?_payload (content : Leaf) :
    Leaf.ofPayload? content.kind content.payload = some content := by
  cases content with
  | text run => rfl
  | whitespace run => rfl
  | parent => rfl
  | print expression => rfl
  | deprecated message => rfl
  | inherits declaration =>
      have scopes := Json.stringList?_ofStrings declaration.scopes
      simp [payload, kind, ofPayload?, List.lookup_cons, Json.string?, scopes]
  | assign targets values =>
      have isTargets := Json.stringList?_ofStrings targets
      have isValues := Json.stringList?_ofStrings values
      simp [payload, kind, ofPayload?, assignment?, List.lookup_cons, isTargets, isValues]
  | types hints =>
      have isEntries := Json.entries?_map hints.entries
      simp [payload, kind, ofPayload?, isEntries, hints.ofList_entries]

theorem Header.ofMembers?_append (header : Header) (more : List (String × Json)) :
    Header.ofMembers? header.scope (header.members ++ more) = some header := by
  cases header with
  | block name => rfl
  | loop item collection => rfl
  | autoescape strategy => cases strategy <;> rfl
  | capture targets values =>
      have isTargets := Json.stringList?_ofStrings targets
      have isValues := Json.stringList?_ofStrings values
      simp [members, scope, ofMembers?, List.lookup_cons, isTargets, isValues]

theorem Header.lookup_childrenName (header : Header) (children : Json) :
    (header.members ++ [(header.scope.childrenName, children)]).lookup
      header.scope.childrenName = some children := by
  cases header with
  | autoescape strategy => cases strategy <;> rfl
  | _ => rfl

theorem Json.payloadMembers_cons (name : Json) (payload : List (String × Json)) :
    Json.payloadMembers [("type", name), ("value", .object payload)] = payload := rfl

theorem Header.childItems?_payload (header : Header) (items : List Json) :
    Json.childItems? header.scope
      [("type", .string header.scope.kind.name),
        ("value", .object (header.members ++
          [(header.scope.childrenName, .array items)]))] = some items := by
  rw [Json.childItems?, Json.payloadMembers_cons, header.lookup_childrenName]

theorem Scope.scope?_kind (scope : Scope) : scope.kind.scope? = some scope := by
  cases scope <;> rfl

namespace Node

variable {members : List (String × Json)} {kind : Kind}

theorem ofJson?_of_leaf (isKind : Kind.ofMembers? members = some kind)
    (childless : ∀ scope ∈ kind.scope?, Json.childItems? scope members = none) :
    Node.ofJson? (.object members) =
      .leaf <$> Leaf.ofPayload? kind (members.lookup "value") := by
  rw [Node.ofJson?, isKind, Option.bind_eq_bind, Option.bind_some]
  split
  · rfl
  · rename_i scope isScope
    split
    · rename_i items found
      rw [childless scope isScope] at found
      cases found
    · rfl

theorem ofJson?_of_scope {scope : Scope} {items : List Json}
    (isKind : Kind.ofMembers? members = some kind) (isScope : kind.scope? = some scope)
    (isItems : Json.childItems? scope members = some items) :
    Node.ofJson? (.object members) = (do
      let header ← Header.ofMembers? scope (Json.payloadMembers members)
      let children ← Template.ofJsonItems? items
      return .scope header children) := by
  rw [Node.ofJson?, isKind, Option.bind_eq_bind, Option.bind_some]
  split
  · rename_i isLeaf
    rw [isScope] at isLeaf
    cases isLeaf
  · rename_i opened same
    rw [isScope] at same
    cases same
    split
    · rename_i found
      rw [isItems] at found
      cases found
      rfl
    · rename_i found
      rw [isItems] at found
      cases found

end Node

theorem Kind.ofMembers?_cons (kind : Kind) (rest : List (String × Json)) :
    Kind.ofMembers? (("type", .string kind.name) :: rest) = some kind :=
  kind.ofName?_name

theorem Leaf.lookup_value (content : Leaf) (name : Json) :
    (("type", name) :: (content.payload.map fun payload => ("value", payload)).toList).lookup
      "value" = content.payload := by
  cases content.payload with
  | none => rfl
  | some payload => rfl

/-- An assignment is no capture, because its body is null. -/
theorem Leaf.childItems?_payload (content : Leaf) (name : Json) :
    ∀ scope ∈ content.kind.scope?, Json.childItems? scope
      (("type", name) :: (content.payload.map fun payload => ("value", payload)).toList) =
        none := by
  intro scope isScope
  cases content with
  | assign targets values =>
      cases isScope
      rfl
  | _ => cases isScope

mutual

theorem Node.ofJson?_toJson (node : Node) : Node.ofJson? node.toJson = some node := by
  cases node with
  | leaf content =>
      rw [Node.toJson, Node.ofJson?_of_leaf (Kind.ofMembers?_cons _ _)
        (content.childItems?_payload _), Leaf.lookup_value, Leaf.ofPayload?_payload]
      rfl
  | scope header children =>
      have isItems := header.childItems?_payload (Template.toJsonItems children)
      rw [Node.toJson, Node.ofJson?_of_scope (Kind.ofMembers?_cons _ _)
        header.scope.scope?_kind isItems, Json.payloadMembers_cons, header.ofMembers?_append,
        Template.ofJsonItems?_toJsonItems children]
      rfl

theorem Template.ofJsonItems?_toJsonItems (template : Template) :
    Template.ofJsonItems? (Template.toJsonItems template) = some template := by
  cases template with
  | nil => rw [Template.toJsonItems, Template.ofJsonItems?]
  | cons node rest =>
      rw [Template.toJsonItems, Template.ofJsonItems?, Node.ofJson?_toJson node,
        Template.ofJsonItems?_toJsonItems rest]
      rfl

end

/-- Importing what was exported gives the same tree, whatever its strings are, so
different trees are exported differently. -/
theorem Template.ofJson?_toJson_and_injective :
    (∀ template : Template, Template.ofJson? template.toJson = some template) ∧
      Function.Injective Template.toJson := by
  have imports (template : Template) : Template.ofJson? template.toJson = some template :=
    template.ofJsonItems?_toJsonItems
  refine ⟨imports, fun left right same => ?_⟩
  have imported := imports left
  rw [same, imports right] at imported
  exact (Option.some.inj imported).symm

end TemplateTree
