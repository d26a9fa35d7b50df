import TemplateTree.Json.Export

namespace TemplateTree

def Leaf.assignment? (members : List (String × Json)) : Option Leaf := do
  let targets ← Json.stringList? (members.lookup "variables")
  let values ← Json.stringList? (members.lookup "values")
  return .assign targets values

/-- A `set` is a leaf only when it has no body. -/
def Leaf.ofPayload? (kind : Kind) (payload : Option Json) : Option Leaf :=
  match kind, payload with
  | .text, some (.string run) => some (.text run)
  | .whitespace, some (.string run) => some (.whitespace run)
  | .print, some (.string expression) => some (.print expression)
  | .deprecated, some (.string message) => some (.deprecated message)
  | .parent, none => some .parent
  | .parent, some .null => some .parent
  | .inherits, some (.object members) => do
      let template ← Json.string? (members.lookup "template")
      let scopes ← Json.stringList? (members.lookup "scopes")
      return .inherits ⟨template, scopes⟩
  | .set, some (.object members) =>
      match members.lookup "body" with
      | none => assignment? members
      | some .null => assignment? members
      | some _ => none
  | .types, some (.object members) =>
      match members.lookup "types" with
      | some (.object hints) =>
          (Json.entries? hints).map fun entries => .types (.ofList entries)
      | _ => none
  | _, _ => none

def Header.ofMembers? (scope : Scope) (members : List (String × Json)) :
    Option Header :=
  match scope with
  | .block => (Json.string? (members.lookup "name")).map .block
  | .loop => do
      let item ← Json.string? (members.lookup "variable")
      let collection ← Json.string? (members.lookup "collection")
      return .loop item collection
  | .capture => do
      let targets ← Json.stringList? (members.lookup "variables")
      let values ← Json.stringList? (members.lookup "values")
      return .capture targets values
  | .autoescape =>
      match members.lookup "strategy" with
      | none => some (.autoescape none)
      | some .null => some (.autoescape none)
      | some (.string strategy) => some (.autoescape (some strategy))
      | some _ => none

def Kind.scope? : Kind → Option Scope
  | .block => some .block
  | .loop => some .loop
  | .set => some .capture
  | .autoescape => some .autoescape
  | _ => none

def Kind.ofMembers? (members : List (String × Json)) : Option Kind :=
  (Json.string? (members.lookup "type")).bind Kind.ofName?

def Json.payloadMembers (members : List (String × Json)) :
    List (String × Json) :=
  match members.lookup "value" with
  | some (.object payload) => payload
  | _ => []

def Json.childItems? (scope : Scope) (members : List (String × Json)) :
    Option (List Json) :=
  match (payloadMembers members).lookup scope.childrenName with
  | some (.array items) => some items
  | _ => none

theorem Json.sizeOf_childItems?_lt {scope : Scope}
    {members : List (String × Json)} {items : List Json}
    (found : childItems? scope members = some items) :
    sizeOf items < sizeOf members := by
  unfold childItems? at found
  split at found
  · rename_i inside
    cases found
    have inner := sizeOf_lookup_lt inside
    unfold payloadMembers at inner
    split at inner
    · rename_i outside
      have outer := sizeOf_lookup_lt outside
      simp only [Json.object.sizeOf_spec, Json.array.sizeOf_spec] at inner outer
      omega
    · simp only [Json.array.sizeOf_spec, List.nil.sizeOf_spec] at inner
      omega
  · cases found

mutual

def Node.ofJson? : Json → Option Node
  | .object members => do
      let kind ← Kind.ofMembers? members
      match kind.scope? with
      | none => .leaf <$> Leaf.ofPayload? kind (members.lookup "value")
      | some opened =>
          match found : Json.childItems? opened members with
          | some items => do
              have := Json.sizeOf_childItems?_lt found
              let header ←
                Header.ofMembers? opened (Json.payloadMembers members)
              let children ← Template.ofJsonItems? items
              return .scope header children
          | none => .leaf <$> Leaf.ofPayload? kind (members.lookup "value")
  | _ => none
termination_by json => sizeOf json
decreasing_by
  simp only [Json.object.sizeOf_spec]
  omega

def Template.ofJsonItems? : List Json → Option Template
  | [] => some []
  | item :: rest => do
      let node ← Node.ofJson? item
      let nodes ← Template.ofJsonItems? rest
      return node :: nodes
termination_by items => sizeOf items

end

def Template.ofJson? : Json → Option Template
  | .array items => Template.ofJsonItems? items
  | _ => none

end TemplateTree
