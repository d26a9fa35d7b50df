import TemplateTree.Node.Kind

namespace TemplateTree

/-- The members of an object keep the order in which they were written.  A number stands for its
mantissa divided by a power of ten. -/
inductive Json where
  | null
  | bool (value : Bool)
  | number (mantissa : Int) (decimals : Nat)
  | string (value : String)
  | array (items : List Json)
  | object (members : List (String × Json))
deriving Inhabited

namespace Json

def strings? (items : List Json) : Option (List String) :=
  items.mapM fun
    | .string value => some value
    | _ => none

def entries? (members : List (String × Json)) : Option (List (String × String)) :=
  members.mapM fun
    | (key, .string value) => some (key, value)
    | _ => none

def string? : Option Json → Option String
  | some (.string value) => some value
  | _ => none

def stringList? : Option Json → Option (List String)
  | some (.array items) => strings? items
  | _ => none

def ofStrings (values : List String) : Json := .array (values.map .string)

theorem strings?_map (values : List String) :
    strings? (values.map .string) = some values := by
  induction values with
  | nil => rfl
  | cons value rest ih => simp_all [strings?]

theorem sizeOf_lookup_lt {members : List (String × Json)} {name : String}
    {value : Json} (found : members.lookup name = some value) :
    sizeOf value < sizeOf members := by
  induction members with
  | nil => simp at found
  | cons member rest ih =>
      obtain ⟨key, head⟩ := member
      simp only [List.lookup_cons] at found
      split at found
      · cases found
        simp only [List.cons.sizeOf_spec, Prod.mk.sizeOf_spec]
        omega
      · have := ih found
        simp only [List.cons.sizeOf_spec]
        omega

end Json

def Leaf.payload : Leaf → Option Json
  | .text run => some (.string run)
  | .whitespace run => some (.string run)
  | .parent => none
  | .inherits declaration =>
      some (.object
        [("template", .string declaration.template),
         ("scopes", .ofStrings declaration.scopes)])
  | .print expression => some (.string expression)
  | .deprecated message => some (.string message)
  | .assign targets values =>
      some (.object
        [("variables", .ofStrings targets), ("values", .ofStrings values),
         ("body", .null)])
  | .types hints =>
      some (.object [("types", .object
        (hints.entries.map fun (key, value) => (key, .string value)))])

def Header.members : Header → List (String × Json)
  | .block name => [("name", .string name)]
  | .loop item collection =>
      [("variable", .string item), ("collection", .string collection)]
  | .capture targets values =>
      [("variables", .ofStrings targets), ("values", .ofStrings values)]
  | .autoescape none => [("strategy", .null)]
  | .autoescape (some strategy) => [("strategy", .string strategy)]

def Scope.childrenName : Scope → String
  | .capture => "body"
  | _ => "children"

mutual

def Node.toJson : Node → Json
  | .leaf content =>
      .object (("type", .string content.kind.name) ::
        (content.payload.map fun payload => ("value", payload)).toList)
  | .scope header children =>
      .object
        [("type", .string header.scope.kind.name),
         ("value", .object (header.members ++
           [(header.scope.childrenName, .array (Template.toJsonItems children))]))]

def Template.toJsonItems : Template → List Json
  | [] => []
  | node :: rest => node.toJson :: Template.toJsonItems rest

end

def Template.toJson (template : Template) : Json :=
  .array (Template.toJsonItems template)

end TemplateTree
