import TemplateTree.Inheritance
import TemplateTree.Text.Basic
import TemplateTree.TypeHints

namespace TemplateTree

/-! A node is a leaf or a scope.  A scope has a header, which its opening tag spells, and owns
the nodes up to its end tag. -/

inductive Scope where
  | block
  | loop
  | capture
  | autoescape
deriving DecidableEq

def Scope.endKeyword : Scope → String
  | .block => "endblock"
  | .loop => "endfor"
  | .capture => "endset"
  | .autoescape => "endautoescape"

inductive Leaf where
  /-- A run of text without blanks. -/
  | text (run : String)
  /-- A run of blanks. -/
  | whitespace (run : String)
  /-- The content of the block of the same name in the extended template. -/
  | parent
  | inherits (declaration : Inheritance)
  | print (expression : String)
  | deprecated (message : String)
  | assign (targets values : List String)
  | types (hints : TypeHints)
deriving DecidableEq

/-- What the opening tag of a scope says.  A capture stores what it encloses in
its variables; a template text gives it no values. -/
inductive Header where
  | block (name : String)
  | loop (item collection : String)
  | capture (targets values : List String)
  | autoescape (strategy : Option String)
deriving DecidableEq

def Header.scope : Header → Scope
  | .block _ => .block
  | .loop _ _ => .loop
  | .capture _ _ => .capture
  | .autoescape _ => .autoescape

inductive Node where
  | leaf (content : Leaf)
  | scope (header : Header) (children : List Node)

abbrev Template := List Node

mutual

def Node.decideEq : (left right : Node) → Decidable (left = right)
  | .leaf left, .leaf right =>
      if same : left = right then isTrue (by rw [same])
      else isFalse (by simpa using same)
  | .scope leftHeader leftChildren, .scope rightHeader rightChildren =>
      if sameHeader : leftHeader = rightHeader then
        match Template.decideEq leftChildren rightChildren with
        | isTrue sameChildren => isTrue (by rw [sameHeader, sameChildren])
        | isFalse different => isFalse (by simp [different])
      else isFalse (by simp [sameHeader])
  | .leaf _, .scope _ _ => isFalse (by simp)
  | .scope _ _, .leaf _ => isFalse (by simp)

def Template.decideEq : (left right : List Node) → Decidable (left = right)
  | [], [] => isTrue rfl
  | left :: leftRest, right :: rightRest =>
      match Node.decideEq left right with
      | isTrue sameHead =>
          match Template.decideEq leftRest rightRest with
          | isTrue sameRest => isTrue (by rw [sameHead, sameRest])
          | isFalse different => isFalse (by simp [different])
      | isFalse different => isFalse (by simp [different])
  | [], _ :: _ => isFalse (by simp)
  | _ :: _, [] => isFalse (by simp)

end

instance : DecidableEq Node := Node.decideEq

namespace Node

def children? : Node → Option Template
  | .leaf _ => none
  | .scope _ children => some children

def isWhitespace : Node → Bool
  | .leaf (.whitespace _) => true
  | _ => false

theorem isWhitespace_iff {node : Node} :
    node.isWhitespace = true ↔ ∃ run, node = .leaf (.whitespace run) := by
  constructor
  · intro white
    cases node with
    | leaf content =>
        cases content with
        | whitespace run => exact ⟨run, rfl⟩
        | _ => cases white
    | scope header children => cases white
  · rintro ⟨run, rfl⟩
    rfl

end Node

def Leaf.ofRun (run : List Char) : Leaf :=
  if run.all Text.isBlank then .whitespace (String.ofList run)
  else .text (String.ofList run)

def Template.ofText (text : List Char) : Template :=
  (Text.runs text).map fun run => .leaf (Leaf.ofRun run)

theorem Template.ofText_nil : Template.ofText [] = [] := rfl

end TemplateTree
