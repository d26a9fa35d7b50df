import TemplateTree.Assembly.Agreement
import TemplateTree.Proofs.Segmentation

namespace TemplateTree

/-! Each piece is classified by itself, before it is known which scopes are open around it.  A
stack of open scopes then takes the tokens in order. -/

/-- What a piece says by itself.  An end tag keeps its source, because it is
text wherever it does not close the innermost scope. -/
inductive Token where
  | text (run : List Char)
  | leaf (content : Leaf)
  | opens (header : Header)
  | closes (scope : Scope) (source : List Char)
deriving DecidableEq

def Token.ofTag (source : List Char) : Tag → Token
  | .leaf content => .leaf content
  | .opens header => .opens header
  | .closes scope => .closes scope source
  | .loopWithoutIn => .text source
  | .unrecognized => .text source

/-- A tag without an end and a declaration that cannot be read have no token. -/
def Piece.token? : Piece → Option Token
  | .text run => some (.text run)
  | .tag .expression inside => some (.leaf (.ofExpression (Text.trim inside)))
  | .tag .statement inside =>
      (Tag.ofBody (Text.trim inside)).toOption.map
        (Token.ofTag (Delimiter.statement.wrap inside))
  | .unclosed _ _ => none

structure Stack where
  nodes : Template := []
  frames : List Frame := []
deriving DecidableEq

namespace Stack

/-- The open scopes, innermost first. -/
def scopes (stack : Stack) : List Scope :=
  stack.frames.map fun frame => frame.header.scope

def put (stack : Stack) (nodes : Template) : Stack :=
  { stack with nodes := stack.nodes ++ nodes }

def push (stack : Stack) (header : Header) : Stack :=
  ⟨[], ⟨header, stack.nodes⟩ :: stack.frames⟩

def pop (stack : Stack) : Stack :=
  match stack.frames with
  | [] => stack
  | frame :: outer =>
      ⟨frame.before ++ [.scope frame.header stack.nodes], outer⟩

def step (stack : Stack) : Token → Stack
  | .text run => stack.put (.ofText run)
  | .leaf content => stack.put [.leaf content]
  | .opens header => stack.push header
  | .closes scope source =>
      if stack.scopes.head? = some scope then stack.pop
      else stack.put (.ofText source)

def close (nodes : Template) : List Frame → Template
  | [] => nodes
  | frame :: outer => close (frame.before ++ [.scope frame.header nodes]) outer

def finish (stack : Stack) : Template := close stack.nodes stack.frames

end Stack

/-- The tree of a template without recursion over its scopes. -/
def Template.stacked? (source : String) : Option Template :=
  ((Piece.cut source.toList).mapM Piece.token?).map fun tokens =>
    (tokens.foldl Stack.step {}).finish

namespace Outcome

variable {α β : Type}

@[simp] theorem result_note (record : Record) :
    (note record).result = .ok () := rfl

@[simp] theorem result_ofExcept (result : Except Error α) :
    (ofExcept result).result = result := rfl

@[simp] theorem result_map (change : α → β) (first : Outcome α) :
    (change <$> first).result = first.result.map change := rfl

theorem toOption_eq_some_iff {result : Except Error α} {value : α} :
    result.toOption = some value ↔ result = .ok value := by
  cases result <;> simp [Except.toOption]

theorem toOption_map (change : α → β) (result : Except Error α) :
    (result.map change).toOption = result.toOption.map change := by
  cases result <;> rfl

@[simp] theorem toOption_result_bind (first : Outcome α)
    (next : α → Outcome β) :
    (first >>= next).result.toOption =
      first.result.toOption.bind fun value => (next value).result.toOption := by
  obtain ⟨records, _ | value⟩ := first
  · rfl
  · simp only [Bind.bind, Outcome.bind, Except.toOption, Option.bind_some]

end Outcome

def Token.effect (scope : Option Scope) : Token → Effect
  | .text run => .adds (.ofText run)
  | .leaf content => .adds [.leaf content]
  | .opens header => .enters header
  | .closes closed source =>
      if scope = some closed then .leaves else .adds (.ofText source)

theorem Effect.toOption_result_ofInside (scope : Option Scope)
    (delimiter : Delimiter) (inside : List Char) (position : Nat) :
    (Effect.ofInside scope delimiter inside position).result.toOption =
      (Piece.tag delimiter inside).token?.map (Token.effect scope) := by
  cases delimiter with
  | expression => rfl
  | statement =>
      simp only [ofInside, ofStatement, Piece.token?,
        Outcome.toOption_result_bind, Outcome.result_note,
        Outcome.result_ofExcept]
      rcases Tag.ofBody (Text.trim inside) with error | tag
      · rfl
      · cases tag with
        | closes closed =>
            by_cases innermost : scope = some closed
            · simp only [ofTag, Token.ofTag, Token.effect, Except.toOption,
                Option.map_some, Option.bind_some, if_pos innermost]
              rfl
            · simp only [ofTag, Token.ofTag, Token.effect, Except.toOption,
                Option.map_some, Option.bind_some, if_neg innermost]
              rfl
        | _ => rfl

namespace Assembly

def stack (assembly : Assembly) : Stack := ⟨assembly.nodes, assembly.frames⟩

theorem scope?_eq_head? (assembly : Assembly) :
    assembly.scope? = assembly.stack.scopes.head? := by
  simp [scope?, stack, Stack.scopes]

theorem stack_apply_effect (assembly : Assembly) (passed : List Char)
    (token : Token) :
    ((assembly.move passed).apply
      (token.effect assembly.stack.scopes.head?)).stack =
      assembly.stack.step token := by
  cases token with
  | closes closed source =>
      simp only [Token.effect, Stack.step]
      split
      · simp only [apply, move, stack, Stack.pop]
        cases assembly.frames <;> rfl
      · rfl
  | _ => rfl

theorem stack_step (assembly : Assembly) (piece : Piece) :
    (assembly.step piece).result.toOption.map stack =
      piece.token?.map assembly.stack.step := by
  cases piece with
  | text run => rfl
  | unclosed delimiter inside => rfl
  | tag delimiter inside =>
      have sameScope : (assembly.move (delimiter.wrap inside)).scope? =
          assembly.stack.scopes.head? := assembly.scope?_eq_head?
      simp only [step, Outcome.result_map, Outcome.toOption_map,
        Effect.toOption_result_ofInside, Option.map_map, sameScope]
      congr 1
      funext token
      exact stack_apply_effect assembly _ token

theorem toOption_result_close (nodes : Template) (frames : List Frame) :
    (close nodes frames).result.toOption = some (Stack.close nodes frames) := by
  induction frames generalizing nodes with
  | nil => rfl
  | cons frame outer ih =>
      simp only [close, Stack.close, Outcome.toOption_result_bind,
        Outcome.result_note, ih]
      rfl

theorem toOption_result_run (assembly : Assembly) (pieces : List Piece) :
    (assembly.run pieces).result.toOption =
      (pieces.mapM Piece.token?).map fun tokens =>
        (tokens.foldl Stack.step assembly.stack).finish := by
  induction pieces generalizing assembly with
  | nil => exact toOption_result_close assembly.nodes assembly.frames
  | cons piece rest ih =>
      let goOn (stack : Stack) : Option Template :=
        (rest.mapM Piece.token?).map fun tokens =>
          (tokens.foldl Stack.step stack).finish
      calc
        _ = (assembly.step piece).result.toOption.bind (goOn ∘ stack) := by
          simp only [run, Outcome.toOption_result_bind, ih]
          rfl
        _ = (piece.token?.map assembly.stack.step).bind goOn := by
          rw [← Option.bind_map, assembly.stack_step]
        _ = _ := by
          simp only [goOn, List.mapM_cons]
          cases piece.token? <;> cases rest.mapM Piece.token? <;> rfl

end Assembly

theorem Template.toOption_parse (source : String) :
    (Template.parse source).toOption = Template.stacked? source := by
  rw [Template.parse, read_eq_assemble, assemble, Assembly.toOption_result_run]
  rfl

/-- The recursive reader builds the tree of the stack, whose pieces are cut from
left to right and make up the text. -/
theorem Template.parse_eq_ok_iff_stacked? {source : String}
    {template : Template} :
    (Template.parse source = .ok template ↔
        Template.stacked? source = some template) ∧
      Piece.Segmented (Piece.cut source.toList) ∧
      (Piece.cut source.toList).flatMap Piece.source = source.toList := by
  refine ⟨?_, Piece.cut_eq_iff.mp rfl⟩
  rw [← Template.toOption_parse, Outcome.toOption_eq_some_iff]

end TemplateTree
