import TemplateTree.Effect
import TemplateTree.FirstTag
import TemplateTree.Text.Bytes

namespace TemplateTree

/-! `readNodes` goes from tag to tag, calls itself for each scope that a tag enters, and stops
behind the end tag of its own scope or at the end of the text, where all open scopes end. -/

/-- Where reading stands: the bytes before it and the text after it. -/
structure Cursor where
  position : Nat
  rest : List Char
deriving DecidableEq

namespace Cursor

/-- The place behind some text, with the rest of the text after it. -/
def move (cursor : Cursor) (passed rest : List Char) : Cursor :=
  ⟨cursor.position + Text.byteLength passed, rest⟩

/-- A place with no more text after it than the cursor has. -/
abbrev Onward (cursor : Cursor) : Type :=
  { stop : Cursor // stop.rest.length ≤ cursor.rest.length }

end Cursor

def noteLeftOpen : Option Scope → Outcome Unit
  | none => return ()
  | some scope => Outcome.note (.scopeLeftOpen scope)

def readNodes (scope : Option Scope) (cursor : Cursor) :
    Outcome (Template × cursor.Onward) :=
  match found : FirstTag.find cursor.rest with
  | .absent => do
      noteLeftOpen scope
      return (.ofText cursor.rest,
        ⟨cursor.move cursor.rest [], Nat.zero_le _⟩)
  | .unclosed before delimiter _ =>
      .fail (.unclosedTag delimiter (cursor.move before []).position)
  | .closed before delimiter inside rest => do
      let next := cursor.move (before ++ delimiter.wrap inside) rest
      have shorter : next.rest.length < cursor.rest.length :=
        FirstTag.length_lt_of_closed found
      match ← Effect.ofInside scope delimiter inside next.position with
      | .leaves => return (.ofText before, ⟨next, Nat.le_of_lt shorter⟩)
      | .adds nodes =>
          (fun (later, ⟨stop, onward⟩) =>
            (.ofText before ++ nodes ++ later,
              ⟨stop, Nat.le_trans onward (Nat.le_of_lt shorter)⟩)) <$>
                readNodes scope next
      | .enters header => do
          let (children, ⟨middle, inner⟩) ← readNodes (some header.scope) next
          have fewer : middle.rest.length < cursor.rest.length :=
            Nat.lt_of_le_of_lt inner shorter
          (fun (later, ⟨stop, onward⟩) =>
            (.ofText before ++ .scope header children :: later,
              ⟨stop, Nat.le_trans onward (Nat.le_of_lt fewer)⟩)) <$>
                readNodes scope middle
termination_by cursor.rest.length

def readScope (scope : Option Scope) (cursor : Cursor) :
    Outcome (Template × Cursor) :=
  (fun (nodes, stop) => (nodes, stop.1)) <$> readNodes scope cursor

theorem readScope_of_absent {scope : Option Scope} {cursor : Cursor}
    (absent : FirstTag.find cursor.rest = .absent) :
    readScope scope cursor = (do
      noteLeftOpen scope
      return (.ofText cursor.rest, cursor.move cursor.rest [])) := by
  rw [readScope, readNodes]
  split <;> simp_all

theorem readScope_of_unclosed {scope : Option Scope} {cursor : Cursor}
    {before inside : List Char} {delimiter : Delimiter}
    (unclosed : FirstTag.find cursor.rest = .unclosed before delimiter inside) :
    readScope scope cursor =
      .fail (.unclosedTag delimiter (cursor.move before []).position) := by
  rw [readScope, readNodes]
  split <;> simp_all
  rfl

theorem readScope_of_closed {scope : Option Scope} {cursor : Cursor}
    {before inside rest : List Char} {delimiter : Delimiter}
    (closed : FirstTag.find cursor.rest =
      .closed before delimiter inside rest) :
    readScope scope cursor = (do
      let next := cursor.move (before ++ delimiter.wrap inside) rest
      match ← Effect.ofInside scope delimiter inside next.position with
      | .leaves => return (.ofText before, next)
      | .adds nodes =>
          (fun (later, stop) => (.ofText before ++ nodes ++ later, stop)) <$>
            readScope scope next
      | .enters header => do
          let (children, middle) ← readScope (some header.scope) next
          (fun (later, stop) =>
            (.ofText before ++ .scope header children :: later, stop)) <$>
              readScope scope middle) := by
  rw [readScope, readNodes]
  split
  · simp_all
  · simp_all
  · rename_i found
    rw [closed] at found
    cases found
    simp only [map_bind]
    congr 1
    funext effect
    cases effect with
    | adds nodes => simp [readScope]
    | enters header => simp [readScope]
    | leaves => simp

theorem length_le_of_readScope {scope : Option Scope} {cursor stop : Cursor}
    {nodes : Template}
    (finished : (readScope scope cursor).result = .ok (nodes, stop)) :
    stop.rest.length ≤ cursor.rest.length := by
  simp only [readScope, Functor.map, Outcome.map] at finished
  cases outcome : (readNodes scope cursor).result with
  | error error => simp [outcome, Except.map] at finished
  | ok value =>
      obtain ⟨read, place⟩ := value
      simp only [outcome, Except.map, Except.ok.injEq, Prod.mk.injEq] at finished
      exact finished.2 ▸ place.2

namespace Template

def read (source : String) : Outcome Template :=
  Prod.fst <$> readScope none ⟨0, source.toList⟩

def parse (source : String) : Except Error Template := (read source).result

def log (source : String) : List Record := (read source).records

end Template

end TemplateTree
