import TemplateTree.Error
import TemplateTree.Node.Basic
import TemplateTree.Text.Escaped

namespace TemplateTree

inductive Level where
  | trace
  | debug
deriving DecidableEq

def Level.name : Level → String
  | .trace => "TRACE"
  | .debug => "DEBUG"

/-- Positions are the bytes of UTF-8 text up to the end of the tag. -/
inductive Record where
  | statementTag (keyword : String) (position : Nat)
  | scopeEntered (scope : Scope) (position : Nat)
  | loopWithoutIn (body : String)
  | orphanedEnd (scope : Scope)
  | unrecognized (body : String)
  /-- The text ended before the end tag of the scope. -/
  | scopeLeftOpen (scope : Scope)
deriving DecidableEq

namespace Record

def level : Record → Level
  | .statementTag _ _ => .trace
  | .scopeEntered _ _ => .trace
  | .loopWithoutIn _ => .debug
  | .orphanedEnd _ => .debug
  | .unrecognized _ => .debug
  | .scopeLeftOpen _ => .debug

def message : Record → String
  | .statementTag keyword position =>
      "block tag " ++ Text.quoted keyword ++ " at byte " ++ toString position
  | .scopeEntered scope position =>
      "entering scope closed by " ++ scope.endKeyword ++ " at byte " ++
        toString position
  | .loopWithoutIn body =>
      "for tag without `in` kept as text: " ++ Text.quoted body
  | .orphanedEnd scope => "orphaned " ++ scope.endKeyword ++ " kept as text"
  | .unrecognized body => "unrecognized tag kept as text: " ++ Text.quoted body
  | .scopeLeftOpen scope =>
      "reached end of input without \x7b% " ++ scope.endKeyword ++
        " %\x7d, closing scope"

/-- The record belongs to a tag that stays in the tree as text. -/
def keepsTag : Record → Bool
  | .loopWithoutIn _ | .orphanedEnd _ | .unrecognized _ => true
  | _ => false

end Record

/-- A result or an error, with the records that were made before it. -/
structure Outcome (α : Type) where
  records : List Record
  result : Except Error α

namespace Outcome

variable {α β γ : Type}

@[inline] def ok (value : α) : Outcome α := ⟨[], .ok value⟩

@[inline] def fail (error : Error) : Outcome α := ⟨[], .error error⟩

@[inline] def ofExcept (result : Except Error α) : Outcome α := ⟨[], result⟩

@[inline] def note (record : Record) : Outcome Unit := ⟨[record], .ok ()⟩

@[inline] def bind (first : Outcome α) (next : α → Outcome β) : Outcome β :=
  match first with
  | ⟨records, .error error⟩ => ⟨records, .error error⟩
  | ⟨records, .ok value⟩ =>
      match next value with
      | ⟨later, result⟩ => ⟨records ++ later, result⟩

@[inline] def map (change : α → β) (first : Outcome α) : Outcome β :=
  ⟨first.records, first.result.map change⟩

instance : Monad Outcome where
  pure := ok
  bind := bind
  map := map

theorem ok_bind (value : α) (next : α → Outcome β) :
    (pure value >>= next : Outcome β) = next value := rfl

theorem fail_bind (error : Error) (next : α → Outcome β) :
    (fail error >>= next : Outcome β) = fail error := rfl

theorem bind_pure_comp (change : α → β) (first : Outcome α) :
    (first >>= fun value => pure (change value) : Outcome β) =
      change <$> first := by
  obtain ⟨records, _ | value⟩ := first <;>
    simp [Bind.bind, bind, Pure.pure, ok, Functor.map, map, Except.map]

/-- What follows need only agree on the value that is passed on. -/
theorem bind_congr_of_result {first : Outcome α} {left right : α → Outcome β}
    (same : ∀ value, first.result = .ok value → left value = right value) :
    first >>= left = first >>= right := by
  obtain ⟨records, _ | value⟩ := first
  · rfl
  · simp only [Bind.bind, bind, same value rfl]

theorem map_id (first : Outcome α) : (id <$> first : Outcome α) = first := by
  obtain ⟨records, _ | value⟩ := first <;> rfl

theorem bind_assoc (first : Outcome α) (next : α → Outcome β)
    (last : β → Outcome γ) :
    (first >>= next >>= last : Outcome γ) =
      first >>= fun value => next value >>= last := by
  obtain ⟨records, _ | value⟩ := first
  · rfl
  · simp only [Bind.bind, bind]
    rcases next value with ⟨later, _ | middle⟩
    · rfl
    · simp [List.append_assoc]

instance : LawfulMonad Outcome :=
  LawfulMonad.mk' Outcome map_id ok_bind bind_assoc (fun _ _ => rfl)
    (fun _ _ => rfl) (fun _ _ => rfl) bind_pure_comp (fun _ _ => rfl)

end Outcome

end TemplateTree
