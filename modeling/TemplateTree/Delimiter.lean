import TemplateTree.Text.Bytes

namespace TemplateTree

inductive Delimiter where
  | statement
  | expression
deriving DecidableEq

namespace Delimiter

def opener : Delimiter → List Char
  | .statement => ['{', '%']
  | .expression => ['{', '{']

def closer : Delimiter → List Char
  | .statement => ['%', '}']
  | .expression => ['}', '}']

def label : Delimiter → String
  | .statement => "block"
  | .expression => "expression"

/-- A tag in canonical form: one blank on each side of its body. -/
def enclose (delimiter : Delimiter) (body : String) : String :=
  String.ofList delimiter.opener ++ " " ++ body ++ " " ++
    String.ofList delimiter.closer

theorem toList_enclose (delimiter : Delimiter) (body : String) :
    (delimiter.enclose body).toList =
      delimiter.opener ++ ' ' :: (body.toList ++ ' ' :: delimiter.closer) := by
  simp [enclose]

/-- A tag as it stands in a text, given what stands between its marks. -/
def wrap (delimiter : Delimiter) (inside : List Char) : List Char :=
  delimiter.opener ++ inside ++ delimiter.closer

theorem length_opener (delimiter : Delimiter) : delimiter.opener.length = 2 := by
  cases delimiter <;> rfl

/-- A place where a tag opens: the text before it, the kind of the tag, and the
text that follows the opening mark. -/
structure Opening where
  before : List Char
  delimiter : Delimiter
  inside : List Char
deriving DecidableEq

def atFront? : List Char → Option (Delimiter × List Char)
  | '{' :: '%' :: inside => some (.statement, inside)
  | '{' :: '{' :: inside => some (.expression, inside)
  | _ => none

/-- The leftmost opening mark of either kind.  Two marks never start at the same place, because
they differ in their second character. -/
def next? : List Char → Option Opening
  | [] => none
  | c :: rest =>
      match atFront? (c :: rest) with
      | some (delimiter, inside) => some ⟨[], delimiter, inside⟩
      | none =>
          (next? rest).map fun opening =>
            { opening with before := c :: opening.before }

theorem eq_append_of_atFront? {s inside : List Char} {delimiter : Delimiter}
    (found : atFront? s = some (delimiter, inside)) :
    s = delimiter.opener ++ inside := by
  unfold atFront? at found
  split at found <;> cases found <;> rfl

theorem eq_append_of_next? {s : List Char} {opening : Opening}
    (found : next? s = some opening) :
    s = opening.before ++ opening.delimiter.opener ++ opening.inside := by
  induction s generalizing opening with
  | nil => simp [next?] at found
  | cons c rest ih =>
      unfold next? at found
      split at found
      · rename_i here
        cases found
        simpa using eq_append_of_atFront? here
      · obtain ⟨later, inRest, rfl⟩ := Option.map_eq_some_iff.mp found
        simpa using ih inRest

def earlier? : Option Nat → Option Nat → Option (Nat × Delimiter)
  | some ofStatement, some ofExpression =>
      if ofExpression < ofStatement then some (ofExpression, .expression)
      else some (ofStatement, .statement)
  | some ofStatement, none => some (ofStatement, .statement)
  | none, ofExpression? => ofExpression?.map fun offset => (offset, .expression)

/-- The same by offsets: each kind of mark is searched for by itself, and the smaller offset
wins. -/
def leftmost? (s : List Char) : Option (Nat × Delimiter) :=
  earlier? (Text.offset? statement.opener s) (Text.offset? expression.opener s)

def Opening.place (opening : Opening) : Nat × Delimiter :=
  (Text.byteLength opening.before, opening.delimiter)

end Delimiter

end TemplateTree
