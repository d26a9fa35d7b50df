import TemplateTree.Delimiter
import TemplateTree.Text.Basic

namespace TemplateTree

inductive FirstTag where
  /-- No mark opens a tag. -/
  | absent
  | unclosed (before : List Char) (delimiter : Delimiter) (inside : List Char)
  | closed (before : List Char) (delimiter : Delimiter) (inside rest : List Char)
deriving DecidableEq

namespace FirstTag

/-- A tag ends at the first closing mark of its kind behind its opening mark.  The two may not
overlap. -/
def find (s : List Char) : FirstTag :=
  match Delimiter.next? s with
  | none => .absent
  | some opening =>
      match Text.cut? opening.delimiter.closer opening.inside with
      | none => .unclosed opening.before opening.delimiter opening.inside
      | some (inside, rest) =>
          .closed opening.before opening.delimiter inside rest

theorem find_nil : find [] = .absent := rfl

theorem eq_append_of_unclosed {s before inside : List Char}
    {delimiter : Delimiter}
    (found : find s = .unclosed before delimiter inside) :
    s = before ++ delimiter.opener ++ inside := by
  unfold find at found
  split at found
  · cases found
  · rename_i opened
    split at found
    · cases found
      exact Delimiter.eq_append_of_next? opened
    · cases found

theorem eq_append_of_closed {s before inside rest : List Char}
    {delimiter : Delimiter}
    (found : find s = .closed before delimiter inside rest) :
    s = before ++ delimiter.opener ++ inside ++ delimiter.closer ++ rest := by
  unfold find at found
  split at found
  · cases found
  · rename_i opened
    split at found
    · cases found
    · rename_i closed
      cases found
      rw [Delimiter.eq_append_of_next? opened, Text.eq_append_of_cut? closed]
      simp only [List.append_assoc]

theorem length_lt_of_closed {s before inside rest : List Char}
    {delimiter : Delimiter}
    (found : find s = .closed before delimiter inside rest) :
    rest.length < s.length := by
  have whole := congrArg List.length (eq_append_of_closed found)
  simp only [List.length_append, Delimiter.length_opener] at whole
  omega

end FirstTag

end TemplateTree
