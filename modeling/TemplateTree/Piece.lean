import TemplateTree.Effect
import TemplateTree.FirstTag

namespace TemplateTree

/-! A template is cut from left to right into plain text and tags, whatever scopes the tags
open or close.  A tag without its closing mark is the last piece. -/

inductive Piece where
  | text (run : List Char)
  | tag (delimiter : Delimiter) (inside : List Char)
  | unclosed (delimiter : Delimiter) (inside : List Char)
deriving DecidableEq

namespace Piece

def source : Piece → List Char
  | .text run => run
  | .tag delimiter inside => delimiter.wrap inside
  | .unclosed delimiter inside => delimiter.opener ++ inside

/-- No text is no piece. -/
def ofText (run : List Char) : List Piece :=
  if run.isEmpty then [] else [.text run]

def cut (s : List Char) : List Piece :=
  match found : FirstTag.find s with
  | .absent => ofText s
  | .unclosed before delimiter inside =>
      ofText before ++ [.unclosed delimiter inside]
  | .closed before delimiter inside rest =>
      ofText before ++ .tag delimiter inside :: cut rest
termination_by s.length
decreasing_by exact FirstTag.length_lt_of_closed found

theorem cut_of_absent {s : List Char} (absent : FirstTag.find s = .absent) :
    cut s = ofText s := by
  rw [cut]
  split <;> simp_all

theorem cut_of_unclosed {s before inside : List Char} {delimiter : Delimiter}
    (unclosed : FirstTag.find s = .unclosed before delimiter inside) :
    cut s = ofText before ++ [.unclosed delimiter inside] := by
  rw [cut]
  split <;> simp_all

theorem cut_of_closed {s before inside rest : List Char}
    {delimiter : Delimiter}
    (closed : FirstTag.find s = .closed before delimiter inside rest) :
    cut s = ofText before ++ .tag delimiter inside :: cut rest := by
  rw [cut]
  split <;> simp_all

theorem cut_nil : cut [] = [] := cut_of_absent FirstTag.find_nil

theorem flatMap_source_ofText (run : List Char) :
    (ofText run).flatMap source = run := by
  cases run <;> simp [ofText, source]

theorem flatMap_source_cut (s : List Char) : (cut s).flatMap source = s := by
  induction s using cut.induct with
  | case1 s absent =>
      rw [cut_of_absent absent, flatMap_source_ofText]
  | case2 s before delimiter inside unclosed =>
      rw [cut_of_unclosed unclosed, FirstTag.eq_append_of_unclosed unclosed]
      simp [flatMap_source_ofText, source]
  | case3 s before delimiter inside rest closed ih =>
      rw [cut_of_closed closed, FirstTag.eq_append_of_closed closed]
      simp [flatMap_source_ofText, source, ih, Delimiter.wrap]

def error? (position : Nat) : Piece → Option Error
  | .text _ => none
  | .tag .expression _ => none
  | .tag .statement inside =>
      match Tag.ofBody (Text.trim inside) with
      | .ok _ => none
      | .error error => some error
  | .unclosed delimiter _ => some (.unclosedTag delimiter position)

end Piece

end TemplateTree
