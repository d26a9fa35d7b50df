import TemplateTree.Text.AttachingMarks
import TemplateTree.Text.Basic
import TemplateTree.Text.Unprintable

namespace TemplateTree.Text

/-- The characters of printable ASCII are decided without the tables. -/
def isHidden (c : Char) : Bool :=
  if ' ' ≤ c ∧ c ≤ '~' then false
  else attachingMarks.contains c || unprintables.contains c

def escaped (c : Char) : List Char :=
  match c with
  | '"' => ['\\', '"']
  | '\\' => ['\\', '\\']
  | '\x00' => ['\\', '0']
  | '\t' => ['\\', 't']
  | '\n' => ['\\', 'n']
  | '\r' => ['\\', 'r']
  | c =>
      if isHidden c then
        ['\\', 'u', '{'] ++ Nat.toDigits 16 c.toNat ++ ['}']
      else [c]

def quoted (s : String) : String :=
  String.ofList ('"' :: s.toList.flatMap escaped ++ ['"'])

def quotedList (values : List String) : String :=
  "[" ++ listed (values.map quoted) ++ "]"

def quotedEntries (entries : List (String × String)) : String :=
  "\x7b" ++ listed (entries.map fun (key, value) =>
    quoted key ++ ": " ++ quoted value) ++ "\x7d"

end TemplateTree.Text
