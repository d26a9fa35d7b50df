namespace TemplateTree.Text

/-- Ranges of code points, with both ends. -/
abbrev CharSet := List (Nat × Nat)

namespace CharSet

def contains (set : CharSet) (c : Char) : Bool :=
  set.any fun range => range.1 ≤ c.toNat && c.toNat ≤ range.2

end CharSet

/-- The characters of the Unicode property `White_Space`.  The separators U+001C to U+001F, the
zero width space and the byte order mark do not have it. -/
def blanks : CharSet :=
  [(0x9, 0xD), (0x20, 0x20), (0x85, 0x85), (0xA0, 0xA0), (0x1680, 0x1680),
   (0x2000, 0x200A), (0x2028, 0x2029), (0x202F, 0x202F), (0x205F, 0x205F),
   (0x3000, 0x3000)]

def isBlank (c : Char) : Bool := blanks.contains c

def trimStart (s : List Char) : List Char := s.dropWhile isBlank

def strip (p : Char → Bool) (s : List Char) : List Char :=
  ((s.dropWhile p).reverse.dropWhile p).reverse

def trim (s : List Char) : List Char := strip isBlank s

/-- The longest pieces in which all characters are blank or none is. -/
def runs (s : List Char) : List (List Char) :=
  s.splitBy fun left right => isBlank left == isBlank right

def words (s : List Char) : List (List Char) :=
  (runs s).filter fun run => run.all fun c => !isBlank c

/-- What stands before and after the first occurrence of `mark`. -/
def cut? (mark : List Char) : List Char → Option (List Char × List Char)
  | [] => if mark.isEmpty then some ([], []) else none
  | c :: rest =>
      if mark.isPrefixOf (c :: rest) then
        some ([], (c :: rest).drop mark.length)
      else
        (cut? mark rest).map fun (before, after) => (c :: before, after)

def occurs (mark s : List Char) : Bool := (cut? mark s).isSome

/-- What stands before the last occurrence of `c`. -/
def beforeLast? (c : Char) (s : List Char) : Option (List Char) :=
  match s.reverse.dropWhile (· != c) with
  | [] => none
  | _ :: before => some before.reverse

/-- The parts between commas, each made clean, without those that are empty
after that. -/
def items (clean : List Char → List Char) (s : List Char) : List (List Char) :=
  ((s.splitOn ',').map clean).filter fun part => !part.isEmpty

def listed (parts : List String) : String := String.intercalate ", " parts

theorem eq_append_of_cut? {mark s before after : List Char}
    (found : cut? mark s = some (before, after)) :
    s = before ++ mark ++ after := by
  induction s generalizing before with
  | nil =>
      simp only [cut?] at found
      split at found
      · rename_i empty
        simp_all
      · simp at found
  | cons c rest ih =>
      simp only [cut?] at found
      split at found
      · rename_i starts
        obtain ⟨tail, whole⟩ := List.isPrefixOf_iff_prefix.mp starts
        simp only [Option.some.injEq, Prod.mk.injEq] at found
        obtain ⟨rfl, rfl⟩ := found
        simp [← whole]
      · obtain ⟨⟨front, back⟩, inner, same⟩ := Option.map_eq_some_iff.mp found
        simp only [Prod.mk.injEq] at same
        obtain ⟨rfl, rfl⟩ := same
        simp [ih inner]

def isQuote (c : Char) : Bool := c == '\'' || c == '"'

/-- Drops all quotes from both ends, whichever they are. -/
def stripQuotes (s : List Char) : List Char := strip isQuote s

/-- What stands between two quotes `quote`, when the text starts with one and
ends with another. -/
def between? (quote : Char) : List Char → Option (List Char)
  | first :: rest =>
      if first = quote ∧ rest.getLast? = some quote then some rest.dropLast
      else none
  | [] => none

/-- Drops one pair of equal quotes. -/
def unquote (s : List Char) : List Char :=
  ((between? '\'' s).or (between? '"' s)).getD s

def singleQuoted (s : String) : String := "'" ++ s ++ "'"

end TemplateTree.Text
