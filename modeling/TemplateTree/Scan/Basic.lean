import TemplateTree.Error
import TemplateTree.Node.Basic
import TemplateTree.Text.Basic
import TemplateTree.Text.Bytes

namespace TemplateTree

/-! Reading by positions in bytes.  Nothing is taken for granted about them: a cut that is no
range of its text halts the scan, and so does a round of reading that gets no further. -/

inductive Scan.Halt where
  | error (error : Error)
  | notARange (s : List Char) (start stop : Nat)
  | standstill (position next : Nat)
deriving DecidableEq

abbrev Scan (α : Type) : Type := Except Scan.Halt α

namespace Scan

variable {α β : Type}

def fail (error : Error) : Scan α := .error (.error error)

def ofExcept : Except Error α → Scan α
  | .ok value => .ok value
  | .error error => fail error

def slice (s : List Char) (start stop : Nat) : Scan (List Char) :=
  if range : Text.IsRange s start stop then .ok range.text
  else .error (.notARange s start stop)

def sliceFrom (s : List Char) (start : Nat) : Scan (List Char) :=
  slice s start (Text.byteLength s)

def sliceTo (s : List Char) (stop : Nat) : Scan (List Char) := slice s 0 stop

/-- The place of the next round, which must lie behind that of this round and within the
text. -/
def advance (s : List Char) (position next : Nat) :
    Scan { place : Nat // position < place ∧ place ≤ Text.byteLength s } :=
  if further : position < next ∧ next ≤ Text.byteLength s then .ok ⟨next, further⟩
  else .error (.standstill position next)

theorem ok_bind (value : α) (next : α → Scan β) :
    (Except.ok value >>= next : Scan β) = next value := rfl

theorem fail_bind (error : Error) (next : α → Scan β) :
    (fail error >>= next : Scan β) = fail error := rfl

theorem ofExcept_bind (first : Except Error α) (next : α → Except Error β) :
    ofExcept (first >>= next) = ofExcept first >>= fun value => ofExcept (next value) := by
  cases first <;> rfl

theorem ofExcept_map (change : α → β) (first : Except Error α) :
    ofExcept (first.map change) = ofExcept first >>= fun value => .ok (change value) := by
  cases first <;> rfl

end Scan

/-- The characters of a text, each with its offset, when the first one is at `offset`. -/
def Text.withOffsets (offset : Nat) : List Char → List (Nat × Char)
  | [] => []
  | c :: rest => (offset, c) :: withOffsets (offset + c.utf8Size) rest

namespace Scan

def run (blank : Bool) (s : List Char) : Node :=
  .leaf (if blank then .whitespace (String.ofList s) else .text (String.ofList s))

/-- The runs from the one that is under way on, which starts at `start`. -/
def runsFrom (s : List Char) (start : Nat) (blank : Bool) : List (Nat × Char) → Scan Template
  | [] => do
      let last ← sliceFrom s start
      return [run blank last]
  | (offset, c) :: rest =>
      if Text.isBlank c = blank then runsFrom s start blank rest
      else do
        let first ← slice s start offset
        let later ← runsFrom s offset (!blank) rest
        return run blank first :: later

def plain (s : List Char) : Scan Template :=
  match Text.withOffsets 0 s with
  | [] => return []
  | (start, c) :: rest => runsFrom s start (Text.isBlank c) rest

end Scan

end TemplateTree
