import TemplateTree.Error
import TemplateTree.Text.Basic

namespace TemplateTree

/-- The types that a template declares for its variables, in strictly increasing order of their
keys, so that equal sets of hints are equal values. -/
structure TypeHints where
  entries : List (String × String) := []
  increasing : entries.Pairwise fun left right => left.1 < right.1 := by simp
deriving DecidableEq

namespace TypeHints

def empty : TypeHints := {}

/-- Puts an entry in its place, instead of an entry with the same key. -/
def insertEntry (key value : String) :
    List (String × String) → List (String × String)
  | [] => [(key, value)]
  | entry :: rest =>
      if key < entry.1 then (key, value) :: entry :: rest
      else if key = entry.1 then (key, value) :: rest
      else entry :: insertEntry key value rest

theorem key_mem_insertEntry {key value : String} {entry : String × String}
    {entries : List (String × String)}
    (member : entry ∈ insertEntry key value entries) :
    entry = (key, value) ∨ entry ∈ entries := by
  induction entries with
  | nil => simpa [insertEntry] using member
  | cons head rest ih =>
      simp only [insertEntry] at member
      split at member
      · simpa using member
      · split at member
        · rcases List.mem_cons.mp member with same | inRest
          · exact Or.inl same
          · exact Or.inr (List.mem_cons_of_mem _ inRest)
        · rcases List.mem_cons.mp member with same | inRest
          · exact Or.inr (same ▸ List.mem_cons_self)
          · rcases ih inRest with new | old
            · exact Or.inl new
            · exact Or.inr (List.mem_cons_of_mem _ old)

theorem lt_of_not_lt_of_ne {left right : String} (notLess : ¬left < right)
    (different : left ≠ right) : right < left := by
  apply Classical.byContradiction
  intro notGreater
  exact different
    (String.le_antisymm (String.not_lt.mp notGreater) (String.not_lt.mp notLess))

theorem increasing_insertEntry (key value : String)
    (entries : List (String × String))
    (increasing : entries.Pairwise fun left right => left.1 < right.1) :
    (insertEntry key value entries).Pairwise fun left right =>
      left.1 < right.1 := by
  induction entries with
  | nil => simp [insertEntry]
  | cons head rest ih =>
      obtain ⟨headLess, restIncreasing⟩ := List.pairwise_cons.mp increasing
      simp only [insertEntry]
      split
      · rename_i less
        refine List.pairwise_cons.mpr ⟨fun entry member => ?_, increasing⟩
        rcases List.mem_cons.mp member with rfl | inRest
        · exact less
        · exact String.lt_trans less (headLess entry inRest)
      · rename_i notLess
        split
        · rename_i same
          exact List.pairwise_cons.mpr
            ⟨fun entry member => same ▸ headLess entry member, restIncreasing⟩
        · rename_i different
          refine List.pairwise_cons.mpr
            ⟨fun entry member => ?_, ih restIncreasing⟩
          rcases key_mem_insertEntry member with rfl | inRest
          · exact lt_of_not_lt_of_ne notLess different
          · exact headLess entry inRest

/-- The value last inserted for a key stands. -/
def insert (hints : TypeHints) (key value : String) : TypeHints :=
  ⟨insertEntry key value hints.entries,
    increasing_insertEntry key value hints.entries hints.increasing⟩

def ofList (entries : List (String × String)) : TypeHints :=
  entries.foldl (fun hints entry => hints.insert entry.1 entry.2) empty

def find? (hints : TypeHints) (key : String) : Option String :=
  hints.entries.lookup key

/-- The type may be quoted; it is stored in single quotes either way. -/
def readWord (word : List Char) : Except Error (String × String) :=
  match word.splitOn ':' with
  | [key, value] =>
      if key.isEmpty then .error (.malformedType (String.ofList word))
      else
        .ok (String.ofList key,
          Text.singleQuoted (String.ofList (Text.unquote value)))
  | _ => .error (.malformedType (String.ofList word))

def read (arguments : List Char) : Except Error TypeHints :=
  match Text.words arguments with
  | [] => .error .noTypes
  | words => (words.mapM readWord).map ofList

end TypeHints

end TemplateTree
