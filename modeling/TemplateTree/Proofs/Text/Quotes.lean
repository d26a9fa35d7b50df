import TemplateTree.Proofs.Text.Edges
import TemplateTree.Text.Basic

namespace TemplateTree.Text

variable {p : Char → Bool} {s : List Char} {quote : Char}

theorem toList_singleQuoted (s : String) :
    (singleQuoted s).toList = '\'' :: (s.toList ++ ['\'']) := by
  simp [singleQuoted]

theorem singleQuoted_inj {left right : String} :
    singleQuoted left = singleQuoted right ↔ left = right := by
  simp only [singleQuoted, String.append_left_inj, String.append_right_inj]

theorem stripped_quoted (kept : p quote = false) (s : List Char) :
    Stripped p (quote :: (s ++ [quote])) := by
  constructor
  · intro c first
    cases first
    exact kept
  · intro c last
    rw [← List.cons_append, List.getLast?_concat] at last
    cases last
    exact kept

theorem uniform_quoted (noBlank : Uniform false s) :
    Uniform false ('\'' :: (s ++ ['\''])) := by
  intro c member
  rcases List.mem_cons.mp member with rfl | later
  · decide
  · rcases List.mem_append.mp later with inside | last
    · exact noBlank c inside
    · rw [List.mem_singleton.mp last]
      decide

theorem isBlank_of_isQuote (isMark : isQuote quote = true) : isBlank quote = false := by
  simp only [isQuote, Bool.or_eq_true, beq_iff_eq] at isMark
  rcases isMark with rfl | rfl <;> decide

theorem trim_enclosed (isMark : isQuote quote = true) (s : List Char) :
    trim (quote :: (s ++ [quote])) = quote :: (s ++ [quote]) :=
  strip_of_stripped (stripped_quoted (isBlank_of_isQuote isMark) s)

theorem trim_quoted (s : List Char) :
    trim ('\'' :: (s ++ ['\''])) = '\'' :: (s ++ ['\'']) :=
  trim_enclosed rfl s

theorem stripQuotes_enclosed (isMark : isQuote quote = true) (s : List Char) :
    stripQuotes (quote :: (s ++ [quote])) = stripQuotes s := by
  have isOne : ∀ c ∈ [quote], isQuote c = true := List.forall_mem_singleton.mpr isMark
  rw [stripQuotes, ← List.singleton_append, strip_append_left isOne,
    strip_append_right isOne, stripQuotes]

theorem stripQuotes_singleQuotes (s : List Char) :
    stripQuotes ('\'' :: (s ++ ['\''])) = stripQuotes s :=
  stripQuotes_enclosed rfl s

theorem stripQuotes_quoted (stripped : Stripped isQuote s) :
    stripQuotes ('\'' :: (s ++ ['\''])) = s := by
  rw [stripQuotes_singleQuotes, stripQuotes, strip_of_stripped stripped]

theorem unquote_quoted (s : List Char) : unquote ('\'' :: (s ++ ['\''])) = s := by
  rw [unquote, between?, if_pos ⟨rfl, List.getLast?_concat⟩, List.dropLast_concat]
  rfl

theorem between?_isInfix {inside : List Char}
    (found : between? quote s = some inside) : inside <:+: s := by
  cases s with
  | nil => cases found
  | cons first rest =>
      rw [between?] at found
      split at found
      · cases found
        exact (List.dropLast_prefix rest).isInfix.trans
          (List.suffix_cons first rest).isInfix
      · cases found

theorem unquote_isInfix (s : List Char) : unquote s <:+: s := by
  rw [unquote]
  cases single : between? '\'' s with
  | some inside => exact between?_isInfix single
  | none =>
      cases double : between? '"' s with
      | some inside => exact between?_isInfix double
      | none => exact List.infix_rfl

theorem between?_eq_some_iff {inside : List Char} :
    between? quote s = some inside ↔ s = quote :: (inside ++ [quote]) := by
  constructor
  · intro found
    cases s with
    | nil => cases found
    | cons first rest =>
        rw [between?] at found
        split at found
        · rename_i ends
          cases found
          rw [ends.1, List.dropLast_append_getLast? quote ends.2]
        · cases found
  · intro whole
    rw [whole, between?, if_pos ⟨rfl, List.getLast?_concat⟩, List.dropLast_concat]

/-- The quotes around a text are gone, one at each end, when they were equal. -/
def Unquoted (s inside : List Char) : Prop :=
  (∃ quote, isQuote quote = true ∧ s = quote :: (inside ++ [quote])) ∨
    inside = s ∧ ∀ quote between, isQuote quote = true → s ≠ quote :: (between ++ [quote])

theorem unquoted_unquote (s : List Char) : Unquoted s (unquote s) := by
  rw [unquote]
  cases single : between? '\'' s with
  | some inside => exact Or.inl ⟨'\'', rfl, between?_eq_some_iff.mp single⟩
  | none =>
      cases double : between? '"' s with
      | some inside => exact Or.inl ⟨'"', rfl, between?_eq_some_iff.mp double⟩
      | none =>
          refine Or.inr ⟨rfl, fun quote between isMark whole => ?_⟩
          have found := between?_eq_some_iff.mpr whole
          simp only [isQuote, Bool.or_eq_true, beq_iff_eq] at isMark
          rcases isMark with rfl | rfl
          · rw [single] at found
            cases found
          · rw [double] at found
            cases found

theorem Unquoted.eq_unquote {inside : List Char} (unquoted : Unquoted s inside) :
    inside = unquote s := by
  rcases unquoted with ⟨quote, isMark, rfl⟩ | ⟨rfl, bare⟩
  · rcases unquoted_unquote (quote :: (inside ++ [quote])) with ⟨other, _, same⟩ | ⟨_, bare⟩
    · obtain ⟨rfl, same⟩ := List.cons.inj same
      exact List.append_cancel_right same
    · exact absurd rfl (bare quote inside isMark)
  · rcases unquoted_unquote inside with ⟨quote, isMark, same⟩ | ⟨same, _⟩
    · exact absurd same (bare quote _ isMark)
    · exact same.symm

end TemplateTree.Text
