import TemplateTree.Proofs.Tag.Keyword
import TemplateTree.Proofs.Text.Items

namespace TemplateTree.Tag

open Text

variable {arguments : List Char} {targets values : List String}

/-- A part of a comma list that can stand before the equals sign. -/
def IsTarget (s : List Char) : Prop := IsItem s ∧ '=' ∉ s

instance (s : List Char) : Decidable (IsTarget s) :=
  inferInstanceAs (Decidable (_ ∧ _))

theorem equals_not_mem_listed
    (areTargets : ∀ target ∈ targets, IsTarget target.toList) :
    '=' ∉ (listed targets).toList :=
  not_mem_listed (by decide) (by decide) fun target member =>
    (areTargets target member).2

/-- What stands behind the equals sign is a comma list, whatever it is. -/
theorem set_trim_items (areTargets : ∀ target ∈ targets, IsTarget target.toList)
    (expression : String) :
    set (trim (listed targets ++ " = " ++ expression).toList) =
      .leaf (.assign targets ((items trim expression.toList).map String.ofList)) := by
  have noEquals : '=' ∉ ((listed targets).toList ++ [' ']).dropWhile isBlank := by
    intro member
    have inWhole := (List.dropWhile_suffix isBlank).subset member
    rcases List.mem_append.mp inWhole with inTargets | inSpace
    · exact equals_not_mem_listed areTargets inTargets
    · simp at inSpace
  have onBothSides : (listed targets ++ " = " ++ expression).toList =
      ((listed targets).toList ++ [' ']) ++ '=' :: ([' '] ++ expression.toList) := by
    simp
  rw [onBothSides, trim, strip_append_cons (by decide), set, cut?_singleton noEquals]
  simp only [items_dropWhile trim_trim, items_rdropWhile trim_trim,
    items_append_right trim_trim isBlank_space,
    items_append_left trim_trim isBlank_space,
    items_listed fun target member => (areTargets target member).1]

theorem set_trim_assign
    (areTargets : ∀ target ∈ targets, IsTarget target.toList)
    (areItems : ∀ value ∈ values, IsItem value.toList) :
    set (trim (listed targets ++ " = " ++ listed values).toList) =
      .leaf (.assign targets values) := by
  rw [set_trim_items areTargets, items_listed areItems]

theorem set_trim_capture
    (areTargets : ∀ target ∈ targets, IsTarget target.toList) :
    set (trim (listed targets).toList) = .opens (.capture targets []) := by
  have noEquals : cut? ['='] (trim (listed targets).toList) = none := by
    rw [cut?_eq_none_iff, List.singleton_infix_iff]
    intro member
    exact equals_not_mem_listed areTargets ((strip_isInfix isBlank _).subset member)
  rw [set, noEquals]
  simp only [items_trim trim_trim,
    items_listed fun target member => (areTargets target member).1]

/-- Only a capture of nothing could come from no arguments, and no arguments are
not understood. -/
theorem ofKeyword_set {tag : Tag} (reads : set arguments = tag)
    (something : tag ≠ .opens (.capture [] [])) :
    ofKeyword arguments .set = .ok tag := by
  have ofNothing : set [] = .opens (.capture [] []) := rfl
  have nonempty : ¬arguments.isEmpty = true := by
    intro empty
    rw [List.isEmpty_iff.mp empty, ofNothing] at reads
    exact something reads.symm
  rw [ofKeyword, if_neg nonempty, reads]

/-- The strings are parts of the arguments. -/
def PartsOf (arguments : List Char) (parts : List String) : Prop :=
  ∀ part ∈ parts, IsItem part.toList ∧ part.toList <:+: arguments

theorem partsOf_items (arguments : List Char) :
    PartsOf arguments ((items trim arguments).map String.ofList) := by
  intro part member
  obtain ⟨item, isPart, rfl⟩ := List.mem_map.mp member
  rw [String.toList_ofList]
  exact isItem_of_mem_items isPart

theorem PartsOf.of_isInfix {shorter : List Char} {parts : List String}
    (areParts : PartsOf shorter parts) (inside : shorter <:+: arguments) :
    PartsOf arguments parts :=
  fun part member =>
    ⟨(areParts part member).1, (areParts part member).2.trans inside⟩

theorem set_cases (arguments : List Char) :
    (∃ targets values, set arguments = .leaf (.assign targets values) ∧
      PartsOf arguments targets ∧ PartsOf arguments values ∧
      ∀ target ∈ targets, '=' ∉ target.toList) ∨
    ∃ targets, set arguments = .opens (.capture targets []) ∧
      PartsOf arguments targets ∧ ∀ target ∈ targets, '=' ∉ target.toList := by
  rw [set]
  cases found : cut? ['='] arguments with
  | some sides =>
      obtain ⟨left, right⟩ := sides
      have first := not_infix_of_cut? (by simp) found
      have inLeft := before_isInfix_of_cut? found
      have inRight := after_isInfix_of_cut? found
      refine Or.inl ⟨_, _, rfl, (partsOf_items left).of_isInfix inLeft,
        (partsOf_items right).of_isInfix inRight, ?_⟩
      intro target member equals
      apply first
      rw [List.singleton_infix_iff]
      exact (partsOf_items left target member).2.subset equals
  | none =>
      have absent := cut?_eq_none_iff.mp found
      refine Or.inr ⟨_, rfl, partsOf_items arguments, ?_⟩
      intro target member equals
      apply absent
      rw [List.singleton_infix_iff]
      exact (partsOf_items arguments target member).2.subset equals

end TemplateTree.Tag
