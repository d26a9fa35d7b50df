import TemplateTree.Proofs.Spelling
import TemplateTree.Proofs.Tag.Set
import TemplateTree.Proofs.Text.Words

namespace TemplateTree.Tag

open Text

variable {arguments body item collection name : List Char}

/-- The item of a loop in the arguments of its tag: the first `in` between two
spaces stands behind it. -/
def IsLoopItem (s : List Char) : Prop :=
  s ≠ [] ∧ Stripped isBlank s ∧ ¬" in ".toList <:+: s ∧ ¬" in".toList <:+ s

instance (s : List Char) : Decidable (IsLoopItem s) :=
  inferInstanceAs (Decidable (_ ∧ _ ∧ _ ∧ _))

theorem cut?_in (inside : ¬" in ".toList <:+: item) (ends : ¬" in".toList <:+ item)
    (collection : List Char) :
    cut? " in ".toList (item ++ " in ".toList ++ collection) =
      some (item, collection) := by
  refine (cut?_eq_some_iff (by decide)).mpr ⟨rfl, fun found => ?_⟩
  rcases List.infix_append_iff_ne_nil.mp found with
    inItem | inMark | ⟨front, back, _, backNonempty, split, isSuffix, isPrefix⟩
  · exact inside inItem
  · revert inMark
    decide
  · -- What overlaps the mark starts with a space, which can only be the last one.
    obtain ⟨c, rest, rfl⟩ := List.exists_cons_of_ne_nil backNonempty
    have starts : c :: rest <+: [' ', 'i', 'n'] := isPrefix
    have spelled : front ++ c :: rest = [' ', 'i', 'n'] ++ [' '] := split.symm
    obtain ⟨rfl, shorter⟩ := List.cons_prefix_cons.mp starts
    by_cases empty : rest = []
    · subst empty
      have wholeMark : front = [' ', 'i', 'n'] := List.append_cancel_right spelled
      rw [wholeMark] at isSuffix
      exact ends isSuffix
    · have last := congrArg List.getLast? spelled
      rw [List.getLast?_append_of_ne_nil _ (by simp), List.getLast?_cons_of_ne_nil empty,
        List.getLast?_concat] at last
      have inMark := shorter.subset (List.mem_of_getLast? last)
      revert inMark
      decide

theorem trim_loop (itemNonempty : item ≠ []) (isItem : Stripped isBlank item)
    (nonempty : collection ≠ []) (stripped : Stripped isBlank collection) :
    trim (item ++ " in ".toList ++ collection) = item ++ " in ".toList ++ collection := by
  rw [List.append_assoc]
  exact strip_of_stripped (stripped_append itemNonempty nonempty isItem stripped)

theorem loop_trim (isItem : IsLoopItem item) (nonempty : collection ≠ [])
    (stripped : Stripped isBlank collection) :
    loop (trim (item ++ " in ".toList ++ collection)) =
      .opens (.loop (String.ofList item) (String.ofList collection)) := by
  obtain ⟨itemNonempty, itemStripped, inside, ends⟩ := isItem
  rw [trim_loop itemNonempty itemStripped nonempty stripped, loop, cut?_in inside ends]
  simp only [trim, strip_of_stripped itemStripped, strip_of_stripped stripped]
  simp [itemNonempty, nonempty]

theorem block_trim (isWord : IsWord name) :
    block (trim name) = .opens (.block (String.ofList name)) := by
  rw [block, words_trim, words_of_isWord isWord]

theorem autoescape_trim (isWord : IsWord name) :
    autoescape (trim name) = .opens (.autoescape (some (String.ofList name))) := by
  rw [autoescape, words_trim, words_of_isWord isWord]
  rfl

theorem exists_cut?_of_loop {header : Header} (reads : loop arguments = .opens header) :
    ∃ left right, cut? " in ".toList arguments = some (left, right) ∧
      header = .loop (String.ofList (trim left)) (String.ofList (trim right)) ∧
      trim left ≠ [] ∧ trim right ≠ [] := by
  rw [loop] at reads
  split at reads
  · rename_i left right found
    split at reads
    · cases reads
    · rename_i nonempty
      cases reads
      simp only [Bool.or_eq_true, List.isEmpty_iff, not_or] at nonempty
      exact ⟨left, right, found, rfl, nonempty⟩
  · cases reads

theorem loop_cases {header : Header} (reads : loop arguments = .opens header) :
    ∃ item collection, header = .loop (String.ofList item) (String.ofList collection) ∧
      (item ≠ [] ∧ Stripped isBlank item ∧ ¬" in ".toList <:+: item) ∧
      (collection ≠ [] ∧ Stripped isBlank collection) ∧
      item <:+: arguments ∧ collection <:+: arguments := by
  obtain ⟨left, right, found, same, leftNonempty, rightNonempty⟩ :=
    exists_cut?_of_loop reads
  have first := not_infix_of_cut? (by decide) found
  have inLeft := before_isInfix_of_cut? found
  have inRight := after_isInfix_of_cut? found
  refine ⟨trim left, trim right, same, ⟨leftNonempty, stripped_strip _ _, ?_⟩,
    ⟨rightNonempty, stripped_strip _ _⟩, (strip_isInfix _ _).trans inLeft,
    (strip_isInfix _ _).trans inRight⟩
  intro found
  exact first (found.trans (strip_isInfix _ _))

theorem block_cases {header : Header} (reads : block arguments = .opens header) :
    ∃ name, header = .block (String.ofList name) ∧ IsWord name ∧
      name <:+: arguments := by
  rw [block] at reads
  split at reads
  · cases reads
  · rename_i name rest found
    cases reads
    exact ⟨name, rfl, isWord_of_words_eq_cons found⟩

theorem autoescape_cases {header : Header}
    (reads : autoescape arguments = .opens header) :
    header = .autoescape none ∨
      ∃ name, header = .autoescape (some (String.ofList name)) ∧ IsWord name ∧
        name <:+: arguments := by
  rw [autoescape] at reads
  cases reads
  cases found : words arguments with
  | nil => exact Or.inl rfl
  | cons name rest =>
      exact Or.inr ⟨name, rfl, isWord_of_words_eq_cons found⟩

end TemplateTree.Tag

namespace TemplateTree.Header

open Text

variable {header : Header} {body : List Char}

/-- The opening tag that spells the header is read as this header. -/
def Canonical : Header → Prop
  | .block name => IsWord name.toList
  | .loop item collection =>
      Tag.IsLoopItem item.toList ∧ collection.toList ≠ [] ∧
        Stripped isBlank collection.toList
  | .capture targets values =>
      targets ≠ [] ∧ values = [] ∧ ∀ target ∈ targets, Tag.IsTarget target.toList
  | .autoescape strategy => ∀ name ∈ strategy, IsWord name.toList

instance : (header : Header) → Decidable header.Canonical
  | .block name => inferInstanceAs (Decidable (IsWord name.toList))
  | .loop _ _ => inferInstanceAs (Decidable (_ ∧ _ ∧ _))
  | .capture _ _ => inferInstanceAs (Decidable (_ ∧ _ ∧ _))
  | .autoescape strategy =>
      inferInstanceAs (Decidable (∀ name ∈ strategy, IsWord name.toList))

theorem ofBody_body (canonical : header.Canonical) :
    Tag.ofBody (trim header.body.toList) = .ok (.opens header) := by
  cases header with
  | block name =>
      have split := Tag.ofBody_trim_cons .block name.toList
      have reads := Tag.block_trim canonical
      rw [String.ofList_toList] at reads
      rw [Tag.ofKeyword, reads] at split
      rw [body, String.toList_append]
      exact split
  | loop item collection =>
      obtain ⟨isItem, nonempty, stripped⟩ := canonical
      have reads := Tag.loop_trim isItem nonempty stripped
      have split := Tag.ofBody_trim_cons .loop
        (item.toList ++ " in ".toList ++ collection.toList)
      rw [String.ofList_toList, String.ofList_toList] at reads
      rw [Tag.ofKeyword, reads] at split
      simp only [body, String.toList_append, List.append_assoc] at split ⊢
      exact split
  | capture targets values =>
      obtain ⟨nonempty, rfl, areTargets⟩ := canonical
      have split := Tag.ofBody_trim_cons .set (listed targets).toList
      have reads := Tag.set_trim_capture areTargets
      rw [Tag.ofKeyword_set reads (by simpa using nonempty)] at split
      rw [body, String.toList_append]
      exact split
  | autoescape strategy =>
      cases strategy with
      | none => decide
      | some name =>
          have split := Tag.ofBody_trim_cons .autoescape name.toList
          have reads := Tag.autoescape_trim (canonical name rfl)
          rw [String.ofList_toList] at reads
          rw [Tag.ofKeyword, reads] at split
          rw [body, String.toList_append]
          exact split

/-- What reading ensures. -/
def WellFormed : Header → Prop
  | .block name => IsWord name.toList
  | .loop item collection =>
      (item.toList ≠ [] ∧ Stripped isBlank item.toList ∧
          ¬" in ".toList <:+: item.toList) ∧
        collection.toList ≠ [] ∧ Stripped isBlank collection.toList
  | .capture targets values =>
      values = [] ∧ ∀ target ∈ targets, Tag.IsTarget target.toList
  | .autoescape strategy => ∀ name ∈ strategy, IsWord name.toList

/-- What is read as a header is spelled from parts of the body. -/
theorem wellFormed_of_opens (reads : Tag.ofBody body = .ok (.opens header)) :
    header.WellFormed ∧ ∀ field ∈ header.fields, field.toList <:+: body := by
  have inBody := Tag.arguments_isInfix body
  rcases Tag.opens_cases reads with escapes | blocks | runs | sets
  · rcases Tag.autoescape_cases escapes with rfl | ⟨name, rfl, isWord, inside⟩
    · simp [WellFormed, fields]
    · have nameInBody := inside.trans inBody
      simp [WellFormed, fields, isWord, nameInBody]
  · obtain ⟨name, rfl, isWord, inside⟩ := Tag.block_cases blocks
    have nameInBody := inside.trans inBody
    simp [WellFormed, fields, isWord, nameInBody]
  · obtain ⟨item, collection, rfl, isItem, isCollection, inItem, inCollection⟩ :=
      Tag.loop_cases runs
    have itemInBody := inItem.trans inBody
    have collectionInBody := inCollection.trans inBody
    simp only [WellFormed, fields, List.forall_mem_cons, String.toList_ofList]
    exact ⟨⟨isItem, isCollection⟩, itemInBody, collectionInBody, by simp⟩
  · rcases Tag.set_cases (Tag.arguments body) with
      ⟨targets, values, assigns, _⟩ | ⟨targets, captured, areParts, noEquals⟩
    · rw [sets] at assigns
      cases assigns
    · rw [sets] at captured
      cases captured
      refine ⟨⟨rfl, fun target member => ?_⟩, fun field member => ?_⟩
      · exact ⟨(areParts target member).1, noEquals target member⟩
      · exact (areParts field member).2.trans inBody

/-- What reading does not ensure: a capture has a variable, and the item of a loop
does not run into the `in` behind it. -/
def Stable : Header → Prop
  | .loop item _ => ¬" in".toList <:+ item.toList
  | .capture targets _ => targets ≠ []
  | .block _ => True
  | .autoescape _ => True

instance : (header : Header) → Decidable header.Stable
  | .loop item _ => inferInstanceAs (Decidable (¬" in".toList <:+ item.toList))
  | .capture targets _ => inferInstanceAs (Decidable (targets ≠ []))
  | .block _ => isTrue trivial
  | .autoescape _ => isTrue trivial

theorem WellFormed.canonical (wellFormed : header.WellFormed)
    (stable : header.Stable) : header.Canonical := by
  cases header with
  | block name => exact wellFormed
  | loop item collection =>
      obtain ⟨⟨nonempty, stripped, noMark⟩, isCollection⟩ := wellFormed
      exact ⟨⟨nonempty, stripped, noMark, stable⟩, isCollection⟩
  | capture targets values => exact ⟨stable, wellFormed⟩
  | autoescape strategy => exact wellFormed

end TemplateTree.Header
