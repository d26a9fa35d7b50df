import Mathlib.Data.List.SplitBy
import TemplateTree.Proofs.Text.Edges

namespace TemplateTree.Text

variable {s left right before after word rest : List Char}

theorem flatten_runs (s : List Char) : (runs s).flatten = s :=
  List.flatten_splitBy _ s

theorem runs_append
    (apart : ∀ a ∈ left.getLast?, ∀ b ∈ right.head?, isBlank a ≠ isBlank b) :
    runs (left ++ right) = runs left ++ runs right := by
  apply List.splitBy_append
  intro a last b first
  exact beq_eq_false_iff_ne.mpr (apart a last b first)

theorem runs_of_uniform {blank : Bool} (nonempty : s ≠ [])
    (uniform : Uniform blank s) : runs s = [s] := by
  apply List.splitBy_of_isChain nonempty
  apply List.Pairwise.isChain
  apply List.pairwise_of_forall_mem_list
  intro a inLeft b inRight
  exact beq_iff_eq.mpr ((uniform a inLeft).trans (uniform b inRight).symm)

theorem exists_uniform_of_mem_runs {run : List Char} (member : run ∈ runs s) :
    run ≠ [] ∧ ∃ blank, Uniform blank run := by
  have nonempty : run ≠ [] := List.ne_nil_of_mem_splitBy member
  obtain ⟨c, rest, rfl⟩ := List.exists_cons_of_ne_nil nonempty
  have : Trans (fun a b => isBlank a = isBlank b) (fun a b => isBlank a = isBlank b)
      (fun a b => isBlank a = isBlank b) := ⟨Eq.trans⟩
  have alike : (c :: rest).IsChain fun a b => isBlank a = isBlank b :=
    (List.isChain_of_mem_splitBy member).imp fun _ _ => eq_of_beq
  refine ⟨nonempty, isBlank c, fun d inRun => ?_⟩
  rcases List.mem_cons.mp inRun with rfl | inRest
  · rfl
  · exact ((List.pairwise_cons.mp alike.pairwise).1 d inRest).symm

theorem isChain_runs (s : List Char) :
    (runs s).IsChain fun left right =>
      ∃ blank, Uniform blank left ∧ Uniform (!blank) right := by
  refine (List.isChain_getLast_head_splitBy _ s).imp_of_mem_imp ?_
  intro left right inLeft inRight meets
  obtain ⟨leftNonempty, rightNonempty, different⟩ := meets
  obtain ⟨_, blank, leftUniform⟩ := exists_uniform_of_mem_runs inLeft
  obtain ⟨_, other, rightUniform⟩ := exists_uniform_of_mem_runs inRight
  rw [leftUniform _ (List.getLast_mem leftNonempty),
    rightUniform _ (List.head_mem rightNonempty), beq_eq_false_iff_ne] at different
  have opposite : other = !blank := Bool.eq_not.mpr different.symm
  exact ⟨blank, leftUniform, opposite ▸ rightUniform⟩

/-- Pieces that are blank throughout and pieces that have no blanks, by turns. -/
def Alternating (parts : List (List Char)) : Prop :=
  (∀ part ∈ parts, part ≠ [] ∧ ∃ blank, Uniform blank part) ∧
    parts.IsChain fun left right => ∃ blank, Uniform blank left ∧ Uniform (!blank) right

theorem runs_flatten {parts : List (List Char)} (alternating : Alternating parts) :
    runs parts.flatten = parts := by
  induction parts with
  | nil => rfl
  | cons part rest ih =>
      obtain ⟨pieces, chain⟩ := alternating
      obtain ⟨⟨nonempty, blank, uniform⟩, restPieces⟩ := List.forall_mem_cons.mp pieces
      obtain ⟨meets, restChain⟩ := List.isChain_cons.mp chain
      rw [List.flatten_cons, runs_append, runs_of_uniform nonempty uniform,
        ih ⟨restPieces, restChain⟩, List.singleton_append]
      intro a last b first
      cases rest with
      | nil => cases first
      | cons next rest =>
          obtain ⟨nextNonempty, _⟩ := restPieces next List.mem_cons_self
          rw [List.flatten_cons, List.head?_append_of_ne_nil _ nextNonempty] at first
          obtain ⟨blank, isLeft, isRight⟩ := meets next rfl
          rw [isLeft a (List.mem_of_mem_getLast? last), isRight b (List.mem_of_mem_head? first)]
          simp

/-- The runs are the only alternating pieces that make up the text. -/
theorem runs_eq_iff {parts : List (List Char)} :
    runs s = parts ↔ parts.flatten = s ∧ Alternating parts := by
  constructor
  · rintro rfl
    exact ⟨flatten_runs s, fun _ => exists_uniform_of_mem_runs, isChain_runs s⟩
  · rintro ⟨rfl, alternating⟩
    exact runs_flatten alternating

theorem exists_runs_eq_cons (isWord : IsWord word) (starts : word <+: s) :
    ∃ first rest, runs s = first :: rest ∧ IsWord first ∧ word <+: first := by
  obtain ⟨after, rfl⟩ := starts
  let first := word ++ after.takeWhile fun c => !isBlank c
  have isFirst : IsWord first := by
    refine ⟨by simp [first, isWord.1], fun c member => ?_⟩
    rcases List.mem_append.mp member with inWord | inAfter
    · exact isWord.2 c inWord
    · simpa using List.mem_takeWhile_imp inAfter
  have split : word ++ after = first ++ after.dropWhile fun c => !isBlank c := by
    rw [List.append_assoc, List.takeWhile_append_dropWhile]
  refine ⟨first, runs (after.dropWhile fun c => !isBlank c), ?_, isFirst,
    List.prefix_append _ _⟩
  rw [split, runs_append, runs_of_uniform isFirst.1 isFirst.2, List.singleton_append]
  intro a last b head
  rw [isFirst.stripped.2 a last]
  have isBlankHead := head?_dropWhile (fun c => !isBlank c) after b head
  simpa using isBlankHead

theorem exists_runs_eq_append (isWord : IsWord word) (ends : word <:+ s) :
    ∃ front last, runs s = front ++ [last] ∧ IsWord last ∧ word <:+ last := by
  obtain ⟨before, rfl⟩ := ends
  let last := (before.rtakeWhile fun c => !isBlank c) ++ word
  have isLast : IsWord last := by
    refine ⟨by simp [last, isWord.1], fun c member => ?_⟩
    rcases List.mem_append.mp member with inBefore | inWord
    · simpa using List.mem_rtakeWhile_imp inBefore
    · exact isWord.2 c inWord
  have split : before ++ word = (before.rdropWhile fun c => !isBlank c) ++ last := by
    rw [← List.append_assoc, List.rdropWhile_append_rtakeWhile]
  refine ⟨runs (before.rdropWhile fun c => !isBlank c), last, ?_, isLast,
    List.suffix_append _ _⟩
  rw [split, runs_append, runs_of_uniform isLast.1 isLast.2]
  intro a final b head
  rw [isLast.stripped.1 b head]
  rw [List.rdropWhile, List.getLast?_reverse] at final
  have isBlankFinal := head?_dropWhile (fun c => !isBlank c) _ a final
  simpa using isBlankFinal

theorem words_eq_nil_of_blank (blank : ∀ c ∈ s, isBlank c = true) :
    words s = [] := by
  apply List.filter_eq_nil_iff.mpr
  intro run inRuns noBlank
  have nonempty : run ≠ [] := List.ne_nil_of_mem_splitBy inRuns
  obtain ⟨c, rest, rfl⟩ := List.exists_cons_of_ne_nil nonempty
  have isOne : isBlank c = true := by
    apply blank
    rw [← flatten_runs s]
    exact List.mem_flatten.mpr ⟨_, inRuns, List.mem_cons_self⟩
  simp [isOne] at noBlank

theorem words_ne_nil (isWord : IsWord word) (starts : word <+: s) : words s ≠ [] := by
  obtain ⟨first, rest, whole, isFirst, _⟩ := exists_runs_eq_cons isWord starts
  have noBlank : (first.all fun c => !isBlank c) = true := by
    simpa [Uniform] using isFirst.2
  rw [words, whole, List.filter_cons, if_pos noBlank]
  exact List.cons_ne_nil _ _

theorem words_append_of_apart
    (apart : ∀ a ∈ left.getLast?, ∀ b ∈ right.head?, isBlank a ≠ isBlank b) :
    words (left ++ right) = words left ++ words right := by
  rw [words, runs_append apart, List.filter_append]
  rfl

theorem words_dropWhile (s : List Char) : words (s.dropWhile isBlank) = words s := by
  have blanks : ∀ c ∈ s.takeWhile isBlank, isBlank c = true :=
    fun c => List.mem_takeWhile_imp
  have parts : words (s.takeWhile isBlank ++ s.dropWhile isBlank) =
      words (s.takeWhile isBlank) ++ words (s.dropWhile isBlank) := by
    apply words_append_of_apart
    intro a last b first
    rw [blanks a (List.mem_of_mem_getLast? last), head?_dropWhile isBlank s b first]
    decide
  rw [List.takeWhile_append_dropWhile, words_eq_nil_of_blank blanks] at parts
  exact parts.symm

theorem words_rdropWhile (s : List Char) :
    words (s.rdropWhile isBlank) = words s := by
  have blanks : ∀ c ∈ s.rtakeWhile isBlank, isBlank c = true :=
    fun c => List.mem_rtakeWhile_imp
  have parts : words (s.rdropWhile isBlank ++ s.rtakeWhile isBlank) =
      words (s.rdropWhile isBlank) ++ words (s.rtakeWhile isBlank) := by
    apply words_append_of_apart
    intro a last b first
    rw [List.rdropWhile, List.getLast?_reverse] at last
    rw [blanks b (List.mem_of_mem_head? first), head?_dropWhile isBlank _ a last]
    decide
  rw [List.rdropWhile_append_rtakeWhile, words_eq_nil_of_blank blanks,
    List.append_nil] at parts
  exact parts.symm

theorem words_trim (s : List Char) : words (trim s) = words s := by
  rw [trim, strip_eq_rdropWhile, words_rdropWhile, words_dropWhile]

theorem words_append_left (blank : ∀ c ∈ before, isBlank c = true)
    (s : List Char) : words (before ++ s) = words s := by
  rw [← words_dropWhile, List.dropWhile_append_of_pos blank, words_dropWhile]

theorem words_of_isWord (isWord : IsWord word) : words word = [word] := by
  have noBlank : (word.all fun c => !isBlank c) = true := by
    simpa [Uniform] using isWord.2
  rw [words, runs_of_uniform isWord.1 isWord.2, List.filter_singleton, noBlank]
  rfl

theorem words_append (isWord : IsWord word)
    (blankAfter : ∀ c ∈ rest.head?, isBlank c = true) :
    words (word ++ rest) = word :: words rest := by
  rw [words_append_of_apart, words_of_isWord isWord, List.singleton_append]
  intro a last b first
  rw [isWord.stripped.2 a last, blankAfter b first]
  decide

/-- Words that are set off by spaces, the first one too. -/
def spaced (parts : List (List Char)) : List Char := parts.flatMap (' ' :: ·)

theorem spaced_cons (part : List Char) (rest : List (List Char)) :
    spaced (part :: rest) = [' '] ++ (part ++ spaced rest) := rfl

theorem blank_head?_spaced (parts : List (List Char)) :
    ∀ c ∈ (spaced parts).head?, isBlank c = true := by
  intro c first
  cases parts with
  | nil => cases first
  | cons part rest =>
      cases first
      decide

theorem words_spaced {parts : List (List Char)} (areWords : ∀ part ∈ parts, IsWord part) :
    words (spaced parts) = parts := by
  induction parts with
  | nil => exact words_eq_nil_of_blank (by simp [spaced])
  | cons part rest ih =>
      have later := ih fun part member => areWords part (List.mem_cons_of_mem _ member)
      rw [spaced_cons, words_append_left isBlank_space,
        words_append (areWords part List.mem_cons_self) (blank_head?_spaced rest), later]

theorem isWord_of_mem_words (member : word ∈ words s) :
    IsWord word ∧ word <:+: s := by
  obtain ⟨inRuns, noBlank⟩ := List.mem_filter.mp member
  refine ⟨⟨List.ne_nil_of_mem_splitBy inRuns, by simpa [Uniform] using noBlank⟩, ?_⟩
  rw [← flatten_runs s]
  exact List.infix_of_mem_flatten inRuns

theorem isWord_of_words_eq_cons {others : List (List Char)}
    (found : words s = word :: others) : IsWord word ∧ word <:+: s := by
  apply isWord_of_mem_words
  rw [found]
  exact List.mem_cons_self

end TemplateTree.Text
