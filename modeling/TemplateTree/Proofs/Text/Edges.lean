import Mathlib.Data.List.DropRight
import Mathlib.Data.List.Infix
import TemplateTree.Text.Basic

namespace TemplateTree.Text

variable {p : Char → Bool} {s before after : List Char}

/-- The text neither starts nor ends with a character that satisfies `p`. -/
def Stripped (p : Char → Bool) (s : List Char) : Prop :=
  (∀ c ∈ s.head?, p c = false) ∧ ∀ c ∈ s.getLast?, p c = false

instance (p : Char → Bool) (s : List Char) : Decidable (Stripped p s) :=
  have : ∀ c? : Option Char, Decidable (∀ c ∈ c?, p c = false) :=
    Option.decidableForallMem
  inferInstanceAs (Decidable (_ ∧ _))

theorem strip_eq_rdropWhile (p : Char → Bool) (s : List Char) :
    strip p s = (s.dropWhile p).rdropWhile p := rfl

theorem dropWhile_of_head? (clear : ∀ c ∈ s.head?, p c = false) :
    s.dropWhile p = s := by
  cases s with
  | nil => rfl
  | cons c rest => rw [List.dropWhile_cons, if_neg (by simp [clear c rfl])]

theorem rdropWhile_of_getLast? (clear : ∀ c ∈ s.getLast?, p c = false) :
    s.rdropWhile p = s := by
  rw [List.rdropWhile, dropWhile_of_head?, List.reverse_reverse]
  rwa [List.head?_reverse]

theorem strip_of_stripped (stripped : Stripped p s) : strip p s = s := by
  rw [strip_eq_rdropWhile, dropWhile_of_head? stripped.1,
    rdropWhile_of_getLast? stripped.2]

theorem head?_dropWhile (p : Char → Bool) (s : List Char) :
    ∀ c ∈ (s.dropWhile p).head?, p c = false := by
  intro c first
  have clear := List.head?_dropWhile_not p s
  rw [Option.mem_def] at first
  simpa [first] using clear

theorem stripped_strip (p : Char → Bool) (s : List Char) :
    Stripped p (strip p s) := by
  rw [strip_eq_rdropWhile]
  constructor
  · intro c first
    obtain ⟨tail, whole⟩ := List.rdropWhile_prefix p (s.dropWhile p)
    apply head?_dropWhile p s c
    rw [← whole, List.head?_append, Option.mem_def.mp first]
    rfl
  · intro c last
    rw [List.rdropWhile, List.getLast?_reverse] at last
    exact head?_dropWhile p _ c last

theorem strip_eq_self_iff : strip p s = s ↔ Stripped p s := by
  constructor
  · intro same
    rw [← same]
    exact stripped_strip p s
  · exact strip_of_stripped

theorem stripped_append (leftNonempty : before ≠ []) (rightNonempty : after ≠ [])
    (isFirst : Stripped p before) (isLast : Stripped p after) :
    Stripped p (before ++ (s ++ after)) := by
  constructor
  · intro c first
    rw [List.head?_append_of_ne_nil _ leftNonempty] at first
    exact isFirst.1 c first
  · intro c last
    rw [← List.append_assoc, List.getLast?_append_of_ne_nil _ rightNonempty] at last
    exact isLast.2 c last

theorem strip_isInfix (p : Char → Bool) (s : List Char) : strip p s <:+: s :=
  (List.rdropWhile_prefix p _).isInfix.trans (List.dropWhile_suffix p).isInfix

theorem strip_append_left (dropped : ∀ c ∈ before, p c = true)
    (s : List Char) : strip p (before ++ s) = strip p s := by
  rw [strip_eq_rdropWhile, List.dropWhile_append_of_pos dropped,
    strip_eq_rdropWhile]

theorem rdropWhile_append_right (dropped : ∀ c ∈ after, p c = true)
    (s : List Char) : (s ++ after).rdropWhile p = s.rdropWhile p := by
  rw [List.rdropWhile, List.reverse_append, List.dropWhile_append_of_pos]
  · rfl
  · simpa using dropped

theorem strip_append_right (dropped : ∀ c ∈ after, p c = true)
    (s : List Char) : strip p (s ++ after) = strip p s := by
  rw [strip_eq_rdropWhile, List.dropWhile_append, strip_eq_rdropWhile]
  split
  · rename_i empty
    have nothing : after.dropWhile p = [] := List.dropWhile_eq_nil_iff.mpr dropped
    rw [nothing, List.isEmpty_iff.mp empty]
  · exact rdropWhile_append_right dropped _

theorem rdropWhile_append_of_getLast? (clear : ∀ c ∈ s.getLast?, p c = false)
    (after : List Char) :
    (s ++ after).rdropWhile p = s ++ after.rdropWhile p := by
  have kept : s.reverse.dropWhile p = s.reverse :=
    dropWhile_of_head? (by rwa [List.head?_reverse])
  simp only [List.rdropWhile, List.reverse_append, List.dropWhile_append, kept]
  split
  · rename_i empty
    rw [List.isEmpty_iff.mp empty, List.reverse_nil, List.append_nil,
      List.reverse_reverse]
  · rw [List.reverse_append, List.reverse_reverse]

theorem strip_rdropWhile (p : Char → Bool) (s : List Char) :
    strip p (s.rdropWhile p) = strip p s := by
  have dropped : ∀ c ∈ s.rtakeWhile p, p c = true :=
    fun c => List.mem_rtakeWhile_imp
  have same := strip_append_right dropped (s.rdropWhile p)
  rw [List.rdropWhile_append_rtakeWhile] at same
  exact same.symm

theorem dropWhile_append_cons {c : Char} (kept : p c = false)
    (left right : List Char) :
    (left ++ c :: right).dropWhile p = left.dropWhile p ++ c :: right := by
  rw [List.dropWhile_append]
  split
  · rename_i empty
    rw [List.isEmpty_iff.mp empty, List.dropWhile_cons, if_neg (by simp [kept]),
      List.nil_append]
  · rfl

theorem strip_append_cons {c : Char} (kept : p c = false)
    (left right : List Char) :
    strip p (left ++ c :: right) =
      left.dropWhile p ++ c :: right.rdropWhile p := by
  have last : ∀ d ∈ (left.dropWhile p ++ [c]).getLast?, p d = false := by
    intro d isLast
    rw [List.getLast?_concat, Option.mem_some] at isLast
    rw [← isLast, kept]
  rw [strip_eq_rdropWhile, dropWhile_append_cons kept, ← List.singleton_append,
    ← List.append_assoc, rdropWhile_append_of_getLast? last, List.append_assoc,
    List.singleton_append]

theorem isBlank_space : ∀ c ∈ [' '], isBlank c = true :=
  List.forall_mem_singleton.mpr rfl

theorem trim_spaced (body : List Char) :
    trim (' ' :: (body ++ [' '])) = trim body := by
  rw [trim, trim, ← List.singleton_append, strip_append_left isBlank_space,
    strip_append_right isBlank_space]

/-- All characters are blank, or none is. -/
def Uniform (blank : Bool) (s : List Char) : Prop := ∀ c ∈ s, isBlank c = blank

instance (blank : Bool) (s : List Char) : Decidable (Uniform blank s) :=
  List.decidableBAll _ s

def IsWord (s : List Char) : Prop := s ≠ [] ∧ Uniform false s

instance (s : List Char) : Decidable (IsWord s) :=
  inferInstanceAs (Decidable (_ ∧ _))

theorem IsWord.stripped (word : IsWord s) : Stripped isBlank s :=
  ⟨fun c first => word.2 c (List.mem_of_mem_head? first),
    fun c last => word.2 c (List.mem_of_mem_getLast? last)⟩

/-- A word at the front stays whole when the text is trimmed. -/
theorem trim_word_append (word : IsWord s) (after : List Char) :
    trim (s ++ after) = s ++ after.rdropWhile isBlank := by
  have kept : ∀ c ∈ (s ++ after).head?, isBlank c = false := by
    intro c first
    rw [List.head?_append_of_ne_nil _ word.1] at first
    exact word.stripped.1 c first
  rw [trim, strip_eq_rdropWhile, dropWhile_of_head? kept,
    rdropWhile_append_of_getLast? word.stripped.2]

end TemplateTree.Text
