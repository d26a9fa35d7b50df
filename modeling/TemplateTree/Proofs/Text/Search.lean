import Mathlib.Data.List.Infix
import TemplateTree.Delimiter
import TemplateTree.Text.Basic

namespace TemplateTree

namespace Text

variable {mark before after s left right : List Char} {c : Char}

/-- A mark does not reach across a character that it does not contain. -/
theorem infix_append_cons_iff (absent : c ∉ mark) :
    mark <:+: left ++ c :: right ↔ mark <:+: left ∨ mark <:+: right := by
  constructor
  · intro found
    rcases List.infix_append_iff_ne_nil.mp found with
      inLeft | inRight | ⟨front, back, _, backNonempty, rfl, _, fits⟩
    · exact Or.inl inLeft
    · rcases List.infix_cons_iff.mp inRight with fits | inside
      · cases mark with
        | nil => exact Or.inl List.nil_infix
        | cons first rest =>
            obtain ⟨rfl, _⟩ := List.cons_prefix_cons.mp fits
            exact absurd List.mem_cons_self absent
      · exact Or.inr inside
    · cases back with
      | nil => exact absurd rfl backNonempty
      | cons first rest =>
          obtain ⟨rfl, _⟩ := List.cons_prefix_cons.mp fits
          exact absurd (List.mem_append_right _ List.mem_cons_self) absent
  · intro found
    rcases found with inLeft | inRight
    · exact List.infix_append_of_infix_left inLeft
    · exact List.infix_append_of_infix_right (List.infix_cons inRight)

/-- A mark that does not contain the first character stands behind it. -/
theorem infix_cons_iff_of_not_mem (absent : c ∉ mark) (nonempty : mark ≠ []) :
    mark <:+: c :: right ↔ mark <:+: right := by
  rw [← List.nil_append (c :: right), infix_append_cons_iff absent,
    List.infix_nil, or_iff_right nonempty]

/-- A mark does not start in a word that has no character of it. -/
theorem infix_append_iff_of_disjoint (absent : ∀ c ∈ left, c ∉ mark)
    (nonempty : mark ≠ []) : mark <:+: left ++ right ↔ mark <:+: right := by
  induction left with
  | nil => rw [List.nil_append]
  | cons c rest ih =>
      obtain ⟨first, later⟩ := List.forall_mem_cons.mp absent
      rw [List.cons_append, infix_cons_iff_of_not_mem first nonempty, ih later]

theorem infix_append_right_iff_of_disjoint (absent : ∀ c ∈ right, c ∉ mark)
    (nonempty : mark ≠ []) : mark <:+: left ++ right ↔ mark <:+: left := by
  rw [← List.reverse_infix, List.reverse_append,
    infix_append_iff_of_disjoint (by simpa using absent) (by simpa using nonempty),
    List.reverse_infix]

theorem cut?_eq_none_iff : cut? mark s = none ↔ ¬mark <:+: s := by
  induction s with
  | nil => simp [cut?]
  | cons c rest ih =>
      rw [cut?, List.infix_cons_iff, ← List.isPrefixOf_iff_prefix]
      split
      · simp_all
      · simp_all

theorem occurs_iff : occurs mark s = true ↔ mark <:+: s := by
  rw [occurs, Option.isSome_iff_ne_none, Ne, cut?_eq_none_iff, not_not]

/-- Whether a mark stands at the front is decided before its own next
occurrence is complete. -/
theorem prefix_cons_append_iff (nonempty : mark ≠ []) :
    mark <+: c :: (before ++ mark ++ after) ↔
      mark <+: c :: (before ++ mark.dropLast) := by
  have shorter : c :: (before ++ mark.dropLast) <+:
      c :: (before ++ mark ++ after) := by
    simp only [List.append_assoc, List.cons_prefix_cons,
      List.prefix_append_right_inj, true_and]
    exact (List.dropLast_prefix mark).trans (List.prefix_append _ _)
  have positive := List.length_pos_of_ne_nil nonempty
  refine ⟨fun fits => List.prefix_of_prefix_length_le fits shorter ?_,
    fun fits => fits.trans shorter⟩
  simp only [List.length_cons, List.length_append, List.length_dropLast]
  omega

theorem cut?_eq_some_iff (nonempty : mark ≠ []) :
    cut? mark s = some (before, after) ↔
      s = before ++ mark ++ after ∧ ¬mark <:+: before ++ mark.dropLast := by
  constructor
  · intro found
    refine ⟨eq_append_of_cut? found, ?_⟩
    induction s generalizing before with
    | nil => simp_all [cut?]
    | cons c rest ih =>
        have whole := eq_append_of_cut? found
        rw [cut?] at found
        split at found
        · obtain ⟨rfl, _⟩ : [] = before ∧ _ = after := by simpa using found
          intro inside
          have bounded := inside.length_le
          have positive := List.length_pos_of_ne_nil nonempty
          simp only [List.nil_append, List.length_dropLast] at bounded
          omega
        · rename_i elsewhere
          obtain ⟨⟨front, back⟩, later, same⟩ := Option.map_eq_some_iff.mp found
          obtain ⟨rfl, rfl⟩ := Prod.mk.inj same
          rw [List.isPrefixOf_iff_prefix, whole, List.cons_append,
            List.cons_append, prefix_cons_append_iff nonempty] at elsewhere
          rw [List.cons_append, List.infix_cons_iff]
          intro occurs
          rcases occurs with fits | inside
          · exact elsewhere fits
          · exact ih later inside
  · intro split
    obtain ⟨rfl, first⟩ := split
    induction before with
    | nil =>
        cases mark with
        | nil => exact absurd rfl nonempty
        | cons head tail => simp [cut?]
    | cons c before ih =>
        have elsewhere : ¬mark <+: c :: (before ++ mark ++ after) := by
          rw [prefix_cons_append_iff nonempty]
          exact fun fits => first fits.isInfix
        have later := ih fun inside => first (List.infix_cons inside)
        rw [List.cons_append, List.cons_append, cut?, later,
          if_neg (by rwa [List.isPrefixOf_iff_prefix])]
        rfl

theorem not_infix_of_cut? (nonempty : mark ≠ [])
    (found : cut? mark s = some (before, after)) : ¬mark <:+: before :=
  fun inside => ((cut?_eq_some_iff nonempty).mp found).2
    (List.infix_append_of_infix_left inside)

theorem before_isInfix_of_cut? (found : cut? mark s = some (before, after)) :
    before <:+: s := by
  rw [eq_append_of_cut? found, List.append_assoc]
  exact List.infix_append_left

theorem after_isInfix_of_cut? (found : cut? mark s = some (before, after)) :
    after <:+: s := by
  rw [eq_append_of_cut? found]
  exact List.infix_append_right

theorem length_le_of_cut? (nonempty : mark ≠ [])
    (found : cut? mark s = some (before, after)) (occurs : s = left ++ mark ++ right) :
    before.length ≤ left.length := by
  obtain ⟨whole, first⟩ := (cut?_eq_some_iff nonempty).mp found
  by_contra later
  apply first
  have isPrefix : left ++ mark <+: s := ⟨right, occurs.symm⟩
  have shorter : before ++ mark.dropLast <+: s := by
    rw [whole, List.append_assoc, List.prefix_append_right_inj]
    exact (List.dropLast_prefix mark).trans (List.prefix_append _ _)
  have earlier : left ++ mark <+: before ++ mark.dropLast := by
    have positive := List.length_pos_of_ne_nil nonempty
    refine List.prefix_of_prefix_length_le isPrefix shorter ?_
    simp only [List.length_append, List.length_dropLast]
    omega
  exact (List.suffix_append left mark).isInfix.trans earlier.isInfix

/-- What is found in a text is found there too when more text follows. -/
theorem cut?_append (nonempty : mark ≠ []) (found : cut? mark s = some (before, after))
    (more : List Char) : cut? mark (s ++ more) = some (before, after ++ more) := by
  obtain ⟨rfl, first⟩ := (cut?_eq_some_iff nonempty).mp found
  exact (cut?_eq_some_iff nonempty).mpr ⟨List.append_assoc _ _ _, first⟩

theorem cut?_append_left (nonempty : mark ≠ []) (after : List Char) :
    cut? mark (mark ++ after) = some ([], after) := by
  refine (cut?_eq_some_iff nonempty).mpr ⟨rfl, fun inside => ?_⟩
  have bounded := inside.length_le
  have positive := List.length_pos_of_ne_nil nonempty
  simp only [List.nil_append, List.length_dropLast] at bounded
  omega

theorem cut?_singleton {left right : List Char} (absent : c ∉ left) :
    cut? [c] (left ++ c :: right) = some (left, right) := by
  rw [cut?_eq_some_iff (by simp), List.singleton_infix_iff]
  exact ⟨by simp, by simpa using absent⟩

theorem beforeLast?_append_cons (absent : c ∉ after) :
    beforeLast? c (before ++ c :: after) = some before := by
  have others : ∀ d ∈ after.reverse, (d != c) = true := by
    intro d member
    have different : d ≠ c := fun same =>
      absent (same ▸ List.mem_reverse.mp member)
    simpa using different
  have dropped : (before ++ c :: after).reverse.dropWhile (· != c) =
      c :: before.reverse := by
    rw [List.reverse_append, List.reverse_cons, List.append_assoc,
      List.dropWhile_append_of_pos others, List.singleton_append,
      List.dropWhile_cons, if_neg (by simp)]
  rw [beforeLast?, dropped]
  simp

theorem beforeLast?_cons (c first : Char) (rest : List Char) :
    beforeLast? c (first :: rest) =
      match beforeLast? c rest with
      | some before => some (first :: before)
      | none => if first = c then some [] else none := by
  rw [beforeLast?, beforeLast?, List.reverse_cons, List.dropWhile_append]
  cases rest.reverse.dropWhile (· != c) with
  | nil => by_cases same : first = c <;> simp [same]
  | cons last before => simp

theorem prefix_of_beforeLast? (found : beforeLast? c s = some before) :
    before <+: s := by
  rw [beforeLast?] at found
  split at found
  · cases found
  · rename_i last reversed ends
    cases found
    have isSuffix := List.dropWhile_suffix (l := s.reverse) (p := (· != c))
    rw [ends] at isSuffix
    have shorter := (List.suffix_cons last reversed).trans isSuffix
    rwa [← List.reverse_prefix, List.reverse_reverse] at shorter

/-- No tag opens in the text. -/
def Tagless (s : List Char) : Prop :=
  ¬Delimiter.statement.opener <:+: s ∧ ¬Delimiter.expression.opener <:+: s

instance (s : List Char) : Decidable (Tagless s) :=
  inferInstanceAs (Decidable (_ ∧ _))

theorem tagless_iff :
    Tagless s ↔ ∀ delimiter : Delimiter, ¬delimiter.opener <:+: s := by
  constructor
  · intro tagless delimiter
    cases delimiter with
    | statement => exact tagless.1
    | expression => exact tagless.2
  · exact fun absent => ⟨absent .statement, absent .expression⟩

theorem Tagless.of_isInfix (tagless : Tagless s) (inside : left <:+: s) :
    Tagless left :=
  ⟨fun found => tagless.1 (found.trans inside),
    fun found => tagless.2 (found.trans inside)⟩

/-- No tag opens where two texts meet, unless a brace meets its second half. -/
theorem tagless_append (inLeft : Tagless left) (inRight : Tagless right)
    (apart : left.getLast? = some '{' → ∀ c ∈ right.head?, isBlank c = true) :
    Tagless (left ++ right) := by
  refine tagless_iff.mpr fun delimiter found => ?_
  rcases List.infix_append_iff_ne_nil.mp found with
    inside | inside | ⟨front, back, frontNonempty, backNonempty, split, ends, starts⟩
  · exact tagless_iff.mp inLeft delimiter inside
  · exact tagless_iff.mp inRight delimiter inside
  · have size := congrArg List.length split
    rw [Delimiter.length_opener, List.length_append] at size
    have frontSize := List.length_pos_iff.mpr frontNonempty
    have backSize := List.length_pos_iff.mpr backNonempty
    have oneFront : front.length = 1 := by omega
    have oneBack : back.length = 1 := by omega
    obtain ⟨first, rfl⟩ := List.length_eq_one_iff.mp oneFront
    obtain ⟨second, rfl⟩ := List.length_eq_one_iff.mp oneBack
    obtain ⟨before, rfl⟩ := ends
    obtain ⟨after, rfl⟩ := starts
    have blank := fun same => apart same second rfl
    rw [List.getLast?_concat] at blank
    cases delimiter with
    | statement =>
        cases split
        exact absurd (blank rfl) (by decide)
    | expression =>
        cases split
        exact absurd (blank rfl) (by decide)

theorem tagless_brace : Tagless ([] ++ ['{']) := by decide

end Text

namespace Delimiter

open Text

variable {delimiter : Delimiter} {s before inside : List Char} {c : Char}

theorem closer_ne_nil (delimiter : Delimiter) : delimiter.closer ≠ [] := by
  cases delimiter <;> simp [closer]

theorem atFront?_append (delimiter : Delimiter) (inside : List Char) :
    atFront? (delimiter.opener ++ inside) = some (delimiter, inside) := by
  cases delimiter <;> rfl

theorem atFront?_eq_none_iff :
    atFront? s = none ↔ ∀ delimiter : Delimiter, ¬delimiter.opener <+: s := by
  constructor
  · intro absent delimiter starts
    obtain ⟨inside, rfl⟩ := starts
    rw [atFront?_append] at absent
    cases absent
  · intro elsewhere
    cases front : atFront? s with
    | none => rfl
    | some found =>
        exact absurd ⟨_, (eq_append_of_atFront? front).symm⟩ (elsewhere found.1)

theorem next?_eq_none_iff : next? s = none ↔ Tagless s := by
  rw [tagless_iff]
  induction s with
  | nil =>
      refine iff_of_true rfl fun delimiter found => ?_
      have bounded := found.length_le
      rw [length_opener] at bounded
      simp at bounded
  | cons c rest ih =>
      simp only [next?, List.infix_cons_iff, not_or, forall_and,
        ← atFront?_eq_none_iff, ← ih]
      cases atFront? (c :: rest) <;> simp

/-- Every opening mark starts with a brace, so a brace at the end of a text
would open a tag with any opening mark that follows. -/
theorem opener_eq_cons (delimiter : Delimiter) :
    delimiter.opener = '{' :: delimiter.opener.tail := by
  cases delimiter <;> rfl

theorem prefix_cons_opener_iff {other : Delimiter} :
    other.opener <+: c :: (before ++ delimiter.opener ++ inside) ↔
      other.opener <+: c :: (before ++ ['{']) := by
  cases before with
  | nil => cases other <;> cases delimiter <;> simp [opener]
  | cons second before => cases other <;> simp [opener]

theorem next?_eq_some_iff :
    next? s = some ⟨before, delimiter, inside⟩ ↔
      s = before ++ delimiter.opener ++ inside ∧ Tagless (before ++ ['{']) := by
  rw [tagless_iff]
  constructor
  · intro found
    refine ⟨eq_append_of_next? found, ?_⟩
    induction s generalizing before with
    | nil => simp [next?] at found
    | cons c rest ih =>
        have whole := eq_append_of_next? found
        rw [next?] at found
        split at found
        · obtain ⟨rfl, _, _⟩ : [] = before ∧ _ = delimiter ∧ _ = inside := by
            simpa using found
          intro other occurs
          have bounded := occurs.length_le
          rw [length_opener] at bounded
          simp at bounded
        · rename_i elsewhere
          obtain ⟨⟨front, _, _⟩, later, same⟩ := Option.map_eq_some_iff.mp found
          obtain ⟨rfl, rfl, rfl⟩ : c :: front = before ∧ _ = delimiter ∧
              _ = inside := by simpa using same
          simp only [whole, List.cons_append, atFront?_eq_none_iff,
            prefix_cons_opener_iff] at elsewhere
          intro other
          rw [List.cons_append, List.infix_cons_iff]
          intro found
          rcases found with fits | occurs
          · exact elsewhere other fits
          · exact ih later other occurs
  · intro split
    obtain ⟨rfl, absent⟩ := split
    induction before with
    | nil =>
        have front := atFront?_append delimiter inside
        rw [List.nil_append]
        rw [opener_eq_cons, List.cons_append] at front ⊢
        rw [next?, front]
    | cons c before ih =>
        have elsewhere :
            atFront? (c :: (before ++ delimiter.opener ++ inside)) = none := by
          rw [atFront?_eq_none_iff]
          intro other
          rw [prefix_cons_opener_iff]
          exact fun fits => absent other fits.isInfix
        have later := ih fun other occurs => absent other (List.infix_cons occurs)
        rw [List.cons_append, List.cons_append, next?, elsewhere, later]
        rfl

end Delimiter

end TemplateTree
