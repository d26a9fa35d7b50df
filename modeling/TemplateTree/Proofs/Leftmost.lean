import TemplateTree.Delimiter
import TemplateTree.Proofs.Text.Bytes

namespace TemplateTree.Delimiter

open Text

variable {delimiter other : Delimiter} {s : List Char} {offset : Nat}

/-- A mark of this kind starts at the offset. -/
def OpensAt (delimiter : Delimiter) (s : List Char) (offset : Nat) : Prop :=
  ∃ before inside, s = before ++ delimiter.opener ++ inside ∧ byteLength before = offset

theorem OpensAt.eq_of_opensAt (opens : delimiter.OpensAt s offset)
    (alsoOpens : other.OpensAt s offset) : delimiter = other := by
  obtain ⟨before, inside, rfl, rfl⟩ := opens
  obtain ⟨otherBefore, otherInside, same, sameLength⟩ := alsoOpens
  rw [List.append_assoc, List.append_assoc] at same
  have isPrefix := prefix_of_byteLength_le same sameLength.ge
  have isEqual := isPrefix.eq_of_length_le
    (prefix_of_byteLength_le same.symm sameLength.le).length_le
  rw [isEqual] at same
  cases delimiter <;> cases other <;> simp_all [opener]

theorem opensAt_of_next? {opening : Opening} (found : next? s = some opening) :
    opening.delimiter.OpensAt s (byteLength opening.before) :=
  ⟨opening.before, opening.inside, eq_append_of_next? found, rfl⟩

theorem byteLength_le_of_opensAt {opening : Opening} (found : next? s = some opening)
    (opens : other.OpensAt s offset) : byteLength opening.before ≤ offset := by
  obtain ⟨whole, clear⟩ := next?_eq_some_iff.mp found
  obtain ⟨before, inside, rfl, rfl⟩ := opens
  by_contra! earlier
  simp only [List.append_assoc] at whole
  obtain ⟨between, split⟩ := prefix_of_byteLength_le whole earlier.le
  have nonempty : between ≠ [] := by
    rintro rfl
    rw [← split, List.append_nil] at earlier
    exact earlier.false
  -- The mark would lie within what stands before the other one and its first brace.
  rw [← split, List.append_assoc, List.append_cancel_left_eq, opener_eq_cons opening.delimiter,
    List.cons_append, ← List.singleton_append, ← List.append_assoc] at whole
  have fits : other.opener <+: between ++ ['{'] := by
    refine List.prefix_of_prefix_length_le ⟨_, whole⟩ (List.prefix_append _ _) ?_
    have positive := List.length_pos_of_ne_nil nonempty
    rw [length_opener, List.length_append, List.length_singleton]
    omega
  refine tagless_iff.mp clear other ?_
  rw [← split, List.append_assoc]
  exact List.infix_append_of_infix_right fits.isInfix

theorem earlier?_map_add (length : Nat) (ofStatement ofExpression : Option Nat) :
    earlier? (ofStatement.map (length + ·)) (ofExpression.map (length + ·)) =
      (earlier? ofStatement ofExpression).map fun place => (length + place.1, place.2) := by
  cases ofStatement with
  | none => cases ofExpression <;> rfl
  | some first =>
      cases ofExpression with
      | none => rfl
      | some second =>
          simp only [earlier?, Option.map_some, Nat.add_lt_add_iff_left]
          split <;> rfl

theorem earlier?_zero_left (ofExpression : Option Nat) :
    earlier? (some 0) ofExpression = some (0, .statement) := by
  cases ofExpression <;> rfl

theorem earlier?_zero_right {length : Nat} (positive : 0 < length) (ofStatement : Option Nat) :
    earlier? (ofStatement.map (length + ·)) (some 0) = some (0, .expression) := by
  cases ofStatement with
  | none => rfl
  | some first => exact if_pos (Nat.add_pos_left positive first)

/-- Comparing the offsets of two searches finds what one walk finds. -/
theorem leftmost?_eq_map_next? (s : List Char) :
    leftmost? s = (next? s).map Opening.place := by
  induction s with
  | nil => rfl
  | cons c rest ih =>
      rw [leftmost?, next?]
      cases front : atFront? (c :: rest) with
      | some found =>
          obtain ⟨delimiter, inside⟩ := found
          have starts : delimiter.opener <+: c :: rest :=
            ⟨inside, (eq_append_of_atFront? front).symm⟩
          cases delimiter with
          | statement =>
              rw [offset?_cons_of_fits starts, earlier?_zero_left]
              rfl
          | expression =>
              have elsewhere : ¬statement.opener <+: c :: rest := by
                rw [eq_append_of_atFront? front]
                simp [opener]
              rw [offset?_cons_of_fits starts, offset?_cons_of_elsewhere elsewhere,
                earlier?_zero_right c.utf8Size_pos]
              rfl
      | none =>
          have elsewhere := atFront?_eq_none_iff.mp front
          rw [offset?_cons_of_elsewhere (elsewhere .statement),
            offset?_cons_of_elsewhere (elsewhere .expression), earlier?_map_add,
            ← leftmost?, ih, Option.map_map, Option.map_map]
          rfl

theorem map_next?_eq_some_iff :
    (next? s).map Opening.place = some (offset, delimiter) ↔
      delimiter.OpensAt s offset ∧
        ∀ (other : Delimiter) earlier, other.OpensAt s earlier → offset ≤ earlier := by
  constructor
  · intro found
    obtain ⟨opening, isNext, same⟩ := Option.map_eq_some_iff.mp found
    obtain ⟨rfl, rfl⟩ := Prod.mk.inj same
    exact ⟨opensAt_of_next? isNext, fun _ _ => byteLength_le_of_opensAt isNext⟩
  · rintro ⟨opens, least⟩
    cases found : next? s with
    | none =>
        obtain ⟨before, inside, rfl, _⟩ := opens
        exact absurd ⟨before, inside, rfl⟩ (tagless_iff.mp (next?_eq_none_iff.mp found) delimiter)
    | some opening =>
        have sameOffset : byteLength opening.before = offset :=
          le_antisymm (byteLength_le_of_opensAt found opens) (least _ _ (opensAt_of_next? found))
        have sameKind : opening.delimiter = delimiter := by
          refine (opensAt_of_next? found).eq_of_opensAt ?_
          rwa [sameOffset]
        rw [Option.map_some, Opening.place, sameOffset, sameKind]

theorem next?_eq_none_iff_opensAt :
    next? s = none ↔ ∀ (delimiter : Delimiter) offset, ¬delimiter.OpensAt s offset := by
  rw [next?_eq_none_iff, tagless_iff]
  refine forall_congr' fun delimiter => ?_
  constructor
  · rintro absent offset ⟨before, inside, rfl, _⟩
    exact absent ⟨before, inside, rfl⟩
  · rintro nowhere ⟨before, inside, whole⟩
    exact nowhere _ ⟨before, inside, whole.symm, rfl⟩

/-- What stands before the first mark holds no mark and cannot be the start of one. -/
theorem before_of_next? {opening : Opening} (found : next? s = some opening) :
    Tagless opening.before ∧ opening.before.getLast? ≠ some '{' := by
  obtain ⟨_, clear⟩ := next?_eq_some_iff.mp found
  refine ⟨clear.of_isInfix (List.prefix_append _ _).isInfix, fun ends => ?_⟩
  obtain ⟨front, split⟩ := List.getLast?_eq_some_iff.mp ends
  refine clear.2 ⟨front, [], ?_⟩
  simp [split, opener]

/-- The search finds the least offset at which a mark starts, and the kind of that mark. -/
theorem next?_leftmost (s : List Char) :
    (∀ offset delimiter, (next? s).map Opening.place = some (offset, delimiter) ↔
      delimiter.OpensAt s offset ∧
        ∀ (other : Delimiter) earlier, other.OpensAt s earlier → offset ≤ earlier) ∧
    (next? s = none ↔ ∀ (delimiter : Delimiter) offset, ¬delimiter.OpensAt s offset) ∧
    (∀ opening, next? s = some opening →
      opening.before <+: s ∧ Tagless opening.before ∧ opening.before.getLast? ≠ some '{') ∧
    leftmost? s = (next? s).map Opening.place := by
  refine ⟨fun _ _ => map_next?_eq_some_iff, next?_eq_none_iff_opensAt, fun opening found => ?_,
    leftmost?_eq_map_next? s⟩
  refine ⟨?_, before_of_next? found⟩
  rw [eq_append_of_next? found, List.append_assoc]
  exact List.prefix_append _ _

/-- Of three braces the first two are the mark, although a mark starts at the second, too. -/
example : (next? "é\x7b\x7b\x7b%".toList).map Opening.place = some (2, .expression) := by decide

end TemplateTree.Delimiter
