import TemplateTree.Proofs.Text.Search
import TemplateTree.Text.Bytes

namespace TemplateTree.Text

variable {s left right before part after mark : List Char} {c : Char} {offset start stop : Nat}

theorem offset?_cons_of_fits (fits : mark <+: c :: s) :
    offset? mark (c :: s) = some 0 := by
  rw [offset?, if_pos (List.isPrefixOf_iff_prefix.mpr fits)]

theorem offset?_cons_of_elsewhere (elsewhere : ¬mark <+: c :: s) :
    offset? mark (c :: s) = (offset? mark s).map (c.utf8Size + ·) := by
  rw [offset?, if_neg (List.isPrefixOf_iff_prefix.not.mpr elsewhere)]

theorem offset?_eq_map_cut? (mark s : List Char) :
    offset? mark s = (cut? mark s).map fun (before, _) => byteLength before := by
  induction s with
  | nil =>
      rw [offset?, cut?]
      split <;> rfl
  | cons c rest ih =>
      rw [offset?, cut?, ih]
      split
      · rfl
      · rw [Option.map_map, Option.map_map]
        rfl

theorem lastOffset?_eq_map_beforeLast? (c : Char) (s : List Char) :
    lastOffset? c s = (beforeLast? c s).map byteLength := by
  induction s with
  | nil => rfl
  | cons first rest ih =>
      rw [lastOffset?, ih, beforeLast?_cons]
      cases beforeLast? c rest with
      | some before => rfl
      | none =>
          simp only [Option.map_none]
          split <;> rfl

theorem byteLength_singleton (c : Char) : byteLength [c] = c.utf8Size := rfl

/-- Of two parts with which a text begins, one that is no longer in bytes begins the other. -/
theorem prefix_of_byteLength_le (same : left ++ after = before ++ right)
    (shorter : byteLength left ≤ byteLength before) : left <+: before := by
  rcases List.append_eq_append_iff.mp same with ⟨more, whole, _⟩ | ⟨more, whole, _⟩
  · exact ⟨more, whole.symm⟩
  · rw [whole, byteLength_append] at shorter
    have bounded := length_le_byteLength more
    have nothing : more = [] := List.length_eq_zero_iff.mp (by omega)
    rw [whole, nothing, List.append_nil]

theorem isBoundary_iff :
    IsBoundary s offset ↔ ∃ before after, s = before ++ after ∧ byteLength before = offset := by
  rw [IsBoundary, String.Pos.Raw.isValid_iff_exists_append]
  constructor
  · rintro ⟨before, after, whole, isLength⟩
    refine ⟨before.toList, after.toList, ?_, ?_⟩
    · rw [← String.toList_append, ← whole, String.toList_ofList]
    · have size := congrArg String.Pos.Raw.byteIdx isLength
      rw [← utf8ByteSize_ofList, String.ofList_toList]
      exact size.symm
  · rintro ⟨before, after, rfl, rfl⟩
    refine ⟨String.ofList before, String.ofList after, String.ofList_append, ?_⟩
    rw [← utf8ByteSize_ofList]
    rfl

theorem isBoundary_byteLength (before after : List Char) :
    IsBoundary (before ++ after) (byteLength before) :=
  isBoundary_iff.mpr ⟨before, after, rfl, rfl⟩

theorem isRange_append (before part after : List Char) :
    IsRange (before ++ (part ++ after)) (byteLength before)
      (byteLength before + byteLength part) := by
  constructor
  case ordered => exact Nat.le_add_right _ _
  case inside =>
    simp only [byteLength_append]
    omega
  case atStart => exact isBoundary_byteLength before _
  case atStop =>
    rw [← List.append_assoc, ← byteLength_append]
    exact isBoundary_byteLength (before ++ part) after

/-- The bytes between two places encode the characters between them. -/
theorem IsRange.text_append
    (range : IsRange (before ++ (part ++ after)) (byteLength before)
      (byteLength before + byteLength part)) :
    range.text = part := by
  let whole := String.ofList (before ++ (part ++ after))
  let first : whole.Pos := ⟨⟨byteLength before⟩, range.atStart⟩
  let last : whole.Pos := ⟨⟨byteLength before + byteLength part⟩, range.atStop⟩
  have splitsFirst : first.Splits (String.ofList before)
      (String.ofList part ++ String.ofList after) := by
    constructor
    · simp [whole]
    · rw [String.Pos.Raw.ext_iff]
      exact (utf8ByteSize_ofList before).symm
  have splitsLast : last.Splits (String.ofList before ++ String.ofList part)
      (String.ofList after) := by
    constructor
    · simp [whole, String.append_assoc]
    · rw [String.Pos.Raw.ext_iff, ← String.ofList_append]
      exact ((utf8ByteSize_ofList _).trans (byteLength_append before part)).symm
  obtain ⟨ordered, copied⟩ := String.copy_slice_eq_iff_splits.mpr ⟨_, _, splitsFirst, splitsLast⟩
  have extracted := String.extract_eq_copy_slice first last ordered
  rw [IsRange.text, extracted, copied, String.toList_ofList]

end TemplateTree.Text
