import Mathlib.Data.List.Chain
import TemplateTree.Piece
import TemplateTree.Proofs.Text.Search

namespace TemplateTree

/-! `cut_eq_iff` says without a search which pieces a text is cut into: the ones that make it
up, as soon as no tag opens inside plain text, every tag ends at the first closing mark, and
plain text is neither empty nor divided. -/

namespace FirstTag

open Text

variable {before inside rest : List Char} {delimiter : Delimiter}

theorem find_of_tagless {s : List Char} (tagless : Tagless s) :
    find s = .absent := by
  rw [find, Delimiter.next?_eq_none_iff.mpr tagless]

theorem find_append (tagless : Tagless (before ++ ['{']))
    (delimiter : Delimiter) (inside : List Char) :
    find (before ++ delimiter.opener ++ inside) =
      match cut? delimiter.closer inside with
      | none => .unclosed before delimiter inside
      | some (body, rest) => .closed before delimiter body rest := by
  have opens := Delimiter.next?_eq_some_iff.mpr
    ⟨rfl (a := before ++ delimiter.opener ++ inside), tagless⟩
  cases ends : cut? delimiter.closer inside with
  | none => simp only [find, opens, ends]
  | some parts => simp only [find, opens, ends]

theorem tagless_of_absent {s : List Char} (absent : find s = .absent) :
    Tagless s := by
  rw [find] at absent
  split at absent
  · rename_i found
    exact Delimiter.next?_eq_none_iff.mp found
  · split at absent <;> cases absent

theorem tagless_of_unclosed {s : List Char}
    (unclosed : find s = .unclosed before delimiter inside) :
    Tagless (before ++ ['{']) ∧ ¬delimiter.closer <:+: inside := by
  rw [find] at unclosed
  split at unclosed
  · cases unclosed
  · rename_i found
    split at unclosed
    · rename_i absent
      cases unclosed
      exact ⟨(Delimiter.next?_eq_some_iff.mp found).2, cut?_eq_none_iff.mp absent⟩
    · cases unclosed

theorem tagless_of_closed {s : List Char}
    (closed : find s = .closed before delimiter inside rest) :
    Tagless (before ++ ['{']) ∧
      ¬delimiter.closer <:+: inside ++ delimiter.closer.dropLast := by
  rw [find] at closed
  split at closed
  · cases closed
  · rename_i found
    split at closed
    · cases closed
    · rename_i ends
      cases closed
      exact ⟨(Delimiter.next?_eq_some_iff.mp found).2,
        ((cut?_eq_some_iff (Delimiter.closer_ne_nil _)).mp ends).2⟩

end FirstTag

namespace Piece

open Text

variable {piece next : Piece} {pieces rest : List Piece}
  {run inside s : List Char} {delimiter : Delimiter}

/-- What a piece looks like by itself. -/
def Sound : Piece → Prop
  | .text run => run ≠ [] ∧ Tagless run
  | .tag delimiter inside =>
      ¬delimiter.closer <:+: inside ++ delimiter.closer.dropLast
  | .unclosed delimiter inside => ¬delimiter.closer <:+: inside

def OpensTag : Piece → Prop
  | .text _ => False
  | .tag _ _ => True
  | .unclosed _ _ => True

/-- What may stand directly before what.  Plain text is not divided, and it does
not end with a brace that would open a tag with the mark behind it. -/
def Precedes : Piece → Piece → Prop
  | .text run, next => next.OpensTag ∧ Tagless (run ++ ['{'])
  | .tag _ _, _ => True
  | .unclosed _ _, _ => False

/-- The pieces are cut where tags open and close. -/
def Segmented (pieces : List Piece) : Prop :=
  (∀ piece ∈ pieces, piece.Sound) ∧ pieces.IsChain Precedes

theorem segmented_nil : Segmented [] := ⟨by simp, List.isChain_nil⟩

theorem segmented_cons_iff :
    Segmented (piece :: rest) ↔
      piece.Sound ∧ (∀ next ∈ rest.head?, piece.Precedes next) ∧
        Segmented rest := by
  simp only [Segmented, List.forall_mem_cons, List.isChain_cons, and_assoc,
    and_left_comm]

theorem segmented_append_iff :
    Segmented (pieces ++ rest) ↔
      Segmented pieces ∧ Segmented rest ∧
        ∀ last ∈ pieces.getLast?, ∀ first ∈ rest.head?, last.Precedes first := by
  simp only [Segmented, List.forall_mem_append, List.isChain_append]
  tauto

theorem eq_opener_append_of_opensTag (opens : piece.OpensTag) :
    ∃ (delimiter : Delimiter) (inside : List Char),
      piece.source = delimiter.opener ++ inside := by
  cases piece with
  | text run => exact absurd opens id
  | tag delimiter inside =>
      exact ⟨delimiter, inside ++ delimiter.closer, List.append_assoc _ _ _⟩
  | unclosed delimiter inside => exact ⟨delimiter, inside, rfl⟩

theorem segmented_ofText_append (tagless : Tagless (run ++ ['{']))
    (opens : piece.OpensTag) (segmented : Segmented (piece :: rest)) :
    Segmented (ofText run ++ piece :: rest) := by
  cases run with
  | nil => exact segmented
  | cons c run =>
      refine segmented_cons_iff.mpr ⟨⟨by simp, ?_⟩, ?_, segmented⟩
      · exact tagless.of_isInfix (List.prefix_append _ _).isInfix
      · intro next first
        cases first
        exact ⟨opens, tagless⟩

theorem segmented_cut (s : List Char) : Segmented (cut s) := by
  induction s using cut.induct with
  | case1 s absent =>
      rw [cut_of_absent absent, ofText]
      split
      · exact segmented_nil
      · rename_i nonempty
        refine segmented_cons_iff.mpr ⟨⟨by simpa using nonempty, ?_⟩, by simp,
          segmented_nil⟩
        exact FirstTag.tagless_of_absent absent
  | case2 s before delimiter inside unclosed =>
      obtain ⟨tagless, unending⟩ := FirstTag.tagless_of_unclosed unclosed
      rw [cut_of_unclosed unclosed]
      refine segmented_ofText_append tagless trivial
        (segmented_cons_iff.mpr ⟨unending, by simp, segmented_nil⟩)
  | case3 s before delimiter inside rest closed ih =>
      obtain ⟨tagless, ends⟩ := FirstTag.tagless_of_closed closed
      rw [cut_of_closed closed]
      exact segmented_ofText_append tagless trivial
        (segmented_cons_iff.mpr ⟨ends, fun _ _ => trivial, ih⟩)

theorem cut_append_opener (tagless : Tagless (run ++ ['{'])) :
    cut (run ++ (delimiter.opener ++ inside)) =
      ofText run ++ cut (delimiter.opener ++ inside) := by
  have here := FirstTag.find_append tagless delimiter inside
  have atFront := FirstTag.find_append tagless_brace delimiter inside
  rw [List.append_assoc] at here
  rw [List.nil_append] at atFront
  cases ends : cut? delimiter.closer inside with
  | none =>
      rw [ends] at here atFront
      rw [cut_of_unclosed here, cut_of_unclosed atFront]
      rfl
  | some found =>
      rw [ends] at here atFront
      rw [cut_of_closed here, cut_of_closed atFront]
      rfl

theorem cut_unclosed (unending : ¬delimiter.closer <:+: inside) :
    cut (delimiter.opener ++ inside) = [.unclosed delimiter inside] := by
  have found := FirstTag.find_append tagless_brace delimiter inside
  rw [cut?_eq_none_iff.mpr unending] at found
  exact cut_of_unclosed found

theorem cut_wrap_append
    (ends : ¬delimiter.closer <:+: inside ++ delimiter.closer.dropLast) :
    cut (delimiter.wrap inside ++ s) = .tag delimiter inside :: cut s := by
  have found := FirstTag.find_append tagless_brace delimiter
    (inside ++ delimiter.closer ++ s)
  rw [(cut?_eq_some_iff (Delimiter.closer_ne_nil _)).mpr ⟨rfl, ends⟩] at found
  have same := cut_of_closed found
  rw [List.nil_append, ← List.append_assoc, ← List.append_assoc] at same
  exact same

theorem cut_flatMap_source (segmented : Segmented pieces) :
    cut (pieces.flatMap source) = pieces := by
  induction pieces with
  | nil => exact cut_nil
  | cons piece rest ih =>
      obtain ⟨sound, precedes, later⟩ := segmented_cons_iff.mp segmented
      rw [List.flatMap_cons]
      cases piece with
      | text run =>
          cases rest with
          | nil =>
              rw [List.flatMap_nil, source, List.append_nil,
                cut_of_absent (FirstTag.find_of_tagless sound.2), ofText]
              simpa using sound.1
          | cons next rest =>
              obtain ⟨opens, tagless⟩ := precedes next rfl
              obtain ⟨delimiter, inside, same⟩ := eq_opener_append_of_opensTag opens
              have follows := ih later
              rw [List.flatMap_cons, same, List.append_assoc] at follows ⊢
              rw [source, cut_append_opener tagless, follows, ofText]
              simp [sound.1]
      | tag delimiter inside =>
          rw [source, cut_wrap_append sound, ih later]
      | unclosed delimiter inside =>
          cases rest with
          | nil =>
              rw [List.flatMap_nil, source, List.append_nil, cut_unclosed sound]
          | cons next rest => exact (precedes next rfl).elim

theorem cut_eq_iff :
    cut s = pieces ↔ Segmented pieces ∧ pieces.flatMap source = s := by
  constructor
  · intro same
    rw [← same]
    exact ⟨segmented_cut s, flatMap_source_cut s⟩
  · intro determined
    rw [← determined.2]
    exact cut_flatMap_source determined.1

/-- Only text can end with an opening brace. -/
theorem getLast?_eq_brace_iff (sound : ∀ piece ∈ pieces, piece.Sound)
    (closed : ∀ delimiter inside, .unclosed delimiter inside ∉ pieces) :
    (pieces.flatMap source).getLast? = some '{' ↔
      ∃ front run, pieces = front ++ [.text (run ++ ['{'])] := by
  constructor
  · intro ends
    obtain rfl | ⟨front, last, rfl⟩ := List.eq_nil_or_concat' pieces
    · cases ends
    · have member : last ∈ front ++ [last] := List.mem_append_right _ List.mem_cons_self
      rw [List.flatMap_append, List.flatMap_singleton] at ends
      cases last with
      | unclosed delimiter inside => exact absurd member (closed delimiter inside)
      | tag delimiter inside =>
          have closes : (source (.tag delimiter inside)).getLast? = some '}' := by
            cases delimiter <;> simp [source, Delimiter.wrap, Delimiter.closer]
          rw [List.getLast?_append, closes] at ends
          cases ends
      | text run =>
          have nonempty : source (.text run) ≠ [] := (sound _ member).1
          rw [List.getLast?_append_of_ne_nil _ nonempty] at ends
          obtain ⟨before, rfl⟩ := List.getLast?_eq_some_iff.mp ends
          exact ⟨front, before, rfl⟩
  · intro brace
    obtain ⟨front, run, rfl⟩ := brace
    rw [List.flatMap_append, List.flatMap_singleton, source, ← List.append_assoc,
      List.getLast?_concat]

/-- Two texts are cut apart from each other when no piece reaches from one into the
other. -/
theorem cut_append {left right : List Char}
    (meets : ∀ last ∈ (cut left).getLast?, ∀ first ∈ (cut right).head?,
      last.Precedes first) : cut (left ++ right) = cut left ++ cut right := by
  rw [cut_eq_iff, segmented_append_iff, List.flatMap_append, flatMap_source_cut,
    flatMap_source_cut]
  exact ⟨⟨segmented_cut left, segmented_cut right, meets⟩, rfl⟩

/-- No piece reaches across the end of a tag. -/
theorem cut_append_of_tag {left : List Char}
    (ends : (cut left).getLast? = some (.tag delimiter inside)) (right : List Char) :
    cut (left ++ right) = cut left ++ cut right := by
  apply cut_append
  intro last isLast first _
  rw [ends] at isLast
  cases isLast
  trivial

/-- A tag behind a text is cut off unless a brace in front of it opens another one. -/
theorem cut_append_of_opensTag {left right : List Char}
    (closed : ∀ delimiter inside, .unclosed delimiter inside ∉ cut left)
    (noBrace : left.getLast? ≠ some '{')
    (opens : ∀ first ∈ (cut right).head?, first.OpensTag) :
    cut (left ++ right) = cut left ++ cut right := by
  have sound := (segmented_cut left).1
  have brace := getLast?_eq_brace_iff sound closed
  rw [flatMap_source_cut] at brace
  apply cut_append
  intro last isLast first isFirst
  have member := List.mem_of_getLast? isLast
  cases last with
  | tag delimiter inside => trivial
  | unclosed delimiter inside => exact absurd member (closed delimiter inside)
  | text run =>
      have apart : run.getLast? ≠ some '{' := by
        intro ends
        obtain ⟨front, whole⟩ := List.getLast?_eq_some_iff.mp isLast
        obtain ⟨before, rfl⟩ := List.getLast?_eq_some_iff.mp ends
        exact noBrace (brace.mpr ⟨front, before, whole⟩)
      exact ⟨opens first isFirst,
        tagless_append (sound _ member).2 (by decide) fun ends => absurd ends apart⟩

/-- Whatever is added to a text, its pieces stay the same up to a tag that ends. -/
theorem exists_cut_append_of_tag {before after : List Piece}
    (found : cut s = before ++ .tag delimiter inside :: after) (more : List Char) :
    ∃ later, cut (s ++ more) = before ++ .tag delimiter inside :: later := by
  have segmented := segmented_cut s
  have whole := flatMap_source_cut s
  rw [found, ← List.singleton_append, ← List.append_assoc] at segmented whole
  have front := cut_flatMap_source (segmented_append_iff.mp segmented).1
  refine ⟨cut (after.flatMap source ++ more), ?_⟩
  rw [← whole, List.flatMap_append, List.append_assoc, cut_append, front,
    List.append_assoc, List.singleton_append]
  rw [front, List.getLast?_concat]
  intro last isLast first _
  cases isLast
  trivial

end Piece

end TemplateTree
