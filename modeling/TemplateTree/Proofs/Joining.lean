import TemplateTree.Proofs.Respelling
import TemplateTree.Proofs.Text.Words

namespace TemplateTree

open Text

theorem Template.events_ofText_of_uniform {s : List Char} {blank : Bool}
    (nonempty : s ≠ []) (uniform : Uniform blank s) :
    Template.events (.ofText s) = [.leaf (.ofRun s)] := by
  rw [Template.events_ofText, runs_of_uniform nonempty uniform, List.map_singleton]

theorem Leaf.ofRun_of_isWord {s : List Char} (isWord : IsWord s) :
    Leaf.ofRun s = .text (String.ofList s) := by
  obtain ⟨c, rest, rfl⟩ := List.exists_cons_of_ne_nil isWord.1
  have noBlank : ¬(c :: rest).all isBlank = true := by
    rw [List.all_cons, isWord.2 c List.mem_cons_self, Bool.false_and]
    decide
  rw [Leaf.ofRun, if_neg noBlank]

theorem Leaf.ofRun_of_blank {s : List Char} (blank : Uniform true s) :
    Leaf.ofRun s = .whitespace (String.ofList s) := by
  rw [Leaf.ofRun, if_pos (List.all_eq_true.mpr blank)]

theorem Template.events_ofText_append {left right : List Char}
    (apart : ∀ a ∈ left.getLast?, ∀ b ∈ right.head?, isBlank a ≠ isBlank b) :
    Template.events (.ofText (left ++ right)) =
      Template.events (.ofText left) ++ Template.events (.ofText right) := by
  simp only [Template.events_ofText, runs_append apart, List.map_append]

namespace Piece

variable {run : List Char} {pieces : List Piece} {scopes : List Scope}
  {events : List Event}

/-- Text in front of pieces becomes one with the text with which they start. -/
def prepend (run : List Char) : List Piece → List Piece
  | .text later :: rest => .text (run ++ later) :: rest
  | pieces => .text run :: pieces

theorem prepend_cases (run : List Char) (pieces : List Piece) :
    (∃ later tail, pieces = .text later :: tail ∧
      prepend run pieces = .text (run ++ later) :: tail) ∨
    (∀ piece ∈ pieces.head?, piece.OpensTag) ∧
      prepend run pieces = .text run :: pieces := by
  cases pieces with
  | nil => exact Or.inr ⟨by simp, rfl⟩
  | cons piece tail =>
      cases piece with
      | text later => exact Or.inl ⟨later, tail, rfl, rfl⟩
      | tag delimiter inside =>
          refine Or.inr ⟨fun piece first => ?_, rfl⟩
          cases first
          trivial
      | unclosed delimiter inside =>
          refine Or.inr ⟨fun piece first => ?_, rfl⟩
          cases first
          trivial

theorem flatMap_source_prepend (run : List Char) (pieces : List Piece) :
    (prepend run pieces).flatMap source = run ++ pieces.flatMap source := by
  rcases prepend_cases run pieces with ⟨later, tail, rfl, joined⟩ | ⟨_, joined⟩
  · rw [joined, List.flatMap_cons, List.flatMap_cons, source, source,
      List.append_assoc]
  · rw [joined, List.flatMap_cons, source]

theorem segmented_prepend (nonempty : run ≠ []) (tagless : Tagless run)
    (segmented : Segmented pieces)
    (apart : run.getLast? = some '{' →
      ∀ c ∈ (pieces.flatMap source).head?, isBlank c = true) :
    Segmented (prepend run pieces) := by
  rcases prepend_cases run pieces with ⟨later, tail, rfl, joined⟩ | ⟨opens, joined⟩
  · obtain ⟨⟨laterNonempty, laterTagless⟩, precedes, rest⟩ :=
      segmented_cons_iff.mp segmented
    have laterApart : run.getLast? = some '{' → ∀ c ∈ later.head?, isBlank c = true := by
      intro ends c first
      apply apart ends
      rw [List.flatMap_cons, source, List.head?_append_of_ne_nil _ laterNonempty]
      exact first
    rw [joined]
    refine segmented_cons_iff.mpr ⟨⟨by simp [nonempty],
      tagless_append tagless laterTagless laterApart⟩, fun next first => ?_, rest⟩
    obtain ⟨nextOpens, bracedTagless⟩ := precedes next first
    refine ⟨nextOpens, ?_⟩
    rw [List.append_assoc]
    apply tagless_append tagless bracedTagless
    rwa [List.head?_append_of_ne_nil _ laterNonempty]
  · rw [joined]
    refine segmented_cons_iff.mpr ⟨⟨nonempty, tagless⟩, fun next first => ?_, segmented⟩
    have nextOpens := opens next first
    refine ⟨nextOpens, tagless_append tagless (by decide) fun ends => ?_⟩
    obtain ⟨delimiter, inside, spelled⟩ := eq_opener_append_of_opensTag nextOpens
    obtain ⟨tail, rfl⟩ := List.head?_eq_some_iff.mp first
    have brace : isBlank '{' = true := by
      apply apart ends
      rw [List.flatMap_cons, spelled, delimiter.opener_eq_cons]
      rfl
    exact absurd brace (by decide)

theorem events?_prepend
    (apart : ∀ later tail, pieces = .text later :: tail →
      ∀ a ∈ run.getLast?, ∀ b ∈ later.head?, isBlank a ≠ isBlank b)
    (walk : events? scopes pieces = some events) :
    events? scopes (prepend run pieces) =
      some (Template.events (.ofText run) ++ events) := by
  rcases prepend_cases run pieces with ⟨later, tail, rfl, joined⟩ | ⟨_, joined⟩
  · have meansLater : (Piece.text later).token? = some (.text later) := rfl
    have meansBoth : (Piece.text (run ++ later)).token? = some (.text (run ++ later)) := rfl
    rw [events?_cons meansLater] at walk
    obtain ⟨others, tailWalk, rfl⟩ := Option.map_eq_some_iff.mp walk
    rw [joined, events?_cons meansBoth]
    change (events? scopes tail).map _ = _
    change events? scopes tail = _ at tailWalk
    rw [tailWalk, Option.map_some, Token.events, Token.events,
      Template.events_ofText_append (apart later tail rfl), List.append_assoc]
  · have means : (Piece.text run).token? = some (.text run) := rfl
    rw [joined, events?_cons means]
    change (events? scopes pieces).map _ = _
    rw [walk]
    rfl

end Piece

end TemplateTree
