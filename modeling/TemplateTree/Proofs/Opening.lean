import TemplateTree.Proofs.Locality
import TemplateTree.Proofs.NormalForm

namespace TemplateTree

open Text

namespace Tag

variable {item collection : List Char}

/-- The item that is read ends before the first `in`, so it is not one that runs into
a later `in`. -/
theorem loop_trim_ne (itemNonempty : item ≠ []) (isItem : Stripped isBlank item)
    (nonempty : collection ≠ []) (stripped : Stripped isBlank collection)
    (ends : " in".toList <:+ item) (other : String) :
    loop (trim (item ++ " in ".toList ++ collection)) ≠
      .opens (.loop (String.ofList item) other) := by
  intro reads
  rw [trim_loop itemNonempty isItem nonempty stripped] at reads
  obtain ⟨left, right, found, same, _⟩ := exists_cut?_of_loop reads
  obtain ⟨front, rfl⟩ := ends
  -- The `in` of the item stands between two spaces, because a space follows the item.
  have occurs : front ++ " in".toList ++ " in ".toList ++ collection =
      front ++ " in ".toList ++ ("in ".toList ++ collection) := by
    simp
  have first := length_le_of_cut? (by decide) found occurs
  have shorter := (strip_isInfix isBlank left).length_le
  have isLeft : front ++ " in".toList = strip isBlank left :=
    String.ofList_injective (Header.loop.inj same).1
  rw [← isLeft, List.length_append] at shorter
  have positive : 0 < " in".toList.length := by decide
  omega

end Tag

/-- What is written for a header that was read is read as this header exactly when the
header is stable. -/
theorem Header.ofBody_body_iff {header : Header} (wellFormed : header.WellFormed) :
    Tag.ofBody (trim header.body.toList) = .ok (.opens header) ↔ header.Stable := by
  constructor
  · intro reads
    cases header with
    | block name => trivial
    | autoescape strategy => trivial
    | capture targets values =>
        obtain ⟨rfl, _⟩ := wellFormed
        rintro rfl
        revert reads
        decide
    | loop item collection =>
        obtain ⟨⟨itemNonempty, isItem, _⟩, nonempty, stripped⟩ := wellFormed
        intro ends
        have split := Tag.ofBody_trim_cons .loop
          (item.toList ++ " in ".toList ++ collection.toList)
        have differs := Tag.loop_trim_ne itemNonempty isItem nonempty stripped ends collection
        rw [String.ofList_toList] at differs
        simp only [body, String.toList_append, List.append_assoc] at reads split differs
        apply differs
        exact Except.ok.inj (split.symm.trans reads)
  · exact fun stable => Header.ofBody_body (wellFormed.canonical stable)

namespace Piece

variable {piece : Piece} {pieces : List Piece} {header : Header} {scopes : List Scope}
  {later : List Event}

theorem ofPiece_of_walk_cons (opens : piece.OpensTag)
    (walk : events? scopes (piece :: pieces) = some (.opening header :: later)) :
    Role.ofPiece scopes.head? piece = .opening header := by
  obtain ⟨token, behind, _, means, _, whole⟩ := exists_means_of_walk walk
  obtain ⟨⟨first, isFirst, _⟩, _⟩ := means.setOff opens
  obtain ⟨others, split⟩ := List.head?_eq_some_iff.mp isFirst
  rw [split, List.cons_append] at whole
  obtain ⟨rfl, _⟩ := List.cons.inj whole
  have member : Event.opening header ∈ (Role.ofPiece scopes.head? piece).events piece := by
    rw [← means.events_eq, split]
    exact List.mem_cons_self
  exact Role.eq_opening_of_mem_events member

theorem ofBody_of_ofPiece {body : String} {scope : Option Scope}
    (opens : Role.ofPiece scope (Delimiter.statement.spelled body) = .opening header) :
    Tag.ofBody (trim body.toList) = .ok (.opens header) := by
  rw [Delimiter.spelled, Role.ofPiece, trim_spaced] at opens
  cases reads : Tag.ofBody (trim body.toList) with
  | error error =>
      rw [reads] at opens
      cases opens
  | ok tag =>
      rw [reads] at opens
      cases tag with
      | opens other =>
          cases opens
          rfl
      | closes closed =>
          simp only [Role.ofTag] at opens
          split at opens <;> cases opens
      | _ => cases opens

theorem cut_source_scope (encloses : (Event.opening header).Encloses) :
    cut (Template.source [.scope header []]).toList =
      Delimiter.statement.spelled header.body :: respelled [header.scope] [] := by
  have isOpener : (Event.opening header).tag? = some (.statement, header.body) := rfl
  have isCloser : (Event.ending header.scope).tag? =
      some (.statement, header.scope.endKeyword) := rfl
  have sound := Event.sound_spelled encloses isOpener
  rw [Template.toList_source, cut_eq_iff]
  refine ⟨segmented_cons_iff.mpr ⟨sound, fun _ _ => trivial, segmented_endTags _⟩, ?_⟩
  rw [respelled, List.map_singleton, List.flatMap_cons, List.flatMap_cons,
    Event.source_spelled isOpener, Event.source_spelled isCloser]
  rfl

/-- A scope stands between two canonical tags when the first of them opens it. -/
theorem events?_spelled_endTags_iff :
    events? [] (Delimiter.statement.spelled header.body :: respelled [header.scope] []) =
        some (Template.events [.scope header []]) ↔
      Tag.ofBody (trim header.body.toList) = .ok (.opens header) := by
  constructor
  · intro walk
    have isTag : (Delimiter.statement.spelled header.body).OpensTag := trivial
    have opens := ofPiece_of_walk_cons isTag walk
    exact ofBody_of_ofPiece opens
  · intro reads
    have means : (Delimiter.statement.spelled header.body).token? =
        some (.opens header) := by
      rw [Delimiter.spelled, token?, trim_spaced, reads]
      rfl
    have closed : events? (Token.scopesAfter [] (.opens header))
        (respelled [header.scope] []) = some [.ending header.scope] :=
      events?_endTags [header.scope]
    rw [events?_cons means, closed]
    rfl

end Piece

namespace Template

/-- A scope that was read without children is read again from its canonical source
exactly when its header is stable. -/
theorem parse_source_scope_iff {opening : String} {header : Header}
    (opens : parse opening = .ok [.scope header []]) :
    parse (source [.scope header []]) = .ok [.scope header []] ↔ header.Stable := by
  have walk := parse_eq_ok_iff_events.mp opens
  have sound := (Piece.segmented_cut opening.toList).1
  have member : Event.opening header ∈ events [.scope header []] := List.mem_cons_self
  obtain ⟨wellFormed, encloses⟩ := Piece.wellFormed_of_walk sound walk _ member
  rw [parse_eq_ok_iff_events, Piece.cut_source_scope encloses,
    Piece.events?_spelled_endTags_iff, Header.ofBody_body_iff wellFormed]

/-- An `in` in the collection of a loop. -/
theorem parse_source_scope_of_loop :
    parse "\x7b%for\tkey ,row  in  a in\nrows%\x7d" =
        .ok [.scope (.loop "key ,row" "a in\nrows") []] ∧
      parse (source [.scope (.loop "key ,row" "a in\nrows") []]) =
        .ok [.scope (.loop "key ,row" "a in\nrows") []] := by
  have opens : parse "\x7b%for\tkey ,row  in  a in\nrows%\x7d" =
      .ok [.scope (.loop "key ,row" "a in\nrows") []] :=
    Outcome.toOption_eq_some_iff.mp (by decide +kernel)
  exact ⟨opens, (parse_source_scope_iff opens).mpr (by decide)⟩

/-- A comma alone opens a capture, but it is not written. -/
theorem not_forall_parse_source_scope :
    ¬∀ opening inside header, Piece.cut opening.toList = [.tag .statement inside] →
      parse opening = .ok [.scope header []] →
        parse (source [.scope header []]) = .ok [.scope header []] := by
  intro rereads
  have opens : parse "\x7b% set , %\x7d" = .ok [.scope (.capture [] []) []] :=
    Outcome.toOption_eq_some_iff.mp (by decide +kernel)
  have again := rereads _ " set , ".toList _ (by decide +kernel) opens
  have same := Outcome.toOption_eq_some_iff.mpr again
  revert same
  decide +kernel

/-- The item of a loop runs into the `in` behind it. -/
example : parse (source [.scope (.loop "x in" "y") []]) =
    .ok [.scope (.loop "x" "in y") []] :=
  Outcome.toOption_eq_some_iff.mp (by decide +kernel)

end Template

end TemplateTree
