import TemplateTree.Proofs.Faults
import TemplateTree.Proofs.NormalForm

namespace TemplateTree

open Text

theorem Header.exists_ofBody_body (header : Header) :
    ∃ tag, Tag.ofBody (trim header.body.toList) = .ok tag := by
  cases header with
  | block name =>
      rw [body, String.toList_append]
      exact ⟨_, Tag.ofBody_trim_cons .block name.toList⟩
  | loop item collection =>
      have split := Tag.ofBody_trim_cons .loop
        (item.toList ++ " in ".toList ++ collection.toList)
      simp only [body, String.toList_append, List.append_assoc] at split ⊢
      exact ⟨_, split⟩
  | capture targets values =>
      rw [body, String.toList_append]
      exact ⟨_, Tag.ofBody_trim_cons .set (listed targets).toList⟩
  | autoescape strategy =>
      cases strategy with
      | none => exact ⟨.opens (.autoescape none), by decide⟩
      | some name =>
          rw [body, String.toList_append]
          exact ⟨_, Tag.ofBody_trim_cons .autoescape name.toList⟩

theorem Leaf.exists_ofBody_body {content : Leaf} {body : String}
    (wellFormed : content.WellFormed)
    (tagged : content.tag? = some (.statement, body)) :
    ∃ tag, Tag.ofBody (trim body.toList) = .ok tag := by
  have isTag : content.tag? ≠ none := by
    rw [tagged]
    exact Option.some_ne_none _
  cases content with
  | inherits declaration =>
      cases tagged
      obtain ⟨again, reads⟩ := declaration.exists_read_source
      have split := Tag.ofBody_trim_cons .inherits declaration.source.toList
      rw [Tag.ofKeyword, reads] at split
      rw [String.toList_append]
      exact ⟨_, split⟩
  | _ => exact ⟨_, ofBody_body (wellFormed.canonical trivial isTag) tagged⟩

theorem Event.token?_spelled_ne_none {event : Event} {delimiter : Delimiter}
    {body : String} (wellFormed : event.WellFormed)
    (tagged : event.tag? = some (delimiter, body)) :
    (delimiter.spelled body).token? ≠ none := by
  cases delimiter with
  | expression => exact Option.some_ne_none _
  | statement =>
      have readable : ∃ tag, Tag.ofBody (trim body.toList) = .ok tag := by
        cases event with
        | leaf content => exact Leaf.exists_ofBody_body wellFormed tagged
        | opening header =>
            cases tagged
            exact header.exists_ofBody_body
        | ending scope =>
            cases tagged
            exact ⟨_, Event.ofBody_endKeyword scope⟩
      obtain ⟨tag, reads⟩ := readable
      rw [Delimiter.spelled, Piece.token?, trim_spaced, reads]
      exact Option.some_ne_none _

namespace Piece

variable {pieces : List Piece} {scopes : List Scope} {events : List Event}

theorem token?_endTag_ne_none (scope : Scope) :
    (Delimiter.statement.spelled scope.endKeyword).token? ≠ none := by
  have wellFormed : (Event.ending scope).WellFormed := trivial
  exact Event.token?_spelled_ne_none wellFormed rfl

theorem token?_respelled_ne_none (sound : ∀ piece ∈ pieces, piece.Sound)
    (walk : events? scopes pieces = some events) :
    ∀ piece ∈ respelled scopes pieces, piece.token? ≠ none := by
  induction pieces generalizing scopes events with
  | nil =>
      intro piece member
      obtain ⟨scope, _, rfl⟩ := List.mem_map.mp member
      exact token?_endTag_ne_none scope
  | cons piece rest ih =>
      obtain ⟨isSound, restSound⟩ := List.forall_mem_cons.mp sound
      obtain ⟨token, later, classified, means, restWalk, rfl⟩ := exists_means_of_walk walk
      rw [respelled]
      refine List.forall_mem_cons.mpr ⟨?_, ih restSound restWalk⟩
      rcases means.tag_cases with
        ⟨untagged, _⟩ | ⟨event, delimiter, body, spelled, tagged, only, _, _⟩
      · rw [Role.respelled_of_text untagged, classified]
        exact Option.some_ne_none token
      · have wellFormed := means.wellFormed isSound
        rw [only, List.forall_mem_singleton] at wellFormed
        rw [Role.respelled_of_tag spelled]
        exact Event.token?_spelled_ne_none wellFormed.1 tagged

/-- Unless a brace at the end meets an end tag, every piece of the source is a tag that
was written or text. -/
theorem token?_cut_ne_none (segmented : Segmented pieces)
    (walk : events? scopes pieces = some events)
    (settled : ∀ run, pieces.getLast? = some (.text run) →
      run.getLast? = some '{' → openScopes scopes pieces = []) :
    ∀ piece ∈ cut (events.flatMap Event.source), piece.token? ≠ none := by
  have respelled := segmented_respelled_of_encloses segmented walk
    (fun event member => (wellFormed_of_walk segmented.1 walk event member).2) settled
  rw [← flatMap_source_respelled walk, cut_flatMap_source respelled]
  exact token?_respelled_ne_none segmented.1 walk

theorem not_infix_endTags (scopes : List Scope) :
    ¬Delimiter.expression.closer <:+: (respelled scopes []).flatMap source := by
  have spelled : (respelled scopes []).flatMap source =
      scopes.flatMap fun scope => '{' :: scope.endTag.toList.tail := by
    rw [respelled, List.flatMap_map]
    congr 1
    funext scope
    cases scope <;> rfl
  rw [spelled, infix_flatMap_cons_iff (by decide) (by decide)]
  intro found
  obtain ⟨scope, _, inside⟩ := found
  revert inside
  cases scope <;> decide

/-- Text stands behind a tag, also when the tag is respelled. -/
theorem exists_tag_of_getLast?_respelledTags (scopes : List Scope)
    {front : List Piece} {run : List Char}
    (precedes : ∀ last ∈ front.getLast?, last.Precedes (.text run)) :
    ∀ last ∈ (respelledTags scopes front).getLast?,
      ∃ delimiter inside, last = .tag delimiter inside := by
  intro last isLast
  rcases getLast?_respelledTags_cases isLast with isTag | inFront
  · exact isTag
  · cases last with
    | tag delimiter inside => exact ⟨delimiter, inside, rfl⟩
    | text other => exact (precedes _ inFront).1.elim
    | unclosed delimiter inside => exact (precedes _ inFront).elim

theorem flatMap_source_respelled_concat (front : List Piece) (run : List Char) :
    (respelled scopes (front ++ [.text run])).flatMap source =
      (respelledTags scopes front).flatMap source ++
        (run ++ (respelled (openScopes scopes front) []).flatMap source) := by
  have alone : respelledTags (openScopes scopes front) [.text run] = [.text run] := rfl
  rw [respelled_eq_append, respelledTags_append, openScopes_append, alone,
    List.flatMap_append, List.flatMap_append, List.flatMap_singleton, List.append_assoc]
  rfl

/-- A brace and the end tag behind it open an expression that does not end. -/
theorem exists_unclosed_of_brace {front : List Piece} {run : List Char}
    (segmented : Segmented (front ++ [.text (run ++ ['{'])]))
    (walk : events? scopes (front ++ [.text (run ++ ['{'])]) = some events)
    (stillOpen : openScopes scopes front ≠ []) :
    ∃ inside, .unclosed .expression inside ∈ cut (events.flatMap Event.source) := by
  obtain ⟨frontSegmented, lastSegmented, meets⟩ := segmented_append_iff.mp segmented
  have tagless : Tagless (run ++ ['{']) := (segmented_cons_iff.mp lastSegmented).1.2
  -- The tags in front of the brace are cut as before.
  have tokens := (events?_eq_some_iff.mp walk).1
  have frontWalk : events? scopes front = some _ :=
    events?_eq_some_iff.mpr ⟨(List.forall_mem_append.mp tokens).1, rfl⟩
  have frontRespelled := segmented_respelledTags frontSegmented frontWalk
    fun event member => (wellFormed_of_walk frontSegmented.1 frontWalk event member).2
  have afterTag := exists_tag_of_getLast?_respelledTags scopes
    fun last inFront => meets last inFront _ rfl
  obtain ⟨scope, outer, isOpen⟩ := List.exists_cons_of_ne_nil stillOpen
  have unending := not_infix_endTags (scope :: outer)
  obtain ⟨inside, spelled⟩ : ∃ inside,
      (respelled (scope :: outer) []).flatMap source = '{' :: inside := ⟨_, rfl⟩
  rw [spelled, infix_cons_iff_of_not_mem (by decide) (by decide)] at unending
  have opens : run ++ ['{'] ++ '{' :: inside =
      run ++ (Delimiter.expression.opener ++ inside) := List.append_assoc _ _ _
  refine ⟨inside, ?_⟩
  rw [← flatMap_source_respelled walk, flatMap_source_respelled_concat, isOpen, spelled,
    opens, cut_append, cut_append_opener tagless, cut_unclosed unending]
  · exact List.mem_append_right _ (List.mem_append_right _ List.mem_cons_self)
  · rw [cut_flatMap_source frontRespelled]
    intro last isLast first _
    obtain ⟨delimiter, within, rfl⟩ := afterTag last isLast
    trivial

end Piece

/-- The source of a tree that was read cannot be read again exactly when the template
ends with a brace inside a scope, which is closed right behind the brace. -/
theorem Template.parse_source_eq_error_iff {source : String} {template : Template}
    (parsed : Template.parse source = .ok template) :
    (∃ error, Template.parse template.source = .error error) ↔
      source.toList.getLast? = some '{' ∧ Template.openScopes source ≠ [] := by
  have walk := Template.parse_eq_ok_iff_events.mp parsed
  have segmented := Piece.segmented_cut source.toList
  have tokens := (Piece.events?_eq_some_iff.mp walk).1
  have brace := Piece.getLast?_eq_brace_iff segmented.1 fun _ _ member =>
    tokens _ member rfl
  rw [Piece.flatMap_source_cut] at brace
  rw [Template.exists_error_iff, Template.toList_source, brace, Template.openScopes]
  constructor
  · intro fails
    obtain ⟨piece, member, faulty⟩ := fails
    by_contra settled
    refine Piece.token?_cut_ne_none segmented walk (fun run last ends => ?_)
      piece member faulty
    obtain ⟨front, whole⟩ := List.getLast?_eq_some_iff.mp last
    obtain ⟨before, rfl⟩ := List.getLast?_eq_some_iff.mp ends
    by_contra stillOpen
    exact settled ⟨⟨front, before, whole⟩, stillOpen⟩
  · intro unsettled
    obtain ⟨⟨front, run, whole⟩, stillOpen⟩ := unsettled
    rw [whole] at segmented walk stillOpen
    rw [Piece.openScopes_append] at stillOpen
    obtain ⟨inside, member⟩ :=
      Piece.exists_unclosed_of_brace segmented walk stillOpen
    exact ⟨_, member, rfl⟩

/-- Two scopes are left open behind a brace. -/
theorem Template.exists_error_of_open_scopes :
    Template.parse "\x7b%for a in b%\x7d\x7b%set c%\x7dd\x7b" =
        .ok [.scope (.loop "a" "b")
          [.scope (.capture ["c"] []) [.leaf (.text "d\x7b")]]] ∧
      ∃ error, Template.parse (Template.source
        [.scope (.loop "a" "b")
          [.scope (.capture ["c"] []) [.leaf (.text "d\x7b")]]]) = .error error := by
  have parsed : Template.parse "\x7b%for a in b%\x7d\x7b%set c%\x7dd\x7b" =
      .ok [.scope (.loop "a" "b")
        [.scope (.capture ["c"] []) [.leaf (.text "d\x7b")]]] :=
    Outcome.toOption_eq_some_iff.mp (by decide +kernel)
  exact ⟨parsed, (Template.parse_source_eq_error_iff parsed).mpr
    ⟨by decide, by decide +kernel⟩⟩

/-- Not every tree that is read has a source that can be read. -/
theorem Template.not_forall_parse_source_ne_error :
    ¬∀ source template, Template.parse source = .ok template →
      ∀ error, Template.parse template.source ≠ .error error := by
  intro rereads
  have parsed : Template.parse "\x7b% block a %\x7d\x7b" =
      .ok [.scope (.block "a") [.leaf (.text "\x7b")]] :=
    Outcome.toOption_eq_some_iff.mp (by decide +kernel)
  have fails : Template.parse (Template.source
      [.scope (.block "a") [.leaf (.text "\x7b")]]) =
        .error (.unclosedTag .expression 13) := by decide +kernel
  exact rereads _ _ parsed _ fails

end TemplateTree
