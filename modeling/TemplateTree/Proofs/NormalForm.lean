import TemplateTree.Proofs.Roles
import TemplateTree.Proofs.WellFormed

namespace TemplateTree

/-! The pieces of the source of a tree that was read are the pieces of the template with the
tags that were understood respelled and with the end tags that were missing. -/

open Text

/-- What reading does not ensure of the strings of a node. -/
def Event.Stable : Event → Prop
  | .leaf content => content.Stable
  | .opening header => header.Stable
  | .ending _ => True

instance : (event : Event) → Decidable event.Stable
  | .leaf content => inferInstanceAs (Decidable content.Stable)
  | .opening header => inferInstanceAs (Decidable header.Stable)
  | .ending _ => isTrue trivial

theorem Event.WellFormed.canonical {event : Event} (wellFormed : event.WellFormed)
    (stable : event.Stable) (isTag : event.tag? ≠ none) : event.Canonical := by
  cases event with
  | leaf content => exact Leaf.WellFormed.canonical wellFormed stable isTag
  | opening header => exact Header.WellFormed.canonical wellFormed stable
  | ending scope => trivial

/-- A tag of the tree is read as what it spells.  Nothing is said about text. -/
def Event.Legible (event : Event) : Prop :=
  event.tag? ≠ none → event.Canonical ∧ event.Encloses

theorem Event.Legible.of_tag {event : Event} {tag : Delimiter × String}
    (legible : event.Legible) (tagged : event.tag? = some tag) :
    event.Canonical ∧ event.Encloses := by
  apply legible
  rw [tagged]
  exact Option.some_ne_none tag

theorem Event.Legible.encloses {event : Event} (legible : event.Legible) :
    event.Encloses := by
  intro tag tagged
  exact (legible.of_tag tagged).2 tag tagged

namespace Role

variable {piece : Piece} {role : Role} {delimiter : Delimiter} {body : String}

def tag? : Role → Option (Delimiter × String)
  | .leaf content => content.tag?
  | .opening header => some (.statement, header.body)
  | .ending scope => some (.statement, scope.endKeyword)
  | .plain => none
  | .kept => none
  | .faulty => none

/-- The tag of the tree in the place of the piece, or the piece when it is text in
the tree. -/
def respelled (piece : Piece) (role : Role) : Piece :=
  match role.tag? with
  | some (delimiter, body) => delimiter.spelled body
  | none => piece

theorem respelled_of_tag (tagged : role.tag? = some (delimiter, body)) :
    role.respelled piece = delimiter.spelled body := by
  rw [respelled, tagged]

theorem respelled_of_text (untagged : role.tag? = none) :
    role.respelled piece = piece := by
  rw [respelled, untagged]

theorem opensTag_respelled (opens : piece.OpensTag) (role : Role) :
    (role.respelled piece).OpensTag := by
  cases tagged : role.tag? with
  | none => rwa [respelled_of_text tagged]
  | some tag =>
      rw [respelled_of_tag tagged]
      trivial

theorem precedes_respelled {next : Piece} (precedes : piece.Precedes next)
    (left right : Role) : (left.respelled piece).Precedes (right.respelled next) := by
  cases tagged : left.tag? with
  | some tag =>
      rw [respelled_of_tag tagged]
      trivial
  | none =>
      rw [respelled_of_text tagged]
      cases piece with
      | tag delimiter inside => trivial
      | unclosed delimiter inside => exact precedes.elim
      | text run => exact ⟨opensTag_respelled precedes.1 right, precedes.2⟩

end Role

namespace Piece

variable {piece : Piece} {pieces rest : List Piece} {token : Token} {role : Role}
  {scopes : List Scope} {events : List Event}

/-- The pieces of the canonical source, with the end tags that are missing. -/
def respelled (scopes : List Scope) : List Piece → List Piece
  | [] => scopes.map fun scope => Delimiter.statement.spelled scope.endKeyword
  | piece :: rest =>
      let role := Role.ofPiece scopes.head? piece
      role.respelled piece :: respelled (role.scopesAfter scopes) rest

/-- A piece is text in the tree, or its tag stands for the only thing that the
piece adds to the tree. -/
theorem Means.tag_cases (means : piece.Means scopes.head? token role) :
    (role.tag? = none ∧ role.respell piece = piece.source) ∨
      ∃ event delimiter body, role.tag? = some (delimiter, body) ∧
        event.tag? = some (delimiter, body) ∧
        token.events scopes.head? = [event] ∧ event.Fits scopes ∧
        event.scopesAfter scopes = token.scopesAfter scopes := by
  cases means with
  | plain run => exact Or.inl ⟨rfl, rfl⟩
  | orphaned reads elsewhere => exact Or.inl ⟨rfl, rfl⟩
  | unknown reads unknown => exact Or.inl ⟨rfl, rfl⟩
  | opening reads => exact Or.inr ⟨_, _, _, rfl, rfl, rfl, trivial, rfl⟩
  | ending reads innermost =>
      exact Or.inr ⟨_, _, _, rfl, rfl, if_pos innermost, innermost,
        (if_pos innermost).symm⟩
  | print inside =>
      obtain ⟨body, tagged⟩ := Leaf.exists_tag_ofExpression (trim inside)
      exact Or.inr ⟨.leaf _, _, _, tagged, tagged, rfl, trivial, rfl⟩
  | leaf reads =>
      obtain ⟨body, tagged⟩ := Leaf.exists_tag_of_leaf reads
      exact Or.inr ⟨.leaf _, _, _, tagged, tagged, rfl, trivial, rfl⟩

theorem segmented_endTags (scopes : List Scope) : Segmented (respelled scopes []) := by
  induction scopes with
  | nil => exact segmented_nil
  | cons scope rest ih =>
      exact segmented_cons_iff.mpr
        ⟨Event.sound_spelled (Event.encloses_ending scope) rfl, fun _ _ => trivial, ih⟩

/-- End tags end the scopes that they name, from the innermost outwards. -/
theorem events?_endTags_append (closed stillOpen : List Scope) :
    events? (closed ++ stillOpen) (respelled closed []) =
      some ((closed ++ stillOpen).map Event.ending) := by
  induction closed with
  | nil => rfl
  | cons scope rest ih =>
      have canonical : (Event.ending scope).Canonical := trivial
      have tagged : (Event.ending scope).tag? = some (.statement, scope.endKeyword) := rfl
      have innermost : (Event.ending scope).Fits (scope :: (rest ++ stillOpen)) := rfl
      have first := Event.events?_spelled canonical tagged innermost (respelled rest [])
      rw [Event.scopesAfter, List.tail_cons, ih] at first
      exact first

theorem events?_endTags (scopes : List Scope) :
    events? scopes (respelled scopes []) = some (scopes.map Event.ending) := by
  have closed := events?_endTags_append scopes []
  rwa [List.append_nil] at closed

theorem opensTag_of_head?_endTags :
    ∀ next ∈ (respelled scopes []).head?, next.OpensTag := by
  intro next first
  obtain ⟨scope, _, rfl⟩ := List.mem_map.mp (List.mem_of_mem_head? first)
  trivial

/-- The pieces of the template, with the tags that are understood respelled. -/
def respelledTags (scopes : List Scope) (pieces : List Piece) : List Piece :=
  (roles scopes pieces).map fun (piece, role) => role.respelled piece

theorem respelled_eq_append (scopes : List Scope) (pieces : List Piece) :
    respelled scopes pieces =
      respelledTags scopes pieces ++ respelled (openScopes scopes pieces) [] := by
  induction pieces generalizing scopes with
  | nil => rfl
  | cons piece rest ih => exact congrArg (List.cons _) (ih _)

theorem respelledTags_append (scopes : List Scope) (left right : List Piece) :
    respelledTags scopes (left ++ right) =
      respelledTags scopes left ++ respelledTags (openScopes scopes left) right := by
  rw [respelledTags, roles_append, List.map_append]
  rfl

/-- Only the text at the end of the template can be at the end. -/
theorem getLast?_respelledTags_cases {last : Piece}
    (isLast : last ∈ (respelledTags scopes pieces).getLast?) :
    (∃ delimiter inside, last = .tag delimiter inside) ∨ last ∈ pieces.getLast? := by
  rw [respelledTags, List.getLast?_map] at isLast
  obtain ⟨⟨piece, role⟩, inRoles, same⟩ := Option.map_eq_some_iff.mp isLast
  obtain rfl : role.respelled piece = last := same
  cases tagged : role.tag? with
  | some tag => exact Or.inl ⟨_, _, Role.respelled_of_tag tagged⟩
  | none =>
      refine Or.inr ?_
      rw [Role.respelled_of_text tagged, ← map_fst_roles scopes pieces, List.getLast?_map]
      exact Option.mem_map_of_mem Prod.fst inRoles

theorem segmented_respelledTags (segmented : Segmented pieces)
    (walk : events? scopes pieces = some events)
    (encloses : ∀ event ∈ events, event.Encloses) :
    Segmented (respelledTags scopes pieces) := by
  induction pieces generalizing scopes events with
  | nil => exact segmented_nil
  | cons piece rest ih =>
      obtain ⟨sound, precedes, restSegmented⟩ := segmented_cons_iff.mp segmented
      obtain ⟨token, later, classified, means, restWalk, rfl⟩ := exists_means_of_walk walk
      obtain ⟨isEnclosed, restEncloses⟩ := List.forall_mem_append.mp encloses
      have stillSound : ((Role.ofPiece scopes.head? piece).respelled piece).Sound := by
        rcases means.tag_cases with
          ⟨untagged, _⟩ | ⟨event, delimiter, body, spelled, tagged, only, _, _⟩
        · rwa [Role.respelled_of_text untagged]
        · rw [only, List.forall_mem_singleton] at isEnclosed
          rw [Role.respelled_of_tag spelled]
          exact Event.sound_spelled isEnclosed tagged
      refine segmented_cons_iff.mpr
        ⟨stillSound, fun next first => ?_, ih restSegmented restWalk restEncloses⟩
      cases rest with
      | nil => cases first
      | cons second others =>
          cases first
          exact Role.precedes_respelled (precedes second rfl) _ _

/-- The pieces of the canonical source are cut where they should be.  A brace at
the end of the template would open a tag with the end tag that is added to it. -/
theorem segmented_respelled_of_encloses (segmented : Segmented pieces)
    (walk : events? scopes pieces = some events)
    (encloses : ∀ event ∈ events, event.Encloses)
    (settled : ∀ run, pieces.getLast? = some (.text run) →
      run.getLast? = some '{' → openScopes scopes pieces = []) :
    Segmented (respelled scopes pieces) := by
  rw [respelled_eq_append, segmented_append_iff]
  refine ⟨segmented_respelledTags segmented walk encloses, segmented_endTags _,
    fun last isLast first isFirst => ?_⟩
  rcases getLast?_respelledTags_cases isLast with ⟨delimiter, inside, rfl⟩ | inPieces
  · trivial
  · have member := List.mem_of_getLast? inPieces
    cases last with
    | tag delimiter inside => trivial
    | unclosed delimiter inside =>
        exact absurd rfl ((events?_eq_some_iff.mp walk).1 _ member)
    | text run =>
        have apart : run.getLast? ≠ some '{' := by
          intro ends
          rw [settled run inPieces ends] at isFirst
          cases isFirst
        exact ⟨opensTag_of_head?_endTags first isFirst,
          tagless_append (segmented.1 _ member).2 (by decide) fun ends =>
            absurd ends apart⟩

theorem segmented_respelled (segmented : Segmented pieces)
    (walk : events? scopes pieces = some events)
    (legible : ∀ event ∈ events, event.Legible)
    (settled : ∀ run, pieces.getLast? = some (.text run) →
      run.getLast? = some '{' → openScopes scopes pieces = []) :
    Segmented (respelled scopes pieces) :=
  segmented_respelled_of_encloses segmented walk
    (fun event member => (legible event member).encloses) settled

theorem flatMap_source_respelled (walk : events? scopes pieces = some events) :
    (respelled scopes pieces).flatMap source = events.flatMap Event.source := by
  induction pieces generalizing scopes events with
  | nil =>
      obtain rfl := Option.some.inj walk
      rw [respelled, List.flatMap_map, List.flatMap_map]
      congr 1
      funext scope
      exact Event.source_spelled rfl
  | cons piece rest ih =>
      obtain ⟨token, later, _, means, restWalk, rfl⟩ := exists_means_of_walk walk
      rw [respelled, List.flatMap_cons, ih restWalk, List.flatMap_append]
      congr 1
      rcases means.tag_cases with
        ⟨untagged, copied⟩ | ⟨event, delimiter, body, spelled, tagged, only, _, _⟩
      · rw [Role.respelled_of_text untagged, ← copied, means.respell]
      · rw [Role.respelled_of_tag spelled, only, List.flatMap_singleton]
        exact Event.source_spelled tagged

theorem events?_respelled (walk : events? scopes pieces = some events)
    (legible : ∀ event ∈ events, event.Legible) :
    events? scopes (respelled scopes pieces) = some events ∧
      (respelled scopes pieces).flatMap source = events.flatMap Event.source := by
  refine ⟨?_, flatMap_source_respelled walk⟩
  induction pieces generalizing scopes events with
  | nil =>
      obtain rfl := Option.some.inj walk
      exact events?_endTags scopes
  | cons piece rest ih =>
      obtain ⟨token, later, classified, means, restWalk, rfl⟩ := exists_means_of_walk walk
      obtain ⟨isLegible, restLegible⟩ := List.forall_mem_append.mp legible
      have restEvents := ih restWalk restLegible
      let following := respelled ((Role.ofPiece scopes.head? piece).scopesAfter scopes) rest
      rw [respelled]
      rcases means.tag_cases with
        ⟨untagged, _⟩ | ⟨event, delimiter, body, spelled, tagged, only, fits, after⟩
      · have walked := events?_cons classified scopes following
        rw [← means.scopesAfter, restEvents, Option.map_some] at walked
        rw [Role.respelled_of_text untagged]
        exact walked
      · rw [only, List.forall_mem_singleton] at isLegible
        have canonical := (isLegible.of_tag tagged).1
        have walked := Event.events?_spelled canonical tagged fits following
        rw [after, ← means.scopesAfter, restEvents] at walked
        rw [Role.respelled_of_tag spelled, only]
        exact walked

theorem legible_of_walk (sound : ∀ piece ∈ pieces, piece.Sound)
    (walk : events? scopes pieces = some events)
    (stable : ∀ event ∈ events, event.Stable) : ∀ event ∈ events, event.Legible := by
  intro event member isTag
  obtain ⟨wellFormed, encloses⟩ := wellFormed_of_walk sound walk event member
  exact ⟨wellFormed.canonical (stable event member) isTag, encloses⟩

end Piece

/-- The source of a tree that was read is read as the same tree, so it does not
change when it is written again.  A template that ends in a brace must not leave a
scope open, because the brace would open a tag with the end tag that is added. -/
theorem Template.parse_source_of_parse {source : String} {template : Template}
    (parsed : Template.parse source = .ok template)
    (settled : source.toList.getLast? ≠ some '{' ∨ Template.openScopes source = [])
    (stable : ∀ event ∈ template.events, event.Stable) :
    Template.parse template.source = .ok template ∧
      (Template.parse template.source).map Template.source = .ok template.source := by
  have walk := Template.parse_eq_ok_iff_events.mp parsed
  have segmented := Piece.segmented_cut source.toList
  have legible := Piece.legible_of_walk segmented.1 walk stable
  have atEnd : ∀ run, (Piece.cut source.toList).getLast? = some (.text run) →
      run.getLast? = some '{' → Piece.openScopes [] (Piece.cut source.toList) = [] := by
    intro run last ends
    rcases settled with apart | closed
    · obtain ⟨front, split⟩ := List.getLast?_eq_some_iff.mp last
      have whole := Piece.flatMap_source_cut source.toList
      rw [split, List.flatMap_append, List.flatMap_singleton, Piece.source] at whole
      rw [← whole, List.getLast?_append, ends] at apart
      exact absurd rfl apart
    · exact closed
  obtain ⟨respelledWalk, respelledSource⟩ := Piece.events?_respelled walk legible
  have pieces : Piece.cut template.source.toList =
      Piece.respelled [] (Piece.cut source.toList) := by
    rw [Template.toList_source, Piece.cut_eq_iff]
    exact ⟨Piece.segmented_respelled segmented walk legible atEnd, respelledSource⟩
  have again : Template.parse template.source = .ok template := by
    rw [Template.parse_eq_ok_iff_events, pieces]
    exact respelledWalk
  refine ⟨again, ?_⟩
  rw [again]
  rfl

/-- A loop that is left open around a tag that is kept as text. -/
theorem Template.parse_source_of_open_loop :
    Template.parse "\x7b%for a in b%\x7d\x7b%end%\x7d" =
        .ok [.scope (.loop "a" "b") [.leaf (.text "\x7b%end%\x7d")]] ∧
      Template.parse (Template.source
          [.scope (.loop "a" "b") [.leaf (.text "\x7b%end%\x7d")]]) =
        .ok [.scope (.loop "a" "b") [.leaf (.text "\x7b%end%\x7d")]] := by
  have parsed : Template.parse "\x7b%for a in b%\x7d\x7b%end%\x7d" =
      .ok [.scope (.loop "a" "b") [.leaf (.text "\x7b%end%\x7d")]] :=
    Outcome.toOption_eq_some_iff.mp (by decide +kernel)
  exact ⟨parsed, (Template.parse_source_of_parse parsed (Or.inl (by decide))
    (by decide +kernel)).1⟩

end TemplateTree
