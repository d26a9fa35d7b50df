import TemplateTree.Proofs.NormalForm

namespace TemplateTree

theorem Piece.cut_endTags (scopes : List Scope) :
    cut (String.join (scopes.map Scope.endTag)).toList = respelled scopes [] := by
  have atEnd : events? scopes [] = some (scopes.map Event.ending) := rfl
  have spelled := flatMap_source_respelled atEnd
  rw [cut_eq_iff, spelled, List.flatMap_map, String.toList_join, List.flatMap_map]
  exact ⟨segmented_endTags scopes, rfl⟩

/-- A tag behind the text may not meet a brace at the end of it. -/
theorem Template.cut_append_endTags {source : String} {template : Template}
    (parsed : parse source = .ok template) (noBrace : source.toList.getLast? ≠ some '{')
    (scopes : List Scope) :
    Piece.cut (source ++ String.join (scopes.map Scope.endTag)).toList =
      Piece.cut source.toList ++ Piece.respelled scopes [] := by
  have tokens := (Piece.events?_eq_some_iff.mp (parse_eq_ok_iff_events.mp parsed)).1
  have cutTags := Piece.cut_endTags scopes
  rw [String.toList_append, ← cutTags]
  apply Piece.cut_append_of_opensTag (fun _ _ member => tokens _ member rfl) noBrace
  rw [cutTags]
  exact Piece.opensTag_of_head?_endTags

/-- Ending the innermost of the open scopes by their end tags changes nothing. -/
theorem Template.parse_append_endTags {source : String} {template : Template}
    (parsed : parse source = .ok template) (noBrace : source.toList.getLast? ≠ some '{')
    (count : Nat) :
    parse (source ++ String.join (((openScopes source).take count).map Scope.endTag)) =
      .ok template := by
  have walk := parse_eq_ok_iff_events.mp parsed
  obtain ⟨tokens, whole⟩ := Piece.events?_eq_some_iff.mp walk
  have closed := Piece.events?_endTags_append ((openScopes source).take count)
    ((openScopes source).drop count)
  rw [List.take_append_drop] at closed
  rw [parse_eq_ok_iff_events, cut_append_endTags parsed noBrace,
    Piece.events?_append tokens, ← openScopes, closed, whole]
  rfl

/-- A loop in a block, and a capture in the loop, of which the two inner scopes are ended. -/
theorem Template.parse_append_two_endTags :
    parse ("\x7b%block a%\x7d\x7b%for b in c%\x7d\x7b%set d%\x7d\x7b%endfor%\x7d" ++
        "\x7b% endset %\x7d\x7b% endfor %\x7d") =
      .ok [.scope (.block "a") [.scope (.loop "b" "c")
        [.scope (.capture ["d"] []) [.leaf (.text "\x7b%endfor%\x7d")]]]] := by
  have parsed : parse "\x7b%block a%\x7d\x7b%for b in c%\x7d\x7b%set d%\x7d\x7b%endfor%\x7d" =
      .ok [.scope (.block "a") [.scope (.loop "b" "c")
        [.scope (.capture ["d"] []) [.leaf (.text "\x7b%endfor%\x7d")]]]] :=
    Outcome.toOption_eq_some_iff.mp (by decide +kernel)
  have stillOpen : openScopes
      "\x7b%block a%\x7d\x7b%for b in c%\x7d\x7b%set d%\x7d\x7b%endfor%\x7d" =
        [.capture, .loop, .block] := by decide +kernel
  have closed := parse_append_endTags parsed (by decide) 2
  rw [stillOpen] at closed
  exact closed

end TemplateTree
