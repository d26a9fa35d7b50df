import TemplateTree.Proofs.Roles
import TemplateTree.Proofs.Tag.Keyword

namespace TemplateTree

/-! The scopes around a template matter only to the end tags that stand outside all of its own
scopes, and of these only to the ones that end the innermost scope around it. -/

open Text

/-- A tag that names the end of the scope, with or without arguments. -/
def Piece.IsEndTag (scope : Scope) : Piece → Prop
  | .tag .statement inside => Tag.keyword (trim inside) = scope.endKeyword.toList
  | _ => False

instance (scope : Scope) : (piece : Piece) → Decidable (piece.IsEndTag scope)
  | .tag .statement inside =>
      inferInstanceAs (Decidable (Tag.keyword (trim inside) = scope.endKeyword.toList))
  | .tag .expression _ => isFalse id
  | .text _ => isFalse id
  | .unclosed _ _ => isFalse id

theorem Piece.exists_tag_of_isEndTag {piece : Piece} {scope : Scope}
    (ends : piece.IsEndTag scope) :
    ∃ inside, piece = .tag .statement inside ∧
      Tag.ofBody (trim inside) = .ok (.closes scope) := by
  cases piece with
  | text run => exact ends.elim
  | unclosed delimiter inside => exact ends.elim
  | tag delimiter inside =>
      cases delimiter with
      | expression => exact ends.elim
      | statement => exact ⟨inside, rfl, Tag.ofBody_eq_closes_iff.mpr ends⟩

namespace Role

variable {piece : Piece} {scope : Scope} {scopes base : List Scope}

theorem ofPiece_of_isEndTag (ends : piece.IsEndTag scope) (innermost : Option Scope) :
    ofPiece innermost piece = if innermost = some scope then .ending scope else .kept := by
  obtain ⟨inside, rfl, reads⟩ := Piece.exists_tag_of_isEndTag ends
  rw [ofPiece, reads]
  rfl

/-- A piece that does not end the innermost scope is what it is outside all scopes. -/
theorem ofPiece_eq_of_not_isEndTag {innermost : Option Scope}
    (apart : ∀ scope ∈ innermost, ¬piece.IsEndTag scope) :
    ofPiece innermost piece = ofPiece none piece := by
  cases piece with
  | text run => rfl
  | unclosed delimiter inside => rfl
  | tag delimiter inside =>
      cases delimiter with
      | expression => rfl
      | statement =>
          cases reads : Tag.ofBody (trim inside) with
          | error error => simp only [ofPiece, reads]
          | ok tag =>
              simp only [ofPiece, reads]
              cases tag with
              | closes closed =>
                  have elsewhere : innermost ≠ some closed := fun same =>
                    apart closed same (Tag.ofBody_eq_closes_iff.mp reads)
                  simp only [ofTag, if_neg elsewhere, reduceCtorEq, if_false]
              | _ => rfl

theorem ofPiece_none_ne_ending : ofPiece none piece ≠ .ending scope := by
  intro ending
  cases piece with
  | text run => cases ending
  | unclosed delimiter inside => cases ending
  | tag delimiter inside =>
      cases delimiter with
      | expression => cases ending
      | statement =>
          rw [ofPiece] at ending
          split at ending
          · rename_i tag reads
            cases tag <;> cases ending
          · cases ending

/-- More scopes around the open ones change nothing, unless the piece ends the first
of them. -/
theorem ofPiece_frame
    (apart : scopes = [] → ∀ scope ∈ base.head?, ¬piece.IsEndTag scope) :
    ofPiece (scopes ++ base).head? piece = ofPiece scopes.head? piece ∧
      (ofPiece scopes.head? piece).scopesAfter (scopes ++ base) =
        (ofPiece scopes.head? piece).scopesAfter scopes ++ base := by
  cases scopes with
  | nil =>
      refine ⟨ofPiece_eq_of_not_isEndTag (apart rfl), ?_⟩
      cases role : ofPiece none piece with
      | ending scope => exact absurd role ofPiece_none_ne_ending
      | _ => simp only [List.head?_nil, role]; rfl
  | cons scope outer =>
      refine ⟨rfl, ?_⟩
      cases ofPiece (scope :: outer).head? piece <;> rfl

theorem eq_opening_of_mem_events {role : Role} {header : Header}
    (member : .opening header ∈ role.events piece) : role = .opening header := by
  have noText (text : List Char) :
      Event.opening header ∉ Template.events (.ofText text) := by
    rw [Template.events_ofText]
    intro inText
    obtain ⟨run, _, same⟩ := List.mem_map.mp inText
    cases same
  cases role with
  | opening other =>
      cases List.mem_singleton.mp member
      rfl
  | leaf content => cases List.mem_singleton.mp member
  | ending scope => cases List.mem_singleton.mp member
  | plain => exact absurd member (noText _)
  | kept => exact absurd member (noText _)
  | faulty => cases member

end Role

namespace Piece

variable {piece opener closer : Piece} {pieces rest : List Piece} {header : Header}
  {scopes base : List Scope} {events : List Event}

/-- The pieces in front of which no scope is open. -/
def outermost (scopes : List Scope) : List Piece → List Piece
  | [] => []
  | piece :: rest =>
      let later := outermost ((Role.ofPiece scopes.head? piece).scopesAfter scopes) rest
      if scopes = [] then piece :: later else later

theorem forall_mem_outermost_cons {P : Piece → Prop} :
    (∀ outer ∈ outermost scopes (piece :: rest), P outer) ↔
      (scopes = [] → P piece) ∧
        ∀ outer ∈ outermost ((Role.ofPiece scopes.head? piece).scopesAfter scopes) rest,
          P outer := by
  by_cases closed : scopes = []
  · simp only [outermost, if_pos closed, List.forall_mem_cons, forall_prop_of_true closed]
  · simp only [outermost, if_neg closed]
    exact ⟨fun later => ⟨fun none => absurd none closed, later⟩, And.right⟩

/-- The scopes around a template stay open, and no piece of it changes its role. -/
theorem roles_frame
    (apart : ∀ scope ∈ base.head?, ∀ outer ∈ outermost scopes pieces,
      ¬outer.IsEndTag scope) :
    roles (scopes ++ base) pieces = roles scopes pieces ∧
      openScopes (scopes ++ base) pieces = openScopes scopes pieces ++ base := by
  induction pieces generalizing scopes with
  | nil => exact ⟨rfl, rfl⟩
  | cons piece rest ih =>
      have here : scopes = [] → ∀ scope ∈ base.head?, ¬piece.IsEndTag scope :=
        fun closed scope innermost =>
          (forall_mem_outermost_cons.mp (apart scope innermost)).1 closed
      obtain ⟨sameRole, sameScopes⟩ := Role.ofPiece_frame here
      obtain ⟨sameRoles, stillOpen⟩ := ih fun scope innermost =>
        (forall_mem_outermost_cons.mp (apart scope innermost)).2
      rw [roles, openScopes, sameRole, sameScopes, sameRoles, stillOpen]
      exact ⟨rfl, rfl⟩

/-- The pieces between an opening tag and its end tag mean what they mean alone. -/
theorem roles_enclosed (opens : Role.ofPiece none opener = .opening header)
    (settled : openScopes [] pieces = [])
    (apart : ∀ outer ∈ outermost [] pieces, ¬outer.IsEndTag header.scope)
    (ends : closer.IsEndTag header.scope) :
    roles [] (opener :: (pieces ++ [closer])) =
        (opener, .opening header) ::
          (roles [] pieces ++ [(closer, .ending header.scope)]) ∧
      openScopes [] (opener :: (pieces ++ [closer])) = [] := by
  have innermost : ∀ scope ∈ [header.scope].head?, ∀ outer ∈ outermost [] pieces,
      ¬outer.IsEndTag scope := by
    intro scope isFirst
    cases isFirst
    exact apart
  obtain ⟨inside, behind⟩ := roles_frame innermost
  rw [List.nil_append] at inside behind
  have last := Role.ofPiece_of_isEndTag ends (some header.scope)
  rw [if_pos rfl] at last
  have opened : Role.ofPiece ([] : List Scope).head? opener = .opening header := opens
  simp only [roles, openScopes, opened, Role.scopesAfter]
  rw [roles_append, openScopes_append, inside, behind, settled]
  simp [roles, openScopes, last, Role.scopesAfter]

theorem opensTag_of_isEndTag {scope : Scope} (ends : closer.IsEndTag scope) :
    closer.OpensTag ∧ closer.token? ≠ none := by
  obtain ⟨inside, rfl, reads⟩ := exists_tag_of_isEndTag ends
  rw [token?, reads]
  exact ⟨trivial, Option.some_ne_none _⟩

theorem events?_enclosed (opens : Role.ofPiece none opener = .opening header)
    (isToken : opener.token? ≠ none) (settled : openScopes [] pieces = [])
    (apart : ∀ outer ∈ outermost [] pieces, ¬outer.IsEndTag header.scope)
    (ends : closer.IsEndTag header.scope) (walk : events? [] pieces = some events) :
    events? [] (opener :: (pieces ++ [closer])) =
      some (.opening header :: (events ++ [.ending header.scope])) := by
  obtain ⟨tokens, rfl⟩ := events?_eq_some_iff.mp walk
  obtain ⟨enclosed, closed⟩ := roles_enclosed opens settled apart ends
  have met : roleEvents [] (opener :: (pieces ++ [closer])) =
      .opening header :: (roleEvents [] pieces ++ [.ending header.scope]) := by
    rw [roleEvents, enclosed, List.flatMap_cons, List.flatMap_append,
      List.flatMap_singleton]
    rfl
  rw [events?_eq_some_iff]
  constructor
  · rw [List.forall_mem_cons, List.forall_mem_append, List.forall_mem_singleton]
    exact ⟨isToken, tokens, (opensTag_of_isEndTag ends).2⟩
  · rw [met, closed, settled, List.map_nil, List.append_nil, List.append_nil]

theorem cut_enclosed {opening inner closing : List Char}
    (isOpener : cut opening = [opener])
    (opens : Role.ofPiece none opener = .opening header)
    (closed : ∀ delimiter inside, .unclosed delimiter inside ∉ cut inner)
    (noBrace : inner.getLast? ≠ some '{') (isCloser : cut closing = [closer])
    (ends : closer.OpensTag) :
    cut (opening ++ inner ++ closing) = opener :: (cut inner ++ [closer]) := by
  have behind : cut (inner ++ closing) = cut inner ++ [closer] := by
    rw [cut_append_of_opensTag closed noBrace, isCloser]
    rw [isCloser]
    intro first isFirst
    cases isFirst
    exact ends
  cases opener with
  | text run => cases opens
  | unclosed delimiter inside => cases opens
  | tag delimiter inside =>
      have opened : (cut opening).getLast? = some (.tag delimiter inside) := by
        rw [isOpener, List.getLast?_singleton]
      rw [List.append_assoc, cut_append_of_tag opened, isOpener, behind]
      rfl

end Piece

theorem Template.ofPiece_of_parse_scope {opening : String} {opener : Piece}
    {header : Header} (alone : Piece.cut opening.toList = [opener])
    (opens : Template.parse opening = .ok [.scope header []]) :
    Role.ofPiece none opener = .opening header ∧ opener.token? ≠ none := by
  have walk := Template.parse_eq_ok_iff_events.mp opens
  rw [alone] at walk
  obtain ⟨tokens, whole⟩ := Piece.events?_eq_some_iff.mp walk
  have member : Event.opening header ∈ Template.events [.scope header []] :=
    List.mem_cons_self
  rw [whole] at member
  rcases List.mem_append.mp member with inRoles | inEndings
  · rw [Piece.roleEvents, Piece.roles, Piece.roles, List.flatMap_singleton] at inRoles
    exact ⟨Role.eq_opening_of_mem_events inRoles, tokens _ List.mem_cons_self⟩
  · obtain ⟨scope, _, same⟩ := List.mem_map.mp inEndings
    cases same

/-- The children of a scope are what stands between its opening tag and its own end
tag, read alone.  The pieces in between have the roles that they have alone, so the end
tags of other scopes are kept as text there. -/
theorem Template.parse_scope_of_parse {opening inner closing : String}
    {opener closer : Piece} {header : Header} {children : Template}
    (isOpener : Piece.cut opening.toList = [opener])
    (opens : Template.parse opening = .ok [.scope header []])
    (reads : Template.parse inner = .ok children)
    (settled : Template.openScopes inner = [])
    (apart : ∀ outer ∈ Piece.outermost [] (Piece.cut inner.toList),
      ¬outer.IsEndTag header.scope)
    (noBrace : inner.toList.getLast? ≠ some '{')
    (isCloser : Piece.cut closing.toList = [closer])
    (ends : closer.IsEndTag header.scope) :
    Template.parse (opening ++ inner ++ closing) = .ok [.scope header children] ∧
      Piece.roles [] (Piece.cut (opening ++ inner ++ closing).toList) =
        (opener, .opening header) :: (Piece.roles [] (Piece.cut inner.toList) ++
          [(closer, .ending header.scope)]) ∧
      ∀ outer ∈ Piece.outermost [] (Piece.cut inner.toList), ∀ scope,
        outer.IsEndTag scope → Role.ofPiece (some header.scope) outer = .kept := by
  obtain ⟨opened, isToken⟩ := ofPiece_of_parse_scope isOpener opens
  have walk := Template.parse_eq_ok_iff_events.mp reads
  have tokens := (Piece.events?_eq_some_iff.mp walk).1
  rw [Template.openScopes] at settled
  have cut := Piece.cut_enclosed isOpener opened
    (fun _ _ member => tokens _ member rfl) noBrace isCloser
    (Piece.opensTag_of_isEndTag ends).1
  rw [← String.toList_append, ← String.toList_append] at cut
  refine ⟨?_, ?_, fun outer member scope isEnd => ?_⟩
  · rw [Template.parse_eq_ok_iff_events, cut, Template.events_singleton, Node.events]
    exact Piece.events?_enclosed opened isToken settled apart ends walk
  · rw [cut, (Piece.roles_enclosed opened settled apart ends).1]
  · have elsewhere : some header.scope ≠ some scope := by
      intro same
      cases same
      exact apart outer member isEnd
    rw [Role.ofPiece_of_isEndTag isEnd, if_neg elsewhere]

/-- An end tag of a loop and a block inside a block. -/
theorem Template.parse_scope_around_end_tag :
    Template.parse ("\x7b%block a%\x7d" ++
        "x\x7b%endfor%\x7d\x7b%block b%\x7d\x7b%endblock%\x7d" ++
        "\x7b%endblock a%\x7d") =
      .ok [.scope (.block "a")
        [.leaf (.text "x"), .leaf (.text "\x7b%endfor%\x7d"), .scope (.block "b") []]] := by
  have opens : Template.parse "\x7b%block a%\x7d" = .ok [.scope (.block "a") []] :=
    Outcome.toOption_eq_some_iff.mp (by decide +kernel)
  have reads : Template.parse "x\x7b%endfor%\x7d\x7b%block b%\x7d\x7b%endblock%\x7d" =
      .ok [.leaf (.text "x"), .leaf (.text "\x7b%endfor%\x7d"), .scope (.block "b") []] :=
    Outcome.toOption_eq_some_iff.mp (by decide +kernel)
  have isOpener : Piece.cut "\x7b%block a%\x7d".toList =
      [.tag .statement "block a".toList] := by decide +kernel
  have isCloser : Piece.cut "\x7b%endblock a%\x7d".toList =
      [.tag .statement "endblock a".toList] := by decide +kernel
  exact (Template.parse_scope_of_parse isOpener opens reads (by decide +kernel)
    (by decide +kernel) (by decide) isCloser (by decide)).1

end TemplateTree
