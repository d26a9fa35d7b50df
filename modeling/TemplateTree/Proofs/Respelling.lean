import Mathlib.Data.List.SplitBy
import TemplateTree.Proofs.Events

namespace TemplateTree

theorem Leaf.toList_source_ofRun (run : List Char) :
    (Leaf.ofRun run).source.toList = run := by
  rw [Leaf.ofRun]
  split <;> simp [Leaf.source]

theorem Template.events_ofText (text : List Char) :
    Template.events (.ofText text) =
      (Text.runs text).map fun run => .leaf (Leaf.ofRun run) := by
  rw [Template.ofText]
  induction Text.runs text with
  | nil => rfl
  | cons run rest ih =>
      rw [List.map_cons, Template.events, ih]
      rfl

theorem Template.flatMap_source_ofText (text : List Char) :
    (Template.events (.ofText text)).flatMap Event.source = text := by
  have same : ∀ run, Event.source (.leaf (Leaf.ofRun run)) = run :=
    Leaf.toList_source_ofRun
  rw [Template.events_ofText, List.flatMap_map]
  simp only [same, List.flatMap_id', Text.runs, List.flatten_splitBy]

/-- All that a piece can be inside `scope`: its token, which does not depend on
the scope, and its role, which does. -/
inductive Piece.Means (scope : Option Scope) : Piece → Token → Role → Prop where
  | plain (run : List Char) : Means scope (.text run) (.text run) .plain
  | print (inside : List Char) :
      Means scope (.tag .expression inside)
        (.leaf (.ofExpression (Text.trim inside)))
        (.leaf (.ofExpression (Text.trim inside)))
  | leaf {inside : List Char} {content : Leaf}
      (reads : Tag.ofBody (Text.trim inside) = .ok (.leaf content)) :
      Means scope (.tag .statement inside) (.leaf content) (.leaf content)
  | opening {inside : List Char} {header : Header}
      (reads : Tag.ofBody (Text.trim inside) = .ok (.opens header)) :
      Means scope (.tag .statement inside) (.opens header) (.opening header)
  | ending {inside : List Char} {closed : Scope}
      (reads : Tag.ofBody (Text.trim inside) = .ok (.closes closed))
      (innermost : scope = some closed) :
      Means scope (.tag .statement inside)
        (.closes closed (Delimiter.statement.wrap inside)) (.ending closed)
  | orphaned {inside : List Char} {closed : Scope}
      (reads : Tag.ofBody (Text.trim inside) = .ok (.closes closed))
      (elsewhere : scope ≠ some closed) :
      Means scope (.tag .statement inside)
        (.closes closed (Delimiter.statement.wrap inside)) .kept
  | unknown {inside : List Char} {tag : Tag}
      (reads : Tag.ofBody (Text.trim inside) = .ok tag)
      (unknown : tag = .loopWithoutIn ∨ tag = .unrecognized) :
      Means scope (.tag .statement inside)
        (.text (Delimiter.statement.wrap inside)) .kept

namespace Piece

variable {piece : Piece} {token : Token} {role : Role} {scope : Option Scope}

theorem means_of_token? (means : piece.token? = some token)
    (scope : Option Scope) :
    piece.Means scope token (Role.ofPiece scope piece) := by
  cases piece with
  | text run =>
      cases means
      exact .plain run
  | unclosed delimiter inside => cases means
  | tag delimiter inside =>
      cases delimiter with
      | expression =>
          cases means
          exact .print inside
      | statement =>
          cases reads : Tag.ofBody (Text.trim inside) with
          | error error => simp [token?, reads, Except.toOption] at means
          | ok tag =>
              obtain rfl : Token.ofTag (Delimiter.statement.wrap inside) tag =
                  token := by
                simpa [token?, reads, Except.toOption] using means
              rw [Role.ofPiece, reads]
              cases tag with
              | leaf content => exact .leaf reads
              | opens header => exact .opening reads
              | closes closed =>
                  by_cases innermost : scope = some closed
                  · simp only [Role.ofTag, if_pos innermost]
                    exact .ending reads innermost
                  · simp only [Role.ofTag, if_neg innermost]
                    exact .orphaned reads innermost
              | loopWithoutIn => exact .unknown reads (Or.inl rfl)
              | unrecognized => exact .unknown reads (Or.inr rfl)

theorem Means.scopesAfter {scopes : List Scope}
    (means : piece.Means scopes.head? token role) :
    role.scopesAfter scopes = token.scopesAfter scopes := by
  cases means with
  | ending reads innermost =>
      simp only [Role.scopesAfter, Token.scopesAfter, if_pos innermost]
  | orphaned reads elsewhere =>
      simp only [Role.scopesAfter, Token.scopesAfter, if_neg elsewhere]
  | _ => rfl

theorem Means.respell (means : piece.Means scope token role) :
    role.respell piece = (token.events scope).flatMap Event.source := by
  cases means with
  | plain run => exact (Template.flatMap_source_ofText run).symm
  | print inside => exact (List.append_nil _).symm
  | leaf reads => exact (List.append_nil _).symm
  | opening reads => exact (List.append_nil _).symm
  | ending reads innermost =>
      rw [Token.events, if_pos innermost]
      exact (List.append_nil _).symm
  | orphaned reads elsewhere =>
      rw [Token.events, if_neg elsewhere]
      exact (Template.flatMap_source_ofText _).symm
  | unknown reads unknown => exact (Template.flatMap_source_ofText _).symm

theorem exists_means_of_walk {scopes : List Scope} {rest : List Piece}
    {events : List Event} (walk : events? scopes (piece :: rest) = some events) :
    ∃ token later, piece.token? = some token ∧
      piece.Means scopes.head? token (Role.ofPiece scopes.head? piece) ∧
      events? ((Role.ofPiece scopes.head? piece).scopesAfter scopes) rest =
        some later ∧
      events = token.events scopes.head? ++ later := by
  cases classified : piece.token? with
  | none =>
      rw [events?_cons_eq_none classified] at walk
      cases walk
  | some token =>
      have means := means_of_token? classified scopes.head?
      rw [events?_cons classified, ← means.scopesAfter] at walk
      obtain ⟨later, restWalk, rfl⟩ := Option.map_eq_some_iff.mp walk
      exact ⟨token, later, rfl, means, restWalk, rfl⟩

/-- The walk through a tree is spelled piece by piece. -/
theorem flatMap_source_events? {scopes : List Scope} {pieces : List Piece}
    {events : List Event} (walk : events? scopes pieces = some events) :
    events.flatMap Event.source =
      ((roles scopes pieces).flatMap fun (piece, role) => role.respell piece) ++
        (openScopes scopes pieces).flatMap fun scope => scope.endTag.toList := by
  induction pieces generalizing scopes events with
  | nil =>
      obtain rfl := Option.some.inj walk
      simp only [List.flatMap_map, roles, List.flatMap_nil, openScopes,
        List.nil_append, Event.source]
  | cons piece rest ih =>
      obtain ⟨token, later, _, means, restWalk, rfl⟩ := exists_means_of_walk walk
      have spelled := ih restWalk
      rw [List.flatMap_append, spelled, ← means.respell, roles, openScopes,
        List.flatMap_cons, List.append_assoc]

theorem map_fst_roles (scopes : List Scope) (pieces : List Piece) :
    (roles scopes pieces).map Prod.fst = pieces := by
  induction pieces generalizing scopes with
  | nil => rfl
  | cons piece rest ih => rw [roles, List.map_cons, ih]

end Piece

/-- Nothing is lost, doubled or moved: the pieces make up the template in order,
and the source of its tree respells them in the same order. -/
theorem Template.source_eq_respell {source : String} {template : Template}
    (parsed : Template.parse source = .ok template) :
    template.source = Template.respell source ∧
      ((Piece.roles [] (Piece.cut source.toList)).flatMap fun (piece, _) =>
        piece.source) = source.toList := by
  constructor
  · have walk := Template.parse_eq_ok_iff_events.mp parsed
    apply String.toList_injective
    rw [Template.toList_source, Piece.flatMap_source_events? walk,
      Template.respell, Template.openScopes]
    simp [String.toList_join, List.flatMap_map]
  · calc
      _ = ((Piece.roles [] (Piece.cut source.toList)).map Prod.fst).flatMap
          Piece.source := by rw [List.flatMap_map]
      _ = _ := by rw [Piece.map_fst_roles, Piece.flatMap_source_cut]

/-- A loop that is left open around an end tag of another scope. -/
theorem Template.source_eq_respell_of_open_loop :
    Template.parse "\x7b% set x=1%\x7d\x7b%for a in b%\x7dy\x7b%endset%\x7d" =
        .ok [.leaf (.assign ["x"] ["1"]),
          .scope (.loop "a" "b")
            [.leaf (.text "y"), .leaf (.text "\x7b%endset%\x7d")]] ∧
      Template.source [.leaf (.assign ["x"] ["1"]),
          .scope (.loop "a" "b")
            [.leaf (.text "y"), .leaf (.text "\x7b%endset%\x7d")]] =
        Template.respell
          "\x7b% set x=1%\x7d\x7b%for a in b%\x7dy\x7b%endset%\x7d" ∧
      Template.source [.leaf (.assign ["x"] ["1"]),
          .scope (.loop "a" "b")
            [.leaf (.text "y"), .leaf (.text "\x7b%endset%\x7d")]] =
        "\x7b% set x = 1 %\x7d\x7b% for a in b %\x7dy\x7b%endset%\x7d\x7b% endfor %\x7d" := by
  have parsed : Template.parse
      "\x7b% set x=1%\x7d\x7b%for a in b%\x7dy\x7b%endset%\x7d" =
      .ok [.leaf (.assign ["x"] ["1"]),
        .scope (.loop "a" "b")
          [.leaf (.text "y"), .leaf (.text "\x7b%endset%\x7d")]] :=
    Outcome.toOption_eq_some_iff.mp (by decide +kernel)
  exact ⟨parsed, (Template.source_eq_respell parsed).1, by decide +kernel⟩

end TemplateTree
