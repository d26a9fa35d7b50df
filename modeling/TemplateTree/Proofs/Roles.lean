import TemplateTree.Proofs.Respelling

namespace TemplateTree

/-- What a piece in this role adds to the walk. -/
def Role.events (piece : Piece) : Role → List Event
  | .leaf content => [.leaf content]
  | .opening header => [.opening header]
  | .ending scope => [.ending scope]
  | .plain => Template.events (.ofText piece.source)
  | .kept => Template.events (.ofText piece.source)
  | .faulty => []

namespace Piece

variable {piece : Piece} {pieces rest : List Piece} {token : Token} {role : Role}
  {scope : Option Scope} {scopes : List Scope} {events : List Event}

theorem exists_means_of_tokens (tokens : ∀ other ∈ piece :: rest, other.token? ≠ none)
    (scope : Option Scope) :
    ∃ token, piece.token? = some token ∧
      piece.Means scope token (Role.ofPiece scope piece) ∧
      ∀ other ∈ rest, other.token? ≠ none := by
  obtain ⟨isToken, restTokens⟩ := List.forall_mem_cons.mp tokens
  obtain ⟨token, classified⟩ := Option.ne_none_iff_exists'.mp isToken
  exact ⟨token, classified, means_of_token? classified scope, restTokens⟩

theorem Means.events_eq (means : piece.Means scope token role) :
    token.events scope = role.events piece := by
  cases means with
  | ending reads innermost => exact if_pos innermost
  | orphaned reads elsewhere => exact if_neg elsewhere
  | _ => rfl

def roleEvents (scopes : List Scope) (pieces : List Piece) : List Event :=
  (roles scopes pieces).flatMap fun (piece, role) => role.events piece

theorem roleEvents_cons (scopes : List Scope) (piece : Piece) (rest : List Piece) :
    roleEvents scopes (piece :: rest) =
      (Role.ofPiece scopes.head? piece).events piece ++
        roleEvents ((Role.ofPiece scopes.head? piece).scopesAfter scopes) rest := rfl

theorem events?_eq_some_iff :
    events? scopes pieces = some events ↔
      (∀ piece ∈ pieces, piece.token? ≠ none) ∧
        events = roleEvents scopes pieces ++
          (openScopes scopes pieces).map Event.ending := by
  induction pieces generalizing scopes events with
  | nil => simp [events?, roleEvents, roles, openScopes, eq_comm]
  | cons piece rest ih =>
      constructor
      · intro walk
        obtain ⟨token, later, classified, means, restWalk, rfl⟩ :=
          exists_means_of_walk walk
        obtain ⟨restTokens, rfl⟩ := ih.mp restWalk
        refine ⟨List.forall_mem_cons.mpr ⟨?_, restTokens⟩, ?_⟩
        · rw [classified]
          exact Option.some_ne_none token
        · rw [means.events_eq, ← List.append_assoc]
          rfl
      · intro parts
        obtain ⟨tokens, rfl⟩ := parts
        obtain ⟨token, classified, means, restTokens⟩ :=
          exists_means_of_tokens tokens scopes.head?
        have later :
            events? ((Role.ofPiece scopes.head? piece).scopesAfter scopes) rest = _ :=
          ih.mpr ⟨restTokens, rfl⟩
        rw [events?_cons classified, ← means.scopesAfter, later, means.events_eq,
          Option.map_some, ← List.append_assoc]
        rfl

theorem roles_append (scopes : List Scope) (left right : List Piece) :
    roles scopes (left ++ right) =
      roles scopes left ++ roles (openScopes scopes left) right := by
  induction left generalizing scopes with
  | nil => rfl
  | cons piece rest ih =>
      rw [List.cons_append, roles, roles, ih]
      rfl

theorem openScopes_append (scopes : List Scope) (left right : List Piece) :
    openScopes scopes (left ++ right) =
      openScopes (openScopes scopes left) right := by
  induction left generalizing scopes with
  | nil => rfl
  | cons piece rest ih => exact ih _

theorem roleEvents_append (scopes : List Scope) (left right : List Piece) :
    roleEvents scopes (left ++ right) =
      roleEvents scopes left ++ roleEvents (openScopes scopes left) right := by
  rw [roleEvents, roles_append, List.flatMap_append]
  rfl

/-- What is in front adds what it adds alone, and what is behind sees only the scopes
that are still open. -/
theorem events?_append {left : List Piece} (tokens : ∀ piece ∈ left, piece.token? ≠ none)
    (right : List Piece) :
    events? scopes (left ++ right) =
      (events? (openScopes scopes left) right).map (roleEvents scopes left ++ ·) := by
  induction left generalizing scopes with
  | nil => exact (Option.map_id' ..).symm
  | cons piece rest ih =>
      obtain ⟨token, classified, means, restTokens⟩ :=
        exists_means_of_tokens tokens scopes.head?
      rw [List.cons_append, events?_cons classified, ← means.scopesAfter, ih restTokens,
        Option.map_map, means.events_eq]
      congr 1
      funext later
      exact (List.append_assoc _ _ _).symm

end Piece

end TemplateTree
