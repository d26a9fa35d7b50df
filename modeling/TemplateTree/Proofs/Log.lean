import TemplateTree.Proofs.Faults
import TemplateTree.Proofs.Roles
import TemplateTree.Proofs.Tag.Header

namespace TemplateTree

/-! The pieces leave their records in order, up to the first piece that cannot be read.  If there
is none, the scopes that are still open leave theirs (`Assembly.records_run`). -/

open Text

namespace Record

def isStatementTag : Record → Bool
  | .statementTag _ _ => true
  | _ => false

def isScopeEntered : Record → Bool
  | .scopeEntered _ _ => true
  | _ => false

def isScopeLeftOpen : Record → Bool
  | .scopeLeftOpen _ => true
  | _ => false

/-- The byte behind a statement tag. -/
def tagEnd? : Record → Option Nat
  | .statementTag _ position => some position
  | _ => none

end Record

namespace Outcome

variable {α β : Type} {first : Outcome α} {next : α → Outcome β}

theorem records_bind_of_ok {value : α} (succeeds : first.result = .ok value) :
    (first >>= next).records = first.records ++ (next value).records := by
  obtain ⟨records, result⟩ := first
  obtain rfl : result = .ok value := succeeds
  rfl

theorem records_bind_of_error {error : Error} (fails : first.result = .error error) :
    (first >>= next).records = first.records := by
  obtain ⟨records, result⟩ := first
  obtain rfl : result = .error error := fails
  rfl

end Outcome

namespace Effect

variable {scope : Option Scope} {inside : List Char} {position : Nat}

theorem records_ofStatement_of_ok {tag : Tag} (reads : Tag.ofBody (trim inside) = .ok tag) :
    (ofStatement scope inside position).records =
      .statementTag (String.ofList (Tag.keyword (trim inside))) position ::
        (ofTag scope (trim inside) (Delimiter.statement.wrap inside) position tag).records := by
  rw [ofStatement, reads]
  rfl

theorem records_ofStatement_of_error {error : Error}
    (rejected : Tag.ofBody (trim inside) = .error error) :
    (ofStatement scope inside position).records =
      [.statementTag (String.ofList (Tag.keyword (trim inside))) position] := by
  rw [ofStatement, rejected]
  rfl

/-- A tag itself is recorded, and no open scope, before its effect is known. -/
theorem forall_mem_records_ofTag (body source : List Char) (tag : Tag) :
    ∀ record ∈ (ofTag scope body source position tag).records,
      record.isStatementTag = false ∧ record.isScopeLeftOpen = false := by
  have alone {record other : Record} (same : other ∈ [record])
      (plain : record.isStatementTag = false ∧ record.isScopeLeftOpen = false) :
      other.isStatementTag = false ∧ other.isScopeLeftOpen = false :=
    List.mem_singleton.mp same ▸ plain
  intro record member
  cases tag with
  | leaf content => cases member
  | opens header => exact alone member ⟨rfl, rfl⟩
  | loopWithoutIn => exact alone member ⟨rfl, rfl⟩
  | unrecognized => exact alone member ⟨rfl, rfl⟩
  | closes closed =>
      rw [ofTag] at member
      split at member
      · cases member
      · exact alone member ⟨rfl, rfl⟩

end Effect

namespace Piece

variable {piece : Piece} {pieces rest : List Piece} {token : Token} {role : Role}
  {scope : Option Scope} {scopes : List Scope} {position behind : Nat}

/-- The records of a piece that ends before the given byte. -/
def notes (scope : Option Scope) (behind : Nat) : Piece → List Record
  | .text _ => []
  | .tag delimiter inside => (Effect.ofInside scope delimiter inside behind).records
  | .unclosed _ _ => []

/-- The record of a statement tag that ends before the given byte. -/
def tagRecord? (behind : Nat) : Piece → Option Record
  | .tag .statement inside =>
      some (.statementTag (String.ofList (Tag.keyword (trim inside))) behind)
  | _ => none

/-- A statement tag is recorded first.  No piece says that a scope is left open. -/
theorem exists_notes_eq (scope : Option Scope) (behind : Nat) (piece : Piece) :
    ∃ more, piece.notes scope behind = (piece.tagRecord? behind).toList ++ more ∧
      ∀ record ∈ more, record.isStatementTag = false ∧ record.isScopeLeftOpen = false := by
  cases piece with
  | text run => exact ⟨[], rfl, by simp⟩
  | unclosed delimiter inside => exact ⟨[], rfl, by simp⟩
  | tag delimiter inside =>
      cases delimiter with
      | expression => exact ⟨[], rfl, by simp⟩
      | statement =>
          cases reads : Tag.ofBody (trim inside) with
          | ok tag =>
              exact ⟨_, Effect.records_ofStatement_of_ok reads,
                Effect.forall_mem_records_ofTag _ _ tag⟩
          | error error =>
              exact ⟨[], Effect.records_ofStatement_of_error reads, by simp⟩

theorem eq_of_mem_tagRecord? {record : Record} (member : record ∈ piece.tagRecord? behind) :
    record.isStatementTag = true ∧ record.isScopeLeftOpen = false ∧
      record.tagEnd? = some behind ∧ 0 < byteLength piece.source := by
  cases piece with
  | text run => cases member
  | unclosed delimiter inside => cases member
  | tag delimiter inside =>
      cases delimiter with
      | expression => cases member
      | statement =>
          cases member
          have nonempty : 0 < (source (.tag .statement inside)).length := Nat.succ_pos _
          exact ⟨rfl, rfl, rfl, Nat.lt_of_lt_of_le nonempty (length_le_byteLength _)⟩

theorem filter_notes (scope : Option Scope) (behind : Nat) (piece : Piece) :
    (piece.notes scope behind).filter Record.isStatementTag =
      (piece.tagRecord? behind).toList := by
  obtain ⟨more, whole, others⟩ := exists_notes_eq scope behind piece
  have none : more.filter Record.isStatementTag = [] := by
    rw [List.filter_eq_nil_iff]
    exact fun record member => by simp [(others record member).1]
  rw [whole, List.filter_append, none, List.append_nil, List.filter_eq_self]
  exact fun record member => (eq_of_mem_tagRecord? (Option.mem_toList.mp member)).1

theorem isScopeLeftOpen_of_mem_notes {record : Record}
    (member : record ∈ piece.notes scope behind) : record.isScopeLeftOpen = false := by
  obtain ⟨more, whole, others⟩ := exists_notes_eq scope behind piece
  rw [whole, List.mem_append] at member
  rcases member with isTag | inMore
  · exact (eq_of_mem_tagRecord? (Option.mem_toList.mp isTag)).2.1
  · exact (others record inMore).2

/-- The records of pieces that start at the given byte inside the open scopes. -/
def log (position : Nat) (scopes : List Scope) : List Piece → List Record
  | [] => []
  | piece :: rest =>
      let behind := position + byteLength piece.source
      piece.notes scopes.head? behind ++
        log behind ((Role.ofPiece scopes.head? piece).scopesAfter scopes) rest

/-- The pieces up to the first that cannot be read. -/
def reached : List Piece → List Piece
  | [] => []
  | piece :: rest => if piece.token? = none then [piece] else piece :: reached rest

theorem reached_of_tokens (tokens : ∀ piece ∈ pieces, piece.token? ≠ none) :
    reached pieces = pieces := by
  induction pieces with
  | nil => rfl
  | cons piece rest ih =>
      obtain ⟨isToken, restTokens⟩ := List.forall_mem_cons.mp tokens
      rw [reached, if_neg isToken, ih restTokens]

theorem isScopeLeftOpen_of_mem_log {record : Record}
    (member : record ∈ log position scopes pieces) : record.isScopeLeftOpen = false := by
  induction pieces generalizing position scopes with
  | nil => cases member
  | cons piece rest ih =>
      rcases List.mem_append.mp member with inNotes | later
      · exact isScopeLeftOpen_of_mem_notes inNotes
      · exact ih later

/-- The record of the tag at the end of the pieces, at the byte behind them. -/
def lastTagRecord? (pieces : List Piece) : Option Record :=
  pieces.getLast?.bind
    (tagRecord? (String.ofList (pieces.flatMap source)).utf8ByteSize)

theorem lastTagRecord?_concat (passed : List Piece) (piece : Piece) :
    lastTagRecord? (passed ++ [piece]) =
      piece.tagRecord? (byteLength (passed.flatMap source) + byteLength piece.source) := by
  rw [lastTagRecord?, List.getLast?_concat, Option.bind_some, utf8ByteSize_ofList,
    List.flatMap_append, List.flatMap_singleton, byteLength_append]

theorem inits_eq_cons (pieces : List Piece) : pieces.inits = [] :: pieces.inits.tail := by
  cases pieces <;> rfl

theorem tail_inits_cons (passed : List Piece) :
    (piece :: rest).inits.tail.map (passed ++ ·) =
      (passed ++ [piece]) :: rest.inits.tail.map (passed ++ [piece] ++ ·) := by
  rw [List.inits_cons, List.tail_cons, inits_eq_cons rest, List.map_cons, List.map_cons,
    List.map_map, List.tail_cons]
  congr 1
  apply List.map_congr_left
  intro front _
  exact (List.append_assoc passed [piece] front).symm

/-- The statement tags that are recorded are those at the ends of the fronts of the
pieces. -/
theorem filter_log (passed : List Piece) (scopes : List Scope) (pieces : List Piece) :
    (log (byteLength (passed.flatMap source)) scopes pieces).filter
        Record.isStatementTag =
      (pieces.inits.tail.map (passed ++ ·)).filterMap lastTagRecord? := by
  induction pieces generalizing passed scopes with
  | nil => rfl
  | cons piece rest ih =>
      have later := ih (passed ++ [piece])
        ((Role.ofPiece scopes.head? piece).scopesAfter scopes)
      rw [List.flatMap_append, List.flatMap_singleton, byteLength_append] at later
      rw [log, List.filter_append, filter_notes, later, tail_inits_cons, ← lastTagRecord?_concat]
      cases noted : lastTagRecord? (passed ++ [piece]) with
      | none => rw [List.filterMap_cons_none noted]; rfl
      | some record => rw [List.filterMap_cons_some noted]; rfl

theorem tagEnds_notes (scope : Option Scope) (piece : Piece) :
    (piece.notes scope behind).filterMap Record.tagEnd? = [] ∨
      (piece.notes scope behind).filterMap Record.tagEnd? = [behind] ∧
        0 < byteLength piece.source := by
  obtain ⟨more, whole, others⟩ := exists_notes_eq scope behind piece
  have none : more.filterMap Record.tagEnd? = [] := by
    rw [List.filterMap_eq_nil_iff]
    intro record member
    cases record with
    | statementTag keyword position => cases (others _ member).1
    | _ => rfl
  rw [whole, List.filterMap_append, none, List.append_nil]
  cases noted : piece.tagRecord? behind with
  | none => exact Or.inl rfl
  | some record =>
      obtain ⟨_, _, isEnd, positive⟩ := eq_of_mem_tagRecord? noted
      refine Or.inr ⟨?_, positive⟩
      rw [Option.toList_some, List.filterMap_cons_some isEnd, List.filterMap_nil]

theorem pairwise_tagEnds_log (position : Nat) (scopes : List Scope) (pieces : List Piece) :
    (∀ place ∈ (log position scopes pieces).filterMap Record.tagEnd?, position < place) ∧
      ((log position scopes pieces).filterMap Record.tagEnd?).Pairwise (· < ·) := by
  induction pieces generalizing position scopes with
  | nil => exact ⟨by simp [log], List.Pairwise.nil⟩
  | cons piece rest ih =>
      obtain ⟨after, increasing⟩ := ih (position + byteLength piece.source)
        ((Role.ofPiece scopes.head? piece).scopesAfter scopes)
      rw [log, List.filterMap_append]
      rcases tagEnds_notes scopes.head? piece with none | ⟨one, positive⟩
      · rw [none, List.nil_append]
        exact ⟨fun place member => Nat.lt_of_le_of_lt (Nat.le_add_right _ _)
          (after place member), increasing⟩
      · rw [one, List.singleton_append, List.forall_mem_cons, List.pairwise_cons]
        have here : position < position + byteLength piece.source :=
          Nat.lt_add_of_pos_right positive
        exact ⟨⟨here, fun place member => here.trans (after place member)⟩,
          after, increasing⟩

end Piece

namespace Assembly

variable {assembly : Assembly} {piece : Piece} {pieces : List Piece} {token : Token}

theorem records_step (assembly : Assembly) (piece : Piece) :
    (assembly.step piece).records =
      piece.notes assembly.stack.scopes.head?
        (assembly.position + byteLength piece.source) := by
  cases piece with
  | text run => rfl
  | unclosed delimiter inside => rfl
  | tag delimiter inside =>
      rw [← assembly.scope?_eq_head?]
      rfl

theorem exists_step_of_token (classified : piece.token? = some token) :
    ∃ next, (assembly.step piece).result = .ok next ∧
      next.position = assembly.position + byteLength piece.source ∧
      next.stack.scopes =
        (Role.ofPiece assembly.stack.scopes.head? piece).scopesAfter
          assembly.stack.scopes := by
  have clear : piece.error? assembly.position = none := by
    rw [Piece.error?_eq_none_iff, classified]
    exact Option.some_ne_none token
  have behind := assembly.result_step piece
  rw [clear] at behind
  obtain ⟨next, taken, position⟩ := Tag.exists_of_map_eq_ok behind
  have stacked := assembly.stack_step piece
  rw [taken, classified] at stacked
  have same : next.stack = assembly.stack.step token := Option.some.inj stacked
  have means := Piece.means_of_token? classified assembly.stack.scopes.head?
  refine ⟨next, taken, position, ?_⟩
  rw [same, Stack.scopes_step, means.scopesAfter]

theorem records_close (nodes : Template) (frames : List Frame) :
    (close nodes frames).records =
      (frames.map fun frame => frame.header.scope).map Record.scopeLeftOpen := by
  induction frames generalizing nodes with
  | nil => rfl
  | cons frame outer ih =>
      rw [close, Outcome.records_bind_of_ok (Outcome.result_note _), ih]
      rfl

theorem exists_error_of_fault (assembly : Assembly) (faulty : piece.token? = none) :
    ∃ error, (assembly.step piece).result = .error error := by
  have stacked := assembly.stack_step piece
  rw [faulty] at stacked
  cases outcome : (assembly.step piece).result with
  | error error => exact ⟨error, rfl⟩
  | ok next =>
      rw [outcome] at stacked
      cases stacked

/-- A run leaves the records of the pieces that it reaches, and says which scopes are
left open when it reaches the end. -/
theorem records_run (assembly : Assembly) (pieces : List Piece) :
    (assembly.run pieces).records =
      Piece.log assembly.position assembly.stack.scopes (Piece.reached pieces) ++
        (if ∀ piece ∈ pieces, piece.token? ≠ none then
          Piece.openScopes assembly.stack.scopes pieces
        else []).map Record.scopeLeftOpen := by
  induction pieces generalizing assembly with
  | nil =>
      rw [if_pos (by simp)]
      exact records_close _ _
  | cons piece rest ih =>
      rw [run, Piece.reached]
      cases classified : piece.token? with
      | none =>
          obtain ⟨error, failed⟩ := assembly.exists_error_of_fault classified
          rw [Outcome.records_bind_of_error failed, records_step, if_pos rfl,
            if_neg fun tokens => tokens piece List.mem_cons_self classified,
            List.map_nil, List.append_nil]
          exact (List.append_nil _).symm
      | some token =>
          have isToken : piece.token? ≠ none := by
            rw [classified]
            exact Option.some_ne_none token
          -- Reading goes on where the records of the rest are counted from: behind this
          -- piece, inside the scopes that its role leaves open.
          obtain ⟨next, taken, position, scopes⟩ := exists_step_of_token classified
          rw [Outcome.records_bind_of_ok taken, records_step, ih, position, scopes,
            if_neg (Option.some_ne_none token), ← List.append_assoc]
          simp only [List.forall_mem_cons, isToken, ne_eq, not_false_eq_true, true_and]
          rfl

end Assembly

end TemplateTree
