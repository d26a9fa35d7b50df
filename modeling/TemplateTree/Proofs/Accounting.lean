import TemplateTree.Proofs.Canonical
import TemplateTree.Proofs.Log

namespace TemplateTree

open Text

def Node.isScope : Node → Bool
  | .scope _ _ => true
  | .leaf _ => false

def Leaf.isStatement : Leaf → Bool
  | .inherits _ => true
  | .deprecated _ => true
  | .assign _ _ => true
  | .types _ => true
  | _ => false

def Node.isStatement : Node → Bool
  | .leaf content => content.isStatement
  | .scope _ _ => false

def Role.isEnding : Role → Bool
  | .ending _ => true
  | _ => false

def Piece.closings (scopes : List Scope) (pieces : List Piece) : Nat :=
  (roles scopes pieces).countP fun (_, role) => role.isEnding

def Template.closings (source : String) : Nat :=
  Piece.closings [] (Piece.cut source.toList)

theorem Leaf.isStatement_of_leaf {body : List Char} {content : Leaf}
    (reads : Tag.ofBody body = .ok (.leaf content)) : content.isStatement = true := by
  obtain ⟨text, tagged⟩ := exists_tag_of_leaf reads
  cases content <;> first | rfl | cases tagged

theorem Leaf.isStatement_ofExpression (body : List Char) :
    (ofExpression body).isStatement = false := by
  rw [ofExpression]
  split
  · rfl
  · rfl

theorem Leaf.isStatement_ofRun (run : List Char) : (ofRun run).isStatement = false := by
  rw [ofRun]
  split
  · rfl
  · rfl

namespace Event

def isOpening : Event → Bool
  | .opening _ => true
  | _ => false

def isStatement : Event → Bool
  | .leaf content => content.isStatement
  | _ => false

theorem countP_ofText (text : List Char) :
    (Template.events (.ofText text)).countP isOpening = 0 ∧
      (Template.events (.ofText text)).countP isStatement = 0 := by
  rw [Template.events_ofText]
  refine ⟨List.countP_eq_zero.mpr fun event member => ?_,
    List.countP_eq_zero.mpr fun event member => ?_⟩
  · obtain ⟨run, _, rfl⟩ := List.mem_map.mp member
    exact Bool.false_ne_true
  · obtain ⟨run, _, rfl⟩ := List.mem_map.mp member
    rw [isStatement, Leaf.isStatement_ofRun]
    exact Bool.false_ne_true

end Event

theorem Node.isOpening_first (node : Node) : node.first.isOpening = node.isScope := by
  cases node <;> rfl

theorem Node.isStatement_first (node : Node) : node.first.isStatement = node.isStatement := by
  cases node <;> rfl

namespace Template

theorem countP_preorder (template : Template) :
    template.preorder.countP Node.isScope = template.events.countP Event.isOpening ∧
      template.preorder.countP Node.isStatement =
        template.events.countP Event.isStatement := by
  rw [countP_events fun _ => rfl, countP_events fun _ => rfl]
  simp only [Node.isOpening_first, Node.isStatement_first, and_self]

end Template

namespace Piece

variable {piece : Piece} {pieces : List Piece} {token : Token} {role : Role}
  {scope : Option Scope}

theorem notes_of_ok {inside : List Char} {tag : Tag}
    (reads : Tag.ofBody (trim inside) = .ok tag) (behind : Nat) :
    notes scope behind (.tag .statement inside) =
      .statementTag (String.ofList (Tag.keyword (trim inside))) behind ::
        (Effect.ofTag scope (trim inside) (Delimiter.statement.wrap inside) behind
          tag).records :=
  Effect.records_ofStatement_of_ok reads

/-- What a piece records is the scope that it adds to the walk.  A statement tag opens a
scope, ends one, is a leaf, or is kept as text. -/
theorem Means.countP_notes (means : piece.Means scope token role) (behind : Nat) :
    (piece.notes scope behind).countP Record.isScopeEntered =
        (role.events piece).countP Event.isOpening ∧
      (piece.notes scope behind).countP Record.isStatementTag =
        (role.events piece).countP Event.isOpening +
            (role.events piece).countP Event.isStatement +
          (if role.isEnding then 1 else 0) + (piece.notes scope behind).countP Record.keepsTag := by
  cases means with
  | plain run =>
      obtain ⟨openings, statements⟩ := Event.countP_ofText run
      rw [Role.events, source, openings, statements]
      exact ⟨rfl, rfl⟩
  | print inside =>
      rw [Role.events, List.countP_singleton, List.countP_singleton, Event.isStatement,
        Leaf.isStatement_ofExpression]
      exact ⟨rfl, rfl⟩
  | leaf reads =>
      rw [notes_of_ok reads, Role.events, List.countP_singleton, List.countP_singleton,
        Event.isStatement, Leaf.isStatement_of_leaf reads]
      exact ⟨rfl, rfl⟩
  | opening reads =>
      rw [notes_of_ok reads]
      exact ⟨rfl, rfl⟩
  | ending reads innermost =>
      -- The end of a scope is met on the walk, but it is neither a node nor kept text.
      rw [notes_of_ok reads, Effect.ofTag, if_pos innermost]
      exact ⟨rfl, rfl⟩
  | orphaned reads elsewhere =>
      obtain ⟨openings, statements⟩ :=
        Event.countP_ofText (source (.tag .statement _))
      rw [notes_of_ok reads, Effect.ofTag, if_neg elsewhere, Role.events, openings,
        statements]
      exact ⟨rfl, rfl⟩
  | unknown reads unknown =>
      obtain ⟨openings, statements⟩ :=
        Event.countP_ofText (source (.tag .statement _))
      rw [notes_of_ok reads, Role.events, openings, statements]
      rcases unknown with rfl | rfl
      · exact ⟨rfl, rfl⟩
      · exact ⟨rfl, rfl⟩

theorem Means.length_scopesAfter {scopes : List Scope}
    (means : piece.Means scopes.head? token role) :
    (role.scopesAfter scopes).length + (if role.isEnding then 1 else 0) =
      scopes.length + (role.events piece).countP Event.isOpening := by
  cases means with
  | plain run =>
      rw [Role.events, (Event.countP_ofText _).1]
      rfl
  | print inside => rfl
  | leaf reads => rfl
  | opening reads => rfl
  | ending reads innermost =>
      obtain ⟨scope, outer, rfl⟩ := List.exists_cons_of_ne_nil
        (List.ne_nil_of_mem (List.mem_of_head? innermost))
      rfl
  | orphaned reads elsewhere =>
      rw [Role.events, (Event.countP_ofText _).1]
      rfl
  | unknown reads unknown =>
      rw [Role.events, (Event.countP_ofText _).1]
      rfl

theorem closings_cons (scopes : List Scope) (piece : Piece) (rest : List Piece) :
    closings scopes (piece :: rest) =
      (if (Role.ofPiece scopes.head? piece).isEnding then 1 else 0) +
        closings ((Role.ofPiece scopes.head? piece).scopesAfter scopes) rest := by
  rw [closings, roles, List.countP_cons, Nat.add_comm]
  rfl

theorem countP_log (tokens : ∀ piece ∈ pieces, piece.token? ≠ none) (position : Nat)
    (scopes : List Scope) :
    (log position scopes pieces).countP Record.isScopeEntered =
        (roleEvents scopes pieces).countP Event.isOpening ∧
      (log position scopes pieces).countP Record.isStatementTag =
        (roleEvents scopes pieces).countP Event.isOpening +
            (roleEvents scopes pieces).countP Event.isStatement +
          closings scopes pieces + (log position scopes pieces).countP Record.keepsTag := by
  induction pieces generalizing position scopes with
  | nil => exact ⟨rfl, rfl⟩
  | cons piece rest ih =>
      obtain ⟨token, _, means, restTokens⟩ := exists_means_of_tokens tokens scopes.head?
      obtain ⟨entered, tags⟩ := means.countP_notes (position + byteLength piece.source)
      obtain ⟨laterEntered, laterTags⟩ := ih restTokens (position + byteLength piece.source)
        ((Role.ofPiece scopes.head? piece).scopesAfter scopes)
      rw [log, roleEvents_cons, closings_cons]
      simp only [List.countP_append, entered, laterEntered, tags, laterTags, true_and]
      omega

/-- A scope that is opened is ended, or it is still open behind the pieces. -/
theorem length_openScopes (tokens : ∀ piece ∈ pieces, piece.token? ≠ none)
    (scopes : List Scope) :
    (openScopes scopes pieces).length + closings scopes pieces =
      scopes.length + (roleEvents scopes pieces).countP Event.isOpening := by
  induction pieces generalizing scopes with
  | nil => rfl
  | cons piece rest ih =>
      obtain ⟨token, _, means, restTokens⟩ := exists_means_of_tokens tokens scopes.head?
      have here := means.length_scopesAfter
      have later := ih restTokens ((Role.ofPiece scopes.head? piece).scopesAfter scopes)
      rw [openScopes, closings_cons, roleEvents_cons, List.countP_append]
      omega

end Piece

namespace Template

theorem log_eq (source : String) :
    log source =
      Piece.log 0 [] (Piece.reached (Piece.cut source.toList)) ++
        (if ∀ piece ∈ Piece.cut source.toList, piece.token? ≠ none then
          openScopes source
        else []).map Record.scopeLeftOpen := by
  rw [log, read_eq_assemble, assemble]
  exact Assembly.records_run {} _

theorem log_of_tokens {source : String}
    (tokens : ∀ piece ∈ Piece.cut source.toList, piece.token? ≠ none) :
    log source =
      Piece.log 0 [] (Piece.cut source.toList) ++
        (openScopes source).map Record.scopeLeftOpen := by
  rw [log_eq, if_pos tokens, Piece.reached_of_tokens tokens]

section LeftOpen

variable {test : Record → Bool}

theorem filter_scopeLeftOpen (unrelated : ∀ scope, test (.scopeLeftOpen scope) = false)
    (scopes : List Scope) : (scopes.map Record.scopeLeftOpen).filter test = [] := by
  rw [List.filter_eq_nil_iff]
  intro record member
  obtain ⟨scope, _, rfl⟩ := List.mem_map.mp member
  rw [unrelated]
  exact Bool.false_ne_true

/-- Only the records of the pieces count in a test that no open scope passes. -/
theorem countP_log_of_tokens {source : String}
    (tokens : ∀ piece ∈ Piece.cut source.toList, piece.token? ≠ none)
    (unrelated : ∀ scope, test (.scopeLeftOpen scope) = false) :
    (log source).countP test = (Piece.log 0 [] (Piece.cut source.toList)).countP test := by
  have none : ((openScopes source).map Record.scopeLeftOpen).countP test = 0 := by
    rw [List.countP_eq_length_filter, filter_scopeLeftOpen unrelated, List.length_nil]
  rw [log_of_tokens tokens, List.countP_append, none, Nat.add_zero]

end LeftOpen

theorem countP_isScopeLeftOpen_log {source : String}
    (tokens : ∀ piece ∈ Piece.cut source.toList, piece.token? ≠ none) :
    (log source).countP Record.isScopeLeftOpen = (openScopes source).length := by
  have inFront : (Piece.log 0 [] (Piece.cut source.toList)).countP
      Record.isScopeLeftOpen = 0 := by
    rw [List.countP_eq_zero]
    intro record member
    rw [Piece.isScopeLeftOpen_of_mem_log member]
    exact Bool.false_ne_true
  have atEnd : ((openScopes source).map Record.scopeLeftOpen).countP
      Record.isScopeLeftOpen = (openScopes source).length := by
    rw [List.countP_map, List.countP_eq_length]
    exact fun scope _ => rfl
  rw [log_of_tokens tokens, List.countP_append, inFront, atEnd, Nat.zero_add]

/-- Each statement tag that is reached is recorded at the byte behind it, in order. -/
theorem filter_isStatementTag_log (source : String) :
    (log source).filter Record.isStatementTag =
      (Piece.reached (Piece.cut source.toList)).inits.filterMap Piece.lastTagRecord? := by
  have fromStart : Piece.lastTagRecord? [] = none := rfl
  have tags := Piece.filter_log [] [] (Piece.reached (Piece.cut source.toList))
  simp only [List.nil_append, List.map_id'] at tags
  rw [log_eq, List.filter_append, filter_scopeLeftOpen fun _ => rfl, List.append_nil,
    Piece.inits_eq_cons, List.filterMap_cons_none fromStart]
  exact tags

theorem tagEnds_log (source : String) :
    ((log source).filterMap Record.tagEnd?).Pairwise (· < ·) := by
  have leftOpen (scopes : List Scope) :
      (scopes.map Record.scopeLeftOpen).filterMap Record.tagEnd? = [] := by
    rw [List.filterMap_map, List.filterMap_eq_nil_iff]
    exact fun scope _ => rfl
  rw [log_eq, List.filterMap_append, leftOpen, List.append_nil]
  exact (Piece.pairwise_tagEnds_log 0 [] _).2

/-- The ends of the scopes are no nodes, whether their tags are there or not. -/
theorem countP_preorder_of_walk {pieces : List Piece} {template : Template}
    (walk : template.events = Piece.roleEvents [] pieces ++
      (Piece.openScopes [] pieces).map Event.ending) :
    template.preorder.countP Node.isScope =
        (Piece.roleEvents [] pieces).countP Event.isOpening ∧
      template.preorder.countP Node.isStatement =
        (Piece.roleEvents [] pieces).countP Event.isStatement := by
  have ends (scopes : List Scope) :
      (scopes.map Event.ending).countP Event.isOpening = 0 ∧
        (scopes.map Event.ending).countP Event.isStatement = 0 := by
    simp [List.countP_eq_zero, Event.isOpening, Event.isStatement]
  obtain ⟨scopes, statements⟩ := template.countP_preorder
  rw [scopes, statements, walk, List.countP_append, List.countP_append, (ends _).1,
    (ends _).2]
  exact ⟨rfl, rfl⟩

/-- The log accounts for the tags that are reached and, when a tree is read, for its nodes:
a scope is entered once, and either its end tag is reached or it is left open at the end. -/
theorem log_accounts (source : String) :
    (log source).filter Record.isStatementTag =
        (Piece.reached (Piece.cut source.toList)).inits.filterMap Piece.lastTagRecord? ∧
      ((log source).filterMap Record.tagEnd?).Pairwise (· < ·) ∧
      (∀ template, parse source = .ok template →
        Piece.reached (Piece.cut source.toList) = Piece.cut source.toList ∧
          (log source).countP Record.isScopeEntered = template.preorder.countP Node.isScope ∧
          (log source).countP Record.isScopeLeftOpen + closings source =
            template.preorder.countP Node.isScope ∧
          (∃ earlier, log source = earlier ++ (openScopes source).map Record.scopeLeftOpen ∧
            ∀ record ∈ earlier, record.isScopeLeftOpen = false) ∧
          (log source).countP Record.isStatementTag =
            template.preorder.countP Node.isScope +
                template.preorder.countP Node.isStatement + closings source +
              (log source).countP Record.keepsTag) ∧
      ∀ error, parse source = .error error →
        ∀ record ∈ log source, record.isScopeLeftOpen = false := by
  refine ⟨filter_isStatementTag_log source, tagEnds_log source, fun template parsed => ?_,
    fun error failed => ?_⟩
  · obtain ⟨tokens, walk⟩ := Piece.events?_eq_some_iff.mp (parse_eq_ok_iff_events.mp parsed)
    obtain ⟨scopes, statements⟩ := countP_preorder_of_walk walk
    obtain ⟨entered, tags⟩ := Piece.countP_log tokens 0 []
    have balance := Piece.length_openScopes tokens []
    refine ⟨Piece.reached_of_tokens tokens, ?_, ?_,
      ⟨_, log_of_tokens tokens, fun record => Piece.isScopeLeftOpen_of_mem_log⟩, ?_⟩
    · rw [countP_log_of_tokens tokens fun _ => rfl, entered, scopes]
    · rw [countP_isScopeLeftOpen_log tokens, scopes, openScopes, closings, balance]
      exact Nat.zero_add _
    · rw [countP_log_of_tokens tokens fun _ => rfl, countP_log_of_tokens tokens fun _ => rfl,
        tags, scopes, statements, closings]
  · have faulty : ¬∀ piece ∈ Piece.cut source.toList, piece.token? ≠ none := by
      obtain ⟨piece, member, fault⟩ := exists_error_iff.mp ⟨error, failed⟩
      exact fun tokens => tokens piece member fault
    rw [log_eq, if_neg faulty, List.map_nil, List.append_nil]
    exact fun record => Piece.isScopeLeftOpen_of_mem_log

/-- Two of the scopes are left open, behind a tag that is kept and an end tag that is not
theirs.  Where a declaration cannot be read, the open block is not recorded. -/
theorem log_accounts_of_open_scopes :
    ((log ("é\x7b%set a=1%\x7d\x7b%block b%\x7d\x7b%x%\x7d\x7b%endfor%\x7d" ++
          "\x7b%autoescape%\x7d\x7b%endautoescape%\x7d\x7b%for c in d%\x7d")).countP
        Record.isScopeEntered = 3 ∧
      (log ("é\x7b%set a=1%\x7d\x7b%block b%\x7d\x7b%x%\x7d\x7b%endfor%\x7d" ++
          "\x7b%autoescape%\x7d\x7b%endautoescape%\x7d\x7b%for c in d%\x7d")).countP
        Record.isScopeLeftOpen +
          closings ("é\x7b%set a=1%\x7d\x7b%block b%\x7d\x7b%x%\x7d\x7b%endfor%\x7d" ++
            "\x7b%autoescape%\x7d\x7b%endautoescape%\x7d\x7b%for c in d%\x7d") = 3) ∧
      ∀ record ∈ log "\x7b%block a%\x7d\x7b%types x%\x7d",
        record.isScopeLeftOpen = false := by
  have parsed : parse ("é\x7b%set a=1%\x7d\x7b%block b%\x7d\x7b%x%\x7d\x7b%endfor%\x7d" ++
      "\x7b%autoescape%\x7d\x7b%endautoescape%\x7d\x7b%for c in d%\x7d") =
      .ok [.leaf (.text "é"), .leaf (.assign ["a"] ["1"]),
        .scope (.block "b")
          [.leaf (.text "\x7b%x%\x7d"), .leaf (.text "\x7b%endfor%\x7d"),
            .scope (.autoescape none) [], .scope (.loop "c" "d") []]] :=
    Outcome.toOption_eq_some_iff.mp (by decide +kernel)
  obtain ⟨_, entered, leftOpen, _⟩ := (log_accounts _).2.2.1 _ parsed
  exact ⟨⟨entered, leftOpen⟩, (log_accounts _).2.2.2 (.malformedType "x") (by decide +kernel)⟩

end Template

end TemplateTree
