import TemplateTree.Proofs.Canonical
import TemplateTree.Proofs.Joining

namespace TemplateTree

open Text

namespace Event

variable {event next : Event} {blank : Bool}

/-- Whether a run of text is a run of blanks, for what is not a tag. -/
def blank? : Event → Option Bool
  | .leaf (.text _) => some false
  | .leaf (.whitespace _) => some true
  | _ => none

/-- The text runs up to a brace that could open a tag. -/
def EndsInBrace (event : Event) : Prop :=
  event.blank? = some false ∧ event.source.getLast? = some '{'

/-- What may stand directly before what: a run is not divided, and a brace at the
end of text stands before a blank. -/
def Precedes (left right : Event) : Prop :=
  (left.blank? = none ∨ left.blank? ≠ right.blank?) ∧
    (left.EndsInBrace → right.blank? = some true)

instance (event : Event) : Decidable event.EndsInBrace :=
  inferInstanceAs (Decidable (_ ∧ _))

instance (left right : Event) : Decidable (left.Precedes right) :=
  inferInstanceAs (Decidable (_ ∧ _))

theorem precedes_of_tag (tagged : event.blank? = none) (next : Event) :
    event.Precedes next := by
  refine ⟨Or.inl tagged, fun ends => ?_⟩
  rw [ends.1] at tagged
  cases tagged

theorem exists_blank? (untagged : event.tag? = none) :
    ∃ blank, event.blank? = some blank := by
  cases event with
  | opening header => cases untagged
  | ending scope => cases untagged
  | leaf content =>
      cases content with
      | text run => exact ⟨false, rfl⟩
      | whitespace run => exact ⟨true, rfl⟩
      | _ => cases untagged

theorem scopesAfter_of_text {scopes : List Scope} (untagged : event.tag? = none) :
    event.scopesAfter scopes = scopes := by
  cases event with
  | leaf content => rfl
  | opening header => cases untagged
  | ending scope => cases untagged

/-- Scopes end in the order in which they were opened, and all of them do. -/
def Nested (scopes : List Scope) : List Event → Prop
  | [] => scopes = []
  | event :: rest => event.Fits scopes ∧ Nested (event.scopesAfter scopes) rest

/-- A run of text that is read as one node again. -/
structure IsRun (event : Event) (blank : Bool) : Prop where
  nonempty : event.source ≠ []
  uniform : Uniform blank event.source
  tagless : Tagless event.source
  walk : Template.events (.ofText event.source) = [event]

theorem isRun_of_blank? (canonical : event.Canonical)
    (isText : event.blank? = some blank) : event.IsRun blank := by
  cases event with
  | opening header => cases isText
  | ending scope => cases isText
  | leaf content =>
      cases content with
      | text run =>
          cases isText
          obtain ⟨⟨nonempty, noBlank⟩, tagless⟩ := canonical
          refine ⟨nonempty, noBlank, tagless, ?_⟩
          change Template.events (.ofText run.toList) = _
          rw [Template.events_ofText_of_uniform nonempty noBlank,
            Leaf.ofRun_of_isWord ⟨nonempty, noBlank⟩, String.ofList_toList]
      | whitespace run =>
          cases isText
          obtain ⟨nonempty, allBlank⟩ := canonical
          have noBrace : '{' ∉ run.toList := by
            intro brace
            exact absurd (allBlank '{' brace) (by decide)
          have tagless : Tagless run.toList := tagless_iff.mpr fun delimiter found => by
            rw [delimiter.opener_eq_cons] at found
            exact noBrace (found.subset List.mem_cons_self)
          refine ⟨nonempty, allBlank, tagless, ?_⟩
          change Template.events (.ofText run.toList) = _
          rw [Template.events_ofText_of_uniform nonempty allBlank,
            Leaf.ofRun_of_blank allBlank, String.ofList_toList]
      | _ => cases isText

theorem Precedes.blank_ne {nextBlank : Bool} (precedes : event.Precedes next)
    (isText : event.blank? = some blank) (nextIsText : next.blank? = some nextBlank) :
    blank ≠ nextBlank := by
  intro same
  rcases precedes.1 with isTag | different
  · rw [isText] at isTag
    cases isTag
  · rw [isText, nextIsText, same] at different
    exact different rfl

theorem Precedes.blank_of_brace (precedes : event.Precedes next)
    (isRun : event.IsRun blank) (isText : event.blank? = some blank)
    (ends : event.source.getLast? = some '{') : next.blank? = some true := by
  have noBlank := isRun.uniform '{' (List.mem_of_getLast? ends)
  have isBrace : isBlank '{' = false := by decide
  rw [← noBlank, isBrace] at isText
  exact precedes.2 ⟨isText, ends⟩

end Event

namespace Piece

variable {later : List Char} {tail : List Piece} {scopes : List Scope}
  {event next : Event} {events rest : List Event} {delimiter : Delimiter}
  {body : String}

/-- The pieces of the source of a canonical tree, given what is met on a walk
through it. -/
def ofEvents : List Event → List Piece
  | [] => []
  | event :: rest =>
      match event.tag? with
      | some (delimiter, body) => delimiter.spelled body :: ofEvents rest
      | none => prepend event.source (ofEvents rest)

theorem ofEvents_cons_of_tag (tagged : event.tag? = some (delimiter, body)) :
    ofEvents (event :: rest) = delimiter.spelled body :: ofEvents rest := by
  rw [ofEvents, tagged]

theorem ofEvents_cons_of_text (untagged : event.tag? = none) :
    ofEvents (event :: rest) = prepend event.source (ofEvents rest) := by
  rw [ofEvents, untagged]

theorem flatMap_source_ofEvents (events : List Event) :
    (ofEvents events).flatMap source = events.flatMap Event.source := by
  induction events with
  | nil => rfl
  | cons event rest ih =>
      cases tagged : event.tag? with
      | none =>
          rw [ofEvents_cons_of_text tagged, flatMap_source_prepend, ih,
            List.flatMap_cons]
      | some tag =>
          obtain ⟨delimiter, body⟩ := tag
          rw [ofEvents_cons_of_tag tagged, List.flatMap_cons,
            Event.source_spelled tagged, ih, List.flatMap_cons]

/-- Pieces start with text only where a run stands. -/
theorem prefix_of_ofEvents (starts : ofEvents (next :: rest) = .text later :: tail) :
    next.tag? = none ∧ next.source <+: later := by
  cases tagged : next.tag? with
  | none =>
      rw [ofEvents_cons_of_text tagged] at starts
      refine ⟨rfl, ?_⟩
      rcases prepend_cases next.source (ofEvents rest) with
        ⟨others, _, _, joined⟩ | ⟨_, joined⟩
      · rw [joined] at starts
        cases starts
        exact List.prefix_append _ _
      · rw [joined] at starts
        cases starts
        exact List.prefix_rfl
  | some tag =>
      obtain ⟨delimiter, body⟩ := tag
      rw [ofEvents_cons_of_tag tagged] at starts
      cases starts

theorem segmented_ofEvents
    (canonical : ∀ event ∈ events, event.Canonical ∧ event.Encloses)
    (chain : events.IsChain Event.Precedes) : Segmented (ofEvents events) := by
  induction events with
  | nil => exact segmented_nil
  | cons event rest ih =>
      obtain ⟨follows, restChain⟩ := List.isChain_cons.mp chain
      obtain ⟨isCanonical, encloses⟩ := canonical event List.mem_cons_self
      have restCanonical : ∀ event ∈ rest, event.Canonical ∧ event.Encloses :=
        fun event member => canonical event (List.mem_cons_of_mem _ member)
      have later := ih restCanonical restChain
      cases tagged : event.tag? with
      | some tag =>
          obtain ⟨delimiter, body⟩ := tag
          rw [ofEvents_cons_of_tag tagged]
          exact segmented_cons_iff.mpr
            ⟨Event.sound_spelled encloses tagged, fun _ _ => trivial, later⟩
      | none =>
          obtain ⟨blank, isText⟩ := Event.exists_blank? tagged
          have isRun := Event.isRun_of_blank? isCanonical isText
          rw [ofEvents_cons_of_text tagged]
          -- A brace at the end of the run would open a tag with one behind it.
          refine segmented_prepend isRun.nonempty isRun.tagless later fun ends => ?_
          rw [flatMap_source_ofEvents]
          intro c first
          cases rest with
          | nil => cases first
          | cons next rest =>
              have nextIsText := (follows next rfl).blank_of_brace isRun isText ends
              have nextIsRun := Event.isRun_of_blank?
                (restCanonical next List.mem_cons_self).1 nextIsText
              rw [List.flatMap_cons,
                List.head?_append_of_ne_nil _ nextIsRun.nonempty] at first
              exact nextIsRun.uniform c (List.mem_of_mem_head? first)

theorem events?_ofEvents
    (canonical : ∀ event ∈ events, event.Canonical ∧ event.Encloses)
    (chain : events.IsChain Event.Precedes) (nested : Event.Nested scopes events) :
    events? scopes (ofEvents events) = some events := by
  induction events generalizing scopes with
  | nil =>
      obtain rfl : scopes = [] := nested
      rfl
  | cons event rest ih =>
      obtain ⟨follows, restChain⟩ := List.isChain_cons.mp chain
      obtain ⟨isCanonical, encloses⟩ := canonical event List.mem_cons_self
      have restCanonical : ∀ event ∈ rest, event.Canonical ∧ event.Encloses :=
        fun event member => canonical event (List.mem_cons_of_mem _ member)
      obtain ⟨fits, restNested⟩ := nested
      have later := ih restCanonical restChain restNested
      cases tagged : event.tag? with
      | some tag =>
          obtain ⟨delimiter, body⟩ := tag
          rw [ofEvents_cons_of_tag tagged, Event.events?_spelled isCanonical tagged fits,
            later, Option.map_some]
      | none =>
          obtain ⟨blank, isText⟩ := Event.exists_blank? tagged
          have isRun := Event.isRun_of_blank? isCanonical isText
          rw [Event.scopesAfter_of_text tagged] at later
          rw [ofEvents_cons_of_text tagged, events?_prepend ?_ later, isRun.walk,
            List.singleton_append]
          -- The text is cut where the two runs meet, because they are not of one kind.
          intro text tail starts a last b first
          cases rest with
          | nil => cases starts
          | cons next rest =>
              obtain ⟨nextUntagged, nextPrefix⟩ := prefix_of_ofEvents starts
              obtain ⟨nextBlank, nextIsText⟩ := Event.exists_blank? nextUntagged
              have nextIsRun := Event.isRun_of_blank?
                (restCanonical next List.mem_cons_self).1 nextIsText
              obtain ⟨more, rfl⟩ := nextPrefix
              rw [List.head?_append_of_ne_nil _ nextIsRun.nonempty] at first
              rw [isRun.uniform a (List.mem_of_mem_getLast? last),
                nextIsRun.uniform b (List.mem_of_mem_head? first)]
              exact (follows next rfl).blank_ne isText nextIsText

end Piece

mutual

/-- Every string of the node is spelled as it is read, and at every depth the
nodes in a list may stand next to each other.  At the end of a scope they may
stand before the end tag. -/
def Node.Canonical : Node → Prop
  | .leaf content => (Event.leaf content).Canonical ∧ (Event.leaf content).Encloses
  | .scope header children =>
      (Event.opening header).Canonical ∧ (Event.opening header).Encloses ∧
        Template.Canonical children ∧
        ∀ child ∈ children.getLast?, child.last.Precedes (.ending header.scope)

def Template.Canonical : Template → Prop
  | [] => True
  | node :: rest =>
      Node.Canonical node ∧ (∀ next ∈ rest.head?, node.last.Precedes next.first) ∧
        Template.Canonical rest

end

mutual

def Node.decideCanonical : (node : Node) → Decidable (Node.Canonical node)
  | .leaf _ => inferInstanceAs (Decidable (_ ∧ _))
  | .scope _ children =>
      have := Template.decideCanonical children
      inferInstanceAs (Decidable (_ ∧ _ ∧ _ ∧ _))

def Template.decideCanonical :
    (template : Template) → Decidable (Template.Canonical template)
  | [] => isTrue trivial
  | node :: rest =>
      have := Node.decideCanonical node
      have := Template.decideCanonical rest
      inferInstanceAs (Decidable (_ ∧ _ ∧ _))

end

instance (template : Template) : Decidable (Template.Canonical template) :=
  template.decideCanonical

mutual

theorem Node.nested_events (node : Node) (scopes : List Scope) (rest : List Event) :
    Event.Nested scopes (node.events ++ rest) ↔ Event.Nested scopes rest := by
  cases node with
  | leaf content => exact and_iff_right trivial
  | scope header children =>
      have inner := Template.nested_events children (header.scope :: scopes)
        (.ending header.scope :: rest)
      rw [Node.events, List.cons_append, List.append_assoc, List.singleton_append]
      refine (and_iff_right trivial).trans (inner.trans (and_iff_right ?_))
      rfl

theorem Template.nested_events (template : Template) (scopes : List Scope)
    (rest : List Event) :
    Event.Nested scopes (template.events ++ rest) ↔ Event.Nested scopes rest := by
  cases template with
  | nil => rfl
  | cons node others =>
      rw [Template.events, List.append_assoc, Node.nested_events node,
        Template.nested_events others]

end

mutual

theorem Node.canonical_events (node : Node) (canonical : node.Canonical) :
    (∀ event ∈ node.events, event.Canonical ∧ event.Encloses) ∧
      node.events.IsChain Event.Precedes := by
  cases node with
  | leaf content =>
      rw [Node.events, List.forall_mem_singleton]
      exact ⟨canonical, List.isChain_singleton _⟩
  | scope header children =>
      obtain ⟨isHeader, encloses, isChildren, ends⟩ := canonical
      obtain ⟨inner, chain⟩ := Template.canonical_events children isChildren
      have isEnding : (Event.ending header.scope).Canonical ∧
          (Event.ending header.scope).Encloses :=
        ⟨trivial, Event.encloses_ending header.scope⟩
      have closed : (Template.events children ++ [Event.ending header.scope]).IsChain
          Event.Precedes := by
        refine chain.append (List.isChain_singleton _) fun left last right first => ?_
        rw [Template.getLast?_events] at last
        obtain ⟨child, isLast, rfl⟩ := Option.map_eq_some_iff.mp last
        cases first
        exact ends child isLast
      rw [Node.events, List.forall_mem_cons, List.forall_mem_append,
        List.forall_mem_singleton]
      exact ⟨⟨⟨isHeader, encloses⟩, inner, isEnding⟩,
        List.isChain_cons.mpr ⟨fun _ _ => Event.precedes_of_tag rfl _, closed⟩⟩

/-- On a walk through a canonical tree every tag and every run is canonical, and
each may stand before the one that follows. -/
theorem Template.canonical_events (template : Template)
    (canonical : Template.Canonical template) :
    (∀ event ∈ template.events, event.Canonical ∧ event.Encloses) ∧
      template.events.IsChain Event.Precedes := by
  cases template with
  | nil => exact ⟨by simp [Template.events], List.isChain_nil⟩
  | cons node rest =>
      obtain ⟨isNode, apart, isRest⟩ := canonical
      obtain ⟨nodeEvents, nodeChain⟩ := Node.canonical_events node isNode
      obtain ⟨restEvents, restChain⟩ := Template.canonical_events rest isRest
      rw [Template.events, List.forall_mem_append]
      refine ⟨⟨nodeEvents, restEvents⟩, nodeChain.append restChain ?_⟩
      intro left last right first
      rw [Node.getLast?_events] at last
      rw [Template.head?_events] at first
      obtain ⟨next, isNext, rfl⟩ := Option.map_eq_some_iff.mp first
      cases last
      exact apart next isNext

end

/-- Canonical trees survive printing and reading. -/
theorem Template.parse_source_of_canonical {template : Template}
    (canonical : Template.Canonical template) :
    Template.parse template.source = .ok template := by
  obtain ⟨events, chain⟩ := Template.canonical_events template canonical
  have nested : Event.Nested [] template.events := by
    have whole := (Template.nested_events template [] []).mpr rfl
    rwa [List.append_nil] at whole
  have pieces : Piece.cut template.source.toList = Piece.ofEvents template.events := by
    rw [Template.toList_source, Piece.cut_eq_iff]
    exact ⟨Piece.segmented_ofEvents events chain, Piece.flatMap_source_ofEvents _⟩
  rw [Template.parse_eq_ok_iff_events, pieces]
  exact Piece.events?_ofEvents events chain nested

/-- A loop in a block, behind a brace and a blank. -/
theorem Template.parse_source_block_of_loop :
    Template.Canonical
        [.scope (.block "list")
          [.leaf (.text "a\x7b"), .leaf (.whitespace " "),
            .scope (.loop "row" "rows in order") [.leaf (.print "row.name")],
            .leaf (.inherits ⟨"page.html", ["web", "mail"]⟩)]] ∧
      Template.parse (Template.source
        [.scope (.block "list")
          [.leaf (.text "a\x7b"), .leaf (.whitespace " "),
            .scope (.loop "row" "rows in order") [.leaf (.print "row.name")],
            .leaf (.inherits ⟨"page.html", ["web", "mail"]⟩)]]) =
        .ok [.scope (.block "list")
          [.leaf (.text "a\x7b"), .leaf (.whitespace " "),
            .scope (.loop "row" "rows in order") [.leaf (.print "row.name")],
            .leaf (.inherits ⟨"page.html", ["web", "mail"]⟩)]] :=
  ⟨by decide +kernel, Template.parse_source_of_canonical (by decide +kernel)⟩

end TemplateTree
