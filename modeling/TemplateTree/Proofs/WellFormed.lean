import TemplateTree.Proofs.Canonical
import TemplateTree.Proofs.Joining

namespace TemplateTree

/-! Text is divided into runs that are as long as they can be.  Two runs of text stand next to
each other only where a tag was kept as text: the kept tag is cut into runs by itself. -/

open Text

/-- What may stand directly before what in one list of nodes. -/
def Leaf.Adjoins : Leaf → Leaf → Prop
  | .whitespace _, .whitespace _ => False
  | .text left, .text right =>
      Delimiter.statement.closer <:+ left.toList ∨
        Delimiter.statement.opener <+: right.toList
  | _, _ => True

theorem Leaf.wellFormed_ofRun {text run : List Char} (member : run ∈ runs text) :
    (Leaf.ofRun run).WellFormed := by
  obtain ⟨nonempty, blank, uniform⟩ := exists_uniform_of_mem_runs member
  cases blank with
  | true =>
      rw [Leaf.ofRun_of_blank uniform, WellFormed, String.toList_ofList]
      exact ⟨nonempty, uniform⟩
  | false =>
      rw [Leaf.ofRun_of_isWord ⟨nonempty, uniform⟩, WellFormed, String.toList_ofList]
      exact ⟨nonempty, uniform⟩

namespace Event

variable {event left right : Event}

def WellFormed : Event → Prop
  | .leaf content => content.WellFormed
  | .opening header => header.WellFormed
  | .ending _ => True

def Adjoins : Event → Event → Prop
  | .leaf left, .leaf right => left.Adjoins right
  | _, _ => True

/-- Not a run that text in front of it could continue. -/
def StartsTag : Event → Prop
  | .leaf (.text run) => Delimiter.statement.opener <+: run.toList
  | .leaf (.whitespace _) => False
  | _ => True

/-- Not a run that text behind it could continue. -/
def EndsTag : Event → Prop
  | .leaf (.text run) => Delimiter.statement.closer <:+ run.toList
  | .leaf (.whitespace _) => False
  | _ => True

theorem adjoins_of_startsTag (starts : right.StartsTag) : left.Adjoins right := by
  unfold Adjoins
  split
  · unfold Leaf.Adjoins
    split
    · exact starts
    · exact Or.inr starts
    · trivial
  · trivial

theorem adjoins_of_endsTag (ends : left.EndsTag) : left.Adjoins right := by
  unfold Adjoins
  split
  · unfold Leaf.Adjoins
    split
    · exact ends
    · exact Or.inl ends
    · trivial
  · trivial

theorem startsTag_endsTag_of_tag {tag : Delimiter × String}
    (tagged : event.tag? = some tag) : event.StartsTag ∧ event.EndsTag := by
  cases event with
  | leaf content =>
      cases content with
      | text run => cases tagged
      | whitespace run => cases tagged
      | _ => exact ⟨trivial, trivial⟩
  | _ => exact ⟨trivial, trivial⟩

theorem wellFormed_of_mem_ofText {text : List Char}
    (member : event ∈ Template.events (.ofText text)) :
    event.WellFormed ∧ event.tag? = none := by
  rw [Template.events_ofText] at member
  obtain ⟨run, inRuns, rfl⟩ := List.mem_map.mp member
  refine ⟨Leaf.wellFormed_ofRun inRuns, ?_⟩
  rw [Leaf.ofRun]
  split
  · rfl
  · rfl

theorem isChain_ofText (text : List Char) :
    (Template.events (.ofText text)).IsChain Event.Adjoins := by
  rw [Template.events_ofText, List.isChain_map]
  refine (isChain_runs text).imp_of_mem_imp fun left right inLeft inRight alternate => ?_
  obtain ⟨leftNonempty, _⟩ := exists_uniform_of_mem_runs inLeft
  obtain ⟨rightNonempty, _⟩ := exists_uniform_of_mem_runs inRight
  obtain ⟨blank, isLeft, isRight⟩ := alternate
  cases blank with
  | true =>
      rw [Leaf.ofRun_of_blank isLeft, Leaf.ofRun_of_isWord ⟨rightNonempty, isRight⟩]
      trivial
  | false =>
      rw [Leaf.ofRun_of_isWord ⟨leftNonempty, isLeft⟩, Leaf.ofRun_of_blank isRight]
      trivial

/-- The events are set off from text around them. -/
def SetOff (events : List Event) : Prop :=
  (∃ first ∈ events.head?, first.StartsTag) ∧ ∃ last ∈ events.getLast?, last.EndsTag

theorem setOff_singleton {tag : Delimiter × String} (tagged : event.tag? = some tag) :
    SetOff [event] :=
  ⟨⟨event, rfl, (startsTag_endsTag_of_tag tagged).1⟩, event, rfl,
    (startsTag_endsTag_of_tag tagged).2⟩

theorem setOff_kept (inside : List Char) :
    SetOff (Template.events (.ofText (Delimiter.statement.wrap inside))) := by
  have isOpener : IsWord Delimiter.statement.opener := by decide
  have isCloser : IsWord Delimiter.statement.closer := by decide
  have opens : Delimiter.statement.opener <+: Delimiter.statement.wrap inside := by
    rw [Delimiter.wrap, List.append_assoc]
    exact List.prefix_append _ _
  have closes : Delimiter.statement.closer <:+ Delimiter.statement.wrap inside :=
    List.suffix_append _ _
  obtain ⟨first, rest, fromFront, isFirst, starts⟩ := exists_runs_eq_cons isOpener opens
  obtain ⟨front, last, fromBack, isLast, ends⟩ := exists_runs_eq_append isCloser closes
  rw [Template.events_ofText]
  refine ⟨⟨.leaf (.ofRun first), ?_, ?_⟩, .leaf (.ofRun last), ?_, ?_⟩
  · rw [fromFront]
    rfl
  · rw [Leaf.ofRun_of_isWord isFirst, StartsTag, String.toList_ofList]
    exact starts
  · rw [fromBack, List.map_append, List.map_singleton, List.getLast?_concat]
    rfl
  · rw [Leaf.ofRun_of_isWord isLast, EndsTag, String.toList_ofList]
    exact ends

theorem encloses_of_text (untagged : event.tag? = none) : event.Encloses := by
  intro tag isTag
  rw [untagged] at isTag
  cases isTag

theorem encloses_of_parts {delimiter : Delimiter} {text : String}
    {body : List Char} (tagged : event.tag? = some (delimiter, text))
    (parts : ∀ field ∈ event.fields,
      delimiter.closer <:+: field.toList → delimiter.closer <:+: body)
    (apart : ¬delimiter.closer <:+: body) : event.Encloses := by
  intro tag isTag field member found
  rw [tagged] at isTag
  cases isTag
  exact apart (parts field member found)

end Event

namespace Piece

variable {piece : Piece} {pieces : List Piece} {token : Token} {role : Role}
  {scope : Option Scope} {scopes : List Scope} {events : List Event}

theorem not_infix_trim {inside : List Char} {delimiter : Delimiter}
    (sound : (Piece.tag delimiter inside).Sound) :
    ¬delimiter.closer <:+: trim inside := by
  intro found
  have inInside : delimiter.closer <:+: inside := found.trans (strip_isInfix isBlank inside)
  exact sound (List.infix_append_of_infix_left inInside)

theorem Means.wellFormed (means : piece.Means scope token role) (sound : piece.Sound) :
    ∀ event ∈ token.events scope, event.WellFormed ∧ event.Encloses := by
  have ofText (text : List Char) : ∀ event ∈ Template.events (.ofText text),
      event.WellFormed ∧ event.Encloses := fun event member =>
    (Event.wellFormed_of_mem_ofText member).imp_right Event.encloses_of_text
  cases means with
  | plain run => exact ofText run
  | orphaned reads elsewhere =>
      rw [Token.events, if_neg elsewhere]
      exact ofText _
  | unknown reads unknown => exact ofText _
  | ending reads innermost =>
      rw [Token.events, if_pos innermost, List.forall_mem_singleton]
      exact ⟨trivial, Event.encloses_ending _⟩
  | print inside =>
      have apart := not_infix_trim sound
      obtain ⟨wellFormed, parts⟩ :=
        Leaf.wellFormed_ofExpression (stripped_strip isBlank inside) apart
      obtain ⟨body, tagged⟩ := Leaf.exists_tag_ofExpression (trim inside)
      rw [Token.events, List.forall_mem_singleton]
      refine ⟨wellFormed, Event.encloses_of_parts tagged (fun field member found => ?_) apart⟩
      exact absurd found (parts field member)
  | leaf reads =>
      have apart := not_infix_trim sound
      obtain ⟨wellFormed, parts⟩ := Leaf.wellFormed_of_leaf reads
      obtain ⟨body, tagged⟩ := Leaf.exists_tag_of_leaf reads
      rw [Token.events, List.forall_mem_singleton]
      exact ⟨wellFormed, Event.encloses_of_parts tagged parts apart⟩
  | opening reads =>
      have apart := not_infix_trim sound
      obtain ⟨wellFormed, inBody⟩ := Header.wellFormed_of_opens reads
      rw [Token.events, List.forall_mem_singleton]
      exact ⟨wellFormed, Event.encloses_of_parts rfl
        (fun field member found => found.trans (inBody field member)) apart⟩

theorem wellFormed_of_walk (sound : ∀ piece ∈ pieces, piece.Sound)
    (walk : events? scopes pieces = some events) :
    ∀ event ∈ events, event.WellFormed ∧ event.Encloses := by
  induction pieces generalizing scopes events with
  | nil =>
      obtain rfl := Option.some.inj walk
      intro event member
      obtain ⟨scope, _, rfl⟩ := List.mem_map.mp member
      exact ⟨trivial, Event.encloses_ending scope⟩
  | cons piece rest ih =>
      obtain ⟨isSound, restSound⟩ := List.forall_mem_cons.mp sound
      obtain ⟨token, later, _, means, restWalk, rfl⟩ := exists_means_of_walk walk
      exact List.forall_mem_append.mpr ⟨means.wellFormed isSound, ih restSound restWalk⟩

theorem Means.isChain (means : piece.Means scope token role) :
    (token.events scope).IsChain Event.Adjoins := by
  cases means with
  | plain run => exact Event.isChain_ofText run
  | unknown reads unknown => exact Event.isChain_ofText _
  | orphaned reads elsewhere =>
      rw [Token.events, if_neg elsewhere]
      exact Event.isChain_ofText _
  | ending reads innermost =>
      rw [Token.events, if_pos innermost]
      exact List.isChain_singleton _
  | _ => exact List.isChain_singleton _

theorem Means.setOff (means : piece.Means scope token role) (opens : piece.OpensTag) :
    Event.SetOff (token.events scope) := by
  cases means with
  | plain run => exact absurd opens id
  | unknown reads unknown => exact Event.setOff_kept _
  | orphaned reads elsewhere =>
      rw [Token.events, if_neg elsewhere]
      exact Event.setOff_kept _
  | ending reads innermost =>
      rw [Token.events, if_pos innermost]
      exact Event.setOff_singleton rfl
  | opening reads => exact Event.setOff_singleton rfl
  | print inside =>
      obtain ⟨body, tagged⟩ := Leaf.exists_tag_ofExpression (trim inside)
      exact Event.setOff_singleton tagged
  | leaf reads =>
      obtain ⟨body, tagged⟩ := Leaf.exists_tag_of_leaf reads
      exact Event.setOff_singleton tagged

theorem startsTag_of_walk (walk : events? scopes pieces = some events)
    (opens : ∀ piece ∈ pieces.head?, piece.OpensTag) :
    ∀ event ∈ events.head?, event.StartsTag := by
  intro event isFirst
  cases pieces with
  | nil =>
      obtain rfl := Option.some.inj walk
      obtain ⟨scope, _, rfl⟩ := List.mem_map.mp (List.mem_of_mem_head? isFirst)
      trivial
  | cons piece rest =>
      obtain ⟨token, later, _, means, _, rfl⟩ := exists_means_of_walk walk
      obtain ⟨⟨first, found, starts⟩, _⟩ := means.setOff (opens piece rfl)
      rw [List.head?_append, found] at isFirst
      cases isFirst
      exact starts

/-- Text is followed by a tag or by the end of its list, and a tag is set off. -/
theorem isChain_of_walk (segmented : Segmented pieces)
    (walk : events? scopes pieces = some events) : events.IsChain Event.Adjoins := by
  induction pieces generalizing scopes events with
  | nil =>
      obtain rfl := Option.some.inj walk
      rw [List.isChain_map]
      exact (List.pairwise_of_forall fun _ _ => trivial).isChain
  | cons piece rest ih =>
      obtain ⟨_, precedes, restSegmented⟩ := segmented_cons_iff.mp segmented
      obtain ⟨token, later, classified, means, restWalk, rfl⟩ := exists_means_of_walk walk
      refine means.isChain.append (ih restSegmented restWalk) ?_
      intro left isLast right isFirst
      cases piece with
      | unclosed delimiter inside => cases classified
      | tag delimiter inside =>
          obtain ⟨_, last, found, ends⟩ := means.setOff trivial
          rw [Option.mem_def.mp found] at isLast
          cases isLast
          exact Event.adjoins_of_endsTag ends
      | text run =>
          have opens : ∀ next ∈ rest.head?, next.OpensTag :=
            fun next isNext => (precedes next isNext).1
          exact Event.adjoins_of_startsTag (startsTag_of_walk restWalk opens right isFirst)

end Piece

/-- What may stand directly before what in a list of nodes. -/
def Node.Adjoins : Node → Node → Prop
  | .leaf left, .leaf right => left.Adjoins right
  | _, _ => True

mutual

def Node.WellFormed : Node → Prop
  | .leaf content => content.WellFormed
  | .scope header children => header.WellFormed ∧ Template.WellFormed children

/-- At every depth the strings of the nodes are what reading ensures, and text is
divided where it has to be. -/
def Template.WellFormed : Template → Prop
  | [] => True
  | node :: rest =>
      Node.WellFormed node ∧ (∀ next ∈ rest.head?, node.Adjoins next) ∧
        Template.WellFormed rest

end

theorem Node.adjoins_of_ends {left right : Node}
    (adjoins : left.last.Adjoins right.first) : left.Adjoins right := by
  cases left with
  | scope header children => trivial
  | leaf content =>
      cases right with
      | scope header children => trivial
      | leaf next => exact adjoins

mutual

theorem Node.wellFormed_of_events (node : Node)
    (each : ∀ event ∈ node.events, event.WellFormed)
    (chain : node.events.IsChain Event.Adjoins) : node.WellFormed := by
  cases node with
  | leaf content => exact each _ List.mem_cons_self
  | scope header children =>
      rw [Node.events] at each chain
      obtain ⟨isHeader, inner⟩ := List.forall_mem_cons.mp each
      obtain ⟨isChildren, _⟩ := List.forall_mem_append.mp inner
      exact ⟨isHeader, Template.wellFormed_of_events children isChildren
        chain.tail.left_of_append⟩

/-- Nodes that stand next to each other in a list are met one after the other. -/
theorem Template.wellFormed_of_events (template : Template)
    (each : ∀ event ∈ template.events, event.WellFormed)
    (chain : template.events.IsChain Event.Adjoins) : template.WellFormed := by
  cases template with
  | nil => trivial
  | cons node rest =>
      rw [Template.events] at each chain
      obtain ⟨isNode, isRest⟩ := List.forall_mem_append.mp each
      obtain ⟨nodeChain, restChain, meets⟩ := List.isChain_append.mp chain
      refine ⟨node.wellFormed_of_events isNode nodeChain, fun next isNext => ?_,
        Template.wellFormed_of_events rest isRest restChain⟩
      have first : next.first ∈ (Template.events rest).head? := by
        rw [Template.head?_events, Option.mem_def.mp isNext]
        rfl
      exact Node.adjoins_of_ends (meets _ node.getLast?_events _ first)

end

/-- Every tree that is read is well-formed at every depth. -/
theorem Template.wellFormed_of_parse {source : String} {template : Template}
    (parsed : Template.parse source = .ok template) : template.WellFormed := by
  have walk := Template.parse_eq_ok_iff_events.mp parsed
  have segmented := Piece.segmented_cut source.toList
  have each := Piece.wellFormed_of_walk segmented.1 walk
  exact Template.wellFormed_of_events template (fun event member => (each event member).1)
    (Piece.isChain_of_walk segmented walk)

/-- A kept tag between two runs of text, in a loop that stays open. -/
theorem Template.wellFormed_of_kept_tag :
    Template.parse "\x7b%for a in b%\x7dc\x7b%d%\x7de \x7b%set f,=g%\x7d" =
        .ok [.scope (.loop "a" "b")
          [.leaf (.text "c"), .leaf (.text "\x7b%d%\x7d"), .leaf (.text "e"),
            .leaf (.whitespace " "), .leaf (.assign ["f"] ["g"])]] ∧
      Template.WellFormed [.scope (.loop "a" "b")
          [.leaf (.text "c"), .leaf (.text "\x7b%d%\x7d"), .leaf (.text "e"),
            .leaf (.whitespace " "), .leaf (.assign ["f"] ["g"])]] := by
  have parsed : Template.parse "\x7b%for a in b%\x7dc\x7b%d%\x7de \x7b%set f,=g%\x7d" =
      .ok [.scope (.loop "a" "b")
        [.leaf (.text "c"), .leaf (.text "\x7b%d%\x7d"), .leaf (.text "e"),
          .leaf (.whitespace " "), .leaf (.assign ["f"] ["g"])]] :=
    Outcome.toOption_eq_some_iff.mp (by decide +kernel)
  exact ⟨parsed, Template.wellFormed_of_parse parsed⟩

end TemplateTree
