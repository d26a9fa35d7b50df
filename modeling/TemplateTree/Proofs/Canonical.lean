import TemplateTree.Proofs.Tag.Header
import TemplateTree.Proofs.Tag.Inheritance
import TemplateTree.Proofs.Tag.TypeHints

namespace TemplateTree

open Text

def Leaf.Canonical : Leaf → Prop
  | .text run => IsWord run.toList ∧ Tagless run.toList
  | .whitespace run => run.toList ≠ [] ∧ Uniform true run.toList
  | .parent => True
  | .inherits declaration => declaration.Canonical
  | .print expression => Stripped isBlank expression.toList ∧ expression ≠ "parent()"
  | .deprecated message => Stripped isQuote message.toList
  | .assign targets values =>
      (∀ target ∈ targets, Tag.IsTarget target.toList) ∧
        ∀ value ∈ values, IsItem value.toList
  | .types hints => hints.Canonical

instance : (content : Leaf) → Decidable content.Canonical
  | .text _ => inferInstanceAs (Decidable (_ ∧ _))
  | .whitespace _ => inferInstanceAs (Decidable (_ ∧ _))
  | .parent => isTrue trivial
  | .inherits declaration => inferInstanceAs (Decidable declaration.Canonical)
  | .print _ => inferInstanceAs (Decidable (_ ∧ _))
  | .deprecated message => inferInstanceAs (Decidable (Stripped isQuote message.toList))
  | .assign _ _ => inferInstanceAs (Decidable (_ ∧ _))
  | .types hints => inferInstanceAs (Decidable hints.Canonical)

namespace Leaf

variable {content : Leaf} {body : String}

theorem ofExpression_body (canonical : content.Canonical)
    (tagged : content.tag? = some (.expression, body)) :
    Leaf.ofExpression (trim body.toList) = content := by
  cases content with
  | parent =>
      cases tagged
      decide
  | print expression =>
      cases tagged
      obtain ⟨stripped, different⟩ := canonical
      have other : body.toList ≠ "parent()".toList := fun same =>
        different (String.toList_injective same)
      rw [trim, strip_of_stripped stripped, Leaf.ofExpression, if_neg other,
        String.ofList_toList]
  | _ => cases tagged

theorem ofBody_body (canonical : content.Canonical)
    (tagged : content.tag? = some (.statement, body)) :
    Tag.ofBody (trim body.toList) = .ok (.leaf content) := by
  cases content with
  | text run => cases tagged
  | whitespace run => cases tagged
  | parent => cases tagged
  | print expression => cases tagged
  | inherits declaration =>
      cases tagged
      have split := Tag.ofBody_trim_cons .inherits declaration.source.toList
      rw [Tag.ofKeyword, Inheritance.read_source canonical] at split
      rw [String.toList_append]
      exact split
  | deprecated message =>
      cases tagged
      have split := Tag.ofBody_trim_cons .deprecated (singleQuoted message).toList
      rw [toList_singleQuoted, trim_quoted, Tag.ofKeyword, if_neg (by simp),
        Tag.deprecated, stripQuotes_quoted canonical, String.ofList_toList] at split
      rw [String.toList_append, toList_singleQuoted]
      exact split
  | assign targets values =>
      cases tagged
      have reads := Tag.set_trim_assign canonical.1 canonical.2
      have split := Tag.ofBody_trim_cons .set
        (listed targets ++ " = " ++ listed values).toList
      rw [Tag.ofKeyword_set reads (by simp)] at split
      simp only [String.toList_append, List.append_assoc] at split ⊢
      exact split
  | types hints =>
      cases tagged
      have separated : ∀ c ∈ hints.source.toList.head?, isBlank c = true := by
        rw [TypeHints.toList_source_eq_spaced]
        exact blank_head?_spaced _
      have split := Tag.ofBody_trim_append .types separated
      rw [Tag.ofKeyword, TypeHints.read_source canonical] at split
      rw [String.toList_append]
      exact split

/-- What reading ensures. -/
def WellFormed : Leaf → Prop
  | .text run => IsWord run.toList
  | .whitespace run => run.toList ≠ [] ∧ Uniform true run.toList
  | .parent => True
  | .inherits declaration => declaration.WellFormed
  | .print expression =>
      Stripped isBlank expression.toList ∧
        ¬Delimiter.expression.closer <:+: expression.toList ∧ expression ≠ "parent()"
  | .deprecated message => Stripped isQuote message.toList
  | .assign targets values =>
      (∀ target ∈ targets, Tag.IsTarget target.toList) ∧
        ∀ value ∈ values, IsItem value.toList
  | .types hints => hints.Canonical

/-- What reading does not ensure. -/
def Stable : Leaf → Prop
  | .inherits declaration => declaration.Stable
  | _ => True

instance : (content : Leaf) → Decidable content.Stable
  | .inherits declaration => inferInstanceAs (Decidable declaration.Stable)
  | .text _ => isTrue trivial
  | .whitespace _ => isTrue trivial
  | .parent => isTrue trivial
  | .print _ => isTrue trivial
  | .deprecated _ => isTrue trivial
  | .assign _ _ => isTrue trivial
  | .types _ => isTrue trivial

/-- Text that was read may hold a mark that opens a tag, when it comes from a tag. -/
theorem WellFormed.canonical (wellFormed : content.WellFormed) (stable : content.Stable)
    (isTag : content.tag? ≠ none) : content.Canonical := by
  cases content with
  | text run => exact absurd rfl isTag
  | whitespace run => exact absurd rfl isTag
  | inherits declaration => exact Inheritance.WellFormed.canonical wellFormed stable
  | print expression => exact ⟨wellFormed.1, wellFormed.2.2⟩
  | _ => exact wellFormed

theorem exists_tag_of_leaf {body : List Char}
    (reads : Tag.ofBody body = .ok (.leaf content)) :
    ∃ text, content.tag? = some (.statement, text) := by
  rcases Tag.leaf_cases reads with
    deprecates | sets | ⟨declaration, _, rfl⟩ | ⟨hints, _, rfl⟩
  · cases deprecates
    exact ⟨_, rfl⟩
  · rcases Tag.set_cases (Tag.arguments body) with
      ⟨targets, values, assigns, _⟩ | ⟨targets, captures, _⟩
    · rw [sets] at assigns
      cases assigns
      exact ⟨_, rfl⟩
    · rw [sets] at captures
      cases captures
  · exact ⟨_, rfl⟩
  · exact ⟨_, rfl⟩

theorem exists_tag_ofExpression (body : List Char) :
    ∃ text, (Leaf.ofExpression body).tag? = some (.expression, text) := by
  rw [Leaf.ofExpression]
  split
  · exact ⟨_, rfl⟩
  · exact ⟨_, rfl⟩

/-- The strings of what is read as a leaf contain no closing mark that is not in the
body. -/
theorem wellFormed_of_leaf {body : List Char}
    (reads : Tag.ofBody body = .ok (.leaf content)) :
    content.WellFormed ∧
      ∀ field ∈ content.fields, Delimiter.statement.closer <:+: field.toList →
        Delimiter.statement.closer <:+: body := by
  have inBody := Tag.arguments_isInfix body
  rcases Tag.leaf_cases reads with
    deprecates | sets | ⟨declaration, inherits, rfl⟩ | ⟨hints, types, rfl⟩
  · cases deprecates
    have shorter := strip_isInfix isQuote (Tag.arguments body)
    refine ⟨?_, fun field member found => ?_⟩
    · rw [WellFormed, String.toList_ofList]
      exact stripped_strip isQuote _
    · rw [List.mem_singleton.mp member, String.toList_ofList] at found
      exact found.trans (shorter.trans inBody)
  · rcases Tag.set_cases (Tag.arguments body) with
      ⟨targets, values, assigns, areTargets, areValues, noEquals⟩ | ⟨_, captures, _⟩
    · rw [sets] at assigns
      cases assigns
      refine ⟨⟨fun target member => ?_, fun value member => ?_⟩,
        fun field member found => ?_⟩
      · exact ⟨(areTargets target member).1, noEquals target member⟩
      · exact (areValues value member).1
      · rcases List.mem_append.mp member with inTargets | inValues
        · exact found.trans ((areTargets field inTargets).2.trans inBody)
        · exact found.trans ((areValues field inValues).2.trans inBody)
    · rw [sets] at captures
      cases captures
  · obtain ⟨wellFormed, inArguments⟩ := Inheritance.wellFormed_of_read inherits
    refine ⟨wellFormed, fun field member found => ?_⟩
    exact found.trans ((inArguments field member).trans inBody)
  · obtain ⟨canonical, inArguments⟩ := TypeHints.canonical_of_read types
    refine ⟨canonical, fun field member found => ?_⟩
    obtain ⟨entry, inEntries, isField⟩ := List.mem_flatMap.mp member
    obtain ⟨inKey, name, quoted, inName⟩ := inArguments entry inEntries
    rcases List.mem_pair.mp isField with rfl | rfl
    · exact found.trans (inKey.trans inBody)
    · rw [quoted, infix_cons_iff_of_not_mem (by decide) (by decide),
        infix_append_cons_iff (by decide), List.infix_nil] at found
      rcases found with foundInName | impossible
      · exact foundInName.trans (inName.trans inBody)
      · exact absurd impossible (by decide)

theorem wellFormed_ofExpression {body : List Char} (stripped : Stripped isBlank body)
    (apart : ¬Delimiter.expression.closer <:+: body) :
    (Leaf.ofExpression body).WellFormed ∧
      ∀ field ∈ (Leaf.ofExpression body).fields,
        ¬Delimiter.expression.closer <:+: field.toList := by
  rw [Leaf.ofExpression]
  split
  · exact ⟨trivial, fun _ member => absurd member List.not_mem_nil⟩
  · rename_i other
    rw [WellFormed, fields, List.forall_mem_singleton, String.toList_ofList]
    refine ⟨⟨stripped, apart, fun same => other ?_⟩, apart⟩
    rw [← same, String.toList_ofList]

end Leaf

namespace Event

variable {event : Event} {delimiter : Delimiter} {body : String}
  {scopes : List Scope}

def Canonical : Event → Prop
  | .leaf content => content.Canonical
  | .opening header => header.Canonical
  | .ending _ => True

instance : (event : Event) → Decidable event.Canonical
  | .leaf content => inferInstanceAs (Decidable content.Canonical)
  | .opening header => inferInstanceAs (Decidable header.Canonical)
  | .ending _ => isTrue trivial

def scopesAfter (scopes : List Scope) : Event → List Scope
  | .leaf _ => scopes
  | .opening header => header.scope :: scopes
  | .ending _ => scopes.tail

/-- Only the innermost scope can end. -/
def Fits (scopes : List Scope) : Event → Prop
  | .leaf _ => True
  | .opening _ => True
  | .ending scope => scopes.head? = some scope

theorem ofBody_endKeyword (scope : Scope) :
    Tag.ofBody (trim scope.endKeyword.toList) = .ok (.closes scope) := by
  cases scope <;> decide

theorem encloses_ending (scope : Scope) : (Event.ending scope).Encloses :=
  fun _ _ _ member => absurd member List.not_mem_nil

theorem sound_spelled (encloses : event.Encloses)
    (tagged : event.tag? = some (delimiter, body)) :
    (delimiter.spelled body).Sound := by
  apply Delimiter.sound_spelled
  rw [Event.infix_body_iff tagged]
  intro inField
  obtain ⟨field, isField, inside⟩ := inField
  exact encloses _ tagged field isField inside

theorem token?_spelled (canonical : event.Canonical)
    (tagged : event.tag? = some (delimiter, body)) (fits : event.Fits scopes) :
    ∃ token, (delimiter.spelled body).token? = some token ∧
      token.events scopes.head? = [event] ∧
      token.scopesAfter scopes = event.scopesAfter scopes := by
  cases event with
  | leaf content =>
      refine ⟨.leaf content, ?_, rfl, rfl⟩
      cases delimiter with
      | expression =>
          have reads := content.ofExpression_body canonical tagged
          rw [Delimiter.spelled, Piece.token?, trim_spaced, reads]
      | statement =>
          have reads := content.ofBody_body canonical tagged
          rw [Delimiter.spelled, Piece.token?, trim_spaced, reads]
          rfl
  | opening header =>
      cases tagged
      have reads := Header.ofBody_body canonical
      refine ⟨.opens header, ?_, rfl, rfl⟩
      rw [Delimiter.spelled, Piece.token?, trim_spaced, reads]
      rfl
  | ending scope =>
      cases tagged
      have innermost : scopes.head? = some scope := fits
      let source := Delimiter.statement.wrap (' ' :: (scope.endKeyword.toList ++ [' ']))
      refine ⟨.closes scope source, ?_, if_pos innermost, if_pos innermost⟩
      rw [Delimiter.spelled, Piece.token?, trim_spaced, ofBody_endKeyword]
      rfl

theorem events?_spelled (canonical : event.Canonical)
    (tagged : event.tag? = some (delimiter, body)) (fits : event.Fits scopes)
    (rest : List Piece) :
    Piece.events? scopes (delimiter.spelled body :: rest) =
      (Piece.events? (event.scopesAfter scopes) rest).map (event :: ·) := by
  obtain ⟨token, means, walk, after⟩ := token?_spelled canonical tagged fits
  rw [Piece.events?_cons means, walk, after]
  rfl

end Event

end TemplateTree
