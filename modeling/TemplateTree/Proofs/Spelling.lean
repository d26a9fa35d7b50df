import TemplateTree.Proofs.Events
import TemplateTree.Proofs.Tag.Keyword
import TemplateTree.Proofs.Text.Items

namespace TemplateTree

def Delimiter.spelled (delimiter : Delimiter) (body : String) : Piece :=
  .tag delimiter (' ' :: (body.toList ++ [' ']))

theorem Delimiter.source_spelled (delimiter : Delimiter) (body : String) :
    (delimiter.spelled body).source = (delimiter.enclose body).toList := by
  rw [toList_enclose]
  simp [spelled, Piece.source, wrap]

/-- The tag of a leaf, if the leaf is not text, with its body. -/
def Leaf.tag? : Leaf → Option (Delimiter × String)
  | .text _ => none
  | .whitespace _ => none
  | .parent => some (.expression, "parent()")
  | .inherits declaration =>
      some (.statement, "sw_extends " ++ declaration.source)
  | .print expression => some (.expression, expression)
  | .deprecated message =>
      some (.statement, "deprecated " ++ Text.singleQuoted message)
  | .assign targets values =>
      some (.statement,
        "set " ++ Text.listed targets ++ " = " ++ Text.listed values)
  | .types hints => some (.statement, "types" ++ hints.source)

def Leaf.fields : Leaf → List String
  | .text run => [run]
  | .whitespace run => [run]
  | .parent => []
  | .inherits declaration => declaration.template :: declaration.scopes
  | .print expression => [expression]
  | .deprecated message => [message]
  | .assign targets values => targets ++ values
  | .types hints => hints.entries.flatMap fun (key, value) => [key, value]

def Header.fields : Header → List String
  | .block name => [name]
  | .loop item collection => [item, collection]
  | .capture targets _ => targets
  | .autoescape strategy => strategy.toList

namespace Event

def tag? : Event → Option (Delimiter × String)
  | .leaf content => content.tag?
  | .opening header => some (.statement, header.body)
  | .ending scope => some (.statement, scope.endKeyword)

def fields : Event → List String
  | .leaf content => content.fields
  | .opening header => header.fields
  | .ending _ => []

variable {event : Event} {delimiter : Delimiter} {body : String}

theorem source_spelled (tagged : event.tag? = some (delimiter, body)) :
    (delimiter.spelled body).source = event.source := by
  rw [Delimiter.source_spelled]
  cases event with
  | leaf content =>
      cases content <;> cases tagged <;> rfl
  | opening header =>
      cases tagged
      rfl
  | ending scope =>
      cases tagged
      rfl

/-- No string of the tag contains the mark that closes it. -/
def Encloses (event : Event) : Prop :=
  ∀ tag ∈ event.tag?, ∀ field ∈ event.fields, ¬tag.1.closer <:+: field.toList

instance (event : Event) : Decidable event.Encloses :=
  inferInstanceAs (Decidable (∀ tag ∈ event.tag?, _))

end Event

namespace Text

variable {mark : List Char} {c : Char}

/-- Texts that are set off by a character keep a mark without it apart. -/
theorem infix_flatMap_cons_iff {α : Type} {write : α → List Char} (absent : c ∉ mark)
    (nonempty : mark ≠ []) (values : List α) :
    mark <:+: values.flatMap (fun value => c :: write value) ↔
      ∃ value ∈ values, mark <:+: write value := by
  induction values with
  | nil => simpa using nonempty
  | cons value rest ih =>
      rw [List.flatMap_cons, List.cons_append,
        infix_cons_iff_of_not_mem absent nonempty, List.exists_mem_cons_iff, ← ih]
      cases rest with
      | nil => simp [nonempty]
      | cons next others =>
          rw [List.flatMap_cons, List.cons_append, infix_append_cons_iff absent,
            infix_cons_iff_of_not_mem absent nonempty]

end Text

/-- A tag ends where it should when its body does not contain the closing mark. -/
theorem Delimiter.sound_spelled {delimiter : Delimiter} {body : String}
    (apart : ¬delimiter.closer <:+: body.toList) : (delimiter.spelled body).Sound := by
  have noSpace : ' ' ∉ delimiter.closer := by
    cases delimiter <;> decide
  have tooShort : ¬delimiter.closer <:+: delimiter.closer.dropLast := by
    cases delimiter <;> decide
  have spaced : ' ' :: (body.toList ++ [' ']) ++ delimiter.closer.dropLast =
      ' ' :: (body.toList ++ ' ' :: delimiter.closer.dropLast) := by
    simp only [List.cons_append, List.append_assoc, List.nil_append]
  change ¬delimiter.closer <:+: ' ' :: (body.toList ++ [' ']) ++ delimiter.closer.dropLast
  rw [spaced, Text.infix_cons_iff_of_not_mem noSpace delimiter.closer_ne_nil,
    Text.infix_append_cons_iff noSpace, not_or]
  exact ⟨apart, tooShort⟩

theorem Header.infix_body_iff (header : Header) :
    Delimiter.statement.closer <:+: header.body.toList ↔
      ∃ field ∈ header.fields, Delimiter.statement.closer <:+: field.toList := by
  cases header with
  | block name =>
      simp [body, fields, Text.infix_cons_iff_of_not_mem, Delimiter.closer]
  | loop item collection =>
      simp [body, fields, Text.infix_cons_iff_of_not_mem,
        Text.infix_append_cons_iff, Delimiter.closer]
  | capture targets values =>
      simp [body, fields, Text.infix_cons_iff_of_not_mem, Delimiter.closer,
        Text.toList_listed, Text.infix_intercalate_iff]
  | autoescape strategy =>
      cases strategy <;>
        simp [body, fields, Text.infix_cons_iff_of_not_mem, Delimiter.closer]

theorem Inheritance.infix_source_iff (declaration : Inheritance) :
    Delimiter.statement.closer <:+: declaration.source.toList ↔
      ∃ field ∈ declaration.template :: declaration.scopes,
        Delimiter.statement.closer <:+: field.toList := by
  obtain ⟨template, scopes⟩ := declaration
  cases scopes with
  | nil =>
      simp [source, Text.singleQuoted, Text.infix_cons_iff_of_not_mem,
        Text.infix_append_cons_iff, Delimiter.closer]
  | cons scope rest =>
      have tooShort : ¬['%', '}'] <:+: ['}'] := by decide
      simp [source, Text.singleQuoted, Text.infix_cons_iff_of_not_mem,
        Text.infix_append_cons_iff, Delimiter.closer, Text.toList_listed,
        Text.infix_intercalate_iff, tooShort]

namespace TypeHints

def wordOf (entry : String × String) : List Char :=
  entry.1.toList ++ ':' :: entry.2.toList

theorem toList_source (hints : TypeHints) :
    hints.source.toList = hints.entries.flatMap fun entry => ' ' :: wordOf entry := by
  simp [source, String.toList_join, List.flatMap_map, wordOf]

theorem infix_source_iff (hints : TypeHints) :
    Delimiter.statement.closer <:+: hints.source.toList ↔
      ∃ field ∈ hints.entries.flatMap fun (key, value) => [key, value],
        Delimiter.statement.closer <:+: field.toList := by
  have noColon : ':' ∉ Delimiter.statement.closer := by decide
  rw [toList_source, Text.infix_flatMap_cons_iff (by decide) (by decide)]
  simp only [wordOf, Text.infix_append_cons_iff noColon, List.mem_flatMap]
  constructor
  · intro found
    obtain ⟨entry, member, inKey | inValue⟩ := found
    · exact ⟨entry.1, ⟨entry, member, List.mem_cons_self⟩, inKey⟩
    · exact ⟨entry.2, ⟨entry, member, List.mem_cons_of_mem _ List.mem_cons_self⟩, inValue⟩
  · intro found
    obtain ⟨field, ⟨entry, member, isField⟩, inField⟩ := found
    rcases List.mem_pair.mp isField with rfl | rfl
    · exact ⟨entry, member, Or.inl inField⟩
    · exact ⟨entry, member, Or.inr inField⟩

end TypeHints

theorem Event.infix_body_iff {event : Event} {delimiter : Delimiter}
    {body : String} (tagged : event.tag? = some (delimiter, body)) :
    delimiter.closer <:+: body.toList ↔
      ∃ field ∈ event.fields, delimiter.closer <:+: field.toList := by
  cases event with
  | ending scope =>
      cases tagged
      cases scope <;> decide
  | opening header =>
      cases tagged
      exact header.infix_body_iff
  | leaf content =>
      cases content with
      | text run => cases tagged
      | whitespace run => cases tagged
      | parent =>
          cases tagged
          decide
      | inherits declaration =>
          cases tagged
          rw [String.toList_append,
            Text.infix_append_iff_of_disjoint (by simp [Delimiter.closer]) (by decide)]
          exact declaration.infix_source_iff
      | print expression =>
          cases tagged
          simp [fields, Leaf.fields]
      | deprecated message =>
          cases tagged
          simp [fields, Leaf.fields, Text.singleQuoted,
            Text.infix_cons_iff_of_not_mem, Text.infix_append_cons_iff,
            Delimiter.closer]
      | assign targets values =>
          cases tagged
          simp [fields, Leaf.fields, Text.infix_cons_iff_of_not_mem,
            Text.infix_append_cons_iff, Delimiter.closer, Text.toList_listed,
            Text.infix_intercalate_iff, or_and_right, exists_or]
      | types hints =>
          cases tagged
          rw [String.toList_append,
            Text.infix_append_iff_of_disjoint (by simp [Delimiter.closer]) (by decide)]
          exact hints.infix_source_iff

open Text

theorem Template.source_singleton (node : Node) : source [node] = node.source := by
  rw [source_cons, source_nil, String.append_empty]

theorem Piece.cut_enclose {delimiter : Delimiter} {body : String}
    (apart : ¬delimiter.closer <:+: body.toList) :
    cut (delimiter.enclose body).toList = [delimiter.spelled body] := by
  have segmented : Segmented [delimiter.spelled body] :=
    segmented_cons_iff.mpr ⟨Delimiter.sound_spelled apart, by simp, segmented_nil⟩
  have alone := cut_flatMap_source segmented
  rwa [List.flatMap_singleton, Delimiter.source_spelled] at alone

theorem Keyword.infix_append_iff (keyword : Keyword) (arguments : String) :
    Delimiter.statement.closer <:+:
        (keyword.spelling ++ " " ++ arguments).toList ↔
      Delimiter.statement.closer <:+: arguments.toList := by
  have absent : ∀ c ∈ (keyword.spelling ++ " ").toList,
      c ∉ Delimiter.statement.closer := by
    cases keyword with
    | closing scope =>
        cases scope <;> simp [Keyword.spelling, Scope.endKeyword, Delimiter.closer]
    | _ => simp [Keyword.spelling, Delimiter.closer]
  rw [String.toList_append, infix_append_iff_of_disjoint absent (by decide)]

theorem Template.parse_enclose {keyword : Keyword} {word arguments : String}
    {content : Leaf} (spelled : word = keyword.spelling ++ " ")
    (apart : ¬Delimiter.statement.closer <:+: arguments.toList)
    (reads : Tag.ofKeyword (trim arguments.toList) keyword = .ok (.leaf content)) :
    parse (Delimiter.statement.enclose (word ++ arguments)) = .ok [.leaf content] := by
  subst spelled
  have alone := Piece.cut_enclose ((keyword.infix_append_iff arguments).not.mpr apart)
  have body : (keyword.spelling ++ " " ++ arguments).toList =
      keyword.spelling.toList ++ ' ' :: arguments.toList := by
    simp only [String.toList_append, List.append_assoc]
    rfl
  have means : (Delimiter.statement.spelled
      (keyword.spelling ++ " " ++ arguments)).token? = some (.leaf content) := by
    rw [Delimiter.spelled, Piece.token?, trim_spaced, body, Tag.ofBody_trim_cons, reads]
    rfl
  rw [parse_eq_ok_iff_events, alone, Piece.events?_cons means]
  rfl

end TemplateTree
