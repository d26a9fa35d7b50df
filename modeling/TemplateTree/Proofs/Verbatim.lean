import TemplateTree.Proofs.Spelling
import TemplateTree.Proofs.Tag.Set
import TemplateTree.Proofs.Text.Quotes

namespace TemplateTree

open Text

theorem Delimiter.enclose_inj {delimiter : Delimiter} {left right : String} :
    delimiter.enclose left = delimiter.enclose right ↔ left = right := by
  simp only [enclose, String.append_left_inj, String.append_right_inj]

namespace Template

/-- A message between single quotes loses the quotes at its own ends, and it is kept
and written again exactly when it has none there. -/
theorem parse_deprecated {message : String}
    (apart : ¬Delimiter.statement.closer <:+: message.toList) :
    let template := Delimiter.statement.enclose ("deprecated " ++ singleQuoted message)
    parse template =
        .ok [.leaf (.deprecated (String.ofList (stripQuotes message.toList)))] ∧
      (parse template = .ok [.leaf (.deprecated message)] ↔
        Stripped isQuote message.toList) ∧
      ((parse template).map source = .ok template ↔ Stripped isQuote message.toList) := by
  intro template
  have clear : ¬Delimiter.statement.closer <:+: (singleQuoted message).toList := by
    rw [toList_singleQuoted, infix_cons_iff_of_not_mem (by decide) (by decide),
      infix_append_cons_iff (by decide), List.infix_nil, not_or]
    exact ⟨apart, by decide⟩
  have understood : Tag.ofKeyword (trim (singleQuoted message).toList) .deprecated =
      .ok (.leaf (.deprecated (String.ofList (stripQuotes message.toList)))) := by
    rw [toList_singleQuoted, trim_quoted, Tag.ofKeyword, if_neg (by simp), Tag.deprecated,
      stripQuotes_singleQuotes]
  have parsed : parse template =
      .ok [.leaf (.deprecated (String.ofList (stripQuotes message.toList)))] :=
    parse_enclose rfl clear understood
  have kept : String.ofList (stripQuotes message.toList) = message ↔
      Stripped isQuote message.toList := by
    rw [← strip_eq_self_iff, ← stripQuotes, ← String.toList_inj, String.toList_ofList]
  refine ⟨parsed, ?_, ?_⟩
  · rw [parsed, ← kept]
    simp
  · rw [parsed, ← kept, Except.map, source_singleton, Node.source, Leaf.source,
      Except.ok.injEq, Delimiter.enclose_inj, String.append_right_inj, singleQuoted_inj]

/-- Quotes inside a message, and blanks at its ends. -/
theorem parse_deprecated_of_spaced :
    ¬Delimiter.statement.closer <:+: "\tuse \"b.twig\" ".toList ∧
      parse "\x7b% deprecated '\tuse \"b.twig\" ' %\x7d" =
        .ok [.leaf (.deprecated "\tuse \"b.twig\" ")] ∧
      (parse "\x7b% deprecated '\tuse \"b.twig\" ' %\x7d").map source =
        .ok "\x7b% deprecated '\tuse \"b.twig\" ' %\x7d" := by
  have apart : ¬Delimiter.statement.closer <:+: "\tuse \"b.twig\" ".toList := by decide
  have stripped : Stripped isQuote "\tuse \"b.twig\" ".toList := by decide
  obtain ⟨_, kept, again⟩ := parse_deprecated apart
  exact ⟨apart, kept.mpr stripped, again.mpr stripped⟩

/-- Double quotes around a message are lost with the single quotes. -/
theorem not_forall_parse_deprecated :
    ¬∀ message : String, '\'' ∉ message.toList →
      ¬Delimiter.statement.closer <:+: message.toList →
        parse (Delimiter.statement.enclose ("deprecated " ++ singleQuoted message)) =
          .ok [.leaf (.deprecated message)] := by
  intro keeps
  have parsed : parse (Delimiter.statement.enclose
      ("deprecated " ++ singleQuoted "\"x\"")) = .ok [.leaf (.deprecated "x")] :=
    Outcome.toOption_eq_some_iff.mp (by decide +kernel)
  have same := keeps "\"x\"" (by decide) (by decide)
  rw [parsed] at same
  simp at same

/-- An expression is read as a comma list, and it is written again exactly when it is
spelled as such a list is. -/
theorem parse_assignment {targets : List String} {expression : String}
    (areTargets : ∀ target ∈ targets, Tag.IsTarget target.toList)
    (apart : ¬Delimiter.statement.closer <:+:
      (listed targets ++ " = " ++ expression).toList) :
    let template := Delimiter.statement.enclose
      ("set " ++ listed targets ++ " = " ++ expression)
    parse template =
        .ok [.leaf (.assign targets
          ((items trim expression.toList).map String.ofList))] ∧
      ((parse template).map source = .ok template ↔
        ∃ values : List String, (∀ value ∈ values, IsItem value.toList) ∧
          expression = listed values) := by
  intro template
  have understood : Tag.ofKeyword
      (trim (listed targets ++ " = " ++ expression).toList) .set =
        .ok (.leaf (.assign targets ((items trim expression.toList).map String.ofList))) :=
    Tag.ofKeyword_set (Tag.set_trim_items areTargets expression) (by simp)
  have parsed : parse template = .ok [.leaf (.assign targets
      ((items trim expression.toList).map String.ofList))] := by
    have joined : "set " ++ listed targets ++ " = " ++ expression =
        "set " ++ (listed targets ++ " = " ++ expression) := by
      simp only [String.append_assoc]
    simp only [template, joined]
    exact parse_enclose rfl apart understood
  -- Whatever is read is written as a list, so only a list can come back unchanged.
  have written : (parse template).map source = .ok template ↔
      listed ((items trim expression.toList).map String.ofList) = expression := by
    rw [parsed, Except.map, source_singleton, Node.source, Leaf.source,
      Except.ok.injEq, Delimiter.enclose_inj, String.append_right_inj]
  refine ⟨parsed, written.trans ⟨fun same => ?_, ?_⟩⟩
  · exact ⟨_, fun value member => (Tag.partsOf_items _ value member).1, same.symm⟩
  · rintro ⟨values, areItems, rfl⟩
    rw [items_listed areItems]

/-- A list that was written as one may hold brackets, and quotes around no comma. -/
theorem parse_assignment_of_call :
    (∀ target ∈ ["a", "b"], Tag.IsTarget target.toList) ∧
      ¬Delimiter.statement.closer <:+: (listed ["a", "b"] ++ " = " ++ "f('x', [y, z])").toList ∧
      (parse "\x7b% set a, b = f('x', [y, z]) %\x7d").map source =
        .ok "\x7b% set a, b = f('x', [y, z]) %\x7d" := by
  have areTargets : ∀ target ∈ ["a", "b"], Tag.IsTarget target.toList := by decide
  have apart : ¬Delimiter.statement.closer <:+:
      (listed ["a", "b"] ++ " = " ++ "f('x', [y, z])").toList := by decide
  have values : ∃ values : List String, (∀ value ∈ values, IsItem value.toList) ∧
      "f('x', [y, z])" = listed values :=
    ⟨["f('x'", "[y", "z])"], by decide, by decide⟩
  exact ⟨areTargets, apart, (parse_assignment areTargets apart).2.mpr values⟩

/-- A comma in a string literal gets a blank behind it. -/
theorem not_forall_parse_assignment :
    ¬∀ name expression : String, IsWord name.toList → ',' ∉ name.toList →
      '=' ∉ name.toList → expression ≠ "" → Stripped isBlank expression.toList →
        ¬Delimiter.statement.closer <:+: expression.toList →
          (parse (Delimiter.statement.enclose
              ("set " ++ name ++ " = " ++ expression))).map source =
            .ok (Delimiter.statement.enclose ("set " ++ name ++ " = " ++ expression)) := by
  intro keeps
  have parsed : parse (Delimiter.statement.enclose
      ("set " ++ "v" ++ " = " ++ "'a,b'")) = .ok [.leaf (.assign ["v"] ["'a", "b'"])] :=
    Outcome.toOption_eq_some_iff.mp (by decide +kernel)
  have same := keeps "v" "'a,b'" (by decide) (by decide) (by decide) (by decide)
    (by decide) (by decide)
  rw [parsed] at same
  have written := Except.ok.inj same
  revert written
  decide +kernel

end Template

end TemplateTree
