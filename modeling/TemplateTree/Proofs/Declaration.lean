import TemplateTree.Proofs.Spelling
import TemplateTree.Proofs.Tag.Inheritance

namespace TemplateTree

/-! The canonical tag is short without scopes and an object with scopes, and the two are read
by different rules: a path ends at the first blank, and the key of the scopes is looked for in
the whole object, also in the template. -/

open Text

namespace Inheritance

variable {declaration : Inheritance} {template array object before after : List Char}

/-- The entries of an array are scopes among blanks and quotes; the others hold nothing
else. -/
def ListsScopes (array : List Char) (scopes : List String) : Prop :=
  ∃ entries : List (List Char), (∀ entry ∈ entries, ',' ∉ entry) ∧
    array = [','].intercalate entries ∧
      scopes = ((entries.map cleanScope).filter fun entry => !entry.isEmpty).map String.ofList

/-- The first key of the scopes in a text has an array of these scopes behind it. -/
def HoldsScopes (text : List Char) (scopes : List String) : Prop :=
  ∃ before gap array after,
    text = before ++ scopesKey ++ (gap ++ '[' :: (array ++ ']' :: after)) ∧
      ¬scopesKey <:+: before ++ scopesKey.dropLast ∧ (∀ c ∈ gap, isBlank c = true) ∧
      ']' ∉ array ∧ ListsScopes array scopes

/-- A path has no blanks, and where the template of an object holds the key of the
scopes, the same scopes follow it there. -/
def Spellable (declaration : Inheritance) : Prop :=
  (declaration.scopes = [] → Uniform false declaration.template.toList) ∧
    (declaration.scopes ≠ [] → scopesKey <:+: declaration.template.toList →
      HoldsScopes declaration.template.toList declaration.scopes)

theorem listsScopes_iff {scopes : List String} :
    ListsScopes array scopes ↔ (items cleanScope array).map String.ofList = scopes := by
  constructor
  · rintro ⟨entries, noComma, rfl, rfl⟩
    cases entries with
    | nil => rfl
    | cons entry rest =>
        rw [items, List.splitOn_intercalate _ noComma (List.cons_ne_nil _ _)]
  · rintro rfl
    exact ⟨array.splitOn ',', fun _ => not_mem_of_mem_splitOn,
      (List.intercalate_splitOn ',').symm, rfl⟩

theorem readScopes_eq_ok_iff {scopes : List String} (named : scopes ≠ []) :
    readScopes object = .ok scopes ↔ HoldsScopes object scopes := by
  constructor
  · intro reads
    rw [readScopes] at reads
    split at reads
    · exact absurd (Except.ok.inj reads).symm named
    · rename_i before rest found
      obtain ⟨whole, first⟩ := (cut?_eq_some_iff (by decide)).mp found
      split at reads
      · rename_i array opens
        split at reads
        · cases reads
        · rename_i names after closes
          have noBracket := not_infix_of_cut? (by simp) closes
          rw [List.singleton_infix_iff] at noBracket
          have spaced : rest = rest.takeWhile isBlank ++ '[' :: array := by
            rw [← opens, trimStart, List.takeWhile_append_dropWhile]
          refine ⟨before, rest.takeWhile isBlank, names, after, ?_, first,
            fun _ => List.mem_takeWhile_imp, noBracket,
            listsScopes_iff.mpr (Except.ok.inj reads)⟩
          calc
            object = before ++ scopesKey ++ rest := whole
            _ = before ++ scopesKey ++ (rest.takeWhile isBlank ++ '[' :: array) := by
              rw [← spaced]
            _ = _ := by
              rw [eq_append_of_cut? closes, List.append_assoc names, List.singleton_append]
      · exact absurd (Except.ok.inj reads).symm named
  · rintro ⟨before, gap, array, after, rfl, first, blank, noBracket, lists⟩
    rw [readScopes_of_first first blank noBracket, listsScopes_iff.mp lists]

theorem spellable_iff :
    declaration.Spellable ↔
      (declaration.scopes = [] → Uniform false declaration.template.toList) ∧
        (declaration.scopes ≠ [] → scopesKey <:+: declaration.template.toList →
          readScopes declaration.template.toList = .ok declaration.scopes) :=
  and_congr_right fun _ => forall_congr' fun named => imp_congr_right fun _ =>
    (readScopes_eq_ok_iff named).symm

instance (declaration : Inheritance) : Decidable declaration.Spellable :=
  decidable_of_iff' _ spellable_iff

theorem readPath_quoted_eq_iff (stripped : Stripped isQuote template) :
    readPath ('\'' :: (template ++ ['\''])) = .ok ⟨String.ofList template, []⟩ ↔
      Uniform false template := by
  constructor
  · intro reads
    rw [readPath] at reads
    split at reads
    · cases reads
    · rename_i path rest found
      have same : stripQuotes path = template :=
        String.ofList_injective (by simpa using reads)
      have isWord := (isWord_of_words_eq_cons found).1
      intro c member
      rw [← same] at member
      exact isWord.2 c ((strip_isInfix isQuote path).subset member)
  · exact readPath_quoted stripped

theorem readScopes_of_noArray {rest : List Char}
    (found : cut? scopesKey object = some (before, rest))
    (noArray : ∀ array, trimStart rest ≠ '[' :: array) : readScopes object = .ok [] := by
  have spelled : cut? "scopes:".toList object = some (before, rest) := found
  simp only [readScopes, spelled]

theorem readScopes_of_unclosed {rest : List Char}
    (found : cut? scopesKey object = some (before, rest))
    (opens : trimStart rest = '[' :: array) (unclosed : cut? [']'] array = none) :
    readScopes object = .error .missingScopesBracket := by
  have spelled : cut? "scopes:".toList object = some (before, rest) := found
  rw [readScopes, spelled]
  simp only [opens, unclosed]

/-- What is written behind the template, from its quote on. -/
def behindTemplate (array : List Char) : List Char :=
  '\'' :: ',' :: ' ' :: (scopesKey ++ ' ' :: '[' :: (array ++ [']']))

/-- A key in the template stands in front of the key that was written. -/
theorem cut?_scopesKey_written (found : cut? scopesKey template = some (before, after))
    (array : List Char) :
    cut? scopesKey (written template array) =
      some (templateKey ++ ' ' :: '\'' :: before, after ++ behindTemplate array) := by
  obtain ⟨rfl, first⟩ := (cut?_eq_some_iff (by decide)).mp found
  refine (cut?_eq_some_iff (by decide)).mpr ⟨?_, ?_⟩
  · simp only [written, behindTemplate, List.append_assoc, List.cons_append]
  · have apart : templateKey ++ ' ' :: '\'' :: before ++ scopesKey.dropLast =
        (templateKey ++ [' ']) ++ '\'' :: (before ++ scopesKey.dropLast) := by
      simp only [List.append_assoc, List.cons_append, List.nil_append]
    rw [apart, infix_append_cons_iff (by decide), not_or]
    exact ⟨by decide, first⟩

theorem count_cleanScope (part : List Char) :
    (cleanScope part).count '[' = part.count '[' := by
  rw [cleanScope, stripQuotes, count_strip (by decide), trim, count_strip (by decide)]

/-- Reading scopes loses no bracket, so a text with more of them has other scopes. -/
theorem items_ne_of_count_lt {left right : List Char}
    (fewer : right.count '[' < left.count '[') :
    (items cleanScope left).map String.ofList ≠
      (items cleanScope right).map String.ofList := by
  intro same
  have sameParts := List.map_injective_iff.mpr (fun _ _ => String.ofList_injective) same
  have counts := congrArg (fun parts => parts.flatten.count '[') sameParts
  simp only [count_flatten_items (by decide) count_cleanScope] at counts
  omega

theorem trimStart_append_behindTemplate (s array : List Char) :
    trimStart (s ++ behindTemplate array) = trimStart s ++ behindTemplate array :=
  dropWhile_append_cons (by decide) s _

/-- An array that opens in the template and ends behind it holds the array that was
written, with its bracket. -/
theorem readScopes_ne_of_unclosed {rest inner : List Char}
    (found : cut? scopesKey object = some (before, rest))
    (opens : trimStart rest = '[' :: (inner ++ behindTemplate array))
    (unclosed : ']' ∉ inner) (noBracket : ']' ∉ array) :
    readScopes object ≠ .ok ((items cleanScope array).map String.ofList) := by
  obtain ⟨front, notInFront, split⟩ : ∃ front, ']' ∉ front ∧
      inner ++ behindTemplate array = front ++ '[' :: array ++ [']'] := by
    refine ⟨inner ++ '\'' :: ',' :: ' ' :: (scopesKey ++ [' ']), ?_, ?_⟩
    · rw [List.mem_append, not_or]
      exact ⟨unclosed, by decide⟩
    · simp only [behindTemplate, List.append_assoc, List.cons_append, List.nil_append]
  have absent : ']' ∉ front ++ '[' :: array := by
    rw [List.mem_append, not_or]
    exact ⟨notInFront, List.not_mem_cons_of_ne_of_not_mem (by decide) noBracket⟩
  have more : array.count '[' < (front ++ '[' :: array).count '[' := by
    rw [List.count_append, List.count_cons_self]
    omega
  rw [split] at opens
  rw [readScopes_of_cut? found opens (cut?_singleton absent)]
  intro same
  exact items_ne_of_count_lt more (Except.ok.inj same)

/-- When the template holds the key of the scopes, what follows it there decides. -/
theorem readScopes_written_eq_iff (held : scopesKey <:+: template) (noBracket : ']' ∉ array) :
    readScopes (written template array) = .ok ((items cleanScope array).map String.ofList) ↔
      readScopes template = .ok ((items cleanScope array).map String.ofList) := by
  cases found : cut? scopesKey template with
  | none => exact absurd held (cut?_eq_none_iff.mp found)
  | some parts =>
      obtain ⟨before, after⟩ := parts
      have inWhole := cut?_scopesKey_written found array
      have meets := trimStart_append_behindTemplate after array
      -- What is written behind the template starts no array, but it can end one.
      cases starts : trimStart after with
      | nil =>
          rw [starts] at meets
          rw [readScopes_of_noArray found (by simp [starts]),
            readScopes_of_noArray inWhole (by rw [meets]; nofun)]
      | cons c inner =>
          rw [starts] at meets
          by_cases opens : c = '['
          · subst opens
            cases closes : cut? [']'] inner with
            | some names =>
                rw [readScopes_of_cut? found starts closes,
                  readScopes_of_cut? inWhole meets (cut?_append (by decide) closes _)]
            | none =>
                rw [readScopes_of_unclosed found starts closes]
                rw [cut?_eq_none_iff, List.singleton_infix_iff] at closes
                exact iff_of_false
                  (readScopes_ne_of_unclosed inWhole meets closes noBracket) nofun
          · rw [readScopes_of_noArray found (by simp [starts, opens]),
              readScopes_of_noArray inWhole (by simp [meets, opens])]

/-- What is written for a declaration that was read is read as this declaration exactly
when the canonical tag can spell it. -/
theorem read_source_eq_iff (wellFormed : declaration.WellFormed) :
    read (trim declaration.source.toList) = .ok declaration ↔ declaration.Spellable := by
  obtain ⟨stripped, object, names⟩ := wellFormed
  obtain ⟨template, scopes⟩ := declaration
  by_cases short : scopes = []
  · subst short
    have path := readPath_quoted_eq_iff stripped
    rw [String.ofList_toList] at path
    rw [read_source_path, path, spellable_iff]
    simp
  · have noBracket := bracket_not_mem_listed names
    have mapped (result : Except Error (List String)) :
        (result.map fun scopes => (⟨template, scopes⟩ : Inheritance)) =
            .ok ⟨template, scopes⟩ ↔ result = .ok scopes := by
      cases result <;> simp [Except.map]
    rw [spellable_iff, read_source_object template short, readObject_written_eq_map stripped (object short),
      String.ofList_toList, mapped]
    by_cases held : scopesKey <:+: template.toList
    · have decided := readScopes_written_eq_iff held noBracket
      rw [items_singleQuoted names] at decided
      rw [decided]
      constructor
      · exact fun reads => ⟨fun none => absurd none short, fun _ _ => reads⟩
      · exact fun spellable => spellable.2 short held
    · have asWritten := readScopes_written held noBracket
      rw [items_singleQuoted names] at asWritten
      exact iff_of_true asWritten
        ⟨fun none => absurd none short, fun _ inTemplate => absurd inTemplate held⟩

end Inheritance

namespace Template

/-- The canonical tag of a declaration that was read is read as one declaration.  It is the
same declaration exactly when the canonical tag can spell it. -/
theorem parse_source_inherits_iff {arguments : List Char} {declaration : Inheritance}
    (reads : Inheritance.read arguments = .ok declaration)
    (apart : ¬Delimiter.statement.closer <:+: arguments) :
    (∃ again, parse (source [.leaf (.inherits declaration)]) =
        .ok [.leaf (.inherits again)]) ∧
      (parse (source [.leaf (.inherits declaration)]) =
          .ok [.leaf (.inherits declaration)] ↔ declaration.Spellable) := by
  obtain ⟨wellFormed, parts⟩ := Inheritance.wellFormed_of_read reads
  have clear : ¬Delimiter.statement.closer <:+: declaration.source.toList := by
    rw [Inheritance.infix_source_iff]
    intro inField
    obtain ⟨field, isField, inside⟩ := inField
    exact apart (inside.trans (parts field isField))
  obtain ⟨again, readAgain⟩ := declaration.exists_read_source
  have understood : Tag.ofKeyword (trim declaration.source.toList) .inherits =
      .ok (.leaf (.inherits again)) := by
    rw [Tag.ofKeyword, readAgain]
    rfl
  have parsed : parse (Delimiter.statement.enclose ("sw_extends " ++ declaration.source)) =
      .ok [.leaf (.inherits again)] := parse_enclose rfl clear understood
  rw [source_singleton, Node.source, Leaf.source, parsed,
    ← Inheritance.read_source_eq_iff wellFormed, readAgain]
  exact ⟨⟨again, rfl⟩, by simp⟩

/-- A template that holds the key of the scopes, with the scopes of the declaration. -/
theorem parse_source_inherits_of_held_key :
    Inheritance.read "\x7bscopes:[\"a\"] , template: 'scopes:[a]'\x7d".toList =
        .ok ⟨"scopes:[a]", ["a"]⟩ ∧
      ¬Delimiter.statement.closer <:+:
        "\x7bscopes:[\"a\"] , template: 'scopes:[a]'\x7d".toList ∧
      parse (source [.leaf (.inherits ⟨"scopes:[a]", ["a"]⟩)]) =
        .ok [.leaf (.inherits ⟨"scopes:[a]", ["a"]⟩)] := by
  have reads : Inheritance.read "\x7bscopes:[\"a\"] , template: 'scopes:[a]'\x7d".toList =
      .ok ⟨"scopes:[a]", ["a"]⟩ := by decide +kernel
  have apart : ¬Delimiter.statement.closer <:+:
      "\x7bscopes:[\"a\"] , template: 'scopes:[a]'\x7d".toList := by decide
  exact ⟨reads, apart, (parse_source_inherits_iff reads apart).2.mpr (by decide +kernel)⟩

/-- A template with a blank is cut off at the blank when no scopes are named. -/
theorem not_forall_parse_source_inherits :
    ¬∀ arguments declaration, Inheritance.read arguments = .ok declaration →
      ¬Delimiter.statement.closer <:+: arguments →
        parse (source [.leaf (.inherits declaration)]) =
          .ok [.leaf (.inherits declaration)] := by
  intro rereads
  have reads : Inheritance.read "\x7b template: 'a b.twig' \x7d".toList =
      .ok ⟨"a b.twig", []⟩ := by decide +kernel
  have again : parse (source [.leaf (.inherits ⟨"a b.twig", []⟩)]) =
      .ok [.leaf (.inherits ⟨"a", []⟩)] :=
    Outcome.toOption_eq_some_iff.mp (by decide +kernel)
  have same := rereads _ _ reads (by decide)
  rw [again] at same
  simp at same

/-- The key of the scopes in a template hides the scopes. -/
example : parse (source [.leaf (.inherits ⟨"scopes:", ["a"]⟩)]) =
    .ok [.leaf (.inherits ⟨"scopes:", []⟩)] :=
  Outcome.toOption_eq_some_iff.mp (by decide +kernel)

end Template

end TemplateTree
