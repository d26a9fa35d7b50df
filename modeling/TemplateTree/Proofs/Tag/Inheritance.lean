import TemplateTree.Proofs.Spelling
import TemplateTree.Proofs.Tag.Keyword
import TemplateTree.Proofs.Text.Quotes
import TemplateTree.Proofs.Text.Words

namespace TemplateTree.Inheritance

open Text

variable {declaration : Inheritance} {template array arguments object : List Char}

/-- The name of a scope in the array of an object. -/
def IsScopeName (s : List Char) : Prop :=
  s ≠ [] ∧ Stripped isQuote s ∧ ',' ∉ s ∧ ']' ∉ s

instance (s : List Char) : Decidable (IsScopeName s) :=
  inferInstanceAs (Decidable (_ ∧ _ ∧ _ ∧ _))

/-- The arguments that spell the declaration are read as this declaration. -/
@[mk_iff]
structure Canonical (declaration : Inheritance) : Prop where
  template : Stripped isQuote declaration.template.toList
  path : declaration.scopes = [] → Uniform false declaration.template.toList
  object : declaration.scopes ≠ [] →
    ',' ∉ declaration.template.toList ∧
      ¬"scopes:".toList <:+: declaration.template.toList
  scopes : ∀ scope ∈ declaration.scopes, IsScopeName scope.toList

instance (declaration : Inheritance) : Decidable declaration.Canonical :=
  decidable_of_iff' _ (canonical_iff declaration)

/-- A scope is read without the blanks and then without the quotes around it. -/
def cleanScope (scope : List Char) : List Char := stripQuotes (trim scope)

theorem cleanScope_trim (s : List Char) : cleanScope (trim s) = cleanScope s := by
  rw [cleanScope, trim_trim, cleanScope]

theorem cleanScope_quoted {quote : Char} (isMark : isQuote quote = true)
    (stripped : Stripped isQuote template) :
    cleanScope (quote :: (template ++ [quote])) = template := by
  rw [cleanScope, trim_enclosed isMark, stripQuotes_enclosed isMark, stripQuotes,
    strip_of_stripped stripped]

theorem readPath_quoted (stripped : Stripped isQuote template)
    (noBlank : Uniform false template) :
    readPath ('\'' :: (template ++ ['\''])) = .ok ⟨String.ofList template, []⟩ := by
  have isWord : IsWord ('\'' :: (template ++ ['\''])) :=
    ⟨List.cons_ne_nil _ _, uniform_quoted noBlank⟩
  rw [readPath, words_of_isWord isWord]
  simp only [stripQuotes_quoted stripped]

def templateKey : List Char := "template:".toList

def scopesKey : List Char := "scopes:".toList

theorem readObject_of_cut? {before rest : List Char}
    (found : cut? templateKey object = some (before, rest)) :
    readObject object = (readScopes object).map fun scopes =>
      ⟨String.ofList (stripQuotes (trim (rest.takeWhile (· != ',')))), scopes⟩ := by
  have spelled : cut? "template:".toList object = some (before, rest) := found
  rw [readObject, spelled]

theorem readScopes_of_cut? {before rest names after : List Char}
    (found : cut? scopesKey object = some (before, rest))
    (opens : trimStart rest = '[' :: array)
    (closes : cut? [']'] array = some (names, after)) :
    readScopes object = .ok ((items cleanScope names).map String.ofList) := by
  have spelled : cut? "scopes:".toList object = some (before, rest) := found
  rw [readScopes, spelled]
  simp only [opens, closes]
  rfl

section First

variable {left right gap value : List Char}

/-- The scopes stand in the brackets behind the first key of the scopes. -/
theorem readScopes_of_first (first : ¬scopesKey <:+: left ++ scopesKey.dropLast)
    (blank : ∀ c ∈ gap, isBlank c = true) (noBracket : ']' ∉ array) :
    readScopes (left ++ scopesKey ++ (gap ++ '[' :: (array ++ ']' :: right))) =
      .ok ((items cleanScope array).map String.ofList) := by
  have found := (cut?_eq_some_iff (by decide)).mpr
    ⟨Eq.refl (left ++ scopesKey ++ (gap ++ '[' :: (array ++ ']' :: right))), first⟩
  have opens : trimStart (gap ++ '[' :: (array ++ ']' :: right)) =
      '[' :: (array ++ ']' :: right) := by
    rw [trimStart, List.dropWhile_append_of_pos blank]
    rfl
  exact readScopes_of_cut? found opens (cut?_singleton noBracket)

/-- The template stands between the first key of the template and the next comma. -/
theorem readObject_of_first (first : ¬templateKey <:+: left ++ templateKey.dropLast)
    (noComma : ',' ∉ value) (ends : ∀ c ∈ right.head?, c = ',') :
    readObject (left ++ templateKey ++ (value ++ right)) =
      (readScopes (left ++ templateKey ++ (value ++ right))).map fun scopes =>
        ⟨String.ofList (cleanScope value), scopes⟩ := by
  have found := (cut?_eq_some_iff (by decide)).mpr
    ⟨Eq.refl (left ++ templateKey ++ (value ++ right)), first⟩
  have kept : ∀ c ∈ value, (c != ',') = true := fun c member =>
    bne_iff_ne.mpr fun same => noComma (same ▸ member)
  have nothing : right.takeWhile (· != ',') = [] := by
    cases right with
    | nil => rfl
    | cons c rest =>
        rw [ends c rfl]
        rfl
  rw [readObject_of_cut? found, List.takeWhile_append_of_pos kept, nothing, List.append_nil,
    cleanScope]

end First

def written (template array : List Char) : List Char :=
  templateKey ++ ' ' :: '\'' :: (template ++ '\'' :: ',' :: ' ' ::
    (scopesKey ++ ' ' :: '[' :: (array ++ [']'])))

theorem getLast?_written (template array : List Char) :
    (written template array).getLast? = some ']' := by
  have ends : written template array = (templateKey ++ ' ' :: '\'' ::
      (template ++ '\'' :: ',' :: ' ' :: (scopesKey ++ ' ' :: '[' :: array))) ++
        [']'] := by
    simp only [written, List.append_assoc, List.cons_append]
  rw [ends, List.getLast?_concat]

theorem stripped_written (template array : List Char) :
    Stripped isBlank (written template array) := by
  constructor
  · intro c first
    have isFirst : (written template array).head? = some 't' := rfl
    rw [isFirst] at first
    cases first
    decide
  · intro c last
    rw [getLast?_written] at last
    cases last
    decide

theorem cut?_templateKey_written (template array : List Char) :
    cut? templateKey (written template array) =
      some ([], ' ' :: '\'' :: (template ++ '\'' :: ',' :: ' ' ::
        (scopesKey ++ ' ' :: '[' :: (array ++ [']'])))) :=
  cut?_append_left (by decide) _

theorem readScopes_written (noMark : ¬scopesKey <:+: template)
    (noBracket : ']' ∉ array) :
    readScopes (written template array) =
      .ok ((items cleanScope array).map String.ofList) := by
  have first : ¬scopesKey <:+: (templateKey ++ ' ' :: '\'' ::
      (template ++ '\'' :: ',' :: [' '])) ++ scopesKey.dropLast := by
    have apart : (templateKey ++ ' ' :: '\'' ::
        (template ++ '\'' :: ',' :: [' '])) ++ scopesKey.dropLast =
        (templateKey ++ [' ']) ++ '\'' :: (template ++ '\'' ::
          (',' :: ' ' :: scopesKey.dropLast)) := by
      simp only [List.append_assoc, List.cons_append, List.nil_append]
    rw [apart, infix_append_cons_iff (by decide), infix_append_cons_iff (by decide),
      infix_append_cons_iff (by decide)]
    simp only [not_or]
    exact ⟨⟨by decide, by decide⟩, noMark, by decide⟩
  have whole : written template array =
      (templateKey ++ ' ' :: '\'' :: (template ++ '\'' :: ',' :: [' '])) ++ scopesKey ++
        ([' '] ++ '[' :: (array ++ ']' :: [])) := by
    simp only [written, List.append_assoc, List.cons_append, List.nil_append]
  rw [whole, readScopes_of_first first isBlank_space noBracket]

/-- The template of an object stands between its key and the first comma. -/
theorem readObject_written_eq_map (stripped : Stripped isQuote template)
    (noComma : ',' ∉ template) (array : List Char) :
    readObject (written template array) =
      (readScopes (written template array)).map fun scopes =>
        ⟨String.ofList template, scopes⟩ := by
  have quoted : cleanScope ([' '] ++ '\'' :: (template ++ ['\''])) = template := by
    rw [clean_append_left cleanScope_trim isBlank_space, cleanScope_quoted rfl stripped]
  have absent : ',' ∉ [' '] ++ '\'' :: (template ++ ['\'']) := by simpa using noComma
  have whole : written template array =
      [] ++ templateKey ++ (([' '] ++ '\'' :: (template ++ ['\''])) ++
        ',' :: ' ' :: (scopesKey ++ ' ' :: '[' :: (array ++ [']']))) := by
    simp only [written, List.append_assoc, List.cons_append, List.nil_append]
  rw [whole, readObject_of_first (by decide) absent (by simp), quoted]

theorem readObject_written (stripped : Stripped isQuote template)
    (noComma : ',' ∉ template) (noMark : ¬scopesKey <:+: template)
    (noBracket : ']' ∉ array) :
    readObject (written template array) =
      .ok ⟨String.ofList template, (items cleanScope array).map String.ofList⟩ := by
  rw [readObject_written_eq_map stripped noComma, readScopes_written noMark noBracket]
  rfl

theorem read_braced (object : List Char) :
    read (trim ('{' :: (object ++ ['}']))) = readObject (trim object) := by
  have stripped : Stripped isBlank ('{' :: (object ++ ['}'])) := by
    constructor
    · intro c first
      cases first
      decide
    · intro c last
      rw [← List.cons_append, List.getLast?_concat] at last
      cases last
      decide
  have same : trim ('{' :: (object ++ ['}'])) = '{' :: (object ++ ['}']) :=
    strip_of_stripped stripped
  rw [same, read, same]
  simp only [beforeLast?_append_cons List.not_mem_nil]

theorem items_singleQuoted {scopes : List String}
    (names : ∀ scope ∈ scopes, IsScopeName scope.toList) :
    (items cleanScope (listed (scopes.map singleQuoted)).toList).map String.ofList =
      scopes := by
  have cleaned : ∀ scope ∈ scopes,
      cleanScope (singleQuoted scope).toList = scope.toList := by
    intro scope member
    rw [toList_singleQuoted, cleanScope_quoted rfl (names scope member).2.1]
  have separate : ∀ part ∈ (scopes.map singleQuoted).map String.toList,
      ',' ∉ part ∧ cleanScope part ≠ [] := by
    intro part member
    rw [List.map_map] at member
    obtain ⟨scope, inScopes, rfl⟩ := List.mem_map.mp member
    obtain ⟨nonempty, _, noComma, _⟩ := names scope inScopes
    refine ⟨?_, by rwa [Function.comp_apply, cleaned scope inScopes]⟩
    rw [Function.comp_apply, toList_singleQuoted]
    simpa using noComma
  rw [toList_listed, items_intercalate cleanScope_trim isBlank_space rfl separate]
  simp only [List.map_map]
  calc
    _ = scopes.map id := List.map_congr_left fun scope member => by
      simp only [Function.comp_apply, cleaned scope member, String.ofList_toList, id]
    _ = scopes := List.map_id scopes

theorem bracket_not_mem_listed {scopes : List String}
    (names : ∀ scope ∈ scopes, IsScopeName scope.toList) :
    ']' ∉ (listed (scopes.map singleQuoted)).toList := by
  apply not_mem_listed (by decide) (by decide)
  intro value member
  obtain ⟨scope, inScopes, rfl⟩ := List.mem_map.mp member
  rw [toList_singleQuoted]
  simpa using (names scope inScopes).2.2.2

theorem toList_source_object (template : String) {scopes : List String}
    (named : scopes ≠ []) :
    (source ⟨template, scopes⟩).toList =
      '{' :: (([' '] ++ written template.toList
        (listed (scopes.map singleQuoted)).toList ++ [' ']) ++ ['}']) := by
  have opening : "\x7b template: ".toList = '{' :: ' ' :: (templateKey ++ [' ']) := by
    decide
  have middle : ", scopes: [".toList = ',' :: ' ' :: (scopesKey ++ [' ', '[']) := by
    decide
  have closing : "] \x7d".toList = [']', ' ', '}'] := by decide
  have notEmpty : ¬scopes.isEmpty = true := by simpa using named
  simp only [source, if_neg notEmpty, String.toList_append, opening, middle, closing,
    toList_singleQuoted, written, List.append_assoc, List.cons_append, List.nil_append]

theorem read_source_path (template : String) :
    read (trim (source ⟨template, []⟩).toList) =
      readPath ('\'' :: (template.toList ++ ['\''])) := by
  have spelled : source ⟨template, []⟩ = singleQuoted template := rfl
  rw [spelled, toList_singleQuoted, trim_quoted, read, trim_quoted]
  rfl

theorem read_source_object (template : String) {scopes : List String}
    (named : scopes ≠ []) :
    read (trim (source ⟨template, scopes⟩).toList) =
      readObject (written template.toList
        (listed (scopes.map singleQuoted)).toList) := by
  have whole := strip_of_stripped (stripped_written template.toList
    (listed (scopes.map singleQuoted)).toList)
  rw [toList_source_object template named, read_braced, trim,
    strip_append_right isBlank_space, strip_append_left isBlank_space, whole]

theorem read_source (canonical : declaration.Canonical) :
    read (trim declaration.source.toList) = .ok declaration := by
  obtain ⟨stripped, path, object, names⟩ := canonical
  obtain ⟨template, scopes⟩ := declaration
  by_cases short : scopes = []
  · subst short
    rw [read_source_path, readPath_quoted stripped (path rfl), String.ofList_toList]
  · obtain ⟨noComma, noMark⟩ := object short
    rw [read_source_object template short,
      readObject_written stripped noComma noMark (bracket_not_mem_listed names),
      items_singleQuoted names, String.ofList_toList]

/-- The last bracket of an object closes the array of the scopes. -/
theorem exists_readScopes_of_getLast? (ends : object.getLast? = some ']') :
    ∃ scopes, readScopes object = .ok scopes := by
  rw [readScopes]
  split
  · exact ⟨[], rfl⟩
  · rename_i before rest found
    split
    · rename_i array opens
      split
      · rename_i unclosed
        have isSuffix : '[' :: array <:+ object := by
          rw [← opens, eq_append_of_cut? found]
          exact (List.dropWhile_suffix _).trans (List.suffix_append _ _)
        obtain ⟨front, whole⟩ := isSuffix
        rw [← whole, List.getLast?_append_of_ne_nil _ (List.cons_ne_nil _ _)] at ends
        rw [cut?_eq_none_iff, List.singleton_infix_iff] at unclosed
        rcases List.mem_cons.mp (List.mem_of_getLast? ends) with same | inArray
        · exact absurd same (by decide)
        · exact absurd inArray unclosed
      · exact ⟨_, rfl⟩
    · exact ⟨[], rfl⟩

theorem exists_read_source (declaration : Inheritance) :
    ∃ again, read (trim declaration.source.toList) = .ok again := by
  obtain ⟨template, scopes⟩ := declaration
  by_cases short : scopes = []
  · subst short
    have isWord : IsWord ['\''] := by decide
    have something : words ('\'' :: (template.toList ++ ['\''])) ≠ [] :=
      words_ne_nil isWord (List.prefix_append ['\''] _)
    rw [read_source_path, readPath]
    split
    · contradiction
    · exact ⟨_, rfl⟩
  · let array := (listed (scopes.map singleQuoted)).toList
    obtain ⟨names, reads⟩ :=
      exists_readScopes_of_getLast? (getLast?_written template.toList array)
    rw [read_source_object template short,
      readObject_of_cut? (cut?_templateKey_written template.toList array), reads]
    exact ⟨_, rfl⟩

theorem readPath_cases (reads : readPath arguments = .ok declaration) :
    declaration.scopes = [] ∧ Stripped isQuote declaration.template.toList ∧
      declaration.template.toList <:+: arguments := by
  rw [readPath] at reads
  split at reads
  · cases reads
  · rename_i path rest found
    cases reads
    have inside := (isWord_of_words_eq_cons found).2
    rw [String.toList_ofList]
    exact ⟨rfl, stripped_strip isQuote path,
      (strip_isInfix isQuote path).trans inside⟩

theorem readScopes_cases {scopes : List String}
    (reads : readScopes object = .ok scopes) :
    ∀ scope ∈ scopes, IsScopeName scope.toList ∧ scope.toList <:+: object := by
  rw [readScopes] at reads
  split at reads
  · cases reads
    simp
  · rename_i before rest found
    split at reads
    · rename_i array opens
      split at reads
      · cases reads
      · rename_i names after closes
        cases reads
        intro scope member
        obtain ⟨part, isPart, rfl⟩ := List.mem_map.mp member
        obtain ⟨nonempty, raw, rfl, noComma, inNames⟩ := exists_of_mem_items isPart
        have shorter : stripQuotes (trim raw) <:+: raw :=
          (strip_isInfix isQuote _).trans (strip_isInfix isBlank raw)
        have noBracket : ']' ∉ raw := by
          intro bracket
          apply not_infix_of_cut? (by simp) closes
          rw [List.singleton_infix_iff]
          exact inNames.subset bracket
        have inArray : names <:+: '[' :: array :=
          List.infix_cons (before_isInfix_of_cut? closes)
        have inRest : '[' :: array <:+: rest := by
          rw [← opens, trimStart]
          exact (List.dropWhile_suffix _).isInfix
        rw [String.toList_ofList]
        refine ⟨⟨nonempty, stripped_strip isQuote _, fun comma => ?_,
          fun bracket => noBracket (shorter.subset bracket)⟩, ?_⟩
        · exact noComma (shorter.subset comma)
        · exact shorter.trans (inNames.trans (inArray.trans
            (inRest.trans (after_isInfix_of_cut? found))))
    · cases reads
      simp

theorem readObject_cases (reads : readObject object = .ok declaration) :
    Stripped isQuote declaration.template.toList ∧
      ',' ∉ declaration.template.toList ∧
      declaration.template.toList <:+: object ∧
      ∀ scope ∈ declaration.scopes,
        IsScopeName scope.toList ∧ scope.toList <:+: object := by
  rw [readObject] at reads
  split at reads
  · cases reads
  · rename_i before rest found
    obtain ⟨scopes, inner, same⟩ := Tag.exists_of_map_eq_ok reads
    cases same
    have valuePrefix : rest.takeWhile (· != ',') <+: rest :=
      List.takeWhile_prefix _
    have shorter : stripQuotes (trim (rest.takeWhile (· != ','))) <:+:
        rest.takeWhile (· != ',') :=
      (strip_isInfix isQuote _).trans (strip_isInfix isBlank _)
    rw [String.toList_ofList]
    refine ⟨stripped_strip isQuote _, fun comma => ?_,
      shorter.trans (valuePrefix.isInfix.trans (after_isInfix_of_cut? found)),
      readScopes_cases inner⟩
    have kept := List.mem_takeWhile_imp (shorter.subset comma)
    simp at kept

/-- What reading ensures: names are set off by quotes and commas. -/
structure WellFormed (declaration : Inheritance) : Prop where
  template : Stripped isQuote declaration.template.toList
  object : declaration.scopes ≠ [] → ',' ∉ declaration.template.toList
  scopes : ∀ scope ∈ declaration.scopes, IsScopeName scope.toList

/-- What is read as a declaration is spelled from parts of the arguments. -/
theorem wellFormed_of_read (reads : read arguments = .ok declaration) :
    declaration.WellFormed ∧ ∀ field ∈ declaration.template :: declaration.scopes,
      field.toList <:+: arguments := by
  have trimmed := strip_isInfix isBlank arguments
  rw [read] at reads
  split at reads
  · rename_i rest opens
    split at reads
    · cases reads
    · rename_i object ends
      obtain ⟨stripped, noComma, inTemplate, names⟩ := readObject_cases reads
      have inObject : trim object <:+: arguments := by
        have inRest : object <:+: '{' :: rest :=
          List.infix_cons (prefix_of_beforeLast? ends).isInfix
        rw [← opens] at inRest
        exact (strip_isInfix isBlank object).trans (inRest.trans trimmed)
      constructor
      · exact ⟨stripped, fun _ => noComma, fun scope member => (names scope member).1⟩
      · intro field member
        rcases List.mem_cons.mp member with rfl | inScopes
        · exact inTemplate.trans inObject
        · exact (names field inScopes).2.trans inObject
  · obtain ⟨noScopes, stripped, inPath⟩ := readPath_cases reads
    constructor
    · refine ⟨stripped, fun named => absurd noScopes named, ?_⟩
      rw [noScopes]
      simp
    · rw [noScopes, List.forall_mem_singleton]
      exact inPath.trans trimmed

/-- What reading does not ensure: a path has no blanks, and a template in an object
is not taken for the key of the scopes. -/
def Stable (declaration : Inheritance) : Prop :=
  (declaration.scopes = [] → Uniform false declaration.template.toList) ∧
    (declaration.scopes ≠ [] → ¬"scopes:".toList <:+: declaration.template.toList)

instance (declaration : Inheritance) : Decidable declaration.Stable :=
  inferInstanceAs (Decidable (_ ∧ _))

theorem WellFormed.canonical (wellFormed : declaration.WellFormed)
    (stable : declaration.Stable) : declaration.Canonical :=
  ⟨wellFormed.template, stable.1, fun named => ⟨wellFormed.object named, stable.2 named⟩,
    wellFormed.scopes⟩

theorem relativePath_of_bundle {bundle path : String} {scopes : List String}
    (noSlash : '/' ∉ bundle.toList) :
    relativePath ⟨"@" ++ bundle ++ "/" ++ path, scopes⟩ = path := by
  have spelled : ("@" ++ bundle ++ "/" ++ path).toList =
      '@' :: (bundle.toList ++ '/' :: path.toList) := by
    simp only [String.toList_append, List.append_assoc]
    rfl
  have passed : (bundle.toList ++ '/' :: path.toList).dropWhile (· != '/') =
      '/' :: path.toList := by
    rw [List.dropWhile_append_of_pos]
    · rfl
    · exact fun c member => bne_iff_ne.mpr fun same => noSlash (same ▸ member)
  simp only [relativePath, spelled, passed, String.ofList_toList]

theorem relativePath_of_no_bundle {declaration : Inheritance}
    (noBundle : ∀ bundle path, declaration.template ≠ "@" ++ bundle ++ "/" ++ path) :
    declaration.relativePath = declaration.template := by
  rw [relativePath]
  split
  · rename_i name spelled
    split
    · rfl
    · rename_i c path found
      have isSlash : (c != '/') = false := head?_dropWhile _ name c (by rw [found]; rfl)
      obtain rfl : c = '/' := bne_eq_false_iff_eq.mp isSlash
      obtain ⟨bundle, split⟩ : ∃ bundle, name = bundle ++ '/' :: path :=
        ⟨name.takeWhile (· != '/'), by rw [← found, List.takeWhile_append_dropWhile]⟩
      refine absurd ?_ (noBundle (String.ofList bundle) (String.ofList path))
      apply String.toList_injective
      rw [spelled, split]
      simp
  · rfl

end TemplateTree.Inheritance
