import TemplateTree.Proofs.Tag.Inheritance

namespace TemplateTree.Inheritance

/-! `Object` is an object as it may be written.  The reader knows nothing of this grammar; it
looks for the keys, for the first comma behind the template and for the first bracket behind
the scopes.  `Unambiguous` says which strings do not lead it astray. -/

open Text

/-- Blanks between two parts of an object, or nothing. -/
structure Gap where
  blanks : List Char := []
  blank : ∀ c ∈ blanks, isBlank c = true := by simp

inductive Quote where
  | single
  | double

def Quote.mark : Quote → Char
  | .single => '\''
  | .double => '"'

structure Literal where
  before : Gap := {}
  quote : Quote := .single
  value : String

def Literal.text (literal : Literal) : List Char :=
  literal.before.blanks ++
    literal.quote.mark :: (literal.value.toList ++ [literal.quote.mark])

structure Name extends Literal where
  after : Gap := {}

def Name.text (name : Name) : List Char := name.toLiteral.text ++ name.after.blanks

structure Names where
  before : Gap := {}
  inside : Gap := {}
  names : List Name

def Names.inner (names : Names) : List Char :=
  names.inside.blanks ++ [','].intercalate (names.names.map Name.text)

def Names.text (names : Names) : List Char :=
  names.before.blanks ++ '[' :: (names.inner ++ [']'])

structure Comma where
  before : Gap := {}
  after : Gap := {}

def Comma.text (comma : Comma) : List Char := comma.before.blanks ++ ',' :: comma.after.blanks

inductive Members where
  | templateAlone (template : Literal)
  | templateFirst (template : Literal) (comma : Comma) (scopes : Names)
  | scopesFirst (scopes : Names) (comma : Comma) (template : Literal)

namespace Members

def text : Members → List Char
  | .templateAlone template => templateKey ++ template.text
  | .templateFirst template comma scopes =>
      templateKey ++ template.text ++ comma.text ++ scopesKey ++ scopes.text
  | .scopesFirst scopes comma template =>
      scopesKey ++ scopes.text ++ comma.text ++ templateKey ++ template.text

def declaration : Members → Inheritance
  | .templateAlone template => ⟨template.value, []⟩
  | .templateFirst template _ scopes => ⟨template.value, scopes.names.map (·.value)⟩
  | .scopesFirst scopes _ template => ⟨template.value, scopes.names.map (·.value)⟩

end Members

structure Object where
  before : Gap := {}
  inside : Gap := {}
  members : Members
  last : Gap := {}
  after : Gap := {}

def Object.text (object : Object) : List Char :=
  object.before.blanks ++
    '{' :: (object.inside.blanks ++ object.members.text ++ object.last.blanks ++
      '}' :: object.after.blanks)

/-- No string contains what is looked for behind it. -/
structure Unambiguous (declaration : Inheritance) : Prop where
  template : Stripped isQuote declaration.template.toList
  noComma : ',' ∉ declaration.template.toList
  noKey : ¬scopesKey <:+: declaration.template.toList
  scopes : ∀ scope ∈ declaration.scopes,
    IsScopeName scope.toList ∧ ¬templateKey <:+: scope.toList

variable {key left right : List Char} {literal : Literal} {names : Names} {comma : Comma}
  {gap : Gap}

/-- The characters that set the strings of an object apart. -/
def isMark (c : Char) : Bool := isQuote c || c == ',' || c == '[' || c == ']'

/-- A key is a mark that blanks, quotes, commas and brackets cannot be part of. -/
structure IsKeyMark (key : List Char) : Prop where
  nonempty : key ≠ []
  noBlank : Uniform false key
  noMark : key.any isMark = false

theorem isKeyMark_templateKey : IsKeyMark templateKey := ⟨by decide, by decide, rfl⟩

theorem isKeyMark_scopesKey : IsKeyMark scopesKey := ⟨by decide, by decide, rfl⟩

namespace IsKeyMark

theorem absent_gap (isKey : IsKeyMark key) (gap : Gap) : ∀ c ∈ gap.blanks, c ∉ key := by
  intro c isBlankHere inKey
  have noBlank := isKey.noBlank c inKey
  rw [gap.blank c isBlankHere] at noBlank
  cases noBlank

theorem not_mem {c : Char} (isKey : IsKeyMark key) (mark : isMark c = true) : c ∉ key :=
  fun inKey => List.any_eq_false.mp isKey.noMark c inKey mark

theorem infix_gap_append_iff (isKey : IsKeyMark key) :
    key <:+: gap.blanks ++ right ↔ key <:+: right :=
  infix_append_iff_of_disjoint (isKey.absent_gap gap) isKey.nonempty

theorem infix_append_gap_iff (isKey : IsKeyMark key) :
    key <:+: left ++ gap.blanks ↔ key <:+: left :=
  infix_append_right_iff_of_disjoint (isKey.absent_gap gap) isKey.nonempty

theorem infix_mark_iff {c : Char} (isKey : IsKeyMark key) (mark : isMark c = true) :
    key <:+: left ++ (gap.blanks ++ c :: right) ↔ key <:+: left ∨ key <:+: right := by
  rw [← List.append_assoc, infix_append_cons_iff (isKey.not_mem mark),
    isKey.infix_append_gap_iff]

theorem infix_literal_iff (isKey : IsKeyMark key) (left : List Char) (literal : Literal)
    (right : List Char) :
    key <:+: left ++ (literal.text ++ right) ↔
      key <:+: left ∨ key <:+: literal.value.toList ∨ key <:+: right := by
  have mark : isMark literal.quote.mark = true := by cases literal.quote <;> rfl
  rw [Literal.text, List.append_assoc, List.cons_append, List.append_assoc,
    List.singleton_append, isKey.infix_mark_iff mark,
    infix_append_cons_iff (isKey.not_mem mark)]

theorem infix_comma_iff (isKey : IsKeyMark key) (left : List Char) (comma : Comma)
    (right : List Char) :
    key <:+: left ++ (comma.text ++ right) ↔ key <:+: left ∨ key <:+: right := by
  rw [Comma.text, List.append_assoc, List.cons_append, isKey.infix_mark_iff rfl,
    isKey.infix_gap_append_iff]

theorem infix_inner_iff (isKey : IsKeyMark key) :
    key <:+: names.inner ↔ ∃ name ∈ names.names, key <:+: name.value.toList := by
  have inName (name : Name) : key <:+: name.text ↔ key <:+: name.value.toList := by
    have whole := isKey.infix_literal_iff [] name.toLiteral name.after.blanks
    have notBlank : ¬key <:+: name.after.blanks := by
      rw [← List.nil_append name.after.blanks, isKey.infix_append_gap_iff, List.infix_nil]
      exact isKey.nonempty
    simpa [Name.text, isKey.nonempty, notBlank] using whole
  rw [Names.inner, isKey.infix_gap_append_iff,
    infix_intercalate_iff isKey.nonempty (isKey.not_mem rfl) (by simp)]
  simp only [List.mem_map, exists_exists_and_eq_and, inName]

theorem infix_names_iff (isKey : IsKeyMark key) :
    key <:+: left ++ (names.text ++ right) ↔
      key <:+: left ∨ (∃ name ∈ names.names, key <:+: name.value.toList) ∨
        key <:+: right := by
  rw [Names.text, List.append_assoc, List.cons_append, isKey.infix_mark_iff rfl,
    List.append_assoc, List.singleton_append,
    infix_append_cons_iff (isKey.not_mem rfl), isKey.infix_inner_iff]

end IsKeyMark

theorem Quote.isQuote_mark (quote : Quote) : isQuote quote.mark = true := by
  cases quote <;> rfl

theorem Quote.not_mem {c : Char} (quote : Quote) (notQuote : isQuote c = false) :
    c ∉ [quote.mark] := by
  intro member
  rw [List.mem_singleton.mp member, quote.isQuote_mark] at notQuote
  cases notQuote

theorem Gap.not_mem {c : Char} (gap : Gap) (notBlank : isBlank c = false) :
    c ∉ gap.blanks := by
  intro member
  rw [gap.blank c member] at notBlank
  cases notBlank

theorem Literal.not_mem_text {c : Char} (notBlank : isBlank c = false)
    (notQuote : isQuote c = false) (absent : c ∉ literal.value.toList) :
    c ∉ literal.text := by
  have noMark := literal.quote.not_mem notQuote
  rw [Literal.text, ← List.singleton_append]
  simp only [List.mem_append, not_or]
  exact ⟨literal.before.not_mem notBlank, noMark, absent, noMark⟩

theorem cleanScope_literal (stripped : Stripped isQuote literal.value.toList) (gap : Gap) :
    cleanScope (literal.text ++ gap.blanks) = literal.value.toList := by
  rw [clean_append_right cleanScope_trim gap.blank, Literal.text,
    clean_append_left cleanScope_trim literal.before.blank,
    cleanScope_quoted literal.quote.isQuote_mark stripped]

namespace Names

theorem items_inner (areNames : ∀ name ∈ names.names, IsScopeName name.value.toList) :
    (items cleanScope names.inner).map String.ofList = names.names.map (·.value) := by
  have cleaned : ∀ name ∈ names.names, cleanScope name.text = name.value.toList :=
    fun name member => cleanScope_literal (areNames name member).2.1 name.after
  have separate : ∀ part ∈ names.names.map Name.text, ',' ∉ part ∧ cleanScope part ≠ [] := by
    intro part member
    obtain ⟨name, inNames, rfl⟩ := List.mem_map.mp member
    obtain ⟨nonempty, _, noComma, _⟩ := areNames name inNames
    refine ⟨?_, by rwa [cleaned name inNames]⟩
    rw [Name.text, List.mem_append, not_or]
    exact ⟨Literal.not_mem_text (by decide) (by decide) noComma,
      name.after.not_mem (by decide)⟩
  rw [inner, items_append_left cleanScope_trim names.inside.blank,
    items_intercalate cleanScope_trim (by simp) rfl separate, List.map_map, List.map_map]
  refine List.map_congr_left fun name member => ?_
  simp only [Function.comp_apply, cleaned name member, String.ofList_toList]

theorem bracket_not_mem_inner
    (areNames : ∀ name ∈ names.names, IsScopeName name.value.toList) :
    ']' ∉ names.inner := by
  intro member
  rw [inner, List.mem_append, or_iff_right (names.inside.not_mem (by decide)),
    ← List.singleton_infix_iff,
    infix_intercalate_iff (by simp) (by decide) (by simp)] at member
  obtain ⟨part, isPart, inPart⟩ := member
  obtain ⟨name, inNames, rfl⟩ := List.mem_map.mp isPart
  rw [List.singleton_infix_iff, Name.text, List.mem_append,
    or_iff_left (name.after.not_mem (by decide))] at inPart
  exact Literal.not_mem_text (by decide) (by decide) (areNames name inNames).2.2.2 inPart

end Names

theorem readScopes_names (first : ¬scopesKey <:+: left ++ scopesKey.dropLast)
    (areNames : ∀ name ∈ names.names, IsScopeName name.value.toList) :
    readScopes (left ++ scopesKey ++ (names.text ++ right)) =
      .ok (names.names.map (·.value)) := by
  have spelled : names.text ++ right =
      names.before.blanks ++ '[' :: (names.inner ++ ']' :: right) := by
    simp only [Names.text, List.append_assoc, List.cons_append, List.nil_append]
  rw [spelled, readScopes_of_first first names.before.blank
    (names.bracket_not_mem_inner areNames), names.items_inner areNames]

theorem readObject_literal (first : ¬templateKey <:+: left ++ templateKey.dropLast)
    (stripped : Stripped isQuote literal.value.toList)
    (noComma : ',' ∉ literal.value.toList) (ends : ∀ c ∈ right.head?, c = ',') :
    readObject (left ++ templateKey ++ (literal.text ++ gap.blanks ++ right)) =
      (readScopes (left ++ templateKey ++ (literal.text ++ gap.blanks ++ right))).map
        fun scopes => ⟨literal.value, scopes⟩ := by
  have absent : ',' ∉ literal.text ++ gap.blanks := by
    rw [List.mem_append, not_or]
    exact ⟨Literal.not_mem_text (by decide) (by decide) noComma, gap.not_mem (by decide)⟩
  rw [readObject_of_first first absent ends, cleanScope_literal stripped gap,
    String.ofList_toList]

theorem readScopes_of_absent {object : List Char} (absent : ¬scopesKey <:+: object) :
    readScopes object = .ok [] := by
  have nowhere : cut? "scopes:".toList object = none := cut?_eq_none_iff.mpr absent
  rw [readScopes, nowhere]

namespace Members

variable {template : Literal} {scopes : Names}

theorem readObject_templateAlone
    (unambiguous : (templateAlone template).declaration.Unambiguous) :
    readObject (templateAlone template).text =
      .ok (templateAlone template).declaration := by
  obtain ⟨stripped, noComma, noKey, _⟩ := unambiguous
  have absent : ¬scopesKey <:+: (templateAlone template).text := by
    have inLiteral := isKeyMark_scopesKey.infix_literal_iff templateKey template []
    rw [List.append_nil] at inLiteral
    rw [text, inLiteral, not_or, not_or]
    exact ⟨by decide, noKey, by decide⟩
  have whole : (templateAlone template).text =
      [] ++ templateKey ++ (template.text ++ ({} : Gap).blanks ++ []) := by
    simp only [text, List.nil_append, List.append_nil]
  rw [whole, readObject_literal (by decide) stripped noComma (by simp), ← whole,
    readScopes_of_absent absent]
  rfl

theorem readObject_templateFirst
    (unambiguous : (templateFirst template comma scopes).declaration.Unambiguous) :
    readObject (templateFirst template comma scopes).text =
      .ok (templateFirst template comma scopes).declaration := by
  obtain ⟨stripped, noComma, noKey, areScopes⟩ := unambiguous
  have areNames : ∀ name ∈ scopes.names, IsScopeName name.value.toList :=
    fun name member => (areScopes _ (List.mem_map_of_mem member)).1
  have first : ¬scopesKey <:+:
      templateKey ++ template.text ++ comma.text ++ scopesKey.dropLast := by
    have inComma := isKeyMark_scopesKey.infix_comma_iff [] comma scopesKey.dropLast
    rw [List.nil_append] at inComma
    rw [List.append_assoc, List.append_assoc, isKeyMark_scopesKey.infix_literal_iff, inComma]
    simp only [not_or]
    exact ⟨by decide, noKey, by decide, by decide⟩
  have scopesLast : (templateFirst template comma scopes).text =
      templateKey ++ template.text ++ comma.text ++ scopesKey ++ (scopes.text ++ []) := by
    rw [text, List.append_nil]
  have whole : (templateFirst template comma scopes).text =
      [] ++ templateKey ++ (template.text ++ comma.before.blanks ++
        (',' :: (comma.after.blanks ++ scopesKey ++ scopes.text))) := by
    simp only [text, Comma.text, List.nil_append, List.append_assoc, List.cons_append]
  rw [whole, readObject_literal (by decide) stripped noComma (by simp), ← whole, scopesLast,
    readScopes_names first areNames]
  rfl

theorem readObject_scopesFirst
    (unambiguous : (scopesFirst scopes comma template).declaration.Unambiguous) :
    readObject (scopesFirst scopes comma template).text =
      .ok (scopesFirst scopes comma template).declaration := by
  obtain ⟨stripped, noComma, _, areScopes⟩ := unambiguous
  have areNames : ∀ name ∈ scopes.names, IsScopeName name.value.toList :=
    fun name member => (areScopes _ (List.mem_map_of_mem member)).1
  have noKey : ¬∃ name ∈ scopes.names, templateKey <:+: name.value.toList := by
    rintro ⟨name, member, inside⟩
    exact (areScopes _ (List.mem_map_of_mem member)).2 inside
  have first : ¬templateKey <:+:
      scopesKey ++ scopes.text ++ comma.text ++ templateKey.dropLast := by
    have inComma := isKeyMark_templateKey.infix_comma_iff [] comma templateKey.dropLast
    rw [List.nil_append] at inComma
    rw [List.append_assoc, List.append_assoc, isKeyMark_templateKey.infix_names_iff, inComma]
    simp only [not_or]
    exact ⟨by decide, noKey, by decide, by decide⟩
  have scopesAtFront : (scopesFirst scopes comma template).text =
      [] ++ scopesKey ++ (scopes.text ++ (comma.text ++ templateKey ++ template.text)) := by
    simp only [text, List.nil_append, List.append_assoc]
  have whole : (scopesFirst scopes comma template).text =
      scopesKey ++ scopes.text ++ comma.text ++ templateKey ++
        (template.text ++ ({} : Gap).blanks ++ []) := by
    simp only [text, List.append_nil]
  rw [whole, readObject_literal first stripped noComma (by simp), ← whole, scopesAtFront,
    readScopes_names (by decide) areNames]
  rfl

theorem readObject_text {members : Members}
    (unambiguous : members.declaration.Unambiguous) :
    readObject members.text = .ok members.declaration := by
  cases members with
  | templateAlone => exact readObject_templateAlone unambiguous
  | templateFirst => exact readObject_templateFirst unambiguous
  | scopesFirst => exact readObject_scopesFirst unambiguous

theorem exists_text_eq (members : Members) :
    ∃ key inside last, members.text = key ++ (inside ++ [last]) ∧ IsWord key ∧
      isBlank last = false := by
  cases members with
  | templateAlone template =>
      refine ⟨templateKey, template.before.blanks ++ template.quote.mark ::
        template.value.toList, template.quote.mark, ?_, by decide,
        isBlank_of_isQuote template.quote.isQuote_mark⟩
      simp only [text, Literal.text, List.append_assoc, List.cons_append]
  | templateFirst template comma scopes =>
      refine ⟨templateKey, template.text ++ comma.text ++ scopesKey ++
        scopes.before.blanks ++ '[' :: scopes.inner, ']', ?_, by decide, by decide⟩
      simp only [text, Names.text, List.append_assoc, List.cons_append]
  | scopesFirst scopes comma template =>
      refine ⟨scopesKey, scopes.text ++ comma.text ++ templateKey ++ template.before.blanks ++
        template.quote.mark :: template.value.toList, template.quote.mark, ?_, by decide,
        isBlank_of_isQuote template.quote.isQuote_mark⟩
      simp only [text, Literal.text, List.append_assoc, List.cons_append]

theorem trim_text (members : Members) : trim members.text = members.text := by
  obtain ⟨key, inside, last, whole, isWord, notBlank⟩ := members.exists_text_eq
  have isLast : Stripped isBlank [last] := by
    constructor <;> · intro c same; cases same; exact notBlank
  rw [whole]
  exact strip_of_stripped
    (stripped_append isWord.1 (List.cons_ne_nil _ _) isWord.stripped isLast)

end Members

theorem read_trim (arguments : List Char) : read (trim arguments) = read arguments := by
  rw [read, read, trim_trim]

/-- The blanks around the braces and inside them do not matter. -/
theorem read_text_eq_readObject (object : Object) :
    read object.text = readObject object.members.text := by
  let inside := object.inside.blanks ++ object.members.text ++ object.last.blanks
  have outside : trim object.text = trim ('{' :: (inside ++ ['}'])) := by
    have spelled : object.text =
        object.before.blanks ++ ('{' :: (inside ++ ['}']) ++ object.after.blanks) := by
      simp only [Object.text, inside, List.append_assoc, List.cons_append, List.nil_append]
    rw [spelled, trim, strip_append_left object.before.blank,
      strip_append_right object.after.blank, ← trim]
  have within : trim inside = object.members.text := by
    rw [trim, strip_append_right object.last.blank, strip_append_left object.inside.blank,
      ← trim, object.members.trim_text]
  rw [← read_trim, outside, read_braced, within]

/-- An object is read as what it declares, however it is laid out. -/
theorem Object.read_text (object : Object)
    (unambiguous : object.members.declaration.Unambiguous) :
    read object.text = .ok object.members.declaration := by
  rw [read_text_eq_readObject, Members.readObject_text unambiguous]

theorem read_text_scopes_first :
    ∃ object : Object,
      object.text =
          " \x7bscopes:[ \"a\" ,'b'],\ttemplate: \"it's.twig\"\u00a0\x7d".toList ∧
        object.members.declaration.Unambiguous ∧
        read object.text = .ok ⟨"it's.twig", ["a", "b"]⟩ := by
  let names : Names := {
    inside := ⟨[' '], isBlank_space⟩
    names := [
      { quote := .double, value := "a", after := ⟨[' '], isBlank_space⟩ },
      { value := "b" }] }
  let comma : Comma := { after := ⟨['\t'], List.forall_mem_singleton.mpr rfl⟩ }
  let template : Literal :=
    { before := ⟨[' '], isBlank_space⟩, quote := .double, value := "it's.twig" }
  have unambiguous : Unambiguous ⟨"it's.twig", ["a", "b"]⟩ :=
    ⟨by decide, by decide, by decide, by decide⟩
  exact ⟨{ before := ⟨[' '], isBlank_space⟩
           members := .scopesFirst names comma template
           last := ⟨['\u00a0'], List.forall_mem_singleton.mpr rfl⟩ },
    by decide, unambiguous, Object.read_text _ unambiguous⟩

end TemplateTree.Inheritance
