import TemplateTree.Proofs.Text.Edges
import TemplateTree.Tag

namespace TemplateTree.Tag

open Text

variable {word after : List Char}

theorem keyword_append (noBlank : ∀ c ∈ word, isBlank c = false)
    (separated : ∀ c ∈ after.head?, isBlank c = true) :
    keyword (word ++ after) = word := by
  rw [keyword, List.takeWhile_append_of_pos (by simpa using noBlank)]
  cases after with
  | nil => rw [List.takeWhile_nil, List.append_nil]
  | cons c rest =>
      rw [List.takeWhile_cons, separated c rfl]
      simp

theorem arguments_append (noBlank : ∀ c ∈ word, isBlank c = false)
    (separated : ∀ c ∈ after.head?, isBlank c = true) :
    arguments (word ++ after) = trim after := by
  rw [arguments, List.dropWhile_append_of_pos (by simpa using noBlank)]
  cases after with
  | nil => rfl
  | cons c rest =>
      rw [List.dropWhile_cons, separated c rfl]
      simp

theorem arguments_isInfix (body : List Char) : arguments body <:+: body :=
  (strip_isInfix isBlank _).trans (List.dropWhile_suffix _).isInfix

theorem isWord_spelling (keyword : Keyword) : IsWord keyword.spelling.toList := by
  cases keyword with
  | closing scope => cases scope <;> decide
  | _ => decide

theorem blank_head?_rdropWhile (separated : ∀ c ∈ after.head?, isBlank c = true) :
    ∀ c ∈ (after.rdropWhile isBlank).head?, isBlank c = true := by
  intro c first
  obtain ⟨tail, whole⟩ := List.rdropWhile_prefix isBlank after
  apply separated
  rw [← whole, List.head?_append, Option.mem_def.mp first]
  rfl

theorem keyword_trim_append (isWord : IsWord word)
    (separated : ∀ c ∈ after.head?, isBlank c = true) :
    keyword (trim (word ++ after)) = word := by
  rw [trim_word_append isWord, keyword_append isWord.2 (blank_head?_rdropWhile separated)]

theorem arguments_trim_append (isWord : IsWord word)
    (separated : ∀ c ∈ after.head?, isBlank c = true) :
    arguments (trim (word ++ after)) = trim after := by
  rw [trim_word_append isWord, arguments_append isWord.2 (blank_head?_rdropWhile separated),
    trim, strip_rdropWhile, trim]

theorem ofBody_trim_append (keyword : Keyword)
    (separated : ∀ c ∈ after.head?, isBlank c = true) :
    ofBody (trim (keyword.spelling.toList ++ after)) =
      ofKeyword (trim after) keyword := by
  have isWord := isWord_spelling keyword
  rw [ofBody, keyword_trim_append isWord separated, Keyword.ofWord?_spelling,
    arguments_trim_append isWord separated]

/-- Only the first word and the trimmed rest are read. -/
theorem ofBody_trim_congr {other : List Char} (isWord : IsWord word)
    (separated : ∀ c ∈ after.head?, isBlank c = true)
    (otherSeparated : ∀ c ∈ other.head?, isBlank c = true) (same : trim after = trim other) :
    ofBody (trim (word ++ after)) = ofBody (trim (word ++ other)) := by
  rw [ofBody, keyword_trim_append isWord separated, arguments_trim_append isWord separated,
    ofBody, keyword_trim_append isWord otherSeparated,
    arguments_trim_append isWord otherSeparated, same]

theorem ofBody_trim_cons (keyword : Keyword) (after : List Char) :
    ofBody (trim (keyword.spelling.toList ++ ' ' :: after)) =
      ofKeyword (trim after) keyword := by
  have separated : ∀ c ∈ (' ' :: after).head?, isBlank c = true := by
    intro c first
    cases first
    decide
  rw [ofBody_trim_append keyword separated, trim, ← List.singleton_append,
    strip_append_left isBlank_space, ← trim]

theorem exists_of_map_eq_ok {α β : Type} {result : Except Error α} {change : α → β}
    {changed : β} (mapped : result.map change = .ok changed) :
    ∃ value, result = .ok value ∧ change value = changed := by
  cases result with
  | error error => cases mapped
  | ok value => exact ⟨value, rfl, Except.ok.inj mapped⟩

theorem exists_keyword_of_ofBody {body : List Char} {tag : Tag}
    (reads : ofBody body = .ok tag) :
    tag = .unrecognized ∨
      ∃ keyword, ofKeyword (arguments body) keyword = .ok tag := by
  rw [ofBody] at reads
  split at reads
  · exact Or.inr ⟨_, reads⟩
  · cases reads
    exact Or.inl rfl

theorem opens_cases {body : List Char} {header : Header}
    (reads : ofBody body = .ok (.opens header)) :
    autoescape (arguments body) = .opens header ∨
      block (arguments body) = .opens header ∨
      loop (arguments body) = .opens header ∨
      set (arguments body) = .opens header := by
  rcases exists_keyword_of_ofBody reads with impossible | ⟨keyword, reads⟩
  · cases impossible
  · cases keyword with
    | autoescape => exact Or.inl (Except.ok.inj reads)
    | block => exact Or.inr (Or.inl (Except.ok.inj reads))
    | loop => exact Or.inr (Or.inr (Or.inl (Except.ok.inj reads)))
    | set =>
        have understood := Except.ok.inj reads
        split at understood
        · cases understood
        · exact Or.inr (Or.inr (Or.inr understood))
    | deprecated =>
        have understood := Except.ok.inj reads
        split at understood <;> cases understood
    | inherits =>
        obtain ⟨declaration, _, same⟩ := exists_of_map_eq_ok reads
        cases same
    | types =>
        obtain ⟨hints, _, same⟩ := exists_of_map_eq_ok reads
        cases same
    | closing scope => cases reads

theorem block_eq_or (arguments : List Char) :
    block arguments = .unrecognized ∨ ∃ header, block arguments = .opens header := by
  rw [block]
  split
  · exact Or.inl rfl
  · exact Or.inr ⟨_, rfl⟩

theorem loop_eq_or (arguments : List Char) :
    loop arguments = .loopWithoutIn ∨ ∃ header, loop arguments = .opens header := by
  rw [loop]
  split
  · split
    · exact Or.inl rfl
    · exact Or.inr ⟨_, rfl⟩
  · exact Or.inl rfl

theorem leaf_cases {body : List Char} {content : Leaf}
    (reads : ofBody body = .ok (.leaf content)) :
    deprecated (arguments body) = .leaf content ∨
      set (arguments body) = .leaf content ∨
      (∃ declaration, Inheritance.read (arguments body) = .ok declaration ∧
        content = .inherits declaration) ∨
      ∃ hints, TypeHints.read (arguments body) = .ok hints ∧
        content = .types hints := by
  rcases exists_keyword_of_ofBody reads with impossible | ⟨keyword, reads⟩
  · cases impossible
  · cases keyword with
    | deprecated =>
        have understood := Except.ok.inj reads
        split at understood
        · cases understood
        · exact Or.inl understood
    | set =>
        have understood := Except.ok.inj reads
        split at understood
        · cases understood
        · exact Or.inr (Or.inl understood)
    | inherits =>
        obtain ⟨declaration, inner, same⟩ := exists_of_map_eq_ok reads
        cases same
        exact Or.inr (Or.inr (Or.inl ⟨declaration, inner, rfl⟩))
    | types =>
        obtain ⟨hints, inner, same⟩ := exists_of_map_eq_ok reads
        cases same
        exact Or.inr (Or.inr (Or.inr ⟨hints, inner, rfl⟩))
    | loop =>
        have understood := Except.ok.inj reads
        rcases loop_eq_or (arguments body) with kept | ⟨header, opens⟩
        · cases kept.symm.trans understood
        · cases opens.symm.trans understood
    | block =>
        have understood := Except.ok.inj reads
        rcases block_eq_or (arguments body) with kept | ⟨header, opens⟩
        · cases kept.symm.trans understood
        · cases opens.symm.trans understood
    | autoescape => cases reads
    | closing scope => cases reads

theorem eq_closing_of_ofKeyword {arguments : List Char} {keyword : Keyword}
    {scope : Scope} (reads : ofKeyword arguments keyword = .ok (.closes scope)) :
    keyword = .closing scope := by
  cases keyword with
  | closing other =>
      cases reads
      rfl
  | autoescape => cases reads
  | block =>
      have understood := Except.ok.inj reads
      rcases block_eq_or arguments with kept | ⟨header, opens⟩
      · cases kept.symm.trans understood
      · cases opens.symm.trans understood
  | deprecated =>
      have understood := Except.ok.inj reads
      split at understood <;> cases understood
  | loop =>
      have understood := Except.ok.inj reads
      rcases loop_eq_or arguments with kept | ⟨header, opens⟩
      · cases kept.symm.trans understood
      · cases opens.symm.trans understood
  | set =>
      have understood := Except.ok.inj reads
      simp only [set] at understood
      split at understood
      · cases understood
      · split at understood <;> cases understood
  | inherits =>
      obtain ⟨declaration, _, same⟩ := exists_of_map_eq_ok reads
      cases same
  | types =>
      obtain ⟨hints, _, same⟩ := exists_of_map_eq_ok reads
      cases same

/-- A tag ends a scope when it starts with the end keyword, whatever follows. -/
theorem ofBody_eq_closes_iff {body : List Char} {scope : Scope} :
    ofBody body = .ok (.closes scope) ↔ keyword body = scope.endKeyword.toList := by
  constructor
  · intro reads
    rw [ofBody] at reads
    split at reads
    · rename_i known found
      rw [Keyword.ofWord?_eq_some_iff.mp found, eq_closing_of_ofKeyword reads]
      rfl
    · cases reads
  · intro same
    have found : Keyword.ofWord? (keyword body) = some (.closing scope) :=
      Keyword.ofWord?_eq_some_iff.mpr same
    rw [ofBody, found]
    rfl

end TemplateTree.Tag
