import TemplateTree.Proofs.Spelling
import TemplateTree.Proofs.Tag.Keyword
import TemplateTree.Proofs.Text.Quotes
import TemplateTree.Proofs.Text.Words

namespace TemplateTree.TypeHints

open Text

variable {hints : TypeHints} {entries later : List (String × String)}
  {entry : String × String} {key value : String} {word arguments : List Char}

theorem insertEntry_of_lt (less : ∀ entry ∈ entries, entry.1 < key) :
    insertEntry key value entries = entries ++ [(key, value)] := by
  induction entries with
  | nil => rfl
  | cons head rest ih =>
      have headLess := less head List.mem_cons_self
      have notLess : ¬key < head.1 := String.lt_asymm headLess
      have different : key ≠ head.1 := fun same =>
        String.lt_irrefl key (same ▸ headLess)
      rw [insertEntry, if_neg notLess, if_neg different,
        ih fun entry member => less entry (List.mem_cons_of_mem _ member),
        List.cons_append]

theorem entries_foldl_insert (hints : TypeHints)
    (increasing : (hints.entries ++ later).Pairwise fun left right =>
      left.1 < right.1) :
    (later.foldl (fun hints entry => hints.insert entry.1 entry.2) hints).entries =
      hints.entries ++ later := by
  induction later generalizing hints with
  | nil => rw [List.foldl_nil, List.append_nil]
  | cons entry rest ih =>
      have less : ∀ before ∈ hints.entries, before.1 < entry.1 := fun before member =>
        (List.pairwise_append.mp increasing).2.2 before member entry List.mem_cons_self
      have inserted : (hints.insert entry.1 entry.2).entries =
          hints.entries ++ [entry] := insertEntry_of_lt less
      rw [List.foldl_cons, ih, inserted, List.append_assoc, List.singleton_append]
      rwa [inserted, List.append_assoc, List.singleton_append]

theorem eq_of_entries {left right : TypeHints}
    (same : left.entries = right.entries) : left = right := by
  obtain ⟨leftEntries, _⟩ := left
  obtain ⟨rightEntries, _⟩ := right
  cases same
  rfl

theorem ofList_entries (hints : TypeHints) : ofList hints.entries = hints :=
  eq_of_entries (entries_foldl_insert empty hints.increasing)

def nameOf (word : List Char) : List Char := word.takeWhile (· != ':')

def typeOf (word : List Char) : List Char := (word.dropWhile (· != ':')).tail

/-- A word with one colon, and something before it. -/
def IsHint (word : List Char) : Prop := word.count ':' = 1 ∧ word.head? ≠ some ':'

instance (word : List Char) : Decidable (IsHint word) :=
  inferInstanceAs (Decidable (_ ∧ _))

def entryOf (word : List Char) : String × String :=
  (String.ofList (nameOf word), singleQuoted (String.ofList (unquote (typeOf word))))

section Word

variable {name type : List Char}

theorem nameOf_append_cons (absent : ':' ∉ name) (type : List Char) :
    nameOf (name ++ ':' :: type) = name ∧ typeOf (name ++ ':' :: type) = type := by
  have kept : ∀ c ∈ name, (c != ':') = true := fun c member =>
    bne_iff_ne.mpr fun same => absent (same ▸ member)
  rw [nameOf, typeOf, List.takeWhile_append_of_pos kept, List.dropWhile_append_of_pos kept]
  simp

theorem entryOf_append_cons (absent : ':' ∉ name) (type : List Char) :
    entryOf (name ++ ':' :: type) =
      (String.ofList name, singleQuoted (String.ofList (unquote type))) := by
  obtain ⟨isName, isType⟩ := nameOf_append_cons absent type
  rw [entryOf, isName, isType]

theorem isHint_append_cons (noName : ':' ∉ name) (noType : ':' ∉ type)
    (nonempty : name ≠ []) : IsHint (name ++ ':' :: type) := by
  constructor
  · rw [List.count_append, List.count_cons_self, List.count_eq_zero.mpr noName,
      List.count_eq_zero.mpr noType]
  · intro first
    rw [List.head?_append_of_ne_nil _ nonempty] at first
    exact noName (List.mem_of_mem_head? first)

theorem IsHint.exists_eq (isHint : IsHint word) :
    ∃ name type, word = name ++ ':' :: type ∧ ':' ∉ name ∧ ':' ∉ type ∧ name ≠ [] := by
  obtain ⟨once, notFirst⟩ := isHint
  have colon : ':' ∈ word := List.count_pos_iff.mp (by omega)
  obtain ⟨name, type, rfl, absent⟩ := List.eq_append_cons_of_mem colon
  rw [List.count_append, List.count_cons_self, List.count_eq_zero.mpr absent] at once
  refine ⟨name, type, rfl, absent, List.count_eq_zero.mp (by omega), fun empty => notFirst ?_⟩
  rw [empty]
  rfl

theorem isHint_of_splitOn (parts : word.splitOn ':' = [name, type]) (nonempty : name ≠ []) :
    IsHint word := by
  have joined : [':'].intercalate (word.splitOn ':') = word := List.intercalate_splitOn ':'
  have noName : ':' ∉ name := not_mem_of_mem_splitOn (parts ▸ List.mem_cons_self)
  have noType : ':' ∉ type :=
    not_mem_of_mem_splitOn (parts ▸ List.mem_cons_of_mem _ List.mem_cons_self)
  rw [parts, List.intercalate_cons_cons, List.intercalate_singleton, List.append_assoc,
    List.singleton_append] at joined
  exact joined ▸ isHint_append_cons noName noType nonempty

theorem readWord_eq (word : List Char) :
    readWord word =
      if IsHint word then .ok (entryOf word)
      else .error (.malformedType (String.ofList word)) := by
  by_cases isHint : IsHint word
  · obtain ⟨name, type, rfl, noName, noType, nonempty⟩ := isHint.exists_eq
    have parts : (name ++ ':' :: type).splitOn ':' = [name, type] := by
      rw [List.splitOn_append_cons_self, List.splitOn_eq_singleton noName,
        List.splitOn_eq_singleton noType, List.singleton_append]
    have notEmpty : ¬name.isEmpty = true := by simpa using nonempty
    rw [if_pos isHint, readWord, parts, entryOf_append_cons noName]
    simp only [if_neg notEmpty]
  · rw [if_neg isHint, readWord]
    split
    · rename_i name type parts
      by_cases empty : name.isEmpty = true
      · rw [if_pos empty]
      · exact absurd (isHint_of_splitOn parts (by simpa using empty)) isHint
    · rfl

end Word

/-- The first word that is not a hint decides the error. -/
theorem mapM_readWord_eq (written : List (List Char)) :
    written.mapM readWord =
      match written.find? fun word => ¬IsHint word with
      | none => .ok (written.map entryOf)
      | some word => .error (.malformedType (String.ofList word)) := by
  induction written with
  | nil => rfl
  | cons word rest ih =>
      rw [List.mapM_cons, List.find?_cons, readWord_eq]
      by_cases isHint : IsHint word
      · rw [if_pos isHint, ih]
        simp only [isHint, not_true_eq_false, decide_false]
        cases rest.find? fun word => ¬IsHint word <;> rfl
      · rw [if_neg isHint]
        simp only [isHint, not_false_eq_true, decide_true]
        rfl

theorem read_of_words (something : words arguments ≠ []) :
    read arguments =
      match (words arguments).find? fun word => ¬IsHint word with
      | none => .ok (ofList ((words arguments).map entryOf))
      | some word => .error (.malformedType (String.ofList word)) := by
  have unfolded : read arguments = ((words arguments).mapM readWord).map ofList := by
    rw [read]
    split
    · rename_i none
      exact absurd none something
    · rfl
  rw [unfolded, mapM_readWord_eq]
  cases (words arguments).find? fun word => ¬IsHint word <;> rfl

theorem read_of_isHint (something : words arguments ≠ [])
    (areHints : ∀ word ∈ words arguments, IsHint word) :
    read arguments = .ok (ofList ((words arguments).map entryOf)) := by
  have noOther : (words arguments).find? (fun word => ¬IsHint word) = none :=
    List.find?_eq_none.mpr fun word member => by simpa using areHints word member
  rw [read_of_words something, noOther]

theorem isHint_of_read (reads : read arguments = .ok hints) :
    words arguments ≠ [] ∧ (∀ word ∈ words arguments, IsHint word) ∧
      hints = ofList ((words arguments).map entryOf) := by
  have something : words arguments ≠ [] := by
    intro none
    rw [read, none] at reads
    cases reads
  rw [read_of_words something] at reads
  split at reads
  · rename_i noOther
    cases reads
    refine ⟨something, fun word member => ?_, rfl⟩
    simpa using List.find?_eq_none.mp noOther word member
  · cases reads

theorem read_eq_error_iff {error : Error} :
    read arguments = .error error ↔
      words arguments = [] ∧ error = .noTypes ∨
        ∃ word, (words arguments).find? (fun word => ¬IsHint word) = some word ∧
          error = .malformedType (String.ofList word) := by
  by_cases something : words arguments = []
  · rw [read, something]
    simp [eq_comm]
  · rw [read_of_words something]
    cases (words arguments).find? fun word => ¬IsHint word <;> simp [something, eq_comm]

/-- A variable that can have a type. -/
def IsKey (s : List Char) : Prop := IsWord s ∧ ':' ∉ s

instance (s : List Char) : Decidable (IsKey s) :=
  inferInstanceAs (Decidable (_ ∧ _))

/-- A type as it is stored, in single quotes. -/
def IsType (s : List Char) : Prop :=
  ∃ name, s = '\'' :: (name ++ ['\'']) ∧ Uniform false name ∧ ':' ∉ name

theorem isType_iff {s : List Char} :
    IsType s ↔ s = '\'' :: (s.tail.dropLast ++ ['\'']) ∧
      Uniform false s.tail.dropLast ∧ ':' ∉ s.tail.dropLast := by
  constructor
  · intro isType
    obtain ⟨name, rfl, noBlank, noColon⟩ := isType
    rw [List.tail_cons, List.dropLast_concat]
    exact ⟨rfl, noBlank, noColon⟩
  · intro parts
    exact ⟨_, parts⟩

instance (s : List Char) : Decidable (IsType s) := decidable_of_iff' _ isType_iff

/-- The arguments that spell the hints are read as these hints. -/
@[mk_iff]
structure Canonical (hints : TypeHints) : Prop where
  nonempty : hints.entries ≠ []
  keys : ∀ entry ∈ hints.entries, IsKey entry.1.toList
  types : ∀ entry ∈ hints.entries, IsType entry.2.toList

instance (hints : TypeHints) : Decidable hints.Canonical :=
  decidable_of_iff' _ (canonical_iff hints)

theorem IsType.noBlank {s : List Char} (isType : IsType s) : Uniform false s := by
  obtain ⟨name, rfl, noBlank, _⟩ := isType
  exact uniform_quoted noBlank

theorem isWord_wordOf (isKey : IsKey entry.1.toList) (isType : IsType entry.2.toList) :
    IsWord (wordOf entry) := by
  refine ⟨by simp [wordOf], fun c member => ?_⟩
  rcases List.mem_append.mp member with inKey | later
  · exact isKey.1.2 c inKey
  · rcases List.mem_cons.mp later with rfl | inType
    · decide
    · exact isType.noBlank c inType

theorem isWord_of_mem_map_wordOf (keys : ∀ entry ∈ entries, IsKey entry.1.toList)
    (types : ∀ entry ∈ entries, IsType entry.2.toList) :
    ∀ word ∈ entries.map wordOf, IsWord word := by
  intro word member
  obtain ⟨entry, inEntries, rfl⟩ := List.mem_map.mp member
  exact isWord_wordOf (keys entry inEntries) (types entry inEntries)

theorem entryOf_wordOf (isKey : IsKey entry.1.toList) (isType : IsType entry.2.toList) :
    IsHint (wordOf entry) ∧ entryOf (wordOf entry) = entry := by
  obtain ⟨key, value⟩ := entry
  obtain ⟨⟨nonempty, _⟩, noColon⟩ := isKey
  obtain ⟨name, quoted, _, noOther⟩ := isType
  have inValue : ':' ∉ value.toList := by
    rw [quoted]
    simpa using noOther
  have stored : singleQuoted (String.ofList (unquote value.toList)) = value := by
    apply String.toList_injective
    rw [toList_singleQuoted, quoted, unquote_quoted, String.toList_ofList]
  refine ⟨isHint_append_cons noColon inValue nonempty, ?_⟩
  rw [wordOf, entryOf_append_cons noColon, stored, String.ofList_toList]

theorem toList_source_eq_spaced (hints : TypeHints) :
    hints.source.toList = spaced (hints.entries.map wordOf) := by
  rw [toList_source, spaced, List.flatMap_map]

theorem read_source (canonical : hints.Canonical) :
    read (trim hints.source.toList) = .ok hints := by
  obtain ⟨nonempty, keys, types⟩ := canonical
  have spelled : words (trim hints.source.toList) = hints.entries.map wordOf := by
    rw [words_trim, toList_source_eq_spaced]
    exact words_spaced (isWord_of_mem_map_wordOf keys types)
  have each : ∀ entry ∈ hints.entries,
      IsHint (wordOf entry) ∧ entryOf (wordOf entry) = entry := fun entry member =>
    entryOf_wordOf (keys entry member) (types entry member)
  have readBack : (hints.entries.map wordOf).map entryOf = hints.entries := by
    rw [List.map_map, Function.comp_def,
      List.map_congr_left fun entry member => (each entry member).2, List.map_id']
  have something : words (trim hints.source.toList) ≠ [] := by
    rw [spelled]
    simpa using nonempty
  have areHints : ∀ word ∈ words (trim hints.source.toList), IsHint word := by
    rw [spelled]
    exact List.forall_mem_map.mpr fun entry member => (each entry member).1
  rw [read_of_isHint something areHints, spelled, readBack, ofList_entries]

theorem mem_foldl_insert
    (member : entry ∈ (later.foldl (fun hints entry =>
      hints.insert entry.1 entry.2) hints).entries) :
    entry ∈ hints.entries ∨ entry ∈ later := by
  induction later generalizing hints with
  | nil => exact Or.inl member
  | cons head rest ih =>
      rcases ih member with inserted | inRest
      · rcases key_mem_insertEntry inserted with same | before
        · exact Or.inr (same ▸ List.mem_cons_self)
        · exact Or.inl before
      · exact Or.inr (List.mem_cons_of_mem _ inRest)

theorem insertEntry_ne_nil (key value : String) (entries : List (String × String)) :
    insertEntry key value entries ≠ [] := by
  cases entries with
  | nil => simp [insertEntry]
  | cons head rest =>
      rw [insertEntry]
      split
      · simp
      · split <;> simp

theorem foldl_insert_ne_nil (something : hints.entries ≠ [] ∨ later ≠ []) :
    (later.foldl (fun hints entry => hints.insert entry.1 entry.2) hints).entries ≠
      [] := by
  induction later generalizing hints with
  | nil => simpa using something
  | cons head rest ih =>
      exact ih (Or.inl (insertEntry_ne_nil head.1 head.2 hints.entries))

theorem entryOf_of_isHint (isWord : IsWord word) (isHint : IsHint word) :
    IsKey (entryOf word).1.toList ∧ IsType (entryOf word).2.toList ∧
      (entryOf word).1.toList <:+: word ∧
      ∃ name, (entryOf word).2.toList = '\'' :: (name ++ ['\'']) ∧ name <:+: word := by
  obtain ⟨key, value, rfl, notInKey, notInValue, nonempty⟩ := isHint.exists_eq
  have noBlankKey : Uniform false key := fun c member =>
    isWord.2 c (List.mem_append_left _ member)
  have noBlankValue : Uniform false value := fun c member =>
    isWord.2 c (List.mem_append_right _ (List.mem_cons_of_mem _ member))
  have shorter := unquote_isInfix value
  have inKey : key <:+: key ++ ':' :: value := List.infix_append_left
  have inValue : value <:+: key ++ ':' :: value :=
    List.infix_append_of_infix_right (List.infix_cons List.infix_rfl)
  have spelled : (singleQuoted (String.ofList (unquote value))).toList =
      '\'' :: (unquote value ++ ['\'']) := by
    rw [toList_singleQuoted, String.toList_ofList]
  rw [entryOf_append_cons notInKey, String.toList_ofList, spelled]
  refine ⟨⟨⟨nonempty, noBlankKey⟩, notInKey⟩, ⟨unquote value, rfl, ?_, ?_⟩, inKey,
    unquote value, rfl, shorter.trans inValue⟩
  · exact fun c member => noBlankValue c (shorter.subset member)
  · exact fun colon => notInValue (shorter.subset colon)

/-- What is read as hints is spelled from parts of the arguments, apart from the
quotes around the types, and so that it is read again. -/
theorem canonical_of_read (reads : read arguments = .ok hints) :
    hints.Canonical ∧ ∀ entry ∈ hints.entries, entry.1.toList <:+: arguments ∧
      ∃ name, entry.2.toList = '\'' :: (name ++ ['\'']) ∧ name <:+: arguments := by
  obtain ⟨something, areHints, rfl⟩ := isHint_of_read reads
  have fromWord : ∀ entry ∈ (ofList ((words arguments).map entryOf)).entries,
      ∃ word, IsWord word ∧ word <:+: arguments ∧ IsHint word ∧ entryOf word = entry := by
    intro entry member
    rcases mem_foldl_insert member with impossible | listed
    · exact absurd impossible List.not_mem_nil
    · obtain ⟨word, inWords, same⟩ := List.mem_map.mp listed
      obtain ⟨isWord, inside⟩ := isWord_of_mem_words inWords
      exact ⟨word, isWord, inside, areHints word inWords, same⟩
  have nonempty : (words arguments).map entryOf ≠ [] := by simpa using something
  refine ⟨⟨foldl_insert_ne_nil (Or.inr nonempty), fun entry member => ?_,
    fun entry member => ?_⟩, fun entry member => ?_⟩
  · obtain ⟨word, isWord, _, isHint, rfl⟩ := fromWord entry member
    exact (entryOf_of_isHint isWord isHint).1
  · obtain ⟨word, isWord, _, isHint, rfl⟩ := fromWord entry member
    exact (entryOf_of_isHint isWord isHint).2.1
  · obtain ⟨word, isWord, inside, isHint, rfl⟩ := fromWord entry member
    obtain ⟨_, _, inKey, name, quoted, inName⟩ := entryOf_of_isHint isWord isHint
    exact ⟨inKey.trans inside, name, quoted, inName.trans inside⟩

end TemplateTree.TypeHints
