import Mathlib.Data.List.Nodup
import TemplateTree.Proofs.Tag.TypeHints

namespace TemplateTree.TypeHints

open Text

variable {hints left right : TypeHints} {entries later : List (String × String)}
  {entry : String × String} {key other value type : String} {word arguments : List Char}
  {written others : List (List Char)}

theorem lookup_cons (key : String) (entry : String × String)
    (rest : List (String × String)) :
    (entry :: rest).lookup key =
      if key = entry.1 then some entry.2 else rest.lookup key := by
  rw [List.lookup_cons]
  by_cases same : key = entry.1
  · rw [if_pos same, beq_iff_eq.mpr same]
  · rw [if_neg same, beq_eq_false_iff_ne.mpr same]

theorem lookup_insertEntry (key value other : String) (entries : List (String × String)) :
    (insertEntry key value entries).lookup other =
      if other = key then some value else entries.lookup other := by
  induction entries with
  | nil => rw [insertEntry, lookup_cons]
  | cons head rest ih =>
      rw [insertEntry]
      split
      · rw [lookup_cons]
      · split
        · rename_i replaced
          rw [lookup_cons, lookup_cons, ← replaced]
          split <;> rfl
        · rename_i different
          rw [lookup_cons, ih, lookup_cons]
          by_cases same : other = key
          · subst same
            rw [if_neg different, if_pos rfl, if_pos rfl]
          · rw [if_neg same, if_neg same]

theorem find?_insert (hints : TypeHints) (key value other : String) :
    (hints.insert key value).find? other =
      if other = key then some value else hints.find? other :=
  lookup_insertEntry key value other hints.entries

theorem find?_foldl_insert (hints : TypeHints) (key : String) :
    (later.foldl (fun hints entry => hints.insert entry.1 entry.2) hints).find? key =
      (later.reverse.lookup key).or (hints.find? key) := by
  induction later generalizing hints with
  | nil => rfl
  | cons entry rest ih =>
      rw [List.foldl_cons, ih, find?_insert, List.reverse_cons, List.lookup_append,
        Option.or_assoc, lookup_cons]
      congr 1
      split <;> rfl

/-- The last entry of a name stands. -/
theorem find?_ofList (entries : List (String × String)) (key : String) :
    (ofList entries).find? key = entries.reverse.lookup key := by
  rw [ofList, find?_foldl_insert]
  exact Option.or_none

theorem mem_entries_iff :
    (key, value) ∈ hints.entries ↔ hints.find? key = some value := by
  rw [find?, List.lookup_eq_some_iff]
  constructor
  · intro member
    obtain ⟨before, after, whole⟩ := List.append_of_mem member
    refine ⟨before, after, whole, fun entry earlier => ?_⟩
    have increasing := hints.increasing
    rw [whole, List.pairwise_append] at increasing
    have less := increasing.2.2 entry earlier _ List.mem_cons_self
    exact bne_iff_ne.mpr fun same => String.lt_irrefl key (same ▸ less)
  · rintro ⟨before, after, whole, _⟩
    rw [whole]
    exact List.mem_append_right _ List.mem_cons_self

theorem mem_keys_iff : key ∈ hints.entries.map Prod.fst ↔ hints.find? key ≠ none := by
  rw [Option.ne_none_iff_exists', List.mem_map]
  constructor
  · rintro ⟨entry, member, rfl⟩
    exact ⟨entry.2, mem_entries_iff.mp member⟩
  · rintro ⟨value, found⟩
    exact ⟨_, mem_entries_iff.mpr found, rfl⟩

/-- Hints that answer alike have the same entries, since these are in order. -/
theorem eq_of_find? (same : ∀ key, left.find? key = right.find? key) : left = right := by
  have nodup (hints : TypeHints) : hints.entries.Nodup := by
    refine hints.increasing.imp fun {first second} less same => ?_
    rw [same] at less
    exact String.lt_irrefl second.1 less
  have members : ∀ entry, entry ∈ left.entries ↔ entry ∈ right.entries := fun entry => by
    rw [mem_entries_iff, mem_entries_iff, same]
  have perm := (List.perm_ext_iff_of_nodup (nodup left) (nodup right)).mpr members
  refine eq_of_entries (perm.eq_of_pairwise ?_ left.increasing right.increasing)
  intro first second _ _ less greater
  exact absurd greater (String.lt_asymm less)

theorem lookup_map_entryOf (written : List (List Char)) (key : String) :
    (written.map entryOf).lookup key =
      (written.find? fun word => nameOf word = key.toList).map fun word =>
        (entryOf word).2 := by
  induction written with
  | nil => rfl
  | cons word rest ih =>
      have named : (key == (entryOf word).1) = decide (nameOf word = key.toList) := by
        rw [Bool.eq_iff_iff, beq_iff_eq, decide_eq_true_iff, entryOf, ← String.toList_inj,
          String.toList_ofList, eq_comm]
      rw [List.map_cons, List.lookup_cons, List.find?_cons, named, ih]
      cases decide (nameOf word = key.toList) <;> rfl

theorem find?_ofList_map_entryOf (written : List (List Char)) (key : String) :
    (ofList (written.map entryOf)).find? key =
      ((written.filter fun word => nameOf word = key.toList).getLast?).map fun word =>
        (entryOf word).2 := by
  rw [find?_ofList, ← List.map_reverse, lookup_map_entryOf, List.getLast?_filter]

theorem find?_ofList_map_entryOf_ne_none_iff (written : List (List Char)) (key : String) :
    (ofList (written.map entryOf)).find? key ≠ none ↔ key.toList ∈ written.map nameOf := by
  rw [find?_ofList_map_entryOf, ne_eq, Option.map_eq_none_iff, List.getLast?_eq_none_iff,
    List.filter_eq_nil_iff, List.mem_map]
  simp only [decide_eq_true_eq, not_forall, not_not, exists_prop]

/-- Words of one name are the same and in the same order. -/
def Reordered (others written : List (List Char)) : Prop :=
  ∀ name, (others.filter fun word => nameOf word = name) =
    written.filter fun word => nameOf word = name

theorem Reordered.mem_iff (reordered : Reordered others written) :
    word ∈ others ↔ word ∈ written := by
  have inFilter (words : List (List Char)) :
      word ∈ words ↔ word ∈ words.filter fun other => nameOf other = nameOf word := by
    simp
  rw [inFilter others, reordered, ← inFilter]

/-- Words of different names may stand in any order. -/
theorem reordered_of_perm (perm : others.Perm written)
    (distinct : (written.map nameOf).Nodup) : Reordered others written := by
  intro name
  have filtered := perm.filter fun word => decide (nameOf word = name)
  have atMostOne : (written.filter fun word => nameOf word = name).length ≤ 1 := by
    have counted := List.nodup_iff_count_le_one.mp distinct name
    rw [List.count_eq_countP, List.countP_map, Function.comp_def] at counted
    simpa only [← List.countP_eq_length_filter, beq_eq_decide] using counted
  cases named : written.filter fun word => nameOf word = name with
  | nil => rwa [named, List.perm_nil] at filtered
  | cons word rest =>
      rw [named, List.length_cons] at atMostOne
      have single : rest = [] := List.length_eq_zero_iff.mp (by omega)
      rwa [named, single, List.perm_singleton, ← single] at filtered

/-- What hints have to do with the words from which they were read. -/
structure ReadFrom (written : List (List Char)) (hints : TypeHints) : Prop where
  /-- The last word of a name decides its type. -/
  last : ∀ key type, hints.find? key = some type ↔
    ∃ word inside, (written.filter fun word => nameOf word = key.toList).getLast? = some word ∧
      Unquoted (typeOf word) inside ∧ type = singleQuoted (String.ofList inside)
  reordered : ∀ arguments, Reordered (words arguments) written → read arguments = .ok hints
  permuted : (written.map nameOf).Nodup → ∀ arguments, (words arguments).Perm written →
    read arguments = .ok hints
  /-- The source consists of the opening mark, the keyword, one word for each name and the
  closing mark. -/
  printed : words (Leaf.types hints).source.toList =
    Delimiter.statement.opener :: "types".toList ::
        (words hints.source.toList ++ [Delimiter.statement.closer])
  increasing : ((words hints.source.toList).map fun word =>
    String.ofList (nameOf word)).Pairwise (· < ·)
  names : ∀ name, name ∈ (words hints.source.toList).map nameOf ↔ name ∈ written.map nameOf
  again : read hints.source.toList = .ok hints

theorem read_of_reordered {again : List Char} (something : words arguments ≠ [])
    (areHints : ∀ word ∈ words arguments, IsHint word)
    (reordered : Reordered (words again) (words arguments)) :
    read again = read arguments := by
  have somethingAgain : words again ≠ [] := by
    obtain ⟨word, member⟩ := List.exists_mem_of_ne_nil _ something
    exact List.ne_nil_of_mem (reordered.mem_iff.mpr member)
  have areHintsAgain : ∀ word ∈ words again, IsHint word :=
    fun word member => areHints word (reordered.mem_iff.mp member)
  rw [read_of_isHint somethingAgain areHintsAgain, read_of_isHint something areHints]
  refine congrArg Except.ok (eq_of_find? fun key => ?_)
  rw [find?_ofList_map_entryOf, find?_ofList_map_entryOf, reordered]

section

variable (reads : read arguments = .ok hints)

include reads

theorem words_source_of_read : words hints.source.toList = hints.entries.map wordOf := by
  obtain ⟨⟨_, keys, types⟩, _⟩ := canonical_of_read reads
  rw [toList_source_eq_spaced, words_spaced (isWord_of_mem_map_wordOf keys types)]

theorem keys_source_of_read :
    ((words hints.source.toList).map fun word => String.ofList (nameOf word)) =
      hints.entries.map Prod.fst := by
  obtain ⟨⟨_, keys, _⟩, _⟩ := canonical_of_read reads
  rw [words_source_of_read reads, List.map_map]
  refine List.map_congr_left fun entry member => ?_
  have isName := (nameOf_append_cons (keys entry member).2 entry.2.toList).1
  rw [Function.comp_apply, wordOf, isName, String.ofList_toList]

/-- In the source of the whole tag, too, each word is set off by a space. -/
theorem words_source_leaf_of_read :
    words (Leaf.types hints).source.toList =
      Delimiter.statement.opener :: "types".toList ::
        (words hints.source.toList ++ [Delimiter.statement.closer]) := by
  obtain ⟨⟨_, keys, types⟩, _⟩ := canonical_of_read reads
  let parts := "types".toList :: (hints.entries.map wordOf ++ [Delimiter.statement.closer])
  have areWords : ∀ part ∈ parts, IsWord part := by
    intro part member
    rcases List.mem_cons.mp member with rfl | later
    · decide
    · rcases List.mem_append.mp later with inEntries | last
      · exact isWord_of_mem_map_wordOf keys types part inEntries
      · rw [List.mem_singleton.mp last]
        decide
  have spelled : (Leaf.types hints).source.toList =
      Delimiter.statement.opener ++ spaced parts := by
    rw [Leaf.source, Delimiter.toList_enclose, String.toList_append, toList_source_eq_spaced]
    simp [spaced, parts]
  rw [spelled, words_append (by decide) (blank_head?_spaced parts), words_spaced areWords,
    words_source_of_read reads]

end

theorem read_trim (arguments : List Char) : read (trim arguments) = read arguments := by
  rw [read, words_trim, ← read]

theorem readFrom_of_isHint (something : words arguments ≠ [])
    (areHints : ∀ word ∈ words arguments, IsHint word) :
    ∃ hints, read arguments = .ok hints ∧ ReadFrom (words arguments) hints := by
  let hints := ofList ((words arguments).map entryOf)
  have reads : read arguments = .ok hints := read_of_isHint something areHints
  have answers (key : String) : hints.find? key =
      ((words arguments).filter fun word => nameOf word = key.toList).getLast?.map fun word =>
        (entryOf word).2 := find?_ofList_map_entryOf (words arguments) key
  have same : ∀ again, Reordered (words again) (words arguments) → read again = .ok hints :=
    fun again reordered => by rw [read_of_reordered something areHints reordered, reads]
  refine ⟨hints, reads, ?_, same, ?_, words_source_leaf_of_read reads, ?_, ?_, ?_⟩
  · intro key type
    rw [answers, Option.map_eq_some_iff]
    constructor
    · rintro ⟨word, isLast, rfl⟩
      exact ⟨word, unquote (typeOf word), isLast, unquoted_unquote _, rfl⟩
    · rintro ⟨word, inside, isLast, unquoted, rfl⟩
      rw [unquoted.eq_unquote]
      exact ⟨word, isLast, rfl⟩
  · exact fun distinct again perm => same again (reordered_of_perm perm distinct)
  · rw [keys_source_of_read reads]
    exact List.pairwise_map.mpr hints.increasing
  · intro name
    have asKey (words : List (List Char)) :
        name ∈ words.map nameOf ↔
          String.ofList name ∈ words.map fun word => String.ofList (nameOf word) := by
      simp only [List.mem_map, String.ofList_inj]
    rw [asKey (words hints.source.toList), keys_source_of_read reads, mem_keys_iff,
      find?_ofList_map_entryOf_ne_none_iff, String.toList_ofList]
  · rw [← read_trim, read_source (canonical_of_read reads).1]

/-- Reading looks at the words of the arguments only.  It fails when there is none or when
one is no hint, and otherwise the last word of each name stands. -/
theorem read_accepts_exactly_and_normalizes (arguments : List Char) :
    (read arguments = .error .noTypes ↔ words arguments = []) ∧
      (∀ word, read arguments = .error (.malformedType (String.ofList word)) ↔
        (words arguments).find? (fun word => ¬IsHint word) = some word) ∧
      (words arguments ≠ [] → (∀ word ∈ words arguments, IsHint word) →
        ∃ hints, read arguments = .ok hints ∧ ReadFrom (words arguments) hints) := by
  refine ⟨?_, fun word => ?_, readFrom_of_isHint⟩
  · rw [read_eq_error_iff]
    simp
  · rw [read_eq_error_iff]
    simp [String.ofList_inj]

theorem read_accepts_repeated_name :
    ∃ hints, read "b:x\tc:\"y' b:'z'".toList = .ok hints ∧
      ReadFrom ["b:x".toList, "c:\"y'".toList, "b:'z'".toList] hints :=
  (read_accepts_exactly_and_normalizes "b:x\tc:\"y' b:'z'".toList).2.2 (by decide) (by decide)

example :
    (read "b:x\tc:\"y' b:'z'".toList).map source = .ok " b:'z' c:'\"y''" := by decide

end TemplateTree.TypeHints
