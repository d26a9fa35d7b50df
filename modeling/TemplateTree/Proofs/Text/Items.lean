import Mathlib.Data.List.Infix
import TemplateTree.Proofs.Text.Edges
import TemplateTree.Proofs.Text.Search

namespace TemplateTree.Text

variable {s part before after mark : List Char} {parts : List (List Char)}
  {c : Char} {clean : List Char → List Char}

theorem toList_listed (values : List String) :
    (listed values).toList = [',', ' '].intercalate (values.map String.toList) :=
  String.toList_intercalate

/-- A mark stands in a list when it stands in a part of it, unless it has to do
with what separates the parts. -/
theorem infix_intercalate_iff {gap : List Char} (nonempty : mark ≠ [])
    (noComma : ',' ∉ mark) (noGap : ∀ c ∈ gap, c ∉ mark) :
    mark <:+: (',' :: gap).intercalate parts ↔ ∃ part ∈ parts, mark <:+: part := by
  induction parts with
  | nil => simpa using nonempty
  | cons first rest ih =>
      cases rest with
      | nil => simp
      | cons second rest =>
          rw [List.intercalate_cons_cons, List.append_assoc, List.cons_append,
            infix_append_cons_iff noComma, infix_append_iff_of_disjoint noGap nonempty,
            ih]
          simp only [List.exists_mem_cons_iff]

theorem not_mem_listed {values : List String} (notComma : c ≠ ',')
    (notSpace : c ≠ ' ') (absent : ∀ value ∈ values, c ∉ value.toList) :
    c ∉ (listed values).toList := by
  intro member
  have inside := (List.singleton_infix_iff c _).mpr member
  have noComma : ',' ∉ [c] := by simpa using notComma.symm
  have noSpace : ∀ gap ∈ [' '], gap ∉ [c] := by simpa using notSpace.symm
  rw [toList_listed, infix_intercalate_iff (by simp) noComma noSpace] at inside
  obtain ⟨part, isPart, inPart⟩ := inside
  obtain ⟨value, inValues, rfl⟩ := List.mem_map.mp isPart
  exact absent value inValues ((List.singleton_infix_iff c _).mp inPart)

theorem not_mem_of_mem_splitOn (member : part ∈ s.splitOn c) : c ∉ part := by
  induction s generalizing part with
  | nil =>
      rw [List.splitOn_nil, List.mem_singleton] at member
      rw [member]
      exact List.not_mem_nil
  | cons first rest ih =>
      rw [List.splitOn_cons_eq_if_modifyHead] at member
      by_cases separates : (first == c) = true
      · rw [if_pos separates] at member
        rcases List.mem_cons.mp member with empty | later
        · rw [empty]
          exact List.not_mem_nil
        · exact ih later
      · rw [if_neg separates] at member
        obtain ⟨head, tail, split⟩ :=
          List.exists_cons_of_ne_nil (List.splitOn_ne_nil c rest)
        rw [split, List.modifyHead_cons] at member
        rcases List.mem_cons.mp member with extended | later
        · have inHead := ih (split ▸ List.mem_cons_self)
          rw [extended, List.mem_cons, not_or]
          exact ⟨fun same => separates (beq_iff_eq.mpr same.symm), inHead⟩
        · exact ih (split ▸ List.mem_cons_of_mem _ later)

theorem infix_intercalate (separator : List Char) (member : part ∈ parts) :
    part <:+: separator.intercalate parts := by
  induction parts with
  | nil => exact absurd member List.not_mem_nil
  | cons first rest ih =>
      cases rest with
      | nil =>
          rw [List.mem_singleton.mp member, List.intercalate_singleton]
      | cons second rest =>
          rw [List.intercalate_cons_cons, List.append_assoc]
          rcases List.mem_cons.mp member with same | later
          · rw [same]
            exact List.infix_append_left
          · exact List.infix_append_of_infix_right
              (List.infix_append_of_infix_right (ih later))

theorem infix_of_mem_splitOn (member : part ∈ s.splitOn c) : part <:+: s := by
  have inWhole := infix_intercalate [c] member
  rwa [List.intercalate_splitOn] at inWhole

theorem exists_of_mem_items (member : part ∈ items clean s) :
    part ≠ [] ∧ ∃ raw, part = clean raw ∧ ',' ∉ raw ∧ raw <:+: s := by
  obtain ⟨cleaned, nonempty⟩ := List.mem_filter.mp member
  obtain ⟨raw, inSplit, same⟩ := List.mem_map.mp cleaned
  exact ⟨by simpa using nonempty, raw, same.symm, not_mem_of_mem_splitOn inSplit,
    infix_of_mem_splitOn inSplit⟩

def IsItem (s : List Char) : Prop := s ≠ [] ∧ Stripped isBlank s ∧ ',' ∉ s

instance (s : List Char) : Decidable (IsItem s) :=
  inferInstanceAs (Decidable (_ ∧ _ ∧ _))

theorem isItem_of_mem_items (member : part ∈ items trim s) :
    IsItem part ∧ part <:+: s := by
  obtain ⟨nonempty, raw, rfl, noComma, inside⟩ := exists_of_mem_items member
  have shorter := strip_isInfix isBlank raw
  exact ⟨⟨nonempty, stripped_strip isBlank raw,
    fun comma => noComma (shorter.subset comma)⟩, shorter.trans inside⟩

theorem items_append_comma (left right : List Char) :
    items clean (left ++ ',' :: right) = items clean left ++ items clean right := by
  rw [items, List.splitOn_append_cons_self, List.map_append, List.filter_append]
  rfl

theorem items_of_no_comma (noComma : ',' ∉ s) :
    items clean s = [clean s].filter fun part => !part.isEmpty := by
  rw [items, List.splitOn_eq_singleton noComma, List.map_singleton]

theorem comma_not_mem_of_blank (blank : ∀ c ∈ s, isBlank c = true) : ',' ∉ s := by
  intro member
  have impossible := blank ',' member
  revert impossible
  decide

section

variable (trims : ∀ s, clean (trim s) = clean s)

include trims

theorem clean_append_left (blank : ∀ c ∈ before, isBlank c = true)
    (s : List Char) : clean (before ++ s) = clean s := by
  rw [← trims, trim, strip_append_left blank, ← trim, trims]

theorem clean_append_right (blank : ∀ c ∈ after, isBlank c = true)
    (s : List Char) : clean (s ++ after) = clean s := by
  rw [← trims, trim, strip_append_right blank, ← trim, trims]

theorem items_append_left (blank : ∀ c ∈ before, isBlank c = true)
    (s : List Char) : items clean (before ++ s) = items clean s := by
  have noComma := comma_not_mem_of_blank blank
  by_cases member : ',' ∈ s
  · obtain ⟨left, right, rfl, first⟩ := List.eq_append_cons_of_mem member
    have inBoth : ',' ∉ before ++ left := by
      rw [List.mem_append, not_or]
      exact ⟨noComma, first⟩
    rw [← List.append_assoc, items_append_comma, items_append_comma,
      items_of_no_comma first, items_of_no_comma inBoth,
      clean_append_left trims blank]
  · have inBoth : ',' ∉ before ++ s := by
      rw [List.mem_append, not_or]
      exact ⟨noComma, member⟩
    rw [items_of_no_comma member, items_of_no_comma inBoth,
      clean_append_left trims blank]

theorem items_append_right (blank : ∀ c ∈ after, isBlank c = true)
    (s : List Char) : items clean (s ++ after) = items clean s := by
  have noComma := comma_not_mem_of_blank blank
  -- What follows the first comma is again a list, and a shorter one.
  induction length : s.length using Nat.strongRecOn generalizing s with
  | ind size ih =>
      by_cases member : ',' ∈ s
      · obtain ⟨left, right, rfl, first⟩ := List.eq_append_cons_of_mem member
        have shorter : right.length < size := by
          rw [← length, List.length_append, List.length_cons]
          omega
        rw [List.append_assoc, List.cons_append, items_append_comma,
          items_append_comma, ih right.length shorter right rfl]
      · have inBoth : ',' ∉ s ++ after := by
          rw [List.mem_append, not_or]
          exact ⟨member, noComma⟩
        rw [items_of_no_comma member, items_of_no_comma inBoth,
          clean_append_right trims blank]

theorem items_dropWhile (s : List Char) :
    items clean (s.dropWhile isBlank) = items clean s := by
  have blank : ∀ c ∈ s.takeWhile isBlank, isBlank c = true :=
    fun c => List.mem_takeWhile_imp
  have same := items_append_left trims blank (s.dropWhile isBlank)
  rw [List.takeWhile_append_dropWhile] at same
  exact same.symm

theorem items_rdropWhile (s : List Char) :
    items clean (s.rdropWhile isBlank) = items clean s := by
  have blank : ∀ c ∈ s.rtakeWhile isBlank, isBlank c = true :=
    fun c => List.mem_rtakeWhile_imp
  have same := items_append_right trims blank (s.rdropWhile isBlank)
  rw [List.rdropWhile_append_rtakeWhile] at same
  exact same.symm

theorem items_trim (s : List Char) : items clean (trim s) = items clean s := by
  rw [trim, strip_eq_rdropWhile, items_rdropWhile trims, items_dropWhile trims]

/-- A list that was written from parts without commas is read as these parts. -/
theorem items_intercalate {gap : List Char} (blank : ∀ c ∈ gap, isBlank c = true)
    (empty : clean [] = []) (separate : ∀ part ∈ parts, ',' ∉ part ∧ clean part ≠ []) :
    items clean ((',' :: gap).intercalate parts) = parts.map clean := by
  have single : ∀ part ∈ parts, items clean part = [clean part] := by
    intro part member
    obtain ⟨noComma, nonempty⟩ := separate part member
    rw [items_of_no_comma noComma, List.filter_singleton]
    cases cleaned : clean part with
    | nil => exact absurd cleaned nonempty
    | cons c rest => rfl
  induction parts with
  | nil =>
      rw [List.intercalate_nil, items_of_no_comma List.not_mem_nil, empty]
      rfl
  | cons first rest ih =>
      have later := ih (fun part member => separate part (List.mem_cons_of_mem _ member))
        (fun part member => single part (List.mem_cons_of_mem _ member))
      have firstSingle := single first List.mem_cons_self
      cases rest with
      | nil => rw [List.intercalate_singleton, firstSingle, List.map_singleton]
      | cons second rest =>
          rw [List.intercalate_cons_cons, List.append_assoc, List.cons_append,
            items_append_comma, firstSingle, items_append_left trims blank, later]
          rfl

end

theorem trim_trim (s : List Char) : trim (trim s) = trim s :=
  strip_of_stripped (stripped_strip isBlank s)

theorem items_listed {values : List String}
    (areItems : ∀ value ∈ values, IsItem value.toList) :
    (items trim (listed values).toList).map String.ofList = values := by
  have clean : ∀ part ∈ values.map String.toList, trim part = part := by
    intro part member
    obtain ⟨value, inValues, rfl⟩ := List.mem_map.mp member
    exact strip_of_stripped (areItems value inValues).2.1
  have separate : ∀ part ∈ values.map String.toList,
      ',' ∉ part ∧ trim part ≠ [] := by
    intro part member
    rw [clean part member]
    obtain ⟨value, inValues, rfl⟩ := List.mem_map.mp member
    exact ⟨(areItems value inValues).2.2, (areItems value inValues).1⟩
  rw [toList_listed, items_intercalate trim_trim isBlank_space rfl separate,
    List.map_congr_left clean, List.map_id', List.map_map]
  simp only [Function.comp_def, String.ofList_toList, List.map_id']

/-- Reading a comma list gives items, every list of items is read back from its written form,
and so one reading settles a list. -/
theorem items_settle :
    (∀ s, ∀ part ∈ items trim s, IsItem part) ∧
    (∀ values : List String, (∀ value ∈ values, IsItem value.toList) →
      (items trim (listed values).toList).map String.ofList = values) ∧
    ∀ s, (items trim (listed ((items trim s).map String.ofList)).toList).map String.ofList =
      (items trim s).map String.ofList := by
  refine ⟨fun s part member => (isItem_of_mem_items member).1, fun _ => items_listed, fun s => ?_⟩
  refine items_listed fun value member => ?_
  obtain ⟨part, isPart, rfl⟩ := List.mem_map.mp member
  rw [String.toList_ofList]
  exact (isItem_of_mem_items isPart).1

theorem count_strip {p : Char → Bool} (kept : p c = false) (s : List Char) :
    (strip p s).count c = s.count c := by
  have count_dropWhile (s : List Char) : (s.dropWhile p).count c = s.count c := by
    have absent : (s.takeWhile p).count c = 0 := by
      refine List.count_eq_zero.mpr fun member => ?_
      rw [List.mem_takeWhile_imp member] at kept
      cases kept
    have whole := congrArg (List.count c) (List.takeWhile_append_dropWhile (p := p) (l := s))
    rwa [List.count_append, absent, Nat.zero_add] at whole
  rw [strip, List.count_reverse, count_dropWhile, List.count_reverse, count_dropWhile]

theorem count_flatten_splitOn (notComma : c ≠ ',') (s : List Char) :
    (s.splitOn ',').flatten.count c = s.count c := by
  induction s with
  | nil => rfl
  | cons first rest ih =>
      rw [List.splitOn_cons_eq_if_modifyHead]
      by_cases separates : (first == ',') = true
      · have different : first ≠ c := by
          rw [eq_of_beq separates]
          exact notComma.symm
        rw [if_pos separates, List.flatten_cons, List.nil_append, ih,
          List.count_cons_of_ne different]
      · obtain ⟨head, tail, split⟩ :=
          List.exists_cons_of_ne_nil (List.splitOn_ne_nil ',' rest)
        rw [split] at ih
        rw [if_neg separates, split, List.modifyHead_cons, List.flatten_cons,
          List.cons_append, List.count_cons, List.count_cons, ← List.flatten_cons, ih]

/-- Only commas, and what is cleaned off the parts, are left out. -/
theorem count_flatten_items (notComma : c ≠ ',')
    (keeps : ∀ part, (clean part).count c = part.count c) (s : List Char) :
    (items clean s).flatten.count c = s.count c := by
  have same : List.count c ∘ clean = List.count c := funext keeps
  rw [items, List.flatten_filter_not_isEmpty, List.count_flatten, List.map_map, same,
    ← List.count_flatten, count_flatten_splitOn notComma]

end TemplateTree.Text
