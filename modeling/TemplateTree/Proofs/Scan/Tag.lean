import TemplateTree.Proofs.Scan.Slice
import TemplateTree.Proofs.Tag.TypeHints
import TemplateTree.Scan.Tag

namespace TemplateTree

namespace Text

variable {quote : Char} {s : List Char}

theorem utf8Size_of_isQuote (isMark : isQuote quote = true) : quote.utf8Size = 1 := by
  simp only [isQuote, Bool.or_eq_true, beq_iff_eq] at isMark
  rcases isMark with rfl | rfl <;> decide

theorem trim_of_noBlank (noBlank : Uniform false s) : trim s = s :=
  strip_of_stripped ⟨fun c first => noBlank c (List.mem_of_mem_head? first),
    fun c last => noBlank c (List.mem_of_mem_getLast? last)⟩

theorem trim_eq_nil_iff : trim s = [] ↔ words s = [] := by
  rw [← words_trim s]
  constructor
  · intro nothing
    rw [nothing]
    rfl
  · intro noWord
    cases trimmed : trim s with
    | nil => rfl
    | cons c rest =>
        have first := (stripped_strip isBlank s).1 c (by rw [← trim, trimmed]; rfl)
        have isWord : IsWord [c] := ⟨List.cons_ne_nil c [], List.forall_mem_singleton.mpr first⟩
        rw [trimmed] at noWord
        exact absurd noWord (words_ne_nil isWord ⟨rest, rfl⟩)

theorem takeWhile_ne_eq (c : Char) (s : List Char) :
    s.takeWhile (· != c) = ((cut? [c] s).map Prod.fst).getD s := by
  by_cases member : c ∈ s
  · obtain ⟨before, after, rfl, absent⟩ := List.eq_append_cons_of_mem member
    have kept : ∀ d ∈ before, (d != c) = true := fun d inBefore =>
      bne_iff_ne.mpr fun same => absent (same ▸ inBefore)
    rw [cut?_singleton absent, List.takeWhile_append_of_pos kept, List.takeWhile_cons,
      if_neg (by simp), List.append_nil]
    rfl
  · have nowhere : cut? [c] s = none := by
      rwa [cut?_eq_none_iff, List.singleton_infix_iff]
    have kept : ∀ d ∈ s, (d != c) = true := fun d inside =>
      bne_iff_ne.mpr fun same => member (same ▸ inside)
    rw [nowhere, List.takeWhile_eq_self_iff.mpr kept]
    rfl

end Text

namespace Scan

open Text

variable {quote : Char} {s word : List Char}

theorem hasQuotes_iff (isMark : isQuote quote = true) :
    hasQuotes quote s = true ↔ ∃ inside, s = quote :: (inside ++ [quote]) := by
  have oneByte := utf8Size_of_isQuote isMark
  simp only [hasQuotes, Bool.and_eq_true, decide_eq_true_eq, beq_iff_eq]
  constructor
  · rintro ⟨⟨long, first⟩, last⟩
    obtain ⟨rest, rfl⟩ := List.head?_eq_some_iff.mp first
    have nonempty : rest ≠ [] := by
      rintro rfl
      rw [byteLength_singleton] at long
      omega
    obtain ⟨c, others, rfl⟩ := List.exists_cons_of_ne_nil nonempty
    rw [List.getLast?_cons_cons] at last
    obtain ⟨inside, split⟩ := List.getLast?_eq_some_iff.mp last
    exact ⟨inside, by rw [split]⟩
  · rintro ⟨inside, rfl⟩
    refine ⟨⟨?_, rfl⟩, ?_⟩
    · simp only [byteLength, byteLength_append]
      omega
    · rw [← List.cons_append, List.getLast?_concat]

theorem slice_quoted (isMark : isQuote quote = true) (inside : List Char) :
    slice (quote :: (inside ++ [quote])) 1 (byteLength (quote :: (inside ++ [quote])) - 1) =
      .ok inside := by
  have oneByte := utf8Size_of_isQuote isMark
  refine slice_append [quote] inside [quote] oneByte.symm ?_
  simp only [byteLength, byteLength_append]
  omega

theorem unquote_eq (s : List Char) : unquote s = .ok (Text.unquote s) := by
  have cut : ∀ quote, isQuote quote = true → hasQuotes quote s = true →
      slice s 1 (byteLength s - 1) = .ok (Text.unquote s) := by
    intro quote isMark quoted
    obtain ⟨inside, rfl⟩ := (hasQuotes_iff isMark).mp quoted
    rw [slice_quoted isMark, ← Unquoted.eq_unquote (Or.inl ⟨quote, isMark, rfl⟩)]
  rw [unquote]
  split
  · rename_i quoted
    rcases (Bool.or_eq_true _ _).mp quoted with single | double
    · exact cut '\'' rfl single
    · exact cut '"' rfl double
  · rename_i bare
    refine congrArg Except.ok
      (Unquoted.eq_unquote (Or.inr ⟨rfl, fun quote inside isMark whole => ?_⟩))
    have quoted := (hasQuotes_iff isMark).mpr ⟨inside, whole⟩
    simp only [isQuote, Bool.or_eq_true, beq_iff_eq] at isMark
    rcases isMark with rfl | rfl <;> simp [quoted] at bare

theorem hint_eq (isWord : IsWord word) : hint word = ofExcept (TypeHints.readWord word) := by
  rw [TypeHints.readWord_eq, hint]
  by_cases once : word.count ':' = 1
  · have colon : ':' ∈ word := List.count_pos_iff.mp (by omega)
    obtain ⟨name, type, rfl, absent⟩ := List.eq_append_cons_of_mem colon
    have noBlank := isWord.2
    have sameName : trim name = name :=
      trim_of_noBlank fun c member => noBlank c (List.mem_append_left _ member)
    have sameType : trim type = type :=
      trim_of_noBlank fun c member =>
        noBlank c (List.mem_append_right _ (List.mem_cons_of_mem _ member))
    rw [if_pos once, cut?_singleton absent]
    simp only [sameName, sameType]
    cases name with
    | nil =>
        have notHint : ¬TypeHints.IsHint ([] ++ ':' :: type) := fun isHint => isHint.2 rfl
        rw [if_neg notHint]
        rfl
    | cons first rest =>
        have different : first ≠ ':' := fun same => absent (same ▸ List.mem_cons_self)
        have isHint : TypeHints.IsHint (first :: rest ++ ':' :: type) :=
          ⟨once, fun same => different (Option.some.inj same)⟩
        rw [if_pos isHint, TypeHints.entryOf_append_cons absent, unquote_eq]
        rfl
  · have notHint : ¬TypeHints.IsHint word := fun isHint => once isHint.1
    rw [if_neg once, if_neg notHint]
    rfl

theorem mapM_ofExcept {α β : Type} {scan : α → Scan β} {read : α → Except Error β}
    {values : List α} (same : ∀ value ∈ values, scan value = ofExcept (read value)) :
    values.mapM scan = ofExcept (values.mapM read) := by
  induction values with
  | nil => rfl
  | cons value rest ih =>
      obtain ⟨first, later⟩ := List.forall_mem_cons.mp same
      rw [List.mapM_cons, List.mapM_cons, first, ih later, ofExcept_bind]
      congr 1
      funext head
      rw [ofExcept_bind]
      rfl

theorem typeHints_eq (arguments : List Char) :
    typeHints arguments = ofExcept (TypeHints.read arguments) := by
  have hints : (words arguments).mapM hint =
      ofExcept ((words arguments).mapM TypeHints.readWord) :=
    mapM_ofExcept fun word member => hint_eq (isWord_of_mem_words member).1
  rw [typeHints, TypeHints.read]
  split
  · rename_i empty
    rw [trim_eq_nil_iff.mp (List.isEmpty_iff.mp empty)]
    rfl
  · rename_i notEmpty
    split
    · rename_i noWord
      exact absurd (List.isEmpty_iff.mpr (trim_eq_nil_iff.mpr noWord)) notEmpty
    · rw [hints, ofExcept_map]
      rfl

theorem before?_eq (mark s : List Char) : before? mark s = .ok ((cut? mark s).map Prod.fst) := by
  rw [before?, offset?_eq_map_cut?]
  cases found : cut? mark s with
  | none => rfl
  | some parts =>
      obtain ⟨before, after⟩ := parts
      have cut : sliceTo (before ++ (mark ++ after)) (byteLength before) = .ok before :=
        sliceTo_append rfl
      rw [eq_append_of_cut? found, List.append_assoc]
      exact congrArg (· >>= fun part => Except.ok (some part)) cut

theorem behind?_eq (mark s : List Char) : behind? mark s = .ok ((cut? mark s).map Prod.snd) := by
  rw [behind?, offset?_eq_map_cut?]
  cases found : cut? mark s with
  | none => rfl
  | some parts =>
      obtain ⟨before, after⟩ := parts
      have cut : sliceFrom (before ++ mark ++ after) (byteLength before + byteLength mark) =
          .ok after := sliceFrom_append (byteLength_append before mark).symm
      rw [eq_append_of_cut? found]
      exact congrArg (· >>= fun part => Except.ok (some part)) cut

theorem scopes_eq (object : List Char) :
    scopes object = ofExcept (Inheritance.readScopes object) := by
  rw [scopes, behind?_eq, ok_bind, Inheritance.readScopes]
  cases cut? "scopes:".toList object with
  | none => rfl
  | some parts =>
      by_cases opens : ∃ array, trimStart parts.2 = '[' :: array
      · obtain ⟨array, bracket⟩ := opens
        simp only [Option.map_some, bracket, before?_eq, ok_bind]
        cases cut? [']'] array with
        | none => rfl
        | some inner => rfl
      · -- By this fact the first branch of both sides is passed over.
        have noBracket : ∀ array, trimStart parts.2 ≠ '[' :: array :=
          fun array bracket => opens ⟨array, bracket⟩
        simp only [Option.map_some]
        rfl

theorem object_eq (text : List Char) :
    object text = ofExcept (Inheritance.readObject text) := by
  rw [object, behind?_eq, ok_bind, Inheritance.readObject]
  cases cut? "template:".toList text with
  | none => rfl
  | some parts =>
      simp only [Option.map_some, before?_eq, ok_bind, scopes_eq, takeWhile_ne_eq, ofExcept_map]
      rfl

theorem inheritance_eq (arguments : List Char) :
    inheritance arguments = ofExcept (Inheritance.read arguments) := by
  rw [inheritance, Inheritance.read]
  cases trimmed : trim arguments with
  | nil => rfl
  | cons c rest =>
      by_cases brace : c = '{'
      · subst brace
        have different : '{' ≠ '}' := by decide
        have ends : beforeLast? '}' ('{' :: rest) = (beforeLast? '}' rest).map ('{' :: ·) := by
          rw [beforeLast?_cons]
          cases beforeLast? '}' rest with
          | none => exact if_neg different
          | some before => rfl
        simp only [List.head?_cons, if_true, lastOffset?_eq_map_beforeLast?, ends, Option.map_map]
        cases found : beforeLast? '}' rest with
        | none => rfl
        | some object =>
            obtain ⟨after, whole⟩ := prefix_of_beforeLast? found
            have cut : slice ('{' :: rest) 1 (byteLength ('{' :: object)) = .ok object := by
              rw [← whole]
              exact slice_append ['{'] _ _ rfl rfl
            simp only [Option.map_some, Function.comp_apply, cut, ok_bind, object_eq]
      · have other : ¬(c :: rest).head? = some '{' := fun same => brace (Option.some.inj same)
        rw [if_neg other]
        split
        · rename_i same
          exact absurd (List.cons.inj same).1 brace
        · rfl

theorem tag_eq (body : List Char) : tag body = ofExcept (Tag.ofBody body) := by
  rw [tag, Tag.ofBody]
  cases Keyword.ofWord? (Tag.keyword body) with
  | none => rfl
  | some keyword =>
      cases keyword with
      | inherits =>
          simp only [ofKeyword, inheritance_eq, Tag.ofKeyword, ofExcept_map]
          rfl
      | types =>
          simp only [ofKeyword, typeHints_eq, Tag.ofKeyword, ofExcept_map]
          rfl
      | _ => rfl

end Scan

end TemplateTree
