import TemplateTree.Proofs.Roles
import TemplateTree.Proofs.Tag.Keyword

namespace TemplateTree

open Text

variable {delimiter : Delimiter} {inside other left right blanks : List Char}

namespace Piece

/-- A place inside a tag at which blanks do not matter, given by what stands on its two sides.
Behind the keyword it is any place among the blanks that stand there. -/
inductive Margin : Delimiter → List Char → List Char → Prop where
  | opener (delimiter : Delimiter) (inside : List Char) : Margin delimiter [] inside
  | closer (delimiter : Delimiter) (inside : List Char) : Margin delimiter inside []
  | keyword {lead word gap more : List Char} (isLead : Uniform true lead)
      (isWord : IsWord word) (isGap : Uniform true gap) (isMore : Uniform true more)
      (separated : gap ++ more ≠ []) (rest : List Char) :
      Margin .statement (lead ++ (word ++ gap)) (more ++ rest)

theorem blank_head?_append (nonempty : left ≠ []) (blank : Uniform true left)
    (right : List Char) : ∀ c ∈ (left ++ right).head?, isBlank c = true := by
  intro c first
  rw [List.head?_append_of_ne_nil _ nonempty] at first
  exact blank c (List.mem_of_mem_head? first)

theorem blank_not_mem_closer {c : Char} (blank : isBlank c = true) :
    c ∉ delimiter.closer := by
  intro member
  cases delimiter <;>
    simp only [Delimiter.closer, List.mem_cons, List.not_mem_nil, or_false] at member <;>
    rcases member with rfl | rfl <;>
    exact absurd blank (by decide)

/-- Blanks do not complete a closing mark. -/
theorem sound_insert (blank : Uniform true blanks)
    (sound : (Piece.tag delimiter (left ++ right)).Sound) :
    (Piece.tag delimiter (left ++ (blanks ++ right))).Sound := by
  cases blanks with
  | nil => exact sound
  | cons c rest =>
      obtain ⟨isFirst, others⟩ := List.forall_mem_cons.mp blank
      intro found
      rw [List.append_assoc, List.cons_append, List.cons_append, List.append_assoc,
        infix_append_cons_iff (blank_not_mem_closer isFirst),
        infix_append_iff_of_disjoint (fun d member => blank_not_mem_closer (others d member))
          delimiter.closer_ne_nil] at found
      apply sound
      rw [List.append_assoc]
      exact found.elim List.infix_append_of_infix_left List.infix_append_of_infix_right

namespace Margin

theorem trim_opener (blank : Uniform true blanks) (inside : List Char) :
    trim ([] ++ (blanks ++ inside)) = trim ([] ++ inside) := by
  rw [List.nil_append, List.nil_append, trim, strip_append_left blank, trim]

theorem trim_closer (blank : Uniform true blanks) (inside : List Char) :
    trim (inside ++ (blanks ++ [])) = trim (inside ++ []) := by
  rw [List.append_nil, List.append_nil, trim, strip_append_right blank, trim]

/-- Blanks stand next to a place behind the keyword, and more of them are put there. -/
theorem ofBody_trim_keyword {lead word gap more : List Char} (isLead : Uniform true lead)
    (isWord : IsWord word) (isGap : Uniform true gap) (isMore : Uniform true more)
    (separated : gap ++ more ≠ []) (blank : Uniform true blanks) (rest : List Char) :
    Tag.ofBody (trim (lead ++ (word ++ gap) ++ (blanks ++ (more ++ rest)))) =
      Tag.ofBody (trim (lead ++ (word ++ gap) ++ (more ++ rest))) := by
  have isBlank : Uniform true (gap ++ more) := by
    simpa only [Uniform, List.forall_mem_append] using And.intro isGap isMore
  have isWidened : Uniform true (gap ++ (blanks ++ more)) := by
    simpa only [Uniform, List.forall_mem_append] using And.intro isGap (And.intro blank isMore)
  have stillSeparated : gap ++ (blanks ++ more) ≠ [] := by
    simp only [ne_eq, List.append_eq_nil_iff, not_and] at separated ⊢
    exact fun noGap _ => separated noGap
  have trimmed : trim (gap ++ (blanks ++ more) ++ rest) = trim (gap ++ more ++ rest) := by
    rw [trim, strip_append_left isWidened, trim, strip_append_left isBlank]
  have widened := Tag.ofBody_trim_congr isWord (blank_head?_append stillSeparated isWidened rest)
    (blank_head?_append separated isBlank rest) trimmed
  simpa only [List.append_assoc, trim, strip_append_left isLead] using widened

theorem ofPiece_eq (margin : Margin delimiter left right) (blank : Uniform true blanks)
    (scope : Option Scope) :
    Role.ofPiece scope (.tag delimiter (left ++ (blanks ++ right))) =
      Role.ofPiece scope (.tag delimiter (left ++ right)) := by
  cases margin with
  | opener delimiter inside =>
      cases delimiter <;> simp only [Role.ofPiece, trim_opener blank]
  | closer delimiter inside =>
      cases delimiter <;> simp only [Role.ofPiece, trim_closer blank]
  | keyword isLead isWord isGap isMore separated rest =>
      simp only [Role.ofPiece,
        ofBody_trim_keyword isLead isWord isGap isMore separated blank rest]

end Margin

end Piece

namespace Role

variable {piece : Piece} {scope : Option Scope}

theorem ofPiece_eq_faulty_iff : ofPiece scope piece = .faulty ↔ piece.token? = none := by
  cases classified : piece.token? with
  | some token =>
      have means := Piece.means_of_token? classified scope
      refine iff_of_false (fun faulty => ?_) (Option.some_ne_none token)
      rw [faulty] at means
      cases means
  | none =>
      refine iff_of_true ?_ rfl
      cases piece with
      | text run => cases classified
      | unclosed delimiter inside => rfl
      | tag delimiter inside =>
          cases delimiter with
          | expression => cases classified
          | statement =>
              cases reads : Tag.ofBody (trim inside) with
              | error error => simp only [ofPiece, reads]
              | ok tag => simp [Piece.token?, reads, Except.toOption] at classified

theorem ofPiece_tag_ne_plain : ofPiece scope (.tag delimiter inside) ≠ .plain := by
  intro plain
  cases classified : (Piece.tag delimiter inside).token? with
  | none =>
      rw [ofPiece_eq_faulty_iff.mpr classified] at plain
      cases plain
  | some token =>
      have means := Piece.means_of_token? classified scope
      rw [plain] at means
      cases means

/-- The source of a tag is part of the tree only when the tag is kept as text. -/
theorem events_eq_of_ne_kept (understood : ofPiece scope (.tag delimiter inside) ≠ .kept)
    (other : List Char) :
    (ofPiece scope (.tag delimiter inside)).events (.tag delimiter other) =
      (ofPiece scope (.tag delimiter inside)).events (.tag delimiter inside) := by
  cases role : ofPiece scope (.tag delimiter inside) with
  | kept => exact absurd role understood
  | plain => exact absurd role ofPiece_tag_ne_plain
  | _ => rfl

end Role

namespace Piece

variable {before after : List Piece} {scopes : List Scope} {events : List Event}

/-- A tag that is understood may be replaced by one of the same role. -/
theorem events?_replace
    (same : ∀ scope, Role.ofPiece scope (.tag delimiter other) =
      Role.ofPiece scope (.tag delimiter inside))
    (understood : Role.ofPiece (openScopes scopes before).head? (.tag delimiter inside) ≠ .kept)
    (walk : events? scopes (before ++ .tag delimiter inside :: after) = some events) :
    events? scopes (before ++ .tag delimiter other :: after) = some events := by
  obtain ⟨tokens, whole⟩ := events?_eq_some_iff.mp walk
  obtain ⟨beforeTokens, restTokens⟩ := List.forall_mem_append.mp tokens
  obtain ⟨isToken, afterTokens⟩ := List.forall_mem_cons.mp restTokens
  have stillToken : (Piece.tag delimiter other).token? ≠ none := by
    rwa [ne_eq, ← @Role.ofPiece_eq_faulty_iff _ none, same, Role.ofPiece_eq_faulty_iff]
  have sameEvents := Role.events_eq_of_ne_kept understood other
  refine events?_eq_some_iff.mpr ⟨List.forall_mem_append.mpr ⟨beforeTokens,
    List.forall_mem_cons.mpr ⟨stillToken, afterTokens⟩⟩, ?_⟩
  rw [whole]
  simp only [roleEvents_append, roleEvents_cons, openScopes_append, openScopes, same, sameEvents]

theorem segmented_replace (sound : (Piece.tag delimiter other).Sound)
    (segmented : Segmented (before ++ .tag delimiter inside :: after)) :
    Segmented (before ++ .tag delimiter other :: after) := by
  obtain ⟨isBefore, rest, meets⟩ := segmented_append_iff.mp segmented
  obtain ⟨_, _, isAfter⟩ := segmented_cons_iff.mp rest
  refine segmented_append_iff.mpr ⟨isBefore,
    segmented_cons_iff.mpr ⟨sound, fun _ _ => trivial, isAfter⟩, fun last isLast first isFirst => ?_⟩
  cases isFirst
  have precedes := meets last isLast _ rfl
  cases last with
  | text run => exact precedes
  | tag delimiter inside => trivial
  | unclosed delimiter inside => exact precedes

end Piece

namespace Template

/-- The two parts of a template meet at a margin of a tag that is not kept as text. -/
def IsMargin (front back : String) : Prop :=
  ∃ (before after : List Piece) (delimiter : Delimiter) (left right : List Char),
    Piece.cut (front ++ back).toList = before ++ .tag delimiter (left ++ right) :: after ∧
      front.toList = before.flatMap Piece.source ++ (delimiter.opener ++ left) ∧
      Piece.Margin delimiter left right ∧
      Role.ofPiece (Piece.openScopes [] before).head? (.tag delimiter (left ++ right)) ≠ .kept

variable {front back blanks : String} {template : Template}

/-- Blanks at the margins of the tags that are understood do not change the tree. -/
theorem parse_insert_blanks (parsed : parse (front ++ back) = .ok template)
    (margin : IsMargin front back) (blank : Uniform true blanks.toList) :
    parse (front ++ blanks ++ back) = .ok template := by
  obtain ⟨before, after, delimiter, left, right, pieces, isFront, isMargin, understood⟩ := margin
  have walk := parse_eq_ok_iff_events.mp parsed
  have segmented := Piece.segmented_cut (front ++ back).toList
  have whole := Piece.flatMap_source_cut (front ++ back).toList
  rw [pieces] at walk segmented whole
  have isBack : back.toList = right ++ (delimiter.closer ++ after.flatMap Piece.source) := by
    rw [String.toList_append, isFront, List.flatMap_append, List.flatMap_cons, Piece.source,
      Delimiter.wrap] at whole
    simpa using whole.symm
  have widened : Piece.cut (front ++ blanks ++ back).toList =
      before ++ .tag delimiter (left ++ (blanks.toList ++ right)) :: after := by
    rw [Piece.cut_eq_iff]
    refine ⟨Piece.segmented_replace (Piece.sound_insert blank (segmented.1 _ ?_)) segmented, ?_⟩
    · exact List.mem_append_right _ List.mem_cons_self
    · rw [String.toList_append, String.toList_append, isFront, isBack]
      simp [Piece.source, Delimiter.wrap]
  rw [parse_eq_ok_iff_events, widened]
  exact Piece.events?_replace (isMargin.ofPiece_eq blank) understood walk

/-- An end tag with an argument, behind an end tag that is kept as text. -/
theorem parse_insert_blanks_behind_endfor :
    parse ("\x7b%for a in b%\x7d\x7b%endset%\x7d\x7b%\n endfor" ++ "\t\u3000" ++ " now%\x7d") =
      .ok [.scope (.loop "a" "b") [.leaf (.text "\x7b%endset%\x7d")]] := by
  have parsed :
      parse ("\x7b%for a in b%\x7d\x7b%endset%\x7d\x7b%\n endfor" ++ " now%\x7d") =
        .ok [.scope (.loop "a" "b") [.leaf (.text "\x7b%endset%\x7d")]] :=
    Outcome.toOption_eq_some_iff.mp (by decide +kernel)
  have behindKeyword : Piece.Margin .statement ("\n ".toList ++ ("endfor".toList ++ []))
      ([' '] ++ "now".toList) :=
    .keyword (by decide) (by decide) (by decide) (by decide) (by decide) _
  refine parse_insert_blanks parsed ⟨[.tag .statement "for a in b".toList,
    .tag .statement "endset".toList], [], .statement, _, _, ?_, ?_, behindKeyword, ?_⟩ (by decide)
  · decide +kernel
  · decide +kernel
  · decide +kernel

end Template

end TemplateTree
