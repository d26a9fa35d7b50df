import TemplateTree.Proofs.Stack
import TemplateTree.Proofs.Tag.TypeHints

namespace TemplateTree

/-! What is wrong with a piece can be told from the piece and from the place where it starts, so
the first fault in the text decides the error, whatever scopes are open there. -/

namespace Outcome

theorem result_bind {α β : Type} (first : Outcome α) (next : α → Outcome β) :
    (first >>= next).result = first.result.bind fun value => (next value).result := by
  obtain ⟨records, _ | value⟩ := first <;> rfl

theorem eq_error_of_map_eq_error {α β : Type} {result : Except Error α}
    {change : α → β} {error : Error} (failed : result.map change = .error error) :
    result = .error error := by
  cases result with
  | error other => exact congrArg Except.error (Except.error.inj failed)
  | ok value => cases failed

end Outcome

section Declarations

variable {arguments : List Char} {delimiter : Delimiter} {position : Nat}

theorem TypeHints.read_ne_unclosedTag :
    read arguments ≠ .error (.unclosedTag delimiter position) := by
  intro failed
  rcases read_eq_error_iff.mp failed with ⟨_, same⟩ | ⟨word, _, same⟩
  · cases same
  · cases same

theorem Inheritance.readScopes_ne_unclosedTag (object : List Char) :
    readScopes object ≠ .error (.unclosedTag delimiter position) := by
  intro failed
  rw [readScopes] at failed
  split at failed
  · cases failed
  · split at failed
    · split at failed <;> cases failed
    · cases failed

theorem Inheritance.readObject_ne_unclosedTag (object : List Char) :
    readObject object ≠ .error (.unclosedTag delimiter position) := by
  intro failed
  rw [readObject] at failed
  split at failed
  · cases failed
  · exact readScopes_ne_unclosedTag object (Outcome.eq_error_of_map_eq_error failed)

theorem Inheritance.read_ne_unclosedTag :
    read arguments ≠ .error (.unclosedTag delimiter position) := by
  intro failed
  rw [read] at failed
  split at failed
  · split at failed
    · cases failed
    · exact readObject_ne_unclosedTag _ failed
  · rw [readPath] at failed
    split at failed <;> cases failed

end Declarations

namespace Tag

variable {body : List Char} {error : Error}

/-- Only two kinds of declarations can be wrong. -/
theorem ofBody_eq_error_iff :
    ofBody body = .error error ↔
      (keyword body = Keyword.types.spelling.toList ∧
          TypeHints.read (arguments body) = .error error) ∨
        (keyword body = Keyword.inherits.spelling.toList ∧
          Inheritance.read (arguments body) = .error error) := by
  have mapped {α : Type} (result : Except Error α) (change : α → Tag) :
      result.map change = .error error ↔ result = .error error := by
    cases result <;> simp [Except.map]
  cases found : Keyword.ofWord? (keyword body) with
  | none =>
      have other (known : Keyword) : keyword body ≠ known.spelling.toList := by
        intro same
        rw [same, Keyword.ofWord?_spelling] at found
        cases found
      simp [ofBody, found, other]
  | some known =>
      have same := Keyword.ofWord?_eq_some_iff.mp found
      have isKnown (expected : Keyword) :
          keyword body = expected.spelling.toList ↔ known = expected := by
        rw [← Keyword.ofWord?_eq_some_iff, found, Option.some.injEq]
      rw [isKnown, isKnown, ofBody, found]
      cases known <;> simp [ofKeyword, mapped]

theorem ofBody_ne_unclosedTag {delimiter : Delimiter} {position : Nat} :
    ofBody body ≠ .error (.unclosedTag delimiter position) := by
  rw [Ne, ofBody_eq_error_iff]
  rintro (⟨_, rejected⟩ | ⟨_, rejected⟩)
  · exact TypeHints.read_ne_unclosedTag rejected
  · exact Inheritance.read_ne_unclosedTag rejected

end Tag

namespace Piece

open Text

variable {piece : Piece} {pieces : List Piece} {position : Nat} {error : Error}

/-- What is wrong with a piece that starts at the given byte. -/
inductive Fault (position : Nat) : Piece → Error → Prop where
  | unclosed {delimiter : Delimiter} {inside : List Char}
      (unending : ¬delimiter.closer <:+: inside) :
      Fault position (.unclosed delimiter inside) (.unclosedTag delimiter position)
  | types {inside : List Char} {error : Error}
      (keyword : Tag.keyword (trim inside) = "types".toList)
      (rejected : TypeHints.read (Tag.arguments (trim inside)) = .error error) :
      Fault position (.tag .statement inside) error
  | inherits {inside : List Char} {error : Error}
      (keyword : Tag.keyword (trim inside) = "sw_extends".toList)
      (rejected : Inheritance.read (Tag.arguments (trim inside)) = .error error) :
      Fault position (.tag .statement inside) error

theorem error?_eq_some_iff (sound : piece.Sound) :
    piece.error? position = some error ↔ piece.Fault position error := by
  constructor
  · intro faulty
    cases piece with
    | text run => cases faulty
    | unclosed delimiter inside =>
        cases faulty
        exact .unclosed sound
    | tag delimiter inside =>
        cases delimiter with
        | expression => cases faulty
        | statement =>
            cases reads : Tag.ofBody (trim inside) with
            | ok tag => simp [error?, reads] at faulty
            | error other =>
                obtain rfl : other = error := by simpa [error?, reads] using faulty
                rcases Tag.ofBody_eq_error_iff.mp reads with
                  ⟨keyword, rejected⟩ | ⟨keyword, rejected⟩
                · exact .types keyword rejected
                · exact .inherits keyword rejected
  · intro fault
    cases fault with
    | unclosed unending => rfl
    | types keyword rejected =>
        rw [error?, Tag.ofBody_eq_error_iff.mpr (Or.inl ⟨keyword, rejected⟩)]
    | inherits keyword rejected =>
        rw [error?, Tag.ofBody_eq_error_iff.mpr (Or.inr ⟨keyword, rejected⟩)]

theorem error?_eq_none_iff :
    piece.error? position = none ↔ piece.token? ≠ none := by
  cases piece with
  | text run => simp [error?, token?]
  | unclosed delimiter inside => simp [error?, token?]
  | tag delimiter inside =>
      cases delimiter with
      | expression => simp [error?, token?]
      | statement =>
          cases reads : Tag.ofBody (trim inside) <;>
            simp [error?, token?, reads, Except.toOption]

theorem not_fault_iff (sound : piece.Sound) :
    (∀ position error, ¬piece.Fault position error) ↔ piece.token? ≠ none := by
  simp only [← error?_eq_some_iff sound]
  constructor
  · intro clear
    exact error?_eq_none_iff.mp (Option.eq_none_iff_forall_ne_some.mpr (clear 0))
  · intro clear position error faulty
    rw [error?_eq_none_iff.mpr clear] at faulty
    cases faulty

def firstError? (position : Nat) : List Piece → Option Error
  | [] => none
  | piece :: rest =>
      (piece.error? position).or
        (firstError? (position + byteLength piece.source) rest)

theorem firstError?_eq_none_iff :
    firstError? position pieces = none ↔ ∀ piece ∈ pieces, piece.token? ≠ none := by
  induction pieces generalizing position with
  | nil => simp [firstError?]
  | cons piece rest ih =>
      rw [firstError?, Option.or_eq_none_iff, error?_eq_none_iff, ih,
        List.forall_mem_cons]

theorem firstError?_append (position : Nat) (before after : List Piece) :
    firstError? position (before ++ after) =
      (firstError? position before).or
        (firstError? (position + byteLength (before.flatMap source)) after) := by
  induction before generalizing position with
  | nil => simp [firstError?, byteLength]
  | cons piece rest ih =>
      rw [List.cons_append, firstError?, firstError?, ih, Option.or_assoc,
        List.flatMap_cons, byteLength_append, Nat.add_assoc]

theorem firstError?_eq_some_iff :
    firstError? position pieces = some error ↔
      ∃ before piece after, pieces = before ++ piece :: after ∧
        (∀ earlier ∈ before, earlier.token? ≠ none) ∧
        piece.error? (position + byteLength (before.flatMap source)) =
          some error := by
  constructor
  · intro found
    induction pieces generalizing position with
    | nil => cases found
    | cons piece rest ih =>
        rw [firstError?] at found
        cases here : piece.error? position with
        | some other =>
            rw [here, Option.some_or] at found
            exact ⟨[], piece, rest, rfl, by simp, here.trans found⟩
        | none =>
            rw [here, Option.none_or] at found
            obtain ⟨before, faulty, after, rfl, clear, isError⟩ := ih found
            refine ⟨piece :: before, faulty, after, rfl, ?_, ?_⟩
            · exact List.forall_mem_cons.mpr ⟨error?_eq_none_iff.mp here, clear⟩
            · rwa [List.flatMap_cons, byteLength_append, ← Nat.add_assoc]
  · intro first
    obtain ⟨before, piece, after, rfl, clear, isError⟩ := first
    rw [firstError?_append, firstError?_eq_none_iff.mpr clear, Option.none_or,
      firstError?, isError, Option.some_or]

end Piece

namespace Assembly

variable {assembly : Assembly} {pieces : List Piece} {error : Error}

theorem exists_effect_of_ofBody {inside : List Char} {tag : Tag}
    (scope : Option Scope) (position : Nat)
    (reads : Tag.ofBody (Text.trim inside) = .ok tag) :
    ∃ effect, (Effect.ofStatement scope inside position).result = .ok effect := by
  rw [Effect.ofStatement]
  simp only [Outcome.result_bind, Outcome.result_note, Outcome.result_ofExcept, reads,
    Except.bind]
  cases tag with
  | closes closed =>
      rw [Effect.ofTag]
      split
      · exact ⟨_, rfl⟩
      · exact ⟨_, rfl⟩
  | _ => exact ⟨_, rfl⟩

theorem position_apply (assembly : Assembly) (effect : Effect) :
    (assembly.apply effect).position = assembly.position := by
  cases effect with
  | adds nodes => rfl
  | enters header => rfl
  | leaves =>
      rw [apply]
      split <;> rfl

theorem result_step (assembly : Assembly) (piece : Piece) :
    (assembly.step piece).result.map position =
      match piece.error? assembly.position with
      | some error => .error error
      | none => .ok (assembly.position + Text.byteLength piece.source) := by
  cases piece with
  | text run => rfl
  | unclosed delimiter inside => rfl
  | tag delimiter inside =>
      cases delimiter with
      | expression => rfl
      | statement =>
          let next := assembly.move (Delimiter.statement.wrap inside)
          rw [step, Outcome.result_map, Effect.ofInside]
          cases reads : Tag.ofBody (Text.trim inside) with
          | ok tag =>
              obtain ⟨effect, happens⟩ :=
                exists_effect_of_ofBody next.scope? next.position reads
              rw [Piece.error?, reads, happens]
              exact congrArg Except.ok (next.position_apply effect)
          | error error =>
              rw [Piece.error?, reads, Effect.ofStatement]
              simp only [Outcome.result_bind, Outcome.result_note,
                Outcome.result_ofExcept, reads]
              rfl

theorem result_close_ne_error (nodes : Template) (frames : List Frame) :
    (close nodes frames).result ≠ .error error := by
  intro failed
  have closed := toOption_result_close nodes frames
  rw [failed] at closed
  cases closed

/-- Whatever has been built so far, a run fails with the first error of its pieces. -/
theorem result_run_eq_error_iff :
    (assembly.run pieces).result = .error error ↔
      Piece.firstError? assembly.position pieces = some error := by
  induction pieces generalizing assembly with
  | nil => exact iff_of_false (result_close_ne_error _ _) (by simp [Piece.firstError?])
  | cons piece rest ih =>
      have step := assembly.result_step piece
      rw [run, Outcome.result_bind, Piece.firstError?]
      cases here : piece.error? assembly.position with
      | some other =>
          rw [here] at step
          rw [Outcome.eq_error_of_map_eq_error step, Option.some_or, Option.some.injEq]
          exact ⟨Except.error.inj, congrArg Except.error⟩
      | none =>
          rw [here] at step
          obtain ⟨next, taken, behind⟩ := Tag.exists_of_map_eq_ok step
          rw [taken, Option.none_or, ← behind]
          exact ih

end Assembly

/-- Reading fails with the error of the first faulty piece of the template. -/
theorem Template.parse_eq_error_iff {source : String} {error : Error} :
    Template.parse source = .error error ↔
      Piece.firstError? 0 (Piece.cut source.toList) = some error := by
  rw [Template.parse, read_eq_assemble, assemble]
  exact Assembly.result_run_eq_error_iff

theorem Template.exists_error_iff {source : String} :
    (∃ error, Template.parse source = .error error) ↔
      ∃ piece ∈ Piece.cut source.toList, piece.token? = none := by
  simp only [Template.parse_eq_error_iff]
  rw [← Option.isSome_iff_exists, Option.isSome_iff_ne_none, Ne,
    Piece.firstError?_eq_none_iff]
  simp only [not_forall, not_not, exists_prop]

/-- An error that is not about a missing closing mark stays whatever follows. -/
theorem Template.parse_append_of_error {source : String} {error : Error}
    (failed : Template.parse source = .error error)
    (closed : ∀ delimiter position, error ≠ .unclosedTag delimiter position)
    (more : String) : Template.parse (source ++ more) = .error error := by
  rw [Template.parse_eq_error_iff, Piece.firstError?_eq_some_iff] at failed ⊢
  obtain ⟨before, piece, after, found, clear, isError⟩ := failed
  cases piece with
  | text run => cases isError
  | unclosed delimiter inside =>
      cases isError
      exact absurd rfl (closed _ _)
  | tag delimiter inside =>
      obtain ⟨later, extended⟩ := Piece.exists_cut_append_of_tag found more.toList
      rw [String.toList_append]
      exact ⟨before, _, later, extended, clear, isError⟩

/-- Errors are decided by the first fault alone, which starts at the given byte.  An
error that is not about a missing closing mark stays whatever follows. -/
theorem Template.parse_eq_error_iff_fault {source : String} {error : Error} :
    (Template.parse source = .error error ↔
        ∃ before piece after, Piece.cut source.toList = before ++ piece :: after ∧
          (∀ earlier ∈ before, ∀ position other, ¬earlier.Fault position other) ∧
          piece.Fault (String.ofList (before.flatMap Piece.source)).utf8ByteSize
            error) ∧
      (Template.parse source = .error error →
        (∀ delimiter position, error ≠ .unclosedTag delimiter position) →
          ∀ more, Template.parse (source ++ more) = .error error) := by
  refine ⟨?_, Template.parse_append_of_error⟩
  have sound := (Piece.segmented_cut source.toList).1
  rw [Template.parse_eq_error_iff, Piece.firstError?_eq_some_iff]
  -- The two descriptions of a fault agree on every piece of the template.
  refine exists_congr fun before => exists_congr fun piece => exists_congr fun after =>
    and_congr_right fun found => ?_
  rw [found] at sound
  obtain ⟨beforeSound, isSound, _⟩ : _ ∧ _ ∧ _ := by
    simpa only [List.forall_mem_append, List.forall_mem_cons] using sound
  rw [Nat.zero_add, Piece.error?_eq_some_iff isSound, Text.utf8ByteSize_ofList]
  refine and_congr_left fun _ => forall₂_congr fun earlier member => ?_
  exact (Piece.not_fault_iff (beforeSound earlier member)).symm

/-- Hints that cannot be read in a block that stays open, behind a letter of two bytes,
and in front of a tag that does not end. -/
theorem Template.parse_eq_error_of_hints_in_block :
    Template.parse "é\x7b% block a %\x7d\x7b% types x %\x7d\x7b\x7b" =
        .error (.malformedType "x") ∧
      (∀ delimiter position,
        Error.malformedType "x" ≠ .unclosedTag delimiter position) ∧
      ∀ more, Template.parse
        ("é\x7b% block a %\x7d\x7b% types x %\x7d\x7b\x7b" ++ more) =
          .error (.malformedType "x") := by
  have failed : Template.parse "é\x7b% block a %\x7d\x7b% types x %\x7d\x7b\x7b" =
      .error (.malformedType "x") := by decide +kernel
  have closed : ∀ delimiter position,
      Error.malformedType "x" ≠ .unclosedTag delimiter position :=
    fun _ _ same => by cases same
  exact ⟨failed, closed, Template.parse_eq_error_iff_fault.2 failed closed⟩

/-- The byte at which an unclosed tag starts is not the number of its character. -/
example : Template.parse "é \x7b\x7b x" = .error (.unclosedTag .expression 3) := by
  decide +kernel

end TemplateTree
