import TemplateTree.Proofs.Faults
import TemplateTree.Proofs.Roles

namespace TemplateTree

/-- The same error with more bytes in front of the text. -/
def Error.later (bytes : Nat) : Error → Error
  | .unclosedTag delimiter position => .unclosedTag delimiter (position + bytes)
  | error => error

theorem Error.later_of_closed {error : Error}
    (closed : ∀ delimiter position, error ≠ .unclosedTag delimiter position)
    (bytes : Nat) : error.later bytes = error := by
  cases error with
  | unclosedTag delimiter position => exact absurd rfl (closed delimiter position)
  | _ => rfl

namespace Piece

variable {pieces : List Piece}

theorem error?_add (position bytes : Nat) (piece : Piece) :
    piece.error? (position + bytes) = (piece.error? position).map (Error.later bytes) := by
  cases piece with
  | text run => rfl
  | unclosed delimiter inside => rfl
  | tag delimiter inside =>
      cases delimiter with
      | expression => rfl
      | statement =>
          cases reads : Tag.ofBody (Text.trim inside) with
          | ok tag => simp [error?, reads]
          | error error =>
              -- A declaration that cannot be read is not a tag that does not end.
              have closed : ∀ delimiter position,
                  error ≠ .unclosedTag delimiter position := by
                rintro delimiter position rfl
                exact Tag.ofBody_ne_unclosedTag reads
              simp [error?, reads, Error.later_of_closed closed]

/-- What is wrong with pieces does not depend on how many bytes are in front of them. -/
theorem firstError?_add (position bytes : Nat) :
    firstError? (position + bytes) pieces =
      (firstError? position pieces).map (Error.later bytes) := by
  induction pieces generalizing position with
  | nil => rfl
  | cons piece rest ih =>
      rw [firstError?, firstError?, error?_add, Nat.add_right_comm, ih, Option.map_or]

end Piece

namespace Template

variable {front : String} {nodes : Template}

theorem cut_append_of_boundary
    (boundary : front = "" ∨ ∃ delimiter inside,
      (Piece.cut front.toList).getLast? = some (.tag delimiter inside)) (back : String) :
    Piece.cut (front ++ back).toList =
      Piece.cut front.toList ++ Piece.cut back.toList := by
  rw [String.toList_append]
  rcases boundary with rfl | ⟨delimiter, inside, ends⟩
  · rw [String.toList_empty, Piece.cut_nil, List.nil_append, List.nil_append]
  · exact Piece.cut_append_of_tag ends back.toList

/-- A template behind the end of a tag, where no scope is open, is read as it is read
alone.  Its nodes follow, and a tag of it that does not end starts as many bytes later as
the text in front has. -/
theorem parse_append_of_settled (reads : parse front = .ok nodes)
    (boundary : front = "" ∨ ∃ delimiter inside,
      (Piece.cut front.toList).getLast? = some (.tag delimiter inside))
    (settled : openScopes front = []) (back : String) :
    (∀ more, parse back = .ok more → parse (front ++ back) = .ok (nodes ++ more)) ∧
      (∀ delimiter position, parse back = .error (.unclosedTag delimiter position) →
        parse (front ++ back) =
          .error (.unclosedTag delimiter (position + front.utf8ByteSize))) ∧
      ∀ error, parse back = .error error →
        (∀ delimiter position, error ≠ .unclosedTag delimiter position) →
          parse (front ++ back) = .error error := by
  have cut := cut_append_of_boundary boundary back
  have walk := parse_eq_ok_iff_events.mp reads
  obtain ⟨tokens, whole⟩ := Piece.events?_eq_some_iff.mp walk
  rw [openScopes] at settled
  have failure : ∀ error, parse back = .error error →
      parse (front ++ back) = .error (error.later front.utf8ByteSize) := by
    intro error failed
    rw [parse_eq_error_iff] at failed ⊢
    rw [cut, Piece.firstError?_append, Piece.firstError?_eq_none_iff.mpr tokens,
      Option.none_or, Piece.flatMap_source_cut, Piece.firstError?_add, failed,
      ← Text.utf8ByteSize_ofList, String.ofList_toList]
    rfl
  refine ⟨fun more again => ?_, fun delimiter position failed => failure _ failed,
    fun error failed closed => ?_⟩
  · have later := parse_eq_ok_iff_events.mp again
    rw [settled, List.map_nil, List.append_nil] at whole
    rw [parse_eq_ok_iff_events, cut, Piece.events?_append tokens, settled, later,
      events_append, whole]
    rfl
  · rw [failure error failed, Error.later_of_closed closed]

/-- A block behind a letter of two bytes, in front of an end tag without a block, of a
tag that does not end, and of a declaration that cannot be read. -/
theorem parse_append_behind_block :
    parse ("é\x7b%block a%\x7d\x7b%endset%\x7d\x7b%endblock%\x7d" ++ "x\x7b%endblock%\x7d") =
        .ok [.leaf (.text "é"), .scope (.block "a") [.leaf (.text "\x7b%endset%\x7d")],
          .leaf (.text "x"), .leaf (.text "\x7b%endblock%\x7d")] ∧
      parse ("é\x7b%block a%\x7d\x7b%endset%\x7d\x7b%endblock%\x7d" ++ "x\x7b\x7b") =
        .error (.unclosedTag .expression 36) ∧
      parse ("é\x7b%block a%\x7d\x7b%endset%\x7d\x7b%endblock%\x7d" ++ "\x7b%types%\x7d") =
        .error .noTypes := by
  have reads : parse "é\x7b%block a%\x7d\x7b%endset%\x7d\x7b%endblock%\x7d" =
      .ok [.leaf (.text "é"), .scope (.block "a") [.leaf (.text "\x7b%endset%\x7d")]] :=
    Outcome.toOption_eq_some_iff.mp (by decide +kernel)
  have appended := parse_append_of_settled reads
    (Or.inr ⟨.statement, "endblock".toList, by decide +kernel⟩) (by decide +kernel)
  refine ⟨(appended "x\x7b%endblock%\x7d").1
      [.leaf (.text "x"), .leaf (.text "\x7b%endblock%\x7d")] ?_,
    (appended "x\x7b\x7b").2.1 .expression 1 (by decide +kernel),
    (appended "\x7b%types%\x7d").2.2 .noTypes (by decide +kernel) ?_⟩
  · exact Outcome.toOption_eq_some_iff.mp (by decide +kernel)
  · exact fun _ _ same => by cases same

end Template

end TemplateTree
