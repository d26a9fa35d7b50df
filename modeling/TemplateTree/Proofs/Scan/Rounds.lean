import TemplateTree.Proofs.Faults
import TemplateTree.Proofs.Leftmost
import TemplateTree.Proofs.Scan.Tag
import TemplateTree.Scan

namespace TemplateTree

open Text

namespace Delimiter

theorem byteLength_opener (delimiter : Delimiter) : byteLength delimiter.opener = 2 := by
  cases delimiter <;> decide

theorem byteLength_closer (delimiter : Delimiter) : byteLength delimiter.closer = 2 := by
  cases delimiter <;> decide

end Delimiter

namespace FirstTag

variable {s before inside rest : List Char} {delimiter : Delimiter}

theorem next?_of_absent (absent : find s = .absent) : Delimiter.next? s = none := by
  rw [find] at absent
  split at absent
  · assumption
  · split at absent <;> cases absent

theorem next?_of_unclosed
    (unclosed : find s = .unclosed before delimiter inside) :
    Delimiter.next? s = some ⟨before, delimiter, inside⟩ ∧ cut? delimiter.closer inside = none := by
  rw [find] at unclosed
  split at unclosed
  · cases unclosed
  · rename_i opened
    split at unclosed
    · rename_i nowhere
      cases unclosed
      exact ⟨opened, nowhere⟩
    · cases unclosed

theorem next?_of_closed
    (closed : find s = .closed before delimiter inside rest) :
    ∃ behind, Delimiter.next? s = some ⟨before, delimiter, behind⟩ ∧
      cut? delimiter.closer behind = some (inside, rest) := by
  rw [find] at closed
  split at closed
  · cases closed
  · rename_i opened
    split at closed
    · cases closed
    · rename_i ends
      cases closed
      exact ⟨_, opened, ends⟩

end FirstTag

/-- The position is the length of the text in front of the rest. -/
def Cursor.StandsIn (s : List Char) (cursor : Cursor) : Prop :=
  ∃ passed, s = passed ++ cursor.rest ∧ cursor.position = byteLength passed

namespace Cursor

variable {s : List Char} {cursor : Cursor}

theorem StandsIn.move {passed rest : List Char} (stands : cursor.StandsIn s)
    (split : cursor.rest = passed ++ rest) : (cursor.move passed rest).StandsIn s := by
  obtain ⟨before, whole, isLength⟩ := stands
  refine ⟨before ++ passed, ?_, ?_⟩
  · rw [whole, split, List.append_assoc]
    rfl
  · rw [byteLength_append, ← isLength]
    rfl

theorem StandsIn.byteLength_eq (stands : cursor.StandsIn s) :
    byteLength s = cursor.position + byteLength cursor.rest := by
  obtain ⟨passed, rfl, isLength⟩ := stands
  rw [byteLength_append, isLength]

theorem StandsIn.position_le (stands : cursor.StandsIn s) : cursor.position ≤ byteLength s := by
  rw [stands.byteLength_eq]
  exact Nat.le_add_right _ _

theorem StandsIn.rest_eq_nil (stands : cursor.StandsIn s)
    (atEnd : ¬cursor.position < byteLength s) : cursor.rest = [] := by
  have bounded := length_le_byteLength cursor.rest
  rw [stands.byteLength_eq] at atEnd
  exact List.length_eq_zero_iff.mp (by omega)

theorem StandsIn.behind {before inside rest : List Char} {delimiter : Delimiter}
    (stands : cursor.StandsIn s)
    (closed : FirstTag.find cursor.rest = .closed before delimiter inside rest) :
    (cursor.move (before ++ delimiter.wrap inside) rest).StandsIn s ∧
      cursor.position < (cursor.move (before ++ delimiter.wrap inside) rest).position := by
  constructor
  · apply stands.move
    rw [FirstTag.eq_append_of_closed closed, Delimiter.wrap]
    simp only [List.append_assoc]
  · simp only [Cursor.move, Delimiter.wrap, byteLength_append, Delimiter.byteLength_opener]
    omega

theorem StandsIn.isBoundary (stands : cursor.StandsIn s) : IsBoundary s cursor.position := by
  obtain ⟨passed, rfl, isLength⟩ := stands
  rw [isLength]
  exact isBoundary_byteLength passed _

theorem exists_standsIn {position : Nat} (boundary : IsBoundary s position) :
    ∃ cursor : Cursor, cursor.StandsIn s ∧ cursor.position = position := by
  obtain ⟨passed, rest, whole, isLength⟩ := isBoundary_iff.mp boundary
  exact ⟨⟨position, rest⟩, ⟨passed, whole, isLength.symm⟩, rfl⟩

end Cursor

namespace Scan

variable {α β : Type} {s : List Char} {scope : Option Scope} {cursor : Cursor}

def ofOutcome (outcome : Outcome α) : Scan α := ofExcept outcome.result

theorem ofOutcome_note (record : Record) : ofOutcome (Outcome.note record) = .ok () := rfl

theorem ofOutcome_bind (first : Outcome α) (next : α → Outcome β) :
    ofOutcome (first >>= next) = ofOutcome first >>= fun value => ofOutcome (next value) := by
  obtain ⟨records, _ | value⟩ := first <;> rfl

theorem ofOutcome_map (change : α → β) (first : Outcome α) :
    ofOutcome (change <$> first) = change <$> ofOutcome first := by
  obtain ⟨records, _ | value⟩ := first <;> rfl

theorem ofOutcome_of_ok {outcome : Outcome α} {value : α} (finished : outcome.result = .ok value) :
    ofOutcome outcome = .ok value := by
  rw [ofOutcome, finished]
  rfl

theorem ofOutcome_of_error {outcome : Outcome α} {error : Error}
    (failed : outcome.result = .error error) : ofOutcome outcome = fail error := by
  rw [ofOutcome, failed]
  rfl

theorem effect_eq {delimiter : Delimiter} {inside before after : List Char} {start stop : Nat}
    (position : Nat) (isStart : start = byteLength before)
    (isStop : stop = byteLength before + byteLength (delimiter.wrap inside)) :
    effect (before ++ (delimiter.wrap inside ++ after)) scope delimiter (trim inside) start stop =
      ofOutcome (Effect.ofInside scope delimiter inside position) := by
  have cut : slice (before ++ (delimiter.wrap inside ++ after)) start stop =
      .ok (delimiter.wrap inside) := slice_append _ _ _ isStart isStop
  cases delimiter with
  | expression => rfl
  | statement =>
      have reads : ofOutcome (Effect.ofInside scope .statement inside position) =
          ofExcept (Tag.ofBody (trim inside)) >>= fun tag =>
            ofOutcome (Effect.ofTag scope (trim inside) (Delimiter.statement.wrap inside)
              position tag) := by
        rw [Effect.ofInside, Effect.ofStatement, ofOutcome_bind, ofOutcome_note, ok_bind,
          ofOutcome_bind]
        rfl
      simp only [reads, effect, tag_eq, cut, plain_eq, ok_bind]
      congr 1
      funext tag
      cases tag with
      | closes closed =>
          simp only [Effect.ofTag]
          split <;> rfl
      | _ => rfl

theorem round_of_absent (stands : cursor.StandsIn s)
    (absent : FirstTag.find cursor.rest = .absent) :
    round s scope cursor.position = .ok (.last (.ofText cursor.rest)) := by
  obtain ⟨passed, rfl, isLength⟩ := stands
  rw [round, sliceFrom_append isLength, ok_bind, Delimiter.leftmost?_eq_map_next?,
    FirstTag.next?_of_absent absent, Option.map_none]
  simp only [plain_eq, ok_bind]
  rfl

theorem round_of_next? {before behind : List Char} {delimiter : Delimiter}
    (stands : cursor.StandsIn s)
    (found : Delimiter.next? cursor.rest = some ⟨before, delimiter, behind⟩) :
    round s scope cursor.position =
      match offset? delimiter.closer behind with
      | none => fail (.unclosedTag delimiter (cursor.position + byteLength before))
      | some length => do
          let start := cursor.position + byteLength before
          let inside := start + 2
          let body ← slice s inside (inside + length)
          let effect ← effect s scope delimiter (trim body) start (inside + length + 2)
          return .tag (.ofText before) effect (inside + length + 2) := by
  have whole := Delimiter.eq_append_of_next? found
  obtain ⟨passed, rfl, isLength⟩ := stands
  have cutBefore : sliceTo cursor.rest (byteLength before) = .ok before := by
    rw [whole, List.append_assoc]
    exact sliceTo_append rfl
  have cutBehind : sliceFrom (passed ++ cursor.rest) (cursor.position + byteLength before + 2) =
      .ok behind := by
    rw [whole, ← List.append_assoc]
    apply sliceFrom_append
    rw [byteLength_append, byteLength_append, Delimiter.byteLength_opener, isLength, Nat.add_assoc]
  rw [round, sliceFrom_append isLength, ok_bind, Delimiter.leftmost?_eq_map_next?, found,
    Option.map_some, Delimiter.Opening.place]
  cases placed : offset? delimiter.closer behind with
  | none => simp only [cutBefore, plain_eq, cutBehind, ok_bind, placed]
  | some length => simp only [cutBefore, plain_eq, cutBehind, ok_bind, placed]

theorem round_of_unclosed {before inside : List Char} {delimiter : Delimiter}
    (stands : cursor.StandsIn s)
    (unclosed : FirstTag.find cursor.rest = .unclosed before delimiter inside) :
    round s scope cursor.position =
      fail (.unclosedTag delimiter (cursor.move before []).position) := by
  obtain ⟨found, nowhere⟩ := FirstTag.next?_of_unclosed unclosed
  rw [round_of_next? stands found, offset?_eq_map_cut?, nowhere]
  rfl

theorem round_of_closed (scope : Option Scope) {before inside rest : List Char}
    {delimiter : Delimiter} (stands : cursor.StandsIn s)
    (closed : FirstTag.find cursor.rest = .closed before delimiter inside rest) {next : Nat}
    (isNext : next = (cursor.move (before ++ delimiter.wrap inside) rest).position) :
    round s scope cursor.position =
      ofOutcome (Effect.ofInside scope delimiter inside next) >>= fun effect =>
        .ok (.tag (.ofText before) effect next) := by
  obtain ⟨behind, found, ends⟩ := FirstTag.next?_of_closed closed
  have whole := FirstTag.eq_append_of_closed closed
  rw [round_of_next? stands found, offset?_eq_map_cut?, ends]
  obtain ⟨passed, rfl, isLength⟩ := stands
  have size : byteLength (delimiter.wrap inside) = byteLength inside + 4 := by
    simp only [Delimiter.wrap, byteLength_append, Delimiter.byteLength_opener,
      Delimiter.byteLength_closer]
    omega
  have stop : cursor.position + byteLength before + 2 + byteLength inside + 2 = next := by
    simp only [isNext, Cursor.move, byteLength_append, size]
    omega
  have cut : slice (passed ++ cursor.rest) (cursor.position + byteLength before + 2)
      (cursor.position + byteLength before + 2 + byteLength inside) = .ok inside := by
    have split : passed ++ cursor.rest = (passed ++ before ++ delimiter.opener) ++
        (inside ++ (delimiter.closer ++ rest)) := by
      rw [whole]
      simp only [List.append_assoc]
    have length : cursor.position + byteLength before + 2 =
        byteLength (passed ++ before ++ delimiter.opener) := by
      rw [byteLength_append, byteLength_append, Delimiter.byteLength_opener, isLength]
    rw [split]
    exact slice_append _ _ _ length (congrArg (· + byteLength inside) length)
  have same : effect (passed ++ cursor.rest) scope delimiter (trim inside)
      (cursor.position + byteLength before) next =
        ofOutcome (Effect.ofInside scope delimiter inside next) := by
    have split : passed ++ cursor.rest =
        (passed ++ before) ++ (delimiter.wrap inside ++ rest) := by
      rw [whole, Delimiter.wrap]
      simp only [List.append_assoc]
    have length : cursor.position + byteLength before = byteLength (passed ++ before) := by
      rw [byteLength_append, isLength]
    rw [split]
    apply effect_eq next length
    rw [← length, size, ← stop]
    omega
  simp only [Option.map_some, cut, ok_bind, stop, same]
  rfl

theorem standsIn_of_round {before : Template} {happens : Effect} {next : Nat}
    (stands : cursor.StandsIn s)
    (ends : round s scope cursor.position = .ok (.tag before happens next)) :
    ∃ stop : Cursor, stop.StandsIn s ∧ stop.position = next ∧ cursor.position < next := by
  cases found : FirstTag.find cursor.rest with
  | absent =>
      rw [round_of_absent stands found] at ends
      cases ends
  | unclosed before delimiter inside =>
      rw [round_of_unclosed stands found] at ends
      cases ends
  | closed before delimiter inside rest =>
      obtain ⟨there, further⟩ := stands.behind found
      rw [round_of_closed scope stands found rfl] at ends
      refine ⟨_, there, ?_⟩
      cases taken : (Effect.ofInside scope delimiter inside
          (cursor.move (before ++ delimiter.wrap inside) rest).position).result with
      | error error =>
          rw [ofOutcome_of_error taken] at ends
          cases ends
      | ok effect =>
          rw [ofOutcome_of_ok taken] at ends
          cases ends
          exact ⟨rfl, further⟩

end Scan

end TemplateTree
