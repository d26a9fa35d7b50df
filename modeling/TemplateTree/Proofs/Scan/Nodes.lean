import TemplateTree.Proofs.Scan.Rounds

namespace TemplateTree

open Text

namespace Outcome

variable {α β : Type}

theorem exists_of_bind_eq_ok {first : Outcome α} {next : α → Outcome β} {last : β}
    (finished : (first >>= next).result = .ok last) :
    ∃ value, first.result = .ok value ∧ (next value).result = .ok last := by
  obtain ⟨records, _ | value⟩ := first
  · cases finished
  · exact ⟨value, rfl, finished⟩

theorem exists_of_map_eq_ok {first : Outcome α} {change : α → β} {last : β}
    (finished : (change <$> first).result = .ok last) :
    ∃ value, first.result = .ok value ∧ change value = last := by
  obtain ⟨records, _ | value⟩ := first
  · cases finished
  · exact ⟨value, rfl, Except.ok.inj finished⟩

end Outcome

namespace Scan

variable {s : List Char} {scope : Option Scope} {cursor : Cursor}

theorem advance_of_lt {position next : Nat} (further : position < next)
    (within : next ≤ byteLength s) : advance s position next = .ok ⟨next, further, within⟩ :=
  dif_pos ⟨further, within⟩

section Unfolding

variable {position next : Nat} {before added : Template} {header : Header}

theorem nodes_of_not_lt (atEnd : ¬position < byteLength s) :
    nodes s scope position = .ok ([], position) := by
  rw [nodes, if_neg atEnd]
  rfl

theorem nodes_of_fail {error : Error} (more : position < byteLength s)
    (ends : round s scope position = fail error) : nodes s scope position = fail error := by
  rw [nodes, if_pos more, ends]
  rfl

theorem nodes_of_last {last : Template} (more : position < byteLength s)
    (ends : round s scope position = .ok (.last last)) :
    nodes s scope position = .ok (last, byteLength s) := by
  rw [nodes, if_pos more, ends]
  rfl

theorem nodes_of_leaves (more : position < byteLength s)
    (ends : round s scope position = .ok (.tag before .leaves next)) :
    nodes s scope position = .ok (before, next) := by
  rw [nodes, if_pos more, ends]
  rfl

theorem nodes_of_adds (further : position < next) (within : next ≤ byteLength s)
    (ends : round s scope position = .ok (.tag before (.adds added) next)) :
    nodes s scope position =
      (fun (later, stop) => (before ++ added ++ later, stop)) <$> nodes s scope next := by
  rw [nodes, if_pos (further.trans_le within), ends]
  simp only [ok_bind, advance_of_lt further within]
  rfl

theorem nodes_of_enters (further : position < next) (within : next ≤ byteLength s)
    {children : Template} {middle : Nat}
    (ends : round s scope position = .ok (.tag before (.enters header) next))
    (inner : nodes s (some header.scope) next = .ok (children, middle))
    (behind : next ≤ middle) (withinMiddle : middle ≤ byteLength s) :
    nodes s scope position =
      (fun (later, stop) => (before ++ .scope header children :: later, stop)) <$>
        nodes s scope middle := by
  rw [nodes, if_pos (further.trans_le within), ends]
  simp only [ok_bind, advance_of_lt further within, inner,
    advance_of_lt (further.trans_le behind) withinMiddle]
  rfl

theorem nodes_of_enters_of_fail {error : Error} (further : position < next)
    (within : next ≤ byteLength s)
    (ends : round s scope position = .ok (.tag before (.enters header) next))
    (inner : nodes s (some header.scope) next = fail error) :
    nodes s scope position = fail error := by
  rw [nodes, if_pos (further.trans_le within), ends]
  simp only [ok_bind, advance_of_lt further within, inner]
  rfl

end Unfolding

theorem standsIn_of_readScope (stands : cursor.StandsIn s) :
    ∀ {template stop}, (readScope scope cursor).result = .ok (template, stop) →
      stop.StandsIn s ∧ cursor.position ≤ stop.position := by
  induction scope, cursor using readNodes.induct with
  | case1 scope cursor absent =>
      intro template stop finished
      rw [readScope_of_absent absent] at finished
      obtain ⟨-, -, same⟩ := Outcome.exists_of_bind_eq_ok finished
      cases same
      exact ⟨stands.move (List.append_nil _).symm, Nat.le_add_right _ _⟩
  | case2 scope cursor before delimiter inside unclosed =>
      intro template stop finished
      rw [readScope_of_unclosed unclosed] at finished
      cases finished
  | case3 scope cursor before delimiter inside rest closed next _ nextIH childrenIH laterIH =>
      intro template stop finished
      obtain ⟨there, further⟩ := stands.behind closed
      rw [readScope_of_closed closed] at finished
      obtain ⟨effect, -, finished⟩ := Outcome.exists_of_bind_eq_ok finished
      cases effect with
      | leaves =>
          cases finished
          exact ⟨there, further.le⟩
      | adds added =>
          obtain ⟨⟨later, _⟩, inner, same⟩ := Outcome.exists_of_map_eq_ok finished
          cases same
          obtain ⟨inside, behind⟩ := nextIH there inner
          exact ⟨inside, further.le.trans behind⟩
      | enters header =>
          obtain ⟨⟨children, middle⟩, inner, finished⟩ := Outcome.exists_of_bind_eq_ok finished
          obtain ⟨⟨later, _⟩, last, same⟩ := Outcome.exists_of_map_eq_ok finished
          cases same
          obtain ⟨inMiddle, behindMiddle⟩ := childrenIH header there inner
          obtain ⟨inside, behind⟩ := laterIH middle (length_le_of_readScope inner) inMiddle last
          exact ⟨inside, further.le.trans (behindMiddle.trans behind)⟩

theorem nodes_eq (scope : Option Scope) (stands : cursor.StandsIn s) :
    nodes s scope cursor.position =
      ofOutcome ((fun (nodes, stop) => (nodes, stop.position)) <$> readScope scope cursor) := by
  induction scope, cursor using readNodes.induct with
  | case1 scope cursor absent =>
      have stop : (readScope scope cursor).result =
          .ok (.ofText cursor.rest, cursor.move cursor.rest []) := by
        rw [readScope_of_absent absent]
        cases scope <;> rfl
      rw [ofOutcome_map, ofOutcome_of_ok stop]
      by_cases more : cursor.position < byteLength s
      · rw [nodes_of_last more (round_of_absent stands absent), stands.byteLength_eq]
        rfl
      · rw [nodes_of_not_lt more, stands.rest_eq_nil more]
        rfl
  | case2 scope cursor before delimiter inside unclosed =>
      have whole := FirstTag.eq_append_of_unclosed unclosed
      have more : cursor.position < byteLength s := by
        rw [stands.byteLength_eq, whole, byteLength_append, byteLength_append,
          Delimiter.byteLength_opener]
        omega
      rw [readScope_of_unclosed unclosed, nodes_of_fail more (round_of_unclosed stands unclosed)]
      rfl
  | case3 scope cursor before delimiter inside rest closed next _ nextIH childrenIH laterIH =>
      obtain ⟨there, further⟩ := stands.behind closed
      have within := there.position_le
      have ends := round_of_closed scope stands closed rfl
      rw [readScope_of_closed closed]
      cases happens : (Effect.ofInside scope delimiter inside next.position).result with
      | error error =>
          rw [ofOutcome_of_error happens] at ends
          rw [nodes_of_fail (further.trans_le within) ends, ofOutcome_map, ofOutcome_bind,
            ofOutcome_of_error happens]
          rfl
      | ok effect =>
          rw [ofOutcome_of_ok happens, ok_bind] at ends
          rw [ofOutcome_map, ofOutcome_bind, ofOutcome_of_ok happens, ok_bind]
          cases effect with
          | leaves =>
              rw [nodes_of_leaves (further.trans_le within) ends]
              rfl
          | adds added =>
              rw [nodes_of_adds further within ends, nextIH there]
              simp only [ofOutcome_map, Functor.map_map, next]
          | enters header =>
              -- The later rounds start where the scope inside has ended, which is in the text.
              have inner := childrenIH header there
              cases children : (readScope (some header.scope) next).result with
              | error error =>
                  rw [ofOutcome_map, ofOutcome_of_error children] at inner
                  rw [nodes_of_enters_of_fail further within ends inner, ofOutcome_bind,
                    ofOutcome_of_error children]
                  rfl
              | ok value =>
                  obtain ⟨read, middle⟩ := value
                  obtain ⟨inMiddle, behind⟩ := standsIn_of_readScope there children
                  rw [ofOutcome_map, ofOutcome_of_ok children] at inner
                  rw [nodes_of_enters further within ends inner behind inMiddle.position_le,
                    laterIH middle (length_le_of_readScope children) inMiddle, ofOutcome_bind,
                    ofOutcome_of_ok children, ok_bind]
                  simp only [ofOutcome_map, Functor.map_map]

/-- A scan that stands at `position`, inside `scope`, is halted by no check. -/
structure SafeAt (s : List Char) (scope : Option Scope) (position : Nat) : Prop where
  answers : ∃ answer, nodes s scope position = ofExcept answer
  stops : ∀ template stop, nodes s scope position = .ok (template, stop) →
    position ≤ stop ∧ stop ≤ byteLength s ∧ IsBoundary s stop
  advances : ∀ before effect next, round s scope position = .ok (.tag before effect next) →
    position < next ∧ next ≤ byteLength s ∧ IsBoundary s next

theorem safeAt_of_isBoundary {position : Nat} (boundary : IsBoundary s position) :
    SafeAt s scope position := by
  obtain ⟨cursor, stands, rfl⟩ := Cursor.exists_standsIn boundary
  have same := nodes_eq scope stands
  constructor
  case answers => exact ⟨_, same⟩
  case stops =>
    intro template stop finished
    rw [same, ofOutcome_map] at finished
    cases reads : (readScope scope cursor).result with
    | error error =>
        rw [ofOutcome_of_error reads] at finished
        cases finished
    | ok value =>
        obtain ⟨read, place⟩ := value
        rw [ofOutcome_of_ok reads] at finished
        cases finished
        obtain ⟨inside, behind⟩ := standsIn_of_readScope stands reads
        exact ⟨behind, inside.position_le, inside.isBoundary⟩
  case advances =>
    intro before effect next ends
    obtain ⟨stop, inside, rfl, further⟩ := standsIn_of_round stands ends
    exact ⟨further, inside.position_le, inside.isBoundary⟩

theorem parse_eq (source : String) : parse source = ofExcept (Template.parse source) := by
  have stands : (Cursor.mk 0 source.toList).StandsIn source.toList := ⟨[], rfl, rfl⟩
  have same := nodes_eq none stands
  rw [parse, same, Template.parse, Template.read, Outcome.result_map, ofOutcome_map, ofOutcome]
  cases (readScope none ⟨0, source.toList⟩).result with
  | error error => rfl
  | ok value => rfl

/-- Reading by checked cuts at computed positions ends as reading does, in a tree or an error of
the template.  Whatever the template is, it never ends in a cut that is no range or in a round
that gets no further, in no scope, from no place between characters, and in no part that a
round hands over. -/
theorem parse_safe (source : String) :
    parse source = ofExcept (Template.parse source) ∧
      (∀ scope position, IsBoundary source.toList position →
        SafeAt source.toList scope position) ∧
      ∀ part, plain part = .ok (.ofText part) ∧
        tag part = ofExcept (Tag.ofBody part) ∧
        typeHints part = ofExcept (TypeHints.read part) ∧
        inheritance part = ofExcept (Inheritance.read part) :=
  ⟨parse_eq source, fun _ _ => safeAt_of_isBoundary,
    fun part => ⟨plain_eq part, tag_eq part, typeHints_eq part, inheritance_eq part⟩⟩

/-- The closing mark may not overlap the opening one, behind a letter of two bytes. -/
example : parse "é\x7b%\x7d" = fail (.unclosedTag .statement 2) := by
  rw [parse_eq]
  decide +kernel

end Scan

end TemplateTree
