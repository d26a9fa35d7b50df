import TemplateTree.Proofs.Joining
import TemplateTree.Proofs.Text.Bytes
import TemplateTree.Scan.Basic

namespace TemplateTree

namespace Scan

open Text

variable {before after : List Char} {start stop : Nat}

theorem slice_append (before part after : List Char) (isStart : start = byteLength before)
    (isStop : stop = byteLength before + byteLength part) :
    slice (before ++ (part ++ after)) start stop = .ok part := by
  subst isStart isStop
  rw [slice, dif_pos (isRange_append before part after), IsRange.text_append]

theorem sliceFrom_append (isStart : start = byteLength before) :
    sliceFrom (before ++ after) start = .ok after := by
  have cut := slice_append before after [] isStart rfl
  rwa [List.append_nil, ← byteLength_append] at cut

theorem sliceTo_append (isStop : stop = byteLength before) :
    sliceTo (before ++ after) stop = .ok before :=
  slice_append [] before after rfl (isStop.trans (Nat.zero_add _).symm)

theorem run_eq {blank : Bool} {s : List Char} (nonempty : s ≠ []) (uniform : Uniform blank s) :
    run blank s = .leaf (.ofRun s) := by
  cases blank with
  | true => rw [Leaf.ofRun_of_blank uniform, run, if_pos rfl]
  | false => rw [Leaf.ofRun_of_isWord ⟨nonempty, uniform⟩, run, if_neg Bool.false_ne_true]

/-- The run that is under way ends where a character of the other kind comes. -/
theorem runsFrom_eq {blank : Bool} (passed : List Char) {current rest : List Char}
    (nonempty : current ≠ []) (uniform : Uniform blank current) :
    runsFrom (passed ++ (current ++ rest)) (byteLength passed) blank
        (withOffsets (byteLength passed + byteLength current) rest) =
      .ok (.ofText (current ++ rest)) := by
  induction rest generalizing blank passed current with
  | nil =>
      have cut : sliceFrom (passed ++ (current ++ [])) (byteLength passed) = .ok (current ++ []) :=
        sliceFrom_append rfl
      rw [withOffsets, runsFrom, cut, List.append_nil, Template.ofText,
        runs_of_uniform nonempty uniform, List.map_singleton, ← run_eq nonempty uniform]
      rfl
  | cons c rest ih =>
      rw [withOffsets, runsFrom]
      by_cases same : isBlank c = blank
      · have longer : Uniform blank (current ++ [c]) := by
          intro d member
          rcases List.mem_append.mp member with inCurrent | isLast
          · exact uniform d inCurrent
          · rwa [List.mem_singleton.mp isLast]
        have later := ih passed (by simp) longer
        rw [byteLength_append, byteLength_singleton, ← Nat.add_assoc, List.append_assoc] at later
        rw [if_pos same]
        exact later
      · have other : isBlank c = !blank := Bool.eq_not.mpr same
        have alone : Uniform (!blank) [c] := List.forall_mem_singleton.mpr other
        have later := ih (passed ++ current) (List.cons_ne_nil c []) alone
        rw [byteLength_append, byteLength_singleton, List.append_assoc,
          List.singleton_append] at later
        have apart : Template.ofText (current ++ c :: rest) =
            .leaf (.ofRun current) :: Template.ofText (c :: rest) := by
          rw [Template.ofText, runs_append, runs_of_uniform nonempty uniform, List.map_append]
          · rfl
          · intro a last b first
            cases first
            rw [uniform a (List.mem_of_mem_getLast? last), other]
            simp
        have cut : slice (passed ++ (current ++ c :: rest)) (byteLength passed)
            (byteLength passed + byteLength current) = .ok current := slice_append _ _ _ rfl rfl
        rw [if_neg same, cut, ok_bind, later, ok_bind, apart, run_eq nonempty uniform]
        rfl

theorem plain_eq (s : List Char) : plain s = .ok (.ofText s) := by
  cases s with
  | nil => rfl
  | cons c rest =>
      have alone : Uniform (isBlank c) [c] := List.forall_mem_singleton.mpr rfl
      exact runsFrom_eq [] (List.cons_ne_nil c []) alone

end Scan

end TemplateTree
