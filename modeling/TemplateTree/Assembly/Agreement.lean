import TemplateTree.Assembly
import TemplateTree.Reading

namespace TemplateTree

namespace Assembly

def resume (nodes : Template) (stop : Cursor) : List Frame → Outcome Template
  | [] => return nodes
  | frame :: outer =>
      run ⟨stop.position, frame.before ++ [.scope frame.header nodes], outer⟩
        (Piece.cut stop.rest)

theorem run_ofText (assembly : Assembly) (text : List Char)
    (rest : List Piece) :
    assembly.run (Piece.ofText text ++ rest) =
      run ⟨assembly.position + Text.byteLength text,
        assembly.nodes ++ .ofText text, assembly.frames⟩ rest := by
  cases text with
  | nil => simp [Piece.ofText, Text.byteLength, Template.ofText_nil]
  | cons c text => simp [Piece.ofText, run, step, move, apply]

/-- Running the pieces of the rest of a text is the same as reading the innermost scope and going
on with the scopes around it. -/
theorem run_cut (scope : Option Scope) (cursor : Cursor) (nodes : Template)
    (frames : List Frame)
    (innermost : scope = frames.head?.map fun frame => frame.header.scope) :
    run ⟨cursor.position, nodes, frames⟩ (Piece.cut cursor.rest) = (do
      let (more, stop) ← readScope scope cursor
      resume (nodes ++ more) stop frames) := by
  induction scope, cursor using readNodes.induct generalizing nodes frames with
  | case1 scope cursor absent =>
      have passed := run_ofText ⟨cursor.position, nodes, frames⟩ cursor.rest []
      rw [List.append_nil] at passed
      rw [Piece.cut_of_absent absent, readScope_of_absent absent, passed]
      subst innermost
      cases frames with
      | nil => simp [noteLeftOpen, resume, run, close]
      | cons frame outer =>
          simp [noteLeftOpen, resume, run, close, Cursor.move, Piece.cut_nil]
  | case2 scope cursor before delimiter inside unclosed =>
      rw [Piece.cut_of_unclosed unclosed, readScope_of_unclosed unclosed,
        run_ofText]
      simp [run, step, Outcome.fail_bind, Cursor.move]
  | case3 scope cursor before delimiter inside rest closed next shorter
      nextIH childrenIH laterIH =>
      rw [Piece.cut_of_closed closed, readScope_of_closed closed, run_ofText]
      simp only [run, step, bind_map_left, bind_assoc]
      have samePlace : cursor.position + Text.byteLength before +
          Text.byteLength (delimiter.wrap inside) = next.position := by
        simp only [next, Cursor.move, Text.byteLength_append, Nat.add_assoc]
      simp only [move, scope?, samePlace, ← innermost]
      apply Outcome.bind_congr_of_result
      intro effect happens
      cases effect with
      | adds added =>
          simp only [apply, bind_map_left]
          refine (nextIH (nodes ++ .ofText before ++ added) frames
            innermost).trans ?_
          simp only [List.append_assoc, next]
      | enters header =>
          simp only [apply, bind_assoc, bind_map_left]
          refine (childrenIH header []
            (⟨header, nodes ++ .ofText before⟩ :: frames) rfl).trans ?_
          apply Outcome.bind_congr_of_result
          rintro ⟨children, middle⟩ finished
          refine (laterIH middle (length_le_of_readScope finished)
            (nodes ++ .ofText before ++ [.scope header children]) frames
            innermost).trans ?_
          simp only [List.append_assoc, List.singleton_append]
      | leaves =>
          cases frames with
          | nil =>
              subst innermost
              exact absurd happens (Effect.ofInside_ne_leaves _ _ _)
          | cons frame outer =>
              simp only [apply, resume, pure_bind]
              rfl

end Assembly

/-- The stack gives the same tree, the same error and the same records. -/
theorem Template.read_eq_assemble (source : String) : read source = assemble source := by
  have agree := Assembly.run_cut none ⟨0, source.toList⟩ [] [] rfl
  rw [read, map_eq_pure_bind]
  exact agree.symm

end TemplateTree
