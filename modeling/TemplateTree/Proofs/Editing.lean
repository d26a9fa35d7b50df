import TemplateTree.Editing

namespace TemplateTree.Edit

variable {template edited : Template} {source : String} {index : Nat} {node : Node}

/-- The text that a step reads. -/
def reads? (template : Template) : Edit → Option String
  | .parse source => some source
  | .append source => some source
  | .reparse => some template.source
  | _ => none

/-- The nodes that a step brings with it. -/
def carries : Edit → List Node
  | .load loaded => loaded
  | .push node => [node]
  | .insert _ node => [node]
  | _ => []

/-- The number of outermost nodes without which a step cannot be done. -/
def needs : Edit → Nat
  | .insert index _ => index
  | .remove index => index + 1
  | _ => 0

theorem mapError_eq_error_iff {result : Except Error Template} {failure : Failure} :
    result.mapError Failure.unreadable = .error failure ↔
      ∃ error, result = .error error ∧ failure = .unreadable error := by
  constructor
  · intro fails
    cases result with
    | ok parsed => cases fails
    | error error =>
        cases fails
        exact ⟨error, rfl, rfl⟩
  · rintro ⟨error, rfl, rfl⟩
    rfl

theorem map_eq_error_iff {result : Except Failure Template} {change : Template → Template}
    {failure : Failure} : result.map change = .error failure ↔ result = .error failure := by
  cases result <;> simp [Except.map]

/-- A step fails on a text that cannot be read and on a place that is not there. -/
theorem apply_eq_error_iff {edit : Edit} {failure : Failure} :
    apply template edit = .error failure ↔
      (∃ source error, edit.reads? template = some source ∧
        Template.parse source = .error error ∧ failure = .unreadable error) ∨
      template.length < edit.needs ∧ failure = .outOfRange := by
  cases edit with
  | parse source => simp [apply, reads?, needs, mapError_eq_error_iff]
  | append source => simp [apply, reads?, needs, mapError_eq_error_iff, map_eq_error_iff]
  | insert index node =>
      by_cases inside : index ≤ template.length
      · simp [apply, reads?, needs, inside, Nat.not_lt.mpr inside]
      · simp [apply, reads?, needs, inside, Nat.not_le.mp inside, eq_comm]
  | remove index =>
      by_cases inside : index < template.length
      · simp [apply, reads?, needs, inside, Nat.not_lt.mpr inside]
      · have beyond : template.length < index + 1 := by omega
        simp [apply, reads?, needs, inside, beyond, eq_comm]
  | reparse => simp [apply, reads?, needs, mapError_eq_error_iff]
  | _ => simp [apply, reads?, needs]

theorem mapError_eq_ok_iff {result : Except Error Template} :
    result.mapError Failure.unreadable = .ok edited ↔ result = .ok edited := by
  constructor
  · intro done
    cases result with
    | ok parsed =>
        cases done
        rfl
    | error error => cases done
  · rintro rfl
    rfl

theorem apply_append_eq_ok_iff :
    apply template (.append source) = .ok edited ↔
      ∃ added, Template.parse source = .ok added ∧ edited = template ++ added := by
  rw [apply]
  constructor
  · intro appended
    cases read : Template.parse source with
    | error error =>
        rw [read] at appended
        cases appended
    | ok added =>
        rw [read] at appended
        cases appended
        exact ⟨added, rfl, rfl⟩
  · rintro ⟨added, read, rfl⟩
    rw [read]
    rfl

theorem insertIdx_append (before after : Template) (node : Node) :
    (before ++ after).insertIdx before.length node = before ++ node :: after := by
  induction before with
  | nil => rfl
  | cons first rest ih =>
      rw [List.cons_append, List.length_cons, List.insertIdx_succ_cons, ih, List.cons_append]

theorem apply_insert_eq_ok_iff :
    apply template (.insert index node) = .ok edited ↔
      ∃ before after, template = before ++ after ∧ before.length = index ∧
        edited = before ++ node :: after := by
  rw [apply]
  constructor
  · intro inserted
    split at inserted
    · rename_i inside
      cases inserted
      have whole := insertIdx_append (template.take index) (template.drop index) node
      rw [List.take_append_drop, List.length_take_of_le inside] at whole
      exact ⟨template.take index, template.drop index, (List.take_append_drop ..).symm,
        List.length_take_of_le inside, whole⟩
    · cases inserted
  · rintro ⟨before, after, rfl, rfl, rfl⟩
    rw [if_pos (by simp), insertIdx_append]

theorem apply_remove_eq_ok_iff :
    apply template (.remove index) = .ok edited ↔
      ∃ before node after, template = before ++ node :: after ∧ before.length = index ∧
        edited = before ++ after := by
  rw [apply]
  constructor
  · intro removed
    split at removed
    · rename_i inside
      cases removed
      exact ⟨template.take index, template[index], template.drop (index + 1),
        by simp, List.length_take_of_le (Nat.le_of_lt inside), List.eraseIdx_eq_take_drop_succ ..⟩
    · cases removed
  · rintro ⟨before, node, after, rfl, rfl, rfl⟩
    rw [if_pos (by simp), List.eraseIdx_append_of_length_le (Nat.le_refl _)]
    simp

theorem source_of_append (appended : apply template (.append source) = .ok edited) :
    ∃ added, Template.parse source = .ok added ∧
      edited.source = template.source ++ added.source := by
  obtain ⟨added, read, rfl⟩ := apply_append_eq_ok_iff.mp appended
  exact ⟨added, read, Template.source_append template added⟩

theorem source_of_insert (inserted : apply template (.insert index node) = .ok edited) :
    edited.source = Template.source (template.take index) ++ node.source ++
      Template.source (template.drop index) := by
  obtain ⟨before, after, rfl, rfl, rfl⟩ := apply_insert_eq_ok_iff.mp inserted
  rw [Template.source_append, Template.source_cons, List.take_left, List.drop_left,
    String.append_assoc]

/-- Removing and inserting undo each other. -/
theorem apply_insert_iff_remove :
    apply template (.insert index node) = .ok edited ↔
      apply edited (.remove index) = .ok template ∧ edited[index]? = some node := by
  rw [apply_insert_eq_ok_iff, apply_remove_eq_ok_iff]
  constructor
  · rintro ⟨before, after, rfl, rfl, rfl⟩
    exact ⟨⟨before, node, after, rfl, rfl, rfl⟩, by simp⟩
  · rintro ⟨⟨before, other, after, rfl, rfl, rfl⟩, found⟩
    refine ⟨before, after, rfl, rfl, ?_⟩
    simpa using found

/-- No step makes up nodes: they stood there, came with the step or were read. -/
theorem mem_of_apply {edit : Edit} (done : apply template edit = .ok edited)
    (member : node ∈ edited) :
    node ∈ template ∨ node ∈ edit.carries ∨
      ∃ source parsed, edit.reads? template = some source ∧
        Template.parse source = .ok parsed ∧ node ∈ parsed := by
  cases edit with
  | parse source =>
      have read := mapError_eq_ok_iff.mp done
      exact Or.inr (Or.inr ⟨source, edited, rfl, read, member⟩)
  | append source =>
      obtain ⟨added, read, rfl⟩ := apply_append_eq_ok_iff.mp done
      rcases List.mem_append.mp member with inTemplate | inAdded
      · exact Or.inl inTemplate
      · exact Or.inr (Or.inr ⟨source, added, rfl, read, inAdded⟩)
  | load loaded =>
      cases done
      exact Or.inr (Or.inl member)
  | push pushed =>
      cases done
      rcases List.mem_append.mp member with inTemplate | isPushed
      · exact Or.inl inTemplate
      · exact Or.inr (Or.inl isPushed)
  | clear =>
      cases done
      cases member
  | insert index inserted =>
      obtain ⟨before, after, rfl, rfl, rfl⟩ := apply_insert_eq_ok_iff.mp done
      rw [List.mem_append, List.mem_cons] at member
      rcases member with inFront | rfl | behind
      · exact Or.inl (List.mem_append_left _ inFront)
      · exact Or.inr (Or.inl List.mem_cons_self)
      · exact Or.inl (List.mem_append_right _ behind)
  | remove index =>
      obtain ⟨before, gone, after, rfl, rfl, rfl⟩ := apply_remove_eq_ok_iff.mp done
      rcases List.mem_append.mp member with inFront | behind
      · exact Or.inl (List.mem_append_left _ inFront)
      · exact Or.inl (List.mem_append_right _ (List.mem_cons_of_mem _ behind))
  | keep filter =>
      cases done
      exact Or.inl (List.mem_filter.mp member).1
  | reparse =>
      have read := mapError_eq_ok_iff.mp done
      exact Or.inr (Or.inr ⟨template.source, edited, rfl, read, member⟩)

/-- Steps one after another.  A step that fails changes nothing. -/
def run (template : Template) : List Edit → Template
  | [] => template
  | edit :: rest =>
      match apply template edit with
      | .ok edited => run edited rest
      | .error _ => run template rest

/-- What holds of all nodes that are read holds along every run, unless a step brings other
nodes with it. -/
theorem forall_mem_run {Holds : Node → Prop} {edits : List Edit}
    (read : ∀ source parsed, Template.parse source = .ok parsed → ∀ node ∈ parsed, Holds node)
    (carried : ∀ edit ∈ edits, ∀ node ∈ edit.carries, Holds node)
    (start : ∀ node ∈ template, Holds node) : ∀ node ∈ run template edits, Holds node := by
  induction edits generalizing template with
  | nil => exact start
  | cons edit rest ih =>
      obtain ⟨first, later⟩ := List.forall_mem_cons.mp carried
      rw [run]
      split
      · rename_i edited done
        refine ih later fun node member => ?_
        rcases mem_of_apply done member with stood | came | ⟨source, parsed, _, isRead, inParsed⟩
        · exact start node stood
        · exact first node came
        · exact read source parsed isRead node inParsed
      · exact ih later start

end TemplateTree.Edit
