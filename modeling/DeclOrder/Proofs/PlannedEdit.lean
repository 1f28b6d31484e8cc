import DeclOrder.Plan

/-!
# The planned edit

A plan holds at most one edit.  It replaces the span of the declarations by the rendered text, and
it is left out exactly when both have the same condensed form; a finding is reported with an edit
and never without one.
-/

namespace DeclOrder

theorem applyEdits_nil (text : Text) : applyEdits text [] = text := by
  rw [applyEdits, List.mergeSort_nil]
  rfl

theorem applyEdits_singleton (text : Text) (edit : Edit) :
    applyEdits text [edit] = text.upTo edit.start ++ edit.replacement ++ text.onward edit.stop := by
  rw [applyEdits, List.mergeSort_singleton]
  rfl

namespace Script

variable {options : Options} {script : Script}

theorem edits_plan (options : Options) (script : Script) :
    (script.plan options).edits = (script.edit? options).toList := by
  rw [plan]
  cases script.edit? options <;> rfl

/-- A planned edit replaces the span of the declarations, whose condensed form it changes. -/
theorem edit?_eq_some_iff {edit : Edit} :
    script.edit? options = some edit ↔
      declarationSpan? script.statements = some (edit.start, edit.stop) ∧
        edit.path = script.path ∧ edit.replacement = script.render options ∧
          (script.source.slice edit.start edit.stop).condense ≠
            (script.render options).condense := by
  rw [edit?, decideEdit]
  cases span : declarationSpan? script.statements with
  | none => simp
  | some bounds =>
      obtain ⟨start, stop⟩ := bounds
      obtain ⟨path, editStart, editStop, replacement⟩ := edit
      dsimp only
      split
      · rename_i same
        constructor
        · intro found
          cases found
        · rintro ⟨sameSpan, _, _, different⟩
          cases sameSpan
          exact absurd same different
      · rename_i different
        constructor
        · intro found
          cases found
          exact ⟨rfl, rfl, rfl, different⟩
        · rintro ⟨sameSpan, samePath, sameReplacement, _⟩
          cases sameSpan
          rw [samePath, sameReplacement]

/-- A script with declarations needs no edit exactly when its span is rendered up to blank lines. -/
theorem edit?_eq_none_iff {start stop : Int}
    (span : declarationSpan? script.statements = some (start, stop)) :
    script.edit? options = none ↔
      (script.source.slice start stop).condense = (script.render options).condense := by
  rw [edit?, decideEdit, span]
  dsimp only
  split <;> rename_i same
  · simp [same]
  · simp [same]

theorem plan_eq_empty_iff : script.plan options = {} ↔ script.edit? options = none := by
  rw [plan]
  cases script.edit? options with
  | none => simp
  | some edit => simp

theorem edit?_of_mem_plan {edit : Edit} (planned : edit ∈ (script.plan options).edits) :
    script.edit? options = some edit := by
  rw [edits_plan] at planned
  exact Option.mem_toList.mp planned

/-- Carrying out a planned edit puts the rendered text in the place of the span. -/
theorem fix_of_mem_plan {edit : Edit} (planned : edit ∈ (script.plan options).edits) :
    script.fix options = script.source.upTo edit.start ++ script.render options ++
      script.source.onward edit.stop := by
  have found := edit?_of_mem_plan planned
  rw [fix, edits_plan, found, Option.toList_some, applyEdits_singleton,
    (edit?_eq_some_iff.mp found).2.2.1]

end Script

end DeclOrder
