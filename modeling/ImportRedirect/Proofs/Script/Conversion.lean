import ImportRedirect.Conversion
import ImportRedirect.Proofs.Binding.Preservation
import ImportRedirect.Proofs.Script.Placement

/-!
The bytes of a script before and after its conversion. Everything between the statements is kept,
and so is every statement that the pass leaves as it is.
-/

namespace ImportRedirect

open Node Emit Script

namespace Redirector

variable {redirector : Redirector} {node : Value} {body : List Value}

/-- The statements that a pass makes of a regular statement can be put back in its place. -/
theorem replaces_expand (answers : redirector.evidence.Answers) (regular : Regular node)
    (self : node.same node = true) : Replaces node (redirector.expand node).statements := by
  have settles := settles_expand answers regular
  refine ⟨self, settles.place, List.length_pos_iff.mpr settles.nonempty, settles.atMost,
    settles.apparent, fun changed statement membership => ?_⟩
  rcases settles.form with kept | ⟨_, rewritten⟩
  · exact absurd kept changed
  · exact statement_of_rewritten (rewritten statement membership)

/-- A pass that did nothing left each statement as it was. -/
theorem expand_of_not_mutated (answers : redirector.evidence.Answers)
    (regular : ∀ node ∈ body, Regular node) {trace : Trace}
    (idle : (redirector.run body trace).progress.mutated = false) :
    ∀ node ∈ body, (redirector.expand node).statements = [node] := by
  have faultless := (expandAll_bindings answers regular).1
  obtain ⟨_, _, redirected, split, _⟩ := Expansion.ofList_faultless faultless
  rw [run_eq] at idle
  have none : (redirector.expandAll body).redirected = 0 ∧ (redirector.expandAll body).split = 0 := by
    simpa [Progress.mutated, Progress.extend, Progress.start] using idle
  rw [expandAll] at none
  intro node membership
  have notRedirected := eq_zero_of_total (redirected.symm.trans none.1) node membership
  have notSplit := eq_zero_of_total (split.symm.trans none.2) node membership
  rcases (settles_expand answers (regular node membership)).form with kept | ⟨some, _⟩
  · exact kept
  · omega

end Redirector

namespace Engine

/-- A conversion replaces the bytes of each statement that the pass changed by those of the
statements it was changed into, and keeps all other bytes. -/
theorem convert_spliced (engine : Engine) {code : String} {tree : Tree}
    (parsed : parse code = .ok tree) (answers : engine.evidence.Answers) :
    let left := fun node => ((engine.redirector code).run [node] .empty).body
    ∃ conversion, engine.convert code = .ok conversion ∧ conversion.success = true ∧
      ((engine.redirector code).run tree.body .empty).body = tree.body.flatMap left ∧
      Spliced (Text.Utf8.encode code) left 0 tree.body (Text.Utf8.encode conversion.code) := by
  intro left
  have regular := regular_of_parse parsed
  have placed := placed_of_parse parsed
  have expanded : ∀ node, left node = ((engine.redirector code).expand node).statements :=
    fun node => by simp only [left, Redirector.run_singleton]
  have replaces : ∀ node ∈ tree.body, Replaces node (left node) := by
    intro node membership
    rw [expanded]
    exact Redirector.replaces_expand answers (regular node membership) (same_self_of_mem membership)
  have faultless : ∀ trace, ((engine.redirector code).run tree.body trace).fault = none := by
    intro trace
    rw [Redirector.run_eq]
    exact (Redirector.expandAll_bindings answers regular).1
  have joined : ∀ trace, ((engine.redirector code).run tree.body trace).body =
      tree.body.flatMap left := by
    intro trace
    have parts := (engine.redirector code).run_concatenates tree.body trace .empty
    rw [faultless] at parts
    exact parts.2.1
  simp only [convert, parsed, faultless, joined]
  -- The text is only put together again when the pass did something.
  split
  · obtain ⟨converted, written, spliced⟩ := splice_placed placed replaces
    rw [written]
    exact ⟨_, rfl, rfl, trivial, spliced⟩
  · next idle =>
    have unchanged : ∀ node ∈ tree.body, left node = [node] := by
      intro node membership
      rw [expanded]
      exact Redirector.expand_of_not_mutated answers regular (by simpa using idle) node membership
    exact ⟨_, rfl, rfl, trivial, spliced_of_unchanged placed unchanged⟩

/-- An import that is split, after a comment with a character of two bytes. -/
theorem convert_spliced_sample :
    let code := "/*é*/import{map,omit}from'lodash'"
    let engine : Engine := ⟨.default, .ofNames ["map"] [] none, Usage.scan⟩
    let left := fun node => ((engine.redirector code).run [node] .empty).body
    ∃ tree conversion, parse code = .ok tree ∧ engine.evidence.Answers ∧
      engine.convert code = .ok conversion ∧ conversion.success = true ∧
      conversion.code =
        "/*é*/import \x7b map \x7d from 'es-toolkit/compat';\nimport \x7b omit \x7d from 'lodash';" ∧
      ((engine.redirector code).run tree.body .empty).body = tree.body.flatMap left ∧
      Spliced (Text.Utf8.encode code) left 0 tree.body (Text.Utf8.encode conversion.code) := by
  intro code engine left
  have read : (engine.convert code).toOption.any (fun conversion => conversion.code ==
      "/*é*/import \x7b map \x7d from 'es-toolkit/compat';\nimport \x7b omit \x7d from 'lodash';") =
      true := by decide +kernel
  cases parsed : parse code with
  | error offset => simp [convert, parsed, code, Except.toOption] at read
  | ok tree =>
    obtain ⟨conversion, converts, success, joined, spliced⟩ :=
      engine.convert_spliced parsed Usage.scan_answers
    have written := by simpa [converts, Except.toOption] using read
    exact ⟨tree, conversion, rfl, Usage.scan_answers, converts, success, written, joined, spliced⟩

end Engine

end ImportRedirect
