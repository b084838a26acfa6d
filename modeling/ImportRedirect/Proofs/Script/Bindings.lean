import ImportRedirect.Proofs.Binding.Widening
import ImportRedirect.Proofs.Script.Nodes

/-!
The local bindings of a script before and after a pass over its statements.
-/

namespace ImportRedirect.Script

open Node

/-- A pass over a script keeps its local bindings, and what each of them stands for afterwards is
given by the rule for that binding. -/
theorem run_bindings {code : String} {tree : Tree} (parsed : parse code = .ok tree)
    {redirector : Redirector} (answers : redirector.evidence.Answers) (trace : Trace) :
    let callee := redirector.classifier.settings.requireCallee
    let walked := redirector.run tree.body trace
    walked.fault = none ∧
      (walked.body.flatMap (bindings callee)).Perm
        ((tree.body.flatMap (occurrences callee)).map redirector.moved) ∧
      ((walked.body.flatMap (bindings callee)).map (·.target)).Perm
        ((tree.body.flatMap (bindings callee)).map (·.target)) := by
  intro callee walked
  obtain ⟨faultless, moved⟩ :=
    Redirector.expandAll_bindings answers (regular_of_parse parsed)
  have expanded : walked.body = (redirector.expandAll tree.body).statements := by
    simp only [walked, Redirector.run_eq]
  have target : ∀ node, ((occurrences callee node).map redirector.moved).map (·.target) =
      (bindings callee node).map (·.target) := by
    intro node
    rw [occurrences, occurrencesIn, List.map_map, List.map_map]
    rfl
  have kept : ((tree.body.flatMap (occurrences callee)).map redirector.moved).map (·.target) =
      (tree.body.flatMap (bindings callee)).map (·.target) := by
    simp only [List.map_flatMap, target]
  rw [← kept, expanded]
  exact ⟨by simpa only [walked, Redirector.run_eq] using faultless, moved, moved.map _⟩

/-- An import that is split twice. -/
theorem run_bindings_sample :
    let code := "import _,{map,omit}from'lodash'"
    let redirector : Redirector := ⟨⟨.default, .ofNames ["map"] [] none⟩, Usage.scan, "_.map(omit)"⟩
    ∃ tree, parse code = .ok tree ∧ redirector.evidence.Answers ∧
      let walked := redirector.run tree.body .empty
      walked.body.length = 3 ∧ walked.fault = none ∧
        (walked.body.flatMap (bindings "require")).Perm
          ((tree.body.flatMap (occurrences "require")).map redirector.moved) ∧
        ((walked.body.flatMap (bindings "require")).map (·.target)).Perm
          ((tree.body.flatMap (bindings "require")).map (·.target)) := by
  intro code redirector
  have read : (parse code).toOption.any
      (fun tree => (redirector.run tree.body .empty).body.length == 3) = true := by decide +kernel
  cases parsed : parse code with
  | error offset => simp [parsed, Except.toOption] at read
  | ok tree =>
    simp only [parsed, Except.toOption, Option.any_some, beq_iff_eq] at read
    exact ⟨tree, rfl, Usage.scan_answers, read, run_bindings parsed Usage.scan_answers .empty⟩

/-- Two passes over a script, of which the second has the wider surface. Both join what they make of
the statements one by one. Of each statement the second redirects every binding that the first
redirects, and of what the second complains the first complains as well. -/
theorem run_widens {code : String} {tree : Tree} (parsed : parse code = .ok tree)
    {first second : Redirector} (widens : first.Widens second) (answers : first.evidence.Answers)
    (trace : Trace) :
    let callee := first.classifier.settings.requireCallee
    ((first.run tree.body trace).fault = none ∧ (second.run tree.body trace).fault = none) ∧
    ((first.run tree.body trace).body =
        tree.body.flatMap fun node => (first.run [node] trace).body) ∧
    ((second.run tree.body trace).body =
        tree.body.flatMap fun node => (second.run [node] trace).body) ∧
    ((first.run tree.body trace).progress.diagnostics =
        tree.body.flatMap fun node => (first.run [node] trace).progress.diagnostics) ∧
    ((second.run tree.body trace).progress.diagnostics =
        tree.body.flatMap fun node => (second.run [node] trace).progress.diagnostics) ∧
    ∀ node ∈ tree.body,
      (∃ fates : List Fate, fates.map (·.bindingBefore) = bindings callee node ∧
        (fates.map (·.firstBinding)).Perm
          ((first.run [node] trace).body.flatMap (bindings callee)) ∧
        (fates.map (·.secondBinding)).Perm
          ((second.run [node] trace).body.flatMap (bindings callee)) ∧
        ∀ fate ∈ fates, fate.KeepsUp first.replacement) ∧
      ∀ diagnostic ∈ (second.run [node] trace).progress.diagnostics,
        ∃ other ∈ (first.run [node] trace).progress.diagnostics, other.Includes diagnostic := by
  intro callee
  have regular := regular_of_parse parsed
  have answersToo : second.evidence.Answers := by
    rw [widens.evidence]
    exact answers
  have faultless := (Redirector.expandAll_bindings answers regular).1
  have faultlessToo := (Redirector.expandAll_bindings answersToo regular).1
  obtain ⟨each, statements, _, _, diagnostics⟩ := Expansion.ofList_faultless faultless
  obtain ⟨_, statementsToo, _, _, diagnosticsToo⟩ := Expansion.ofList_faultless faultlessToo
  simp only [Redirector.run_eq, Redirector.expandAll, Expansion.ofList_singleton, Progress.extend,
    Progress.start, List.nil_append]
  refine ⟨⟨faultless, faultlessToo⟩, statements, statementsToo, diagnostics, diagnosticsToo,
    fun node membership => ⟨widens.fates answers (regular node membership), fun diagnostic among =>
      widens.expand (each node membership) among⟩⟩

/-- Without an exclude, an import that is split twice moves as a whole. -/
theorem run_widens_sample :
    let code := "import _,{map,omit}from'lodash'"
    let first : Redirector :=
      ⟨⟨.default, .ofNames ["map", "omit"] ["omit"] none⟩, Usage.scan, "_.map(omit)"⟩
    let second : Redirector :=
      ⟨⟨.default, .ofNames ["map", "omit"] [] none⟩, Usage.scan, "_.map(omit)"⟩
    ∃ tree, parse code = .ok tree ∧ first.Widens second ∧ first.evidence.Answers ∧
      (first.run tree.body .empty).fault = none ∧ (first.run tree.body .empty).body.length = 3 ∧
      (second.run tree.body .empty).fault = none ∧ (second.run tree.body .empty).body.length = 2 := by
  intro code first second
  have widens : first.Widens second :=
    ⟨rfl, rfl, rfl, Surface.within_ofNames (List.nil_subset _)⟩
  have read : (parse code).toOption.any (fun tree =>
      (first.run tree.body .empty).body.length == 3 &&
        (second.run tree.body .empty).body.length == 2) = true := by decide +kernel
  cases parsed : parse code with
  | error offset => simp [parsed, Except.toOption] at read
  | ok tree =>
    simp only [parsed, Except.toOption, Option.any_some, Bool.and_eq_true, beq_iff_eq] at read
    obtain ⟨⟨faultless, faultlessToo⟩, _⟩ :=
      run_widens parsed widens Usage.scan_answers .empty
    exact ⟨tree, rfl, widens, Usage.scan_answers, faultless, read.1, faultlessToo, read.2⟩

end ImportRedirect.Script
