import ImportRedirect.Proofs.Audit.Statement
import ImportRedirect.Proofs.Pass.Idempotence
import ImportRedirect.Proofs.Script.Nodes

/-!
The audit of a script and the pass over it agree. What the audit reports as not covered is what the
pass warns of, and what the statements that it leaves still ask of a legacy module by name.
-/

namespace ImportRedirect

open Node

/-- The statement asks for this function by name: it imports names, and this is one of them, or it
imports or requires the module of this single function. -/
def Classifier.Refers (classifier : Classifier) (statement : Value) (function : String) : Prop :=
  ∃ c, classifier.classify statement = .ok c ∧
    match c.shape with
    | .namedImport => ∃ specifier ∈ items (statement.peek "specifiers"),
        importedName specifier = .ok (.str function)
    | .deepPathImport | .dottedPackageImport | .deepPathRequire | .dottedPackageRequire =>
      c.function = some function
    | _ => False

/-- A diagnostic names this function, or a statement that is left asks for it. -/
def Expansion.Reports (expansion : Expansion) (classifier : Classifier) (function : String) : Prop :=
  (∃ diagnostic ∈ expansion.diagnostics, function ∈ diagnostic.functions) ∨
    ∃ statement ∈ expansion.statements, classifier.Refers statement function

namespace Classifier

variable {classifier : Classifier} {statement source : Value} {specifiers : List Value}
  {function : String} {c : Classification}

theorem refers_of_classify (classified : classifier.classify statement = .ok c) :
    classifier.Refers statement function ↔
      match c.shape with
      | .namedImport => ∃ specifier ∈ items (statement.peek "specifiers"),
          importedName specifier = .ok (.str function)
      | .deepPathImport | .dottedPackageImport | .deepPathRequire | .dottedPackageRequire =>
        c.function = some function
      | _ => False := by
  constructor
  · rintro ⟨other, again, refers⟩
    obtain rfl := Except.ok.inj (again.symm.trans classified)
    exact refers
  · exact fun refers => ⟨c, classified, refers⟩

theorem not_refers_of_unrecognized (classified : classifier.classify statement = .ok c)
    (shape : c.shape = .unrecognized) : ¬ classifier.Refers statement function := by
  rw [refers_of_classify classified, shape]
  exact id

theorem importedName_of_nonempty {specifier : Value} (record : specifier.IsRecord)
    (nonempty : exportText specifier ≠ "") :
    importedName specifier = .ok (.str (exportText specifier)) := by
  rw [importedName, Value.get_of_isRecord record, ok_bind, pure_eq_ok]
  rw [exportText, exportName] at nonempty ⊢
  generalize (Node.name (specifier.peek "imported")).orElse _ = name at nonempty ⊢
  by_cases present : name.isPresent = true
  · simp only [Value.orElse, present, if_true] at nonempty ⊢
    cases name <;> simp at nonempty ⊢
  · simp [Value.orElse, present] at nonempty

/-- An import of names asks for these names. -/
theorem refers_of_names {module : String} (imports : Imports statement source specifiers)
    (text : text? source = some module) (legacy : classifier.settings.isLegacy module = true)
    (nonempty : specifiers ≠ [])
    (types : ∀ specifier ∈ specifiers, specifier.peek "type" = namedSpecifier)
    (spelled : ∀ specifier ∈ specifiers, exportText specifier ≠ "") :
    classifier.Refers statement function ↔ function ∈ specifiers.map exportText := by
  have classified : classifier.classify statement = _ := classify_of_imports imports text
  rw [importClass_names legacy nonempty types] at classified
  rw [refers_of_classify classified, imports.specifiers_eq, List.mem_map]
  refine exists_congr fun specifier => and_congr_right fun membership => ?_
  rw [importedName_of_nonempty (imports.records specifier membership) (spelled specifier membership),
    Except.ok.injEq, Value.str.injEq]

theorem refers_of_single {name : String} (classified : classifier.classify statement = .ok c)
    (shape : ∃ form : SingleForm, c.shape = form.importShape ∨ c.shape = form.requireShape)
    (single : c.function = some name) :
    classifier.Refers statement function ↔ function = name := by
  rw [refers_of_classify classified, single]
  obtain ⟨form, shape | shape⟩ := shape <;> rw [shape] <;> cases form <;>
    exact ⟨fun same => (Option.some.inj same).symm, fun same => congrArg some same.symm⟩

theorem not_refers_of_module (classified : classifier.classify statement = .ok c)
    (shape : c.shape = .defaultImport ∨ c.shape = .requireModule) :
    ¬ classifier.Refers statement function := by
  rw [refers_of_classify classified]
  rcases shape with shape | shape <;> rw [shape] <;> exact id

end Classifier

namespace Redirector

variable {redirector : Redirector} {node changed source : Value} {specifiers : List Value}
  {function : String} {c : Classification} {moved : Except Fault Value}

/-- What is reported after a visit that kept the statement or moved it as a whole. -/
theorem reports_of_kept {diagnostics : List Diagnostic} {happenings : List Happening}
    (visited : redirector.visit node = (.ok .advance, keptSite node diagnostics happenings)) :
    (redirector.settle node).Reports redirector.classifier function ↔
      (∃ diagnostic ∈ diagnostics, function ∈ diagnostic.functions) ∨
        redirector.classifier.Refers node function := by
  rw [redirector.settle_of_ok visited]
  simp [Expansion.Reports, Expansion.ofSite, keptSite, Site.statements]

theorem not_reports_of_moved
    (unrecognized : redirector.classifier.classify changed = .ok .unrecognized) :
    ¬ (Expansion.ofSite (redirector.movedSite changed c) none).Reports redirector.classifier
      function := by
  have silent : ¬ redirector.classifier.Refers changed function :=
    Classifier.not_refers_of_unrecognized unrecognized rfl
  simpa [Expansion.Reports, Expansion.ofSite, movedSite, Site.statements] using silent

theorem not_reports_of_moveTo (visited : redirector.visit node = redirector.moveTo c node moved)
    (faultless : (redirector.settle node).fault = none)
    (unrecognized : ∀ changed, moved = .ok changed →
      redirector.classifier.classify changed = .ok .unrecognized) :
    ¬ (redirector.settle node).Reports redirector.classifier function := by
  obtain ⟨outcome, site, result, left⟩ := redirector.visit_of_settle faultless
  obtain ⟨changed, known, rfl⟩ := moveTo_eq_ok (visited.symm.trans result)
  rw [left]
  exact not_reports_of_moved (unrecognized changed known)

/-- For a binding of a whole module, the functions that are used of it and not covered. -/
theorem reports_of_binding (answers : redirector.evidence.Answers) {target : Value}
    {name module : String} (found : Node.name target = .str name)
    (classified : redirector.classifier.classify node = .ok c)
    (shape : c.shape = .defaultImport ∨ c.shape = .requireModule)
    (binding : c.binding = Node.name target) (owner : c.module = some module)
    (visited : redirector.visit node = redirector.settleBinding c node moved)
    (faultless : (redirector.settle node).fault = none)
    (unrecognized : ∀ changed, moved = .ok changed →
      redirector.classifier.classify changed = .ok .unrecognized) :
    (redirector.settle node).Reports redirector.classifier function ↔
      function ∈ redirector.usesOf c.binding ∧ redirector.surface.covers function = false := by
  rcases settleBinding_of_answers answers found (binding.trans found) owner with
    ⟨justified, goes⟩ | ⟨_, diagnostics, happenings, stays, told⟩
  · rw [goes] at visited
    refine iff_of_false (not_reports_of_moveTo visited faultless unrecognized) ?_
    rintro ⟨used, uncovered⟩
    rw [binding] at used
    simp [covers_of_justified justified used] at uncovered
  · rw [stays] at visited
    rw [reports_of_kept visited, told, binding,
      or_iff_left (Classifier.not_refers_of_module classified shape)]

/-- For a module of a single function, this function unless it is covered. -/
theorem reports_of_function {single : String}
    (classified : redirector.classifier.classify node = .ok c)
    (shape : ∃ form : SingleForm, c.shape = form.importShape ∨ c.shape = form.requireShape)
    (found : c.function = some single)
    (visited : redirector.visit node = redirector.settleFunction c node moved)
    (faultless : (redirector.settle node).fault = none)
    (unrecognized : ∀ changed, moved = .ok changed →
      redirector.classifier.classify changed = .ok .unrecognized) :
    (redirector.settle node).Reports redirector.classifier function ↔
      function = single ∧ redirector.surface.covers function = false := by
  rcases redirector.settleFunction_of_some node moved found with
    ⟨covered, goes⟩ | ⟨uncovered, happenings, stays⟩
  · rw [goes] at visited
    refine iff_of_false (not_reports_of_moveTo visited faultless unrecognized) ?_
    rintro ⟨rfl, uncovered⟩
    simp [covered] at uncovered
  · rw [stays] at visited
    rw [reports_of_kept visited, Classifier.refers_of_single classified shape found]
    constructor
    · rintro (told | rfl)
      · simp at told
      · exact ⟨rfl, uncovered⟩
    · exact fun both => .inr both.1

/-- For an import of names, those that are not covered. -/
theorem reports_of_names (outside : redirector.classifier.settings.ReplacesOutside)
    {module : String} (imports : Imports node source specifiers)
    (specifies : ∀ specifier ∈ specifiers, Specifies specifier)
    (text : text? source = some module)
    (legacy : redirector.classifier.settings.isLegacy module = true)
    (nonempty : specifiers ≠ [])
    (types : ∀ specifier ∈ specifiers, specifier.peek "type" = namedSpecifier)
    (spelled : ∀ specifier ∈ specifiers, exportText specifier ≠ "")
    (visited : redirector.visit node = redirector.settleNames c node source specifiers)
    (faultless : (redirector.settle node).fault = none) :
    (redirector.settle node).Reports redirector.classifier function ↔
      function ∈ specifiers.map exportText ∧ redirector.surface.covers function = false := by
  have covers := covers_exportText redirector specifies types
  have uncovered : function ∈ (redirector.uncoveredSpecifiers specifiers).map exportText ↔
      function ∈ specifiers.map exportText ∧ redirector.surface.covers function = false := by
    simp only [List.mem_map, uncoveredSpecifiers, List.mem_filter, Bool.not_eq_true']
    constructor
    · rintro ⟨specifier, ⟨membership, unknown⟩, rfl⟩
      exact ⟨⟨specifier, membership, rfl⟩, (covers specifier membership).trans unknown⟩
    · rintro ⟨⟨specifier, membership, rfl⟩, unknown⟩
      exact ⟨specifier, ⟨membership, (covers specifier membership).symm.trans unknown⟩, rfl⟩
  rw [← uncovered]
  -- The import stays when nothing in it is covered, moves when everything is, and is split otherwise.
  obtain ⟨outcome, site, result, left⟩ := redirector.visit_of_settle faultless
  rcases settleNames_eq_ok (visited.symm.trans result) with
    ⟨rfl, noneCovered, _, rfl⟩ | ⟨allCovered, changed, moved, rfl⟩ |
      ⟨literal, _, replaced, _, someLeft, rfl⟩
  · rw [reports_of_kept result, Classifier.refers_of_names imports text legacy nonempty types spelled,
      uncovered_of_covered_nil noneCovered]
    simp
  · rw [left]
    refine iff_of_false (not_reports_of_moved (classify_sourceChange outside imports text moved)) ?_
    simp [allCovered]
  · have among := redirector.uncovered_subset specifiers
    have kept := imports.withSome (redirector.covered_subset specifiers)
    have silent : ¬ redirector.classifier.Refers _ function :=
      Classifier.not_refers_of_unrecognized (Classifier.classify_import_replacement outside
        (kept.withSource literal) (text_of_setText text replaced)) rfl
    have asks : redirector.classifier.Refers _ function ↔ _ :=
      Classifier.refers_of_names (imports.withSome among) text legacy someLeft
        (fun specifier membership => types specifier (among membership))
        (fun specifier membership => spelled specifier (among membership))
    rw [left, ← asks]
    simp [Expansion.Reports, Expansion.ofSite, partedSite, Site.statements, silent]

/-- A statement that is visited once is reported to use what an audit notes of it and the surface
does not cover. -/
theorem reports_settle (outside : redirector.classifier.settings.ReplacesOutside)
    (answers : redirector.evidence.Answers) (regular : Regular node)
    (spelled : ∀ specifier ∈ items (node.peek "specifiers"),
      specifier.peek "type" = namedSpecifier → exportText specifier ≠ "")
    (once : ∀ site, redirector.visit node ≠ (.ok .reprocess, site)) :
    (redirector.settle node).Reports redirector.classifier function ↔
      function ∈ redirector.audited node ∧ redirector.surface.covers function = false := by
  have faultless := (settles_of_regular answers regular once).faultless
  have cases := redirector.visited node
  generalize visited : redirector.visit node = result at cases
  cases cases with
  | failed =>
    rw [redirector.settle_of_error visited] at faultless
    simp [Expansion.ofSite] at faultless
  | unrecognized classified shape =>
    have kept : redirector.visit node = (.ok .advance, keptSite node [] []) := visited
    rw [reports_of_kept kept, redirector.audited_of_classify classified, auditedAs, shape]
    simp [Classifier.not_refers_of_unrecognized classified shape]
  | combined => exact absurd visited (once _)
  | default imports text legacy type present classified =>
    obtain ⟨name, found, _⟩ :=
      ((regular.imported imports).2.1 _ List.mem_cons_self).localName.name
    rw [redirector.audited_of_classify classified]
    exact reports_of_binding answers found classified (.inl rfl) rfl rfl visited faultless
      fun changed moved => classify_namespaceImport outside imports text moved
  | named imports text legacy nonempty types classified =>
    have specifies := (regular.imported imports).2.1
    rw [coverage_of_exported imports.records (exported_of_types specifies types)] at visited
    rw [imports.specifiers_eq] at spelled
    rw [redirector.audited_of_names imports text legacy nonempty types]
    exact reports_of_names outside imports specifies text legacy nonempty types
      (fun specifier membership => spelled specifier membership (types specifier membership))
      visited faultless
  | singleImport imports text _ _ _ _ classified =>
    rw [redirector.audited_of_single classified ⟨_, .inl rfl⟩ rfl, List.mem_singleton]
    exact reports_of_function classified ⟨_, .inl rfl⟩ rfl visited faultless
      fun changed moved => classify_functionImport outside imports text moved
  | requireModule declares calls text legacy present classified =>
    obtain ⟨name, found, _⟩ := (regular.declared declares present).name
    rw [redirector.audited_of_classify classified]
    exact reports_of_binding answers found classified (.inr rfl) rfl rfl visited faultless
      fun changed moved => classify_moduleRequire outside declares calls text moved
  | singleRequire declares _ _ _ _ _ classified =>
    rw [redirector.audited_of_single classified ⟨_, .inr rfl⟩ rfl, List.mem_singleton]
    exact reports_of_function classified ⟨_, .inr rfl⟩ rfl visited faultless
      fun changed moved => classify_functionRequire declares moved

/-- What an audit notes of an import of both a default and names is what it notes of its halves. -/
theorem audited_of_halves {module : String} (imports : Imports node source specifiers)
    (regular : Regular node) (text : text? source = some module)
    (legacy : redirector.classifier.settings.isLegacy module = true)
    (someDefault : defaultSpecifier ∈ specifiers.map (·.peek "type"))
    (someName : namedSpecifier ∈ specifiers.map (·.peek "type")) :
    function ∈ redirector.audited node ↔
      function ∈ redirector.audited
          (node.put "specifiers" (.arr (otherSpecifiers specifiers))) ∨
        function ∈ redirector.audited
          (node.put "specifiers" (.arr (defaultSpecifiers specifiers))) := by
  obtain ⟨_, specifies, apart, sole⟩ := regular.imported imports
  have classified : redirector.classifier.classify node = _ :=
    Classifier.classify_of_imports imports text
  rw [Classifier.importClass_combined legacy someDefault someName] at classified
  have whole : redirector.audited node = specifiers.flatMap redirector.auditedOf := by
    rw [redirector.audited_of_classify classified]
    simp [auditedAs, imports.specifiers_eq, items]
  have names := types_others specifies (apart someName)
  obtain ⟨specifier, among, alone, isDefault⟩ := sole_default_of_defaults sole someDefault
  have defaults : Imports (node.put "specifiers" (.arr (defaultSpecifiers specifiers))) source
      [specifier] := alone ▸ imports.withSome (defaults_subset specifiers)
  rw [redirector.audited_of_names (imports.withSome (others_subset specifiers)) text legacy
      (List.length_pos_iff.mp (length_others_pos someName)) names,
    redirector.audited_of_default defaults text legacy isDefault
      (specifies specifier among).localName,
    ← redirector.auditedOf_names names, whole, List.mem_flatMap, List.mem_flatMap]
  simp only [← (others_append_defaults specifiers).mem_iff, List.mem_append, or_and_right, exists_or,
    alone, List.mem_singleton, exists_eq_left]

theorem reports_expand (outside : redirector.classifier.settings.ReplacesOutside)
    (answers : redirector.evidence.Answers) (regular : Regular node)
    (spelled : ∀ specifier ∈ items (node.peek "specifiers"),
      specifier.peek "type" = namedSpecifier → exportText specifier ≠ "") :
    (redirector.expand node).Reports redirector.classifier function ↔
      function ∈ redirector.audited node ∧ redirector.surface.covers function = false := by
  rcases redirector.once_or_again node with once | ⟨site, again⟩
  · rw [redirector.expand_of_ne once]
    exact reports_settle outside answers regular spelled once
  · obtain ⟨source, specifiers, module, imports, text, legacy, someDefault, someName, rfl⟩ :=
      redirector.combined_of_reprocess again
    have othersOnce := redirector.once_others imports
    have defaultsOnce := redirector.once_defaults imports
    obtain ⟨quoted, specifies, apart, sole⟩ := regular.imported imports
    have othersRegular := regular_others specifies imports quoted (apart someName)
    have defaultsRegular := regular_defaults specifies imports quoted sole
    rw [imports.specifiers_eq] at spelled
    have some : ∀ chosen : List Value, chosen ⊆ specifiers →
        ∀ specifier ∈ items ((node.put "specifiers" (.arr chosen)).peek "specifiers"),
          specifier.peek "type" = namedSpecifier → exportText specifier ≠ "" := by
      intro chosen among
      rw [Value.peek_put_self imports.record]
      exact fun specifier membership => spelled specifier (among membership)
    rw [audited_of_halves imports regular text legacy someDefault someName, or_and_right,
      ← reports_settle outside answers othersRegular (some _ (others_subset specifiers)) othersOnce,
      ← reports_settle outside answers defaultsRegular (some _ (defaults_subset specifiers))
        defaultsOnce]
    have faultless := (settles_of_regular answers othersRegular othersOnce).faultless
    rw [redirector.expand_of_halves again faultless]
    simp only [Expansion.Reports, Expansion.after, Expansion.append, splitSite, List.nil_append,
      List.mem_append, or_and_right, exists_or]
    exact or_or_or_comm

/-- A pass over regular statements reports what an audit notes of them and the surface does not
cover. -/
theorem reports_expandAll (outside : redirector.classifier.settings.ReplacesOutside)
    (answers : redirector.evidence.Answers) {body : List Value}
    (regular : ∀ node ∈ body, Regular node)
    (spelled : ∀ node ∈ body, ∀ specifier ∈ items (node.peek "specifiers"),
      specifier.peek "type" = namedSpecifier → exportText specifier ≠ "") :
    (redirector.expandAll body).Reports redirector.classifier function ↔
      function ∈ body.flatMap redirector.audited ∧
        redirector.surface.covers function = false := by
  have faultless := (expandAll_bindings answers regular).1
  obtain ⟨_, statements, _, _, diagnostics⟩ := Expansion.ofList_faultless faultless
  have each : (redirector.expandAll body).Reports redirector.classifier function ↔
      ∃ node ∈ body, (redirector.expand node).Reports redirector.classifier function := by
    rw [Expansion.Reports, expandAll, statements, diagnostics]
    simp only [List.mem_flatMap]
    constructor
    · rintro (⟨diagnostic, ⟨node, membership, among⟩, told⟩ | ⟨statement, ⟨node, membership, left⟩, asks⟩)
      · exact ⟨node, membership, .inl ⟨diagnostic, among, told⟩⟩
      · exact ⟨node, membership, .inr ⟨statement, left, asks⟩⟩
    · rintro ⟨node, membership, ⟨diagnostic, among, told⟩ | ⟨statement, left, asks⟩⟩
      · exact .inl ⟨diagnostic, ⟨node, membership, among⟩, told⟩
      · exact .inr ⟨statement, ⟨node, membership, left⟩, asks⟩
  rw [each, List.mem_flatMap, ← exists_and_right]
  refine exists_congr fun node => ?_
  rw [and_assoc]
  exact and_congr_right fun membership =>
    reports_expand outside answers (regular node membership) (spelled node membership)

end Redirector

open Redirector in
/-- An audit of a script and a pass over it both complete, and what the audit reports as not covered
is what a diagnostic of the pass names or a statement that is left asks for. -/
theorem audit_agrees (redirector : Redirector) {code : String} {tree : Script.Tree}
    (parsed : Script.parse code = .ok tree)
    (outside : redirector.classifier.settings.ReplacesOutside)
    (answers : redirector.evidence.Answers)
    (shown : ∀ text name used, redirector.evidence text (.str name) = .ok (some used) → "" ∉ used)
    (spelled : ∀ node ∈ tree.body, ∀ specifier ∈ items (node.peek "specifiers"),
      specifier.peek "type" = namedSpecifier → exportText specifier ≠ "") :
    let walked := redirector.run tree.body .empty
    ∃ report, audit redirector tree.program [] = (.ok (), report) ∧ walked.fault = none ∧
      ∀ function : Value,
        (∃ entry ∈ report, entry.function = function ∧ entry.covered = false) ↔
          ∃ name, function = .str name ∧
            ((∃ diagnostic ∈ walked.progress.diagnostics, name ∈ diagnostic.functions) ∨
              ∃ statement ∈ walked.body, redirector.classifier.Refers statement name) := by
  intro walked
  have regular := Script.regular_of_parse parsed
  have holds : tree.program.getD "body" (.arr []) = .ok (.arr tree.body) := rfl
  obtain ⟨report, audits, lists⟩ :=
    Auditing.notes_program answers holds regular [] [] (AuditReport.lists_empty _)
  have expanded : walked = _ := redirector.run_eq tree.body .empty
  refine ⟨report, audits, ?_, ?_⟩
  · rw [expanded]
    exact (expandAll_bindings answers regular).1
  · intro function
    have reported : ∀ name, ((∃ diagnostic ∈ walked.progress.diagnostics,
          name ∈ diagnostic.functions) ∨
        ∃ statement ∈ walked.body, redirector.classifier.Refers statement name) ↔
        name ∈ tree.body.flatMap redirector.audited ∧ redirector.surface.covers name = false := by
      intro name
      rw [← reports_expandAll outside answers regular spelled, expanded]
      simp [Expansion.Reports, Progress.extend, Progress.start]
    rw [lists.uncovered_iff, List.nil_append]
    refine exists_congr fun name => ?_
    rw [reported, List.mem_filter]
    constructor
    · rintro ⟨⟨noted, _⟩, same, uncovered⟩
      exact ⟨same, noted, uncovered⟩
    · rintro ⟨same, noted, uncovered⟩
      obtain ⟨node, membership, among⟩ := List.mem_flatMap.mp noted
      have nonempty := audited_nonempty (regular node membership) (shown redirector.text)
        (spelled node membership) among uncovered
      exact ⟨⟨noted, by simpa using nonempty⟩, same, uncovered⟩

open Redirector in
/-- Of the functions that this script uses, the surface covers one. One of the others is used of the
whole module, one is a name beside the covered one, and one has a module of its own. -/
theorem audit_agrees_sample :
    let code := "import _,{map,omit}from'lodash';import eq from'lodash/isEqual.js';_.chunk()"
    let redirector : Redirector := ⟨⟨.default, .ofNames ["map"] [] none⟩, Usage.scan, code⟩
    ∃ tree report, Script.parse code = .ok tree ∧
      redirector.classifier.settings.ReplacesOutside ∧ redirector.evidence.Answers ∧
      audit redirector tree.program [] = (.ok (), report) ∧
      (∀ name ∈ ["chunk", "omit", "isEqual"],
        ∃ entry ∈ report, entry.function = .str name ∧ entry.covered = false) ∧
      let walked := redirector.run tree.body .empty
      walked.fault = none ∧ walked.body.length = 5 ∧
        ∀ function : Value,
          (∃ entry ∈ report, entry.function = function ∧ entry.covered = false) ↔
            ∃ name, function = .str name ∧
              ((∃ diagnostic ∈ walked.progress.diagnostics, name ∈ diagnostic.functions) ∨
                ∃ statement ∈ walked.body, redirector.classifier.Refers statement name) := by
  intro code redirector
  have outside : redirector.classifier.settings.ReplacesOutside :=
    ⟨by decide, by decide, by decide⟩
  have facts : (Script.parse code).toOption.any (fun tree =>
      (tree.body.all fun node => (items (node.peek "specifiers")).all fun specifier =>
        specifier.peek "type" != namedSpecifier || exportText specifier != "") &&
      (["chunk", "omit", "isEqual"].all fun name => (audit redirector tree.program []).2.any
        fun entry => entry.function == .str name && !entry.covered) &&
      (redirector.run tree.body .empty).body.length == 5) = true := by decide +kernel
  cases parsed : Script.parse code with
  | error offset => simp [parsed, Except.toOption] at facts
  | ok tree =>
    simp only [parsed, Except.toOption, Option.any_some, Bool.and_eq_true, List.all_eq_true,
      List.any_eq_true, Bool.or_eq_true, bne_iff_ne, beq_iff_eq, Bool.not_eq_true'] at facts
    obtain ⟨⟨spelled, noted⟩, statements⟩ := facts
    have everySpelled : ∀ node ∈ tree.body, ∀ specifier ∈ items (node.peek "specifiers"),
        specifier.peek "type" = namedSpecifier → exportText specifier ≠ "" :=
      fun node membership specifier among isName =>
        (spelled node membership specifier among).resolve_left fun notName => notName isName
    obtain ⟨report, audits, completes, agrees⟩ := audit_agrees redirector parsed outside
      Usage.scan_answers (fun _ _ _ => Usage.scan_nonempty) everySpelled
    rw [audits] at noted
    exact ⟨tree, report, rfl, outside, Usage.scan_answers, audits, noted, completes, statements,
      agrees⟩

end ImportRedirect
