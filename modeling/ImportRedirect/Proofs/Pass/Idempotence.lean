import ImportRedirect.Proofs.Pass.Conclusion

/-!
A second pass changes nothing. What a visit leaves is either a statement that the same visit keeps,
the names of a legacy import none of which is covered, or a statement about the replacement, which is
not recognized as long as the replacement is not itself a module to be redirected.
-/

namespace ImportRedirect

/-- The replacement is none of the modules that are redirected. -/
structure Settings.ReplacesOutside (settings : Settings) : Prop where
  notLegacy : settings.isLegacy settings.replacementModule = false
  noFile : settings.deepName? settings.replacementModule = none
  noPackage : settings.dottedName? settings.replacementModule = none

theorem Expansion.ofList_append {expand : Value → Expansion} {first : List Value}
    (faultless : (ofList expand first).fault = none) (second : List Value) :
    ofList expand (first ++ second) = (ofList expand first).append (ofList expand second) := by
  induction first with
  | nil => simp [ofList, append, empty]
  | cons node rest inductionHypothesis =>
    have here := (ofList_faultless faultless).1 node (by simp)
    rw [ofList_cons_of_faultless here] at faultless ⊢
    rw [List.cons_append, ofList_cons_of_faultless here, inductionHypothesis faultless]
    simp [append, Nat.add_assoc]

namespace Classifier

open Node

variable {classifier : Classifier} {node source declarator argument : Value}
  {specifiers : List Value}

theorem singleFunction?_replacement (outside : classifier.settings.ReplacesOutside) :
    classifier.singleFunction? classifier.settings.replacementModule = none := by
  simp [singleFunction?, outside.noFile, outside.noPackage]

/-- No import from the replacement is recognized. -/
theorem classify_import_replacement (outside : classifier.settings.ReplacesOutside)
    (imports : Imports node source specifiers)
    (text : text? source = some classifier.settings.replacementModule) :
    classifier.classify node = .ok .unrecognized := by
  rw [classify_of_imports imports text]
  simp [importClass, outside.notLegacy, singleFunction?_replacement outside]

/-- No require of the replacement is recognized. -/
theorem classify_require_replacement (outside : classifier.settings.ReplacesOutside)
    (declares : Declares node declarator)
    (calls : Calls (declarator.peek "init") classifier.settings.requireCallee argument)
    (text : text? argument = some classifier.settings.replacementModule) :
    classifier.classify node = .ok .unrecognized := by
  rw [classify_of_declares declares calls text]
  simp [requireClass, outside.notLegacy, singleFunction?_replacement outside]

end Classifier

namespace Redirector

open Node

variable {redirector : Redirector} {node source declarator argument : Value}
  {specifiers : List Value} {module : String}

/-- A pass leaves these statements as they are, and reports these diagnostics about them. -/
def Rests (redirector : Redirector) (statements : List Value) (diagnostics : List Diagnostic) :
    Prop :=
  ∃ happenings, redirector.expandAll statements = ⟨statements, 0, 0, diagnostics, happenings, none⟩

namespace Rests

theorem nil : redirector.Rests [] [] := ⟨[], rfl⟩

theorem append {first second : List Value} {before after : List Diagnostic}
    (firstRests : redirector.Rests first before) (secondRests : redirector.Rests second after) :
    redirector.Rests (first ++ second) (before ++ after) := by
  obtain ⟨firstHappenings, firstResult⟩ := firstRests
  obtain ⟨secondHappenings, secondResult⟩ := secondRests
  refine ⟨firstHappenings ++ secondHappenings, ?_⟩
  rw [expandAll] at firstResult secondResult ⊢
  rw [Expansion.ofList_append (by rw [firstResult]), firstResult, secondResult]
  rfl

theorem of_visit {diagnostics : List Diagnostic} {happenings : List Happening}
    (kept : redirector.visit node = (.ok .advance, keptSite node diagnostics happenings)) :
    redirector.Rests [node] diagnostics := by
  refine ⟨happenings, ?_⟩
  have once : ∀ site, redirector.visit node ≠ (.ok .reprocess, site) := by
    intro site again
    rw [kept] at again
    simp at again
  rw [expandAll, Expansion.ofList_singleton, redirector.expand_of_ne once,
    redirector.settle_of_ok kept]
  rfl

theorem of_unrecognized (classified : redirector.classifier.classify node = .ok .unrecognized) :
    redirector.Rests [node] [] := by
  apply of_visit
  rw [redirector.visit_of_classify classified, apply_unrecognized]
  rfl

end Rests

theorem text_of_setText {changed : Value} (text : text? source = some module)
    (succeeds : setText source redirector.replacement = .ok changed) :
    text? changed = some redirector.replacement :=
  text?_setText ⟨module, text⟩ succeeds

section Moved

variable (outside : redirector.classifier.settings.ReplacesOutside) {changed : Value}
include outside

theorem classify_sourceChange (imports : Imports node source specifiers)
    (text : text? source = some module)
    (moved : (setText source redirector.replacement).map (node.put "source") = .ok changed) :
    redirector.classifier.classify changed = .ok .unrecognized := by
  obtain ⟨literal, replaced, rfl⟩ := map_eq_ok.mp moved
  exact Classifier.classify_import_replacement outside (imports.withSource literal)
    (text_of_setText text replaced)

theorem classify_namespaceImport {specifier : Value} (imports : Imports node source [specifier])
    (text : text? source = some module)
    (moved : redirector.namespaceImport node source specifier = .ok changed) :
    redirector.classifier.classify changed = .ok .unrecognized := by
  rw [namespaceImport] at moved
  obtain ⟨literal, replaced, rfl⟩ := map_eq_ok.mp moved
  have record := imports.records specifier (by simp)
  refine Classifier.classify_import_replacement outside
    ((imports.withSource literal).withSpecifiers ?_) (text_of_setText text replaced)
  simpa using record.put _ _

theorem classify_functionImport {specifier : Value} {function : Option String}
    (imports : Imports node source [specifier]) (text : text? source = some module)
    (moved : redirector.functionImport node source specifier function = .ok changed) :
    redirector.classifier.classify changed = .ok .unrecognized := by
  rw [functionImport] at moved
  obtain ⟨literal, replaced, rfl⟩ := map_eq_ok.mp moved
  have record := imports.records specifier (by simp)
  refine Classifier.classify_import_replacement outside
    ((imports.withSource literal).withSpecifiers ?_) (text_of_setText text replaced)
  simpa using (record.put _ _).put _ _

theorem classify_moduleRequire (declares : Declares node declarator)
    (calls : Calls (declarator.peek "init") redirector.classifier.settings.requireCallee argument)
    (text : text? argument = some module)
    (moved : redirector.moduleRequire node declarator argument = .ok changed) :
    redirector.classifier.classify changed = .ok .unrecognized := by
  rw [moduleRequire] at moved
  obtain ⟨literal, replaced, rfl⟩ := map_eq_ok.mp moved
  have requires := declares.withDeclarator (declares.record.put "init"
    ((declarator.peek "init").put "arguments" (.arr [literal])))
  refine Classifier.classify_require_replacement outside requires ?_
    (text_of_setText text replaced)
  rw [Value.peek_put_self declares.record]
  exact calls.withArgument literal

omit outside in
theorem classify_functionRequire {function : Option String} (declares : Declares node declarator)
    (moved : redirector.functionRequire node declarator argument function = .ok changed) :
    redirector.classifier.classify changed = .ok .unrecognized := by
  rw [functionRequire] at moved
  obtain ⟨literal, replaced, rfl⟩ := map_eq_ok.mp moved
  have wraps := declares.withDeclarator (declares.record.put "init"
    (memberOf ((declarator.peek "init").put "arguments" (.arr [literal])) function))
  refine Classifier.classify_of_not_call wraps ?_
  rw [Value.peek_put_self declares.record]
  rfl

end Moved

theorem visit_uncovered (imports : Imports node source specifiers)
    (text : text? source = some module)
    (legacy : redirector.classifier.settings.isLegacy module = true) (nonempty : specifiers ≠ [])
    (types : ∀ specifier ∈ specifiers, specifier.peek "type" = namedSpecifier)
    (answers : ∃ covered, redirector.coverage specifiers = .ok covered)
    (uncovered : redirector.coveredSpecifiers specifiers = []) :
    ∃ happenings, redirector.visit node = (.ok .advance, keptSite node [] happenings) := by
  have classified : redirector.classifier.classify node = _ :=
    Classifier.classify_of_imports imports text
  rw [Classifier.importClass_names legacy nonempty types] at classified
  obtain ⟨covered, answers⟩ := answers
  rw [redirector.visit_of_classify classified,
    redirector.apply_named imports (text_ne_null text) rfl, answers]
  simp only [settleNames, uncovered, List.isEmpty_nil, if_true]
  exact ⟨_, rfl⟩

theorem coverage_of_subset {others : List Value} {covered : List Bool}
    (imports : Imports node source specifiers)
    (answers : redirector.coverage specifiers = .ok covered)
    (among : others ⊆ specifiers) :
    redirector.coverage others = .ok (others.map (redirector.coversSpecifier ·)) := by
  refine mapM_eq_ok fun specifier membership => ?_
  obtain ⟨result, answer⟩ := mapM_ok_mem answers specifier (among membership)
  have name := importedNameD_of_isRecord (imports.records specifier (among membership))
  rw [name, ok_bind] at answer ⊢
  rw [answer, ← Surface.coversValue_eq_ok answer]
  rfl

theorem coveredSpecifiers_uncovered (specifiers : List Value) :
    redirector.coveredSpecifiers (redirector.uncoveredSpecifiers specifiers) = [] := by
  rw [coveredSpecifiers, uncoveredSpecifiers, List.filter_filter, List.filter_eq_nil_iff]
  intro specifier _ both
  simp at both

/-- What a last visit leaves is left by every later visit. -/
theorem rests_of_concludes (outside : redirector.classifier.settings.ReplacesOutside) {site : Site}
    (concludes : redirector.Concludes node site) :
    redirector.Rests site.statements site.diagnostics := by
  cases concludes with
  | kept visited => exact .of_visit visited
  | default imports text _ moved =>
    exact .of_unrecognized (classify_namespaceImport outside imports text moved)
  | singleImport imports text _ _ moved =>
    exact .of_unrecognized (classify_functionImport outside imports text moved)
  | requireModule declares calls text _ moved =>
    exact .of_unrecognized (classify_moduleRequire outside declares calls text moved)
  | singleRequire declares _ _ _ _ moved =>
    exact .of_unrecognized (classify_functionRequire declares moved)
  | names imports text _ _ moved =>
    exact .of_unrecognized (classify_sourceChange outside imports text moved)
  | @split _ literal specifiers _ _ _ imports text legacy types answers replaced _ someLeft =>
    -- The covered half is about the replacement, the other half has nothing covered.
    have kept := imports.withSome (redirector.covered_subset specifiers)
    have among := redirector.uncovered_subset specifiers
    have left := imports.withSome among
    have keptRests := Rests.of_unrecognized (Classifier.classify_import_replacement outside
      (kept.withSource literal) (text_of_setText text replaced))
    obtain ⟨happenings, again⟩ := visit_uncovered left text legacy someLeft
      (fun specifier membership => types specifier (among membership))
      ⟨_, coverage_of_subset imports answers among⟩ (coveredSpecifiers_uncovered specifiers)
    exact keptRests.append (.of_visit again)

/-- What a pass leaves of a statement is left by every later pass. -/
theorem expand_rests (outside : redirector.classifier.settings.ReplacesOutside)
    (faultless : (redirector.expand node).fault = none) :
    redirector.Rests (redirector.expand node).statements (redirector.expand node).diagnostics := by
  have concluded := redirector.concluded_of_expand faultless
  generalize redirector.expand node = expansion at concluded
  cases concluded with
  | whole concludes => exact rests_of_concludes outside concludes
  | halves _ _ _ _ _ others defaults =>
    exact (rests_of_concludes outside others).append (rests_of_concludes outside defaults)

theorem expandAll_rests (outside : redirector.classifier.settings.ReplacesOutside)
    {body : List Value} (faultless : (redirector.expandAll body).fault = none) :
    redirector.Rests (redirector.expandAll body).statements
      (redirector.expandAll body).diagnostics := by
  induction body with
  | nil => exact .nil
  | cons node rest inductionHypothesis =>
    have here := (Expansion.ofList_faultless faultless).1 node (by simp)
    rw [expandAll, Expansion.ofList_cons_of_faultless here] at faultless ⊢
    exact (expand_rests outside here).append (inductionHypothesis faultless)

/-- A second pass over what a pass left changes nothing and reports the same diagnostics. -/
theorem run_idempotent (outside : redirector.classifier.settings.ReplacesOutside)
    (body : List Value) (trace again : Trace)
    (completes : (redirector.run body trace).fault = none) :
    let first := redirector.run body trace
    let second := redirector.run first.body again
    second.fault = none ∧ second.body = first.body ∧ second.progress.redirected = 0 ∧
      second.progress.split = 0 ∧ second.progress.diagnostics = first.progress.diagnostics := by
  intro first second
  have faultless : (redirector.expandAll body).fault = none := by simpa [run_eq] using completes
  obtain ⟨happenings, rests⟩ := expandAll_rests outside faultless
  have unchanged : redirector.run first.body again =
      ⟨first.body, (Progress.start again).extend
        ⟨first.body, 0, 0, first.progress.diagnostics, happenings, none⟩, none⟩ := by
    simp only [first, run_eq, rests]
    simp [Progress.extend, Progress.start]
  simp only [second, unchanged]
  simp [Progress.extend, Progress.start]

/-- An import of a default and two names, which takes both kinds of split when one of the names is
covered. -/
def combinedImport : Value :=
  let specifier := fun (type : Value) (imported : List (String × Value)) (name : String) =>
    Value.obj ([("type", type)] ++ imported ++ [("local", identifier (.str name))])
  .obj [("type", .str "ImportDeclaration"),
    ("specifiers", .arr [specifier defaultSpecifier [] "_",
      specifier namedSpecifier [("imported", identifier (.str "map"))] "map",
      specifier namedSpecifier [("imported", identifier (.str "template"))] "render"]),
    ("source", .obj [("type", .str "Literal"), ("value", .str "lodash"), ("raw", .str "'lodash'")])]

/-- The default settings with a surface of one function and a text that uses another. -/
def mapRedirector : Redirector :=
  ⟨⟨.default, .ofNames ["map"] [] none⟩, Usage.scan, "_.template(map)"⟩

theorem run_idempotent_combinedImport :
    mapRedirector.classifier.settings.ReplacesOutside ∧
      (mapRedirector.run [combinedImport] .empty).fault = none ∧
      (mapRedirector.run [combinedImport] .empty).body.length = 3 ∧
      let first := mapRedirector.run [combinedImport] .empty
      let second := mapRedirector.run first.body .empty
      second.fault = none ∧ second.body = first.body ∧ second.progress.redirected = 0 ∧
        second.progress.split = 0 ∧ second.progress.diagnostics = first.progress.diagnostics := by
  have outside : mapRedirector.classifier.settings.ReplacesOutside :=
    ⟨by decide, by decide, by decide⟩
  have completes : (mapRedirector.run [combinedImport] .empty).fault = none := by decide
  exact ⟨outside, completes, by decide,
    run_idempotent outside [combinedImport] .empty .empty completes⟩

end Redirector

end ImportRedirect
