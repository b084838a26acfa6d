import ImportRedirect.Proofs.Binding.Referent
import ImportRedirect.Proofs.Pass.Concatenation
import ImportRedirect.Proofs.Statement.Alike

/-!
What the last visit of a regular statement makes of it: no fault arises, its bindings stand for what
the rule says, and it is left as it was or replaced by statements of a few forms, all at its place.
-/

namespace ImportRedirect

open Node

namespace Node

/-- The statement says that it stands at the place of the other one. -/
structure SamePlace (statement node : Value) : Prop where
  start : statement.peek "start" = node.peek "start"
  stop : statement.peek "end" = node.peek "end"

theorem SamePlace.rfl {node : Value} : SamePlace node node := ⟨Eq.refl _, Eq.refl _⟩

theorem SamePlace.put {statement node : Value} (place : SamePlace statement node) {key : String}
    (start : "start" ≠ key) (stop : "end" ≠ key) (value : Value) :
    SamePlace (statement.put key value) node where
  start := by rw [Value.peek_put_of_ne start]; exact place.start
  stop := by rw [Value.peek_put_of_ne stop]; exact place.stop

theorem SamePlace.trans {first second third : Value} (front : SamePlace first second)
    (back : SamePlace second third) : SamePlace first third :=
  ⟨front.start.trans back.start, front.stop.trans back.stop⟩

/-- The forms of the statements that replace another one. -/
inductive Rewritten (statement : Value) : Prop where
  | importing {source : Value} {specifiers : List Value}
      (imports : Imports statement source specifiers) (quoted : Quoted source)
      (specifies : ∀ specifier ∈ specifiers, Specifies specifier)
  | requiring {declarator argument : Value} {callee : String}
      (declares : Declares statement declarator) (named : Named (declarator.peek "id"))
      (calls : Calls (declarator.peek "init") callee argument) (quoted : Quoted argument)
  | accessing {declarator object argument : Value} {callee function : String}
      (declares : Declares statement declarator) (named : Named (declarator.peek "id"))
      (accesses : declarator.peek "init" = Redirector.memberOf object (some function))
      (calls : Calls object callee argument) (quoted : Quoted argument)

end Node

namespace Redirector

/-- What is known of what a pass makes of a statement. -/
structure Settles (redirector : Redirector) (node : Value) (expansion : Expansion) : Prop where
  faultless : expansion.fault = none
  bindings : (expansion.statements.flatMap
      (Node.bindings redirector.classifier.settings.requireCallee)).Perm
    ((occurrences redirector.classifier.settings.requireCallee node).map redirector.moved)
  form : expansion.statements = [node] ∨
    0 < expansion.redirected + expansion.split ∧
      ∀ statement ∈ expansion.statements, Rewritten statement
  place : ∀ statement ∈ expansion.statements, SamePlace statement node
  /-- A change shows, even up to the order of fields. -/
  apparent : ∀ statement, expansion.statements = [statement] → node.same statement = true →
    statement = node
  nonempty : expansion.statements ≠ []
  atMost : expansion.statements.length ≤ 3
  narrow : expansion.statements.length ≤
    max 1 (Node.bindings redirector.classifier.settings.requireCallee node).length

variable {redirector : Redirector} {node statement source specifier declarator argument : Value}
  {c : Classification} {module : String} {specifiers : List Value}

theorem settles_of_unmoved {diagnostics : List Diagnostic} {happenings : List Happening}
    (visited : redirector.visit node = (.ok .advance, keptSite node diagnostics happenings))
    (unmoved : (occurrences redirector.classifier.settings.requireCallee node).map
        redirector.moved =
      bindings redirector.classifier.settings.requireCallee node) :
    redirector.Settles node (redirector.settle node) := by
  rw [redirector.settle_of_ok visited]
  have left : (Expansion.ofSite (keptSite node diagnostics happenings) none).statements = [node] :=
    rfl
  refine ⟨rfl, ?_, .inl left, ?_, ?_, by simp [left], by simp [left], ?_⟩
  · rw [unmoved, left]
    simp
  · intro statement membership
    obtain rfl : statement = node := by simpa [left] using membership
    exact .rfl
  · intro statement alone _
    exact (List.singleton_inj.mp (left.symm.trans alone)).symm
  · rw [left]
    exact Nat.le_max_left _ _

theorem settles_of_kept {diagnostics : List Diagnostic} {happenings : List Happening}
    (visited : redirector.visit node = (.ok .advance, keptSite node diagnostics happenings))
    (kept : ∀ occurrence ∈ occurrences redirector.classifier.settings.requireCallee node,
      redirector.redirect occurrence = occurrence.binding.referent) :
    redirector.Settles node (redirector.settle node) :=
  settles_of_unmoved visited (map_moved_of_kept kept)

theorem settles_of_moved
    (visited : redirector.visit node = (.ok .advance, redirector.movedSite statement c))
    (rewritten : Rewritten statement) (place : SamePlace statement node)
    (apparent : node.same statement = true → statement = node)
    (moved : bindings redirector.classifier.settings.requireCallee statement =
      (occurrences redirector.classifier.settings.requireCallee node).map redirector.moved) :
    redirector.Settles node (redirector.settle node) := by
  rw [redirector.settle_of_ok visited]
  have left : (Expansion.ofSite (redirector.movedSite statement c) none).statements = [statement] :=
    rfl
  refine ⟨rfl, ?_, .inr ⟨by simp [Expansion.ofSite, movedSite], ?_⟩, ?_, ?_, by simp [left],
    by simp [left], ?_⟩
  · simp [left, moved]
  · simpa [left] using rewritten
  · simpa [left] using place
  · intro other alone alike
    obtain rfl : statement = other := List.singleton_inj.mp (left.symm.trans alone)
    exact apparent alike
  · rw [left]
    exact Nat.le_max_left _ _

theorem settles_of_halves {outcome : Outcome} {site : Site} {first second : Value}
    (visited : redirector.visit node = (.ok outcome, site))
    (left : site.statements = [first, second]) (counted : 0 < site.redirected + site.split)
    (rewritten : Rewritten first ∧ Rewritten second)
    (place : SamePlace first node ∧ SamePlace second node)
    (moved : (bindings redirector.classifier.settings.requireCallee first ++
        bindings redirector.classifier.settings.requireCallee second).Perm
      ((occurrences redirector.classifier.settings.requireCallee node).map redirector.moved))
    (several : 2 ≤ (bindings redirector.classifier.settings.requireCallee node).length) :
    redirector.Settles node (redirector.settle node) := by
  rw [redirector.settle_of_ok visited]
  have statements : (Expansion.ofSite site none).statements = [first, second] := left
  refine ⟨rfl, ?_, .inr ⟨counted, ?_⟩, ?_, fun _ alone => ?_, by simp [statements],
    by simp [statements], ?_⟩
  · simpa [statements] using moved
  · simpa [statements] using rewritten
  · simpa [statements] using place
  · simp [statements] at alone
  · rw [statements]
    exact Nat.le_trans several (Nat.le_max_right _ _)

theorem specifies_put_type (specifies : Specifies specifier) :
    Specifies (specifier.put "type" namespaceSpecifier) where
  record := specifies.record.put _ _
  localName := by rw [Value.peek_put_of_ne (by decide)]; exact specifies.localName
  type := .inr (.inl (Value.peek_put_self specifies.record _ _))

theorem specifies_put_imported (specifies : Specifies specifier) (function : String) :
    Specifies ((specifier.put "type" namedSpecifier).put "imported"
      (identifier (.str function))) where
  record := (specifies.record.put _ _).put _ _
  localName := by
    rw [Value.peek_put_of_ne (by decide), Value.peek_put_of_ne (by decide)]
    exact specifies.localName
  type := by
    refine .inr (.inr ⟨?_, .inl ⟨function, ?_⟩⟩)
    · rw [Value.peek_put_of_ne (by decide), Value.peek_put_self specifies.record]
    · rw [Value.peek_put_self (specifies.record.put _ _)]
      rfl

theorem specifierReferent_put_imported (specifies : Specifies specifier) (function : String) :
    specifierReferent module ((specifier.put "type" namedSpecifier).put "imported"
      (identifier (.str function))) = .exported module function := by
  have found : Node.name (((specifier.put "type" namedSpecifier).put "imported"
      (identifier (.str function))).peek "imported") = .str function := by
    rw [Value.peek_put_self (specifies.record.put _ _)]
    rfl
  rw [specifierReferent_named, exportText, exportName_of_name found]
  rw [Value.peek_put_of_ne (by decide), Value.peek_put_self specifies.record]

theorem occurrences_of_default {callee : String} (imports : Imports node source [specifier])
    (text : text? source = some module) (type : specifier.peek "type" = defaultSpecifier) :
    occurrences callee node = [⟨⟨specifier.peek "local", .fallback module⟩, true, false⟩] := by
  simp [occurrences, bindings_of_imports imports text, occurrencesIn, specifierBinding,
    specifierReferent_default type, Referent.isWhole]

theorem settles_default (answers : redirector.evidence.Answers)
    (imports : Imports node source [specifier]) (quoted : Quoted source)
    (specifies : Specifies specifier) (text : text? source = some module)
    (legacy : redirector.classifier.settings.isLegacy module = true)
    (type : specifier.peek "type" = defaultSpecifier)
    (visited : redirector.visit node = redirector.settleBinding
      ⟨.defaultImport, some module, Node.name (specifier.peek "local"), none⟩ node
      (redirector.namespaceImport node source specifier)) :
    redirector.Settles node (redirector.settle node) := by
  obtain ⟨quote, replaced⟩ := quoted.setText redirector.replacement
  obtain ⟨name, found, _⟩ := specifies.localName.name
  rw [namespaceImport, replaced] at visited
  simp only [Except.map] at visited
  rcases settleBinding_of_answers answers found (c := ⟨.defaultImport, some module,
    Node.name (specifier.peek "local"), none⟩) found rfl with
    ⟨justified, moved⟩ | ⟨unjustified, _, _, kept, _⟩
  · rw [moved] at visited
    have retyped := specifies_put_type specifies
    have after : Imports _ (retext source redirector.replacement quote)
        [specifier.put "type" namespaceSpecifier] :=
      (imports.withSource _).withSpecifiers (by simpa using retyped.record)
    refine settles_of_moved visited (.importing after (quoted.retext _ _) (by simpa using retyped))
      ((SamePlace.rfl.put (by decide) (by decide) _).put (by decide) (by decide) _)
      (fun alike => ?_) ?_
    · have equal := imports.same_type after (by simp [type, defaultSpecifier]) alike
      rw [Value.peek_put_self specifies.record, type] at equal
      exact absurd equal (by decide)
    have whole : specifierReferent redirector.replacement
        (specifier.put "type" namespaceSpecifier) = .whole redirector.replacement :=
      specifierReferent_namespace (Value.peek_put_self specifies.record _ _)
    rw [bindings_of_imports after (text?_retext quoted.kind _ _),
      occurrences_of_default imports text type]
    simp [specifierBinding, whole, Value.peek_put_of_ne, Redirector.moved, redirect, legacy,
      justified]
  · rw [kept] at visited
    refine settles_of_kept visited ?_
    simp [occurrences_of_default imports text type, redirect, legacy, unjustified]

theorem settles_singleImport {function : String} {form : SingleForm}
    (imports : Imports node source [specifier]) (quoted : Quoted source)
    (specifies : Specifies specifier) (text : text? source = some module)
    (legacy : redirector.classifier.settings.isLegacy module = false)
    (single : redirector.classifier.singleFunction? module = some (form, function))
    (type : specifier.peek "type" = defaultSpecifier)
    (visited : redirector.visit node = redirector.settleFunction
      ⟨form.importShape, some module, Node.name (specifier.peek "local"), some function⟩ node
      (redirector.functionImport node source specifier (some function))) :
    redirector.Settles node (redirector.settle node) := by
  obtain ⟨quote, replaced⟩ := quoted.setText redirector.replacement
  rw [functionImport, replaced] at visited
  simp only [Except.map, Value.ofOption] at visited
  rcases redirector.settleFunction_of_some node _ (c := ⟨form.importShape, some module,
    Node.name (specifier.peek "local"), some function⟩) rfl with
    ⟨covered, moved⟩ | ⟨uncovered, _, kept⟩
  · rw [moved] at visited
    have renamed := specifies_put_imported specifies function
    have after : Imports _ (retext source redirector.replacement quote)
        [(specifier.put "type" namedSpecifier).put "imported" (identifier (.str function))] :=
      (imports.withSource _).withSpecifiers (by simpa using renamed.record)
    refine settles_of_moved visited (.importing after (quoted.retext _ _) (by simpa using renamed))
      ((SamePlace.rfl.put (by decide) (by decide) _).put (by decide) (by decide) _)
      (fun alike => ?_) ?_
    · have equal := imports.same_type after (by simp [type, defaultSpecifier]) alike
      rw [Value.peek_put_of_ne (by decide), Value.peek_put_self specifies.record, type] at equal
      exact absurd equal (by decide)
    rw [bindings_of_imports after (text?_retext quoted.kind _ _),
      occurrences_of_default imports text type]
    simp [specifierBinding, specifierReferent_put_imported specifies, Value.peek_put_of_ne,
      Redirector.moved, redirect, legacy, single, covered]
  · rw [kept] at visited
    refine settles_of_kept visited ?_
    simp [occurrences_of_default imports text type, redirect, legacy, single, uncovered]

def specifierAfter (redirector : Redirector) (module : String) (specifier : Value) : Binding :=
  if redirector.coversSpecifier specifier then
    specifierBinding redirector.replacement specifier
  else specifierBinding module specifier

theorem map_specifierAfter_covered (module : String) (specifiers : List Value) :
    (redirector.coveredSpecifiers specifiers).map (redirector.specifierAfter module) =
      (redirector.coveredSpecifiers specifiers).map (specifierBinding redirector.replacement) := by
  refine List.map_congr_left fun specifier membership => ?_
  have covered := (List.mem_filter.mp membership).2
  rw [specifierAfter, if_pos covered]

theorem map_specifierAfter_uncovered (module : String) (specifiers : List Value) :
    (redirector.uncoveredSpecifiers specifiers).map (redirector.specifierAfter module) =
      (redirector.uncoveredSpecifiers specifiers).map (specifierBinding module) := by
  refine List.map_congr_left fun specifier membership => ?_
  have uncovered := (List.mem_filter.mp membership).2
  rw [Bool.not_eq_true'] at uncovered
  rw [specifierAfter, uncovered, if_neg Bool.false_ne_true]

theorem covered_append_uncovered (specifiers : List Value) :
    (redirector.coveredSpecifiers specifiers ++ redirector.uncoveredSpecifiers specifiers).Perm
      specifiers :=
  List.filter_append_perm _ _

section Names

variable (redirector) (specifies : ∀ specifier ∈ specifiers, Specifies specifier)
  (types : ∀ specifier ∈ specifiers, specifier.peek "type" = namedSpecifier)
include specifies types

theorem exported_of_types : ∀ specifier ∈ specifiers, Exported (specifier.peek "imported") := by
  intro specifier membership
  have type := types specifier membership
  rcases (specifies specifier membership).type with other | other | ⟨_, exported⟩
  · simp [type, namedSpecifier, defaultSpecifier] at other
  · simp [type, namedSpecifier, namespaceSpecifier] at other
  · exact exported

theorem covers_exportText : ∀ specifier ∈ specifiers,
    redirector.surface.covers (exportText specifier) = redirector.coversSpecifier specifier := by
  intro specifier membership
  obtain ⟨name, found⟩ :=
    exportName_of_exported (exported_of_types specifies types specifier membership)
  simp [exportText, coversSpecifier, found, Surface.coversName]

/-- The rule for the names of an import is the rule for each of them. -/
theorem occurrences_of_names {callee : String} (imports : Imports node source specifiers)
    (text : text? source = some module)
    (legacy : redirector.classifier.settings.isLegacy module = true) :
    (occurrences callee node).map redirector.moved =
      specifiers.map (redirector.specifierAfter module) := by
  rw [occurrences, bindings_of_imports imports text, occurrencesIn, List.map_map, List.map_map]
  refine List.map_congr_left fun specifier membership => ?_
  have covers := covers_exportText redirector specifies types specifier membership
  by_cases covered : redirector.coversSpecifier specifier = true <;>
    simp [Redirector.moved, redirect, specifierAfter, specifierBinding,
      specifierReferent_named (types specifier membership), legacy, covers, covered]

end Names

theorem settles_named (imports : Imports node source specifiers) (quoted : Quoted source)
    (specifies : ∀ specifier ∈ specifiers, Specifies specifier) (text : text? source = some module)
    (legacy : redirector.classifier.settings.isLegacy module = true)
    (types : ∀ specifier ∈ specifiers, specifier.peek "type" = namedSpecifier)
    (visited : redirector.visit node = match redirector.coverage specifiers with
      | .error fault => (.error fault, Site.of (some node))
      | .ok _ => redirector.settleNames ⟨.namedImport, some module, .null, none⟩ node source
          specifiers) :
    redirector.Settles node (redirector.settle node) := by
  obtain ⟨quote, replaced⟩ := quoted.setText redirector.replacement
  have after : (occurrences redirector.classifier.settings.requireCallee node).map
      redirector.moved = specifiers.map (redirector.specifierAfter module) :=
    occurrences_of_names redirector specifies types imports text legacy
  rw [coverage_of_exported imports.records (exported_of_types specifies types)] at visited
  simp only [settleNames, replaced, Except.map] at visited
  -- The import stays when nothing in it is covered, moves when everything is, and is split otherwise.
  by_cases noneCovered : redirector.coveredSpecifiers specifiers = []
  · simp only [noneCovered, List.isEmpty_nil, if_true] at visited
    refine settles_of_unmoved visited ?_
    rw [after, bindings_of_imports imports text, ← uncovered_of_covered_nil noneCovered,
      map_specifierAfter_uncovered]
  · have someCovered := List.isEmpty_eq_false_iff.mpr noneCovered
    by_cases allCovered : redirector.uncoveredSpecifiers specifiers = []
    · simp only [someCovered, allCovered, List.isEmpty_nil, if_true, Bool.false_eq_true, if_false,
        moveTo] at visited
      have moved := imports.withSource (retext source redirector.replacement quote)
      refine settles_of_moved visited (.importing moved (quoted.retext _ _) specifies)
        (SamePlace.rfl.put (by decide) (by decide) _) (withSource_of_same imports quoted) ?_
      rw [after, bindings_of_imports moved (text?_retext quoted.kind _ _),
        ← covered_of_uncovered_nil allCovered, map_specifierAfter_covered]
    · have someUncovered := List.isEmpty_eq_false_iff.mpr allCovered
      simp only [someCovered, someUncovered, Bool.false_eq_true, if_false] at visited
      have kept := (imports.withSome (redirector.covered_subset specifiers)).withSource
        (retext source redirector.replacement quote)
      have left := imports.withSome (redirector.uncovered_subset specifiers)
      have both := redirector.covered_append_uncovered specifiers
      have keptForm : Rewritten _ := .importing kept (quoted.retext _ _) fun specifier membership =>
        specifies specifier (redirector.covered_subset specifiers membership)
      have leftForm : Rewritten _ := .importing left quoted fun specifier membership =>
        specifies specifier (redirector.uncovered_subset specifiers membership)
      refine settles_of_halves visited rfl Nat.zero_lt_two ⟨keptForm, leftForm⟩
        ⟨(SamePlace.rfl.put (by decide) (by decide) _).put (by decide) (by decide) _,
          SamePlace.rfl.put (by decide) (by decide) _⟩ ?_ ?_
      · rw [bindings_of_imports kept (text?_retext quoted.kind _ _), bindings_of_imports left text,
          after, ← map_specifierAfter_covered module, ← map_specifierAfter_uncovered,
          ← List.map_append]
        exact both.map _
      · have total := both.length_eq
        have first := List.length_pos_iff.mpr noneCovered
        have second := List.length_pos_iff.mpr allCovered
        rw [List.length_append] at total
        rw [bindings_of_imports imports text, List.length_map]
        omega

theorem declares_requireOf (declares : Declares node declarator) (literal : Value) :
    Declares (requireOf node declarator literal) (declarator.put "init"
      ((declarator.peek "init").put "arguments" (.arr [literal]))) :=
  declares.withDeclarator (declares.record.put _ _)

theorem named_put_init (named : Named (declarator.peek "id")) (value : Value) :
    Named ((declarator.put "init" value).peek "id") := by
  rw [Value.peek_put_of_ne (by decide)]
  exact named

theorem occurrences_of_require (declares : Declares node declarator)
    (calls : Calls (declarator.peek "init") redirector.classifier.settings.requireCallee argument)
    (text : text? argument = some module) :
    occurrences redirector.classifier.settings.requireCallee node =
      [⟨⟨declarator.peek "id", .required module⟩, true, false⟩] := by
  simp [occurrences, bindings_of_declares declares, occurrencesIn, declaratorBinding,
    valueReferent_of_calls calls text, Referent.isWhole]

theorem settles_requireModule (answers : redirector.evidence.Answers)
    (declares : Declares node declarator)
    (calls : Calls (declarator.peek "init") redirector.classifier.settings.requireCallee argument)
    (named : Named (declarator.peek "id")) (quoted : Quoted argument)
    (text : text? argument = some module)
    (legacy : redirector.classifier.settings.isLegacy module = true)
    (visited : redirector.visit node = redirector.settleBinding
      ⟨.requireModule, some module, Node.name (declarator.peek "id"), none⟩ node
      (redirector.moduleRequire node declarator argument)) :
    redirector.Settles node (redirector.settle node) := by
  obtain ⟨quote, replaced⟩ := quoted.setText redirector.replacement
  obtain ⟨name, found, _⟩ := named.name
  rw [moduleRequire, replaced] at visited
  simp only [Except.map] at visited
  rcases settleBinding_of_answers answers found (c := ⟨.requireModule, some module,
    Node.name (declarator.peek "id"), none⟩) found rfl with
    ⟨justified, moved⟩ | ⟨unjustified, _, _, kept, _⟩
  · rw [moved] at visited
    have after := declares_requireOf declares (retext argument redirector.replacement quote)
    have requires := calls.withArgument (retext argument redirector.replacement quote)
    rw [← Value.peek_put_self declares.record "init" ((declarator.peek "init").put _ _)] at requires
    refine settles_of_moved visited
      (.requiring after (named_put_init named _) requires (quoted.retext _ _))
      (SamePlace.rfl.put (by decide) (by decide) _) (requireOf_of_same declares calls quoted) ?_
    rw [bindings_of_declares after, declaratorBinding,
      valueReferent_of_calls requires (text?_retext quoted.kind _ _),
      Value.peek_put_of_ne (by decide), occurrences_of_require declares calls text]
    simp [Redirector.moved, redirect, legacy, justified, named.present]
  · rw [kept] at visited
    refine settles_of_kept visited ?_
    simp [occurrences_of_require declares calls text, redirect, legacy, unjustified]

theorem settles_singleRequire {function : String} {form : SingleForm}
    (declares : Declares node declarator)
    (calls : Calls (declarator.peek "init") redirector.classifier.settings.requireCallee argument)
    (named : Named (declarator.peek "id")) (quoted : Quoted argument)
    (text : text? argument = some module)
    (legacy : redirector.classifier.settings.isLegacy module = false)
    (single : redirector.classifier.singleFunction? module = some (form, function))
    (visited : redirector.visit node = redirector.settleFunction
      ⟨form.requireShape, some module, Node.name (declarator.peek "id"), some function⟩ node
      (redirector.functionRequire node declarator argument (some function))) :
    redirector.Settles node (redirector.settle node) := by
  obtain ⟨quote, replaced⟩ := quoted.setText redirector.replacement
  rw [functionRequire, replaced] at visited
  simp only [Except.map] at visited
  rcases redirector.settleFunction_of_some node _ (c := ⟨form.requireShape, some module,
    Node.name (declarator.peek "id"), some function⟩) rfl with
    ⟨covered, moved⟩ | ⟨uncovered, _, kept⟩
  · rw [moved] at visited
    have requires := calls.withArgument (retext argument redirector.replacement quote)
    have after := declares.withDeclarator (declares.record.put "init" (memberOf
      ((declarator.peek "init").put "arguments" (.arr [retext argument redirector.replacement
        quote])) (some function)))
    refine settles_of_moved visited (.accessing after (named_put_init named _)
      (Value.peek_put_self declares.record _ _) requires (quoted.retext _ _))
      (SamePlace.rfl.put (by decide) (by decide) _) (fun alike => ?_) ?_
    · have equal := declares.same_init after calls.ne_null alike
      rw [Value.peek_put_self declares.record, same_memberOf calls] at equal
      simp at equal
    rw [bindings_of_declares after, declaratorBinding, Value.peek_put_self declares.record,
      Value.peek_put_of_ne (by decide), occurrences_of_require declares calls text]
    rw [valueReferent_memberOf requires (text?_retext quoted.kind _ _)]
    simp [Redirector.moved, redirect, legacy, single, covered, named.present]
  · rw [kept] at visited
    refine settles_of_kept visited ?_
    simp [occurrences_of_require declares calls text, redirect, legacy, single, uncovered]

end Redirector

end ImportRedirect
