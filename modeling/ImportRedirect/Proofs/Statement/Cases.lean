import ImportRedirect.Proofs.Statement.Visit

/-!
Everything that one visit of a statement can do, case by case, with what is known of the statement in
each case. Facts about whole passes are derived from this inversion and do not look at how a
statement is classified or handled.
-/

namespace ImportRedirect

open Node

namespace Redirector

variable (redirector : Redirector)

def splitSite (node : Value) (specifiers : List Value) : Site where
  node := some (node.put "specifiers" (.arr (otherSpecifiers specifiers)))
  inserted := some (node.put "specifiers" (.arr (defaultSpecifiers specifiers)))
  redirected := 0
  split := 1
  diagnostics := []
  happenings := [.split Shape.combinedImport.name ((otherSpecifiers specifiers).map exportName)
    [.str "default"]]

/-- The cases of a visit. -/
inductive Visited (node : Value) : Except Fault Outcome × Site → Prop where
  | failed {fault : Fault} (classified : redirector.classifier.classify node = .error fault) :
      Visited node (.error fault, Site.of (some node))
  | unrecognized {c : Classification} (classified : redirector.classifier.classify node = .ok c)
      (shape : c.shape = .unrecognized) : Visited node (.ok .advance, Site.of (some node))
  | combined {source : Value} {specifiers : List Value} {module : String}
      (imports : Imports node source specifiers) (text : text? source = some module)
      (legacy : redirector.classifier.settings.isLegacy module = true)
      (someDefault : defaultSpecifier ∈ specifiers.map (·.peek "type"))
      (someName : namedSpecifier ∈ specifiers.map (·.peek "type"))
      (classified : redirector.classifier.classify node =
        .ok ⟨.combinedImport, some module, .null, none⟩) :
      Visited node (.ok .reprocess, splitSite node specifiers)
  | default {source specifier : Value} {module : String}
      (imports : Imports node source [specifier]) (text : text? source = some module)
      (legacy : redirector.classifier.settings.isLegacy module = true)
      (type : specifier.peek "type" = defaultSpecifier)
      (present : (Node.name (specifier.peek "local")).isPresent = true)
      (classified : redirector.classifier.classify node =
        .ok ⟨.defaultImport, some module, Node.name (specifier.peek "local"), none⟩) :
      Visited node (redirector.settleBinding
        ⟨.defaultImport, some module, Node.name (specifier.peek "local"), none⟩ node
        (redirector.namespaceImport node source specifier))
  | named {source : Value} {specifiers : List Value} {module : String}
      (imports : Imports node source specifiers) (text : text? source = some module)
      (legacy : redirector.classifier.settings.isLegacy module = true)
      (nonempty : specifiers ≠ [])
      (types : ∀ specifier ∈ specifiers, specifier.peek "type" = namedSpecifier)
      (classified : redirector.classifier.classify node =
        .ok ⟨.namedImport, some module, .null, none⟩) :
      Visited node (match redirector.coverage specifiers with
        | .error fault => (.error fault, Site.of (some node))
        | .ok _ => redirector.settleNames ⟨.namedImport, some module, .null, none⟩ node source
            specifiers)
  | singleImport {source specifier : Value} {module function : String} {form : SingleForm}
      (imports : Imports node source [specifier]) (text : text? source = some module)
      (legacy : redirector.classifier.settings.isLegacy module = false)
      (single : redirector.classifier.singleFunction? module = some (form, function))
      (type : specifier.peek "type" = defaultSpecifier)
      (present : (Node.name (specifier.peek "local")).isPresent = true)
      (classified : redirector.classifier.classify node =
        .ok ⟨form.importShape, some module, Node.name (specifier.peek "local"), some function⟩) :
      Visited node (redirector.settleFunction
        ⟨form.importShape, some module, Node.name (specifier.peek "local"), some function⟩ node
        (redirector.functionImport node source specifier (some function)))
  | requireModule {declarator argument : Value} {module : String}
      (declares : Declares node declarator)
      (calls : Calls (declarator.peek "init") redirector.classifier.settings.requireCallee argument)
      (text : text? argument = some module)
      (legacy : redirector.classifier.settings.isLegacy module = true)
      (present : (Node.name (declarator.peek "id")).isPresent = true)
      (classified : redirector.classifier.classify node =
        .ok ⟨.requireModule, some module, Node.name (declarator.peek "id"), none⟩) :
      Visited node (redirector.settleBinding
        ⟨.requireModule, some module, Node.name (declarator.peek "id"), none⟩ node
        (redirector.moduleRequire node declarator argument))
  | singleRequire {declarator argument : Value} {module function : String} {form : SingleForm}
      (declares : Declares node declarator)
      (calls : Calls (declarator.peek "init") redirector.classifier.settings.requireCallee argument)
      (text : text? argument = some module)
      (legacy : redirector.classifier.settings.isLegacy module = false)
      (single : redirector.classifier.singleFunction? module = some (form, function))
      (present : (Node.name (declarator.peek "id")).isPresent = true)
      (classified : redirector.classifier.classify node =
        .ok ⟨form.requireShape, some module, Node.name (declarator.peek "id"), some function⟩) :
      Visited node (redirector.settleFunction
        ⟨form.requireShape, some module, Node.name (declarator.peek "id"), some function⟩ node
        (redirector.functionRequire node declarator argument (some function)))

variable {node source declarator argument : Value} {specifiers : List Value} {module : String}

/-- Specifiers that have the one type of a default specifier are one default specifier. -/
theorem sole_default (types : specifiers.map (·.peek "type") = [defaultSpecifier]) :
    ∃ specifier, specifiers = [specifier] ∧ specifier.peek "type" = defaultSpecifier := by
  match specifiers with
  | [] => simp at types
  | [specifier] => exact ⟨specifier, rfl, by simpa using types⟩
  | first :: second :: rest => simp at types

theorem text_ne_null (text : text? source = some module) : source ≠ .null := by
  rintro rfl
  simp [text?] at text

theorem visited_legacy_import (imports : Imports node source specifiers)
    (text : text? source = some module)
    (legacy : redirector.classifier.settings.isLegacy module = true) :
    redirector.Visited node (redirector.visit node) := by
  have classified : redirector.classifier.classify node = _ :=
    Classifier.classify_of_imports imports text
  have present := text_ne_null text
  rw [redirector.visit_of_classify classified]
  by_cases both : ((specifiers.map (·.peek "type")).contains defaultSpecifier &&
      (specifiers.map (·.peek "type")).contains namedSpecifier) = true
  · rw [Bool.and_eq_true, List.contains_iff_mem, List.contains_iff_mem] at both
    rw [Classifier.importClass_combined legacy both.1 both.2] at classified ⊢
    rw [redirector.apply_combined imports rfl]
    exact .combined imports text legacy both.1 both.2 classified
  by_cases sole : (specifiers.map (·.peek "type") == [defaultSpecifier] &&
      (Node.name ((specifiers.headD .null).peek "local")).isPresent) = true
  · have types := sole
    rw [Bool.and_eq_true, beq_iff_eq] at types
    obtain ⟨specifier, rfl, type⟩ := sole_default types.1
    rw [Classifier.importClass_default legacy type types.2] at classified ⊢
    rw [redirector.apply_default imports present rfl]
    exact .default imports text legacy type types.2 classified
  by_cases names : (!(specifiers.map (·.peek "type")).isEmpty &&
      (specifiers.map (·.peek "type")).all (· == namedSpecifier)) = true
  · rw [Bool.and_eq_true] at names
    have nonempty : specifiers ≠ [] := by
      rintro rfl
      simp at names
    have types : ∀ specifier ∈ specifiers, specifier.peek "type" = namedSpecifier :=
      fun specifier membership =>
        beq_iff_eq.mp (List.all_eq_true.mp names.2 _ (List.mem_map_of_mem membership))
    rw [Classifier.importClass_names legacy nonempty types] at classified ⊢
    rw [redirector.apply_named imports present rfl]
    exact .named imports text legacy nonempty types classified
  · have class_eq : redirector.classifier.importClass module specifiers = .unrecognized := by
      simp only [Classifier.importClass, legacy, both, sole, names, if_true, Bool.false_eq_true,
        if_false]
    rw [class_eq] at classified ⊢
    exact .unrecognized classified rfl

theorem visited_other_import (imports : Imports node source specifiers)
    (text : text? source = some module)
    (legacy : redirector.classifier.settings.isLegacy module = false) :
    redirector.Visited node (redirector.visit node) := by
  have classified : redirector.classifier.classify node = _ :=
    Classifier.classify_of_imports imports text
  have present := text_ne_null text
  rw [redirector.visit_of_classify classified]
  cases single : redirector.classifier.singleFunction? module with
  | none =>
    have class_eq : redirector.classifier.importClass module specifiers = .unrecognized := by
      simp only [Classifier.importClass, legacy, single, Bool.false_eq_true, if_false]
    rw [class_eq] at classified ⊢
    exact .unrecognized classified rfl
  | some found =>
    obtain ⟨form, function⟩ := found
    by_cases sole : (specifiers.map (·.peek "type") == [defaultSpecifier] &&
        (Node.name ((specifiers.headD .null).peek "local")).isPresent) = true
    · have types := sole
      rw [Bool.and_eq_true, beq_iff_eq] at types
      obtain ⟨specifier, rfl, type⟩ := sole_default types.1
      rw [Classifier.importClass_single legacy single type types.2] at classified ⊢
      rw [redirector.apply_singleImport imports present (by cases form <;> simp [
          SingleForm.importShape])]
      exact .singleImport imports text legacy single type types.2 classified
    · have class_eq : redirector.classifier.importClass module specifiers = .unrecognized := by
        simp only [Classifier.importClass, legacy, single, sole, Bool.false_eq_true, if_false]
      rw [class_eq] at classified ⊢
      exact .unrecognized classified rfl

theorem visited_require (declares : Declares node declarator)
    (calls : Calls (declarator.peek "init") redirector.classifier.settings.requireCallee argument)
    (text : text? argument = some module) :
    redirector.Visited node (redirector.visit node) := by
  have classified := Classifier.classify_of_declares declares calls text
  rw [redirector.visit_of_classify classified]
  by_cases present : (Node.name (declarator.peek "id")).isPresent = true
  · cases legacy : redirector.classifier.settings.isLegacy module with
    | true =>
      have class_eq : redirector.classifier.requireClass module
          (Node.name (declarator.peek "id")) =
          ⟨.requireModule, some module, Node.name (declarator.peek "id"), none⟩ := by
        simp [Classifier.requireClass, present, legacy]
      rw [class_eq] at classified ⊢
      rw [redirector.apply_requireModule declares calls rfl]
      exact .requireModule declares calls text legacy present classified
    | false =>
      cases single : redirector.classifier.singleFunction? module with
      | none =>
        have class_eq : redirector.classifier.requireClass module
            (Node.name (declarator.peek "id")) = .unrecognized := by
          simp [Classifier.requireClass, legacy, single]
        rw [class_eq] at classified ⊢
        exact .unrecognized classified rfl
      | some found =>
        obtain ⟨form, function⟩ := found
        have class_eq : redirector.classifier.requireClass module
            (Node.name (declarator.peek "id")) =
            ⟨form.requireShape, some module, Node.name (declarator.peek "id"),
              some function⟩ := by
          simp [Classifier.requireClass, present, legacy, single]
        rw [class_eq] at classified ⊢
        rw [redirector.apply_singleRequire declares calls (by cases form <;> simp [
          SingleForm.requireShape])]
        exact .singleRequire declares calls text legacy single present classified
  · have class_eq : redirector.classifier.requireClass module
        (Node.name (declarator.peek "id")) = .unrecognized := by
      simp [Classifier.requireClass, present]
    rw [class_eq] at classified ⊢
    exact .unrecognized classified rfl

/-- Every visit is one of the cases. -/
theorem visited (node : Value) : redirector.Visited node (redirector.visit node) := by
  cases classified : redirector.classifier.classify node with
  | error fault =>
    rw [visit, classified]
    exact .failed classified
  | ok c =>
    by_cases recognized : c.shape = .unrecognized
    · have applied : redirector.apply c (some node) = (.ok .advance, Site.of (some node)) := by
        simp [apply, handle, recognized]
      rw [redirector.visit_of_classify classified, applied]
      exact .unrecognized classified recognized
    · by_cases isImport : hasType node "ImportDeclaration" = true
      · obtain ⟨source, specifiers, module, imports, text, _⟩ :=
          Classifier.imports_of_classify isImport classified recognized
        cases legacy : redirector.classifier.settings.isLegacy module with
        | true => exact redirector.visited_legacy_import imports text legacy
        | false => exact redirector.visited_other_import imports text legacy
      · by_cases isDeclaration : hasType node "VariableDeclaration" = true
        · obtain ⟨declarator, argument, module, declares, calls, text, _⟩ :=
            Classifier.declares_of_classify isDeclaration classified recognized
          exact redirector.visited_require declares calls text
        · simp only [Classifier.classify, isImport, isDeclaration, Bool.false_eq_true, if_false,
            Except.ok.injEq] at classified
          exact absurd (by rw [← classified]; rfl) recognized

end Redirector

end ImportRedirect
