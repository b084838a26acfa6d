import ImportRedirect.Proofs.Audit.Report
import ImportRedirect.Proofs.Binding.Preservation

/-!
What an audit notes of one statement. A statement as it is read from a script never stops the audit,
and the functions that are noted are a function of how the statement is classified.
-/

namespace ImportRedirect

open Node

namespace Settings

theorem wordFront?_nonempty {text word rest : List Char}
    (found : wordFront? text = some (word, rest)) : String.ofList word ≠ "" := by
  unfold wordFront? at found
  split at found
  · simp at found
  · next nonempty =>
    obtain ⟨rfl, _⟩ := Prod.mk.inj (Option.some.inj found)
    exact fun empty => nonempty (String.ofList_injective empty)

/-- The function that a file holds has characters in its name. -/
theorem deepName?_nonempty {settings : Settings} {module function : String}
    (found : settings.deepName? module = some function) : function ≠ "" := by
  obtain ⟨legacy, _, found⟩ := List.exists_of_findSome?_eq_some found
  split at found
  · simp at found
  · split at found
    · next front =>
      split at found
      · rw [← Option.some.inj found]
        exact wordFront?_nonempty front
      · simp at found
    · simp at found

theorem dottedName?_nonempty {settings : Settings} {module function : String}
    (found : settings.dottedName? module = some function) : function ≠ "" := by
  obtain ⟨package, _, found⟩ := List.exists_of_findSome?_eq_some found
  split at found
  · simp at found
  · split at found
    · next front =>
      split at found
      · rw [← Option.some.inj found]
        exact wordFront?_nonempty front
      · simp at found
    · simp at found

end Settings

/-- The single function of a module has characters in its name unless it is covered. -/
theorem Classifier.singleFunction?_nonempty {classifier : Classifier} {module function : String}
    {form : SingleForm} (found : classifier.singleFunction? module = some (form, function))
    (uncovered : classifier.surface.covers function = false) : function ≠ "" := by
  unfold singleFunction? at found
  split at found
  · next deep =>
    obtain ⟨_, rfl⟩ := Prod.mk.inj (Option.some.inj found)
    exact Settings.deepName?_nonempty deep
  · split at found
    · next dotted =>
      obtain ⟨_, rfl⟩ := Prod.mk.inj (Option.some.inj found)
      cases resolved : classifier.surface.resolveCasing _ with
      | none => exact Settings.dottedName?_nonempty dotted
      | some name =>
        -- A name that is found in the surface is covered.
        rw [resolved, Option.getD_some, Surface.covers, List.contains_eq_mem,
          decide_eq_false_iff_not] at uncovered
        exact absurd (List.mem_of_find?_eq_some resolved) uncovered
    · simp at found

namespace Redirector

variable (redirector : Redirector)

/-- The functions that a specifier of a legacy import brings in: its own, or those that are used of
the whole module. -/
def auditedOf (specifier : Value) : List String :=
  if specifier.peek "type" == namedSpecifier then [exportText specifier]
  else if specifier.peek "type" == defaultSpecifier then
    redirector.usesOf (Node.name (specifier.peek "local"))
  else []

/-- The functions of a legacy module that a statement with this classification brings in. -/
def auditedAs (node : Value) (c : Classification) : List String :=
  match c.shape with
  | .unrecognized => []
  | .namedImport | .combinedImport => (items (node.peek "specifiers")).flatMap redirector.auditedOf
  | .defaultImport | .requireModule => redirector.usesOf c.binding
  | .deepPathImport | .dottedPackageImport | .deepPathRequire | .dottedPackageRequire =>
    c.function.toList

/-- The functions of a legacy module that a statement brings in. -/
def audited (node : Value) : List String :=
  match redirector.classifier.classify node with
  | .error _ => []
  | .ok c => redirector.auditedAs node c

theorem audited_of_classify {node : Value} {c : Classification}
    (classified : redirector.classifier.classify node = .ok c) :
    redirector.audited node = redirector.auditedAs node c := by
  rw [audited, classified]

theorem auditedOf_names {specifiers : List Value}
    (types : ∀ specifier ∈ specifiers, specifier.peek "type" = namedSpecifier) :
    specifiers.flatMap redirector.auditedOf = specifiers.map exportText := by
  induction specifiers with
  | nil => rfl
  | cons first rest inductionHypothesis =>
    have others := inductionHypothesis fun specifier membership =>
      types specifier (List.mem_cons_of_mem _ membership)
    simp [auditedOf, types first List.mem_cons_self, others]

theorem auditedOf_default {specifier : Value} (type : specifier.peek "type" = defaultSpecifier) :
    redirector.auditedOf specifier = redirector.usesOf (Node.name (specifier.peek "local")) := by
  simp [auditedOf, type, defaultSpecifier, namedSpecifier]

theorem audited_of_names {node source : Value} {specifiers : List Value} {module : String}
    (imports : Imports node source specifiers) (text : text? source = some module)
    (legacy : redirector.classifier.settings.isLegacy module = true) (nonempty : specifiers ≠ [])
    (types : ∀ specifier ∈ specifiers, specifier.peek "type" = namedSpecifier) :
    redirector.audited node = specifiers.map exportText := by
  have classified : redirector.classifier.classify node = _ :=
    Classifier.classify_of_imports imports text
  rw [Classifier.importClass_names legacy nonempty types] at classified
  rw [audited_of_classify redirector classified, ← redirector.auditedOf_names types]
  simp [auditedAs, imports.specifiers_eq, items]

theorem audited_of_default {node source specifier : Value} {module : String}
    (imports : Imports node source [specifier]) (text : text? source = some module)
    (legacy : redirector.classifier.settings.isLegacy module = true)
    (type : specifier.peek "type" = defaultSpecifier)
    (named : Named (specifier.peek "local")) :
    redirector.audited node = redirector.auditedOf specifier := by
  have classified : redirector.classifier.classify node = _ :=
    Classifier.classify_of_imports imports text
  rw [Classifier.importClass_default legacy type named.present] at classified
  rw [audited_of_classify redirector classified, redirector.auditedOf_default type]
  rfl

theorem audited_of_single {node : Value} {c : Classification} {single : String}
    (classified : redirector.classifier.classify node = .ok c)
    (shape : ∃ form : SingleForm, c.shape = form.importShape ∨ c.shape = form.requireShape)
    (found : c.function = some single) : redirector.audited node = [single] := by
  rw [redirector.audited_of_classify classified, auditedAs, found]
  obtain ⟨form, shape | shape⟩ := shape <;> rw [shape] <;> cases form <;> rfl

/-- A statement whose expansion has no fault has a classification. -/
theorem classify_of_faultless {node : Value} (faultless : (redirector.expand node).fault = none) :
    ∃ c, redirector.classifier.classify node = .ok c := by
  cases classified : redirector.classifier.classify node with
  | ok c => exact ⟨c, rfl⟩
  | error fault =>
    have visited : redirector.visit node = (.error fault, Site.of (some node)) := by
      rw [visit, classified]
    rw [redirector.expand_of_ne (by simp [visited]), redirector.settle_of_error visited] at faultless
    simp [Expansion.ofSite] at faultless

end Redirector

namespace Auditing

variable {redirector : Redirector}

theorem notes_uses (answers : redirector.evidence.Answers) (module : Option String)
    (binding : String) : Notes redirector.surface (noteUses redirector module (.str binding))
      ((redirector.usesOf (.str binding)).filter (· ≠ "")) := by
  obtain ⟨used, answer⟩ := answers redirector.text binding
  have uses : redirector.usesOf (.str binding) = (used.getD []).flatMap fun name => [name] := by
    rw [Redirector.usesOf, answer, List.flatMap_singleton']
    cases used <;> rfl
  rw [noteUses, uses]
  exact notes_attempt answer (notes_forM fun name _ => notes_note redirector module name)

/-- What is noted of a specifier of a regular import. -/
theorem notes_specifier (answers : redirector.evidence.Answers) (module : Option String)
    {specifier : Value} (specifies : Specifies specifier) :
    Notes redirector.surface (noteSpecifier redirector module specifier)
      ((redirector.auditedOf specifier).filter (· ≠ "")) := by
  have record := specifies.record
  rw [noteSpecifier, Redirector.auditedOf]
  refine notes_attempt (Value.get_of_isRecord record "type") ?_
  split
  · next isName =>
    rcases specifies.type with other | other | ⟨_, exported⟩
    · simp [other, namedSpecifier, defaultSpecifier] at isName
    · simp [other, namedSpecifier, namespaceSpecifier] at isName
    · obtain ⟨name, found⟩ := exportName_of_exported exported
      have imported : importedNameD specifier = .ok (.str name) := by
        rw [importedNameD_of_isRecord record, found]
      rw [exportText, found]
      exact notes_attempt imported (notes_note redirector module name)
  · split
    · obtain ⟨name, found, _⟩ := specifies.localName.name
      obtain ⟨kind, spelled⟩ := name_eq_str found
      have localName : (specifier.field "local" >>= (·.field "name")) = .ok (.str name) := by
        rw [Value.field_of_peek rfl, ok_bind, Value.field_of_peek spelled (by simp)]
        rintro absent
        simp [absent, Node.name] at found
      rw [found]
      exact notes_attempt localName (notes_uses answers module name)
    · exact notes_pure _

/-- What is noted of a regular import that is audited specifier by specifier. -/
theorem notes_specifiers (answers : redirector.evidence.Answers) (module : Option String)
    {node source : Value} {specifiers : List Value} (imports : Imports node source specifiers)
    (specifies : ∀ specifier ∈ specifiers, Specifies specifier) :
    Notes redirector.surface
      (attempt (node.field "specifiers" >>= Value.parts) >>= fun specifiers =>
        specifiers.forM (noteSpecifier redirector module))
      (((items (node.peek "specifiers")).flatMap redirector.auditedOf).filter (· ≠ "")) := by
  have listed : (node.field "specifiers" >>= Value.parts) = .ok specifiers := by
    rw [imports.field_specifiers, ok_bind]
    rfl
  rw [imports.specifiers_eq]
  exact notes_attempt listed (notes_forM fun specifier membership =>
    notes_specifier answers module (specifies specifier membership))

/-- What is noted of a regular statement. -/
theorem notes_statement (answers : redirector.evidence.Answers) {node : Value}
    (regular : Regular node) : Notes redirector.surface (noteStatement redirector node)
      ((redirector.audited node).filter (· ≠ "")) := by
  obtain ⟨c, classified⟩ :=
    redirector.classify_of_faultless (Redirector.settles_expand answers regular).faultless
  rw [redirector.audited_of_classify classified, noteStatement]
  refine notes_attempt classified ?_
  have cases := redirector.visited node
  generalize redirector.visit node = result at cases
  cases cases with
  | failed failed => simp [classified] at failed
  | unrecognized again shape =>
    obtain rfl := Except.ok.inj (again.symm.trans classified)
    simp only [Redirector.auditedAs, shape]
    exact notes_pure _
  | combined imports _ _ _ _ again | named imports _ _ _ _ again =>
    obtain rfl := Except.ok.inj (again.symm.trans classified)
    exact notes_specifiers answers _ imports (regular.imported imports).2.1
  | default imports _ _ _ _ again =>
    obtain rfl := Except.ok.inj (again.symm.trans classified)
    obtain ⟨name, found, _⟩ :=
      ((regular.imported imports).2.1 _ List.mem_cons_self).localName.name
    simp only [Redirector.auditedAs, found]
    exact notes_uses answers _ name
  | requireModule declares _ _ _ present again =>
    obtain rfl := Except.ok.inj (again.symm.trans classified)
    obtain ⟨name, found, _⟩ := (regular.declared declares present).name
    simp only [Redirector.auditedAs, found]
    exact notes_uses answers _ name
  | @singleImport _ _ _ function form _ _ _ _ _ _ again =>
    obtain rfl := Except.ok.inj (again.symm.trans classified)
    cases form <;> exact notes_note redirector _ function
  | @singleRequire _ _ _ function form _ _ _ _ _ _ again =>
    obtain rfl := Except.ok.inj (again.symm.trans classified)
    cases form <;> exact notes_note redirector _ function

/-- What is noted of a program whose statements are regular. -/
theorem notes_program (answers : redirector.evidence.Answers) {program : Value} {body : List Value}
    (holds : program.getD "body" (.arr []) = .ok (.arr body)) (regular : ∀ node ∈ body, Regular node) :
    Notes redirector.surface (noteProgram redirector program)
      ((body.flatMap redirector.audited).filter (· ≠ "")) := by
  have listed : (program.getD "body" (.arr []) >>= Value.parts) = .ok body := by
    rw [holds, ok_bind]
    rfl
  exact notes_attempt listed (notes_forM fun node membership =>
    notes_statement answers (regular node membership))

end Auditing

namespace Redirector

variable {redirector : Redirector} {node : Value} {function : String}

/-- Whatever an audit notes of a statement has characters in its name unless it is covered, as long
as this is so for the imported names and for what the evidence shows. -/
theorem audited_nonempty (regular : Regular node)
    (shown : ∀ name used, redirector.evidence redirector.text (.str name) = .ok (some used) →
      "" ∉ used)
    (spelled : ∀ specifier ∈ items (node.peek "specifiers"),
      specifier.peek "type" = namedSpecifier → exportText specifier ≠ "")
    (noted : function ∈ redirector.audited node)
    (uncovered : redirector.surface.covers function = false) : function ≠ "" := by
  have used : ∀ {binding : Value}, Named binding →
      function ∈ redirector.usesOf (Node.name binding) → function ≠ "" := by
    rintro binding ⟨name, found, _⟩ uses rfl
    rw [usesOf, found] at uses
    split at uses
    · next answer => exact shown name _ answer uses
    · simp at uses
  have inside : ∀ {source : Value} {specifiers : List Value}, Imports node source specifiers →
      function ∈ (items (node.peek "specifiers")).flatMap redirector.auditedOf → function ≠ "" := by
    intro source specifiers imports membership
    rw [imports.specifiers_eq] at membership spelled
    obtain ⟨specifier, among, noted⟩ := List.mem_flatMap.mp membership
    rw [auditedOf] at noted
    split at noted
    · next isName =>
      rw [List.mem_singleton.mp noted]
      exact spelled specifier among (beq_iff_eq.mp isName)
    · split at noted
      · exact used ((regular.imported imports).2.1 specifier among).localName noted
      · simp at noted
  have cases := redirector.visited node
  generalize redirector.visit node = result at cases
  cases cases with
  | failed classified => simp [audited, classified] at noted
  | unrecognized classified shape =>
    simp [redirector.audited_of_classify classified, auditedAs, shape] at noted
  | combined imports _ _ _ _ classified | named imports _ _ _ _ classified =>
    rw [redirector.audited_of_classify classified] at noted
    exact inside imports noted
  | default imports _ _ _ _ classified =>
    rw [redirector.audited_of_classify classified] at noted
    exact used ((regular.imported imports).2.1 _ List.mem_cons_self).localName noted
  | requireModule declares _ _ _ present classified =>
    rw [redirector.audited_of_classify classified] at noted
    exact used (regular.declared declares present) noted
  | singleImport _ _ _ single _ _ classified =>
    rw [redirector.audited_of_single classified ⟨_, .inl rfl⟩ rfl, List.mem_singleton] at noted
    rw [noted] at uncovered ⊢
    exact Classifier.singleFunction?_nonempty single uncovered
  | singleRequire _ _ _ _ single _ classified =>
    rw [redirector.audited_of_single classified ⟨_, .inr rfl⟩ rfl, List.mem_singleton] at noted
    rw [noted] at uncovered ⊢
    exact Classifier.singleFunction?_nonempty single uncovered

end Redirector

end ImportRedirect
