import ImportRedirect.Proofs.Record
import ImportRedirect.Statement.Classify

/-!
Two views of a statement: as the import of a list of specifiers, and as the declaration of one name.
Classifying a statement that has such a view is total and depends on the view alone, and every
statement that is recognized has one.
-/

namespace ImportRedirect

namespace Node

/-- The statement imports these specifiers, all of them records, from this source. -/
structure Imports (node source : Value) (specifiers : List Value) : Prop where
  kind : hasType node "ImportDeclaration" = true
  source_eq : node.peek "source" = source
  specifiers_eq : node.peek "specifiers" = .arr specifiers
  records : ∀ specifier ∈ specifiers, specifier.IsRecord

/-- The value is a plain call of this name with this one argument. -/
structure Calls (value : Value) (callee : String) (argument : Value) : Prop where
  kind : hasType value "CallExpression" = true
  always : (value.peek "optional").isPresent = false
  callee_eq : Node.name (value.peek "callee") = .str callee
  argument_eq : value.peek "arguments" = .arr [argument]

/-- The statement is a declaration of one thing. -/
structure Declares (node declarator : Value) : Prop where
  kind : hasType node "VariableDeclaration" = true
  declarations : node.peek "declarations" = .arr [declarator]
  record : declarator.IsRecord

variable {node source declarator value argument : Value} {specifiers : List Value} {callee : String}

namespace Imports

theorem record (imports : Imports node source specifiers) : node.IsRecord :=
  isRecord_of_hasType imports.kind

theorem field_source (imports : Imports node source specifiers) (present : source ≠ .null) :
    node.field "source" = .ok source :=
  Value.field_of_peek imports.source_eq present

theorem field_specifiers (imports : Imports node source specifiers) :
    node.field "specifiers" = .ok (.arr specifiers) :=
  Value.field_of_peek imports.specifiers_eq (by simp)

theorem withSpecifiers (imports : Imports node source specifiers) {others : List Value}
    (records : ∀ specifier ∈ others, specifier.IsRecord) :
    Imports (node.put "specifiers" (.arr others)) source others where
  kind := by rw [hasType_put_of_ne (by decide)]; exact imports.kind
  source_eq := by rw [Value.peek_put_of_ne (by decide)]; exact imports.source_eq
  specifiers_eq := Value.peek_put_self imports.record _ _
  records := records

theorem withSome (imports : Imports node source specifiers) {others : List Value}
    (among : others ⊆ specifiers) : Imports (node.put "specifiers" (.arr others)) source others :=
  imports.withSpecifiers fun specifier membership => imports.records specifier (among membership)

theorem withSource (imports : Imports node source specifiers) (other : Value) :
    Imports (node.put "source" other) other specifiers where
  kind := by rw [hasType_put_of_ne (by decide)]; exact imports.kind
  source_eq := Value.peek_put_self imports.record _ _
  specifiers_eq := by rw [Value.peek_put_of_ne (by decide)]; exact imports.specifiers_eq
  records := imports.records

theorem unique (imports : Imports node source specifiers) {other : Value} {others : List Value}
    (again : Imports node other others) : other = source ∧ others = specifiers :=
  ⟨again.source_eq.symm.trans imports.source_eq,
    Value.arr.inj (again.specifiers_eq.symm.trans imports.specifiers_eq)⟩

theorem specifierTypes (imports : Imports node source specifiers) :
    Node.specifierTypes node = .ok (specifiers.map (·.peek "type")) := by
  have parts : ((Value.arr specifiers).orElse (.arr [])).parts = .ok specifiers := by
    cases specifiers <;> rfl
  simp only [Node.specifierTypes, Value.get_of_isRecord imports.record, imports.specifiers_eq, ok_bind,
    parts]
  exact mapM_eq_ok fun specifier membership =>
    Value.get_of_isRecord (imports.records specifier membership) "type"

theorem onlyLocalName {first : Value} {rest : List Value}
    (imports : Imports node source (first :: rest)) :
    Classifier.onlyLocalName node = .ok (Node.name (first.peek "local")) := by
  have record := imports.records first (by simp)
  simp only [Classifier.onlyLocalName, imports.field_specifiers, ok_bind]
  simp [Value.item, ok_bind, localName, Value.get_of_isRecord record, pure_eq_ok]

end Imports

namespace Declares

theorem nodeRecord (declares : Declares node declarator) : node.IsRecord :=
  isRecord_of_hasType declares.kind

theorem field_declarations (declares : Declares node declarator) :
    node.field "declarations" = .ok (.arr [declarator]) :=
  Value.field_of_peek declares.declarations (by simp)

theorem withDeclarator (declares : Declares node declarator) {other : Value}
    (record : other.IsRecord) :
    Declares (node.put "declarations" (.arr [other])) other where
  kind := by rw [hasType_put_of_ne (by decide)]; exact declares.kind
  declarations := Value.peek_put_self declares.nodeRecord _ _
  record := record

end Declares

namespace Calls

theorem record (calls : Calls value callee argument) : value.IsRecord :=
  isRecord_of_hasType calls.kind

theorem ne_null (calls : Calls value callee argument) : value ≠ .null := by
  rintro rfl
  obtain ⟨fields, impossible⟩ := calls.record
  simp at impossible

theorem withArgument (calls : Calls value callee argument) (other : Value) :
    Calls (value.put "arguments" (.arr [other])) callee other where
  kind := by rw [hasType_put_of_ne (by decide)]; exact calls.kind
  always := by rw [Value.peek_put_of_ne (by decide)]; exact calls.always
  callee_eq := by rw [Value.peek_put_of_ne (by decide)]; exact calls.callee_eq
  argument_eq := Value.peek_put_self calls.record _ _

end Calls

end Node

/-- The shape of an import of a single function. -/
def SingleForm.importShape : SingleForm → Shape
  | .deepPath => .deepPathImport
  | .dottedPackage => .dottedPackageImport

/-- The shape of a require of a single function. -/
def SingleForm.requireShape : SingleForm → Shape
  | .deepPath => .deepPathRequire
  | .dottedPackage => .dottedPackageRequire

namespace Classifier

open Node

variable {classifier : Classifier} {node source declarator value argument : Value}
  {specifiers : List Value} {module : String}

/-- What an import of these specifiers from this module is classified as. -/
def importClass (classifier : Classifier) (module : String) (specifiers : List Value) :
    Classification :=
  let types := specifiers.map (·.peek "type")
  let binding := Node.name ((specifiers.headD .null).peek "local")
  let sole := types == [defaultSpecifier] && binding.isPresent
  if classifier.settings.isLegacy module then
    if types.contains defaultSpecifier && types.contains namedSpecifier then
      ⟨.combinedImport, some module, .null, none⟩
    else if sole then ⟨.defaultImport, some module, binding, none⟩
    else if !types.isEmpty && types.all (· == namedSpecifier) then
      ⟨.namedImport, some module, .null, none⟩
    else .unrecognized
  else
    match classifier.singleFunction? module with
    | some (form, function) =>
      if sole then ⟨form.importShape, some module, binding, some function⟩ else .unrecognized
    | none => .unrecognized

theorem importClass_combined (legacy : classifier.settings.isLegacy module = true)
    (someDefault : defaultSpecifier ∈ specifiers.map (·.peek "type"))
    (someName : namedSpecifier ∈ specifiers.map (·.peek "type")) :
    classifier.importClass module specifiers = ⟨.combinedImport, some module, .null, none⟩ := by
  have both : ((specifiers.map (·.peek "type")).contains defaultSpecifier &&
      (specifiers.map (·.peek "type")).contains namedSpecifier) = true := by
    rw [Bool.and_eq_true, List.contains_iff_mem, List.contains_iff_mem]
    exact ⟨someDefault, someName⟩
  simp only [importClass, legacy, both, if_true]

theorem importClass_default {specifier : Value} (legacy : classifier.settings.isLegacy module = true)
    (type : specifier.peek "type" = defaultSpecifier)
    (present : (Node.name (specifier.peek "local")).isPresent = true) :
    classifier.importClass module [specifier] =
      ⟨.defaultImport, some module, Node.name (specifier.peek "local"), none⟩ := by
  simp [importClass, legacy, type, present, defaultSpecifier, namedSpecifier]

theorem importClass_names (legacy : classifier.settings.isLegacy module = true)
    (nonempty : specifiers ≠ [])
    (types : ∀ specifier ∈ specifiers, specifier.peek "type" = namedSpecifier) :
    classifier.importClass module specifiers = ⟨.namedImport, some module, .null, none⟩ := by
  have onlyNames : specifiers.map (·.peek "type") =
      List.replicate specifiers.length namedSpecifier := by
    rw [List.eq_replicate_iff]
    refine ⟨by simp, fun type membership => ?_⟩
    obtain ⟨specifier, among, rfl⟩ := List.mem_map.mp membership
    exact types specifier among
  cases specifiers with
  | nil => exact absurd rfl nonempty
  | cons first rest =>
    simp [importClass, legacy, onlyNames, List.replicate_succ, namedSpecifier, defaultSpecifier]

theorem importClass_single {specifier : Value} {form : SingleForm} {function : String}
    (legacy : classifier.settings.isLegacy module = false)
    (single : classifier.singleFunction? module = some (form, function))
    (type : specifier.peek "type" = defaultSpecifier)
    (present : (Node.name (specifier.peek "local")).isPresent = true) :
    classifier.importClass module [specifier] =
      ⟨form.importShape, some module, Node.name (specifier.peek "local"), some function⟩ := by
  simp [importClass, legacy, single, type, present]

/-- What a declaration of this name with a call that requires the module is classified as. -/
def requireClass (classifier : Classifier) (module : String) (binding : Value) : Classification :=
  if !binding.isPresent then .unrecognized
  else if classifier.settings.isLegacy module then ⟨.requireModule, some module, binding, none⟩
  else
    match classifier.singleFunction? module with
    | some (form, function) => ⟨form.requireShape, some module, binding, some function⟩
    | none => .unrecognized

theorem classify_import (kind : hasType node "ImportDeclaration" = true) :
    classifier.classify node = classifier.classifyImport node := by
  simp [classify, kind]

theorem classify_declaration (kind : hasType node "VariableDeclaration" = true) :
    classifier.classify node = classifier.classifyDeclaration node := by
  have different : hasType node "ImportDeclaration" = false := by
    rw [hasType_iff] at kind
    simp [hasType, type_eq_peek, kind]
  simp [classify, kind, different]

theorem classify_of_imports (imports : Imports node source specifiers)
    (text : text? source = some module) :
    classifier.classify node = .ok (classifier.importClass module specifiers) := by
  rw [classify_import imports.kind]
  have types := imports.specifierTypes
  simp only [classifyImport, Value.get_of_isRecord imports.record, imports.source_eq, ok_bind, text,
    types, importClass]
  cases specifiers with
  | nil =>
    cases classifier.singleFunction? module <;> simp [pure_eq_ok]
  | cons first rest =>
    have name := imports.onlyLocalName
    simp only [name, ok_bind, pure_eq_ok, List.headD_cons]
    by_cases legacy : classifier.settings.isLegacy module = true
    · simp only [legacy, if_true]
      split
      · rfl
      · by_cases sole : (first :: rest).map (·.peek "type") = [defaultSpecifier]
        · by_cases present : (Node.name (first.peek "local")).isPresent = true <;>
            simp_all [defaultSpecifier, namedSpecifier]
        · simp only [beq_iff_eq, sole, if_false, Bool.and_eq_true, false_and]
          split <;> rfl
    · simp only [legacy, Bool.false_eq_true, if_false]
      cases classifier.singleFunction? module with
      | none => rfl
      | some found =>
        obtain ⟨form, function⟩ := found
        by_cases sole : (first :: rest).map (·.peek "type") = [defaultSpecifier]
        · by_cases present : (Node.name (first.peek "local")).isPresent = true <;>
            cases form <;> simp_all [SingleForm.importShape]
        · simp only [bne, beq_eq_false_iff_ne.mpr sole, Bool.not_false, if_true, Bool.false_and,
            Bool.false_eq_true, if_false]

theorem imports_of_classify {c : Classification} (kind : hasType node "ImportDeclaration" = true)
    (classified : classifier.classify node = .ok c) (recognized : c.shape ≠ .unrecognized) :
    ∃ source specifiers module, Imports node source specifiers ∧ text? source = some module ∧
      c = classifier.importClass module specifiers := by
  have record := isRecord_of_hasType kind
  have result := classified
  rw [classify_import kind, classifyImport, Value.get_of_isRecord record, ok_bind] at result
  cases text : text? (node.peek "source") with
  | none =>
    simp only [text, pure_eq_ok, Except.ok.injEq] at result
    exact absurd (by simp [← result, Classification.unrecognized]) recognized
  | some module =>
    simp only [text] at result
    obtain ⟨types, typesResult, result⟩ := bind_eq_ok.mp result
    -- Without specifiers there are no types either, and nothing is recognized.
    have nonempty : types ≠ [] := by
      rintro rfl
      have unrecognized : c = .unrecognized := by
        by_cases legacy : classifier.settings.isLegacy module = true
        · simp [legacy, pure_eq_ok] at result
          exact result.symm
        · cases single : classifier.singleFunction? module <;>
            simp [legacy, single, pure_eq_ok] at result <;> exact result.symm
      exact recognized (by rw [unrecognized]; rfl)
    rw [Node.specifierTypes, Value.get_of_isRecord record, ok_bind] at typesResult
    obtain ⟨parts, partsResult, typesResult⟩ := bind_eq_ok.mp typesResult
    have records : ∀ part ∈ parts, part.IsRecord := by
      intro part membership
      obtain ⟨type, found⟩ := mapM_ok_mem typesResult part membership
      exact (Value.get_eq_ok.mp found).1
    have partsNonempty : parts ≠ [] := by
      rintro rfl
      simp only [List.mapM_nil, pure_eq_ok, Except.ok.injEq] at typesResult
      exact nonempty typesResult.symm
    -- Characters of a text and names of fields are no records, so the parts are those of a list.
    have specifiers : node.peek "specifiers" = .arr parts := by
      exact Value.eq_arr_of_parts partsResult partsNonempty records
    have imports : Imports node (node.peek "source") parts := ⟨kind, rfl, specifiers, records⟩
    refine ⟨_, parts, module, imports, text, ?_⟩
    rw [classify_of_imports imports text] at classified
    exact (Except.ok.inj classified).symm

theorem requiredModule?_of_calls
    (calls : Calls value classifier.settings.requireCallee argument) :
    classifier.requiredModule? value = .ok (text? argument) := by
  have record := calls.record
  simp [requiredModule?, calls.kind, Value.get_of_isRecord record, ok_bind, calls.always,
    calls.callee_eq, calls.argument_eq, Value.orElse_arr_singleton, Value.size, Value.item,
    pure_eq_ok]

theorem calls_of_requiredModule? (found : classifier.requiredModule? value = .ok (some module)) :
    ∃ argument, Calls value classifier.settings.requireCallee argument ∧
      text? argument = some module := by
  by_cases kind : hasType value "CallExpression" = true
  · have record := isRecord_of_hasType kind
    simp only [requiredModule?, kind, Bool.not_true, Bool.false_eq_true, if_false,
      Value.get_of_isRecord record, ok_bind] at found
    split at found
    · simp [pure_eq_ok] at found
    · next always =>
      split at found
      · simp [pure_eq_ok] at found
      · next callee =>
        obtain ⟨size, sizeResult, found⟩ := bind_eq_ok.mp found
        split at found
        · simp [pure_eq_ok] at found
        · next single =>
          obtain ⟨argument, item, text⟩ := bind_eq_ok.mp found
          have text : text? argument = some module := by simpa [pure_eq_ok] using text
          have argumentRecord := isRecord_of_hasType (text?_eq_some.mp text).1
          have one : size = 1 := by simpa using single
          subst one
          exact ⟨argument, ⟨kind, by simpa using always, by simpa using callee,
            Value.eq_arr_of_item sizeResult item argumentRecord⟩, text⟩
  · simp [requiredModule?, kind, pure_eq_ok] at found

theorem classifyDeclaration_of_declares (declares : Declares node declarator) :
    classifier.classifyDeclaration node =
      (if !(Node.name (declarator.peek "id")).isPresent then .ok .unrecognized
      else (classifier.requiredModule? (declarator.peek "init")).map fun
        | none => .unrecognized
        | some module => classifier.requireClass module (Node.name (declarator.peek "id"))) := by
  simp only [classifyDeclaration, Value.get_of_isRecord declares.nodeRecord,
    declares.declarations, ok_bind, Value.orElse_arr_singleton, Value.size_arr_singleton,
    Value.item_arr_cons, Value.get_of_isRecord declares.record, bne_self_eq_false,
    Bool.false_eq_true, if_false]
  cases present : (Node.name (declarator.peek "id")).isPresent with
  | false => simp [pure_eq_ok]
  | true =>
    cases found : classifier.requiredModule? (declarator.peek "init") with
    | error fault => simp [Except.map, bind, Except.bind]
    | ok required =>
      cases required with
      | none => simp [Except.map, ok_bind, pure_eq_ok]
      | some module =>
        by_cases legacy : classifier.settings.isLegacy module = true
        · simp [present, Except.map, ok_bind, pure_eq_ok, requireClass, legacy]
        · cases single : classifier.singleFunction? module with
          | none => simp [present, Except.map, ok_bind, pure_eq_ok, requireClass, legacy, single]
          | some result =>
            obtain ⟨form, function⟩ := result
            cases form <;> simp [present, Except.map, ok_bind, pure_eq_ok, requireClass, legacy,
              single, SingleForm.requireShape]

theorem classify_of_declares (declares : Declares node declarator)
    (calls : Calls (declarator.peek "init") classifier.settings.requireCallee argument)
    (text : text? argument = some module) :
    classifier.classify node =
      .ok (classifier.requireClass module (Node.name (declarator.peek "id"))) := by
  rw [classify_declaration declares.kind, classifyDeclaration_of_declares declares,
    requiredModule?_of_calls calls, text]
  by_cases present : (Node.name (declarator.peek "id")).isPresent = true <;>
    simp [present, requireClass, Except.map]

theorem classify_of_not_call (declares : Declares node declarator)
    (noCall : hasType (declarator.peek "init") "CallExpression" = false) :
    classifier.classify node = .ok .unrecognized := by
  rw [classify_declaration declares.kind, classifyDeclaration_of_declares declares]
  split
  · rfl
  · simp [requiredModule?, noCall, pure_eq_ok, Except.map]

/-- A recognized declaration declares one thing as a call that requires a module. -/
theorem declares_of_classify {c : Classification}
    (kind : hasType node "VariableDeclaration" = true)
    (classified : classifier.classify node = .ok c) (recognized : c.shape ≠ .unrecognized) :
    ∃ declarator argument module, Declares node declarator ∧
      Calls (declarator.peek "init") classifier.settings.requireCallee argument ∧
      text? argument = some module ∧
      c = classifier.requireClass module (Node.name (declarator.peek "id")) := by
  have record := isRecord_of_hasType kind
  have result := classified
  rw [classify_declaration kind, classifyDeclaration, Value.get_of_isRecord record, ok_bind]
    at result
  obtain ⟨size, sizeResult, result⟩ := bind_eq_ok.mp result
  by_cases one : size = 1
  · subst one
    simp only [bne_self_eq_false, Bool.false_eq_true, if_false] at result
    obtain ⟨declarator, item, result⟩ := bind_eq_ok.mp result
    obtain ⟨target, targetResult, _⟩ := bind_eq_ok.mp result
    have declaratorRecord := (Value.get_eq_ok.mp targetResult).1
    have declares : Declares node declarator :=
      ⟨kind, Value.eq_arr_of_item sizeResult item declaratorRecord, declaratorRecord⟩
    rw [classify_declaration kind, classifyDeclaration_of_declares declares] at classified
    split at classified
    · exact absurd (by rw [← Except.ok.inj classified]; rfl) recognized
    · cases found : classifier.requiredModule? (declarator.peek "init") with
      | error fault => simp [found, Except.map] at classified
      | ok required =>
        simp only [found, Except.map, Except.ok.injEq] at classified
        cases required with
        | none => exact absurd (by rw [← classified]; rfl) recognized
        | some module =>
          obtain ⟨argument, calls, text⟩ := calls_of_requiredModule? found
          exact ⟨declarator, argument, module, declares, calls, text, classified.symm⟩
  · simp only [bne_iff_ne, ne_eq, one, not_false_eq_true, if_true, pure_eq_ok,
      Except.ok.injEq] at result
    exact absurd (by rw [← result]; rfl) recognized

end Classifier

end ImportRedirect
