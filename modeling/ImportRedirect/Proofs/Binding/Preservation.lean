import ImportRedirect.Proofs.Binding.Settling

/-!
A pass over regular statements does to each binding what the rule says, and nothing else.
-/

namespace ImportRedirect

open Node

namespace Node

variable {node source declarator value : Value} {specifiers declarators : List Value}
  {module callee : String}

theorem calls_of_requiredText? (found : requiredText? callee value = some module) :
    ∃ argument, Calls value callee argument ∧ text? argument = some module := by
  unfold requiredText? at found
  split at found
  · next plain =>
    simp only [Bool.and_eq_true, Bool.not_eq_true', beq_iff_eq] at plain
    split at found
    · next argument listed => exact ⟨argument, ⟨plain.1.1, plain.1.2, plain.2, listed⟩, found⟩
    · simp at found
  · simp at found

theorem mem_occurrencesIn {bindings : List Binding} {occurrence : Occurrence}
    (membership : occurrence ∈ occurrencesIn bindings) :
    ∃ binding ∈ bindings, occurrence =
      ⟨binding, bindings.length == 1, bindings.any (·.referent.isWhole)⟩ := by
  obtain ⟨binding, among, rfl⟩ := List.mem_map.mp membership
  exact ⟨binding, among, rfl⟩

theorem bindings_of_declarations (kind : hasType node "VariableDeclaration" = true)
    (declarations : node.peek "declarations" = .arr declarators) :
    bindings callee node = declarators.map (declaratorBinding callee) := by
  have different : hasType node "ImportDeclaration" = false := by
    simp [hasType, type_eq_peek, hasType_iff.mp kind]
  simp [bindings, kind, declarations, different, items]

/-- An import without namespaces whose specifiers are no names brings in one default at most. -/
theorem eq_singleton_of_defaults (specifies : ∀ specifier ∈ specifiers, Specifies specifier)
    (sole : (specifiers.filter (·.peek "type" == defaultSpecifier)).length ≤ 1)
    (noName : namedSpecifier ∉ specifiers.map (·.peek "type"))
    (noWhole : namespaceSpecifier ∉ specifiers.map (·.peek "type")) {specifier : Value}
    (membership : specifier ∈ specifiers) : specifiers = [specifier] := by
  have defaults : specifiers.filter (·.peek "type" == defaultSpecifier) = specifiers := by
    rw [List.filter_eq_self]
    intro other among
    have type : other.peek "type" ∈ specifiers.map (·.peek "type") := List.mem_map_of_mem among
    rcases (specifies other among).type with isDefault | isWhole | ⟨isName, _⟩
    · simpa using isDefault
    · exact absurd (isWhole ▸ type) noWhole
    · exact absurd (isName ▸ type) noName
  rw [defaults] at sole
  cases specifiers with
  | nil => simp at membership
  | cons first rest =>
    have alone : rest = [] := by simpa using sole
    subst alone
    rw [List.mem_singleton.mp membership]

end Node

namespace Redirector

variable {redirector : Redirector} {node source declarator : Value} {c : Classification}
  {specifiers declarators : List Value} {module : String}

section Unrecognized

variable (specifies : ∀ specifier ∈ specifiers, Specifies specifier)
  (unrecognized : (redirector.classifier.importClass module specifiers).shape = .unrecognized)
include unrecognized

theorem noName_of_unrecognized
    (legacy : redirector.classifier.settings.isLegacy module = true)
    (someDefault : defaultSpecifier ∈ specifiers.map (·.peek "type")) :
    namedSpecifier ∉ specifiers.map (·.peek "type") := by
  intro someName
  rw [Classifier.importClass_combined legacy someDefault someName] at unrecognized
  simp at unrecognized

/-- Only a single default of a module that holds a single function is recognized. -/
theorem several_of_unrecognized {form : SingleForm} {function : String} {specifier : Value}
    (specifies : Specifies specifier) (chosen : specifier ∈ specifiers)
    (type : specifier.peek "type" = defaultSpecifier)
    (legacy : redirector.classifier.settings.isLegacy module = false)
    (single : redirector.classifier.singleFunction? module = some (form, function)) :
    specifiers.length ≠ 1 := by
  intro one
  obtain ⟨only, rfl⟩ := List.length_eq_one_iff.mp one
  obtain rfl := List.mem_singleton.mp chosen
  rw [Classifier.importClass_single legacy single type specifies.localName.present] at unrecognized
  cases form <;> simp [SingleForm.importShape] at unrecognized

include specifies

/-- A name that could be redirected would have been recognized. -/
theorem notLegacy_of_unrecognized
    (apart : namedSpecifier ∈ specifiers.map (·.peek "type") →
      namespaceSpecifier ∉ specifiers.map (·.peek "type"))
    (someName : namedSpecifier ∈ specifiers.map (·.peek "type")) :
    redirector.classifier.settings.isLegacy module = false := by
  rw [Bool.eq_false_iff]
  intro legacy
  have noDefault : defaultSpecifier ∉ specifiers.map (·.peek "type") := fun someDefault =>
    noName_of_unrecognized unrecognized legacy someDefault someName
  have names : ∀ other ∈ specifiers, other.peek "type" = namedSpecifier := by
    intro other among
    have listed : other.peek "type" ∈ specifiers.map (·.peek "type") := List.mem_map_of_mem among
    rcases (specifies other among).type with isDefault | isWhole | ⟨isName, _⟩
    · exact absurd (isDefault ▸ listed) noDefault
    · exact absurd (isWhole ▸ listed) (apart someName)
    · exact isName
  have nonempty : specifiers ≠ [] := by
    rintro rfl
    simp at someName
  rw [Classifier.importClass_names legacy nonempty names] at unrecognized
  simp at unrecognized

/-- A default from a legacy module is recognized, alone or next to names, unless it stands beside a
namespace. -/
theorem someWhole_of_unrecognized
    (sole : (specifiers.filter (·.peek "type" == defaultSpecifier)).length ≤ 1)
    (legacy : redirector.classifier.settings.isLegacy module = true) {specifier : Value}
    (chosen : specifier ∈ specifiers) (type : specifier.peek "type" = defaultSpecifier) :
    namespaceSpecifier ∈ specifiers.map (·.peek "type") := by
  refine Decidable.byContradiction fun noWhole => ?_
  have listed : specifier.peek "type" ∈ specifiers.map (·.peek "type") := List.mem_map_of_mem chosen
  have noName := noName_of_unrecognized unrecognized legacy (type ▸ listed)
  have only := eq_singleton_of_defaults specifies sole noName noWhole chosen
  rw [only, Classifier.importClass_default legacy type
    (specifies specifier chosen).localName.present] at unrecognized
  simp at unrecognized

/-- The rule keeps all bindings of an import that is not recognized. -/
theorem kept_of_unrecognized_import (imports : Imports node source specifiers)
    (apart : namedSpecifier ∈ specifiers.map (·.peek "type") →
      namespaceSpecifier ∉ specifiers.map (·.peek "type"))
    (sole : (specifiers.filter (·.peek "type" == defaultSpecifier)).length ≤ 1)
    (text : text? source = some module) :
    ∀ occurrence ∈ occurrences redirector.classifier.settings.requireCallee node,
      redirector.redirect occurrence = occurrence.binding.referent := by
  intro occurrence membership
  rw [occurrences, bindings_of_imports imports text] at membership
  obtain ⟨binding, among, rfl⟩ := mem_occurrencesIn membership
  obtain ⟨specifier, chosen, rfl⟩ := List.mem_map.mp among
  have listed : specifier.peek "type" ∈ specifiers.map (·.peek "type") := List.mem_map_of_mem chosen
  rcases (specifies specifier chosen).type with type | type | ⟨type, _⟩
  · have referent : specifierReferent module specifier = .fallback module :=
      specifierReferent_default type
    cases legacy : redirector.classifier.settings.isLegacy module with
    | true =>
      have beside : (specifiers.map (specifierBinding module)).any (·.referent.isWhole) = true :=
        (any_isWhole_iff specifies).mpr
          (someWhole_of_unrecognized specifies unrecognized sole legacy chosen type)
      simp only [redirect, beside]
      simp [specifierBinding, referent, legacy]
    | false =>
      cases single : redirector.classifier.singleFunction? module with
      | none => simp [redirect, specifierBinding, referent, legacy, single]
      | some found =>
        have several := several_of_unrecognized unrecognized (specifies specifier chosen) chosen
          type legacy single
        simp [redirect, specifierBinding, referent, legacy, single, several]
  · simp [redirect, specifierBinding, specifierReferent_namespace type]
  · have legacy := notLegacy_of_unrecognized specifies unrecognized apart (type ▸ listed)
    simp [redirect, specifierBinding, specifierReferent_named type, legacy]

end Unrecognized

theorem requiredModule?_of_declared (redirector : Redirector) (declared : Declared declarator) :
    ∃ required, redirector.classifier.requiredModule? (declarator.peek "init") = .ok required := by
  by_cases kind : hasType (declarator.peek "init") "CallExpression" = true
  · obtain ⟨arguments, listed, _⟩ := declared.call kind
    have record := isRecord_of_hasType kind
    have given : (Value.arr arguments).orElse (.arr []) = .arr arguments := by
      cases arguments <;> rfl
    simp only [Classifier.requiredModule?, kind, Bool.not_true, Bool.false_eq_true, if_false,
      Value.get_of_isRecord record, ok_bind, listed, given, Value.size]
    split
    · exact ⟨_, rfl⟩
    · split
      · exact ⟨_, rfl⟩
      · split
        · exact ⟨_, rfl⟩
        · next one =>
          obtain ⟨argument, rfl⟩ := List.length_eq_one_iff.mp (by simpa using one)
          exact ⟨_, rfl⟩
  · exact ⟨none, by simp [Classifier.requiredModule?, kind, pure_eq_ok]⟩

theorem classify_of_declared (redirector : Redirector) (kind : hasType node "VariableDeclaration" = true)
    (declarations : node.peek "declarations" = .arr declarators)
    (declared : ∀ declarator ∈ declarators, Declared declarator) :
    ∃ c, redirector.classifier.classify node = .ok c := by
  by_cases one : declarators.length = 1
  · obtain ⟨declarator, rfl⟩ := List.length_eq_one_iff.mp one
    have only := declared declarator (by simp)
    have declares : Declares node declarator := ⟨kind, declarations, only.record⟩
    obtain ⟨required, answer⟩ := redirector.requiredModule?_of_declared only
    rw [Classifier.classify_declaration kind, Classifier.classifyDeclaration_of_declares declares,
      answer]
    split
    · exact ⟨_, rfl⟩
    · exact ⟨_, rfl⟩
  · have given : (Value.arr declarators).orElse (.arr []) = .arr declarators := by
      cases declarators <;> rfl
    refine ⟨.unrecognized, ?_⟩
    rw [Classifier.classify_declaration kind, Classifier.classifyDeclaration,
      Value.get_of_isRecord (isRecord_of_hasType kind), declarations]
    simp [ok_bind, given, Value.size, one, pure_eq_ok]

/-- The rule keeps all bindings of a declaration that is not recognized. -/
theorem kept_of_unrecognized_declaration (kind : hasType node "VariableDeclaration" = true)
    (declarations : node.peek "declarations" = .arr declarators)
    (declared : ∀ declarator ∈ declarators, Declared declarator)
    (classified : redirector.classifier.classify node = .ok c)
    (unrecognized : c.shape = .unrecognized) :
    ∀ occurrence ∈ occurrences redirector.classifier.settings.requireCallee node,
      redirector.redirect occurrence = occurrence.binding.referent := by
  intro occurrence membership
  rw [occurrences, bindings_of_declarations kind declarations] at membership
  obtain ⟨binding, among, rfl⟩ := mem_occurrencesIn membership
  obtain ⟨declarator, chosen, rfl⟩ := List.mem_map.mp among
  cases required : requiredText? redirector.classifier.settings.requireCallee
      (declarator.peek "init") with
  | none =>
    cases member : requiredMember? redirector.classifier.settings.requireCallee
        (declarator.peek "init") <;>
      simp [redirect, declaratorBinding, valueReferent, required, member]
  | some module =>
    have referent : valueReferent redirector.classifier.settings.requireCallee
        (declarator.peek "init") = .required module := by simp [valueReferent, required]
    by_cases one : declarators.length = 1
    · obtain ⟨only, rfl⟩ := List.length_eq_one_iff.mp one
      obtain rfl := List.mem_singleton.mp chosen
      obtain ⟨argument, calls, text⟩ := calls_of_requiredText? required
      have declares : Declares node declarator :=
        ⟨kind, declarations, (declared declarator (by simp)).record⟩
      rw [Classifier.classify_of_declares declares calls text] at classified
      obtain rfl := Except.ok.inj classified
      cases present : (Node.name (declarator.peek "id")).isPresent with
      | false => simp [redirect, declaratorBinding, referent, present]
      | true =>
        cases legacy : redirector.classifier.settings.isLegacy module with
        | true => simp [Classifier.requireClass, present, legacy] at unrecognized
        | false =>
          cases single : redirector.classifier.singleFunction? module with
          | none => simp [redirect, declaratorBinding, referent, present, legacy, single]
          | some found =>
            obtain ⟨form, function⟩ := found
            cases form <;> simp [Classifier.requireClass, present, legacy, single,
              SingleForm.requireShape] at unrecognized
    · simp [redirect, declaratorBinding, referent, one]

theorem settles_import (answers : redirector.evidence.Answers)
    (imports : Imports node source specifiers) (quoted : Quoted source)
    (specifies : ∀ specifier ∈ specifiers, Specifies specifier)
    (apart : namedSpecifier ∈ specifiers.map (·.peek "type") →
      namespaceSpecifier ∉ specifiers.map (·.peek "type"))
    (sole : (specifiers.filter (·.peek "type" == defaultSpecifier)).length ≤ 1)
    (once : ∀ site, redirector.visit node ≠ (.ok .reprocess, site)) :
    redirector.Settles node (redirector.settle node) := by
  obtain ⟨module, text⟩ := quoted.text
  have classified : redirector.classifier.classify node = _ :=
    Classifier.classify_of_imports imports text
  have cases := redirector.visited node
  generalize visited : redirector.visit node = result at cases
  cases cases with
  | failed failed => simp [classified] at failed
  | unrecognized result shape =>
    obtain rfl := Except.ok.inj (classified.symm.trans result)
    exact settles_of_kept visited
      (kept_of_unrecognized_import specifies shape imports apart sole text)
  | combined => exact absurd visited (once _)
  | default again same legacy type =>
    obtain ⟨rfl, rfl⟩ := imports.unique again
    exact settles_default answers imports quoted (specifies _ (by simp)) same legacy type visited
  | named again same legacy nonempty types =>
    obtain ⟨rfl, rfl⟩ := imports.unique again
    exact settles_named imports quoted specifies same legacy types visited
  | singleImport again same legacy single type =>
    obtain ⟨rfl, rfl⟩ := imports.unique again
    exact settles_singleImport imports quoted (specifies _ (by simp)) same legacy single type visited
  | requireModule declares => exact absurd imports.kind (hasType_ne declares.kind (by decide))
  | singleRequire declares => exact absurd imports.kind (hasType_ne declares.kind (by decide))

/-- What is declared in a recognized declaration has a name and requires a quoted text. -/
theorem declared_of_recognized {argument : Value} {callee : String}
    (declarations : node.peek "declarations" = .arr declarators)
    (declared : ∀ declarator ∈ declarators, Declared declarator)
    (declares : Declares node declarator) (calls : Calls (declarator.peek "init") callee argument)
    (text : text? argument = some module)
    (present : (Node.name (declarator.peek "id")).isPresent = true) :
    Named (declarator.peek "id") ∧ Quoted argument := by
  have only := Value.arr.inj (declarations.symm.trans declares.declarations)
  have complete := declared declarator (by simp [only])
  constructor
  · rcases complete.target with named | nameless
    · exact named
    · simp [nameless, Value.isPresent] at present
  · obtain ⟨arguments, listed, quoted⟩ := complete.call calls.kind
    have same := Value.arr.inj (listed.symm.trans calls.argument_eq)
    exact quoted argument (by simp [same]) (text?_eq_some.mp text).1

theorem settles_declaration (answers : redirector.evidence.Answers)
    (kind : hasType node "VariableDeclaration" = true)
    (declarations : node.peek "declarations" = .arr declarators)
    (declared : ∀ declarator ∈ declarators, Declared declarator) :
    redirector.Settles node (redirector.settle node) := by
  obtain ⟨c, classified⟩ := redirector.classify_of_declared kind declarations declared
  have cases := redirector.visited node
  generalize visited : redirector.visit node = result at cases
  cases cases with
  | failed failed => simp [classified] at failed
  | unrecognized result shape =>
    exact settles_of_kept visited
      (kept_of_unrecognized_declaration kind declarations declared result shape)
  | requireModule declares calls text legacy present =>
    obtain ⟨named, quoted⟩ :=
      declared_of_recognized declarations declared declares calls text present
    exact settles_requireModule answers declares calls named quoted text legacy visited
  | singleRequire declares calls text legacy single present =>
    obtain ⟨named, quoted⟩ :=
      declared_of_recognized declarations declared declares calls text present
    exact settles_singleRequire declares calls named quoted text legacy single visited
  | combined imports | default imports | named imports | singleImport imports =>
    exact absurd imports.kind (hasType_ne kind (by decide))

theorem settles_other (noImport : hasType node "ImportDeclaration" = false)
    (noDeclaration : hasType node "VariableDeclaration" = false) :
    redirector.Settles node (redirector.settle node) := by
  have classified : redirector.classifier.classify node = .ok .unrecognized := by
    simp [Classifier.classify, noImport, noDeclaration]
  have visited : redirector.visit node = (.ok .advance, keptSite node [] []) := by
    rw [redirector.visit_of_classify classified, apply_unrecognized]
    rfl
  refine settles_of_kept visited ?_
  simp [occurrences, bindings, noImport, noDeclaration, occurrencesIn]

theorem settles_of_regular (answers : redirector.evidence.Answers) (regular : Regular node)
    (once : ∀ site, redirector.visit node ≠ (.ok .reprocess, site)) :
    redirector.Settles node (redirector.settle node) := by
  cases regular with
  | importing imports quoted specifies apart sole =>
    exact settles_import answers imports quoted specifies apart sole once
  | declaring kind declarations declared =>
    exact settles_declaration answers kind declarations declared
  | other noImport noDeclaration => exact settles_other noImport noDeclaration

theorem length_settle_le (node : Value) : (redirector.settle node).statements.length ≤ 2 := by
  have bounded : ∀ site : Site, site.statements.length ≤ 2 := by
    intro site
    rw [Site.statements, List.length_append]
    cases site.node <;> cases site.inserted <;> simp
  rw [settle]
  split
  · exact bounded _
  · exact bounded _

section Combined

variable (specifies : ∀ specifier ∈ specifiers, Specifies specifier)
include specifies

/-- Without its default, an import of both is a regular import of the other specifiers. -/
theorem regular_others (imports : Imports node source specifiers) (quoted : Quoted source)
    (noWhole : namespaceSpecifier ∉ specifiers.map (·.peek "type")) :
    Regular (node.put "specifiers" (.arr (otherSpecifiers specifiers))) := by
  have among := others_subset specifiers
  refine .importing (imports.withSome among) quoted
    (fun specifier membership => specifies specifier (among membership)) ?_ ?_
  · intro _ someWhole
    obtain ⟨specifier, membership, type⟩ := List.mem_map.mp someWhole
    exact noWhole (type ▸ List.mem_map_of_mem (among membership))
  · have none : (otherSpecifiers specifiers).filter (·.peek "type" == defaultSpecifier) = [] := by
      rw [List.filter_eq_nil_iff]
      intro specifier membership isDefault
      exact (mem_others.mp membership).2 (beq_iff_eq.mp isDefault)
    simp [none]

/-- Beside a default, an import of both has names only. -/
theorem types_others (noWhole : namespaceSpecifier ∉ specifiers.map (·.peek "type")) :
    ∀ specifier ∈ otherSpecifiers specifiers, specifier.peek "type" = namedSpecifier := by
  intro specifier membership
  obtain ⟨among, notDefault⟩ := mem_others.mp membership
  rcases (specifies specifier among).type with isDefault | isWhole | ⟨isName, _⟩
  · exact absurd isDefault notDefault
  · exact absurd (isWhole ▸ List.mem_map_of_mem among) noWhole
  · exact isName

theorem regular_defaults (imports : Imports node source specifiers) (quoted : Quoted source)
    (sole : (defaultSpecifiers specifiers).length ≤ 1) :
    Regular (node.put "specifiers" (.arr (defaultSpecifiers specifiers))) := by
  have among := defaults_subset specifiers
  refine .importing (imports.withSome among) quoted
    (fun specifier membership => specifies specifier (among membership)) ?_ ?_
  · intro someName
    obtain ⟨specifier, membership, type⟩ := List.mem_map.mp someName
    rw [(mem_defaults.mp membership).2] at type
    simp [defaultSpecifier, namedSpecifier] at type
  · exact Nat.le_trans (List.length_filter_le _ _) sole

/-- The rule for an import from a legacy module without a namespace looks at each specifier alone. -/
theorem map_moved_of_legacy {callee : String} (imports : Imports node source specifiers)
    (text : text? source = some module)
    (legacy : redirector.classifier.settings.isLegacy module = true)
    (noWhole : namespaceSpecifier ∉ specifiers.map (·.peek "type")) :
    (occurrences callee node).map redirector.moved =
      specifiers.map fun specifier => redirector.moved ⟨specifierBinding module specifier, true, false⟩ := by
  rw [occurrences, bindings_of_imports imports text, occurrencesIn, List.map_map, List.map_map]
  have beside : (specifiers.map (specifierBinding module)).any (·.referent.isWhole) = false := by
    rw [Bool.eq_false_iff]
    exact fun someWhole => noWhole ((any_isWhole_iff specifies).mp someWhole)
  refine List.map_congr_left fun specifier membership => ?_
  simp only [Function.comp_apply, beside, Redirector.moved, Binding.mk.injEq, true_and]
  rcases (specifies specifier membership).type with type | type | ⟨type, _⟩
  · simp [redirect, specifierBinding, specifierReferent_default type, legacy]
  · simp [redirect, specifierBinding, specifierReferent_namespace type]
  · simp [redirect, specifierBinding, specifierReferent_named type, legacy]

end Combined

/-- A statement that replaces another one has one of the forms, even when it is kept after that. -/
theorem Settles.rewritten {expansion : Expansion} (settles : redirector.Settles node expansion)
    (rewritten : Rewritten node) : ∀ statement ∈ expansion.statements, Rewritten statement := by
  rcases settles.form with kept | ⟨_, changed⟩
  · simpa [kept] using rewritten
  · exact changed

/-- What is known of two statements that took the place of one is known of the one. -/
theorem settles_of_both {first second : Value} {site : Site}
    (counted : 0 < site.redirected + site.split)
    (front : redirector.Settles first (redirector.settle first))
    (back : redirector.Settles second (redirector.settle second))
    (rewritten : Rewritten first ∧ Rewritten second)
    (place : SamePlace first node ∧ SamePlace second node)
    (moved : ((occurrences redirector.classifier.settings.requireCallee first).map
          redirector.moved ++
        (occurrences redirector.classifier.settings.requireCallee second).map
          redirector.moved).Perm
      ((occurrences redirector.classifier.settings.requireCallee node).map redirector.moved))
    (some : 0 < (bindings redirector.classifier.settings.requireCallee first).length)
    (one : (bindings redirector.classifier.settings.requireCallee second).length = 1)
    (sum : (bindings redirector.classifier.settings.requireCallee first).length + 1 =
      (bindings redirector.classifier.settings.requireCallee node).length) :
    redirector.Settles node
      (.after site ((redirector.settle first).append (redirector.settle second))) := by
  have frontSome := List.length_pos_iff.mpr front.nonempty
  have backSome := List.length_pos_iff.mpr back.nonempty
  have frontNarrow := front.narrow
  have backNarrow := back.narrow
  refine ⟨back.faultless, ?_, .inr ⟨?_, ?_⟩, ?_, ?_, ?_, ?_, ?_⟩
  all_goals simp only [Expansion.after, Expansion.append]
  · rw [List.flatMap_append]
    exact (front.bindings.append back.bindings).trans moved
  · omega
  · intro statement membership
    rcases List.mem_append.mp membership with among | among
    · exact front.rewritten rewritten.1 statement among
    · exact back.rewritten rewritten.2 statement among
  · intro statement membership
    rcases List.mem_append.mp membership with among | among
    · exact (front.place statement among).trans place.1
    · exact (back.place statement among).trans place.2
  · intro statement alone _
    have single := congrArg List.length alone
    rw [List.length_append, List.length_singleton] at single
    omega
  · exact List.append_ne_nil_of_left_ne_nil front.nonempty _
  · have frontFew := redirector.length_settle_le first
    rw [List.length_append]
    omega
  · rw [List.length_append]
    omega

theorem settles_combined (answers : redirector.evidence.Answers)
    (imports : Imports node source specifiers) (quoted : Quoted source)
    (specifies : ∀ specifier ∈ specifiers, Specifies specifier)
    (apart : namedSpecifier ∈ specifiers.map (·.peek "type") →
      namespaceSpecifier ∉ specifiers.map (·.peek "type"))
    (sole : (defaultSpecifiers specifiers).length ≤ 1) {site : Site}
    (again : redirector.visit node = (.ok .reprocess, site)) :
    redirector.Settles node (redirector.expand node) := by
  obtain ⟨source, specifiers, module, same, text, legacy, someDefault, someName, rfl⟩ :=
    redirector.combined_of_reprocess again
  obtain ⟨rfl, rfl⟩ := imports.unique same
  have noWhole := apart someName
  have othersSettle := settles_of_regular answers
    (regular_others specifies imports quoted noWhole) (redirector.once_others imports)
  have defaultsSettle := settles_of_regular answers
    (regular_defaults specifies imports quoted sole) (redirector.once_defaults imports)
  rw [redirector.expand_of_halves again othersSettle.faultless]
  -- Each half is an import of some of the specifiers, of which none is a namespace.
  have half : ∀ chosen : List Value, chosen ⊆ specifiers →
      Imports (node.put "specifiers" (.arr chosen)) source chosen ∧
        (∀ specifier ∈ chosen, Specifies specifier) ∧
        namespaceSpecifier ∉ chosen.map (·.peek "type") := by
    intro chosen among
    refine ⟨imports.withSome among, fun specifier membership =>
      specifies specifier (among membership), fun someWhole => ?_⟩
    obtain ⟨specifier, membership, type⟩ := List.mem_map.mp someWhole
    exact noWhole (type ▸ List.mem_map_of_mem (among membership))
  obtain ⟨othersImports, othersSpecify, othersNoWhole⟩ := half _ (others_subset specifiers)
  obtain ⟨defaultsImports, defaultsSpecify, defaultsNoWhole⟩ := half _ (defaults_subset specifiers)
  have parts := others_append_defaults specifiers
  have total := parts.length_eq
  have someOther := length_others_pos someName
  have oneDefault := length_defaults_pos someDefault
  rw [List.length_append] at total
  refine settles_of_both Nat.one_pos othersSettle defaultsSettle
    ⟨.importing othersImports quoted othersSpecify,
      .importing defaultsImports quoted defaultsSpecify⟩
    ⟨SamePlace.rfl.put (by decide) (by decide) _, SamePlace.rfl.put (by decide) (by decide) _⟩
    ?_ ?_ ?_ ?_
  · rw [map_moved_of_legacy othersSpecify othersImports text legacy othersNoWhole,
      map_moved_of_legacy defaultsSpecify defaultsImports text legacy defaultsNoWhole,
      map_moved_of_legacy specifies imports text legacy noWhole, ← List.map_append]
    exact parts.map _
  · rw [bindings_of_imports othersImports text, List.length_map]
    exact someOther
  · rw [bindings_of_imports defaultsImports text, List.length_map]
    omega
  · rw [bindings_of_imports othersImports text, bindings_of_imports imports text,
      List.length_map, List.length_map]
    omega

/-- What a pass makes of a regular statement. -/
theorem settles_expand (answers : redirector.evidence.Answers) (regular : Regular node) :
    redirector.Settles node (redirector.expand node) := by
  rcases redirector.once_or_again node with once | ⟨site, again⟩
  · rw [redirector.expand_of_ne once]
    exact settles_of_regular answers regular once
  · cases regular with
    | importing imports quoted specifies apart sole =>
      exact settles_combined answers imports quoted specifies apart sole again
    | declaring kind =>
      obtain ⟨_, _, _, imports, _⟩ := redirector.combined_of_reprocess again
      exact absurd imports.kind (hasType_ne kind (by decide))
    | other noImport =>
      obtain ⟨_, _, _, imports, _⟩ := redirector.combined_of_reprocess again
      simp [imports.kind] at noImport

/-- A pass over regular statements does to each binding what the rule says. -/
theorem expandAll_bindings (answers : redirector.evidence.Answers) {body : List Value}
    (regular : ∀ node ∈ body, Regular node) :
    (redirector.expandAll body).fault = none ∧
      ((redirector.expandAll body).statements.flatMap
          (bindings redirector.classifier.settings.requireCallee)).Perm
        ((body.flatMap (occurrences redirector.classifier.settings.requireCallee)).map
          redirector.moved) := by
  induction body with
  | nil => exact ⟨rfl, .refl _⟩
  | cons node rest inductionHypothesis =>
    have settles := settles_expand answers (regular node (by simp))
    obtain ⟨faultless, moved⟩ := inductionHypothesis fun other membership =>
      regular other (by simp [membership])
    rw [expandAll] at faultless moved ⊢
    rw [Expansion.ofList_cons_of_faultless settles.faultless]
    refine ⟨faultless, ?_⟩
    simp only [Expansion.append, List.flatMap_append, List.flatMap_cons, List.map_append]
    exact settles.bindings.append moved

end Redirector

end ImportRedirect
