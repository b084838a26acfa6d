import ImportRedirect.Proofs.Pass.Idempotence

/-!
What becomes of an import of several specifiers. The statements that a pass leaves share out the
specifiers: names that are covered, names that are not, and the default, each kind in its old order.
No statement is left without specifiers, and but for the type of a default that moves no specifier
is changed.
-/

namespace ImportRedirect

namespace Redirector

open Node

/-- The import of these specifiers from this source, otherwise as the statement is. -/
def reimport (node source : Value) (specifiers : List Value) : Value :=
  (node.put "specifiers" (.arr specifiers)).put "source" source

/-- The import of these specifiers as a statement of its own, unless there are none. -/
def importOf (node source : Value) (specifiers : List Value) : List Value :=
  if specifiers.isEmpty then [] else [reimport node source specifiers]

def importedSpecifiers (node : Value) : List Value :=
  match node.peek "specifiers" with
  | .arr specifiers => specifiers
  | _ => []

def onlyNames (specifiers : List Value) : Bool := specifiers.all (·.peek "type" == namedSpecifier)

variable (redirector : Redirector)

/-- The source of a statement that is moved. -/
def movedSource (source : Value) : Value :=
  match setText source redirector.replacement with
  | .ok literal => literal
  | .error _ => source

/-- The specifiers other than defaults that move. None does when there is another kind than names
among them. -/
def namesMoved (others : List Value) : List Value :=
  if onlyNames others then redirector.coveredSpecifiers others else []

def namesLeft (others : List Value) : List Value :=
  if onlyNames others then redirector.uncoveredSpecifiers others else others

/-- Whether the specifier binds a name of which something is used, and nothing that is not covered. -/
def movesWhole (specifier : Value) : Bool :=
  let binding := Node.name (specifier.peek "local")
  binding.isPresent &&
    match redirector.evidence redirector.text binding with
    | .ok (some used) => used.all (redirector.surface.covers ·)
    | _ => false

/-- Whether the default specifiers move. Several of them never do. -/
def movesDefaults (defaults : List Value) : Bool :=
  match defaults with
  | [specifier] => redirector.movesWhole specifier
  | _ => false

def namespaceOf (specifier : Value) : Value := specifier.put "type" namespaceSpecifier

def defaultsMoved (defaults : List Value) : List Value :=
  if redirector.movesDefaults defaults then defaults.map namespaceOf else []

def defaultsLeft (defaults : List Value) : List Value :=
  if redirector.movesDefaults defaults then [] else defaults

def namesParted (node source : Value) (others : List Value) : List Value :=
  importOf node (redirector.movedSource source) (redirector.namesMoved others) ++
    importOf node source (redirector.namesLeft others)

def defaultsParted (node source : Value) (defaults : List Value) : List Value :=
  importOf node (redirector.movedSource source) (redirector.defaultsMoved defaults) ++
    importOf node source (redirector.defaultsLeft defaults)

/-- The statements that an import of these specifiers from this source is parted into. -/
def parted (node source : Value) (specifiers : List Value) : List Value :=
  redirector.namesParted node source (otherSpecifiers specifiers) ++
    redirector.defaultsParted node source (defaultSpecifiers specifiers)

def movesSome (specifiers : List Value) : Prop :=
  redirector.namesMoved (otherSpecifiers specifiers) ≠ [] ∨
    redirector.defaultsMoved (defaultSpecifiers specifiers) ≠ []

/-- What becomes of one of the specifiers. -/
def retyped (specifiers : List Value) (specifier : Value) : Value :=
  if specifier.peek "type" == defaultSpecifier &&
      redirector.movesDefaults (defaultSpecifiers specifiers) then namespaceOf specifier
  else specifier

variable {redirector} {node source : Value} {specifiers : List Value} {module : String}

section Reimport

@[simp] theorem reimport_put (others specifiers : List Value) :
    reimport (node.put "specifiers" (.arr others)) source specifiers =
      reimport node source specifiers := by
  rw [reimport, Value.put_put, reimport]

@[simp] theorem importOf_put (others specifiers : List Value) :
    importOf (node.put "specifiers" (.arr others)) source specifiers =
      importOf node source specifiers := by
  simp only [importOf, reimport_put]

theorem importOf_of_ne_nil (nonempty : specifiers ≠ []) :
    importOf node source specifiers = [reimport node source specifiers] := by
  obtain ⟨first, rest, rfl⟩ := List.exists_cons_of_ne_nil nonempty
  rfl

theorem reimport_some (imports : Imports node source specifiers) (present : source ≠ .null)
    (chosen : List Value) : reimport node source chosen = node.put "specifiers" (.arr chosen) := by
  have there : (node.put "specifiers" (.arr chosen)).peek "source" = source := by
    rw [Value.peek_put_of_ne (by decide), imports.source_eq]
  rw [reimport, Value.put_of_peek there present]

theorem reimport_self (imports : Imports node source specifiers) (present : source ≠ .null) :
    reimport node source specifiers = node := by
  rw [reimport_some imports present, Value.put_of_peek imports.specifiers_eq (by simp)]

theorem reimport_all (imports : Imports node source specifiers) (literal : Value) :
    reimport node literal specifiers = node.put "source" literal := by
  rw [reimport, Value.put_of_peek imports.specifiers_eq (by simp)]

theorem reimport_comm (imports : Imports node source specifiers) (present : source ≠ .null)
    (literal : Value) (chosen : List Value) :
    (node.put "source" literal).put "specifiers" (.arr chosen) = reimport node literal chosen := by
  have there : node.peek "source" ≠ .null := by rwa [imports.source_eq]
  exact (Value.put_comm (by decide) there literal (.arr chosen)).symm

theorem peek_reimport {key : String} (noSpecifiers : key ≠ "specifiers") (noSource : key ≠ "source")
    (literal : Value) (chosen : List Value) :
    (reimport node literal chosen).peek key = node.peek key := by
  rw [reimport, Value.peek_put_of_ne noSource, Value.peek_put_of_ne noSpecifiers]

theorem importedSpecifiers_reimport (record : node.IsRecord) (literal : Value)
    (chosen : List Value) : importedSpecifiers (reimport node literal chosen) = chosen := by
  rw [importedSpecifiers, reimport, Value.peek_put_of_ne (by decide), Value.peek_put_self record]

theorem flatMap_importOf (record : node.IsRecord) (literal : Value) (chosen : List Value) :
    (importOf node literal chosen).flatMap importedSpecifiers = chosen := by
  cases chosen with
  | nil => rfl
  | cons first rest => simp [importOf, importedSpecifiers_reimport record]

theorem mem_importOf {statement literal : Value} {chosen : List Value}
    (membership : statement ∈ importOf node literal chosen) :
    statement = reimport node literal chosen ∧ chosen ≠ [] := by
  cases chosen with
  | nil => simp [importOf] at membership
  | cons first rest => exact ⟨by simpa [importOf] using membership, by simp⟩

end Reimport

theorem movedSource_eq {literal : Value}
    (moved : setText source redirector.replacement = .ok literal) :
    redirector.movedSource source = literal := by
  simp [movedSource, moved]

theorem once_of_no_default (imports : Imports node source specifiers)
    (noDefault : ∀ specifier ∈ specifiers, specifier.peek "type" ≠ defaultSpecifier) (site : Site) :
    redirector.visit node ≠ (.ok .reprocess, site) := by
  intro again
  obtain ⟨_, _, _, found, _, _, someDefault, _⟩ := redirector.combined_of_reprocess again
  obtain ⟨rfl, rfl⟩ := imports.unique found
  obtain ⟨specifier, membership, type⟩ := List.mem_map.mp someDefault
  exact noDefault specifier membership type

/-- Legacy specifiers of different kinds, none of them a default, are not recognized. -/
theorem importClass_mixed {classifier : Classifier}
    (legacy : classifier.settings.isLegacy module = true)
    (noDefault : ∀ specifier ∈ specifiers, specifier.peek "type" ≠ defaultSpecifier)
    (mixed : onlyNames specifiers = false) :
    classifier.importClass module specifiers = .unrecognized := by
  have absent : defaultSpecifier ∉ specifiers.map (·.peek "type") := by
    intro someDefault
    obtain ⟨specifier, membership, type⟩ := List.mem_map.mp someDefault
    exact noDefault specifier membership type
  have notSole : specifiers.map (·.peek "type") ≠ [defaultSpecifier] := by
    intro sole
    simp [sole] at absent
  have notNames : (specifiers.map (·.peek "type")).all (· == namedSpecifier) = false := by
    rw [List.all_map]
    exact mixed
  have notContained : (specifiers.map (·.peek "type")).contains defaultSpecifier = false := by
    simpa using absent
  simp only [Classifier.importClass, legacy, notContained, notNames, beq_eq_false_iff_ne.mpr notSole,
    Bool.false_and, Bool.and_false, Bool.false_eq_true, if_true, if_false]

/-- Legacy defaults are recognized only when there is one and it has a name. -/
theorem importClass_defaults {classifier : Classifier}
    (legacy : classifier.settings.isLegacy module = true)
    (defaults : ∀ specifier ∈ specifiers, specifier.peek "type" = defaultSpecifier)
    (notSole : ∀ specifier, specifiers = [specifier] →
      (Node.name (specifier.peek "local")).isPresent = false) :
    classifier.importClass module specifiers = .unrecognized := by
  cases specifiers with
  | nil => simp [Classifier.importClass, legacy]
  | cons first rest =>
    have type := defaults first (by simp)
    have noName : namedSpecifier ∉ (first :: rest).map (·.peek "type") := by
      intro someName
      obtain ⟨specifier, membership, name⟩ := List.mem_map.mp someName
      rw [defaults specifier membership] at name
      simp [defaultSpecifier, namedSpecifier] at name
    have notNames : ((first :: rest).map (·.peek "type")).all (· == namedSpecifier) = false := by
      simp [type, defaultSpecifier, namedSpecifier]
    have notContained : ((first :: rest).map (·.peek "type")).contains namedSpecifier = false := by
      simpa using noName
    have notBound : ((first :: rest).map (·.peek "type") == [defaultSpecifier] &&
        (Node.name (((first :: rest).headD .null).peek "local")).isPresent) = false := by
      cases rest with
      | nil => simp [notSole first rfl]
      | cons second others => simp
    simp only [Classifier.importClass, legacy, notContained, notNames, notBound, Bool.and_false,
      Bool.false_eq_true, if_true, if_false]

theorem settle_unrecognized
    (classified : redirector.classifier.classify node = .ok .unrecognized) :
    (redirector.settle node).statements = [node] := by
  have visited : redirector.visit node = (.ok .advance, Site.of (some node)) := by
    rw [redirector.visit_of_classify classified, apply_unrecognized]
  rw [redirector.settle_of_ok visited]
  rfl

/-- The covered names move and the others stay, each in one statement. -/
theorem settle_names {c : Classification} (imports : Imports node source specifiers)
    (present : source ≠ .null)
    (visited : redirector.visit node = redirector.settleNames c node source specifiers)
    (nonempty : specifiers ≠ []) (faultless : (redirector.settle node).fault = none) :
    (redirector.settle node).statements =
        importOf node (redirector.movedSource source) (redirector.coveredSpecifiers specifiers) ++
          importOf node source (redirector.uncoveredSpecifiers specifiers) ∧
      (redirector.coveredSpecifiers specifiers ≠ [] →
        setText source redirector.replacement = .ok (redirector.movedSource source)) := by
  obtain ⟨outcome, site, result, left⟩ := redirector.visit_of_settle faultless
  rw [left]
  rcases settleNames_eq_ok (visited.symm.trans result) with
    ⟨_, noneCovered, _, rfl⟩ | ⟨noneLeft, changed, moved, rfl⟩ |
      ⟨literal, _, replaced, someCovered, someLeft, rfl⟩
  · rw [noneCovered, uncovered_of_covered_nil noneCovered, importOf_of_ne_nil nonempty,
      reimport_self imports present]
    exact ⟨rfl, fun someCovered => absurd rfl someCovered⟩
  · obtain ⟨literal, replaced, rfl⟩ := map_eq_ok.mp moved
    rw [noneLeft, covered_of_uncovered_nil noneLeft, importOf_of_ne_nil nonempty,
      reimport_all imports, movedSource_eq replaced]
    exact ⟨rfl, fun _ => replaced⟩
  · rw [movedSource_eq replaced, importOf_of_ne_nil someCovered, importOf_of_ne_nil someLeft,
      reimport_some imports present]
    exact ⟨rfl, fun _ => replaced⟩

/-- What is left of the specifiers of a legacy import that has no default among them. -/
theorem settle_others (imports : Imports node source specifiers)
    (text : text? source = some module)
    (legacy : redirector.classifier.settings.isLegacy module = true) (nonempty : specifiers ≠ [])
    (noDefault : ∀ specifier ∈ specifiers, specifier.peek "type" ≠ defaultSpecifier)
    (faultless : (redirector.settle node).fault = none) :
    (redirector.settle node).statements = redirector.namesParted node source specifiers ∧
      (redirector.namesMoved specifiers ≠ [] →
        setText source redirector.replacement = .ok (redirector.movedSource source)) := by
  have present := text_ne_null text
  have classified : redirector.classifier.classify node = _ :=
    Classifier.classify_of_imports imports text
  cases names : onlyNames specifiers with
  | false =>
    rw [importClass_mixed legacy noDefault names] at classified
    rw [settle_unrecognized classified]
    simp [namesParted, namesMoved, namesLeft, names, importOf, nonempty,
      reimport_self imports present]
  | true =>
    have types : ∀ specifier ∈ specifiers, specifier.peek "type" = namedSpecifier :=
      fun specifier membership => beq_iff_eq.mp (List.all_eq_true.mp names specifier membership)
    rw [Classifier.importClass_names legacy nonempty types] at classified
    have visited := redirector.visit_of_classify classified
    rw [redirector.apply_named imports present rfl] at visited
    cases answers : redirector.coverage specifiers with
    | error fault =>
      rw [answers] at visited
      simp [redirector.settle_of_error visited, Expansion.ofSite] at faultless
    | ok covered =>
      rw [answers] at visited
      simp only [namesParted, namesMoved, namesLeft, names, if_true]
      exact settle_names imports present visited nonempty faultless

theorem movesWhole_iff {specifier : Value} :
    redirector.movesWhole specifier = true ↔
      (Node.name (specifier.peek "local")).isPresent = true ∧
        redirector.judge (Node.name (specifier.peek "local")) = .ok .free := by
  simp only [movesWhole, judge, Bool.and_eq_true]
  refine and_congr_right fun _ => ?_
  cases redirector.evidence redirector.text (Node.name (specifier.peek "local")) with
  | error fault => simp [Except.map]
  | ok judged =>
    cases judged with
    | none => simp [Except.map]
    | some used =>
      by_cases uncovered : used.filter (!redirector.surface.covers ·) = [] <;>
        simp_all [Except.map, List.filter_eq_nil_iff]

theorem movesDefaults_iff :
    redirector.movesDefaults specifiers = true ↔
      ∃ specifier, specifiers = [specifier] ∧ redirector.movesWhole specifier = true := by
  match specifiers with
  | [] => simp [movesDefaults]
  | [specifier] => simp [movesDefaults]
  | first :: second :: rest => simp [movesDefaults]

/-- A single default that is free moves and becomes a namespace. -/
theorem settle_free {specifier : Value} (imports : Imports node source [specifier])
    (text : text? source = some module)
    (legacy : redirector.classifier.settings.isLegacy module = true)
    (type : specifier.peek "type" = defaultSpecifier)
    (moves : redirector.movesWhole specifier = true)
    (faultless : (redirector.settle node).fault = none) :
    (redirector.settle node).statements =
        [reimport node (redirector.movedSource source) [namespaceOf specifier]] ∧
      setText source redirector.replacement = .ok (redirector.movedSource source) := by
  obtain ⟨bound, free⟩ := movesWhole_iff.mp moves
  have present := text_ne_null text
  have classified : redirector.classifier.classify node = _ :=
    Classifier.classify_of_imports imports text
  rw [Classifier.importClass_default legacy type bound] at classified
  have visited := redirector.visit_of_classify classified
  rw [redirector.apply_default imports present rfl, settleBinding, free] at visited
  obtain ⟨outcome, site, result, left⟩ := redirector.visit_of_settle faultless
  obtain ⟨changed, moved, rfl⟩ := moveTo_eq_ok (visited.symm.trans result)
  rw [namespaceImport] at moved
  obtain ⟨literal, replaced, rfl⟩ := map_eq_ok.mp moved
  rw [left, movedSource_eq replaced, reimport_comm imports present]
  exact ⟨rfl, replaced⟩

/-- Defaults that do not move are left as they are. -/
theorem settle_kept (imports : Imports node source specifiers)
    (text : text? source = some module)
    (legacy : redirector.classifier.settings.isLegacy module = true)
    (defaults : ∀ specifier ∈ specifiers, specifier.peek "type" = defaultSpecifier)
    (stays : redirector.movesDefaults specifiers = false)
    (faultless : (redirector.settle node).fault = none) :
    (redirector.settle node).statements = [node] := by
  have classified : redirector.classifier.classify node = _ :=
    Classifier.classify_of_imports imports text
  by_cases sole : ∃ specifier, specifiers = [specifier] ∧
      (Node.name (specifier.peek "local")).isPresent = true
  · obtain ⟨specifier, rfl, bound⟩ := sole
    rw [Classifier.importClass_default legacy (defaults specifier (by simp)) bound] at classified
    have visited := redirector.visit_of_classify classified
    rw [redirector.apply_default imports (text_ne_null text) rfl] at visited
    obtain ⟨outcome, site, result, left⟩ := redirector.visit_of_settle faultless
    rw [left]
    rcases settleBinding_eq_ok (visited.symm.trans result) with ⟨_, _, _, rfl⟩ | ⟨free, _⟩
    · rfl
    · have whole : redirector.movesWhole specifier = true := movesWhole_iff.mpr ⟨bound, free⟩
      simp [movesDefaults, whole] at stays
  · rw [importClass_defaults legacy defaults (by simpa using sole)] at classified
    exact settle_unrecognized classified

/-- What is left of the default specifiers of a legacy import that has no others. -/
theorem settle_defaults (imports : Imports node source specifiers)
    (text : text? source = some module)
    (legacy : redirector.classifier.settings.isLegacy module = true) (nonempty : specifiers ≠ [])
    (defaults : ∀ specifier ∈ specifiers, specifier.peek "type" = defaultSpecifier)
    (faultless : (redirector.settle node).fault = none) :
    (redirector.settle node).statements = redirector.defaultsParted node source specifiers ∧
      (redirector.defaultsMoved specifiers ≠ [] →
        setText source redirector.replacement = .ok (redirector.movedSource source)) := by
  simp only [defaultsParted, defaultsMoved, defaultsLeft]
  cases moves : redirector.movesDefaults specifiers with
  | true =>
    obtain ⟨specifier, rfl, whole⟩ := movesDefaults_iff.mp moves
    have moved := settle_free imports text legacy (defaults specifier (by simp)) whole faultless
    exact ⟨moved.1, fun _ => moved.2⟩
  | false =>
    rw [settle_kept imports text legacy defaults moves faultless]
    simp [importOf, nonempty, reimport_self imports (text_ne_null text)]

/-- What a pass leaves of an import that is visited once, for it has no default. -/
theorem expand_names (imports : Imports node source specifiers) (text : text? source = some module)
    (legacy : redirector.classifier.settings.isLegacy module = true) (nonempty : specifiers ≠ [])
    (noDefault : ∀ specifier ∈ specifiers, specifier.peek "type" ≠ defaultSpecifier)
    (faultless : (redirector.expand node).fault = none) :
    (redirector.expand node).statements = redirector.parted node source specifiers ∧
      (redirector.movesSome specifiers →
        setText source redirector.replacement = .ok (redirector.movedSource source)) := by
  have others : otherSpecifiers specifiers = specifiers := by
    rw [otherSpecifiers, List.filter_eq_self]
    intro specifier membership
    simpa using noDefault specifier membership
  have defaults : defaultSpecifiers specifiers = [] := by
    rw [defaultSpecifiers, List.filter_eq_nil_iff]
    intro specifier membership
    simpa using noDefault specifier membership
  rw [redirector.expand_of_ne (once_of_no_default imports noDefault)] at faultless ⊢
  obtain ⟨statements, moved⟩ := settle_others imports text legacy nonempty noDefault faultless
  rw [parted, movesSome, others, defaults, statements]
  refine ⟨by simp [defaultsParted, defaultsMoved, defaultsLeft, importOf], ?_⟩
  rintro (someName | someDefault)
  · exact moved someName
  · simp [defaultsMoved] at someDefault

/-- What a pass leaves of an import that is taken apart first. -/
theorem expand_halves (imports : Imports node source specifiers)
    (text : text? source = some module)
    (legacy : redirector.classifier.settings.isLegacy module = true)
    (someDefault : defaultSpecifier ∈ specifiers.map (·.peek "type"))
    (someName : namedSpecifier ∈ specifiers.map (·.peek "type"))
    (again : redirector.visit node = (.ok .reprocess, splitSite node specifiers))
    (faultless : (redirector.expand node).fault = none) :
    (redirector.expand node).statements = redirector.parted node source specifiers ∧
      (redirector.movesSome specifiers →
        setText source redirector.replacement = .ok (redirector.movedSource source)) := by
  obtain ⟨othersFaultless, defaultsFaultless⟩ := redirector.faultless_halves again faultless
  obtain ⟨others, othersMoved⟩ := settle_others (imports.withSome (others_subset specifiers)) text
    legacy (List.ne_nil_of_length_pos (length_others_pos someName))
    (fun specifier membership => (mem_others.mp membership).2) othersFaultless
  obtain ⟨defaults, defaultsMoved⟩ := settle_defaults
    (imports.withSome (defaults_subset specifiers)) text legacy
    (List.ne_nil_of_length_pos (length_defaults_pos someDefault))
    (fun specifier membership => (mem_defaults.mp membership).2) defaultsFaultless
  refine ⟨?_, fun moves => moves.elim othersMoved defaultsMoved⟩
  rw [redirector.expand_of_halves again othersFaultless]
  simp only [Expansion.after, Expansion.append, others, defaults, namesParted, defaultsParted,
    importOf_put, parted]

/-- The pass over an import of a default and names, or of names alone. -/
theorem expand_parted {c : Classification}
    (classified : redirector.classifier.classify node = .ok c)
    (shape : c.shape = .combinedImport ∨ c.shape = .namedImport)
    (faultless : (redirector.expand node).fault = none) :
    ∃ source specifiers module, Imports node source specifiers ∧ text? source = some module ∧
      (redirector.expand node).statements = redirector.parted node source specifiers ∧
      (redirector.movesSome specifiers →
        setText source redirector.replacement = .ok (redirector.movedSource source)) := by
  have cases := redirector.visited node
  generalize visited : redirector.visit node = result at cases
  cases cases with
  | combined imports text legacy someDefault someName =>
    exact ⟨_, _, _, imports, text,
      expand_halves imports text legacy someDefault someName visited faultless⟩
  | named imports text legacy nonempty types =>
    refine ⟨_, _, _, imports, text, expand_names imports text legacy nonempty ?_ faultless⟩
    intro specifier membership
    simp [types specifier membership, namedSpecifier, defaultSpecifier]
  | failed found => simp [found] at classified
  | unrecognized found other =>
    obtain rfl := Except.ok.inj (classified.symm.trans found)
    simp [other] at shape
  | default _ _ _ _ _ found =>
    obtain rfl := Except.ok.inj (classified.symm.trans found)
    simp at shape
  | @singleImport _ _ _ _ form _ _ _ _ _ _ found =>
    obtain rfl := Except.ok.inj (classified.symm.trans found)
    cases form <;> simp [SingleForm.importShape] at shape
  | requireModule _ _ _ _ _ found =>
    obtain rfl := Except.ok.inj (classified.symm.trans found)
    simp at shape
  | @singleRequire _ _ _ _ form _ _ _ _ _ _ found =>
    obtain rfl := Except.ok.inj (classified.symm.trans found)
    cases form <;> simp [SingleForm.requireShape] at shape

theorem mem_parted {statement : Value}
    (membership : statement ∈ redirector.parted node source specifiers) :
    ∃ literal chosen, statement = reimport node literal chosen ∧ chosen ≠ [] := by
  simp only [parted, namesParted, defaultsParted, List.mem_append] at membership
  rcases membership with (moved | left) | (moved | left)
  · exact ⟨_, _, mem_importOf moved⟩
  · exact ⟨_, _, mem_importOf left⟩
  · exact ⟨_, _, mem_importOf moved⟩
  · exact ⟨_, _, mem_importOf left⟩

theorem namesMoved_append_namesLeft (others : List Value) :
    (redirector.namesMoved others ++ redirector.namesLeft others).Perm others := by
  rw [namesMoved, namesLeft]
  split
  · exact List.filter_append_perm (redirector.coversSpecifier ·) others
  · exact List.Perm.refl others

theorem defaultsMoved_append_defaultsLeft (specifiers : List Value) :
    redirector.defaultsMoved (defaultSpecifiers specifiers) ++
        redirector.defaultsLeft (defaultSpecifiers specifiers) =
      (defaultSpecifiers specifiers).map (redirector.retyped specifiers) := by
  have types : ∀ specifier ∈ defaultSpecifiers specifiers,
      (specifier.peek "type" == defaultSpecifier) = true := fun specifier membership =>
    beq_iff_eq.mpr (mem_defaults.mp membership).2
  rw [defaultsMoved, defaultsLeft]
  cases moves : redirector.movesDefaults (defaultSpecifiers specifiers) with
  | true =>
    rw [if_pos rfl, if_pos rfl, List.append_nil]
    refine List.map_congr_left fun specifier membership => ?_
    rw [retyped, moves, types specifier membership, Bool.true_and, if_pos rfl]
  | false =>
    have same : redirector.retyped specifiers = id := by
      funext specifier
      simp [retyped, moves]
    simp [same]

/-- Every specifier is found in one of the statements, as often as it was there. -/
theorem flatMap_parted (record : node.IsRecord) (specifiers : List Value) :
    ((redirector.parted node source specifiers).flatMap importedSpecifiers).Perm
      (specifiers.map (redirector.retyped specifiers)) := by
  have others : (otherSpecifiers specifiers).map (redirector.retyped specifiers) =
      otherSpecifiers specifiers := by
    refine (List.map_congr_left fun specifier membership => ?_).trans (List.map_id _)
    have type : (specifier.peek "type" == defaultSpecifier) = false :=
      beq_false_of_ne (mem_others.mp membership).2
    rw [retyped, type, Bool.false_and, if_neg (by simp), id]
  have joined : (redirector.parted node source specifiers).flatMap importedSpecifiers =
      (redirector.namesMoved (otherSpecifiers specifiers) ++
          redirector.namesLeft (otherSpecifiers specifiers)) ++
        (defaultSpecifiers specifiers).map (redirector.retyped specifiers) := by
    simp only [parted, namesParted, defaultsParted, List.flatMap_append, flatMap_importOf record,
      defaultsMoved_append_defaultsLeft]
  have named : (redirector.namesMoved (otherSpecifiers specifiers) ++
      redirector.namesLeft (otherSpecifiers specifiers)).Perm
        ((otherSpecifiers specifiers).map (redirector.retyped specifiers)) := by
    rw [others]
    exact namesMoved_append_namesLeft _
  rw [joined]
  refine (named.append_right _).trans ?_
  rw [← List.map_append]
  exact (others_append_defaults specifiers).map _

/-- An import of a default and names, or of names alone, is parted: the names that are covered, those
that are not, and the defaults. A default moves, as a namespace, only when it is the only one, it is
bound to a name, and all that is used of it is covered. -/
theorem run_partitions {c : Classification}
    (classified : redirector.classifier.classify node = .ok c)
    (shape : c.shape = .combinedImport ∨ c.shape = .namedImport) (trace : Trace)
    (completes : (redirector.run [node] trace).fault = none) :
    ∃ source specifiers, node.peek "source" = source ∧ node.peek "specifiers" = .arr specifiers ∧
      (redirector.run [node] trace).body = redirector.parted node source specifiers ∧
      (redirector.movesSome specifiers →
        setText source redirector.replacement = .ok (redirector.movedSource source) ∧
        text? (redirector.movedSource source) = some redirector.replacement) ∧
      (∀ statement ∈ (redirector.run [node] trace).body, importedSpecifiers statement ≠ [] ∧
        ∀ key, key ≠ "specifiers" → key ≠ "source" → statement.peek key = node.peek key) ∧
      ((redirector.run [node] trace).body.flatMap importedSpecifiers).Perm
        (specifiers.map (redirector.retyped specifiers)) := by
  simp only [run_singleton] at completes ⊢
  obtain ⟨source, specifiers, module, imports, text, statements, moved⟩ :=
    expand_parted classified shape completes
  rw [statements]
  refine ⟨source, specifiers, imports.source_eq, imports.specifiers_eq, rfl, fun moves => ?_,
    fun statement membership => ?_, flatMap_parted imports.record specifiers⟩
  · exact ⟨moved moves, text_of_setText text (moved moves)⟩
  · obtain ⟨literal, chosen, rfl, nonempty⟩ := mem_parted membership
    rw [importedSpecifiers_reimport imports.record]
    exact ⟨nonempty, fun key noSpecifiers noSource =>
      peek_reimport noSpecifiers noSource literal chosen⟩

/-- The names and the default are parted, and then the names. -/
theorem run_partitions_combinedImport :
    mapRedirector.classifier.classify combinedImport =
        .ok ⟨.combinedImport, some "lodash", .null, none⟩ ∧
      (mapRedirector.run [combinedImport] .empty).fault = none ∧
      ∃ source specifiers, combinedImport.peek "source" = source ∧
        combinedImport.peek "specifiers" = .arr specifiers ∧
        (mapRedirector.run [combinedImport] .empty).body =
          mapRedirector.parted combinedImport source specifiers ∧
        (mapRedirector.movesSome specifiers →
          setText source mapRedirector.replacement = .ok (mapRedirector.movedSource source) ∧
          text? (mapRedirector.movedSource source) = some mapRedirector.replacement) ∧
        (∀ statement ∈ (mapRedirector.run [combinedImport] .empty).body,
          importedSpecifiers statement ≠ [] ∧
          ∀ key, key ≠ "specifiers" → key ≠ "source" →
            statement.peek key = combinedImport.peek key) ∧
        ((mapRedirector.run [combinedImport] .empty).body.flatMap importedSpecifiers).Perm
          (specifiers.map (mapRedirector.retyped specifiers)) := by
  have classified : mapRedirector.classifier.classify combinedImport =
      .ok ⟨.combinedImport, some "lodash", .null, none⟩ := by rfl
  have completes : (mapRedirector.run [combinedImport] .empty).fault = none := by decide
  exact ⟨classified, completes, run_partitions classified (.inl rfl) .empty completes⟩

end Redirector

end ImportRedirect
