import ImportRedirect.Pass
import ImportRedirect.Proofs.Statement.View
import ImportRedirect.Proofs.Work

/-!
One visit of a statement: it is classified and handled. For each shape, the outcome, the statements
left at its place and everything reported are given as functions of the view of the statement.
-/

namespace ImportRedirect

namespace Handling

open Work

variable {α : Type}

@[simp] theorem run_attempt (result : Except Fault α) (site : Site) :
    (attempt result).run site = (result, site) := rfl

@[simp] theorem run_place (node : Value) (site : Site) :
    (place node).run site = (.ok (), { site with node := some node }) := rfl

@[simp] theorem run_placeAfter (node : Value) (site : Site) :
    (placeAfter node).run site = (.ok (), { site with inserted := some node }) := rfl

@[simp] theorem run_record (happening : Happening) (site : Site) :
    (record happening).run site =
      (.ok (), { site with happenings := site.happenings ++ [happening] }) := rfl

@[simp] theorem run_countRedirected (site : Site) :
    countRedirected.run site = (.ok (), { site with redirected := site.redirected + 1 }) := rfl

@[simp] theorem run_countSplit (site : Site) :
    countSplit.run site = (.ok (), { site with split := site.split + 1 }) := rfl

theorem run_node {site : Site} {value : Value} (there : site.node = some value) :
    node.run site = (.ok value, site) := by
  obtain ⟨_, _, _, _, _, _⟩ := site
  subst there
  rfl

theorem run_change {site : Site} {value : Value} (there : site.node = some value)
    (spot : List Place) (how : Value → Except Fault Value) :
    (change spot how).run site =
      match value.modifyAt how spot with
      | .ok changed => (.ok (), { site with node := some changed })
      | .error fault => (.error fault, site) := by
  simp only [change, run_bind, run_node there, run_attempt]
  cases value.modifyAt how spot <;> rfl

end Handling

theorem filter_zip_map {α β : Type} (tag : α → β) (chosen : β → Bool) (items : List α) :
    ((items.zip (items.map tag)).filter (fun pair => chosen pair.2)).map (·.1) =
      items.filter (fun item => chosen (tag item)) := by
  induction items with
  | nil => rfl
  | cons item rest inductionHypothesis =>
    by_cases picked : chosen (tag item) = true <;> simp [picked, inductionHypothesis]

namespace Surface

def coversName (surface : Surface) : Value → Bool
  | .str name => surface.covers name
  | _ => false

theorem coversValue_eq_ok {surface : Surface} {value : Value} {covered : Bool}
    (answer : surface.coversValue value = .ok covered) : surface.coversName value = covered := by
  cases value <;> simp_all [coversValue, coversName, Value.asMember, bind, Except.bind, pure,
    Except.pure]

end Surface

namespace Redirector

open Handling Node Work

variable (redirector : Redirector) {node source declarator argument : Value}
  {specifiers : List Value} {module : String} {c : Classification}

/-- One visit of a statement. -/
def visit (node : Value) : Except Fault Outcome × Site :=
  match redirector.classifier.classify node with
  | .error fault => (.error fault, Site.of (some node))
  | .ok c => redirector.apply c (some node)

theorem visit_of_classify (classified : redirector.classifier.classify node = .ok c) :
    redirector.visit node = redirector.apply c (some node) := by
  simp [visit, classified]

theorem apply_unrecognized (node : Option Value) :
    redirector.apply .unrecognized node = (.ok .advance, Site.of node) := rfl

def otherSpecifiers (specifiers : List Value) : List Value :=
  specifiers.filter (·.peek "type" != defaultSpecifier)

def defaultSpecifiers (specifiers : List Value) : List Value :=
  specifiers.filter (·.peek "type" == defaultSpecifier)

theorem mem_others {specifier : Value} : specifier ∈ otherSpecifiers specifiers ↔
    specifier ∈ specifiers ∧ specifier.peek "type" ≠ defaultSpecifier := by
  simp [otherSpecifiers]

theorem mem_defaults {specifier : Value} : specifier ∈ defaultSpecifiers specifiers ↔
    specifier ∈ specifiers ∧ specifier.peek "type" = defaultSpecifier := by
  simp [defaultSpecifiers]

theorem others_subset (specifiers : List Value) : otherSpecifiers specifiers ⊆ specifiers :=
  List.filter_sublist.subset

theorem defaults_subset (specifiers : List Value) : defaultSpecifiers specifiers ⊆ specifiers :=
  List.filter_sublist.subset

theorem others_append_defaults (specifiers : List Value) :
    (otherSpecifiers specifiers ++ defaultSpecifiers specifiers).Perm specifiers := by
  have both := List.filter_append_perm (·.peek "type" != defaultSpecifier) specifiers
  simpa [otherSpecifiers, defaultSpecifiers, bne] using both

theorem length_others_pos (someName : namedSpecifier ∈ specifiers.map (·.peek "type")) :
    0 < (otherSpecifiers specifiers).length := by
  obtain ⟨specifier, membership, type⟩ := List.mem_map.mp someName
  refine List.length_pos_of_mem (mem_others.mpr ⟨membership, ?_⟩)
  simp [type, namedSpecifier, defaultSpecifier]

theorem length_defaults_pos (someDefault : defaultSpecifier ∈ specifiers.map (·.peek "type")) :
    0 < (defaultSpecifiers specifiers).length := by
  obtain ⟨specifier, membership, type⟩ := List.mem_map.mp someDefault
  exact List.length_pos_of_mem (mem_defaults.mpr ⟨membership, type⟩)

/-- A default that is there and is the only one. -/
theorem sole_default_of_defaults (sole : (defaultSpecifiers specifiers).length ≤ 1)
    (someDefault : defaultSpecifier ∈ specifiers.map (·.peek "type")) :
    ∃ specifier ∈ specifiers, defaultSpecifiers specifiers = [specifier] ∧
      specifier.peek "type" = defaultSpecifier := by
  obtain ⟨specifier, only⟩ :=
    List.length_eq_one_iff.mp (Nat.le_antisymm sole (length_defaults_pos someDefault))
  obtain ⟨membership, type⟩ : specifier ∈ specifiers ∧ specifier.peek "type" = defaultSpecifier :=
    mem_defaults.mp (by simp [only])
  exact ⟨specifier, membership, only, type⟩

theorem apply_combined (imports : Imports node source specifiers)
    (shape : c.shape = .combinedImport) :
    redirector.apply c (some node) = (.ok .reprocess,
      { node := some (node.put "specifiers" (.arr (otherSpecifiers specifiers)))
        inserted := some (node.put "specifiers" (.arr (defaultSpecifiers specifiers)))
        redirected := 0, split := 1, diagnostics := []
        happenings := [.split c.shape.name ((otherSpecifiers specifiers).map exportName)
          [.str "default"]] }) := by
  have types : specifiers.mapM (·.get "type") = .ok (specifiers.map (·.peek "type")) :=
    mapM_eq_ok fun specifier membership =>
      Value.get_of_isRecord (imports.records specifier membership) "type"
  have names : (otherSpecifiers specifiers).mapM importedNameD =
      .ok ((otherSpecifiers specifiers).map exportName) :=
    mapM_eq_ok fun specifier membership =>
      importedNameD_of_isRecord (imports.records specifier (others_subset _ membership))
  have kept := filter_zip_map (·.peek "type") (· != defaultSpecifier) specifiers
  have moved := filter_zip_map (·.peek "type") (· == defaultSpecifier) specifiers
  rw [← otherSpecifiers] at kept
  rw [← defaultSpecifiers] at moved
  have there : (Site.of (some node)).node = some node := rfl
  simp only [apply, handle, shape, splitCombined, run_bind, run_node there, run_attempt,
    imports.field_specifiers, ok_bind, Value.parts, types, kept, moved,
    Value.setField_of_isRecord imports.record, run_place, run_placeAfter, run_countSplit, names,
    run_record, run_pure]
  rfl

theorem run_retarget_source (imports : Imports node source specifiers)
    (present : source ≠ .null) {site : Site}
    (there : site.node = some node) :
    (redirector.retarget sourcePlace).run site =
      match setText source redirector.replacement with
      | .ok changed => (.ok (), { site with node := some (node.put "source" changed) })
      | .error fault => (.error fault, site) := by
  have modified : node.modifyAt (setText · redirector.replacement) sourcePlace =
      (setText source redirector.replacement).map (node.put "source") := by
    have found := imports.field_source present
    simp only [sourcePlace, Value.modifyAt, found, ok_bind]
    cases setText source redirector.replacement with
    | error fault => rfl
    | ok changed => simp [ok_bind, Value.setField_of_isRecord imports.record, Except.map]
  rw [retarget, run_change there, modified]
  cases setText source redirector.replacement <;> rfl

theorem run_retarget_argument (declares : Declares node declarator)
    (calls : Calls (declarator.peek "init") redirector.classifier.settings.requireCallee argument)
    {site : Site} (there : site.node = some node) :
    (redirector.retarget firstArgument).run site =
      match setText argument redirector.replacement with
      | .ok changed =>
        (.ok (), { site with node := some (node.put "declarations" (.arr [declarator.put "init"
          ((declarator.peek "init").put "arguments" (.arr [changed]))])) })
      | .error fault => (.error fault, site) := by
  have modified : node.modifyAt (setText · redirector.replacement) firstArgument =
      (setText argument redirector.replacement).map fun changed =>
        node.put "declarations" (.arr [declarator.put "init"
          ((declarator.peek "init").put "arguments" (.arr [changed]))]) := by
    have declarations := declares.field_declarations
    have init : declarator.field "init" = .ok (declarator.peek "init") :=
      Value.field_of_peek rfl calls.ne_null
    have arguments := Value.field_of_peek calls.argument_eq (by simp)
    simp only [firstArgument, firstDeclarator, List.cons_append, List.nil_append, Value.modifyAt,
      declarations, init, arguments, ok_bind, Value.item_arr_cons]
    cases setText argument redirector.replacement with
    | error fault => rfl
    | ok changed =>
      simp [ok_bind, Value.setItem, Value.setField_of_isRecord calls.record,
        Value.setField_of_isRecord declares.record,
        Value.setField_of_isRecord declares.nodeRecord, Except.map]
  rw [retarget, run_change there, modified]
  cases setText argument redirector.replacement <;> rfl

theorem run_redirected (site : Site) :
    (redirector.redirected c).run site = (.ok .advance,
      { site with
        redirected := site.redirected + 1
        happenings := site.happenings ++
          [.redirected c.shape.name (c.module.getD "") redirector.replacement] }) := rfl

def keptSite (node : Value) (diagnostics : List Diagnostic) (happenings : List Happening) : Site :=
  ⟨some node, none, 0, 0, diagnostics, happenings⟩

def movedSite (node : Value) (c : Classification) : Site :=
  ⟨some node, none, 1, 0, [],
    [.redirected c.shape.name (c.module.getD "") redirector.replacement]⟩

/-- Why a binding of a whole module stays or moves. -/
inductive Verdict where
  | unused
  /-- These names are used of it and not covered. -/
  | blocked (uncovered : List String)
  | free
  deriving DecidableEq

/-- What the evidence says about a binding. -/
def judge (binding : Value) : Except Fault Verdict :=
  (redirector.evidence redirector.text binding).map fun
    | none => .unused
    | some used =>
      let uncovered := used.filter (!redirector.surface.covers ·)
      if uncovered.isEmpty then .free else .blocked uncovered

/-- The diagnostic about a binding that is blocked. -/
def diagnose (c : Classification) (uncovered : List String) : Except Fault Diagnostic :=
  Diagnostic.ofValues c.binding (.ofOption c.module) (.arr (uncovered.map .str))

theorem run_redirectBinding (site : Site) :
    (redirector.redirectBinding c).run site =
      match redirector.judge c.binding with
      | .error fault => (.error fault, site)
      | .ok .unused => (keep c s!"binding '{c.binding.display}' is never accessed").run site
      | .ok (.blocked uncovered) =>
        match diagnose c uncovered with
        | .error fault => (.error fault, site)
        | .ok diagnostic => (.ok .advance,
            { site with
              diagnostics := site.diagnostics ++ [diagnostic]
              happenings := site.happenings ++ [.warned diagnostic.message] })
      | .ok .free =>
        (do
          if c.shape == .defaultImport then
            redirector.retarget sourcePlace
            change firstSpecifier (·.setField "type" namespaceSpecifier)
          else redirector.retarget firstArgument
          redirector.redirected c : Handling Outcome).run site := by
  simp only [redirectBinding, run_bind, run_attempt, judge]
  cases redirector.evidence redirector.text c.binding with
  | error fault => rfl
  | ok judged =>
    cases judged with
    | none => rfl
    | some used =>
      cases uncovered : used.filter (!redirector.surface.covers ·) with
      | nil => simp [uncovered, Except.map]
      | cons name rest =>
        simp only [uncovered, List.isEmpty_cons, Bool.not_false, if_true, Except.map, run_bind,
          run_attempt, diagnose, Bool.false_eq_true, if_false]
        cases Diagnostic.ofValues c.binding (.ofOption c.module)
          (.arr ((name :: rest).map .str)) <;> rfl

/-- The end of a visit that tries to redirect the statement as a whole. -/
def moveTo (c : Classification) (node : Value) (moved : Except Fault Value) :
    Except Fault Outcome × Site :=
  match moved with
  | .error fault => (.error fault, Site.of (some node))
  | .ok moved => (.ok .advance, redirector.movedSite moved c)

/-- The end of a visit that depends on the evidence for a binding. -/
def settleBinding (c : Classification) (node : Value) (moved : Except Fault Value) :
    Except Fault Outcome × Site :=
  match redirector.judge c.binding with
  | .error fault => (.error fault, Site.of (some node))
  | .ok .unused => (.ok .advance, keptSite node []
      [.inspected (c.module.getD "") "kept" s!"binding '{c.binding.display}' is never accessed"])
  | .ok (.blocked uncovered) =>
    match diagnose c uncovered with
    | .error fault => (.error fault, Site.of (some node))
    | .ok diagnostic => (.ok .advance, keptSite node [diagnostic] [.warned diagnostic.message])
  | .ok .free => redirector.moveTo c node moved

/-- The end of a visit that depends on whether a single function is covered. -/
def settleFunction (c : Classification) (node : Value) (moved : Except Fault Value) :
    Except Fault Outcome × Site :=
  if redirector.surface.covers (c.function.getD "") then redirector.moveTo c node moved
  else
    let function := c.function.getD "None"
    (.ok .advance, keptSite node []
      [.inspected (c.module.getD "") "kept" s!"'{function}' is not covered"])

def namespaceImport (node source specifier : Value) : Except Fault Value :=
  (setText source redirector.replacement).map fun changed =>
    (node.put "source" changed).put "specifiers" (.arr [specifier.put "type" namespaceSpecifier])

def functionImport (node source specifier : Value) (function : Option String) :
    Except Fault Value :=
  (setText source redirector.replacement).map fun changed =>
    (node.put "source" changed).put "specifiers"
      (.arr [(specifier.put "type" namedSpecifier).put "imported" (identifier (.ofOption function))])

def requireOf (node declarator argument : Value) : Value :=
  node.put "declarations"
    (.arr [declarator.put "init" ((declarator.peek "init").put "arguments" (.arr [argument]))])

def moduleRequire (node declarator argument : Value) : Except Fault Value :=
  (setText argument redirector.replacement).map fun changed => requireOf node declarator changed

def memberOf (object : Value) (function : Option String) : Value :=
  .obj [("type", .str "MemberExpression"), ("object", object),
    ("property", identifier (.ofOption function)), ("computed", .bool false),
    ("optional", .bool false)]

def functionRequire (node declarator argument : Value) (function : Option String) :
    Except Fault Value :=
  (setText argument redirector.replacement).map fun changed =>
    node.put "declarations" (.arr [declarator.put "init"
      (memberOf ((declarator.peek "init").put "arguments" (.arr [changed])) function)])

theorem run_changeSpecifier {specifier : Value} (imports : Imports node source [specifier])
    (how : Value → Except Fault Value) {changed : Value} (result : how specifier = .ok changed)
    {site : Site} (there : site.node = some node) :
    (change firstSpecifier how).run site =
      (.ok (), { site with node := some (node.put "specifiers" (.arr [changed])) }) := by
  have modified : node.modifyAt how firstSpecifier =
      .ok (node.put "specifiers" (.arr [changed])) := by
    simp [firstSpecifier, Value.modifyAt, imports.field_specifiers, ok_bind, Value.item_arr_cons,
      result, Value.setItem, Value.setField_of_isRecord imports.record]
  rw [run_change there, modified]

theorem run_changeDeclarator (declares : Declares node declarator)
    (how : Value → Except Fault Value) {changed : Value} (result : how declarator = .ok changed)
    {site : Site} (there : site.node = some node) :
    (change firstDeclarator how).run site =
      (.ok (), { site with node := some (node.put "declarations" (.arr [changed])) }) := by
  have modified : node.modifyAt how firstDeclarator =
      .ok (node.put "declarations" (.arr [changed])) := by
    simp [firstDeclarator, Value.modifyAt, declares.field_declarations, ok_bind,
      Value.item_arr_cons, result, Value.setItem, Value.setField_of_isRecord declares.nodeRecord]
  rw [run_change there, modified]

theorem apply_default {specifier : Value} (imports : Imports node source [specifier])
    (present : source ≠ .null) (shape : c.shape = .defaultImport) :
    redirector.apply c (some node) =
      redirector.settleBinding c node (redirector.namespaceImport node source specifier) := by
  have record := imports.records specifier (by simp)
  simp only [apply, handle, shape, run_redirectBinding, settleBinding]
  cases redirector.judge c.binding with
  | error fault => rfl
  | ok verdict =>
    cases verdict with
    | unused => rfl
    | blocked uncovered => cases diagnose c uncovered <;> rfl
    | free =>
      have there : (Site.of (some node)).node = some node := rfl
      simp only [beq_self_eq_true, if_true, run_bind,
        redirector.run_retarget_source imports present there, moveTo, namespaceImport]
      cases setText source redirector.replacement with
      | error fault => rfl
      | ok changed =>
        have retyped := fun site => @run_changeSpecifier _ _ _ (imports.withSource changed)
          (·.setField "type" namespaceSpecifier) _
          (Value.setField_of_isRecord record "type" namespaceSpecifier) site
        simp only [Except.map, retyped, run_redirected]
        rfl

theorem apply_requireModule (declares : Declares node declarator)
    (calls : Calls (declarator.peek "init") redirector.classifier.settings.requireCallee argument)
    (shape : c.shape = .requireModule) :
    redirector.apply c (some node) =
      redirector.settleBinding c node (redirector.moduleRequire node declarator argument) := by
  simp only [apply, handle, shape, run_redirectBinding, settleBinding]
  cases redirector.judge c.binding with
  | error fault => rfl
  | ok verdict =>
    cases verdict with
    | unused => rfl
    | blocked uncovered => cases diagnose c uncovered <;> rfl
    | free =>
      have there : (Site.of (some node)).node = some node := rfl
      simp only [beq_iff_eq, reduceCtorEq, if_false, run_bind,
        redirector.run_retarget_argument declares calls there, moveTo, moduleRequire]
      cases setText argument redirector.replacement <;> rfl

theorem apply_singleImport {specifier : Value} (imports : Imports node source [specifier])
    (present : source ≠ .null)
    (shape : c.shape = .deepPathImport ∨ c.shape = .dottedPackageImport) :
    redirector.apply c (some node) = redirector.settleFunction c node
      (redirector.functionImport node source specifier c.function) := by
  have record := imports.records specifier (by simp)
  have handled : redirector.handle c = redirector.redirectSingleImport c := by
    rcases shape with shape | shape <;> simp [handle, shape]
  have there : (Site.of (some node)).node = some node := rfl
  simp only [apply, handled, redirectSingleImport, whenCovered, settleFunction]
  split
  · simp only [run_bind, run_node there, run_attempt, imports.field_specifiers, ok_bind,
      Value.item_arr_cons, redirector.run_retarget_source imports present there, moveTo,
      functionImport]
    cases setText source redirector.replacement with
    | error fault => rfl
    | ok changed =>
      have renamed : (specifier.setField "type" namedSpecifier >>=
            (·.setField "imported" (identifier (.ofOption c.function)))) =
          .ok ((specifier.put "type" namedSpecifier).put "imported"
            (identifier (.ofOption c.function))) := by
        simp [Value.setField_of_isRecord record, ok_bind,
          Value.setField_of_isRecord (record.put _ _)]
      have named := fun site => @run_changeSpecifier _ _ _ (imports.withSource changed)
        (fun specifier => specifier.setField "type" namedSpecifier >>=
          (·.setField "imported" (identifier (.ofOption c.function)))) _ renamed site
      simp only [Except.map, named, run_redirected]
      rfl
  · rfl

theorem apply_singleRequire (declares : Declares node declarator)
    (calls : Calls (declarator.peek "init") redirector.classifier.settings.requireCallee argument)
    (shape : c.shape = .deepPathRequire ∨ c.shape = .dottedPackageRequire) :
    redirector.apply c (some node) = redirector.settleFunction c node
      (redirector.functionRequire node declarator argument c.function) := by
  have handled : redirector.handle c = redirector.redirectSingleRequire c := by
    rcases shape with shape | shape <;> simp [handle, shape]
  have there : (Site.of (some node)).node = some node := rfl
  simp only [apply, handled, redirectSingleRequire, whenCovered, settleFunction]
  split
  · simp only [run_bind, redirector.run_retarget_argument declares calls there, moveTo,
      functionRequire]
    cases setText argument redirector.replacement with
    | error fault => rfl
    | ok changed =>
      have requires := declares.withDeclarator (declares.record.put "init"
        ((declarator.peek "init").put "arguments" (.arr [changed])))
      have init := Value.field_put_self declares.record "init"
        ((declarator.peek "init").put "arguments" (.arr [changed]))
      have wrapped := fun site => @run_changeDeclarator _ _ requires (fun declarator => do
          declarator.setField "init" (memberOf (← declarator.field "init") c.function)) _
        (by rw [init, ok_bind, Value.setField_of_isRecord requires.record, Value.put_put]) site
      simp only [memberOf] at wrapped
      simp only [Except.map, wrapped, run_redirected, Value.put_put]
      rfl
  · rfl

def coversSpecifier (specifier : Value) : Bool :=
  redirector.surface.coversName (exportName specifier)

def coveredSpecifiers (specifiers : List Value) : List Value :=
  specifiers.filter (redirector.coversSpecifier ·)

def uncoveredSpecifiers (specifiers : List Value) : List Value :=
  specifiers.filter (!redirector.coversSpecifier ·)

theorem covered_subset (specifiers : List Value) :
    redirector.coveredSpecifiers specifiers ⊆ specifiers :=
  List.filter_sublist.subset

theorem uncovered_subset (specifiers : List Value) :
    redirector.uncoveredSpecifiers specifiers ⊆ specifiers :=
  List.filter_sublist.subset

variable {redirector} in
theorem uncovered_of_covered_nil (none : redirector.coveredSpecifiers specifiers = []) :
    redirector.uncoveredSpecifiers specifiers = specifiers := by
  rw [uncoveredSpecifiers, List.filter_eq_self]
  intro specifier membership
  simpa using List.filter_eq_nil_iff.mp none specifier membership

variable {redirector} in
theorem covered_of_uncovered_nil (none : redirector.uncoveredSpecifiers specifiers = []) :
    redirector.coveredSpecifiers specifiers = specifiers := by
  rw [coveredSpecifiers, List.filter_eq_self]
  intro specifier membership
  simpa using List.filter_eq_nil_iff.mp none specifier membership

/-- Asks of each specifier whether it is covered, which fails on names that are lists or records. -/
def coverage (specifiers : List Value) : Except Fault (List Bool) :=
  specifiers.mapM fun specifier => do
    redirector.surface.coversValue (← importedNameD specifier)

theorem coverage_eq_ok {covered : List Bool} (imports : Imports node source specifiers)
    (answers : redirector.coverage specifiers = .ok covered) :
    covered = specifiers.map (redirector.coversSpecifier ·) := by
  refine mapM_ok_eq (fun specifier membership result answer => ?_) answers
  rw [importedNameD_of_isRecord (imports.records specifier membership), ok_bind] at answer
  exact Surface.coversValue_eq_ok answer

/-- The end of a visit of an import of names. -/
def settleNames (c : Classification) (node source : Value) (specifiers : List Value) :
    Except Fault Outcome × Site :=
  let kept := redirector.coveredSpecifiers specifiers
  let left := redirector.uncoveredSpecifiers specifiers
  if kept.isEmpty then
    (.ok .advance, keptSite node []
      [.inspected (c.module.getD "") "kept" "no imported function is covered"])
  else if left.isEmpty then
    redirector.moveTo c node ((setText source redirector.replacement).map (node.put "source"))
  else
    match setText source redirector.replacement with
    | .error fault =>
      (.error fault, { Site.of (some node) with node := some (node.put "specifiers" (.arr kept)) })
    | .ok changed => (.ok .skipInserted,
        { node := some ((node.put "specifiers" (.arr kept)).put "source" changed)
          inserted := some (node.put "specifiers" (.arr left))
          redirected := 1, split := 1, diagnostics := []
          happenings := [.split c.shape.name (kept.map exportName) (left.map exportName)] })

theorem apply_named (imports : Imports node source specifiers) (present : source ≠ .null)
    (shape : c.shape = .namedImport) :
    redirector.apply c (some node) =
      match redirector.coverage specifiers with
      | .error fault => (.error fault, Site.of (some node))
      | .ok _ => redirector.settleNames c node source specifiers := by
  have there : (Site.of (some node)).node = some node := rfl
  simp only [apply, handle, shape, redirectNames, run_bind, run_node there, run_attempt,
    imports.field_specifiers, ok_bind, Value.parts, coverage]
  cases answers : specifiers.mapM fun specifier => do
      redirector.surface.coversValue (← importedNameD specifier) with
  | error fault => rfl
  | ok covered =>
    have names : ∀ chosen : List Value, chosen ⊆ specifiers →
        chosen.mapM importedNameD = .ok (chosen.map exportName) := fun chosen among =>
      mapM_eq_ok fun specifier membership =>
        importedNameD_of_isRecord (imports.records specifier (among membership))
    have keptSpecifiers : ((specifiers.zip (specifiers.map (redirector.coversSpecifier ·))).filter
        (·.2)).map (·.1) = redirector.coveredSpecifiers specifiers :=
      filter_zip_map (redirector.coversSpecifier ·) id specifiers
    have leftSpecifiers : ((specifiers.zip (specifiers.map (redirector.coversSpecifier ·))).filter
        (!·.2)).map (·.1) = redirector.uncoveredSpecifiers specifiers :=
      filter_zip_map (redirector.coversSpecifier ·) not specifiers
    simp only [redirector.coverage_eq_ok imports answers, keptSpecifiers, leftSpecifiers,
      settleNames]
    split
    · rfl
    · split
      · simp only [run_bind, redirector.run_retarget_source imports present there, moveTo]
        cases setText source redirector.replacement <;> rfl
      · have halved := imports.withSome (redirector.covered_subset specifiers)
        have halfThere : ({ Site.of (some node) with
          node := some (node.put "specifiers"
            (.arr (redirector.coveredSpecifiers specifiers))) } : Site).node = some _ := rfl
        simp only [run_bind, run_attempt, Value.setField_of_isRecord imports.record, run_place,
          redirector.run_retarget_source halved present halfThere]
        cases setText source redirector.replacement with
        | error fault => rfl
        | ok changed =>
          simp only [run_placeAfter, run_countRedirected, run_countSplit,
            names _ (redirector.covered_subset specifiers),
            names _ (redirector.uncovered_subset specifiers), run_record, run_pure, shape]
          rfl

end Redirector

end ImportRedirect
