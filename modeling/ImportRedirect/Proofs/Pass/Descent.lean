import ImportRedirect.Proofs.Pass.Rereading
import ImportRedirect.Proofs.Value.Texts

/-!
What the statements of a pass have from the statement they were made of: all fields but those that a pass
looks into, and all texts but those that it brings along.
-/

namespace ImportRedirect

open Node Script Value

/-- The fields of statements that a pass changes. -/
def changedFields : List String := ["specifiers", "source", "declarations"]

/-- The statement was made of the node: what holds of the texts of the node holds of its texts. -/
structure Descends (p : String → Prop) (node statement : Value) : Prop where
  texts : node.Texts p → statement.Texts p
  keeps : ∀ key ∉ changedFields, statement.peek key = node.peek key

namespace Descends

variable {p : String → Prop} {node statement value : Value} {key : String}

theorem refl : Descends p node node := ⟨id, fun _ _ => rfl⟩

theorem trans {first second third : Value} (front : Descends p first second)
    (back : Descends p second third) : Descends p first third :=
  ⟨back.texts ∘ front.texts, fun key other => (back.keeps key other).trans (front.keeps key other)⟩

theorem put (descends : Descends p node statement) (changed : key ∈ changedFields)
    (texts : node.Texts p → value.Texts p) : Descends p node (statement.put key value) where
  texts known := (descends.texts known).put key (texts known)
  keeps other apart := by
    have different : other ≠ key := by
      rintro rfl
      exact apart changed
    rw [peek_put_of_ne different]
    exact descends.keeps other apart

end Descends

namespace Redirector

/-- The texts that a pass brings along are like this. -/
structure Supplies (redirector : Redirector) (p : String → Prop) : Prop where
  replacement : p redirector.replacement
  quoted : ∀ quote ∈ ['\'', '"'], p (quoteText redirector.replacement quote)
  names : ∀ name ∈ redirector.surface.names, p name
  types : ∀ type ∈ ["ImportSpecifier", "ImportNamespaceSpecifier", "Identifier", "MemberExpression"],
    p type

variable {redirector : Redirector} {p : String → Prop} {node source specifier declarator argument : Value}
  {literal changed : Value} {specifiers chosen : List Value} {function callee : String}

theorem texts_of_setText (supplies : redirector.Supplies p) (texts : literal.Texts p)
    (record : literal.IsRecord) (succeeds : setText literal redirector.replacement = .ok changed) :
    changed.Texts p := by
  rw [setText_of_isRecord record] at succeeds
  obtain ⟨quote, found, rfl⟩ := map_eq_ok.mp succeeds
  exact (texts.put "value" (.str supplies.replacement)).put "raw"
    (.str (supplies.quoted quote (by simpa using quoteOf_eq_ok found)))

theorem texts_identifier (supplies : redirector.Supplies p)
    (covered : redirector.surface.covers function = true) :
    (identifier (.ofOption (some function))).Texts p := by
  have named := supplies.names _ (List.contains_iff_mem.mp covered)
  have type := supplies.types "Identifier" (by simp)
  exact .obj (by simpa [identifier, ofOption] using ⟨.str type, .str named⟩)

section Imports

variable (supplies : redirector.Supplies p) (imports : Imports node source specifiers)

include imports in
theorem texts_specifiers (texts : node.Texts p) : ∀ specifier ∈ specifiers, specifier.Texts p := by
  have listed := texts.peek "specifiers"
  rw [imports.specifiers_eq] at listed
  exact listed.of_arr

include imports in
theorem descends_withSpecifiers (among : chosen ⊆ specifiers) :
    Descends p node (node.put "specifiers" (.arr chosen)) :=
  Descends.refl.put (by simp [changedFields]) fun texts =>
    .arr fun specifier membership => texts_specifiers imports texts specifier (among membership)

include supplies imports in
theorem descends_withSource (quoted : source.IsRecord)
    (replaced : setText source redirector.replacement = .ok changed) :
    Descends p node (node.put "source" changed) :=
  Descends.refl.put (by simp [changedFields]) fun texts =>
    texts_of_setText supplies (imports.source_eq ▸ texts.peek "source") quoted replaced

include supplies in
theorem descends_namespaceImport (imports : Imports node source [specifier]) (quoted : source.IsRecord)
    (moved : redirector.namespaceImport node source specifier = .ok changed) :
    Descends p node changed := by
  rw [namespaceImport] at moved
  obtain ⟨literal, replaced, rfl⟩ := map_eq_ok.mp moved
  refine (descends_withSource supplies imports quoted replaced).put (by simp [changedFields]) ?_
  intro texts
  have type := supplies.types "ImportNamespaceSpecifier" (by simp)
  have whole := (texts_specifiers imports texts specifier (by simp)).put "type" (.str type)
  exact .arr (by simpa [namespaceSpecifier] using whole)

include supplies in
theorem descends_functionImport (imports : Imports node source [specifier]) (quoted : source.IsRecord)
    (covered : redirector.surface.covers function = true)
    (moved : redirector.functionImport node source specifier (some function) = .ok changed) :
    Descends p node changed := by
  rw [functionImport] at moved
  obtain ⟨literal, replaced, rfl⟩ := map_eq_ok.mp moved
  refine (descends_withSource supplies imports quoted replaced).put (by simp [changedFields]) ?_
  intro texts
  have type := supplies.types "ImportSpecifier" (by simp)
  have named := ((texts_specifiers imports texts specifier (by simp)).put "type" (.str type)).put
    "imported" (texts_identifier supplies covered)
  exact .arr (by simpa [namedSpecifier] using named)

end Imports

section Requires

variable (supplies : redirector.Supplies p) (declares : Declares node declarator)
  (calls : Calls (declarator.peek "init") callee argument)

include declares in
theorem texts_declarator (texts : node.Texts p) : declarator.Texts p := by
  have listed := texts.peek "declarations"
  rw [declares.declarations] at listed
  exact listed.of_arr declarator (by simp)

include supplies calls in
/-- The call with the replacement for its argument. -/
theorem texts_call (texts : declarator.Texts p) (quoted : argument.IsRecord)
    (replaced : setText argument redirector.replacement = .ok literal) :
    ((declarator.peek "init").put "arguments" (.arr [literal])).Texts p := by
  have call := texts.peek "init"
  have listed := call.peek "arguments"
  rw [calls.argument_eq] at listed
  have written := texts_of_setText supplies (listed.of_arr argument (by simp)) quoted replaced
  exact call.put "arguments" (.arr (by simpa using written))

include supplies declares calls in
theorem descends_moduleRequire (quoted : argument.IsRecord)
    (moved : redirector.moduleRequire node declarator argument = .ok changed) :
    Descends p node changed := by
  rw [moduleRequire] at moved
  obtain ⟨literal, replaced, rfl⟩ := map_eq_ok.mp moved
  refine Descends.refl.put (by simp [changedFields]) fun texts => ?_
  have declared := texts_declarator declares texts
  have whole := declared.put "init" (texts_call supplies calls declared quoted replaced)
  exact .arr (by simpa using whole)

include supplies declares calls in
theorem descends_functionRequire (quoted : argument.IsRecord)
    (covered : redirector.surface.covers function = true)
    (moved : redirector.functionRequire node declarator argument (some function) = .ok changed) :
    Descends p node changed := by
  rw [functionRequire] at moved
  obtain ⟨literal, replaced, rfl⟩ := map_eq_ok.mp moved
  refine Descends.refl.put (by simp [changedFields]) fun texts => ?_
  have declared := texts_declarator declares texts
  have call := texts_call supplies calls declared quoted replaced
  have type := supplies.types "MemberExpression" (by simp)
  have named := texts_identifier supplies covered
  have member : (memberOf ((declarator.peek "init").put "arguments" (.arr [literal]))
      (some function)).Texts p :=
    .obj (by simpa using ⟨.str type, call, named, .bool false⟩)
  exact .arr (by simpa using declared.put "init" member)

end Requires

theorem isRecord_of_text {module : String} (text : text? literal = some module) : literal.IsRecord :=
  isRecord_of_hasType (text?_eq_some.mp text).1

theorem descends_of_moved {c : Classification} (descends : Descends p node changed) :
    ∀ statement ∈ (redirector.movedSite changed c).statements, Descends p node statement := by
  intro statement membership
  obtain rfl := List.mem_singleton.mp membership
  exact descends

theorem descends_of_concludes (supplies : redirector.Supplies p) {site : Site}
    (concludes : redirector.Concludes node site) :
    ∀ statement ∈ site.statements, Descends p node statement := by
  cases concludes with
  | kept =>
    intro statement membership
    obtain rfl := List.mem_singleton.mp membership
    exact .refl
  | default imports text _ moved =>
    exact descends_of_moved (descends_namespaceImport supplies imports (isRecord_of_text text) moved)
  | singleImport imports text _ covered moved =>
    exact descends_of_moved
      (descends_functionImport supplies imports (isRecord_of_text text) covered moved)
  | requireModule declares calls text _ moved =>
    exact descends_of_moved
      (descends_moduleRequire supplies declares calls (isRecord_of_text text) moved)
  | singleRequire declares calls text _ covered moved =>
    exact descends_of_moved
      (descends_functionRequire supplies declares calls (isRecord_of_text text) covered moved)
  | names imports text _ _ moved =>
    obtain ⟨literal, replaced, rfl⟩ := map_eq_ok.mp moved
    exact descends_of_moved (descends_withSource supplies imports (isRecord_of_text text) replaced)
  | @split _ literal specifiers _ _ _ imports text _ _ _ replaced =>
    have keptAmong := redirector.covered_subset specifiers
    have keptHalf : Descends p node _ := (descends_withSpecifiers imports keptAmong).trans
      (descends_withSource supplies (imports.withSome keptAmong) (isRecord_of_text text) replaced)
    have leftHalf : Descends p node _ :=
      descends_withSpecifiers imports (redirector.uncovered_subset specifiers)
    simpa [partedSite, Site.statements] using ⟨keptHalf, leftHalf⟩

/-- The statements that a pass makes of a statement have all else from it. -/
theorem descends_of_expand (supplies : redirector.Supplies p)
    (faultless : (redirector.expand node).fault = none) :
    ∀ statement ∈ (redirector.expand node).statements, Descends p node statement := by
  have concluded := redirector.concluded_of_expand faultless
  generalize redirector.expand node = expansion at concluded
  cases concluded with
  | whole concludes => exact descends_of_concludes supplies concludes
  | @halves _ specifiers _ _ _ imports _ _ _ _ others defaults =>
    intro statement membership
    rcases List.mem_append.mp membership with among | among
    · exact (descends_withSpecifiers imports (others_subset specifiers)).trans
        (descends_of_concludes supplies others statement among)
    · exact (descends_withSpecifiers imports (defaults_subset specifiers)).trans
        (descends_of_concludes supplies defaults statement among)

end Redirector

end ImportRedirect
