import ImportRedirect.Proofs.Pass.Concatenation

/-!
What the last visits of a statement leave when nothing goes wrong. A visit keeps the statement, moves
it, or splits an import of names. A pass visits a statement once, or takes it apart first and visits
both halves once. Facts about the statements that a pass leaves are shown by these cases.
-/

namespace ImportRedirect

namespace Redirector

open Node

variable {redirector : Redirector} {node source : Value} {specifiers : List Value} {c : Classification}
  {outcome : Outcome} {site : Site}

/-- A statement is moved only as a result of its text being replaced. -/
theorem moveTo_eq_ok {moved : Except Fault Value}
    (result : redirector.moveTo c node moved = (.ok outcome, site)) :
    ∃ changed, moved = .ok changed ∧ site = redirector.movedSite changed c := by
  cases moved with
  | error fault => simp [moveTo] at result
  | ok changed => exact ⟨changed, rfl, (Prod.mk.inj result).2.symm⟩

theorem settleBinding_eq_ok {moved : Except Fault Value}
    (result : redirector.settleBinding c node moved = (.ok outcome, site)) :
    (outcome = .advance ∧ ∃ diagnostics happenings, site = keptSite node diagnostics happenings) ∨
      redirector.judge c.binding = .ok .free ∧
        ∃ changed, moved = .ok changed ∧ site = redirector.movedSite changed c := by
  unfold settleBinding at result
  cases judged : redirector.judge c.binding with
  | error fault => simp [judged] at result
  | ok verdict =>
    rw [judged] at result
    cases verdict with
    | unused =>
      obtain ⟨rfl, rfl⟩ := by simpa using result
      exact .inl ⟨rfl, _, _, rfl⟩
    | blocked uncovered =>
      dsimp only at result
      cases diagnosed : diagnose c uncovered with
      | error fault => simp [diagnosed] at result
      | ok diagnostic =>
        obtain ⟨rfl, rfl⟩ := by simpa [diagnosed] using result
        exact .inl ⟨rfl, _, _, rfl⟩
    | free => exact .inr ⟨rfl, moveTo_eq_ok result⟩

theorem settleFunction_eq_ok {moved : Except Fault Value}
    (result : redirector.settleFunction c node moved = (.ok outcome, site)) :
    (outcome = .advance ∧ ∃ diagnostics happenings, site = keptSite node diagnostics happenings) ∨
      redirector.surface.covers (c.function.getD "") = true ∧
        ∃ changed, moved = .ok changed ∧ site = redirector.movedSite changed c := by
  unfold settleFunction at result
  split at result
  · next covered => exact .inr ⟨covered, moveTo_eq_ok result⟩
  · obtain ⟨rfl, rfl⟩ := by simpa using result
    exact .inl ⟨rfl, _, _, rfl⟩

/-- What is left of an import of names that is split. -/
def partedSite (redirector : Redirector) (node literal : Value) (specifiers : List Value)
    (happenings : List Happening) : Site where
  node := some ((node.put "specifiers" (.arr (redirector.coveredSpecifiers specifiers))).put "source"
    literal)
  inserted := some (node.put "specifiers" (.arr (redirector.uncoveredSpecifiers specifiers)))
  redirected := 1
  split := 1
  diagnostics := []
  happenings := happenings

theorem settleNames_eq_ok
    (result : redirector.settleNames c node source specifiers = (.ok outcome, site)) :
    (outcome = .advance ∧ redirector.coveredSpecifiers specifiers = [] ∧
        ∃ happenings, site = keptSite node [] happenings) ∨
      (redirector.uncoveredSpecifiers specifiers = [] ∧
        ∃ changed, (setText source redirector.replacement).map (node.put "source") = .ok changed ∧
          site = redirector.movedSite changed c) ∨
      ∃ literal happenings, setText source redirector.replacement = .ok literal ∧
        redirector.coveredSpecifiers specifiers ≠ [] ∧
        redirector.uncoveredSpecifiers specifiers ≠ [] ∧
        site = redirector.partedSite node literal specifiers happenings := by
  simp only [settleNames] at result
  split at result
  · next noneKept =>
    obtain ⟨rfl, rfl⟩ := by simpa using result
    exact .inl ⟨rfl, List.isEmpty_iff.mp noneKept, _, rfl⟩
  · next someKept =>
    split at result
    · next noneLeft => exact .inr (.inl ⟨List.isEmpty_iff.mp noneLeft, moveTo_eq_ok result⟩)
    · next someLeft =>
      cases replaced : setText source redirector.replacement with
      | error fault => simp [replaced] at result
      | ok literal =>
        obtain ⟨rfl, rfl⟩ := by simpa [replaced] using result
        exact .inr (.inr ⟨literal, _, rfl, by simpa using someKept, by simpa using someLeft, rfl⟩)

variable (redirector)

/-- The ways in which the last visit of a statement ends, with what is known of the statement. -/
inductive Concludes (node : Value) : Site → Prop where
  | kept {diagnostics : List Diagnostic} {happenings : List Happening}
      (visited : redirector.visit node = (.ok .advance, keptSite node diagnostics happenings)) :
      Concludes node (keptSite node diagnostics happenings)
  | default {source specifier changed : Value} {module : String} {c : Classification}
      (imports : Imports node source [specifier]) (text : text? source = some module)
      (type : specifier.peek "type" = defaultSpecifier)
      (moved : redirector.namespaceImport node source specifier = .ok changed) :
      Concludes node (redirector.movedSite changed c)
  | singleImport {source specifier changed : Value} {module function : String} {c : Classification}
      (imports : Imports node source [specifier]) (text : text? source = some module)
      (type : specifier.peek "type" = defaultSpecifier)
      (covered : redirector.surface.covers function = true)
      (moved : redirector.functionImport node source specifier (some function) = .ok changed) :
      Concludes node (redirector.movedSite changed c)
  | requireModule {declarator argument changed : Value} {module : String} {c : Classification}
      (declares : Declares node declarator)
      (calls : Calls (declarator.peek "init") redirector.classifier.settings.requireCallee argument)
      (text : text? argument = some module)
      (present : (Node.name (declarator.peek "id")).isPresent = true)
      (moved : redirector.moduleRequire node declarator argument = .ok changed) :
      Concludes node (redirector.movedSite changed c)
  | singleRequire {declarator argument changed : Value} {module function : String}
      {c : Classification} (declares : Declares node declarator)
      (calls : Calls (declarator.peek "init") redirector.classifier.settings.requireCallee argument)
      (text : text? argument = some module)
      (present : (Node.name (declarator.peek "id")).isPresent = true)
      (covered : redirector.surface.covers function = true)
      (moved : redirector.functionRequire node declarator argument (some function) = .ok changed) :
      Concludes node (redirector.movedSite changed c)
  | names {source changed : Value} {specifiers : List Value} {module : String} {c : Classification}
      (imports : Imports node source specifiers) (text : text? source = some module)
      (nonempty : specifiers ≠ [])
      (types : ∀ specifier ∈ specifiers, specifier.peek "type" = namedSpecifier)
      (moved : (setText source redirector.replacement).map (node.put "source") = .ok changed) :
      Concludes node (redirector.movedSite changed c)
  | split {source literal : Value} {specifiers : List Value} {module : String} {covered : List Bool}
      {happenings : List Happening} (imports : Imports node source specifiers)
      (text : text? source = some module)
      (legacy : redirector.classifier.settings.isLegacy module = true)
      (types : ∀ specifier ∈ specifiers, specifier.peek "type" = namedSpecifier)
      (answers : redirector.coverage specifiers = .ok covered)
      (replaced : setText source redirector.replacement = .ok literal)
      (someKept : redirector.coveredSpecifiers specifiers ≠ [])
      (someLeft : redirector.uncoveredSpecifiers specifiers ≠ []) :
      Concludes node (redirector.partedSite node literal specifiers happenings)

theorem concludes_of_visit (result : redirector.visit node = (.ok outcome, site))
    (final : outcome ≠ .reprocess) : redirector.Concludes node site := by
  have cases := redirector.visited node
  have original := result
  rw [result] at cases
  generalize visited : (Except.ok outcome, site) = visit at cases
  cases cases with
  | failed => simp at visited
  | unrecognized =>
    obtain ⟨rfl, rfl⟩ := by simpa using visited
    have kept : redirector.visit node = (.ok .advance, keptSite node [] []) := original
    exact .kept kept
  | combined =>
    obtain ⟨rfl, rfl⟩ := by simpa using visited
    exact absurd rfl final
  | default imports text _ type =>
    rcases settleBinding_eq_ok visited.symm with ⟨rfl, _, _, rfl⟩ | ⟨_, changed, moved, rfl⟩
    · exact .kept original
    · exact .default imports text type moved
  | singleImport imports text _ _ type =>
    rcases settleFunction_eq_ok visited.symm with ⟨rfl, _, _, rfl⟩ | ⟨covered, changed, moved, rfl⟩
    · exact .kept original
    · exact .singleImport imports text type covered moved
  | requireModule declares calls text _ present =>
    rcases settleBinding_eq_ok visited.symm with ⟨rfl, _, _, rfl⟩ | ⟨_, changed, moved, rfl⟩
    · exact .kept original
    · exact .requireModule declares calls text present moved
  | singleRequire declares calls text _ _ present =>
    rcases settleFunction_eq_ok visited.symm with ⟨rfl, _, _, rfl⟩ | ⟨covered, changed, moved, rfl⟩
    · exact .kept original
    · exact .singleRequire declares calls text present covered moved
  | @named source specifiers module imports text legacy nonempty types =>
    cases answers : redirector.coverage specifiers with
    | error fault => simp [answers] at visited
    | ok covered =>
      rw [answers] at visited
      rcases settleNames_eq_ok visited.symm with
        ⟨rfl, _, _, rfl⟩ | ⟨_, changed, moved, rfl⟩ | ⟨literal, _, replaced, someKept, someLeft, rfl⟩
      · exact .kept original
      · exact .names imports text nonempty types moved
      · exact .split imports text legacy types answers replaced someKept someLeft

theorem visit_of_settle (faultless : (redirector.settle node).fault = none) :
    ∃ outcome site, redirector.visit node = (.ok outcome, site) ∧
      redirector.settle node = .ofSite site none := by
  rcases visited : redirector.visit node with ⟨fault | outcome, site⟩
  · simp [redirector.settle_of_error visited, Expansion.ofSite] at faultless
  · exact ⟨outcome, site, rfl, redirector.settle_of_ok visited⟩

theorem concludes_of_settle (once : ∀ site, redirector.visit node ≠ (.ok .reprocess, site))
    (faultless : (redirector.settle node).fault = none) :
    ∃ site, redirector.Concludes node site ∧ redirector.settle node = .ofSite site none := by
  obtain ⟨outcome, site, visited, left⟩ := redirector.visit_of_settle faultless
  refine ⟨site, redirector.concludes_of_visit visited ?_, left⟩
  rintro rfl
  exact once site visited

/-- The ways in which a pass over one statement ends. -/
inductive Concluded (node : Value) : Expansion → Prop where
  | whole {site : Site} (concludes : redirector.Concludes node site) :
      Concluded node (.ofSite site none)
  | halves {source : Value} {specifiers : List Value} {module : String} {others defaults : Site}
      (imports : Imports node source specifiers) (text : text? source = some module)
      (legacy : redirector.classifier.settings.isLegacy module = true)
      (someDefault : defaultSpecifier ∈ specifiers.map (·.peek "type"))
      (someName : namedSpecifier ∈ specifiers.map (·.peek "type"))
      (othersConclude : redirector.Concludes
        (node.put "specifiers" (.arr (otherSpecifiers specifiers))) others)
      (defaultsConclude : redirector.Concludes
        (node.put "specifiers" (.arr (defaultSpecifiers specifiers))) defaults) :
      Concluded node (.after (splitSite node specifiers)
        ((Expansion.ofSite others none).append (.ofSite defaults none)))

theorem concluded_of_expand (faultless : (redirector.expand node).fault = none) :
    redirector.Concluded node (redirector.expand node) := by
  rcases redirector.once_or_again node with once | ⟨site, again⟩
  · rw [redirector.expand_of_ne once] at faultless ⊢
    obtain ⟨site, concludes, left⟩ := redirector.concludes_of_settle once faultless
    rw [left]
    exact .whole concludes
  · obtain ⟨source, specifiers, module, imports, text, legacy, someDefault, someName, rfl⟩ :=
      redirector.combined_of_reprocess again
    obtain ⟨othersFaultless, defaultsFaultless⟩ := redirector.faultless_halves again faultless
    obtain ⟨others, othersConclude, othersLeft⟩ :=
      redirector.concludes_of_settle (redirector.once_others imports) othersFaultless
    obtain ⟨defaults, defaultsConclude, defaultsLeft⟩ :=
      redirector.concludes_of_settle (redirector.once_defaults imports) defaultsFaultless
    rw [redirector.expand_of_halves again othersFaultless, othersLeft, defaultsLeft]
    exact .halves imports text legacy someDefault someName othersConclude defaultsConclude

end Redirector

end ImportRedirect
