import ImportRedirect.Emit.Splice
import ImportRedirect.Proofs.Pass.Expansion

/-!
What a failed step leaves. Nothing is counted, reported or recorded by it, and the list of statements
stays as it was, save in one case: an import of names that is split loses the names that are not covered
before its source is redirected, so that a source that cannot be rewritten leaves the covered half.
-/

namespace ImportRedirect

open Node

/-- The place that an index counted from either end names. -/
def placeAt? (length : Nat) (index : Int) : Option Nat :=
  let index := if index < 0 then index + length else index
  if 0 ≤ index ∧ index < length then some index.toNat else none

def nodeAt? (body : List Value) (index : Int) : Option Value :=
  (placeAt? body.length index).bind (body[·]?)

namespace Redirector

/-- Handles the statement that an index names: what comes of it, the list with what is left of the
statement, and everything reported so far. -/
def applyAt (redirector : Redirector) (c : Classification) (body : List Value) (index : Int)
    (progress : Progress) : Except Fault Outcome × List Value × Progress :=
  let (outcome, site) := redirector.apply c (nodeAt? body index)
  let changed :=
    match placeAt? body.length index, site.node with
    | some place, some node => body.set place node
    | _, _ => body
  let statements :=
    match site.inserted with
    | some inserted =>
      let place := Emit.clamp changed.length (index + 1)
      changed.take place ++ inserted :: changed.drop place
    | none => changed
  (outcome, statements, progress.add site)

variable (redirector : Redirector) {node source : Value} {specifiers : List Value}
  {c : Classification} {site : Site} {fault : Fault}

theorem site_of_moveTo_error {moved : Except Fault Value}
    (failed : redirector.moveTo c node moved = (.error fault, site)) :
    site = Site.of (some node) := by
  cases moved with
  | error fault => exact (Prod.mk.inj failed).2.symm
  | ok changed => cases failed

theorem site_of_settleBinding_error {moved : Except Fault Value}
    (failed : redirector.settleBinding c node moved = (.error fault, site)) :
    site = Site.of (some node) := by
  unfold settleBinding at failed
  cases judged : redirector.judge c.binding with
  | error fault =>
    rw [judged] at failed
    exact (Prod.mk.inj failed).2.symm
  | ok verdict =>
    rw [judged] at failed
    cases verdict with
    | unused => cases failed
    | blocked uncovered =>
      dsimp only at failed
      cases diagnosed : diagnose c uncovered with
      | error fault =>
        rw [diagnosed] at failed
        exact (Prod.mk.inj failed).2.symm
      | ok diagnostic =>
        rw [diagnosed] at failed
        cases failed
    | free => exact redirector.site_of_moveTo_error failed

theorem site_of_settleFunction_error {moved : Except Fault Value}
    (failed : redirector.settleFunction c node moved = (.error fault, site)) :
    site = Site.of (some node) := by
  unfold settleFunction at failed
  split at failed
  · exact redirector.site_of_moveTo_error failed
  · cases failed

/-- The import is split and its source cannot be rewritten. -/
structure Halved (node : Value) (c : Classification) (fault : Fault) (left : Value) : Prop where
  shape : c.shape = .namedImport
  halves : ∃ source specifiers, Imports node source specifiers ∧
    redirector.coveredSpecifiers specifiers ≠ [] ∧ redirector.uncoveredSpecifiers specifiers ≠ [] ∧
    setText source redirector.replacement = .error fault ∧
    left = node.put "specifiers" (.arr (redirector.coveredSpecifiers specifiers))

theorem site_of_settleNames_error (imports : Imports node source specifiers)
    (shape : c.shape = .namedImport)
    (failed : redirector.settleNames c node source specifiers = (.error fault, site)) :
    site = Site.of (some node) ∨
      ∃ left, redirector.Halved node c fault left ∧ site = Site.of (some left) := by
  simp only [settleNames] at failed
  split at failed
  · cases failed
  · next someKept =>
    split at failed
    · exact .inl (redirector.site_of_moveTo_error failed)
    · next someLeft =>
      cases replaced : setText source redirector.replacement with
      | error reason =>
        rw [replaced] at failed
        obtain ⟨same, rfl⟩ := Prod.mk.inj failed
        obtain rfl := Except.error.inj same
        refine .inr ⟨_, ⟨shape, source, specifiers, imports, ?_, ?_, replaced, rfl⟩, rfl⟩
        · simpa using someKept
        · simpa using someLeft
      | ok changed =>
        rw [replaced] at failed
        cases failed

/-- A visit that fails leaves the statement as it was or halved. -/
theorem site_of_visit_error (classified : redirector.classifier.classify node = .ok c)
    (failed : redirector.visit node = (.error fault, site)) :
    site = Site.of (some node) ∨
      ∃ left, redirector.Halved node c fault left ∧ site = Site.of (some left) := by
  have cases := redirector.visited node
  rw [failed] at cases
  generalize visited : (Except.error fault, site) = visit at cases
  cases cases with
  | failed => exact .inl (Prod.mk.inj visited).2
  | unrecognized => cases visited
  | combined => cases visited
  | default => exact .inl (redirector.site_of_settleBinding_error visited.symm)
  | @named source specifiers module imports _ _ _ _ again =>
    obtain rfl := Except.ok.inj (classified.symm.trans again)
    cases answers : redirector.coverage specifiers with
    | error reason =>
      rw [answers] at visited
      exact .inl (Prod.mk.inj visited).2
    | ok covered =>
      rw [answers] at visited
      exact redirector.site_of_settleNames_error imports rfl visited.symm
  | singleImport => exact .inl (redirector.site_of_settleFunction_error visited.symm)
  | requireModule => exact .inl (redirector.site_of_settleBinding_error visited.symm)
  | singleRequire => exact .inl (redirector.site_of_settleFunction_error visited.symm)

theorem nodeAt?_eq_some_iff {body : List Value} {index : Int} :
    nodeAt? body index = some node ↔
      ∃ place, placeAt? body.length index = some place ∧ body[place]? = some node :=
  Option.bind_eq_some_iff

/-- A step that fails on a statement that could be classified reports nothing and leaves all statements
as they were, unless it halved an import of names. -/
theorem applyAt_failed {body : List Value} {index : Int} (progress : Progress)
    (there : nodeAt? body index = some node)
    (classified : redirector.classifier.classify node = .ok c)
    (failed : (redirector.applyAt c body index progress).1 = .error fault) :
    (redirector.applyAt c body index progress).2.2 = progress ∧
      ((redirector.applyAt c body index progress).2.1 = body ∨
        ∃ place left, placeAt? body.length index = some place ∧
          redirector.Halved node c fault left ∧
          (redirector.applyAt c body index progress).2.1 = body.set place left) := by
  obtain ⟨place, found, listed⟩ := nodeAt?_eq_some_iff.mp there
  have visit := redirector.visit_of_classify classified
  cases applied : redirector.apply c (some node) with
  | mk outcome site =>
    simp only [applyAt, there, applied, found] at failed ⊢
    subst failed
    rcases redirector.site_of_visit_error classified (visit.trans applied) with
      rfl | ⟨left, halved, rfl⟩
    · refine ⟨progress.add_of _, .inl ?_⟩
      obtain ⟨inside, rfl⟩ := List.getElem?_eq_some_iff.mp listed
      exact List.set_getElem_self inside
    · exact ⟨progress.add_of _, .inr ⟨place, left, rfl, halved, rfl⟩⟩

/-- A source that is written as a number, which is no text to take a quote from. -/
def numbered : Value :=
  .obj [("type", .str "Literal"), ("value", .str "lodash"), ("raw", .int 5)]

def importOfNames (names : List String) : Value :=
  .obj [("type", .str "ImportDeclaration"), ("source", numbered),
    ("specifiers", .arr (names.map fun name => .obj [("type", namedSpecifier),
      ("imported", identifier (.str name)), ("local", identifier (.str name))]))]

/-- The last of two statements fails, and both stay as they were. -/
theorem applyAt_failed_last :
    let redirector : Redirector := ⟨⟨.default, .ofNames ["map"] [] none⟩, Usage.scan, ""⟩
    let body := [importOfNames ["map", "omit"], importOfNames ["map"]]
    let c : Classification := ⟨.namedImport, some "lodash", .null, none⟩
    let progress := Progress.start .empty
    nodeAt? body (-1) = some (importOfNames ["map"]) ∧
      redirector.classifier.classify (importOfNames ["map"]) = .ok c ∧
      (redirector.applyAt c body (-1) progress).1 = .error .wrongKind ∧
      (redirector.applyAt c body (-1) progress).2.2 = progress ∧
      (redirector.applyAt c body (-1) progress).2.1 = body := by
  intro redirector body c progress
  have there : nodeAt? body (-1) = some (importOfNames ["map"]) := by decide
  have classified : redirector.classifier.classify (importOfNames ["map"]) = .ok c := rfl
  have failed : (redirector.applyAt c body (-1) progress).1 = .error .wrongKind := rfl
  obtain ⟨unreported, kept | ⟨_, _, _, halved, _⟩⟩ :=
    redirector.applyAt_failed progress there classified failed
  · exact ⟨there, classified, failed, unreported, kept⟩
  · obtain ⟨source, specifiers, imports, _, someLeft, _⟩ := halved.halves
    obtain rfl := Value.arr.inj imports.specifiers_eq
    exact absurd rfl someLeft

/-- The import of a covered and an uncovered name fails after it has lost the latter. -/
theorem applyAt_failed_halved :
    let redirector : Redirector := ⟨⟨.default, .ofNames ["map"] [] none⟩, Usage.scan, ""⟩
    let body := [importOfNames ["map", "omit"]]
    ∃ node c fault, nodeAt? body 0 = some node ∧ redirector.classifier.classify node = .ok c ∧
      (redirector.applyAt c body 0 (Progress.start .empty)).1 = .error fault ∧
      (redirector.applyAt c body 0 (Progress.start .empty)).2.1 = [importOfNames ["map"]] ∧
      body ≠ [importOfNames ["map"]] := by
  intro redirector body
  exact ⟨importOfNames ["map", "omit"], ⟨.namedImport, some "lodash", .null, none⟩, .wrongKind,
    rfl, rfl, rfl, by decide, by decide⟩

end Redirector

end ImportRedirect
