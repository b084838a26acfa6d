import ImportRedirect.Proofs.Statement.Cases

/-!
What a pass makes of one statement, without a cursor and without a bound on the visits. The pass over
a list joins these expansions in order, up to the first fault.
-/

namespace ImportRedirect

@[simp] theorem Site.statements_of (node : Value) : (Site.of (some node)).statements = [node] := rfl

/-- What handling some statements leaves in their place, and all there is to report. -/
structure Expansion where
  statements : List Value
  redirected : Nat
  split : Nat
  diagnostics : List Diagnostic
  happenings : List Happening
  fault : Option Fault

namespace Expansion

def empty : Expansion := ⟨[], 0, 0, [], [], none⟩

def ofSite (site : Site) (fault : Option Fault) : Expansion where
  statements := site.statements
  redirected := site.redirected
  split := site.split
  diagnostics := site.diagnostics
  happenings := site.happenings
  fault := fault

def append (first second : Expansion) : Expansion where
  statements := first.statements ++ second.statements
  redirected := first.redirected + second.redirected
  split := first.split + second.split
  diagnostics := first.diagnostics ++ second.diagnostics
  happenings := first.happenings ++ second.happenings
  fault := second.fault

/-- The expansions of some statements one after another. After a fault the rest is not looked at. -/
def ofList (expand : Value → Expansion) : List Value → Expansion
  | [] => empty
  | node :: rest =>
    match (expand node).fault with
    | none => (expand node).append (ofList expand rest)
    | some _ => { expand node with statements := (expand node).statements ++ rest }

def after (site : Site) (rest : Expansion) : Expansion where
  statements := rest.statements
  redirected := site.redirected + rest.redirected
  split := site.split + rest.split
  diagnostics := site.diagnostics ++ rest.diagnostics
  happenings := site.happenings ++ rest.happenings
  fault := rest.fault

end Expansion

namespace Redirector

variable (redirector : Redirector)

/-- What the last visit of a statement makes of it. -/
def settle (node : Value) : Expansion :=
  match redirector.visit node with
  | (.ok _, site) => .ofSite site none
  | (.error fault, site) => .ofSite site (some fault)

/-- What a pass makes of a statement. -/
def expand (node : Value) : Expansion :=
  match redirector.visit node with
  | (.ok .reprocess, site) => .after site (.ofList redirector.settle site.statements)
  | _ => redirector.settle node

end Redirector

namespace Progress

def extend (progress : Progress) (expansion : Expansion) : Progress where
  redirected := progress.redirected + expansion.redirected
  split := progress.split + expansion.split
  diagnostics := progress.diagnostics ++ expansion.diagnostics
  trace := progress.trace.recordAll expansion.happenings

theorem extend_append (progress : Progress) (first second : Expansion) :
    progress.extend (first.append second) = (progress.extend first).extend second := by
  simp [extend, Expansion.append, Trace.recordAll, Nat.add_assoc]

theorem extend_after (progress : Progress) (site : Site) (rest : Expansion) :
    progress.extend (.after site rest) = (progress.add site).extend rest := by
  simp [extend, Expansion.after, add, Trace.recordAll, Nat.add_assoc]

@[simp] theorem add_of (progress : Progress) (node : Option Value) :
    progress.add (Site.of node) = progress := by
  simp [add, Site.of, Trace.recordAll]

end Progress

namespace Redirector

variable (redirector : Redirector) {node : Value} {site : Site}

theorem settle_of_ok {outcome : Outcome} (visited : redirector.visit node = (.ok outcome, site)) :
    redirector.settle node = .ofSite site none := by
  simp [settle, visited]

theorem settle_of_error {fault : Fault} (visited : redirector.visit node = (.error fault, site)) :
    redirector.settle node = .ofSite site (some fault) := by
  simp [settle, visited]

theorem expand_of_ne (once : ∀ site, redirector.visit node ≠ (.ok .reprocess, site)) :
    redirector.expand node = redirector.settle node := by
  rw [expand]
  split
  · next site visited => exact absurd visited (once site)
  · rfl

theorem expand_of_reprocess (again : redirector.visit node = (.ok .reprocess, site)) :
    redirector.expand node = .after site (.ofList redirector.settle site.statements) := by
  simp [expand, again]

/-- A statement is visited once, or its first visit says that it is to be visited again. -/
theorem once_or_again (node : Value) : (∀ site, redirector.visit node ≠ (.ok .reprocess, site)) ∨
    ∃ site, redirector.visit node = (.ok .reprocess, site) := by
  by_cases again : ∃ site, redirector.visit node = (.ok .reprocess, site)
  · exact .inr again
  · exact .inl fun site visited => again ⟨site, visited⟩

theorem moveTo_ne_reprocess (c : Classification) (moved : Except Fault Value) :
    redirector.moveTo c node moved ≠ (.ok .reprocess, site) := by
  cases moved <;> simp [moveTo]

theorem settleBinding_ne_reprocess (c : Classification) (moved : Except Fault Value) :
    redirector.settleBinding c node moved ≠ (.ok .reprocess, site) := by
  unfold settleBinding
  cases redirector.judge c.binding with
  | error fault => simp
  | ok verdict =>
    cases verdict with
    | unused => simp
    | blocked uncovered =>
      dsimp only
      cases diagnose c uncovered <;> simp
    | free => exact redirector.moveTo_ne_reprocess c moved

theorem settleFunction_ne_reprocess (c : Classification) (moved : Except Fault Value) :
    redirector.settleFunction c node moved ≠ (.ok .reprocess, site) := by
  unfold settleFunction
  split
  · exact redirector.moveTo_ne_reprocess c moved
  · simp

theorem settleNames_ne_reprocess (c : Classification) (source : Value) (specifiers : List Value) :
    redirector.settleNames c node source specifiers ≠ (.ok .reprocess, site) := by
  simp only [settleNames]
  split
  · simp
  · split
    · exact redirector.moveTo_ne_reprocess c _
    · cases Node.setText source redirector.replacement <;> simp

open Node in
/-- Only an import of both a default and names is visited again. -/
theorem combined_of_reprocess (again : redirector.visit node = (.ok .reprocess, site)) :
    ∃ source specifiers module, Imports node source specifiers ∧ text? source = some module ∧
      redirector.classifier.settings.isLegacy module = true ∧
      defaultSpecifier ∈ specifiers.map (·.peek "type") ∧
      namedSpecifier ∈ specifiers.map (·.peek "type") ∧
      site = splitSite node specifiers := by
  have cases := redirector.visited node
  generalize visited : redirector.visit node = result at cases again
  cases cases with
  | failed classified => simp at again
  | unrecognized classified shape => simp at again
  | combined imports text legacy someDefault someName =>
    exact ⟨_, _, _, imports, text, legacy, someDefault, someName, (Prod.mk.inj again).2.symm⟩
  | default => exact absurd again (redirector.settleBinding_ne_reprocess _ _)
  | named =>
    split at again
    · simp at again
    · exact absurd again (redirector.settleNames_ne_reprocess _ _ _)
  | singleImport => exact absurd again (redirector.settleFunction_ne_reprocess _ _)
  | requireModule => exact absurd again (redirector.settleBinding_ne_reprocess _ _)
  | singleRequire => exact absurd again (redirector.settleFunction_ne_reprocess _ _)

section Halves

open Node

variable {source : Value} {specifiers : List Value} (imports : Imports node source specifiers)

include imports

theorem once_others (site : Site) :
    redirector.visit (node.put "specifiers" (.arr (otherSpecifiers specifiers))) ≠
      (.ok .reprocess, site) := by
  intro again
  obtain ⟨_, found, _, foundImports, _, _, someDefault, _, _⟩ :=
    redirector.combined_of_reprocess again
  have others := imports.withSome (others_subset specifiers)
  have same := others.specifiers_eq.symm.trans foundImports.specifiers_eq
  obtain ⟨specifier, membership, type⟩ := List.mem_map.mp someDefault
  rw [← Value.arr.inj same] at membership
  exact (mem_others.mp membership).2 type

theorem once_defaults (site : Site) :
    redirector.visit (node.put "specifiers" (.arr (defaultSpecifiers specifiers))) ≠
      (.ok .reprocess, site) := by
  intro again
  obtain ⟨_, found, _, foundImports, _, _, _, someName, _⟩ :=
    redirector.combined_of_reprocess again
  have defaults := imports.withSome (defaults_subset specifiers)
  have same := defaults.specifiers_eq.symm.trans foundImports.specifiers_eq
  obtain ⟨specifier, membership, type⟩ := List.mem_map.mp someName
  rw [← Value.arr.inj same] at membership
  have isDefault := (mem_defaults.mp membership).2
  simp [type, namedSpecifier, defaultSpecifier] at isDefault

end Halves

/-- The halves of an import that is visited again are visited once. -/
theorem halves_once (again : redirector.visit node = (.ok .reprocess, site)) :
    ∃ others defaults, site.statements = [others, defaults] ∧
      (∀ site, redirector.visit others ≠ (.ok .reprocess, site)) ∧
      ∀ site, redirector.visit defaults ≠ (.ok .reprocess, site) := by
  obtain ⟨source, specifiers, module, imports, _, _, _, _, rfl⟩ :=
    redirector.combined_of_reprocess again
  exact ⟨_, _, rfl, redirector.once_others imports, redirector.once_defaults imports⟩

theorem walk_cons (visits : Nat) (done todo : List Value) (progress : Progress) :
    redirector.walk (visits + 1) done (node :: todo) progress =
      match redirector.visit node with
      | (.error fault, site) =>
        ⟨done.reverse ++ site.statements ++ todo, progress.add site, some fault⟩
      | (.ok .advance, site) | (.ok .skipInserted, site) =>
        redirector.walk visits (site.statements.reverse ++ done) todo (progress.add site)
      | (.ok .reprocess, site) =>
        redirector.walk visits done (site.statements ++ todo) (progress.add site) := by
  rw [walk, visit]
  cases classified : redirector.classifier.classify node with
  | error fault => simp [Progress.add_of, Site.statements_of]
  | ok c =>
    by_cases recognized : c.shape = .unrecognized
    · have applied : redirector.apply c (some node) = (.ok .advance, Site.of (some node)) := by
        simp [apply, handle, recognized]
      simp [recognized, applied, Progress.add_of, Site.statements_of]
    · simp only [beq_iff_eq, recognized, if_false]
      obtain ⟨outcome, site⟩ := redirector.apply c (some node)
      cases outcome with
      | error fault => rfl
      | ok outcome => cases outcome <;> rfl

theorem walk_settle (once : ∀ site, redirector.visit node ≠ (.ok .reprocess, site)) (visits : Nat)
    (done todo : List Value) (progress : Progress) :
    redirector.walk (visits + 1) done (node :: todo) progress =
      match (redirector.settle node).fault with
      | none => redirector.walk visits ((redirector.settle node).statements.reverse ++ done) todo
          (progress.extend (redirector.settle node))
      | some fault => ⟨done.reverse ++ (redirector.settle node).statements ++ todo,
          progress.extend (redirector.settle node), some fault⟩ := by
  rw [walk_cons]
  cases visited : redirector.visit node with
  | mk outcome site =>
    cases outcome with
    | error fault =>
      simp [redirector.settle_of_error visited, Expansion.ofSite, Progress.add, Progress.extend]
    | ok outcome =>
      cases outcome with
      | reprocess => exact absurd visited (once site)
      | _ => simp [redirector.settle_of_ok visited, Expansion.ofSite, Progress.add, Progress.extend]

/-- The walk over one statement, which takes three visits at most. -/
theorem walk_expand (node : Value) (visits : Nat) (done todo : List Value) (progress : Progress) :
    ∃ left, visits ≤ left ∧ redirector.walk (visits + 3) done (node :: todo) progress =
      match (redirector.expand node).fault with
      | none => redirector.walk left ((redirector.expand node).statements.reverse ++ done) todo
          (progress.extend (redirector.expand node))
      | some fault => ⟨done.reverse ++ (redirector.expand node).statements ++ todo,
          progress.extend (redirector.expand node), some fault⟩ := by
  rcases redirector.once_or_again node with once | ⟨site, again⟩
  · refine ⟨visits + 2, by omega, ?_⟩
    rw [redirector.expand_of_ne once]
    exact redirector.walk_settle once (visits + 2) done todo progress
  · -- The first visit puts the halves in its place, and each of them is visited once.
    obtain ⟨others, defaults, halves, othersOnce, defaultsOnce⟩ := redirector.halves_once again
    refine ⟨visits, Nat.le_refl _, ?_⟩
    rw [walk_cons, again, redirector.expand_of_reprocess again, Progress.extend_after]
    simp only [halves, List.cons_append, List.nil_append, Expansion.after, Expansion.ofList]
    rw [redirector.walk_settle othersOnce]
    cases firstFault : (redirector.settle others).fault with
    | some fault =>
      simp [Progress.extend]
    | none =>
      simp only [Expansion.append, Expansion.empty]
      rw [redirector.walk_settle defaultsOnce]
      cases secondFault : (redirector.settle defaults).fault with
      | some fault =>
        simp [Progress.extend, Trace.recordAll, Nat.add_assoc]
      | none =>
        simp [Progress.extend, Trace.recordAll, Nat.add_assoc]

def expandAll (body : List Value) : Expansion := .ofList redirector.expand body

theorem walk_eq (todo : List Value) {visits : Nat} (enough : 3 * todo.length ≤ visits)
    (done : List Value) (progress : Progress) :
    redirector.walk visits done todo progress =
      ⟨done.reverse ++ (redirector.expandAll todo).statements,
        progress.extend (redirector.expandAll todo), (redirector.expandAll todo).fault⟩ := by
  -- Every statement takes at most three of the visits, so the bound lasts for those that remain.
  induction todo generalizing visits done progress with
  | nil =>
    have ended : redirector.walk visits done [] progress = ⟨done.reverse, progress, none⟩ := by
      cases visits <;> simp [walk]
    simp [ended, expandAll, Expansion.ofList, Expansion.empty, Progress.extend, Trace.recordAll]
  | cons node rest inductionHypothesis =>
    obtain ⟨spare, rfl⟩ : ∃ spare, visits = spare + 3 :=
      ⟨visits - 3, by simp only [List.length_cons] at enough; omega⟩
    obtain ⟨left, atLeast, walked⟩ := redirector.walk_expand node spare done rest progress
    rw [walked, expandAll, Expansion.ofList]
    cases faulted : (redirector.expand node).fault with
    | some fault => simp [faulted, Progress.extend]
    | none =>
      have restEnough : 3 * rest.length ≤ left := by
        simp only [List.length_cons] at enough
        omega
      simp only [inductionHypothesis restEnough, Progress.extend_append, expandAll]
      simp [Expansion.append]

/-- The pass is the expansion of all statements: its bound on the visits is never reached. -/
theorem run_eq (body : List Value) (trace : Trace) :
    redirector.run body trace =
      ⟨(redirector.expandAll body).statements,
        (Progress.start trace).extend (redirector.expandAll body),
        (redirector.expandAll body).fault⟩ := by
  simp [run, redirector.walk_eq body (Nat.le_refl _)]

end Redirector

end ImportRedirect
