import ImportRedirect.Proofs.Pass.Expansion

/-!
A pass over a list against the passes over its statements, each standing alone. Without a fault the
results are joined; a fault stops the pass at its statement, with everything before it done and
everything after it as it was.
-/

namespace ImportRedirect

/-- What is counted for each statement, added up. -/
def total (count : Value → Nat) (body : List Value) : Nat :=
  body.foldr (fun node others => count node + others) 0

theorem eq_zero_of_total {count : Value → Nat} {body : List Value} (none : total count body = 0) :
    ∀ node ∈ body, count node = 0 := by
  induction body with
  | nil => simp
  | cons first rest inductionHypothesis =>
    simp only [total, List.foldr_cons, Nat.add_eq_zero_iff] at none
    intro node membership
    rcases List.mem_cons.mp membership with rfl | later
    · exact none.1
    · exact inductionHypothesis none.2 node later

namespace Expansion

theorem append_empty {expansion : Expansion} (faultless : expansion.fault = none) :
    expansion.append empty = expansion := by
  cases expansion
  simp_all [append, empty]

theorem ofList_singleton (expand : Value → Expansion) (node : Value) :
    ofList expand [node] = expand node := by
  cases faulted : (expand node).fault with
  | none => simp [ofList, faulted, append_empty faulted]
  | some fault =>
    simp only [ofList, faulted, List.append_nil]
    rw [← faulted]

variable {expand : Value → Expansion}

theorem ofList_cons_of_faultless {node : Value} (faultless : (expand node).fault = none)
    (rest : List Value) :
    ofList expand (node :: rest) = (expand node).append (ofList expand rest) := by
  simp [ofList, faultless]

/-- A list whose expansion has no fault is expanded statement by statement. -/
theorem ofList_faultless {body : List Value} (faultless : (ofList expand body).fault = none) :
    (∀ node ∈ body, (expand node).fault = none) ∧
      (ofList expand body).statements = body.flatMap (fun node => (expand node).statements) ∧
      (ofList expand body).redirected = total (fun node => (expand node).redirected) body ∧
      (ofList expand body).split = total (fun node => (expand node).split) body ∧
      (ofList expand body).diagnostics = body.flatMap (fun node => (expand node).diagnostics) := by
  induction body with
  | nil => simp [ofList, empty, total]
  | cons node rest inductionHypothesis =>
    cases faulted : (expand node).fault with
    | some fault => simp [ofList, faulted] at faultless
    | none =>
      rw [ofList_cons_of_faultless faulted] at faultless ⊢
      obtain ⟨others, statements, redirected, split, diagnostics⟩ := inductionHypothesis faultless
      refine ⟨?_, ?_, ?_, ?_, ?_⟩
      · intro other membership
        rcases List.mem_cons.mp membership with rfl | membership
        · exact faulted
        · exact others other membership
      · simp [append, statements]
      · simp [append, redirected, total]
      · simp [append, split, total]
      · simp [append, diagnostics]

/-- The fault of a list is that of one of its statements, before which there is none. -/
theorem ofList_faulted {body : List Value} {fault : Fault}
    (faulted : (ofList expand body).fault = some fault) :
    ∃ before node after, body = before ++ node :: after ∧
      (∀ earlier ∈ before, (expand earlier).fault = none) ∧
      (expand node).fault = some fault ∧
      (ofList expand body).statements =
        before.flatMap (fun earlier => (expand earlier).statements) ++
          (expand node).statements ++ after := by
  induction body with
  | nil => simp [ofList, empty] at faulted
  | cons first rest inductionHypothesis =>
    cases here : (expand first).fault with
    | some other =>
      have same : other = fault := by simpa [ofList, here] using faulted
      subst same
      refine ⟨[], first, rest, rfl, by simp, here, ?_⟩
      simp [ofList, here]
    | none =>
      rw [ofList_cons_of_faultless here] at faulted ⊢
      obtain ⟨before, node, after, split, earlier, fault, statements⟩ :=
        inductionHypothesis faulted
      refine ⟨first :: before, node, after, by simp [split], ?_, fault, ?_⟩
      · intro other membership
        rcases List.mem_cons.mp membership with rfl | membership
        · exact here
        · exact earlier other membership
      · simp [append, statements]

end Expansion

namespace Redirector

variable (redirector : Redirector)

section Halves

open Node

variable {node : Value} {specifiers : List Value}
  (again : redirector.visit node = (.ok .reprocess, splitSite node specifiers))

include again

/-- What a pass makes of an import that is visited again is what its last visits make of the halves. -/
theorem expand_of_halves
    (faultless : (redirector.settle (node.put "specifiers" (.arr (otherSpecifiers specifiers)))).fault =
      none) :
    redirector.expand node = .after (splitSite node specifiers)
      ((redirector.settle (node.put "specifiers" (.arr (otherSpecifiers specifiers)))).append
        (redirector.settle (node.put "specifiers" (.arr (defaultSpecifiers specifiers))))) := by
  have halves : (splitSite node specifiers).statements =
    [node.put "specifiers" (.arr (otherSpecifiers specifiers)),
      node.put "specifiers" (.arr (defaultSpecifiers specifiers))] := rfl
  rw [redirector.expand_of_reprocess again, halves, Expansion.ofList_cons_of_faultless faultless,
    Expansion.ofList_singleton]

theorem faultless_halves (faultless : (redirector.expand node).fault = none) :
    (redirector.settle (node.put "specifiers" (.arr (otherSpecifiers specifiers)))).fault = none ∧
      (redirector.settle (node.put "specifiers" (.arr (defaultSpecifiers specifiers)))).fault =
        none := by
  rw [redirector.expand_of_reprocess again] at faultless
  have each := (Expansion.ofList_faultless faultless).1
  exact ⟨each _ (by simp [splitSite, Site.statements]), each _ (by simp [splitSite, Site.statements])⟩

end Halves

/-- The pass over a statement that stands alone. -/
theorem run_singleton (node : Value) (trace : Trace) :
    redirector.run [node] trace =
      ⟨(redirector.expand node).statements,
        (Progress.start trace).extend (redirector.expand node),
        (redirector.expand node).fault⟩ := by
  rw [run_eq, expandAll, Expansion.ofList_singleton]

/-- The pass over a list joins the passes over its statements, whatever traces they start with. -/
theorem run_concatenates (body : List Value) (trace other : Trace) :
    match (redirector.run body trace).fault with
    | none =>
      (∀ node ∈ body, (redirector.run [node] other).fault = none) ∧
      (redirector.run body trace).body =
        body.flatMap (fun node => (redirector.run [node] other).body) ∧
      (redirector.run body trace).progress.redirected =
        total (fun node => (redirector.run [node] other).progress.redirected) body ∧
      (redirector.run body trace).progress.split =
        total (fun node => (redirector.run [node] other).progress.split) body ∧
      (redirector.run body trace).progress.diagnostics =
        body.flatMap (fun node => (redirector.run [node] other).progress.diagnostics)
    | some fault =>
      ∃ before node after, body = before ++ node :: after ∧
        (∀ earlier ∈ before, (redirector.run [earlier] other).fault = none) ∧
        (redirector.run [node] other).fault = some fault ∧
        (redirector.run body trace).body =
          before.flatMap (fun earlier => (redirector.run [earlier] other).body) ++
            (redirector.run [node] other).body ++ after := by
  simp only [run_singleton]
  rw [run_eq]
  cases faulted : (redirector.expandAll body).fault with
  | none =>
    simpa [Progress.extend, Progress.start, expandAll] using Expansion.ofList_faultless faulted
  | some fault => exact Expansion.ofList_faulted faulted

end Redirector

end ImportRedirect
