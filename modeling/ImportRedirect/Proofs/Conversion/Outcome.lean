import ImportRedirect.Proofs.Script.Conversion

/-!
How the conversion of a script ends. A script that cannot be read comes back as it was, with the
reason; for every other script the pass over its statements completes, and what it leaves of them can
be put back into the text.
-/

namespace ImportRedirect

open Node Emit Script Text

namespace Redirector

variable {redirector : Redirector} {code : String} {tree : Tree}

/-- The trace that a pass goes on with has no part in what it does. -/
theorem run_trace (redirector : Redirector) (body : List Value) (trace other : Trace) :
    (redirector.run body trace).body = (redirector.run body other).body ∧
      (redirector.run body trace).fault = (redirector.run body other).fault ∧
      (redirector.run body trace).progress.diagnostics =
        (redirector.run body other).progress.diagnostics ∧
      (redirector.run body trace).progress.mutated =
        (redirector.run body other).progress.mutated := by
  rw [run_eq, run_eq]
  exact ⟨rfl, rfl, rfl, rfl⟩

/-- What a pass leaves of one statement. -/
def leaves (redirector : Redirector) (node : Value) : List Value :=
  (redirector.run [node] .empty).body

theorem leaves_eq (redirector : Redirector) (node : Value) :
    redirector.leaves node = (redirector.expand node).statements := by
  rw [leaves, run_singleton]

theorem run_of_parse (parsed : parse code = .ok tree) (answers : redirector.evidence.Answers)
    (trace : Trace) :
    (redirector.run tree.body trace).fault = none ∧
      (redirector.run tree.body trace).body = tree.body.flatMap redirector.leaves := by
  have faultless : (redirector.run tree.body trace).fault = none := by
    rw [run_eq]
    exact (expandAll_bindings answers (regular_of_parse parsed)).1
  have parts := redirector.run_concatenates tree.body trace .empty
  rw [faultless] at parts
  exact ⟨faultless, parts.2.1⟩

theorem replaces_leaves (parsed : parse code = .ok tree) (answers : redirector.evidence.Answers) :
    ∀ node ∈ tree.body, Replaces node (redirector.leaves node) := by
  intro node membership
  rw [leaves_eq]
  exact replaces_expand answers (regular_of_parse parsed node membership)
    (same_self_of_mem membership)

/-- What a pass leaves of a script can be put back into it. -/
theorem splice_run (redirector : Redirector) (parsed : parse code = .ok tree)
    (answers : redirector.evidence.Answers) (trace : Trace) :
    ∃ text, splice code tree.body (redirector.run tree.body trace).body = .ok text ∧
      Spliced (Utf8.encode code) redirector.leaves 0 tree.body (Utf8.encode text) := by
  rw [(run_of_parse parsed answers trace).2]
  exact splice_placed (placed_of_parse parsed) (replaces_leaves parsed answers)

/-- The text in which no statement changed is the text it was. -/
theorem eq_of_spliced {text : String} (parsed : parse code = .ok tree)
    (unchanged : ∀ node ∈ tree.body, redirector.leaves node = [node])
    (spliced : Spliced (Utf8.encode code) redirector.leaves 0 tree.body (Utf8.encode text)) :
    text = code :=
  Utf8.encode_injective (spliced.unique (spliced_of_unchanged (placed_of_parse parsed) unchanged))

theorem unchanged_of_not_mutated (parsed : parse code = .ok tree)
    (answers : redirector.evidence.Answers) {trace : Trace}
    (idle : (redirector.run tree.body trace).progress.mutated = false) :
    ∀ node ∈ tree.body, redirector.leaves node = [node] := by
  intro node membership
  rw [leaves_eq]
  exact expand_of_not_mutated answers (regular_of_parse parsed) idle node membership

end Redirector

namespace Engine

variable {engine : Engine} {code : String} {tree : Tree} {conversion : Conversion}

/-- The conversion of a script with these statements: the text is the one in which the statements
are replaced by those that the pass leaves, and the diagnostics are those of the pass. -/
structure Converted (engine : Engine) (code : String) (tree : Tree) (conversion : Conversion) :
    Prop where
  completes : ((engine.redirector code).run tree.body .empty).fault = none
  errors : conversion.errors = []
  diagnostics : conversion.diagnostics =
    ((engine.redirector code).run tree.body .empty).progress.diagnostics
  mutated : conversion.mutated =
    ((engine.redirector code).run tree.body .empty).progress.mutated
  written : splice code tree.body ((engine.redirector code).run tree.body .empty).body =
    .ok conversion.code
  spliced : Spliced (Utf8.encode code) (engine.redirector code).leaves 0 tree.body
    (Utf8.encode conversion.code)

theorem Converted.unchanged (converted : engine.Converted code tree conversion)
    (parsed : parse code = .ok tree)
    (kept : ∀ node ∈ tree.body, (engine.redirector code).leaves node = [node]) :
    conversion.code = code :=
  Redirector.eq_of_spliced parsed kept converted.spliced

theorem convert_of_parse (engine : Engine) (parsed : parse code = .ok tree)
    (answers : engine.evidence.Answers) :
    ∃ conversion, engine.convert code = .ok conversion ∧
      engine.Converted code tree conversion := by
  have same := (engine.redirector code).run_trace tree.body
  have faultless : ∀ trace, ((engine.redirector code).run tree.body trace).fault = none :=
    fun trace => (Redirector.run_of_parse parsed answers trace).1
  obtain ⟨text, written, spliced⟩ :=
    (engine.redirector code).splice_run parsed answers .empty
  simp only [convert, parsed, faultless]
  generalize running : ((Trace.empty.start _ _).start _ _).finish.start _ _ = trace
  obtain ⟨sameBody, _, sameDiagnostics, sameMutated⟩ := same trace .empty
  rw [sameBody, sameDiagnostics, sameMutated, written]
  cases mutated : ((engine.redirector code).run tree.body .empty).progress.mutated with
  | true => exact ⟨_, rfl, faultless _, rfl, rfl, mutated.symm, written, spliced⟩
  | false =>
    -- The text is not put together again, which would have given the same text.
    have kept : text = code := Redirector.eq_of_spliced parsed
      (Redirector.unchanged_of_not_mutated parsed answers mutated) spliced
    rw [kept] at written spliced
    exact ⟨_, rfl, faultless _, rfl, rfl, mutated.symm, written, spliced⟩

theorem convert_of_error (engine : Engine) {offset : Nat} (refused : parse code = .error offset) :
    ∃ conversion, engine.convert code = .ok conversion ∧
      conversion.errors = [s!"Parse Error: Syntax error near byte {offset}"] ∧
      conversion.code = code ∧ conversion.diagnostics = [] ∧ conversion.mutated = false := by
  simp only [convert, refused]
  exact ⟨_, rfl, rfl, rfl, rfl, rfl⟩

/-- A conversion ends unless the evidence fails. -/
theorem converts_always (engine : Engine) (answers : engine.evidence.Answers) (text : String) :
    ∃ conversion, engine.convert text = .ok conversion := by
  cases parsed : parse text with
  | error offset =>
    obtain ⟨conversion, converts, _⟩ := engine.convert_of_error parsed
    exact ⟨conversion, converts⟩
  | ok tree =>
    obtain ⟨conversion, converts, _⟩ := engine.convert_of_parse parsed answers
    exact ⟨conversion, converts⟩

end Engine

end ImportRedirect
