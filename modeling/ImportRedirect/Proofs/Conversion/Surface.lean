import ImportRedirect.Proofs.Conversion.Outcome
import ImportRedirect.Surface.Bundled

/-!
The surface that an engine works with. It is the one that was given, as long as that has a name; with
it the engine does what the bare pass does, and a binding is moved only to what the surface covers.
-/

namespace ImportRedirect

open Node Emit Script

namespace Engine

variable {settings : Settings} {given : Surface} {evidence : Evidence}
  {load : Settings → Except Fault Surface} {code : String} {tree : Tree}

theorem create_of_names (named : given.names ≠ []) :
    create settings (some given) evidence [] load = .ok ⟨settings, given, evidence⟩ := by
  have counted : (given.size == 0) = false := by
    rw [Surface.size, beq_eq_false_iff_ne, ne_eq, List.length_eq_zero_iff]
    exact named
  simp [create, counted, pure_eq_ok]

/-- A surface without names counts as none. -/
theorem create_of_no_names (unnamed : given.names = []) :
    create settings (some given) evidence [] load =
      (load settings).map fun loaded => ⟨settings, loaded, evidence⟩ := by
  have counted : (given.size == 0) = true := by simp [Surface.size, unnamed]
  simp only [create, counted, List.isEmpty_nil, if_true]
  cases load settings <;> rfl

/-- An engine with a given surface works with that one unless it has no names, in which case it loads
another. It then converts a script as the pass with its surface does, and moves a binding only to
functions of the replacement that the surface covers. -/
theorem create_given (answers : evidence.Answers) (parsed : parse code = .ok tree) :
    create settings (some given) evidence [] load =
        (if given.names = [] then load settings else .ok given).map
          (fun surface => ⟨settings, surface, evidence⟩) ∧
      ∀ engine, create settings (some given) evidence [] load = .ok engine →
        let redirector : Redirector := ⟨⟨settings, engine.surface⟩, evidence, code⟩
        let walked := redirector.run tree.body .empty
        let before := tree.body.flatMap (occurrences settings.requireCallee)
        ∃ conversion, engine.convert code = .ok conversion ∧
          conversion.diagnostics = walked.progress.diagnostics ∧
          splice code tree.body walked.body = .ok conversion.code ∧
          (walked.body.flatMap (bindings settings.requireCallee)).Perm
            (before.map redirector.moved) ∧
          ∀ occurrence ∈ before,
            redirector.redirect occurrence = occurrence.binding.referent ∨
              redirector.Backed occurrence.binding.target (redirector.redirect occurrence) := by
  have created : create settings (some given) evidence [] load =
      (if given.names = [] then load settings else .ok given).map
        (fun surface => ⟨settings, surface, evidence⟩) := by
    split
    · next unnamed => exact create_of_no_names unnamed
    · next named => exact create_of_names named
  refine ⟨created, ?_⟩
  intro engine result redirector walked before
  rw [created] at result
  obtain ⟨surface, _, rfl⟩ := map_eq_ok.mp result
  obtain ⟨conversion, converts, converted⟩ := convert_of_parse ⟨settings, surface, evidence⟩ parsed answers
  refine ⟨conversion, converts, converted.diagnostics, converted.written, ?_, ?_⟩
  · have moved : ((redirector.expandAll tree.body).statements.flatMap _).Perm _ :=
      (Redirector.expandAll_bindings answers (regular_of_parse parsed)).2
    simpa [walked, before, Redirector.run_eq] using moved
  · intro occurrence _
    exact redirector.kept_or_backed occurrence

/-- A surface with the one name of two that is covered. -/
theorem create_given_map :
    let code := "import{map,omit}from'lodash'"
    let given : Surface := .ofNames ["map"] [] none
    let load : Settings → Except Fault Surface := fun settings => .ok (.bundled settings.excludes)
    ∃ tree engine conversion, Evidence.Answers Usage.scan ∧ parse code = .ok tree ∧
      create .default (some given) Usage.scan [] load = .ok engine ∧ engine.surface = given ∧
      engine.convert code = .ok conversion ∧
      conversion.code = "import \x7b map \x7d from 'es-toolkit/compat';\n" ++
        "import \x7b omit \x7d from 'lodash';" := by
  intro code given load
  have read : (convert ⟨.default, given, Usage.scan⟩ code).toOption.any (fun conversion =>
      conversion.code == "import \x7b map \x7d from 'es-toolkit/compat';\n" ++
        "import \x7b omit \x7d from 'lodash';") = true := by decide +kernel
  cases parsed : parse code with
  | error offset => simp [convert, parsed, Except.toOption, code] at read
  | ok tree =>
    obtain ⟨created, uses⟩ := @create_given .default given _ load _ _ Usage.scan_answers parsed
    have engine : create .default (some given) Usage.scan [] load =
        .ok ⟨.default, given, Usage.scan⟩ := created
    obtain ⟨conversion, converts, _⟩ := uses _ engine
    rw [converts] at read
    exact ⟨tree, _, conversion, Usage.scan_answers, rfl, engine, rfl, converts,
      by simpa [Except.toOption] using read⟩

/-- A surface without names covers nothing, but an engine that it is given to moves a name. -/
theorem create_given_nothing :
    let code := "import{map}from'lodash'"
    let given : Surface := .ofNames [] [] none
    let load : Settings → Except Fault Surface := fun settings => .ok (.bundled settings.excludes)
    ∃ engine conversion, create .default (some given) Usage.scan [] load = .ok engine ∧
      given.covers "map" = false ∧ engine.surface.covers "map" = true ∧
      engine.convert code = .ok conversion ∧
      conversion.code = "import \x7b map \x7d from 'es-toolkit/compat';" := by
  intro code given load
  have read : (convert ⟨.default, .bundled [], Usage.scan⟩ code).toOption.any (fun conversion =>
      conversion.code == "import \x7b map \x7d from 'es-toolkit/compat';") = true := by
    decide +kernel
  cases converts : convert ⟨.default, .bundled [], Usage.scan⟩ code with
  | error fault => simp [converts, Except.toOption] at read
  | ok conversion =>
    rw [converts] at read
    exact ⟨_, conversion, rfl, rfl, by decide +kernel, converts,
      by simpa [Except.toOption] using read⟩

end Engine

end ImportRedirect
