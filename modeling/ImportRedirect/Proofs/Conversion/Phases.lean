import ImportRedirect.Proofs.Conversion.Outcome
import ImportRedirect.Proofs.Pass.Loop
import ImportRedirect.Proofs.Trace.Nesting

/-!
The phases of a conversion. A pass only adds entries to the phase it finds open, and however a conversion
ends, each phase that it started has been ended by then.
-/

namespace ImportRedirect

namespace Trace

variable {trace : Trace} {phases : List Nat}

/-- A sound trace in which these phases are open. -/
def Stands (trace : Trace) (phases : List Nat) : Prop := Sound trace ∧ trace.openPhases = phases

theorem stands_empty : Stands empty [] := ⟨.empty, rfl⟩

theorem Stands.start (stands : Stands trace phases) (name detail : String) :
    Stands (trace.start name detail) (trace.events.length :: phases) :=
  ⟨stands.1.start name detail, congrArg (trace.events.length :: ·) stands.2⟩

theorem Stands.finish {phase : Nat} (stands : Stands trace (phase :: phases)) :
    Stands trace.finish phases :=
  ⟨stands.1.finish, by rw [Trace.finish, stands.2]⟩

theorem Stands.record {entry : Happening} (stands : Stands trace phases)
    (noStart : ∀ name detail, entry ≠ .phaseStart name detail) (noEnd : entry ≠ .phaseEnd) :
    Stands (trace.record entry) phases :=
  ⟨stands.1.record noStart noEnd, stands.2⟩

end Trace

namespace Redirector

open Trace

variable {redirector : Redirector} {standing next : Standing} {node : Value} {phases : List Nat}

/-- A visit leaves the phases alone. -/
theorem stands_moves (moves : redirector.Moves standing node next)
    (stands : Stands standing.progress.trace phases) : Stands next.progress.trace phases := by
  obtain ⟨_, visited⟩ := moves
  cases accounts_of_visit visited with
  | passed => exact stands
  | _ => exact stands.record (by simp) (by simp)

/-- A pass leaves the phases alone. -/
theorem stands_runs {visits : List Value} {walked : Walked}
    (runs : redirector.Runs standing visits walked) (completes : walked.fault = none)
    (stands : Stands standing.progress.trace phases) : Stands walked.progress.trace phases := by
  induction runs with
  | ended => exact stands
  | stopped => cases completes
  | moved moves _ inductionHypothesis =>
    exact inductionHypothesis completes (stands_moves moves stands)

theorem stands_run {body : List Value} {trace : Trace}
    (completes : (redirector.run body trace).fault = none) (stands : Stands trace phases) :
    Stands (redirector.run body trace).progress.trace phases := by
  obtain ⟨_, runs, _⟩ := @runs_walk redirector [] body (.start trace) (3 * body.length)
    (total_visitsOf_le body)
  exact stands_runs runs completes stands

end Redirector

namespace Engine

open Trace

/-- However a conversion ends, whether its script was read or not, changed or not, put together again
or not, its trace is balanced. -/
theorem balanced_convert {engine : Engine} {code : String} {conversion : Conversion}
    (converts : engine.convert code = .ok conversion) : Balanced conversion.trace.events := by
  have root := stands_empty.start "Rewrite Pipeline"
    ("legacy -> " ++ engine.settings.replacementModule)
  have reading := root.start "Parsing" "JavaScript -> ESTree"
  have passing := reading.finish.start "Rewrite Pass" "Classify, rewrite and split top-level statements"
  rw [convert] at converts
  dsimp only at converts
  split at converts
  · cases converts
    exact balanced_finish reading.finish.1 reading.finish.2
  · next tree _ =>
    split at converts
    · cases converts
    · next completes =>
      have passed := (Redirector.stands_run completes passing).finish
      have emitting := passed.start "Emission" "ESTree -> JavaScript"
      split at converts
      · split at converts
        · cases converts
          exact balanced_finish emitting.finish.1 emitting.finish.2
        · cases converts
          exact balanced_finish emitting.finish.1 emitting.finish.2
        · cases converts
      · cases converts
        exact balanced_finish passed.1 passed.2

/-- Whatever calls make a trace, its phases nest. The trace of a conversion is balanced, and there is
one for every script unless the evidence itself fails. -/
theorem convert_nested (engine : Engine) (code : String) (calls : List Happening) :
    Nested (Trace.ofCalls calls).events ∧
      (∀ conversion, engine.convert code = .ok conversion → Balanced conversion.trace.events) ∧
      (engine.evidence.Answers → ∃ conversion, engine.convert code = .ok conversion) := by
  exact ⟨(sound_ofCalls calls).nested, fun _ => balanced_convert,
    fun answers => engine.converts_always answers code⟩

/-- Calls that end more phases than they start, and a conversion that puts its script together again. -/
theorem convert_nested_surplus :
    let calls : List Happening := [.phaseEnd, .phaseStart "Reading" "", .warned "slow", .phaseEnd,
      .phaseEnd, .warned "late"]
    let engine : Engine := ⟨.default, .bundled [], Usage.scan⟩
    (Trace.ofCalls calls).events.map (·.parent) = [none, some 0, some 0, none] ∧
      Nested (Trace.ofCalls calls).events ∧ engine.evidence.Answers ∧
      ∃ conversion, engine.convert "import _ from'lodash';_.map" = .ok conversion ∧
        conversion.mutated = true ∧ Balanced conversion.trace.events := by
  intro calls engine
  obtain ⟨nested, balanced, ends⟩ := engine.convert_nested "import _ from'lodash';_.map" calls
  obtain ⟨conversion, converts⟩ := ends Usage.scan_answers
  have mutated : (engine.convert "import _ from'lodash';_.map").toOption.any (·.mutated) = true := by
    decide +kernel
  refine ⟨by decide, nested, Usage.scan_answers, conversion, converts, ?_, balanced _ converts⟩
  simpa [converts, Except.toOption] using mutated

end Engine

end ImportRedirect
