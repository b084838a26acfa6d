import ImportRedirect.Proofs.Pass.Loop

/-!
What a pass reports, what it traces and what it does to the statements. The counters, the events, the
diagnostics and the list of statements change at different places of a visit; here they are held
against each other, first over one visit and then over a run.
-/

namespace ImportRedirect

namespace Happening

/-- The shape that was split. -/
def splitShape? : Happening → Option String
  | .split shape _ _ => some shape
  | _ => none

/-- The message of a warning. -/
def warning? : Happening → Option String
  | .warned message => some message
  | _ => none

end Happening

namespace Trace

def happenings (trace : Trace) : List Happening := trace.events.map (·.happening)

@[simp] theorem happenings_recordAll (trace : Trace) (happenings : List Happening) :
    (trace.recordAll happenings).happenings = trace.happenings ++ happenings := by
  induction happenings generalizing trace with
  | nil => simp [recordAll]
  | cons first rest inductionHypothesis =>
    rw [recordAll, List.foldl_cons, ← recordAll, inductionHypothesis]
    simp [record, append, Trace.happenings]

end Trace

/-- Counters, diagnostics and happenings that agree with each other. -/
structure Tallies (redirected split : Nat) (diagnostics : List Diagnostic)
    (happenings : List Happening) : Prop where
  split : split = happenings.countP (·.kind == "statement_split")
  redirected : redirected = happenings.countP (·.kind == "statement_mutation") +
    happenings.countP (·.splitShape? == some "named_import")
  warned : happenings.filterMap (·.warning?) = diagnostics.map (·.message)

namespace Tallies

theorem empty : Tallies 0 0 [] [] := ⟨rfl, rfl, rfl⟩

theorem append {redirected split redirected' split' : Nat}
    {diagnostics diagnostics' : List Diagnostic} {happenings happenings' : List Happening}
    (first : Tallies redirected split diagnostics happenings)
    (second : Tallies redirected' split' diagnostics' happenings') :
    Tallies (redirected + redirected') (split + split') (diagnostics ++ diagnostics')
      (happenings ++ happenings') where
  split := by rw [List.countP_append, ← first.split, ← second.split]
  redirected := by
    rw [List.countP_append, List.countP_append, first.redirected, second.redirected]
    omega
  warned := by rw [List.filterMap_append, List.map_append, first.warned, second.warned]

end Tallies

namespace Redirector

variable {redirector : Redirector} {node : Value} {outcome : Outcome} {site : Site}

/-- What one visit reports, and how it agrees with what the visit leaves. -/
structure Reports (redirector : Redirector) (node : Value) (site : Site) : Prop where
  tallies : Tallies site.redirected site.split site.diagnostics site.happenings
  sound : ∀ diagnostic ∈ site.diagnostics, redirector.Sound diagnostic
  grown : site.statements.length = 1 + site.split
  unchanged : site.redirected = 0 → site.split = 0 → site.statements = [node]

theorem reports_of_visit (visited : redirector.visit node = (.ok outcome, site)) :
    redirector.Reports node site := by
  cases accounts_of_visit visited with
  | passed => exact ⟨.empty, by simp [Site.of], rfl, fun _ _ => rfl⟩
  | kept => exact ⟨⟨rfl, rfl, rfl⟩, by simp [keptSite], rfl, fun _ _ => rfl⟩
  | warned _ _ _ sound => exact ⟨⟨rfl, rfl, rfl⟩, by simpa [keptSite] using sound, rfl, fun _ _ => rfl⟩
  | moved => exact ⟨⟨rfl, rfl, rfl⟩, by simp [movedSite], rfl, fun none => by simp [movedSite] at none⟩
  | halved => exact ⟨⟨rfl, rfl, rfl⟩, by simp [splitSite], rfl, fun _ none => by simp [splitSite] at none⟩
  | parted => exact ⟨⟨rfl, rfl, rfl⟩, by simp, rfl, fun none => by simp at none⟩

/-- A visit logs one event, and none when it finds nothing to handle. -/
theorem logs_of_visit (visited : redirector.visit node = (.ok outcome, site)) :
    ∃ shape, redirector.classifier.shape? node = some shape ∧
      site.happenings.length = if shape = .unrecognized then 0 else 1 := by
  cases accounts_of_visit visited with
  | passed known => exact ⟨_, known, rfl⟩
  | kept known recognized | warned known recognized | moved known recognized =>
    exact ⟨_, known, by rw [if_neg recognized]; rfl⟩
  | halved known | parted known => exact ⟨_, known, rfl⟩

/-- What the visits of a run log, in order. -/
def logged (redirector : Redirector) (visits : List Value) : List Happening :=
  visits.flatMap fun node => (redirector.visit node).2.happenings

/-- Where a pass stands: what it reports so far agrees with how the list differs from the one it
started with. -/
structure Tells (redirector : Redirector) (body now : List Value) (progress : Progress) : Prop where
  tallies : Tallies progress.redirected progress.split progress.diagnostics progress.trace.happenings
  sound : ∀ diagnostic ∈ progress.diagnostics, redirector.Sound diagnostic
  grown : now.length = body.length + progress.split
  unchanged : progress.redirected = 0 → progress.split = 0 → now = body

theorem tells_start (redirector : Redirector) (body : List Value) :
    redirector.Tells body body (.start .empty) :=
  ⟨.empty, by simp [Progress.start], rfl, fun _ _ => rfl⟩

variable {body : List Value} {standing next : Standing}

theorem Tells.moves (tells : redirector.Tells body standing.body standing.progress)
    (moves : redirector.Moves standing node next) :
    redirector.Tells body next.body next.progress := by
  obtain @⟨outcome, site, here, visited⟩ := moves
  obtain ⟨inside, found⟩ := List.getElem?_eq_some_iff.mp here
  have reports := reports_of_visit visited
  refine ⟨?_, fun diagnostic membership => ?_, ?_, fun noneMoved noneSplit => ?_⟩
  · simpa [Progress.add] using tells.tallies.append reports.tallies
  · rcases List.mem_append.mp membership with earlier | now
    · exact tells.sound diagnostic earlier
    · exact reports.sound diagnostic now
  · have grown := tells.grown
    simp only [Standing.replaced, Progress.add, List.length_append, List.length_take,
      List.length_drop, reports.grown]
    omega
  · obtain ⟨noneBefore, noneMoved⟩ := Nat.add_eq_zero_iff.mp noneMoved
    obtain ⟨noneBefore', noneSplit⟩ := Nat.add_eq_zero_iff.mp noneSplit
    rw [← tells.unchanged noneBefore noneBefore', Standing.replaced,
      reports.unchanged noneMoved noneSplit, ← found, List.append_assoc, List.singleton_append,
      List.getElem_cons_drop, List.take_append_drop]

/-- What holds of one visit holds of a run: its report agrees with its end, and it logs what its visits
log, one after the other. -/
theorem Tells.runs {visits : List Value} {walked : Walked}
    (tells : redirector.Tells body standing.body standing.progress)
    (runs : redirector.Runs standing visits walked) (completes : walked.fault = none) :
    redirector.Tells body walked.body walked.progress ∧
      walked.progress.trace.happenings =
        standing.progress.trace.happenings ++ redirector.logged visits ∧
      ∀ node ∈ visits, ∃ shape, redirector.classifier.shape? node = some shape ∧
        (redirector.visit node).2.happenings.length = if shape = .unrecognized then 0 else 1 := by
  induction runs with
  | ended => exact ⟨tells, by simp [logged], by simp⟩
  | stopped => cases completes
  | @moved standing next node visits walked moves _ inductionHypothesis =>
    obtain ⟨final, logs, each⟩ := inductionHypothesis (tells.moves moves) completes
    obtain @⟨outcome, site, here, visited⟩ := moves
    refine ⟨final, ?_, fun other membership => ?_⟩
    · rw [logs]
      simp [Progress.add, logged, visited]
    · rcases List.mem_cons.mp membership with rfl | later
      · simpa [visited] using logs_of_visit visited
      · exact each other later

/-- When a pass with a fresh trace completes, the events are those of its visits, one for each visit
but those that find nothing to handle. The counters count the events of their kind, the warnings are
the messages of the diagnostics, a diagnostic names what is used and not covered, the list has grown
by the splits, and it is the list it was when nothing is counted. -/
theorem run_reports (redirector : Redirector) (body : List Value)
    (completes : (redirector.run body .empty).fault = none) :
    let walked := redirector.run body .empty
    let happenings := walked.progress.trace.happenings
    (∃ visits, redirector.Runs ⟨body, 0, .start .empty⟩ visits walked ∧
      happenings = redirector.logged visits ∧
      ∀ node ∈ visits, ∃ shape, redirector.classifier.shape? node = some shape ∧
        (redirector.visit node).2.happenings.length = if shape = .unrecognized then 0 else 1) ∧
    walked.progress.split = happenings.countP (·.kind == "statement_split") ∧
    walked.body.length = body.length + walked.progress.split ∧
    walked.progress.redirected = happenings.countP (·.kind == "statement_mutation") +
      happenings.countP (·.splitShape? == some "named_import") ∧
    happenings.filterMap (·.warning?) = walked.progress.diagnostics.map (·.message) ∧
    (∀ diagnostic ∈ walked.progress.diagnostics, redirector.Sound diagnostic) ∧
    (walked.progress.redirected = 0 → walked.progress.split = 0 → walked.body = body) := by
  intro walked happenings
  obtain ⟨visits, runs, _⟩ := @runs_walk redirector [] body (.start .empty)
    (3 * body.length) (total_visitsOf_le body)
  obtain ⟨tells, logs, each⟩ := (redirector.tells_start body).runs runs completes
  exact ⟨⟨visits, runs, logs, each⟩,
    tells.tallies.split, tells.grown, tells.tallies.redirected, tells.tallies.warned, tells.sound,
    tells.unchanged⟩

/-- An import that is split twice: three visits, three events. -/
theorem run_reports_combinedImport :
    (mapRedirector.run [combinedImport] .empty).fault = none ∧
      ∃ visits, mapRedirector.Runs ⟨[combinedImport], 0, .start .empty⟩ visits
          (mapRedirector.run [combinedImport] .empty) ∧
        (mapRedirector.run [combinedImport] .empty).progress.trace.happenings =
          mapRedirector.logged visits := by
  have completes : (mapRedirector.run [combinedImport] .empty).fault = none := by decide
  obtain ⟨⟨visits, runs, logs, _⟩, _⟩ := run_reports mapRedirector [combinedImport] completes
  exact ⟨completes, visits, runs, logs⟩

end Redirector

end ImportRedirect
