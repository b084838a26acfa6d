import ImportRedirect.Proofs.Command.Convert

/-!
What becomes of each file that is converted, and what the exit code tells about it. A file is
accomplished when it was read, converted and, if it has a target, written. The exit code tells this
of a single file. For a directory it is always zero: what failed is told in the report only.
-/

namespace ImportRedirect.Command

open Commanding Script Text Work World

variable {engine : Engine} {world before middle after : World} {job : Job} {pending : List Job}
  {result : JobResult} {results : List JobResult} {conversion other : Conversion}
  {content : List UInt8} {text : String} {target : Path}

/-- The source of a job is a script, and this is its conversion. -/
def Yields (engine : Engine) (world : World) (job : Job) (conversion : Conversion) : Prop :=
  ∃ content text tree, world.read job.source = .ok content ∧ Sources.decode content = .ok text ∧
    parse text = .ok tree ∧ engine.convert text = .ok conversion

/-- The source was read and converted, and the conversion was written where it was to go. -/
def Accomplished (engine : Engine) (before after : World) (job : Job) : Prop :=
  ∃ conversion, Yields engine before job conversion ∧
    ∀ target, job.target = some target → Written after target (Utf8.encode conversion.code)

/-- All that can become of a job. -/
inductive Handled (engine : Engine) (before : World) (job : Job) (result : JobResult)
    (after : World) : Prop where
  | unread
      (unreadable : ∀ content text, before.read job.source = .ok content →
        Sources.decode content ≠ .ok text)
      (failed : result.success = false) (shows : Saved [] [] before after)
  | refused {content : List UInt8} {text : String} {offset : Nat}
      (there : before.read job.source = .ok content) (decoded : Sources.decode content = .ok text)
      (rejected : parse text = .error offset) (failed : result.success = false)
      (traced : Saved job.trace.toList (Path.above job.trace.toList) before after)
  | shown {conversion : Conversion} (yields : Yields engine before job conversion)
      (untargeted : job.target = none) (succeeded : result.success = true)
      (traced : Saved job.trace.toList (Path.above job.trace.toList) before after)
  | delivered {conversion : Conversion} {target : Path} {middle finish : World}
      {outcome : Except FileError Unit} (yields : Yields engine before job conversion)
      (aimed : job.target = some target)
      (traced : Saved job.trace.toList (Path.above job.trace.toList) before middle)
      (saving : (Host.save target (Utf8.encode conversion.code) : Commanding _).run middle =
        (.ok outcome, finish))
      (told : result.success = true ↔ outcome = .ok ()) (shows : Saved [] [] finish after)

theorem Yields.unique (yields : Yields engine world job conversion)
    (again : Yields engine world job other) : other = conversion := by
  obtain ⟨content, text, tree, there, decoded, _, converts⟩ := yields
  obtain ⟨_, _, _, thereAgain, decodedAgain, _, convertsAgain⟩ := again
  obtain rfl := Except.ok.inj (there.symm.trans thereAgain)
  obtain rfl := Except.ok.inj (decoded.symm.trans decodedAgain)
  exact Except.ok.inj (convertsAgain.symm.trans converts)

theorem run_read_unreadable {path : Path}
    (unreadable : ∀ content text, world.read path = .ok content →
      Sources.decode content ≠ .ok text) :
    ∃ reason, (Sources.read path : Commanding _).run world = (.ok (.error reason), world) := by
  rw [Sources.read, run_bind_ok (run_read path world)]
  cases there : world.read path with
  | error problem => exact ⟨_, rfl⟩
  | ok content =>
    dsimp only
    cases decoded : Sources.decode content with
    | error error => exact ⟨_, rfl⟩
    | ok text => exact absurd decoded (unreadable content text there)

/-- The log and the trace come before the conversion is delivered. -/
theorem run_convertText_traced (converts : engine.convert text = .ok conversion) (job : Job)
    (world : World) :
    ∃ middle, Saved job.trace.toList (Path.above job.trace.toList) world middle ∧
      (convertText engine job text : Commanding JobResult).run world =
        (if conversion.success then deliver job conversion
          else do
            let errors := "; ".intercalate conversion.errors
            Host.log .error s!"Failed to convert {job.source.text}: {errors}"
            return ⟨conversion.errors, []⟩ : Commanding JobResult).run middle := by
  obtain ⟨_, logged, logs, (shows : Saved job.trace.toList (Path.above job.trace.toList) world
    logged)⟩ := saves_log conversion world
  rw [convertText, run_bind_ok (run_ofExcept converts world), run_bind_ok logs]
  cases traced : job.trace with
  | none =>
    rw [traced] at shows
    exact ⟨logged, shows, rfl⟩
  | some path =>
    rw [traced] at shows
    obtain ⟨_, middle, traces, saved⟩ := saves_saveTrace path conversion.trace logged
    refine ⟨middle, shows.trans saved, ?_⟩
    dsimp only
    rw [run_bind_ok traces]

theorem handled_deliver (yields : Yields engine before job conversion)
    (traced : Saved job.trace.toList (Path.above job.trace.toList) before middle) :
    ∃ result after, (deliver job conversion : Commanding JobResult).run middle =
        (.ok result, after) ∧ Handled engine before job result after := by
  cases aimed : job.target with
  | none =>
    simp only [deliver, aimed]
    exact ⟨_, _, rfl, .shown yields aimed rfl (traced.trans (Saved.put _ _))⟩
  | some target =>
    obtain ⟨outcome, finish, saving, _⟩ := saves_save target (Utf8.encode conversion.code) middle
    simp only [deliver, aimed]
    rw [run_bind_ok saving]
    cases outcome with
    | error error =>
      have failed : (JobResult.failed error.message).success = false := rfl
      exact ⟨_, _, rfl, .delivered yields aimed traced saving (by simp [failed]) (Saved.put _ _)⟩
    | ok =>
      have succeeded : (⟨[], conversion.diagnostics⟩ : JobResult).success = true := rfl
      exact ⟨_, _, rfl, .delivered yields aimed traced saving (by simp [succeeded]) (Saved.put _ _)⟩

theorem handled_convertText (answers : engine.evidence.Answers)
    (there : before.read job.source = .ok content) (decoded : Sources.decode content = .ok text) :
    ∃ result after, (convertText engine job text : Commanding JobResult).run before =
        (.ok result, after) ∧ Handled engine before job result after := by
  cases parsed : parse text with
  | error offset =>
    obtain ⟨conversion, converts, errors, _⟩ := engine.convert_of_error parsed
    obtain ⟨middle, traced, ran⟩ := run_convertText_traced converts job before
    have failed : conversion.success = false := by simp [Conversion.success, errors]
    rw [ran, failed]
    refine ⟨_, _, rfl, .refused there decoded parsed ?_ (traced.trans (Saved.put _ _))⟩
    simp [JobResult.success, errors]
  | ok tree =>
    obtain ⟨conversion, converts, converted⟩ := engine.convert_of_parse parsed answers
    obtain ⟨middle, traced, ran⟩ := run_convertText_traced converts job before
    have succeeded : conversion.success = true := by simp [Conversion.success, converted.errors]
    rw [ran, succeeded]
    exact handled_deliver ⟨content, text, tree, there, decoded, parsed, converts⟩ traced

/-- Converting a file ends in one of the ways in which a job is handled. -/
theorem handled_convertFile (answers : engine.evidence.Answers) (job : Job) (before : World) :
    ∃ result after, (convertFile engine job : Commanding JobResult).run before =
        (.ok result, after) ∧ Handled engine before job result after := by
  by_cases readable : ∃ content text, before.read job.source = .ok content ∧
      Sources.decode content = .ok text
  · obtain ⟨content, text, there, decoded⟩ := readable
    rw [convertFile, run_bind_ok (run_read_source there decoded)]
    exact handled_convertText answers there decoded
  · have unreadable : ∀ content text, before.read job.source = .ok content →
        Sources.decode content ≠ .ok text := fun content text there decoded =>
      readable ⟨content, text, there, decoded⟩
    obtain ⟨reason, ran⟩ := run_read_unreadable unreadable
    rw [convertFile, run_bind_ok ran]
    exact ⟨_, _, rfl, .unread unreadable rfl (Saved.put _ _)⟩

namespace Handled

theorem success_iff (handled : Handled engine before job result after) :
    result.success = true ↔ Accomplished engine before after job := by
  cases handled with
  | unread unreadable failed =>
    rw [failed]
    refine iff_of_false (by simp) ?_
    rintro ⟨_, ⟨content, text, _, there, decoded, _⟩, _⟩
    exact unreadable content text there decoded
  | refused there decoded rejected failed =>
    rw [failed]
    refine iff_of_false (by simp) ?_
    rintro ⟨_, ⟨_, _, _, thereAgain, decodedAgain, parsed, _⟩, _⟩
    obtain rfl := Except.ok.inj (there.symm.trans thereAgain)
    obtain rfl := Except.ok.inj (decoded.symm.trans decodedAgain)
    simp [rejected] at parsed
  | shown yields untargeted succeeded =>
    exact iff_of_true succeeded ⟨_, yields, by simp [untargeted]⟩
  | @delivered conversion target middle finish outcome yields aimed _ saving told shows =>
    rw [told, run_save_iff saving]
    constructor
    · intro written
      refine ⟨conversion, yields, fun other again => ?_⟩
      obtain rfl := Option.some.inj (aimed.symm.trans again)
      exact ⟨(shows.at?_eq _).trans written.within, (shows.at?_eq _).trans written.stands⟩
    · rintro ⟨other, again, written⟩
      obtain rfl := yields.unique again
      have stands := written target aimed
      exact ⟨(shows.at?_eq _).symm.trans stands.within,
        (shows.at?_eq _).symm.trans stands.stands⟩

theorem saved (handled : Handled engine before job result after) :
    Saved job.places (Path.above job.places) before after := by
  have traces : job.trace.toList ⊆ job.places := List.subset_append_left _ _
  cases handled with
  | unread _ _ shows => exact shows.mono (List.nil_subset _) (List.nil_subset _)
  | refused _ _ _ _ traced => exact traced.mono traces (Path.above_subset traces)
  | shown _ _ _ traced => exact traced.mono traces (Path.above_subset traces)
  | @delivered conversion target middle finish outcome yields aimed traced saving told shows =>
    have among : [target] ⊆ job.places := by simp [Job.places, aimed]
    obtain ⟨_, _, again, saved⟩ := saves_save target (Utf8.encode conversion.code) middle
    obtain ⟨_, rfl⟩ := Prod.mk.inj (saving.symm.trans again)
    exact (traced.mono traces (Path.above_subset traces)).trans
      ((saved.mono among (Path.above_subset among)).trans
        (shows.mono (List.nil_subset _) (List.nil_subset _)))

end Handled

/-- Jobs are handled one after the other, whatever becomes of each. The result of a job is a success
exactly when it was accomplished. -/
inductive Batch (engine : Engine) : World → List Job → List JobResult → World → Prop where
  | nil {before after : World} (shows : Saved [] [] before after) : Batch engine before [] [] after
  | cons {before start middle after : World} {job : Job} {pending : List Job} {result : JobResult}
      {results : List JobResult} (shows : Saved [] [] before start)
      (handled : Handled engine start job result middle)
      (told : result.success = true ↔ Accomplished engine start middle job)
      (rest : Batch engine middle pending results after) :
      Batch engine before (job :: pending) (result :: results) after

namespace Batch

theorem after_shows {start : World} (shows : Saved [] [] before start)
    (batch : Batch engine start pending results after) : Batch engine before pending results after := by
  cases batch with
  | nil more => exact .nil (shows.trans more)
  | cons more handled told rest => exact .cons (shows.trans more) handled told rest

theorem before_shows {finish : World} (batch : Batch engine before pending results finish)
    (shows : Saved [] [] finish after) : Batch engine before pending results after := by
  induction batch with
  | nil more => exact .nil (more.trans shows)
  | cons more handled told _ inductionHypothesis =>
    exact .cons more handled told (inductionHypothesis shows)

/-- The jobs of a directory make a batch. -/
theorem of_mapM {ι : Type} (answers : engine.evidence.Answers) (jobOf : ι → Job)
    (label : ι → String) (items : List ι) (world : World) :
    ∃ results after, (items.mapM (fun item => do
          let result ← convertFile engine (jobOf item)
          return (label item, result)) : Commanding _).run world = (.ok results, after) ∧
      Batch engine world (items.map jobOf) (results.map (·.2)) after := by
  induction items generalizing world with
  | nil => exact ⟨[], world, rfl, .nil (.refl world)⟩
  | cons first rest inductionHypothesis =>
    obtain ⟨result, middle, ran, handled⟩ := handled_convertFile answers (jobOf first) world
    obtain ⟨results, after, continued, batch⟩ := inductionHypothesis middle
    refine ⟨(label first, result) :: results, after, ?_,
      .cons (.refl world) handled handled.success_iff batch⟩
    rw [List.mapM_cons, run_bind, run_bind_ok ran, run_pure]
    dsimp only
    rw [run_bind_ok continued, run_pure]

end Batch

variable {request : ConvertRequest} {settings : Settings} {surface : Surface} {output : Path}
  {kind : EntryKind}

theorem code_convertSingle (answers : engine.evidence.Answers) (request : ConvertRequest)
    (world : World) :
    ∃ code result after, (convertSingle engine request : Commanding Nat).run world =
        (.ok code, after) ∧ (code = 0 ∨ code = 1) ∧
      Batch engine world [⟨request.input, request.output, request.trace⟩] [result] after ∧
      (code = 0 ↔ Accomplished engine world after ⟨request.input, request.output, request.trace⟩) := by
  obtain ⟨result, middle, ran, handled⟩ :=
    handled_convertFile answers ⟨request.input, request.output, request.trace⟩ world
  have told := handled.success_iff
  rw [convertSingle, run_bind_ok ran]
  cases success : result.success with
  | false =>
    rw [success] at told
    refine ⟨1, result, middle, rfl, .inr rfl,
      .cons (.refl world) handled handled.success_iff (.nil (.refl middle)), ?_⟩
    simpa using told
  | true =>
    obtain ⟨_, after, reported, (shows : Saved [] [] middle after)⟩ :=
      saves_report [(request.input.name, result)] middle
    rw [success] at told
    refine ⟨0, result, after, ?_, .inl rfl,
      .cons (.refl world) handled handled.success_iff (.nil shows), ?_⟩
    · rw [if_pos rfl, run_bind_ok reported]
      rfl
    · have accomplished := told.mp rfl
      refine iff_of_true rfl ?_
      obtain ⟨conversion, yields, written⟩ := accomplished
      exact ⟨conversion, yields, fun target aimed =>
        ⟨(shows.at?_eq _).trans (written target aimed).within,
          (shows.at?_eq _).trans (written target aimed).stands⟩⟩

theorem code_convertDirectory (answers : engine.evidence.Answers)
    (aimed : request.output = some output) (world : World) :
    ∃ results after, (convertDirectory engine request : Commanding Nat).run world =
        (.ok 0, after) ∧
      Batch engine world ((Sources.select engine.settings.extensions
        (world.filesBelow request.input)).map (jobFor request.input output request.trace.isSome))
        results after := by
  simp only [convertDirectory, aimed]
  rw [run_bind_ok (run_collect _ _ world)]
  generalize Sources.select engine.settings.extensions (world.filesBelow request.input) = sources
  by_cases none : sources.isEmpty = true
  · obtain rfl := List.isEmpty_iff.mp none
    exact ⟨[], _, rfl, .nil (.put world _)⟩
  · rw [if_neg none, run_bind_ok (run_log _ _ _)]
    obtain ⟨results, middle, ran, batch⟩ :=
      Batch.of_mapM answers (jobFor request.input output request.trace.isSome)
        (fun names => Path.text ⟨"", names⟩) sources (world.put _)
    obtain ⟨_, after, reported, (shows : Saved [] [] middle after)⟩ := saves_report results middle
    rw [run_bind_ok ran, run_bind_ok reported]
    exact ⟨_, after, rfl, (batch.after_shows (.put world _)).before_shows shows⟩

def convertKind (engine : Engine) (request : ConvertRequest) : EntryKind → Commanding Nat
  | .file => convertSingle engine request
  | .directory => convertDirectory engine request

/-- Once the settings and the surface are there, what stands at the input is converted. -/
theorem runConvert_eq (stands : world.kind? request.input = some kind)
    (settled : ((settingsAround request.overrides request.input : Commanding _).run world).1 =
      .ok settings)
    (loaded : ((loadSurface settings : Commanding _).run world).1 = .ok (.ok surface)) :
    (runConvert request : Commanding Nat).run world =
      (convertKind ⟨settings, surface, Usage.scan⟩ request kind).run world := by
  obtain ⟨found, ran⟩ := reads_settingsAround request.overrides request.input world
  rw [ran] at settled
  obtain rfl : found = .ok settings := settled
  rw [runConvert, run_bind_ok (run_kind? _ _), stands]
  dsimp only
  rw [run_bind_ok ran, run_bind_ok (run_withSurface loaded)]
  cases kind <;> rfl

/-- The exit code of a conversion is zero or one. For a single file it is zero exactly when the file
was accomplished. For a directory it is zero whatever became of the files in it. -/
theorem runConvert_code (stands : world.kind? request.input = some kind)
    (asks : kind = .directory → request.output ≠ none)
    (settled : ((settingsAround request.overrides request.input : Commanding _).run world).1 =
      .ok settings)
    (loaded : ((loadSurface settings : Commanding _).run world).1 = .ok (.ok surface)) :
    let engine : Engine := ⟨settings, surface, Usage.scan⟩
    ∃ code results after, (runConvert request : Commanding Nat).run world = (.ok code, after) ∧
      (code = 0 ∨ code = 1) ∧ Batch engine world (jobs request settings world) results after ∧
      (kind = .file →
        (code = 0 ↔ ∀ job ∈ jobs request settings world, Accomplished engine world after job)) ∧
      (kind = .directory → code = 0) := by
  intro engine
  have answers : engine.evidence.Answers := Usage.scan_answers
  rw [runConvert_eq stands settled loaded]
  cases kind with
  | file =>
    obtain ⟨code, result, after, ends, zeroOrOne, batch, told⟩ :=
      code_convertSingle answers request world
    simp only [jobs, stands]
    exact ⟨code, [result], after, ends, zeroOrOne, batch, fun _ => by simpa using told, by simp⟩
  | directory =>
    obtain ⟨output, aimed⟩ := Option.ne_none_iff_exists'.mp (asks rfl)
    obtain ⟨results, after, ends, batch⟩ := code_convertDirectory answers aimed world
    simp only [jobs, stands, aimed]
    exact ⟨0, results, after, ends, .inl rfl, batch, by simp, fun _ => rfl⟩

/-- A single file that is a script. -/
theorem runConvert_code_single :
    let world : World := ⟨⟨[(["a.js"], .file (Utf8.encode "import{map}from'lodash'"))]⟩,
      ⟨"/", []⟩, []⟩
    let job : Job := ⟨⟨"", ["a.js"]⟩, some ⟨"", ["b.js"]⟩, none⟩
    let request : ConvertRequest := ⟨job.source, job.target, none, ⟨[], none, none⟩⟩
    let engine : Engine := ⟨.default, .bundled [], Usage.scan⟩
    world.kind? request.input = some .file ∧ (EntryKind.file = .directory → request.output ≠ none) ∧
      ((settingsAround request.overrides request.input : Commanding _).run world).1 =
        .ok .default ∧
      ((loadSurface .default : Commanding _).run world).1 = .ok (.ok engine.surface) ∧
      jobs request .default world = [job] ∧
      ∃ code results after, (runConvert request : Commanding Nat).run world = (.ok code, after) ∧
        (code = 0 ∨ code = 1) ∧ Batch engine world [job] results after ∧
        (code = 0 ↔ Accomplished engine world after job) := by
  intro world job request engine
  have stands : world.kind? request.input = some .file := by decide +kernel
  have asks : EntryKind.file = .directory → request.output ≠ none := by simp
  have settled : ((settingsAround request.overrides request.input : Commanding _).run world).1 =
      .ok .default := by rfl
  have loaded : ((loadSurface .default : Commanding _).run world).1 = .ok (.ok engine.surface) := by
    rfl
  have asked : jobs request .default world = [job] := by
    simp only [jobs, stands]
    rfl
  obtain ⟨code, results, after, ran, zeroOrOne, batch, told, _⟩ :=
    runConvert_code stands asks settled loaded
  rw [asked] at batch told
  exact ⟨stands, asks, settled, loaded, asked, code, results, after, ran, zeroOrOne, batch,
    by simpa using told rfl⟩

/-- A directory with a file that is no script. -/
theorem runConvert_code_rejected :
    let world : World := ⟨⟨[(["in"], .directory), (["in", "a.js"], .file (Utf8.encode "("))]⟩,
      ⟨"/", []⟩, []⟩
    let job : Job := ⟨⟨"", ["in", "a.js"]⟩, some ⟨"", ["out", "a.js"]⟩, none⟩
    let request : ConvertRequest := ⟨⟨"", ["in"]⟩, some ⟨"", ["out"]⟩, none, ⟨[], none, none⟩⟩
    let engine : Engine := ⟨.default, .bundled [], Usage.scan⟩
    let ran := (runConvert request : Commanding Nat).run world
    jobs request .default world = [job] ∧ ran.1.toOption = some 0 ∧
      ¬ Accomplished engine world ran.2 job := by
  intro world job request engine ran
  refine ⟨?_, by decide +kernel, ?_⟩
  · have isDirectory : world.kind? request.input = some .directory := by decide +kernel
    have found : (world.filesBelow request.input).filter
        (Sources.isSource Settings.default.extensions) = [["a.js"]] := by decide +kernel
    simp only [jobs, isDirectory, Sources.select, found, List.mergeSort_singleton]
    rfl
  · rintro ⟨_, ⟨content, text, tree, there, decoded, parsed, _⟩, _⟩
    have same : world.read job.source = .ok (Utf8.encode "(") := read_eq_ok.mpr (by decide +kernel)
    obtain rfl := Except.ok.inj (same.symm.trans there)
    have plain : Sources.decode (Utf8.encode "(") = .ok "(" :=
      Sources.decode_encode_of_not_mem (by decide +kernel)
    obtain rfl := Except.ok.inj (plain.symm.trans decoded)
    have rejected : (parse "(").toOption.isNone = true := by decide +kernel
    simp [parsed, Except.toOption] at rejected

end ImportRedirect.Command
