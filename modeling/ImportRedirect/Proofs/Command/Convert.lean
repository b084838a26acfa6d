import ImportRedirect.Proofs.Command.Job

/-!
The conversion command. It reads the settings and the surface, which changes nothing, and then
converts one file or all sources in a directory.
-/

namespace ImportRedirect.Command

open Commanding Script Text Work World

variable {α β : Type} {world : World} {request : ConvertRequest} {settings : Settings}
  {surface : Surface} {output : Path}

/-- Work that only reads. -/
def Reads (action : Commanding α) : Prop :=
  ∀ world, ∃ result, action.run world = (result, world)

theorem reads_pure (value : α) : Reads (pure value) := fun _ => ⟨_, rfl⟩

theorem Reads.bind {first : Commanding α} {next : α → Commanding β} (starts : Reads first)
    (follows : ∀ value, Reads (next value)) : Reads (first >>= next) := by
  intro world
  obtain ⟨result, ran⟩ := starts world
  rw [run_bind, ran]
  cases result with
  | error fault => exact ⟨_, rfl⟩
  | ok value => exact follows value world

theorem reads_kind? (path : Path) : Reads (Host.kind? path) := fun _ => ⟨_, rfl⟩

theorem reads_read (path : Path) : Reads (Host.read path) := fun _ => ⟨_, rfl⟩

theorem reads_workingDirectory : Reads Host.workingDirectory := fun _ => ⟨_, rfl⟩

theorem reads_ofExcept (result : Except Fault α) : Reads (ofExcept result : Commanding α) := by
  intro world
  cases result <;> exact ⟨_, rfl⟩

theorem reads_findProject? (directories : List Path) :
    Reads (Settings.findProject? directories : Commanding _) := by
  induction directories with
  | nil => exact reads_pure none
  | cons first rest inductionHypothesis =>
    apply (reads_kind? _).bind
    intro kind
    split
    · exact reads_pure _
    · exact inductionHypothesis

theorem reads_findEntries (start : Path) : Reads (Settings.findEntries start : Commanding _) := by
  apply (reads_findProject? _).bind
  intro found
  cases found with
  | none => exact reads_pure _
  | some directory =>
    apply (reads_read _).bind
    intro result
    cases result with
    | error problem => exact reads_pure _
    | ok content => exact (reads_ofExcept _).bind fun _ => reads_pure _

theorem reads_settingsAround (overrides : Overrides) (input : Path) :
    Reads (settingsAround overrides input) := by
  apply (reads_kind? input).bind
  intro kind
  apply reads_workingDirectory.bind
  intro directory
  apply (reads_findEntries _).bind
  intro found
  exact reads_ofExcept _

theorem reads_loadSurface (settings : Settings) : Reads (loadSurface settings) := by
  rw [loadSurface]
  cases settings.surfacePath with
  | none => exact reads_pure _
  | some path => exact (reads_read path).bind fun _ => reads_pure _

theorem run_withSurface
    (loaded : ((loadSurface settings : Commanding _).run world).1 = .ok (.ok surface)) :
    (withSurface settings : Commanding _).run world = (.ok (some surface), world) := by
  obtain ⟨result, ran⟩ := reads_loadSurface settings world
  rw [ran] at loaded
  obtain rfl : result = .ok (.ok surface) := loaded
  rw [withSurface, run_bind_ok ran]
  rfl

/-- The files that a request asks to convert, in the order in which they are handled. -/
def jobs (request : ConvertRequest) (settings : Settings) (world : World) : List Job :=
  match world.kind? request.input, request.output with
  | none, _ | some .directory, none => []
  | some .file, output => [⟨request.input, output, request.trace⟩]
  | some .directory, some output =>
    (Sources.select settings.extensions (world.filesBelow request.input)).map
      (jobFor request.input output request.trace.isSome)

theorem saves_report {files directories : List Path} (results : List (String × JobResult)) :
    Saves files directories (report results : Commanding Unit) := by
  unfold report
  dsimp only
  split
  · exact saves_put _
  · exact (saves_put _).bind fun _ => saves_put _

/-- What stands where a file was written stands there after the report. -/
theorem run_report (results : List (String × JobResult)) (world : World) :
    ∃ after, (report results : Commanding Unit).run world = (.ok (), after) ∧
      ∀ path content, world.at? path = some (.file content) →
        after.at? path = some (.file content) := by
  obtain ⟨_, after, ran, (saved : Saved [] [] world after)⟩ := saves_report results world
  exact ⟨after, ran, fun _ _ stands => saved.at?_of_file (by simp) stands⟩

variable {engine : Engine} {target : Path} {content : List UInt8} {text : String} {tree : Tree}

theorem run_convertSingle (answers : engine.evidence.Answers)
    (apart : (Job.places ⟨request.input, request.output, request.trace⟩).Pairwise (Apart world)) :
    ∃ code after, (convertSingle engine request : Commanding Nat).run world = (.ok code, after) ∧
      ∀ target content text tree,
        Ready world ⟨request.input, request.output, request.trace⟩ target content text tree →
        code = 0 ∧ ∃ written, after.at? target = some (.file written) ∧
          Copy engine content text tree written := by
  obtain ⟨result, middle, ran, _⟩ :=
    saves_convertFile answers ⟨request.input, request.output, request.trace⟩ world
  rw [convertSingle, run_bind_ok ran]
  cases success : result.success with
  | false =>
    refine ⟨1, middle, rfl, ?_⟩
    intro target content text tree ready
    obtain ⟨_, _, again, flawless, _⟩ := run_convertFile answers apart ready
    obtain ⟨isResult, _⟩ := Prod.mk.inj (ran.symm.trans again)
    obtain rfl := Except.ok.inj isResult
    rw [JobResult.success, flawless] at success
    simp at success
  | true =>
    obtain ⟨after, reported, keeps⟩ := run_report [(request.input.name, result)] middle
    refine ⟨0, after, ?_, ?_⟩
    · rw [if_pos rfl, run_bind_ok reported]
      rfl
    · intro target content text tree ready
      obtain ⟨_, _, again, _, written, stands, copy⟩ := run_convertFile answers apart ready
      obtain ⟨_, rfl⟩ := Prod.mk.inj (ran.symm.trans again)
      exact ⟨rfl, written, keeps target written stands, copy⟩

theorem run_convertDirectory (answers : engine.evidence.Answers)
    (aimed : request.output = some output)
    (undisturbed : Undisturbed world ((Sources.select engine.settings.extensions
      (world.filesBelow request.input)).map (jobFor request.input output request.trace.isSome))) :
    ∃ after, (convertDirectory engine request : Commanding Nat).run world = (.ok 0, after) ∧
      ∀ job ∈ (Sources.select engine.settings.extensions (world.filesBelow request.input)).map
        (jobFor request.input output request.trace.isSome), Copies engine world after job := by
  simp only [convertDirectory, aimed]
  rw [run_bind_ok (run_collect _ _ world)]
  generalize Sources.select engine.settings.extensions (world.filesBelow request.input) =
    sources at *
  cases sources with
  | nil =>
    simp only [List.isEmpty_nil, if_true]
    exact ⟨_, rfl, by simp⟩
  | cons first rest =>
    -- What is shown first changes nothing that the jobs need.
    have shows : ∀ output, Saved [] (Path.above []) world (world.put output) := Saved.put world
    simp only [List.isEmpty_cons]
    rw [if_neg (by simp), run_bind_ok (run_log _ _ _)]
    obtain ⟨results, middle, ran, _, copies⟩ :=
      run_mapM_convertFile answers (jobFor request.input output request.trace.isSome)
        (fun names => Path.text ⟨"", names⟩) (undisturbed.saved (shows _))
    obtain ⟨after, reported, keeps⟩ := run_report results middle
    rw [run_bind_ok ran, run_bind_ok reported]
    refine ⟨after, rfl, ?_⟩
    intro job among target content text tree ready
    obtain ⟨written, stands, copy⟩ := copies job among target content text tree
      (ready.saved (shows _) (by simp) (by simp))
    exact ⟨written, keeps target written stands, copy⟩

/-- The command converts every file that it is asked to convert, when the files do not disturb each
other. A script with an open target is copied with its changed statements replaced; around these the
bytes are those of the text that was read, which are those of the file exactly when it has no
carriage return. -/
theorem runConvert_written
    (settled : ((settingsAround request.overrides request.input : Commanding _).run world).1 =
      .ok settings)
    (loaded : ((loadSurface settings : Commanding _).run world).1 = .ok (.ok surface))
    (undisturbed : Undisturbed world (jobs request settings world)) :
    ∃ code after, (runConvert request : Commanding Nat).run world = (.ok code, after) ∧
      ∀ job ∈ jobs request settings world, ∀ target content text tree,
        Ready world job target content text tree →
        code = 0 ∧ ∃ written, after.at? target = some (.file written) ∧
          Copy ⟨settings, surface, Usage.scan⟩ content text tree written := by
  have answers : (⟨settings, surface, Usage.scan⟩ : Engine).evidence.Answers := Usage.scan_answers
  obtain ⟨found, ran⟩ := reads_settingsAround request.overrides request.input world
  rw [ran] at settled
  obtain rfl : found = .ok settings := settled
  rw [runConvert, run_bind_ok (run_kind? _ _)]
  unfold jobs at undisturbed ⊢
  cases stands : world.kind? request.input with
  | none => exact ⟨1, _, rfl, by simp⟩
  | some kind =>
    simp only [stands] at undisturbed ⊢
    rw [run_bind_ok ran, run_bind_ok (run_withSurface loaded)]
    cases kind with
    | file =>
      have apart := undisturbed.apart
      rw [List.flatMap_singleton] at apart
      obtain ⟨code, after, ends, copies⟩ := run_convertSingle answers apart
      refine ⟨code, after, ends, ?_⟩
      intro job among
      rw [List.mem_singleton.mp among]
      exact copies
    | directory =>
      cases aimed : request.output with
      | none =>
        simp only [convertDirectory, aimed]
        exact ⟨1, _, rfl, by simp⟩
      | some output =>
        simp only [aimed] at undisturbed
        obtain ⟨after, ends, copies⟩ := run_convertDirectory answers aimed undisturbed
        refine ⟨0, after, ends, ?_⟩
        intro job among target content text tree ready
        exact ⟨rfl, copies job among target content text tree ready⟩

/-- Of two scripts in a directory, one has nothing to change. -/
theorem runConvert_written_directory :
    let content := Utf8.encode "/*é*/var a;\n"
    let changing := Utf8.encode "import{map}from'lodash'"
    let world : World := ⟨⟨[(["in"], .directory), (["in", "a.js"], .file content),
      (["in", "b"], .directory), (["in", "b", "c.js"], .file changing)]⟩, ⟨"/", []⟩, []⟩
    let request : ConvertRequest := ⟨⟨"", ["in"]⟩, some ⟨"", ["out"]⟩, none, ⟨[], none, none⟩⟩
    let target : Path := ⟨"", ["out", "a.js"]⟩
    let job : Job := ⟨⟨"", ["in", "a.js"]⟩, some target, none⟩
    let other : Job := ⟨⟨"", ["in", "b", "c.js"]⟩, some ⟨"", ["out", "b", "c.js"]⟩, none⟩
    let engine : Engine := ⟨.default, .bundled [], Usage.scan⟩
    ((settingsAround request.overrides request.input : Commanding _).run world).1 =
        .ok .default ∧
      ((loadSurface .default : Commanding _).run world).1 = .ok (.ok engine.surface) ∧
      Undisturbed world (jobs request .default world) ∧ jobs request .default world = [job, other] ∧
      ∃ text tree after, Ready world job target content text tree ∧
        (∀ node ∈ tree.body, (engine.redirector text).leaves node = [node]) ∧
        (runConvert request : Commanding Nat).run world = (.ok 0, after) ∧
        after.at? target = some (.file content) := by
  intro content changing world request target job other engine
  have settled : ((settingsAround request.overrides request.input : Commanding _).run world).1 =
      .ok .default := by rfl
  have loaded : ((loadSurface .default : Commanding _).run world).1 = .ok (.ok engine.surface) := by
    rfl
  have asked : jobs request .default world = [job, other] := by
    have found : (world.filesBelow request.input).filter
        (Sources.isSource Settings.default.extensions) = [["a.js"], ["b", "c.js"]] := by
      decide +kernel
    have sorted : Sources.select Settings.default.extensions (world.filesBelow request.input) =
        [["a.js"], ["b", "c.js"]] := by
      rw [Sources.select, found]
      exact List.mergeSort_of_pairwise (by decide)
    have isDirectory : world.kind? request.input = some .directory := by decide +kernel
    simp only [jobs, isDirectory, sorted]
    rfl
  have undisturbed : Undisturbed world (jobs request .default world) := by
    rw [asked]
    decide +kernel
  have still : (parse "/*é*/var a;\n").toOption.any (fun tree => tree.body.all fun node =>
      (engine.redirector "/*é*/var a;\n").leaves node == [node]) = true := by decide +kernel
  cases parsed : parse "/*é*/var a;\n" with
  | error offset => simp [parsed, Except.toOption] at still
  | ok tree =>
    have kept : ∀ node ∈ tree.body,
        (engine.redirector "/*é*/var a;\n").leaves node = [node] := by
      simpa [parsed, Except.toOption] using still
    have ready : Ready world job target content "/*é*/var a;\n" tree := {
      aimed := rfl
      isOpen := by decide +kernel
      there := read_eq_ok.mpr (by decide +kernel)
      decoded := Sources.decode_encode_of_not_mem (by decide +kernel)
      parsed := parsed }
    obtain ⟨code, after, ran, copies⟩ := runConvert_written settled loaded undisturbed
    obtain ⟨rfl, written, stands, copy⟩ := copies job (by simp [asked]) target content _ tree ready
    obtain rfl : written = content := (copy.unchanged kept).mpr (by decide +kernel)
    exact ⟨settled, loaded, undisturbed, asked, _, tree, after, ready, kept, ran, stands⟩

/-- In the copy of a file without changes, a line that ended in two characters ends in one. -/
theorem runConvert_carriageReturn :
    let content := Utf8.encode "var a;\r\n"
    let world : World := ⟨⟨[(["a.js"], .file content)]⟩, ⟨"/", []⟩, []⟩
    let target : Path := ⟨"", ["b.js"]⟩
    let request : ConvertRequest := ⟨⟨"", ["a.js"]⟩, some target, none, ⟨[], none, none⟩⟩
    let engine : Engine := ⟨.default, .bundled [], Usage.scan⟩
    let ran := (runConvert request : Commanding Nat).run world
    (engine.convert "var a;\r\n").toOption.any
        (fun conversion => conversion.success && !conversion.mutated) = true ∧
      ran.1.toOption = some 0 ∧ ran.2.at? target = some (.file (Utf8.encode "var a;\n")) ∧
      Utf8.encode "var a;\n" ≠ content := by
  intro content world target request engine ran
  exact ⟨by decide +kernel, by decide +kernel, by decide +kernel, by decide +kernel⟩

end ImportRedirect.Command
