import ImportRedirect.Command.Convert
import ImportRedirect.Proofs.Conversion.Outcome
import ImportRedirect.Proofs.Files.Saving
import ImportRedirect.Proofs.Text.Lines

/-!
What converting files writes. The text of a file is converted and the result is encoded again, so
around the changed statements the bytes are those of the text that was read. They are those of the
file unless it has a carriage return. A file that is converted among others is converted as it would
be alone, when nothing is written where another one is read or written.
-/

namespace ImportRedirect.Command

open Commanding Emit Script Text Work World

/-- The files that are written for a job. -/
def Job.places (job : Job) : List Path := job.trace.toList ++ job.target.toList

/-- The conversion of a file: around the changed statements it has the bytes of the text that was
read. These are the bytes of the file exactly when it has no carriage return, and so is then the
whole conversion if no statement changes. -/
structure Copy (engine : Engine) (content : List UInt8) (text : String) (tree : Tree)
    (written : List UInt8) : Prop where
  spliced : Spliced (Utf8.encode text) (engine.redirector text).leaves 0 tree.body written
  read : Utf8.encode text = content ↔ (13 : UInt8) ∉ content
  unchanged : (∀ node ∈ tree.body, (engine.redirector text).leaves node = [node]) →
    (written = content ↔ (13 : UInt8) ∉ content)

/-- The source of a job is a script, and its target is open. -/
structure Ready (world : World) (job : Job) (target : Path) (content : List UInt8) (text : String)
    (tree : Tree) : Prop where
  aimed : job.target = some target
  isOpen : Open world target
  there : world.read job.source = .ok content
  decoded : Sources.decode content = .ok text
  parsed : parse text = .ok tree

/-- If a job is ready, its target comes to hold the conversion. -/
def Copies (engine : Engine) (before after : World) (job : Job) : Prop :=
  ∀ target content text tree, Ready before job target content text tree →
    ∃ written, after.at? target = some (.file written) ∧ Copy engine content text tree written

variable {world before middle after : World} {engine : Engine} {job : Job} {target : Path}
  {conversion : Conversion} {content : List UInt8} {text : String} {tree : Tree}
  {files directories : List Path}

theorem copy_of_converted (decoded : Sources.decode content = .ok text)
    (parsed : parse text = .ok tree)
    (converted : engine.Converted text tree conversion) :
    Copy engine content text tree (Utf8.encode conversion.code) where
  spliced := converted.spliced
  read := Sources.encode_eq_iff decoded
  unchanged kept := by
    rw [converted.unchanged parsed kept]
    exact Sources.encode_eq_iff decoded

theorem run_collect (directory : Path) (extensions : List String) (world : World) :
    (Sources.collect directory extensions : Commanding _).run world =
      (.ok (Sources.select extensions (world.filesBelow directory)), world) := rfl

theorem run_ofExcept {α : Type} {result : Except Fault α} {value : α}
    (succeeds : result = .ok value) (world : World) :
    (ofExcept result : Commanding α).run world = (.ok value, world) := by
  rw [succeeds]
  rfl

theorem saves_ofExcept {α : Type} {result : Except Fault α} {value : α}
    (succeeds : result = .ok value) :
    Saves files directories (ofExcept result : Commanding α) :=
  fun world => ⟨value, world, run_ofExcept succeeds world, .refl world⟩

theorem saves_log (conversion : Conversion) : Saves files directories
    (conversion.log.forM fun line => Host.put (.log line) : Commanding Unit) :=
  saves_forM fun _ _ => saves_put _

theorem saves_saveTrace (path : Path) (trace : Trace) :
    Saves [path] (Path.above [path]) (saveTrace path trace : Commanding Unit) := by
  apply (saves_save path (traceContent trace)).bind
  intro result
  cases result <;> exact saves_put _

theorem saves_deliver (job : Job) (conversion : Conversion) :
    Saves job.target.toList (Path.above job.target.toList)
      (deliver job conversion : Commanding JobResult) := by
  unfold deliver
  cases job.target with
  | none => exact (saves_put _).bind fun _ => saves_pure _
  | some target =>
    apply (saves_save target (Utf8.encode conversion.code)).bind
    intro result
    cases result <;> exact (saves_put _).bind fun _ => saves_pure _

theorem saves_convertText (answers : engine.evidence.Answers) (job : Job) (text : String) :
    Saves job.places (Path.above job.places)
      (convertText engine job text : Commanding JobResult) := by
  obtain ⟨conversion, converts⟩ := engine.converts_always answers text
  rw [convertText]
  apply (saves_ofExcept converts).bind
  intro conversion
  apply (saves_log conversion).bind
  intro _
  have aimed : job.target.toList ⊆ job.places := List.subset_append_right _ _
  have delivers := (saves_deliver job conversion).mono aimed (Path.above_subset aimed)
  cases traced : job.trace with
  | none => exact saves_ite delivers ((saves_put _).bind fun _ => saves_pure _)
  | some path =>
    have among : [path] ⊆ job.places := by simp [Job.places, traced]
    apply ((saves_saveTrace path _).mono among (Path.above_subset among)).bind
    intro _
    exact saves_ite delivers ((saves_put _).bind fun _ => saves_pure _)

theorem saves_convertFile (answers : engine.evidence.Answers) (job : Job) :
    Saves job.places (Path.above job.places) (convertFile engine job : Commanding JobResult) := by
  rw [convertFile]
  refine Saves.bind ?_ ?_
  · apply (saves_read job.source).bind
    intro result
    cases result with
    | error problem => exact saves_pure _
    | ok content =>
      dsimp only
      split <;> exact saves_pure _
  · intro result
    cases result with
    | error reason => exact (saves_put _).bind fun _ => saves_pure _
    | ok text => exact saves_convertText answers job text

theorem run_read_source {path : Path} (there : world.read path = .ok content)
    (decoded : Sources.decode content = .ok text) :
    (Sources.read path : Commanding _).run world = (.ok (.ok text), world) := by
  rw [Sources.read, run_bind_ok (run_read path world), there]
  simp only [decoded]
  rfl

/-- What is delivered to an open target stands there, encoded. -/
theorem run_deliver (aimed : job.target = some target) (isOpen : Open world target)
    (conversion : Conversion) :
    ∃ result after, (deliver job conversion : Commanding JobResult).run world =
        (.ok result, after) ∧
      result.errors = [] ∧ after.at? target = some (.file (Utf8.encode conversion.code)) := by
  obtain ⟨after, saved, stands⟩ := run_save isOpen (Utf8.encode conversion.code)
  simp only [deliver, aimed]
  rw [run_bind_ok saved]
  exact ⟨_, _, rfl, rfl, stands⟩

theorem run_convertText (aimed : job.target = some target) (isOpen : Open world target)
    (apart : job.places.Pairwise (Apart world)) (converts : engine.convert text = .ok conversion)
    (success : conversion.success = true) :
    ∃ result after, (convertText engine job text : Commanding JobResult).run world =
        (.ok result, after) ∧
      result.errors = [] ∧ after.at? target = some (.file (Utf8.encode conversion.code)) := by
  obtain ⟨_, logged, logs, (shows : Saved [] (Path.above []) world logged)⟩ :=
    saves_log conversion world
  rw [convertText, run_bind_ok (run_ofExcept converts world), run_bind_ok logs]
  have stillOpen : Open logged target := isOpen.of_apart shows (by simp)
  simp only [success, if_true]
  cases traced : job.trace with
  | none => exact run_deliver aimed stillOpen conversion
  | some path =>
    obtain ⟨_, middle, traces, saved⟩ := saves_saveTrace path conversion.trace logged
    have beside : Apart world path target := by
      simpa [Job.places, traced, aimed] using apart
    have leftOpen : Open middle target :=
      stillOpen.of_apart saved (by simpa using shows.apart_iff.mpr beside)
    obtain ⟨result, after, delivered, flawless, written⟩ := run_deliver aimed leftOpen conversion
    refine ⟨result, after, ?_, flawless, written⟩
    rw [run_bind_ok traces]
    exact delivered

theorem run_convertFile (answers : engine.evidence.Answers)
    (apart : job.places.Pairwise (Apart world)) (ready : Ready world job target content text tree) :
    ∃ result after, (convertFile engine job : Commanding JobResult).run world =
        (.ok result, after) ∧
      result.errors = [] ∧ ∃ written, after.at? target = some (.file written) ∧
        Copy engine content text tree written := by
  obtain ⟨conversion, converts, converted⟩ := engine.convert_of_parse ready.parsed answers
  have success : conversion.success = true := by
    rw [Conversion.success, converted.errors]
    rfl
  obtain ⟨result, after, ran, flawless, written⟩ :=
    run_convertText ready.aimed ready.isOpen apart converts success
  refine ⟨result, after, ?_, flawless, _, written,
    copy_of_converted ready.decoded ready.parsed converted⟩
  rw [convertFile, run_bind_ok (run_read_source ready.there ready.decoded)]
  exact ran

/-- The jobs write apart from each other, and nothing is written where a later job reads. -/
structure Undisturbed (world : World) (jobs : List Job) : Prop where
  apart : (jobs.flatMap Job.places).Pairwise (Apart world)
  unread : jobs.Pairwise fun earlier later =>
    ∀ path ∈ earlier.places, world.place path ≠ world.place later.source

instance (world : World) (jobs : List Job) : Decidable (Undisturbed world jobs) :=
  decidable_of_iff (_ ∧ _) ⟨fun ⟨apart, unread⟩ => ⟨apart, unread⟩,
    fun ⟨apart, unread⟩ => ⟨apart, unread⟩⟩

theorem Undisturbed.saved {jobs : List Job} (undisturbed : Undisturbed before jobs)
    (saved : Saved files directories before after) : Undisturbed after jobs where
  apart := undisturbed.apart.imp saved.apart_iff.mpr
  unread := by
    refine undisturbed.unread.imp ?_
    intro earlier later unread path membership
    rw [saved.place, saved.place]
    exact unread path membership

theorem undisturbed_cons {jobs : List Job} : Undisturbed world (job :: jobs) ↔
    job.places.Pairwise (Apart world) ∧ Undisturbed world jobs ∧ ∀ later ∈ jobs,
      (∀ path ∈ job.places, world.place path ≠ world.place later.source) ∧
      ∀ path ∈ job.places, ∀ other ∈ later.places, Apart world path other := by
  constructor
  · rintro ⟨apart, unread⟩
    rw [List.flatMap_cons, List.pairwise_append] at apart
    obtain ⟨own, others, beside⟩ := apart
    obtain ⟨unreadLater, unreadOthers⟩ := List.pairwise_cons.mp unread
    refine ⟨own, ⟨others, unreadOthers⟩, fun later among => ⟨unreadLater later among, ?_⟩⟩
    intro path isPath other isOther
    exact beside path isPath other (List.mem_flatMap.mpr ⟨later, among, isOther⟩)
  · rintro ⟨own, others, later⟩
    refine ⟨?_, List.pairwise_cons.mpr ⟨fun job among => (later job among).1, others.unread⟩⟩
    rw [List.flatMap_cons, List.pairwise_append]
    refine ⟨own, others.apart, ?_⟩
    intro path isPath other isOther
    obtain ⟨job, among, isOther⟩ := List.mem_flatMap.mp isOther
    exact (later job among).2 path isPath other isOther

/-- A job that is ready stays ready while files apart from it are saved. -/
theorem Ready.saved (ready : Ready before job target content text tree)
    (saved : Saved files (Path.above files) before after)
    (unread : ∀ path ∈ files, before.place path ≠ before.place job.source)
    (apart : ∀ path ∈ files, Apart before path target) :
    Ready after job target content text tree where
  aimed := ready.aimed
  isOpen := ready.isOpen.of_apart saved apart
  there := by
    apply read_eq_ok.mpr
    apply saved.at?_of_file _ (read_eq_ok.mp ready.there)
    intro isWritten
    obtain ⟨path, membership, same⟩ := List.mem_map.mp isWritten
    exact unread path membership same
  decoded := ready.decoded
  parsed := ready.parsed

theorem Ready.target_mem (ready : Ready before job target content text tree) :
    target ∈ job.places := by
  simp [Job.places, ready.aimed]

/-- What a job has copied stays while files apart from it are saved. -/
theorem Copies.saved (copies : Copies engine before middle job)
    (saved : Saved files directories middle after)
    (apart : ∀ target ∈ job.places, ∀ path ∈ files, Apart middle target path) :
    Copies engine before after job := by
  intro target content text tree ready
  obtain ⟨written, stands, copy⟩ := copies target content text tree ready
  refine ⟨written, saved.at?_of_file ?_ stands, copy⟩
  intro isWritten
  obtain ⟨path, membership, same⟩ := List.mem_map.mp isWritten
  exact (apart target ready.target_mem path membership).place_ne same.symm

theorem copies_convertFile (answers : engine.evidence.Answers)
    (apart : job.places.Pairwise (Apart world)) :
    ∃ result after, (convertFile engine job : Commanding JobResult).run world =
        (.ok result, after) ∧ Saved job.places (Path.above job.places) world after ∧
      Copies engine world after job := by
  obtain ⟨result, after, ran, saved⟩ := saves_convertFile answers job world
  refine ⟨result, after, ran, saved, ?_⟩
  intro target content text tree ready
  obtain ⟨_, _, again, _, copied⟩ := run_convertFile answers apart ready
  obtain ⟨_, rfl⟩ := Prod.mk.inj (ran.symm.trans again)
  exact copied

/-- Jobs that do not disturb each other do what each would have done alone. -/
theorem run_mapM_convertFile {ι : Type} (answers : engine.evidence.Answers) (jobOf : ι → Job)
    (label : ι → String) {items : List ι} (undisturbed : Undisturbed world (items.map jobOf)) :
    ∃ results after, (items.mapM (fun item => do
          let result ← convertFile engine (jobOf item)
          return (label item, result)) : Commanding _).run world = (.ok results, after) ∧
      Saved ((items.map jobOf).flatMap Job.places)
        (Path.above ((items.map jobOf).flatMap Job.places)) world after ∧
      ∀ job ∈ items.map jobOf, Copies engine world after job := by
  induction items generalizing world with
  | nil => exact ⟨[], world, rfl, .refl world, by simp⟩
  | cons first rest inductionHypothesis =>
    rw [List.map_cons] at undisturbed ⊢
    obtain ⟨own, others, beside⟩ := undisturbed_cons.mp undisturbed
    obtain ⟨result, middle, ran, saved, copies⟩ := copies_convertFile answers own
    obtain ⟨results, after, continued, savedOn, copiesOn⟩ :=
      inductionHypothesis (others.saved saved)
    refine ⟨(label first, result) :: results, after, ?_, ?_, ?_⟩
    · rw [List.mapM_cons, run_bind, run_bind_ok ran, run_pure]
      dsimp only
      rw [run_bind_ok continued, run_pure]
    · rw [List.flatMap_cons]
      have left := List.subset_append_left (Job.places (jobOf first))
        ((rest.map jobOf).flatMap Job.places)
      have right := List.subset_append_right (Job.places (jobOf first))
        ((rest.map jobOf).flatMap Job.places)
      exact (saved.mono left (Path.above_subset left)).trans
        (savedOn.mono right (Path.above_subset right))
    · intro job membership
      rcases List.mem_cons.mp membership with rfl | among
      · apply copies.saved savedOn
        intro target isTarget path isPath
        obtain ⟨later, among, isPath⟩ := List.mem_flatMap.mp isPath
        exact saved.apart_iff.mpr ((beside later among).2 target isTarget path isPath)
      · intro target content text tree ready
        obtain ⟨unread, apart⟩ := beside job among
        apply copiesOn job among target content text tree
        exact ready.saved saved unread fun path isPath => apart path isPath target ready.target_mem

end ImportRedirect.Command
