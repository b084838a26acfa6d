import Mathlib.Data.List.Induction
import Mathlib.Data.List.Pairwise
import ImportRedirect.Proofs.Command.Directory
import ImportRedirect.Proofs.Command.ExitCode

/-!
The files of a directory are converted independently. What stands at a target afterwards depends on
the source of its job and on what stood there before, and nothing but targets and traces is written,
when these are separate from each other and from the sources that are still to be read.
-/

namespace ImportRedirect

namespace Disk

variable {disk : Disk} {path : Path} {location top names : Location} {entry : Entry}
  {content : List UInt8}

/-- Whatever is on the disk lies in a directory. -/
def Rooted (disk : Disk) : Prop :=
  ∀ entry ∈ disk.entries, disk.get? entry.1.dropLast = some .directory

instance (disk : Disk) : Decidable disk.Rooted :=
  inferInstanceAs (Decidable (∀ entry ∈ disk.entries, _))

theorem mem_of_find? {entries : List (Location × Entry)} (found : find? location entries = some entry) :
    (location, entry) ∈ entries := by
  induction entries with
  | nil => simp [find?] at found
  | cons first rest inductionHypothesis =>
    obtain ⟨other, old⟩ := first
    by_cases same : other = location
    · simp only [find?, same, beq_self_eq_true, if_true, Option.some.injEq] at found
      simp [same, found]
    · simp only [find?, beq_iff_eq, same, if_false] at found
      exact List.mem_cons_of_mem _ (inductionHypothesis found)

theorem Rooted.above (rooted : disk.Rooted) (there : disk.get? location = some entry) :
    disk.get? location.dropLast = some .directory := by
  by_cases isTop : location = []
  · subst isTop
    rfl
  · rw [get?, List.isEmpty_eq_false_iff.mpr isTop] at there
    exact rooted _ (mem_of_find? there)

/-- What is somewhere below a directory can be reached from there. -/
theorem Rooted.walk (rooted : disk.Rooted) (plain : ".." ∉ names)
    (there : disk.get? (top ++ names) = some entry) : disk.walk top names = .ok (top ++ names) := by
  induction names using List.reverseRecOn generalizing entry with
  | nil => simp [Disk.walk]
  | append_singleton front last inductionHypothesis =>
    rw [List.mem_append, not_or] at plain
    have above := rooted.above there
    rw [← List.append_assoc, List.dropLast_concat] at above
    have direct : (last == "..") = false :=
      beq_eq_false_iff_ne.mpr fun up => plain.2 (up ▸ List.mem_singleton_self last)
    rw [walk_append (inductionHypothesis plain.1 above), Disk.walk, above]
    simp [Disk.walk, direct]

/-- No other entry hides a file. -/
theorem Orderly.get?_of_mem (orderly : disk.Orderly) (below : location ≠ [])
    (among : (location, .file content) ∈ disk.entries) :
    disk.get? location = some (.file content) := by
  have found : find? location disk.entries = some (.file content) := by
    have leaves := orderly.leaves
    generalize disk.entries = entries at leaves among
    induction entries with
    | nil => simp at among
    | cons first rest inductionHypothesis =>
      obtain ⟨here, others⟩ := List.pairwise_cons.mp leaves
      rcases List.mem_cons.mp among with rfl | later
      · simp [find?]
      · obtain ⟨other, old⟩ := first
        have different : other ≠ location := by
          rintro rfl
          exact (here _ later).2 (by simp) List.prefix_rfl
        simp only [find?, beq_iff_eq, different, if_false]
        exact inductionHypothesis others later
  rw [get?, List.isEmpty_eq_false_iff.mpr below]
  exact found

theorem mem_filesBelow (located : disk.locate path = .ok top) (among : names ∈ disk.filesBelow path) :
    names ≠ [] ∧ ∃ content, (top ++ names, .file content) ∈ disk.entries := by
  simp only [filesBelow, located] at among
  obtain ⟨⟨location, entry⟩, isEntry, below⟩ := List.mem_filterMap.mp among
  obtain ⟨isFile, rfl⟩ := below_eq_some below
  cases entry with
  | directory => exact absurd rfl isFile
  | file content =>
    obtain ⟨_, nonempty⟩ := Option.filter_eq_some_iff.mp below
    exact ⟨by simpa using nonempty, content, isEntry⟩

end Disk

namespace World

variable {world : World} {directory path : Path} {names others : List String}
  {location : Location}

/-- The files of a directory of an orderly disk can be read. -/
theorem read_below (orderly : world.disk.Orderly) (rooted : world.disk.Rooted)
    (isDirectory : world.kind? directory = some .directory)
    (among : names ∈ world.filesBelow directory) :
    ∃ content, world.read (Sources.pathOf directory names) = .ok content := by
  obtain ⟨top, located, _⟩ := at?_eq_some.mp (kind?_eq_directory.mp isDirectory)
  obtain ⟨nonempty, content, isEntry⟩ := Disk.mem_filesBelow located among
  have below : top ++ names ≠ [] := by simp [nonempty]
  have stands := orderly.get?_of_mem below isEntry
  have walked := rooted.walk (orderly.plain_below among) stands
  refine ⟨content, read_eq_ok.mpr (at?_eq_some.mpr ⟨top ++ names, ?_, stands⟩)⟩
  rw [Disk.locate, absolute_parts] at located
  rw [Sources.pathOf_eq, Disk.locate, absolute_parts, ← List.append_assoc, Disk.walk_append located]
  exact walked

theorem mem_way_cases (passed : location ∈ world.way path) :
    location = world.place path ∨ location ∈ world.way path.parent := by
  obtain ⟨steps, isFront, rfl⟩ := mem_way.mp passed
  by_cases whole : steps = path.parts
  · subst whole
    exact .inl rfl
  · refine .inr (mem_way.mpr ⟨steps, ?_, rfl⟩)
    rw [Path.parent, List.dropLast_eq_take, List.prefix_take_iff]
    have short := isFront.length_le
    have different : steps.length ≠ path.parts.length := fun same =>
      whole (isFront.eq_of_length same)
    exact ⟨isFront, by omega⟩

theorem apart_of_parents {other : Path} (different : world.place path ≠ world.place other)
    (beside : world.place path ∉ world.way other.parent)
    (otherBeside : world.place other ∉ world.way path.parent) : Apart world path other :=
  ⟨fun passed => (mem_way_cases passed).elim different beside,
    fun passed => (mem_way_cases passed).elim (fun same => different same.symm) otherBeside⟩

end World

namespace Command

open Commanding Script Text Work World

variable {engine : Engine} {world before middle after : World} {job : Job} {pending : List Job}
  {result : JobResult} {results : List JobResult} {conversion : Conversion}
  {content : List UInt8} {target : Path} {files : List Path} {old : Option Entry}

/-- What stands at a target in the end: the conversion of a source that is a script, otherwise what
stood there. -/
def delivered (engine : Engine) (source : Except FileProblem (List UInt8)) (old : Option Entry) :
    Option Entry :=
  match source with
  | .error _ => old
  | .ok content =>
    match Sources.decode content with
    | .error _ => old
    | .ok text =>
      match parse text, engine.convert text with
      | .ok _, .ok conversion => some (.file (Utf8.encode conversion.code))
      | _, _ => old

theorem delivered_of_yields (yields : Yields engine world job conversion) (old : Option Entry) :
    delivered engine (world.read job.source) old = some (.file (Utf8.encode conversion.code)) := by
  obtain ⟨content, text, tree, there, decoded, parsed, converts⟩ := yields
  simp only [delivered, there, decoded, parsed, converts]

theorem delivered_of_nothing (nothing : ∀ conversion, ¬ Yields engine world job conversion)
    (old : Option Entry) : delivered engine (world.read job.source) old = old := by
  unfold delivered
  split
  · rfl
  · next content there =>
    split
    · rfl
    · next text decoded =>
      split
      · next tree conversion parsed converts =>
        exact absurd ⟨content, text, tree, there, decoded, parsed, converts⟩ (nothing conversion)
      · rfl

/-- A target holds in the end what its own source makes of what stood there. -/
structure Settled (engine : Engine) (before after : World) (job : Job) (target : Path) : Prop where
  entry : after.disk.get? (before.place target) =
    delivered engine (before.read job.source) (before.disk.get? (before.place target))
  stands : ∀ conversion, Yields engine before job conversion →
    after.at? target = some (.file (Utf8.encode conversion.code))

theorem Settled.of_kept (nothing : ∀ conversion, ¬ Yields engine before job conversion)
    (kept : after.disk.get? (before.place target) = before.disk.get? (before.place target)) :
    Settled engine before after job target where
  entry := by rw [kept, delivered_of_nothing nothing]
  stands conversion yields := absurd yields (nothing conversion)

theorem Settled.of_stands (yields : Yields engine before job conversion)
    (places : after.place target = before.place target)
    (stands : after.at? target = some (.file (Utf8.encode conversion.code))) :
    Settled engine before after job target where
  entry := by rw [← places, get?_place stands, delivered_of_yields yields]
  stands other again := by
    obtain rfl := yields.unique again
    exact stands

/-- One job alone settles its target when that is open. -/
theorem Handled.settled (handled : Handled engine before job result after)
    (aimed : job.target = some target) (isOpen : Open before target)
    (apart : job.places.Pairwise (Apart before)) : Settled engine before after job target := by
  have beside : ∀ trace ∈ job.trace.toList, Apart before trace target := by
    rw [Job.places, List.pairwise_append] at apart
    exact fun trace isTrace => apart.2.2 trace isTrace target (by simp [aimed])
  have places := handled.saved.place target
  cases handled with
  | unread unreadable _ shows =>
    refine .of_kept ?_ (shows.changed _).of_nothing
    rintro _ ⟨content, text, _, there, decoded, _⟩
    exact unreadable content text there decoded
  | refused there decoded rejected _ traced =>
    refine .of_kept ?_ (traced.get?_of_apart beside)
    rintro _ ⟨_, _, _, thereAgain, decodedAgain, parsed, _⟩
    obtain rfl := Except.ok.inj (there.symm.trans thereAgain)
    obtain rfl := Except.ok.inj (decoded.symm.trans decodedAgain)
    simp [rejected] at parsed
  | shown _ untargeted => simp [aimed] at untargeted
  | @delivered conversion other middle finish outcome yields aimedAgain traced saving _ shows =>
    obtain rfl := Option.some.inj (aimedAgain.symm.trans aimed)
    obtain ⟨_, saved, stands⟩ :=
      run_save (isOpen.of_apart traced beside) (Utf8.encode conversion.code)
    obtain ⟨_, rfl⟩ := Prod.mk.inj (saving.symm.trans saved)
    exact .of_stands yields places ((shows.at?_eq other).trans stands)

/-- What was settled stays while files apart from the target are saved. -/
theorem Settled.later (settled : Settled engine before middle job target)
    (saved : Saved files (Path.above files) middle after)
    (places : middle.place target = before.place target)
    (apart : ∀ file ∈ files, Apart middle file target) :
    Settled engine before after job target where
  entry := by
    rw [← places, saved.get?_of_apart apart, places]
    exact settled.entry
  stands conversion yields :=
    saved.at?_of_file (Apart.not_among apart) (settled.stands conversion yields)

/-- Files that are saved before do not matter when they are apart from the target and are not the
source. -/
theorem Settled.earlier (settled : Settled engine middle after job target)
    (saved : Saved files (Path.above files) before middle)
    (apart : ∀ file ∈ files, Apart before file target)
    (there : before.read job.source = .ok content)
    (unread : ∀ file ∈ files, before.place file ≠ before.place job.source) :
    Settled engine before after job target := by
  have outside : before.place job.source ∉ files.map before.place := by
    intro isWritten
    obtain ⟨file, among, same⟩ := List.mem_map.mp isWritten
    exact unread file among same
  have still : middle.read job.source = .ok content :=
    read_eq_ok.mpr (saved.at?_of_file outside (read_eq_ok.mp there))
  refine ⟨?_, fun conversion yields => settled.stands conversion ?_⟩
  · rw [← saved.place, settled.entry, saved.place, saved.get?_of_apart apart, still, there]
  · obtain ⟨_, text, tree, thereAgain, parses⟩ := yields
    obtain rfl := Except.ok.inj (there.symm.trans thereAgain)
    exact ⟨content, text, tree, still, parses⟩

/-- A batch of jobs that do not disturb each other settles every target, and writes nothing else. -/
theorem Batch.settled (batch : Batch engine before pending results after)
    (undisturbed : Undisturbed before pending)
    (writable : ∀ job ∈ pending, ∀ target ∈ job.target, Open before target)
    (readable : ∀ job ∈ pending, ∃ content, before.read job.source = .ok content) :
    Saved (pending.flatMap Job.places) (Path.above (pending.flatMap Job.places)) before after ∧
      ∀ job ∈ pending, ∀ target ∈ job.target, Settled engine before after job target := by
  induction batch with
  | nil shows => exact ⟨shows, by simp⟩
  | @cons before start middle after job pending result results shows handled _ rest
      inductionHypothesis =>
    obtain ⟨own, others, beside⟩ := undisturbed_cons.mp undisturbed
    have saved : Saved job.places (Path.above job.places) before middle :=
      (shows.mono (List.nil_subset _) (List.nil_subset _)).trans handled.saved
    have stillReadable : ∀ later ∈ pending, ∃ content, middle.read later.source = .ok content := by
      intro later among
      obtain ⟨content, there⟩ := readable later (List.mem_cons_of_mem _ among)
      refine ⟨content, read_eq_ok.mpr (saved.at?_of_file ?_ (read_eq_ok.mp there))⟩
      intro isWritten
      obtain ⟨path, isPlace, same⟩ := List.mem_map.mp isWritten
      exact (beside later among).1 path isPlace same
    have stillWritable : ∀ later ∈ pending, ∀ target ∈ later.target, Open middle target := by
      intro later among target aimed
      have isPlace : target ∈ later.places := by simp [Job.places, Option.mem_def.mp aimed]
      exact (writable later (List.mem_cons_of_mem _ among) target aimed).of_apart saved
        fun file isFile => (beside later among).2 file isFile target isPlace
    obtain ⟨savedOn, settledOn⟩ :=
      inductionHypothesis (others.saved saved) stillWritable stillReadable
    rw [List.flatMap_cons]
    have left := List.subset_append_left job.places (pending.flatMap Job.places)
    have right := List.subset_append_right job.places (pending.flatMap Job.places)
    refine ⟨(saved.mono left (Path.above_subset left)).trans
      (savedOn.mono right (Path.above_subset right)), ?_⟩
    intro chosen among target aimed
    rcases List.mem_cons.mp among with rfl | among
    · obtain ⟨content, there⟩ := readable chosen (by simp)
      have isOpen : Open start target :=
        (writable chosen (by simp) target aimed).of_apart shows (by simp)
      have settled := handled.settled aimed isOpen (own.imp shows.apart_iff.mpr)
      refine (settled.earlier shows (by simp) there (by simp)).later savedOn (saved.place target) ?_
      intro file isFile
      obtain ⟨later, isLater, isFile⟩ := List.mem_flatMap.mp isFile
      have isPlace : target ∈ chosen.places := by simp [Job.places, Option.mem_def.mp aimed]
      exact (saved.apart_iff.mpr ((beside later isLater).2 target isPlace file isFile)).symm
    · obtain ⟨content, there⟩ := readable chosen (List.mem_cons_of_mem _ among)
      have isPlace : target ∈ chosen.places := by simp [Job.places, Option.mem_def.mp aimed]
      exact (settledOn chosen among target aimed).earlier saved
        (fun file isFile => (beside chosen among).2 file isFile target isPlace) there
        (beside chosen among).1

/-- The files of these jobs are kept separate: none is written twice, or before it is read; there is
room for every target; and no trace stands where a directory above a target must be. -/
structure Separate (world : World) (pending : List Job) : Prop where
  distinct : (pending.flatMap Job.places).Pairwise fun path other =>
    world.place path ≠ world.place other
  unread : pending.Pairwise fun earlier later =>
    ∀ path ∈ earlier.places, world.place path ≠ world.place later.source
  writable : ∀ job ∈ pending, ∀ target ∈ job.target, Open world target
  passable : ∀ job ∈ pending, ∀ other ∈ pending, ∀ trace ∈ job.trace, ∀ target ∈ other.target,
    world.place trace ∉ world.way target.parent

variable {request : ConvertRequest} {settings : Settings} {surface : Surface} {output : Path}

theorem tracePath_parent (target : Path) : (tracePath target).parent = target.parent := by
  simp [tracePath, Path.withSuffix, Path.parent]

theorem parent_of_place {input path : Path} {isTraced : Bool} {names : List String}
    (isPlace : path ∈ (jobFor input output isTraced names).places) :
    path.parent = (Sources.pathOf output names).parent := by
  rcases List.mem_append.mp isPlace with isTrace | isTarget
  · cases isTraced with
    | false => simp [jobFor] at isTrace
    | true =>
      obtain rfl : path = tracePath (Sources.pathOf output names) := by simpa [jobFor] using isTrace
      exact tracePath_parent _
  · obtain rfl : path = Sources.pathOf output names := by simpa [jobFor] using isTarget
    rfl

theorem parent_pathOf {names : List String} (nonempty : names ≠ []) :
    (Sources.pathOf output names).parent = Sources.pathOf output names.dropLast := by
  simp only [Sources.pathOf_eq, Path.parent, List.dropLast_append_of_ne_nil nonempty]

/-- No file of a directory is above another one or above itself. -/
theorem not_above_pathOf {names others : List String} (plain : ".." ∉ names)
    (otherPlain : ".." ∉ others) (nonempty : names ≠ []) (otherNonempty : others ≠ [])
    (below : names ≠ others → ¬ names <+: others)
    (isOpen : Open world (Sources.pathOf output names)) :
    world.place (Sources.pathOf output names) ∉ world.way (Sources.pathOf output others).parent := by
  intro passed
  rw [parent_pathOf otherNonempty] at passed
  have frontPlain : ".." ∉ others.dropLast := fun up =>
    otherPlain ((List.dropLast_prefix others).subset up)
  rcases mem_way_pathOf frontPlain passed with above | ⟨front, isFront, same⟩
  · -- On the way to the directory it would be above itself.
    apply isOpen.leaves
    rw [parent_pathOf nonempty, Sources.pathOf_eq output names.dropLast]
    obtain ⟨steps, isSteps, same⟩ := mem_way.mp above
    exact mem_way.mpr ⟨steps, isSteps.trans (List.prefix_append _ _), same⟩
  · rw [place_pathOf plain] at same
    obtain rfl := List.append_cancel_left same
    by_cases alike : names = others
    · have short := isFront.length_le
      have long := List.length_pos_iff.mpr otherNonempty
      rw [List.length_dropLast, alike] at short
      omega
    · exact below alike (isFront.trans (List.dropLast_prefix others))

/-- The jobs of a directory that are separate do not disturb each other. -/
theorem undisturbed_of_separate (orderly : world.disk.Orderly)
    (isDirectory : world.kind? request.input = some .directory)
    (aimed : request.output = some output)
    (separate : Separate world (jobs request settings world)) :
    Undisturbed world (jobs request settings world) := by
  have listed : jobs request settings world =
      (Sources.select settings.extensions (world.filesBelow request.input)).map
        (jobFor request.input output request.trace.isSome) := by
    simp only [jobs, isDirectory, aimed]
  have isTarget : ∀ names, Sources.pathOf output names ∈
      (jobFor request.input output request.trace.isSome names).target := fun names => rfl
  have pairs := Sources.select_apart orderly (world.absolute request.input) settings.extensions
  have symmetric : Std.Symm fun names others : List String =>
      ¬ names <+: others ∧ ¬ others <+: names := ⟨fun _ _ => And.symm⟩
  obtain ⟨top, located, _⟩ := at?_eq_some.mp (kind?_eq_directory.mp isDirectory)
  have isBeside : ∀ job ∈ jobs request settings world, ∀ other ∈ jobs request settings world,
      ∀ path ∈ job.places, ∀ file ∈ other.places, world.place path ∉ world.way file.parent := by
    intro job isJob other isOther path isPlace file isFile
    have known := isJob
    have otherKnown := isOther
    rw [listed] at known otherKnown
    obtain ⟨names, isSource, rfl⟩ := List.mem_map.mp known
    obtain ⟨others, isOtherSource, rfl⟩ := List.mem_map.mp otherKnown
    rw [parent_of_place isFile]
    rcases List.mem_append.mp isPlace with isTrace | isTargetPath
    · exact separate.passable _ isJob _ isOther path (by simpa using isTrace) _ (isTarget others)
    · obtain rfl : path = Sources.pathOf output names := by simpa [jobFor] using isTargetPath
      have found := Sources.mem_of_select isSource
      have otherFound := Sources.mem_of_select isOtherSource
      refine not_above_pathOf (orderly.plain_below found) (orderly.plain_below otherFound)
        (Disk.mem_filesBelow located found).1 (Disk.mem_filesBelow located otherFound).1
        (fun different => ?_) (separate.writable _ isJob _ (isTarget names))
      exact (pairs.forall isSource isOtherSource different).1
  refine ⟨separate.distinct.imp_of_mem ?_, separate.unread⟩
  intro path file isPlace isFile different
  obtain ⟨job, isJob, isPlace⟩ := List.mem_flatMap.mp isPlace
  obtain ⟨other, isOther, isFile⟩ := List.mem_flatMap.mp isFile
  exact apart_of_parents different (isBeside job isJob other isOther path isPlace file isFile)
    (isBeside other isOther job isJob file isFile path isPlace)

/-- Converting a directory whose jobs are separate. Each target ends up with the conversion of its
own source, if that is a script, and otherwise with what stood there, whatever the other sources
hold. No other file changes but the traces. -/
theorem runConvert_independent (orderly : world.disk.Orderly) (rooted : world.disk.Rooted)
    (isDirectory : world.kind? request.input = some .directory)
    (aimed : request.output = some output)
    (settled : ((settingsAround request.overrides request.input : Commanding _).run world).1 =
      .ok settings)
    (loaded : ((loadSurface settings : Commanding _).run world).1 = .ok (.ok surface))
    (separate : Separate world (jobs request settings world)) :
    ∃ after, (runConvert request : Commanding Nat).run world = (.ok 0, after) ∧
      (∀ job ∈ jobs request settings world, ∀ target ∈ job.target,
        Settled ⟨settings, surface, Usage.scan⟩ world after job target) ∧
      ∀ location, (∀ job ∈ jobs request settings world, ∀ path ∈ job.places,
          world.place path ≠ location) →
        ∀ content, after.disk.get? location = some (.file content) ↔
          world.disk.get? location = some (.file content) := by
  let engine : Engine := ⟨settings, surface, Usage.scan⟩
  have answers : engine.evidence.Answers := Usage.scan_answers
  have undisturbed := undisturbed_of_separate orderly isDirectory aimed separate
  have readable : ∀ job ∈ jobs request settings world, ∃ content,
      world.read job.source = .ok content := by
    intro job isJob
    simp only [jobs, isDirectory, aimed] at isJob
    obtain ⟨names, isSource, rfl⟩ := List.mem_map.mp isJob
    exact read_below orderly rooted isDirectory (Sources.mem_of_select isSource)
  obtain ⟨results, after, ran, batch⟩ := code_convertDirectory answers aimed world
  have asked : Batch engine world (jobs request settings world) results after := by
    simpa only [jobs, isDirectory, aimed] using batch
  obtain ⟨saved, settles⟩ := asked.settled undisturbed separate.writable readable
  rw [runConvert_eq isDirectory settled loaded]
  refine ⟨after, ran, settles, fun location elsewhere => saved.file_iff ?_⟩
  intro isWritten
  obtain ⟨path, among, same⟩ := List.mem_map.mp isWritten
  obtain ⟨job, isJob, isPlace⟩ := List.mem_flatMap.mp among
  exact elsewhere job isJob path isPlace same

/-- A script beside a file that is none, with an older file at the target of the latter. -/
theorem runConvert_independent_rejected :
    let older := Utf8.encode "older"
    let world : World := ⟨⟨[(["in"], .directory), (["in", "a.js"], .file (Utf8.encode "(")),
      (["in", "b.js"], .file (Utf8.encode "import{map}from'lodash'")), (["out"], .directory),
      (["out", "a.js"], .file older)]⟩, ⟨"/", []⟩, []⟩
    let output : Path := ⟨"", ["out"]⟩
    let request : ConvertRequest := ⟨⟨"", ["in"]⟩, some output, some ⟨"", ["t"]⟩, ⟨[], none, none⟩⟩
    let engine : Engine := ⟨.default, .bundled [], Usage.scan⟩
    let listed := ["a.js", "b.js"].map fun name => jobFor request.input output true [name]
    world.disk.Orderly ∧ world.disk.Rooted ∧ world.kind? request.input = some .directory ∧
      request.output = some output ∧
      ((settingsAround request.overrides request.input : Commanding _).run world).1 =
        .ok .default ∧
      ((loadSurface .default : Commanding _).run world).1 = .ok (.ok engine.surface) ∧
      jobs request .default world = listed ∧ Separate world (jobs request .default world) ∧
      ∃ after, (runConvert request : Commanding Nat).run world = (.ok 0, after) ∧
        (∀ job ∈ jobs request .default world, ∀ target ∈ job.target,
          Settled engine world after job target) ∧
        ∀ location, (∀ job ∈ jobs request .default world, ∀ path ∈ job.places,
            world.place path ≠ location) →
          ∀ content, after.disk.get? location = some (.file content) ↔
            world.disk.get? location = some (.file content) := by
  intro older world output request engine listed
  have orderly : world.disk.Orderly := ⟨by decide, by decide⟩
  have rooted : world.disk.Rooted := by decide
  have isDirectory : world.kind? request.input = some .directory := by decide +kernel
  have settled : ((settingsAround request.overrides request.input : Commanding _).run world).1 =
      .ok .default := by rfl
  have loaded : ((loadSurface .default : Commanding _).run world).1 = .ok (.ok engine.surface) := by
    rfl
  have asked : jobs request .default world = listed := by
    have found : (world.filesBelow request.input).filter
        (Sources.isSource Settings.default.extensions) = [["a.js"], ["b.js"]] := by
      decide +kernel
    have sorted : Sources.select Settings.default.extensions (world.filesBelow request.input) =
        [["a.js"], ["b.js"]] := by
      rw [Sources.select, found]
      exact List.mergeSort_of_pairwise (by decide)
    simp only [jobs, isDirectory, sorted]
    rfl
  have separate : Separate world (jobs request .default world) := by
    rw [asked]
    exact ⟨by decide +kernel, by decide +kernel, by decide +kernel, by decide +kernel⟩
  exact ⟨orderly, rooted, isDirectory, rfl, settled, loaded, asked, separate,
    runConvert_independent orderly rooted isDirectory rfl settled loaded separate⟩

/-- The trace of one script is a file where the target of another one needs a directory. -/
theorem runConvert_blocked :
    let world : World := ⟨⟨[(["in"], .directory), (["in", "a.js"], .file (Utf8.encode "var a;\n")),
      (["in", "a.js.trace.json"], .directory),
      (["in", "a.js.trace.json", "b.js"], .file (Utf8.encode "var b;\n"))]⟩, ⟨"/", []⟩, []⟩
    let output : Path := ⟨"", ["out"]⟩
    let request : ConvertRequest := ⟨⟨"", ["in"]⟩, some output, some ⟨"", ["t"]⟩, ⟨[], none, none⟩⟩
    let listed := [["a.js"], ["a.js.trace.json", "b.js"]].map (jobFor request.input output true)
    let target := Sources.pathOf output ["a.js.trace.json", "b.js"]
    let engine : Engine := ⟨.default, .bundled [], Usage.scan⟩
    let ran := (runConvert request : Commanding Nat).run world
    world.disk.Orderly ∧ world.disk.Rooted ∧ jobs request .default world = listed ∧
      ((listed.flatMap Job.places).Pairwise fun path other => world.place path ≠ world.place other) ∧
      (listed.Pairwise fun earlier later =>
        ∀ path ∈ earlier.places, world.place path ≠ world.place later.source) ∧
      (∀ job ∈ listed, ∀ target ∈ job.target, Open world target) ∧
      (engine.convert "var b;\n").toOption.any
        (fun conversion => conversion.success && conversion.code == "var b;\n") = true ∧
      ran.1.toOption = some 0 ∧ ran.2.at? target = none := by
  intro world output request listed target engine ran
  have isDirectory : world.kind? request.input = some .directory := by decide +kernel
  have sorted : Sources.select Settings.default.extensions (world.filesBelow request.input) =
      [["a.js"], ["a.js.trace.json", "b.js"]] := by
    have found : (world.filesBelow request.input).filter
        (Sources.isSource Settings.default.extensions) =
          [["a.js"], ["a.js.trace.json", "b.js"]] := by
      decide +kernel
    rw [Sources.select, found]
    exact List.mergeSort_of_pairwise (by decide)
  have asked : jobs request .default world = listed := by
    simp only [jobs, isDirectory, sorted]
    rfl
  have settled : ((settingsAround request.overrides request.input : Commanding _).run world).1 =
      .ok .default := by rfl
  have loaded : ((loadSurface .default : Commanding _).run world).1 = .ok (.ok engine.surface) := by
    rfl
  have collected : (Sources.collect request.input Settings.default.extensions : Commanding _).run
      world = (.ok [["a.js"], ["a.js.trace.json", "b.js"]], world) := by
    rw [← sorted]
    rfl
  have ends : ran.1.toOption = some 0 ∧ ran.2.at? target = none := by
    dsimp only [ran]
    rw [runConvert_eq isDirectory settled loaded, convertKind, convertDirectory,
      run_bind_ok collected]
    decide +kernel
  exact ⟨⟨by decide, by decide⟩, by decide, asked, by decide +kernel, by decide +kernel,
    by decide +kernel, by decide +kernel, ends⟩

end Command

end ImportRedirect
