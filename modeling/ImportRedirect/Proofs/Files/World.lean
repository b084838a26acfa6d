import ImportRedirect.Proofs.Files.Disk

/-!
What saving files does to a world. It is known from the paths where files are written and those
where directories are made: what stands elsewhere stays, and a path where a file can be saved stays
one while files are saved apart from it.
-/

namespace ImportRedirect

/-- What saving files can do to what stands at a location, when files are written and directories
made at these locations. -/
inductive Changed (written made : List Location) (location : Location) :
    Option Entry → Option Entry → Prop where
  | kept (entry : Option Entry) : Changed written made location entry entry
  | wrote {old : Option Entry} (content : List UInt8) : location ∈ written →
      old ≠ some .directory → Changed written made location old (some (.file content))
  | made : location ∈ made → Changed written made location none (some .directory)

namespace Changed

variable {written made written' made' : List Location} {location : Location}
  {first second third : Option Entry}

theorem trans (once : Changed written made location first second)
    (again : Changed written made location second third) :
    Changed written made location first third := by
  cases once with
  | kept => exact again
  | wrote content isWritten free =>
    cases again with
    | kept => exact .wrote content isWritten free
    | wrote other => exact .wrote other isWritten free
  | made isMade =>
    cases again with
    | kept => exact .made isMade
    | wrote _ _ free => exact absurd rfl free

theorem mono (writes : written ⊆ written') (makes : made ⊆ made')
    (changed : Changed written made location first second) :
    Changed written' made' location first second := by
  cases changed with
  | kept => exact .kept _
  | wrote content isWritten free => exact .wrote content (writes isWritten) free
  | made isMade => exact .made (makes isMade)

theorem directory (changed : Changed written made location (some .directory) second) :
    second = some .directory := by
  cases changed with
  | kept => rfl
  | wrote _ _ free => exact absurd rfl free

/-- A file stays what it is unless it is written. -/
theorem file {content : List UInt8} (outside : location ∉ written)
    (changed : Changed written made location (some (.file content)) second) :
    second = some (.file content) := by
  cases changed with
  | kept => rfl
  | wrote _ isWritten => exact absurd isWritten outside

/-- A location that can be passed can be passed unless a file is written there. -/
theorem passable (outside : location ∉ written)
    (changed : Changed written made location first second)
    (was : first = none ∨ first = some .directory) : second = none ∨ second = some .directory := by
  cases changed with
  | kept => exact was
  | wrote _ isWritten => exact absurd isWritten outside
  | made => exact .inr rfl

/-- No directory appears unless it is made. -/
theorem of_directory (outside : location ∉ made)
    (changed : Changed written made location first (some .directory)) :
    first = some .directory := by
  cases changed with
  | kept => rfl
  | made isMade => exact absurd isMade outside

theorem of_nothing (changed : Changed [] [] location first second) : second = first := by
  cases changed with
  | kept => rfl
  | wrote _ isWritten => simp at isWritten
  | made isMade => simp at isMade

theorem put {disk : Disk} {entry : Entry}
    (changed : Changed written made location (disk.get? location) (some entry)) (other : Location) :
    Changed written made other (disk.get? other) ((disk.put location entry).get? other) := by
  by_cases same : other = location
  · subst same
    by_cases top : other = []
    · -- The top stays a directory.
      subst top
      exact .kept _
    · rwa [disk.get?_put_self top]
  · rw [disk.get?_put_of_ne same]
    exact .kept _

end Changed

namespace World

variable {world before middle after : World} {path other : Path} {content : List UInt8}
  {files directories files' directories' : List Path} {entry : Entry} {root name : String}
  {parts : List String}

/-- The location where a path leads. -/
def place (world : World) (path : Path) : Location :=
  (Path.resolve world.workingDirectory path).parts

theorem place_eq (world : World) (path : Path) :
    world.place path = Path.collapse [] (world.absolute path).parts := rfl

/-- The locations that a path passes, where it starts and where it leads included. -/
def way (world : World) (path : Path) : List Location := path.ancestors.map world.place

theorem mem_way {location : Location} : location ∈ world.way path ↔
    ∃ steps, steps <+: path.parts ∧ world.place ⟨path.root, steps⟩ = location := by
  simp only [way, List.mem_map, Path.mem_ancestors]
  constructor
  · rintro ⟨_, ⟨steps, front, rfl⟩, rfl⟩
    exact ⟨steps, front, rfl⟩
  · rintro ⟨steps, front, rfl⟩
    exact ⟨_, ⟨steps, front, rfl⟩, rfl⟩

theorem place_mem_way (world : World) (path : Path) : world.place path ∈ world.way path :=
  List.mem_map_of_mem path.self_mem_ancestors

/-- A path takes its steps from where its root alone leads. -/
theorem absolute_parts (world : World) (path : Path) :
    (world.absolute path).parts = (world.absolute ⟨path.root, []⟩).parts ++ path.parts := by
  by_cases absolute : path.root = "" <;>
    simp [World.absolute, Path.join, Path.isAbsolute, absolute]

theorem at?_eq_some : world.at? path = some entry ↔
    ∃ location, world.disk.locate (world.absolute path) = .ok location ∧
      world.disk.get? location = some entry :=
  Disk.at?_eq_some

theorem eq_place {location : Location}
    (located : world.disk.locate (world.absolute path) = .ok location) :
    location = world.place path :=
  Disk.eq_collapse_of_walk located

theorem get?_place (there : world.at? path = some entry) :
    world.disk.get? (world.place path) = some entry := by
  obtain ⟨location, located, there⟩ := at?_eq_some.mp there
  rwa [← eq_place located]

/-- What is not where a path starts and leads on is not found, or a file stands in the way. -/
theorem locate_eq_error {problem : FileProblem}
    (starts : world.at? ⟨path.root, []⟩ = some .directory)
    (failed : world.disk.locate (world.absolute path) = .error problem) :
    problem = .notFound ∨ ∃ location ∈ world.way path, ∃ content,
      world.disk.get? location = some (.file content) := by
  obtain ⟨start, located, _⟩ := at?_eq_some.mp starts
  rw [Disk.locate, absolute_parts, Disk.walk_append located] at failed
  obtain missing | ⟨front, content, isFront, _, blocked⟩ := Disk.walk_eq_error failed
  · exact .inl missing
  · refine .inr ⟨_, mem_way.mpr ⟨front, isFront, ?_⟩, content, blocked⟩
    rw [place_eq, absolute_parts, Path.collapse_append, eq_place located]
    rfl

/-- Every name below a directory that stands leads somewhere. -/
theorem locate_of_directory (above : world.at? ⟨root, parts⟩ = some .directory) :
    world.disk.locate (world.absolute ⟨root, parts ++ [name]⟩) =
      .ok (world.place ⟨root, parts ++ [name]⟩) := by
  obtain ⟨location, located, there⟩ := at?_eq_some.mp above
  rw [Disk.locate, absolute_parts] at located
  have goes : world.disk.locate (world.absolute ⟨root, parts ++ [name]⟩) =
      .ok (if name == ".." then location.dropLast else location ++ [name]) := by
    rw [Disk.locate, absolute_parts, ← List.append_assoc, Disk.walk_append located, Disk.walk,
      there, Disk.walk]
  rw [goes, eq_place goes]

/-- Whatever stands somewhere stands in a directory. -/
theorem at?_front (there : world.at? ⟨root, parts ++ [name]⟩ = some entry) :
    world.at? ⟨root, parts⟩ = some .directory := by
  obtain ⟨location, located, _⟩ := at?_eq_some.mp there
  rw [Disk.locate, absolute_parts, ← List.append_assoc] at located
  obtain ⟨middle, walked, isDirectory⟩ := Disk.walk_concat_eq_ok located
  refine at?_eq_some.mpr ⟨middle, ?_, isDirectory⟩
  rwa [Disk.locate, absolute_parts]

theorem read_eq_ok : world.read path = .ok content ↔ world.at? path = some (.file content) :=
  Disk.read_eq_ok

theorem kind?_eq_directory : world.kind? path = some .directory ↔
    world.at? path = some .directory := by
  rw [kind?]
  cases world.at? path with
  | none => simp
  | some entry => cases entry <;> simp

theorem change_eq_ok {result : Except FileProblem Disk} :
    world.change result = (.ok (), after) ↔
      ∃ disk, result = .ok disk ∧ { world with disk } = after := by
  cases result <;> simp [change]

/-- A world before and after files were written and directories made where these paths lead. -/
structure Saved (files directories : List Path) (before after : World) : Prop where
  workingDirectory : after.workingDirectory = before.workingDirectory
  changed : ∀ location, Changed (files.map before.place) (directories.map before.place) location
    (before.disk.get? location) (after.disk.get? location)

namespace Saved

theorem refl (world : World) : Saved files directories world world := ⟨rfl, fun _ => .kept _⟩

theorem place (saved : Saved files directories before after) (path : Path) :
    after.place path = before.place path := by
  rw [World.place, World.place, saved.workingDirectory]

theorem trans (once : Saved files directories before middle)
    (again : Saved files directories middle after) : Saved files directories before after where
  workingDirectory := again.workingDirectory.trans once.workingDirectory
  changed location := by
    have places : middle.place = before.place := funext once.place
    have changed := again.changed location
    rw [places] at changed
    exact (once.changed location).trans changed

theorem put (world : World) (output : Output) :
    Saved files directories world (world.put output) :=
  ⟨rfl, fun _ => .kept _⟩

theorem mono (writes : files ⊆ files') (makes : directories ⊆ directories')
    (saved : Saved files directories before after) : Saved files' directories' before after where
  workingDirectory := saved.workingDirectory
  changed location := (saved.changed location).mono (List.map_subset _ writes)
    (List.map_subset _ makes)

theorem way (saved : Saved files directories before after) (path : Path) :
    after.way path = before.way path := by
  have places : after.place = before.place := funext saved.place
  rw [World.way, World.way, places]

theorem absolute (saved : Saved files directories before after) (path : Path) :
    after.absolute path = before.absolute path := by
  rw [World.absolute, World.absolute, saved.workingDirectory]

theorem keepsDirectories (saved : Saved files directories before after) :
    before.disk.KeepsDirectories after.disk := by
  intro location isDirectory
  have changed := saved.changed location
  rw [isDirectory] at changed
  exact changed.directory

theorem at?_of_directory (saved : Saved files directories before after)
    (there : before.at? path = some .directory) : after.at? path = some .directory := by
  obtain ⟨location, located, there⟩ := at?_eq_some.mp there
  refine at?_eq_some.mpr ⟨location, ?_, saved.keepsDirectories _ there⟩
  rw [saved.absolute]
  exact Disk.walk_of_keepsDirectories saved.keepsDirectories located

theorem at?_of_file (saved : Saved files directories before after)
    (outside : before.place path ∉ files.map before.place)
    (there : before.at? path = some (.file content)) :
    after.at? path = some (.file content) := by
  obtain ⟨location, located, there⟩ := at?_eq_some.mp there
  have changed := saved.changed location
  rw [there] at changed
  rw [← eq_place located] at outside
  refine at?_eq_some.mpr ⟨location, ?_, changed.file outside⟩
  rw [saved.absolute]
  exact Disk.walk_of_keepsDirectories saved.keepsDirectories located

theorem symm (shows : Saved [] [] before after) : Saved [] [] after before where
  workingDirectory := shows.workingDirectory.symm
  changed location := by
    rw [(shows.changed location).of_nothing]
    exact .kept _

/-- Where nothing was written or made, everything stands as before. -/
theorem at?_eq (shows : Saved [] [] before after) (path : Path) :
    after.at? path = before.at? path := by
  have keeps : ∀ {first second : World}, Saved [] [] first second → ∀ entry,
      first.at? path = some entry → second.at? path = some entry := by
    intro first second shows entry there
    cases entry with
    | directory => exact shows.at?_of_directory there
    | file content => exact shows.at?_of_file (by simp) there
  exact Option.ext fun entry => ⟨keeps shows.symm entry, keeps shows entry⟩

/-- Where nothing is written, the same files stand. -/
theorem file_iff {location : Location} (saved : Saved files directories before after)
    (outside : location ∉ files.map before.place) (content : List UInt8) :
    after.disk.get? location = some (.file content) ↔
      before.disk.get? location = some (.file content) := by
  have changed := saved.changed location
  generalize before.disk.get? location = first at changed
  generalize after.disk.get? location = second at changed
  cases changed with
  | kept => rfl
  | wrote _ isWritten => exact absurd isWritten outside
  | made => simp

end Saved

theorem saved_write (wrote : world.write path content = (.ok (), after)) :
    Saved [path] [] world after := by
  obtain ⟨_, onDisk, rfl⟩ := change_eq_ok.mp wrote
  obtain ⟨location, located, free, rfl⟩ := Disk.write_eq_ok.mp onDisk
  refine ⟨rfl, Changed.put (.wrote content ?_ free)⟩
  rw [eq_place located]
  exact List.mem_singleton_self _

theorem at?_of_write (wrote : world.write path content = (.ok (), after)) :
    after.at? path = some (.file content) := by
  obtain ⟨_, onDisk, rfl⟩ := change_eq_ok.mp wrote
  obtain ⟨location, located, free, rfl⟩ := Disk.write_eq_ok.mp onDisk
  exact Disk.at?_put located free _

theorem write_of_directory (content : List UInt8)
    (above : world.at? ⟨root, parts⟩ = some .directory)
    (free : world.disk.get? (world.place ⟨root, parts ++ [name]⟩) ≠ some .directory) :
    ∃ after, world.write ⟨root, parts ++ [name]⟩ content = (.ok (), after) :=
  ⟨_, change_eq_ok.mpr ⟨_, Disk.write_eq_ok.mpr ⟨_, locate_of_directory above, free, rfl⟩, rfl⟩⟩

theorem write_of_file {old : List UInt8} (there : world.at? path = some (.file old)) (content : List UInt8) :
    ∃ after, world.write path content = (.ok (), after) := by
  obtain ⟨location, located, stands⟩ := at?_eq_some.mp there
  have free : world.disk.get? location ≠ some .directory := by simp [stands]
  exact ⟨_, change_eq_ok.mpr ⟨_, Disk.write_eq_ok.mpr ⟨location, located, free, rfl⟩, rfl⟩⟩

/-- A file stands at the path with this content, in a directory. -/
structure Written (world : World) (path : Path) (content : List UInt8) : Prop where
  within : world.at? path.parent = some .directory
  stands : world.at? path = some (.file content)

theorem saved_makeDirectory (makes : world.makeDirectory path = (.ok (), after)) :
    Saved [] [path] world after := by
  obtain ⟨_, onDisk, rfl⟩ := change_eq_ok.mp makes
  obtain ⟨location, located, free, rfl⟩ := Disk.makeDirectory_eq_ok.mp onDisk
  refine ⟨rfl, Changed.put ?_⟩
  rw [free]
  apply Changed.made
  rw [eq_place located]
  exact List.mem_singleton_self _

theorem at?_of_makeDirectory (makes : world.makeDirectory path = (.ok (), after)) :
    after.at? path = some .directory := by
  obtain ⟨_, onDisk, rfl⟩ := change_eq_ok.mp makes
  obtain ⟨location, located, free, rfl⟩ := Disk.makeDirectory_eq_ok.mp onDisk
  exact Disk.at?_put located (by simp [free]) _

theorem change_eq_error {result : Except FileProblem Disk} {problem : FileProblem} :
    world.change result = (.error problem, after) ↔ result = .error problem ∧ world = after := by
  cases result <;> simp [change]

theorem makeDirectory_of_there (there : world.at? path = some entry) :
    world.makeDirectory path = (.error .alreadyExists, world) :=
  change_eq_error.mpr ⟨Disk.makeDirectory_eq_error.mpr (.inr ⟨rfl, entry, there⟩), rfl⟩

theorem makeDirectory_ne_notFound (above : world.at? ⟨root, parts⟩ = some .directory) :
    world.makeDirectory ⟨root, parts ++ [name]⟩ ≠ (.error .notFound, world) := by
  intro fails
  obtain ⟨onDisk, _⟩ := change_eq_error.mp fails
  obtain failed | ⟨impossible, _⟩ := Disk.makeDirectory_eq_error.mp onDisk
  · rw [locate_of_directory above] at failed
    simp at failed
  · cases impossible

/-- Where the path passes and leads there is a directory or nothing. -/
def Clear (world : World) (path : Path) : Prop :=
  ∀ location ∈ world.way path,
    world.disk.get? location = none ∨ world.disk.get? location = some .directory

instance (world : World) (path : Path) : Decidable (world.Clear path) :=
  inferInstanceAs (Decidable (∀ location ∈ world.way path, _ ∨ _))

theorem Clear.no_file (clear : Clear world path) {location : Location}
    (passed : location ∈ world.way path) :
    world.disk.get? location ≠ some (.file content) := by
  rcases clear location passed with nothing | isDirectory
  · simp [nothing]
  · simp [isDirectory]

theorem Clear.front {steps more : List String} (clear : Clear world ⟨root, more⟩)
    (front : steps <+: more) : Clear world ⟨root, steps⟩ :=
  fun location passed =>
    clear location (List.map_subset world.place (Path.ancestors_subset root front) passed)

theorem Clear.saved (clear : Clear before path) (saved : Saved files directories before after)
    (outside : ∀ location ∈ before.way path, location ∉ files.map before.place) :
    Clear after path := by
  intro location passed
  rw [saved.way] at passed
  exact (saved.changed location).passable (outside location passed) (clear location passed)

/-- Where no file stands in the way, making a directory fails only where one stands already or the
one above it is missing. -/
theorem cases_makeDirectory (starts : world.at? ⟨path.root, []⟩ = some .directory)
    (clear : Clear world path) :
    (∃ after, world.makeDirectory path = (.ok (), after)) ∨
      world.makeDirectory path = (.error .notFound, world) ∨
      world.makeDirectory path = (.error .alreadyExists, world) ∧
        world.at? path = some .directory := by
  cases makes : world.disk.makeDirectory (world.absolute path) with
  | ok disk => exact .inl ⟨_, change_eq_ok.mpr ⟨disk, makes, rfl⟩⟩
  | error problem =>
    have fails : world.makeDirectory path = (.error problem, world) :=
      change_eq_error.mpr ⟨makes, rfl⟩
    obtain failed | ⟨rfl, entry, there⟩ := Disk.makeDirectory_eq_error.mp makes
    · obtain rfl | ⟨location, passed, content, isFile⟩ := locate_eq_error starts failed
      · exact .inr (.inl fails)
      · exact absurd isFile (clear.no_file passed)
    · refine .inr (.inr ⟨fails, ?_⟩)
      cases entry with
      | directory => exact there
      | file content => exact absurd (get?_place there) (clear.no_file (world.place_mem_way path))

/-- A file can be saved at the path: the directories above it stand or can be made, and it would not
take the place of one. -/
structure Open (world : World) (path : Path) : Prop where
  starts : world.at? ⟨path.root, []⟩ = some .directory
  above : Clear world path.parent
  free : world.disk.get? (world.place path) ≠ some .directory
  leaves : world.place path ∉ world.way path.parent

instance (world : World) (path : Path) : Decidable (world.Open path) :=
  decidable_of_iff (_ ∧ _ ∧ _ ∧ _)
    ⟨fun ⟨starts, above, free, leaves⟩ => ⟨starts, above, free, leaves⟩,
      fun ⟨starts, above, free, leaves⟩ => ⟨starts, above, free, leaves⟩⟩

/-- A path stays open when nothing is written above it and no directory is made in its place. -/
theorem Open.saved (isOpen : Open before path) (saved : Saved files directories before after)
    (above : ∀ location ∈ before.way path.parent, location ∉ files.map before.place)
    (free : before.place path ∉ directories.map before.place) : Open after path where
  starts := saved.at?_of_directory isOpen.starts
  above := isOpen.above.saved saved above
  free isDirectory := by
    rw [saved.place] at isDirectory
    have changed := saved.changed (before.place path)
    rw [isDirectory] at changed
    exact isOpen.free (changed.of_directory free)
  leaves := by
    rw [saved.place, saved.way]
    exact isOpen.leaves

/-- Neither path leads to where the other passes or leads. -/
def Apart (world : World) (path other : Path) : Prop :=
  world.place path ∉ world.way other ∧ world.place other ∉ world.way path

instance (world : World) (path other : Path) : Decidable (world.Apart path other) :=
  inferInstanceAs (Decidable (_ ∧ _))

theorem Apart.place_ne (apart : Apart world path other) : world.place path ≠ world.place other :=
  fun same => apart.1 (same ▸ world.place_mem_way other)

theorem Saved.apart_iff (saved : Saved files directories before after) :
    Apart after path other ↔ Apart before path other := by
  rw [Apart, Apart, saved.place, saved.place, saved.way, saved.way]

theorem way_parent_subset (world : World) (path : Path) :
    world.way path.parent ⊆ world.way path :=
  List.map_subset _ (Path.ancestors_subset path.root (List.dropLast_prefix path.parts))

/-- What is apart from the files that are saved is none of the directories made for them. -/
theorem Apart.not_above {files : List Path} (apart : ∀ file ∈ files, Apart before file path) :
    before.place path ∉ (Path.above files).map before.place := by
  intro isMade
  obtain ⟨directory, among, same⟩ := List.mem_map.mp isMade
  obtain ⟨file, isFile, above⟩ := List.mem_flatMap.mp among
  apply (apart file isFile).2
  rw [← same]
  exact before.way_parent_subset file (List.mem_map_of_mem above)

theorem Apart.not_among {files : List Path} (apart : ∀ file ∈ files, Apart before file path) :
    before.place path ∉ files.map before.place := by
  intro isWritten
  obtain ⟨file, among, same⟩ := List.mem_map.mp isWritten
  exact (apart file among).place_ne same

/-- Saving files apart from an open path leaves it open. -/
theorem Open.of_apart (isOpen : Open before path)
    (saved : Saved files (Path.above files) before after)
    (apart : ∀ file ∈ files, Apart before file path) : Open after path := by
  refine isOpen.saved saved (fun location passed isWritten => ?_) (Apart.not_above apart)
  obtain ⟨file, among, rfl⟩ := List.mem_map.mp isWritten
  exact (apart file among).1 (before.way_parent_subset path passed)

/-- Saving files apart from a path leaves what stands where it leads. -/
theorem Saved.get?_of_apart (saved : Saved files (Path.above files) before after)
    (apart : ∀ file ∈ files, Apart before file path) :
    after.disk.get? (before.place path) = before.disk.get? (before.place path) := by
  have changed := saved.changed (before.place path)
  generalize before.disk.get? (before.place path) = first at changed
  generalize after.disk.get? (before.place path) = second at changed
  cases changed with
  | kept => rfl
  | wrote _ isWritten => exact absurd isWritten (Apart.not_among apart)
  | made isMade => exact absurd isMade (Apart.not_above apart)

/-- A path that is open takes a last step. -/
theorem Open.last (isOpen : Open world path) :
    ∃ root parts name, path = ⟨root, parts ++ [name]⟩ := by
  obtain ⟨root, steps⟩ := path
  rcases List.eq_nil_or_concat steps with rfl | ⟨parts, name, rfl⟩
  · exact absurd (world.place_mem_way _) isOpen.leaves
  · exact ⟨root, parts, name, by rw [List.concat_eq_append]⟩

end World

end ImportRedirect
