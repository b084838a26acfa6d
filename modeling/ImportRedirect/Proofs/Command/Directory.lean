import ImportRedirect.Proofs.Command.Convert

/-!
Converting a directory in place or to a place beside it. No source is lost before it is read, and no
conversion is lost afterwards: the sources of an orderly disk do not disturb each other.
-/

namespace ImportRedirect

theorem Path.collapse_plain (done : List String) {steps : List String} (plain : ".." ∉ steps) :
    collapse done steps = done.reverse ++ steps := by
  induction steps generalizing done with
  | nil => simp [collapse]
  | cons step steps inductionHypothesis =>
    rw [List.mem_cons, not_or] at plain
    rw [collapse, inductionHypothesis _ plain.2]
    · simp
    · exact fun up => plain.1 up.symm

namespace Disk

variable {disk : Disk} {path : Path} {top location names : Location} {entry : Entry}

/-- No location has a step upward, and nothing but a file itself lies where it stands or below. -/
structure Orderly (disk : Disk) : Prop where
  plain : ∀ entry ∈ disk.entries, ".." ∉ entry.1
  leaves : disk.entries.Pairwise fun entry other =>
    (entry.2 ≠ .directory → ¬ entry.1 <+: other.1) ∧
      (other.2 ≠ .directory → ¬ other.1 <+: entry.1)

theorem stepsBelow?_eq_some : stepsBelow? top location = some names ↔ location = top ++ names := by
  fun_induction stepsBelow? top location
  case case1 => simp
  case case2 => simp
  case case3 step top other location same inductionHypothesis =>
    rw [inductionHypothesis, List.cons_append, List.cons.injEq, beq_iff_eq.mp same]
    simp
  case case4 step top other location different =>
    have apart : other ≠ step := fun same => different (beq_iff_eq.mpr same.symm)
    simp [apart]

/-- What is found below a directory is a file there. -/
theorem below_eq_some (below : (match entry with
      | .directory => none
      | .file _ => (stepsBelow? top location).filter (!·.isEmpty)) = some names) :
    entry ≠ .directory ∧ location = top ++ names := by
  cases entry with
  | directory => simp at below
  | file content =>
    obtain ⟨found, _⟩ := Option.filter_eq_some_iff.mp below
    exact ⟨by simp, stepsBelow?_eq_some.mp found⟩

/-- Of the files in a directory, none lies below another. -/
theorem Orderly.filesBelow (orderly : disk.Orderly) (path : Path) :
    (disk.filesBelow path).Pairwise fun names others =>
      ¬ names <+: others ∧ ¬ others <+: names := by
  cases located : disk.locate path with
  | error problem => simp [Disk.filesBelow, located]
  | ok top =>
    simp only [Disk.filesBelow, located, List.pairwise_filterMap]
    refine orderly.leaves.imp ?_
    rintro ⟨location, entry⟩ ⟨other, otherEntry⟩ ⟨leaf, otherLeaf⟩ names below others othersBelow
    obtain ⟨isFile, rfl⟩ := below_eq_some below
    obtain ⟨otherIsFile, rfl⟩ := below_eq_some othersBelow
    have apart := leaf isFile
    have otherApart := otherLeaf otherIsFile
    rw [List.prefix_append_right_inj] at apart otherApart
    exact ⟨apart, otherApart⟩

theorem Orderly.plain_below (orderly : disk.Orderly) (membership : names ∈ disk.filesBelow path) :
    ".." ∉ names := by
  rw [Disk.filesBelow] at membership
  split at membership
  · simp at membership
  · obtain ⟨⟨location, entry⟩, among, below⟩ := List.mem_filterMap.mp membership
    obtain ⟨_, rfl⟩ := below_eq_some below
    exact fun up => orderly.plain _ among (List.mem_append_right _ up)

end Disk

theorem Sources.mem_of_select {extensions : List String} {files : List (List String)}
    {names : List String} (membership : names ∈ select extensions files) : names ∈ files :=
  (List.mem_filter.mp ((List.mergeSort_perm _ _).mem_iff.mp membership)).1

/-- Of the sources in a directory, none lies below another. -/
theorem Sources.select_apart {disk : Disk} (orderly : disk.Orderly) (path : Path)
    (extensions : List String) :
    (select extensions (disk.filesBelow path)).Pairwise fun names others =>
      ¬ names <+: others ∧ ¬ others <+: names :=
  ((List.mergeSort_perm _ _).pairwise_iff And.symm).mpr ((orderly.filesBelow path).filter _)

theorem Sources.pathOf_eq (directory : Path) (names : List String) :
    pathOf directory names = ⟨directory.root, directory.parts ++ names⟩ := by
  simp [pathOf, Path.join, Path.isAbsolute]

namespace World

variable {world : World} {directory : Path} {names others : List String} {location : Location}

theorem place_append {root : String} {parts : List String} (plain : ".." ∉ names) :
    world.place ⟨root, parts ++ names⟩ = world.place ⟨root, parts⟩ ++ names := by
  have whole := world.absolute_parts ⟨root, parts ++ names⟩
  have front := world.absolute_parts ⟨root, parts⟩
  rw [← List.append_assoc, ← front] at whole
  rw [place_eq, whole, Path.collapse_append, Path.collapse_plain _ plain, List.reverse_reverse,
    place_eq]

theorem place_pathOf (plain : ".." ∉ names) :
    world.place (Sources.pathOf directory names) = world.place directory ++ names := by
  rw [Sources.pathOf_eq, place_append plain]

theorem mem_way_pathOf (plain : ".." ∉ names)
    (passed : location ∈ world.way (Sources.pathOf directory names)) :
    location ∈ world.way directory ∨ ∃ front, front <+: names ∧
      location = world.place directory ++ front := by
  rw [Sources.pathOf_eq] at passed
  obtain ⟨steps, isFront, rfl⟩ := mem_way.mp passed
  rcases List.prefix_or_prefix_of_prefix isFront (List.prefix_append directory.parts names) with
    short | ⟨front, rfl⟩
  · exact .inl (mem_way.mpr ⟨steps, short, rfl⟩)
  · rw [List.prefix_append_right_inj] at isFront
    refine .inr ⟨front, isFront, ?_⟩
    exact place_append fun up => plain (isFront.subset up)

/-- The way to a directory without steps upward goes down to it. -/
theorem prefix_of_mem_way (direct : ".." ∉ directory.parts)
    (passed : location ∈ world.way directory) : location <+: world.place directory := by
  obtain ⟨root, parts⟩ := directory
  obtain ⟨steps, ⟨rest, rfl⟩, rfl⟩ := mem_way.mp passed
  rw [place_append fun up => direct (List.mem_append_right _ up)]
  exact List.prefix_append _ _

/-- Files of one directory are apart when neither lies below the other. -/
theorem apart_pathOf (direct : ".." ∉ directory.parts) (plain : ".." ∉ names)
    (otherPlain : ".." ∉ others) (below : ¬ names <+: others) :
    world.place (Sources.pathOf directory names) ∉ world.way (Sources.pathOf directory others) := by
  intro passed
  rw [place_pathOf plain] at passed
  rcases mem_way_pathOf otherPlain passed with above | ⟨front, isFront, same⟩
  · have short := (prefix_of_mem_way direct above).length_le
    have long : 0 < names.length := by
      apply List.length_pos_iff.mpr
      rintro rfl
      exact below List.nil_prefix
    rw [List.length_append] at short
    omega
  · rw [List.append_cancel_left same] at below
    exact below isFront

end World

namespace Command

open World

variable {world : World} {request : ConvertRequest} {settings : Settings} {output : Path}

/-- The sources of an orderly disk do not disturb each other when they are converted in place, or
into a directory when neither directory lies within the other. -/
theorem undisturbed_directory (orderly : world.disk.Orderly)
    (isDirectory : world.kind? request.input = some .directory)
    (aimed : request.output = some output) (untraced : request.trace = none)
    (direct : ".." ∉ output.parts)
    (beside : world.place request.input = world.place output ∨
      ¬ world.place request.input <+: world.place output ∧
        ¬ world.place output <+: world.place request.input) :
    Undisturbed world (jobs request settings world) := by
  have pairs := Sources.select_apart orderly (world.absolute request.input) settings.extensions
  have plain : ∀ names ∈ Sources.select settings.extensions (world.filesBelow request.input),
      ".." ∉ names := fun names membership =>
    orderly.plain_below (Sources.mem_of_select membership)
  simp only [jobs, isDirectory, aimed, untraced]
  constructor
  · have places : ∀ sources : List (List String),
        (sources.map (jobFor request.input output false)).flatMap Job.places =
          sources.map (Sources.pathOf output) := by
      intro sources
      rw [List.flatMap_map, List.map_eq_flatMap]
      rfl
    rw [Option.isSome_none, places, List.pairwise_map]
    apply pairs.imp_of_mem
    rintro names others membership otherMembership ⟨below, otherBelow⟩
    exact ⟨apart_pathOf direct (plain _ membership) (plain _ otherMembership) below,
      apart_pathOf direct (plain _ otherMembership) (plain _ membership) otherBelow⟩
  · rw [List.pairwise_map]
    apply pairs.imp_of_mem
    rintro names others membership otherMembership ⟨below, otherBelow⟩ path isPlace
    obtain rfl : path = Sources.pathOf output names := by
      simpa [Job.places, jobFor] using isPlace
    intro same
    have ends : world.place output ++ names = world.place request.input ++ others := by
      rw [← place_pathOf (plain _ membership), same]
      exact place_pathOf (plain _ otherMembership)
    rcases beside with inPlace | ⟨within, contains⟩
    · rw [inPlace] at ends
      exact below (List.append_cancel_left ends ▸ List.prefix_rfl)
    · rcases List.prefix_or_prefix_of_prefix (List.prefix_append _ names)
        (ends ▸ List.prefix_append _ others) with inside | outside
      · exact contains inside
      · exact within outside

end Command

end ImportRedirect
