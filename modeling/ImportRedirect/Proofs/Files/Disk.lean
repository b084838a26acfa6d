import ImportRedirect.World

/-!
Where paths lead on a disk, and what making a directory or writing a file changes. A walk that
succeeds ends where its names say, and only what stands there can be changed.
-/

namespace ImportRedirect

namespace Path

theorem collapse_append (done front rest : List String) :
    collapse done (front ++ rest) = collapse (collapse done front).reverse rest := by
  fun_induction collapse done front
  case case1 => simp
  case case2 inductionHypothesis =>
    rw [List.cons_append, collapse, inductionHypothesis]
  case case3 part _ notUp inductionHypothesis =>
    rw [List.cons_append, collapse, inductionHypothesis]
    exact notUp

theorem mem_ancestors {path other : Path} : other ∈ path.ancestors ↔
    ∃ steps, steps <+: path.parts ∧ other = ⟨path.root, steps⟩ := by
  simp only [ancestors, List.mem_map, List.mem_reverse, List.mem_range]
  constructor
  · rintro ⟨count, _, rfl⟩
    exact ⟨_, List.take_prefix _ _, rfl⟩
  · rintro ⟨steps, front, rfl⟩
    refine ⟨steps.length, Nat.lt_succ_of_le front.length_le, ?_⟩
    rw [← List.prefix_iff_eq_take.mp front]

@[simp] theorem parent_concat (root : String) (parts : List String) (name : String) :
    parent ⟨root, parts ++ [name]⟩ = ⟨root, parts⟩ := by
  simp [parent]

theorem self_mem_ancestors (path : Path) : path ∈ path.ancestors :=
  mem_ancestors.mpr ⟨path.parts, List.prefix_rfl, rfl⟩

theorem ancestors_subset (root : String) {steps more : List String} (front : steps <+: more) :
    ancestors ⟨root, steps⟩ ⊆ ancestors ⟨root, more⟩ := by
  intro other membership
  obtain ⟨fewer, isFront, rfl⟩ := mem_ancestors.mp membership
  exact mem_ancestors.mpr ⟨fewer, isFront.trans front, rfl⟩

/-- The directories above files. -/
def above (files : List Path) : List Path := files.flatMap (·.parent.ancestors)

theorem above_singleton (path : Path) : above [path] = path.parent.ancestors := by
  simp [above]

theorem above_subset {files more : List Path} (among : files ⊆ more) :
    above files ⊆ above more := by
  intro directory membership
  obtain ⟨file, isFile, isAbove⟩ := List.mem_flatMap.mp membership
  exact List.mem_flatMap.mpr ⟨file, among isFile, isAbove⟩

end Path

namespace Disk

variable {disk before middle after : Disk} {place location : Location} {steps : List String}
  {path : Path} {content : List UInt8} {entry : Entry} {name : String}

/-- A walk that succeeds ends where its steps lead, whatever else is on the disk. -/
theorem eq_collapse_of_walk (walked : disk.walk place steps = .ok location) :
    location = Path.collapse place.reverse steps := by
  induction steps generalizing place with
  | nil => rw [Path.collapse, List.reverse_reverse, Except.ok.inj walked]
  | cons step steps inductionHypothesis =>
    rw [walk] at walked
    split at walked
    · simp at walked
    · simp at walked
    · rw [inductionHypothesis walked]
      by_cases up : step = ".."
      · subst up
        simp [Path.collapse, List.tail_reverse]
      · simp [Path.collapse, up]

theorem walk_append {middle : Location} (walked : disk.walk place steps = .ok middle)
    (more : List String) : disk.walk place (steps ++ more) = disk.walk middle more := by
  induction steps generalizing place with
  | nil => rw [List.nil_append, Except.ok.inj walked]
  | cons step steps inductionHypothesis =>
    rw [walk] at walked
    rw [List.cons_append, walk]
    split
    · next missing => simp [missing] at walked
    · next blocked => simp [blocked] at walked
    · next there =>
      rw [there] at walked
      exact inductionHypothesis walked

/-- The last step of a walk is taken in a directory. -/
theorem walk_concat_eq_ok (walked : disk.walk place (steps ++ [name]) = .ok location) :
    ∃ middle, disk.walk place steps = .ok middle ∧ disk.get? middle = some .directory := by
  cases fronts : disk.walk place steps with
  | error problem =>
    exfalso
    induction steps generalizing place with
    | nil => simp [walk] at fronts
    | cons first rest inductionHypothesis =>
      rw [walk] at fronts
      rw [List.cons_append, walk] at walked
      split at fronts
      · next missing => simp [missing] at walked
      · next blocked => simp [blocked] at walked
      · next there =>
        rw [there] at walked
        exact inductionHypothesis walked fronts
  | ok middle =>
    rw [walk_append fronts, walk] at walked
    refine ⟨middle, rfl, ?_⟩
    split at walked
    · simp at walked
    · simp at walked
    · assumption

/-- A walk fails for want of a directory, or because a file stands in its way. -/
theorem walk_eq_error {problem : FileProblem} (failed : disk.walk place steps = .error problem) :
    problem = .notFound ∨ ∃ front content, front <+: steps ∧ front ≠ steps ∧
      disk.get? (Path.collapse place.reverse front) = some (.file content) := by
  induction steps generalizing place with
  | nil => simp [walk] at failed
  | cons step steps inductionHypothesis =>
    rw [walk] at failed
    split at failed
    · exact .inl (Except.error.inj failed).symm
    · next content blocked =>
      refine .inr ⟨[], content, List.nil_prefix, by simp, ?_⟩
      rwa [Path.collapse, List.reverse_reverse]
    · obtain isMissing | ⟨front, content, isFront, short, blocked⟩ := inductionHypothesis failed
      · exact .inl isMissing
      · refine .inr ⟨step :: front, content, ?_, ?_, ?_⟩
        · exact List.prefix_cons_inj step |>.mpr isFront
        · simpa using short
        · by_cases up : step = ".."
          · subst up
            simpa [Path.collapse, List.tail_reverse] using blocked
          · simpa [Path.collapse, up] using blocked

/-- The directories of one disk are directories of another. -/
def KeepsDirectories (before after : Disk) : Prop :=
  ∀ location, before.get? location = some .directory → after.get? location = some .directory

theorem keepsDirectories_put (free : disk.get? location ≠ some .directory) (entry : Entry) :
    KeepsDirectories disk (disk.put location entry) := by
  intro other there
  rw [get?_put_of_ne]
  · exact there
  · rintro rfl
    exact free there

theorem walk_of_keepsDirectories (keeps : KeepsDirectories before after)
    (walked : before.walk place steps = .ok location) : after.walk place steps = .ok location := by
  induction steps generalizing place with
  | nil => exact walked
  | cons step steps inductionHypothesis =>
    cases there : before.get? place with
    | none => simp [walk, there] at walked
    | some entry =>
      cases entry with
      | file content => simp [walk, there] at walked
      | directory =>
        rw [walk, there] at walked
        rw [walk, keeps place there]
        exact inductionHypothesis walked

theorem at?_eq_some : disk.at? path = some entry ↔
    ∃ location, disk.locate path = .ok location ∧ disk.get? location = some entry := by
  rw [at?]
  cases disk.locate path <;> simp

/-- What was put where a path leads stands there. -/
theorem at?_put (located : disk.locate path = .ok location)
    (free : disk.get? location ≠ some .directory) (entry : Entry) :
    (disk.put location entry).at? path = some entry := by
  have below : location ≠ [] := by
    rintro rfl
    exact free rfl
  have again := walk_of_keepsDirectories (keepsDirectories_put free entry) located
  exact at?_eq_some.mpr ⟨location, again, get?_put_self disk below entry⟩

theorem problem_of_throw {α : Type} (problem : FileProblem) :
    (throw problem : Except FileProblem α) = .error problem := rfl

theorem read_eq_ok : disk.read path = .ok content ↔ disk.at? path = some (.file content) := by
  rw [read, at?_eq_some]
  cases disk.locate path with
  | error problem => simp [bind, Except.bind]
  | ok location =>
    simp only [bind, Except.bind]
    cases there : disk.get? location with
    | none => simp [there, problem_of_throw]
    | some entry => cases entry <;> simp [there, problem_of_throw, pure, Except.pure]

theorem write_eq_ok : disk.write path content = .ok after ↔
    ∃ location, disk.locate path = .ok location ∧ disk.get? location ≠ some .directory ∧
      disk.put location (.file content) = after := by
  rw [write]
  cases disk.locate path with
  | error problem => simp [bind, Except.bind]
  | ok location =>
    simp only [bind, Except.bind]
    cases there : disk.get? location with
    | none => simp [there, pure, Except.pure]
    | some entry => cases entry <;> simp [there, problem_of_throw, pure, Except.pure]

theorem makeDirectory_eq_ok : disk.makeDirectory path = .ok after ↔
    ∃ location, disk.locate path = .ok location ∧ disk.get? location = none ∧
      disk.put location .directory = after := by
  rw [makeDirectory]
  cases disk.locate path with
  | error problem => simp [bind, Except.bind]
  | ok location =>
    simp only [bind, Except.bind]
    cases there : disk.get? location <;> simp [there, problem_of_throw, pure, Except.pure]

theorem makeDirectory_eq_error {problem : FileProblem} :
    disk.makeDirectory path = .error problem ↔ disk.locate path = .error problem ∨
      problem = .alreadyExists ∧ ∃ entry, disk.at? path = some entry := by
  simp only [at?_eq_some]
  rw [makeDirectory]
  cases disk.locate path with
  | error other => simp [bind, Except.bind]
  | ok location =>
    simp only [bind, Except.bind]
    cases there : disk.get? location with
    | none => simp [there, pure, Except.pure]
    | some entry => simp [there, problem_of_throw, eq_comm]

end Disk

end ImportRedirect
