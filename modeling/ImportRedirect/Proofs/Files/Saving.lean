import ImportRedirect.Proofs.Files.World
import ImportRedirect.Proofs.Work

/-!
Work that saves files. It ends without a fault and changes nothing but what it says it writes and
makes, and a file can be saved at every path that is open.
-/

namespace ImportRedirect

/-- What a command does: work on a world that a fault can stop. -/
abbrev Commanding (α : Type) : Type := ExceptT Fault Session α

namespace Commanding

open Work World

variable {α β : Type} {files directories files' directories' : List Path}
  {world after : World} {path : Path} {root : String} {content : List UInt8}
  {outcome : Except FileError Unit}

@[simp] theorem run_kind? (path : Path) (world : World) :
    (Host.kind? path : Commanding _).run world = (.ok (world.kind? path), world) := rfl

@[simp] theorem run_read (path : Path) (world : World) :
    (Host.read path : Commanding _).run world = (.ok (world.read path), world) := rfl

@[simp] theorem run_write (path : Path) (content : List UInt8) (world : World) :
    (Host.write path content : Commanding _).run world =
      (.ok (world.write path content).1, (world.write path content).2) := rfl

@[simp] theorem run_makeDirectory (path : Path) (world : World) :
    (Host.makeDirectory path : Commanding _).run world =
      (.ok (world.makeDirectory path).1, (world.makeDirectory path).2) := rfl

@[simp] theorem run_log (level : Level) (message : String) (world : World) :
    (Host.log level message : Commanding Unit).run world =
      (.ok (), world.put (.log ⟨level, message⟩)) := rfl

/-- Work that ends without a fault and writes files and makes directories only where these paths
lead. -/
def Saves (files directories : List Path) (action : Commanding α) : Prop :=
  ∀ world, ∃ result after, action.run world = (.ok result, after) ∧
    Saved files directories world after

theorem saves_pure (value : α) : Saves files directories (pure value : Commanding α) :=
  fun world => ⟨value, world, rfl, .refl world⟩

theorem Saves.bind {first : Commanding α} {next : α → Commanding β}
    (starts : Saves files directories first)
    (follows : ∀ value, Saves files directories (next value)) :
    Saves files directories (first >>= next) := by
  intro world
  obtain ⟨value, middle, ran, saved⟩ := starts world
  obtain ⟨result, after, continued, savedOn⟩ := follows value middle
  refine ⟨result, after, ?_, saved.trans savedOn⟩
  rw [run_bind_ok ran, continued]

theorem Saves.mono {action : Commanding α} (saves : Saves files directories action)
    (writes : files ⊆ files') (makes : directories ⊆ directories') :
    Saves files' directories' action := by
  intro world
  obtain ⟨result, after, ran, saved⟩ := saves world
  exact ⟨result, after, ran, saved.mono writes makes⟩

theorem saves_ite {condition : Prop} [Decidable condition] {yes no : Commanding α}
    (ifYes : Saves files directories yes) (ifNo : Saves files directories no) :
    Saves files directories (if condition then yes else no) := by
  split
  · exact ifYes
  · exact ifNo

theorem saves_kind? (path : Path) : Saves files directories (Host.kind? path : Commanding _) :=
  fun world => ⟨_, world, rfl, .refl world⟩

theorem saves_put (output : Output) : Saves files directories (Host.put output : Commanding _) :=
  fun _ => ⟨_, _, rfl, rfl, fun _ => .kept _⟩

theorem saves_read (path : Path) : Saves files directories (Host.read path : Commanding _) :=
  fun world => ⟨_, world, rfl, .refl world⟩

theorem saves_forM {step : α → Commanding Unit} {items : List α}
    (saves : ∀ item ∈ items, Saves files directories (step item)) :
    Saves files directories (items.forM step) := by
  induction items with
  | nil => exact saves_pure ()
  | cons first rest inductionHypothesis =>
    apply (saves first List.mem_cons_self).bind
    intro _
    exact inductionHypothesis fun item membership => saves item (List.mem_cons_of_mem _ membership)

theorem saves_write (path : Path) (content : List UInt8) :
    Saves [path] [] (Host.write path content : Commanding _) := by
  intro world
  refine ⟨_, _, run_write path content world, ?_⟩
  cases wrote : world.write path content with
  | mk result after =>
    cases result with
    | ok => exact saved_write wrote
    | error problem =>
      obtain ⟨_, rfl⟩ := change_eq_error.mp wrote
      exact .refl world

theorem saves_makeDirectory (path : Path) :
    Saves [] [path] (Host.makeDirectory path : Commanding _) := by
  intro world
  refine ⟨_, _, run_makeDirectory path world, ?_⟩
  cases makes : world.makeDirectory path with
  | mk result after =>
    cases result with
    | ok => exact saved_makeDirectory makes
    | error problem =>
      obtain ⟨_, rfl⟩ := change_eq_error.mp makes
      exact .refl world

theorem saves_makeDirectoryOnce (path : Path) :
    Saves [] [path] (Host.makeDirectoryOnce path : Commanding _) := by
  refine (saves_makeDirectory path).bind fun result => ?_
  cases result with
  | ok => exact saves_pure _
  | error problem =>
    refine (saves_kind? path).bind fun kind => ?_
    split <;> exact saves_pure _

theorem saves_makeDirectoriesAt (root : String) (names : List String) :
    Saves [] (Path.ancestors ⟨root, names.reverse⟩)
      (Host.makeDirectoriesAt root names : Commanding _) := by
  induction names with
  | nil =>
    exact (saves_makeDirectoryOnce _).mono (List.Subset.refl _) (by simp [Path.self_mem_ancestors])
  | cons last above inductionHypothesis =>
    have own : [(⟨root, (last :: above).reverse⟩ : Path)] ⊆
        Path.ancestors ⟨root, (last :: above).reverse⟩ := by
      simp [Path.self_mem_ancestors]
    have others : Path.ancestors ⟨root, above.reverse⟩ ⊆
        Path.ancestors ⟨root, (last :: above).reverse⟩ := by
      apply Path.ancestors_subset
      rw [List.reverse_cons]
      exact List.prefix_append _ _
    refine ((saves_makeDirectory _).mono (List.Subset.refl _) own).bind fun result => ?_
    split
    · exact saves_pure _
    · refine (inductionHypothesis.mono (List.Subset.refl _) others).bind fun result => ?_
      cases result with
      | ok => exact (saves_makeDirectoryOnce _).mono (List.Subset.refl _) own
      | error error => exact saves_pure _
    · refine (saves_kind? _).bind fun kind => ?_
      split <;> exact saves_pure _

theorem saves_makeDirectories (path : Path) :
    Saves [] path.ancestors (Host.makeDirectories path : Commanding _) := by
  have saves := saves_makeDirectoriesAt path.root path.parts.reverse
  rwa [List.reverse_reverse] at saves

theorem saves_save (path : Path) (content : List UInt8) :
    Saves [path] (Path.above [path]) (Host.save path content : Commanding _) := by
  rw [Path.above_singleton]
  refine ((saves_makeDirectories path.parent).mono (List.nil_subset _) (List.Subset.refl _)).bind
    fun result => ?_
  cases result with
  | error error => exact saves_pure _
  | ok =>
    refine ((saves_write path content).mono (List.Subset.refl _) (List.nil_subset _)).bind
      fun result => ?_
    cases result <;> exact saves_pure _

theorem run_makeDirectoryOnce (starts : world.at? ⟨path.root, []⟩ = some .directory)
    (clear : Clear world path)
    (reached : world.makeDirectory path ≠ (.error .notFound, world)) :
    ∃ after, (Host.makeDirectoryOnce path : Commanding _).run world = (.ok (.ok ()), after) ∧
      after.at? path = some .directory := by
  have runs := run_makeDirectory path world
  obtain ⟨after, makes⟩ | fails | ⟨fails, there⟩ := cases_makeDirectory starts clear
  · rw [makes] at runs
    refine ⟨after, ?_, at?_of_makeDirectory makes⟩
    rw [Host.makeDirectoryOnce, run_bind_ok runs]
    rfl
  · exact absurd fails reached
  · rw [fails] at runs
    refine ⟨world, ?_, there⟩
    rw [Host.makeDirectoryOnce, run_bind_ok runs, run_bind_ok (run_kind? _ _),
      beq_iff_eq.mpr (kind?_eq_directory.mpr there)]
    rfl

/-- Where no file stands in the way, making a directory and those above it succeeds. -/
theorem run_makeDirectoriesAt (names : List String)
    (starts : world.at? ⟨root, []⟩ = some .directory)
    (clear : Clear world ⟨root, names.reverse⟩) :
    ∃ after, (Host.makeDirectoriesAt root names : Commanding _).run world = (.ok (.ok ()), after) ∧
      after.at? ⟨root, names.reverse⟩ = some .directory := by
  induction names with
  | nil =>
    apply run_makeDirectoryOnce starts clear
    rw [List.reverse_nil, makeDirectory_of_there starts]
    simp
  | cons last above inductionHypothesis =>
    rw [List.reverse_cons] at clear ⊢
    have runs := run_makeDirectory ⟨root, above.reverse ++ [last]⟩ world
    rw [Host.makeDirectoriesAt, List.reverse_cons]
    obtain ⟨after, makes⟩ | fails | ⟨fails, there⟩ :=
      @cases_makeDirectory world ⟨root, above.reverse ++ [last]⟩ starts clear
    · rw [makes] at runs
      refine ⟨after, ?_, at?_of_makeDirectory makes⟩
      rw [run_bind_ok runs]
      rfl
    · -- The directories above are made, and then this one.
      rw [fails] at runs
      obtain ⟨middle, making, isDirectory⟩ :=
        inductionHypothesis (clear.front (List.prefix_append _ _))
      obtain ⟨_, _, ran, saved⟩ := saves_makeDirectoriesAt root above world
      obtain ⟨_, rfl⟩ := Prod.mk.inj (making.symm.trans ran)
      obtain ⟨after, made, there⟩ := run_makeDirectoryOnce (saved.at?_of_directory starts)
        (clear.saved saved (by simp)) (makeDirectory_ne_notFound isDirectory)
      refine ⟨after, ?_, there⟩
      rw [run_bind_ok runs, run_bind_ok making]
      exact made
    · rw [fails] at runs
      refine ⟨world, ?_, there⟩
      rw [run_bind_ok runs, run_bind_ok (run_kind? _ _),
        beq_iff_eq.mpr (kind?_eq_directory.mpr there)]
      rfl

theorem run_makeDirectories (clear : Clear world path)
    (starts : world.at? ⟨path.root, []⟩ = some .directory) :
    ∃ after, (Host.makeDirectories path : Commanding _).run world = (.ok (.ok ()), after) ∧
      after.at? path = some .directory ∧ Saved [] path.ancestors world after := by
  have made := run_makeDirectoriesAt path.parts.reverse starts
  rw [List.reverse_reverse] at made
  obtain ⟨after, making, isDirectory⟩ := made clear
  obtain ⟨_, _, ran, saved⟩ := saves_makeDirectories path world
  obtain ⟨_, rfl⟩ := Prod.mk.inj (making.symm.trans ran)
  exact ⟨after, making, isDirectory, saved⟩

/-- A file can be saved at a path that is open, and then it stands there. -/
theorem run_save (isOpen : Open world path) (content : List UInt8) :
    ∃ after, (Host.save path content : Commanding _).run world = (.ok (.ok ()), after) ∧
      after.at? path = some (.file content) := by
  obtain ⟨root, parts, name, rfl⟩ := isOpen.last
  obtain ⟨middle, making, isDirectory, saved⟩ := run_makeDirectories isOpen.above isOpen.starts
  have free := (isOpen.saved saved (by simp) isOpen.leaves).free
  rw [Path.parent_concat] at isDirectory
  obtain ⟨after, wrote⟩ := write_of_directory content isDirectory free
  refine ⟨after, ?_, at?_of_write wrote⟩
  rw [Host.save, run_bind_ok making, run_bind_ok (run_write _ content middle), wrote]
  rfl

/-- A directory that was not made may stand already. -/
theorem run_standing_iff {problem : FileProblem}
    (ran : (do
        if (← Host.kind? path) == some .directory then return .ok ()
        else return .error ⟨problem, path⟩ : Commanding (Except FileError Unit)).run world =
      (.ok outcome, after)) :
    outcome = .ok () ↔ after.at? path = some .directory := by
  rw [run_bind_ok (run_kind? path world)] at ran
  by_cases there : world.at? path = some .directory
  · rw [beq_iff_eq.mpr (kind?_eq_directory.mpr there)] at ran
    obtain ⟨rfl, rfl⟩ := by simpa using ran
    simp [there]
  · have absent : (world.kind? path == some .directory) = false := by
      simpa [kind?_eq_directory] using there
    rw [absent] at ran
    obtain ⟨rfl, rfl⟩ := by simpa using ran
    simp [there]

/-- A directory stands where one was to be made exactly when that succeeded. -/
theorem run_makeDirectoryOnce_iff
    (ran : (Host.makeDirectoryOnce path : Commanding _).run world = (.ok outcome, after)) :
    outcome = .ok () ↔ after.at? path = some .directory := by
  rw [Host.makeDirectoryOnce, run_bind_ok (run_makeDirectory path world)] at ran
  cases makes : world.makeDirectory path with
  | mk result middle =>
    rw [makes] at ran
    cases result with
    | ok =>
      obtain ⟨rfl, rfl⟩ := by simpa using ran
      exact iff_of_true rfl (at?_of_makeDirectory makes)
    | error problem =>
      obtain ⟨_, rfl⟩ := change_eq_error.mp makes
      exact run_standing_iff ran

theorem run_makeDirectoriesAt_iff {root : String} {names : List String}
    (ran : (Host.makeDirectoriesAt root names : Commanding _).run world = (.ok outcome, after)) :
    outcome = .ok () ↔ after.at? ⟨root, names.reverse⟩ = some .directory := by
  induction names generalizing world after outcome with
  | nil => exact run_makeDirectoryOnce_iff ran
  | cons last above inductionHypothesis =>
    rw [Host.makeDirectoriesAt, run_bind_ok (run_makeDirectory _ world)] at ran
    cases makes : world.makeDirectory ⟨root, (last :: above).reverse⟩ with
    | mk result middle =>
      rw [makes] at ran
      cases result with
      | ok =>
        obtain ⟨rfl, rfl⟩ := by simpa using ran
        exact iff_of_true rfl (at?_of_makeDirectory makes)
      | error problem =>
        obtain ⟨_, rfl⟩ := change_eq_error.mp makes
        cases problem with
        | notFound =>
          -- It is made after those above it, and cannot stand without them.
          dsimp only at ran
          obtain ⟨aboveOutcome, made, making, _⟩ := saves_makeDirectoriesAt root above world
          rw [run_bind_ok making] at ran
          cases aboveOutcome with
          | ok => exact run_makeDirectoryOnce_iff ran
          | error error =>
            obtain ⟨rfl, rfl⟩ := by simpa using ran
            rw [List.reverse_cons]
            refine iff_of_false (by simp) fun there => ?_
            simpa using (inductionHypothesis making).mpr (at?_front there)
        | _ => exact run_standing_iff ran

/-- A file is written exactly when saving it succeeded. -/
theorem run_save_iff
    (ran : (Host.save path content : Commanding _).run world = (.ok outcome, after)) :
    outcome = .ok () ↔ Written after path content := by
  obtain ⟨aboveOutcome, middle, making, _⟩ := saves_makeDirectories path.parent world
  rw [Host.save, run_bind_ok making] at ran
  have stands := run_makeDirectoriesAt_iff making
  rw [List.reverse_reverse] at stands
  cases aboveOutcome with
  | error error =>
    obtain ⟨rfl, rfl⟩ := by simpa using ran
    refine iff_of_false (by simp) fun written => ?_
    simpa using stands.mpr written.within
  | ok =>
    dsimp only at ran
    rw [run_bind_ok (run_write path content middle)] at ran
    cases writes : middle.write path content with
    | mk result finish =>
      rw [writes] at ran
      cases result with
      | ok =>
        obtain ⟨rfl, rfl⟩ := by simpa using ran
        exact iff_of_true rfl
          ⟨(saved_write writes).at?_of_directory (stands.mp rfl), at?_of_write writes⟩
      | error problem =>
        obtain ⟨_, rfl⟩ := change_eq_error.mp writes
        obtain ⟨rfl, rfl⟩ := by simpa using ran
        refine iff_of_false (by simp) fun written => ?_
        obtain ⟨_, wrote⟩ := write_of_file written.stands content
        simp [wrote] at writes

end Commanding

end ImportRedirect
