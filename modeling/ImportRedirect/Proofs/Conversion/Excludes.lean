import ImportRedirect.Proofs.Conversion.Surface
import ImportRedirect.Surface.Snapshot

/-!
The functions that the settings of an engine exclude. Loading a surface leaves them out, so nothing
is moved to them; a surface that was given is taken as it stands, whatever the settings exclude.
-/

namespace ImportRedirect

open Node Emit Script

namespace Surface

variable {surface : Surface} {settings : Settings} {excludes : List String} {name : String}

/-- The surface that the settings name, where files have these contents. -/
def loading (files : Path → Except FileProblem (List UInt8)) (settings : Settings) :
    Except Fault Surface :=
  match settings.surfacePath with
  | none => .ok (bundled settings.excludes)
  | some path => ofFile path.text (files path) settings.excludes

theorem not_covers_ofNames {names : List String} {module : Option String}
    (excluded : name ∈ excludes) : (ofNames names excludes module).covers name = false := by
  rw [Bool.eq_false_iff, ne_eq, covers_ofNames]
  intro covered
  exact covered.2 excluded

theorem ofNames_of_ofFile {path : String} {content : Except FileProblem (List UInt8)}
    (read : ofFile path content excludes = .ok surface) :
    ∃ names module, surface = ofNames names excludes module := by
  unfold ofFile at read
  split at read
  · cases read
  split at read
  · cases read
  split at read
  · cases read
  split at read
  · cases read
  · next snapshot _ =>
    exact ⟨snapshot.exports, some snapshot.module, (Except.ok.inj read).symm⟩

/-- A surface that was loaded is without the excluded names. -/
theorem not_covers_loading {files : Path → Except FileProblem (List UInt8)}
    (loaded : loading files settings = .ok surface) (excluded : name ∈ settings.excludes) :
    surface.covers name = false := by
  unfold loading at loaded
  split at loaded
  · obtain rfl := Except.ok.inj loaded
    exact not_covers_ofNames excluded
  · obtain ⟨names, module, rfl⟩ := ofNames_of_ofFile loaded
    exact not_covers_ofNames excluded

end Surface

namespace Redirector

variable {redirector : Redirector} {target : Value} {referent : Referent} {name : String}

/-- A function of the replacement is asked for by what a binding stands for: by name, or as one of
those that the evidence shows of a binding of the whole module. -/
inductive Asks (redirector : Redirector) (target : Value) (name : String) : Referent → Prop where
  | exported : Asks redirector target name (.exported redirector.replacement name)
  | member : Asks redirector target name (.member redirector.replacement name)
  | whole {used : List String}
      (shown : redirector.evidence redirector.text (Node.name target) = .ok (some used))
      (uses : name ∈ used) : Asks redirector target name (.whole redirector.replacement)
  | required {used : List String}
      (shown : redirector.evidence redirector.text (Node.name target) = .ok (some used))
      (uses : name ∈ used) : Asks redirector target name (.required redirector.replacement)

theorem covers_of_asks (backed : redirector.Backed target referent)
    (asks : redirector.Asks target name referent) : redirector.surface.covers name = true := by
  cases asks with
  | exported =>
    cases backed with
    | exported covered => exact covered
  | member =>
    cases backed with
    | member covered => exact covered
  | whole shown uses =>
    cases backed with
    | whole also covered =>
      obtain rfl := Option.some.inj (Except.ok.inj (shown.symm.trans also))
      exact covered name uses
  | required shown uses =>
    cases backed with
    | required also covered =>
      obtain rfl := Option.some.inj (Except.ok.inj (shown.symm.trans also))
      exact covered name uses

/-- A binding is moved only to what the surface covers. -/
theorem covers_of_redirect {occurrence : Occurrence}
    (moves : redirector.redirect occurrence ≠ occurrence.binding.referent)
    (asks : redirector.Asks occurrence.binding.target name (redirector.redirect occurrence)) :
    redirector.surface.covers name = true := by
  rcases redirector.kept_or_backed occurrence with kept | backed
  · exact absurd kept moves
  · exact covers_of_asks backed asks

end Redirector

namespace Engine

variable {settings : Settings} {given : Option Surface} {evidence : Evidence}
  {excludes : List String} {load : Settings → Except Fault Surface} {engine : Engine}

/-- The ways in which an engine comes by its surface. -/
inductive Surfaced (given : Option Surface) (load : Settings → Except Fault Surface)
    (engine : Engine) : Prop where
  | given (surface : given = some engine.surface) (named : engine.surface.names ≠ [])
  | loaded (unnamed : ∀ surface, given = some surface → surface.names = [])
      (surface : load engine.settings = .ok engine.surface)

/-- What an engine is made of. -/
structure Created (settings : Settings) (given : Option Surface) (evidence : Evidence)
    (excludes : List String) (load : Settings → Except Fault Surface) (engine : Engine) :
    Prop where
  kept : engine.settings = { settings with excludes := engine.settings.excludes }
  excluded : ∀ name, name ∈ engine.settings.excludes ↔ name ∈ settings.excludes ∨ name ∈ excludes
  shown : engine.evidence = evidence
  surfaced : Surfaced given load engine

/-- The settings with the excluded names given on top of theirs. -/
def merged (settings : Settings) (excludes : List String) : Settings :=
  if excludes.isEmpty then settings
  else { settings with excludes := distinctNames [] (settings.excludes ++ excludes) }

theorem excludes_merged (name : String) :
    name ∈ (merged settings excludes).excludes ↔ name ∈ settings.excludes ∨ name ∈ excludes := by
  cases excludes with
  | nil => simp [merged]
  | cons first rest => simp [merged, mem_distinctNames]

theorem merged_eq :
    merged settings excludes =
      { settings with excludes := (merged settings excludes).excludes } := by
  cases excludes <;> rfl

theorem created_of_load
    (unnamed : ∀ surface, given = some surface → surface.names = [])
    (result : (do return ⟨merged settings excludes, ← load (merged settings excludes), evidence⟩ :
      Except Fault Engine) = .ok engine) :
    Created settings given evidence excludes load engine := by
  obtain ⟨surface, loaded, made⟩ := bind_eq_ok.mp result
  obtain rfl := Except.ok.inj made
  exact ⟨merged_eq, excludes_merged, rfl, .loaded unnamed loaded⟩

theorem created_of_create (result : create settings given evidence excludes load = .ok engine) :
    Created settings given evidence excludes load engine := by
  unfold create at result
  cases given with
  | none => exact created_of_load (fun _ impossible => by cases impossible) result
  | some surface =>
    by_cases unnamed : surface.names = []
    · have counted : (surface.size == 0) = true := by simp [Surface.size, unnamed]
      simp only [counted, if_true] at result
      apply created_of_load _ result
      intro other same
      rw [← Option.some.inj same]
      exact unnamed
    · have counted : (surface.size == 0) = false := by simpa [Surface.size] using unnamed
      simp only [counted, Bool.false_eq_true, if_false] at result
      obtain rfl := Except.ok.inj result
      exact ⟨merged_eq, excludes_merged, rfl, .given rfl unnamed⟩

/-- An engine with a loaded surface moves no binding to an excluded function, and one with a given
surface only to those that are in it. -/
theorem create_excludes {files : Path → Except FileProblem (List UInt8)} {code : String}
    {tree : Tree} (answers : evidence.Answers) (parsed : parse code = .ok tree)
    (result : create settings given evidence excludes (Surface.loading files) = .ok engine) :
    let redirector := engine.redirector code
    let walked := redirector.run tree.body .empty
    let before := tree.body.flatMap (occurrences engine.settings.requireCallee)
    Created settings given evidence excludes (Surface.loading files) engine ∧
      ∃ conversion, engine.convert code = .ok conversion ∧
        splice code tree.body walked.body = .ok conversion.code ∧
        (walked.body.flatMap (bindings engine.settings.requireCallee)).Perm
          (before.map redirector.moved) ∧
        ∀ occurrence ∈ before, ∀ name ∈ engine.settings.excludes,
          redirector.redirect occurrence ≠ occurrence.binding.referent →
          redirector.Asks occurrence.binding.target name (redirector.redirect occurrence) →
          ∃ surface, given = some surface ∧ surface.covers name = true := by
  intro redirector walked before
  have created := created_of_create result
  rw [← created.shown] at answers
  obtain ⟨conversion, converts, converted⟩ := engine.convert_of_parse parsed answers
  refine ⟨created, conversion, converts, converted.written, ?_, ?_⟩
  · simp only [walked, Redirector.run_eq]
    have answers : redirector.evidence.Answers := answers
    exact (Redirector.expandAll_bindings answers (regular_of_parse parsed)).2
  · intro occurrence _ name excluded moves asks
    have covered : engine.surface.covers name = true := Redirector.covers_of_redirect moves asks
    cases created.surfaced with
    | given given named => exact ⟨engine.surface, given, covered⟩
    | loaded unnamed loaded =>
      rw [Surface.not_covers_loading loaded excluded] at covered
      cases covered

/-- With a given surface that leaves the excluded name out, that name stays. -/
theorem create_excludes_omit :
    let code := "import{map,omit}from'lodash'"
    let files : Path → Except FileProblem (List UInt8) := fun _ => .error .notFound
    ∃ tree engine conversion, Evidence.Answers Usage.scan ∧ parse code = .ok tree ∧
      create .default (some (.ofNames ["map", "omit"] ["map"] none)) Usage.scan ["map"]
        (Surface.loading files) = .ok engine ∧
      engine.settings.excludes = ["map"] ∧ engine.convert code = .ok conversion ∧
      conversion.code = "import \x7b omit \x7d from 'es-toolkit/compat';\n" ++
        "import \x7b map \x7d from 'lodash';" := by
  intro code files
  let settings : Settings := { Settings.default with excludes := ["map"] }
  let surface : Surface := .ofNames ["map", "omit"] ["map"] none
  have read : (convert ⟨settings, surface, Usage.scan⟩ code).toOption.any (fun conversion =>
      conversion.code == "import \x7b omit \x7d from 'es-toolkit/compat';\n" ++
        "import \x7b map \x7d from 'lodash';") = true := by decide +kernel
  cases parsed : parse code with
  | error offset => simp [convert, parsed, Except.toOption, code] at read
  | ok tree =>
    have result : create .default (some surface) Usage.scan ["map"] (Surface.loading files) =
        .ok ⟨settings, surface, Usage.scan⟩ := rfl
    obtain ⟨_, conversion, converts, _⟩ := create_excludes Usage.scan_answers parsed result
    rw [converts] at read
    exact ⟨tree, _, conversion, Usage.scan_answers, rfl, result, rfl, converts,
      by simpa [Except.toOption] using read⟩

/-- A given surface that has an excluded name moves it. -/
theorem create_excludes_given :
    let code := "import{map}from'lodash'"
    let settings : Settings := { Settings.default with excludes := ["map"] }
    let files : Path → Except FileProblem (List UInt8) := fun _ => .error .notFound
    ∃ engine conversion,
      create settings (some (.ofNames ["map"] [] none)) Usage.scan [] (Surface.loading files) =
        .ok engine ∧
      "map" ∈ engine.settings.excludes ∧ engine.convert code = .ok conversion ∧
      conversion.code = "import \x7b map \x7d from 'es-toolkit/compat';" := by
  intro code settings files
  have read : (convert ⟨settings, .ofNames ["map"] [] none, Usage.scan⟩ code).toOption.any
      (fun conversion => conversion.code == "import \x7b map \x7d from 'es-toolkit/compat';") =
      true := by decide +kernel
  cases converts : convert ⟨settings, .ofNames ["map"] [] none, Usage.scan⟩ code with
  | error fault => simp [converts, Except.toOption] at read
  | ok conversion =>
    rw [converts] at read
    exact ⟨_, conversion, rfl, List.mem_singleton.mpr rfl, converts,
      by simpa [Except.toOption] using read⟩

end Engine

end ImportRedirect
