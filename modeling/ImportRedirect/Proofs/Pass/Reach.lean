import ImportRedirect.Proofs.Binding.Referent
import ImportRedirect.Proofs.Pass.Concatenation
import ImportRedirect.Proofs.Record
import Mathlib.Data.List.Forall2

/-!
How far a pass reaches. The module of a statement that changes is one of the legacy modules or has a
name that begins as the settings say; a list of the settings without entries lets an empty name take
the place of its entries.
-/

namespace ImportRedirect

open Node

namespace Settings

variable {settings : Settings} {module function : String}

/-- A module is legacy, or a file below a legacy module, or a package of a legacy family. -/
inductive Belongs (settings : Settings) (module : String) : Prop where
  | legacy (listed : module ∈ settings.legacyModules)
  | file {legacy : String} (listed : legacy ∈ settings.legacyModules)
      (below : (legacy ++ "/").toList <+: module.toList)
  | package {package : String} (listed : package ∈ settings.dottedPrefixes)
      (below : (package ++ ".").toList <+: module.toList)

/-- A module that a pass looks at: one that belongs to the settings, or one that a list without
entries lets through. -/
inductive Reaches (settings : Settings) (module : String) : Prop where
  | belongs (belongs : settings.Belongs module)
  | anyFile (unlisted : settings.legacyModules = []) (below : ['/'] <+: module.toList)
  | anyPackage (unlisted : settings.dottedPrefixes = []) (below : ['.'] <+: module.toList)

theorem Reaches.belongs_of_lists (reaches : settings.Reaches module)
    (someLegacy : settings.legacyModules ≠ []) (somePrefix : settings.dottedPrefixes ≠ []) :
    settings.Belongs module := by
  cases reaches with
  | belongs belongs => exact belongs
  | anyFile unlisted => exact absurd unlisted someLegacy
  | anyPackage unlisted => exact absurd unlisted somePrefix

theorem mem_alternatives {names : List String} {name : String}
    (listed : name ∈ alternatives names) : name ∈ names ∨ names = [] ∧ name = "" := by
  unfold alternatives at listed
  split at listed
  · next unlisted =>
    exact .inr ⟨List.isEmpty_iff.mp unlisted, List.mem_singleton.mp listed⟩
  · exact .inl listed

theorem prefix_of_afterText? {front : String} {text rest : List Char}
    (found : afterText? front text = some rest) : front.toList <+: text := by
  unfold afterText? at found
  split at found
  · next fits => exact List.isPrefixOf_iff_prefix.mp fits
  · cases found

theorem reaches_of_deepName? (found : settings.deepName? module = some function) :
    settings.Reaches module := by
  obtain ⟨legacy, listed, matched⟩ := List.exists_of_findSome?_eq_some found
  have below : (legacy ++ "/").toList <+: module.toList := by
    cases after : afterText? (legacy ++ "/") module.toList with
    | none => simp [after] at matched
    | some rest => exact prefix_of_afterText? after
  rcases mem_alternatives listed with listed | ⟨unlisted, rfl⟩
  · exact .belongs (.file listed below)
  · exact .anyFile unlisted below

theorem reaches_of_dottedName? (found : settings.dottedName? module = some function) :
    settings.Reaches module := by
  obtain ⟨package, listed, matched⟩ := List.exists_of_findSome?_eq_some found
  have below : (package ++ ".").toList <+: module.toList := by
    cases after : afterText? (package ++ ".") module.toList with
    | none => simp [after] at matched
    | some rest => exact prefix_of_afterText? after
  rcases mem_alternatives listed with listed | ⟨unlisted, rfl⟩
  · exact .belongs (.package listed below)
  · exact .anyPackage unlisted below

theorem reaches_of_isLegacy (legacy : settings.isLegacy module = true) :
    settings.Reaches module :=
  .belongs (.legacy (List.contains_iff_mem.mp legacy))

end Settings

theorem Classifier.reaches_of_singleFunction? {classifier : Classifier} {module : String}
    {found : SingleForm × String} (single : classifier.singleFunction? module = some found) :
    classifier.settings.Reaches module := by
  unfold singleFunction? at single
  split at single
  · next deep => exact Settings.reaches_of_deepName? deep
  · split at single
    · next dotted => exact Settings.reaches_of_dottedName? dotted
    · cases single

namespace Node

variable {node source declarator argument : Value} {specifiers : List Value}
  {module callee : String}

/-- The module that a statement imports from, or that its one declarator requires. -/
def moduleText? (callee : String) (node : Value) : Option String :=
  if hasType node "ImportDeclaration" then text? (node.peek "source")
  else if hasType node "VariableDeclaration" then
    match items (node.peek "declarations") with
    | [declarator] => requiredText? callee (declarator.peek "init")
    | _ => none
  else none

theorem moduleText?_of_imports (imports : Imports node source specifiers) :
    moduleText? callee node = text? source := by
  simp [moduleText?, imports.kind, imports.source_eq]

theorem moduleText?_of_calls (declares : Declares node declarator)
    (calls : Calls (declarator.peek "init") callee argument) :
    moduleText? callee node = text? argument := by
  have different : hasType node "ImportDeclaration" = false := by
    simp [hasType, type_eq_peek, hasType_iff.mp declares.kind]
  simp [moduleText?, different, declares.kind, declares.declarations, items,
    requiredText?_of_calls calls]

end Node

namespace Redirector

variable (redirector : Redirector) {node : Value}

/-- A statement refers to a module that the settings reach. -/
def Touchable (redirector : Redirector) (node : Value) : Prop :=
  ∃ module, moduleText? redirector.classifier.settings.requireCallee node = some module ∧
    redirector.classifier.settings.Reaches module

theorem expand_of_visit {outcome : Except Fault Outcome}
    (visited : redirector.visit node = (outcome, Site.of (some node)))
    (once : outcome ≠ .ok .reprocess) : (redirector.expand node).statements = [node] := by
  have settled : redirector.expand node = redirector.settle node := by
    apply redirector.expand_of_ne
    intro site again
    rw [visited] at again
    exact once (Prod.mk.inj again).1
  rw [settled]
  cases outcome with
  | error fault => rw [redirector.settle_of_error visited]; rfl
  | ok outcome => rw [redirector.settle_of_ok visited]; rfl

theorem kept_or_touchable (node : Value) :
    (redirector.expand node).statements = [node] ∨ redirector.Touchable node := by
  have inspected := redirector.visited node
  generalize visited : redirector.visit node = result at inspected
  cases inspected with
  | failed => exact .inl (redirector.expand_of_visit visited (by simp))
  | unrecognized => exact .inl (redirector.expand_of_visit visited (by simp))
  | combined imports text legacy | default imports text legacy | named imports text legacy =>
    exact .inr ⟨_, (moduleText?_of_imports imports).trans text,
      Settings.reaches_of_isLegacy legacy⟩
  | singleImport imports text _ single =>
    exact .inr ⟨_, (moduleText?_of_imports imports).trans text,
      Classifier.reaches_of_singleFunction? single⟩
  | requireModule declares calls text legacy =>
    exact .inr ⟨_, (moduleText?_of_calls declares calls).trans text,
      Settings.reaches_of_isLegacy legacy⟩
  | singleRequire declares calls text _ single =>
    exact .inr ⟨_, (moduleText?_of_calls declares calls).trans text,
      Classifier.reaches_of_singleFunction? single⟩

/-- What stands for a statement after a pass: the statement, or, if it can be touched, what the pass
over that statement alone leaves. -/
def Yields (redirector : Redirector) (node : Value) (part : List Value) : Prop :=
  part = [node] ∨ part = (redirector.run [node] .empty).body ∧ redirector.Touchable node

theorem yields_run (node : Value) :
    redirector.Yields node (redirector.run [node] .empty).body := by
  rcases redirector.kept_or_touchable node with kept | touchable
  · exact .inl (by rw [run_singleton, kept])
  · exact .inr ⟨rfl, touchable⟩

theorem forall₂_yields {leave : Value → List Value}
    (yields : ∀ node, redirector.Yields node (leave node)) (body : List Value) :
    List.Forall₂ redirector.Yields body (body.map leave) :=
  List.forall₂_map_right_iff.mpr (List.forall₂_same.mpr fun node _ => yields node)

/-- A pass changes only statements whose module belongs to the settings, unless the settings have no
legacy modules or no prefixes: then every module counts whose name begins with what follows these. -/
theorem run_touches (body : List Value) (trace : Trace) :
    let settings := redirector.classifier.settings
    (∃ parts, (redirector.run body trace).body = parts.flatten ∧
      List.Forall₂ redirector.Yields body parts) ∧
    (settings.legacyModules ≠ [] → settings.dottedPrefixes ≠ [] →
      ∀ module, settings.Reaches module ↔ settings.Belongs module) := by
  intro settings
  refine ⟨?_, fun someLegacy somePrefix module =>
    ⟨fun reaches => reaches.belongs_of_lists someLegacy somePrefix, .belongs⟩⟩
  have joined := redirector.run_concatenates body trace .empty
  have kept : ∀ node, redirector.Yields node [node] := fun _ => .inl rfl
  cases faulted : (redirector.run body trace).fault with
  | none =>
    rw [faulted] at joined
    refine ⟨_, ?_, redirector.forall₂_yields redirector.yields_run body⟩
    rw [joined.2.1, List.flatMap_def]
  | some fault =>
    rw [faulted] at joined
    obtain ⟨before, node, after, rfl, _, _, written⟩ := joined
    have front := redirector.forall₂_yields redirector.yields_run (before ++ [node])
    have back := redirector.forall₂_yields kept after
    rw [written, List.append_cons]
    refine ⟨_, ?_, List.rel_append front back⟩
    simp only [List.flatten_append, ← List.flatMap_def, List.flatMap_append, List.flatMap_cons,
      List.flatMap_nil, List.append_nil, List.flatMap_singleton']

/-- An import whose module is a path from the root. -/
def rootedImport : Value :=
  .obj [("type", .str "ImportDeclaration"),
    ("specifiers", .arr [.obj [("type", defaultSpecifier), ("local", identifier (.str "map"))]]),
    ("source", .obj [("type", .str "Literal"), ("value", .str "/map.js"),
      ("raw", .str "'/map.js'")])]

/-- Settings may list no legacy module and no prefix. A module that belongs to nothing is redirected
with them. -/
theorem run_touches_rooted :
    let fields := [("legacy_modules", .arr []), ("dotted_prefixes", .arr [])]
    ∃ settings, Settings.ofFields fields = .ok settings ∧ ¬ settings.Belongs "/map.js" ∧
      moduleText? settings.requireCallee rootedImport = some "/map.js" ∧
      ((⟨⟨settings, .ofNames ["map"] [] none⟩, Usage.scan, ""⟩ : Redirector).run
        [rootedImport] .empty).body ≠ [rootedImport] := by
  intro fields
  let settings : Settings := { Settings.default with legacyModules := [], dottedPrefixes := [] }
  refine ⟨settings, ?_, ?_, ?_, ?_⟩
  · decide +kernel
  · intro belongs
    cases belongs with
    | legacy listed | file listed | package listed => cases listed
  · decide +kernel
  · decide +kernel

end Redirector

end ImportRedirect
